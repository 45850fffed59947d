import Mathlib.Data.Nat.Digits.Defs
import Mathlib.Tactic.Ring

/-!
# Bit slices of byte strings

A byte string as a little-endian number, and the bits from a place on as a word of a width. A shift
by whole bytes drops them (`number_shiftRight`), so the bits past the end of the string are zero.
-/

namespace DeskhopPlus.Slices

/-- The little-endian number of a byte string. -/
def number (bytes : List UInt8) : Nat := Nat.ofDigits 256 (bytes.map UInt8.toNat)

/-- The bits of a byte string from `offset` on, `width` of them. -/
def slice (bytes : List UInt8) (offset width : Nat) : BitVec width :=
  BitVec.ofNat width (number bytes >>> offset)

@[simp] theorem number_nil : number [] = 0 := rfl

@[simp] theorem number_cons (byte : UInt8) (bytes : List UInt8) :
    number (byte :: bytes) = byte.toNat + 256 * number bytes := by
  rw [number, List.map_cons, Nat.ofDigits_cons, number]

/-- Moving down by whole bytes drops them. -/
theorem number_shiftRight (bytes : List UInt8) (count : Nat) :
    number bytes >>> (8 * count) = number (bytes.drop count) := by
  induction count generalizing bytes with
  | zero => rfl
  | succ count ih =>
      cases bytes with
      | nil => simp
      | cons byte bytes =>
          have hbyte := byte.toNat_lt
          rw [List.drop_succ_cons, ← ih, Nat.mul_succ, Nat.add_comm (8 * count), Nat.shiftRight_add,
            number_cons, Nat.shiftRight_eq_div_pow _ 8]
          congr 1
          omega

end DeskhopPlus.Slices
