import Mathlib.Data.List.Basic
import Mathlib.Data.List.TakeDrop
import Mathlib.Data.Nat.Basic
import Mathlib.Tactic.Ring

/-!
# Byte strings

Little-endian numbers and block copies over lists of bytes. `overwrite buffer offset data` is
the buffer after `memcpy(buffer + offset, data, length)`; `overwrite_getElem?` says which byte
stands where afterwards.
-/

namespace DeskhopPlus.Bytes

/-- The `width` low bytes of `value`, least significant first. -/
def littleEndian : Nat → Nat → List UInt8
  | 0, _ => []
  | width + 1, value => UInt8.ofNat value :: littleEndian width (value / 256)

/-- The number a byte string spells, least significant byte first. -/
def value : List UInt8 → Nat
  | [] => 0
  | byte :: rest => byte.toNat + 256 * value rest

@[simp] theorem littleEndian_length (width number : Nat) :
    (littleEndian width number).length = width := by
  induction width generalizing number with
  | zero => rfl
  | succ width ih => simp [littleEndian, ih]

theorem value_lt (bytes : List UInt8) : value bytes < 256 ^ bytes.length := by
  induction bytes with
  | nil => simp [value]
  | cons byte rest ih =>
      have hbyte : byte.toNat < 256 := byte.toNat_lt
      simp only [value, List.length_cons, Nat.pow_succ]
      omega

/-- Reading back a number of enough bytes. -/
theorem value_littleEndian (width number : Nat) :
    value (littleEndian width number) = number % 256 ^ width := by
  induction width generalizing number with
  | zero => simp [littleEndian, value, Nat.mod_one]
  | succ width ih =>
      have hhead : (UInt8.ofNat number).toNat = number % 256 := by simp
      have hsplit : number % 256 ^ (width + 1) =
          number % 256 + 256 * (number / 256 % 256 ^ width) := by
        rw [Nat.pow_succ', Nat.mod_mul]
      simp only [littleEndian, value, ih, hhead, hsplit]

theorem value_littleEndian_of_lt {width number : Nat} (h : number < 256 ^ width) :
    value (littleEndian width number) = number := by
  rw [value_littleEndian, Nat.mod_eq_of_lt h]

/-- A byte string is spelled again by the number it spells. -/
theorem littleEndian_value (bytes : List UInt8) :
    littleEndian bytes.length (value bytes) = bytes := by
  induction bytes with
  | nil => rfl
  | cons byte rest ih =>
      have hbyte : byte.toNat < 256 := byte.toNat_lt
      have hhead : UInt8.ofNat (byte.toNat + 256 * value rest) = byte := by
        apply UInt8.toNat.inj
        rw [UInt8.toNat_ofNat']
        omega
      have htail : (byte.toNat + 256 * value rest) / 256 = value rest := by omega
      rw [List.length_cons, littleEndian, value, hhead, htail, ih]

/-- The buffer after copying `data` to `offset`. -/
def overwrite (buffer : List UInt8) (offset : Nat) (data : List UInt8) : List UInt8 :=
  buffer.take offset ++ data ++ buffer.drop (offset + data.length)

/-- A copy that fits does not move the end of the buffer. -/
theorem overwrite_length {buffer data : List UInt8} {offset : Nat}
    (hfits : offset + data.length ≤ buffer.length) :
    (overwrite buffer offset data).length = buffer.length := by
  simp only [overwrite, List.length_append, List.length_take, List.length_drop]
  omega

/-- A byte inside the copied range is the copied one, any other byte is the old one. -/
theorem overwrite_getElem? {buffer data : List UInt8} {offset : Nat}
    (hoffset : offset ≤ buffer.length) (index : Nat) :
    (overwrite buffer offset data)[index]? =
      if offset ≤ index ∧ index < offset + data.length then data[index - offset]?
      else buffer[index]? := by
  have htake : (buffer.take offset).length = offset := by simp [hoffset]
  unfold overwrite
  by_cases hlow : index < offset
  · rw [List.append_assoc, List.getElem?_append_left (by omega),
      List.getElem?_take_of_lt hlow, if_neg (by omega)]
  · by_cases hhigh : index < offset + data.length
    · rw [List.append_assoc, List.getElem?_append_right (by omega), htake,
        List.getElem?_append_left (by omega), if_pos (by omega)]
    · rw [List.getElem?_append_right (by simp only [List.length_append, htake]; omega),
        if_neg (by omega), List.getElem?_drop]
      congr 1
      simp only [List.length_append, htake]
      omega

end DeskhopPlus.Bytes
