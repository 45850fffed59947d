import DeskhopPlus.Library.Bytes

/-!
# Reassembly from blocks

A payload cut into blocks of one size, the last one shorter, and a buffer the blocks are copied
into at their own places. `take_eq_of_holds` says that a buffer that holds every block holds the
payload.
-/

namespace DeskhopPlus.Blocks

open Bytes

/-- The bytes of block `index`. -/
def block (size : Nat) (payload : List UInt8) (index : Nat) : List UInt8 :=
  (payload.drop (index * size)).take size

/-- The buffer agrees with the payload on every position of block `index`. -/
def Holds (size : Nat) (buffer payload : List UInt8) (index : Nat) : Prop :=
  ∀ position < payload.length, position / size = index → buffer[position]? = payload[position]?

variable {size index other : Nat} {buffer payload : List UInt8}

theorem block_length_le (size : Nat) (payload : List UInt8) (index : Nat) :
    (block size payload index).length ≤ size := by
  simp [block]

/-- The first blocks, one behind the other, are the start of the payload. -/
theorem flatten_blocks (size : Nat) (payload : List UInt8) (count : Nat) :
    ((List.range count).map (block size payload)).flatten = payload.take (count * size) := by
  induction count with
  | zero => simp
  | succ count ih =>
      rw [List.range_succ, List.map_append, List.flatten_append, ih, List.map_singleton,
        List.flatten_singleton, Nat.succ_mul, List.take_add]
      rfl

/-- Copying a block to its place makes the buffer hold it. -/
theorem holds_overwrite (hsize : 0 < size) (hplace : index * size ≤ buffer.length) :
    Holds size (overwrite buffer (index * size) (block size payload index)) payload index := by
  intro position hposition hblock
  have hlow : index * size ≤ position := by
    rw [← hblock]
    exact Nat.div_mul_le_self position size
  have hhigh : position < index * size + size := by
    rw [← hblock]
    exact Nat.lt_div_mul_add hsize
  rw [overwrite_getElem? hplace, if_pos]
  · rw [block, List.getElem?_take_of_lt (by omega), List.getElem?_drop]
    congr 1
    omega
  · refine ⟨hlow, ?_⟩
    simp only [block, List.length_take, List.length_drop]
    omega

/-- Copying one block leaves the others as they are. -/
theorem Holds.overwrite_other (h : Holds size buffer payload other)
    (hplace : index * size ≤ buffer.length) (hne : other ≠ index) :
    Holds size (overwrite buffer (index * size) (block size payload index)) payload other := by
  intro position hposition hblock
  rw [overwrite_getElem? hplace, if_neg]
  · exact h position hposition hblock
  · rintro ⟨hlow, hhigh⟩
    have hlength := block_length_le size payload index
    refine hne (hblock ▸ ?_)
    refine Nat.div_eq_of_lt_le hlow ?_
    rw [Nat.succ_mul]
    omega

/-- A buffer that holds every block of a payload starts with the payload. -/
theorem take_eq_of_holds
    (hall : ∀ index, index * size < payload.length → Holds size buffer payload index) :
    buffer.take payload.length = payload := by
  apply List.ext_getElem?
  intro position
  by_cases hposition : position < payload.length
  · rw [List.getElem?_take_of_lt hposition]
    refine hall (position / size) ?_ position hposition rfl
    exact (Nat.div_mul_le_self position size).trans_lt hposition
  · rw [List.getElem?_take_eq_none (by omega), List.getElem?_eq_none (by omega)]

end DeskhopPlus.Blocks
