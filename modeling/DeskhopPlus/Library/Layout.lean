import DeskhopPlus.Library.Bytes
import Mathlib.Algebra.Ring.Nat
import Mathlib.Data.List.SplitLengths

/-!
# Layouts of fields

A message of a fixed length is a row of fields of fixed widths. A decoder of such a message reads
the fields off the byte string. It undoes the encoder, and the encoder undoes it, as soon as the
fields of what is read are what the byte string splits into and different values have different
fields (`FixedCodec.decode_iff`).
-/

namespace DeskhopPlus.Layout

open Bytes

variable {α : Type}

/-- Fields written one after the other are split again by their lengths. -/
theorem splitLengths_flatten (fields : List (List UInt8)) :
    (fields.map List.length).splitLengths fields.flatten = fields := by
  induction fields with
  | nil => rfl
  | cons field fields ih =>
      rw [List.map_cons, List.flatten_cons, List.splitLengths_cons, List.take_left, List.drop_left,
        ih]

/-- A decoder that reads off the fields of a fixed layout. -/
structure FixedCodec (decode : List UInt8 → Option α) (fields : α → List (List UInt8))
    (Sized : α → Prop) (widths : List Nat) : Prop where
  refused : ∀ bytes, bytes.length ≠ widths.sum → decode bytes = none
  accepted : ∀ bytes, bytes.length = widths.sum →
    ∃ message, decode bytes = some message ∧ Sized message ∧
      fields message = widths.splitLengths bytes
  width : ∀ message, Sized message → (fields message).map List.length = widths
  known : ∀ message other, Sized message → Sized other → fields message = fields other →
    message = other

namespace FixedCodec

variable {decode : List UInt8 → Option α} {fields : α → List (List UInt8)} {Sized : α → Prop}
  {widths : List Nat}

theorem body_length (h : FixedCodec decode fields Sized widths) {message : α}
    (hsized : Sized message) : (fields message).flatten.length = widths.sum := by
  rw [List.length_flatten, h.width message hsized]

/-- The decoder accepts the fields of a message and nothing else, and gives that message. -/
theorem decode_iff (h : FixedCodec decode fields Sized widths) {bytes : List UInt8} {message : α} :
    decode bytes = some message ↔ Sized message ∧ bytes = (fields message).flatten := by
  constructor
  · intro hdecode
    by_cases hlength : bytes.length = widths.sum
    · obtain ⟨other, hother, hsized, hfields⟩ := h.accepted bytes hlength
      rw [hother, Option.some.injEq] at hdecode
      rw [← hdecode, hfields, List.flatten_splitLengths bytes widths (Nat.le_of_eq hlength)]
      exact ⟨hsized, rfl⟩
    · rw [h.refused bytes hlength] at hdecode
      cases hdecode
  · rintro ⟨hsized, rfl⟩
    obtain ⟨other, hother, hsized', hfields⟩ := h.accepted _ (h.body_length hsized)
    rw [← h.width message hsized, splitLengths_flatten] at hfields
    rw [hother, h.known other message hsized' hsized hfields]

end FixedCodec

/-! ## Reading a field -/

variable {bytes : List UInt8} {place width : Nat}

theorem length_slice (h : place + width ≤ bytes.length) :
    ((bytes.drop place).take width).length = width := by
  rw [List.length_take, List.length_drop]
  omega

/-- A number that was read is spelled by the bytes it was read from. -/
theorem littleEndian_value_slice (h : place + width ≤ bytes.length) :
    littleEndian width (value ((bytes.drop place).take width)) = (bytes.drop place).take width := by
  have hback := littleEndian_value ((bytes.drop place).take width)
  rw [length_slice h] at hback
  exact hback

theorem value_slice_lt (h : place + width ≤ bytes.length) :
    value ((bytes.drop place).take width) < 256 ^ width := by
  have hbound := value_lt ((bytes.drop place).take width)
  rw [length_slice h] at hbound
  exact hbound

theorem littleEndian_value_take (h : width ≤ bytes.length) :
    littleEndian width (value (bytes.take width)) = bytes.take width :=
  @littleEndian_value_slice bytes 0 width (by rw [Nat.zero_add]; exact h)

theorem value_take_lt (h : width ≤ bytes.length) : value (bytes.take width) < 256 ^ width :=
  @value_slice_lt bytes 0 width (by rw [Nat.zero_add]; exact h)

/-- A byte that was read is a field of one byte. -/
theorem getD_slice (h : place < bytes.length) :
    [bytes.getD place 0] = (bytes.drop place).take 1 := by
  rw [List.drop_eq_getElem_cons h, List.getD_eq_getElem?_getD, List.getElem?_eq_getElem h]
  rfl

/-- Numbers of as many bytes are known from them. -/
theorem littleEndian_inj {number other : Nat} (hnumber : number < 256 ^ width)
    (hother : other < 256 ^ width) (h : littleEndian width number = littleEndian width other) :
    number = other := by
  rw [← value_littleEndian_of_lt hnumber, h, value_littleEndian_of_lt hother]

end DeskhopPlus.Layout
