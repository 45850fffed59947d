import Mathlib.Algebra.Ring.Nat
import Mathlib.Data.Int.Basic

/-!
# A counter that wraps

A clock counts without end, and a program reads it modulo `2 ^ 32` or `2 ^ 64`. The difference of
two readings is the time between them as long as the counter has not gone all the way round; taken
as a signed number, it is so as long as the time is less than half the range of the counter,
whichever of the two comes first.
-/

namespace DeskhopPlus.Clock

/-- What a 32-bit counter shows at a time. -/
def reading (time : Nat) : UInt32 := UInt32.ofNat time

/-- The difference of two readings is the time between them. -/
theorem toNat_elapsed {now stamp : Nat} (horder : stamp ≤ now) (hturn : now < stamp + 2 ^ 32) :
    (reading now - reading stamp).toNat = now - stamp := by
  have hnat : (reading now - reading stamp).toNat =
      (2 ^ 32 - stamp % 2 ^ 32 + now % 2 ^ 32) % 2 ^ 32 := by
    simp [reading, UInt32.toNat_sub]
  rw [hnat]
  omega

/-- A comparison of a span with the elapsed time. -/
theorem le_elapsed {now stamp : Nat} {span : UInt32} (horder : stamp ≤ now)
    (hturn : now < stamp + 2 ^ 32) :
    span ≤ reading now - reading stamp ↔ span.toNat ≤ now - stamp := by
  rw [UInt32.le_iff_toNat_le, toNat_elapsed horder hturn]

/-- A comparison of the elapsed time with a span. -/
theorem elapsed_le {now stamp : Nat} {span : UInt32} (horder : stamp ≤ now)
    (hturn : now < stamp + 2 ^ 32) :
    reading now - reading stamp ≤ span ↔ now - stamp ≤ span.toNat := by
  rw [UInt32.le_iff_toNat_le, toNat_elapsed horder hturn]

/-- The signed difference of two readings is the time between them. -/
theorem toInt_elapsed {now stamp : Nat} (hbefore : now < stamp + 2 ^ 31)
    (hafter : stamp < now + 2 ^ 31) :
    (reading now - reading stamp).toInt32.toInt = (now : Int) - stamp := by
  have hnat : (reading now - reading stamp).toNat =
      (2 ^ 32 - stamp % 2 ^ 32 + now % 2 ^ 32) % 2 ^ 32 := by
    simp [reading, UInt32.toNat_sub]
  show (reading now - reading stamp).toBitVec.toInt = _
  rw [BitVec.toInt_eq_toNat_bmod]
  show Int.bmod (reading now - reading stamp).toNat _ = _
  rw [hnat, Int.bmod_def]
  omega

/-- A span of less than half the range is read as it is. -/
theorem toInt_span {span : UInt32} (hspan : span.toNat < 2 ^ 31) :
    span.toInt32.toInt = span.toNat := by
  show span.toBitVec.toInt = _
  rw [BitVec.toInt_eq_toNat_bmod]
  show Int.bmod span.toNat _ = _
  rw [Int.bmod_def]
  omega

/-- A signed comparison of the elapsed time with a span. -/
theorem span_le_elapsed {now stamp : Nat} {span : UInt32} (hspan : span.toNat < 2 ^ 31)
    (hbefore : now < stamp + 2 ^ 31) (hafter : stamp < now + 2 ^ 31) :
    span.toInt32 ≤ (reading now - reading stamp).toInt32 ↔ stamp + span.toNat ≤ now := by
  rw [Int32.le_iff_toInt_le, toInt_elapsed hbefore hafter, toInt_span hspan]
  omega

/-- A signed comparison of a span with the elapsed time, strictly. -/
theorem span_lt_elapsed {now stamp : Nat} {span : UInt32} (hspan : span.toNat < 2 ^ 31)
    (hbefore : now < stamp + 2 ^ 31) (hafter : stamp < now + 2 ^ 31) :
    span.toInt32 < (reading now - reading stamp).toInt32 ↔ stamp + span.toNat < now := by
  rw [Int32.lt_iff_toInt_lt, toInt_elapsed hbefore hafter, toInt_span hspan]
  omega

/-! ## Sixty-four bits -/

/-- What a 64-bit counter shows at a time. -/
def wideReading (time : Nat) : UInt64 := UInt64.ofNat time

/-- The signed difference of two readings is the time between them. -/
theorem toInt_elapsed_wide {now stamp : Nat} (hbefore : now < stamp + 2 ^ 63)
    (hafter : stamp < now + 2 ^ 63) :
    (wideReading now - wideReading stamp).toInt64.toInt = (now : Int) - stamp := by
  have hnat : (wideReading now - wideReading stamp).toNat =
      (2 ^ 64 - stamp % 2 ^ 64 + now % 2 ^ 64) % 2 ^ 64 := by
    simp [wideReading, UInt64.toNat_sub]
  show (wideReading now - wideReading stamp).toBitVec.toInt = _
  rw [BitVec.toInt_eq_toNat_bmod]
  show Int.bmod (wideReading now - wideReading stamp).toNat _ = _
  rw [hnat, Int.bmod_def]
  omega

/-- A span of less than half the range is read as it is. -/
theorem toInt_span_wide {span : UInt64} (hspan : span.toNat < 2 ^ 63) :
    span.toInt64.toInt = span.toNat := by
  show span.toBitVec.toInt = _
  rw [BitVec.toInt_eq_toNat_bmod]
  show Int.bmod span.toNat _ = _
  rw [Int.bmod_def]
  omega

/-- A signed comparison of the elapsed time with a span, strictly. -/
theorem elapsed_lt_span_wide {now stamp : Nat} {span : UInt64} (hspan : span.toNat < 2 ^ 63)
    (hbefore : now < stamp + 2 ^ 63) (hafter : stamp < now + 2 ^ 63) :
    (wideReading now - wideReading stamp).toInt64 < span.toInt64 ↔ now < stamp + span.toNat := by
  rw [Int64.lt_iff_toInt_lt, toInt_elapsed_wide hbefore hafter, toInt_span_wide hspan]
  omega

/-- A signed comparison of two readings. -/
theorem elapsed_pos_wide {time other : Nat} (htime : time < 2 ^ 63) (hother : other < 2 ^ 63) :
    0 < (wideReading time - wideReading other).toInt64 ↔ other < time := by
  have hzero : Int64.toInt 0 = 0 := by decide
  rw [Int64.lt_iff_toInt_lt, toInt_elapsed_wide (by omega) (by omega), hzero]
  omega

/-- A signed comparison of a span with the elapsed time. -/
theorem span_le_elapsed_wide {now stamp : Nat} {span : UInt64} (hspan : span.toNat < 2 ^ 63)
    (hbefore : now < stamp + 2 ^ 63) (hafter : stamp < now + 2 ^ 63) :
    span.toInt64 ≤ (wideReading now - wideReading stamp).toInt64 ↔ stamp + span.toNat ≤ now := by
  rw [Int64.le_iff_toInt_le, toInt_elapsed_wide hbefore hafter, toInt_span_wide hspan]
  omega

end DeskhopPlus.Clock
