import Mathlib.Data.List.Basic
import Mathlib.Logic.Function.Iterate

/-!
# Cyclic remainders

A shift register of any width that takes a string of bits and mixes in its polynomial whenever a
one falls out of its low end. Its turns are linear in exclusive or, and where the polynomial has its
top bit they lose nothing. So two strings that differ in one burst no wider than the register leave
different remainders (`remainder_ne_of_burst`).
-/

namespace DeskhopPlus.Remainder

variable {w : Nat} (poly : BitVec w)

/-! ## The register -/

/-- The register moves down, and where a one falls out the polynomial is mixed in. -/
def shift (r : BitVec w) : BitVec w :=
  if r.getLsbD 0 then (r >>> 1) ^^^ poly else r >>> 1

/-- A register that holds one bit, at its low end. -/
def lowBit (bit : Bool) : BitVec w := BitVec.setWidth w (BitVec.ofBool bit)

/-- The register takes a bit. -/
def feed (r : BitVec w) (bit : Bool) : BitVec w := shift poly (r ^^^ lowBit bit)

/-- What a register is left with after a string of bits. -/
def remainder (r : BitVec w) (bits : List Bool) : BitVec w := bits.foldl (feed poly) r

variable {poly}

theorem remainder_append (r : BitVec w) (first second : List Bool) :
    remainder poly r (first ++ second) = remainder poly (remainder poly r first) second :=
  List.foldl_append

theorem xor_comm_middle (a b c d : BitVec w) : a ^^^ b ^^^ (c ^^^ d) = a ^^^ c ^^^ (b ^^^ d) := by
  rw [BitVec.xor_assoc, ← BitVec.xor_assoc b c d, BitVec.xor_comm b c, BitVec.xor_assoc c b d,
    ← BitVec.xor_assoc]

/-- A turn is linear. -/
theorem shift_xor (a b : BitVec w) : shift poly (a ^^^ b) = shift poly a ^^^ shift poly b := by
  simp only [shift, BitVec.getLsbD_xor, BitVec.ushiftRight_xor_distrib]
  cases a.getLsbD 0 <;> cases b.getLsbD 0
  · rfl
  · exact BitVec.xor_assoc ..
  · show a >>> 1 ^^^ b >>> 1 ^^^ poly = a >>> 1 ^^^ poly ^^^ b >>> 1
    rw [BitVec.xor_assoc, BitVec.xor_comm (b >>> 1), BitVec.xor_assoc]
  · -- the polynomial is mixed in twice on the right, and so not at all
    show a >>> 1 ^^^ b >>> 1 = a >>> 1 ^^^ poly ^^^ (b >>> 1 ^^^ poly)
    rw [xor_comm_middle, BitVec.xor_self, BitVec.xor_zero]

@[simp] theorem shift_zero : shift poly 0#w = 0#w := by simp [shift]

@[simp] theorem lowBit_false : lowBit false = 0#w := by
  ext i
  simp [lowBit]

theorem lowBit_xor (a b : Bool) : lowBit (a ^^ b) = (lowBit a ^^^ lowBit b : BitVec w) := by
  cases a <;> cases b <;> simp

/-- Where nothing falls out, a register only moves down. -/
theorem shift_of_low {r : BitVec w} (h : r.getLsbD 0 = false) : shift poly r = r >>> 1 := by
  rw [shift, h]
  rfl

theorem iterate_shift_xor (count : Nat) (a b : BitVec w) :
    (shift poly)^[count] (a ^^^ b) = (shift poly)^[count] a ^^^ (shift poly)^[count] b := by
  induction count generalizing a b with
  | zero => rfl
  | succ count ih => rw [Function.iterate_succ_apply, shift_xor, ih]; rfl

/-- A register whose low bits are clear only moves down for as many turns. -/
theorem iterate_shift_of_low {count : Nat} {r : BitVec w} (h : ∀ i < count, r.getLsbD i = false) :
    (shift poly)^[count] r = r >>> count := by
  induction count generalizing r with
  | zero => simp
  | succ count ih =>
      have hrest : ∀ i < count, (r >>> 1).getLsbD i = false := by
        intro i hi
        rw [BitVec.getLsbD_ushiftRight]
        exact h (1 + i) (by omega)
      rw [Function.iterate_succ_apply, shift_of_low (h 0 (Nat.succ_pos _)), ih hrest,
        ← BitVec.shiftRight_add, Nat.add_comm]

/-! ## Nothing is lost -/

/-- A turn leaves nothing only of nothing. -/
theorem eq_zero_of_shift (hpoly : poly.msb = true) {r : BitVec w} (h : shift poly r = 0#w) :
    r = 0#w := by
  rw [shift] at h
  split_ifs at h with hlow
  · -- the top bit of the polynomial cannot have been cancelled
    have htop : ((r >>> 1) ^^^ poly).msb = true := by
      have hwidth : 0 < w := BitVec.lt_of_getLsbD hlow
      rw [BitVec.msb_xor, hpoly, BitVec.msb_ushiftRight]
      rfl
    rw [h] at htop
    exact absurd htop (by simp)
  · refine BitVec.eq_of_getLsbD_eq fun i hi ↦ ?_
    cases i with
    | zero => simpa using hlow
    | succ i =>
        have hbit := congrArg (fun r : BitVec w ↦ r.getLsbD i) h
        rw [BitVec.getLsbD_ushiftRight, Nat.add_comm] at hbit
        simpa using hbit

theorem shift_injective (hpoly : poly.msb = true) : Function.Injective (shift poly) := by
  intro a b h
  have hzero : shift poly (a ^^^ b) = 0#w := by rw [shift_xor, h, BitVec.xor_self]
  exact BitVec.xor_eq_zero_iff.1 (eq_zero_of_shift hpoly hzero)

/-! ## Differences -/

/-- Where two strings of one length differ. -/
def differences (first second : List Bool) : List Bool := List.zipWith xor first second

theorem feed_xor (r s : BitVec w) (a b : Bool) :
    feed poly r a ^^^ feed poly s b = feed poly (r ^^^ s) (a ^^ b) := by
  rw [feed, feed, feed, ← shift_xor, lowBit_xor, xor_comm_middle]

/-- The remainders of two strings differ by the remainder of where the strings differ. -/
theorem remainder_xor {first second : List Bool} (hlength : first.length = second.length)
    (r s : BitVec w) :
    remainder poly r first ^^^ remainder poly s second =
      remainder poly (r ^^^ s) (differences first second) := by
  induction first generalizing second r s with
  | nil =>
      cases List.eq_nil_of_length_eq_zero hlength.symm
      rfl
  | cons a first ih =>
      cases second with
      | nil => exact absurd hlength (by simp)
      | cons b second =>
          have hrest : first.length = second.length := Nat.succ.inj hlength
          exact (ih hrest (feed poly r a) (feed poly s b)).trans (by rw [feed_xor]; rfl)

theorem remainder_false (r : BitVec w) (count : Nat) :
    remainder poly r (List.replicate count false) = (shift poly)^[count] r := by
  induction count generalizing r with
  | zero => rfl
  | succ count ih =>
      rw [List.replicate_succ, Function.iterate_succ_apply, ← ih]
      show remainder poly (feed poly r false) _ = _
      rw [feed, lowBit_false, BitVec.xor_zero]

/-! ## Words -/

/-- A string of bits as a word, its first bit lowest. -/
def wordOf : List Bool → BitVec w
  | [] => 0#w
  | bit :: bits => (wordOf bits <<< 1) ^^^ lowBit bit

theorem getLsbD_lowBit (bit : Bool) (i : Nat) :
    (lowBit bit : BitVec w).getLsbD i = (decide (i < w ∧ i = 0) && bit) := by
  cases bit
  · simp
  · rw [lowBit, BitVec.getLsbD_setWidth, BitVec.getLsbD_ofBool]
    by_cases hi : i = 0 <;> simp [hi]

/-- A word has the bits of its string. -/
theorem getLsbD_wordOf (bits : List Bool) (i : Nat) :
    (wordOf bits : BitVec w).getLsbD i = (decide (i < w) && bits.getD i false) := by
  induction bits generalizing i with
  | nil => simp [wordOf]
  | cons bit bits ih =>
      rw [wordOf, BitVec.getLsbD_xor, BitVec.getLsbD_shiftLeft, getLsbD_lowBit, ih]
      cases i with
      | zero => cases bit <;> simp
      | succ i =>
          by_cases hi : i + 1 < w
          · simp [hi, Nat.lt_of_succ_lt hi]
          · simp [hi]

/-- Taking a string no longer than the register is mixing it in at once and then turning. -/
theorem remainder_eq_word {bits : List Bool} (hwidth : bits.length ≤ w) (r : BitVec w) :
    remainder poly r bits = (shift poly)^[bits.length] (r ^^^ wordOf bits) := by
  induction bits generalizing r with
  | nil => rw [wordOf]; simp [remainder]
  | cons bit bits ih =>
      rw [List.length_cons] at hwidth
      -- the bits not yet due have room above, so they move down whole
      have hmoved : shift poly (wordOf bits <<< 1 : BitVec w) = wordOf bits := by
        rw [shift_of_low (by simp)]
        refine BitVec.eq_of_getLsbD_eq fun i hi ↦ ?_
        rw [BitVec.getLsbD_ushiftRight, BitVec.getLsbD_shiftLeft, getLsbD_wordOf, getLsbD_wordOf]
        by_cases hroom : 1 + i < w
        · simp [hroom, hi]
        · have hend : bits.getD i false = false := by
            rw [List.getD_eq_getElem?_getD, List.getElem?_eq_none (by omega)]
            rfl
          rw [hend]
          simp [hroom]
      calc remainder poly r (bit :: bits)
          = (shift poly)^[bits.length] (shift poly (r ^^^ lowBit bit) ^^^ wordOf bits) :=
            ih (Nat.le_of_succ_le hwidth) _
        _ = (shift poly)^[bits.length] (shift poly (r ^^^ wordOf (bit :: bits))) := by
            rw [wordOf, BitVec.xor_comm (wordOf bits <<< 1), ← BitVec.xor_assoc, shift_xor _
              (wordOf bits <<< 1), hmoved]
        _ = _ := rfl

/-! ## Bursts -/

/-- Two strings of one length that differ, and only inside one stretch of a width. -/
structure Burst (width : Nat) (first second : List Bool) : Prop where
  length : first.length = second.length
  differ : first ≠ second
  inside : ∃ start, ∀ i, i < start ∨ start + width ≤ i → first[i]? = second[i]?

variable {width : Nat} {first second : List Bool}

theorem getElem?_differences (h : first.length = second.length) (i : Nat) :
    (differences first second)[i]? = some true ↔ first[i]? ≠ second[i]? := by
  rw [differences, List.getElem?_zipWith]
  by_cases hi : i < first.length
  · rw [List.getElem?_eq_getElem hi, List.getElem?_eq_getElem (h ▸ hi)]
    cases first[i] <;> cases second.get ⟨i, h ▸ hi⟩ <;> simp
  · rw [List.getElem?_eq_none (by omega), List.getElem?_eq_none (by omega)]
    simp

/-- A string without a one is all zeros. -/
theorem eq_replicate_false {bits : List Bool} (h : ∀ i : Nat, bits[i]? ≠ some true) :
    bits = List.replicate bits.length false := by
  rw [List.eq_replicate_length]
  intro bit hbit
  obtain ⟨i, hi⟩ := List.mem_iff_getElem?.1 hbit
  cases bit with
  | false => rfl
  | true => exact absurd hi (h i)

/-- The differences of a burst: none, then the burst, and then none again. -/
theorem Burst.differences_eq (h : Burst width first second) :
    ∃ before burst after, burst.length ≤ width ∧ true ∈ burst ∧
      differences first second =
        List.replicate before false ++ burst ++ List.replicate after false := by
  obtain ⟨start, hinside⟩ := h.inside
  have hquiet : ∀ i, i < start ∨ start + width ≤ i → (differences first second)[i]? ≠ some true :=
    fun i hi hdiffer ↦ (getElem?_differences h.length i).1 hdiffer (hinside i hi)
  generalize hdifferences : differences first second = bits at hquiet ⊢
  have hbefore : bits.take start = List.replicate (bits.take start).length false := by
    refine eq_replicate_false fun i hi ↦ ?_
    rw [List.getElem?_take] at hi
    split_ifs at hi with hstart
    exact hquiet i (.inl hstart) hi
  have hafter : bits.drop (start + width) =
      List.replicate (bits.drop (start + width)).length false :=
    eq_replicate_false fun i hi ↦
      hquiet (start + width + i) (.inr (Nat.le_add_right ..)) (List.getElem?_drop ▸ hi)
  refine ⟨(bits.take start).length, (bits.drop start).take width,
    (bits.drop (start + width)).length, List.length_take_le .., ?_, ?_⟩
  · -- somewhere the strings differ, and nowhere outside of the stretch
    obtain ⟨i, hi⟩ : ∃ i, first[i]? ≠ second[i]? := by
      by_contra! hsame
      exact h.differ (List.ext_getElem? hsame)
    have hplace := (getElem?_differences h.length i).2 hi
    rw [hdifferences] at hplace
    have hstretch : start ≤ i ∧ i < start + width := by
      by_contra houtside
      exact hquiet i (by omega) hplace
    refine List.mem_iff_getElem?.2 ⟨i - start, ?_⟩
    rw [List.getElem?_take_of_lt (by omega), List.getElem?_drop, Nat.add_sub_cancel' hstretch.1]
    exact hplace
  · rw [← hbefore, ← hafter, List.append_assoc, ← List.drop_drop, List.take_append_drop,
      List.take_append_drop]

/-- A burst no wider than the register shows in the remainder. -/
theorem remainder_ne_of_burst (hpoly : poly.msb = true) (h : Burst w first second) (r : BitVec w) :
    remainder poly r first ≠ remainder poly r second := by
  obtain ⟨before, burst, after, hwidth, htrue, heq⟩ := h.differences_eq
  intro hsame
  have hword : (wordOf burst : BitVec w) ≠ 0#w := by
    intro hzero
    obtain ⟨i, hi⟩ := List.mem_iff_getElem?.1 htrue
    have hlength : i < burst.length := (List.getElem?_eq_some_iff.1 hi).1
    have hbit := getLsbD_wordOf (w := w) burst i
    rw [hzero, List.getD_eq_getElem?_getD, hi] at hbit
    simp [Nat.lt_of_lt_of_le hlength hwidth] at hbit
  have hdifference : remainder poly r first ^^^ remainder poly r second =
      remainder poly (r ^^^ r) (differences first second) := remainder_xor h.length r r
  rw [hsame, BitVec.xor_self, BitVec.xor_self, heq, remainder_append, remainder_append,
    remainder_false, remainder_false, remainder_eq_word hwidth] at hdifference
  -- nothing goes in before the burst, and no turn after it loses what is left
  have hbefore : (shift poly)^[before] 0#w = 0#w := Function.iterate_fixed shift_zero before
  have hafter : (shift poly)^[after] 0#w = 0#w := Function.iterate_fixed shift_zero after
  have hturns : (shift poly)^[burst.length] 0#w = 0#w := Function.iterate_fixed shift_zero _
  have hinjective := shift_injective hpoly
  have hleft := hinjective.iterate after (hafter.trans hdifference)
  rw [hbefore, BitVec.zero_xor] at hleft
  exact hword (hinjective.iterate burst.length (hleft.symm.trans hturns.symm))

end DeskhopPlus.Remainder
