import DeskhopPlus.Library.Runs
import Mathlib.Data.List.Nodup
import Mathlib.Data.List.Perm.Subperm

/-!
# Sliding replay windows

The law a replay window is for, and the bit mask that remembers enough of the past to decide it.
`Admits` says what a window of a given width may take after a history of accepted numbers: a
number never taken before that is not a full width behind the highest one. `Records` ties a mask
to that history: bit `distance` stands for the number `distance` behind the highest. The three
`Records` lemmas are the three ways a mask moves when one more number is accepted.
-/

namespace DeskhopPlus.ReplayWindow

/-- After `accepted`, a window of this width may take `number`. -/
def Admits (width : Nat) (accepted : List Nat) (number : Nat) : Prop :=
  number ∉ accepted ∧ ∀ other ∈ accepted, other < number + width

instance (width : Nat) (accepted : List Nat) (number : Nat) :
    Decidable (Admits width accepted number) :=
  inferInstanceAs (Decidable (_ ∧ _))

/-- The highest number of a history, with the proof that it is one. -/
def IsHighest (accepted : List Nat) (highest : Nat) : Prop :=
  highest ∈ accepted ∧ ∀ other ∈ accepted, other ≤ highest

theorem IsHighest.ne_nil {accepted : List Nat} {highest : Nat} (h : IsHighest accepted highest) :
    accepted ≠ [] := by
  rintro rfl
  exact absurd h.1 (by simp)

/-- A history has at most one highest number. -/
theorem IsHighest.unique {accepted : List Nat} {first second : Nat}
    (hfirst : IsHighest accepted first) (hsecond : IsHighest accepted second) :
    first = second :=
  Nat.le_antisymm (hsecond.2 _ hfirst.1) (hfirst.2 _ hsecond.1)

/-- Taking a number above the highest makes it the highest. -/
theorem IsHighest.append_above {accepted : List Nat} {highest number : Nat}
    (h : IsHighest accepted highest) (habove : highest < number) :
    IsHighest (accepted ++ [number]) number := by
  refine ⟨by simp, ?_⟩
  intro other hother
  rcases List.mem_append.1 hother with hold | hnew
  · have := h.2 other hold
    omega
  · simp only [List.mem_singleton] at hnew
    omega

/-- Taking a number at or below the highest leaves it the highest. -/
theorem IsHighest.append_below {accepted : List Nat} {highest number : Nat}
    (h : IsHighest accepted highest) (hbelow : number ≤ highest) :
    IsHighest (accepted ++ [number]) highest := by
  refine ⟨List.mem_append_left _ h.1, ?_⟩
  intro other hother
  rcases List.mem_append.1 hother with hold | hnew
  · exact h.2 other hold
  · simp only [List.mem_singleton] at hnew
    omega

/-- The window law needs the highest number only. -/
theorem admits_iff_highest {width : Nat} {accepted : List Nat} {highest number : Nat}
    (h : IsHighest accepted highest) :
    Admits width accepted number ↔ number ∉ accepted ∧ highest < number + width := by
  constructor
  · intro hadmits
    exact ⟨hadmits.1, hadmits.2 highest h.1⟩
  · intro hadmits
    refine ⟨hadmits.1, ?_⟩
    intro other hother
    have := h.2 other hother
    omega

/-- An empty history admits everything. -/
theorem admits_nil (width number : Nat) : Admits width [] number := by
  simp [Admits]

/-- Taking only what is admitted never takes a number twice. -/
theorem Admits.nodup_append {width : Nat} {accepted : List Nat} {number : Nat}
    (h : Admits width accepted number) (hnodup : accepted.Nodup) :
    (accepted ++ [number]).Nodup := by
  rw [List.nodup_append]
  refine ⟨hnodup, by simp, ?_⟩
  intro first hfirst second hsecond
  simp only [List.mem_singleton] at hsecond
  rintro rfl
  exact h.1 (hsecond ▸ hfirst)

/-- Distinct numbers up to the highest are at most one more than it. -/
theorem IsHighest.length_le {accepted : List Nat} {highest : Nat}
    (h : IsHighest accepted highest) (hnodup : accepted.Nodup) :
    accepted.length ≤ highest + 1 := by
  have hsubset : accepted ⊆ List.range (highest + 1) := by
    intro number hnumber
    have := h.2 number hnumber
    simp only [List.mem_range]
    omega
  have := (List.subperm_of_subset hnodup hsubset).length_le
  simpa using this

/-- Every number of a sequence is admitted after those before it. -/
def AllAdmitted (width : Nat) : List Nat → Prop := Runs.EachAfter (Admits width)

/-! ## The mask -/

section Mask

variable {width : Nat} {mask : BitVec width} {accepted : List Nat} {highest number : Nat}

/-- Bit `distance` of the mask says whether the number that far behind the highest was
accepted. -/
def Records (mask : BitVec width) (highest : Nat) (accepted : List Nat) : Prop :=
  ∀ distance, distance < width →
    (mask.getLsbD distance = true ↔ distance ≤ highest ∧ highest - distance ∈ accepted)

/-- The bit of a number inside the window decides whether it was accepted. -/
theorem Records.bit_iff (h : Records mask highest accepted) (number : Nat)
    (hbelow : number ≤ highest)
    (hinside : highest - number < width) :
    mask.getLsbD (highest - number) = true ↔ number ∈ accepted := by
  rw [h (highest - number) hinside]
  have hback : highest - (highest - number) = number := by omega
  rw [hback]
  exact and_iff_right (by omega)

/-- The first accepted number. -/
theorem records_first (number : Nat) : Records (BitVec.ofNat width 1) number [number] := by
  intro distance hdistance
  simp only [BitVec.getLsbD_one, Bool.and_eq_true, decide_eq_true_eq, List.mem_singleton]
  omega

/-- A step above the highest by less than the width shifts the mask. -/
theorem Records.shift (h : Records mask highest accepted) (hhighest : IsHighest accepted highest)
    (habove : highest < number) (hinside : number - highest < width) :
    Records ((mask <<< (number - highest)) ||| (BitVec.ofNat width 1)) number
      (accepted ++ [number]) := by
  intro distance hdistance
  simp only [BitVec.getLsbD_or, BitVec.getLsbD_shiftLeft, BitVec.getLsbD_one, Bool.or_eq_true,
    Bool.and_eq_true, decide_eq_true_eq, Bool.not_eq_true', decide_eq_false_iff_not,
    List.mem_append, List.mem_singleton]
  by_cases hnear : distance < number - highest
  · have hnot : number - distance ∉ accepted := by
      intro hmem
      have := hhighest.2 _ hmem
      omega
    constructor
    · rintro (⟨⟨-, hfar⟩, -⟩ | ⟨-, hzero⟩)
      · omega
      · omega
    · rintro ⟨hle, hmem | heq⟩
      · exact absurd hmem hnot
      · exact .inr ⟨by omega, by omega⟩
  · have hbit := h (distance - (number - highest)) (by omega)
    have hsame : highest - (distance - (number - highest)) = number - distance := by omega
    rw [hsame] at hbit
    constructor
    · rintro (⟨-, hset⟩ | ⟨-, hzero⟩)
      · have := hbit.1 hset
        exact ⟨by omega, .inl this.2⟩
      · omega
    · rintro ⟨hle, hmem | heq⟩
      · exact .inl ⟨⟨hdistance, by omega⟩, hbit.2 ⟨by omega, hmem⟩⟩
      · exact .inr ⟨by omega, by omega⟩

/-- A step above the highest by the width or more forgets everything behind it. -/
theorem Records.jump (hhighest : IsHighest accepted highest) (hfar : width ≤ number - highest) :
    Records (BitVec.ofNat width 1) number (accepted ++ [number]) := by
  intro distance hdistance
  rw [records_first number distance hdistance]
  simp only [List.mem_append, List.mem_singleton]
  constructor
  · rintro ⟨hle, heq⟩
    exact ⟨hle, .inr heq⟩
  · rintro ⟨hle, hmem | heq⟩
    · have := hhighest.2 _ hmem
      omega
    · exact ⟨hle, heq⟩

/-- A number inside the window sets its own bit. -/
theorem Records.insert (h : Records mask highest accepted) (hbelow : number ≤ highest)
    (hinside : highest - number < width) :
    Records (mask ||| ((BitVec.ofNat width 1) <<< (highest - number))) highest
      (accepted ++ [number]) := by
  intro distance hdistance
  simp only [BitVec.getLsbD_or, BitVec.getLsbD_shiftLeft, BitVec.getLsbD_one, Bool.or_eq_true,
    Bool.and_eq_true, decide_eq_true_eq, Bool.not_eq_true', decide_eq_false_iff_not,
    List.mem_append, List.mem_singleton, h distance hdistance]
  constructor
  · rintro (⟨hle, hmem⟩ | ⟨⟨-, hge⟩, -, hzero⟩)
    · exact ⟨hle, .inl hmem⟩
    · exact ⟨by omega, .inr (by omega)⟩
  · rintro ⟨hle, hmem | heq⟩
    · exact .inl ⟨hle, hmem⟩
    · exact .inr ⟨⟨hdistance, by omega⟩, by omega, by omega⟩

end Mask

end DeskhopPlus.ReplayWindow
