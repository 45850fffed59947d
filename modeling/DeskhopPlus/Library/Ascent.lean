import Mathlib.Data.Finset.Sort
import Mathlib.Order.Bounds.Defs

/-!
# Going up through a set of values

From a value to the least of the set above it, and on from there, every value of the set above the
first is reached, in order and once each.
-/

namespace DeskhopPlus.Ascent

variable {α : Type*} [LinearOrder α] {values : Finset α} {base next : α}

/-- The values above a value, in order. -/
def above (values : Finset α) (base : α) : List α := (values.filter (base < ·)).sort (· ≤ ·)

/-- The least value above a value. -/
def IsNext (values : Finset α) (base next : α) : Prop :=
  IsLeast {value ∈ values | base < value} next

theorem mem_above {value : α} : value ∈ above values base ↔ value ∈ values ∧ base < value := by
  rw [above, Finset.mem_sort, Finset.mem_filter]

theorem above_of_none (h : ∀ value ∈ values, ¬ base < value) : above values base = [] := by
  rw [List.eq_nil_iff_forall_not_mem]
  intro value hvalue
  obtain ⟨hmem, habove⟩ := mem_above.1 hvalue
  exact h value hmem habove

/-- One step up: the next value, and those above it. -/
theorem above_of_next (h : IsNext values base next) :
    above values base = next :: above values next := by
  obtain ⟨⟨hmem, habove⟩, hleast⟩ := h
  have hsplit : values.filter (base < ·) =
      Finset.cons next (values.filter (next < ·)) (by simp) := by
    ext value
    simp only [Finset.mem_filter, Finset.mem_cons]
    constructor
    · rintro ⟨hvalue, hover⟩
      rcases lt_or_eq_of_le (hleast ⟨hvalue, hover⟩) with hlt | heq
      · exact .inr ⟨hvalue, hlt⟩
      · exact .inl heq.symm
    · rintro (rfl | ⟨hvalue, hover⟩)
      · exact ⟨hmem, habove⟩
      · exact ⟨hvalue, habove.trans hover⟩
  rw [above, hsplit, Finset.sort_cons]
  · rfl
  · intro value hvalue
    exact le_of_lt (Finset.mem_filter.1 hvalue).2

end DeskhopPlus.Ascent
