import Mathlib.Data.Finset.Card
import Mathlib.Data.List.Nodup

/-!
# Slots

A fixed number of slots, each empty or holding a value. A value goes into the first empty slot, and
where there is none it is dropped. `taken` are the values the slots hold; values that are put in
once each are all held as long as there are no more of them than slots (`mem_taken_putAll`).
-/

namespace DeskhopPlus.Slots

variable {α : Type*} [DecidableEq α] (empty : α)

/-- A value goes into the first empty slot. -/
def fill (value : α) : List α → List α
  | [] => []
  | slot :: rest => if slot = empty then value :: rest else slot :: fill value rest

/-- The values the slots hold. -/
def taken (slots : List α) : List α := slots.filter (· ≠ empty)

/-- A value that is none or is held already is not put in again. -/
def put (slots : List α) (value : α) : List α :=
  if value = empty ∨ value ∈ slots then slots else fill empty value slots

variable {empty} {slots : List α} {value : α}

theorem fill_length : (fill empty value slots).length = slots.length := by
  induction slots with
  | nil => rfl
  | cons slot rest ih =>
      rw [fill]
      split_ifs
      · rfl
      · rw [List.length_cons, ih, List.length_cons]

theorem fill_full (h : empty ∉ slots) : fill empty value slots = slots := by
  induction slots with
  | nil => rfl
  | cons slot rest ih =>
      rw [List.mem_cons, not_or] at h
      rw [fill, if_neg (Ne.symm h.1), ih h.2]

theorem taken_fill (h : empty ∈ slots) (hvalue : value ≠ empty) :
    (taken empty (fill empty value slots)).Perm (value :: taken empty slots) := by
  induction slots with
  | nil => cases h
  | cons slot rest ih =>
      rw [fill]
      split_ifs with hslot
      · subst hslot
        simp [taken, hvalue]
      · have hrest : empty ∈ rest := (List.mem_cons.1 h).resolve_left (Ne.symm hslot)
        have htail := (ih hrest).cons slot
        simp only [taken, ne_eq, hslot, not_false_eq_true, decide_true, List.filter_cons_of_pos]
          at htail ⊢
        exact htail.trans (List.Perm.swap value slot _)

theorem mem_taken : value ∈ taken empty slots ↔ value ∈ slots ∧ value ≠ empty := by
  simp [taken]

/-- A value put in a slot was in the slots or is the new one. -/
theorem mem_fill {other : α} (h : other ∈ taken empty (fill empty value slots)) :
    other ∈ taken empty slots ∨ other = value := by
  by_cases hroom : empty ∈ slots
  · by_cases hvalue : value = empty
    · -- an empty value changes nothing
      subst hvalue
      have hsame : fill value value slots = slots := by
        clear h hroom
        induction slots with
        | nil => rfl
        | cons slot rest ih =>
            rw [fill]
            split_ifs with hslot
            · rw [hslot]
            · rw [ih]
      rw [hsame] at h
      exact .inl h
    · rcases List.mem_cons.1 ((taken_fill hroom hvalue).mem_iff.1 h) with hnew | hold
      · exact .inr hnew
      · exact .inl hold
  · rw [fill_full hroom] at h
    exact .inl h

/-- Nothing that a slot holds is lost. -/
theorem taken_subset_fill (hvalue : value ≠ empty) :
    taken empty slots ⊆ taken empty (fill empty value slots) := by
  by_cases hroom : empty ∈ slots
  · intro other hother
    exact (taken_fill hroom hvalue).mem_iff.2 (List.mem_cons_of_mem _ hother)
  · rw [fill_full hroom]
    exact List.Subset.refl _

/-- There is room while fewer values are held than there are slots. -/
theorem room_of_length (h : (taken empty slots).length < slots.length) : empty ∈ slots := by
  by_contra hfull
  have hall : taken empty slots = slots := by
    rw [taken, List.filter_eq_self]
    intro slot hslot
    exact decide_eq_true fun hempty ↦ hfull (hempty ▸ hslot)
  rw [hall] at h
  exact lt_irrefl _ h

theorem put_length : (put empty slots value).length = slots.length := by
  rw [put]
  split_ifs
  · rfl
  · exact fill_length

theorem putAll_length (values : List α) :
    (values.foldl (put empty) slots).length = slots.length := by
  induction values generalizing slots with
  | nil => rfl
  | cons value rest ih => rw [List.foldl_cons, ih, put_length]

theorem nodup_put (h : (taken empty slots).Nodup) :
    (taken empty (put empty slots value)).Nodup := by
  rw [put]
  split_ifs with hskip
  · exact h
  · rw [not_or] at hskip
    by_cases hroom : empty ∈ slots
    · rw [(taken_fill hroom hskip.1).nodup_iff, List.nodup_cons, mem_taken]
      exact ⟨fun hmem ↦ hskip.2 hmem.1, h⟩
    · rwa [fill_full hroom]

theorem nodup_putAll (h : (taken empty slots).Nodup) (values : List α) :
    (taken empty (values.foldl (put empty) slots)).Nodup := by
  induction values generalizing slots with
  | nil => exact h
  | cons value rest ih => exact ih (nodup_put h)

theorem mem_put {other : α} (h : other ∈ taken empty (put empty slots value)) :
    other ∈ taken empty slots ∨ other = value := by
  rw [put] at h
  split_ifs at h
  · exact .inl h
  · exact mem_fill h

/-- What the slots hold in the end they held before, or it was put in. -/
theorem mem_putAll {values : List α} {other : α}
    (h : other ∈ taken empty (values.foldl (put empty) slots)) :
    other ∈ taken empty slots ∨ other ∈ values := by
  induction values generalizing slots with
  | nil => exact .inl h
  | cons value rest ih =>
      rcases ih h with hput | hrest
      · rcases mem_put hput with hold | rfl
        · exact .inl hold
        · exact .inr List.mem_cons_self
      · exact .inr (List.mem_cons_of_mem _ hrest)

theorem taken_subset_put : taken empty slots ⊆ taken empty (put empty slots value) := by
  rw [put]
  split_ifs with hskip
  · exact List.Subset.refl _
  · rw [not_or] at hskip
    exact taken_subset_fill hskip.1

theorem taken_subset_putAll (values : List α) :
    taken empty slots ⊆ taken empty (values.foldl (put empty) slots) := by
  induction values generalizing slots with
  | nil => exact List.Subset.refl _
  | cons value rest ih => exact List.Subset.trans taken_subset_put ih

/-- Of values no more than there are slots every one is held in the end. -/
theorem mem_taken_putAll {all : Finset α} (hroom : all.card ≤ slots.length)
    (hslots : ∀ other ∈ taken empty slots, other ∈ all) {values : List α}
    (hvalues : ∀ other ∈ values, other ≠ empty → other ∈ all) (hnodup : (taken empty slots).Nodup)
    {other : α} (hother : other ∈ values) (hnone : other ≠ empty) :
    other ∈ taken empty (values.foldl (put empty) slots) := by
  induction values generalizing slots with
  | nil => cases hother
  | cons value rest ih =>
      rw [List.foldl_cons]
      have hput : ∀ held ∈ taken empty (put empty slots value), held ∈ all := by
        intro held hheld
        rcases mem_put hheld with hold | rfl
        · exact hslots held hold
        · exact hvalues held List.mem_cons_self (mem_taken.1 hheld).2
      rcases List.mem_cons.1 hother with rfl | hrest
      · refine taken_subset_putAll rest ?_
        rw [put]
        split_ifs with hskip
        · exact mem_taken.2 ⟨hskip.resolve_left hnone, hnone⟩
        · rw [not_or] at hskip
          -- the values held are fewer than all, so there is room
          have hmore : (other :: taken empty slots).Nodup :=
            List.nodup_cons.2 ⟨fun hmem ↦ hskip.2 (mem_taken.1 hmem).1, hnodup⟩
          have hfew : (other :: taken empty slots).length ≤ all.card := by
            rw [← List.toFinset_card_of_nodup hmore]
            refine Finset.card_le_card fun held hheld ↦ ?_
            rcases List.mem_cons.1 (List.mem_toFinset.1 hheld) with rfl | hheld
            · exact hvalues held List.mem_cons_self hnone
            · exact hslots held hheld
          rw [List.length_cons] at hfew
          exact (taken_fill (room_of_length (by omega)) hskip.1).mem_iff.2 List.mem_cons_self
      · refine ih (by rwa [put_length]) hput ?_ (nodup_put hnodup) hrest
        exact fun held hheld ↦ hvalues held (List.mem_cons_of_mem _ hheld)

end DeskhopPlus.Slots
