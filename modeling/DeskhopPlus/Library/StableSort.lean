import Mathlib.Data.List.DropRight
import Mathlib.Data.List.Infix
import Mathlib.Order.Lattice

/-!
# Insertion sort in place

An array sorted by a key, the greatest first: each element in turn is taken out, the ones before it
with lower keys move one place on, and it is put where room is left. Elements of one key keep their
order (`stableSorted_sortInPlace`), so the first element with a property in the sorted array is, of
those with the property and the greatest key, the first in the array as it was
(`StableSorted.find?_greatest`).
-/

namespace DeskhopPlus.StableSort

variable {α β : Type*} [LinearOrder β] (key : α → β)

/-- The elements before a position with lower keys than a candidate move one place on; and where
room is left. -/
def makeRoom (candidate : α) : Nat → List α → List α × Nat
  | 0, xs => (xs, 0)
  | position + 1, xs =>
      match xs[position]? with
      | none => (xs, position + 1)
      | some before =>
          if key before < key candidate then
            makeRoom candidate position (xs.set (position + 1) before)
          else (xs, position + 1)

/-- An element goes where it belongs among those before it. -/
def insertAt (xs : List α) (i : Nat) : List α :=
  match xs[i]? with
  | none => xs
  | some candidate =>
      let (moved, position) := makeRoom key candidate i xs
      moved.set position candidate

/-- The elements from the second on, one after the other. -/
def sortInPlace (xs : List α) : List α := (List.range' 1 (xs.length - 1)).foldl (insertAt key) xs

/-- An element put behind those of a list that do not have a lower key. -/
def inserted (candidate : α) (xs : List α) : List α :=
  xs.rdropWhile (key · < key candidate) ++ candidate :: xs.rtakeWhile (key · < key candidate)

variable {key}

/-- What making room and filling it comes to. -/
theorem makeRoom_set (candidate : α) (before : List α) (hole : α) (after : List α) :
    (makeRoom key candidate before.length (before ++ hole :: after)).1.set
      (makeRoom key candidate before.length (before ++ hole :: after)).2 candidate =
      inserted key candidate before ++ after := by
  induction before using List.reverseRecOn generalizing hole after with
  | nil => simp [makeRoom, inserted]
  | append_singleton front last ih =>
      have hlast : (front ++ [last] ++ hole :: after)[front.length]? = some last := by simp
      rw [List.length_append, List.length_singleton, makeRoom, hlast]
      dsimp only
      split_ifs with hlower
      · have hmoved : (front ++ [last] ++ hole :: after).set (front.length + 1) last =
            front ++ last :: last :: after := by simp
        rw [hmoved, ih, inserted, inserted, List.rdropWhile_concat_pos _ _ _
          (by simpa using hlower),
          List.rtakeWhile_concat_pos _ _ _ (by simpa using hlower)]
        simp
      · rw [inserted, List.rdropWhile_concat_neg _ _ _ (by simpa using hlower),
          List.rtakeWhile_concat_neg _ _ _ (by simpa using hlower)]
        simp

theorem insertAt_eq (before : List α) (candidate : α) (after : List α) :
    insertAt key (before ++ candidate :: after) before.length =
      inserted key candidate before ++ after := by
  have hthere : (before ++ candidate :: after)[before.length]? = some candidate := by simp
  rw [insertAt, hthere]
  exact makeRoom_set candidate before candidate after

/-- A list sorted by a key, the greatest first, with the elements of each key as they were. -/
structure StableSorted (key : α → β) (xs ys : List α) : Prop where
  perm : ys.Perm xs
  sorted : ys.Pairwise fun first second ↦ key second ≤ key first
  stable : ∀ value, ys.filter (key · = value) = xs.filter (key · = value)

theorem rdropWhile_append_rtakeWhile (p : α → Bool) (xs : List α) :
    xs.rdropWhile p ++ xs.rtakeWhile p = xs := by
  induction xs using List.reverseRecOn with
  | nil => rfl
  | append_singleton front last ih =>
      by_cases hp : p last = true
      · rw [List.rdropWhile_concat_pos _ _ _ hp, List.rtakeWhile_concat_pos _ _ _ hp,
          ← List.append_assoc, ih]
      · rw [List.rdropWhile_concat_neg _ _ _ hp, List.rtakeWhile_concat_neg _ _ _ hp,
          List.append_nil]

/-- In a sorted list no key before the candidate's place is lower than the candidate's. -/
theorem le_of_mem_rdropWhile {xs : List α}
    (h : xs.Pairwise fun first second ↦ key second ≤ key first) {candidate x : α}
    (hx : x ∈ xs.rdropWhile (key · < key candidate)) : key candidate ≤ key x := by
  induction xs using List.reverseRecOn with
  | nil => simp at hx
  | append_singleton front last ih =>
      obtain ⟨hfront, -, hlast⟩ := List.pairwise_append.1 h
      by_cases hlower : key last < key candidate
      · rw [List.rdropWhile_concat_pos _ _ _ (by simpa using hlower)] at hx
        exact ih hfront hx
      · rw [List.rdropWhile_concat_neg _ _ _ (by simpa using hlower)] at hx
        rcases List.mem_append.1 hx with hx | hx
        · exact (not_lt.1 hlower).trans (hlast x hx last (List.mem_singleton_self last))
        · rw [List.mem_singleton.1 hx]
          exact not_lt.1 hlower

theorem StableSorted.insert {xs ys : List α} (h : StableSorted key xs ys) (candidate : α) :
    StableSorted key (xs ++ [candidate]) (inserted key candidate ys) := by
  have hsplit := rdropWhile_append_rtakeWhile (key · < key candidate) ys
  have hsorted := h.sorted
  rw [← hsplit] at hsorted
  obtain ⟨hfront, hback, hacross⟩ := List.pairwise_append.1 hsorted
  have hlower : ∀ x ∈ ys.rtakeWhile (key · < key candidate), key x < key candidate := by
    intro x hx
    simpa using List.mem_rtakeWhile_imp hx
  constructor
  · have hmiddle := @List.perm_middle _ candidate (ys.rdropWhile (key · < key candidate))
      (ys.rtakeWhile (key · < key candidate))
    rw [hsplit] at hmiddle
    exact hmiddle.trans ((h.perm.cons candidate).trans
      (List.perm_append_singleton candidate xs).symm)
  · refine List.pairwise_append.2 ⟨hfront, List.pairwise_cons.2 ⟨?_, hback⟩, ?_⟩
    · intro x hx
      exact le_of_lt (hlower x hx)
    · intro x hx y hy
      rcases List.mem_cons.1 hy with rfl | hy
      · exact le_of_mem_rdropWhile h.sorted hx
      · exact hacross x hx y hy
  · intro value
    rw [inserted, List.filter_append, List.filter_cons, List.filter_append, ← h.stable value,
      ← hsplit, List.filter_append, hsplit]
    by_cases hvalue : key candidate = value
    · -- those behind the candidate have lower keys
      subst hvalue
      have hnone : (ys.rtakeWhile (key · < key candidate)).filter (key · = key candidate) = [] := by
        rw [List.filter_eq_nil_iff]
        intro x hx
        simpa using ne_of_lt (hlower x hx)
      simp [hnone]
    · simp [hvalue]

theorem stableSorted_take (xs : List α) (count : Nat) :
    ∃ ys, (List.range' 1 count).foldl (insertAt key) xs = ys ++ xs.drop (count + 1) ∧
      StableSorted key (xs.take (count + 1)) ys := by
  induction count with
  | zero =>
      refine ⟨xs.take 1, (List.take_append_drop 1 xs).symm, .refl _, ?_, fun _ ↦ rfl⟩
      cases xs <;> simp
  | succ count ih =>
      obtain ⟨ys, heq, hsorted⟩ := ih
      rw [List.range'_1_concat, List.foldl_append, heq, List.foldl_cons, List.foldl_nil]
      rcases hnext : xs[count + 1]? with - | candidate
      · -- past the end nothing is inserted
        have hend : xs.length ≤ count + 1 := List.getElem?_eq_none_iff.1 hnext
        refine ⟨ys, ?_, ?_⟩
        · have hlength := hsorted.perm.length_eq
          rw [List.drop_eq_nil_of_le hend, List.drop_eq_nil_of_le (by omega), List.append_nil,
            insertAt,
            List.getElem?_eq_none (by rw [hlength, List.length_take]; omega)]
        · rwa [List.take_of_length_le (by omega), ← List.take_of_length_le hend]
      · have hinside := (List.getElem?_eq_some_iff.1 hnext).1
        have hlength : ys.length = 1 + count := by
          rw [hsorted.perm.length_eq, List.length_take]
          omega
        refine ⟨inserted key candidate ys, ?_, ?_⟩
        · rw [List.drop_eq_getElem_cons hinside, (List.getElem?_eq_some_iff.1 hnext).2, ← hlength,
            insertAt_eq]
        · rw [List.take_add_one, hnext]
          exact hsorted.insert candidate

theorem stableSorted_sortInPlace (xs : List α) : StableSorted key xs (sortInPlace key xs) := by
  obtain ⟨ys, heq, hsorted⟩ := @stableSorted_take _ _ _ key xs (xs.length - 1)
  rw [sortInPlace, heq, List.drop_eq_nil_of_le (by omega), List.append_nil]
  rwa [List.take_of_length_le (by omega)] at hsorted

/-- The first element with a property in the sorted list: none with the property has a greater key,
and of those with the same key it is the first of the list as it was. -/
theorem StableSorted.find?_greatest {xs ys : List α} (h : StableSorted key xs ys) {p : α → Bool}
    {found : α} (hfound : ys.find? p = some found) :
    (∀ x ∈ xs, p x = true → key x ≤ key found) ∧
    ∃ before after, xs = before ++ found :: after ∧
      ∀ x ∈ before, p x = true → key x < key found := by
  obtain ⟨hp, front, back, rfl, hnone⟩ := List.find?_eq_some_iff_append.1 hfound
  have hgreatest : ∀ x ∈ xs, p x = true → key x ≤ key found := by
    intro x hx hpx
    rcases List.mem_append.1 (h.perm.mem_iff.2 hx) with hfront | hback
    · have hfalse := hnone x hfront
      rw [hpx] at hfalse
      cases hfalse
    · rcases List.mem_cons.1 hback with rfl | hback
      · exact le_refl _
      · exact (List.pairwise_cons.1 (List.pairwise_append.1 h.sorted).2.1).1 x hback
  refine ⟨hgreatest, ?_⟩
  have hsame : (xs.filter (key · = key found)).find? p = some found := by
    rw [← h.stable (key found), List.filter_append, List.filter_cons, if_pos (by simp)]
    refine List.find?_eq_some_iff_append.2 ⟨hp, _, _, rfl, fun x hx ↦ ?_⟩
    exact hnone x (List.mem_filter.1 hx).1
  rw [List.find?_filter] at hsame
  obtain ⟨-, before, after, heq, hbefore⟩ := List.find?_eq_some_iff_append.1 hsame
  refine ⟨before, after, heq, fun x hx hpx ↦ ?_⟩
  refine lt_of_le_of_ne (hgreatest x (by rw [heq]; exact List.mem_append_left _ hx) hpx) ?_
  intro hkey
  have hfalse := hbefore x hx
  simp [hkey, hpx] at hfalse

end DeskhopPlus.StableSort
