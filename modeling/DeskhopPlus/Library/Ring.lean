import Mathlib.Data.List.Rotate
import Mathlib.Data.Nat.ModEq

/-!
# Rings of slots

A ring is a fixed number of slots, the index of the oldest occupied one and the count of
occupied ones. It carries the proof that both are in range, so a broken ring cannot be built.
`contents` reads it oldest first, and the two operations act on that list as on a queue: `push`
appends (`push_contents`) and `pop` removes the head (`pop_contents`). A slot is rewritten in
place, as a C buffer is, so `push` takes what to do to the slot it lands on.
-/

namespace DeskhopPlus

/-- A ring of `depth` slots. -/
structure Ring (α : Type*) (depth : Nat) where
  slots : List α
  first : Nat
  used : Nat
  slots_length : slots.length = depth
  first_lt : first < depth
  used_le : used ≤ depth

namespace Ring

variable {α : Type*} {depth : Nat}

/-- The occupied slots, oldest first. -/
def contents (ring : Ring α depth) : List α := (ring.slots.rotate ring.first).take ring.used

/-- An empty ring whose slots all hold `blank`. -/
def empty (depth : Nat) (hdepth : 0 < depth) (blank : α) : Ring α depth where
  slots := List.replicate depth blank
  first := 0
  used := 0
  slots_length := by simp
  first_lt := hdepth
  used_le := Nat.zero_le _

/-- The slot the next push lands on. -/
def next (ring : Ring α depth) : Nat := (ring.first + ring.used) % depth

/-- Rewrite the next free slot and count it. -/
def push (ring : Ring α depth) (write : α → α) (hroom : ring.used < depth) : Ring α depth where
  slots := ring.slots.modify ring.next write
  first := ring.first
  used := ring.used + 1
  slots_length := by simp [ring.slots_length]
  first_lt := ring.first_lt
  used_le := hroom

/-- The slot of the oldest entry. -/
def oldest (ring : Ring α depth) : α :=
  ring.slots.get ⟨ring.first, ring.slots_length.symm ▸ ring.first_lt⟩

/-- The ring without its oldest entry. -/
def pop (ring : Ring α depth) (hsome : 0 < ring.used) : Ring α depth where
  slots := ring.slots
  first := (ring.first + 1) % depth
  used := ring.used - 1
  slots_length := ring.slots_length
  first_lt := Nat.mod_lt _ (by have := ring.first_lt; omega)
  used_le := by have := ring.used_le; omega

/-- Start over with one occupied slot, the first. -/
def restart (ring : Ring α depth) (write : α → α) : Ring α depth where
  slots := ring.slots.modify 0 write
  first := 0
  used := 1
  slots_length := by simp [ring.slots_length]
  first_lt := by have := ring.first_lt; omega
  used_le := by have := ring.first_lt; omega

@[simp] theorem contents_length (ring : Ring α depth) : ring.contents.length = ring.used := by
  have := ring.used_le
  simp [contents, ring.slots_length]
  omega

theorem contents_empty (hdepth : 0 < depth) (blank : α) :
    (empty depth hdepth blank).contents = [] := by
  simp [contents, empty]

theorem contents_eq_nil_iff (ring : Ring α depth) : ring.contents = [] ↔ ring.used = 0 := by
  rw [← List.length_eq_zero_iff, contents_length]

/-- The entry at a position counted from the oldest. -/
theorem contents_getElem? (ring : Ring α depth) {index : Nat} (hindex : index < ring.used) :
    ring.contents[index]? = ring.slots[(ring.first + index) % depth]? := by
  have hlt : index < ring.slots.length := by have := ring.used_le; have := ring.slots_length; omega
  rw [contents, List.getElem?_take_of_lt hindex, List.getElem?_rotate hlt, ring.slots_length,
    Nat.add_comm]

/-- Two positions of the ring less than a turn apart are different slots. -/
theorem position_ne {first index used : Nat} (hindex : index < used) (hused : used < depth) :
    (first + index) % depth ≠ (first + used) % depth := by
  intro hsame
  have hmod : index % depth = used % depth := Nat.ModEq.add_left_cancel' first hsame
  rw [Nat.mod_eq_of_lt (by omega), Nat.mod_eq_of_lt hused] at hmod
  omega

/-- A push appends the slot it rewrote. -/
theorem push_contents (ring : Ring α depth) (write : α → α) (hroom : ring.used < depth) :
    ∃ old ∈ ring.slots, (ring.push write hroom).contents = ring.contents ++ [write old] := by
  have hnext : ring.next < ring.slots.length := by
    rw [ring.slots_length]
    exact Nat.mod_lt _ (by omega)
  refine ⟨ring.slots[ring.next], List.getElem_mem hnext, ?_⟩
  apply List.ext_getElem?
  intro index
  rcases Nat.lt_trichotomy index ring.used with hold | hlast | hpast
  · rw [contents_getElem? _ (by simp only [push]; omega), List.getElem?_append_left (by simpa),
      contents_getElem? _ hold]
    have hne : ring.next ≠ (ring.first + index) % depth := fun h ↦ position_ne hold hroom h.symm
    simp [push, hne]
  · subst hlast
    rw [contents_getElem? _ (by simp [push])]
    simp [push, next] at hnext ⊢
    simp [hnext]
  · rw [List.getElem?_eq_none (by simp [push]; omega), List.getElem?_eq_none (by simp; omega)]

/-- The oldest entry is the head of the contents, and a pop removes it. -/
theorem pop_contents (ring : Ring α depth) (hsome : 0 < ring.used) :
    ring.contents = ring.oldest :: (ring.pop hsome).contents := by
  apply List.ext_getElem?
  intro index
  cases index with
  | zero =>
      rw [contents_getElem? _ hsome, Nat.add_zero, Nat.mod_eq_of_lt ring.first_lt]
      simp [oldest, ring.slots_length, ring.first_lt]
  | succ index =>
      by_cases hin : index + 1 < ring.used
      · rw [contents_getElem? _ hin, List.getElem?_cons_succ,
          contents_getElem? _ (by simp only [pop]; omega)]
        simp only [pop, Nat.mod_add_mod]
        congr 2
        omega
      · rw [List.getElem?_eq_none (by rw [contents_length]; omega),
          List.getElem?_eq_none (by simp [pop]; omega)]

theorem restart_contents (ring : Ring α depth) (write : α → α) :
    ∃ old ∈ ring.slots, (ring.restart write).contents = [write old] := by
  have hpos : 0 < ring.slots.length := by
    have := ring.first_lt
    rw [ring.slots_length]
    omega
  obtain ⟨head, tail, hslots⟩ := List.exists_cons_of_length_pos hpos
  exact ⟨head, by simp [hslots], by simp [contents, restart, hslots]⟩

end Ring

end DeskhopPlus
