import Mathlib.Control.Monad.Writer
import Mathlib.Data.List.Basic

/-!
# Computations that note what they do

A computation with its result and the notes it makes on the way, in order. `Only P` says that every
note has a property; it is proved along the computation (`Only.bind`), the result so far in hand.
-/

namespace DeskhopPlus.Noting

/-- A computation that makes notes. -/
abbrev Noted (ν : Type) := Writer (List ν)

variable {ν α β : Type} {P : ν → Prop}

/-- Make one note. -/
def note (entry : ν) : Noted ν PUnit := tell [entry]

/-- The result of a computation. -/
def result (m : Noted ν α) : α := (Id.run m.run).1

/-- The notes of a computation. -/
def notes (m : Noted ν α) : List ν := (Id.run m.run).2

/-- Every note has the property. -/
def Only (P : ν → Prop) (m : Noted ν α) : Prop := ∀ entry ∈ notes m, P entry

/-- A value is its own result. -/
@[simp] theorem result_pure (a : α) : result (pure a : Noted ν α) = a := rfl

/-- A value makes no note. -/
@[simp] theorem notes_pure (a : α) : notes (pure a : Noted ν α) = [] := rfl

/-- A note has no result to speak of. -/
@[simp] theorem result_note (entry : ν) : result (note entry) = ⟨⟩ := rfl

/-- One note is made. -/
@[simp] theorem notes_note (entry : ν) : notes (note entry) = [entry] := rfl

/-- What follows a computation goes on from its result. -/
@[simp] theorem result_bind (m : Noted ν α) (f : α → Noted ν β) :
    result (m >>= f) = result (f (result m)) := rfl

/-- Its notes stand behind those of the computation. -/
@[simp] theorem notes_bind (m : Noted ν α) (f : α → Noted ν β) :
    notes (m >>= f) = notes m ++ notes (f (result m)) := rfl

/-- The result of a choice. -/
theorem result_ite (c : Prop) [Decidable c] (m n : Noted ν α) :
    result (if c then m else n) = if c then result m else result n := apply_ite result c m n

/-! ## Properties of every note -/

/-- A value makes no note that could break the property. -/
theorem Only.pure (a : α) : Only P (pure a : Noted ν α) := by
  intro entry hentry
  rw [notes_pure] at hentry
  cases hentry

/-- A note with the property. -/
theorem Only.note {entry : ν} (h : P entry) : Only P (note entry) := by
  intro other hother
  rw [notes_note, List.mem_singleton] at hother
  exact hother ▸ h

/-- Both a computation and what follows it note only what has the property. -/
theorem Only.bind {m : Noted ν α} {f : α → Noted ν β} (h : Only P m)
    (hrest : Only P (f (result m))) : Only P (m >>= f) := by
  intro entry hentry
  rw [notes_bind, List.mem_append] at hentry
  exact hentry.elim (h entry) (hrest entry)

/-- Each branch is asked under its own condition. -/
theorem Only.ite {c : Prop} [Decidable c] {m n : Noted ν α} (h : c → Only P m)
    (h' : ¬ c → Only P n) : Only P (if c then m else n) := by
  split_ifs with hc
  · exact h hc
  · exact h' hc

/-- A weaker property. -/
theorem Only.imp {Q : ν → Prop} {m : Noted ν α} (h : Only P m) (hPQ : ∀ entry, P entry → Q entry) :
    Only Q m := fun entry hentry ↦ hPQ entry (h entry hentry)

end DeskhopPlus.Noting
