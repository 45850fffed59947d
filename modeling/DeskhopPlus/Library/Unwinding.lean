import Mathlib.Data.List.Basic

/-!
# Parts of a machine that do not meet

A machine reads events and writes outputs, and one part of its state belongs to a class of the
events. If the events of the class see nothing but their part, and the others leave it alone, then
what becomes of the part and what the class writes depend on the events of the class only:
`unwinding` says so of any two runs that agree on these, whatever else is mixed into either.
-/

namespace DeskhopPlus.Unwinding

variable {σ ε α τ : Type*}

section Trace

variable (step : σ → ε → σ × List α) (own : ε → Bool)

/-- The state after a sequence of events. -/
def final : σ → List ε → σ
  | start, [] => start
  | start, event :: rest => final (step start event).1 rest

/-- What the events of the class write along a run. -/
def written : σ → List ε → List α
  | _, [] => []
  | start, event :: rest =>
      (if own event then (step start event).2 else []) ++ written (step start event).1 rest

end Trace

/-- A part of the state that belongs to a class of the events. -/
structure Owned (step : σ → ε → σ × List α) (own : ε → Bool) (part : σ → τ)
    (admitted : ε → Prop) : Prop where
  own_part : ∀ event, own event = true → ∀ s s', part s = part s' →
    part (step s event).1 = part (step s' event).1
  own_written : ∀ event, own event = true → ∀ s s', part s = part s' →
    (step s event).2 = (step s' event).2
  other : ∀ event, own event = false → admitted event → ∀ s, part (step s event).1 = part s

namespace Owned

variable {step : σ → ε → σ × List α} {own : ε → Bool} {part : σ → τ} {admitted : ε → Prop}

/-- The other events of a run can be left out. -/
theorem drop_others (h : Owned step own part admitted) {s s' : σ} (hpart : part s = part s')
    {events : List ε} (hadmitted : ∀ event ∈ events, admitted event) :
    part (final step s events) = part (final step s' (events.filter own)) ∧
      written step own s events = written step own s' (events.filter own) := by
  induction events generalizing s s' with
  | nil => exact ⟨hpart, rfl⟩
  | cons event rest ih =>
      have hrest : ∀ other ∈ rest, admitted other :=
        fun other hother ↦ hadmitted other (List.mem_cons_of_mem _ hother)
      cases hown : own event with
      | true =>
          obtain ⟨hfinal, hwritten⟩ := ih (h.own_part event hown s s' hpart) hrest
          simp only [List.filter_cons, hown, if_true, final, written]
          exact ⟨hfinal, by rw [h.own_written event hown s s' hpart, hwritten]⟩
      | false =>
          have hsame := h.other event hown (hadmitted event List.mem_cons_self) s
          obtain ⟨hfinal, hwritten⟩ := ih (hsame.trans hpart) hrest
          simp only [List.filter_cons, hown, Bool.false_eq_true, if_false, final, written,
            List.nil_append]
          exact ⟨hfinal, hwritten⟩

/-- Two runs that agree on the events of the class agree on the part and on what was written. -/
theorem unwinding (h : Owned step own part admitted) {s s' : σ} (hpart : part s = part s')
    {events events' : List ε} (hadmitted : ∀ event ∈ events, admitted event)
    (hadmitted' : ∀ event ∈ events', admitted event)
    (hsame : events.filter own = events'.filter own) :
    part (final step s events) = part (final step s' events') ∧
      written step own s events = written step own s' events' := by
  obtain ⟨hfinal, hwritten⟩ := h.drop_others hpart hadmitted
  obtain ⟨hfinal', hwritten'⟩ := h.drop_others (rfl : part s' = part s') hadmitted'
  rw [hfinal, hwritten, hsame, hfinal', hwritten']
  exact ⟨rfl, rfl⟩

end Owned

end DeskhopPlus.Unwinding
