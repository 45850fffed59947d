import Mathlib.Data.List.Basic
import Mathlib.Data.List.Induction

/-!
# Runs of a deterministic machine

A machine is a step function on states and events; a run is the fold of it over a list of events.
`run_invariant` carries a property from the start to every reachable state, and
`run_invariant_along` does so for the runs whose every step meets a condition on the state before
it and the event. `EachAfter` says of a sequence that each of its elements stands in a relation to
those before it.
-/

namespace DeskhopPlus.Runs

variable {σ ε : Type*} (step : σ → ε → σ)

/-- The state after a sequence of events. -/
def run (start : σ) (events : List ε) : σ := events.foldl step start

@[simp] theorem run_nil (start : σ) : run step start [] = start := rfl

@[simp] theorem run_cons (start : σ) (event : ε) (rest : List ε) :
    run step start (event :: rest) = run step (step start event) rest := rfl

/-- Running two sequences one after the other. -/
theorem run_append (start : σ) (first second : List ε) :
    run step start (first ++ second) = run step (run step start first) second := by
  simp [run, List.foldl_append]

/-- The last event of a run. -/
theorem run_snoc (start : σ) (events : List ε) (event : ε) :
    run step start (events ++ [event]) = step (run step start events) event := by
  simp [run_append]

/-- Every step of the run meets a condition on the state before it and the event. -/
def Along (condition : σ → ε → Prop) : σ → List ε → Prop
  | _, [] => True
  | start, event :: rest => condition start event ∧ Along condition (step start event) rest

instance Along.decidable (condition : σ → ε → Prop) [∀ s e, Decidable (condition s e)] :
    ∀ (start : σ) (events : List ε), Decidable (Along step condition start events)
  | _, [] => .isTrue trivial
  | start, event :: rest =>
      have := Along.decidable condition (step start event) rest
      inferInstanceAs (Decidable (_ ∧ _))

theorem Along.append {condition : σ → ε → Prop} {start : σ} {first second : List ε} :
    Along step condition start (first ++ second) ↔
      Along step condition start first ∧ Along step condition (run step start first) second := by
  induction first generalizing start with
  | nil => simp [Along]
  | cons event rest ih => simp [Along, ih, and_assoc]

/-- A condition along a run is one on every event of it and the state that event meets. -/
theorem Along.iff_splits {condition : σ → ε → Prop} {start : σ} {events : List ε} :
    Along step condition start events ↔
      ∀ before event after, events = before ++ event :: after →
        condition (run step start before) event := by
  constructor
  · rintro h before event after rfl
    exact ((Along.append step).1 h).2.1
  · intro h
    induction events generalizing start with
    | nil => trivial
    | cons event rest ih =>
        refine ⟨h [] event rest rfl, ih ?_⟩
        intro before event' after hsplit
        exact h (event :: before) event' after (by rw [hsplit, List.cons_append])

variable {step}

/-- A list that every step extends is extended by every run. -/
theorem run_extends {α : Type*} (list : σ → List α)
    (hstep : ∀ state event, list state <+: list (step state event)) (start : σ)
    (events : List ε) : list start <+: list (run step start events) := by
  induction events generalizing start with
  | nil => exact List.prefix_rfl
  | cons event rest ih => exact (hstep start event).trans (ih _)

/-- Conditions of each step combine. -/
theorem Along.mp {condition conclusion : σ → ε → Prop} {start : σ} {events : List ε}
    (h : Along step condition start events)
    (himp : Along step (fun state event ↦ condition state event → conclusion state event) start
      events) :
    Along step conclusion start events := by
  induction events generalizing start with
  | nil => trivial
  | cons event rest ih => exact ⟨himp.1 h.1, ih h.2 himp.2⟩

theorem Along.and {condition conclusion : σ → ε → Prop} {start : σ} {events : List ε}
    (h : Along step condition start events) (h' : Along step conclusion start events) :
    Along step (fun state event ↦ condition state event ∧ conclusion state event) start events := by
  induction events generalizing start with
  | nil => trivial
  | cons event rest ih => exact ⟨⟨h.1, h'.1⟩, ih h.2 h'.2⟩

/-- A property of the start that every step keeps holds after every run. -/
theorem run_invariant (holds : σ → Prop) {start : σ} (hstart : holds start)
    (hstep : ∀ state event, holds state → holds (step state event)) (events : List ε) :
    holds (run step start events) := by
  induction events generalizing start with
  | nil => exact hstart
  | cons event rest ih => exact ih (hstep _ _ hstart)

/-- A property of the start that the events of a run keep holds after it. -/
theorem run_invariant_of_mem (holds : σ → Prop) {start : σ} (hstart : holds start)
    {events : List ε} (hstep : ∀ state, ∀ event ∈ events, holds state → holds (step state event)) :
    holds (run step start events) := by
  induction events generalizing start with
  | nil => exact hstart
  | cons event rest ih =>
      apply ih (hstep start event (List.mem_cons_self ..) hstart)
      intro state other hother
      exact hstep state other (List.mem_cons_of_mem _ hother)

/-- A property of the start that every step meeting a condition keeps holds after every run of
such steps. -/
theorem run_invariant_along (holds : σ → Prop) {condition : σ → ε → Prop} {start : σ}
    (hstart : holds start)
    (hstep : ∀ state event, holds state → condition state event → holds (step state event))
    {events : List ε} (halong : Along step condition start events) :
    holds (run step start events) := by
  induction events generalizing start with
  | nil => exact hstart
  | cons event rest ih => exact ih (hstep _ _ hstart halong.1) halong.2

/-- A change of the state that every step passes on is passed on by every run. -/
theorem run_map {change : σ → σ}
    (h : ∀ state event, step (change state) event = change (step state event)) (start : σ)
    (events : List ε) : run step (change start) events = change (run step start events) := by
  induction events generalizing start with
  | nil => rfl
  | cons event rest ih => rw [run_cons, h, ih, run_cons]

/-! ## Elements and those before them -/

section Each

variable {α : Type*} {related : List α → α → Prop}

/-- Every element of a sequence is related to the elements before it. -/
def EachAfter (related : List α → α → Prop) (sequence : List α) : Prop :=
  ∀ before element after, sequence = before ++ element :: after → related before element

theorem eachAfter_nil : EachAfter related [] := by
  intro before element after h
  cases before <;> cases h

/-- The last element of a sequence. -/
theorem eachAfter_snoc {sequence : List α} {last : α} :
    EachAfter related (sequence ++ [last]) ↔ EachAfter related sequence ∧
      related sequence last := by
  constructor
  · intro h
    refine ⟨?_, h sequence last [] rfl⟩
    intro before element after hsplit
    exact h before element (after ++ [last]) (by simp [hsplit])
  · rintro ⟨hall, hlast⟩ before element after hsplit
    rcases List.eq_nil_or_concat after with rfl | ⟨rest, final, rfl⟩
    · obtain ⟨rfl, hsame⟩ := List.append_inj' hsplit rfl
      cases hsame
      exact hlast
    · have hinit : sequence ++ [last] = (before ++ element :: rest) ++ [final] := by
        simpa using hsplit
      exact hall before element rest (List.append_inj' hinit rfl).1

/-- More elements, each of which may follow anything. -/
theorem EachAfter.append {first second : List α} (h : EachAfter related first)
    (hsecond : ∀ element ∈ second, ∀ before, related before element) :
    EachAfter related (first ++ second) := by
  induction second using List.reverseRecOn with
  | nil => rwa [List.append_nil]
  | append_singleton rest last ih =>
      rw [← List.append_assoc]
      refine eachAfter_snoc.2 ⟨ih fun element helement ↦ ?_, hsecond last (by simp) _⟩
      exact hsecond element (List.mem_append_left _ helement)

end Each

end DeskhopPlus.Runs
