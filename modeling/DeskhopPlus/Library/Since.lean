import DeskhopPlus.Library.Runs

/-!
# Since an event

A property that some events of a run set and others clear holds after the run exactly when it was
set by an event after which none cleared it, or held at the start and was never cleared.
-/

namespace DeskhopPlus.Runs

variable {σ ε : Type*} (step : σ → ε → σ)

/-- An event of the run sets the property, and no event after it clears it. -/
def Since (catches drops : σ → ε → Prop) (start : σ) (events : List ε) : Prop :=
  ∃ before event after, events = before ++ event :: after ∧
    catches (run step start before) event ∧
    Along step (fun state event ↦ ¬drops state event) (run step start (before ++ [event])) after

variable {step} {catches drops : σ → ε → Prop} {start : σ}

theorem not_since_nil : ¬Since step catches drops start [] := by
  rintro ⟨before, event, after, hsplit, -⟩
  cases before <;> cases hsplit

/-- The first event of the run sets the property for good, or a later one does. -/
theorem since_cons {event : ε} {rest : List ε} :
    Since step catches drops start (event :: rest) ↔
      (catches start event ∧
        Along step (fun state event ↦ ¬drops state event) (step start event) rest) ∨
      Since step catches drops (step start event) rest := by
  constructor
  · rintro ⟨before, caught, after, hsplit, hcatches, hdrops⟩
    cases before with
    | nil =>
        obtain ⟨rfl, rfl⟩ := List.cons.inj hsplit
        exact .inl ⟨hcatches, hdrops⟩
    | cons first before =>
        obtain ⟨rfl, rfl⟩ := List.cons.inj hsplit
        exact .inr ⟨before, caught, after, rfl, hcatches, hdrops⟩
  · rintro (⟨hcatches, hdrops⟩ | ⟨before, caught, after, rfl, hcatches, hdrops⟩)
    · exact ⟨[], event, rest, rfl, hcatches, hdrops⟩
    · exact ⟨event :: before, caught, after, rfl, hcatches, hdrops⟩

/-- A property each step sets or clears is what the last event about it said. -/
theorem holds_iff_since {holds : σ → Prop} {events : List ε}
    (hstep : Along step (fun state event ↦
      (holds (step state event) ↔ catches state event ∨ holds state ∧ ¬drops state event)) start
      events) :
    holds (run step start events) ↔ Since step catches drops start events ∨
      holds start ∧ Along step (fun state event ↦ ¬drops state event) start events := by
  induction events generalizing start with
  | nil => exact ⟨fun h ↦ .inr ⟨h, trivial⟩, fun h ↦ (h.resolve_left not_since_nil).1⟩
  | cons event rest ih =>
      have hfirst : holds (step start event) ↔
          catches start event ∨ holds start ∧ ¬drops start event := hstep.1
      rw [run_cons, ih hstep.2, since_cons, hfirst]
      constructor
      · rintro (hsince | ⟨hcatches | ⟨hstart, hkept⟩, hrest⟩)
        · exact .inl (.inr hsince)
        · exact .inl (.inl ⟨hcatches, hrest⟩)
        · exact .inr ⟨hstart, hkept, hrest⟩
      · rintro ((⟨hcatches, hrest⟩ | hsince) | ⟨hstart, hkept, hrest⟩)
        · exact .inr ⟨.inl hcatches, hrest⟩
        · exact .inl hsince
        · exact .inr ⟨.inr ⟨hstart, hkept⟩, hrest⟩

end DeskhopPlus.Runs
