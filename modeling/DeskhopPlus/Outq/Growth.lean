import DeskhopPlus.Outq.Stream

/-!
# What an operation adds to a queue

`Grows added q q'` says that a well-formed queue stays one from `q` to `q'` and that every frame it
holds afterwards it held before or is one of `added`. The operations compose by `Grows.trans`, so a
function that touches a queue several times is described by what it offers to it.
-/

namespace DeskhopPlus.Outq

/-- The queue is one a sound specification describes. -/
def WellFormed (q : Outq) : Prop := ∃ spec, Refines q spec ∧ spec.Sound

theorem wellFormed_reset (q : Outq) : WellFormed q.reset :=
  ⟨_, refines_reset q, LaneQueue.sound_empty⟩

/-- From the first queue to the second at most these frames were added. -/
def Grows (added : List (List UInt8)) (q q' : Outq) : Prop :=
  q.WellFormed → q'.WellFormed ∧
    ∀ id, ∀ frame ∈ (q'.band id).frames, frame ∈ (q.band id).frames ∨ frame ∈ added

variable {q q' q'' : Outq} {added more : List (List UInt8)} {view : View}

@[refl] theorem Grows.refl (q : Outq) : Grows [] q q :=
  fun h ↦ ⟨h, fun _ _ hframe ↦ .inl hframe⟩

theorem Grows.trans (h : Grows added q q') (h' : Grows more q' q'') :
    Grows (added ++ more) q q'' := by
  intro hq
  obtain ⟨hq', hsub⟩ := h hq
  obtain ⟨hq'', hsub'⟩ := h' hq'
  refine ⟨hq'', fun id frame hframe ↦ ?_⟩
  rcases hsub' id frame hframe with hold | hnew
  · exact (hsub id frame hold).imp_right (List.mem_append_left _)
  · exact .inr (List.mem_append_right _ hnew)

theorem Grows.mono (h : Grows added q q') (hmore : ∀ frame ∈ added, frame ∈ more) :
    Grows more q q' := by
  intro hq
  obtain ⟨hq', hsub⟩ := h hq
  exact ⟨hq', fun id frame hframe ↦ (hsub id frame hframe).imp_right (hmore frame)⟩

/-- A queue whose bands moved as the specification's lanes did. -/
theorem grows_of_refines
    (h : ∀ spec : LaneQueue BandId UInt8, Refines q spec → spec.Sound →
      ∃ spec', Refines q' spec' ∧ spec'.Sound ∧
        ∀ id, ∀ frame ∈ spec'.waiting id, frame ∈ spec.waiting id ∨ frame ∈ added) :
    Grows added q q' := by
  rintro ⟨spec, hrefines, hsound⟩
  obtain ⟨spec', hrefines', hsound', hsub⟩ := h spec hrefines hsound
  refine ⟨⟨spec', hrefines', hsound'⟩, fun id ↦ ?_⟩
  rw [← hrefines.waiting id, ← hrefines'.waiting id]
  exact hsub id

theorem grows_reset (q : Outq) : Grows [] q q.reset := by
  apply grows_of_refines
  intro spec _ _
  exact ⟨_, refines_reset q, LaneQueue.sound_empty, fun id frame h ↦ by simp [LaneQueue.empty] at h⟩

/-- An offer adds the frame, and nothing when it is refused. -/
theorem grows_offer (q : Outq) (frame : List UInt8) :
    Grows (if (q.offer frame).1 = .ok then [frame] else []) q (q.offer frame).2 := by
  apply grows_of_refines
  intro spec hrefines hsound
  rcases hrefines.offer frame with ⟨hok, hframe, htaken⟩ | ⟨hrefused, hkept⟩
  · rw [if_pos hok]
    refine ⟨_, htaken, hsound.accept (Driver.isFrame_ne_nil hframe), fun id queued hqueued ↦ ?_⟩
    simpa using LaneQueue.mem_accept_waiting hqueued
  · exact ⟨_, hkept, hsound, fun id queued hqueued ↦ .inl hqueued⟩

theorem grows_offerPair (q : Outq) (first second : List UInt8) :
    Grows [first, second] q (q.offerPair first second).2 := by
  apply grows_of_refines
  intro spec hrefines hsound
  rcases hrefines.offerPair first second with ⟨-, hfirst, hsecond, htaken⟩ | ⟨-, hkept⟩
  · refine ⟨_, htaken, (hsound.accept (Driver.isFrame_ne_nil hfirst)).accept
      (Driver.isFrame_ne_nil hsecond), fun id queued hqueued ↦ ?_⟩
    rcases LaneQueue.mem_accept_waiting hqueued with hbefore | rfl
    · rcases LaneQueue.mem_accept_waiting hbefore with hold | rfl
      · exact .inl hold
      · simp
    · simp
  · exact ⟨_, hkept, hsound, fun id queued hqueued ↦ .inl hqueued⟩

/-- Advancing over what a peek showed adds nothing. -/
theorem grows_advance (hview : q.peek = some view) (n : Nat) : Grows [] q (q.advance view n) := by
  apply grows_of_refines
  intro spec hrefines hsound
  have hfree := (hrefines.peek hsound hview).1
  exact ⟨_, hrefines.advance hsound hfree n, hsound.emit hfree n,
    fun id queued hqueued ↦ .inl (LaneQueue.mem_emit_waiting hqueued)⟩

/-- Noting the preamble of what a peek showed adds nothing. -/
theorem grows_notePreamble (hview : q.peek = some view) : Grows [] q (q.notePreamble view) := by
  apply grows_of_refines
  intro spec hrefines hsound
  have hfree := (hrefines.peek hsound hview).1
  refine ⟨_, hrefines.notePreamble hsound hfree, hsound.start hfree, fun id queued hqueued ↦ ?_⟩
  rw [LaneQueue.start_waiting] at hqueued
  exact .inl hqueued

end DeskhopPlus.Outq
