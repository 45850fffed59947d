import DeskhopPlus.Outq.Stream
import DeskhopPlus.Wire.Carrier

/-!
# Pumping reports out

`channel_pump_out` shows itself the owed frame under a lock, writes one report with the lock
released, and advances the queue under the lock again if the transport took the report. Frames are
offered by the other core in between. `run_reports_cut` says what the transport gets from any such
run: the frames of `run_stream_integrity`, each cut into reports as the carrier's `cut` does.
-/

namespace DeskhopPlus.Outq

open Bytes Wire Runs

/-- The stream bytes one report takes of what is owed. -/
def pumpTake (owed : View) : Nat :=
  if owed.remaining < reportStreamSize then owed.remaining else reportStreamSize

/-- The report `channel_pump_out` writes for what is owed. -/
def pumpReport (owed : View) : List UInt8 :=
  reportBytes (owed.remaining = owed.total) (owed.atBytes.take (pumpTake owed))

/-- What happens around the pump: offers, its first locked part, and the transport taking the
report, after which the pump's view is gone. -/
inductive PumpEvent where
  | offer (frame : List UInt8)
  | offerPair (first second : List UInt8)
  | look
  | took
  deriving DecidableEq, Repr

/-- A queue with its pump and the reports the transport took. -/
structure Pump where
  driver : Driver
  reports : List (List UInt8)

namespace Pump

/-- A reset queue before its first report. -/
def start (q : Outq) : Pump := { driver := Driver.start q, reports := [] }

/-- One event of the pump. -/
def step (p : Pump) : PumpEvent → Pump
  | .offer frame => { p with driver := p.driver.step (.offer frame) }
  | .offerPair first second => { p with driver := p.driver.step (.offerPair first second) }
  | .look => { p with driver := p.driver.step .peek }
  | .took =>
      match p.driver.view with
      | none => p
      | some owed =>
          if pumpTake owed = 0 then p
          else
            { driver := { p.driver.step (.advance (pumpTake owed)) with view := none }
              reports := p.reports ++ [pumpReport owed] }

end Pump

/-- The reports of the begun item already taken. -/
def cutPart (spec : LaneQueue BandId UInt8) : List (List UInt8) :=
  match spec.begun with
  | none => []
  | some lane => (cut ((spec.waiting lane).headD [])).take (spec.sent / reportStreamSize)

/-- The reports are the cuts of what left and of the begun part of the next frame, and the view of
the pump knows the whole length of its frame. -/
structure Cuts (view : Option View) (reports : List (List UInt8))
    (spec : LaneQueue BandId UInt8) : Prop where
  reports : reports = (spec.done.map Prod.snd).flatMap cut ++ cutPart spec
  aligned : reportStreamSize ∣ spec.sent
  total : ∀ owed ∈ view, owed.atBytes = [] ∨
    owed.total = ((spec.waiting owed.band).headD []).length

section Reports

variable {spec : LaneQueue BandId UInt8}

theorem cut_length (frame : List UInt8) : (cut frame).length = reportCount frame := by
  simp [cut]

/-- One report more of a frame. -/
theorem cut_take_succ {frame : List UInt8} {index : Nat} (h : index < reportCount frame) :
    (cut frame).take (index + 1) = (cut frame).take index ++ [reportAt frame index] := by
  rw [List.take_add_one, List.getElem?_eq_getElem (by simpa [cut_length] using h)]
  simp [cut]

/-- The report written for a frame whose first `index` reports are out. -/
theorem pumpReport_eq {view : View} {frame : List UInt8} {index : Nat}
    (hremaining : view.remaining = view.atBytes.length) (htotal : view.total = frame.length)
    (hshown : view.atBytes = frame.drop (reportStreamSize * index))
    (hinside : reportStreamSize * index < frame.length) :
    pumpReport view = reportAt frame index := by
  have hlength : view.atBytes.length = frame.length - reportStreamSize * index := by
    simp [hshown]
  have hstart : (decide (view.remaining = view.total)) = decide (index = 0) := by
    rw [hremaining, htotal, hlength]
    rcases Nat.eq_zero_or_pos index with rfl | hpos
    · simp
    · have : 0 < reportStreamSize * index := Nat.mul_pos (by decide) hpos
      rw [decide_eq_false (by omega), decide_eq_false (by omega)]
  have hchunk : view.atBytes.take (pumpTake view) = chunkAt frame index := by
    rw [pumpTake, chunkAt, ← hshown]
    split
    · rename_i hlast
      rw [List.take_of_length_le (by omega), List.take_of_length_le (by omega)]
    · rfl
  rw [pumpReport, reportAt, hchunk, hstart]

/-- The cut part while a frame waits at the head of a lane that may go on. -/
theorem cutPart_eq (h : spec.Sound) {lane : BandId} {frame : List UInt8}
    {rest : List (List UInt8)} (hfree : spec.FreeFor lane)
    (hwaiting : spec.waiting lane = frame :: rest) :
    cutPart spec = (cut frame).take (spec.sent / reportStreamSize) := by
  rcases hfree with hnone | hbegun
  · simp [cutPart, hnone, h.idle hnone]
  · simp [cutPart, hbegun, hwaiting]

/-- Taking a frame changes no report and no view. -/
theorem Cuts.accept {view : Option View} {reports : List (List UInt8)} (h : Cuts view reports spec)
    (hsound : spec.Sound) (hshown : ∀ owed ∈ view, Driver.Shown spec owed) (lane : BandId)
    (frame : List UInt8) : Cuts view reports (spec.accept lane frame) := by
  have hhead : ∀ other, spec.waiting other ≠ [] →
      ((spec.accept lane frame).waiting other).headD [] = (spec.waiting other).headD [] := by
    intro other hne
    by_cases hsame : other = lane
    · subst hsame
      rw [LaneQueue.accept_waiting_self]
      exact LaneQueue.Sound.headD_append hne frame
    · rw [LaneQueue.accept_waiting_of_ne spec hsame]
  refine ⟨?_, h.aligned, ?_⟩
  · have hpart : cutPart (spec.accept lane frame) = cutPart spec := by
      unfold cutPart
      cases hbegun : spec.begun with
      | none => simp [LaneQueue.accept, hbegun]
      | some other =>
          have := hhead other (hsound.waiting_ne_nil hbegun)
          simp only [LaneQueue.accept, hbegun] at this ⊢
          rw [this]
    rw [hpart]
    exact h.reports
  · intro owed howed
    by_cases hnil : owed.atBytes = []
    · exact .inl hnil
    · refine .inr ?_
      have hne : spec.waiting owed.band ≠ [] := by
        intro hempty
        rcases hshown owed howed with hnone | hshows
        · exact hnil hnone
        · rw [hempty] at hshows
          exact hnil (by simpa using hshows)
      rw [hhead _ hne]
      exact (h.total owed howed).resolve_left hnil

/-- A look shows the frame at the head of the owed band and its whole length. -/
theorem Cuts.look {q : Outq} {view : Option View} {reports : List (List UInt8)}
    (h : Cuts view reports spec) (hrefines : Refines q spec) : Cuts q.peek reports spec := by
  refine ⟨h.reports, h.aligned, ?_⟩
  intro owed howed
  obtain ⟨id, hband, rfl⟩ := Option.map_eq_some_iff.1 howed
  have hheld := (hrefines.owedBand.1 id hband).2
  refine .inr ?_
  show (q.band id).len = ((spec.waiting id).headD []).length
  rw [hrefines.waiting_cons id hheld, List.headD_cons, (hrefines.valid id).head_length]

/-- The transport takes the report of what the view shows. -/
theorem Cuts.took {owed : View} {reports : List (List UInt8)}
    (h : Cuts (some owed) reports spec) (hsound : spec.Sound) (hfree : spec.FreeFor owed.band)
    (hshown : Driver.Shown spec owed) (hremaining : owed.remaining = owed.atBytes.length)
    (hsome : pumpTake owed ≠ 0) :
    Cuts none (reports ++ [pumpReport owed]) (spec.emit owed.band (pumpTake owed)) := by
  have hbytes : owed.atBytes ≠ [] := by
    intro hnil
    simp [pumpTake, hremaining, hnil, reportStreamSize] at hsome
  have hshows := hshown.resolve_left hbytes
  have htotal := (h.total owed rfl).resolve_left hbytes
  obtain ⟨index, hindex⟩ := h.aligned
  cases hwaiting : spec.waiting owed.band with
  | nil =>
      rw [hwaiting] at hshows
      exact absurd (by simpa using hshows) hbytes
  | cons frame rest =>
      rw [hwaiting, List.headD_cons] at hshows htotal
      have hinside := hsound.sent_lt hfree hwaiting
      rw [hindex] at hinside hshows
      have hlength : owed.remaining = frame.length - reportStreamSize * index := by
        simp [hremaining, hshows]
      have hreport : reports ++ [pumpReport owed] =
          (spec.done.map Prod.snd).flatMap cut ++ (cut frame).take (index + 1) := by
        rw [h.reports, cutPart_eq hsound hfree hwaiting, hindex,
          Nat.mul_div_cancel_left _ (by decide), pumpReport_eq hremaining htotal hshows hinside,
          cut_take_succ ((lt_reportCount_iff frame index).2 hinside), List.append_assoc]
      by_cases hmore : spec.sent + pumpTake owed < frame.length
      · -- only the last report of a frame is short
        have htake : pumpTake owed = reportStreamSize := by
          rw [pumpTake] at hmore ⊢
          split
          · rename_i hlast
            rw [if_pos hlast] at hmore
            omega
          · rfl
        have hsent : spec.sent + pumpTake owed = reportStreamSize * (index + 1) := by
          rw [hindex, htake, Nat.mul_succ]
        rw [LaneQueue.emit_inside hwaiting hmore, hreport]
        refine ⟨?_, ?_, fun _ hnone ↦ by cases hnone⟩
        · simp [cutPart, hsome, hwaiting, hsent, reportStreamSize]
        · show reportStreamSize ∣ spec.sent + pumpTake owed
          exact ⟨index + 1, hsent⟩
      · -- the frame is done, and its reports with it
        have hlast : (cut frame).take (index + 1) = cut frame := by
          apply List.take_of_length_le
          rw [cut_length]
          apply Nat.le_of_not_lt
          rw [lt_reportCount_iff, Nat.mul_succ]
          have : pumpTake owed ≤ reportStreamSize := by
            rw [pumpTake]
            split <;> omega
          omega
        rw [LaneQueue.emit_complete hwaiting (Nat.le_of_not_lt hmore), hreport, hlast]
        refine ⟨?_, Nat.dvd_zero _, fun _ hnone ↦ by cases hnone⟩
        simp [cutPart]

/-- Tracking does not need a view. -/
theorem Driver.Tracks.forget {s : Driver} (h : s.Tracks spec) :
    Driver.Tracks { s with view := none } spec where
  sound := h.sound
  refines := h.refines
  accepted := h.accepted
  emitted := h.emitted
  remaining _ hnone := by cases hnone
  free _ hnone := by cases hnone
  shown _ hnone := by cases hnone

/-- Every event of the pump keeps the reports the cuts of the frames that leave. -/
theorem reported_step {p : Pump} (htracks : p.driver.Tracks spec)
    (hcuts : Cuts p.driver.view p.reports spec) (event : PumpEvent) :
    ∃ next, (p.step event).driver.Tracks next ∧
      Cuts (p.step event).driver.view (p.step event).reports next := by
  cases event with
  | offer frame =>
      refine ⟨_, htracks.step (.offer frame), ?_⟩
      show Cuts p.driver.view p.reports (p.driver.shadow spec (.offer frame))
      simp only [Driver.shadow]
      split
      · exact hcuts.accept htracks.sound htracks.shown _ _
      · exact hcuts
  | offerPair first second =>
      rcases htracks.refines.offerPair first second with ⟨hok, hfirst, -, -⟩ | ⟨hrefused, -⟩
      · refine ⟨_, htracks.step (.offerPair first second), ?_⟩
        show Cuts p.driver.view p.reports (p.driver.shadow spec (.offerPair first second))
        simp only [Driver.shadow, if_pos hok]
        exact (hcuts.accept htracks.sound htracks.shown _ _).accept
          (htracks.sound.accept (Driver.isFrame_ne_nil hfirst))
          (fun owed howed ↦ (htracks.shown owed howed).accept _ _) _ _
      · refine ⟨_, htracks.step (.offerPair first second), ?_⟩
        show Cuts p.driver.view p.reports (p.driver.shadow spec (.offerPair first second))
        simp only [Driver.shadow, if_neg hrefused]
        exact hcuts
  | look => exact ⟨_, htracks.step .peek, hcuts.look htracks.refines⟩
  | took =>
      cases hview : p.driver.view with
      | none =>
          simp only [Pump.step, hview]
          exact ⟨spec, htracks, hview ▸ hcuts⟩
      | some owed =>
          by_cases hzero : pumpTake owed = 0
          · simp only [Pump.step, hview, if_pos hzero]
            exact ⟨spec, htracks, hview ▸ hcuts⟩
          · simp only [Pump.step, hview, if_neg hzero]
            have hremaining := htracks.remaining owed hview
            have hfits : ¬ owed.remaining < pumpTake owed := by
              rw [pumpTake]
              split <;> omega
            have hshadow : p.driver.shadow spec (.advance (pumpTake owed)) =
                spec.emit owed.band (pumpTake owed) := by
              simp only [Driver.shadow, hview, if_neg hfits]
            refine ⟨_, (htracks.step (.advance (pumpTake owed))).forget, ?_⟩
            rw [hshadow]
            exact (hview ▸ hcuts).took htracks.sound (htracks.free owed hview)
              (htracks.shown owed hview) hremaining hzero

/-- What the transport gets from a queue: over every interleaving of offers with the pump, the
reports are a beginning of the cuts of whole frames, which per band are the accepted frames in
order. -/
theorem run_reports_cut (q : Outq) (events : List PumpEvent) :
    ∃ frames : List (List UInt8),
      (run Pump.step (Pump.start q) events).reports <+: frames.flatMap cut ∧
      ∀ id, frames.filter (fun frame ↦ bandOf frame = id) =
        (run Pump.step (Pump.start q) events).driver.accepted.filter
          fun frame ↦ bandOf frame = id := by
  have hstart : Cuts (Pump.start q).driver.view (Pump.start q).reports LaneQueue.empty :=
    ⟨rfl, Nat.dvd_zero _, fun _ hnone ↦ by cases hnone⟩
  obtain ⟨spec, htracks, hcuts⟩ := run_invariant
    (fun p : Pump ↦ ∃ spec, p.driver.Tracks spec ∧ Cuts p.driver.view p.reports spec)
    ⟨_, Driver.tracks_start q, hstart⟩
    (fun _ event ⟨_, htracks, hcuts⟩ ↦ reported_step htracks hcuts event) events
  obtain ⟨first, hfree⟩ : ∃ first, spec.FreeFor first := ⟨_, htracks.free_owed⟩
  refine ⟨_, ?_, htracks.filter_bandOf first⟩
  rw [hcuts.reports, List.flatMap_append]
  apply (List.prefix_append_right_inj _).2
  rcases hfree with hnone | hbegun
  · simp [cutPart, hnone]
  · obtain ⟨frame, items, hwaiting⟩ :=
      List.exists_cons_of_ne_nil (htracks.sound.waiting_ne_nil hbegun)
    obtain ⟨more, hmore⟩ := Driver.backlog_lanesFrom hwaiting
    rw [hmore, cutPart_eq htracks.sound (.inr hbegun) hwaiting, List.flatMap_cons]
    exact (List.take_prefix _ _).trans (List.prefix_append _ _)

end Reports

end DeskhopPlus.Outq
