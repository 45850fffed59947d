import DeskhopPlus.Board.Relay
import DeskhopPlus.Library.Runs
import Mathlib.Logic.Function.Basic

/-!
# The inbound ring between the cores

`dh_inq.c` as it lies in memory: four slots, and two free-running counters of eight bits, one moved
by the core that fills the slots and one by the core that empties them. A frame is staged in the
slot behind the newest one and handed over by the publish, so the two cores never meet in a slot,
however their steps fall. Read oldest first the occupied slots are the queue of frames that the
channel takes the ring for.
-/

namespace DeskhopPlus.Board

open Bytes Runs Outq

/-! ## The ring -/

/-- `dh_inq`. -/
structure InqRing where
  slot : Nat → List UInt8
  slotLen : Nat → Nat
  head : UInt8
  tail : UInt8
  staged : Bool
  dropped : Nat

/-- `inq_slot_at`. -/
def inqSlotAt (counter : UInt8) : Nat := counter.toNat % inqDepth

namespace InqRing

/-- `dh_inq_init`. -/
def init : InqRing where
  slot _ := List.replicate inqSlotMax 0
  slotLen _ := 0
  head := 0
  tail := 0
  staged := false
  dropped := 0

variable (q : InqRing)

/-- `dh_inq_pending`. -/
def pending : UInt8 := q.tail - q.head

/-- `dh_inq_reset`. -/
def reset : InqRing := { q with head := q.tail }

/-- The ring does not take the frame. -/
def refuses (frame : List UInt8) : Bool :=
  frame.length == 0 || inqSlotMax < frame.length || inqDepth ≤ q.pending.toNat

/-- `dh_inq_stage`. -/
def stage (frame : List UInt8) : InqRing :=
  if q.refuses frame then { q with staged := false, dropped := saturate q.dropped }
  else
    let place := inqSlotAt q.tail
    { q with
      slot := Function.update q.slot place (overwrite (q.slot place) 0 frame)
      slotLen := Function.update q.slotLen place frame.length
      staged := true }

/-- `dh_inq_publish`. -/
def publish : InqRing :=
  if q.staged = false then q else { q with staged := false, tail := q.tail + 1 }

/-- `dh_inq_peek`: the slot of the oldest frame, and the length of the frame in it. -/
def peek : Option (Nat × Nat) :=
  if q.pending = 0 then none else some (inqSlotAt q.head, q.slotLen (inqSlotAt q.head))

/-- `dh_inq_release`. -/
def release : InqRing := if q.pending = 0 then q else { q with head := q.head + 1 }

/-- What a view of the ring shows. -/
def shows (view : Nat × Nat) : List UInt8 := (q.slot view.1).take view.2

/-- The frame in the slot of a counter. -/
def frameAt (counter : Nat) : List UInt8 :=
  q.shows (counter % inqDepth, q.slotLen (counter % inqDepth))

/-- The frames in the ring, oldest first. -/
def contents : List (List UInt8) :=
  (List.range q.pending.toNat).map fun i ↦ q.frameAt (q.head.toNat + i)

end InqRing

/-! ## The ring as a queue -/

namespace InqRing

variable {q : InqRing} {frame : List UInt8}

theorem tail_eq (q : InqRing) : q.tail.toNat = (q.head.toNat + q.pending.toNat) % 256 := by
  have hhead := q.head.toNat_lt
  have htail := q.tail.toNat_lt
  rw [pending, UInt8.toNat_sub]
  omega

/-- A counter and its wrap name the same slot. -/
theorem frameAt_mod (q : InqRing) (counter : Nat) :
    q.frameAt (counter % 256) = q.frameAt counter := by
  unfold frameAt
  rw [Nat.mod_mod_of_dvd counter (by decide : inqDepth ∣ 256)]

theorem contents_length (q : InqRing) : q.contents.length = q.pending.toNat := by
  simp [contents]

theorem pending_eq_zero_iff (q : InqRing) : q.pending = 0 ↔ q.pending.toNat = 0 :=
  ⟨fun h ↦ by rw [h]; rfl, fun h ↦ UInt8.toNat.inj (h.trans rfl)⟩

/-- The view is of the oldest frame. -/
theorem shows_peek (q : InqRing) : q.peek.map q.shows = q.contents.head? := by
  unfold peek
  by_cases hnone : q.pending = 0
  · rw [if_pos hnone, contents, (pending_eq_zero_iff q).1 hnone]
    rfl
  · obtain ⟨more, hmore⟩ : ∃ more, q.pending.toNat = more + 1 := by
      refine ⟨q.pending.toNat - 1, ?_⟩
      have hsome : q.pending.toNat ≠ 0 := fun h ↦ hnone ((pending_eq_zero_iff q).2 h)
      omega
    rw [if_neg hnone, contents, hmore, List.range_succ_eq_map]
    rfl

/-- A frame taken in is in the slot behind the newest one, and the slots before it are as they
were. -/
theorem stage_taken (htakes : q.refuses frame = false) :
    (q.stage frame).frameAt q.tail.toNat = frame ∧
    ∀ i < q.pending.toNat, (q.stage frame).frameAt (q.head.toNat + i) = q.frameAt
      (q.head.toNat + i) := by
  have hroom : q.pending.toNat < inqDepth := by
    simp only [refuses, Bool.or_eq_false_iff, decide_eq_false_iff_not] at htakes
    omega
  have htail := tail_eq q
  unfold stage
  rw [if_neg (by simp [htakes])]
  refine ⟨?_, fun i hi ↦ ?_⟩
  · simp only [frameAt, shows, inqSlotAt, Function.update_self, overwrite, List.take_zero,
      List.nil_append]
    exact List.take_left
  · have hother : (q.head.toNat + i) % inqDepth ≠ q.tail.toNat % inqDepth := by
      simp only [inqDepth] at hroom ⊢
      omega
    simp only [frameAt, shows, inqSlotAt, Function.update_of_ne hother]

/-- The consumer's view does not change with a stage. -/
theorem stage_peek (q : InqRing) (frame : List UInt8) : (q.stage frame).peek = q.peek := by
  unfold stage
  split
  · rfl
  · rename_i htakes
    have hroom : q.pending.toNat < inqDepth := by
      simp only [refuses, Bool.or_eq_true, decide_eq_true_eq] at htakes
      omega
    have htail := tail_eq q
    show (if q.pending = 0 then none else _) = if q.pending = 0 then none else _
    split
    · rfl
    · rename_i hsome
      have hsome : q.pending.toNat ≠ 0 := fun h ↦ hsome ((pending_eq_zero_iff q).2 h)
      have hother : inqSlotAt q.head ≠ inqSlotAt q.tail := by
        simp only [inqSlotAt, inqDepth] at hroom ⊢
        omega
      dsimp only
      rw [Function.update_of_ne hother]

theorem stage_contents (q : InqRing) (frame : List UInt8) :
    (q.stage frame).contents = q.contents := by
  cases htakes : q.refuses frame with
  | true =>
      unfold stage
      rw [if_pos htakes]
      rfl
  | false =>
      have hsame := (stage_taken htakes).2
      have hpending : (q.stage frame).pending = q.pending ∧ (q.stage frame).head = q.head := by
        unfold stage
        rw [if_neg (by simp [htakes])]
        exact ⟨rfl, rfl⟩
      rw [contents, contents, hpending.1, hpending.2]
      refine List.map_congr_left fun i hi ↦ hsame i (List.mem_range.1 hi)

/-- A publish hands over the slot behind the newest one. -/
theorem publish_contents (hstaged : q.staged = true) (hroom : q.pending.toNat < inqDepth) :
    q.publish.pending.toNat = q.pending.toNat + 1 ∧
    q.publish.contents = q.contents ++ [q.frameAt q.tail.toNat] := by
  have htail := tail_eq q
  have hpublish : q.publish = { q with staged := false, tail := q.tail + 1 } := by
    unfold publish
    rw [if_neg (by simp [hstaged])]
  have hpending : q.publish.pending.toNat = q.pending.toNat + 1 := by
    have hhead := q.head.toNat_lt
    rw [hpublish]
    show (q.tail + 1 - q.head).toNat = (q.tail - q.head).toNat + 1
    simp only [pending, inqDepth, UInt8.toNat_sub, UInt8.toNat_add,
      UInt8.reduceToNat] at hroom htail ⊢
    omega
  refine ⟨hpending, ?_⟩
  rw [contents, hpending, List.range_succ, List.map_append, htail, frameAt_mod, hpublish]
  rfl

/-- A release takes the oldest frame out. -/
theorem release_contents (q : InqRing) : q.release.contents = q.contents.tail := by
  unfold release
  by_cases hnone : q.pending = 0
  · rw [if_pos hnone, contents, (pending_eq_zero_iff q).1 hnone]
    rfl
  · obtain ⟨more, hmore⟩ : ∃ more, q.pending.toNat = more + 1 := by
      refine ⟨q.pending.toNat - 1, ?_⟩
      have hsome : q.pending.toNat ≠ 0 := fun h ↦ hnone ((pending_eq_zero_iff q).2 h)
      omega
    have hhead := q.head.toNat_lt
    have hless : (pending { q with head := q.head + 1 }).toNat = more := by
      show (q.tail - (q.head + 1)).toNat = more
      simp only [pending, UInt8.toNat_sub, UInt8.toNat_add, UInt8.reduceToNat] at hmore ⊢
      omega
    rw [if_neg hnone, contents, hless, contents, hmore, List.range_succ_eq_map, List.map_cons,
      List.tail_cons, List.map_map]
    refine List.map_congr_left fun i _ ↦ ?_
    have hnext : ((q.head + 1).toNat + i) % 256 = (q.head.toNat + (i + 1)) % 256 := by
      rw [UInt8.toNat_add]
      simp only [UInt8.reduceToNat]
      omega
    show q.frameAt ((q.head + 1).toNat + i) = q.frameAt (q.head.toNat + (i + 1))
    rw [← frameAt_mod, hnext, frameAt_mod]

/-! The channel takes the ring for the queue of its contents. -/

/-- The queue the ring stands for. -/
def toInq (q : InqRing) : Inq := { parked := q.contents, dropped := q.dropped }

theorem stage_publish_toInq (q : InqRing) (frame : List UInt8) :
    (q.stage frame).publish.toInq = q.toInq.stage frame := by
  have hrefuses : q.refuses frame = true ↔
      frame.length = 0 ∨ inqSlotMax < frame.length ∨ inqDepth ≤ q.toInq.parked.length := by
    rw [toInq, contents_length]
    simp [refuses, or_assoc]
  unfold Inq.stage
  cases htakes : q.refuses frame with
  | true =>
      have hstage : q.stage frame = { q with staged := false, dropped := saturate q.dropped } := by
        unfold stage
        rw [if_pos htakes]
      rw [if_pos (hrefuses.1 htakes), hstage, publish, if_pos rfl]
      rfl
  | false =>
      have hnot : ¬ q.refuses frame = true := by simp [htakes]
      have hstaged : (q.stage frame).staged = true ∧ (q.stage frame).pending = q.pending ∧
          (q.stage frame).tail = q.tail ∧ (q.stage frame).dropped = q.dropped := by
        unfold stage
        rw [if_neg hnot]
        exact ⟨rfl, rfl, rfl, rfl⟩
      have hroom : (q.stage frame).pending.toNat < inqDepth := by
        rw [hstaged.2.1]
        have hlow : ¬ inqDepth ≤ q.toInq.parked.length := fun h ↦ hnot (hrefuses.2 (.inr (.inr h)))
        rw [toInq, contents_length] at hlow
        omega
      have hcontents := (publish_contents hstaged.1 hroom).2
      rw [hstaged.2.2.1, (stage_taken htakes).1, stage_contents] at hcontents
      rw [if_neg fun h ↦ hnot (hrefuses.2 h), toInq, hcontents, publish,
        if_neg (by simp [hstaged.1])]
      show Inq.mk _ (q.stage frame).dropped = _
      rw [hstaged.2.2.2]
      rfl

theorem release_toInq (q : InqRing) : q.release.toInq = q.toInq.release := by
  have hdropped : q.release.dropped = q.dropped := by
    unfold release
    split <;> rfl
  rw [toInq, release_contents, hdropped]
  rfl

theorem reset_toInq (q : InqRing) : q.reset.toInq = q.toInq.reset := by
  have hnone : q.reset.pending = 0 := UInt8.sub_self q.tail
  rw [toInq, contents, hnone]
  rfl

theorem peek_toInq (q : InqRing) : q.peek.map q.shows = q.toInq.peek := shows_peek q

end InqRing

/-! ## The two cores -/

/-- The ring between its two users: what the consumer has in view, the frame last staged, and the
history of the frames published and released and of the stages refused. -/
structure Handoff where
  ring : InqRing := InqRing.init
  view : Option (Nat × Nat) := none
  staging : List UInt8 := []
  published : List (List UInt8) := []
  released : List (List UInt8) := []
  refusals : Nat := 0

/-- A step of the producer, or one of the consumer. -/
inductive HandoffEvent where
  | stage (frame : List UInt8)
  | publish
  | peek
  | release

/-- The step is one of the consumer. -/
def HandoffEvent.consumes : HandoffEvent → Bool
  | .peek | .release => true
  | .stage _ | .publish => false

namespace Handoff

def step (s : Handoff) : HandoffEvent → Handoff
  | .stage frame =>
      { s with
        ring := s.ring.stage frame
        staging := if s.ring.refuses frame then s.staging else frame
        refusals := if s.ring.refuses frame then s.refusals + 1 else s.refusals }
  | .publish =>
      { s with
        ring := s.ring.publish
        published := if s.ring.staged then s.published ++ [s.staging] else s.published }
  | .peek => { s with view := s.ring.peek }
  | .release =>
      { s with
        ring := s.ring.release
        view := none
        released := s.released ++ (s.ring.peek.map s.ring.shows).toList }

/-- What holds of the ring in every run: the frames released and those in the ring are the frames
published, the slot behind them is free for a staged frame, and the consumer has the oldest frame in
view. -/
structure Sound (s : Handoff) : Prop where
  pending_le : s.ring.pending.toNat ≤ inqDepth
  contents : s.published = s.released ++ s.ring.contents
  room : s.ring.staged = true → s.ring.pending.toNat < inqDepth
  staging : s.ring.staged = true → s.ring.frameAt s.ring.tail.toNat = s.staging
  view : ∀ view, s.view = some view → s.ring.peek = some view
  counted : s.ring.dropped = min s.refusals (2 ^ 32 - 1)

variable {s : Handoff}

theorem Sound.start : Sound {} where
  pending_le := by decide
  contents := rfl
  room := nofun
  staging := nofun
  view := nofun
  counted := rfl

theorem Sound.stage (h : s.Sound) (frame : List UInt8) : (s.step (.stage frame)).Sound := by
  have hcontents := InqRing.stage_contents s.ring frame
  have hpeek := InqRing.stage_peek s.ring frame
  cases htakes : s.ring.refuses frame with
  | true =>
      have hstage : s.ring.stage frame =
          { s.ring with staged := false, dropped := saturate s.ring.dropped } := by
        unfold InqRing.stage
        rw [if_pos htakes]
      simp only [step, htakes, if_true, hstage]
      exact
        { pending_le := h.pending_le
          contents := h.contents
          room := nofun
          staging := nofun
          view := h.view
          counted := by
            show saturate s.ring.dropped = min (s.refusals + 1) (2 ^ 32 - 1)
            rw [h.counted, saturate]
            split <;> omega }
  | false =>
      obtain ⟨hlast, hsame⟩ := InqRing.stage_taken htakes
      have hroom : s.ring.pending.toNat < inqDepth := by
        simp only [InqRing.refuses, Bool.or_eq_false_iff, decide_eq_false_iff_not] at htakes
        omega
      have hstage : ∃ slot slotLen, s.ring.stage frame =
          { s.ring with slot := slot, slotLen := slotLen, staged := true } := by
        unfold InqRing.stage
        rw [if_neg (by simp [htakes])]
        exact ⟨_, _, rfl⟩
      obtain ⟨slot, slotLen, hstage⟩ := hstage
      simp only [step, htakes, Bool.false_eq_true, if_false]
      rw [hstage] at hlast hcontents hpeek ⊢
      exact
        { pending_le := h.pending_le
          contents := by
            show s.published = s.released ++ InqRing.contents _
            rw [hcontents]
            exact h.contents
          room := fun _ ↦ hroom
          staging := fun _ ↦ hlast
          view := fun view hview ↦ hpeek.trans (h.view view hview)
          counted := h.counted }

theorem Sound.publish (h : s.Sound) : (s.step .publish).Sound := by
  cases hstaged : s.ring.staged with
  | false =>
      have hpublish : s.ring.publish = s.ring := by
        unfold InqRing.publish
        rw [if_pos hstaged]
      simp only [step, hstaged, Bool.false_eq_true, if_false, hpublish]
      exact ⟨h.pending_le, h.contents, h.room, h.staging, h.view, h.counted⟩
  | true =>
      obtain ⟨hpending, hcontents⟩ := InqRing.publish_contents hstaged (h.room hstaged)
      have hpublish : s.ring.publish =
          { s.ring with staged := false, tail := s.ring.tail + 1 } := by
        unfold InqRing.publish
        rw [if_neg (by simp [hstaged])]
      have hroom := h.room hstaged
      simp only [step, hstaged, if_true]
      exact
        { pending_le := by
            show s.ring.publish.pending.toNat ≤ inqDepth
            omega
          contents := by
            show s.published ++ [s.staging] = s.released ++ s.ring.publish.contents
            rw [hcontents, h.contents, h.staging hstaged, List.append_assoc]
          room := by
            rw [hpublish]
            nofun
          staging := by
            rw [hpublish]
            nofun
          view := by
            intro view hview
            -- what was in view is still the oldest frame
            have hpeek := h.view view hview
            unfold InqRing.peek at hpeek ⊢
            have hsome : ¬ s.ring.publish.pending = 0 := by
              rw [InqRing.pending_eq_zero_iff, hpending]
              exact Nat.succ_ne_zero _
            change (if s.ring.publish.pending = 0 then none else _) = _
            rw [if_neg hsome]
            split at hpeek
            · cases hpeek
            · rw [hpublish]
              exact hpeek
          counted := by
            rw [hpublish]
            exact h.counted }

theorem Sound.peek (h : s.Sound) : (s.step .peek).Sound :=
  { h with view := fun _ hview ↦ hview }

theorem Sound.release (h : s.Sound) : (s.step .release).Sound := by
  have hcontents := InqRing.release_contents s.ring
  have hless : s.ring.release.pending.toNat ≤ s.ring.pending.toNat := by
    rw [← InqRing.contents_length, ← InqRing.contents_length, hcontents, List.length_tail]
    omega
  have hrest : ∃ head, s.ring.release = { s.ring with head := head } := by
    unfold InqRing.release
    split
    · exact ⟨s.ring.head, rfl⟩
    · exact ⟨_, rfl⟩
  obtain ⟨head, hrest⟩ := hrest
  exact
    { pending_le := hless.trans h.pending_le
      contents := by
        show s.published = s.released ++ (s.ring.peek.map s.ring.shows).toList ++
          s.ring.release.contents
        rw [h.contents, hcontents, InqRing.shows_peek, List.append_assoc]
        cases s.ring.contents <;> rfl
      room := by
        intro hstaged
        refine lt_of_le_of_lt hless (h.room ?_)
        change s.ring.release.staged = true at hstaged
        rwa [hrest] at hstaged
      staging := by
        show s.ring.release.staged = true →
          s.ring.release.frameAt s.ring.release.tail.toNat = s.staging
        rw [hrest]
        exact h.staging
      view := nofun
      counted := by
        show s.ring.release.dropped = _
        rw [hrest]
        exact h.counted }

theorem Sound.step (h : s.Sound) (event : HandoffEvent) : (s.step event).Sound := by
  cases event with
  | stage frame => exact h.stage frame
  | publish => exact h.publish
  | peek => exact h.peek
  | release => exact h.release

/-- The consumer's steps leave alone whether a frame is staged. -/
theorem run_consumes (s : Handoff) {reads : List HandoffEvent}
    (hreads : ∀ event ∈ reads, event.consumes = true) :
    (run Handoff.step s reads).ring.staged = s.ring.staged := by
  refine run_invariant_of_mem (fun t : Handoff ↦ t.ring.staged = s.ring.staged) rfl ?_
  intro t event hevent hsame
  have hconsumes := hreads event hevent
  cases event with
  | stage frame => cases hconsumes
  | publish => cases hconsumes
  | peek => exact hsame
  | release =>
      rw [← hsame]
      show t.ring.release.staged = _
      unfold InqRing.release
      split <;> rfl

/-- However the steps of the two cores fall, and however often the counters wrap: the frames
released and those in the ring are, in order, the frames published, each as it was staged; what the
consumer has in view is the first frame not yet released, until it releases it; no more than the
depth of the ring are pending; every refused stage is counted, and the publish behind it changes
nothing. -/
theorem frames_handed_over (events : List HandoffEvent) :
    let s := run Handoff.step {} events
    s.published = s.released ++ s.ring.contents ∧
    s.ring.peek.map s.ring.shows = s.published[s.released.length]? ∧
    (∀ view, s.view = some view → s.published[s.released.length]? = some (s.ring.shows view)) ∧
    s.ring.pending.toNat ≤ inqDepth ∧
    s.ring.dropped = min s.refusals (2 ^ 32 - 1) ∧
    ∀ frame, s.ring.refuses frame = true → ∀ reads : List HandoffEvent,
      (∀ event ∈ reads, event.consumes = true) →
      let t := run Handoff.step (s.step (.stage frame)) reads
      t.refusals = s.refusals + 1 ∧ t.ring.publish = t.ring ∧
        (t.step .publish).published = t.published := by
  intro s
  have hsound : s.Sound :=
    run_invariant Sound Sound.start (fun _ event h ↦ h.step event) events
  have hnext : s.ring.contents.head? = s.published[s.released.length]? := by
    rw [hsound.contents, List.getElem?_append_right (Nat.le_refl _), Nat.sub_self,
      List.head?_eq_getElem?]
  refine ⟨hsound.contents, ?_, ?_, hsound.pending_le, hsound.counted, ?_⟩
  · rw [InqRing.shows_peek, hnext]
  · intro view hview
    rw [← hnext, ← InqRing.shows_peek, hsound.view view hview]
    rfl
  · intro frame hrefuses reads hreads t
    -- the refused frame is nowhere: nothing is staged, so a publish has nothing to publish
    have hstaged : t.ring.staged = false := by
      rw [run_consumes _ hreads]
      show (s.ring.stage frame).staged = false
      unfold InqRing.stage
      rw [if_pos hrefuses]
    have hcount : t.refusals = (s.step (.stage frame)).refusals := by
      refine run_invariant_of_mem
        (fun t : Handoff ↦ t.refusals = (s.step (.stage frame)).refusals) rfl ?_
      intro u event hevent hsame
      have hconsumes := hreads event hevent
      cases event with
      | stage frame => cases hconsumes
      | publish => cases hconsumes
      | peek => exact hsame
      | release => exact hsame
    refine ⟨?_, ?_, ?_⟩
    · rw [hcount]
      simp only [Handoff.step, hrefuses, if_true]
    · unfold InqRing.publish
      rw [if_pos hstaged]
    · simp only [Handoff.step, hstaged, Bool.false_eq_true, if_false]

end Handoff

end DeskhopPlus.Board
