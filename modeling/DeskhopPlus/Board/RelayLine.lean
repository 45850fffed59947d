import DeskhopPlus.Board.Fragments
import DeskhopPlus.Outq.Pump

/-!
# A relay, its link and the board behind it

`RelayLine` runs the sending half of the relay, the link and the receiving half together. The queue
of the sender refines the lane queue, so the packets it commits are those of whole frames, one frame
after the other; what the receiver makes of each frame is `listen_packetsOf`.
-/

namespace DeskhopPlus.Board

open Bytes Blocks Wire Outq Runs

/-- What can happen to a relay: a frame is offered, a pump begins, and the packet the sender peeked
at is committed, to arrive or to be lost. -/
inductive LineEvent where
  | offer (frame : List UInt8)
  | giveWay
  | carry (arrives : Bool)
  deriving DecidableEq, Repr

/-- The sender with the frames it took, the packets it committed and what became of them, the
receiver, and the bulk packets committed since the last pump began. -/
structure RelayLine where
  tx : RelayTx
  accepted : List (List UInt8)
  carried : List (RelayPacket × Bool)
  ear : Ear
  burst : Nat

namespace RelayLine

/-- A relay that has carried nothing. -/
def start (t : RelayTx) : RelayLine :=
  { tx := t.reset, accepted := [], carried := [], ear := Ear.start, burst := 0 }

/-- The relay after an event, with a receive buffer of `cap` bytes. -/
def step (cap : Nat) (l : RelayLine) : LineEvent → RelayLine
  | .offer frame =>
      let (result, tx) := l.tx.offer frame
      { l with tx := tx, accepted := if result = .ok then l.accepted ++ [frame] else l.accepted }
  | .giveWay => { l with tx := l.tx.giveWay, burst := 0 }
  | .carry arrives =>
      match l.tx.peek with
      | none => l
      | some packet =>
          { l with
            tx := l.tx.commit
            carried := l.carried ++ [(packet, arrives)]
            ear := l.ear.listen cap (packet, arrives)
            burst := if l.tx.owed.any (·.band = .bulk) then l.burst + 1 else l.burst }

/-- All of the packets from the `first` on, `count` of them, arrived. -/
def Arrived (l : RelayLine) (first count : Nat) : Prop :=
  ∀ carried ∈ (l.carried.drop first).take count, carried.2 = true

/-- The frames that crossed and those that wait: per band they are the accepted ones in order, and
the packets committed are those of the frames that crossed and a beginning of those of the next. -/
structure Drains (l : RelayLine) (drained waiting : List (List UInt8)) : Prop where
  account : ∀ id, (drained ++ waiting).filter (fun frame ↦ bandOf frame = id) =
    l.accepted.filter fun frame ↦ bandOf frame = id
  packets : ∃ part, l.carried.map Prod.fst = drained.flatMap packetsOf ++ part ∧
    part <+: packetsOf (waiting.headD []) ∧
    part.length < (packetsOf (waiting.headD [])).length
  idle : l.tx.q.busy = false → waiting = []

/-! ## The sender -/

/-- The packets of the begun item already committed. -/
def packetPart (spec : LaneQueue BandId UInt8) : List RelayPacket :=
  match spec.begun with
  | none => []
  | some lane => (packetsOf ((spec.waiting lane).headD [])).take (spec.sent / relayPayload + 1)

/-- The queue of the sender beside the specification it refines. -/
def driver (l : RelayLine) (spec : LaneQueue BandId UInt8) : Driver :=
  { queue := l.tx.q, view := none, accepted := l.accepted, emitted := spec.emitted }

/-- A frame of which bytes have left was announced. -/
def Announced (q : Outq) : Prop :=
  ∀ id, 0 < (q.band id).sent → (q.band id).preambleDone = true

/-- The account of the sender against the specification. -/
structure Sends (l : RelayLine) (spec : LaneQueue BandId UInt8) : Prop where
  tracks : (l.driver spec).Tracks spec
  frames : ∀ frame ∈ l.accepted, IsFrame frame
  announced : Announced l.tx.q
  aligned : relayPayload ∣ spec.sent
  carried : l.carried.map Prod.fst =
    (spec.done.map Prod.snd).flatMap packetsOf ++ packetPart spec
  burst : l.burst = l.tx.burst
  bounded : l.tx.burst ≤ relayBurstMax

theorem announced_reset (q : Outq) : Announced q.reset := by
  intro id hsent
  cases id <;> exact absurd hsent (by simp [Outq.reset, band, Band.init])

theorem announced_setBand {q : Outq} (h : Announced q) {id : BandId} {b : Band id}
    (hband : 0 < b.sent → b.preambleDone = true) : Announced (q.setBand id b) := by
  intro other hsent
  by_cases hsame : other = id
  · subst hsame
    rw [band_setBand_self] at hsent ⊢
    exact hband hsent
  · rw [band_setBand_of_ne q hsame] at hsent ⊢
    exact h other hsent

theorem announced_refuse {q : Outq} (h : Announced q) (cause : BandId) :
    Announced (q.refuse cause) := by
  intro id
  cases cause <;> cases id <;> exact h _

theorem announced_offer {q : Outq} (h : Announced q) (frame : List UInt8) :
    Announced (q.offer frame).2 := by
  have hhold : ∀ id, Announced (q.setBand id ((q.band id).hold frame)) :=
    fun id ↦ announced_setBand h fun hsent ↦ absurd hsent (Nat.lt_irrefl 0)
  unfold Outq.offer
  split
  · intro id
    cases id <;> exact h _
  · split
    · split
      · exact announced_refuse h _
      · split
        · split
          · exact announced_setBand h (h .priority)
          · exact announced_refuse h _
        · exact hhold .priority
    · split
      · exact hhold .bulk
      · split
        · exact announced_refuse h _
        · split
          · exact announced_setBand h (h .bulk)
          · exact announced_refuse h _

theorem sends_start (t : RelayTx) : Sends (start t) LaneQueue.empty where
  tracks := Driver.tracks_start t.q
  frames := nofun
  announced := announced_reset t.q
  aligned := Nat.dvd_zero _
  carried := rfl
  burst := rfl
  bounded := Nat.zero_le _

variable {l : RelayLine} {spec : LaneQueue BandId UInt8}

/-- Taking a frame commits no packet. -/
theorem packetPart_accept (h : spec.Sound) (lane : BandId) (frame : List UInt8) :
    packetPart (spec.accept lane frame) = packetPart spec := by
  unfold packetPart
  cases hbegun : spec.begun with
  | none => simp [LaneQueue.accept, hbegun]
  | some other =>
      have hhead : ((spec.accept lane frame).waiting other).headD [] =
          (spec.waiting other).headD [] := by
        by_cases hsame : other = lane
        · subst hsame
          rw [LaneQueue.accept_waiting_self]
          exact LaneQueue.Sound.headD_append (h.waiting_ne_nil hbegun) frame
        · rw [LaneQueue.accept_waiting_of_ne spec hsame]
      simp only [LaneQueue.accept, hbegun] at hhead ⊢
      rw [hhead]

theorem Sends.offer {cap : Nat} (h : Sends l spec) (frame : List UInt8) :
    Sends (l.step cap (.offer frame)) ((l.driver spec).shadow spec (.offer frame)) := by
  have htracks := h.tracks.offer frame
  have hdriver : (l.step cap (.offer frame)).driver ((l.driver spec).shadow spec (.offer frame)) =
      (l.driver spec).step (.offer frame) := by
    have hemitted := htracks.emitted
    simp only [driver] at hemitted ⊢
    rw [hemitted]
    rfl
  have hspec : ((l.driver spec).shadow spec (.offer frame)).sent = spec.sent ∧
      ((l.driver spec).shadow spec (.offer frame)).done = spec.done ∧
      packetPart ((l.driver spec).shadow spec (.offer frame)) = packetPart spec := by
    simp only [Driver.shadow]
    split
    · exact ⟨rfl, rfl, packetPart_accept h.tracks.sound _ _⟩
    · exact ⟨rfl, rfl, rfl⟩
  obtain ⟨hsent, hdone, hpart⟩ := hspec
  have hframes : ∀ taken ∈ (l.step cap (.offer frame)).accepted, IsFrame taken := by
    intro taken htaken
    have hcases : taken ∈ if (l.tx.q.offer frame).1 = .ok then l.accepted ++ [frame]
        else l.accepted := htaken
    have hrefines : Refines l.tx.q spec := h.tracks.refines
    rcases hrefines.offer frame with ⟨hok, hframe, -⟩ | ⟨hrefused, -⟩
    · rw [if_pos hok, List.mem_append, List.mem_singleton] at hcases
      rcases hcases with hold | rfl
      · exact h.frames taken hold
      · exact hframe
    · rw [if_neg hrefused] at hcases
      exact h.frames taken hcases
  exact
    { tracks := hdriver ▸ htracks
      frames := hframes
      announced := announced_offer h.announced frame
      aligned := hsent ▸ h.aligned
      carried := by
        rw [hdone, hpart]
        exact h.carried
      burst := h.burst
      bounded := h.bounded }

theorem Sends.giveWay {cap : Nat} (h : Sends l spec) : Sends (l.step cap .giveWay) spec where
  tracks := h.tracks
  frames := h.frames
  announced := h.announced
  aligned := h.aligned
  carried := h.carried
  burst := rfl
  bounded := Nat.zero_le _

/-- What the sender owes is the head of a band that may go on: its announcement if it has not begun,
and the next of its bytes if it has. -/
theorem Sends.owed (h : Sends l spec) {view : View} (hpeek : l.tx.q.peek = some view) :
    ∃ frame rest, spec.waiting view.band = frame :: rest ∧ view.total = frame.length ∧
      view.atBytes = frame.drop spec.sent ∧ view.remaining = frame.length - spec.sent ∧
      spec.sent < frame.length ∧ spec.FreeFor view.band ∧
      (view.preambleOwed = true → spec.begun = none) ∧
      (view.preambleOwed = false → spec.begun = some view.band) := by
  obtain ⟨hfree, hremaining, frame, rest, hwaiting, hbytes⟩ :=
    h.tracks.refines.peek h.tracks.sound hpeek
  have hinside := h.tracks.sound.sent_lt hfree hwaiting
  obtain ⟨id, howed, rfl⟩ := Option.map_eq_some_iff.1 hpeek
  have hheld : 0 < (l.tx.q.band id).len := (h.tracks.refines.owedBand.1 id howed).2
  have hflight := h.tracks.refines.begun id
  simp only [viewOf, driver] at hfree hremaining hwaiting hbytes hinside hflight ⊢
  have htotal : (l.tx.q.band id).len = frame.length := by
    have hcons := h.tracks.refines.waiting_cons id hheld
    rw [hwaiting, List.cons.injEq] at hcons
    rw [hcons.1]
    exact (h.tracks.refines.valid id).head_length.symm
  refine ⟨frame, rest, hwaiting, htotal, hbytes, ?_, hinside, hfree, ?_, ?_⟩
  · rw [hremaining, hbytes, List.length_drop]
  · intro hunannounced
    rcases hfree with hnone | hbegun
    · exact hnone
    · have hdone : (l.tx.q.band id).preambleDone = false := by simpa using hunannounced
      have hunsent : ¬ 0 < (l.tx.q.band id).sent := by
        intro hsent
        rw [h.announced id hsent] at hdone
        cases hdone
      have := hflight.1 hbegun
      simp [Band.inFlight, hdone, hunsent] at this
  · intro hannounced
    have hdone : (l.tx.q.band id).preambleDone = true := by simpa using hannounced
    exact hflight.2 (by simp [Band.inFlight, hheld, hdone])

/-- What the burst cap lets through is what the queue shows. -/
theorem owed_peek {t : RelayTx} {view : View} (h : t.owed = some view) :
    t.q.peek = some view ∧ (view.band = .bulk → t.burst < relayBurstMax) := by
  unfold RelayTx.owed at h
  split at h
  · cases h
  · rename_i shown hshown
    split at h
    · cases h
    · rename_i hfree
      cases h
      refine ⟨hshown, fun hbulk ↦ ?_⟩
      by_contra hfull
      exact hfree ⟨hbulk, by omega⟩

/-- The bytes of a packet that is not an announcement. -/
theorem dataPacket_eq {frame : List UInt8} {view : View} {index : Nat}
    (hbytes : view.atBytes = frame.drop (index * relayPayload))
    (hremaining : view.remaining = frame.length - index * relayPayload) :
    dataPacket frame index =
      { kind := .data
        data := view.atBytes.take (RelayTx.packetTake view) ++
          List.replicate (relayPayload - RelayTx.packetTake view) 0 } := by
  have htake : RelayTx.packetTake view = (block relayPayload frame index).length := by
    simp only [RelayTx.packetTake, block, List.length_take, List.length_drop, hremaining]
    split <;> omega
  have hblock : view.atBytes.take (RelayTx.packetTake view) = block relayPayload frame index := by
    rw [RelayTx.packetTake, block, ← hbytes]
    split
    · rename_i hlast
      have hlength : view.atBytes.length = view.remaining := by simp [hbytes, hremaining]
      rw [List.take_of_length_le (by omega), List.take_of_length_le (by omega)]
    · rfl
  rw [dataPacket, hblock, htake]

/-- One packet more of a frame that has been announced. -/
theorem packetsOf_take_succ {frame : List UInt8} {index : Nat} (h : index < dataCount frame) :
    (packetsOf frame).take (index + 1 + 1) =
      (packetsOf frame).take (index + 1) ++ [dataPacket frame index] := by
  rw [List.take_add_one]
  simp [packetsOf, h]

/-- A packet committed: the sender is where the queue and the specification are after it. -/
theorem Sends.commit {cap : Nat} (h : Sends l spec) {next : LaneQueue BandId UInt8} {view : View}
    {packet : RelayPacket} (arrives : Bool) (howed : l.tx.owed = some view)
    (hpacket : l.tx.peek = some packet)
    (htracks : (driver { l with tx := l.tx.commit } next).Tracks next)
    (hannounced : Announced l.tx.commit.q) (haligned : relayPayload ∣ next.sent)
    (hcarried : (next.done.map Prod.snd).flatMap packetsOf ++ packetPart next =
      (spec.done.map Prod.snd).flatMap packetsOf ++ packetPart spec ++ [packet]) :
    Sends (l.step cap (.carry arrives)) next := by
  have hstep : l.step cap (.carry arrives) =
      { l with
        tx := l.tx.commit
        carried := l.carried ++ [(packet, arrives)]
        ear := l.ear.listen cap (packet, arrives)
        burst := if view.band = .bulk then l.burst + 1 else l.burst } := by
    simp [step, hpacket, howed]
  have hburst : l.tx.commit.burst = if view.band = .bulk then l.tx.burst + 1 else l.tx.burst := by
    simp [RelayTx.commit, howed]
  rw [hstep]
  refine ⟨htracks, h.frames, hannounced, haligned, ?_, ?_, ?_⟩
  · rw [hcarried, List.map_append, h.carried]
    rfl
  · show (if view.band = .bulk then l.burst + 1 else l.burst) = l.tx.commit.burst
    rw [hburst, h.burst]
  · show l.tx.commit.burst ≤ relayBurstMax
    rw [hburst]
    have hbounded := h.bounded
    have hfree := (owed_peek howed).2
    split
    · rename_i hbulk
      exact hfree hbulk
    · exact hbounded

/-- The announcement of the owed frame. -/
theorem Sends.announce {cap : Nat} (h : Sends l spec) {view : View} (howed : l.tx.owed = some view)
    (hpreamble : view.preambleOwed = true) (arrives : Bool) :
    Sends (l.step cap (.carry arrives)) (spec.start view.band) := by
  have hpeek := (owed_peek howed).1
  obtain ⟨frame, rest, hwaiting, htotal, -, -, -, -, hidle, -⟩ := h.owed hpeek
  have hnone := hidle hpreamble
  have hzero := h.tracks.sound.idle hnone
  have hstart : spec.start view.band = { spec with begun := some view.band } := by
    simp [LaneQueue.start, hwaiting]
  have hpacket : l.tx.peek = some (startPacket frame) := by
    rw [RelayTx.peek, howed, Option.map_some, if_pos hpreamble, htotal]
    rfl
  have hqueue : l.tx.commit.q = l.tx.q.notePreamble view := by
    simp [RelayTx.commit, howed, hpreamble]
  have htracks := (h.tracks.peek.notePreamble).forget
  have hview : ((l.driver spec).step .peek).view = some view := hpeek
  simp only [Driver.step, Driver.shadow, driver, hpeek] at htracks
  refine h.commit arrives howed hpacket ?_ ?_ ?_ ?_
  · rw [driver, hqueue, LaneQueue.start_emitted]
    exact htracks
  · rw [hqueue]
    apply announced_setBand h.announced
    intro hsent
    unfold Band.notePreamble at hsent ⊢
    split
    · rename_i hempty
      rw [if_pos hempty] at hsent
      exact h.announced _ hsent
    · rfl
  · rw [hstart]
    exact h.aligned
  · rw [hstart]
    simp [packetPart, hnone, hwaiting, hzero, packetsOf]

/-- A band whose frame was announced stays so while bytes of it leave. -/
theorem advance_announced {id : BandId} {b : Band id} (hdone : b.preambleDone = true) (n : Nat)
    (hsent : 0 < (b.advance n).sent) : (b.advance n).preambleDone = true := by
  have hpromote : ∀ b : Band id, b.promote.sent = 0 := by
    intro b
    unfold Band.promote
    split <;> rfl
  revert hsent
  unfold Band.advance
  split
  · exact fun _ ↦ hdone
  · extract_lets remaining moved
    split
    · exact fun _ ↦ hdone
    · intro hsent
      rw [hpromote] at hsent
      exact absurd hsent (Nat.lt_irrefl 0)

/-- The next bytes of the owed frame. -/
theorem Sends.forward {cap : Nat} (h : Sends l spec) {view : View} (howed : l.tx.owed = some view)
    (hpreamble : view.preambleOwed = false) (arrives : Bool) :
    Sends (l.step cap (.carry arrives)) (spec.emit view.band (RelayTx.packetTake view)) := by
  have hpeek := (owed_peek howed).1
  obtain ⟨frame, rest, hwaiting, -, hbytes, hremaining, hinside, hfree, -, hgoing⟩ := h.owed hpeek
  have hbegun := hgoing hpreamble
  obtain ⟨index, hindex⟩ := h.aligned
  rw [Nat.mul_comm] at hindex
  rw [hindex] at hbytes hremaining hinside
  -- the view stands at a multiple of the payload, so the packet owed is the one of that index
  have hcount : index < dataCount frame := (lt_dataCount_iff frame index).2 hinside
  have hpacket : l.tx.peek = some (dataPacket frame index) := by
    rw [RelayTx.peek, howed, Option.map_some, if_neg (by simp [hpreamble]),
      dataPacket_eq hbytes hremaining]
  have hqueue : l.tx.commit.q = l.tx.q.advance view (RelayTx.packetTake view) := by
    simp [RelayTx.commit, howed, hpreamble]
  have hpart : packetPart spec = (packetsOf frame).take (index + 1) := by
    simp [packetPart, hbegun, hwaiting, hindex, relayPayload]
  have htake : RelayTx.packetTake view ≤ view.remaining := by
    rw [RelayTx.packetTake]
    split <;> omega
  have hsize : RelayTx.packetTake view ≤ relayPayload := by
    rw [RelayTx.packetTake]
    split <;> omega
  have hpos : RelayTx.packetTake view ≠ 0 := by
    rw [RelayTx.packetTake]
    split
    · omega
    · decide
  -- only the last packet of a frame is short
  have hwhole : spec.sent + RelayTx.packetTake view < frame.length →
      RelayTx.packetTake view = relayPayload := by
    intro hmore
    rw [RelayTx.packetTake] at hmore ⊢
    split
    · rename_i hlast
      rw [if_pos hlast] at hmore
      omega
    · rfl
  have hstepped := h.tracks.peek.advance (RelayTx.packetTake view)
  have hemitted := hstepped.emitted
  have htracks := hstepped.forget
  simp only [Driver.step, Driver.shadow, driver, hpeek, if_neg (Nat.not_lt.2 htake)]
    at htracks hemitted
  have hannounced : Announced (l.tx.q.advance view (RelayTx.packetTake view)) := by
    obtain ⟨id, -, rfl⟩ := Option.map_eq_some_iff.1 hpeek
    have hdone : (l.tx.q.band id).preambleDone = true := by simpa [viewOf] using hpreamble
    exact announced_setBand h.announced (advance_announced hdone _)
  refine h.commit arrives howed hpacket ?_ (hqueue ▸ hannounced) ?_ ?_
  · rw [driver, hqueue, hemitted]
    exact htracks
  · -- the bytes sent stay a multiple of the payload, or the frame is done
    by_cases hmore : spec.sent + RelayTx.packetTake view < frame.length
    · rw [LaneQueue.emit_inside hwaiting hmore]
      show relayPayload ∣ spec.sent + RelayTx.packetTake view
      rw [hwhole hmore, hindex]
      exact ⟨index + 1, by ring⟩
    · rw [LaneQueue.emit_complete hwaiting (Nat.le_of_not_lt hmore)]
      exact Nat.dvd_zero _
  · rw [hpart, List.append_assoc, ← packetsOf_take_succ hcount]
    by_cases hmore : spec.sent + RelayTx.packetTake view < frame.length
    · rw [LaneQueue.emit_inside hwaiting hmore]
      have hnext : (spec.sent + RelayTx.packetTake view) / relayPayload = index + 1 := by
        rw [hwhole hmore, hindex]
        exact Nat.div_eq_of_eq_mul_left (by decide) (by ring)
      simp [packetPart, hpos, hwaiting, hnext]
    · rw [LaneQueue.emit_complete hwaiting (Nat.le_of_not_lt hmore)]
      have hlast : (packetsOf frame).length ≤ index + 1 + 1 := by
        have hnot : ¬ index + 1 < dataCount frame := by
          rw [lt_dataCount_iff, Nat.succ_mul]
          omega
        rw [packetsOf_length]
        omega
      rw [List.take_of_length_le hlast]
      simp [packetPart]

/-- Every event of the relay keeps the account of the sender. -/
theorem Sends.step {cap : Nat} (h : Sends l spec) (event : LineEvent) :
    ∃ next, Sends (l.step cap event) next := by
  cases event with
  | offer frame => exact ⟨_, h.offer frame⟩
  | giveWay => exact ⟨_, h.giveWay⟩
  | carry arrives =>
      cases howed : l.tx.owed with
      | none =>
          have hstay : l.step cap (.carry arrives) = l := by
            simp [RelayLine.step, RelayTx.peek, howed]
          rw [hstay]
          exact ⟨spec, h⟩
      | some view =>
          cases hpreamble : view.preambleOwed with
          | true => exact ⟨_, h.announce howed hpreamble arrives⟩
          | false => exact ⟨_, h.forward howed hpreamble arrives⟩

theorem run_sends (cap : Nat) (t : RelayTx) (events : List LineEvent) :
    ∃ spec, Sends (run (step cap) (start t) events) spec :=
  run_invariant (fun l ↦ ∃ spec, Sends l spec) ⟨_, sends_start t⟩
    (fun _ event ⟨_, h⟩ ↦ h.step event) events

/-- The frames that crossed and those that wait, as the specification has them. -/
theorem Sends.drains (h : Sends l spec) :
    Drains l (spec.done.map Prod.snd)
      ((spec.backlog (Driver.lanesFrom (l.tx.q.owedBand.getD .priority))).map Prod.snd) where
  account id := h.tracks.filter_bandOf (l.tx.q.owedBand.getD .priority) id
  packets := by
    have hfree : spec.FreeFor (l.tx.q.owedBand.getD .priority) := h.tracks.free_owed
    refine ⟨packetPart spec, h.carried, ?_⟩
    rcases hfree with hnone | hbegun
    · have hnil : packetPart spec = [] := by simp [packetPart, hnone]
      rw [hnil]
      exact ⟨List.nil_prefix, by rw [packetsOf_length]; exact Nat.succ_pos _⟩
    · obtain ⟨frame, items, hwaiting⟩ :=
        List.exists_cons_of_ne_nil (h.tracks.sound.waiting_ne_nil hbegun)
      obtain ⟨more, hmore⟩ := Driver.backlog_lanesFrom hwaiting
      have hinside := h.tracks.sound.sent_lt (.inr hbegun) hwaiting
      obtain ⟨index, hindex⟩ := h.aligned
      have hpart : packetPart spec = (packetsOf frame).take (index + 1) := by
        simp [packetPart, hbegun, hwaiting, hindex, relayPayload]
      rw [hmore, hpart, List.headD_cons]
      refine ⟨List.take_prefix _ _, ?_⟩
      have hcount : index < dataCount frame := by
        rw [lt_dataCount_iff, Nat.mul_comm, ← hindex]
        exact hinside
      rw [List.length_take, packetsOf_length]
      omega
  idle hidle := by
    have hempty : l.tx.q.priority.len = 0 ∧ l.tx.q.bulk.len = 0 := by
      simpa [Outq.busy] using hidle
    have hpeek : l.tx.q.peek = none := by
      simp [Outq.peek, Outq.owedBand, Band.inFlight, hempty]
    rw [h.tracks.backlog_nil hpeek, List.map_nil]

/-- What crossed and what waits was accepted, and so is a frame. -/
theorem Drains.mem_accepted {drained waiting : List (List UInt8)} (h : Drains l drained waiting)
    {frame : List UInt8} (hmem : frame ∈ drained ++ waiting) : frame ∈ l.accepted := by
  have hband : frame ∈ (drained ++ waiting).filter (fun other ↦ bandOf other = bandOf frame) :=
    List.mem_filter.2 ⟨hmem, by simp⟩
  rw [h.account] at hband
  exact (List.mem_filter.1 hband).1

/-! ## The receiver -/

/-- The receiver has heard what was carried. -/
theorem run_heard (cap : Nat) (t : RelayTx) (events : List LineEvent) :
    let l := run (step cap) (start t) events
    l.ear = run (Ear.listen cap) Ear.start l.carried := by
  refine run_invariant (fun l : RelayLine ↦ l.ear = run (Ear.listen cap) Ear.start l.carried) rfl
    ?_ events
  intro l event h
  cases event with
  | offer frame => exact h
  | giveWay => exact h
  | carry arrives =>
      simp only [step]
      split
      · exact h
      · rw [run_snoc, ← h]

/-- Where nothing is spliced, what the receiver shows is what arrived whole. -/
theorem Drains.shown {cap : Nat} {drained waiting : List (List UInt8)}
    (h : Drains l drained waiting) (hframes : ∀ frame ∈ l.accepted, IsFrame frame)
    (hheard : l.ear = run (Ear.listen cap) Ear.start l.carried)
    (hunspliced : Along (Ear.listen cap) Ear.Unspliced Ear.start l.carried) :
    l.ear.shown = Ear.arrivals cap 0 drained l.carried := by
  obtain ⟨part, hcarried, hpart, hless⟩ := h.packets
  have hdrained : ∀ frame ∈ drained, IsFrame frame :=
    fun frame hmem ↦ hframes frame (h.mem_accepted (List.mem_append_left _ hmem))
  have hlast : part ≠ [] → IsFrame (waiting.headD []) := by
    intro hsome
    cases waiting with
    | nil =>
        have hnil : part.length < 1 := hless
        exact absurd (List.length_eq_zero_iff.1 (by omega)) hsome
    | cons frame rest =>
        exact hframes frame (h.mem_accepted (List.mem_append_right _ (List.mem_cons_self ..)))
  rw [hheard, Ear.listen_frames hdrained hlast hpart hless hcarried hunspliced]
  rfl

/-- The packets of a frame that crossed stand together. -/
theorem Drains.own {before after waiting : List (List UInt8)} {frame : List UInt8}
    (h : Drains l (before ++ frame :: after) waiting) :
    ((l.carried.drop (before.flatMap packetsOf).length).take (packetsOf frame).length).map
      Prod.fst = packetsOf frame := by
  obtain ⟨part, hcarried, -, -⟩ := h.packets
  rw [List.map_take, List.map_drop, hcarried, List.flatMap_append, List.append_assoc,
    List.drop_left, List.flatMap_cons, List.append_assoc, List.take_left]

/-- What a relay delivers of the frames that crossed. -/
structure Delivers (cap : Nat) (l : RelayLine) (drained : List (List UInt8)) : Prop where
  /-- Without a loss, what is delivered is what crossed and fits, in its order. -/
  lossless : (∀ packet ∈ l.carried, packet.2 = true) →
    l.ear.shown.map Prod.snd = drained.filter fun frame ↦ frame.length ≤ cap
  /-- With losses, the packets of a frame that all arrive deliver it, and nothing else. -/
  arrived : ∀ before frame after, drained = before ++ frame :: after → frame.length ≤ cap →
    l.Arrived (before.flatMap packetsOf).length (packetsOf frame).length →
    l.ear.shownIn (before.flatMap packetsOf).length (packetsOf frame).length = [frame]

/-- Whatever is offered, whenever the pump yields, and whatever is lost: the frames that crossed are
the accepted ones, those of them whose packets all arrive are delivered once, and no more than the
burst of bulk packets is committed between two yields. -/
theorem relay_round_trip (cap : Nat) (t : RelayTx) (events : List LineEvent) :
    let l := run (step cap) (start t) events
    ∃ drained waiting, Drains l drained waiting ∧ Delivers cap l drained ∧
      l.burst ≤ relayBurstMax := by
  intro l
  obtain ⟨spec, h⟩ := run_sends cap t events
  have hdrains := h.drains
  have hheard : l.ear = run (Ear.listen cap) Ear.start l.carried := run_heard cap t events
  refine ⟨_, _, hdrains, ⟨?_, ?_⟩, h.burst ▸ h.bounded⟩
  · intro harrived
    rw [hdrains.shown h.frames hheard (Ear.unspliced_of_arrived harrived (.inl rfl))]
    exact Ear.arrivals_of_arrived harrived
  · intro before frame after hsplit hcap harrived
    rw [hsplit] at hdrains
    have hframe : IsFrame frame := h.frames frame (hdrains.mem_accepted (by simp))
    have hown := hdrains.own
    let offset := (before.flatMap packetsOf).length
    let count := (packetsOf frame).length
    have hlength : ((l.carried.drop offset).take count).length = count := by
      rw [← List.length_map Prod.fst, hown]
    have hbefore : (l.carried.take offset).length = offset := by
      rw [List.length_take]
      rw [List.length_take, List.length_drop] at hlength
      have hpos : 0 < count := by
        simp [count, packetsOf_length]
      omega
    have hparts : l.carried = l.carried.take offset ++ (l.carried.drop offset).take count ++
        (l.carried.drop offset).drop count := by
      rw [List.append_assoc, List.take_append_drop, List.take_append_drop]
    have hdelivered := Ear.listen_arrived hframe hcap (l.carried.take offset)
      ((l.carried.drop offset).take count) ((l.carried.drop offset).drop count) hown harrived
    rw [← hparts, ← hheard, hbefore, hlength] at hdelivered
    exact hdelivered

/-! ## What else is delivered -/

/-- No packet of a frame whose announcement was lost arrives while the receiver is in the middle of
another. -/
def Unspliced (l : RelayLine) : LineEvent → Prop
  | .carry arrives =>
      match l.tx.peek with
      | none => True
      | some packet => l.ear.Unspliced (packet, arrives)
  | _ => True

instance (l : RelayLine) (event : LineEvent) : Decidable (l.Unspliced event) :=
  match event with
  | .carry arrives =>
      match h : l.tx.peek with
      | none => .isTrue (by simp [Unspliced, h])
      | some packet => decidable_of_iff (l.ear.Unspliced (packet, arrives)) (by simp [Unspliced, h])
  | .offer _ => .isTrue trivial
  | .giveWay => .isTrue trivial

/-- The receiver hears nothing spliced in a run without such a packet. -/
theorem run_unspliced {cap : Nat} {t : RelayTx} {events : List LineEvent}
    (h : Along (step cap) Unspliced (start t) events) :
    Along (Ear.listen cap) Ear.Unspliced Ear.start
      (run (step cap) (start t) events).carried := by
  let holds (l : RelayLine) : Prop := l.ear = run (Ear.listen cap) Ear.start l.carried ∧
    Along (Ear.listen cap) Ear.Unspliced Ear.start l.carried
  have hstart : holds (start t) := ⟨rfl, trivial⟩
  have hrun : holds (run (step cap) (start t) events) := by
    refine run_invariant_along holds hstart ?_ h
    rintro l event ⟨hheard, hbefore⟩ hnow
    cases event with
    | offer frame => exact ⟨hheard, hbefore⟩
    | giveWay => exact ⟨hheard, hbefore⟩
    | carry arrives =>
        simp only [step]
        split
        · exact ⟨hheard, hbefore⟩
        · rename_i packet hpacket
          simp only [Unspliced, hpacket] at hnow
          refine ⟨by rw [run_snoc, ← hheard], ?_⟩
          rw [Along.append, ← hheard]
          exact ⟨hbefore, hnow, trivial⟩
  exact hrun.2

/-- A frame delivered is one that was accepted and crossed, all of its packets arrived, and the last
of them completed it. -/
theorem relay_sound (cap : Nat) (t : RelayTx) (events : List LineEvent)
    (hunspliced : Along (step cap) Unspliced (start t) events) :
    let l := run (step cap) (start t) events
    ∃ drained waiting, Drains l drained waiting ∧
      ∀ d ∈ l.ear.shown, d.2 ∈ l.accepted ∧ ∃ before after, drained = before ++ d.2 :: after ∧
        l.Arrived (before.flatMap packetsOf).length (packetsOf d.2).length ∧
        d.1 + 1 = (before.flatMap packetsOf).length + (packetsOf d.2).length := by
  intro l
  obtain ⟨spec, h⟩ := run_sends cap t events
  have hdrains := h.drains
  refine ⟨_, _, hdrains, fun d hd ↦ ?_⟩
  rw [hdrains.shown h.frames (run_heard cap t events) (run_unspliced hunspliced)] at hd
  obtain ⟨before, after, hsplit, -, harrived, hnumber⟩ := Ear.mem_arrivals hd
  refine ⟨hdrains.mem_accepted (by rw [hsplit]; simp), before, after, hsplit, harrived, ?_⟩
  rw [hnumber, Nat.zero_add]

/-- A chunk of twenty bytes and one of twelve. -/
def longFrame : List UInt8 := headerBytes Msg.clipChunk 0 16 ++ List.replicate 16 0xAA
def shortFrame : List UInt8 := headerBytes Msg.clipChunk 0 8 ++ List.replicate 8 0xBB

/-- The long frame loses a packet, and the short one arrives. -/
def brokenEvents : List LineEvent :=
  [.offer longFrame, .offer shortFrame, .carry true, .carry false, .carry true, .carry true,
   .carry true, .carry true, .carry true]

/-- What is still shown on a line that loses packets was accepted and arrived whole. -/
theorem relay_sound_broken :
    let l := run (step maxFrame) (start RelayTx.init) brokenEvents
    ∃ drained waiting, Drains l drained waiting ∧
      ∀ d ∈ l.ear.shown, d.2 ∈ l.accepted ∧ ∃ before after, drained = before ++ d.2 :: after ∧
        l.Arrived (before.flatMap packetsOf).length (packetsOf d.2).length ∧
        d.1 + 1 = (before.flatMap packetsOf).length + (packetsOf d.2).length :=
  relay_sound maxFrame RelayTx.init brokenEvents (by decide)

/-- The last packet of the long frame is lost, and the announcement of the short one. -/
def splicedEvents : List LineEvent :=
  [.offer longFrame, .offer shortFrame, .carry true, .carry true, .carry true, .carry false,
   .carry false, .carry true]

/-- The receiver delivers the long frame with the header of the short one for a tail. -/
theorem header_tail_delivered :
    let l := run (step maxFrame) (start RelayTx.init) splicedEvents
    l.ear.shown = [(5, longFrame.take 16 ++ shortFrame.take 4)] ∧
      longFrame.take 16 ++ shortFrame.take 4 ∉ l.accepted := by
  decide

end RelayLine

end DeskhopPlus.Board
