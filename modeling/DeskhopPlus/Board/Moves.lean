import DeskhopPlus.Board.Lifecycle
import DeskhopPlus.Outq.Growth

/-!
# What an event can do to the channel

An event hands a frame on, stages a nonce, or does neither. `Moves` describes the third kind: the
core of the session stays or is dropped, the relay queue takes nothing, and the queues toward the
helper take nothing while there is no session. `step_cases` sorts every event into the three kinds;
what a frame handed on does is left to `onFrame`.
-/

namespace DeskhopPlus.Board

open Wire Outq Auth Crypto Session

namespace Lifecycle

variable {c c' c'' : Lifecycle}

/-- From one queue to the other frames were added only in the presence of a session. -/
def FedBy (c : Lifecycle) (q q' : Outq) : Prop :=
  ∃ added, Grows added q q' ∧ (c.session.present = false → added = [])

/-- What an event that hands no frame on can do. -/
structure Moves (c c' : Lifecycle) : Prop where
  core : c'.session.core = c.session.core ∨ c'.session.core = c.session.core.drop
  out : c.FedBy c.out c'.out
  extraOut : c.FedBy c.extraOut c'.extraOut
  relay : Grows [] c.relayTx.q c'.relayTx.q

theorem FedBy.refl (q : Outq) : c.FedBy q q := ⟨[], .refl q, fun _ ↦ rfl⟩

theorem FedBy.reset (q : Outq) : c.FedBy q q.reset := ⟨[], grows_reset q, fun _ ↦ rfl⟩

/-- With a session anything may be added. -/
theorem FedBy.of_present (h : c.session.present = true) {added : List (List UInt8)} {q q' : Outq}
    (hgrows : Grows added q q') : c.FedBy q q' :=
  ⟨added, hgrows, fun habsent ↦ by rw [h] at habsent; cases habsent⟩

theorem FedBy.trans {q q' q'' : Outq} (h : c.FedBy q q') (h' : c'.FedBy q' q'')
    (hpresent : c.session.present = false → c'.session.present = false) : c.FedBy q q'' := by
  obtain ⟨added, hgrows, hnone⟩ := h
  obtain ⟨more, hgrows', hnone'⟩ := h'
  refine ⟨added ++ more, hgrows.trans hgrows', fun habsent ↦ ?_⟩
  simp [hnone habsent, hnone' (hpresent habsent)]

/-- A step that touches neither the core nor a queue. -/
theorem Moves.of_same (hcore : c'.session.core = c.session.core) (hout : c'.out = c.out)
    (hextra : c'.extraOut = c.extraOut) (hrelay : c'.relayTx.q = c.relayTx.q) : Moves c c' where
  core := .inl hcore
  out := hout ▸ FedBy.refl _
  extraOut := hextra ▸ FedBy.refl _
  relay := hrelay ▸ Grows.refl _

theorem Moves.refl (c : Lifecycle) : Moves c c := .of_same rfl rfl rfl rfl

theorem Moves.absent (h : Moves c c') (habsent : c.session.present = false) :
    c'.session.present = false := by
  rcases h.core with hcore | hcore
  · exact (congrArg Core.present hcore).trans habsent
  · exact congrArg Core.present hcore

theorem Moves.trans (h : Moves c c') (h' : Moves c' c'') : Moves c c'' where
  core := by
    rcases h.core with hcore | hcore <;> rcases h'.core with hcore' | hcore' <;>
      rw [hcore', hcore] <;> simp
  out := h.out.trans h'.out h.absent
  extraOut := h.extraOut.trans h'.extraOut h.absent
  relay := h.relay.trans h'.relay

/-! ## The queue toward the helper -/

section Queue

variable (c : Lifecycle) (frame : List UInt8) (now : UInt32)

/-- Everything a queued frame changes outside the two queues. -/
theorem queue_rest :
    (c.queue frame now).2.session.core = c.session.core ∧
      (c.queue frame now).2.relayTx = c.relayTx ∧ (c.queue frame now).2.pair = c.pair := by
  refine ⟨?_, rfl, rfl⟩
  simp only [queue, track]
  split <;> rfl

/-- A queued frame is the only one added, to one of the two queues. -/
theorem grows_queue :
    Grows [frame] c.out (c.queue frame now).2.out ∧
      Grows [frame] c.extraOut (c.queue frame now).2.extraOut := by
  have hoffer : ∀ q : Outq, Grows [frame] q (q.offer frame).2 := by
    intro q
    apply (grows_offer q frame).mono
    intro added hadded
    split at hadded
    · exact hadded
    · cases hadded
  have hnone : ∀ q : Outq, Grows [frame] q q := fun q ↦ (Grows.refl q).mono (by simp)
  simp only [queue, track, setOutput, output]
  split
  · exact ⟨hoffer _, hnone _⟩
  · exact ⟨hnone _, hoffer _⟩

variable {c}

/-- With a session a frame may be queued. -/
theorem moves_queue (h : c.session.present = true) : Moves c (c.queue frame now).2 where
  core := .inl (c.queue_rest frame now).1
  out := .of_present h (c.grows_queue frame now).1
  extraOut := .of_present h (c.grows_queue frame now).2
  relay := by
    rw [(c.queue_rest frame now).2.1]

end Queue

/-! ## What is owed to the helper -/

/-- A frame tagged for the helper. -/
theorem moves_emit {view : FrameView} {cap : Nat} {tagged : List UInt8} {session : Session}
    (h : c.session.emitRelayed view cap = (.ok tagged, session)) :
    c.session.present = true ∧ session.core = c.session.core := by
  constructor
  · by_contra habsent
    rw [emitRelayed_absent (by simpa using habsent)] at h
    cases h
  · have hcore := core_emitRelayed c.session view cap
    rw [h] at hcore
    exact hcore

/-- A session that differs from the channel's in no field of its core. -/
theorem moves_session {session : Session} (h : session.core = c.session.core) :
    Moves c { c with session := session } := .of_same h rfl rfl rfl

theorem moves_emitPlacement (c : Lifecycle) (type : UInt8) (body : List UInt8) (now : UInt32) :
    Moves c (c.emitPlacement type body now).2 := by
  unfold emitPlacement
  split
  · exact .refl c
  · split
    · rename_i hemit
      have hcore := core_emitRelayed c.session { type := type, flags := 0, payload := body }
        (headerSize + authPrefixSize + placeBodySize)
      rw [hemit] at hcore
      exact moves_session hcore
    · rename_i frame session hemit
      obtain ⟨hpresent, hcore⟩ := moves_emit hemit
      exact (moves_session hcore).trans
        (moves_queue frame now ((congrArg Core.present hcore).trans hpresent))

theorem moves_sendPlace (c : Lifecycle) (owed now : UInt32) : Moves c (c.sendPlace owed now) := by
  unfold sendPlace
  split
  · rename_i hemit
    have hcore := core_emitRelayed c.session
      { type := Msg.place, flags := 0, payload := c.placeBody }
      (headerSize + authPrefixSize + placeBodySize)
    rw [hemit] at hcore
    exact moves_session hcore
  · rename_i placeFrame session hemit
    obtain ⟨hpresent, hcore⟩ := moves_emit hemit
    have hcore' := core_emitRelayed session
      { type := Msg.posQuery, flags := 0, payload := [c.placeQueryId] }
      (headerSize + authPrefixSize + posQueryBodySize)
    split
    · rename_i hemit'
      rw [hemit'] at hcore'
      exact moves_session (hcore'.trans hcore)
    · rename_i queryFrame session' hemit'
      rw [hemit'] at hcore'
      -- both frames are built, and the pair goes to the queue of the first channel
      refine ⟨.inl ?_, .of_present hpresent (grows_offerPair _ _ _), .refl _, .refl _⟩
      simp only [track]
      split
      · exact hcore'.trans hcore
      · exact hcore'.trans hcore

theorem moves_pumpPlace (c : Lifecycle) (now : UInt32) : Moves c (c.pumpPlace now) := by
  have hsame : ∀ (c : Lifecycle) (sent : UInt32), Moves c { c with placeSent := sent } :=
    fun c sent ↦ .of_same rfl rfl rfl rfl
  unfold pumpPlace
  simp only
  split
  · exact (hsame c _).trans (by
      split
      · exact .refl _
      · split
        · exact .of_same rfl rfl rfl rfl
        · exact moves_sendPlace _ _ _)
  · split
    · exact .refl _
    · split
      · exact hsame c _
      · exact moves_sendPlace _ _ _

theorem moves_pumpArrival (c : Lifecycle) (now : UInt32) : Moves c (c.pumpArrival now) := by
  unfold pumpArrival
  split
  · exact .refl c
  · split
    · exact .of_same rfl rfl rfl rfl
    · exact (moves_emitPlacement c Msg.arrival [] now).trans (.of_same rfl rfl rfl rfl)

theorem moves_tellPeerBoard (c : Lifecycle) (live : UInt8) (now : UInt32) :
    Moves c (c.tellPeerBoard live now) := by
  unfold tellPeerBoard
  split
  · exact .refl c
  · exact (moves_emitPlacement c Msg.peerHelper [live] now).trans (.of_same rfl rfl rfl rfl)

theorem moves_pumpPeerBoardSession (c : Lifecycle) (now : UInt32) :
    Moves c (c.pumpPeerBoardSession now) := by
  have hjudged : Moves c (c.judgePeerBoard now) := by
    unfold judgePeerBoard
    simp only
    split <;> exact .of_same rfl rfl rfl rfl
  exact hjudged.trans (moves_tellPeerBoard _ _ _)

theorem moves_pumpQuery (c : Lifecycle) (now : UInt32) (taken : Bool) :
    Moves c (c.pumpQuery now taken) := by
  have hasked : Moves c (c.askCursor now taken).2 := by
    unfold askCursor
    split
    · exact .refl c
    · exact moves_emitPlacement c Msg.posQuery [c.cursorQueryId] now
  unfold pumpQuery
  split
  · exact .refl c
  · exact hasked.trans (.of_same rfl rfl rfl rfl)

theorem moves_tagInbound (c : Lifecycle) (bytes : List UInt8) (now : UInt32) :
    Moves c (c.tagInbound bytes now).2 := by
  unfold tagInbound
  split
  · exact .refl c
  · rename_i view _ _
    split
    · rename_i hemit
      have hcore := core_emitRelayed c.session view maxFrame
      rw [hemit] at hcore
      exact moves_session hcore
    · rename_i tagged session hemit
      obtain ⟨hpresent, hcore⟩ := moves_emit hemit
      exact (moves_session hcore).trans
        (moves_queue tagged now ((congrArg Core.present hcore).trans hpresent))

theorem moves_pumpInbound (c : Lifecycle) (now : UInt32) : Moves c (c.pumpInbound now).2 := by
  unfold pumpInbound
  split
  · exact .refl c
  · have hreleased : Moves c { c with inbound := c.inbound.release } := .of_same rfl rfl rfl rfl
    exact hreleased.trans (moves_tagInbound _ _ _)

/-! ## The ends of a session -/

/-- Ending the session of a channel, and the frame that says so. -/
theorem moves_endSession (c : Lifecycle) (reason : EndReason) (now : UInt32) :
    Moves c (c.endSession reason now) := by
  by_cases habsent : c.session.present = false
  · unfold endSession
    rw [finish_absent habsent]
    exact .refl c
  · have hpresent : c.session.present = true := by simpa using habsent
    have hcore := core_finish c.session reason 0 replyMax
    unfold endSession
    generalize c.session.finish reason 0 replyMax = ended at hcore
    obtain ⟨rc, session⟩ := ended
    have hended : Moves c { c with session := session } :=
      ⟨hcore, .refl _, .refl _, .refl _⟩
    simp only
    split
    · exact hended
    · exact hended
    · rename_i type rest
      -- the announcement is queued after the drop, but it was the live session that built it
      have hrest := queue_rest { c with session := session } (type :: rest) now
      have hgrows := grows_queue { c with session := session } (type :: rest) now
      refine ⟨?_, .of_present hpresent hgrows.1, .of_present hpresent hgrows.2, ?_⟩
      · rw [hrest.1]
        exact hcore
      · rw [hrest.2.1]

theorem moves_linkLost (c : Lifecycle) : Moves c c.linkLost where
  core := .inr rfl
  out := .reset _
  extraOut := .reset _
  relay := grows_reset _

theorem moves_configWiped (c : Lifecycle) (now : UInt32) : Moves c (c.configWiped now) :=
  (moves_endSession c .unpaired now).trans (.of_same rfl rfl rfl rfl)

theorem moves_sessionTick (c : Lifecycle) (now : UInt32) : Moves c (c.sessionTick now) := by
  have hcore := core_tick c.session now replyMax
  have habsent := @tick_absent c.session
  unfold sessionTick
  generalize htick : c.session.tick now replyMax = ticked at hcore
  obtain ⟨rc, session⟩ := ticked
  have hticked : Moves c { c with session := session } := ⟨hcore, .refl _, .refl _, .refl _⟩
  simp only
  split
  · exact hticked
  · exact hticked
  · rename_i type rest
    have hpresent : c.session.present = true := by
      by_contra hnone
      have hquiet := habsent (by simpa using hnone) now replyMax
      rw [htick] at hquiet
      cases hquiet
    have hrest := queue_rest { c with session := session } (type :: rest) now
    have hgrows := grows_queue { c with session := session } (type :: rest) now
    have hqueued : Moves c ({ c with session := session }.queue (type :: rest) now).2 := by
      refine ⟨?_, .of_present hpresent hgrows.1, .of_present hpresent hgrows.2, ?_⟩
      · rw [hrest.1]
        exact hcore
      · rw [hrest.2.1]
    refine hqueued.trans (.of_same ?_ rfl rfl rfl)
    simp only
    split
    · exact core_noteOwedSent _ _
    · rfl

/-! ## The relay and the host -/

theorem grows_commit (t : RelayTx) : Grows [] t.q t.commit.q := by
  unfold RelayTx.commit
  split
  · exact .refl _
  · rename_i view howed
    have hpeek : t.q.peek = some view := by
      unfold RelayTx.owed at howed
      split at howed
      · cases howed
      · rename_i shown hshown
        split at howed
        · cases howed
        · rw [hshown, ← howed]
    simp only
    split
    · exact grows_notePreamble hpeek
    · exact grows_advance hpeek _

theorem moves_pumpRelay (c : Lifecycle) (taken : Bool) : Moves c (c.pumpRelay taken).2 := by
  unfold pumpRelay
  split
  · exact .refl c
  · split
    · exact ⟨.inl rfl, .refl _, .refl _, grows_commit _⟩
    · exact .refl c

theorem moves_pumpOut (c : Lifecycle) (index : Nat) (taken : Bool) :
    Moves c (c.pumpOut index taken) := by
  unfold pumpOut
  split
  · exact .refl c
  · rename_i owed hpeek
    have hadvance := grows_advance hpeek (pumpTake owed)
    split
    · by_cases hindex : index = 0
      · subst hindex
        exact ⟨.inl rfl, ⟨[], hadvance, fun _ ↦ rfl⟩, .refl _, .refl _⟩
      · simp only [output, hindex, if_false] at hadvance
        refine ⟨.inl rfl, ?_, ?_, .refl _⟩
        · simp only [setOutput, hindex, if_false]
          exact .refl _
        · simp only [setOutput, output, hindex, if_false]
          exact ⟨[], hadvance, fun _ ↦ rfl⟩
    · exact .refl c

theorem moves_receiveChannelReport (c : Lifecycle) (index : Nat) (buffer : List UInt8) :
    Moves c (c.receiveChannelReport index buffer) := by
  unfold receiveChannelReport
  split
  · exact .refl c
  · simp only
    split <;> exact .of_same rfl rfl rfl rfl

theorem moves_peerPacket (c : Lifecycle) (packet : RelayPacket) :
    Moves c (c.peerPacket packet) := by
  unfold peerPacket
  split <;> exact .of_same rfl rfl rfl rfl

/-! ## Every event -/

/-- The frame a turn of `drain_reports` hands on, with its channel and the state it is handed on
in. -/
def handed (c : Lifecycle) : Option (Nat × FrameView × Lifecycle) :=
  match c.takeReport with
  | some (.ok view, index, c) => if c.handsOn index view then some (index, view, c) else none
  | _ => none

/-- Reading a report touches the readers and the backlog and nothing else. -/
theorem takeReport_rest {rc : Except FrameFault FrameView} {index : Nat}
    (h : c.takeReport = some (rc, index, c')) :
    c' = { c with reports := c'.reports, reader := c'.reader, extraReader := c'.extraReader } := by
  unfold takeReport at h
  split at h
  · cases h
  · cases h
    rfl

/-- A frame handed on meets the channel as it was, but for the readers and the backlog. -/
theorem handed_rest {index : Nat} {view : FrameView} (h : c.handed = some (index, view, c')) :
    c' = { c with reports := c'.reports, reader := c'.reader, extraReader := c'.extraReader } := by
  unfold handed at h
  split at h
  · rename_i htake
    split at h
    · cases h
      exact takeReport_rest htake
    · cases h
  · cases h

/-- A turn of `drain_reports` hands its frame to `on_frame`. -/
theorem drainReport_handed {curve : P256} {index : Nat} {view : FrameView} (now : UInt32)
    (h : c.handed = some (index, view, c')) :
    (c.drainReport curve now).2 = c'.onFrame curve index view now := by
  unfold handed at h
  split at h
  · rename_i htake
    split at h
    · rename_i hon
      cases h
      simp only [drainReport, htake, hon, if_true]
    · cases h
  · cases h

/-- A turn that hands no frame on reads a report or ends the session over a broken one. -/
theorem moves_drainReport {curve : P256} (now : UInt32) (h : c.handed = none) :
    Moves c (c.drainReport curve now).2 := by
  unfold handed at h
  unfold drainReport
  have hread : ∀ {rc : Except FrameFault FrameView} {index : Nat} {c' : Lifecycle},
      c.takeReport = some (rc, index, c') → Moves c c' := by
    intro rc index c' htake
    rw [takeReport_rest htake]
    exact .of_same rfl rfl rfl rfl
  split
  · exact .refl c
  · rename_i htake
    exact hread htake
  · rename_i fault index c' _ htake
    have hended := (hread htake).trans (moves_endSession c' .protocolError now)
    exact hended.trans (.of_same rfl rfl rfl rfl)
  · rename_i view index c' htake
    rw [htake] at h
    simp only at h ⊢
    split at h
    · cases h
    · rename_i hkept
      rw [if_neg hkept]
      exact hread htake

/-- A frame on its way to `on_frame`, with the state and the time it gets there. -/
structure Handing where
  now : UInt32
  index : Nat
  view : FrameView
  channel : Lifecycle

/-- The frame an event hands on. -/
def handing (c : Lifecycle) : Event → Option Handing
  | .drainReport now => c.handed.map fun (index, view, channel) ↦ { now, index, view, channel }
  | _ => none

/-- The nonce an event stages. -/
def staging (c : Lifecycle) : Event → Option (List UInt8)
  | .stageNonce nonce => if c.session.nonceStaged then none else some (nonce.take nonceSize)
  | _ => none

/-- A frame handed on meets the channel as it was, but for the readers and the backlog. -/
theorem handing_rest {event : Event} {h : Handing} (hhanding : c.handing event = some h) :
    h.channel =
      { c with
        reports := h.channel.reports
        reader := h.channel.reader
        extraReader := h.channel.extraReader } := by
  cases event with
  | drainReport now =>
      obtain ⟨⟨index, view, channel⟩, hhanded, rfl⟩ := Option.map_eq_some_iff.1 hhanding
      exact handed_rest hhanded
  | _ => cases hhanding

/-- An event that neither hands a frame on nor stages a nonce moves the channel. -/
theorem moves_step {curve : P256} {event : Event} (hhanding : c.handing event = none)
    (hstage : ∀ nonce, event ≠ .stageNonce nonce) : Moves c (c.step curve event) := by
  cases event with
  | stageNonce nonce => exact absurd rfl (hstage nonce)
  | drainReport now => exact moves_drainReport now (Option.map_eq_none_iff.1 hhanding)
  | receiveReport index buffer => exact moves_receiveChannelReport c index buffer
  | pumpPlace now => exact moves_pumpPlace c now
  | pumpQuery now taken => exact moves_pumpQuery c now taken
  | pumpArrival now => exact moves_pumpArrival c now
  | pumpPeerBoardSession now => exact moves_pumpPeerBoardSession c now
  | saveRegistration => exact .of_same rfl rfl rfl rfl
  | pumpInbound now => exact moves_pumpInbound c now
  | updateConfig clipFlags capMb =>
      apply moves_session
      rw [core_setClipPolicy, core_setDrops]
  | sessionTick now => exact moves_sessionTick c now
  | pairTick now => exact .of_same rfl rfl rfl rfl
  | relayYield => exact .of_same rfl rfl rfl rfl
  | pumpRelay taken => exact moves_pumpRelay c taken
  | pumpOut index taken => exact moves_pumpOut c index taken
  | linkLost => exact moves_linkLost c
  | configWiped now => exact moves_configWiped c now
  | openPairingWindow now => exact .of_same rfl rfl rfl rfl
  | owePlace body queryId now =>
      show Moves c (c.owePlace body queryId now)
      unfold owePlace
      split
      · exact .of_same rfl rfl rfl rfl
      · exact .refl c
  | arrive role newOutput => exact .of_same rfl rfl rfl rfl
  | peerBoardHeartbeat helperSession => exact .of_same rfl rfl rfl rfl
  | queryCursor origin queryId =>
      show Moves c (c.queryCursor origin queryId)
      unfold queryCursor
      split
      · exact .refl c
      · split
        · exact .of_same rfl rfl rfl rfl
        · exact .refl c
  | peerPacket packet => exact moves_peerPacket c packet

/-- Every event stages a nonce, hands a frame on, or moves the channel without either. -/
theorem step_cases (curve : P256) (c : Lifecycle) (event : Event) :
    (∃ nonce, event = .stageNonce nonce) ∨
      (∃ h, c.handing event = some h ∧ c.staging event = none ∧
        c.step curve event = h.channel.onFrame curve h.index h.view h.now) ∨
      (c.handing event = none ∧ c.staging event = none ∧ Moves c (c.step curve event)) := by
  by_cases hstage : ∃ nonce, event = .stageNonce nonce
  · exact .inl hstage
  · have hnot : ∀ nonce, event ≠ .stageNonce nonce := fun nonce h ↦ hstage ⟨nonce, h⟩
    have hnone : c.staging event = none := by
      cases event with
      | stageNonce nonce => exact absurd rfl (hnot nonce)
      | _ => rfl
    cases hhanding : c.handing event with
    | none => exact .inr (.inr ⟨rfl, hnone, moves_step hhanding hnot⟩)
    | some h =>
        refine .inr (.inl ⟨h, rfl, hnone, ?_⟩)
        cases event with
        | drainReport now =>
            obtain ⟨⟨index, view, channel⟩, hhanded, rfl⟩ := Option.map_eq_some_iff.1 hhanding
            exact drainReport_handed now hhanded
        | _ => cases hhanding

/-! ## A frame handed on -/

section Frame

variable (curve : P256) (c : Lifecycle) (view : FrameView) (now : UInt32)

/-- What the session layer answers to a frame, none or one. -/
def replies : List (List UInt8) :=
  if authenticatesHere view.type then []
  else
    match (c.session.onFrame curve c.pair view now replyMax).1 with
    | .error _ => []
    | .ok [] => []
    | .ok (type :: rest) => [type :: rest]

/-- The frame without its prefix, as it crosses to the peer board. -/
def shortened : FrameView := { view with payload := bodyOf view }

/-- A frame for the session layer moves the core as that layer does, and adds its answer. -/
theorem channelOnFrame_spec (hsession : authenticatesHere view.type = false) :
    (c.channelOnFrame curve view now).session.core =
        (c.session.onFrame curve c.pair view now replyMax).2.1.core ∧
      (c.channelOnFrame curve view now).relayTx = c.relayTx ∧
      Grows (c.replies curve view now) c.out (c.channelOnFrame curve view now).out ∧
      Grows (c.replies curve view now) c.extraOut (c.channelOnFrame curve view now).extraOut := by
  unfold replies channelOnFrame
  rw [if_neg (by simp [hsession])]
  generalize c.session.onFrame curve c.pair view now replyMax = answer
  obtain ⟨rc, session, pair⟩ := answer
  simp only
  -- what stands before the answer is queued: the new session, over fresh queues after an ack
  have hqueue : ∀ (before : Lifecycle) (reply : List UInt8),
      before.session.core = session.core → before.relayTx = c.relayTx →
      Grows [] c.out before.out → Grows [] c.extraOut before.extraOut →
      (before.queue reply now).2.session.core = session.core ∧
        (before.queue reply now).2.relayTx = c.relayTx ∧
        Grows [reply] c.out (before.queue reply now).2.out ∧
        Grows [reply] c.extraOut (before.queue reply now).2.extraOut := by
    intro before reply hcore hrelay hout hextra
    obtain ⟨hcore', hrelay', -⟩ := before.queue_rest reply now
    obtain ⟨hout', hextra'⟩ := before.grows_queue reply now
    exact ⟨hcore'.trans hcore, hrelay'.trans hrelay, hout.trans hout', hextra.trans hextra'⟩
  split
  · exact ⟨rfl, rfl, .refl _, .refl _⟩
  · exact ⟨rfl, rfl, .refl _, .refl _⟩
  · split
    · exact hqueue _ _ rfl rfl (grows_reset _) (grows_reset _)
    · exact hqueue _ _ rfl rfl (.refl _) (.refl _)

/-- A frame the session took goes to the relay queue if it is bulk, and to no other queue. -/
theorem relayToPeer_spec (index : Nat) :
    (c.relayToPeer index view (bodyOf view)).session = c.session ∧
      (c.relayToPeer index view (bodyOf view)).out = c.out ∧
      (c.relayToPeer index view (bodyOf view)).extraOut = c.extraOut ∧
      Grows (if (c.relayTx.offer (shortened view).bytes).1 = .ok then [(shortened view).bytes]
        else []) c.relayTx.q (c.relayToPeer index view (bodyOf view)).relayTx.q :=
  ⟨rfl, rfl, rfl, grows_offer _ _⟩

end Frame

end Lifecycle

end DeskhopPlus.Board
