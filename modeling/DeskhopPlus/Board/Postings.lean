import DeskhopPlus.Board.Moves

/-!
# What an event builds for the helper

Every frame toward the helper is built in full, under a key and a counter if it is tagged, and then
offered to a queue that may refuse it. `postings` lists what an event builds, by asking the
functions of the source, and whether the queue took it. `Deed` says what an event can do to the half
of the session that decides what is sent, and `deed_step` that every event does one of the deeds.
-/

namespace DeskhopPlus.Board

open Wire Outq Auth Crypto Runs Session

/-- The time of an event on the clock of the channel, for the events that read it. -/
def Event.now : Event → Option UInt32
  | .drainReport now | .pumpPlace now | .pumpQuery now _ | .pumpArrival now
  | .pumpPeerBoardSession now | .pumpInbound now | .sessionTick now | .pairTick now
  | .configWiped now | .openPairingWindow now => some now
  | _ => none

theorem Event.now_getD (event : Event) : ∀ stamp ∈ event.now, stamp = event.now.getD 0 := by
  intro stamp hstamp
  rw [hstamp]
  rfl

/-- The events that are answered in a way of their own: the tick of the session, and a report. -/
inductive EventKind where
  | tick
  | report
  | other
  deriving DecidableEq, Repr

/-- The kind of an event. -/
def Event.kind : Event → EventKind
  | .sessionTick _ => .tick
  | .drainReport _ => .report
  | _ => .other

/-- A frame built for the helper: the key and the counter of its tag, if it has one, and whether a
queue took it. -/
structure Posting where
  tagged : Option (List UInt8 × UInt64)
  frame : List UInt8
  queued : Bool
  deriving DecidableEq, Repr

namespace Lifecycle

/-- A frame that is offered to the queue of its channel. -/
def posting (c : Lifecycle) (tagged : Option (List UInt8 × UInt64)) (frame : List UInt8)
    (now : UInt32) : Posting :=
  { tagged := tagged, frame := frame, queued := (c.queue frame now).1 }

/-- The key and the counter of the next frame the session tags. -/
def nextTag (c : Lifecycle) : Option (List UInt8 × UInt64) :=
  some (c.session.kB2h, c.session.txCounter)

/-- What `channel_lifecycle_emit_placement` builds. -/
def placementPostings (c : Lifecycle) (type : UInt8) (body : List UInt8) (now : UInt32) :
    List Posting :=
  if placeBodySize < body.length then []
  else
    match c.session.emitRelayed { type := type, flags := 0, payload := body }
        (headerSize + authPrefixSize + placeBodySize) with
    | (.error _, _) => []
    | (.ok frame, session) => [{ c with session := session }.posting c.nextTag frame now]

/-- What the second half of `pump_place` builds. -/
def placePostings (c : Lifecycle) : List Posting :=
  match c.session.emitRelayed { type := Msg.place, flags := 0, payload := c.placeBody }
      (headerSize + authPrefixSize + placeBodySize) with
  | (.error _, _) => []
  | (.ok placeFrame, session) =>
      match session.emitRelayed { type := Msg.posQuery, flags := 0, payload := [c.placeQueryId] }
          (headerSize + authPrefixSize + posQueryBodySize) with
      | (.error _, _) => [{ tagged := c.nextTag, frame := placeFrame, queued := false }]
      | (.ok queryFrame, _) =>
          let queued : Bool := (c.out.offerPair placeFrame queryFrame).1 = .ok
          [{ tagged := c.nextTag, frame := placeFrame, queued := queued },
           { tagged := some (session.kB2h, session.txCounter), frame := queryFrame,
             queued := queued }]

/-- What `pump_place` builds. -/
def pumpPlacePostings (c : Lifecycle) (now : UInt32) : List Posting :=
  let owed := c.placeOwed
  let stale := owed ≠ c.placeSent ∧ placeStaleMs.toInt32 < (now - c.placeOwedAt).toInt32
  let c := if stale then { c with placeSent := owed } else c
  if owed = c.placeSent ∨ c.out.pairBusy = true then []
  else if c.session.present = false then []
  else c.placePostings

/-- What `pump_owed` builds for the arrival. -/
def arrivalPostings (c : Lifecycle) (now : UInt32) : List Posting :=
  if (c.arrivalOwed && !c.out.priorityFull) = false then []
  else if c.session.present = false then []
  else c.placementPostings Msg.arrival [] now

/-- What the second half of `pump_peer_board_session` builds. -/
def peerBoardPostings (c : Lifecycle) (live : UInt8) (now : UInt32) : List Posting :=
  if c.session.present = false ∨ c.out.priorityFull = true ∨ c.peerBoardTold = live then []
  else c.placementPostings Msg.peerHelper [live] now

/-- What `pump_query` builds. -/
def queryPostings (c : Lifecycle) (now : UInt32) : List Posting :=
  if c.cursorQueryOrigin = .none then []
  else if c.session.present = false then []
  else c.placementPostings Msg.posQuery [c.cursorQueryId] now

/-- What a turn of `pump_inbound` builds. -/
def inboundPostings (c : Lifecycle) (now : UInt32) : List Posting :=
  match c.inbound.peek with
  | none => []
  | some bytes =>
      match decode bytes with
      | .error _ => []
      | .ok (view, _) =>
          match c.session.emitRelayed view maxFrame with
          | (.error _, _) => []
          | (.ok tagged, session) =>
              [{ c with inbound := c.inbound.release, session := session }.posting c.nextTag
                tagged now]

/-- What `end_session` builds. -/
def endPostings (c : Lifecycle) (reason : EndReason) (now : UInt32) : List Posting :=
  match c.session.finish reason 0 replyMax with
  | (.ok (type :: rest), session) =>
      [{ c with session := session }.posting c.nextTag (type :: rest) now]
  | _ => []

/-- What the tick of the session builds. -/
def tickPostings (c : Lifecycle) (now : UInt32) : List Posting :=
  match c.session.tick now replyMax with
  | (.ok (type :: rest), session) =>
      [{ c with session := session }.posting c.nextTag (type :: rest) now]
  | _ => []

/-- The channel with what the session layer made of a frame, as the answer to it is queued. -/
def answering (curve : P256) (c : Lifecycle) (view : FrameView) (now : UInt32) : Lifecycle :=
  let answer := c.session.onFrame curve c.pair view now replyMax
  let c' : Lifecycle :=
    { c with
      session := answer.2.1
      pair := answer.2.2
      registrationUnsaved :=
        answer.2.2.registrations ≠ c.pair.registrations || c.registrationUnsaved }
  match answer.1 with
  | .ok (type :: _) => if type = Msg.helloAck then c'.freshStream else c'
  | _ => c'

/-- What `channel_lifecycle_on_frame` builds: the ack of a hello is the first frame of its session,
and every other answer is untagged. -/
def answerPostings (curve : P256) (c : Lifecycle) (view : FrameView) (now : UInt32) :
    List Posting :=
  match (c.session.onFrame curve c.pair view now replyMax).1 with
  | .ok (type :: rest) =>
      let c' := c.answering curve view now
      [c'.posting (if type = Msg.helloAck then some (c'.session.kB2h, 0) else none)
        (type :: rest) now]
  | _ => []

/-- What a turn of `drain_reports` builds. -/
def drainPostings (curve : P256) (c : Lifecycle) (now : UInt32) : List Posting :=
  match c.takeReport with
  | none => []
  | some (.error .again, _, _) => []
  | some (.error _, _, c) => c.endPostings .protocolError now
  | some (.ok view, index, c) =>
      if c.handsOn index view ∧ authenticatesHere view.type = false then
        c.answerPostings curve view now
      else []

/-- What an event builds for the helper, in order. -/
def postings (curve : P256) (c : Lifecycle) : Event → List Posting
  | .drainReport now => c.drainPostings curve now
  | .pumpPlace now => c.pumpPlacePostings now
  | .pumpQuery now _ => c.queryPostings now
  | .pumpArrival now => c.arrivalPostings now
  | .pumpPeerBoardSession now =>
      let c := c.judgePeerBoard now
      c.peerBoardPostings (if c.peerBoardSession then 1 else 0) now
  | .pumpInbound now => c.inboundPostings now
  | .sessionTick now => c.tickPostings now
  | .configWiped now => c.endPostings .unpaired now
  | _ => []

end Lifecycle

/-! ## What sending changes of a session -/

/-- The fields of a session that decide what is sent to the helper. -/
structure Sending where
  present : Bool
  channelCount : UInt8
  lastSentMs : UInt32
  kB2h : List UInt8
  txCounter : UInt64
  alertPending : Bool
  clipFlags : UInt8
  clipPolicyOwed : Bool
  clipCapMb : UInt8
  drops : DeviceDrops
  dropsOwed : Bool
  dropsSentMs : UInt32
  dropsEverSent : Bool
  deriving DecidableEq, Repr

namespace Sending

/-- After a drop. -/
def drop (x : Sending) : Sending :=
  { x with
    present := false
    channelCount := 0
    lastSentMs := 0
    kB2h := List.replicate sessionKeySize 0
    txCounter := 0
    clipPolicyOwed := false
    dropsOwed := false
    dropsEverSent := false }

/-- After a frame was tagged. -/
def spent (x : Sending) : Sending := { x with txCounter := x.txCounter + 1 }

/-- After a frame was offered at a time. -/
def charged (x : Sending) (queued : Bool) (now : UInt32) : Sending :=
  { x with lastSentMs := if queued then now else x.lastSentMs }

end Sending

namespace Session

/-- The sending half of a session. -/
def sending (s : Session) : Sending :=
  { present := s.present, channelCount := s.channelCount, lastSentMs := s.lastSentMs,
    kB2h := s.kB2h, txCounter := s.txCounter, alertPending := s.alertPending,
    clipFlags := s.clipFlags, clipPolicyOwed := s.clipPolicyOwed, clipCapMb := s.clipCapMb,
    drops := s.drops, dropsOwed := s.dropsOwed, dropsSentMs := s.dropsSentMs,
    dropsEverSent := s.dropsEverSent }

@[simp] theorem sending_drop (s : Session) : s.drop.sending = s.sending.drop := rfl

@[simp] theorem sending_stageNonce (s : Session) (nonce : List UInt8) :
    (s.stageNonce nonce).sending = s.sending := rfl

@[simp] theorem sending_noteReceived (s : Session) (now : UInt32) :
    (s.noteReceived now).sending = s.sending := by
  unfold noteReceived
  split <;> rfl

theorem SameButRefusals.sending_eq {s s' : Session} (h : SameButRefusals s s') :
    s'.sending = s.sending := by
  rw [h]
  rfl

/-- Judging a frame changes nothing of what is sent. -/
@[simp] theorem sending_authenticate (s : Session) (view : FrameView) (now : UInt32) :
    (s.authenticate view now).2.sending = s.sending := by
  unfold authenticate
  split
  · rfl
  · split
    · rfl
    · split
      · exact sending_noteReceived s now
      · split
        · exact (sameButRefusals_noteRefused _ now false).sending_eq
        · exact sending_noteReceived _ now

/-- A frame tagged for the helper spends the counter it carries. -/
theorem emitRelayed_ok {s session : Session} {view : FrameView} {cap : Nat} {frame : List UInt8}
    (h : s.emitRelayed view cap = (.ok frame, session)) :
    s.present = true ∧ session.sending = s.sending.spent ∧
      frame = (builtView view.type view.flags s.kB2h s.txCounter.toNat view.payload).bytes := by
  unfold emitRelayed at h
  split at h
  · cases h
  · rename_i hpresent
    split at h
    · cases h
    · rename_i bytes hframe
      cases h
      exact ⟨by simpa using hpresent, rfl, (frame_ok hframe).1⟩

/-- A frame that could not be tagged spends nothing. -/
theorem emitRelayed_error {s session : Session} {view : FrameView} {cap : Nat} {fault : FrameFault}
    (h : s.emitRelayed view cap = (.error fault, session)) : session = s := by
  unfold emitRelayed at h
  split at h
  · cases h
    rfl
  · split at h
    · cases h
      rfl
    · cases h

end Session

/-! ## The kinds of events -/

/-- The message a tick of the session tells its helper next, if it tells one. -/
inductive Owes (x : Sending) (now : UInt32) : UInt8 → List UInt8 → Prop
  | clipPolicy (h : x.clipPolicyOwed = true) :
      Owes x now Msg.clipPolicy [x.clipFlags, x.clipCapMb]
  | listenerAlert (hpolicy : x.clipPolicyOwed = false) (h : x.alertPending = true)
      {body : List UInt8} (hbody : body.length = 8) : Owes x now Msg.listenerAlert body
  | deviceDrops (hpolicy : x.clipPolicyOwed = false) (halert : x.alertPending = false)
      (h : x.dropsOwed = true)
      (hdue : x.dropsEverSent = false ∨ heartbeatMs ≤ now - x.dropsSentMs) :
      Owes x now Msg.deviceDrops x.drops.write
  | deviceHeartbeat (hpolicy : x.clipPolicyOwed = false) (halert : x.alertPending = false)
      (hdrops : ¬ (x.dropsOwed = true ∧
        (x.dropsEverSent = false ∨ heartbeatMs ≤ now - x.dropsSentMs)))
      (h : heartbeatMs ≤ now - x.lastSentMs) : Owes x now Msg.deviceHeartbeat []

/-- What is owed fits the smallest buffers. -/
theorem Owes.short {x : Sending} {now : UInt32} {type : UInt8} {body : List UInt8}
    (h : Owes x now type body) : authPrefixSize + body.length ≤ authPrefixSize + 48 := by
  cases h with
  | clipPolicy | deviceHeartbeat => simp
  | listenerAlert hpolicy h hbody => simp [hbody]
  | deviceDrops => simp [DeviceDrops.write]

theorem Owes.lane {x : Sending} {now : UInt32} {type : UInt8} {body : List UInt8}
    (h : Owes x now type body) : Msg.known type = true ∧ Msg.isBulk type = false := by
  cases h <;> decide

namespace Sending

/-- After a tick built a frame of a type: a reading of the totals is stamped by its own clock, and
everything else charges the idle timer. -/
def stamped (x : Sending) (type : UInt8) (now : UInt32) : Sending :=
  { x with
    lastSentMs := if type = Msg.deviceDrops then x.lastSentMs else now
    dropsSentMs := if type = Msg.deviceDrops then now else x.dropsSentMs
    dropsEverSent := if type = Msg.deviceDrops then true else x.dropsEverSent }

/-- After the queue took a frame of a type: it is no longer owed. -/
def cleared (x : Sending) (type : UInt8) : Sending :=
  { x with
    alertPending := x.alertPending && !(decide (type = Msg.listenerAlert))
    clipPolicyOwed := x.clipPolicyOwed && !(decide (type = Msg.clipPolicy))
    dropsOwed := x.dropsOwed && !(decide (type = Msg.deviceDrops)) }

/-- After a tick told its helper something, or tried to. -/
def told (x : Sending) (now : UInt32) (type : UInt8) (queued : Bool) : Sending :=
  let x := (x.spent.stamped type now).charged queued now
  if queued then x.cleared type else x

/-- The frame that carries a body under the next counter, and what became of it. -/
def post (x : Sending) (type flags : UInt8) (body : List UInt8) (queued : Bool) : Posting where
  tagged := some (x.kB2h, x.txCounter)
  frame := (builtView type flags x.kB2h x.txCounter.toNat body).bytes
  queued := queued

/-- A session that has just been keyed, before its first frame. -/
def begun (x : Sending) (channelCount : UInt8) (kB2h : List UInt8) (now : UInt32) : Sending :=
  { x with
    present := true
    channelCount := channelCount
    lastSentMs := now
    kB2h := kB2h
    txCounter := 0
    clipPolicyOwed := true
    dropsOwed := true
    dropsEverSent := false }

end Sending

/-- A frame between the session and the two ends: a placement of this board, or one the peer board
handed over. -/
def Relays (c : Lifecycle) (type flags : UInt8) (body : List UInt8) : Prop :=
  type ∈ [Msg.place, Msg.posQuery, Msg.arrival, Msg.peerHelper] ∨
    ∃ bytes count, c.inbound.peek = some bytes ∧
      decode bytes = .ok ({ type := type, flags := flags, payload := body }, count)

/-- The types of the answers that are sent without a tag. -/
def untagged (type : UInt8) : Bool :=
  type ∈ [Msg.helloRefused, Msg.pairGrant, Msg.pairRefused]

/-- Everything an event can do to what is sent: the frames it builds, and the session after it.
`now` is the time of the event. -/
inductive Deed (c : Lifecycle) (kind : EventKind) (now : UInt32) (s' : Session) :
    List Posting → Prop
  | rests (alert : Bool) (halert : c.session.alertPending = true → alert = true)
      (hidle : kind = .tick → c.session.present = true → now - c.session.lastSentMs < heartbeatMs)
      (h : s'.sending = { c.session.sending with alertPending := alert }) : Deed c kind now s' []
  | drops (alert : Bool) (halert : c.session.alertPending = true → alert = true)
      (h : s'.sending = ({ c.session.sending with alertPending := alert } : Sending).drop) :
      Deed c kind now s' []
  | configures (totals : DeviceDrops) (clipFlags capMb : UInt8) (hkind : kind = .other)
      (h : s'.sending =
        ((c.session.setDrops totals).setClipPolicy clipFlags capMb).sending) :
      Deed c kind now s' []
  | tags {type flags : UInt8} {body : List UInt8} {queued : Bool} (hkind : kind = .other)
      (hrelays : Relays c type flags body) (hpresent : c.session.present = true)
      (h : s'.sending = c.session.sending.spent.charged queued now) :
      Deed c kind now s' [c.session.sending.post type flags body queued]
  | places {queued : Bool} (hkind : kind = .other) (hpresent : c.session.present = true)
      (h : s'.sending = c.session.sending.spent.spent.charged queued now) :
      Deed c kind now s' [c.session.sending.post Msg.place 0 c.placeBody queued,
        c.session.sending.spent.post Msg.posQuery 0 [c.placeQueryId] queued]
  | ends {alert : Bool} {body : List UInt8} {queued : Bool}
      (halert : c.session.alertPending = true → alert = true)
      (hpresent : c.session.present = true)
      (h : s'.sending =
        ({ c.session.sending with alertPending := alert } : Sending).drop.charged queued now) :
      Deed c kind now s' [c.session.sending.post Msg.sessionEnd 0 body queued]
  | answers {type : UInt8} {rest : List UInt8} {queued : Bool} (hkind : kind = .report)
      (htype : untagged type = true)
      (h : s'.sending = c.session.sending.charged queued now) :
      Deed c kind now s' [{ tagged := none, frame := type :: rest, queued := queued }]
  | starts {channelCount : UInt8} {sharedSecret helperNonce body : List UInt8}
      (hkind : kind = .report) (hstaged : c.session.nonceStaged = true)
      (hspent : s'.nonceStaged = false)
      (h : s'.sending = (c.session.sending.begun channelCount
        (deriveSessionKeys sharedSecret helperNonce c.session.stagedNonce).2 now).spent) :
      Deed c kind now s' [(c.session.sending.begun channelCount
        (deriveSessionKeys sharedSecret helperNonce c.session.stagedNonce).2 now).post
          Msg.helloAck 0 body true]
  | ticks {alert : Bool} {type : UInt8} {body : List UInt8} (hkind : kind = .tick)
      (halert : c.session.alertPending = true → alert = true)
      (hpresent : c.session.present = true)
      (howes : Owes { c.session.sending with alertPending := alert } now type body)
      (h : s'.sending = { c.session.sending with alertPending := alert }.told now type
        (!c.out.priorityFull)) :
      Deed c kind now s' [c.session.sending.post type 0 body (!c.out.priorityFull)]

namespace Lifecycle

variable {c c' : Lifecycle}

/-- Nothing of what is sent changes. -/
theorem deed_same {kind : EventKind} {s' : Session} {now : UInt32} (hkind : kind ≠ .tick)
    (h : s'.sending = c.session.sending) : Deed c kind now s' [] :=
  .rests c.session.alertPending id (fun htick ↦ absurd htick hkind) h

theorem sending_queue (c : Lifecycle) (frame : List UInt8) (now : UInt32) :
    (c.queue frame now).2.session.sending =
      c.session.sending.charged (c.queue frame now).1 now := by
  simp only [queue, track, Sending.charged]
  split
  · rename_i hqueued
    rw [if_pos (by simpa using hqueued)]
    rfl
  · rename_i hrefused
    rw [if_neg (by simpa using hrefused)]

/-- A built frame of a known type is one whole frame. -/
theorem wholeFrame_builtView {type flags : UInt8} {key body : List UInt8} {counter : Nat}
    (htype : Msg.known type = true) (hbody : authPrefixSize + body.length ≤ maxPayload) :
    wholeFrame (builtView type flags key counter body).bytes =
      some { type := type, flags := flags, len := authPrefixSize + body.length } := by
  have hparse : headerParse (builtView type flags key counter body).bytes =
      .ok { type := type, flags := flags, len := authPrefixSize + body.length } := by
    rw [FrameView.bytes, builtView_payload_length]
    exact header_parse_bytes _ htype hbody
  rw [wholeFrame, hparse]
  simp [FrameView.bytes]

/-- A short frame of the priority lane is queued unless the lane is full. -/
theorem queue_priority (c : Lifecycle) {type flags : UInt8} {key body : List UInt8} {counter : Nat}
    (htype : Msg.known type = true) (hlane : Msg.isBulk type = false)
    (hbody : authPrefixSize + body.length + headerSize ≤ priorityMax) (now : UInt32) :
    (c.queue (builtView type flags key counter body).bytes now).1 = !c.out.priorityFull := by
  have hpayload : authPrefixSize + body.length ≤ maxPayload :=
    (Nat.le_add_right ..).trans (hbody.trans (by decide))
  have hwhole : wholeFrame (builtView type flags key counter body).bytes =
      some { type := type, flags := flags, len := authPrefixSize + body.length } :=
    wholeFrame_builtView htype hpayload
  have hlength : (builtView type flags key counter body).bytes.length ≤ priorityMax := by
    simp only [FrameView.bytes, List.length_append, headerBytes_length, builtView_payload_length]
    omega
  have hstriped : striped (builtView type flags key counter body).bytes = false := by
    show Msg.isStriped type = false
    by_contra hchunk
    have hchunk : type = Msg.clipChunk := by simpa [Msg.isStriped] using hchunk
    rw [hchunk] at hlane
    cases hlane
  have hindex : c.outputIndex (builtView type flags key counter body).bytes = 0 := by
    rw [outputIndex, hstriped]
    rfl
  show decide (((c.output (c.outputIndex _).toNat).offer _).1 = .ok) = _
  rw [hindex]
  show decide ((c.out.offer _).1 = .ok) = _
  simp only [offer, hwhole, hlane, if_true, if_neg (Nat.not_lt.2 hlength), priorityFull]
  by_cases hempty : 0 < c.out.priority.len
  · by_cases hroom : c.out.priority.stage.used < priorityDepth
    · simp [hempty, hroom]
    · simp [hempty, hroom, Nat.le_of_not_lt hroom]
  · simp [hempty]

/-- A frame tagged and offered. -/
theorem deed_emit {view : FrameView} {cap : Nat} {frame : List UInt8} {session : Session}
    (hkind : Relays c view.type view.flags view.payload)
    (hemit : c.session.emitRelayed view cap = (.ok frame, session)) {before : Lifecycle}
    (hbefore : before.session = session) (now : UInt32) :
    Deed c .other now (before.queue frame now).2.session [before.posting c.nextTag frame now] := by
  obtain ⟨hpresent, hsending, hframe⟩ := emitRelayed_ok hemit
  have hpost : before.posting c.nextTag frame now =
      c.session.sending.post view.type view.flags view.payload (before.queue frame now).1 := by
    rw [hframe]
    rfl
  rw [hpost]
  refine .tags rfl hkind hpresent ?_
  rw [sending_queue, hbefore, hsending]

theorem deed_emitPlacement (c : Lifecycle) {type : UInt8} (body : List UInt8) (now : UInt32)
    (htype : type ∈ [Msg.place, Msg.posQuery, Msg.arrival, Msg.peerHelper]) :
    Deed c .other now (c.emitPlacement type body now).2.session
      (c.placementPostings type body now) := by
  unfold emitPlacement placementPostings
  by_cases hlong : placeBodySize < body.length
  · rw [if_pos hlong, if_pos hlong]
    exact deed_same (by decide) rfl
  · rw [if_neg hlong, if_neg hlong]
    cases hemit : c.session.emitRelayed { type := type, flags := 0, payload := body }
        (headerSize + authPrefixSize + placeBodySize) with
    | mk rc session =>
        cases rc with
        | error fault =>
            cases emitRelayed_error hemit
            exact deed_same (by decide) rfl
        | ok frame => exact deed_emit (.inl htype) hemit rfl now

theorem deed_sendPlace (c : Lifecycle) (owed now : UInt32) :
    Deed c .other now (c.sendPlace owed now).session c.placePostings := by
  unfold sendPlace placePostings
  cases hemit : c.session.emitRelayed { type := Msg.place, flags := 0, payload := c.placeBody }
      (headerSize + authPrefixSize + placeBodySize) with
  | mk rc session =>
      cases rc with
      | error fault =>
          cases emitRelayed_error hemit
          exact deed_same (by decide) rfl
      | ok placeFrame =>
          obtain ⟨hpresent, hsending, hframe⟩ := emitRelayed_ok hemit
          simp only
          cases hemit' : session.emitRelayed
              { type := Msg.posQuery, flags := 0, payload := [c.placeQueryId] }
              (headerSize + authPrefixSize + posQueryBodySize) with
          | mk rc' session' =>
              cases rc' with
              | error fault =>
                  cases emitRelayed_error hemit'
                  have hpost : Posting.mk c.nextTag placeFrame false =
                      c.session.sending.post Msg.place 0 c.placeBody false := by
                    rw [hframe]
                    rfl
                  simp only
                  rw [hpost]
                  exact .tags rfl (.inl (by decide)) hpresent hsending
              | ok queryFrame =>
                  obtain ⟨-, hsending', hframe'⟩ := emitRelayed_ok hemit'
                  have hkey : session.kB2h = c.session.kB2h :=
                    congrArg Sending.kB2h hsending
                  have hcounter : session.txCounter = c.session.txCounter + 1 :=
                    congrArg Sending.txCounter hsending
                  rw [hkey, hcounter] at hframe'
                  simp only [hkey, hcounter]
                  generalize hresult : c.out.offerPair placeFrame queryFrame = offered
                  obtain ⟨result, out⟩ := offered
                  rw [hframe, hframe']
                  refine .places rfl hpresent ?_
                  rw [← hsending, ← hsending']
                  by_cases hok : result = .ok
                  · simp only [track, hok, if_true, decide_true]
                    rfl
                  · simp only [track, hok, if_false, decide_false]
                    rfl

/-- A deed is read off the session and the few fields it names. -/
theorem Deed.of_same {before : Lifecycle} {kind : EventKind}
    (htick : kind ≠ .tick) {now : UInt32} {s' : Session} {posts : List Posting}
    (hsession : before.session = c.session) (hbody : before.placeBody = c.placeBody)
    (hquery : before.placeQueryId = c.placeQueryId) (hinbound : before.inbound = c.inbound)
    (h : Deed before kind now s' posts) : Deed c kind now s' posts := by
  cases h with
  | rests alert halert hidle h =>
      exact .rests alert (hsession ▸ halert) (fun hkind ↦ absurd hkind htick) (hsession ▸ h)
  | drops alert halert h => exact .drops alert (hsession ▸ halert) (hsession ▸ h)
  | configures totals clipFlags capMb hkind h =>
      exact .configures totals clipFlags capMb hkind (hsession ▸ h)
  | tags hkind hrelays hpresent h =>
      rw [hsession]
      refine .tags hkind ?_ (hsession ▸ hpresent) (hsession ▸ h)
      unfold Relays at hrelays ⊢
      rwa [hinbound] at hrelays
  | places hkind hpresent h =>
      rw [hsession, hbody, hquery]
      exact .places hkind (hsession ▸ hpresent) (hsession ▸ h)
  | ends halert hpresent h =>
      rw [hsession]
      exact .ends (hsession ▸ halert) (hsession ▸ hpresent) (hsession ▸ h)
  | answers hkind htype h => exact .answers hkind htype (hsession ▸ h)
  | starts hkind hstaged hspent h =>
      rw [hsession]
      exact .starts hkind (hsession ▸ hstaged) hspent (hsession ▸ h)
  | ticks hkind => exact absurd hkind htick

theorem deed_pumpPlace (c : Lifecycle) (now : UInt32) :
    Deed c .other now (c.pumpPlace now).session (c.pumpPlacePostings now) := by
  unfold pumpPlace pumpPlacePostings
  extract_lets owed stale c'
  have hsame : c'.session = c.session ∧ c'.placeBody = c.placeBody ∧
      c'.placeQueryId = c.placeQueryId ∧ c'.inbound = c.inbound := by
    simp only [c']
    split <;> exact ⟨rfl, rfl, rfl, rfl⟩
  obtain ⟨hsession, hbody, hquery, hinbound⟩ := hsame
  by_cases hnone : owed = c'.placeSent ∨ c'.out.pairBusy = true
  · rw [if_pos hnone, if_pos hnone]
    exact deed_same (by decide) (by rw [hsession])
  · rw [if_neg hnone, if_neg hnone]
    by_cases habsent : c'.session.present = false
    · rw [if_pos habsent, if_pos habsent]
      exact deed_same (by decide) (congrArg Session.sending hsession)
    · rw [if_neg habsent, if_neg habsent]
      exact Deed.of_same (by decide) hsession hbody hquery hinbound (deed_sendPlace c' owed now)

theorem deed_pumpArrival (c : Lifecycle) (now : UInt32) :
    Deed c .other now (c.pumpArrival now).session (c.arrivalPostings now) := by
  unfold pumpArrival arrivalPostings
  by_cases hnone : (c.arrivalOwed && !c.out.priorityFull) = false
  · rw [if_pos hnone, if_pos hnone]
    exact deed_same (by decide) rfl
  · rw [if_neg hnone, if_neg hnone]
    by_cases habsent : c.session.present = false
    · rw [if_pos habsent, if_pos habsent]
      exact deed_same (by decide) rfl
    · rw [if_neg habsent, if_neg habsent]
      exact deed_emitPlacement c [] now (by decide)

theorem deed_pumpPeerBoardSession (c : Lifecycle) (now : UInt32) (curve : P256) :
    Deed c .other now (c.pumpPeerBoardSession now).session
      (c.postings curve (.pumpPeerBoardSession now)) := by
  have hsame : (c.judgePeerBoard now).session = c.session ∧
      (c.judgePeerBoard now).placeBody = c.placeBody ∧
      (c.judgePeerBoard now).placeQueryId = c.placeQueryId ∧
      (c.judgePeerBoard now).inbound = c.inbound := by
    unfold judgePeerBoard
    simp only
    split <;> exact ⟨rfl, rfl, rfl, rfl⟩
  obtain ⟨hsession, hbody, hquery, hinbound⟩ := hsame
  show Deed c .other now ((c.judgePeerBoard now).tellPeerBoard _ now).session
    ((c.judgePeerBoard now).peerBoardPostings _ now)
  generalize c.judgePeerBoard now = judged at hsession hbody hquery hinbound
  refine Deed.of_same (by decide) hsession hbody hquery hinbound ?_
  unfold tellPeerBoard peerBoardPostings
  generalize (if judged.peerBoardSession then (1 : UInt8) else 0) = live
  by_cases hnone : judged.session.present = false ∨ judged.out.priorityFull = true ∨
      judged.peerBoardTold = live
  · rw [if_pos hnone, if_pos hnone]
    exact deed_same (by decide) rfl
  · rw [if_neg hnone, if_neg hnone]
    exact deed_emitPlacement judged [live] now (by decide)

theorem deed_pumpQuery (c : Lifecycle) (now : UInt32) (taken : Bool) :
    Deed c .other now (c.pumpQuery now taken).session (c.queryPostings now) := by
  unfold pumpQuery queryPostings askCursor
  by_cases hnone : c.cursorQueryOrigin = .none
  · rw [if_pos hnone, if_pos hnone]
    exact deed_same (by decide) rfl
  · rw [if_neg hnone, if_neg hnone]
    by_cases habsent : c.session.present = false
    · rw [if_pos habsent, if_pos habsent]
      exact deed_same (by decide) rfl
    · rw [if_neg habsent, if_neg habsent]
      exact deed_emitPlacement c [c.cursorQueryId] now (by decide)

theorem deed_pumpInbound (c : Lifecycle) (now : UInt32) :
    Deed c .other now (c.pumpInbound now).2.session (c.inboundPostings now) := by
  unfold pumpInbound inboundPostings
  cases hpeek : c.inbound.peek with
  | none => exact deed_same (by decide) rfl
  | some bytes =>
      simp only [tagInbound]
      cases hdecode : decode bytes with
      | error fault => exact deed_same (by decide) rfl
      | ok decoded =>
          obtain ⟨view, count⟩ := decoded
          simp only
          cases hemit : c.session.emitRelayed view maxFrame with
          | mk rc session =>
              cases rc with
              | error fault =>
                  cases emitRelayed_error hemit
                  exact deed_same (by decide) rfl
              | ok tagged => exact deed_emit (.inr ⟨bytes, count, hpeek, hdecode⟩) hemit rfl now

theorem deed_endSession (c : Lifecycle) {kind : EventKind} (hkind : kind ≠ .tick)
    (reason : EndReason) (now : UInt32) :
    Deed c kind now (c.endSession reason now).session (c.endPostings reason now) := by
  unfold endSession endPostings
  by_cases habsent : c.session.present = false
  · rw [finish_absent habsent]
    exact deed_same hkind rfl
  · have hpresent : c.session.present = true := by simpa using habsent
    rw [finish, if_neg habsent]
    cases hframe : encodeTagged Msg.sessionEnd 0 c.session.kB2h c.session.txCounter
        (reason.byte :: Bytes.littleEndian 4 (0 : UInt32).toNat) replyMax with
    | error fault => exact .drops c.session.alertPending id rfl
    | ok bytes =>
        have hbytes := (frame_ok hframe).1
        cases bytes with
        | nil => exact .drops c.session.alertPending id rfl
        | cons type rest =>
            simp only
            have hpost : ({ c with session := c.session.drop } : Lifecycle).posting c.nextTag
                (type :: rest) now =
                c.session.sending.post Msg.sessionEnd 0
                  (reason.byte :: Bytes.littleEndian 4 (0 : UInt32).toNat)
                  (({ c with session := c.session.drop } : Lifecycle).queue
                    (type :: rest) now).1 := by
              rw [hbytes]
              rfl
            rw [hpost]
            have hkeeps : c.session.alertPending = true → c.session.alertPending = true := id
            refine .ends hkeeps hpresent ?_
            rw [sending_queue]
            rfl

/-- The session after the listener window was closed. -/
theorem sending_closeListenerWindow (s : Session) (now : UInt32) :
    ∃ alert, (s.alertPending = true → alert = true) ∧
      (s.closeListenerWindow now).sending = { s.sending with alertPending := alert } := by
  unfold closeListenerWindow
  split
  · exact ⟨s.alertPending, id, rfl⟩
  · split
    · exact ⟨s.alertPending, id, rfl⟩
    · simp only
      split
      · exact ⟨true, fun _ ↦ rfl, rfl⟩
      · exact ⟨s.alertPending, id, rfl⟩

/-- What is owed after a frame of a type was queued. -/
theorem sending_noteOwedSent (s : Session) (type : UInt8) :
    (s.noteOwedSent type).sending = s.sending.cleared type := by
  unfold noteOwedSent
  by_cases halert : type = Msg.listenerAlert
  · subst halert
    simp [Msg.listenerAlert, Msg.clipPolicy, Msg.deviceDrops, sending, Sending.cleared]
  · by_cases hpolicy : type = Msg.clipPolicy
    · subst hpolicy
      simp [Msg.listenerAlert, Msg.clipPolicy, Msg.deviceDrops, sending, Sending.cleared]
    · by_cases hdrops : type = Msg.deviceDrops
      · subst hdrops
        simp [Msg.listenerAlert, Msg.clipPolicy, Msg.deviceDrops, sending, Sending.cleared]
      · simp [halert, hpolicy, hdrops, sending, Sending.cleared]

/-- What a tick of a session tells: nothing, its end, or what it owes next. -/
inductive Tells (s : Session) (now : UInt32) : Except FrameFault (List UInt8) × Session → Prop
  | nothing {alert : Bool} {s' : Session} (halert : s.alertPending = true → alert = true)
      (hidle : s.present = true → now - s.lastSentMs < heartbeatMs)
      (h : s'.sending = { s.sending with alertPending := alert }) : Tells s now (.ok [], s')
  | ends {alert : Bool} (body : List UInt8) {s' : Session} {fault : Except FrameFault (List UInt8)}
      (halert : s.alertPending = true → alert = true) (hpresent : s.present = true)
      (hframe : ∀ bytes, fault = .ok bytes →
        bytes = (builtView Msg.sessionEnd 0 s.kB2h s.txCounter.toNat body).bytes)
      (h : s'.sending = ({ s.sending with alertPending := alert } : Sending).drop) :
      Tells s now (fault, s')
  | owes {alert : Bool} {type : UInt8} {body : List UInt8} {s' : Session}
      (halert : s.alertPending = true → alert = true) (hpresent : s.present = true)
      (howes : Owes { s.sending with alertPending := alert } now type body)
      (h : s'.sending =
        ({ s.sending with alertPending := alert } : Sending).spent.stamped type now) :
      Tells s now (.ok (builtView type 0 s.kB2h s.txCounter.toNat body).bytes, s')

theorem tells_tickFrame {s closed : Session} {now : UInt32} {alert : Bool} {type : UInt8}
    {body : List UInt8} {after : Session → Session}
    (halert : s.alertPending = true → alert = true) (hpresent : s.present = true)
    (hclosed : closed.sending = { s.sending with alertPending := alert })
    (howes : Owes closed.sending now type body)
    (hafter : ∀ s : Session, (after s).sending = s.sending.stamped type now) :
    Tells s now (closed.tickFrame type body replyMax after) := by
  have hkey : closed.kB2h = s.kB2h := congrArg Sending.kB2h hclosed
  have hcounter : closed.txCounter = s.txCounter := congrArg Sending.txCounter hclosed
  have hframe : encodeTagged type 0 closed.kB2h closed.txCounter body replyMax =
      .ok (builtView type 0 s.kB2h s.txCounter.toNat body).bytes := by
    have hshort := howes.short
    rw [← hkey, ← hcounter]
    exact frame_fits (hshort.trans (by decide)) ((Nat.add_le_add_left hshort _).trans (by decide))
  rw [tickFrame, hframe]
  refine .owes halert hpresent (hclosed ▸ howes) ?_
  have hspent : ({ closed with txCounter := closed.txCounter + 1 } : Session).sending =
      closed.sending.spent := rfl
  rw [hafter, hspent, hclosed]

theorem tells_tick (s : Session) (now : UInt32) : Tells s now (s.tick now replyMax) := by
  obtain ⟨alert, halert, hclosed⟩ := sending_closeListenerWindow s now
  unfold tick
  simp only
  generalize s.closeListenerWindow now = closed at hclosed
  have hpresent : closed.present = s.present := congrArg Sending.present hclosed
  have hkey : closed.kB2h = s.kB2h := congrArg Sending.kB2h hclosed
  have hcounter : closed.txCounter = s.txCounter := congrArg Sending.txCounter hclosed
  have hsent : ∀ {type : UInt8}, type ≠ Msg.deviceDrops → ∀ s : Session,
      (s.noteSent now).sending = s.sending.stamped type now := by
    intro type hother s
    simp only [Sending.stamped, if_neg hother]
    rfl
  by_cases habsent : closed.present = false
  · rw [if_pos habsent]
    exact .nothing halert (fun hpresent' ↦ absurd (hpresent.trans hpresent') (by simp [habsent]))
      hclosed
  · have hhere : s.present = true := by
      rw [← hpresent]
      simpa using habsent
    rw [if_neg habsent]
    split
    · rw [finish, if_neg habsent]
      refine .ends (EndReason.livenessTimeout.byte ::
        Bytes.littleEndian 4 (now - closed.lastSeenMs).toNat) halert hhere
          (fun bytes hbytes ↦ ?_) ?_
      · exact hcounter ▸ hkey ▸ (frame_ok hbytes).1
      · rw [sending_drop, hclosed]
    · split
      · rename_i hpolicy
        exact tells_tickFrame halert hhere hclosed (.clipPolicy hpolicy) (hsent (by decide))
      · rename_i hpolicy
        have hpolicy' : closed.clipPolicyOwed = false := by simpa using hpolicy
        split
        · rename_i hpending
          exact tells_tickFrame halert hhere hclosed (.listenerAlert hpolicy' hpending (by simp))
            (hsent (by decide))
        · rename_i hpending
          have hpending' : closed.alertPending = false := by simpa using hpending
          split
          · rename_i hdue
            refine tells_tickFrame halert hhere hclosed
              (.deviceDrops hpolicy' hpending' hdue.1 hdue.2) ?_
            exact fun _ ↦ rfl
          · rename_i hdue
            split
            · rename_i hbusy
              have hsame : closed.lastSentMs = s.lastSentMs := congrArg Sending.lastSentMs hclosed
              exact .nothing halert (fun _ ↦ hsame ▸ hbusy) hclosed
            · rename_i hidle
              have hidle' : heartbeatMs ≤ now - closed.lastSentMs := by simpa using hidle
              exact tells_tickFrame halert hhere hclosed
                (.deviceHeartbeat hpolicy' hpending' hdue hidle') (hsent (by decide))

theorem deed_sessionTick (c : Lifecycle) (now : UInt32) :
    Deed c .tick now (c.sessionTick now).session (c.tickPostings now) := by
  have htells := tells_tick c.session now
  unfold sessionTick tickPostings
  generalize c.session.tick now replyMax = ticked at htells
  cases htells with
  | nothing halert hidle h => exact .rests _ halert (fun _ ↦ hidle) h
  | ends body halert hpresent hframe h =>
      rename_i alert s' fault
      cases fault with
      | error _ => exact .drops alert halert h
      | ok bytes =>
          cases bytes with
          | nil => exact .drops alert halert h
          | cons type rest =>
              have hbytes := hframe _ rfl
              simp only
              have hpost : ({ c with session := s' } : Lifecycle).posting c.nextTag (type :: rest)
                  now = c.session.sending.post Msg.sessionEnd 0 body
                    (({ c with session := s' } : Lifecycle).queue (type :: rest) now).1 := by
                rw [hbytes]
                rfl
              rw [hpost]
              refine .ends halert hpresent ?_
              generalize hqueued : ({ c with session := s' } : Lifecycle).queue (type :: rest) now =
                offered
              have hsending := sending_queue { c with session := s' } (type :: rest) now
              rw [hqueued, h] at hsending
              -- the end of a session is none of the messages the note releases
              have htype : type = Msg.sessionEnd := by
                rw [FrameView.bytes, headerBytes] at hbytes
                exact (List.cons.inj hbytes).1
              rw [htype]
              split
              · rw [sending_noteOwedSent, hsending]
                simp [Sending.cleared, Msg.sessionEnd, Msg.listenerAlert, Msg.clipPolicy,
                  Msg.deviceDrops]
              · exact hsending
  | owes halert hpresent howes h =>
      rename_i alert type body s'
      cases hbytes : (builtView type 0 c.session.kB2h c.session.txCounter.toNat body).bytes with
      | nil =>
          rw [FrameView.bytes, headerBytes] at hbytes
          cases hbytes
      | cons head rest =>
          simp only
          have hhead : head = type := by
            rw [FrameView.bytes, headerBytes] at hbytes
            exact (List.cons.inj hbytes).1.symm
          have hpost : ({ c with session := s' } : Lifecycle).posting c.nextTag (head :: rest)
              now = c.session.sending.post type 0 body
                (({ c with session := s' } : Lifecycle).queue (head :: rest) now).1 := by
            rw [← hbytes]
            rfl
          have hlane : (({ c with session := s' } : Lifecycle).queue (head :: rest) now).1 =
              !c.out.priorityFull := by
            rw [← hbytes]
            exact queue_priority { c with session := s' } howes.lane.1 howes.lane.2
              ((Nat.add_le_add_right howes.short _).trans (by decide)) now
          rw [hpost, hlane]
          refine .ticks rfl halert hpresent howes ?_
          generalize hqueued : ({ c with session := s' } : Lifecycle).queue (head :: rest) now =
            offered at hlane
          have hsending := sending_queue { c with session := s' } (head :: rest) now
          rw [hqueued, h] at hsending
          rw [hhead, Sending.told, ← hlane]
          cases hok : offered.1 with
          | true =>
              simp only [if_true]
              rw [sending_noteOwedSent, hsending, hok]
          | false =>
              simp only [Bool.false_eq_true, if_false]
              rw [hsending, hok]

/-! ## A frame answered -/

/-- The answer of the session layer is queued on what it left. -/
theorem channelOnFrame_eq (curve : P256) (c : Lifecycle) (view : FrameView) (now : UInt32) :
    c.channelOnFrame curve view now =
      match (c.session.onFrame curve c.pair view now replyMax).1 with
      | .ok (type :: rest) => ((c.answering curve view now).queue (type :: rest) now).2
      | _ => c.answering curve view now := by
  unfold channelOnFrame answering
  generalize c.session.onFrame curve c.pair view now replyMax = answer
  obtain ⟨rc, session, pair⟩ := answer
  cases rc with
  | error fault => rfl
  | ok bytes => cases bytes <;> rfl

/-- What is written without a tag begins with its type. -/
theorem encode_head {type flags : UInt8} {payload : List UInt8} {cap : Nat} {head : UInt8}
    {rest : List UInt8} (h : encode type flags payload cap = .ok (head :: rest)) : head = type := by
  unfold encode at h
  split at h
  · cases h
  · split at h
    · cases h
    · split at h
      · cases h
      · rw [headerBytes] at h
        injection h with h
        exact (List.cons.inj h).1.symm

/-- A request to pair is answered without a tag. -/
theorem answerPairRequest_untagged {curve : P256} {pair : Pair} {view : FrameView} {now : UInt32}
    {cap : Nat} {head : UInt8} {rest : List UInt8}
    (h : (answerPairRequest curve pair view now cap).1 = .ok (head :: rest)) :
    untagged head = true := by
  unfold answerPairRequest at h
  split at h
  · cases h
  · split at h
    · rw [encode_head h]
      decide
    · cases h
    · cases h
    · dsimp only [pairRefusedEncode] at h
      rw [encode_head h]
      decide
    · dsimp only [pairRefusedEncode] at h
      rw [encode_head h]
      decide

/-- The answer to a hello: a refusal, nothing, or the ack of a session that has just started. -/
inductive Greets (s : Session) (now : UInt32) : Except FrameFault (List UInt8) × Session → Prop
  | refuses {rest : List UInt8} : Greets s now (.ok (Msg.helloRefused :: rest), s)
  | silent {s' : Session} (h : s'.sending = s.sending) : Greets s now (.ok [], s')
  | acks {hello : Hello} {sharedSecret body rest : List UInt8} {s' : Session}
      (hstaged : s.nonceStaged = true) (hspent : s'.nonceStaged = false)
      (hframe : Msg.helloAck :: rest = (builtView Msg.helloAck 0
        (deriveSessionKeys sharedSecret hello.helperNonce s.stagedNonce).2 0 body).bytes)
      (hshort : authPrefixSize + body.length + headerSize ≤ priorityMax)
      (h : s'.sending = (s.sending.begun (negotiateChannels hello.channelCount)
        (deriveSessionKeys sharedSecret hello.helperNonce s.stagedNonce).2 now).spent) :
      Greets s now (.ok (Msg.helloAck :: rest), s')

theorem greets_answerHello {s : Session} (hnonce : s.stagedNonce.length ≤ nonceSize) (pair : Pair)
    (view : FrameView) (now : UInt32) : Greets s now (s.answerHello pair view now replyMax) := by
  unfold answerHello
  cases s.helloVerdict pair view with
  | refused correlation status =>
      obtain ⟨rest, hrefusal⟩ := refuseHello_fits correlation status
      simp only
      rw [hrefusal]
      exact .refuses
  | silent => exact .silent (sameButRefusals_noteRefused s now true).sending_eq
  | proved hello sharedSecret =>
      simp only
      split
      · exact .silent rfl
      · rename_i hstaged
        have hack : (s.helloAck hello).boardNonce.length ≤ nonceSize := hnonce
        obtain ⟨rest, hfits⟩ := helloAckEncode_fits hack
          (deriveSessionKeys sharedSecret hello.helperNonce s.stagedNonce).2 (0 : UInt64).toNat
        unfold startSession
        simp only
        rw [hfits]
        refine .acks (by simpa using hstaged) rfl (frame_ok hfits).1 ?_ rfl
        have hwithin := frame_within hfits
        have hroom : replyMax ≤ priorityMax := by decide
        omega

theorem deed_channelOnFrame {curve : P256} {c : Lifecycle}
    (hnonce : c.session.stagedNonce.length ≤ nonceSize) (view : FrameView) (now : UInt32) :
    Deed c .report now (c.channelOnFrame curve view now).session
      (c.answerPostings curve view now) := by
  rw [channelOnFrame_eq]
  unfold answerPostings
  by_cases hhello : view.type = Msg.hello
  · have hgreets := greets_answerHello hnonce c.pair view now
    have hanswer : c.session.onFrame curve c.pair view now replyMax =
        ((c.session.answerHello c.pair view now replyMax).1,
          (c.session.answerHello c.pair view now replyMax).2, c.pair) := by
      rw [Session.onFrame, if_pos hhello]
    unfold answering
    rw [hanswer]
    generalize c.session.answerHello c.pair view now replyMax = answer at hgreets
    -- what the hello did is already split into its three outcomes
    cases hgreets with
    | refuses =>
        simp only
        rw [if_neg (by decide), if_neg (by decide)]
        exact .answers rfl (by decide) (sending_queue _ _ _)
    | silent h => exact deed_same (by decide) h
    | acks hstaged hspent hframe hshort h =>
        rename_i hello sharedSecret body rest s'
        simp only [if_true]
        have hkey : s'.kB2h =
            (deriveSessionKeys sharedSecret hello.helperNonce c.session.stagedNonce).2 :=
          congrArg Sending.kB2h h
        generalize hfresh : freshStream _ = fresh
        have hsession : fresh.session = s' := by rw [← hfresh]; rfl
        have hpost : fresh.posting (some (fresh.session.kB2h, 0)) (Msg.helloAck :: rest) now =
            (c.session.sending.begun (negotiateChannels hello.channelCount)
              (deriveSessionKeys sharedSecret hello.helperNonce c.session.stagedNonce).2 now).post
              Msg.helloAck 0 body (fresh.queue (Msg.helloAck :: rest) now).1 := by
          rw [hsession, hkey, posting, hframe]
          rfl
        -- a new session starts from an empty stream, so the ack always finds room
        have hqueued : (fresh.queue (Msg.helloAck :: rest) now).1 = true := by
          have hempty : fresh.out.priorityFull = false := by
            rw [← hfresh]
            rfl
          rw [hframe, queue_priority fresh rfl rfl hshort now, hempty]
          rfl
        rw [hpost, hqueued]
        have hsending := sending_queue fresh (Msg.helloAck :: rest) now
        rw [hsession, h] at hsending
        refine .starts rfl hstaged ?_ ?_
        · have hstage : (fresh.queue (Msg.helloAck :: rest) now).2.session.nonceStaged =
              fresh.session.nonceStaged := by
            simp only [queue, track]
            split <;> rfl
          rw [hstage, hsession, hspent]
        · rw [hsending]
          simp [Sending.charged, Sending.spent, Sending.begun]
  · -- every answer but the ack of a hello carries no tag
    have hreply : ∀ head rest, (c.session.onFrame curve c.pair view now replyMax).1 =
        .ok (head :: rest) → untagged head = true := by
      intro head rest hok
      rw [Session.onFrame, if_neg hhello] at hok
      split at hok
      · exact answerPairRequest_untagged hok
      · split at hok <;> cases hok
    have hsending : (c.session.onFrame curve c.pair view now replyMax).2.1.sending =
        c.session.sending := by
      rw [Session.onFrame, if_neg hhello]
      split
      · rfl
      · split
        · exact sending_authenticate _ _ _
        · rfl
    unfold answering
    generalize c.session.onFrame curve c.pair view now replyMax = answer at hreply hsending
    obtain ⟨rc, session, pair⟩ := answer
    cases rc with
    | error fault => exact deed_same (by decide) hsending
    | ok bytes =>
        cases bytes with
        | nil => exact deed_same (by decide) hsending
        | cons head rest =>
            have huntagged := hreply head rest rfl
            have hnotAck : head ≠ Msg.helloAck := by
              rintro rfl
              cases huntagged
            simp only [if_neg hnotAck]
            refine .answers rfl huntagged ?_
            rw [sending_queue, ← hsending]

/-- The nonce of a session is never longer than one. -/
def NonceFits (c : Lifecycle) : Prop := c.session.stagedNonce.length ≤ nonceSize

theorem deed_drainReport {curve : P256} (hnonce : c.NonceFits) (now : UInt32) :
    Deed c .report now (c.drainReport curve now).2.session (c.drainPostings curve now) := by
  have hread : ∀ {rc : Except FrameFault FrameView} {index : Nat} {c' : Lifecycle},
      c.takeReport = some (rc, index, c') → c'.session = c.session ∧ c'.placeBody = c.placeBody ∧
        c'.placeQueryId = c.placeQueryId ∧ c'.inbound = c.inbound := by
    intro rc index c' htake
    rw [takeReport_rest htake]
    exact ⟨rfl, rfl, rfl, rfl⟩
  unfold drainReport drainPostings
  cases htake : c.takeReport with
  | none => exact deed_same (by decide) rfl
  | some taken =>
      obtain ⟨rc, index, c'⟩ := taken
      obtain ⟨hsession, hbody, hquery, hinbound⟩ := hread htake
      cases rc with
      | error fault =>
          have hreport : EventKind.report ≠ .tick := by decide
          have hended := Deed.of_same hreport hsession hbody hquery hinbound
            (deed_endSession c' hreport .protocolError now)
          cases fault with
          | again => exact deed_same (by decide) (by rw [hsession])
          | _ => exact hended
      | ok view =>
          simp only
          by_cases hon : c'.handsOn index view = true
          · rw [if_pos hon]
            unfold onFrame
            cases hhere : authenticatesHere view.type with
            | true =>
                rw [if_pos rfl, if_neg (by simp)]
                have hauth := sending_authenticate c'.session view now
                rw [hsession] at hauth
                generalize hresult : c'.session.authenticate view now = result
                rw [← hsession, hresult] at hauth
                obtain ⟨rc, session⟩ := result
                cases rc with
                | error fault => exact deed_same (by decide) (hsession ▸ hauth)
                | ok body =>
                    simp only
                    split <;> exact deed_same (by decide) (hsession ▸ hauth)
            | false =>
                rw [if_neg (by simp), if_pos ⟨hon, rfl⟩]
                refine Deed.of_same (by decide) hsession hbody hquery hinbound
                  (deed_channelOnFrame ?_ view now)
                rw [hsession]
                exact hnonce
          · rw [if_neg hon, if_neg fun hboth ↦ hon hboth.1]
            exact deed_same (by decide) (by rw [hsession])

/-- Every event does one of the deeds. -/
theorem deed_step {curve : P256} (hnonce : c.NonceFits) (event : Event) {now : UInt32}
    (hnow : ∀ stamp ∈ event.now, stamp = now) :
    Deed c event.kind now (c.step curve event).session (c.postings curve event) := by
  have hother : EventKind.other ≠ .tick := by decide
  cases event with
  | receiveReport index buffer =>
      apply deed_same hother
      show (c.receiveChannelReport index buffer).session.sending = _
      unfold receiveChannelReport
      split
      · rfl
      · simp only
        split <;> rfl
  | drainReport stamp =>
      obtain rfl := hnow stamp rfl
      exact deed_drainReport hnonce stamp
  | pumpPlace stamp =>
      obtain rfl := hnow stamp rfl
      exact deed_pumpPlace c stamp
  | pumpQuery stamp taken =>
      obtain rfl := hnow stamp rfl
      exact deed_pumpQuery c stamp taken
  | pumpArrival stamp =>
      obtain rfl := hnow stamp rfl
      exact deed_pumpArrival c stamp
  | pumpPeerBoardSession stamp =>
      obtain rfl := hnow stamp rfl
      exact deed_pumpPeerBoardSession c stamp curve
  | pumpInbound stamp =>
      obtain rfl := hnow stamp rfl
      exact deed_pumpInbound c stamp
  | updateConfig clipFlags capMb => exact .configures c.deviceDrops clipFlags capMb rfl rfl
  | sessionTick stamp =>
      obtain rfl := hnow stamp rfl
      exact deed_sessionTick c stamp
  | configWiped stamp =>
      obtain rfl := hnow stamp rfl
      exact deed_endSession c hother .unpaired stamp
  | linkLost => exact .drops c.session.alertPending id rfl
  | stageNonce nonce =>
      -- this event and those below neither tag nor charge anything
      apply deed_same hother
      show (c.stageNonce nonce).session.sending = _
      unfold stageNonce
      split <;> rfl
  | pumpRelay taken =>
      apply deed_same hother
      show (c.pumpRelay taken).2.session.sending = _
      unfold pumpRelay
      split
      · rfl
      · split <;> rfl
  | pumpOut index taken =>
      apply deed_same hother
      show (c.pumpOut index taken).session.sending = _
      unfold pumpOut
      split
      · rfl
      · split <;> rfl
  | owePlace body queryId stamp =>
      apply deed_same hother
      show (c.owePlace body queryId stamp).session.sending = _
      unfold owePlace
      split <;> rfl
  | queryCursor origin queryId =>
      apply deed_same hother
      show (c.queryCursor origin queryId).session.sending = _
      unfold queryCursor
      split
      · rfl
      · split <;> rfl
  | peerPacket packet =>
      apply deed_same hother
      show (c.peerPacket packet).session.sending = _
      unfold peerPacket
      split <;> rfl
  | saveRegistration | pairTick | relayYield | openPairingWindow | arrive | peerBoardHeartbeat =>
      exact deed_same hother rfl

/-! ## The nonce -/

/-- The nonce is the same, and staged only if it was. -/
structure NonceKept (s s' : Session) : Prop where
  same : s'.stagedNonce = s.stagedNonce
  staged : s'.nonceStaged = true → s.nonceStaged = true

theorem NonceKept.of_core {s s' : Session} (h : s'.core = s.core) : NonceKept s s' where
  same := congrArg Core.stagedNonce h
  staged hstaged := (congrArg Core.nonceStaged h).symm.trans hstaged

theorem nonceKept_authenticate (s : Session) (view : FrameView) (now : UInt32) :
    NonceKept s (s.authenticate view now).2 := by
  have hrx : ∀ {rx : AuthCounter} {s' : Session}, NonceKept { s with rx := rx } s' →
      NonceKept s s' := fun h ↦ ⟨h.same, h.staged⟩
  unfold authenticate
  split
  · exact .of_core rfl
  · split
    · exact .of_core rfl
    · split
      · exact .of_core (core_noteReceived s now)
      · split
        · exact hrx (.of_core (sameButRefusals_noteRefused _ now false).core_eq)
        · exact hrx (.of_core (core_noteReceived _ now))

theorem nonceKept_onFrame (curve : P256) (s : Session) (pair : Pair) (view : FrameView)
    (now : UInt32) (cap : Nat) : NonceKept s (s.onFrame curve pair view now cap).2.1 := by
  unfold Session.onFrame
  split
  · show NonceKept s (s.answerHello pair view now cap).2
    unfold answerHello
    split
    · exact .of_core rfl
    · exact .of_core (sameButRefusals_noteRefused s now true).core_eq
    · split
      · exact .of_core rfl
      · rename_i hstaged
        refine ⟨?_, fun _ ↦ by simpa using hstaged⟩
        unfold startSession
        simp only
        split <;> rfl
  · split
    · exact .of_core rfl
    · split
      · exact nonceKept_authenticate s view now
      · exact .of_core rfl

/-- A nonce stays until it is spent, and no event but the one that stages it brings one. -/
theorem nonceKept_step (curve : P256) (c : Lifecycle) (event : Event)
    (hstaging : ∀ nonce, event ≠ .stageNonce nonce) :
    NonceKept c.session (c.step curve event).session := by
  rcases step_cases curve c event with ⟨nonce, rfl⟩ | ⟨handing, hhanding, -, hstep⟩ | ⟨-, -, hmoves⟩
  · exact absurd rfl (hstaging nonce)
  · have hchannel : handing.channel.session = c.session := by rw [handing_rest hhanding]
    rw [hstep, ← hchannel]
    unfold onFrame
    split
    · have hauth := nonceKept_authenticate handing.channel.session handing.view handing.now
      generalize handing.channel.session.authenticate handing.view handing.now = judged at hauth
      obtain ⟨rc, session⟩ := judged
      cases rc with
      | error fault => exact hauth
      | ok body =>
          simp only
          split <;> exact hauth
    · rename_i hsession
      have hcore := (channelOnFrame_spec curve handing.channel handing.view handing.now
        (by simpa using hsession)).1
      have hframe := nonceKept_onFrame curve handing.channel.session handing.channel.pair
        handing.view handing.now replyMax
      have hkept := NonceKept.of_core hcore
      exact ⟨hkept.same.trans hframe.same, fun h ↦ hframe.staged (hkept.staged h)⟩
  · rcases hmoves.core with hcore | hcore
    · exact .of_core hcore
    · exact ⟨congrArg Core.stagedNonce hcore, (congrArg Core.nonceStaged hcore).symm.trans⟩

theorem nonceFits_step (curve : P256) (h : c.NonceFits) (event : Event) :
    (c.step curve event).NonceFits := by
  by_cases hstage : ∃ nonce, event = .stageNonce nonce
  · obtain ⟨nonce, rfl⟩ := hstage
    show (c.stageNonce nonce).session.stagedNonce.length ≤ nonceSize
    unfold stageNonce
    split
    · exact h
    · exact List.length_take_le _ _
  · have hkept := nonceKept_step curve c event fun nonce heq ↦ hstage ⟨nonce, heq⟩
    rw [NonceFits, hkept.same]
    exact h

theorem nonceFits_boot (curve : P256) (buildType : BuildType) (identity : Option (List UInt8))
    (registration : Option (List UInt8 × List UInt8)) :
    (boot curve buildType identity registration).NonceFits := by
  show (List.replicate nonceSize (0 : UInt8)).length ≤ nonceSize
  simp

end Lifecycle

end DeskhopPlus.Board
