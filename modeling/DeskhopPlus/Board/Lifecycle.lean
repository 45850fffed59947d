import DeskhopPlus.Board.Relay
import DeskhopPlus.Board.Session
import DeskhopPlus.Outq.Pump
import DeskhopPlus.Wire.Reader

/-!
# The channel of one board

`channel_lifecycle.c` with the entry points of `channel.c`: reports from the host become frames,
frames are answered, relayed to the peer board or dropped, and what the peer board sent is tagged
for the helper. `Event` names everything that can happen to the channel, one turn of each loop of
`channel_lifecycle_step` at a time, so that a run of events may mix the two cores and the host in
any order; a call of `channel_lifecycle_step` is one such run.

Two channels exist, so an array of the source with one element per channel is a pair of fields.
What the callbacks outside the channel answer (was the packet taken, what is the clipboard policy)
comes with the event.
-/

namespace DeskhopPlus.Board

open Bytes Wire Outq Auth Crypto Runs

/-- `CHANNEL_REPORT_BACKLOG`. -/
def reportBacklog : Nat := 32

/-- `CHANNEL_PEER_BOARD_SILENT_MS`. -/
def peerBoardSilentMs : UInt32 := 3000

/-- `CHANNEL_PEER_BOARD_UNTOLD`. -/
def peerBoardUntold : UInt8 := 0xFF

/-- `CHANNEL_PLACE_STALE_MS`. -/
def placeStaleMs : UInt32 := 30

/-- `DH_PLACE_BODY_SIZE`. -/
def placeBodySize : Nat := 5

/-- `DH_POS_QUERY_BODY_SIZE`. -/
def posQueryBodySize : Nat := 1

/-- `channel_query_origin`. -/
inductive QueryOrigin where
  | none
  | home
  | peer
  deriving DecidableEq, Repr

/-- A report the USB callback left, with the channel it came in on. -/
structure Report where
  bytes : List UInt8
  channel : Nat
  deriving DecidableEq, Repr

/-- `channel_lifecycle`. `reports` is the ring of reports, oldest first. -/
structure Lifecycle where
  session : Session
  pair : Pair
  out : Outq
  extraOut : Outq
  nextStriped : UInt8
  txDropped : Nat
  reader : FrameReader
  extraReader : FrameReader
  reports : List Report
  reportsDropped : UInt32
  reportsIn : Nat
  relayTx : RelayTx
  relayRx : RelayRx
  inbound : Inq
  registrationUnsaved : Bool
  cursorQueryOrigin : QueryOrigin
  cursorQueryId : UInt8
  arrivalOwed : Bool
  placeOwed : UInt32
  placeSent : UInt32
  placeOwedAt : UInt32
  placeBody : List UInt8
  placeQueryId : UInt8
  peerBoardBeat : Bool
  peerBoardBeatSession : Bool
  peerBoardSession : Bool
  peerBoardBeatAt : UInt32
  peerBoardTold : UInt8

namespace Lifecycle

/-! ## The channels -/

/-- `channel_lifecycle_output`. -/
def output (c : Lifecycle) (index : Nat) : Outq := if index = 0 then c.out else c.extraOut

/-- Write the queue of a channel back. -/
def setOutput (c : Lifecycle) (index : Nat) (q : Outq) : Lifecycle :=
  { c with
    out := if index = 0 then q else c.out
    extraOut := if index = 0 then c.extraOut else q }

/-- The reader of a channel. -/
def inputReader (c : Lifecycle) (index : Nat) : FrameReader :=
  if index = 0 then c.reader else c.extraReader

/-- Write the reader of a channel back. -/
def setReader (c : Lifecycle) (index : Nat) (r : FrameReader) : Lifecycle :=
  { c with
    reader := if index = 0 then r else c.reader
    extraReader := if index = 0 then c.extraReader else r }

/-- `reset_readers`. -/
def resetReaders (c : Lifecycle) : Lifecycle :=
  { c with reader := FrameReader.init, extraReader := FrameReader.init }

/-- `reset_output`. -/
def resetOutput (c : Lifecycle) : Lifecycle :=
  { c with out := c.out.reset, extraOut := c.extraOut.reset, nextStriped := 0 }

/-- `dh_txq_track` over the channel's own count. -/
def track (c : Lifecycle) (enqueued : Bool) : Lifecycle :=
  { c with txDropped := if enqueued then c.txDropped else saturate c.txDropped }

/-- The channels in use, one of them before a session has negotiated. -/
def channelsInUse (c : Lifecycle) : UInt8 :=
  if c.session.channelCount = 0 then 1 else c.session.channelCount

/-- Whether a frame rotates across the channels. -/
def striped (frame : List UInt8) : Bool := frame.head?.any Msg.isStriped

/-- The channel a frame goes out on. -/
def outputIndex (c : Lifecycle) (frame : List UInt8) : UInt8 :=
  if striped frame then c.nextStriped % c.channelsInUse else 0

/-- `channel_lifecycle_queue`: was the frame queued, and the channel after it. -/
def queue (c : Lifecycle) (frame : List UInt8) (now : UInt32) : Bool × Lifecycle :=
  let index := c.outputIndex frame
  let offered := (c.output index.toNat).offer frame
  let queued := offered.1 = .ok
  (queued,
    { c.setOutput index.toNat offered.2 with
      nextStriped := if queued ∧ striped frame then (index + 1) % c.channelsInUse
        else c.nextStriped
      session := if queued then c.session.noteSent now else c.session }.track queued)

/-! ## From the host -/

/-- `channel_lifecycle_receive_channel_report`. -/
def receiveChannelReport (c : Lifecycle) (index : Nat) (buffer : List UInt8) : Lifecycle :=
  if buffer.length = 0 ∨ sessionChannelCount.toNat ≤ index then c
  else
    let c := { c with reportsIn := saturate c.reportsIn }
    if reportBacklog ≤ c.reports.length then { c with reportsDropped := c.reportsDropped + 1 }
    else
      { c with reports := c.reports ++ [{ bytes := buffer.take reportSize, channel := index }] }

/-- The channel after a hello was answered with an ack: what the old stream left is retired. -/
def freshStream (c : Lifecycle) : Lifecycle :=
  { c.resetOutput.resetReaders with
    placeSent := c.placeOwed
    reports := []
    peerBoardTold := peerBoardUntold }

/-- `channel_lifecycle_on_frame`. -/
def channelOnFrame (curve : P256) (c : Lifecycle) (view : FrameView) (now : UInt32) : Lifecycle :=
  let registrations := c.pair.registrations
  let (rc, session, pair) := c.session.onFrame curve c.pair view now replyMax
  let c :=
    { c with
      session := session
      pair := pair
      registrationUnsaved := pair.registrations ≠ registrations || c.registrationUnsaved }
  match rc with
  | .error _ => c
  | .ok [] => c
  | .ok (type :: rest) =>
      let c := if type = Msg.helloAck then c.freshStream else c
      (c.queue (type :: rest) now).2

/-- `relay_to_peer`. The shortened frame is built in the reader's buffer, over the end of the tag
that has just been verified. -/
def relayToPeer (c : Lifecycle) (index : Nat) (view : FrameView) (body : List UInt8) : Lifecycle :=
  let header := headerBytes view.type view.flags body.length
  let reader := c.inputReader index
  let c := c.setReader index { reader with held := overwrite reader.held authPrefixSize header }
  let (offered, relayTx) := c.relayTx.offer (header ++ body)
  { c with relayTx := relayTx }.track (offered = OutqResult.ok)

/-- The types `on_frame` authenticates itself: bulk, the host's sleep, and placements. -/
def authenticatesHere (type : UInt8) : Bool :=
  Msg.isBulk type || type = Msg.hostSleep || (Msg.place ≤ type && type ≤ Msg.posResponse)

/-- `on_frame`. What a position or a sleep report does beyond the channel is not part of it. -/
def onFrame (curve : P256) (c : Lifecycle) (index : Nat) (view : FrameView) (now : UInt32) :
    Lifecycle :=
  if authenticatesHere view.type then
    match c.session.authenticate view now with
    | (.error _, session) => { c with session := session }
    | (.ok body, session) =>
        let c := { c with session := session }
        if Msg.isBulk view.type then c.relayToPeer index view body else c
  else c.channelOnFrame curve view now

/-- `end_session`. -/
def endSession (c : Lifecycle) (reason : EndReason) (now : UInt32) : Lifecycle :=
  let (rc, session) := c.session.finish reason 0 replyMax
  let c := { c with session := session }
  match rc with
  | .error _ => c
  | .ok [] => c
  | .ok (type :: rest) => (c.queue (type :: rest) now).2

/-- The first half of a turn of `drain_reports`: the oldest report goes to its reader. -/
def takeReport (c : Lifecycle) :
    Option (Except FrameFault FrameView × Nat × Lifecycle) :=
  match c.reports with
  | [] => none
  | report :: rest =>
      let (rc, reader) := (c.inputReader report.channel).report report.bytes
      some (rc, report.channel, { c with reports := rest }.setReader report.channel reader)

/-- Whether a frame that came in on a channel is handed on: an extra channel carries bulk only. -/
def handsOn (c : Lifecycle) (index : Nat) (view : FrameView) : Bool :=
  index = 0 || (index < c.session.channelCount.toNat && Msg.isBulk view.type)

/-- One turn of `drain_reports`: does the loop go on, and the channel after it. -/
def drainReport (curve : P256) (c : Lifecycle) (now : UInt32) : Bool × Lifecycle :=
  match c.takeReport with
  | none => (false, c)
  | some (.error .again, _, c) => (true, c)
  | some (.error _, _, c) => (false, (c.endSession .protocolError now).resetReaders)
  | some (.ok view, index, c) =>
      (true, if c.handsOn index view then c.onFrame curve index view now else c)

/-- `channel_lifecycle_link_lost`. -/
def linkLost (c : Lifecycle) : Lifecycle :=
  { c.resetReaders.resetOutput with
    session := c.session.drop
    relayTx := c.relayTx.reset
    relayRx := c.relayRx.reset
    reports := []
    inbound := c.inbound.reset
    cursorQueryOrigin := .none
    cursorQueryId := 0
    placeSent := c.placeOwed }

/-- `channel_lifecycle_open_pairing_window`. -/
def openPairingWindow (c : Lifecycle) (now : UInt32) : Lifecycle :=
  { c with pair := c.pair.openWindow now }

/-- `channel_lifecycle_config_wiped`. -/
def configWiped (c : Lifecycle) (now : UInt32) : Lifecycle :=
  let c := c.endSession .unpaired now
  let c := { c with pair := c.pair.clearRegistration, registrationUnsaved := false }
  c.openPairingWindow now

/-! ## What is owed to the helper -/

/-- `channel_lifecycle_emit_placement`. -/
def emitPlacement (c : Lifecycle) (type : UInt8) (body : List UInt8) (now : UInt32) :
    Bool × Lifecycle :=
  if placeBodySize < body.length then (false, c)
  else
    match c.session.emitRelayed { type := type, flags := 0, payload := body }
        (headerSize + authPrefixSize + placeBodySize) with
    | (.error _, session) => (false, { c with session := session })
    | (.ok frame, session) => { c with session := session }.queue frame now

/-- `channel_lifecycle_owe_place`. -/
def owePlace (c : Lifecycle) (body : List UInt8) (queryId : UInt8) (now : UInt32) : Lifecycle :=
  if c.session.present then
    { c with
      placeBody := body.take placeBodySize
      placeQueryId := queryId
      placeOwedAt := now
      placeOwed := c.placeOwed + 1 }
  else c

/-- The second half of `pump_place`: the two frames are built, and go out together or not at
all. -/
def sendPlace (c : Lifecycle) (owed : UInt32) (now : UInt32) : Lifecycle :=
  match c.session.emitRelayed { type := Msg.place, flags := 0, payload := c.placeBody }
      (headerSize + authPrefixSize + placeBodySize) with
  | (.error _, session) => { c with session := session }
  | (.ok placeFrame, session) =>
      match session.emitRelayed { type := Msg.posQuery, flags := 0, payload := [c.placeQueryId] }
          (headerSize + authPrefixSize + posQueryBodySize) with
      | (.error _, session) => { c with session := session }
      | (.ok queryFrame, session) =>
          let (result, out) := c.out.offerPair placeFrame queryFrame
          let queued := result = .ok
          { c with
            out := out
            session := if queued then session.noteSent now else session
            placeSent := if queued then owed else c.placeSent }.track queued

/-- `pump_place`. -/
def pumpPlace (c : Lifecycle) (now : UInt32) : Lifecycle :=
  let owed := c.placeOwed
  let stale := owed ≠ c.placeSent ∧ placeStaleMs.toInt32 < (now - c.placeOwedAt).toInt32
  let c := if stale then { c with placeSent := owed } else c
  if owed = c.placeSent ∨ c.out.pairBusy = true then c
  else if c.session.present = false then { c with placeSent := owed }
  else c.sendPlace owed now

/-- `channel_lifecycle_arrive`. -/
def arrive (c : Lifecycle) (role newOutput : UInt8) : Lifecycle :=
  { c with arrivalOwed := newOutput = role && c.session.present }

/-- `channel_lifecycle_peer_board_heartbeat`. -/
def peerBoardHeartbeat (c : Lifecycle) (helperSession : Bool) : Lifecycle :=
  { c with peerBoardBeat := true, peerBoardBeatSession := helperSession }

/-- `pump_owed` for the one flag it is called with, the arrival. -/
def pumpArrival (c : Lifecycle) (now : UInt32) : Lifecycle :=
  if (c.arrivalOwed && !c.out.priorityFull) = false then c
  else if c.session.present = false then { c with arrivalOwed := false }
  else
    let (done, c) := c.emitPlacement Msg.arrival [] now
    { c with arrivalOwed := if done then false else c.arrivalOwed }

/-- The rest of a turn of `pump_inbound`, once the slot of a frame is released: the frame is tagged
and queued, and the loop goes on unless the queue refused it. -/
def tagInbound (c : Lifecycle) (bytes : List UInt8) (now : UInt32) : Bool × Lifecycle :=
  match decode bytes with
  | .error _ => (true, c)
  | .ok (view, _) =>
      match c.session.emitRelayed view maxFrame with
      | (.error _, session) => (true, { c with session := session })
      | (.ok tagged, session) => { c with session := session }.queue tagged now

/-- One turn of `pump_inbound`: does the loop go on, and the channel after it. -/
def pumpInbound (c : Lifecycle) (now : UInt32) : Bool × Lifecycle :=
  match c.inbound.peek with
  | none => (false, c)
  | some bytes => { c with inbound := c.inbound.release }.tagInbound bytes now

/-- The first half of `pump_peer_board_session`: the beat is stamped and judged. -/
def judgePeerBoard (c : Lifecycle) (now : UInt32) : Lifecycle :=
  let c :=
    if c.peerBoardBeat then
      { c with
        peerBoardBeat := false
        peerBoardSession := c.peerBoardBeatSession
        peerBoardBeatAt := now }
    else c
  let live := c.peerBoardSession &&
    (now - c.peerBoardBeatAt).toInt32 < peerBoardSilentMs.toInt32
  { c with peerBoardSession := live }

/-- The second half of `pump_peer_board_session`: the helper is told what it has not heard. -/
def tellPeerBoard (c : Lifecycle) (live : UInt8) (now : UInt32) : Lifecycle :=
  if c.session.present = false ∨ c.out.priorityFull = true ∨ c.peerBoardTold = live then c
  else
    let (sent, c) := c.emitPlacement Msg.peerHelper [live] now
    { c with peerBoardTold := if sent then live else c.peerBoardTold }

/-- `pump_peer_board_session`. -/
def pumpPeerBoardSession (c : Lifecycle) (now : UInt32) : Lifecycle :=
  let c := c.judgePeerBoard now
  c.tellPeerBoard (if c.peerBoardSession then 1 else 0) now

/-- `channel_query_cursor` on this board's output and `handle_cursor_query_msg`: a query is taken
when there is a helper and no other query. -/
def queryCursor (c : Lifecycle) (origin : QueryOrigin) (queryId : UInt8) : Lifecycle :=
  if c.session.present = false then c
  else if c.cursorQueryOrigin = .none then
    { c with cursorQueryOrigin := origin, cursorQueryId := queryId }
  else c

/-- The first half of `pump_query`: a query without a helper is answered, or dropped if it is this
board's own, and one with a helper is sent on. -/
def askCursor (c : Lifecycle) (now : UInt32) (taken : Bool) : Bool × Lifecycle :=
  if c.session.present = false then (if c.cursorQueryOrigin = .peer then taken else true, c)
  else c.emitPlacement Msg.posQuery [c.cursorQueryId] now

/-- `pump_query`. `taken` is the answer of `channel_lifecycle_query_unavailable`. -/
def pumpQuery (c : Lifecycle) (now : UInt32) (taken : Bool) : Lifecycle :=
  if c.cursorQueryOrigin = .none then c
  else
    let (finished, c) := c.askCursor now taken
    { c with cursorQueryOrigin := if finished then .none else c.cursorQueryOrigin }

/-! ## The rest of the pass -/

/-- The step of `channel_lifecycle_step` that saves a registration. -/
def saveRegistration (c : Lifecycle) : Lifecycle := { c with registrationUnsaved := false }

/-- A sum of totals, cut at `UINT32_MAX`. -/
def totalOf (first second : Nat) : Nat := min (first + second) (2 ^ 32 - 1)

/-- The totals `channel_lifecycle_update_config` publishes. -/
def deviceDrops (c : Lifecycle) : DeviceDrops where
  reports := c.reportsDropped.toNat
  inbound := c.inbound.dropped
  outq := totalOf c.out.refused c.extraOut.refused
  unsent := c.txDropped
  orphans := c.relayRx.orphans.toNat
  truncated := c.relayRx.truncated.toNat
  relayQ := c.relayTx.q.refused
  outqPriority := totalOf c.out.refusedPriority c.extraOut.refusedPriority
  outqBadHeader := totalOf c.out.refusedBadHeader c.extraOut.refusedBadHeader
  framesIn := c.session.framesIn
  reportsIn := c.reportsIn
  framesRefused := c.session.framesRefused

/-- `channel_lifecycle_update_config`, with the policy the configuration gives. -/
def updateConfig (c : Lifecycle) (clipFlags capMb : UInt8) : Lifecycle :=
  { c with session := (c.session.setDrops c.deviceDrops).setClipPolicy clipFlags capMb }

/-- The step of `channel_lifecycle_step` that ticks the session. -/
def sessionTick (c : Lifecycle) (now : UInt32) : Lifecycle :=
  let (rc, session) := c.session.tick now replyMax
  let c := { c with session := session }
  match rc with
  | .error _ => c
  | .ok [] => c
  | .ok (type :: rest) =>
      let (queued, c) := c.queue (type :: rest) now
      { c with session := if queued then c.session.noteOwedSent type else c.session }

/-- The step of `channel_lifecycle_step` that ticks the pairing window. -/
def pairTick (c : Lifecycle) (now : UInt32) : Lifecycle := { c with pair := c.pair.tick now }

/-- The step of `channel_task` that stages a nonce when the session needs one. -/
def stageNonce (c : Lifecycle) (nonce : List UInt8) : Lifecycle :=
  if c.session.nonceStaged then c else { c with session := c.session.stageNonce nonce }

/-- The start of `pump_relay`. -/
def relayYield (c : Lifecycle) : Lifecycle := { c with relayTx := c.relayTx.giveWay }

/-- One turn of the loop of `pump_relay`. `taken` is the answer of `channel_lifecycle_send_relay`;
the result says whether the loop goes on. -/
def pumpRelay (c : Lifecycle) (taken : Bool) : Bool × Lifecycle :=
  match c.relayTx.peek with
  | none => (false, c)
  | some _ => if taken then (true, { c with relayTx := c.relayTx.commit }) else (false, c)

/-- `handle_channel_relay_msg`. -/
def peerPacket (c : Lifecycle) (packet : RelayPacket) : Lifecycle :=
  match c.relayRx.push packet with
  | (.error _, relayRx) => { c with relayRx := relayRx }
  | (.ok view, relayRx) =>
      { c with relayRx := relayRx, inbound := c.inbound.stage view.bytes }

/-- `channel_pump_out`: one report's worth of what a channel owes, if the host took it. -/
def pumpOut (c : Lifecycle) (index : Nat) (taken : Bool) : Lifecycle :=
  match (c.output index).peek with
  | none => c
  | some owed =>
      if taken then c.setOutput index ((c.output index).advance owed (pumpTake owed)) else c

/-- The channel as it stands in memory before `channel_init`. -/
def blank (buildType : BuildType) : Lifecycle where
  session := Session.init buildType
  pair := Pair.init
  out := Outq.init
  extraOut := Outq.init
  nextStriped := 0
  txDropped := 0
  reader := FrameReader.init
  extraReader := FrameReader.init
  reports := []
  reportsDropped := 0
  reportsIn := 0
  relayTx := RelayTx.init
  relayRx := RelayRx.init
  inbound := Inq.init
  registrationUnsaved := false
  cursorQueryOrigin := .none
  cursorQueryId := 0
  arrivalOwed := false
  placeOwed := 0
  placeSent := 0
  placeOwedAt := 0
  placeBody := List.replicate placeBodySize 0
  placeQueryId := 0
  peerBoardBeat := false
  peerBoardBeatSession := false
  peerBoardSession := false
  peerBoardBeatAt := 0
  peerBoardTold := 0

/-- `channel_init`: the identity and the registration come from flash, if they are there. -/
def boot (curve : P256) (buildType : BuildType) (identity : Option (List UInt8))
    (registration : Option (List UInt8 × List UInt8)) : Lifecycle :=
  let pair := identity.elim Pair.init (Pair.init.setIdentity curve)
  let pair := registration.elim pair.clearRegistration fun (keyId, secret) ↦
    pair.setRegistration keyId secret
  { blank buildType with pair := pair }.linkLost

end Lifecycle

/-! ## Runs -/

/-- Everything that can happen to the channel of a board. -/
inductive Event where
  | receiveReport (index : Nat) (buffer : List UInt8)
  | drainReport (now : UInt32)
  | pumpPlace (now : UInt32)
  | pumpQuery (now : UInt32) (taken : Bool)
  | pumpArrival (now : UInt32)
  | pumpPeerBoardSession (now : UInt32)
  | saveRegistration
  | pumpInbound (now : UInt32)
  | updateConfig (clipFlags capMb : UInt8)
  | sessionTick (now : UInt32)
  | pairTick (now : UInt32)
  | relayYield
  | pumpRelay (taken : Bool)
  | pumpOut (index : Nat) (taken : Bool)
  | linkLost
  | configWiped (now : UInt32)
  | openPairingWindow (now : UInt32)
  | stageNonce (nonce : List UInt8)
  | owePlace (body : List UInt8) (queryId : UInt8) (now : UInt32)
  | arrive (role newOutput : UInt8)
  | peerBoardHeartbeat (helperSession : Bool)
  | queryCursor (origin : QueryOrigin) (queryId : UInt8)
  | peerPacket (packet : RelayPacket)
  deriving DecidableEq, Repr

namespace Lifecycle

/-- The channel after one event. -/
def step (curve : P256) (c : Lifecycle) : Event → Lifecycle
  | .receiveReport index buffer => c.receiveChannelReport index buffer
  | .drainReport now => (c.drainReport curve now).2
  | .pumpPlace now => c.pumpPlace now
  | .pumpQuery now taken => c.pumpQuery now taken
  | .pumpArrival now => c.pumpArrival now
  | .pumpPeerBoardSession now => c.pumpPeerBoardSession now
  | .saveRegistration => c.saveRegistration
  | .pumpInbound now => (c.pumpInbound now).2
  | .updateConfig clipFlags capMb => c.updateConfig clipFlags capMb
  | .sessionTick now => c.sessionTick now
  | .pairTick now => c.pairTick now
  | .relayYield => c.relayYield
  | .pumpRelay taken => (c.pumpRelay taken).2
  | .pumpOut index taken => c.pumpOut index taken
  | .linkLost => c.linkLost
  | .configWiped now => c.configWiped now
  | .openPairingWindow now => c.openPairingWindow now
  | .stageNonce nonce => c.stageNonce nonce
  | .owePlace body queryId now => c.owePlace body queryId now
  | .arrive role newOutput => c.arrive role newOutput
  | .peerBoardHeartbeat helperSession => c.peerBoardHeartbeat helperSession
  | .queryCursor origin queryId => c.queryCursor origin queryId
  | .peerPacket packet => c.peerPacket packet

end Lifecycle

end DeskhopPlus.Board
