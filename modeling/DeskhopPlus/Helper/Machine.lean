import DeskhopPlus.Board.Session
import DeskhopPlus.Library.Runs
import DeskhopPlus.Wire.Reader

/-!
# The helper's side of the session

`dh_helper.c`: what a helper says when its channels open, how it judges the answers, and what it
tells its user. A `Turn` is the machine together with the outputs one input has caused so far; every
function of the source that takes an output list takes and returns a turn.

Entropy is an input: each event that may draw on it carries what it would draw. Times are the
platform's millisecond counter and wrap with it.
-/

namespace DeskhopPlus.Helper

open Bytes Wire Auth Crypto Board

/-! ## Constants -/

/-- `DH_HELPER_CHAIN_SAMPLE_MS`. -/
def chainSampleMs : UInt32 := 1000

/-- `DH_HELPER_CHAIN_MIN_MS`. -/
def chainMinMs : UInt32 := 500

/-- `DH_HELPER_SILENCE_MS`. -/
def silenceMs : UInt32 := 5000

/-- `DH_HELPER_HELLO_TIMEOUT_MS`. -/
def helloTimeoutMs : UInt32 := 2000

/-- `DH_HELPER_RECONNECT_WINDOW_MS`. -/
def reconnectWindowMs : UInt32 := 30000

/-- `DH_HELPER_RECONNECT_LIMIT`. -/
def reconnectLimit : Nat := 4

/-- `DH_HELPER_SESSION_LOSS_WINDOW_MS`. -/
def sessionLossWindowMs : UInt32 := 2700000

/-- `DH_HELPER_SESSION_LOSS_LIMIT`. -/
def sessionLossLimit : Nat := 3

/-- `DH_HELPER_DROP_DEBOUNCE_MS`. -/
def dropDebounceMs : UInt32 := 500

/-- `DH_HELPER_PAIRING_RETRY_MS`. -/
def pairingRetryMs : UInt32 := 2000

/-- `DH_HELPER_BACKOFF_FIRST_MS`. -/
def backoffFirstMs : UInt32 := 250

/-- `DH_HELPER_BACKOFF_CAP_MS`. -/
def backoffCapMs : UInt32 := 4000

/-- `DH_HELPER_OUTPUTS_MAX`. -/
def outputsMax : Nat := 16

/-- `DH_HELPER_FRAME_MAX`. -/
def frameMax : Nat := headerSize + pairRequestLen

/-- `DH_HELLO_ACK_LEN`. -/
def helloAckLen : Nat := 30

/-- `DH_HELLO_REFUSED_LEN`. -/
def helloRefusedLen : Nat := 11

/-- `DH_PAIR_REFUSED_LEN`. -/
def pairRefusedLen : Nat := 9

/-- `DH_LISTENER_ALERT_LEN`. -/
def listenerAlertLen : Nat := 8

/-- `DH_DEVICE_DROPS_LEN`. -/
def deviceDropsLen : Nat := 48

/-- `DH_SESSION_END_LEN`. -/
def sessionEndLen : Nat := 5

/-! ## What the helper says -/

/-- `dh_helper_state`. -/
inductive UserState where
  | quiet
  | connected
  | reconnectingRepeatedly
  | notPaired
  | deviceInConfigMode
  | deviceAbsent
  | versionIncompatible
  | listenerDetected
  | boardIdentityChanged
  | connectedConfigMode
  deriving DecidableEq, Repr

/-- `dh_helper_note`. -/
inductive Note where
  | ignoredOutsideSession
  | ignoredWrongCorrelation
  | undecodable
  | helloEncodeFailed
  | askingToBePaired
  | partialAcquisition
  | everyChannelRefused
  | protocolError
  | noSessionKey
  | tagFailed
  | counterReplayed
  | frameDropped
  | noBoardKey
  | noStoredNonce
  | ackTooShort
  | keyDerivationFailed
  | developmentBuild
  | versionMismatch
  | boardIdentityChanged
  | pairedByDevice
  | pairRefused
  | firstBeat
  | beatResumed
  | beatQuiet
  | sessionEnded
  | listenerDetected
  | noAck
  | deviceSilent
  | transportFailed
  | reconnectionRate
  | clipPolicy
  | localSends
  | boardAtEnd
  | boardSilentFor
  | boardSends
  | streamMisaligned
  | boardLostAtEnd
  | boardHeardBytes
  | chunkTagTolerated
  deriving DecidableEq, Repr

/-- `dh_helper_output`. -/
inductive Output where
  | storeBoardKey (bytes : List UInt8)
  | openChannels
  | closeChannels
  | send (bytes : List UInt8)
  | state (state : UserState)
  | retry (delayMs : UInt32)
  | note (note : Note) (a b : Int32)
  | clipPolicy (flags capMb : UInt8)
  deriving DecidableEq, Repr

/-- `dh_helper_outputs`. -/
structure Outputs where
  items : List Output := []
  overflow : Nat := 0
  deriving DecidableEq, Repr

/-- The number of a frame result. -/
def frameResult : FrameFault → Int32
  | .again => 1
  | .oversize => -1
  | .unknownType => -2
  | .buffer => -3

/-- The number of an authentication result. -/
def authResult : AuthFault → Int32
  | .short => -1
  | .tag => -2
  | .counter => -3
  | .buffer => -4
  | .noKey => -5

/-! ## Messages only the helper reads -/

/-- `dh_hello_ack_decode`. -/
def helloAckDecode (body : List UInt8) : Option HelloAck :=
  if body.length ≠ helloAckLen then none
  else
    some
      { correlation := value (body.take 8)
        protoVersion := value ((body.drop 8).take 2)
        buildType := body.getD 10 0
        channelCount := body.getD 11 0
        maxChunk := value ((body.drop 12).take 2)
        boardNonce := (body.drop 14).take nonceSize }

/-- `dh_hello_refused`, with its status as the byte it came as. -/
structure HelloRefused where
  correlation : Nat
  protoVersion : Nat
  status : UInt8
  deriving DecidableEq, Repr

/-- `dh_hello_refused_decode`. -/
def helloRefusedDecode (body : List UInt8) : Option HelloRefused :=
  if body.length ≠ helloRefusedLen then none
  else
    some
      { correlation := value (body.take 8)
        protoVersion := value ((body.drop 8).take 2)
        status := body.getD 10 0 }

/-- `dh_pair_request_encode`. -/
def pairRequestEncode (request : PairRequest) (cap : Nat) : Except FrameFault (List UInt8) :=
  encode Msg.pairRequest 0 (littleEndian 8 request.correlation ++ request.helperPublic) cap

/-- `dh_pair_grant_decode`: the correlation and the board's public key. -/
def pairGrantDecode (body : List UInt8) : Option (Nat × List UInt8) :=
  if body.length ≠ pairGrantLen then none
  else some (value (body.take 8), (body.drop 8).take publicSize)

/-- `dh_pair_refused_decode`: the correlation and the reason. -/
def pairRefusedDecode (body : List UInt8) : Option (Nat × UInt8) :=
  if body.length ≠ pairRefusedLen then none else some (value (body.take 8), body.getD 8 0)

/-- `dh_listener_alert_decode`: the window and the count of refused frames. -/
def listenerAlertDecode (body : List UInt8) : Option (UInt32 × UInt32) :=
  if body.length ≠ listenerAlertLen then none
  else some (.ofNat (value (body.take 4)), .ofNat (value ((body.drop 4).take 4)))

/-- `dh_clip_policy_decode`: the flags, and the cap if the board states one. -/
def clipPolicyDecode (body : List UInt8) : Option (UInt8 × UInt8) :=
  if body.length = 2 then some (body.getD 0 0, body.getD 1 0)
  else if body.length = 1 then some (body.getD 0 0, 0)
  else none

/-- `dh_clip_cap_mb`. -/
def clipCap (stored : UInt8) : UInt8 :=
  if stored = 0 then 10 else if stored > 64 then 64 else stored

/-- `dh_device_drops_decode`. -/
def deviceDropsDecode (body : List UInt8) : Option DeviceDrops :=
  let word (index : Nat) := value ((body.drop (4 * index)).take 4)
  if body.length ≠ deviceDropsLen then none
  else
    some
      { reports := word 0
        inbound := word 1
        outq := word 2
        unsent := word 3
        orphans := word 4
        truncated := word 5
        relayQ := word 6
        outqPriority := word 7
        outqBadHeader := word 8
        framesIn := word 9
        reportsIn := word 10
        framesRefused := word 11 }

/-! ## The machine -/

/-- `dh_helper_identity`. The exchange with the board's key is the platform's. -/
structure Identity where
  publicKey : List UInt8
  keyId : List UInt8
  os : UInt8
  buildType : UInt8
  ecdh : List UInt8 → Option (List UInt8)
  publicKey_length : publicKey.length = publicSize
  keyId_length : keyId.length = keyIdSize

/-- `dh_device_identity`. -/
inductive DeviceIdentity where
  | normal
  | configMode
  deriving DecidableEq, Repr

/-- `dh_helper_negotiated`. -/
structure Negotiated where
  channelCount : UInt8 := 0
  maxChunk : Nat := 0
  deviceBuild : UInt8 := 0
  deriving DecidableEq, Repr

/-- `dh_helper_phase`. -/
inductive Phase where
  | idle
  | awaitingAck
  | live
  deriving DecidableEq, Repr

/-- What one input may draw from the platform's entropy: a nonce and the correlation of a hello, and
the correlation of a pair request. -/
structure Draw where
  nonce : List UInt8
  helloCorrelation : UInt64
  pairCorrelation : UInt64
  nonce_length : nonce.length = nonceSize

end DeskhopPlus.Helper

/-- `dh_helper`, less its identity and its callbacks. A ring of times is a list, oldest first. -/
structure DeskhopPlus.Helper where
  state : Helper.UserState := .quiet
  negotiated : Helper.Negotiated := {}
  haveNegotiated : Bool := false
  clipFlags : UInt8 := Board.clipBothWays
  clipCapMb : UInt8 := 0
  haveClipPolicy : Bool := false
  deviceDrops : Board.DeviceDrops := .zero
  haveDeviceDrops : Bool := false
  chainReportsIn : Nat := 0
  chainAtMs : UInt32 := 0
  haveChain : Bool := false
  phase : Helper.Phase := .idle
  reader : Wire.FrameReader := .init
  extraReader : Wire.FrameReader := .init
  acquiredChannels : UInt8 := 0
  backoffMs : UInt32 := Helper.backoffFirstMs
  helloSentAt : UInt32 := 0
  lastSentAt : UInt32 := 0
  sendsThisWindow : Nat := 0
  sendsLastWindow : Nat := 0
  sendWindowStartedAt : UInt32 := 0
  sendsTotal : Nat := 0
  sendsRefused : Nat := 0
  lastDeviceFrameAt : UInt32 := 0
  lastDeviceBeatAt : UInt32 := 0
  haveDeviceBeat : Bool := false
  beatQuietNoted : Bool := false
  holdingChannels : Bool := false
  configMode : Bool := false
  recentDrops : List UInt32 := []
  recentSessionLosses : List UInt32 := []
  identityChangedAt : UInt32 := 0
  identityChanged : Bool := false
  hostWokeAt : UInt32 := 0
  hostAsleep : Bool := false
  hostWoke : Bool := false
  haveDeferred : Bool := false
  deferredState : Helper.UserState := .quiet
  deferredAt : UInt32 := 0
  pairingRequestedAt : UInt32 := 0
  pairingRequested : Bool := false
  helloWentUnanswered : Bool := false
  startedAt : UInt32 := 0
  started : Bool := false
  everSawDevice : Bool := false
  lastDeviceIdentity : Helper.DeviceIdentity := .normal
  boardPublicKey : List UInt8 := List.replicate Crypto.publicSize 0
  haveBoardKey : Bool := false
  listenerAlertAt : UInt32 := 0
  listenerAlertWindowMs : UInt32 := 0
  listenerAlertLive : Bool := false
  helperNonce : List UInt8 := List.replicate Auth.nonceSize 0
  haveNonce : Bool := false
  helloCorrelation : Nat := 0
  pairCorrelation : Nat := 0
  kH2b : List UInt8 := List.replicate Auth.sessionKeySize 0
  kB2h : List UInt8 := List.replicate Auth.sessionKeySize 0
  haveKeys : Bool := false
  txCounter : UInt64 := 0
  rx : Auth.AuthCounter := .init

namespace DeskhopPlus.Helper

open Bytes Wire Auth Crypto Board

/-- `dh_helper_init`. -/
def init (boardPublicKey : Option (List UInt8)) : Helper :=
  match boardPublicKey with
  | none => {}
  | some key => { boardPublicKey := key, haveBoardKey := true }

/-- `elapsed`. -/
def elapsed (now since span : UInt32) : Bool := span ≤ now - since

/-- `backoff_next`, the delay and the machine after it. -/
def backoffNext (h : Helper) : UInt32 × Helper :=
  let delay := h.backoffMs
  (delay, { h with backoffMs := if delay * 2 > backoffCapMs then backoffCapMs else delay * 2 })

/-- `backoff_reset`. -/
def backoffReset (h : Helper) : Helper := { h with backoffMs := backoffFirstMs }

/-- `forget_crypto_state`. -/
def forgetCryptoState (h : Helper) : Helper :=
  { h with
    kH2b := List.replicate sessionKeySize 0
    kB2h := List.replicate sessionKeySize 0
    helperNonce := List.replicate nonceSize 0
    haveKeys := false
    haveNonce := false
    listenerAlertLive := false
    txCounter := 0
    rx := AuthCounter.init }

/-- `sends_in_window`. -/
def sendsInWindow (h : Helper) : Nat := (h.sendsThisWindow + h.sendsLastWindow) % 2 ^ 32

/-- `forget_beat_trace`. -/
def forgetBeatTrace (h : Helper) : Helper :=
  { h with haveDeviceBeat := false, beatQuietNoted := false }

/-- `forget_session`. -/
def forgetSession (h : Helper) : Helper :=
  { h with
    phase := .idle
    haveNegotiated := false
    haveDeviceDrops := false
    haveChain := false
    reader := FrameReader.init
    extraReader := FrameReader.init }.forgetBeatTrace.forgetCryptoState

/-! ## The reconnect rate -/

/-- `push_time`. -/
def pushTime (ring : List UInt32) (cap : Nat) (now : UInt32) : List UInt32 :=
  (if ring.length = cap then ring.tail else ring) ++ [now]

/-- `rate_reached`. -/
def rateReached (ring : List UInt32) (need : Nat) (windowMs now : UInt32) : Bool :=
  if ring.length < need then false else decide (now - ring.headD 0 ≤ windowMs)

/-- `record_drop`: was the drop counted, and the machine after it. -/
def recordDrop (h : Helper) (now : UInt32) : Bool × Helper :=
  if h.hostAsleep || (h.hostWoke && !elapsed now h.hostWokeAt reconnectWindowMs) then (false, h)
  else if !h.holdingChannels && h.phase = .idle then (false, h)
  else if h.recentDrops.getLast?.any (fun last ↦ now - last < dropDebounceMs) then (false, h)
  else (true, { h with recentDrops := pushTime h.recentDrops reconnectLimit now })

/-- `stands_alone`. -/
def standsAlone (h : Helper) (now : UInt32) : Bool :=
  h.recentDrops.getLast?.all fun last ↦ now - last > reconnectWindowMs

/-- `reconnecting_repeatedly`. -/
def reconnectingRepeatedly (h : Helper) (now : UInt32) : Bool :=
  rateReached h.recentDrops reconnectLimit reconnectWindowMs now ||
    rateReached h.recentSessionLosses sessionLossLimit sessionLossWindowMs now

/-- `ended_on_purpose`. -/
def endedOnPurpose (h : Helper) (note : Note) (a : Int32) (now : UInt32) : Bool :=
  (note = .sessionEnded && a = EndReason.unpaired.byte.toUInt32.toInt32) ||
    (note = .transportFailed && h.identityChanged &&
      !elapsed now h.identityChangedAt reconnectWindowMs)

/-- The board stayed attached and the session was lost: the long window counts it. -/
def noteSessionLoss (h : Helper) (now : UInt32) : Helper :=
  { h with recentSessionLosses := pushTime h.recentSessionLosses sessionLossLimit now }

/-- The state of a connection that stands. -/
def connectedState (h : Helper) : UserState :=
  if h.configMode then .connectedConfigMode else .connected

/-- The state of a device that is gone. -/
def absentState (h : Helper) : UserState :=
  if h.configMode then .deviceInConfigMode else .deviceAbsent

/-- A state to report once the window has passed. -/
def defer (h : Helper) (state : UserState) (now : UInt32) : Helper :=
  { h with haveDeferred := true, deferredState := state, deferredAt := now }

/-- `note_started`. -/
def noteStarted (h : Helper) (now : UInt32) : Helper :=
  if h.started then h else { h with started := true, startedAt := now }

/-- `dh_helper_can_send_bulk`. -/
def canSendBulk (h : Helper) : Bool := h.phase = .live && h.haveNegotiated

/-! ## Turns -/

/-- The machine, the outputs of the input at hand, and the frames handed to the payload sink. -/
structure Turn where
  h : Helper
  o : Outputs := {}
  delivered : List (UInt8 × List UInt8) := []

namespace Turn

variable (identity : Identity)

/-- `slot` and what is put in it. -/
def put (t : Turn) (item : Output) : Turn :=
  if outputsMax ≤ t.o.items.length then { t with o := { t.o with overflow := t.o.overflow + 1 } }
  else { t with o := { t.o with items := t.o.items ++ [item] } }

/-- `put_note`. -/
def putNote (t : Turn) (note : Note) (a b : Int32) : Turn := t.put (.note note a b)

/-- `put_bytes` of a frame, cut to the size of a slot. -/
def send (t : Turn) (bytes : List UInt8) : Turn := t.put (.send (bytes.take frameMax))

/-- `set_state`. -/
def setState (t : Turn) (next : UserState) : Turn :=
  if t.h.state = next then t else { t with h := { t.h with state := next } }.put (.state next)

/-- `put_retry` with the next delay. -/
def retry (t : Turn) : Turn :=
  let (delay, h) := t.h.backoffNext
  { t with h := h }.put (.retry delay)

/-- `report_repeated_reconnection`. -/
def reportRepeatedReconnection (t : Turn) (now : UInt32) : Turn :=
  if t.h.state = .reconnectingRepeatedly then t
  else
    let t :=
      if rateReached t.h.recentDrops reconnectLimit reconnectWindowMs now then
        t.putNote .reconnectionRate (Int32.ofNat t.h.recentDrops.length)
          (now - t.h.recentDrops.headD 0).toInt32
      else if 0 < t.h.recentSessionLosses.length then
        t.putNote .reconnectionRate (Int32.ofNat t.h.recentSessionLosses.length)
          (now - t.h.recentSessionLosses.headD 0).toInt32
      else t
    t.setState .reconnectingRepeatedly

/-- `drop_connection`. -/
def dropConnection (t : Turn) (now : UInt32) (note : Note) (a b : Int32) : Turn :=
  let alone := t.h.standsAlone now
  let (counted, h) := t.h.recordDrop now
  let h := if counted && alone && !h.endedOnPurpose note a now then h.noteSessionLoss now else h
  let t := { t with h := h }
  let t :=
    if h.rx.any then
      t.putNote .boardSends (Int32.ofNat (h.rx.built % 2 ^ 32)) (Int32.ofNat (h.rx.missed % 2 ^ 32))
    else t
  let h := { t.h.forgetSession with holdingChannels := false }
  let t := { t with h := h.defer h.absentState now }
  let t := (t.putNote note a b).put .closeChannels
  -- a helper already reporting something specific is not made more accurate by the rate
  let falsified : Bool :=
    t.h.state = .connected || t.h.state = .connectedConfigMode || t.h.state = .quiet
  let t :=
    if falsified && t.h.reconnectingRepeatedly now then t.reportRepeatedReconnection now else t
  t.retry

/-! ## The hello -/

/-- `build_hello`, the bytes of the frame if there is one. -/
def buildHello (t : Turn) (draw : Draw) : Option (List UInt8) × Turn :=
  let t := { t with h := { t.h with
    helperNonce := draw.nonce
    haveNonce := true
    helloCorrelation := draw.helloCorrelation.toNat } }
  match identity.ecdh t.h.boardPublicKey with
  | none => (none, t.putNote .keyDerivationFailed 0 0)
  | some shared =>
      let hello : Hello :=
        { protoVersion := protoVersion
          os := identity.os
          buildType := identity.buildType
          channelCount := if t.h.configMode then 1 else sessionChannelCount
          maxChunk := sessionMaxChunk
          correlation := t.h.helloCorrelation
          helperKeyId := identity.keyId
          helperNonce := draw.nonce }
      match helloEncode hello (deriveHelloKey shared draw.nonce) 0 frameMax with
      | .error fault => (none, t.putNote .helloEncodeFailed (frameResult fault) 0)
      | .ok bytes => (some bytes, t)

/-- `build_pair_request`, the bytes of the frame if there is one. -/
def buildPairRequest (t : Turn) (draw : Draw) (now : UInt32) : Option (List UInt8) × Turn :=
  let request : PairRequest :=
    { correlation := draw.pairCorrelation.toNat, helperPublic := identity.publicKey }
  match pairRequestEncode request frameMax with
  | .error _ => (none, t)
  | .ok bytes =>
      (some bytes, { t with h := { t.h with
        pairCorrelation := request.correlation
        pairingRequested := true
        pairingRequestedAt := now
        lastSentAt := now } })

/-- Ask to be paired, if the request can be built. -/
def askToPair (t : Turn) (draw : Draw) (now : UInt32) : Turn :=
  match t.buildPairRequest identity draw now with
  | (none, t) => t
  | (some bytes, t) => t.send bytes

/-! ## Device presence and acquisition -/

/-- `device_left`. -/
def deviceLeft (t : Turn) (reason : UserState) (now : UInt32) : Turn :=
  let h := { (t.h.recordDrop now).2 with recentSessionLosses := [] }
  let t := { t with h := h.forgetSession.defer reason now }
  if t.h.holdingChannels then
    { t with h := { t.h with holdingChannels := false } }.put .closeChannels
  else t

/-- `dh_helper_device_appeared`. -/
def deviceAppeared (t : Turn) (which : DeviceIdentity) (now : UInt32) : Turn :=
  let h := t.h.noteStarted now
  let modeChanged := h.everSawDevice && h.lastDeviceIdentity != which
  let t := { t with h := { h with everSawDevice := true, lastDeviceIdentity := which } }
  if which = .configMode ∧ t.h.configMode ∧ t.h.holdingChannels then t
  else
    let t :=
      if which = .configMode ∨ t.h.configMode then t.deviceLeft .deviceInConfigMode now else t
    let h := { t.h with configMode := which = .configMode }
    let h :=
      if modeChanged then
        { h with recentDrops := [], identityChanged := true, identityChangedAt := now }
      else h
    let t := { t with h := h }
    if t.h.configMode then { t with h := t.h.backoffReset }.put .openChannels
    else
      let t := { t with h := { t.h with haveDeferred := false }.backoffReset }
      let t :=
        if t.h.state = .deviceAbsent ∨ t.h.state = .deviceInConfigMode ∨
            t.h.state = .connectedConfigMode then t.setState .quiet
        else t
      t.put .openChannels

/-- `dh_helper_host_sleep`. -/
def hostSleep (t : Turn) (asleep : Bool) (now : UInt32) : Turn :=
  let h :=
    if t.h.hostAsleep && !asleep then { t.h with hostWoke := true, hostWokeAt := now } else t.h
  { t with h := { h with hostAsleep := asleep } }

/-- `dh_helper_device_disappeared`. -/
def deviceDisappeared (t : Turn) (now : UInt32) : Turn :=
  let t := { t with h := t.h.noteStarted now }.deviceLeft .deviceAbsent now
  { t with h := { t.h with configMode := false } }

/-- `dh_helper_acquisition_refused`. -/
def acquisitionRefused (t : Turn) (acquired total : UInt8) (now : UInt32) : Turn :=
  let h := { (t.h.noteStarted now).forgetSession with holdingChannels := false }
  let h := if h.haveDeferred then h else h.defer h.absentState now
  let t := { t with h := h }.put .closeChannels
  let t :=
    if 0 < acquired then
      t.putNote .partialAcquisition acquired.toUInt32.toInt32 total.toUInt32.toInt32
    else t.putNote .everyChannelRefused 0 0
  t.retry

/-- `dh_helper_channels_acquired`. -/
def channelsAcquired (t : Turn) (count : UInt8) (draw : Draw) (now : UInt32) : Turn :=
  let h := { t.h.forgetSession with acquiredChannels := count }.noteStarted now
  let h := { h with holdingChannels := true }
  if h.haveBoardKey = false then
    let h := { h.backoffReset with haveDeferred := false, phase := .live, lastDeviceFrameAt := now }
    ({ t with h := h }.setState .notPaired).askToPair identity draw now
  else
    let h := { h with
      phase := .awaitingAck, helloSentAt := now, lastSentAt := now, lastDeviceFrameAt := now }
    match buildHello identity { t with h := h } draw with
    | (none, t) => t.acquisitionRefused 0 0 now
    | (some bytes, t) =>
        let t := { t with h := { t.h with haveDeferred := false } }.send bytes
        if t.h.state = .reconnectingRepeatedly ∧ t.h.helloWentUnanswered then
          match t.buildPairRequest identity draw now with
          | (none, t) => t
          | (some bytes, t) => (t.putNote .askingToBePaired 0 0).send bytes
        else t

/-! ## The answers to a hello -/

/-- `peek_board_nonce`. -/
def peekBoardNonce (view : FrameView) : Option (List UInt8) :=
  if view.payload.length < authPrefixSize + helloAckLen then none
  else some ((view.payload.drop (authPrefixSize + (helloAckLen - nonceSize))).take nonceSize)

/-- The number of a frame type in a note. -/
def typeNumber (view : FrameView) : Int32 := view.type.toUInt32.toInt32

/-- The ack passed every check: the session is live. -/
def acceptAck (t : Turn) (keys : List UInt8 × List UInt8) (rx : AuthCounter) (ack : HelloAck)
    (now : UInt32) : Turn :=
  let h := { t.h with
    kH2b := keys.1
    kB2h := keys.2
    haveKeys := true
    rx := rx
    txCounter := 0 }.backoffReset
  let t := { t with h := { h with
    phase := .live
    lastDeviceFrameAt := now
    negotiated := ⟨ack.channelCount, ack.maxChunk, ack.buildType⟩
    haveNegotiated := true
    helloWentUnanswered := false } }
  let t := if ack.buildType = BuildType.development.byte then t.putNote .developmentBuild 0 0 else t
  if t.h.reconnectingRepeatedly now then t.reportRepeatedReconnection now
  else t.setState t.h.connectedState

/-- `on_hello_ack`. The nonce is read before anything is trusted, because the key that verifies the
frame is derived from it. -/
def onHelloAck (t : Turn) (view : FrameView) (now : UInt32) : Turn :=
  if t.h.phase ≠ .awaitingAck then t.putNote .ignoredOutsideSession (typeNumber view) 0
  else if t.h.haveBoardKey = false then t.dropConnection now .noBoardKey 0 0
  else if t.h.haveNonce = false then t.dropConnection now .noStoredNonce 0 0
  else
    match peekBoardNonce view with
    | none => t.dropConnection now .ackTooShort (Int32.ofNat view.payload.length) 0
    | some boardNonce =>
        match identity.ecdh t.h.boardPublicKey with
        | none => t.dropConnection now .keyDerivationFailed 0 0
        | some shared =>
            let keys := deriveSessionKeys shared t.h.helperNonce boardNonce
            match authOpen keys.2 view AuthCounter.init with
            | (.error _, _) => t.dropConnection now .tagFailed (typeNumber view) 0
            | (.ok body, rx) =>
                match helloAckDecode body with
                | none => t.dropConnection now .undecodable (typeNumber view) 0
                | some ack =>
                    if ack.correlation ≠ t.h.helloCorrelation then
                      t.putNote .ignoredWrongCorrelation (typeNumber view) 0
                    else if ack.channelCount = 0 ∨ ack.channelCount > sessionChannelCount ∨
                        ack.channelCount > t.h.acquiredChannels then
                      t.dropConnection now .partialAcquisition
                        t.h.acquiredChannels.toUInt32.toInt32 ack.channelCount.toUInt32.toInt32
                    else t.acceptAck keys rx ack now

/-- `on_hello_refused`. -/
def onHelloRefused (t : Turn) (view : FrameView) (now : UInt32) : Turn :=
  if t.h.phase ≠ .awaitingAck then t.putNote .ignoredOutsideSession (typeNumber view) 0
  else
    match helloRefusedDecode view.payload with
    | none => t.dropConnection now .undecodable (typeNumber view) 0
    | some refused =>
        if refused.status ≠ RefusedStatus.unpaired.byte ∧
            refused.status ≠ RefusedStatus.versionIncompatible.byte then
          t.dropConnection now .undecodable (typeNumber view) 0
        else if refused.correlation ≠ t.h.helloCorrelation then
          t.putNote .ignoredWrongCorrelation (typeNumber view) 0
        else
          let t := { t with h := t.h.backoffReset }
          if refused.status = RefusedStatus.unpaired.byte then
            let h := { t.h with phase := .live, haveNegotiated := false, pairingRequested := false }
            { t with h := h.forgetBeatTrace.forgetCryptoState }.setState .notPaired
          else
            let t := t.putNote .versionMismatch (Int32.ofNat refused.protoVersion)
              (Int32.ofNat protoVersion)
            { t with h := t.h.forgetSession }.setState .versionIncompatible

/-! ## Pairing -/

/-- `on_pair_grant`. -/
def onPairGrant (t : Turn) (view : FrameView) (draw : Draw) (now : UInt32) : Turn :=
  if t.h.phase = .idle ∨ t.h.pairingRequested = false then
    t.putNote .ignoredOutsideSession (typeNumber view) 0
  else
    match pairGrantDecode view.payload with
    | none => t.putNote .undecodable (typeNumber view) 0
    | some (correlation, boardPublic) =>
        if correlation ≠ t.h.pairCorrelation then
          t.putNote .ignoredWrongCorrelation (typeNumber view) 0
        else if t.h.haveBoardKey = true ∧ t.h.boardPublicKey ≠ boardPublic then
          ({ t with h := { t.h with pairingRequested := false } }.putNote
            .boardIdentityChanged 0 0).setState .boardIdentityChanged
        else
          let previous := t.h.boardPublicKey
          let hadKey := t.h.haveBoardKey
          let t := { t with h := { t.h with boardPublicKey := boardPublic, haveBoardKey := true } }
          match t.buildHello identity draw with
          | (none, t) =>
              { t with h := { t.h with boardPublicKey := previous, haveBoardKey := hadKey } }
          | (some bytes, t) =>
              let h := { t.h with
                pairingRequested := false
                helloSentAt := now
                lastSentAt := now
                phase := .awaitingAck }
              (({ t with h := h }.put (.storeBoardKey boardPublic)).putNote
                .pairedByDevice 0 0).send bytes

/-- `on_pair_refused`. -/
def onPairRefused (t : Turn) (view : FrameView) : Turn :=
  if t.h.phase = .idle then t.putNote .ignoredOutsideSession (typeNumber view) 0
  else
    match pairRefusedDecode view.payload with
    | none => t.putNote .undecodable (typeNumber view) 0
    | some (correlation, reason) =>
        if reason ≠ 0 ∧ reason ≠ 1 then t.putNote .undecodable (typeNumber view) 0
        else if correlation ≠ t.h.pairCorrelation then
          t.putNote .ignoredWrongCorrelation (typeNumber view) 0
        else t.putNote .pairRefused reason.toUInt32.toInt32 0

/-! ## Session traffic -/

/-- `on_device_beat`. -/
def onDeviceBeat (t : Turn) (view : FrameView) (now : UInt32) : Turn :=
  if t.h.phase = .idle then t.putNote .ignoredOutsideSession (typeNumber view) 0
  else
    let last := t.h.lastDeviceBeatAt
    let had := t.h.haveDeviceBeat
    let t := { t with h := { t.h with lastDeviceBeatAt := now, haveDeviceBeat := true } }
    if had = false then t.putNote .firstBeat 0 0
    else if t.h.beatQuietNoted = false then t
    else { t with h := { t.h with beatQuietNoted := false } }.putNote .beatResumed
      (now - last).toInt32 0

/-- `on_session_end`. -/
def onSessionEnd (t : Turn) (view : FrameView) (body : List UInt8) (now : UInt32) : Turn :=
  if t.h.phase = .idle then t.putNote .ignoredOutsideSession (typeNumber view) 0
  else
    let reason := body.headD 0
    let t :=
      if reason = EndReason.livenessTimeout.byte ∧ sessionEndLen ≤ body.length then
        t.putNote .boardSilentFor (Int32.ofNat (value ((body.drop 1).take 4))) 0
      else t
    let t :=
      if t.h.haveDeviceDrops then
        let drops := t.h.deviceDrops
        let t := (t.putNote .boardAtEnd (Int32.ofNat drops.framesIn)
          (Int32.ofNat drops.reportsIn)).putNote .boardLostAtEnd (Int32.ofNat drops.reports)
          (Int32.ofNat drops.inbound)
        if t.h.haveChain && chainMinMs ≤ now - t.h.chainAtMs then
          t.putNote .boardHeardBytes
            (UInt32.ofNat drops.reportsIn - UInt32.ofNat t.h.chainReportsIn).toInt32
            (now - t.h.chainAtMs).toInt32
        else t
      else t
    let t := t.putNote .localSends (Int32.ofNat t.h.sendsTotal) (Int32.ofNat t.h.sendsRefused)
    t.dropConnection now .sessionEnded reason.toUInt32.toInt32 (Int32.ofNat t.h.sendsInWindow)

/-- `on_clip_policy`. -/
def onClipPolicy (t : Turn) (view : FrameView) (body : List UInt8) : Turn :=
  match clipPolicyDecode body with
  | none => t.putNote .undecodable (typeNumber view) 0
  | some (flags, capMb) =>
      let cap := clipCap capMb
      let h := { t.h with clipFlags := flags, clipCapMb := cap, haveClipPolicy := true }
      ({ t with h := h }.put (.clipPolicy flags cap)).putNote .clipPolicy flags.toUInt32.toInt32
        cap.toUInt32.toInt32

/-- `on_device_drops`. -/
def onDeviceDrops (t : Turn) (view : FrameView) (body : List UInt8) : Turn :=
  match deviceDropsDecode body with
  | none => t.putNote .undecodable (typeNumber view) 0
  | some drops => { t with h := { t.h with deviceDrops := drops, haveDeviceDrops := true } }

/-- `on_listener_alert`. -/
def onListenerAlert (t : Turn) (view : FrameView) (body : List UInt8) (now : UInt32) : Turn :=
  match listenerAlertDecode body with
  | none => t.putNote .undecodable (typeNumber view) 0
  | some (windowMs, refused) =>
      let h := { t.h with
        listenerAlertAt := now, listenerAlertWindowMs := windowMs, listenerAlertLive := true }
      ({ t with h := h }.putNote .listenerDetected refused.toInt32 windowMs.toInt32).setState
        .listenerDetected

/-! ## Dispatching -/

/-- The frame verified: what its type asks for. -/
def onVerified (t : Turn) (view : FrameView) (body : List UInt8) (now : UInt32) : Turn :=
  let h := { t.h with lastDeviceFrameAt := now }
  let h :=
    if h.haveDeviceBeat ∧ view.type ≠ Msg.deviceHeartbeat then
      { h with lastDeviceBeatAt := now, beatQuietNoted := false }
    else h
  let t := { t with h := h }
  if view.type = Msg.sessionEnd then t.onSessionEnd view body now
  else if view.type = Msg.deviceHeartbeat then t.onDeviceBeat view now
  else if view.type = Msg.listenerAlert then t.onListenerAlert view body now
  else if view.type = Msg.clipPolicy then t.onClipPolicy view body
  else if view.type = Msg.deviceDrops then t.onDeviceDrops view body
  else { t with delivered := t.delivered ++ [(view.type, body)] }

/-- `on_authenticated`. -/
def onAuthenticated (t : Turn) (view : FrameView) (now : UInt32) : Turn :=
  if view.type = Msg.helloAck then t.onHelloAck identity view now
  else if t.h.haveKeys = false then t.putNote .noSessionKey (typeNumber view) 0
  else
    match authOpen t.h.kB2h view t.h.rx with
    | (.error .tag, _) =>
        if view.type = Msg.clipChunk then t.putNote .chunkTagTolerated (typeNumber view) 0
        else t.dropConnection now .tagFailed (typeNumber view) 0
    | (.error .counter, rx) =>
        { t with h := { t.h with rx := rx } }.putNote .counterReplayed (typeNumber view) 0
    | (.error fault, rx) =>
        { t with h := { t.h with rx := rx } }.putNote .frameDropped (typeNumber view)
          (authResult fault)
    | (.ok body, rx) => { t with h := { t.h with rx := rx } }.onVerified view body now

/-- `on_unauthenticated`. -/
def onUnauthenticated (t : Turn) (view : FrameView) (draw : Draw) (now : UInt32) : Turn :=
  if view.type = Msg.helloRefused then t.onHelloRefused view now
  else if view.type = Msg.pairGrant then t.onPairGrant identity view draw now
  else if view.type = Msg.pairRefused then t.onPairRefused view
  else t

/-- A frame the reader completed. -/
def onFrame (t : Turn) (view : FrameView) (draw : Draw) (now : UInt32) : Turn :=
  if Msg.isAuthenticated view.type then t.onAuthenticated identity view now
  else t.onUnauthenticated identity view draw now

/-- `dh_helper_received_channel`: one report, and at most one frame out of it. -/
def receivedChannel (t : Turn) (channel : UInt8) (data : List UInt8) (draw : Draw) (now : UInt32) :
    Turn :=
  if channel ≥ sessionChannelCount ∨
      (channel > 0 ∧ (t.h.haveNegotiated = false ∨ channel ≥ t.h.negotiated.channelCount)) then t
  else
    let h := t.h.noteStarted now
    let before := if channel = 0 then h.reader else h.extraReader
    let (rc, reader) := before.report data
    let t := { t with
      h := if channel = 0 then { h with reader := reader } else { h with extraReader := reader } }
    let t :=
      if reader.resyncs ≠ before.resyncs then
        t.putNote .streamMisaligned (Int32.ofNat reader.resyncs) 0
      else t
    match rc with
    | .error .again => t
    | .error fault => t.dropConnection now .protocolError (frameResult fault) 0
    | .ok view => t.onFrame identity view draw now

/-- `dh_helper_transport_failed`. -/
def transportFailed (t : Turn) (now : UInt32) : Turn :=
  { t with h := t.h.noteStarted now }.dropConnection now .transportFailed 0 0

/-- `dh_helper_note_sent`. -/
def noteSent (t : Turn) (now : UInt32) : Turn :=
  let h := { t.h.noteStarted now with lastSentAt := now }
  let h :=
    if elapsed now h.sendWindowStartedAt absentMs then
      { h with
        sendsLastWindow := h.sendsThisWindow, sendsThisWindow := 0, sendWindowStartedAt := now }
    else h
  { t with h := { h with
    sendsThisWindow := Outq.saturate h.sendsThisWindow
    sendsTotal := Outq.saturate h.sendsTotal } }

/-- `dh_helper_note_send_refused`. -/
def noteSendRefused (t : Turn) : Turn :=
  { t with h := { t.h with sendsRefused := Outq.saturate t.h.sendsRefused } }

/-! ## The tick -/

/-- The states of a tick that come from time alone. -/
def tickDeferred (t : Turn) (now : UInt32) : Turn :=
  if t.h.haveDeferred then
    if elapsed now t.h.deferredAt silenceMs then
      { t with h := { t.h with haveDeferred := false } }.setState t.h.deferredState
    else t
  else if !t.h.everSawDevice && elapsed now t.h.startedAt silenceMs then t.setState .deviceAbsent
  else t

/-- The readings of a live phase that age out. -/
def tickReadings (t : Turn) (now : UInt32) : Turn :=
  let t :=
    if t.h.state = .reconnectingRepeatedly ∧ t.h.haveNegotiated ∧
      !t.h.reconnectingRepeatedly now then
      t.setState t.h.connectedState
    else t
  let t :=
    if t.h.state = .listenerDetected ∧ t.h.haveNegotiated ∧ t.h.listenerAlertLive ∧
        elapsed now t.h.listenerAlertAt t.h.listenerAlertWindowMs then
      { t with h := { t.h with listenerAlertLive := false } }.setState t.h.connectedState
    else t
  if t.h.haveNegotiated ∧ t.h.haveDeviceBeat ∧ t.h.beatQuietNoted = false ∧
      elapsed now t.h.lastDeviceBeatAt absentMs then
    { t with h := { t.h with beatQuietNoted := true } }.putNote .beatQuiet
      (now - t.h.lastDeviceBeatAt).toInt32 0
  else t

/-- The heartbeat of an idle direction. The idle timer is not charged here. -/
def tickHeartbeat (t : Turn) (now : UInt32) : Turn :=
  if t.h.haveKeys ∧ elapsed now t.h.lastSentAt heartbeatMs then
    match Auth.frame Msg.heartbeat 0 t.h.kH2b t.h.txCounter.toNat [] frameMax with
    | .error _ => t
    | .ok bytes => { t with h := { t.h with txCounter := t.h.txCounter + 1 } }.send bytes
  else t

/-- `dh_helper_tick`. -/
def tick (t : Turn) (draw : Draw) (now : UInt32) : Turn :=
  let h := t.h.noteStarted now
  let h :=
    if h.identityChanged && elapsed now h.identityChangedAt reconnectWindowMs then
      { h with identityChanged := false }
    else h
  let h :=
    if h.hostWoke && elapsed now h.hostWokeAt reconnectWindowMs then { h with hostWoke := false }
    else h
  let t := { t with h := h }.tickDeferred now
  if t.h.phase = .awaitingAck then
    if elapsed now t.h.helloSentAt helloTimeoutMs then
      { t with h := { t.h with helloWentUnanswered := true } }.dropConnection now .noAck
        helloTimeoutMs.toInt32 0
    else t
  else if t.h.phase ≠ .live then t
  else
    let t :=
      if t.h.haveDeviceDrops ∧
          (t.h.haveChain = false ∨ elapsed now t.h.chainAtMs chainSampleMs) then
        { t with h := { t.h with
          chainReportsIn := t.h.deviceDrops.reportsIn, chainAtMs := now, haveChain := true } }
      else t
    if t.h.haveNegotiated ∧ elapsed now t.h.lastDeviceFrameAt absentMs then
      t.dropConnection now .deviceSilent absentMs.toInt32 0
    else
      let t := (t.tickReadings now).tickHeartbeat now
      if t.h.state = .notPaired ∧
          (t.h.pairingRequested = false ∨ elapsed now t.h.pairingRequestedAt pairingRetryMs) then
        t.askToPair identity draw now
      else t

end Turn

/-- `dh_helper_emit`: the frame, and the machine with the counter it spent. -/
def emit (h : Helper) (type flags : UInt8) (body : List UInt8) (cap : Nat) :
    Except FrameFault (List UInt8) × Helper :=
  if !h.canSendBulk || !h.haveKeys then (.error .unknownType, h)
  else
    match Auth.frame type flags h.kH2b h.txCounter.toNat body cap with
    | .error fault => (.error fault, h)
    | .ok bytes => (.ok bytes, { h with txCounter := h.txCounter + 1 })

/-! ## Events -/

/-- The inputs of the machine, each with the time it comes at. -/
inductive Event where
  | deviceAppeared (which : DeviceIdentity)
  | deviceDisappeared
  | hostSleep (asleep : Bool)
  | channelsAcquired (count : UInt8) (draw : Draw)
  | acquisitionRefused (acquired total : UInt8)
  | received (channel : UInt8) (data : List UInt8) (draw : Draw)
  | transportFailed
  | noteSent
  | noteSendRefused
  | tick (draw : Draw)

/-- One input, with the outputs it causes. -/
def handle (identity : Identity) (h : Helper) (now : UInt32) : Event → Turn
  | .deviceAppeared which => Turn.deviceAppeared { h := h } which now
  | .deviceDisappeared => Turn.deviceDisappeared { h := h } now
  | .hostSleep asleep => Turn.hostSleep { h := h } asleep now
  | .channelsAcquired count draw => Turn.channelsAcquired identity { h := h } count draw now
  | .acquisitionRefused acquired total => Turn.acquisitionRefused { h := h } acquired total now
  | .received channel data draw => Turn.receivedChannel identity { h := h } channel data draw now
  | .transportFailed => Turn.transportFailed { h := h } now
  | .noteSent => Turn.noteSent { h := h } now
  | .noteSendRefused => Turn.noteSendRefused { h := h }
  | .tick draw => Turn.tick identity { h := h } draw now

/-- A call on the machine: an input, or a frame to build. -/
inductive Call where
  | input (now : UInt32) (event : Event)
  | emit (type flags : UInt8) (body : List UInt8) (cap : Nat)

/-- The machine after a call. -/
def call (identity : Identity) (h : Helper) : Call → Helper
  | .input now event => (h.handle identity now event).h
  | .emit type flags body cap => (h.emit type flags body cap).2

/-- The machine can be reached by calls from a start with or without a pinned key. -/
def Reachable (identity : Identity) (h : Helper) : Prop :=
  ∃ boardPublicKey calls, Runs.run (call identity) (init boardPublicKey) calls = h

end DeskhopPlus.Helper
