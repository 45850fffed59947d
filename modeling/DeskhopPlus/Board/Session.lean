import DeskhopPlus.Auth.Window
import DeskhopPlus.Board.Pair
import DeskhopPlus.Outq.Queue

/-!
# The session layer of the board

`dh_session.c` as the board runs it: the hello and its answer, the pairing request and its answer,
the authentication of every other frame, the frames the board owes its helper, and the ways a
session ends. A function that may write a frame returns its bytes; no bytes stand for an output
length of zero.

`helloVerdict` is the part of `answer_hello` that decides, up to and including the tag; what
follows it changes the session only for a hello that proved itself.
-/

namespace DeskhopPlus.Board

open Bytes Wire Auth Crypto Outq ReplayWindow

/-- `DH_PROTO_VERSION`. -/
def protoVersion : Nat := 7

/-- `DH_SESSION_CHANNEL_COUNT`. -/
def sessionChannelCount : UInt8 := 2

/-- `DH_SESSION_MAX_CHUNK`. -/
def sessionMaxChunk : Nat := 1024

/-- `DH_SESSION_MIN_CHUNK`. -/
def sessionMinChunk : Nat := 64

/-- `DH_SESSION_HEARTBEAT_MS`. -/
def heartbeatMs : UInt32 := 1000

/-- `DH_SESSION_ABSENT_MS`. -/
def absentMs : UInt32 := 3000

/-- `DH_LISTENER_WINDOW_MS`. -/
def listenerWindowMs : UInt32 := 10000

/-- `DH_LISTENER_THRESHOLD`. -/
def listenerThreshold : Nat := 4

/-- `DH_HELLO_LEN`. -/
def helloLen : Nat := 39

/-- `DH_PAIR_REQUEST_LEN`. -/
def pairRequestLen : Nat := 8 + publicSize

/-- `DH_PAIR_GRANT_LEN`. -/
def pairGrantLen : Nat := 8 + publicSize

/-- `DH_SESSION_REPLY_MAX`. -/
def replyMax : Nat := headerSize + pairGrantLen

/-- `DH_CLIP_MAY_SEND | DH_CLIP_MAY_RECEIVE`. -/
def clipBothWays : UInt8 := 0x03

/-- `dh_build_type`. -/
inductive BuildType where
  | release
  | development
  deriving DecidableEq, Repr

/-- The byte of a build type. -/
def BuildType.byte : BuildType → UInt8
  | .release => 0
  | .development => 1

/-- `dh_session_end_reason`, the reasons the board sends. -/
inductive EndReason where
  | livenessTimeout
  | protocolError
  | unpaired
  deriving DecidableEq, Repr

/-- The byte of a reason. -/
def EndReason.byte : EndReason → UInt8
  | .livenessTimeout => 1
  | .protocolError => 2
  | .unpaired => 3

/-- `dh_hello_refused_status`, the statuses the board sends. -/
inductive RefusedStatus where
  | versionIncompatible
  | unpaired
  deriving DecidableEq, Repr

/-- The byte of a status. -/
def RefusedStatus.byte : RefusedStatus → UInt8
  | .versionIncompatible => 2
  | .unpaired => 3

/-! ## Message bodies -/

/-- `dh_hello`. -/
structure Hello where
  protoVersion : Nat
  os : UInt8
  buildType : UInt8
  channelCount : UInt8
  maxChunk : Nat
  correlation : Nat
  helperKeyId : List UInt8
  helperNonce : List UInt8
  deriving DecidableEq, Repr

/-- `dh_hello_decode`. -/
def helloDecode (body : List UInt8) : Option Hello :=
  if body.length ≠ helloLen then none
  else
    some
      { protoVersion := value (body.take 2)
        os := body.getD 2 0
        buildType := body.getD 3 0
        channelCount := body.getD 4 0
        maxChunk := value ((body.drop 5).take 2)
        correlation := value ((body.drop 7).take 8)
        helperKeyId := (body.drop 15).take keyIdSize
        helperNonce := (body.drop 23).take nonceSize }

/-- The body `dh_hello_encode` writes. -/
def Hello.body (hello : Hello) : List UInt8 :=
  littleEndian 2 hello.protoVersion ++
    [hello.os, hello.buildType, hello.channelCount] ++
    littleEndian 2 hello.maxChunk ++ littleEndian 8 hello.correlation ++
    hello.helperKeyId ++ hello.helperNonce

/-- `dh_hello_encode`. -/
def helloEncode (hello : Hello) (key : List UInt8) (counter cap : Nat) :
    Except FrameFault (List UInt8) :=
  Auth.frame Msg.hello 0 key counter hello.body cap

/-- `dh_hello_ack`. -/
structure HelloAck where
  correlation : Nat
  protoVersion : Nat
  buildType : UInt8
  channelCount : UInt8
  maxChunk : Nat
  boardNonce : List UInt8
  deriving DecidableEq, Repr

/-- `dh_hello_ack_encode`. -/
def helloAckEncode (ack : HelloAck) (key : List UInt8) (counter cap : Nat) :
    Except FrameFault (List UInt8) :=
  Auth.frame Msg.helloAck 0 key counter
    (littleEndian 8 ack.correlation ++ littleEndian 2 ack.protoVersion ++
      [ack.buildType, ack.channelCount] ++ littleEndian 2 ack.maxChunk ++ ack.boardNonce) cap

/-- `dh_hello_refused_encode` as `refuse_hello` calls it. -/
def refuseHello (correlation : Nat) (status : RefusedStatus) (cap : Nat) :
    Except FrameFault (List UInt8) :=
  encode Msg.helloRefused 0
    (littleEndian 8 correlation ++ littleEndian 2 protoVersion ++ [status.byte]) cap

/-- `dh_pair_request`. -/
structure PairRequest where
  correlation : Nat
  helperPublic : List UInt8
  deriving DecidableEq, Repr

/-- `dh_pair_request_decode`. -/
def pairRequestDecode (body : List UInt8) : Option PairRequest :=
  if body.length ≠ pairRequestLen then none
  else some { correlation := value (body.take 8), helperPublic := (body.drop 8).take publicSize }

/-- `dh_pair_grant_encode`. -/
def pairGrantEncode (correlation : Nat) (boardPublic : List UInt8) (cap : Nat) :
    Except FrameFault (List UInt8) :=
  encode Msg.pairGrant 0 (littleEndian 8 correlation ++ boardPublic) cap

/-- `dh_pair_refused_encode`. The reason is one for a window someone else claimed. -/
def pairRefusedEncode (correlation : Nat) (reason : UInt8) (cap : Nat) :
    Except FrameFault (List UInt8) :=
  encode Msg.pairRefused 0 (littleEndian 8 correlation ++ [reason]) cap

/-- `dh_device_drops`. -/
structure DeviceDrops where
  reports : Nat
  inbound : Nat
  outq : Nat
  unsent : Nat
  orphans : Nat
  truncated : Nat
  relayQ : Nat
  outqPriority : Nat
  outqBadHeader : Nat
  framesIn : Nat
  reportsIn : Nat
  framesRefused : Nat
  deriving DecidableEq, Repr

/-- `drops_write`. -/
def DeviceDrops.write (d : DeviceDrops) : List UInt8 :=
  ([d.reports, d.inbound, d.outq, d.unsent, d.orphans, d.truncated, d.relayQ, d.outqPriority,
    d.outqBadHeader, d.framesIn, d.reportsIn, d.framesRefused].map (littleEndian 4)).flatten

/-- The totals of a board that has just started. -/
def DeviceDrops.zero : DeviceDrops where
  reports := 0
  inbound := 0
  outq := 0
  unsent := 0
  orphans := 0
  truncated := 0
  relayQ := 0
  outqPriority := 0
  outqBadHeader := 0
  framesIn := 0
  reportsIn := 0
  framesRefused := 0

/-! ## The session -/

/-- `dh_session`, with the alert it may owe in `alertWindowMs` and `alertRefused`. -/
structure Session where
  present : Bool
  buildType : BuildType
  peerOs : UInt8
  channelCount : UInt8
  maxChunk : Nat
  lastSeenMs : UInt32
  framesIn : Nat
  sessions : Nat
  framesRefused : Nat
  lastSentMs : UInt32
  kH2b : List UInt8
  kB2h : List UInt8
  rx : AuthCounter
  txCounter : UInt64
  stagedNonce : List UInt8
  nonceStaged : Bool
  windowStartedMs : UInt32
  refusedInWindow : Nat
  windowStarted : Bool
  refusedAsRegistered : Bool
  alertPending : Bool
  alertWindowMs : UInt32
  alertRefused : Nat
  clipFlags : UInt8
  clipPolicyOwed : Bool
  clipCapMb : UInt8
  drops : DeviceDrops
  dropsOwed : Bool
  dropsSentMs : UInt32
  dropsEverSent : Bool
  deriving DecidableEq, Repr

/-- `encode_tagged`. -/
def encodeTagged (type flags : UInt8) (key : List UInt8) (counter : UInt64) (body : List UInt8)
    (cap : Nat) : Except FrameFault (List UInt8) :=
  Auth.frame type flags key counter.toNat body cap

namespace Session

/-- `dh_session_init`. -/
def init (buildType : BuildType) : Session where
  present := false
  buildType := buildType
  peerOs := 0
  channelCount := 0
  maxChunk := 0
  lastSeenMs := 0
  framesIn := 0
  sessions := 0
  framesRefused := 0
  lastSentMs := 0
  kH2b := List.replicate sessionKeySize 0
  kB2h := List.replicate sessionKeySize 0
  rx := AuthCounter.init
  txCounter := 0
  stagedNonce := List.replicate nonceSize 0
  nonceStaged := false
  windowStartedMs := 0
  refusedInWindow := 0
  windowStarted := false
  refusedAsRegistered := false
  alertPending := false
  alertWindowMs := 0
  alertRefused := 0
  clipFlags := clipBothWays
  clipPolicyOwed := false
  clipCapMb := 0
  drops := DeviceDrops.zero
  dropsOwed := false
  dropsSentMs := 0
  dropsEverSent := false

/-- `dh_session_stage_nonce`. -/
def stageNonce (s : Session) (nonce : List UInt8) : Session :=
  { s with stagedNonce := nonce.take nonceSize, nonceStaged := true }

/-- `dh_session_drop`. The staged nonce and the listener count survive. -/
def drop (s : Session) : Session :=
  { s with
    present := false
    peerOs := 0
    channelCount := 0
    maxChunk := 0
    lastSeenMs := 0
    lastSentMs := 0
    kH2b := List.replicate sessionKeySize 0
    kB2h := List.replicate sessionKeySize 0
    rx := AuthCounter.init
    txCounter := 0
    clipPolicyOwed := false
    dropsOwed := false
    dropsEverSent := false }

/-- `dh_session_set_clip_policy`. -/
def setClipPolicy (s : Session) (clipFlags capMb : UInt8) : Session :=
  if s.clipFlags = clipFlags ∧ s.clipCapMb = capMb then s
  else
    { s with
      clipFlags := clipFlags
      clipCapMb := capMb
      clipPolicyOwed := s.present || s.clipPolicyOwed }

/-- `dh_session_set_drops`. -/
def setDrops (s : Session) (drops : DeviceDrops) : Session :=
  if s.drops = drops then s else { s with drops := drops, dropsOwed := s.present || s.dropsOwed }

/-- `note_received`. -/
def noteReceived (s : Session) (now : UInt32) : Session :=
  if s.present = false then s else { s with lastSeenMs := now, framesIn := saturate s.framesIn }

/-- `dh_session_note_sent`. -/
def noteSent (s : Session) (now : UInt32) : Session := { s with lastSentMs := now }

/-- `dh_session_note_owed_sent`. -/
def noteOwedSent (s : Session) (type : UInt8) : Session :=
  let s := if type = Msg.listenerAlert then { s with alertPending := false } else s
  let s := if type = Msg.clipPolicy then { s with clipPolicyOwed := false } else s
  if type = Msg.deviceDrops then { s with dropsOwed := false } else s

/-- `note_refused`. -/
def noteRefused (s : Session) (now : UInt32) (asRegistered : Bool) : Session :=
  let s := { s with framesRefused := saturate s.framesRefused }
  let s :=
    if s.windowStarted = false then
      { s with
        windowStarted := true
        windowStartedMs := now
        refusedInWindow := 0
        refusedAsRegistered := false }
    else s
  { s with
    refusedInWindow := saturate s.refusedInWindow
    refusedAsRegistered := asRegistered || s.refusedAsRegistered }

/-- `close_listener_window`. -/
def closeListenerWindow (s : Session) (now : UInt32) : Session :=
  if s.windowStarted = false then s
  else if now - s.windowStartedMs < listenerWindowMs then s
  else
    let s :=
      if listenerThreshold ≤ s.refusedInWindow ∨ s.refusedAsRegistered = true then
        { s with
          alertWindowMs := listenerWindowMs
          alertRefused := s.refusedInWindow
          alertPending := true }
      else s
    { s with windowStarted := false, refusedInWindow := 0, refusedAsRegistered := false }

/-- `negotiate_chunk`. -/
def negotiateChunk (requested : Nat) : Nat :=
  if requested = 0 ∨ requested < sessionMinChunk then sessionMinChunk
  else if requested < sessionMaxChunk then requested
  else sessionMaxChunk

/-- `negotiate_channels`. -/
def negotiateChannels (requested : UInt8) : UInt8 :=
  if requested = 0 then 1
  else if requested < sessionChannelCount then requested
  else sessionChannelCount

/-- `no_secret`. -/
def noSecret : List UInt8 := List.replicate sharedSize 0

/-- `skips_authentication`. -/
def skipsAuthentication (s : Session) : Bool := s.buildType = .development

/-! ## The hello -/

/-- What the first three steps of `answer_hello` come to. -/
inductive HelloVerdict where
  | refused (correlation : Nat) (status : RefusedStatus)
  | silent
  | proved (hello : Hello) (sharedSecret : List UInt8)
  deriving DecidableEq, Repr

/-- The hello a frame carries behind its prefix, if it carries one. -/
def readHello (view : FrameView) : Option Hello :=
  if view.payload.length < authPrefixSize then none
  else helloDecode (view.payload.drop authPrefixSize)

/-- The first three steps of `answer_hello`, in its order: the version, the registration, the tag.
The tag is opened with a counter state of its own. -/
def helloVerdict (s : Session) (pair : Pair) (view : FrameView) : HelloVerdict :=
  match readHello view with
  | none => .refused 0 .versionIncompatible
  | some hello =>
      if hello.protoVersion ≠ protoVersion then
        .refused hello.correlation .versionIncompatible
      else
        let knownHelper := pair.secret.isSome && pair.isRegisteredKey hello.helperKeyId
        if !knownHelper && !s.skipsAuthentication then .refused hello.correlation .unpaired
        else
          let sharedSecret := pair.secret.getD noSecret
          if s.skipsAuthentication then .proved hello sharedSecret
          else
            let kHello := deriveHelloKey sharedSecret hello.helperNonce
            match (authOpen kHello view AuthCounter.init).1 with
            | .error _ => .silent
            | .ok _ => .proved hello sharedSecret

/-- The ack of `answer_hello`. -/
def helloAck (s : Session) (hello : Hello) : HelloAck where
  correlation := hello.correlation
  protoVersion := protoVersion
  buildType := s.buildType.byte
  channelCount := negotiateChannels hello.channelCount
  maxChunk := negotiateChunk hello.maxChunk
  boardNonce := s.stagedNonce

/-- The rest of `answer_hello` for a hello that proved itself, once a nonce is staged. -/
def startSession (s : Session) (hello : Hello) (sharedSecret : List UInt8) (now : UInt32)
    (cap : Nat) : Except FrameFault (List UInt8) × Session :=
  let ack := s.helloAck hello
  let keys := deriveSessionKeys sharedSecret hello.helperNonce s.stagedNonce
  let s :=
    { s with
      kH2b := keys.1
      kB2h := keys.2
      rx := AuthCounter.init
      txCounter := 0
      present := true
      sessions := saturate s.sessions
      peerOs := hello.os
      channelCount := ack.channelCount
      maxChunk := ack.maxChunk
      lastSeenMs := now
      lastSentMs := now
      clipPolicyOwed := true
      dropsOwed := true
      dropsEverSent := false }
  match helloAckEncode ack s.kB2h s.txCounter.toNat cap with
  | .error fault => (.error fault, s)
  | .ok bytes => (.ok bytes, { s with txCounter := s.txCounter + 1, nonceStaged := false })

/-- `answer_hello`. -/
def answerHello (s : Session) (pair : Pair) (view : FrameView) (now : UInt32) (cap : Nat) :
    Except FrameFault (List UInt8) × Session :=
  match s.helloVerdict pair view with
  | .refused correlation status => (refuseHello correlation status cap, s)
  | .silent => (.ok [], s.noteRefused now true)
  | .proved hello sharedSecret =>
      if s.nonceStaged = false then (.ok [], s) else s.startSession hello sharedSecret now cap

/-- `answer_pair_request`. -/
def answerPairRequest (curve : P256) (pair : Pair) (view : FrameView) (now : UInt32)
    (cap : Nat) : Except FrameFault (List UInt8) × Pair :=
  match pairRequestDecode view.payload with
  | none => (.ok [], pair)
  | some request =>
      match pair.register curve now request.helperPublic with
      | (.ok _, pair) =>
          -- a board that registered has an identity, so there is a public key to send
          (pairGrantEncode request.correlation (pair.publicKey.getD []) cap, pair)
      | (.error .badKey, pair) => (.ok [], pair)
      | (.error .noIdentity, pair) => (.ok [], pair)
      | (.error .alreadyRegistered, pair) => (pairRefusedEncode request.correlation 1 cap, pair)
      | (.error .noWindow, pair) => (pairRefusedEncode request.correlation 0 cap, pair)

/-! ## Every other frame -/

/-- `dh_session_authenticate`. -/
def authenticate (s : Session) (view : FrameView) (now : UInt32) :
    Except AuthFault (List UInt8) × Session :=
  if s.present = false then (.error .noKey, s)
  else if view.payload.length < authPrefixSize then (.error .short, s)
  else if s.skipsAuthentication then (.ok (bodyOf view), s.noteReceived now)
  else
    match authOpen s.kH2b view s.rx with
    | (.error fault, rx) => (.error fault, { s with rx := rx }.noteRefused now false)
    | (.ok body, rx) => (.ok body, { s with rx := rx }.noteReceived now)

/-- `dh_session_on_frame`. -/
def onFrame (curve : P256) (s : Session) (pair : Pair) (view : FrameView) (now : UInt32)
    (cap : Nat) : Except FrameFault (List UInt8) × Session × Pair :=
  if view.type = Msg.hello then
    let (reply, s) := s.answerHello pair view now cap
    (reply, s, pair)
  else if view.type = Msg.pairRequest then
    let (reply, pair) := answerPairRequest curve pair view now cap
    (reply, s, pair)
  else if view.type = Msg.heartbeat ∨ view.type = Msg.posResponse then
    (.ok [], (s.authenticate view now).2, pair)
  else (.ok [], s, pair)

/-- `dh_session_emit_relayed`. -/
def emitRelayed (s : Session) (view : FrameView) (cap : Nat) :
    Except FrameFault (List UInt8) × Session :=
  if s.present = false then (.error .unknownType, s)
  else
    match encodeTagged view.type view.flags s.kB2h s.txCounter view.payload cap with
    | .error fault => (.error fault, s)
    | .ok bytes => (.ok bytes, { s with txCounter := s.txCounter + 1 })

/-- `dh_session_end`. The frame is built under the key that the drop clears. -/
def finish (s : Session) (reason : EndReason) (silentMs : UInt32) (cap : Nat) :
    Except FrameFault (List UInt8) × Session :=
  if s.present = false then (.ok [], s)
  else
    (encodeTagged Msg.sessionEnd 0 s.kB2h s.txCounter
      (reason.byte :: littleEndian 4 silentMs.toNat) cap, s.drop)

/-- Tag a frame of the tick under the next counter, then do `after` to the session. -/
def tickFrame (s : Session) (type : UInt8) (body : List UInt8) (cap : Nat)
    (after : Session → Session) : Except FrameFault (List UInt8) × Session :=
  match encodeTagged type 0 s.kB2h s.txCounter body cap with
  | .error fault => (.error fault, s)
  | .ok bytes => (.ok bytes, after { s with txCounter := s.txCounter + 1 })

/-- `dh_session_tick`. A stamp ahead of the clock reads as no time elapsed: the difference that
judges the helper absent is signed. -/
def tick (s : Session) (now : UInt32) (cap : Nat) : Except FrameFault (List UInt8) × Session :=
  let s := s.closeListenerWindow now
  if s.present = false then (.ok [], s)
  else if absentMs.toInt32 ≤ (now - s.lastSeenMs).toInt32 then
    s.finish .livenessTimeout (now - s.lastSeenMs) cap
  else if s.clipPolicyOwed then
    s.tickFrame Msg.clipPolicy [s.clipFlags, s.clipCapMb] cap (·.noteSent now)
  else if s.alertPending then
    s.tickFrame Msg.listenerAlert
      (littleEndian 4 s.alertWindowMs.toNat ++ littleEndian 4 s.alertRefused) cap (·.noteSent now)
  else if s.dropsOwed ∧ (s.dropsEverSent = false ∨ heartbeatMs ≤ now - s.dropsSentMs) then
    s.tickFrame Msg.deviceDrops s.drops.write cap
      fun s ↦ { s with dropsSentMs := now, dropsEverSent := true }
  else if now - s.lastSentMs < heartbeatMs then (.ok [], s)
  else s.tickFrame Msg.deviceHeartbeat [] cap (·.noteSent now)

/-! ## What a frame is judged by -/

/-- The fields that decide whether a frame is taken, and those that key the next session. -/
structure Core where
  present : Bool
  buildType : BuildType
  kH2b : List UInt8
  rx : AuthCounter
  stagedNonce : List UInt8
  nonceStaged : Bool
  deriving DecidableEq, Repr

/-- The core of a session. -/
def core (s : Session) : Core :=
  { present := s.present, buildType := s.buildType, kH2b := s.kH2b, rx := s.rx,
    stagedNonce := s.stagedNonce, nonceStaged := s.nonceStaged }

/-- The core after a drop. -/
def Core.drop (k : Core) : Core :=
  { k with present := false, kH2b := List.replicate sessionKeySize 0, rx := AuthCounter.init }

@[simp] theorem core_drop (s : Session) : s.drop.core = s.core.drop := rfl

@[simp] theorem Core.drop_drop (k : Core) : k.drop.drop = k.drop := rfl

@[simp] theorem core_noteSent (s : Session) (now : UInt32) : (s.noteSent now).core = s.core := rfl

@[simp] theorem core_noteReceived (s : Session) (now : UInt32) :
    (s.noteReceived now).core = s.core := by
  unfold noteReceived
  split <;> rfl

@[simp] theorem core_noteOwedSent (s : Session) (type : UInt8) :
    (s.noteOwedSent type).core = s.core := by
  unfold noteOwedSent
  split <;> split <;> split <;> rfl

@[simp] theorem core_setClipPolicy (s : Session) (clipFlags capMb : UInt8) :
    (s.setClipPolicy clipFlags capMb).core = s.core := by
  unfold setClipPolicy
  split <;> rfl

@[simp] theorem core_setDrops (s : Session) (drops : DeviceDrops) :
    (s.setDrops drops).core = s.core := by
  unfold setDrops
  split <;> rfl

@[simp] theorem core_closeListenerWindow (s : Session) (now : UInt32) :
    (s.closeListenerWindow now).core = s.core := by
  unfold closeListenerWindow
  split
  · rfl
  · split
    · rfl
    · split <;> rfl

@[simp] theorem core_emitRelayed (s : Session) (view : FrameView) (cap : Nat) :
    (s.emitRelayed view cap).2.core = s.core := by
  unfold emitRelayed
  split
  · rfl
  · split <;> rfl

/-- Without a session nothing is tagged. -/
theorem emitRelayed_absent {s : Session} (h : s.present = false) (view : FrameView) (cap : Nat) :
    s.emitRelayed view cap = (.error .unknownType, s) := by
  rw [emitRelayed, if_pos h]

/-- Without a session there is none to end. -/
theorem finish_absent {s : Session} (h : s.present = false) (reason : EndReason)
    (silentMs : UInt32) (cap : Nat) : s.finish reason silentMs cap = (.ok [], s) := by
  rw [finish, if_pos h]

/-- Ending a session drops it. -/
theorem core_finish (s : Session) (reason : EndReason) (silentMs : UInt32) (cap : Nat) :
    (s.finish reason silentMs cap).2.core = s.core ∨
      (s.finish reason silentMs cap).2.core = s.core.drop := by
  unfold finish
  split
  · exact .inl rfl
  · exact .inr rfl

theorem core_tickFrame {s : Session} {after : Session → Session}
    (hafter : ∀ s, (after s).core = s.core) (type : UInt8) (body : List UInt8) (cap : Nat) :
    (s.tickFrame type body cap after).2.core = s.core := by
  unfold tickFrame
  split
  · rfl
  · exact hafter _

/-- A tick leaves the core alone, or ends the session. -/
theorem core_tick (s : Session) (now : UInt32) (cap : Nat) :
    (s.tick now cap).2.core = s.core ∨ (s.tick now cap).2.core = s.core.drop := by
  have hclosed := core_closeListenerWindow s now
  have hsent : ∀ s : Session, (s.noteSent now).core = s.core := fun _ ↦ rfl
  unfold tick
  simp only
  generalize s.closeListenerWindow now = closed at hclosed
  rw [← hclosed]
  split
  · exact .inl rfl
  · split
    · exact core_finish _ _ _ _
    · split
      · exact .inl (core_tickFrame hsent _ _ _)
      · split
        · exact .inl (core_tickFrame hsent _ _ _)
        · split
          · refine .inl (core_tickFrame ?_ _ _ _)
            intro s
            rfl
          · split
            · exact .inl rfl
            · exact .inl (core_tickFrame hsent _ _ _)

/-- Without a session a tick says nothing. -/
theorem tick_absent {s : Session} (h : s.present = false) (now : UInt32) (cap : Nat) :
    (s.tick now cap).1 = .ok [] := by
  have hpresent : (s.closeListenerWindow now).present = s.present :=
    congrArg Core.present (core_closeListenerWindow s now)
  unfold tick
  simp only
  rw [if_pos (hpresent.trans h)]

/-! ## What a frame that is not taken leaves behind -/

/-- The sessions differ in the counts of refused frames and the listener window, and nowhere
else. -/
def SameButRefusals (s s' : Session) : Prop :=
  s' =
    { s with
      framesRefused := s'.framesRefused
      windowStartedMs := s'.windowStartedMs
      refusedInWindow := s'.refusedInWindow
      windowStarted := s'.windowStarted
      refusedAsRegistered := s'.refusedAsRegistered }

theorem SameButRefusals.refl (s : Session) : SameButRefusals s s := rfl

theorem sameButRefusals_noteRefused (s : Session) (now : UInt32) (asRegistered : Bool) :
    SameButRefusals s (s.noteRefused now asRegistered) := by
  unfold SameButRefusals noteRefused
  simp only
  split <;> rfl

theorem SameButRefusals.core_eq {s s' : Session} (h : SameButRefusals s s') :
    s'.core = s.core := by
  rw [h]
  rfl

/-- A release build takes a frame of a session exactly when `dh_auth_open` does, and a frame it
does not take leaves no trace but in the counts. -/
theorem authenticate_cases {s : Session} (hrelease : s.buildType = .release) (view : FrameView)
    (now : UInt32) :
    (s.present = true ∧ Opens s.kH2b s.rx view ∧
        (s.authenticate view now).1 = .ok (bodyOf view) ∧
        (s.authenticate view now).2.core = { s.core with rx := (authOpen s.kH2b view s.rx).2 }) ∨
      (¬ (s.present = true ∧ Opens s.kH2b s.rx view) ∧
        (∃ fault, (s.authenticate view now).1 = .error fault) ∧
        SameButRefusals s (s.authenticate view now).2) := by
  have hchecks : s.skipsAuthentication = false := by simp [skipsAuthentication, hrelease]
  unfold authenticate
  by_cases habsent : s.present = false
  · rw [if_pos habsent]
    exact .inr ⟨by simp [habsent], ⟨_, rfl⟩, .refl s⟩
  · have hpresent : s.present = true := by simpa using habsent
    rw [if_neg habsent]
    by_cases hshort : view.payload.length < authPrefixSize
    · have hnot : ¬ Opens s.kH2b s.rx view := by
        rintro ⟨body, hbody⟩
        simp [authOpen, hshort] at hbody
      rw [if_pos hshort]
      exact .inr ⟨fun h ↦ hnot h.2, ⟨_, rfl⟩, .refl s⟩
    · rw [if_neg hshort, hchecks]
      cases hresult : authOpen s.kH2b view s.rx with
      | mk result rx =>
          cases result with
          | error fault =>
              have hrx := authOpen_error hresult
              subst hrx
              refine .inr ⟨?_, ⟨fault, rfl⟩, sameButRefusals_noteRefused s now false⟩
              rintro ⟨-, body, hbody⟩
              rw [hresult] at hbody
              cases hbody
          | ok body =>
              have hbody := authOpen_ok hresult
              subst hbody
              refine .inl ⟨hpresent, ⟨_, congrArg Prod.fst hresult⟩, rfl, ?_⟩
              exact core_noteReceived _ _

/-- The frame carries a hello of this version that names the registered helper. -/
def NamesHelper (pair : Pair) (view : FrameView) : Prop :=
  ∃ hello, readHello view = some hello ∧ hello.protoVersion = protoVersion ∧
    pair.isRegisteredKey hello.helperKeyId = true

/-- The frame carries the tag of the key that the registered secret and its own nonce give. -/
def HelloVerifies (pair : Pair) (view : FrameView) : Prop :=
  ∃ hello sharedSecret, readHello view = some hello ∧ pair.secret = some sharedSecret ∧
    TagVerifies (deriveHelloKey sharedSecret hello.helperNonce) view

theorem Pair.secret_of_registeredKey {pair : Pair} {keyId : List UInt8}
    (h : pair.isRegisteredKey keyId = true) : pair.secret = some pair.sharedSecret := by
  unfold Pair.isRegisteredKey at h
  split at h
  · cases h
  · rename_i hregistered
    rw [Pair.secret, if_pos (by simpa using hregistered)]

/-- The verdicts of a release build: a hello that names no registered helper is refused, one that
does is proved by its tag or passed over in silence. -/
theorem helloVerdict_cases {s : Session} (hrelease : s.buildType = .release) (pair : Pair)
    (view : FrameView) :
    (¬ NamesHelper pair view ∧
        ∃ correlation status, s.helloVerdict pair view = .refused correlation status) ∨
      (NamesHelper pair view ∧ ¬ HelloVerifies pair view ∧ s.helloVerdict pair view = .silent) ∨
      (NamesHelper pair view ∧ ∃ hello sharedSecret, readHello view = some hello ∧
        pair.secret = some sharedSecret ∧
        TagVerifies (deriveHelloKey sharedSecret hello.helperNonce) view ∧
        s.helloVerdict pair view = .proved hello sharedSecret) := by
  have hchecks : s.skipsAuthentication = false := by simp [skipsAuthentication, hrelease]
  unfold helloVerdict
  cases hread : readHello view with
  | none =>
      refine .inl ⟨?_, _, _, rfl⟩
      rintro ⟨hello, hsome, -⟩
      rw [hread] at hsome
      cases hsome
  | some hello =>
      simp only [hchecks, Bool.not_false, Bool.and_true, Bool.false_eq_true, if_false]
      by_cases hversion : hello.protoVersion = protoVersion
      · rw [if_neg (not_not.2 hversion)]
        by_cases hknown : pair.isRegisteredKey hello.helperKeyId = true
        · have hsecret := Pair.secret_of_registeredKey hknown
          simp only [hsecret, hknown, Option.isSome_some, Bool.and_self, Bool.not_true,
            Bool.false_eq_true, if_false, Option.getD_some]
          cases hopen : (authOpen (deriveHelloKey pair.sharedSecret hello.helperNonce) view
              AuthCounter.init).1 with
          | ok body =>
              have htag := ((opens_iff recording_init).1 ⟨body, hopen⟩).1
              exact .inr (.inr ⟨⟨hello, hread, hversion, hknown⟩, hello, pair.sharedSecret, rfl,
                rfl, htag, rfl⟩)
          | error fault =>
              refine .inr (.inl ⟨⟨hello, hread, hversion, hknown⟩, ?_, rfl⟩)
              -- a fresh counter state admits every counter, so it was the tag
              rintro ⟨hello', sharedSecret, hread', hsecret', htag⟩
              rw [hread] at hread'
              rw [hsecret] at hsecret'
              cases hread'
              cases hsecret'
              obtain ⟨body, hbody⟩ := (opens_iff recording_init).2 ⟨htag, admits_nil _ _⟩
              rw [hopen] at hbody
              cases hbody
        · refine .inl ⟨?_, hello.correlation, .unpaired, ?_⟩
          · rintro ⟨hello', hsome, -, hknown'⟩
            rw [hread] at hsome
            cases hsome
            exact hknown hknown'
          · simp [hknown]
      · rw [if_pos hversion]
        refine .inl ⟨?_, _, _, rfl⟩
        rintro ⟨hello', hsome, hversion', -⟩
        rw [hread] at hsome
        cases hsome
        exact hversion hversion'

/-- The frame carries a hello of the registered helper with the tag of the key its own nonce
gives. -/
structure ProvesHello (pair : Pair) (view : FrameView) (hello : Hello)
    (sharedSecret : List UInt8) : Prop where
  named : NamesHelper pair view
  read : readHello view = some hello
  secret : pair.secret = some sharedSecret
  tag : TagVerifies (deriveHelloKey sharedSecret hello.helperNonce) view

/-- The hellos a release build finds proved. -/
theorem helloVerdict_proved_iff {s : Session} (hrelease : s.buildType = .release) {pair : Pair}
    {view : FrameView} {hello : Hello} {sharedSecret : List UInt8} :
    s.helloVerdict pair view = .proved hello sharedSecret ↔
      ProvesHello pair view hello sharedSecret := by
  rcases helloVerdict_cases hrelease pair view with
    ⟨hunnamed, correlation, status, hrefused⟩ | ⟨-, hfails, hsilent⟩ |
      ⟨hnamed, hello', secret, hread, hsecret, htag, hproved⟩
  · rw [hrefused]
    exact ⟨nofun, fun h ↦ absurd h.named hunnamed⟩
  · rw [hsilent]
    exact ⟨nofun, fun h ↦ absurd ⟨hello, sharedSecret, h.read, h.secret, h.tag⟩ hfails⟩
  · rw [hproved]
    constructor
    · intro h
      cases h
      exact ⟨hnamed, hread, hsecret, htag⟩
    · intro h
      have hsame := hread.symm.trans h.read
      have hsame' := hsecret.symm.trans h.secret
      cases hsame
      cases hsame'
      rfl

/-- The refusal of a hello fits the reply buffer. -/
theorem refuseHello_fits (correlation : Nat) (status : RefusedStatus) :
    ∃ rest, refuseHello correlation status replyMax = .ok (Msg.helloRefused :: rest) := by
  have hknown : Msg.known Msg.helloRefused = true := by decide
  simp only [refuseHello, encode, List.length_append, littleEndian_length, List.length_singleton,
    hknown]
  exact ⟨_, rfl⟩

/-- The ack of a hello fits the reply buffer. -/
theorem helloAckEncode_fits {ack : HelloAck} (hnonce : ack.boardNonce.length ≤ nonceSize)
    (key : List UInt8) (counter : Nat) :
    ∃ rest, helloAckEncode ack key counter replyMax = .ok (Msg.helloAck :: rest) := by
  have hbody : (littleEndian 8 ack.correlation ++ littleEndian 2 ack.protoVersion ++
      [ack.buildType, ack.channelCount] ++ littleEndian 2 ack.maxChunk ++
      ack.boardNonce).length ≤ 30 := by
    simp only [nonceSize] at hnonce
    simp
    omega
  refine ⟨_, frame_fits ?_ ?_⟩
  · simp only [authPrefixSize, counterSize, tagSize, maxPayload]
    omega
  · simp only [authPrefixSize, counterSize, tagSize, headerSize, replyMax, pairGrantLen, publicSize]
    omega

/-- What the start of a session makes of the core, and the ack that announces it. -/
theorem startSession_spec {s : Session} (hnonce : s.stagedNonce.length ≤ nonceSize) (hello : Hello)
    (sharedSecret : List UInt8) (now : UInt32) :
    (∃ rest, (s.startSession hello sharedSecret now replyMax).1 = .ok (Msg.helloAck :: rest)) ∧
      (s.startSession hello sharedSecret now replyMax).2.core =
        { s.core with
          present := true
          kH2b := (deriveSessionKeys sharedSecret hello.helperNonce s.stagedNonce).1
          rx := AuthCounter.init
          nonceStaged := false } := by
  have hack : (s.helloAck hello).boardNonce.length ≤ nonceSize := hnonce
  obtain ⟨rest, hfits⟩ := helloAckEncode_fits hack
    (deriveSessionKeys sharedSecret hello.helperNonce s.stagedNonce).2 (0 : UInt64).toNat
  unfold startSession
  simp only [hfits]
  exact ⟨⟨rest, rfl⟩, rfl⟩

end Session

end DeskhopPlus.Board
