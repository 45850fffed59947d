import DeskhopPlus.Helper.Capacity

/-!
# What an input can do to a helper's keys

`Core` is what decides which frames a helper sends and takes: its phase, the board's key, the nonce
and correlation of its hello, and the session keys. `handle_moves` says everything an input can do
to it, together with the authenticated frames the helper puts out on the way.
-/

namespace DeskhopPlus.Helper

open Bytes Wire Auth Crypto Board

/-- The part of the machine that the handshake is about. -/
structure Core where
  phase : Phase
  haveBoardKey : Bool
  boardPublicKey : List UInt8
  haveNonce : Bool
  helperNonce : List UInt8
  helloCorrelation : Nat
  haveKeys : Bool
  kH2b : List UInt8
  kB2h : List UInt8
  txCounter : UInt64
  acquiredChannels : UInt8
  negotiated : Negotiated
  deriving DecidableEq, Repr

/-- The core of the machine. -/
def core (h : Helper) : Core where
  phase := h.phase
  haveBoardKey := h.haveBoardKey
  boardPublicKey := h.boardPublicKey
  haveNonce := h.haveNonce
  helperNonce := h.helperNonce
  helloCorrelation := h.helloCorrelation
  haveKeys := h.haveKeys
  kH2b := h.kH2b
  kB2h := h.kB2h
  txCounter := h.txCounter
  acquiredChannels := h.acquiredChannels
  negotiated := h.negotiated

namespace Core

/-- The core without its secrets, in the given phase. -/
def forget (k : Core) (phase : Phase) : Core :=
  { k with
    phase := phase
    haveNonce := false
    helperNonce := List.replicate nonceSize 0
    haveKeys := false
    kH2b := List.replicate sessionKeySize 0
    kB2h := List.replicate sessionKeySize 0
    txCounter := 0 }

/-- The core with the nonce and the correlation of a new hello. -/
def say (k : Core) (draw : Draw) : Core :=
  { k with
    haveNonce := true
    helperNonce := draw.nonce
    helloCorrelation := draw.helloCorrelation.toNat }

/-- The core with a key of the board pinned. -/
def pin (k : Core) (boardPublic : List UInt8) : Core :=
  { k with boardPublicKey := boardPublic, haveBoardKey := true }

end Core

/-- The hello of a helper, as `build_hello` fills it in. -/
def helloOf (identity : Identity) (configMode : Bool) (draw : Draw) : Hello where
  protoVersion := protoVersion
  os := identity.os
  buildType := identity.buildType
  channelCount := if configMode then 1 else sessionChannelCount
  maxChunk := sessionMaxChunk
  correlation := draw.helloCorrelation.toNat
  helperKeyId := identity.keyId
  helperNonce := draw.nonce

/-- The frame of that hello. -/
def helloView (identity : Identity) (configMode : Bool) (shared : List UInt8) (draw : Draw) :
    FrameView :=
  builtView Msg.hello 0 (deriveHelloKey shared draw.nonce) 0
    (helloOf identity configMode draw).body

/-- The heartbeat of a session. -/
def heartbeatView (key : List UInt8) (counter : UInt64) : FrameView :=
  builtView Msg.heartbeat 0 key counter.toNat []

/-- An ack the helper takes: keyed with its nonce and the one the frame carries, echoing its
correlation, and asking for no more channels than it holds. -/
structure Accepts (k : Core) (shared : List UInt8) (view : FrameView) (boardNonce : List UInt8)
    (ack : HelloAck) : Prop where
  type_eq : view.type = Msg.helloAck
  awaiting : k.phase = .awaitingAck
  nonce : k.haveNonce = true
  peeked : Turn.peekBoardNonce view = some boardNonce
  tag : TagVerifies (deriveSessionKeys shared k.helperNonce boardNonce).2 view
  body : helloAckDecode (bodyOf view) = some ack
  correlation : ack.correlation = k.helloCorrelation
  some_channel : ack.channelCount ≠ 0
  channels_le : ack.channelCount ≤ sessionChannelCount
  acquired_le : ack.channelCount ≤ k.acquiredChannels

/-- The core after an ack. -/
def Core.accept (k : Core) (shared boardNonce : List UInt8) (ack : HelloAck) : Core :=
  { k with
    phase := .live
    haveKeys := true
    kH2b := (deriveSessionKeys shared k.helperNonce boardNonce).1
    kB2h := (deriveSessionKeys shared k.helperNonce boardNonce).2
    txCounter := 0
    negotiated := ⟨ack.channelCount, ack.maxChunk, ack.buildType⟩ }

/-- Everything an input can do to the core, with the authenticated frames it puts out. -/
inductive Moves (identity : Identity) (handed : Option FrameView) :
    Core → List (List UInt8) → Core → Prop where
  /-- Nothing of the handshake changes. -/
  | keeps (k : Core) : Moves identity handed k [] k
  /-- A heartbeat goes out under the session key and spends its counter. -/
  | beats (k : Core) (hkeys : k.haveKeys = true) :
      Moves identity handed k [(heartbeatView k.kH2b k.txCounter).bytes]
        { k with txCounter := k.txCounter + 1 }
  /-- The secrets are forgotten; a hello that could not be built has spent its correlation. -/
  | forgets (k : Core) (correlation : Nat) (acquired : UInt8) {phase : Phase}
      (hphase : phase ≠ .awaitingAck) :
      Moves identity handed k []
        ({ k with helloCorrelation := correlation, acquiredChannels := acquired }.forget phase)
  /-- The channels are open, and a hello goes out. -/
  | acquires (k : Core) {shared : List UInt8} (acquired : UInt8) (configMode : Bool) (draw : Draw)
      (hkey : k.haveBoardKey = true) (hshared : identity.ecdh k.boardPublicKey = some shared) :
      Moves identity handed k [(helloView identity configMode shared draw).bytes]
        (({ k with acquiredChannels := acquired }.forget .awaitingAck).say draw)
  /-- A grant pins the board's key, which is the one pinned already if there is one, and a hello
  goes out. -/
  | granted (k : Core) {shared boardPublic : List UInt8} (configMode : Bool) (draw : Draw)
      (hpinned : k.haveBoardKey = true → k.boardPublicKey = boardPublic)
      (hshared : identity.ecdh boardPublic = some shared) :
      Moves identity handed k [(helloView identity configMode shared draw).bytes]
        { (k.pin boardPublic).say draw with phase := .awaitingAck }
  /-- A grant with a key no hello can be built on. -/
  | botches (k : Core) (draw : Draw)
      (hkey : k.haveBoardKey = true → identity.ecdh k.boardPublicKey = none) :
      Moves identity handed k [] (k.say draw)
  /-- An ack is taken. -/
  | accepts (k : Core) {shared boardNonce : List UInt8} {view : FrameView} {ack : HelloAck}
      (hhanded : handed = some view) (hkey : k.haveBoardKey = true)
      (hshared : identity.ecdh k.boardPublicKey = some shared)
      (haccepts : Accepts k shared view boardNonce ack) :
      Moves identity handed k [] (k.accept shared boardNonce ack)

/-! ## Turns -/

/-- A frame whose type asks for a tag. -/
def taggedFrame : Output → Option (List UInt8)
  | .send bytes => if bytes.head?.any Msg.isAuthenticated then some bytes else none
  | _ => none

namespace Turn

/-- The authenticated frames sent so far. -/
def tagged (t : Turn) : List (List UInt8) := t.o.items.filterMap taggedFrame

/-- Between the two turns neither the core changed nor an authenticated frame went out. -/
structure Still (t t' : Turn) : Prop where
  core : t'.h.core = t.h.core
  tagged : t'.tagged = t.tagged

/-- Between the two turns the session was forgotten, and no authenticated frame went out. -/
structure Drops (t t' : Turn) : Prop where
  core : t'.h.core = t.h.core.forget .idle
  tagged : t'.tagged = t.tagged

/-- Between the two turns the core moved once. -/
def Move (identity : Identity) (handed : Option FrameView) (t t' : Turn) : Prop :=
  ∃ sent, t'.tagged = t.tagged ++ sent ∧ Moves identity handed t.h.core sent t'.h.core

namespace Still

variable {t t' t'' : Turn} {identity : Identity} {handed : Option FrameView}

/-- Nothing happens. -/
theorem refl (t : Turn) : Still t t := ⟨rfl, rfl⟩

/-- The machine was changed outside its core. -/
theorem of_core {h : Helper} (hcore : h.core = t.h.core) : Still t { t with h := h } := ⟨hcore, rfl⟩

/-- A part that may be skipped. -/
theorem ite {p : Prop} [Decidable p] (h : Still t t') : Still t (if p then t' else t) := by
  split
  · exact h
  · exact refl t

/-- One after the other. -/
theorem trans (h : Still t t') (h' : Still t' t'') : Still t t'' :=
  ⟨h'.core.trans h.core, h'.tagged.trans h.tagged⟩

/-- A part that is still before the session is dropped. -/
theorem drops (h : Still t t') (h' : Drops t' t'') : Drops t t'' :=
  ⟨by rw [h'.core, h.core], h'.tagged.trans h.tagged⟩

/-- What is still is a move that says nothing. -/
theorem move (h : Still t t') : Move identity handed t t' := by
  refine ⟨[], by rw [h.tagged, List.append_nil], ?_⟩
  rw [h.core]
  exact .keeps _

/-- What moves after a still part moves from its start. -/
theorem then_move (h : Still t t') (h' : Move identity handed t' t'') :
    Move identity handed t t'' := by
  obtain ⟨sent, htagged, hmoves⟩ := h'
  refine ⟨sent, by rw [htagged, h.tagged], ?_⟩
  rwa [h.core] at hmoves

end Still

/-- A still part after a move leaves the move. -/
theorem Move.after {t t' t'' : Turn} {identity : Identity} {handed : Option FrameView}
    (h : Move identity handed t t') (h' : Still t' t'') : Move identity handed t t'' := by
  obtain ⟨sent, htagged, hmoves⟩ := h
  refine ⟨sent, by rw [h'.tagged, htagged], ?_⟩
  rwa [h'.core]

/-- A part that is still after it. -/
theorem Drops.then_still {t t' t'' : Turn} (h : Drops t t') (h' : Still t' t'') : Drops t t'' :=
  ⟨by rw [h'.core, h.core], h'.tagged.trans h.tagged⟩

/-- Dropping the session is a move. -/
theorem Drops.move {t t' : Turn} {identity : Identity} {handed : Option FrameView}
    (h : Drops t t') :
    Move identity handed t t' := by
  refine ⟨[], by rw [h.tagged, List.append_nil], ?_⟩
  rw [h.core]
  exact .forgets t.h.core t.h.core.helloCorrelation t.h.core.acquiredChannels (by decide)

/-- It may be left out. -/
theorem Drops.move_ite {t t' : Turn} {identity : Identity} {handed : Option FrameView} {p : Prop}
    [Decidable p] (h : Drops t t') : Move identity handed t (if p then t' else t) := by
  split
  · exact h.move
  · exact (Still.refl t).move

variable (t : Turn)

/-- An output leaves the machine alone. -/
@[simp] theorem put_h (item : Output) : (t.put item).h = t.h := by
  unfold put
  split <;> rfl

/-- An output that is no authenticated frame. -/
theorem still_put {item : Output} (hnone : taggedFrame item = none) : Still t (t.put item) := by
  refine ⟨by rw [put_h], ?_⟩
  unfold put
  split
  · rfl
  · simp [tagged, hnone]

/-- An authenticated frame is sent while there is room for it. -/
theorem tagged_send (frame : FrameView) (hauth : Msg.isAuthenticated frame.type = true)
    (hlength : frame.bytes.length ≤ frameMax) (hroom : t.o.items.length < outputsMax) :
    (t.send frame.bytes).tagged = t.tagged ++ [frame.bytes] := by
  have hhead : frame.bytes.head? = some frame.type := rfl
  have hitem : taggedFrame (.send frame.bytes) = some frame.bytes := by
    simp [taggedFrame, hhead, hauth]
  unfold send put
  rw [List.take_of_length_le hlength, if_neg (Nat.not_le.2 hroom)]
  simp [tagged, hitem]

/-- A note. -/
theorem still_putNote (note : Note) (a b : Int32) : Still t (t.putNote note a b) := still_put t rfl

/-- A state to tell. -/
theorem still_setState (next : UserState) : Still t (t.setState next) := by
  unfold setState
  split
  · exact .refl t
  · refine Still.trans ?_ (still_put _ rfl)
    exact .of_core rfl

/-- A retry. -/
theorem still_retry : Still t t.retry := by
  refine Still.trans ?_ (still_put _ rfl)
  exact .of_core rfl

/-- The word that reconnections repeat. -/
theorem still_reportRepeatedReconnection (now : UInt32) :
    Still t (t.reportRepeatedReconnection now) := by
  unfold reportRepeatedReconnection
  split
  · exact .refl t
  · refine Still.trans ?_ (still_setState _ _)
    split
    · exact still_putNote ..
    · split
      · exact still_putNote ..
      · exact .refl t

end Turn

/-- Recording a drop leaves the keys alone. -/
theorem core_recordDrop (h : Helper) (now : UInt32) : (h.recordDrop now).2.core = h.core := by
  unfold recordDrop
  split
  · rfl
  · split
    · rfl
    · split <;> rfl

/-- So does stamping the start. -/
theorem core_noteStarted (h : Helper) (now : UInt32) : (h.noteStarted now).core = h.core := by
  unfold noteStarted
  split <;> rfl

namespace Turn

variable (t : Turn)

/-- The session is forgotten. -/
theorem drops_forgetSession : Drops t { t with h := t.h.forgetSession } := ⟨rfl, rfl⟩

/-- The connection is dropped. -/
theorem drops_dropConnection (now : UInt32) (note : Note) (a b : Int32) :
    Drops t (t.dropConnection now note a b) := by
  have hcounted : Still t { t with h :=
      if (t.h.recordDrop now).1 && t.h.standsAlone now &&
          !(t.h.recordDrop now).2.endedOnPurpose note a now
      then (t.h.recordDrop now).2.noteSessionLoss now else (t.h.recordDrop now).2 } := by
    refine .of_core ?_
    split <;> exact core_recordDrop t.h now
  unfold dropConnection
  refine Drops.then_still ?_ (still_retry _)
  refine Drops.then_still ?_ (Still.ite (still_reportRepeatedReconnection _ now))
  refine Drops.then_still ?_ ((still_putNote ..).trans (still_put _ rfl))
  refine (hcounted.trans (Still.ite (still_putNote ..))).drops ⟨rfl, rfl⟩

/-- A pair request is not authenticated, so it goes unrecorded. -/
theorem taggedFrame_pairRequest {request : PairRequest} {cap : Nat} {bytes : List UInt8}
    (h : pairRequestEncode request cap = .ok bytes) (count : Nat) :
    taggedFrame (.send (bytes.take count)) = none := by
  have hhead : bytes.head? = some Msg.pairRequest := by
    simp only [pairRequestEncode, encode] at h
    split at h
    · cases h
    · split at h
      · cases h
      · split at h
        · cases h
        · cases h
          rfl
  have hplain : Msg.isAuthenticated Msg.pairRequest = false := by decide
  cases count with
  | zero => rfl
  | succ count => simp [taggedFrame, List.head?_take, hhead, hplain]

/-- Building a pair request changes nothing of the core, and the request can be sent unrecorded. -/
theorem still_buildPairRequest (identity : Identity) (draw : Draw) (now : UInt32) :
    Still t (t.buildPairRequest identity draw now).2 ∧
      ∀ bytes, (t.buildPairRequest identity draw now).1 = some bytes →
        taggedFrame (.send (bytes.take frameMax)) = none := by
  unfold buildPairRequest
  dsimp only
  split
  · exact ⟨.refl t, nofun⟩
  · rename_i bytes hbytes
    refine ⟨.of_core rfl, ?_⟩
    intro bytes' hsome
    cases hsome
    exact taggedFrame_pairRequest hbytes frameMax

/-- A pair request carries no tag. -/
theorem still_askToPair (identity : Identity) (draw : Draw) (now : UInt32) :
    Still t (t.askToPair identity draw now) := by
  obtain ⟨hstill, hplain⟩ := still_buildPairRequest t identity draw now
  unfold askToPair
  split
  · rename_i t' hresult
    rwa [hresult] at hstill
  · rename_i bytes t' hresult
    rw [hresult] at hstill hplain
    exact hstill.trans (still_put _ (hplain bytes rfl))

/-! ## Device presence and acquisition -/

/-- The device leaves. -/
theorem drops_deviceLeft (reason : UserState) (now : UInt32) :
    Drops t (t.deviceLeft reason now) := by
  have hforgets : Drops t { t with
      h := ({ (t.h.recordDrop now).2 with recentSessionLosses := [] }.forgetSession).defer
        reason now } := by
    refine ⟨?_, rfl⟩
    rw [← core_recordDrop t.h now]
    rfl
  unfold deviceLeft
  dsimp only
  split
  · refine hforgets.then_still (Still.trans ?_ (still_put _ rfl))
    exact .of_core rfl
  · exact hforgets

/-- One that was there is dropped when another appears. -/
theorem move_deviceAppeared (identity : Identity) (handed : Option FrameView)
    (which : DeviceIdentity) (now : UInt32) :
    Move identity handed t (t.deviceAppeared which now) := by
  unfold deviceAppeared
  extract_lets h modeChanged seen left source mode shown changed ended quiet quieter
  have hseen : Still t seen := .of_core (core_noteStarted t.h now)
  split
  · exact hseen.move
  · -- the device may have left; nothing after that touches the core
    have hleft : Move identity handed t left :=
      hseen.then_move (Drops.move_ite (drops_deviceLeft ..))
    have hchanged : Still left changed := by
      refine .of_core ?_
      show (if modeChanged then _ else _ : Helper).core = _
      split <;> rfl
    split
    · refine Move.after (hleft.after hchanged) ?_
      refine Still.trans ?_ (still_put _ rfl)
      exact .of_core rfl
    · have hquiet : Still changed quiet := .of_core rfl
      exact hleft.after ((hchanged.trans hquiet).trans
        ((Still.ite (still_setState _ _)).trans (still_put _ rfl)))

/-- The device disappears. -/
theorem drops_deviceDisappeared (now : UInt32) : Drops t (t.deviceDisappeared now) := by
  have hstart : Still t { t with h := t.h.noteStarted now } := .of_core (core_noteStarted t.h now)
  have hleft := hstart.drops (drops_deviceLeft _ .deviceAbsent now)
  refine hleft.then_still ?_
  exact .of_core rfl

/-- The channels are refused. -/
theorem drops_acquisitionRefused (acquired total : UInt8) (now : UInt32) :
    Drops t (t.acquisitionRefused acquired total now) := by
  unfold acquisitionRefused
  refine Drops.then_still ?_ (still_retry _)
  dsimp only
  split
  all_goals
    refine Drops.then_still ?_ (still_putNote ..)
    refine Drops.then_still ?_ (still_put _ rfl)
    refine ⟨?_, rfl⟩
    rw [← core_noteStarted t.h now]
    dsimp only
    split <;> rfl

/-- The body of a hello has its one length. -/
theorem helloOf_body_length (identity : Identity) (configMode : Bool) (draw : Draw) :
    (helloOf identity configMode draw).body.length = helloLen := by
  simp [Hello.body, helloOf, identity.keyId_length, draw.nonce_length, keyIdSize,
    nonceSize, helloLen]

/-- The hello fits its buffer. -/
theorem helloEncode_fits (identity : Identity) (configMode : Bool) (shared : List UInt8)
    (draw : Draw) :
    helloEncode (helloOf identity configMode draw) (deriveHelloKey shared draw.nonce) 0 frameMax =
      .ok (helloView identity configMode shared draw).bytes := by
  have hbody := helloOf_body_length identity configMode draw
  refine frame_fits ?_ ?_
  · rw [hbody]
    decide
  · rw [hbody]
    decide

/-- A hello fits a frame. -/
theorem helloView_length (identity : Identity) (configMode : Bool) (shared : List UInt8)
    (draw : Draw) : (helloView identity configMode shared draw).bytes.length ≤ frameMax := by
  have hbody := helloOf_body_length identity configMode draw
  simp only [FrameView.bytes, List.length_append, headerBytes_length, helloView,
    builtView_payload_length, hbody]
  decide

/-- What building a hello comes to: the nonce and the correlation are spent in every case. -/
theorem buildHello_cases (identity : Identity) (draw : Draw) :
    ((t.buildHello identity draw).2.h.core = t.h.core.say draw ∧
        (t.buildHello identity draw).2.tagged = t.tagged) ∧
      ((identity.ecdh t.h.boardPublicKey = none ∧ (t.buildHello identity draw).1 = none) ∨
        ∃ shared, identity.ecdh t.h.boardPublicKey = some shared ∧
          (t.buildHello identity draw).1 =
            some (helloView identity t.h.configMode shared draw).bytes ∧
          (t.buildHello identity draw).2.o = t.o) := by
  unfold buildHello
  dsimp only
  cases hshared : identity.ecdh t.h.boardPublicKey with
  | none =>
      have hstill := still_putNote { t with h := { t.h with
        helperNonce := draw.nonce, haveNonce := true,
        helloCorrelation := draw.helloCorrelation.toNat } } .keyDerivationFailed 0 0
      exact ⟨⟨hstill.core, hstill.tagged⟩, .inl ⟨rfl, rfl⟩⟩
  | some shared =>
      have hfits := helloEncode_fits identity t.h.configMode shared draw
      simp only [helloOf] at hfits
      simp only [hfits]
      exact ⟨⟨rfl, rfl⟩, .inr ⟨shared, rfl, rfl, trivial⟩⟩

/-- A hello is sent while there is room for it. -/
theorem tagged_hello (identity : Identity) (configMode : Bool) (shared : List UInt8) (draw : Draw)
    (hroom : t.o.items.length < outputsMax) :
    (t.send (helloView identity configMode shared draw).bytes).tagged =
      t.tagged ++ [(helloView identity configMode shared draw).bytes] :=
  tagged_send t _ (show Msg.isAuthenticated Msg.hello = true by decide) (helloView_length ..) hroom

/-- The channels are acquired: a hello goes out under a new nonce. -/
theorem move_channelsAcquired (identity : Identity) (handed : Option FrameView) (count : UInt8)
    (draw : Draw) (now : UInt32) (hroom : t.o.items.length < outputsMax) :
    Move identity handed t (t.channelsAcquired identity count draw now) := by
  have hstarted := core_noteStarted { t.h.forgetSession with acquiredChannels := count } now
  unfold channelsAcquired
  extract_lets forgotten started holding source asking hoping
  have hholding : holding.core = { t.h.core with acquiredChannels := count }.forget .idle :=
    hstarted
  clear_value holding
  split
  · -- no key is pinned: nothing is said that a key would protect
    have hasking : asking.core = { t.h.core with acquiredChannels := count }.forget .live := by
      show { holding.core with phase := .live } = _
      rw [hholding]
      rfl
    refine Move.after ?_ ((still_setState _ _).trans (still_askToPair _ identity draw now))
    refine ⟨[], by rw [List.append_nil]; rfl, ?_⟩
    show Moves identity handed t.h.core [] asking.core
    rw [hasking]
    exact .forgets t.h.core t.h.core.helloCorrelation count (by decide)
  · rename_i hkey
    have hhoping : hoping.core = { t.h.core with acquiredChannels := count }.forget
        .awaitingAck := by
      show { holding.core with phase := .awaitingAck } = _
      rw [hholding]
      rfl
    have hkey : t.h.core.haveBoardKey = true := by
      have hsame : holding.haveBoardKey = t.h.core.haveBoardKey :=
        congrArg Core.haveBoardKey hholding
      rw [← hsame]
      simpa using hkey
    have hpublic : hoping.boardPublicKey = t.h.core.boardPublicKey :=
      congrArg Core.boardPublicKey hhoping
    -- a key is pinned: the hello is built under it, or the acquisition is refused
    obtain ⟨⟨hcore, htagged⟩, hbuilt⟩ := buildHello_cases { t with h := hoping } identity draw
    clear_value hoping
    split
    · rename_i t' hresult
      rw [hresult] at hcore htagged
      have hdrops := drops_acquisitionRefused t' 0 0 now
      refine ⟨[], by rw [hdrops.tagged, htagged, List.append_nil]; rfl, ?_⟩
      rw [hdrops.core, hcore, hhoping]
      exact .forgets t.h.core draw.helloCorrelation.toNat count (by decide)
    · rename_i bytes t' hresult
      rw [hresult] at hcore htagged hbuilt
      obtain ⟨-, hnone⟩ | ⟨shared, hshared, hbytes, houtputs⟩ := hbuilt
      · cases hnone
      · cases hbytes
        rw [hpublic] at hshared
        have hfree : t'.o.items.length < outputsMax := by
          rw [show t'.o = t.o from houtputs]
          exact hroom
        have hquiet : Still t' { t' with h := { t'.h with haveDeferred := false } } := .of_core rfl
        have hsends := tagged_hello { t' with h := { t'.h with haveDeferred := false } } identity
          hoping.configMode shared draw hfree
        have hmove : Move identity handed t
          ({ t' with h := { t'.h with haveDeferred := false } }.send
            (helloView identity hoping.configMode shared draw).bytes) := by
          refine ⟨[(helloView identity hoping.configMode shared draw).bytes], ?_, ?_⟩
          · rw [hsends, hquiet.tagged, htagged]
            rfl
          · rw [send, put_h, hquiet.core, hcore, hhoping]
            exact .acquires t.h.core count hoping.configMode draw hkey hshared
        refine hmove.after ?_
        dsimp only
        split
        · obtain ⟨hstill, hplain⟩ := still_buildPairRequest ({ t' with h :=
            { t'.h with haveDeferred := false } }.send
              (helloView identity hoping.configMode shared draw).bytes) identity draw now
          split
          · rename_i t'' hresult'
            rwa [hresult'] at hstill
          · rename_i bytes t'' hresult'
            rw [hresult'] at hstill hplain
            exact hstill.trans ((still_putNote ..).trans (still_put _ (hplain bytes rfl)))
        · exact .refl _

/-! ## The answers to a hello -/

/-- An ack that is taken makes the keys those of the session. -/
theorem still_acceptAck (keys : List UInt8 × List UInt8) (rx : AuthCounter) (ack : HelloAck)
    (now : UInt32) :
    (t.acceptAck keys rx ack now).tagged = t.tagged ∧
      (t.acceptAck keys rx ack now).h.core =
        { t.h.core with
          phase := .live
          haveKeys := true
          kH2b := keys.1
          kB2h := keys.2
          txCounter := 0
          negotiated := ⟨ack.channelCount, ack.maxChunk, ack.buildType⟩ } := by
  unfold acceptAck
  extract_lets keyed source live noted
  have hnoted : Still live noted := Still.ite (still_putNote ..)
  have hstill : Still live (if noted.h.reconnectingRepeatedly now = true
      then noted.reportRepeatedReconnection now else noted.setState noted.h.connectedState) := by
    split
    · exact hnoted.trans (still_reportRepeatedReconnection ..)
    · exact hnoted.trans (still_setState ..)
  exact ⟨hstill.tagged, hstill.core⟩

/-- An ack is taken, or drops the connection, or is discarded. -/
theorem move_onHelloAck (identity : Identity) {view : FrameView} (htype : view.type = Msg.helloAck)
    (now : UInt32) : Move identity (some view) t (t.onHelloAck identity view now) := by
  have hdrop : ∀ note a b, Move identity (some view) t (t.dropConnection now note a b) :=
    fun note a b ↦ (drops_dropConnection t now note a b).move
  unfold onHelloAck
  split
  · exact (still_putNote ..).move
  rename_i hphase
  split
  · exact hdrop ..
  rename_i hkey
  split
  · exact hdrop ..
  rename_i hnonce
  cases hpeek : peekBoardNonce view with
  | none => exact hdrop ..
  | some boardNonce =>
  cases hshared : identity.ecdh t.h.boardPublicKey with
  | none => exact hdrop ..
  | some shared =>
  dsimp only
  cases hopen : authOpen (deriveSessionKeys shared t.h.helperNonce boardNonce).2 view
      AuthCounter.init with
  | mk result rx =>
  cases result with
  | error fault => exact hdrop ..
  | ok body =>
  cases authOpen_ok hopen
  dsimp only
  cases hack : helloAckDecode (bodyOf view) with
  | none => exact hdrop ..
  | some ack =>
  dsimp only
  split
  · exact (still_putNote ..).move
  rename_i hcorrelation
  split
  · exact hdrop ..
  rename_i hchannels
  obtain ⟨htagged, hcore⟩ := still_acceptAck t
    (deriveSessionKeys shared t.h.helperNonce boardNonce) rx ack now
  -- every check passed: the session is the one the hello asked for
  simp only [not_or, UInt8.not_lt] at hchannels
  refine ⟨[], by rw [htagged, List.append_nil], ?_⟩
  rw [hcore]
  refine .accepts t.h.core rfl (Bool.not_eq_false _ ▸ hkey) hshared
    ⟨htype, not_not.1 hphase, Bool.not_eq_false _ ▸ hnonce, hpeek, ?_, hack, not_not.1 hcorrelation,
      hchannels.1, hchannels.2.1, hchannels.2.2⟩
  exact ((opens_iff recording_init).1 ⟨_, congrArg Prod.fst hopen⟩).1

/-- A refusal drops the connection, or is discarded. -/
theorem move_onHelloRefused (identity : Identity) (handed : Option FrameView) (view : FrameView)
    (now : UInt32) : Move identity handed t (t.onHelloRefused view now) := by
  unfold onHelloRefused
  split
  · exact (still_putNote ..).move
  cases helloRefusedDecode view.payload with
  | none => exact (drops_dropConnection ..).move
  | some refused =>
      dsimp only
      split
      · exact (drops_dropConnection ..).move
      split
      · exact (still_putNote ..).move
      split
      · refine Move.after ?_ (still_setState _ _)
        refine ⟨[], by rw [List.append_nil]; rfl, ?_⟩
        exact .forgets t.h.core t.h.core.helloCorrelation t.h.core.acquiredChannels
          (show Phase.live ≠ .awaitingAck by decide)
      · have hnoted : Still t ({ t with h := t.h.backoffReset }.putNote .versionMismatch
            (Int32.ofNat refused.protoVersion) (Int32.ofNat protoVersion)) := by
          refine Still.trans ?_ (still_putNote ..)
          exact .of_core rfl
        exact ((hnoted.drops (drops_forgetSession _)).then_still (still_setState ..)).move

/-! ## Pairing -/

/-- A grant pins a key, and a hello goes out. -/
theorem move_onPairGrant (identity : Identity) (handed : Option FrameView) (view : FrameView)
    (draw : Draw) (now : UInt32) (hroom : t.o.items.length + 2 < outputsMax) :
    Move identity handed t (t.onPairGrant identity view draw now) := by
  unfold onPairGrant
  split
  · exact (still_putNote ..).move
  cases pairGrantDecode view.payload with
  | none => exact (still_putNote ..).move
  | some grant =>
      obtain ⟨correlation, boardPublic⟩ := grant
      dsimp only
      split
      · exact (still_putNote ..).move
      split
      · refine Still.move ((?_ : Still t _).trans ((still_putNote ..).trans (still_setState ..)))
        exact .of_core rfl
      rename_i hpinned
      simp only [not_and, not_not] at hpinned
      obtain ⟨⟨hcore, htagged⟩, hbuilt⟩ := buildHello_cases
        { t with h := { t.h with boardPublicKey := boardPublic, haveBoardKey := true } }
          identity draw
      split
      · rename_i t' hresult
        rw [hresult] at hcore htagged hbuilt
        obtain ⟨hnone, -⟩ | ⟨shared, -, hsome, -⟩ := hbuilt
        · refine ⟨[], by rw [List.append_nil]; exact htagged, ?_⟩
          show Moves identity handed t.h.core []
            { t'.h.core with
              boardPublicKey := t.h.boardPublicKey
              haveBoardKey := t.h.haveBoardKey }
          rw [hcore]
          refine .botches t.h.core draw ?_
          intro hkey
          show identity.ecdh t.h.boardPublicKey = none
          rwa [hpinned hkey]
        · cases hsome
      · rename_i bytes t' hresult
        rw [hresult] at hcore htagged hbuilt
        obtain ⟨-, hnone⟩ | ⟨shared, hshared, hbytes, houtputs⟩ := hbuilt
        · cases hnone
        · cases hbytes
          -- whatever else of the machine changes, the core is the one that said hello
          have hgrants : ∀ granted : Helper, granted.core =
            { t'.h.core with phase := .awaitingAck } →
              Move identity handed t
                ((({ t' with h := granted }.put (.storeBoardKey boardPublic)).putNote
                .pairedByDevice 0 0).send
                  (helloView identity t.h.configMode shared draw).bytes) := by
            intro granted hgranted
            have hputs := (still_put { t' with h := granted } (rfl : taggedFrame
              (.storeBoardKey boardPublic) = none)).trans (still_putNote _ .pairedByDevice 0 0)
            have hfree : (({ t' with h := granted }.put (.storeBoardKey boardPublic)).putNote
                .pairedByDevice 0 0).o.items.length < outputsMax := by
              have hgranted : Puts 2 t' (({ t' with h := granted }.put
                  (.storeBoardKey boardPublic)).putNote .pairedByDevice 0 0) :=
                Puts.after ((puts_put _ _).trans (puts_putNote ..))
              have hlength := hgranted.length_le
              have hsame : t'.o.items.length = t.o.items.length := by rw [houtputs]
              omega
            have hsends := tagged_hello (({ t' with h := granted }.put
              (.storeBoardKey boardPublic)).putNote .pairedByDevice 0 0) identity t.h.configMode
              shared draw hfree
            refine ⟨[(helloView identity t.h.configMode shared draw).bytes], ?_, ?_⟩
            · rw [hsends, hputs.tagged]
              exact congrArg (· ++ _) htagged
            · rw [send, put_h, hputs.core, hgranted, hcore]
              exact .granted t.h.core t.h.configMode draw hpinned hshared
          exact hgrants _ rfl

/-- A refusal of the request. -/
theorem still_onPairRefused (view : FrameView) : Still t (t.onPairRefused view) := by
  unfold onPairRefused
  split
  · exact still_putNote ..
  cases pairRefusedDecode view.payload with
  | none => exact still_putNote ..
  | some refused =>
      dsimp only
      split
      · exact still_putNote ..
      split
      · exact still_putNote ..
      · exact still_putNote ..

/-! ## Session traffic -/

/-- A beat of the device. -/
theorem still_onDeviceBeat (view : FrameView) (now : UInt32) :
    Still t (t.onDeviceBeat view now) := by
  have hheard : Still t
      { t with h := { t.h with lastDeviceBeatAt := now, haveDeviceBeat := true } } :=
    .of_core rfl
  unfold onDeviceBeat
  split
  · exact still_putNote ..
  dsimp only
  split
  · exact hheard.trans (still_putNote ..)
  split
  · exact hheard
  · refine Still.trans ?_ (still_putNote ..)
    exact .of_core rfl

/-- The end of the session that the board says. -/
theorem move_onSessionEnd (identity : Identity) (handed : Option FrameView) (view : FrameView)
    (body : List UInt8) (now : UInt32) :
    Move identity handed t (t.onSessionEnd view body now) := by
  unfold onSessionEnd
  split
  · exact (still_putNote ..).move
  · extract_lets reason silent drops noted told counted
    have hsilent : Still t silent := Still.ite (still_putNote ..)
    have hnoted : Still silent noted := (still_putNote ..).trans (still_putNote ..)
    have htold : Still silent told := Still.ite (hnoted.trans (Still.ite (still_putNote ..)))
    have hcounted : Still told counted := still_putNote ..
    exact (((hsilent.trans htold).trans hcounted).drops (drops_dropConnection ..)).move

/-- The policy. -/
theorem still_onClipPolicy (view : FrameView) (body : List UInt8) :
    Still t (t.onClipPolicy view body) := by
  unfold onClipPolicy
  cases clipPolicyDecode body with
  | none => exact still_putNote ..
  | some policy =>
      refine Still.trans ?_ (still_putNote ..)
      refine Still.trans ?_ (still_put _ rfl)
      exact .of_core rfl

/-- A reading of the drops. -/
theorem still_onDeviceDrops (view : FrameView) (body : List UInt8) :
    Still t (t.onDeviceDrops view body) := by
  unfold onDeviceDrops
  cases deviceDropsDecode body with
  | none => exact still_putNote ..
  | some drops => exact .of_core rfl

/-- An alert. -/
theorem still_onListenerAlert (view : FrameView) (body : List UInt8) (now : UInt32) :
    Still t (t.onListenerAlert view body now) := by
  unfold onListenerAlert
  cases listenerAlertDecode body with
  | none => exact still_putNote ..
  | some alert =>
      refine Still.trans ?_ (still_setState ..)
      refine Still.trans ?_ (still_putNote ..)
      exact .of_core rfl

/-! ## Dispatching -/

/-- Any frame of the session. -/
theorem move_onVerified (identity : Identity) (handed : Option FrameView) (view : FrameView)
    (body : List UInt8) (now : UInt32) : Move identity handed t (t.onVerified view body now) := by
  unfold onVerified
  extract_lets source heard beat seen
  have hseen : Still t seen := by
    refine .of_core ?_
    show (if _ then _ else _ : Helper).core = _
    split <;> rfl
  clear_value seen
  split
  · exact hseen.then_move (move_onSessionEnd ..)
  split
  · exact (hseen.trans (still_onDeviceBeat ..)).move
  split
  · exact (hseen.trans (still_onListenerAlert ..)).move
  split
  · exact (hseen.trans (still_onClipPolicy ..)).move
  split
  · exact (hseen.trans (still_onDeviceDrops ..)).move
  · exact (hseen.trans ⟨rfl, rfl⟩).move

/-- A frame of an authenticated type takes its counter, or drops the connection. -/
theorem move_onAuthenticated (identity : Identity) (view : FrameView) (now : UInt32) :
    Move identity (some view) t (t.onAuthenticated identity view now) := by
  have hrx : ∀ rx, Still t { t with h := { t.h with rx := rx } } := fun rx ↦ .of_core rfl
  unfold onAuthenticated
  split
  · rename_i htype
    exact move_onHelloAck t identity htype now
  split
  · exact (still_putNote ..).move
  split
  · split
    · exact (still_putNote ..).move
    · exact (drops_dropConnection ..).move
  · exact ((hrx _).trans (still_putNote ..)).move
  · exact ((hrx _).trans (still_putNote ..)).move
  · exact (hrx _).then_move (move_onVerified ..)

/-- Any frame. -/
theorem move_onFrame (identity : Identity) (view : FrameView) (draw : Draw) (now : UInt32)
    (hroom : t.o.items.length + 2 < outputsMax) :
    Move identity (some view) t (t.onFrame identity view draw now) := by
  unfold onFrame
  split
  · exact move_onAuthenticated ..
  · unfold onUnauthenticated
    split
    · exact move_onHelloRefused ..
    split
    · exact move_onPairGrant t identity _ view draw now hroom
    split
    · exact (still_onPairRefused ..).move
    · exact (Still.refl t).move

end Turn

/-- The channel is one the session has. -/
def hears (h : Helper) (channel : UInt8) : Bool :=
  ¬ (channel ≥ sessionChannelCount ∨
    (channel > 0 ∧ (h.haveNegotiated = false ∨ channel ≥ h.negotiated.channelCount)))

/-- The reader of a channel. -/
def readerOf (h : Helper) (channel : UInt8) : FrameReader :=
  if channel = 0 then h.reader else h.extraReader

/-- The frame that an input completes, if it completes one. -/
def handing (h : Helper) : Event → Option FrameView
  | .received channel data _ =>
      if h.hears channel then ((h.readerOf channel).report data).1.toOption else none
  | _ => none

namespace Turn

variable (t : Turn)

/-- Any report. -/
theorem move_receivedChannel (identity : Identity) (channel : UInt8) (data : List UInt8)
    (draw : Draw) (now : UInt32) (hroom : t.o.items.length + 3 < outputsMax) :
    Move identity (t.h.handing (.received channel data draw)) t
      (t.receivedChannel identity channel data draw now) := by
  unfold receivedChannel
  split
  · exact (Still.refl t).move
  · rename_i hhears
    have hhanding : t.h.handing (.received channel data draw) =
        ((t.h.readerOf channel).report data).1.toOption := by
      rw [handing, if_pos (show t.h.hears channel = true from decide_eq_true hhears)]
    extract_lets started before
    have hbefore : before = t.h.readerOf channel := by
      show (if _ then _ else _) = _
      unfold readerOf started noteStarted
      split <;> split <;> rfl
    rw [hhanding, ← hbefore]
    cases before.report data with
    | mk rc reader =>
        dsimp -zeta only
        extract_lets read noted
        have hread : Still t read := by
          refine .of_core (Eq.trans ?_ (core_noteStarted t.h now))
          split <;> rfl
        have hnoted : Still t noted := hread.trans (Still.ite (still_putNote ..))
        split
        · exact hnoted.move
        · exact (hnoted.drops (drops_dropConnection ..)).move
        · refine hnoted.then_move (move_onFrame noted identity _ draw now ?_)
          have hputs : Puts 1 read noted := .ite (puts_putNote ..)
          have hnotes : noted.o.items.length ≤ t.o.items.length + 1 := hputs.length_le
          omega

/-! ## The tick -/

/-- Telling the state that was put off. -/
theorem still_tickDeferred (now : UInt32) : Still t (t.tickDeferred now) := by
  unfold tickDeferred
  split
  · refine Still.ite (Still.trans ?_ (still_setState ..))
    exact .of_core rfl
  · exact Still.ite (still_setState ..)

/-- Telling what was not read for too long. -/
theorem still_tickReadings (now : UInt32) : Still t (t.tickReadings now) := by
  unfold tickReadings
  extract_lets rated source alerted
  have hrated : Still t rated := Still.ite (still_setState ..)
  have halerted : Still rated alerted := by
    refine Still.ite (Still.trans ?_ (still_setState ..))
    exact .of_core rfl
  refine (hrated.trans halerted).trans (Still.ite (Still.trans ?_ (still_putNote ..)))
  exact .of_core rfl

/-- The heartbeat is tagged under the next counter. -/
theorem move_tickHeartbeat (identity : Identity) (handed : Option FrameView) (now : UInt32)
    (hroom : t.o.items.length < outputsMax) :
    Move identity handed t (t.tickHeartbeat now) := by
  unfold tickHeartbeat
  split
  · rename_i hbeats
    split
    · exact (Still.refl t).move
    · rename_i bytes hbytes
      obtain ⟨rfl, -⟩ := frame_ok hbytes
      have hauth : Msg.isAuthenticated Msg.heartbeat = true := by decide
      have hlength : (heartbeatView t.h.kH2b t.h.txCounter).bytes.length ≤ frameMax := by
        simp only [FrameView.bytes, List.length_append, headerBytes_length, heartbeatView,
          builtView_payload_length, List.length_nil]
        decide
      have hsends := tagged_send { t with h := { t.h with txCounter := t.h.txCounter + 1 } }
        (heartbeatView t.h.kH2b t.h.txCounter) hauth hlength hroom
      refine ⟨[(heartbeatView t.h.kH2b t.h.txCounter).bytes], hsends, ?_⟩
      rw [send, put_h]
      exact .beats t.h.core hbeats.1
  · exact (Still.refl t).move

/-- A tick. -/
theorem move_tick (identity : Identity) (handed : Option FrameView) (draw : Draw) (now : UInt32)
    (hroom : t.o.items.length + 4 < outputsMax) :
    Move identity handed t (t.tick identity draw now) := by
  unfold tick
  extract_lets started calm woken deferred source sampled beaten
  have hcalm : calm.core = started.core := by
    show (if _ then _ else _ : Helper).core = _
    split <;> rfl
  have hwoken : woken.core = calm.core := by
    show (if _ then _ else _ : Helper).core = _
    split <;> rfl
  have hdeferred : Still t deferred := by
    refine Still.trans (Still.of_core ?_) (still_tickDeferred ..)
    rw [hwoken, hcalm]
    exact core_noteStarted t.h now
  have hsampled : Still deferred sampled := by
    refine Still.ite ?_
    exact .of_core rfl
  split
  · split
    · refine (hdeferred.drops (Still.drops ?_ (drops_dropConnection ..))).move
      exact .of_core rfl
    · exact hdeferred.move
  split
  · exact hdeferred.move
  split
  · exact ((hdeferred.trans hsampled).drops (drops_dropConnection ..)).move
  · have hfree : (sampled.tickReadings now).o.items.length < outputsMax := by
      have hread := (puts_tickReadings sampled now).length_le
      have hdefers : deferred.o.items.length ≤ t.o.items.length + 1 :=
        (puts_tickDeferred { t with h := woken } now).length_le
      have hsame : sampled.o.items.length = deferred.o.items.length := by
        show (if _ then _ else _ : Turn).o.items.length = _
        split <;> rfl
      omega
    have hbeaten : Move identity handed t beaten :=
      ((hdeferred.trans hsampled).trans (still_tickReadings ..)).then_move
        (move_tickHeartbeat _ identity handed now hfree)
    exact hbeaten.after (Still.ite (still_askToPair ..))

/-- The host goes to sleep or wakes. -/
theorem still_hostSleep (asleep : Bool) (now : UInt32) : Still t (t.hostSleep asleep now) := by
  unfold hostSleep
  refine .of_core ?_
  show (if _ then _ else _ : Helper).core = _
  split <;> rfl

/-- The transport fails. -/
theorem drops_transportFailed (now : UInt32) : Drops t (t.transportFailed now) :=
  (Still.of_core (core_noteStarted t.h now)).drops (drops_dropConnection ..)

/-- A frame was sent. -/
theorem still_noteSent (now : UInt32) : Still t (t.noteSent now) := by
  unfold noteSent
  refine .of_core ?_
  refine Eq.trans ?_ (core_noteStarted t.h now)
  show (core (if _ then _ else _ : Helper)) = _
  split <;> rfl

end Turn

/-- Everything an input can do to the core of a helper, and the authenticated frames it puts out. -/
theorem handle_moves (identity : Identity) (h : Helper) (now : UInt32) (event : Event) :
    Moves identity (h.handing event) h.core (h.handle identity now event).tagged
      (h.handle identity now event).h.core := by
  have hmove : Turn.Move identity (h.handing event) { h := h } (h.handle identity now event) := by
    cases event with
    | deviceAppeared which => exact Turn.move_deviceAppeared ..
    | deviceDisappeared => exact (Turn.drops_deviceDisappeared ..).move
    | hostSleep asleep => exact (Turn.still_hostSleep ..).move
    | channelsAcquired count draw =>
        exact Turn.move_channelsAcquired _ identity _ count draw now (show 0 < outputsMax by decide)
    | acquisitionRefused acquired total => exact (Turn.drops_acquisitionRefused ..).move
    | received channel data draw =>
        exact Turn.move_receivedChannel _ identity channel data draw now
          (show 0 + 3 < outputsMax by decide)
    | transportFailed => exact (Turn.drops_transportFailed ..).move
    | noteSent => exact (Turn.still_noteSent ..).move
    | noteSendRefused => exact (Turn.Still.of_core rfl).move
    | tick draw => exact Turn.move_tick _ identity _ draw now (show 0 + 4 < outputsMax by decide)
  obtain ⟨sent, htagged, hmoves⟩ := hmove
  rw [htagged]
  exact hmoves

/-- A frame is built under the session key and spends its counter, or nothing happens. -/
theorem core_emit (h : Helper) (type flags : UInt8) (body : List UInt8) (cap : Nat) :
    ((∃ fault, (h.emit type flags body cap).1 = .error fault) ∧
        (h.emit type flags body cap).2.core = h.core) ∨
      (h.haveKeys = true ∧ (h.emit type flags body cap).1 =
          .ok (builtView type flags h.kH2b h.txCounter.toNat body).bytes ∧
        (h.emit type flags body cap).2.core =
          { h.core with txCounter := h.core.txCounter + 1 }) := by
  unfold emit
  split
  · exact .inl ⟨⟨_, rfl⟩, rfl⟩
  · rename_i hcan
    have hkeys : h.haveKeys = true := by
      simp only [Bool.or_eq_true, not_or, Bool.not_eq_true] at hcan
      simpa using hcan.2
    cases hframe : Auth.frame type flags h.kH2b h.txCounter.toNat body cap with
    | error fault => exact .inl ⟨⟨_, rfl⟩, rfl⟩
    | ok bytes =>
        obtain ⟨rfl, -⟩ := frame_ok hframe
        exact .inr ⟨hkeys, rfl, rfl⟩

/-! ## What a helper that awaits an answer holds -/

/-- A helper that awaits an answer holds what it needs to judge one. -/
def Core.CanJudge (identity : Identity) (k : Core) : Prop :=
  k.phase = .awaitingAck →
    k.haveBoardKey = true ∧ k.haveNonce = true ∧
      ∃ shared, identity.ecdh k.boardPublicKey = some shared

/-- What a helper needs to judge an ack is kept by any moves. -/
theorem Moves.canJudge {identity : Identity} {handed : Option FrameView} {k k' : Core}
    {sent : List (List UInt8)} (h : Moves identity handed k sent k') (hk : k.CanJudge identity) :
    k'.CanJudge identity := by
  cases h with
  | keeps => exact hk
  | beats => exact hk
  | forgets _ _ hphase =>
      intro hawaits
      exact absurd hawaits hphase
  | acquires _ _ _ hkey hshared =>
      intro _
      exact ⟨hkey, rfl, _, hshared⟩
  | granted _ _ hpinned hshared =>
      intro _
      exact ⟨rfl, rfl, _, hshared⟩
  | botches _ hkey =>
      -- a key that answered an exchange before answers it again
      intro hawaits
      obtain ⟨hpinned, -, shared, hshared⟩ := hk hawaits
      rw [hkey hpinned] at hshared
      cases hshared
  | accepts _ _ _ _ =>
      intro hawaits
      cases hawaits

/-- No call takes from a helper what it needs to judge an answer. -/
theorem judges_call {identity : Identity} {h : Helper} (hjudges : h.core.CanJudge identity)
    (call : Call) : (h.call identity call).core.CanJudge identity := by
  cases call with
  | input now event => exact (handle_moves identity h now event).canJudge hjudges
  | emit type flags body cap =>
      show (h.emit type flags body cap).2.core.CanJudge identity
      rcases core_emit h type flags body cap with ⟨-, hsame⟩ | ⟨-, -, hspent⟩
      · rwa [hsame]
      · rw [hspent]
        exact hjudges

/-- So it holds of every helper that is reached. -/
theorem Reachable.canJudge {identity : Identity} {h : Helper} (hreach : Reachable identity h) :
    h.core.CanJudge identity := by
  obtain ⟨boardPublicKey, calls, rfl⟩ := hreach
  refine Runs.run_invariant (fun h : Helper ↦ h.core.CanJudge identity) ?_
    (fun _ call hjudges ↦ judges_call hjudges call) calls
  cases boardPublicKey <;> nofun

end DeskhopPlus.Helper
