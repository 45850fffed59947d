import DeskhopPlus.Helper.Moves

/-!
# What a helper tells its user

`Standing` is what a helper reports and what it stands on: the phase of the session, the state
shown, the state put off, and the pairing it asks for. `Tells` is one change of it, with what was
said about the pairing, and `Tale` a chain of them; `handle_tale` says that every input is such a
chain.
-/

namespace DeskhopPlus.Helper

open Bytes Wire Auth Crypto Board

/-- The part of the machine that the user and the pairing see. -/
structure Standing where
  phase : Phase
  haveNegotiated : Bool
  state : UserState
  configMode : Bool
  haveDeferred : Bool
  deferredState : UserState
  everSawDevice : Bool
  pairingRequested : Bool
  pairCorrelation : Nat
  haveBoardKey : Bool
  boardPublicKey : List UInt8
  helloCorrelation : Nat
  deriving DecidableEq, Repr

/-- The standing of the machine. -/
def standing (h : Helper) : Standing where
  phase := h.phase
  haveNegotiated := h.haveNegotiated
  state := h.state
  configMode := h.configMode
  haveDeferred := h.haveDeferred
  deferredState := h.deferredState
  everSawDevice := h.everSawDevice
  pairingRequested := h.pairingRequested
  pairCorrelation := h.pairCorrelation
  haveBoardKey := h.haveBoardKey
  boardPublicKey := h.boardPublicKey
  helloCorrelation := h.helloCorrelation

/-- `dh_helper_allows_bulk`. -/
def UserState.allowsBulk (state : UserState) : Bool :=
  state = .connected || state = .connectedConfigMode || state = .reconnectingRepeatedly ||
    state = .listenerDetected

/-- What is said about the pairing: a request to the board, or a key to the platform. -/
inductive Said where
  | request (correlation : Nat)
  | store (boardPublic : List UInt8)
  deriving DecidableEq, Repr

/-- What an output says about the pairing. -/
def saidOf : Output → Option Said
  | .send bytes =>
      if bytes.head? = some Msg.pairRequest then
        (pairRequestDecode (bytes.drop headerSize)).map fun request ↦ .request request.correlation
      else none
  | .storeBoardKey bytes => some (.store bytes)
  | _ => none

/-- The input opens the channels. -/
def Event.acquires : Event → Prop
  | .channelsAcquired _ _ => True
  | _ => False

/-- A grant that answers the request last made. -/
structure Answers (k : Standing) (handed : Option FrameView) (boardPublic : List UInt8) : Prop where
  requested : k.pairingRequested = true
  granted : ∃ view, handed = some view ∧ view.type = Msg.pairGrant ∧
    pairGrantDecode view.payload = some (k.pairCorrelation, boardPublic)

/-- A refusal of the hello last said, from a board the helper is not paired with. -/
structure Unpaired (k : Standing) (handed : Option FrameView) : Prop where
  awaits : k.phase = .awaitingAck
  refused : ∃ view refused, handed = some view ∧ view.type = Msg.helloRefused ∧
    helloRefusedDecode view.payload = some refused ∧
    refused.status = RefusedStatus.unpaired.byte ∧ refused.correlation = k.helloCorrelation

namespace Standing

/-- The state of a connection that stands. -/
def connectedState (k : Standing) : UserState :=
  if k.configMode then .connectedConfigMode else .connected

end Standing

/-- One change of the standing, in the course of an input that found the standing `start` and
completed the frame `handed`. -/
inductive Tells (identity : Identity) (event : Event) (handed : Option FrameView)
    (start : Standing) : Standing → List Said → Standing → Prop where
  /-- A device was seen. -/
  | sees (k : Standing) : Tells identity event handed start k [] { k with everSawDevice := true }
  /-- The session is forgotten. -/
  | forgets (k : Standing) :
      Tells identity event handed start k [] { k with phase := .idle, haveNegotiated := false }
  /-- A state is put off. -/
  | defers (k : Standing) (state : UserState) (hidle : k.phase = .idle)
      (hstate : state ≠ .notPaired) :
      Tells identity event handed start k [] { k with haveDeferred := true, deferredState := state }
  /-- The state put off is shown. -/
  | settles (k : Standing) (hdeferred : k.haveDeferred = true) :
      Tells identity event handed start k []
        { k with haveDeferred := false, state := k.deferredState }
  /-- No state is put off any more. -/
  | undefers (k : Standing) :
      Tells identity event handed start k [] { k with haveDeferred := false }
  /-- No device was ever seen. -/
  | misses (k : Standing) (hnever : k.everSawDevice = false) :
      Tells identity event handed start k [] { k with state := .deviceAbsent }
  /-- The device changes its mode, unless there is a session. -/
  | modes (k : Standing) (configMode : Bool) (hmode : k.phase = .idle ∨ k.configMode = configMode) :
      Tells identity event handed start k [] { k with configMode := configMode }
  /-- A device in its normal mode ends what was shown of one that was not. -/
  | quiets (k : Standing) (hmode : k.configMode = false)
      (hstate : k.state = .deviceAbsent ∨ k.state = .deviceInConfigMode ∨
        k.state = .connectedConfigMode) :
      Tells identity event handed start k [] { k with state := .quiet }
  /-- The connection is rebuilt too often. -/
  | reconnects (k : Standing) :
      Tells identity event handed start k [] { k with state := .reconnectingRepeatedly }
  /-- The connection stands. -/
  | connects (k : Standing) :
      Tells identity event handed start k [] { k with state := k.connectedState }
  /-- Somebody else writes to the channel. -/
  | alerts (k : Standing) :
      Tells identity event handed start k [] { k with state := .listenerDetected }
  /-- The board speaks another version. -/
  | mismatches (k : Standing) (hidle : k.phase = .idle) :
      Tells identity event handed start k [] { k with state := .versionIncompatible }
  /-- The channels are open, and no key is pinned. -/
  | unkeyed (k : Standing) (hevent : event.acquires) (hkey : k.haveBoardKey = false)
      (hsame : k.haveBoardKey = start.haveBoardKey) (hnone : k.haveNegotiated = false) :
      Tells identity event handed start k []
        { k with haveDeferred := false, phase := .live, state := .notPaired }
  /-- The channels are open, and a hello goes out. -/
  | hopes (k : Standing) (hevent : event.acquires) :
      Tells identity event handed start k [] { k with haveDeferred := false, phase := .awaitingAck }
  /-- A hello was drawn for. -/
  | draws (k : Standing) (correlation : Nat) :
      Tells identity event handed start k [] { k with helloCorrelation := correlation }
  /-- A request to be paired goes out. -/
  | asks (k : Standing) (correlation : Nat) :
      Tells identity event handed start k [.request correlation]
        { k with pairingRequested := true, pairCorrelation := correlation }
  /-- An ack is taken. -/
  | accepts (k : Standing) (state : UserState) (hawaits : k.phase = .awaitingAck)
      (hstate : state = .reconnectingRepeatedly ∨ state = k.connectedState) :
      Tells identity event handed start k []
        { k with phase := .live, haveNegotiated := true, state := state }
  /-- The board is not paired with this helper. -/
  | unpairs (hunpaired : Unpaired start handed) :
      Tells identity event handed start start []
        { start with
          phase := .live, haveNegotiated := false, pairingRequested := false, state := .notPaired }
  /-- A grant names a key other than the one that is pinned. -/
  | changes {boardPublic : List UInt8} (hanswers : Answers start handed boardPublic)
      (hkey : start.haveBoardKey = true) (hother : start.boardPublicKey ≠ boardPublic) :
      Tells identity event handed start start []
        { start with pairingRequested := false, state := .boardIdentityChanged }
  /-- A grant pins a key. -/
  | grants {boardPublic : List UInt8} (correlation : Nat)
      (hanswers : Answers start handed boardPublic) (hphase : start.phase ≠ .idle)
      (hpinned : start.haveBoardKey = true → start.boardPublicKey = boardPublic)
      (hshared : identity.ecdh boardPublic ≠ none) :
      Tells identity event handed start start [.store boardPublic]
        { start with
          boardPublicKey := boardPublic
          haveBoardKey := true
          helloCorrelation := correlation
          pairingRequested := false
          phase := .awaitingAck }

/-- A chain of such changes. -/
inductive Tale (identity : Identity) (event : Event) (handed : Option FrameView)
    (start : Standing) : Standing → List Said → Standing → Prop where
  | nil (k : Standing) : Tale identity event handed start k [] k
  | cons {k k' k'' : Standing} {said said' : List Said}
      (first : Tells identity event handed start k said k')
      (rest : Tale identity event handed start k' said' k'') :
      Tale identity event handed start k (said ++ said') k''

section Chain

variable {identity : Identity} {event : Event} {handed : Option FrameView} {start : Standing}

/-- A change is a tale of one. -/
theorem Tells.tale {k k' : Standing} {said : List Said}
    (h : Tells identity event handed start k said k') :
    Tale identity event handed start k said k' := by
  rw [← List.append_nil said]
  exact .cons h (.nil k')

/-- A tale and what follows it. -/
theorem Tale.append {k k' k'' : Standing} {said said' : List Said}
    (h : Tale identity event handed start k said k')
    (h' : Tale identity event handed start k' said' k'') :
    Tale identity event handed start k (said ++ said') k'' := by
  induction h with
  | nil k => exact h'
  | cons first _ ih =>
      rw [List.append_assoc]
      exact .cons first (ih h')

end Chain

/-! ## Turns -/

namespace Turn

/-- What was said about the pairing so far. -/
def said (t : Turn) : List Said := t.o.items.filterMap saidOf

/-- Between the two turns neither the standing changed nor was anything said about the pairing. -/
structure Mute (t t' : Turn) : Prop where
  standing : t'.h.standing = t.h.standing
  said : t'.said = t.said

/-- Between the two turns the standing changed in a chain. -/
def Tales (identity : Identity) (event : Event) (handed : Option FrameView) (start : Standing)
    (t t' : Turn) : Prop :=
  ∃ said, t'.said = t.said ++ said ∧
    Tale identity event handed start t.h.standing said t'.h.standing

section Compose

variable {t t' t'' : Turn} {identity : Identity} {event : Event} {handed : Option FrameView}
  {start : Standing}

/-- Nothing happens. -/
theorem Mute.refl (t : Turn) : Mute t t := ⟨rfl, rfl⟩

/-- The machine was changed outside its standing. -/
theorem Mute.of_standing {h : Helper} (hsame : h.standing = t.h.standing) :
    Mute t { t with h := h } := ⟨hsame, rfl⟩

/-- A part that may be left out. -/
theorem Mute.ite {p : Prop} [Decidable p] (h : Mute t t') : Mute t (if p then t' else t) := by
  split
  · exact h
  · exact .refl t

/-- One after the other. -/
theorem Mute.trans (h : Mute t t') (h' : Mute t' t'') : Mute t t'' :=
  ⟨h'.standing.trans h.standing, h'.said.trans h.said⟩

/-- What is mute tells nothing. -/
theorem Mute.tales (h : Mute t t') : Tales identity event handed start t t' := by
  refine ⟨[], by rw [h.said, List.append_nil], ?_⟩
  rw [h.standing]
  exact .nil _

/-- One tale after the other. -/
theorem Tales.trans (h : Tales identity event handed start t t')
    (h' : Tales identity event handed start t' t'') : Tales identity event handed start t t'' := by
  obtain ⟨said, hsaid, htale⟩ := h
  obtain ⟨said', hsaid', htale'⟩ := h'
  exact ⟨said ++ said', by rw [hsaid', hsaid, List.append_assoc], htale.append htale'⟩

/-- A part that is mute after it. -/
theorem Tales.mute (h : Tales identity event handed start t t') (h' : Mute t' t'') :
    Tales identity event handed start t t'' := h.trans h'.tales

/-- A part that is mute before it. -/
theorem Mute.then_tales (h : Mute t t') (h' : Tales identity event handed start t' t'') :
    Tales identity event handed start t t'' := h.tales.trans h'

/-- A part that may be left out. -/
theorem Tales.ite {p : Prop} [Decidable p] (h : Tales identity event handed start t t') :
    Tales identity event handed start t (if p then t' else t) := by
  split
  · exact h
  · exact (Mute.refl t).tales

/-- The machine changed in a chain while nothing was said. -/
theorem Tales.of_tale {h : Helper}
    (htale : Tale identity event handed start t.h.standing [] h.standing) :
    Tales identity event handed start t { t with h := h } := ⟨[], by simp [said], htale⟩

end Compose

variable (t : Turn)

/-- An output that says nothing about the pairing. -/
theorem mute_put {item : Output} (hnone : saidOf item = none) : Mute t (t.put item) := by
  refine ⟨by rw [put_h], ?_⟩
  unfold put
  split
  · rfl
  · simp [said, hnone]

/-- A note. -/
theorem mute_putNote (note : Note) (a b : Int32) : Mute t (t.putNote note a b) := mute_put t rfl

/-- A retry. -/
theorem mute_retry : Mute t t.retry := by
  refine Mute.trans ?_ (mute_put _ rfl)
  exact .of_standing rfl

/-- Showing a state changes the state, and nothing is said about the pairing. -/
theorem setState_standing (next : UserState) :
    (t.setState next).h.standing = { t.h.standing with state := next } ∧
      (t.setState next).said = t.said := by
  unfold setState
  split
  · rename_i hsame
    exact ⟨by rw [← hsame]; rfl, rfl⟩
  · exact ⟨by rw [put_h]; rfl, (mute_put _ rfl).said⟩

/-- A change of the standing that ends with a state shown. -/
theorem tales_of_setState {t : Turn} {identity : Identity} {event : Event}
    {handed : Option FrameView} {start : Standing} {h : Helper} {next : UserState}
    (htale : Tale identity event handed start t.h.standing [] { h.standing with state := next }) :
    Tales identity event handed start t ({ t with h := h }.setState next) := by
  obtain ⟨hstanding, hsaid⟩ := setState_standing { t with h := h } next
  refine ⟨[], by rw [hsaid, List.append_nil]; rfl, ?_⟩
  rw [hstanding]
  exact htale

/-- Showing a state is one change of the standing. -/
theorem tales_setState {identity : Identity} {event : Event} {handed : Option FrameView}
    {start : Standing} {next : UserState}
    (h : Tells identity event handed start t.h.standing [] { t.h.standing with state := next }) :
    Tales identity event handed start t (t.setState next) :=
  tales_of_setState h.tale

/-- The word that reconnections repeat becomes the state. -/
theorem reportRepeatedReconnection_standing (now : UInt32) :
    (t.reportRepeatedReconnection now).h.standing =
        { t.h.standing with state := .reconnectingRepeatedly } ∧
      (t.reportRepeatedReconnection now).said = t.said := by
  unfold reportRepeatedReconnection
  split
  · rename_i hsame
    exact ⟨by rw [← hsame]; rfl, rfl⟩
  · extract_lets noted
    have hnoted : Mute t noted := by
      show Mute t (if _ then _ else _)
      split
      · exact mute_putNote ..
      · split
        · exact mute_putNote ..
        · exact .refl t
    obtain ⟨hstanding, hsaid⟩ := setState_standing noted .reconnectingRepeatedly
    exact ⟨by rw [hstanding, hnoted.standing], hsaid.trans hnoted.said⟩

/-- It is told. -/
theorem tales_reportRepeatedReconnection (identity : Identity) (event : Event)
    (handed : Option FrameView) (start : Standing) (now : UInt32) :
    Tales identity event handed start t (t.reportRepeatedReconnection now) := by
  obtain ⟨hstanding, hsaid⟩ := reportRepeatedReconnection_standing t now
  refine ⟨[], by rw [hsaid, List.append_nil], ?_⟩
  rw [hstanding]
  exact (Tells.reconnects _).tale

end Turn

/-- Recording a drop leaves the standing alone. -/
theorem standing_recordDrop (h : Helper) (now : UInt32) :
    (h.recordDrop now).2.standing = h.standing := by
  unfold recordDrop
  split
  · rfl
  · split
    · rfl
    · split <;> rfl

/-- So does stamping the start. -/
theorem standing_noteStarted (h : Helper) (now : UInt32) :
    (h.noteStarted now).standing = h.standing := by
  unfold noteStarted
  split <;> rfl

/-- A device that is absent is not shown as one that is not paired. -/
theorem absentState_ne (h : Helper) : h.absentState ≠ .notPaired := by
  unfold absentState
  split <;> nofun

namespace Turn

variable (t : Turn) (identity : Identity) (event : Event) (handed : Option FrameView)
  (start : Standing)

/-- The start is stamped. -/
theorem mute_noteStarted (now : UInt32) : Mute t { t with h := t.h.noteStarted now } :=
  .of_standing (standing_noteStarted t.h now)

/-- The session is forgotten, and a state is put off. -/
theorem tale_forgotten (k : Standing) (state : UserState) (hstate : state ≠ .notPaired) :
    Tale identity event handed start k []
      { k with
        phase := .idle
        haveNegotiated := false
        haveDeferred := true
        deferredState := state } :=
  (Tells.forgets k).tale.append (Tells.defers _ state rfl hstate).tale

/-- A teardown tells that the board is connecting again, or nothing. -/
theorem tales_dropConnection (now : UInt32) (note : Note) (a b : Int32) :
    Tales identity event handed start t (t.dropConnection now note a b) := by
  have hcounted : Mute t { t with h :=
      if (t.h.recordDrop now).1 && t.h.standsAlone now &&
          !(t.h.recordDrop now).2.endedOnPurpose note a now
      then (t.h.recordDrop now).2.noteSessionLoss now else (t.h.recordDrop now).2 } := by
    refine .of_standing ?_
    split <;> exact standing_recordDrop t.h now
  unfold dropConnection
  refine Tales.mute ?_ (mute_retry _)
  refine Tales.trans ?_ (Tales.ite (tales_reportRepeatedReconnection _ _ _ _ _ now))
  refine Tales.mute ?_ ((mute_putNote ..).trans (mute_put _ rfl))
  refine (hcounted.trans (Mute.ite (mute_putNote ..))).then_tales (Tales.of_tale ?_)
  exact tale_forgotten identity event handed start _ _ (absentState_ne _)

/-! ## Device presence and acquisition -/

/-- The device leaves, and is shown as gone. -/
theorem tales_deviceLeft {reason : UserState} (hreason : reason ≠ .notPaired) (now : UInt32) :
    Tales identity event handed start t (t.deviceLeft reason now) ∧
      (t.deviceLeft reason now).h.phase = .idle := by
  have hleft : Tales identity event handed start t { t with
      h := ({ (t.h.recordDrop now).2 with recentSessionLosses := [] }.forgetSession).defer
        reason now } := by
    refine Tales.of_tale ?_
    rw [← standing_recordDrop t.h now]
    exact tale_forgotten identity event handed start _ _ hreason
  unfold deviceLeft
  dsimp only
  split
  · refine ⟨Tales.mute (hleft.mute ?_) (mute_put _ rfl), ?_⟩
    · exact .of_standing rfl
    · rw [put_h]
      rfl
  · exact ⟨hleft, rfl⟩

/-- A device appears. -/
theorem tales_deviceAppeared (which : DeviceIdentity) (now : UInt32) :
    Tales identity event handed start t (t.deviceAppeared which now) := by
  unfold deviceAppeared
  extract_lets h modeChanged seen left source mode shown changed ended quiet quieter
  have hseen : Tales identity event handed start t seen := by
    refine Tales.of_tale ?_
    rw [← standing_noteStarted t.h now]
    exact (Tells.sees _).tale
  split
  · exact hseen
  · -- a device that changes its mode has left first
    have hleft : Tales identity event handed start seen left ∧
        (left.h.phase = .idle ∨ left.h.configMode = decide (which = .configMode)) := by
      show Tales identity event handed start seen (if _ then _ else _) ∧
        ((if _ then _ else _ : Turn).h.phase = .idle ∨ (if _ then _ else _ : Turn).h.configMode = _)
      split
      · obtain ⟨htales, hidle⟩ :=
          @tales_deviceLeft seen identity event handed start .deviceInConfigMode nofun now
        exact ⟨htales, .inl hidle⟩
      · rename_i hstays
        rw [not_or] at hstays
        refine ⟨(Mute.refl _).tales, .inr ?_⟩
        rw [decide_eq_false hstays.1]
        simpa using hstays.2
    -- the mode is written only in the idle phase or where it is already that
    have hmode : Tales identity event handed start left { left with h := mode } :=
      .of_tale (Tells.modes _ _ hleft.2).tale
    have hchanged : Mute { left with h := mode } changed := by
      refine .of_standing ?_
      show (if modeChanged then _ else _ : Helper).standing = _
      split <;> rfl
    have hbefore := ((hseen.trans hleft.1).trans hmode).mute hchanged
    clear_value changed
    split
    · refine hbefore.mute ?_
      refine Mute.trans ?_ (mute_put _ rfl)
      exact .of_standing rfl
    · rename_i hnormal
      refine Tales.mute ?_ (mute_put _ rfl)
      have hquiet : Tales identity event handed start changed quiet :=
        .of_tale (Tells.undefers _).tale
      refine (hbefore.trans hquiet).trans ?_
      show Tales identity event handed start quiet (if _ then _ else _)
      split
      · rename_i hstate
        exact tales_setState _ (.quiets _ (Bool.not_eq_true _ ▸ hnormal) hstate)
      · exact (Mute.refl _).tales

/-- It disappears. -/
theorem tales_deviceDisappeared (now : UInt32) :
    Tales identity event handed start t (t.deviceDisappeared now) := by
  have hleft := @tales_deviceLeft { t with h := t.h.noteStarted now } identity event handed start
    .deviceAbsent nofun now
  refine ((mute_noteStarted t now).then_tales hleft.1).trans (Tales.of_tale ?_)
  exact (Tells.modes _ false (.inl hleft.2)).tale

/-- A refused acquisition forgets the session, whatever was left of it. -/
theorem tale_acquisitionRefused (acquired total : UInt8) (now : UInt32) {k : Standing}
    (hsame : { k with phase := .idle, haveNegotiated := false } =
      { t.h.standing with phase := .idle, haveNegotiated := false }) :
    (t.acquisitionRefused acquired total now).said = t.said ∧
      Tale identity event handed start k []
        (t.acquisitionRefused acquired total now).h.standing := by
  have hforgotten : (t.h.noteStarted now).forgetSession.standing =
      { t.h.standing with phase := .idle, haveNegotiated := false } := by
    rw [← standing_noteStarted t.h now]
    rfl
  have hforgets := (@Tells.forgets identity event handed start k).tale
  unfold acquisitionRefused
  extract_lets source forgotten deferring closed noted
  have hdefers : Tale identity event handed start k [] deferring.standing := by
    show Tale identity event handed start k [] (if _ then _ else _ : Helper).standing
    rw [hsame, ← hforgotten] at hforgets
    split
    · exact hforgets
    · exact hforgets.append (Tells.defers _ _ rfl (absentState_ne _)).tale
  have hnoted : Mute closed noted := by
    show Mute closed (if _ then _ else _)
    split
    · exact mute_putNote ..
    · exact mute_putNote ..
  have hmute : Mute { t with h := deferring } noted.retry :=
    ((mute_put _ rfl).trans hnoted).trans (mute_retry _)
  rw [hmute.standing, hmute.said]
  exact ⟨rfl, hdefers⟩

/-- Its channels are refused. -/
theorem tales_acquisitionRefused (acquired total : UInt8) (now : UInt32) :
    Tales identity event handed start t (t.acquisitionRefused acquired total now) := by
  obtain ⟨hsaid, htale⟩ := tale_acquisitionRefused t identity event handed start acquired total now
    (k := t.h.standing) rfl
  exact ⟨[], by rw [hsaid, List.append_nil], htale⟩

/-! ## Hellos and requests -/

/-- A frame that is no pair request says nothing about the pairing. -/
theorem mute_send {frame : FrameView} (htype : frame.type ≠ Msg.pairRequest) :
    Mute t (t.send frame.bytes) := by
  refine mute_put t ?_
  have hhead : frame.bytes.head? = some frame.type := rfl
  cases hcount : frameMax with
  | zero => cases hcount
  | succ count => simp [saidOf, List.head?_take, hhead, htype]

/-- The bytes of a request are read back as the request. -/
theorem saidOf_pairRequest {correlation : UInt64} {bytes : List UInt8}
    (h : pairRequestEncode { correlation := correlation.toNat, helperPublic := identity.publicKey }
      frameMax = .ok bytes) :
    saidOf (.send (bytes.take frameMax)) = some (.request correlation.toNat) := by
  have hlength : (littleEndian 8 correlation.toNat ++ identity.publicKey).length =
      pairRequestLen := by
    simp [identity.publicKey_length, pairRequestLen]
  simp only [pairRequestEncode, encode] at h
  split at h
  · cases h
  · split at h
    · cases h
    · split at h
      · cases h
      · cases h
        have hframe : (headerBytes Msg.pairRequest 0
            (littleEndian 8 correlation.toNat ++ identity.publicKey).length ++
              (littleEndian 8 correlation.toNat ++ identity.publicKey)).take frameMax = _ :=
          List.take_of_length_le (by rw [List.length_append, hlength]; simp [frameMax])
        have hvalue : value (littleEndian 8 correlation.toNat) = correlation.toNat :=
          value_littleEndian_of_lt (by norm_num; exact correlation.toNat_lt)
        have hcount : (littleEndian 8 correlation.toNat).length = 8 := by simp
        have hhead : (headerBytes Msg.pairRequest 0
            (littleEndian 8 correlation.toNat ++ identity.publicKey).length ++
              (littleEndian 8 correlation.toNat ++ identity.publicKey)).head? =
            some Msg.pairRequest := rfl
        rw [hframe]
        simp only [saidOf]
        rw [if_pos hhead, List.drop_left' (headerBytes_length ..), pairRequestDecode,
          if_neg (by rw [hlength]; simp), List.take_left' hcount, hvalue]
        rfl

/-- What building a request comes to. -/
theorem buildPairRequest_cases (draw : Draw) (now : UInt32) :
    t.buildPairRequest identity draw now = (none, t) ∨
      ∃ bytes h, t.buildPairRequest identity draw now = (some bytes, { t with h := h }) ∧
        h.standing = { t.h.standing with
          pairingRequested := true, pairCorrelation := draw.pairCorrelation.toNat } ∧
        saidOf (.send (bytes.take frameMax)) = some (.request draw.pairCorrelation.toNat) := by
  unfold buildPairRequest
  dsimp only
  split
  · exact .inl rfl
  · rename_i bytes hbytes
    exact .inr ⟨bytes, _, rfl, rfl, saidOf_pairRequest identity hbytes⟩

/-- A request that was built goes out while there is room for it. -/
theorem tales_request {t' : Turn} {bytes : List UInt8} {correlation : Nat}
    (hstanding : t'.h.standing = { t.h.standing with
      pairingRequested := true, pairCorrelation := correlation }) (hquiet : t'.said = t.said)
    (hbytes : saidOf (.send (bytes.take frameMax)) = some (.request correlation))
    (hroom : t'.o.items.length < outputsMax) :
    Tales identity event handed start t (t'.send bytes) := by
  refine ⟨[.request correlation], ?_, ?_⟩
  · rw [← hquiet]
    unfold send put
    rw [if_neg (Nat.not_le.2 hroom)]
    simp [said, hbytes]
  · rw [send, put_h, hstanding]
    exact (Tells.asks _ _).tale

/-- A request goes out, and is the one outstanding. -/
theorem tales_askToPair (draw : Draw) (now : UInt32) (hroom : t.o.items.length < outputsMax) :
    Tales identity event handed start t (t.askToPair identity draw now) := by
  unfold askToPair
  rcases buildPairRequest_cases t identity draw now with hnone |
    ⟨bytes, h, hsome, hstanding, hbytes⟩
  · rw [hnone]
    exact (Mute.refl t).tales
  · rw [hsome]
    exact tales_request t identity event handed start hstanding rfl hbytes hroom

/-- What building a hello comes to: its correlation is drawn in every case. -/
theorem buildHello_standing (draw : Draw) :
    (t.buildHello identity draw).2.h.standing =
        { t.h.standing with helloCorrelation := draw.helloCorrelation.toNat } ∧
      (t.buildHello identity draw).2.said = t.said ∧
      ((t.buildHello identity draw).1 = none ∨
        ∃ shared, identity.ecdh t.h.boardPublicKey = some shared ∧
          (t.buildHello identity draw).1 =
            some (helloView identity t.h.configMode shared draw).bytes ∧
          (t.buildHello identity draw).2.o = t.o) := by
  obtain ⟨-, hbuilt⟩ := buildHello_cases t identity draw
  have hdrawn : (t.buildHello identity draw).2.h.standing =
        { t.h.standing with helloCorrelation := draw.helloCorrelation.toNat } ∧
      (t.buildHello identity draw).2.said = t.said := by
    unfold buildHello
    dsimp only
    split
    · have hmute := mute_putNote { t with h := { t.h with
        helperNonce := draw.nonce, haveNonce := true,
        helloCorrelation := draw.helloCorrelation.toNat } } .keyDerivationFailed 0 0
      exact ⟨hmute.standing, hmute.said⟩
    · split
      · rename_i fault _
        have hmute := mute_putNote { t with h := { t.h with
          helperNonce := draw.nonce, haveNonce := true,
          helloCorrelation :=
            draw.helloCorrelation.toNat } } .helloEncodeFailed (frameResult fault) 0
        exact ⟨hmute.standing, hmute.said⟩
      · exact ⟨rfl, rfl⟩
  refine ⟨hdrawn.1, hdrawn.2, ?_⟩
  rcases hbuilt with ⟨-, hnone⟩ | hsome
  · exact .inl hnone
  · exact .inr hsome

/-- The hello of a helper that holds channels. -/
theorem mute_hello (configMode : Bool) (shared : List UInt8) (draw : Draw) :
    Mute t (t.send (helloView identity configMode shared draw).bytes) :=
  mute_send t (show Msg.hello ≠ Msg.pairRequest by decide)

/-- A helper whose hellos went unanswered asks to be paired as well. -/
theorem tales_askAgain (draw : Draw) (now : UInt32) (hroom : t.o.items.length + 1 < outputsMax) :
    Tales identity event handed start t
      (match t.buildPairRequest identity draw now with
      | (none, t) => t
      | (some bytes, t) => (t.putNote .askingToBePaired 0 0).send bytes) := by
  rcases buildPairRequest_cases t identity draw now with hnone |
    ⟨bytes, h, hsome, hstanding, hbytes⟩
  · rw [hnone]
    exact (Mute.refl t).tales
  · rw [hsome]
    refine tales_request t identity event handed start ?_ ?_ hbytes ?_
    · rw [putNote, put_h]
      exact hstanding
    · exact (mute_putNote ..).said
    · have hnoted := (puts_putNote { t with h := h } .askingToBePaired 0 0).length_le
      have hbefore : ({ t with h := h } : Turn).o.items.length = t.o.items.length := rfl
      omega

/-- The channels are acquired: a hello, or the prompt for the chord and a request. -/
theorem tales_channelsAcquired (count : UInt8) (draw : Draw) (now : UInt32)
    (hevent : event.acquires) (hkept : t.h.standing.haveBoardKey = start.haveBoardKey)
    (hroom : t.o.items.length + 2 < outputsMax) :
    Tales identity event handed start t (t.channelsAcquired identity count draw now) := by
  have hstarted := standing_noteStarted { t.h.forgetSession with acquiredChannels := count } now
  unfold channelsAcquired
  extract_lets forgotten started holding source asking hoping
  have hholding : holding.standing =
      { t.h.standing with phase := .idle, haveNegotiated := false } :=
    hstarted
  have hforgets : Tales identity event handed start t { t with h := holding } := by
    refine Tales.of_tale ?_
    rw [hholding]
    exact (Tells.forgets _).tale
  split
  · rename_i hkey
    have hasks : Tales identity event handed start { t with h := holding }
        ({ t with h := asking }.setState .notPaired) := by
      refine tales_of_setState (t := { t with h := holding }) ?_
      exact (Tells.unkeyed holding.standing hevent hkey
        (by rw [hholding]; exact hkept) (by rw [hholding])).tale
    refine (hforgets.trans hasks).trans (tales_askToPair _ identity event handed start draw now ?_)
    have := (puts_setState { t with h := asking } .notPaired).length_le
    have hbefore : ({ t with h := asking } : Turn).o.items.length = t.o.items.length := rfl
    omega
  · obtain ⟨hdrawn, hquiet, hbuilt⟩ := buildHello_standing { t with h := hoping } identity draw
    split
    · rename_i t' hresult
      rw [hresult] at hdrawn hquiet
      -- the phase the hello was to be answered in is over before it began
      obtain ⟨hsaid, htale⟩ := tale_acquisitionRefused t' identity event handed start 0 0 now
        (k := { holding.standing with helloCorrelation := draw.helloCorrelation.toNat })
        (by rw [hdrawn]; rfl)
      refine hforgets.trans ⟨[], ?_, (Tells.draws _ _).tale.append htale⟩
      rw [hsaid, hquiet, List.append_nil]
      rfl
    · rename_i bytes t' hresult
      rw [hresult] at hdrawn hquiet hbuilt
      obtain hnone | ⟨shared, -, hbytes, houtputs⟩ := hbuilt
      · cases hnone
      · cases hbytes
        have hhello : Tales identity event handed start t ({ t' with h :=
            { t'.h with haveDeferred := false } }.send
              (helloView identity hoping.configMode shared draw).bytes) := by
          refine Tales.mute (hforgets.trans ⟨[], ?_, ?_⟩) (mute_hello _ identity _ shared draw)
          · rw [List.append_nil]
            exact hquiet
          · show Tale identity event handed start holding.standing []
              { t'.h.standing with haveDeferred := false }
            rw [hdrawn]
            exact (Tells.hopes _ hevent).tale.append (Tells.draws _ _).tale
        have hsent := (puts_put { t' with h := { t'.h with haveDeferred := false } }
          (.send
            ((helloView identity hoping.configMode shared draw).bytes.take frameMax))).length_le
        have hbefore :
          ({ t' with h := { t'.h with haveDeferred := false } } : Turn).o.items.length =
          t'.o.items.length := rfl
        have hsame : t'.o.items.length = t.o.items.length := by rw [houtputs]
        refine hhello.trans (Tales.ite ?_)
        refine tales_askAgain _ identity event handed start draw now ?_
        show ({ t' with h := { t'.h with haveDeferred := false } }.put
          (.send ((helloView identity hoping.configMode shared draw).bytes.take
            frameMax))).o.items.length + 1 < outputsMax
        omega

/-! ## The answers to a hello -/

/-- An ack that is taken makes the session live, and shows it. -/
theorem acceptAck_standing (keys : List UInt8 × List UInt8) (rx : AuthCounter) (ack : HelloAck)
    (now : UInt32) :
    (t.acceptAck keys rx ack now).said = t.said ∧ ∃ state,
      (state = .reconnectingRepeatedly ∨ state = t.h.standing.connectedState) ∧
      (t.acceptAck keys rx ack now).h.standing =
        { t.h.standing with phase := .live, haveNegotiated := true, state := state } := by
  unfold acceptAck
  extract_lets keyed source live noted
  have hnoted : Mute live noted := Mute.ite (mute_putNote ..)
  have hlive : live.h.standing = { t.h.standing with phase := .live, haveNegotiated := true } := rfl
  have hsaid : noted.said = t.said := hnoted.said
  split
  · obtain ⟨hstanding, hquiet⟩ := reportRepeatedReconnection_standing noted now
    refine ⟨hquiet.trans hsaid, _, .inl rfl, ?_⟩
    rw [hstanding, hnoted.standing, hlive]
  · obtain ⟨hstanding, hquiet⟩ := setState_standing noted noted.h.connectedState
    have hconnected : noted.h.connectedState = t.h.standing.connectedState := by
      have hmode : noted.h.configMode = t.h.configMode :=
        congrArg Standing.configMode hnoted.standing
      unfold connectedState Standing.connectedState
      rw [hmode]
      rfl
    refine ⟨hquiet.trans hsaid, _, .inr hconnected, ?_⟩
    rw [hstanding, hnoted.standing, hlive]

/-- An ack is taken: the session is live. -/
theorem tales_acceptAck (keys : List UInt8 × List UInt8) (rx : AuthCounter) (ack : HelloAck)
    (now : UInt32) (hawaits : t.h.phase = .awaitingAck) :
    Tales identity event handed start t (t.acceptAck keys rx ack now) := by
  obtain ⟨hsaid, state, hstate, hstanding⟩ := acceptAck_standing t keys rx ack now
  refine ⟨[], by rw [hsaid, List.append_nil], ?_⟩
  rw [hstanding]
  exact (Tells.accepts _ state hawaits hstate).tale

/-- An ack of any kind. -/
theorem tales_onHelloAck (view : FrameView) (now : UInt32) :
    Tales identity event handed start t (t.onHelloAck identity view now) := by
  have hdrop : ∀ note a b,
      Tales identity event handed start t (t.dropConnection now note a b) := fun note a b ↦
    tales_dropConnection t identity event handed start now note a b
  unfold onHelloAck
  split
  · exact (mute_putNote ..).tales
  rename_i hphase
  split
  · exact hdrop ..
  split
  · exact hdrop ..
  split
  · exact hdrop ..
  split
  · exact hdrop ..
  dsimp only
  split
  · exact hdrop ..
  split
  · exact hdrop ..
  split
  · exact (mute_putNote ..).tales
  split
  · exact hdrop ..
  · exact tales_acceptAck t identity event handed start _ _ _ now (not_not.1 hphase)

/-- A refusal may say that the helper is not paired. -/
theorem tales_onHelloRefused {view : FrameView} (htype : view.type = Msg.helloRefused)
    (now : UInt32) :
    Tales identity event (some view) t.h.standing t (t.onHelloRefused view now) := by
  unfold onHelloRefused
  split
  · exact (mute_putNote ..).tales
  rename_i hphase
  cases hdecode : helloRefusedDecode view.payload with
  | none => exact tales_dropConnection ..
  | some refused =>
      dsimp only
      split
      · exact tales_dropConnection ..
      split
      · exact (mute_putNote ..).tales
      rename_i hcorrelation
      split
      · rename_i hstatus
        refine tales_of_setState ?_
        exact (Tells.unpairs ⟨not_not.1 hphase, view, refused, rfl, htype, hdecode, hstatus,
          not_not.1 hcorrelation⟩).tale
      · have hnoted : Mute t ({ t with h := t.h.backoffReset }.putNote .versionMismatch
            (Int32.ofNat refused.protoVersion) (Int32.ofNat protoVersion)) := by
          refine Mute.trans ?_ (mute_putNote ..)
          exact .of_standing rfl
        refine hnoted.then_tales (tales_of_setState ?_)
        exact (Tells.forgets _).tale.append (Tells.mismatches _ rfl).tale

/-! ## Pairing -/

/-- A grant is stored, names another key, or is discarded. -/
theorem tales_onPairGrant {view : FrameView} (htype : view.type = Msg.pairGrant) (draw : Draw)
    (now : UInt32) (hroom : t.o.items.length < outputsMax) :
    Tales identity event (some view) t.h.standing t (t.onPairGrant identity view draw now) := by
  unfold onPairGrant
  split
  · exact (mute_putNote ..).tales
  rename_i hasked
  rw [not_or] at hasked
  cases hdecode : pairGrantDecode view.payload with
  | none => exact (mute_putNote ..).tales
  | some grant =>
      obtain ⟨correlation, boardPublic⟩ := grant
      dsimp only
      split
      · exact (mute_putNote ..).tales
      rename_i hcorrelation
      have hanswers : Answers t.h.standing (some view) boardPublic := by
        refine ⟨Bool.not_eq_false _ ▸ hasked.2, view, rfl, htype, ?_⟩
        rw [hdecode, not_not.1 hcorrelation]
        rfl
      split
      · -- another key is pinned: the state changes and the pin stays
        rename_i hother
        obtain ⟨hstanding, hsaid⟩ := setState_standing
          ({ t with h := { t.h with pairingRequested := false } }.putNote .boardIdentityChanged 0 0)
          .boardIdentityChanged
        have hnoted := mute_putNote { t with h := { t.h with pairingRequested := false } }
          .boardIdentityChanged 0 0
        refine ⟨[], by rw [hsaid, hnoted.said, List.append_nil]; rfl, ?_⟩
        rw [hstanding, hnoted.standing]
        exact (Tells.changes hanswers hother.1 hother.2).tale
      rename_i hpinned
      simp only [not_and, not_not] at hpinned
      obtain ⟨hdrawn, hquiet, hbuilt⟩ := buildHello_standing
        { t with h := { t.h with boardPublicKey := boardPublic, haveBoardKey := true } }
          identity draw
      split
      · rename_i t' hresult
        rw [hresult] at hdrawn hquiet
        -- the hello could not be built, so the key is not kept
        refine ⟨[], by rw [List.append_nil]; exact hquiet, ?_⟩
        show Tale identity event (some view) t.h.standing t.h.standing []
          { t'.h.standing with
            boardPublicKey := t.h.boardPublicKey, haveBoardKey := t.h.haveBoardKey }
        rw [hdrawn]
        exact (Tells.draws _ _).tale
      · rename_i bytes t' hresult
        rw [hresult] at hdrawn hquiet hbuilt
        obtain hnone | ⟨shared, hshared, hbytes, houtputs⟩ := hbuilt
        · cases hnone
        · cases hbytes
          refine Tales.mute ?_ ((mute_putNote ..).trans (mute_hello _ identity _ shared draw))
          refine ⟨[.store boardPublic], ?_, ?_⟩
          · have hfree : t'.o.items.length < outputsMax := by
              have hsame : t'.o.items.length = t.o.items.length := by rw [houtputs]
              omega
            rw [show t.said = t'.said from hquiet.symm]
            unfold put
            rw [if_neg (Nat.not_le.2 hfree)]
            simp [said, saidOf]
          · rw [put_h]
            show Tale identity event (some view) t.h.standing t.h.standing [.store boardPublic]
              { t'.h.standing with pairingRequested := false, phase := .awaitingAck }
            rw [hdrawn]
            exact (Tells.grants draw.helloCorrelation.toNat hanswers hasked.1 hpinned
              (by rw [show identity.ecdh boardPublic = some shared from hshared]; nofun)).tale

/-- A refusal of the request. -/
theorem mute_onPairRefused (view : FrameView) : Mute t (t.onPairRefused view) := by
  unfold onPairRefused
  split
  · exact mute_putNote ..
  split
  · exact mute_putNote ..
  split
  · exact mute_putNote ..
  split
  · exact mute_putNote ..
  · exact mute_putNote ..

/-! ## Session traffic -/

/-- A beat of the device. -/
theorem mute_onDeviceBeat (view : FrameView) (now : UInt32) : Mute t (t.onDeviceBeat view now) := by
  have hheard : Mute t
      { t with h := { t.h with lastDeviceBeatAt := now, haveDeviceBeat := true } } :=
    .of_standing rfl
  unfold onDeviceBeat
  split
  · exact mute_putNote ..
  dsimp only
  split
  · exact hheard.trans (mute_putNote ..)
  split
  · exact hheard
  · refine Mute.trans ?_ (mute_putNote ..)
    exact .of_standing rfl

/-- The end of the session that the board says. -/
theorem tales_onSessionEnd (view : FrameView) (body : List UInt8) (now : UInt32) :
    Tales identity event handed start t (t.onSessionEnd view body now) := by
  unfold onSessionEnd
  split
  · exact (mute_putNote ..).tales
  · extract_lets reason silent drops noted told counted
    have hsilent : Mute t silent := Mute.ite (mute_putNote ..)
    have hnoted : Mute silent noted := (mute_putNote ..).trans (mute_putNote ..)
    have htold : Mute silent told := Mute.ite (hnoted.trans (Mute.ite (mute_putNote ..)))
    have hcounted : Mute told counted := mute_putNote ..
    exact ((hsilent.trans htold).trans hcounted).then_tales (tales_dropConnection ..)

/-- The policy. -/
theorem mute_onClipPolicy (view : FrameView) (body : List UInt8) :
    Mute t (t.onClipPolicy view body) := by
  unfold onClipPolicy
  cases clipPolicyDecode body with
  | none => exact mute_putNote ..
  | some policy =>
      refine Mute.trans ?_ (mute_putNote ..)
      refine Mute.trans ?_ (mute_put _ rfl)
      exact .of_standing rfl

/-- A reading of the drops. -/
theorem mute_onDeviceDrops (view : FrameView) (body : List UInt8) :
    Mute t (t.onDeviceDrops view body) := by
  unfold onDeviceDrops
  cases deviceDropsDecode body with
  | none => exact mute_putNote ..
  | some drops => exact .of_standing rfl

/-- An alert. -/
theorem tales_onListenerAlert (view : FrameView) (body : List UInt8) (now : UInt32) :
    Tales identity event handed start t (t.onListenerAlert view body now) := by
  unfold onListenerAlert
  cases listenerAlertDecode body with
  | none => exact (mute_putNote ..).tales
  | some alert =>
      refine Mute.then_tales ?_ (tales_setState _ (.alerts _))
      refine Mute.trans ?_ (mute_putNote ..)
      exact .of_standing rfl

/-! ## Dispatching -/

/-- Any frame of the session. -/
theorem tales_onVerified (view : FrameView) (body : List UInt8) (now : UInt32) :
    Tales identity event handed start t (t.onVerified view body now) := by
  unfold onVerified
  extract_lets source heard beat seen
  have hseen : Mute t seen := by
    refine .of_standing ?_
    show (if _ then _ else _ : Helper).standing = _
    split <;> rfl
  clear_value seen
  split
  · exact hseen.then_tales (tales_onSessionEnd ..)
  split
  · exact (hseen.trans (mute_onDeviceBeat ..)).tales
  split
  · exact hseen.then_tales (tales_onListenerAlert ..)
  split
  · exact (hseen.trans (mute_onClipPolicy ..)).tales
  split
  · exact (hseen.trans (mute_onDeviceDrops ..)).tales
  · exact (hseen.trans ⟨rfl, rfl⟩).tales

/-- A frame of an authenticated type. -/
theorem tales_onAuthenticated (view : FrameView) (now : UInt32) :
    Tales identity event handed start t (t.onAuthenticated identity view now) := by
  have hrx : ∀ rx, Mute t { t with h := { t.h with rx := rx } } := fun rx ↦ .of_standing rfl
  unfold onAuthenticated
  split
  · exact tales_onHelloAck ..
  split
  · exact (mute_putNote ..).tales
  split
  · split
    · exact (mute_putNote ..).tales
    · exact tales_dropConnection ..
  · exact ((hrx _).trans (mute_putNote ..)).tales
  · exact ((hrx _).trans (mute_putNote ..)).tales
  · exact (hrx _).then_tales (tales_onVerified ..)

/-- A frame finds the standing the input found. -/
theorem tales_onFrame (view : FrameView) (draw : Draw) (now : UInt32)
    (hroom : t.o.items.length < outputsMax) :
    Tales identity event (some view) t.h.standing t (t.onFrame identity view draw now) := by
  unfold onFrame
  split
  · exact tales_onAuthenticated ..
  · unfold onUnauthenticated
    split
    · rename_i htype
      exact tales_onHelloRefused t identity event htype now
    split
    · rename_i htype
      exact tales_onPairGrant t identity event htype draw now hroom
    split
    · exact (mute_onPairRefused ..).tales
    · exact (Mute.refl t).tales

/-- Any report. -/
theorem tales_receivedChannel (channel : UInt8) (data : List UInt8) (draw : Draw) (now : UInt32)
    (hroom : t.o.items.length + 1 < outputsMax) :
    Tales identity event (t.h.handing (.received channel data draw)) t.h.standing t
      (t.receivedChannel identity channel data draw now) := by
  unfold receivedChannel
  split
  · exact (Mute.refl t).tales
  · rename_i hhears
    have hhanding : t.h.handing (.received channel data draw) =
        ((t.h.readerOf channel).report data).1.toOption := by
      rw [handing, if_pos (show t.h.hears channel = true from decide_eq_true hhears)]
    extract_lets started before
    have hbefore : before = t.h.readerOf channel := by
      show (if _ then _ else _) = _
      unfold readerOf started noteStarted
      split <;> split <;> rfl
    rw [hhanding, ← hbefore]
    cases before.report data with
    | mk rc reader =>
        dsimp -zeta only
        extract_lets read noted
        have hread : Mute t read := by
          refine .of_standing (Eq.trans ?_ (standing_noteStarted t.h now))
          split <;> rfl
        have hnoted : Mute t noted := hread.trans (Mute.ite (mute_putNote ..))
        split
        · exact hnoted.tales
        · exact hnoted.then_tales (tales_dropConnection ..)
        · rw [← hnoted.standing]
          refine hnoted.then_tales (tales_onFrame noted identity event _ draw now ?_)
          have hputs : Puts 1 read noted := .ite (puts_putNote ..)
          have hnotes : noted.o.items.length ≤ t.o.items.length + 1 := hputs.length_le
          omega

/-! ## The tick -/

/-- Telling the state that was put off. -/
theorem tales_tickDeferred (now : UInt32) :
    Tales identity event handed start t (t.tickDeferred now) := by
  unfold tickDeferred
  split
  · rename_i hdeferred
    refine Tales.ite (tales_of_setState ?_)
    exact (Tells.settles _ hdeferred).tale
  · show Tales identity event handed start t (if _ then _ else _)
    split
    · rename_i hnever
      refine tales_setState _ (.misses _ ?_)
      simp only [Bool.and_eq_true, Bool.not_eq_true'] at hnever
      exact hnever.1
    · exact (Mute.refl t).tales

/-- Telling what was not read for too long. -/
theorem tales_tickReadings (now : UInt32) :
    Tales identity event handed start t (t.tickReadings now) := by
  unfold tickReadings
  extract_lets rated source alerted
  have hrated : Tales identity event handed start t rated :=
    Tales.ite (tales_setState _ (.connects _))
  have halerted : Tales identity event handed start rated alerted := by
    refine Tales.ite (tales_of_setState ?_)
    exact (Tells.connects _).tale
  refine (hrated.trans halerted).mute (Mute.ite (Mute.trans ?_ (mute_putNote ..)))
  exact .of_standing rfl

/-- The heartbeat. -/
theorem mute_tickHeartbeat (now : UInt32) : Mute t (t.tickHeartbeat now) := by
  unfold tickHeartbeat
  split
  · split
    · exact .refl t
    · rename_i bytes hbytes
      obtain ⟨rfl, -⟩ := frame_ok hbytes
      refine Mute.trans ?_ (mute_send _ (show Msg.heartbeat ≠ Msg.pairRequest by decide))
      exact .of_standing rfl
  · exact .refl t

/-- A tick. -/
theorem tales_tick (draw : Draw) (now : UInt32) (hroom : t.o.items.length + 5 < outputsMax) :
    Tales identity event handed start t (t.tick identity draw now) := by
  unfold tick
  extract_lets started calm woken deferred source sampled beaten
  have hcalm : calm.standing = started.standing := by
    show (if _ then _ else _ : Helper).standing = _
    split <;> rfl
  have hwoken : woken.standing = calm.standing := by
    show (if _ then _ else _ : Helper).standing = _
    split <;> rfl
  have hdeferred : Tales identity event handed start t deferred := by
    refine Mute.then_tales (Mute.of_standing ?_) (tales_tickDeferred ..)
    rw [hwoken, hcalm]
    exact standing_noteStarted t.h now
  have hsampled : Mute deferred sampled := by
    refine Mute.ite ?_
    exact .of_standing rfl
  split
  · split
    · refine hdeferred.trans (Mute.then_tales ?_ (tales_dropConnection ..))
      exact .of_standing rfl
    · exact hdeferred
  split
  · exact hdeferred
  split
  · exact (hdeferred.mute hsampled).trans (tales_dropConnection ..)
  · have hbeaten : Tales identity event handed start t beaten :=
      ((hdeferred.mute hsampled).trans (tales_tickReadings ..)).mute (mute_tickHeartbeat ..)
    refine hbeaten.trans (Tales.ite (tales_askToPair _ identity event handed start draw now ?_))
    have hread := (puts_tickReadings sampled now).length_le
    have hdefers : deferred.o.items.length ≤ t.o.items.length + 1 :=
      (puts_tickDeferred { t with h := woken } now).length_le
    have hsame : sampled.o.items.length = deferred.o.items.length := by
      show (if _ then _ else _ : Turn).o.items.length = _
      split <;> rfl
    have hbeat : beaten.o.items.length ≤ (sampled.tickReadings now).o.items.length + 1 :=
      (puts_tickHeartbeat _ now).length_le
    omega

/-- The host goes to sleep or wakes. -/
theorem mute_hostSleep (asleep : Bool) (now : UInt32) : Mute t (t.hostSleep asleep now) := by
  unfold hostSleep
  refine .of_standing ?_
  show (if _ then _ else _ : Helper).standing = _
  split <;> rfl

/-- A frame was sent. -/
theorem mute_noteSent (now : UInt32) : Mute t (t.noteSent now) := by
  unfold noteSent
  refine .of_standing ?_
  refine Eq.trans ?_ (standing_noteStarted t.h now)
  show (standing (if _ then _ else _ : Helper)) = _
  split <;> rfl

end Turn

/-- Every input is a chain of changes of the standing. -/
theorem handle_tale (identity : Identity) (h : Helper) (now : UInt32) (event : Event) :
    Tale identity event (h.handing event) h.standing h.standing (h.handle identity now event).said
      (h.handle identity now event).h.standing := by
  have htales : Turn.Tales identity event (h.handing event) h.standing { h := h }
      (h.handle identity now event) := by
    cases event with
    | deviceAppeared which => exact Turn.tales_deviceAppeared ..
    | deviceDisappeared => exact Turn.tales_deviceDisappeared ..
    | hostSleep asleep => exact (Turn.mute_hostSleep ..).tales
    | channelsAcquired count draw =>
        exact Turn.tales_channelsAcquired _ identity _ _ _ count draw now trivial rfl
          (show 0 + 2 < outputsMax by decide)
    | acquisitionRefused acquired total => exact Turn.tales_acquisitionRefused ..
    | received channel data draw =>
        exact Turn.tales_receivedChannel { h := h } identity _ channel data draw now
          (show 0 + 1 < outputsMax by decide)
    | transportFailed =>
        exact (Turn.mute_noteStarted _ now).then_tales (Turn.tales_dropConnection ..)
    | noteSent => exact (Turn.mute_noteSent ..).tales
    | noteSendRefused => exact (Turn.Mute.of_standing rfl).tales
    | tick draw =>
        exact Turn.tales_tick _ identity _ _ _ draw now (show 0 + 5 < outputsMax by decide)
  obtain ⟨said, hsaid, htale⟩ := htales
  rw [show (h.handle identity now event).said = said from hsaid]
  exact htale

/-- Building a frame changes nothing of the standing. -/
theorem standing_emit (h : Helper) (type flags : UInt8) (body : List UInt8) (cap : Nat) :
    (h.emit type flags body cap).2.standing = h.standing := by
  unfold emit
  split
  · rfl
  · split <;> rfl

end DeskhopPlus.Helper
