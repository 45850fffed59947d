import DeskhopPlus.Helper.Answers
import DeskhopPlus.Helper.Standing

/-!
# What the user is told and what may be sent

`dh_helper_can_send_bulk` asks the session and `dh_helper_allows_bulk` what the user is shown, and
the two must not disagree. `told_agrees` says that they do not in any run in which no grant disputes
the key of a board the helper has a session with; `disputed_session_sends` is a run in which
one does.
-/

namespace DeskhopPlus.Helper

open Bytes Wire Auth Crypto Board Runs

theorem call_input (identity : Identity) (h : Helper) (now : UInt32) (event : Event) :
    h.call identity (.input now event) = (h.handle identity now event).h := rfl

/-- The frame a call completes. -/
def completes (h : Helper) : Call → Option FrameView
  | .input _ event => h.handing event
  | .emit .. => none

theorem canSendBulk_iff (h : Helper) :
    h.canSendBulk = true ↔ h.standing.phase = .live ∧ h.standing.haveNegotiated = true := by
  simp [canSendBulk, standing]

/-- The call opens the channels. -/
def Call.opens : Call → Bool
  | .input _ (.channelsAcquired _ _) => true
  | _ => false

/-- The platform opens the channels of a device it has reported. -/
def Reported (h : Helper) (call : Call) : Prop := call.opens = true → h.everSawDevice = true

instance (h : Helper) (call : Call) : Decidable (h.Reported call) :=
  inferInstanceAs (Decidable (_ → _))

/-- The frame is a grant that answers the request last made with another key than the one pinned. -/
def disputes (h : Helper) (view : FrameView) : Bool :=
  view.type = Msg.pairGrant && h.pairingRequested && h.haveBoardKey &&
    (pairGrantDecode view.payload).any fun grant ↦
      grant.1 = h.pairCorrelation && grant.2 ≠ h.boardPublicKey

/-- No grant disputes the board's key while there is a session. -/
def Undisputed (h : Helper) (call : Call) : Prop :=
  h.canSendBulk = true → (h.completes call).any h.disputes = false

instance (h : Helper) (call : Call) : Decidable (h.Undisputed call) :=
  inferInstanceAs (Decidable (_ → _))

/-- What is shown agrees with what may be sent, and nothing but an idle phase has a state put off or
a device that was never seen. -/
structure Agrees (k : Standing) : Prop where
  shown : k.phase = .live → k.haveNegotiated = true →
    k.state.allowsBulk = true ∧ (k.state = .connectedConfigMode → k.configMode = true)
  deferred : k.haveDeferred = true → k.phase = .idle
  seen : k.phase ≠ .idle → k.everSawDevice = true

section Chain

variable {identity : Identity} {event : Event} {handed : Option FrameView} {start k k' : Standing}
  {said : List Said}

/-- The state of a connection that stands allows bulk. -/
theorem connectedState_allows (k : Standing) :
    k.connectedState.allowsBulk = true ∧
      (k.connectedState = .connectedConfigMode → k.configMode = true) := by
  unfold Standing.connectedState
  cases k.configMode with
  | true => exact ⟨rfl, fun _ ↦ rfl⟩
  | false => exact ⟨rfl, nofun⟩

/-- One change keeps the agreement, unless it is a grant that disputes the key. -/
theorem Tells.agrees (h : Tells identity event handed start k said k') (hk : Agrees k)
    (hseen : event.acquires → k.everSawDevice = true)
    (hundisputed : ∀ boardPublic, Answers start handed boardPublic → start.haveBoardKey = true →
      start.boardPublicKey ≠ boardPublic → start.phase = .live → start.haveNegotiated = false) :
    Agrees k' ∧ (event.acquires → k'.everSawDevice = true) := by
  cases h with
  | sees => exact ⟨⟨hk.shown, hk.deferred, fun _ ↦ rfl⟩, fun _ ↦ rfl⟩
  | forgets => exact ⟨⟨nofun, fun _ ↦ rfl, fun h ↦ absurd rfl h⟩, hseen⟩
  | defers _ _ hidle => exact ⟨⟨hk.shown, fun _ ↦ hidle, hk.seen⟩, hseen⟩
  | settles _ hdeferred =>
      have hidle := hk.deferred hdeferred
      refine ⟨⟨fun hlive ↦ ?_, nofun, hk.seen⟩, hseen⟩
      rw [show k.phase = .live from hlive] at hidle
      cases hidle
  | undefers => exact ⟨⟨hk.shown, nofun, hk.seen⟩, hseen⟩
  | misses _ hnever =>
      refine ⟨⟨fun hlive ↦ ?_, hk.deferred, hk.seen⟩, hseen⟩
      have hsaw := hk.seen (show k.phase ≠ .idle by rw [show k.phase = .live from hlive]; nofun)
      rw [hnever] at hsaw
      cases hsaw
  | modes _ configMode hmode =>
      refine ⟨⟨fun hlive hneg ↦ ?_, hk.deferred, hk.seen⟩, hseen⟩
      rcases hmode with hidle | rfl
      · rw [show k.phase = .live from hlive] at hidle
        cases hidle
      · exact hk.shown hlive hneg
  | quiets _ hmode hstate =>
      refine ⟨⟨fun hlive hneg ↦ ?_, hk.deferred, hk.seen⟩, hseen⟩
      -- none of these states is shown while there is a session in the normal mode
      obtain ⟨hallows, hconfig⟩ := hk.shown hlive hneg
      rcases hstate with hstate | hstate | hstate
      · rw [hstate] at hallows
        cases hallows
      · rw [hstate] at hallows
        cases hallows
      · rw [hconfig hstate] at hmode
        cases hmode
  | reconnects => exact ⟨⟨fun _ _ ↦ ⟨rfl, nofun⟩, hk.deferred, hk.seen⟩, hseen⟩
  | connects => exact ⟨⟨fun _ _ ↦ connectedState_allows k, hk.deferred, hk.seen⟩, hseen⟩
  | alerts => exact ⟨⟨fun _ _ ↦ ⟨rfl, nofun⟩, hk.deferred, hk.seen⟩, hseen⟩
  | mismatches _ hidle =>
      refine ⟨⟨fun hlive ↦ ?_, hk.deferred, hk.seen⟩, hseen⟩
      rw [show k.phase = .live from hlive] at hidle
      cases hidle
  | unkeyed _ hevent _ _ hnone =>
      refine ⟨⟨fun _ hneg ↦ ?_, nofun, fun _ ↦ hseen hevent⟩, hseen⟩
      rw [show k.haveNegotiated = true from hneg] at hnone
      cases hnone
  | hopes _ hevent => exact ⟨⟨nofun, nofun, fun _ ↦ hseen hevent⟩, hseen⟩
  | draws => exact ⟨⟨hk.shown, hk.deferred, hk.seen⟩, hseen⟩
  | asks => exact ⟨⟨hk.shown, hk.deferred, hk.seen⟩, hseen⟩
  | accepts _ state hawaits hstate =>
      refine ⟨⟨fun _ _ ↦ ?_, fun hdeferred ↦ ?_, fun _ ↦ hk.seen (by rw [hawaits]; nofun)⟩, hseen⟩
      · rcases hstate with rfl | rfl
        · exact ⟨rfl, nofun⟩
        · exact connectedState_allows k
      · have hidle := hk.deferred hdeferred
        rw [hawaits] at hidle
        cases hidle
  | unpairs hunpaired =>
      refine ⟨⟨nofun, fun hdeferred ↦ ?_, fun _ ↦ hk.seen (by rw [hunpaired.awaits]; nofun)⟩, hseen⟩
      have hidle := hk.deferred hdeferred
      rw [hunpaired.awaits] at hidle
      cases hidle
  | changes hanswers hkey hother =>
      refine ⟨⟨fun hlive hneg ↦ ?_, hk.deferred, hk.seen⟩, hseen⟩
      have hnone := hundisputed _ hanswers hkey hother hlive
      rw [show start.haveNegotiated = true from hneg] at hnone
      cases hnone
  | grants _ _ hphase =>
      exact ⟨⟨nofun, fun hdeferred ↦ absurd (hk.deferred hdeferred) hphase, fun _ ↦ hk.seen hphase⟩,
        hseen⟩

theorem Tale.agrees (h : Tale identity event handed start k said k') (hk : Agrees k)
    (hseen : event.acquires → k.everSawDevice = true)
    (hundisputed : ∀ boardPublic, Answers start handed boardPublic → start.haveBoardKey = true →
      start.boardPublicKey ≠ boardPublic → start.phase = .live → start.haveNegotiated = false) :
    Agrees k' := by
  induction h with
  | nil => exact hk
  | cons first _ ih =>
      obtain ⟨hk', hseen'⟩ := first.agrees hk hseen hundisputed
      exact ih hk' hseen'

end Chain

/-- A call keeps the agreement, unless it brings a grant that disputes the key. -/
theorem agrees_call (identity : Identity) {h : Helper} (hagrees : Agrees h.standing) {call : Call}
    (hreported : h.Reported call) (hundisputed : h.Undisputed call) :
    Agrees (h.call identity call).standing := by
  cases call with
  | emit type flags body cap =>
      show Agrees (h.emit type flags body cap).2.standing
      rw [standing_emit]
      exact hagrees
  | input now event =>
      refine (handle_tale identity h now event).agrees hagrees ?_ ?_
      · intro hacquires
        cases event with
        | channelsAcquired count draw => exact hreported rfl
        | _ => cases hacquires
      · rintro boardPublic ⟨hrequested, view, hhanded, htype, hdecode⟩ hkey hother hlive
        by_contra hnegotiated
        have hcan : h.canSendBulk = true := by
          have hlive : h.phase = .live := hlive
          have hnegotiated : h.haveNegotiated = true := Bool.not_eq_false _ ▸ hnegotiated
          simp [canSendBulk, hlive, hnegotiated]
        have hnone := hundisputed hcan
        have hrequested : h.pairingRequested = true := hrequested
        have hkey : h.haveBoardKey = true := hkey
        have hother : boardPublic ≠ h.boardPublicKey := fun hsame ↦ hother hsame.symm
        have hdecode : pairGrantDecode view.payload = some (h.pairCorrelation, boardPublic) :=
          hdecode
        rw [show h.completes (.input now event) = some view from hhanded] at hnone
        simp [disputes, htype, hrequested, hkey, hdecode, hother] at hnone

theorem agrees_init (boardPublicKey : Option (List UInt8)) :
    Agrees (init boardPublicKey).standing := by
  cases boardPublicKey with
  | none => exact ⟨nofun, nofun, fun h ↦ absurd rfl h⟩
  | some key => exact ⟨nofun, nofun, fun h ↦ absurd rfl h⟩

/-- In every run in which the platform reports the device before it opens its channels, and no grant
disputes the board's key while there is a session: whenever bulk may be sent the state shown allows
it, and a frame is built only then. -/
theorem told_agrees (identity : Identity) (boardPublicKey : Option (List UInt8)) (calls : List Call)
    (hreported : Along (call identity) Reported (init boardPublicKey) calls)
    (hundisputed : Along (call identity) Undisputed (init boardPublicKey) calls) :
    ((run (call identity) (init boardPublicKey) calls).canSendBulk = true →
        (run (call identity) (init boardPublicKey) calls).state.allowsBulk = true) ∧
      ∀ type flags body cap bytes,
        ((run (call identity) (init boardPublicKey) calls).emit type flags body cap).1 = .ok bytes →
          (run (call identity) (init boardPublicKey) calls).state.allowsBulk = true := by
  have hagrees := run_invariant_along (fun h : Helper ↦ Agrees h.standing)
    (agrees_init boardPublicKey) (fun _ _ hk hstep ↦ agrees_call identity hk hstep.1 hstep.2)
    (hreported.and hundisputed)
  have hsends : (run (call identity) (init boardPublicKey) calls).canSendBulk = true →
      (run (call identity) (init boardPublicKey) calls).state.allowsBulk = true := by
    intro hcan
    rw [canSendBulk_iff] at hcan
    exact (hagrees.shown hcan.1 hcan.2).1
  refine ⟨hsends, ?_⟩
  intro type flags body cap bytes hbuilt
  refine hsends ?_
  unfold emit at hbuilt
  split at hbuilt
  · cases hbuilt
  · rename_i hcan
    simp only [Bool.or_eq_true, Bool.not_eq_true', not_or, Bool.not_eq_false] at hcan
    exact hcan.1

/-! ## A session with a board whose key is disputed -/

/-- What the helper draws for a hello, and for the request that goes with it. -/
def disputedDraw : Draw where
  nonce := List.replicate nonceSize 0x36
  helloCorrelation := 5
  pairCorrelation := 6
  nonce_length := by decide

/-- The channels are opened, and the hello goes unanswered. -/
def unanswered (at_ : UInt32) : List Call :=
  [.input at_ (.channelsAcquired 2 disputedDraw), .input (at_ + 2000) (.tick disputedDraw)]

/-- A device is reported, four hellos go unanswered, and the channels are opened once more: this
time a request to be paired goes out with the hello. -/
def disputedOpening : List Call :=
  [.input 0 (.deviceAppeared .normal)] ++ unanswered 1000 ++ unanswered 3250 ++ unanswered 5750 ++
    unanswered 8750 ++ [.input 12750 (.channelsAcquired 2 disputedDraw)]

/-- The ack of the last hello, from the board whose key is pinned. -/
def disputedAck : HelloAck where
  correlation := 5
  protoVersion := protoVersion
  buildType := 0
  channelCount := 2
  maxChunk := 1024
  boardNonce := List.replicate nonceSize 0x44

def disputedAckView : FrameView :=
  ackView (deriveSessionKeys lateSecret disputedDraw.nonce disputedAck.boardNonce).2 disputedAck

/-- A grant that answers the request with a key of its own. -/
def disputedGrant : FrameView where
  type := Msg.pairGrant
  flags := 0
  payload := littleEndian 8 6 ++ smallPublic 4

/-- The session is up. -/
def disputedSession : List Call :=
  disputedOpening ++ [.input 12760 (.received 0 (wholeReport disputedAckView.bytes) disputedDraw)]

/-- The grant comes, in two reports. -/
def disputedCalls : List Call :=
  disputedSession ++
    [.input 12770 (.received 0
      (reportFrameStart :: disputedGrant.bytes.take reportStreamSize) disputedDraw),
     .input 12780 (.received 0
      (reportFrameContinues :: disputedGrant.bytes.drop reportStreamSize) disputedDraw)]

/-- Reading a frame leaves the standing alone. -/
theorem SameButReading.standing {h h' : Helper} (hsame : SameButReading h h') :
    h'.standing = h.standing := by
  rw [hsame]
  rfl

set_option maxRecDepth 4096 in
/-- The ack is taken, and the request is still outstanding. -/
theorem disputedSession_standing :
    ∃ state, (run (call lateIdentity) (init (some lateKey)) disputedSession).standing =
      { (run (call lateIdentity) (init (some lateKey)) disputedOpening).standing with
        phase := .live, haveNegotiated := true, state := state } := by
  rw [disputedSession, run_snoc]
  have hcore : (run (call lateIdentity) (init (some lateKey)) disputedOpening).core =
      { phase := .awaitingAck, haveBoardKey := true, boardPublicKey := lateKey,
        haveNonce := true, helperNonce := disputedDraw.nonce, helloCorrelation := 5,
        haveKeys := false, kH2b := List.replicate sessionKeySize 0,
        kB2h := List.replicate sessionKeySize 0, txCounter := 0, acquiredChannels := 2,
        negotiated := {} } := by decide
  generalize run (call lateIdentity) (init (some lateKey)) disputedOpening = h at hcore ⊢
  have hhands : h.handing (.received 0 (wholeReport disputedAckView.bytes) disputedDraw) =
      some disputedAckView := by
    refine handing_wholeReport h (by decide) ?_ disputedDraw
    rw [disputedAckView, ackView, builtView_payload_length]
    decide
  obtain ⟨reading, hreading, hframe⟩ := handle_received lateIdentity hhands 12760
  have hread : reading.h.core = h.core := by
    rw [hreading.same]
    rfl
  rw [hcore] at hread
  have hnonce : disputedAck.boardNonce.length = nonceSize := by decide
  have hbody : bodyOf disputedAckView = ackBody disputedAck := bodyOf_builtView ..
  -- the ack is built under the keys both ends derive, so its tag verifies
  have htag : TagVerifies (deriveSessionKeys lateSecret reading.h.helperNonce
      disputedAck.boardNonce).2 disputedAckView := by
    rw [show reading.h.helperNonce = disputedDraw.nonce from congrArg Core.helperNonce hread]
    exact builtView_tag_verifies _ _ _ _ _ (by decide)
  have hcorrelation : reading.h.helloCorrelation = 5 := congrArg Core.helloCorrelation hread
  have hacquired : reading.h.acquiredChannels = 2 := congrArg Core.acquiredChannels hread
  have hpeek : Turn.peekBoardNonce disputedAckView = some disputedAck.boardNonce := by
    rw [disputedAckView]
    exact peekBoardNonce_ackView _ hnonce
  have hshared : lateIdentity.ecdh reading.h.boardPublicKey = some lateSecret := by
    rw [show reading.h.boardPublicKey = lateKey from congrArg Core.boardPublicKey hread]
    simp only [lateIdentity, if_true]
  have htaken := onHelloAck_awaiting (congrArg Core.phase hread) (congrArg Core.haveBoardKey hread)
    (congrArg Core.haveNonce hread) hshared hpeek
    (hbody ▸ helloAckDecode_ackBody hnonce (by decide) (by decide) (by decide)) 12760
  rw [if_pos htag, if_neg (by rw [hcorrelation]; decide), if_neg (by rw [hacquired]; decide)]
    at htaken
  obtain ⟨-, state, -, hstanding⟩ := Turn.acceptAck_standing reading _ _ _ _
  have hroute : reading.onFrame lateIdentity disputedAckView disputedDraw 12760 =
      reading.onHelloAck lateIdentity disputedAckView 12760 := onFrame_ackView ..
  refine ⟨state, ?_⟩
  rw [call_input, hframe, hroute, htaken, hstanding, hreading.same.standing]

theorem disputedSession_sends :
    (run (call lateIdentity) (init (some lateKey)) disputedSession).canSendBulk = true := by
  obtain ⟨state, hstanding⟩ := disputedSession_standing
  rw [canSendBulk_iff, hstanding]
  exact ⟨rfl, rfl⟩

/-- A report that completes no frame is only read. -/
theorem handle_again (identity : Identity) {h : Helper} {data : List UInt8} (draw : Draw)
    {reader : FrameReader} (hreads : h.reader.report data = (.error .again, reader))
    (now : UInt32) :
    (h.handle identity now (.received 0 data draw)).h.standing = h.standing ∧
      (h.handle identity now (.received 0 data draw)).h.reader = reader := by
  show (Turn.receivedChannel identity { h := h } 0 data draw now).h.standing = _ ∧
    (Turn.receivedChannel identity { h := h } 0 data draw now).h.reader = _
  unfold Turn.receivedChannel
  rw [if_neg (by simp [sessionChannelCount])]
  extract_lets started before
  have hbefore : before.report data = (.error .again, reader) := by
    rw [← hreads]
    show (if _ then started.reader else _).report data = _
    rw [if_pos rfl]
    unfold started noteStarted
    split <;> rfl
  rw [hbefore]
  dsimp -zeta only
  extract_lets read noted
  have hnoted : noted.h = read.h := by
    show (if _ then _ else _ : Turn).h = _
    split
    · exact Turn.put_h _ _
    · rfl
  rw [hnoted]
  exact ⟨standing_noteStarted h now, rfl⟩

/-- The grant is handed over by the second of its reports. -/
theorem disputedGrant_handed (h : Helper) :
    ∃ h', (h.call lateIdentity (.input 12770 (.received 0
        (reportFrameStart :: disputedGrant.bytes.take reportStreamSize) disputedDraw))) = h' ∧
      h'.standing = h.standing ∧
      h'.handing (.received 0 (reportFrameContinues :: disputedGrant.bytes.drop reportStreamSize)
        disputedDraw) = some disputedGrant := by
  have hparse : headerParse (disputedGrant.bytes.take reportStreamSize) =
      .ok disputedGrant.hdr := by
    decide
  obtain ⟨resyncs, hfirst⟩ := FrameReader.report_start (r := h.reader) hparse
  rw [if_neg (by decide)] at hfirst
  obtain ⟨hstanding, hreader⟩ := handle_again lateIdentity disputedDraw hfirst 12770
  refine ⟨_, rfl, hstanding, ?_⟩
  have hframe : FrameReader.InFrame
      { held := disputedGrant.bytes.take reportStreamSize, resyncs := resyncs }
      disputedGrant.hdr :=
    ⟨hparse, show (disputedGrant.bytes.take reportStreamSize).length <
      headerSize + disputedGrant.hdr.len by decide⟩
  have hsecond := FrameReader.report_continues hframe
    (show disputedGrant.bytes.drop reportStreamSize ≠ [] by decide)
  have hrest : headerSize + disputedGrant.hdr.len -
      (disputedGrant.bytes.take reportStreamSize).length =
        (disputedGrant.bytes.drop reportStreamSize).length := by decide
  rw [hrest, if_pos le_rfl, List.drop_length, if_pos List.all_nil, List.take_length,
    List.take_append_drop] at hsecond
  rw [handing, if_pos (by simp [hears, sessionChannelCount])]
  rw [call_input, show ∀ g : Helper, g.readerOf 0 = g.reader from fun _ ↦ rfl, hreader, hsecond]
  rfl

/-- Until the grant comes, what is shown agrees with the session. -/
theorem told_agrees_disputedSession :
    (run (call lateIdentity) (init (some lateKey)) disputedSession).state.allowsBulk = true :=
  (told_agrees lateIdentity (some lateKey) disputedSession
    ((Along.append _).2 ⟨by decide, nofun, trivial⟩)
    ((Along.append _).2 ⟨by decide, by
      have hphase : (run (call lateIdentity) (init (some lateKey)) disputedOpening).phase =
        .awaitingAck := by decide
      refine ⟨fun hcan ↦ ?_, trivial⟩
      simp [canSendBulk, hphase] at hcan⟩)).1 disputedSession_sends

set_option maxRecDepth 4096 in
/-- The grant names another key while there is a session: the user is shown a board whose identity
changed, which does not allow bulk, and bulk may still be sent. -/
theorem disputed_session_sends :
    Along (call lateIdentity) Reported (init (some lateKey)) disputedCalls ∧
      (run (call lateIdentity) (init (some lateKey)) disputedCalls).canSendBulk = true ∧
      (run (call lateIdentity) (init (some lateKey)) disputedCalls).state =
        .boardIdentityChanged ∧
      UserState.boardIdentityChanged.allowsBulk = false := by
  have hopening : (run (call lateIdentity) (init (some lateKey)) disputedOpening).standing =
      { phase := .awaitingAck, haveNegotiated := false, state := .reconnectingRepeatedly,
        configMode := false, haveDeferred := false, deferredState := .deviceAbsent,
        everSawDevice := true, pairingRequested := true, pairCorrelation := 6, haveBoardKey := true,
        boardPublicKey := lateKey, helloCorrelation := 5 } := by decide
  obtain ⟨state, hsession⟩ := disputedSession_standing
  rw [hopening] at hsession
  have hreported : Along (call lateIdentity) Reported (init (some lateKey)) disputedCalls := by
    rw [disputedCalls, Along.append]
    rw [disputedSession, Along.append]
    exact ⟨⟨by decide, nofun, trivial⟩, nofun, nofun, trivial⟩
  rw [disputedCalls, run_append]
  refine ⟨hreported, ?_⟩
  generalize run (call lateIdentity) (init (some lateKey)) disputedSession =
    before at hsession ⊢
  obtain ⟨h, hfirst, hsame, hhands⟩ := disputedGrant_handed before
  rw [run_cons, run_cons, run_nil, hfirst]
  obtain ⟨reading, hreading, hframe⟩ := handle_received lateIdentity hhands 12780
  have hread : reading.h.standing = _ := (hreading.same.standing.trans hsame).trans hsession
  have hphase : reading.h.phase = .live := congrArg Standing.phase hread
  have hasked : reading.h.pairingRequested = true := congrArg Standing.pairingRequested hread
  have hcorrelation : reading.h.pairCorrelation = 6 := congrArg Standing.pairCorrelation hread
  have hkey : reading.h.haveBoardKey = true := congrArg Standing.haveBoardKey hread
  have hpublic : reading.h.boardPublicKey = lateKey := congrArg Standing.boardPublicKey hread
  have hdecode : pairGrantDecode disputedGrant.payload =
      some (6, smallPublic 4) := by decide
  have hother : lateKey ≠ smallPublic 4 := by decide
  -- the correlation is that of the request, and another key is pinned
  have hgrant : reading.onFrame lateIdentity disputedGrant disputedDraw 12780 =
      ({ reading with h := { reading.h with pairingRequested := false } }.putNote
        .boardIdentityChanged 0 0).setState .boardIdentityChanged := by
    show reading.onPairGrant lateIdentity disputedGrant disputedDraw 12780 = _
    unfold Turn.onPairGrant
    rw [if_neg (by simp [hphase, hasked]), hdecode]
    dsimp only
    rw [if_neg (by simp [hcorrelation]), if_pos ⟨hkey, by rw [hpublic]; exact hother⟩]
  have hstanding : (h.call lateIdentity (.input 12780 (.received 0
      (reportFrameContinues :: disputedGrant.bytes.drop reportStreamSize) disputedDraw))).standing =
      { reading.h.standing with pairingRequested := false, state := .boardIdentityChanged } := by
    rw [call_input, hframe, hgrant, (Turn.setState_standing _ _).1,
      (Turn.mute_putNote _ _ _ _).standing]
    rfl
  rw [hread] at hstanding
  refine ⟨?_, congrArg Standing.state hstanding, rfl⟩
  rw [canSendBulk_iff, hstanding]
  exact ⟨rfl, rfl⟩

end DeskhopPlus.Helper
