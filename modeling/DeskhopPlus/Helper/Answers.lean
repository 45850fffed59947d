import DeskhopPlus.Helper.Moves

/-!
# Answers to another hello

A helper acts on an answer only if it echoes the correlation of the hello it awaits an answer to.
Anything else is to be discarded without changing any state. The correlation of an ack is read
behind its tag, and the tag is checked under the keys of the helper's own nonce: an ack of a hello
with another nonce fails there, and a failed tag drops the connection. `answer_inert_iff` says
exactly which answers of a board a helper discards.
-/

namespace DeskhopPlus.Helper

open Bytes Wire Auth Crypto Board

/-! ## What a board answers -/

/-- The correlation an answer to this frame echoes. -/
def askedCorrelation (question : FrameView) : Nat :=
  ((Session.readHello question).map Hello.correlation).getD 0

/-- The body of an ack. -/
def ackBody (ack : HelloAck) : List UInt8 :=
  littleEndian 8 ack.correlation ++ littleEndian 2 ack.protoVersion ++
    [ack.buildType, ack.channelCount] ++ littleEndian 2 ack.maxChunk ++ ack.boardNonce

/-- The frame of a refused hello. -/
def refusedView (correlation : Nat) (status : RefusedStatus) : FrameView where
  type := Msg.helloRefused
  flags := 0
  payload := littleEndian 8 correlation ++ littleEndian 2 protoVersion ++ [status.byte]

/-- The frame of an ack. -/
def ackView (key : List UInt8) (ack : HelloAck) : FrameView :=
  builtView Msg.helloAck 0 key 0 (ackBody ack)

theorem readHello_correlation_lt {question : FrameView} {hello : Hello}
    (h : Session.readHello question = some hello) : hello.correlation < 2 ^ 64 := by
  unfold Session.readHello at h
  split at h
  · cases h
  · unfold helloDecode at h
    split at h
    · cases h
    · cases h
      have hlt := value_lt ((((question.payload.drop authPrefixSize)).drop 7).take 8)
      refine hlt.trans_le ?_
      calc 256 ^ (((question.payload.drop authPrefixSize).drop 7).take 8).length
          ≤ 256 ^ 8 := Nat.pow_le_pow_right (by omega) (List.length_take_le ..)
        _ = 2 ^ 64 := by norm_num

theorem askedCorrelation_lt (question : FrameView) : askedCorrelation question < 2 ^ 64 := by
  unfold askedCorrelation
  cases hread : Session.readHello question with
  | none => simp
  | some hello => exact readHello_correlation_lt hread

theorem refuseHello_ok {correlation cap : Nat} {status : RefusedStatus} {bytes : List UInt8}
    (h : refuseHello correlation status cap = .ok bytes) :
    bytes = (refusedView correlation status).bytes := by
  simp only [refuseHello, encode] at h
  split at h
  · cases h
  · split at h
    · cases h
    · split at h
      · cases h
      · cases h
        rfl

/-- A refusal echoes the correlation of the question, and only a hello that was read is proved. -/
theorem helloVerdict_echoes (s : Session) (pair : Pair) (question : FrameView) :
    match s.helloVerdict pair question with
    | .refused correlation _ => correlation = askedCorrelation question
    | .silent => True
    | .proved hello _ => Session.readHello question = some hello := by
  unfold Session.helloVerdict askedCorrelation
  cases Session.readHello question with
  | none => rfl
  | some hello =>
      dsimp only
      split_ifs
      · rfl
      · rfl
      · rfl
      · cases
          (authOpen (deriveHelloKey (pair.secret.getD Session.noSecret) hello.helperNonce) question
            AuthCounter.init).1 with
        | error fault => trivial
        | ok body => rfl

/-- An answer is a refusal or an ack, and echoes the correlation of the question. -/
theorem answerHello_view {s : Session} {pair : Pair} {question view : FrameView} {asked : UInt32}
    {cap : Nat} (h : (s.answerHello pair question asked cap).1 = .ok view.bytes) :
    (∃ status, view = refusedView (askedCorrelation question) status) ∨
      ∃ hello secret, Session.readHello question = some hello ∧
        s.helloVerdict pair question = .proved hello secret ∧
        view = ackView (deriveSessionKeys secret hello.helperNonce s.stagedNonce).2
          (s.helloAck hello) := by
  have hsome : view.bytes ≠ [] := by simp [FrameView.bytes, headerBytes]
  have hechoes := helloVerdict_echoes s pair question
  unfold Session.answerHello at h
  cases hverdict : s.helloVerdict pair question with
  | refused correlation status =>
      rw [hverdict] at h hechoes
      cases hechoes
      exact .inl ⟨status, FrameView.bytes_injective (refuseHello_ok h)⟩
  | silent =>
      rw [hverdict] at h
      exact absurd (Except.ok.inj h).symm hsome
  | proved hello secret =>
      rw [hverdict] at h hechoes
      dsimp only at h hechoes
      split at h
      · exact absurd (Except.ok.inj h).symm hsome
      · refine .inr ⟨hello, secret, hechoes, rfl, ?_⟩
        unfold Session.startSession at h
        dsimp only at h
        split at h
        · cases h
        · rename_i bytes hbytes
          cases Except.ok.inj h
          exact FrameView.bytes_injective (frame_ok hbytes).1

/-! ## Reading an ack -/

theorem ackBody_length {ack : HelloAck} (hnonce : ack.boardNonce.length = nonceSize) :
    (ackBody ack).length = helloAckLen := by
  simp [ackBody, hnonce, nonceSize, helloAckLen]

/-- An ack is read back as it was written. -/
theorem helloAckDecode_ackBody {ack : HelloAck} (hnonce : ack.boardNonce.length = nonceSize)
    (hcorrelation : ack.correlation < 2 ^ 64) (hversion : ack.protoVersion < 2 ^ 16)
    (hchunk : ack.maxChunk < 2 ^ 16) : helloAckDecode (ackBody ack) = some ack := by
  have hcorrelation' : value (littleEndian 8 ack.correlation) = ack.correlation :=
    value_littleEndian_of_lt (by norm_num; exact hcorrelation)
  have hversion' : value (littleEndian 2 ack.protoVersion) = ack.protoVersion :=
    value_littleEndian_of_lt (by norm_num; exact hversion)
  have hchunk' : value (littleEndian 2 ack.maxChunk) = ack.maxChunk :=
    value_littleEndian_of_lt (by norm_num; exact hchunk)
  rw [helloAckDecode, if_neg (by rw [ackBody_length hnonce]; exact fun h ↦ h rfl)]
  -- the fields stand at fixed places, so the written bytes can be laid out one by one
  have hnonce' : ack.boardNonce.take nonceSize = ack.boardNonce := List.take_of_length_le hnonce.le
  simp only [littleEndian] at hcorrelation' hversion' hchunk'
  simp only [ackBody, littleEndian, List.cons_append, List.nil_append,
    List.take_succ_cons, List.take_zero, List.drop_succ_cons, List.drop_zero, List.getD_cons_succ,
    List.getD_cons_zero, hcorrelation', hversion', hchunk', hnonce']

/-- The nonce is read from the tail of the body, before the tag is checked. -/
theorem peekBoardNonce_ackView (key : List UInt8) {ack : HelloAck}
    (hnonce : ack.boardNonce.length = nonceSize) :
    Turn.peekBoardNonce (ackView key ack) = some ack.boardNonce := by
  have hlength : (ackView key ack).payload.length = authPrefixSize + helloAckLen := by
    rw [ackView, builtView_payload_length, ackBody_length hnonce]
  have hbody : (ackView key ack).payload.drop authPrefixSize = ackBody ack :=
    bodyOf_builtView ..
  have htail : (ackBody ack).drop (helloAckLen - nonceSize) = ack.boardNonce :=
    List.drop_left' (by simp [helloAckLen, nonceSize])
  rw [Turn.peekBoardNonce, if_neg (by rw [hlength]; omega), ← List.drop_drop, hbody, htail,
    List.take_of_length_le hnonce.le]

theorem negotiateChunk_le (requested : Nat) :
    Session.negotiateChunk requested ≤ sessionMaxChunk := by
  unfold Session.negotiateChunk
  split
  · decide
  · split
    · exact Nat.le_of_lt (by assumption)
    · exact le_rfl

/-- The ack of a hello is read back as the board filled it in. -/
theorem helloAckDecode_helloAck {s : Session} {question : FrameView} {hello : Hello}
    (hnonce : s.stagedNonce.length = nonceSize) (hread : Session.readHello question = some hello) :
    helloAckDecode (ackBody (s.helloAck hello)) = some (s.helloAck hello) := by
  refine helloAckDecode_ackBody hnonce (readHello_correlation_lt hread) ?_ ?_
  · show protoVersion < 2 ^ 16
    decide
  · exact (negotiateChunk_le hello.maxChunk).trans_lt (by decide)

/-- A refusal is read back as it was written. -/
theorem helloRefusedDecode_refusedView {correlation : Nat} (hcorrelation : correlation < 2 ^ 64)
    (status : RefusedStatus) :
    helloRefusedDecode (refusedView correlation status).payload =
      some ⟨correlation, protoVersion, status.byte⟩ := by
  have hcorrelation' : value (littleEndian 8 correlation) = correlation :=
    value_littleEndian_of_lt (by norm_num; exact hcorrelation)
  have hversion : value (littleEndian 2 protoVersion) = protoVersion :=
    value_littleEndian_of_lt (by decide)
  have hlength : (refusedView correlation status).payload.length = helloRefusedLen := by
    simp [refusedView, helloRefusedLen]
  rw [helloRefusedDecode, if_neg (by rw [hlength]; exact fun h ↦ h rfl)]
  simp only [littleEndian] at hcorrelation' hversion
  simp only [refusedView, littleEndian, List.cons_append, List.nil_append, List.take_succ_cons,
    List.take_zero, List.drop_succ_cons, List.drop_zero, List.getD_cons_succ, List.getD_cons_zero,
    hcorrelation', hversion]

/-! ## Delivering a frame -/

/-- The machines differ in what reading a report leaves behind, and nowhere else. -/
def SameButReading (h h' : Helper) : Prop :=
  h' =
    { h with
      reader := h'.reader
      extraReader := h'.extraReader
      started := h'.started
      startedAt := h'.startedAt }

/-- Nothing came of the input but notes. -/
structure Inert (h : Helper) (t : Turn) : Prop where
  same : SameButReading h t.h
  notes : ∀ item ∈ t.o.items, ∃ note a b, item = .note note a b
  delivered : t.delivered = []

theorem Inert.putNote {h : Helper} {t : Turn} (hinert : Inert h t) (note : Note) (a b : Int32) :
    Inert h (t.putNote note a b) := by
  unfold Turn.putNote Turn.put
  split
  · exact ⟨hinert.same, hinert.notes, hinert.delivered⟩
  · refine ⟨hinert.same, ?_, hinert.delivered⟩
    intro item hitem
    obtain hitem | hitem := List.mem_append.1 hitem
    · exact hinert.notes item hitem
    · cases List.mem_singleton.1 hitem
      exact ⟨note, a, b, rfl⟩

/-- A helper whose phase moved did not ignore the input. -/
theorem Inert.phase {h : Helper} {t : Turn} (hinert : Inert h t) : t.h.phase = h.phase := by
  rw [hinert.same]

/-- An input that completes a frame hands it on, after a turn that left nothing but notes. -/
theorem handle_received (identity : Identity) {h : Helper} {channel : UInt8} {data : List UInt8}
    {draw : Draw} {view : FrameView} (hhands : h.handing (.received channel data draw) = some view)
    (now : UInt32) :
    ∃ reading, Inert h reading ∧
      h.handle identity now (.received channel data draw) =
        reading.onFrame identity view draw now := by
  simp only [handing] at hhands
  split at hhands
  · rename_i hhears
    have hhears : ¬ (channel ≥ sessionChannelCount ∨ (channel > 0 ∧
        (h.haveNegotiated = false ∨ channel ≥ h.negotiated.channelCount))) :=
      of_decide_eq_true hhears
    show ∃ reading, Inert h reading ∧
      Turn.receivedChannel identity { h := h } channel data draw now = _
    unfold Turn.receivedChannel
    rw [if_neg hhears]
    extract_lets started before
    have hbefore : before = h.readerOf channel := by
      show (if _ then _ else _) = _
      unfold readerOf started noteStarted
      split <;> split <;> rfl
    rw [← hbefore] at hhands
    cases hreport : before.report data with
    | mk rc reader =>
        rw [hreport] at hhands
        cases rc with
        | error fault => cases hhands
        | ok view =>
            cases hhands
            dsimp -zeta only
            extract_lets read noted
            have hread : Inert h read := by
              refine ⟨?_, fun item hitem ↦ absurd hitem List.not_mem_nil, rfl⟩
              show SameButReading h (if _ then _ else _)
              unfold SameButReading started noteStarted
              split <;> split <;> rfl
            refine ⟨noted, ?_, rfl⟩
            show Inert h (if _ then _ else _)
            split
            · exact hread.putNote ..
            · exact hread
  · cases hhands

/-! ## The answers a helper discards -/

/-- The frame carries the tag of the keys that the helper's own nonce and this nonce of a board
give. -/
def KeyedForUs (identity : Identity) (h : Helper) (boardNonce : List UInt8)
    (view : FrameView) : Prop :=
  ∃ shared, identity.ecdh h.boardPublicKey = some shared ∧
    TagVerifies (deriveSessionKeys shared h.helperNonce boardNonce).2 view

/-- A turn that moved the phase is no turn that left nothing but notes. -/
theorem not_inert_of_phase {h : Helper} {t : Turn} {phase : Phase} (hphase : t.h.core.phase = phase)
    (hmoved : phase ≠ h.phase) : ¬ Inert h t :=
  fun hinert ↦ hmoved (hphase.symm.trans hinert.phase)

/-- A drop leaves no helper awaiting. -/
theorem not_inert_of_drop {h : Helper} {t : Turn} (hawaits : h.phase = .awaitingAck) (now : UInt32)
    (note : Note) (a b : Int32) : ¬ Inert h (t.dropConnection now note a b) := by
  refine not_inert_of_phase ?_ (show Phase.idle ≠ h.phase by rw [hawaits]; decide)
  rw [(Turn.drops_dropConnection t now note a b).core]
  rfl

theorem refused_inert_iff {identity : Identity} {h : Helper} {reading : Turn}
    (hreading : Inert h reading) {correlation : Nat} (hcorrelation : correlation < 2 ^ 64)
    (status : RefusedStatus) (draw : Draw) (now : UInt32) :
    Inert h (reading.onFrame identity (refusedView correlation status) draw now) ↔
      h.phase ≠ .awaitingAck ∨ correlation ≠ h.helloCorrelation := by
  have hsame : reading.h.helloCorrelation = h.helloCorrelation := by rw [hreading.same]
  have hframe : reading.onFrame identity (refusedView correlation status) draw now =
      reading.onHelloRefused (refusedView correlation status) now := rfl
  have hstatus : ¬ (status.byte ≠ RefusedStatus.unpaired.byte ∧
      status.byte ≠ RefusedStatus.versionIncompatible.byte) := by cases status <;> decide
  rw [hframe, Turn.onHelloRefused, hreading.phase,
    helloRefusedDecode_refusedView hcorrelation status,
    hsame]
  by_cases hawaits : h.phase = .awaitingAck
  · rw [if_neg (not_not.2 hawaits)]
    dsimp only
    rw [if_neg hstatus]
    by_cases hours : correlation = h.helloCorrelation
    · refine iff_of_false ?_ (by simp [hawaits, hours])
      rw [if_neg (not_not.2 hours)]
      -- an answer to our own hello: the session is not there, or the versions differ
      split
      · refine not_inert_of_phase ?_ (show Phase.live ≠ h.phase by rw [hawaits]; decide)
        rw [(Turn.still_setState _ _).core]
        rfl
      · refine not_inert_of_phase ?_ (show Phase.idle ≠ h.phase by rw [hawaits]; decide)
        rw [(Turn.still_setState _ _).core]
        rfl
    · rw [if_pos hours]
      exact iff_of_true (hreading.putNote ..) (.inr hours)
  · rw [if_pos hawaits]
    exact iff_of_true (hreading.putNote ..) (.inl hawaits)

theorem onFrame_ackView (identity : Identity) (t : Turn) (key : List UInt8) (ack : HelloAck)
    (draw : Draw) (now : UInt32) :
    t.onFrame identity (ackView key ack) draw now = t.onHelloAck identity
      (ackView key ack) now := by
  have htype : (ackView key ack).type = Msg.helloAck := rfl
  have hauth : Msg.isAuthenticated Msg.helloAck = true := by decide
  rw [Turn.onFrame, htype, if_pos hauth, Turn.onAuthenticated, htype, if_pos rfl]

/-- What a helper that awaits an answer makes of an ack: the tag of its own keys comes first. -/
theorem onHelloAck_awaiting {identity : Identity} {t : Turn} {view : FrameView}
    {shared boardNonce : List UInt8} {ack : HelloAck} (hawaits : t.h.phase = .awaitingAck)
    (hpinned : t.h.haveBoardKey = true) (hdrew : t.h.haveNonce = true)
    (hshared : identity.ecdh t.h.boardPublicKey = some shared)
    (hpeek : Turn.peekBoardNonce view = some boardNonce)
    (hdecode : helloAckDecode (bodyOf view) = some ack) (now : UInt32) :
    t.onHelloAck identity view now =
      if TagVerifies (deriveSessionKeys shared t.h.helperNonce boardNonce).2 view then
        if ack.correlation ≠ t.h.helloCorrelation then
          t.putNote .ignoredWrongCorrelation (Turn.typeNumber view) 0
        else if ack.channelCount = 0 ∨ ack.channelCount > sessionChannelCount ∨
            ack.channelCount > t.h.acquiredChannels then
          t.dropConnection now .partialAcquisition
            t.h.acquiredChannels.toUInt32.toInt32 ack.channelCount.toUInt32.toInt32
        else
          t.acceptAck (deriveSessionKeys shared t.h.helperNonce boardNonce)
            (AuthCounter.init.accept (counterOf view)) ack now
      else t.dropConnection now .tagFailed (Turn.typeNumber view) 0 := by
  have hfresh : AuthCounter.init.ok (counterOf view) = true := by
    simp [AuthCounter.ok, AuthCounter.init]
  unfold Turn.onHelloAck
  by_cases htag : TagVerifies (deriveSessionKeys shared t.h.helperNonce boardNonce).2 view
  · have hopen : authOpen (deriveSessionKeys shared t.h.helperNonce boardNonce).2 view
        AuthCounter.init = (.ok (bodyOf view), AuthCounter.init.accept (counterOf view)) := by
      rw [authOpen_eq, if_pos htag, if_pos hfresh]
    simp only [hawaits, hpinned, hdrew, hpeek, hshared, hopen, hdecode, if_pos htag, ne_eq,
      not_true_eq_false, if_false, Bool.true_eq_false]
  · obtain ⟨fault, hopen⟩ : ∃ fault, authOpen (deriveSessionKeys shared t.h.helperNonce
        boardNonce).2 view AuthCounter.init = (.error fault, AuthCounter.init) := by
      rw [authOpen_eq, if_neg htag]
      split
      · exact ⟨_, rfl⟩
      · exact ⟨_, rfl⟩
    simp only [hawaits, hpinned, hdrew, hpeek, hshared, hopen, if_neg htag, ne_eq,
      not_true_eq_false, if_false, Bool.true_eq_false]

theorem ack_inert_iff {identity : Identity} {h : Helper} (hjudges : h.core.CanJudge identity)
    {reading : Turn} (hreading : Inert h reading) {ack : HelloAck}
    (hnonce : ack.boardNonce.length = nonceSize) (hdecode : helloAckDecode (ackBody ack) = some ack)
    (key : List UInt8) (draw : Draw) (now : UInt32) :
    Inert h (reading.onFrame identity (ackView key ack) draw now) ↔
      h.phase ≠ .awaitingAck ∨ (ack.correlation ≠ h.helloCorrelation ∧
        KeyedForUs identity h ack.boardNonce (ackView key ack)) := by
  have hkey : reading.h.haveBoardKey = h.haveBoardKey := by rw [hreading.same]
  have hours : reading.h.haveNonce = h.haveNonce := by rw [hreading.same]
  have hpublic : reading.h.boardPublicKey = h.boardPublicKey := by rw [hreading.same]
  have hhelper : reading.h.helperNonce = h.helperNonce := by rw [hreading.same]
  have hsame : reading.h.helloCorrelation = h.helloCorrelation := by rw [hreading.same]
  rw [onFrame_ackView]
  by_cases hawaits : h.phase = .awaitingAck
  · obtain ⟨hpinned, hdrew, shared, hshared⟩ := hjudges hawaits
    have hkeyed : KeyedForUs identity h ack.boardNonce (ackView key ack) ↔
        TagVerifies (deriveSessionKeys shared h.helperNonce ack.boardNonce).2
          (ackView key ack) := by
      constructor
      · rintro ⟨shared', hshared', htag⟩
        cases hshared.symm.trans hshared'
        exact htag
      · intro htag
        exact ⟨shared, hshared, htag⟩
    have hbody : bodyOf (ackView key ack) = ackBody ack := bodyOf_builtView ..
    rw [onHelloAck_awaiting (hreading.phase.trans hawaits) (hkey.trans hpinned) (hours.trans hdrew)
      (by rw [hpublic]; exact hshared) (peekBoardNonce_ackView key hnonce)
        (hbody ▸ hdecode), hkeyed,
      hhelper, hsame]
    by_cases htag : TagVerifies (deriveSessionKeys shared h.helperNonce ack.boardNonce).2
        (ackView key ack)
    · rw [if_pos htag]
      by_cases hecho : ack.correlation = h.helloCorrelation
      · refine iff_of_false ?_ (by simp [hawaits, hecho])
        rw [if_neg (not_not.2 hecho)]
        -- an answer to our own hello: it is taken, or asks for more channels than we hold
        split
        · exact not_inert_of_drop hawaits _ _ _ _
        · refine not_inert_of_phase ?_ (show Phase.live ≠ h.phase by rw [hawaits]; decide)
          rw [(Turn.still_acceptAck ..).2]
      · rw [if_pos hecho]
        exact iff_of_true (hreading.putNote ..) (.inr ⟨hecho, htag⟩)
    · -- the tag is another hello's: the connection is dropped before the correlation is read
      rw [if_neg htag]
      exact iff_of_false (not_inert_of_drop hawaits _ _ _ _) (by simp [hawaits, htag])
  · rw [Turn.onHelloAck, hreading.phase, if_pos hawaits]
    exact iff_of_true (hreading.putNote ..) (.inl hawaits)

/-- A helper discards an answer of a board exactly when it awaits none, or when the answer echoes
another correlation and is a refusal or carries the tag of the helper's own keys. -/
theorem answer_inert_iff {identity : Identity} {h : Helper} (hreach : Reachable identity h)
    {s : Session} {pair : Pair} {question view : FrameView} {asked : UInt32} {cap : Nat}
    (hnonce : s.stagedNonce.length = nonceSize)
    (hanswer : (s.answerHello pair question asked cap).1 = .ok view.bytes) {channel : UInt8}
    {data : List UInt8} {draw : Draw} (hhands : h.handing (.received channel data draw) = some view)
    (now : UInt32) :
    Inert h (h.handle identity now (.received channel data draw)) ↔
      h.phase ≠ .awaitingAck ∨ (askedCorrelation question ≠ h.helloCorrelation ∧
        (view.type = Msg.helloRefused ∨ KeyedForUs identity h s.stagedNonce view)) := by
  obtain ⟨reading, hreading, hframe⟩ := handle_received identity hhands now
  rw [hframe]
  obtain ⟨status, rfl⟩ | ⟨hello, secret, hread, -, rfl⟩ := answerHello_view hanswer
  · rw [refused_inert_iff hreading (askedCorrelation_lt question) status draw now]
    have htype : (refusedView (askedCorrelation question) status).type = Msg.helloRefused := rfl
    simp [htype]
  · have hecho : (s.helloAck hello).correlation = askedCorrelation question := by
      rw [askedCorrelation, hread]
      rfl
    have htype : (ackView (deriveSessionKeys secret hello.helperNonce s.stagedNonce).2
        (s.helloAck hello)).type ≠ Msg.helloRefused :=
          show Msg.helloAck ≠ Msg.helloRefused by decide
    rw [ack_inert_iff hreach.canJudge hreading hnonce (helloAckDecode_helloAck hnonce hread), hecho]
    simp only [htype, false_or]
    exact Iff.rfl

/-! ## An ack that comes late -/

/-- The key of the board, twice the base point. -/
def lateKey : List UInt8 := smallPublic 2

/-- The secret the helper and the board share, of six times the base point. -/
def lateSecret : List UInt8 := (littleEndian 32 (smallX 6)).reverse

/-- A helper with three times the base point, paired with that board. -/
def lateIdentity : Identity where
  publicKey := smallPublic 3
  keyId := List.replicate keyIdSize 0x11
  os := 1
  buildType := 0
  ecdh := fun shown ↦ if shown = lateKey then some lateSecret else none
  publicKey_length := by decide
  keyId_length := by decide

/-- What the helper draws for its first hello and for its second. -/
def firstDraw : Draw where
  nonce := List.replicate nonceSize 0x33
  helloCorrelation := 7
  pairCorrelation := 0
  nonce_length := by decide

def secondDraw : Draw where
  nonce := List.replicate nonceSize 0x34
  helloCorrelation := 8
  pairCorrelation := 0
  nonce_length := by decide

/-- The helper said hello, lost the transport, and said hello again. -/
def lateCalls : List Call :=
  [.input 0 (.channelsAcquired 2 firstDraw), .input 10 .transportFailed,
   .input 300 (.channelsAcquired 2 secondDraw)]

def lateHelper : Helper :=
  Runs.run (call lateIdentity) (init (some lateKey)) lateCalls

/-- The board the helper is registered with, with a nonce staged. -/
def lateBoard : Session := (Session.init .release).stageNonce (List.replicate nonceSize 0x44)

def latePair : Pair := Pair.init.setRegistration (List.replicate keyIdSize 0x11) lateSecret

/-- The ack of the first hello. -/
def lateAck : FrameView :=
  ackView (deriveSessionKeys lateSecret firstDraw.nonce (List.replicate nonceSize 0x44)).2
    { correlation := 7
      protoVersion := protoVersion
      buildType := 0
      channelCount := 2
      maxChunk := 1024
      boardNonce := List.replicate nonceSize 0x44 }

/-- The report a frame that fits one comes in. -/
def wholeReport (frame : List UInt8) : List UInt8 :=
  reportFrameStart :: (frame ++ List.replicate (reportStreamSize - frame.length) 0)

/-- The hello of a helper is read back as it was written. -/
theorem readHello_helloView (identity : Identity) (configMode : Bool) (shared : List UInt8)
    (draw : Draw) :
    Session.readHello (helloView identity configMode shared draw) =
      some (helloOf identity configMode draw) := by
  have hlength := Turn.helloOf_body_length identity configMode draw
  have hversion : value (littleEndian 2 protoVersion) = protoVersion :=
    value_littleEndian_of_lt (by decide)
  have hchunk : value (littleEndian 2 sessionMaxChunk) = sessionMaxChunk :=
    value_littleEndian_of_lt (by decide)
  have hcorrelation : value (littleEndian 8 draw.helloCorrelation.toNat) =
      draw.helloCorrelation.toNat :=
    value_littleEndian_of_lt (by norm_num; exact draw.helloCorrelation.toNat_lt)
  have hbody : (helloView identity configMode shared draw).payload.drop authPrefixSize =
      (helloOf identity configMode draw).body := bodyOf_builtView ..
  rw [Session.readHello, if_neg (by rw [helloView, builtView_payload_length]; omega), hbody,
    helloDecode, if_neg (by rw [hlength]; exact fun h ↦ h rfl)]
  have hkeyId : (identity.keyId ++ draw.nonce).take keyIdSize = identity.keyId :=
    List.take_left' identity.keyId_length
  have hnonce : ((identity.keyId ++ draw.nonce).drop 8).take nonceSize = draw.nonce := by
    have hdrop : (identity.keyId ++ draw.nonce).drop 8 = draw.nonce :=
      List.drop_left' identity.keyId_length
    rw [hdrop, List.take_of_length_le draw.nonce_length.le]
  simp only [littleEndian] at hversion hchunk hcorrelation
  simp only [Hello.body, helloOf, littleEndian, List.cons_append, List.nil_append,
    List.take_succ_cons, List.take_zero, List.drop_succ_cons, List.drop_zero,
    List.getD_cons_succ, List.getD_cons_zero, hversion, hchunk, hcorrelation, hkeyId, hnonce]

/-- A board answers the hello of the helper it has registered with an ack under the keys of both
nonces. -/
theorem answerHello_helloView {s : Session} {pair : Pair} {identity : Identity}
    {shared : List UInt8}
    (hrelease : s.buildType = .release) (hstaged : s.nonceStaged = true)
    (hnonce : s.stagedNonce.length = nonceSize)
    (hkeyId : pair.isRegisteredKey identity.keyId = true)
    (hsecret : pair.secret = some shared) (configMode : Bool) (draw : Draw) (now : UInt32) :
    (s.answerHello pair (helloView identity configMode shared draw) now replyMax).1 =
      .ok (ackView (deriveSessionKeys shared draw.nonce s.stagedNonce).2
        (s.helloAck (helloOf identity configMode draw))).bytes := by
  have hread := readHello_helloView identity configMode shared draw
  have hproved : s.helloVerdict pair (helloView identity configMode shared draw) =
      .proved (helloOf identity configMode draw) shared := by
    refine (Session.helloVerdict_proved_iff hrelease).2
      ⟨⟨_, hread, rfl, hkeyId⟩, hread, hsecret, ?_⟩
    exact builtView_tag_verifies _ _ _ _ _ (by norm_num)
  have hlength : (ackBody (s.helloAck (helloOf identity configMode draw))).length = helloAckLen :=
    ackBody_length hnonce
  have hencode : helloAckEncode (s.helloAck (helloOf identity configMode draw))
      (deriveSessionKeys shared draw.nonce s.stagedNonce).2 (0 : UInt64).toNat replyMax =
      .ok (ackView (deriveSessionKeys shared draw.nonce s.stagedNonce).2
        (s.helloAck (helloOf identity configMode draw))).bytes := by
    have hpayload : authPrefixSize + (ackBody (s.helloAck
        (helloOf identity configMode draw))).length ≤ maxPayload := by
      rw [hlength]
      decide
    have hreply : headerSize + (authPrefixSize + (ackBody (s.helloAck
        (helloOf identity configMode draw))).length) ≤ replyMax := by
      rw [hlength]
      decide
    exact frame_fits hpayload hreply
  rw [Session.answerHello, hproved]
  dsimp only
  rw [if_neg (by simp [hstaged]), Session.startSession]
  dsimp only [helloOf] at hencode ⊢
  rw [hencode]

/-- A frame that fits one report is handed over whole. -/
theorem handing_wholeReport (h : Helper) {view : FrameView} (hknown : Msg.known view.type = true)
    (hfits : headerSize + view.payload.length ≤ reportStreamSize) (draw : Draw) :
    h.handing (.received 0 (wholeReport view.bytes) draw) = some view := by
  have hmax : view.payload.length ≤ maxPayload := by
    simp only [reportStreamSize, headerSize, maxPayload] at *
    omega
  have hhears : h.hears 0 = true := by simp [hears, sessionChannelCount]
  have hparse : headerParse
    (view.bytes ++ List.replicate (reportStreamSize - view.bytes.length) 0) =
      .ok view.hdr := by
    rw [FrameView.bytes, List.append_assoc]
    exact header_parse_bytes _ hknown hmax
  obtain ⟨resyncs, hreport⟩ := FrameReader.report_start (r := h.readerOf 0) hparse
  have hlength : view.bytes.length = headerSize + view.hdr.len :=
    by simp [FrameView.bytes, FrameView.hdr]
  have hpayload : view.bytes.drop headerSize = view.payload :=
    List.drop_left' (headerBytes_length ..)
  rw [← hlength, List.take_left, List.drop_left, hpayload, if_pos (by simp), if_pos (by simp [pad])]
    at hreport
  rw [handing, if_pos hhears, wholeReport, hreport]
  rfl

/-- The key toward the helper that its first nonce gives with the board's. -/
def firstKey : List UInt8 :=
  [242, 248, 233, 101, 169, 115, 136, 11, 75, 9, 24, 125, 75, 158, 233, 135,
   226, 9, 1, 221, 37, 160, 162, 155, 103, 140, 56, 159, 208, 162, 247, 35]

/-- The key that its second nonce gives. -/
def secondKey : List UInt8 :=
  [47, 228, 83, 241, 240, 171, 101, 47, 95, 236, 164, 86, 51, 242, 135, 182,
   113, 252, 52, 255, 194, 114, 197, 137, 9, 28, 62, 56, 15, 175, 101, 15]

theorem firstKey_eq :
    (deriveSessionKeys lateSecret firstDraw.nonce (List.replicate nonceSize 0x44)).2 =
      firstKey := by
  decide +kernel

theorem secondKey_eq :
    (deriveSessionKeys lateSecret secondDraw.nonce (List.replicate nonceSize 0x44)).2 =
      secondKey := by
  decide +kernel

/-- The helper says hello a second time, and awaits the answer to that. -/
theorem lateHelper_awaits :
    lateHelper.phase = .awaitingAck ∧ lateHelper.helperNonce = secondDraw.nonce := by
  decide +kernel

/-- The ack of an earlier hello of the helper, which the correlation tells from the one awaited,
drops the connection. -/
theorem late_ack_drops :
    Reachable lateIdentity lateHelper ∧ lateHelper.phase = .awaitingAck ∧
      (lateBoard.answerHello latePair (helloView lateIdentity false lateSecret firstDraw) 5
        replyMax).1 = .ok lateAck.bytes ∧
      helloView lateIdentity false lateSecret firstDraw ≠
        helloView lateIdentity false lateSecret secondDraw ∧
      lateHelper.handing (.received 0 (wholeReport lateAck.bytes) secondDraw) = some lateAck ∧
      ¬ Inert lateHelper (lateHelper.handle lateIdentity 310
        (.received 0 (wholeReport lateAck.bytes) secondDraw)) := by
  have hhands : lateHelper.handing (.received 0 (wholeReport lateAck.bytes) secondDraw) =
      some lateAck := by
    refine handing_wholeReport lateHelper (by decide) ?_ secondDraw
    rw [lateAck, ackView, builtView_payload_length]
    decide
  have hdiffers : helloView lateIdentity false lateSecret firstDraw ≠
      helloView lateIdentity false lateSecret secondDraw := by
    intro hsame
    have hread := congrArg Session.readHello hsame
    rw [readHello_helloView, readHello_helloView] at hread
    revert hread
    decide
  refine ⟨⟨_, _, rfl⟩, lateHelper_awaits.1, ?_, hdiffers, hhands, ?_⟩
  · exact answerHello_helloView rfl rfl rfl rfl rfl false firstDraw 5
  · obtain ⟨reading, hreading, hframe⟩ := handle_received lateIdentity hhands 310
    have hjudges : lateHelper.core.CanJudge lateIdentity := Reachable.canJudge ⟨_, _, rfl⟩
    rw [hframe, lateAck, ack_inert_iff hjudges hreading (by decide) (by decide)]
    rintro (hphase | ⟨-, shared, hshared, -, htag⟩)
    · exact hphase lateHelper_awaits.1
    · cases hshared
      rw [lateHelper_awaits.2, secondKey_eq, firstKey_eq, ackView,
        counterOf_builtView _ _ _ _ _ (by norm_num), bodyOf_builtView,
        tagOf_builtView, builtView_payload_length] at htag
      revert htag
      decide +kernel

/-- A refusal of another hello finds the helper awaiting its own answer, and is discarded. -/
theorem late_refusal_inert :
    lateHelper.phase = .awaitingAck ∧
      Inert lateHelper (lateHelper.handle lateIdentity 310
        (.received 0 (wholeReport (refusedView 0 .versionIncompatible).bytes) secondDraw)) := by
  have hhands := @handing_wholeReport lateHelper (refusedView 0 .versionIncompatible)
    (by decide) (by decide) secondDraw
  have hanswer : (lateBoard.answerHello latePair ⟨Msg.hello, 0, []⟩ 5 replyMax).1 =
      .ok (refusedView 0 .versionIncompatible).bytes := by decide
  refine ⟨lateHelper_awaits.1,
    (answer_inert_iff ⟨_, _, rfl⟩ (by decide) hanswer hhands 310).2 (.inr ⟨?_, .inl rfl⟩)⟩
  decide +kernel

end DeskhopPlus.Helper
