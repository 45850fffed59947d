import DeskhopPlus.Library.Runs
import DeskhopPlus.Seal.Payload

/-!
# Seal agreement

A sender half and the peer's receiver half, joined by a network that keeps every offer and accept
ever sent and delivers any of them at any time, any number of times. The two ends hold one key
under one seal id as long as no offer is answered twice with the sender left on the earlier
answer: the receiver remembers only the last offer it answered and forgets even that when it starts
over, so a repeated offer can draw a second answer under the same id.
-/

namespace DeskhopPlus.Seal

open Auth Crypto Wire Runs

/-- Both ends, and every offer and accept body sent so far. -/
structure Ends where
  tx : SealTx
  rx : SealRx
  offers : List (List UInt8)
  accepts : List (List UInt8)

/-- Two ends that have just started. -/
def Ends.init : Ends where
  tx := SealTx.init
  rx := SealRx.init
  offers := []
  accepts := []

/-- What can happen. `draws` is the entropy a call finds, `cap` the size of its output buffer; a
message is named by its place among those sent. -/
inductive SealEvent where
  | offer (draws : List (List UInt8)) (cap : Nat)
  | deliverOffer (index : Nat) (draws : List (List UInt8)) (cap : Nat)
  | deliverAccept (index : Nat)
  | deliverStale (sealId : UInt32)
  | restartSender
  | restartReceiver
  | sealOffer (offer : ClipOffer) (cap : Nat)
  | sealChunk (chunk : ClipChunk) (cap : Nat)

section Machine

variable (curve : P256) (aead : Aead)

/-- One event. A call that fails leaves both ends as they were. -/
def sealStep (s : Ends) : SealEvent → Ends
  | .offer draws cap =>
      match s.tx.makeOffer curve draws cap with
      | .error _ => s
      | .ok (tx, body) => { s with tx := tx, offers := s.offers ++ [body] }
  | .deliverOffer index draws cap =>
      match s.offers[index]? with
      | none => s
      | some body =>
          match s.rx.answer curve draws body cap with
          | .error _ => s
          | .ok (rx, answer) => { s with rx := rx, accepts := s.accepts ++ [answer] }
  | .deliverAccept index =>
      match s.accepts[index]? with
      | none => s
      | some body =>
          match s.tx.accepted curve body with
          | .error _ => s
          | .ok tx => { s with tx := tx }
  | .deliverStale sealId => { s with tx := s.tx.stale sealId }
  | .restartSender => { s with tx := SealTx.init }
  | .restartReceiver => { s with rx := SealRx.init }
  | .sealOffer offer cap =>
      match s.tx.encodeOffer aead offer cap with
      | .error _ => s
      | .ok (tx, _) => { s with tx := tx }
  | .sealChunk chunk cap =>
      match s.tx.encodeChunk aead chunk cap with
      | .error _ => s
      | .ok (tx, _) => { s with tx := tx }

end Machine

/-! ## Conditions on a step -/

/-- Entropy is fresh: a newly drawn seal id was not drawn before. -/
def FreshId (s : Ends) : SealEvent → Prop
  | .offer draws _ =>
      s.tx.offered = true ∨ ∀ sent ∈ s.offers, get32 sent ≠ get32 (draws.headD [])
  | _ => True

/-- No answer is out of date when it counts. An offer the sender has already completed is not
answered afresh, and the sender takes no other answer to its offer than the one the receiver
still holds. -/
def Current (s : Ends) : SealEvent → Prop
  | .deliverOffer index _ _ => ∀ body ∈ s.offers[index]?,
      s.tx.live = true → s.tx.offer = body → s.rx.Remembers body
  | .deliverAccept index => ∀ body ∈ s.accepts[index]?,
      s.tx.offered = true → s.rx.Remembers s.tx.offer → get32 body = s.tx.sealId →
      body = s.rx.accept
  | _ => True

instance (s : Ends) (event : SealEvent) : Decidable (FreshId s event) :=
  match event with
  | .offer draws _ => inferInstanceAs (Decidable
      (s.tx.offered = true ∨ ∀ sent ∈ s.offers, get32 sent ≠ get32 (draws.headD [])))
  | .deliverOffer _ _ _ | .deliverAccept _ | .deliverStale _ | .restartSender | .restartReceiver
  | .sealOffer _ _ | .sealChunk _ _ => .isTrue trivial

instance (s : Ends) (event : SealEvent) : Decidable (Current s event) :=
  match event with
  | .deliverOffer index _ _ => inferInstanceAs (Decidable (∀ body ∈ s.offers[index]?,
      s.tx.live = true → s.tx.offer = body → s.rx.Remembers body))
  | .deliverAccept index => inferInstanceAs (Decidable (∀ body ∈ s.accepts[index]?,
      s.tx.offered = true → s.rx.Remembers s.tx.offer → get32 body = s.tx.sealId →
      body = s.rx.accept))
  | .offer _ _ | .deliverStale _ | .restartSender | .restartReceiver
  | .sealOffer _ _ | .sealChunk _ _ => .isTrue trivial

/-! ## The invariant -/

/-- What holds of the two ends. Only the offers have to be remembered: the sender's half belongs
to one of them, the receiver's half answers one of them, and an id names one of them. -/
structure Sealed (curve : P256) (s : Ends) : Prop where
  distinct : ∀ first ∈ s.offers, ∀ second ∈ s.offers, get32 first = get32 second → first = second
  offering : s.tx.offered = true → s.tx.Offering curve
  sent : s.tx.offered = true ∨ s.tx.live = true →
    s.tx.offer ∈ s.offers ∧ s.tx.sealId = get32 s.tx.offer
  answering : s.rx.live = true → s.rx.Answers curve s.rx.offer ∧ s.rx.offer ∈ s.offers
  agree : s.tx.live = true → s.rx.live = true → s.rx.sealId = s.tx.sealId → s.rx.key = s.tx.key

section Steps

variable {curve : P256} {aead : Aead} {s : Ends}

theorem sealed_init (curve : P256) : Sealed curve Ends.init where
  distinct := by simp [Ends.init]
  offering := by simp [Ends.init, SealTx.init]
  sent := by simp [Ends.init, SealTx.init]
  answering := by simp [Ends.init, SealRx.init]
  agree := by simp [Ends.init, SealTx.init]

/-- An end that starts over holds nothing. -/
theorem Sealed.restartSender (h : Sealed curve s) : Sealed curve { s with tx := SealTx.init } where
  distinct := h.distinct
  offering := by simp [SealTx.init]
  sent := by simp [SealTx.init]
  answering := h.answering
  agree := by simp [SealTx.init]

theorem Sealed.restartReceiver (h : Sealed curve s) :
    Sealed curve { s with rx := SealRx.init } where
  distinct := h.distinct
  offering := h.offering
  sent := h.sent
  answering := by simp [SealRx.init]
  agree := by simp [SealRx.init]

theorem Sealed.stale (h : Sealed curve s) (sealId : UInt32) :
    Sealed curve { s with tx := s.tx.stale sealId } := by
  unfold SealTx.stale
  split
  · exact h
  · exact h.restartSender

/-- Sealing a message only moves the counter. -/
theorem Sealed.counter (h : Sealed curve s) (counter : UInt64) :
    Sealed curve { s with tx := { s.tx with counter := counter } } where
  distinct := h.distinct
  offering := fun hoffered ↦
    ⟨hoffered, (h.offering hoffered).idle, (h.offering hoffered).body,
      (h.offering hoffered).nonce_length⟩
  sent := h.sent
  answering := h.answering
  agree := h.agree

/-- The sender half whose offer names the id of the receiver's is the one whose offer was
answered. -/
theorem Sealed.same_offer (h : Sealed curve s) (htx : s.tx.offered = true ∨ s.tx.live = true)
    (hrx : s.rx.live = true) (hid : s.rx.sealId = s.tx.sealId) : s.rx.offer = s.tx.offer := by
  obtain ⟨hsent, htxid⟩ := h.sent htx
  obtain ⟨hanswers, hoffer⟩ := h.answering hrx
  refine h.distinct _ hoffer _ hsent ?_
  rw [← hanswers.sealId, hid, htxid]

/-- Offering: a repeat changes nothing, and a fresh id is no one else's. -/
theorem Sealed.offer (h : Sealed curve s) {draws : List (List UInt8)} {cap : Nat} {tx : SealTx}
    {body : List UInt8} (hok : s.tx.makeOffer curve draws cap = .ok (tx, body))
    (hfresh : FreshId s (.offer draws cap)) :
    Sealed curve { s with tx := tx, offers := s.offers ++ [body] } := by
  rcases makeOffer_ok hok with ⟨hoffered, rfl, rfl⟩ | ⟨hidle, hoffering, rfl⟩
  · -- the body is one of those already sent
    obtain ⟨hsent, hid⟩ := h.sent (.inl hoffered)
    have hmem : ∀ sent, sent ∈ s.offers ++ [s.tx.offer] ↔ sent ∈ s.offers := by
      intro sent
      rw [List.mem_append, List.mem_singleton]
      exact ⟨fun hor ↦ hor.elim id fun heq ↦ heq ▸ hsent, .inl⟩
    refine ⟨?_, h.offering, ?_, ?_, h.agree⟩
    · simpa only [hmem] using h.distinct
    · simpa only [hmem] using h.sent
    · simpa only [hmem] using h.answering
  · have hnew : ∀ sent ∈ s.offers, get32 sent ≠ get32 tx.offer := by
      have hdrawn := makeOffer_fresh_id hok hidle
      rw [hdrawn]
      exact hfresh.resolve_left (by simp [hidle])
    refine ⟨?_, fun _ ↦ hoffering, ?_, ?_, ?_⟩
    · intro first hfirst second hsecond heq
      rcases List.mem_append.1 hfirst with hfirst | hfirst <;>
        rcases List.mem_append.1 hsecond with hsecond | hsecond
      · exact h.distinct _ hfirst _ hsecond heq
      · rw [List.mem_singleton.1 hsecond] at heq
        exact absurd heq (hnew first hfirst)
      · rw [List.mem_singleton.1 hfirst] at heq
        exact absurd heq.symm (hnew second hsecond)
      · rw [List.mem_singleton.1 hfirst, List.mem_singleton.1 hsecond]
    · intro _
      obtain ⟨publicKey, _, hbody⟩ := hoffering.body
      exact ⟨by simp, by rw [hbody, get32_exchangeBody]⟩
    · intro hlive
      exact ⟨(h.answering hlive).1, List.mem_append_left _ (h.answering hlive).2⟩
    · intro hlive
      exact absurd hlive (by simp [hoffering.idle])

/-- Answering: a repeat changes nothing, and a fresh answer is to an offer the sender has not
completed. -/
theorem Sealed.answer (h : Sealed curve s) {draws : List (List UInt8)} {body answer : List UInt8}
    {cap : Nat} {rx : SealRx} (hsent : body ∈ s.offers)
    (hok : s.rx.answer curve draws body cap = .ok (rx, answer))
    (hcurrent : s.tx.live = true → s.tx.offer = body → s.rx.Remembers body) :
    Sealed curve { s with rx := rx, accepts := s.accepts ++ [answer] } := by
  rcases answer_ok hok with ⟨_, rfl, _⟩ | ⟨hforgot, hanswers, _⟩
  · exact ⟨h.distinct, h.offering, h.sent, h.answering, h.agree⟩
  · refine ⟨h.distinct, h.offering, h.sent, ?_, ?_⟩
    · intro _
      change rx.Answers curve rx.offer ∧ rx.offer ∈ s.offers
      rw [hanswers.offer]
      exact ⟨hanswers, hsent⟩
    · intro hlive _ hid
      obtain ⟨htx, htxid⟩ := h.sent (.inr hlive)
      have hsame : s.tx.offer = body := by
        refine h.distinct _ htx _ hsent ?_
        rw [← htxid, ← hanswers.sealId]
        exact hid.symm
      exact absurd (hcurrent hlive hsame) hforgot

/-- Both ends derive one key from one offer and one answer to it. -/
theorem derive_agrees (hcurve : curve.Lawful) {tx : SealTx} {rx : SealRx} {key : List UInt8}
    (htx : tx.Offering curve) (hrx : rx.Answers curve tx.offer)
    (hderive : derive curve tx.ephPrivate (exchangePublic rx.accept) tx.nonce
      (exchangeNonce rx.accept) = some key) : rx.key = key := by
  obtain ⟨shown, hshown, hoffer⟩ := htx.body
  obtain ⟨ephPrivate, publicKey, nonce, hpublic, hnonce, haccept, hkey⟩ := hrx.accept
  rw [hoffer, exchangePublic_body htx.nonce_length (hcurve.public_length hshown),
    exchangeNonce_body htx.nonce_length] at hkey
  rw [haccept, exchangePublic_body hnonce (hcurve.public_length hpublic),
    exchangeNonce_body hnonce] at hderive
  have hsecret : curve.ecdh tx.ephPrivate publicKey = curve.ecdh ephPrivate shown :=
    hcurve.agreement hshown hpublic
  rw [derive, hsecret, ← derive, hkey] at hderive
  exact Option.some.inj hderive

/-- The sender completes its offer. If the receiver is live under the same id, it holds an answer
to that offer, and the answer taken is this one. -/
theorem Sealed.accepted (hcurve : curve.Lawful) (h : Sealed curve s) {body : List UInt8}
    {tx : SealTx} (hok : s.tx.accepted curve body = .ok tx)
    (hcurrent : s.tx.offered = true → s.rx.Remembers s.tx.offer → get32 body = s.tx.sealId →
      body = s.rx.accept) :
    Sealed curve { s with tx := tx } := by
  obtain ⟨hoffered, hbody, hlive, hdone, hid, hoffer, hderive⟩ := accepted_ok hok
  refine ⟨h.distinct, ?_, ?_, h.answering, ?_⟩
  · intro hagain
    exact absurd hagain (by simp [hdone])
  · intro _
    change tx.offer ∈ s.offers ∧ tx.sealId = get32 tx.offer
    rw [hoffer, hid]
    exact h.sent (.inl hoffered)
  · intro _ hrx hsame
    change s.rx.sealId = tx.sealId at hsame
    rw [hid] at hsame
    have hanswered : s.rx.offer = s.tx.offer := h.same_offer (.inl hoffered) hrx hsame
    rw [hcurrent hoffered ⟨hrx, hanswered⟩ hbody] at hderive
    exact derive_agrees hcurve (h.offering hoffered) (hanswered ▸ (h.answering hrx).1) hderive

/-- Every step whose entropy is fresh and whose answers are current keeps the invariant. -/
theorem Sealed.step (hcurve : curve.Lawful) (h : Sealed curve s) (event : SealEvent)
    (hfresh : FreshId s event) (hcurrent : Current s event) :
    Sealed curve (sealStep curve aead s event) := by
  cases event with
  | offer draws cap =>
      simp only [sealStep]
      split
      · exact h
      · rename_i hok
        -- a new offer under an id not used before
        exact h.offer hok hfresh
  | deliverOffer index draws cap =>
      simp only [sealStep]
      split
      · exact h
      · rename_i body hbody
        split
        · exact h
        · rename_i hok
          -- an offer delivered again or late is answered only while it is the current one
          exact h.answer (List.mem_of_getElem? hbody) hok (hcurrent body hbody)
  | deliverAccept index =>
      simp only [sealStep]
      split
      · exact h
      · rename_i body hbody
        split
        · exact h
        · rename_i hok
          exact h.accepted hcurve hok (hcurrent body hbody)
  | deliverStale sealId => exact h.stale sealId
  | restartSender => exact h.restartSender
  | restartReceiver => exact h.restartReceiver
  | sealOffer offer cap =>
      simp only [sealStep]
      split
      · exact h
      · rename_i hok
        rw [encodeSealed_tx hok]
        exact h.counter _
  | sealChunk chunk cap =>
      simp only [sealStep]
      split
      · exact h
      · rename_i hok
        rw [encodeSealed_tx hok]
        exact h.counter _

end Steps

/-! ## Agreement -/

/-- When the seal agrees: in every run with fresh seal ids and current answers, a sender and a
receiver that are live under one id hold one key, and what the sender seals then opens at the
receiver. -/
theorem live_keys_agree {curve : P256} {aead : Aead} (hcurve : curve.Lawful)
    (haead : aead.Lawful) {events : List SealEvent}
    (hfresh : Along (sealStep curve aead) FreshId Ends.init events)
    (hcurrent : Along (sealStep curve aead) Current Ends.init events) {s : Ends}
    (hrun : s = run (sealStep curve aead) Ends.init events) (htx : s.tx.live = true)
    (hrx : s.rx.live = true) (hid : s.rx.sealId = s.tx.sealId) :
    s.rx.key = s.tx.key ∧
      (∀ chunk cap tx body plainCap, s.tx.encodeChunk aead chunk cap = .ok (tx, body) →
        chunkPlainFixed + chunk.data.length ≤ plainCap →
        s.rx.openChunk aead body plainCap = .ok chunk) ∧
      ∀ offer cap tx body plainCap, s.tx.encodeOffer aead offer cap = .ok (tx, body) →
        offerPlainFixed + offer.metadata.length ≤ plainCap →
        s.rx.openOffer aead body plainCap = .ok offer := by
  have hboth : Along (sealStep curve aead) (fun s event ↦ FreshId s event ∧ Current s event)
      Ends.init events := hfresh.and hcurrent
  have hsealed : Sealed curve s := by
    rw [hrun]
    exact run_invariant_along (Sealed curve) (sealed_init curve)
      (fun _ event h hstep ↦ h.step hcurve event hstep.1 hstep.2) hboth
  have hagree : Agree s.tx s.rx := ⟨htx, hrx, hid, hsealed.agree htx hrx hid⟩
  refine ⟨hagree.key, ?_, ?_⟩
  · intro chunk cap tx body plainCap hencode hcap
    exact openChunk_encodeChunk haead hagree hencode hcap
  · intro offer cap tx body plainCap hencode hcap
    exact openOffer_encodeOffer haead hagree hencode hcap

/-- A chunk of two bytes. -/
def greeting : ClipChunk where
  id := 1
  seq := 0
  crc32 := 0xd8932aac
  data := [0x68, 0x69]
  data_length := by decide

/-- AES-256-GCM at the one message `greeting` makes under the key of `agreeingRun`; the cipher of
every other message fails. -/
def greetingAead : Aead where
  encrypt _ nonce aad plain :=
    if nonce = sealNonce 0 ∧ aad = [1, 0, 0, 0, 0, 0, 0, 0, 7, 0, 0, 0, 0, 0, 0, 0, 0, 0, 0, 0] ∧
      plain = [0xac, 0x2a, 0x93, 0xd8, 0x68, 0x69] then
      some ([0x23, 0x33, 0x1e, 0x4b, 0x8f, 0x6a],
        [0x2f, 0xf4, 0x1c, 0xfb, 0x03, 0x73, 0xd8, 0x3a, 0xd2, 0xcf, 0x27, 0x3a, 0x86, 0x8f, 0x3e,
          0x59])
    else none
  decrypt _ nonce aad cipher tag :=
    if nonce = sealNonce 0 ∧ aad = [1, 0, 0, 0, 0, 0, 0, 0, 7, 0, 0, 0, 0, 0, 0, 0, 0, 0, 0, 0] ∧
      cipher = [0x23, 0x33, 0x1e, 0x4b, 0x8f, 0x6a] ∧
      tag = [0x2f, 0xf4, 0x1c, 0xfb, 0x03, 0x73, 0xd8, 0x3a, 0xd2, 0xcf, 0x27, 0x3a, 0x86, 0x8f,
        0x3e, 0x59] then some [0xac, 0x2a, 0x93, 0xd8, 0x68, 0x69]
    else none

theorem greetingAead_lawful : greetingAead.Lawful := by
  refine ⟨?_, ?_, ?_⟩ <;>
    · intro key nonce aad plain cipher tag h
      simp only [greetingAead, Option.ite_none_right_eq_some] at h
      obtain ⟨⟨rfl, rfl, rfl⟩, h⟩ := h
      cases h
      rfl

/-- An exchange: the offer, its answer, and the answer taken. -/
def agreeingRun : List SealEvent :=
  [.offer [[7, 0, 0, 0], List.replicate 16 1, smallPrivate 2] exchangeLen,
    .deliverOffer 0 [List.replicate 16 2, smallPrivate 3] exchangeLen, .deliverAccept 0]

/-- After the exchange the keys agree, and the sealed greeting opens. -/
theorem live_keys_agree_greeting :
    (run (sealStep smallCurve greetingAead) Ends.init agreeingRun).rx.key =
        (run (sealStep smallCurve greetingAead) Ends.init agreeingRun).tx.key ∧
      (run (sealStep smallCurve greetingAead) Ends.init agreeingRun).rx.openChunk greetingAead
        [1, 0, 0, 0, 0, 0, 0, 0, 7, 0, 0, 0, 0, 0, 0, 0, 0, 0, 0, 0,
          0x23, 0x33, 0x1e, 0x4b, 0x8f, 0x6a, 0x2f, 0xf4, 0x1c, 0xfb, 0x03, 0x73, 0xd8, 0x3a, 0xd2,
          0xcf, 0x27, 0x3a, 0x86, 0x8f, 0x3e, 0x59] 6 = .ok greeting := by
  have h := live_keys_agree smallCurve_lawful greetingAead_lawful (by decide +kernel)
    (by decide +kernel) (rfl : _ = run (sealStep smallCurve greetingAead) Ends.init agreeingRun)
    (by decide +kernel) (by decide +kernel) (by decide +kernel)
  exact ⟨h.1, h.2.1 greeting 42 _ _ 6 rfl (by decide)⟩

/-- An exchange whose offer is delivered again after the receiver has started over: the receiver
answers it once more, and the sender takes the first answer. -/
def disagreeingRun : List SealEvent :=
  [.offer [[7, 0, 0, 0], List.replicate 16 1, smallPrivate 2] exchangeLen,
    .deliverOffer 0 [List.replicate 16 2, smallPrivate 3] exchangeLen, .restartReceiver,
    .deliverOffer 0 [List.replicate 16 3, smallPrivate 4] exchangeLen, .deliverAccept 0]

/-- The ends then hold different keys under one id. -/
theorem second_answer_disagrees :
    Along (sealStep smallCurve greetingAead) FreshId Ends.init disagreeingRun ∧
      (run (sealStep smallCurve greetingAead) Ends.init disagreeingRun).tx.live = true ∧
      (run (sealStep smallCurve greetingAead) Ends.init disagreeingRun).rx.live = true ∧
      (run (sealStep smallCurve greetingAead) Ends.init disagreeingRun).rx.sealId =
        (run (sealStep smallCurve greetingAead) Ends.init disagreeingRun).tx.sealId ∧
      (run (sealStep smallCurve greetingAead) Ends.init disagreeingRun).rx.key ≠
        (run (sealStep smallCurve greetingAead) Ends.init disagreeingRun).tx.key := by
  decide +kernel

end DeskhopPlus.Seal
