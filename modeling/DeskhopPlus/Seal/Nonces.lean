import DeskhopPlus.Library.Runs
import DeskhopPlus.Library.Sealing
import DeskhopPlus.Seal.Agreement
import DeskhopPlus.Seal.Staging

/-!
# What the seal's calls keep

A sender half and a receiver half under any calls, each of which may find the curve, the cipher or
the entropy failing. Beside the two halves a run keeps what was said and sealed: the offer that is
out, the offer the receive key was made from and the answer it got, the nonces drawn, the keys
derived and the messages sealed. `seal_discipline` says what every call keeps, that no key is used
with a counter twice, and what becomes of a sealed message at the other end.
-/

namespace DeskhopPlus.Seal

open Auth Crypto Wire Runs Sealing

/-- A message as it was sealed. -/
structure SealedMessage where
  key : List UInt8
  counter : UInt64
  sealId : UInt32
  message : Message
  body : List UInt8

namespace SealedMessage

/-- What the nonce must not be used with again. -/
def pair (sent : SealedMessage) : List UInt8 × UInt64 := (sent.key, sent.counter)

/-- The tag, which comes last. -/
def tag (sent : SealedMessage) : List UInt8 := sent.body.drop (sent.body.length - sealTagSize)

/-- The body is what a live sender with this key, id and counter makes of the message. -/
def Made (aead : Aead) (sent : SealedMessage) : Prop :=
  ∃ tx cap, tx.live = true ∧ tx.key = sent.key ∧ tx.sealId = sent.sealId ∧
    sent.body.length = sent.message.bodyLen ∧
    SealTx.encode aead tx sent.message cap = .ok ({ tx with counter := tx.counter + 1 }, sent.body)

end SealedMessage

/-- Both halves of one end, with what they said and sealed. -/
structure Halves where
  tx : SealTx
  rx : SealRx
  /-- what the last fresh offer put out -/
  outstanding : List UInt8
  /-- the offer the receive key was made from, and the answer given with it -/
  installed : Option (List UInt8 × List UInt8)
  /-- the nonces of the fresh offers -/
  drawn : List (List UInt8)
  /-- the keys the sender derived, each with the nonce of the offer it was derived for -/
  derived : List (List UInt8 × List UInt8)
  sealed : List SealedMessage

namespace Halves

/-- Two halves that have just started. -/
def init : Halves where
  tx := SealTx.init
  rx := SealRx.init
  outstanding := []
  installed := none
  drawn := []
  derived := []
  sealed := []

/-- What the sender seals with, beside the pairs it used. -/
def sealer (h : Halves) : Sealer (List UInt8) where
  key := if h.tx.live then some h.tx.key else none
  next := h.tx.counter
  log := h.sealed.map SealedMessage.pair

/-- The entropy was fresh: no nonce was drawn twice, and keys derived for different nonces
differ. -/
structure Fresh (h : Halves) : Prop where
  nonces : h.drawn.Nodup
  apart : ∀ first ∈ h.derived, ∀ second ∈ h.derived, first.1 = second.1 → first.2 = second.2

end Halves

/-- The calls. `offerWith` and `answerWith` are `dh_seal_tx_offer` and `dh_seal_rx_offered`, with a
nonce and a scalar of the caller's. -/
inductive SealCall where
  | offer (curve : CurveCall) (draws : List (List UInt8)) (out : List UInt8)
  | offerWith (curve : CurveCall) (sealId : UInt32) (ephPrivate nonce : List UInt8)
      (hnonce : nonce.length = nonceSize) (report : Report)
  | accepted (curve : CurveCall) (body : List UInt8)
  | stale (sealId : UInt32)
  | encode (cipher : CipherCall) (message : Message) (out : List UInt8)
  | answer (curve : CurveCall) (draws : List (List UInt8)) (body out : List UInt8)
  | answerWith (curve : CurveCall) (body ephPrivate nonce : List UInt8)
      (hnonce : nonce.length = nonceSize) (report : Report)
  | restartSender
  | restartReceiver

/-- A cipher that succeeds does what the cipher does. -/
def SealCall.Conforms (aead : Aead) : SealCall → Prop
  | .encode cipher _ _ => cipher.Conforms aead
  | _ => True

namespace Halves

/-- A fresh offer went out. -/
def offers (h : Halves) (made : SealTx × Report) : Halves :=
  { h with tx := made.1, outstanding := made.2.body, drawn := h.drawn ++ [made.1.nonce] }

/-- One call. -/
def step (h : Halves) : SealCall → Halves
  | .offer curve draws out =>
      let made := h.tx.makeOfferInto curve.toP256 draws out
      if made.2.fault = none ∧ h.tx.offered = false then h.offers made else { h with tx := made.1 }
  | .offerWith curve sealId ephPrivate nonce _ report =>
      let made := h.tx.offerInto curve.toP256 sealId ephPrivate nonce report
      if made.2.fault = none then h.offers made else { h with tx := made.1 }
  | .accepted curve body =>
      let taken := h.tx.acceptedInto curve.toP256 body
      { h with
        tx := taken.1
        derived := if taken.2 = none then h.derived ++ [(taken.1.key, h.tx.nonce)] else h.derived }
  | .stale sealId => { h with tx := h.tx.stale sealId }
  | .encode cipher message out =>
      let made := h.tx.encodeInto cipher message out
      { h with
        tx := made.1
        sealed :=
          if made.2.fault = none then
            h.sealed ++ [{ key := h.tx.key, counter := h.tx.counter, sealId := h.tx.sealId,
                           message := message, body := made.2.body }]
          else h.sealed }
  | .answer curve draws body out =>
      let given := h.rx.answerInto curve.toP256 draws body out
      { h with
        rx := given.1
        installed := if given.2.2 then some (body, given.2.1.body) else h.installed }
  | .answerWith curve body ephPrivate nonce _ report =>
      let given := h.rx.offeredInto curve.toP256 body ephPrivate nonce report
      { h with
        rx := given.1
        installed := if given.2.fault = none then some (body, given.2.body) else h.installed }
  | .restartSender => { h with tx := SealTx.init }
  | .restartReceiver => { h with rx := SealRx.init, installed := none }

/-- What a call must keep. A call that fails leaves its half as it was, and reports no output; an
offer that is out is repeated byte for byte; the offer the receive key was made from gets the same
answer again, which is not fresh; and a failed encoder leaves the buffer alone, or no plaintext
where it staged the message. -/
def Kept (h : Halves) : SealCall → Prop
  | .offer curve draws out =>
      let made := h.tx.makeOfferInto curve.toP256 draws out
      (made.2.fault ≠ none → made.1 = h.tx ∧ made.2.outLen = 0) ∧
        (h.tx.offered = true → exchangeLen ≤ out.length →
          made.1 = h.tx ∧ made.2.fault = none ∧ made.2.body = h.outstanding)
  | .offerWith curve sealId ephPrivate nonce _ report =>
      let made := h.tx.offerInto curve.toP256 sealId ephPrivate nonce report
      made.2.fault ≠ none → made.1 = h.tx ∧ made.2.outLen = report.outLen
  | .accepted curve body =>
      let taken := h.tx.acceptedInto curve.toP256 body
      taken.2 ≠ none → taken.1 = h.tx
  | .encode cipher message out =>
      let made := h.tx.encodeInto cipher message out
      made.2.fault ≠ none → made.1 = h.tx ∧ made.2.outLen = 0 ∧
        if h.tx.Stages message out.length then
          (made.2.out.drop message.headLen).take message.plainLen =
            List.replicate message.plainLen 0
        else made.2.out = out
  | .answer curve draws body out =>
      let given := h.rx.answerInto curve.toP256 draws body out
      (given.2.1.fault ≠ none → given.1 = h.rx ∧ given.2.1.outLen = 0 ∧ given.2.2 = false) ∧
        (given.2.2 = false → given.1 = h.rx) ∧
        ∀ answer, h.installed = some (body, answer) → exchangeLen ≤ out.length →
          given.1 = h.rx ∧ given.2.1.fault = none ∧ given.2.1.body = answer ∧ given.2.2 = false
  | .answerWith curve body ephPrivate nonce _ report =>
      let given := h.rx.offeredInto curve.toP256 body ephPrivate nonce report
      given.2.fault ≠ none → given.1 = h.rx ∧ given.2.outLen = report.outLen
  | .stale _ | .restartSender | .restartReceiver => True

/-! ## The invariant -/

/-- What holds of the halves and of what is kept beside them. -/
structure Accounted (aead : Aead) (h : Halves) : Prop where
  offered : h.tx.offered = true → h.tx.live = false ∧ h.tx.offer.length = exchangeLen ∧
    h.outstanding = h.tx.offer ∧ h.tx.nonce ∈ h.drawn ∧
    (h.drawn.Nodup → h.tx.nonce ∉ h.derived.map Prod.snd)
  drew : ∀ entry ∈ h.derived, entry.2 ∈ h.drawn
  live : h.tx.live = true → h.tx.key ∈ h.derived.map Prod.fst
  sealed : ∀ sent ∈ h.sealed, sent.key ∈ h.derived.map Prod.fst ∧ sent.Made aead
  installed : ∀ entry ∈ h.installed, h.rx.Remembers entry.1 ∧ h.rx.accept = entry.2 ∧
    entry.1.length = exchangeLen ∧ entry.2.length = exchangeLen
  counted : h.Fresh → h.sealer.Counted

variable {aead : Aead} {h : Halves}

theorem accounted_init (aead : Aead) : Accounted aead init where
  offered := nofun
  drew := nofun
  live := nofun
  sealed := nofun
  installed := nofun
  counted _ := Sealer.counted_empty _

/-- A sender half that starts over holds nothing. -/
theorem Accounted.restarts (hacc : Accounted aead h) :
    Accounted aead { h with tx := SealTx.init } where
  offered := nofun
  drew := hacc.drew
  live := nofun
  sealed := hacc.sealed
  installed := hacc.installed
  counted hfresh := (hacc.counted ⟨hfresh.nonces, hfresh.apart⟩).forget _

theorem Accounted.stale (hacc : Accounted aead h) (sealId : UInt32) :
    Accounted aead { h with tx := h.tx.stale sealId } := by
  unfold SealTx.stale
  split
  · exact hacc
  · exact hacc.restarts

/-! ## What each call keeps -/

/-- A fresh offer that goes out: its nonce is new, and the key of the last seal is given up. -/
theorem Accounted.offers (hacc : Accounted aead h) {tx : SealTx} {out : List UInt8}
    (hidle : tx.live = false) (hlength : tx.offer.length = exchangeLen) :
    Accounted aead (h.offers (tx, { fault := none, outLen := exchangeLen,
                                    out := Bytes.overwrite out 0 tx.offer })) where
  offered _ := by
    refine ⟨hidle, hlength, ?_, List.mem_append_right _ (List.mem_singleton_self _), ?_⟩
    · show (Bytes.overwrite out 0 tx.offer).take exchangeLen = tx.offer
      rw [Bytes.overwrite, List.take_zero, List.nil_append, ← hlength, List.take_left']
      rfl
    · intro hnodup hmem
      obtain ⟨entry, hentry, hnonce⟩ := List.mem_map.1 hmem
      have hdrew := hacc.drew entry hentry
      rw [hnonce] at hdrew
      exact (List.disjoint_of_nodup_append hnodup) hdrew (List.mem_singleton_self _)
  drew entry hentry := List.mem_append_left _ (hacc.drew entry hentry)
  live hlive := absurd (hidle.symm.trans hlive) nofun
  sealed := hacc.sealed
  installed := hacc.installed
  counted hfresh := by
    have hbefore : h.Fresh := ⟨hfresh.nonces.sublist (List.sublist_append_left _ _), hfresh.apart⟩
    show Sealer.Counted { key := if tx.live = true then some tx.key else none, next := tx.counter,
                          log := h.sealed.map SealedMessage.pair }
    rw [if_neg (by simp [hidle])]
    exact (hacc.counted hbefore).forget _

/-- A public half fills its array, so an offer fills its own. -/
theorem offering_length {curve : CurveCall} {tx : SealTx} (h : tx.Offering curve.toP256) :
    tx.offer.length = exchangeLen := by
  obtain ⟨publicKey, hpublic, hoffer⟩ := h.body
  rw [hoffer, exchangeBody, List.length_append, List.length_append, put32_length, h.nonce_length,
    curve.public_length hpublic]
  rfl

theorem answers_length {curve : CurveCall} {rx : SealRx} {body : List UInt8}
    (h : rx.Answers curve.toP256 body) : rx.accept.length = exchangeLen := by
  obtain ⟨ephPrivate, publicKey, nonce, hpublic, hnonce, haccept, -⟩ := h.accept
  rw [haccept, exchangeBody, List.length_append, List.length_append, put32_length, hnonce,
    curve.public_length hpublic]
  rfl

theorem Accounted.offer (hacc : Accounted aead h) (curve : CurveCall)
    (draws : List (List UInt8)) (out : List UInt8) :
    Accounted aead (h.step (.offer curve draws out)) ∧ h.Kept (.offer curve draws out) := by
  have hmade := @makeOfferInto_eq curve.toP256 h.tx draws out
  simp only [step, Kept, hmade]
  cases hoffer : h.tx.makeOffer curve.toP256 draws out.length with
  | error fault =>
      refine ⟨?_, fun _ ↦ ⟨rfl, rfl⟩, fun hoffered hcap ↦ ?_⟩
      · simp only [settled, reduceCtorEq, false_and, if_false]
        exact hacc
      · rw [SealTx.makeOffer, if_neg (by omega), if_pos hoffered] at hoffer
        cases hoffer
  | ok result =>
      obtain ⟨tx, body⟩ := result
      rcases makeOffer_ok hoffer with ⟨hoffered, rfl, rfl⟩ | ⟨hidle, hoffering, rfl⟩
      · obtain ⟨-, hlength, hout, -⟩ := hacc.offered hoffered
        refine ⟨?_, fun hfault ↦ absurd rfl hfault, fun _ _ ↦ ⟨rfl, rfl, ?_⟩⟩
        · simp only [settled, hoffered, reduceCtorEq, and_false, if_false]
          exact hacc
        · show (Bytes.overwrite out 0 h.tx.offer).take exchangeLen = h.outstanding
          rw [hout, Bytes.overwrite, List.take_zero, List.nil_append, ← hlength, List.take_left']
          rfl
      · refine ⟨?_, fun hfault ↦ absurd rfl hfault, fun hoffered ↦ ?_⟩
        · simp only [settled, hidle, and_self, if_true]
          exact hacc.offers hoffering.idle (offering_length hoffering)
        · rw [hidle] at hoffered
          cases hoffered

/-- An offer of given material is one like those `dh_seal_offer` makes. -/
theorem txOffer_ok {curve : P256} {sealId : UInt32} {ephPrivate nonce : List UInt8} {cap : Nat}
    {tx : SealTx} {body : List UInt8} (hnonce : nonce.length = nonceSize)
    (h : txOffer curve sealId ephPrivate nonce cap = .ok (tx, body)) :
    tx.Offering curve ∧ body = tx.offer := by
  unfold txOffer at h
  split at h
  · cases h
  · rename_i publicKey hpublic
    split at h
    · cases h
    · rename_i encoded hencode
      cases h
      exact ⟨⟨rfl, rfl, ⟨publicKey, hpublic, encodeExchange_some hencode⟩, hnonce⟩, rfl⟩

theorem rxOffered_ok {curve : P256} {ephPrivate nonce : List UInt8} {cap : Nat}
    {rx : SealRx} {body answer : List UInt8} (hnonce : nonce.length = nonceSize)
    (h : rxOffered curve body ephPrivate nonce cap = .ok (rx, answer)) :
    rx.Answers curve body ∧ answer = rx.accept := by
  unfold rxOffered at h
  split at h
  · cases h
  · rename_i hlength
    split at h
    · cases h
    · rename_i publicKey hpublic
      split at h
      · cases h
      · rename_i key hkey
        split at h
        · cases h
        · rename_i encoded hencode
          cases h
          exact ⟨⟨rfl, rfl, not_not.1 hlength, rfl, ephPrivate, publicKey, nonce, hpublic, hnonce,
            encodeExchange_some hencode, hkey⟩, rfl⟩

theorem Accounted.offerWith (hacc : Accounted aead h) (curve : CurveCall) (sealId : UInt32)
    (ephPrivate nonce : List UInt8) (hnonce : nonce.length = nonceSize) (report : Report) :
    Accounted aead (h.step (.offerWith curve sealId ephPrivate nonce hnonce report)) ∧
      h.Kept (.offerWith curve sealId ephPrivate nonce hnonce report) := by
  simp only [step, Kept, offerInto_eq]
  cases hoffer : txOffer curve.toP256 sealId ephPrivate nonce report.out.length with
  | error fault =>
      refine ⟨?_, fun _ ↦ ⟨rfl, rfl⟩⟩
      simp only [settled, reduceCtorEq, if_false]
      exact hacc
  | ok result =>
      obtain ⟨tx, body⟩ := result
      obtain ⟨hoffering, rfl⟩ := txOffer_ok hnonce hoffer
      refine ⟨?_, fun hfault ↦ absurd rfl hfault⟩
      simp only [settled, if_true]
      exact hacc.offers hoffering.idle (offering_length hoffering)

/-- A receive key is installed with its offer and the answer given. -/
theorem Accounted.installs (hacc : Accounted aead h) {curve : CurveCall} {rx : SealRx}
    {body out : List UInt8} (hanswers : rx.Answers curve.toP256 body) :
    Accounted aead { h with
      rx := rx
      installed := some (body, (Bytes.overwrite out 0 rx.accept).take exchangeLen) } where
  offered := hacc.offered
  drew := hacc.drew
  live := hacc.live
  sealed := hacc.sealed
  installed := by
    intro entry hentry
    obtain rfl := Option.some.inj hentry
    have haccept := answers_length hanswers
    have hsaid : (Bytes.overwrite out 0 rx.accept).take exchangeLen = rx.accept := by
      rw [Bytes.overwrite, List.take_zero, List.nil_append, ← haccept, List.take_left']
      rfl
    exact ⟨⟨hanswers.live, hanswers.offer⟩, hsaid.symm, hanswers.offer_length,
      (congrArg List.length hsaid).trans haccept⟩
  counted hfresh := hacc.counted ⟨hfresh.nonces, hfresh.apart⟩

theorem Accounted.answer (hacc : Accounted aead h) (curve : CurveCall)
    (draws : List (List UInt8)) (body out : List UInt8) :
    Accounted aead (h.step (.answer curve draws body out)) ∧
      h.Kept (.answer curve draws body out) := by
  have hgiven := @answerInto_eq curve.toP256 h.rx draws body out
  have hfresh := @answerInto_fresh curve.toP256 h.rx draws body out
  -- what the current key was made from is remembered, and gets its answer
  have hremembered : ∀ answer, h.installed = some (body, answer) → exchangeLen ≤ out.length →
      h.rx.answer curve.toP256 draws body out.length = .ok (h.rx, answer) ∧ h.rx.Remembers body ∧
        answer.length = exchangeLen := by
    intro answer hinstalled hcap
    obtain ⟨hremembers, haccept, hlength, hanswer⟩ := hacc.installed _ hinstalled
    refine ⟨?_, hremembers, hanswer⟩
    rw [SealRx.answer, if_neg (not_not.2 hlength), if_neg (by omega), if_pos hremembers, haccept]
  simp only [step, Kept]
  generalize SealRx.answerInto curve.toP256 h.rx draws body out = given at hgiven hfresh ⊢
  obtain ⟨rx, report, fresh⟩ := given
  simp only at hgiven hfresh ⊢
  cases hanswer : h.rx.answer curve.toP256 draws body out.length with
  | error fault =>
      rw [hanswer] at hgiven
      cases hgiven
      obtain rfl : fresh = false := by simpa using hfresh
      refine ⟨hacc, fun _ ↦ ⟨rfl, rfl, rfl⟩, fun _ ↦ rfl, fun answer hinstalled hcap ↦ ?_⟩
      rw [(hremembered answer hinstalled hcap).1] at hanswer
      cases hanswer
  | ok result =>
      obtain ⟨rx', answer'⟩ := result
      rw [hanswer] at hgiven
      cases hgiven
      rcases answer_ok hanswer with ⟨hremembers, rfl, rfl⟩ | ⟨hforgot, hanswers, rfl⟩
      · obtain rfl : fresh = false := by simpa [hremembers] using hfresh
        refine ⟨hacc, fun hfault ↦ absurd rfl hfault, fun _ ↦ rfl, fun answer hinstalled hcap ↦ ?_⟩
        obtain ⟨hok, -, hlength⟩ := hremembered answer hinstalled hcap
        obtain ⟨-, rfl⟩ := Prod.mk.inj (Except.ok.inj (hanswer.symm.trans hok))
        refine ⟨rfl, rfl, ?_, rfl⟩
        show (Bytes.overwrite out 0 h.rx.accept).take exchangeLen = h.rx.accept
        rw [Bytes.overwrite, List.take_zero, List.nil_append, ← hlength, List.take_left']
        rfl
      · obtain rfl : fresh = true := hfresh.2 ⟨hforgot, rfl⟩
        refine ⟨hacc.installs hanswers, fun hfault ↦ absurd rfl hfault,
          (fun hstale ↦ by cases hstale), ?_⟩
        intro answer hinstalled hcap
        exact absurd (hremembered answer hinstalled hcap).2.1 hforgot

theorem Accounted.answerWith (hacc : Accounted aead h) (curve : CurveCall)
    (body ephPrivate nonce : List UInt8) (hnonce : nonce.length = nonceSize) (report : Report) :
    Accounted aead (h.step (.answerWith curve body ephPrivate nonce hnonce report)) ∧
      h.Kept (.answerWith curve body ephPrivate nonce hnonce report) := by
  simp only [step, Kept, offeredInto_eq]
  cases hoffered : rxOffered curve.toP256 body ephPrivate nonce report.out.length with
  | error fault =>
      refine ⟨?_, fun _ ↦ ⟨rfl, rfl⟩⟩
      simp only [settled, reduceCtorEq, if_false]
      exact hacc
  | ok result =>
      obtain ⟨rx, answer⟩ := result
      obtain ⟨hanswers, rfl⟩ := rxOffered_ok hnonce hoffered
      refine ⟨?_, fun hfault ↦ absurd rfl hfault⟩
      simp only [settled, if_true]
      exact hacc.installs hanswers

/-- An accept that is taken gives a key for the nonce of the offer, which it uses up. -/
theorem Accounted.accepted (hacc : Accounted aead h) (curve : CurveCall) (body : List UInt8) :
    Accounted aead (h.step (.accepted curve body)) ∧ h.Kept (.accepted curve body) := by
  simp only [step, Kept, acceptedInto_eq]
  cases haccepted : h.tx.accepted curve.toP256 body with
  | error fault =>
      refine ⟨?_, fun _ ↦ rfl⟩
      simp only [reduceCtorEq, if_false]
      exact hacc
  | ok tx =>
      refine ⟨?_, fun hfault ↦ absurd rfl hfault⟩
      simp only [if_true]
      obtain ⟨hoffered, -, hlive, hdone, -⟩ := accepted_ok haccepted
      have hcounter : tx.counter = 0 := by
        unfold SealTx.accepted at haccepted
        split_ifs at haccepted
        split at haccepted
        · cases haccepted
        · cases haccepted
          rfl
      obtain ⟨-, -, -, hdrawn, hunused⟩ := hacc.offered hoffered
      refine ⟨fun hagain ↦ absurd (hdone.symm.trans hagain) nofun, ?_, ?_, ?_, hacc.installed, ?_⟩
      · intro entry hentry
        rcases List.mem_append.1 hentry with hentry | hentry
        · exact hacc.drew entry hentry
        · rw [List.mem_singleton.1 hentry]
          exact hdrawn
      · intro _
        simp
      · intro sent hsent
        obtain ⟨hkey, hmade⟩ := hacc.sealed sent hsent
        exact ⟨by rw [List.map_append]; exact List.mem_append_left _ hkey, hmade⟩
      · intro hfresh
        have hbefore : h.Fresh := ⟨hfresh.nonces, fun first hfirst second hsecond ↦
          hfresh.apart first (List.mem_append_left _ hfirst) second
            (List.mem_append_left _ hsecond)⟩
        show Sealer.Counted { key := if tx.live = true then some tx.key else none,
                              next := tx.counter, log := h.sealed.map SealedMessage.pair }
        rw [if_pos hlive, hcounter]
        refine (hacc.counted hbefore).rekey fun hused ↦ ?_
        -- a message sealed under this key would have its nonce among those used up
        rw [sealer, List.map_map, List.mem_map] at hused
        obtain ⟨sent, hsent, hkey⟩ := hused
        obtain ⟨entry, hentry, hfirst⟩ := List.mem_map.1 (hacc.sealed sent hsent).1
        have hnonce := hfresh.apart entry (List.mem_append_left _ hentry) (tx.key, h.tx.nonce)
          (List.mem_append_right _ (List.mem_singleton_self _)) (hfirst.trans hkey)
        exact hunused hfresh.nonces (List.mem_map.2 ⟨entry, hentry, hnonce⟩)

/-- A message sealed moves the counter on, and is made of the sender's key and counter. -/
theorem Accounted.encode (hacc : Accounted aead h) {cipher : CipherCall}
    (hconforms : cipher.Conforms aead) (message : Message) (out : List UInt8) :
    Accounted aead (h.step (.encode cipher message out)) ∧ h.Kept (.encode cipher message out) := by
  simp only [step, Kept]
  by_cases hstages : h.tx.Stages message out.length
  · obtain ⟨head, plain, hhead, hplain, hencode, hinto⟩ :=
      encodeInto_staged hstages
    have hleft := cipher.left_length h.tx.key (sealNonce h.tx.counter) head plain
    have htag := cipher.tag_length h.tx.key (sealNonce h.tx.counter) head plain
    have hseals := hconforms h.tx.key (sealNonce h.tx.counter) head plain
    rw [hinto, if_pos hstages]
    dsimp only
    generalize cipher.encrypt h.tx.key (sealNonce h.tx.counter) head plain = made at *
    by_cases hdone : made.done = true
    swap
    · -- the cipher failed: the counter stands and the plain text is overwritten
      simp only [if_neg hdone]
      refine ⟨?_, fun _ ↦ ⟨trivial, trivial, ?_⟩⟩
      · simp only [reduceCtorEq, if_false]
        exact hacc
      · rw [List.append_assoc, List.append_assoc, ← hhead, drop_append_eq rfl,
          List.take_left' List.length_replicate]
    · simp only [if_pos hdone]
      refine ⟨?_, fun hfault ↦ absurd rfl hfault⟩
      -- sealed: the pair joins the log and the counter moves on
      have hlive : h.tx.live = true := hstages.1
      have hbody : (head ++ made.left ++ made.tag).length = message.bodyLen := by
        rw [List.length_append, List.length_append, hleft, htag, hhead, hplain]
        rfl
      have hsent : Report.body { fault := none, outLen := message.bodyLen,
                                 out := head ++ made.left ++ made.tag ++
                                   out.drop message.bodyLen } = head ++ made.left ++ made.tag := by
        show (head ++ made.left ++ made.tag ++ out.drop message.bodyLen).take message.bodyLen = _
        rw [← hbody]
        exact List.take_left' rfl
      rw [if_pos trivial, hsent]
      refine ⟨hacc.offered, hacc.drew, hacc.live, ?_, hacc.installed, fun hfresh ↦ ?_⟩
      · intro sent hmem
        rcases List.mem_append.1 hmem with hmem | hmem
        · exact hacc.sealed sent hmem
        · rw [List.mem_singleton.1 hmem]
          refine ⟨hacc.live hlive, h.tx, out.length, hlive, rfl, rfl, hbody, ?_⟩
          rw [hencode aead, SealTx.sealStaged, hseals hdone]
      · have hkey : h.sealer.key = some h.tx.key := if_pos hlive
        have hsealed := (hacc.counted ⟨hfresh.nonces, hfresh.apart⟩).seal hkey
        show Sealer.Counted { key := if h.tx.live = true then some h.tx.key else none,
                              next := h.tx.counter + 1,
                              log := (h.sealed ++ [_]).map SealedMessage.pair }
        rw [List.map_append]
        exact hsealed
  · obtain ⟨fault, hinto⟩ := encodeInto_unstaged hstages
    rw [hinto, if_neg hstages]
    refine ⟨?_, fun _ ↦ ⟨rfl, rfl, rfl⟩⟩
    simp only [reduceCtorEq, if_false]
    exact hacc

/-- Every call keeps the invariant, and what it must. -/
theorem Accounted.step (hacc : Accounted aead h) (call : SealCall)
    (hconforms : call.Conforms aead) : Accounted aead (h.step call) ∧ h.Kept call := by
  cases call with
  | offer curve draws out => exact hacc.offer curve draws out
  | offerWith curve sealId ephPrivate nonce hnonce report =>
      exact hacc.offerWith curve sealId ephPrivate nonce hnonce report
  | accepted curve body => exact hacc.accepted curve body
  | stale sealId => exact ⟨hacc.stale sealId, trivial⟩
  | encode cipher message out => exact hacc.encode hconforms message out
  | answer curve draws body out => exact hacc.answer curve draws body out
  | answerWith curve body ephPrivate nonce hnonce report =>
      exact hacc.answerWith curve body ephPrivate nonce hnonce report
  | restartSender => exact ⟨hacc.restarts, trivial⟩
  | restartReceiver =>
      exact ⟨⟨hacc.offered, hacc.drew, hacc.live, hacc.sealed, nofun,
        fun hfresh ↦ hacc.counted ⟨hfresh.nonces, hfresh.apart⟩⟩, trivial⟩

/-- Every run keeps the invariant, and each call of it what it must. -/
theorem accounted_run {calls : List SealCall} (hconforms : ∀ call ∈ calls, call.Conforms aead) :
    Accounted aead (run Halves.step init calls) ∧ Along Halves.step Kept init calls := by
  have hstart := accounted_init aead
  generalize init = h at hstart ⊢
  induction calls generalizing h with
  | nil => exact ⟨hstart, trivial⟩
  | cons call rest ih =>
      obtain ⟨hnext, hkept⟩ := hstart.step call (hconforms call (List.mem_cons_self ..))
      obtain ⟨hend, halong⟩ := ih (fun later hlater ↦
        hconforms later (List.mem_cons_of_mem _ hlater)) _ hnext
      exact ⟨hend, hkept, halong⟩

end Halves

/-! ## What becomes of a sealed message -/

/-- Opening a message of the same kind. -/
def Message.opened (aead : Aead) (rx : SealRx) (message : Message) (body : List UInt8)
    (plainCap : Nat) : Except SealFault Message :=
  match message with
  | .offer _ => (rx.openOffer aead body plainCap).map .offer
  | .chunk _ => (rx.openChunk aead body plainCap).map .chunk

/-- Nobody forges: under a key the sender sealed with, nothing opens but what it sealed, and no two
messages under one key have one tag. -/
structure Unforgeable (aead : Aead) (sealed : List SealedMessage) : Prop where
  made : ∀ {sent nonce aad cipher tag plain}, sent ∈ sealed →
    aead.decrypt sent.key nonce aad cipher tag = some plain →
    ∃ genuine ∈ sealed, genuine.key = sent.key ∧ genuine.body = aad ++ cipher ++ tag
  apart : ∀ first ∈ sealed, ∀ second ∈ sealed, first.key = second.key → first.tag = second.tag →
    first.body = second.body

section Opening

variable {aead : Aead} {rx : SealRx} {sent : SealedMessage} {body plain : List UInt8}
  {sealId : UInt32} {counter : UInt64} {headLen plainCap : Nat}

theorem openStaged_ok
    (h : rx.openStaged aead body headLen sealId counter plainCap = .ok plain) :
    ∃ cipher tag, body = body.take headLen ++ cipher ++ tag ∧
      aead.decrypt rx.key (sealNonce counter) (body.take headLen) cipher tag = some plain := by
  unfold SealRx.openStaged at h
  split_ifs at h
  simp only at h
  split_ifs at h
  split at h
  · cases h
  · rename_i hopen
    cases h
    refine ⟨_, _, ?_, hopen⟩
    rw [List.append_assoc, List.take_append_drop, List.take_append_drop]

/-- Whatever opens of a message's kind was decrypted behind the clear head. -/
theorem opened_ok {message result : Message}
    (h : message.opened aead rx body plainCap = .ok result) :
    ∃ nonce cipher tag plain, body = body.take message.headLen ++ cipher ++ tag ∧
      aead.decrypt rx.key nonce (body.take message.headLen) cipher tag = some plain := by
  cases message with
  | offer fields =>
      simp only [Message.opened, SealRx.openOffer] at h
      split at h
      · cases h
      · split at h
        · cases h
        · rename_i hstaged
          obtain ⟨cipher, tag, hbody, hopen⟩ := openStaged_ok hstaged
          exact ⟨_, cipher, tag, _, hbody, hopen⟩
  | chunk fields =>
      simp only [Message.opened, SealRx.openChunk] at h
      split at h
      · cases h
      · split at h
        · cases h
        · rename_i hstaged
          obtain ⟨cipher, tag, hbody, hopen⟩ := openStaged_ok hstaged
          exact ⟨_, cipher, tag, _, hbody, hopen⟩

/-- A byte of the clear head is changed: the message does not open. -/
theorem SealedMessage.tampered {sealed : List SealedMessage} (hunforged : Unforgeable aead sealed)
    (hsent : sent ∈ sealed) (hlength : sent.body.length = sent.message.bodyLen) {index : Nat}
    {byte : UInt8} (hindex : index < sent.message.headLen) (hbyte : sent.body[index]? ≠ some byte)
    (hkey : rx.key = sent.key) (plainCap : Nat) :
    ∃ fault, sent.message.opened aead rx (sent.body.set index byte) plainCap = .error fault := by
  cases hopened : sent.message.opened aead rx (sent.body.set index byte) plainCap with
  | error fault => exact ⟨fault, rfl⟩
  | ok result =>
      obtain ⟨nonce, cipher, mac, plain, hbody, hopen⟩ := opened_ok hopened
      rw [hkey] at hopen
      obtain ⟨genuine, hgenuine, hsame, hmade⟩ := hunforged.made hsent hopen
      rw [← hbody] at hmade
      have hbound : index < sent.body.length - sealTagSize := by
        simp only [Message.bodyLen] at hlength
        omega
      -- the tag is untouched, so the message would be the one that was sealed
      have htag : genuine.tag = sent.tag := by
        rw [tag, tag, hmade, List.length_set, List.drop_set_of_lt hbound]
      have hunchanged := hunforged.apart genuine hgenuine sent hsent hsame htag
      rw [hmade] at hunchanged
      exact absurd (by rw [← hunchanged, List.getElem?_set_self (by omega)]) hbyte

/-- With too little room for the plaintext nothing is opened. -/
theorem openStaged_small (hlive : rx.live = true) (hid : rx.sealId = sealId)
    (hfits : headLen + sealTagSize ≤ body.length)
    (hsmall : plainCap < body.length - headLen - sealTagSize) :
    rx.openStaged aead body headLen sealId counter plainCap = .error .buffer := by
  unfold SealRx.openStaged
  rw [if_neg (by omega), if_neg (by simp [hlive, hid])]
  exact if_pos hsmall

/-- A sealed message opens under the agreed key as it was, where its plaintext has room. -/
theorem SealedMessage.Made.opens (hlawful : aead.Lawful) (hmade : sent.Made aead)
    (hlive : rx.live = true) (hid : rx.sealId = sent.sealId) (hkey : rx.key = sent.key)
    (plainCap : Nat) :
    sent.message.opened aead rx sent.body plainCap =
      if plainCap < sent.message.plainLen then .error .buffer else .ok sent.message := by
  obtain ⟨tx, cap, htx, htxKey, htxId, hlength, hencode⟩ := hmade
  have hagree : Agree tx rx := ⟨htx, hlive, hid.trans htxId.symm, hkey.trans htxKey.symm⟩
  have hrxId := hagree.sealId
  obtain ⟨key, counter, sealId, message, body⟩ := sent
  simp only [Message.bodyLen] at hlength
  cases message with
  | offer fields =>
      simp only [Message.plainLen, Message.headLen] at hlength
      show (rx.openOffer aead body plainCap).map Message.offer =
        if plainCap < offerPlainFixed + fields.metadata.length then _ else _
      by_cases hsmall : plainCap < offerPlainFixed + fields.metadata.length
      · obtain ⟨head, plain, cipher, tag, hhead, -, -, hbody⟩ := encodeSealed_ok hencode
        have hdecode : ClipOfferHead.decode body = some
            { id := fields.id, sealId := tx.sealId, sealCounter := tx.counter } := by
          rw [show body = head ++ cipher ++ tag from hbody, List.append_assoc]
          exact ClipOfferHead.decode_encode hhead _
        rw [if_pos hsmall, SealRx.openOffer, hdecode]
        dsimp only
        rw [openStaged_small hlive hrxId (by omega) (by omega)]
        rfl
      · rw [if_neg hsmall, openOffer_encodeOffer hlawful hagree hencode (by omega)]
        rfl
  | chunk fields =>
      simp only [Message.plainLen, Message.headLen] at hlength
      show (rx.openChunk aead body plainCap).map Message.chunk =
        if plainCap < chunkPlainFixed + fields.data.length then _ else _
      by_cases hsmall : plainCap < chunkPlainFixed + fields.data.length
      · obtain ⟨head, plain, cipher, tag, hhead, -, -, hbody⟩ := encodeSealed_ok hencode
        have hdecode : ClipChunkHead.decode body = some
            { id := fields.id, seq := fields.seq, sealId := tx.sealId,
              sealCounter := tx.counter } := by
          rw [show body = head ++ cipher ++ tag from hbody, List.append_assoc]
          exact ClipChunkHead.decode_encode hhead _
        rw [if_pos hsmall, SealRx.openChunk, hdecode]
        dsimp only
        rw [openStaged_small hlive hrxId (by omega) (by omega)]
        rfl
      · rw [if_neg hsmall, openChunk_encodeChunk hlawful hagree hencode (by omega)]
        rfl

end Opening

namespace Halves

/-- In every run of the seal's calls, any of which may find the curve, the cipher or the entropy
failing: every call keeps what it must; with fresh entropy no two messages are sealed under one key
and one counter, if no key is used more often than the counter has values; each message opens under
the agreed key as it was sealed; and, if nobody forges, none opens with a byte of its clear head
changed. -/
theorem seal_discipline {aead : Aead} (hlawful : aead.Lawful) {calls : List SealCall}
    (hconforms : ∀ call ∈ calls, call.Conforms aead) :
    let h := run Halves.step init calls
    Along Halves.step Kept init calls ∧
      (h.Fresh → (∀ key, (countersOf (h.sealed.map SealedMessage.pair) key).length ≤ 2 ^ 64) →
        (h.sealed.map SealedMessage.pair).Nodup) ∧
      (∀ sent ∈ h.sealed, ∀ rx : SealRx, rx.live = true → rx.sealId = sent.sealId →
        rx.key = sent.key → ∀ plainCap, sent.message.opened aead rx sent.body plainCap =
          if plainCap < sent.message.plainLen then .error .buffer else .ok sent.message) ∧
      (Unforgeable aead h.sealed → ∀ sent ∈ h.sealed, ∀ index < sent.message.headLen, ∀ byte,
        sent.body[index]? ≠ some byte → ∀ rx : SealRx, rx.key = sent.key → ∀ plainCap, ∃ fault,
          sent.message.opened aead rx (sent.body.set index byte) plainCap = .error fault) := by
  intro h
  obtain ⟨hacc, halong⟩ := accounted_run hconforms
  refine ⟨halong, fun hfresh hcount ↦ (hacc.counted hfresh).nodup hcount, ?_, ?_⟩
  · intro sent hsent rx hlive hid hkey plainCap
    exact (hacc.sealed sent hsent).2.opens hlawful hlive hid hkey plainCap
  · intro hunforged sent hsent index hindex byte hbyte rx hkey plainCap
    obtain ⟨-, -, -, -, -, hlength, -⟩ := (hacc.sealed sent hsent).2
    exact SealedMessage.tampered hunforged hsent hlength hindex hbyte hkey plainCap

/-! ## A message sealed, and too many -/

/-- A lawful cipher that does not fail on its own. -/
def asCall (aead : Aead) (hlawful : aead.Lawful) : CipherCall where
  encrypt key nonce aad plain :=
    match aead.encrypt key nonce aad plain with
    | some (cipher, tag) => { left := cipher, tag := tag, done := true }
    | none =>
        { left := List.replicate plain.length 0, tag := List.replicate sealTagSize 0,
          done := false }
  left_length key nonce aad plain := by
    cases h : aead.encrypt key nonce aad plain with
    | none => exact List.length_replicate
    | some sealed => exact hlawful.cipher_length h
  tag_length key nonce aad plain := by
    cases h : aead.encrypt key nonce aad plain with
    | none => exact List.length_replicate
    | some sealed => exact hlawful.tag_length h

theorem asCall_conforms (aead : Aead) (hlawful : aead.Lawful) :
    (asCall aead hlawful).Conforms aead := by
  intro key nonce aad plain hdone
  simp only [asCall] at hdone ⊢
  cases h : aead.encrypt key nonce aad plain with
  | none =>
      rw [h] at hdone
      cases hdone
  | some sealed => rfl

/-- The curve at its small scalars. -/
def smallCall : CurveCall where
  toP256 := smallCurve
  public_length := smallCurve_lawful.public_length

/-- An offer, and the accept of a peer whose private key is three. -/
def opening : List SealCall :=
  [.offer smallCall [[7, 0, 0, 0], List.replicate nonceSize 1, smallPrivate 2]
    (List.replicate exchangeLen 0),
   .accepted smallCall (exchangeBody 7 (List.replicate nonceSize 2)
    ((smallCurve.publicFromPrivate (smallPrivate 3)).getD []))]

/-- The greeting is sealed into a buffer of its own size. -/
def greets (cipher : CipherCall) : SealCall :=
  .encode cipher (.chunk greeting) (List.replicate 42 0)

/-- The greeting as it was sealed opens for nobody once its first byte is another. -/
theorem seal_discipline_greeting :
    let calls := opening ++ [greets (asCall greetingAead greetingAead_lawful)]
    let h := run Halves.step init calls
    h.sealed.length = 1 ∧ Along Halves.step Kept init calls ∧
      ∀ sent ∈ h.sealed, ∀ rx : SealRx, rx.key = sent.key →
        ∃ fault, sent.message.opened greetingAead rx (sent.body.set 0 9) 6 = .error fault := by
  intro calls h
  have hconforms : ∀ call ∈ calls, call.Conforms greetingAead := by
    intro call hcall
    rcases List.mem_append.1 hcall with hcall | hcall
    · simp only [opening, List.mem_cons, List.not_mem_nil, or_false] at hcall
      rcases hcall with rfl | rfl <;> exact trivial
    · rw [List.mem_singleton.1 hcall]
      exact asCall_conforms greetingAead greetingAead_lawful
  have hbodies : h.sealed.map SealedMessage.body =
      [[1, 0, 0, 0, 0, 0, 0, 0, 7, 0, 0, 0, 0, 0, 0, 0, 0, 0, 0, 0,
        0x23, 0x33, 0x1e, 0x4b, 0x8f, 0x6a, 0x2f, 0xf4, 0x1c, 0xfb, 0x03, 0x73, 0xd8, 0x3a, 0xd2,
        0xcf, 0x27, 0x3a, 0x86, 0x8f, 0x3e, 0x59]] := by
    decide
  have hheads : h.sealed.map (fun sent ↦ sent.message.headLen) = [20] := by decide
  obtain ⟨only, honly⟩ := List.length_eq_one_iff.1 (by simpa using congrArg List.length hbodies)
  rw [honly] at hbodies hheads
  have hbody := List.head_eq_of_cons_eq hbodies
  have hhead : only.message.headLen = 20 := List.head_eq_of_cons_eq hheads
  have hunforged : Unforgeable greetingAead h.sealed := by
    rw [honly]
    refine ⟨?_, ?_⟩
    · intro sent nonce aad cipher mac plain hsent hopen
      refine ⟨only, List.mem_singleton_self _, by rw [List.mem_singleton.1 hsent], ?_⟩
      simp only [greetingAead, Option.ite_none_right_eq_some] at hopen
      obtain ⟨⟨-, rfl, rfl, rfl⟩, -⟩ := hopen
      exact hbody
    · intro first hfirst second hsecond _ _
      rw [List.mem_singleton.1 hfirst, List.mem_singleton.1 hsecond]
  obtain ⟨halong, -, -, htampered⟩ := seal_discipline greetingAead_lawful hconforms
  refine ⟨congrArg List.length honly, halong, ?_⟩
  intro sent hsent rx hkey
  have hsame : sent = only := List.mem_singleton.1 (honly ▸ hsent)
  refine htampered hunforged sent hsent 0 (by rw [hsame, hhead]; decide) 9 ?_ rx hkey 6
  rw [hsame, hbody]
  decide

/-- Sealing the greeting with a cipher that does not fail uses up one counter. -/
theorem greets_spends {cipher : CipherCall}
    (hnever : ∀ key nonce aad plain, (cipher.encrypt key nonce aad plain).done = true) {h : Halves}
    (hlive : h.tx.live = true) :
    let h' := h.step (greets cipher)
    h'.tx = { h.tx with counter := h.tx.counter + 1 } ∧ h'.drawn = h.drawn ∧
      h'.derived = h.derived ∧ h'.sealed.map SealedMessage.pair =
        h.sealed.map SealedMessage.pair ++ [(h.tx.key, h.tx.counter)] := by
  have hstages : h.tx.Stages (.chunk greeting) (List.replicate 42 (0 : UInt8)).length :=
    ⟨hlive, by decide, by decide⟩
  obtain ⟨head, plain, -, -, -, hinto⟩ := encodeInto_staged hstages
  rw [if_pos (hnever ..)] at hinto
  simp only [greets, step, hinto, if_true, List.map_append]
  exact ⟨trivial, trivial, trivial, rfl⟩

/-- Any number of greetings uses up that many counters. -/
theorem greets_run {cipher : CipherCall}
    (hnever : ∀ key nonce aad plain, (cipher.encrypt key nonce aad plain).done = true) {h : Halves}
    (hlive : h.tx.live = true) (count : Nat) :
    let h' := run Halves.step h (List.replicate count (greets cipher))
    h'.tx = { h.tx with counter := h.tx.counter + UInt64.ofNat count } ∧ h'.drawn = h.drawn ∧
      h'.derived = h.derived ∧ h'.sealed.map SealedMessage.pair =
        h.sealed.map SealedMessage.pair ++
          (List.range count).map fun index ↦ (h.tx.key, h.tx.counter + UInt64.ofNat index) := by
  induction count with
  | zero =>
      refine ⟨?_, rfl, rfl, by simp⟩
      show h.tx = { h.tx with counter := h.tx.counter + 0 }
      rw [UInt64.add_zero]
  | succ count ih =>
      rw [List.replicate_succ', run_append]
      obtain ⟨htx, hdrawn, hderived, hpairs⟩ := ih
      generalize run Halves.step h (List.replicate count (greets cipher)) = before at *
      obtain ⟨htx', hdrawn', hderived', hpairs'⟩ :=
        greets_spends hnever (h := before) (by rw [htx]; exact hlive)
      refine ⟨?_, hdrawn'.trans hdrawn, hderived'.trans hderived, ?_⟩
      · show (before.step (greets cipher)).tx = _
        rw [htx', htx, UInt64.ofNat_add, ← UInt64.add_assoc]
        rfl
      · show (before.step (greets cipher)).sealed.map SealedMessage.pair = _
        rw [hpairs', hpairs, htx, List.range_succ, List.map_append, List.append_assoc]
        rfl

/-- Whatever the cipher, as long as it does not fail, a key that seals more messages than the
counter has values seals two with one counter, though the entropy is fresh. -/
theorem counters_come_round {cipher : CipherCall}
    (hnever : ∀ key nonce aad plain, (cipher.encrypt key nonce aad plain).done = true) :
    let h := run Halves.step init (opening ++ List.replicate (2 ^ 64 + 1) (greets cipher))
    h.Fresh ∧ ¬ (h.sealed.map SealedMessage.pair).Nodup := by
  have hlive : (run Halves.step init opening).tx.live = true := by decide
  have hdrew : (run Halves.step init opening).drawn.length = 1 := by decide
  have hkeys : (run Halves.step init opening).derived.length = 1 := by decide
  generalize hcount : 2 ^ 64 + 1 = count
  obtain ⟨-, hdrawn, hderived, hpairs⟩ := greets_run hnever hlive count
  rw [run_append]
  generalize run Halves.step (run Halves.step init opening)
    (List.replicate count (greets cipher)) = h at hdrawn hderived hpairs ⊢
  refine ⟨⟨?_, ?_⟩, ?_⟩
  · obtain ⟨nonce, hnonce⟩ := List.length_eq_one_iff.1 hdrew
    rw [hdrawn, hnonce]
    exact List.nodup_singleton nonce
  · obtain ⟨entry, hentry⟩ := List.length_eq_one_iff.1 hkeys
    rw [hderived, hentry]
    intro first hfirst second hsecond _
    rw [List.mem_singleton.1 hfirst, List.mem_singleton.1 hsecond]
  · intro hnodup
    rw [hpairs] at hnodup
    have hwraps : UInt64.ofNat 0 = UInt64.ofNat (2 ^ 64) := by decide
    have hsame := List.inj_on_of_nodup_map hnodup.of_append_right
      (List.mem_range.2 (show 0 < count by omega))
      (List.mem_range.2 (show 2 ^ 64 < count by omega)) (by rw [hwraps])
    exact absurd hsame (by norm_num)

/-- A cipher that leaves everything as it is. -/
def plainCall : CipherCall where
  encrypt _ _ _ plain := { left := plain, tag := List.replicate sealTagSize 0, done := true }
  left_length _ _ _ _ := rfl
  tag_length _ _ _ _ := List.length_replicate

/-- So it is for a cipher that never fails. -/
theorem counter_comes_round :
    (run Halves.step init (opening ++ List.replicate (2 ^ 64 + 1) (greets plainCall))).Fresh ∧
      ¬ ((run Halves.step init (opening ++
        List.replicate (2 ^ 64 + 1) (greets plainCall))).sealed.map SealedMessage.pair).Nodup :=
  counters_come_round fun _ _ _ _ ↦ rfl

end Halves

end DeskhopPlus.Seal
