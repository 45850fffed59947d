import DeskhopPlus.Auth.Tag
import DeskhopPlus.Crypto.P256
import DeskhopPlus.Wire.Clip

/-!
# The seal exchange

Both halves of `dh_seal.c` up to the moment they hold a key: the sender offers, the receiver answers
with an accept, and each derives the seal key from its own ephemeral private half and the other's
message. `offer` and `accept` are the calls the helpers make; both repeat what they said before
when they still remember it, and draw fresh material when they do not.
-/

namespace DeskhopPlus.Seal

open Auth Crypto Wire

/-- `DH_SEAL_KEY_SIZE`. -/
def sealKeySize : Nat := 32

/-- `DH_SEAL_ID_SIZE`. -/
def sealIdSize : Nat := 4

/-- `DH_SEAL_EXCHANGE_LEN`. -/
def exchangeLen : Nat := sealIdSize + nonceSize + publicSize

/-- `seal_info`. -/
def sealInfo : List UInt8 := infoBytes "deskhopplus/2 seal"

/-- The results of `dh_seal_result` other than `DH_SEAL_OK`. -/
inductive SealFault where
  | malformed
  | unknownId
  | auth
  | buffer
  | noSeal
  | key
  deriving DecidableEq, Repr

/-- `dh_seal_tx`. -/
structure SealTx where
  offer : List UInt8
  offered : Bool
  live : Bool
  sealId : UInt32
  nonce : List UInt8
  ephPrivate : List UInt8
  key : List UInt8
  counter : UInt64
  deriving DecidableEq, Repr

/-- `dh_seal_rx`. -/
structure SealRx where
  offer : List UInt8
  accept : List UInt8
  live : Bool
  sealId : UInt32
  key : List UInt8
  deriving DecidableEq, Repr

/-- `dh_seal_tx_init`. -/
def SealTx.init : SealTx where
  offer := List.replicate exchangeLen 0
  offered := false
  live := false
  sealId := 0
  nonce := List.replicate nonceSize 0
  ephPrivate := List.replicate privateSize 0
  key := List.replicate sealKeySize 0
  counter := 0

/-- `dh_seal_rx_init`. -/
def SealRx.init : SealRx where
  offer := List.replicate exchangeLen 0
  accept := List.replicate exchangeLen 0
  live := false
  sealId := 0
  key := List.replicate sealKeySize 0

/-- The body of an offer or an accept, before it is cut to the output. -/
def exchangeBody (sealId : UInt32) (nonce publicKey : List UInt8) : List UInt8 :=
  put32 sealId ++ nonce ++ publicKey

/-- `encode_exchange`. -/
def encodeExchange (sealId : UInt32) (nonce publicKey : List UInt8) (cap : Nat) :
    Option (List UInt8) :=
  if cap < exchangeLen then none else some (exchangeBody sealId nonce publicKey)

/-- The nonce in the body of an offer or an accept. -/
def exchangeNonce (body : List UInt8) : List UInt8 := (body.drop sealIdSize).take nonceSize

/-- The public key in the body of an offer or an accept. -/
def exchangePublic (body : List UInt8) : List UInt8 :=
  (body.drop (sealIdSize + nonceSize)).take publicSize

/-! ## Reading the body back -/

section Body

variable {sealId : UInt32} {nonce publicKey : List UInt8}

@[simp] theorem get32_exchangeBody : get32 (exchangeBody sealId nonce publicKey) = sealId := by
  rw [exchangeBody, List.append_assoc]
  exact get32_put32 _ _

theorem exchangeNonce_body (h : nonce.length = nonceSize) :
    exchangeNonce (exchangeBody sealId nonce publicKey) = nonce := by
  have hid : (put32 sealId).length = sealIdSize := put32_length _
  rw [exchangeNonce, exchangeBody, List.append_assoc, drop_append_eq hid,
    List.take_append_of_le_length h.ge, ← h, List.take_length]

theorem exchangePublic_body (h : nonce.length = nonceSize)
    (hpublic : publicKey.length = publicSize) :
    exchangePublic (exchangeBody sealId nonce publicKey) = publicKey := by
  rw [exchangePublic, exchangeBody, drop_append_eq (by simp [sealIdSize, h]), ← hpublic,
    List.take_length]

end Body

section Curve

variable (curve : P256)

/-- `derive`. -/
def derive (ephPrivate peerPublic nonceOffer nonceAccept : List UInt8) : Option (List UInt8) :=
  match curve.ecdh ephPrivate peerPublic with
  | none => none
  | some shared => some (hkdfSha256 shared (nonceOffer ++ nonceAccept) sealInfo sealKeySize)

/-- `dh_seal_tx_offer`: the new sender half and the body it offers. -/
def txOffer (sealId : UInt32) (ephPrivate nonce : List UInt8) (cap : Nat) :
    Except SealFault (SealTx × List UInt8) :=
  match curve.publicFromPrivate ephPrivate with
  | none => .error .key
  | some publicKey =>
      match encodeExchange sealId nonce publicKey cap with
      | none => .error .buffer
      | some body =>
          .ok ({ SealTx.init with
            offer := body, offered := true, sealId := sealId, nonce := nonce,
            ephPrivate := ephPrivate }, body)

/-- `dh_seal_tx_accepted`. -/
def SealTx.accepted (tx : SealTx) (body : List UInt8) : Except SealFault SealTx :=
  if body.length ≠ exchangeLen then .error .malformed
  else if tx.offered = false then .error .noSeal
  else if get32 body ≠ tx.sealId then .error .unknownId
  else
    match derive curve tx.ephPrivate (exchangePublic body) tx.nonce (exchangeNonce body) with
    | none => .error .key
    | some key =>
        .ok { tx with
          key := key, ephPrivate := List.replicate privateSize 0, offered := false, live := true,
          counter := 0 }

/-- `dh_seal_rx_offered`: the new receiver half and the body it accepts with. -/
def rxOffered (body ephPrivate nonce : List UInt8) (cap : Nat) :
    Except SealFault (SealRx × List UInt8) :=
  if body.length ≠ exchangeLen then .error .malformed
  else
    match curve.publicFromPrivate ephPrivate with
    | none => .error .key
    | some publicKey =>
        match derive curve ephPrivate (exchangePublic body) (exchangeNonce body) nonce with
        | none => .error .key
        | some key =>
            match encodeExchange (get32 body) nonce publicKey cap with
            | none => .error .buffer
            | some answer =>
                .ok ({ offer := body, accept := answer, live := true, sealId := get32 body,
                       key := key }, answer)

/-- `entropy->draw`. The platform fills every byte asked for or fails; `draws` are its results to
come, and one of another length is a failure. -/
def draw (draws : List (List UInt8)) (len : Nat) : Option (List UInt8 × List (List UInt8)) :=
  match draws with
  | [] => none
  | bytes :: rest => if bytes.length = len then some (bytes, rest) else none

/-- The loop over private keys that `offer` and `accept` share. It goes on while the drawn scalar
is refused. -/
def drawPrivate {α : Type} (use : List UInt8 → Except SealFault α) :
    Nat → List (List UInt8) → Except SealFault α
  | 0, _ => .error .key
  | attempts + 1, draws =>
      match draw draws privateSize with
      | none => .error .key
      | some (ephPrivate, rest) =>
          match use ephPrivate with
          | .error .key => drawPrivate use attempts rest
          | result => result

/-- The private keys one call tries at most. -/
def drawAttempts : Nat := 8

/-- `dh_seal_offer`: the sender half afterwards and the body to send. -/
def SealTx.makeOffer (tx : SealTx) (draws : List (List UInt8)) (cap : Nat) :
    Except SealFault (SealTx × List UInt8) :=
  if cap < exchangeLen then .error .buffer
  else if tx.offered then .ok (tx, tx.offer)
  else
    match draw draws sealIdSize with
    | none => .error .key
    | some (id, draws) =>
        match draw draws nonceSize with
        | none => .error .key
        | some (nonce, draws) =>
            drawPrivate (fun ephPrivate ↦ txOffer curve (get32 id) ephPrivate nonce cap)
              drawAttempts draws

/-- The receiver still holds its answer to an offer of these very bytes. -/
def SealRx.Remembers (rx : SealRx) (body : List UInt8) : Prop := rx.live = true ∧ rx.offer = body

instance (rx : SealRx) (body : List UInt8) : Decidable (rx.Remembers body) :=
  inferInstanceAs (Decidable (_ ∧ _))

/-- `dh_seal_accept`: the receiver half afterwards and the body to send. -/
def SealRx.answer (rx : SealRx) (draws : List (List UInt8)) (body : List UInt8) (cap : Nat) :
    Except SealFault (SealRx × List UInt8) :=
  if body.length ≠ exchangeLen then .error .malformed
  else if cap < exchangeLen then .error .buffer
  else if rx.Remembers body then .ok (rx, rx.accept)
  else
    match draw draws nonceSize with
    | none => .error .key
    | some (nonce, draws) =>
        drawPrivate (fun ephPrivate ↦ rxOffered curve body ephPrivate nonce cap)
          drawAttempts draws

end Curve

/-- `dh_seal_tx_stale`. -/
def SealTx.stale (tx : SealTx) (sealId : UInt32) : SealTx :=
  if (tx.live = false ∧ tx.offered = false) ∨ tx.sealId ≠ sealId then tx else SealTx.init

/-! ## What the calls do -/

section Spec

variable {curve : P256} {tx tx' : SealTx} {rx rx' : SealRx} {body answer : List UInt8}
  {draws : List (List UInt8)} {cap : Nat}

/-- A success of the loop is the success of one of the scalars drawn. -/
theorem drawPrivate_ok {α : Type} {use : List UInt8 → Except SealFault α} {result : α} :
    ∀ {attempts draws}, drawPrivate use attempts draws = .ok result →
      ∃ ephPrivate, use ephPrivate = .ok result := by
  intro attempts
  induction attempts with
  | zero => intro draws h; cases h
  | succ attempts ih =>
      intro draws h
      rw [drawPrivate] at h
      split at h
      · cases h
      · rename_i ephPrivate rest _
        split at h
        · exact ih h
        · exact ⟨ephPrivate, h⟩

theorem draw_length {len : Nat} {bytes : List UInt8} {rest : List (List UInt8)}
    (h : draw draws len = some (bytes, rest)) : bytes.length = len := by
  unfold draw at h
  split at h
  · cases h
  · split at h
    · cases h
      assumption
    · cases h

theorem encodeExchange_some {sealId : UInt32} {nonce publicKey : List UInt8}
    (h : encodeExchange sealId nonce publicKey cap = some body) :
    body = exchangeBody sealId nonce publicKey := by
  unfold encodeExchange at h
  split at h
  · cases h
  · cases h
    rfl

theorem txOffer_id {sealId : UInt32} {ephPrivate nonce : List UInt8}
    (h : txOffer curve sealId ephPrivate nonce cap = .ok (tx, body)) : get32 body = sealId := by
  unfold txOffer at h
  split at h
  · cases h
  · split at h
    · cases h
    · rename_i hencode
      cases h
      rw [encodeExchange_some hencode, get32_exchangeBody]

/-- A sender half that has an offer out: the offer names its id, its nonce and the public half of
its private key. -/
structure SealTx.Offering (curve : P256) (tx : SealTx) : Prop where
  offered : tx.offered = true
  idle : tx.live = false
  body : ∃ publicKey, curve.publicFromPrivate tx.ephPrivate = some publicKey ∧
    tx.offer = exchangeBody tx.sealId tx.nonce publicKey
  nonce_length : tx.nonce.length = nonceSize

/-- An offer is a repeat, or a fresh one. -/
theorem makeOffer_ok (h : tx.makeOffer curve draws cap = .ok (tx', body)) :
    (tx.offered = true ∧ tx' = tx ∧ body = tx.offer) ∨
      (tx.offered = false ∧ tx'.Offering curve ∧ body = tx'.offer) := by
  unfold SealTx.makeOffer at h
  split at h
  · cases h
  · split at h
    · rename_i hoffered
      cases h
      exact .inl ⟨hoffered, rfl, rfl⟩
    · rename_i hoffered
      split at h
      · cases h
      · split at h
        · cases h
        · rename_i nonce rest hnonce
          obtain ⟨ephPrivate, huse⟩ := drawPrivate_ok h
          unfold txOffer at huse
          split at huse
          · cases huse
          · rename_i publicKey hpublic
            split at huse
            · cases huse
            · rename_i encoded hencode
              cases huse
              refine .inr ⟨by simpa using hoffered, ⟨rfl, rfl, ⟨publicKey, hpublic, ?_⟩,
                draw_length hnonce⟩, rfl⟩
              exact encodeExchange_some hencode

/-- A fresh offer names the id drawn for it. -/
theorem makeOffer_fresh_id (h : tx.makeOffer curve draws cap = .ok (tx', body))
    (hidle : tx.offered = false) : get32 body = get32 (draws.headD []) := by
  unfold SealTx.makeOffer at h
  rw [hidle] at h
  split at h
  · cases h
  · rw [if_neg (by simp)] at h
    split at h
    · cases h
    · rename_i id rest hid
      split at h
      · cases h
      · obtain ⟨ephPrivate, huse⟩ := drawPrivate_ok h
        unfold draw at hid
        split at hid
        · cases hid
        · split at hid
          · cases hid
            exact txOffer_id huse
          · cases hid

/-- A fresh answer: the receiver half holds the offer it answers, the accept that names the public
half of a private key of its own, and the key these give. -/
structure SealRx.Answers (curve : P256) (rx : SealRx) (body : List UInt8) : Prop where
  live : rx.live = true
  offer : rx.offer = body
  offer_length : body.length = exchangeLen
  sealId : rx.sealId = get32 body
  accept : ∃ ephPrivate publicKey nonce, curve.publicFromPrivate ephPrivate = some publicKey ∧
    nonce.length = nonceSize ∧ rx.accept = exchangeBody (get32 body) nonce publicKey ∧
    derive curve ephPrivate (exchangePublic body) (exchangeNonce body) nonce = some rx.key

/-- An answer is a repeat, or a fresh one. -/
theorem answer_ok (h : rx.answer curve draws body cap = .ok (rx', answer)) :
    (rx.Remembers body ∧ rx' = rx ∧ answer = rx.accept) ∨
      (¬ rx.Remembers body ∧ rx'.Answers curve body ∧ answer = rx'.accept) := by
  unfold SealRx.answer at h
  split at h
  · cases h
  · rename_i hlength
    split at h
    · cases h
    · split at h
      · rename_i hremembers
        cases h
        exact .inl ⟨hremembers, rfl, rfl⟩
      · rename_i hforgot
        split at h
        · cases h
        · rename_i nonce rest hnonce
          obtain ⟨ephPrivate, huse⟩ := drawPrivate_ok h
          unfold rxOffered at huse
          rw [if_neg hlength] at huse
          split at huse
          · cases huse
          · rename_i publicKey hpublic
            split at huse
            · cases huse
            · rename_i key hkey
              split at huse
              · cases huse
              · rename_i encoded hencode
                cases huse
                refine .inr ⟨hforgot, ⟨rfl, rfl, not_not.1 hlength, rfl, ephPrivate, publicKey,
                  nonce, hpublic, draw_length hnonce, ?_, hkey⟩, rfl⟩
                exact encodeExchange_some hencode

/-- An accept that is taken names the id offered, and gives the key. -/
theorem accepted_ok (h : tx.accepted curve body = .ok tx') :
    tx.offered = true ∧ get32 body = tx.sealId ∧ tx'.live = true ∧ tx'.offered = false ∧
      tx'.sealId = tx.sealId ∧ tx'.offer = tx.offer ∧
      derive curve tx.ephPrivate (exchangePublic body) tx.nonce (exchangeNonce body) =
        some tx'.key := by
  unfold SealTx.accepted at h
  split at h
  · cases h
  · split at h
    · cases h
    · rename_i hoffered
      split at h
      · cases h
      · rename_i hid
        split at h
        · cases h
        · rename_i key hkey
          cases h
          exact ⟨by simpa using hoffered, not_not.1 hid, rfl, rfl, rfl, rfl, hkey⟩

end Spec

end DeskhopPlus.Seal
