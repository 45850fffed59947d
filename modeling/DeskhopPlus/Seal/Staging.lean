import DeskhopPlus.Seal.Payload

/-!
# The seal's calls and the caller's buffer

The calls of `dh_seal.c` with all that they leave behind: the state, the result, `*out_len` and the
output buffer, in which a message is staged in clear and sealed in place. The curve and the cipher
are what one call finds of them, so any of them may fail at any call. Each call is shown to do what
its counterpart in `Exchange` and `Payload` does, and to leave everything alone when that one fails.
-/

namespace DeskhopPlus.Seal

open Auth Crypto Wire Bytes

/-- The curve as one call finds it. A public half fills its array. -/
structure CurveCall extends P256 where
  public_length : ∀ {secret shown}, publicFromPrivate secret = some shown →
    shown.length = publicSize

/-- What one use of the cipher leaves in the plaintext's place and in the tag's, and whether it
succeeded. -/
structure CipherResult where
  left : List UInt8
  tag : List UInt8
  done : Bool

/-- `dh_seal_aead` as one call finds it. It writes where it is told to and nowhere else. -/
structure CipherCall where
  encrypt : (key nonce aad plain : List UInt8) → CipherResult
  left_length : ∀ key nonce aad plain, (encrypt key nonce aad plain).left.length = plain.length
  tag_length : ∀ key nonce aad plain, (encrypt key nonce aad plain).tag.length = sealTagSize

/-- What the cipher makes of a message when it does not fail. -/
def CipherCall.Conforms (cipher : CipherCall) (aead : Aead) : Prop :=
  ∀ key nonce aad plain, (cipher.encrypt key nonce aad plain).done = true →
    aead.encrypt key nonce aad plain = some
      ((cipher.encrypt key nonce aad plain).left, (cipher.encrypt key nonce aad plain).tag)

/-- What a call leaves its caller: the result (`none` is `DH_SEAL_OK`), `*out_len` and the output
buffer. -/
structure Report where
  fault : Option SealFault
  outLen : Nat
  out : List UInt8
  deriving DecidableEq, Repr

/-- What the caller goes on to send. -/
def Report.body (report : Report) : List UInt8 := report.out.take report.outLen

/-! ## The exchange -/

/-- `derive`: the key buffer afterwards, and whether there is a key in it. -/
def deriveInto (curve : P256) (ephPrivate peerPublic nonceOffer nonceAccept key : List UInt8) :
    List UInt8 × Bool :=
  match curve.ecdh ephPrivate peerPublic with
  | none => (key, false)
  | some shared => (hkdfSha256 shared (nonceOffer ++ nonceAccept) sealInfo sealKeySize, true)

section Exchange

variable (curve : P256)

/-- `dh_seal_tx_offer`. `report` holds the caller's buffer and length. -/
def SealTx.offerInto (tx : SealTx) (sealId : UInt32) (ephPrivate nonce : List UInt8)
    (report : Report) : SealTx × Report :=
  match curve.publicFromPrivate ephPrivate with
  | none => (tx, { report with fault := some .key })
  | some publicKey =>
      match encodeExchange sealId nonce publicKey report.out.length with
      | none => (tx, { report with fault := some .buffer })
      | some body =>
          ({ SealTx.init with
             offer := body, offered := true, sealId := sealId, nonce := nonce,
             ephPrivate := ephPrivate },
           { fault := none, outLen := exchangeLen, out := overwrite report.out 0 body })

/-- `dh_seal_tx_accepted`. The key is derived into the state itself. -/
def SealTx.acceptedInto (tx : SealTx) (body : List UInt8) : SealTx × Option SealFault :=
  if body.length ≠ exchangeLen then (tx, some .malformed)
  else if tx.offered = false then (tx, some .noSeal)
  else if get32 body ≠ tx.sealId then (tx, some .unknownId)
  else
    match deriveInto curve tx.ephPrivate (exchangePublic body) tx.nonce (exchangeNonce body)
      tx.key with
    | (key, false) => ({ tx with key := key }, some .key)
    | (key, true) =>
        ({ tx with
           key := key, ephPrivate := List.replicate privateSize 0, offered := false, live := true,
           counter := 0 }, none)

/-- `dh_seal_rx_offered`. -/
def SealRx.offeredInto (rx : SealRx) (body ephPrivate nonce : List UInt8) (report : Report) :
    SealRx × Report :=
  if body.length ≠ exchangeLen then (rx, { report with fault := some .malformed })
  else
    match curve.publicFromPrivate ephPrivate with
    | none => (rx, { report with fault := some .key })
    | some publicKey =>
        match derive curve ephPrivate (exchangePublic body) (exchangeNonce body) nonce with
        | none => (rx, { report with fault := some .key })
        | some key =>
            match encodeExchange (get32 body) nonce publicKey report.out.length with
            | none => (rx, { report with fault := some .buffer })
            | some answer =>
                ({ offer := body, accept := answer, live := true, sealId := get32 body,
                   key := key },
                 { fault := none, outLen := exchangeLen, out := overwrite report.out 0 answer })

/-- The loop over private keys that `dh_seal_offer` and `dh_seal_accept` share. -/
def drawUntil {σ : Type} (use : List UInt8 → σ → Report → σ × Report) :
    Nat → List (List UInt8) → σ → Report → σ × Report
  | 0, _, s, report => (s, { report with fault := some .key })
  | attempts + 1, draws, s, report =>
      match draw draws privateSize with
      | none => (s, { report with fault := some .key })
      | some (ephPrivate, rest) =>
          let tried := use ephPrivate s report
          if tried.2.fault = some .key then drawUntil use attempts rest tried.1 tried.2 else tried

/-- `dh_seal_offer`. -/
def SealTx.makeOfferInto (tx : SealTx) (draws : List (List UInt8)) (out : List UInt8) :
    SealTx × Report :=
  if out.length < exchangeLen then (tx, { fault := some .buffer, outLen := 0, out := out })
  else if tx.offered then
    (tx, { fault := none, outLen := exchangeLen, out := overwrite out 0 tx.offer })
  else
    match draw draws sealIdSize with
    | none => (tx, { fault := some .key, outLen := 0, out := out })
    | some (id, draws) =>
        match draw draws nonceSize with
        | none => (tx, { fault := some .key, outLen := 0, out := out })
        | some (nonce, draws) =>
            drawUntil (fun ephPrivate tx ↦ tx.offerInto curve (get32 id) ephPrivate nonce)
              drawAttempts draws tx { fault := none, outLen := 0, out := out }

/-- `dh_seal_accept`: the receiver half, the report and `*fresh`. -/
def SealRx.answerInto (rx : SealRx) (draws : List (List UInt8)) (body out : List UInt8) :
    SealRx × Report × Bool :=
  if body.length ≠ exchangeLen then
    (rx, { fault := some .malformed, outLen := 0, out := out }, false)
  else if out.length < exchangeLen then
    (rx, { fault := some .buffer, outLen := 0, out := out }, false)
  else if rx.Remembers body then
    (rx, { fault := none, outLen := exchangeLen, out := overwrite out 0 rx.accept }, false)
  else
    match draw draws nonceSize with
    | none => (rx, { fault := some .key, outLen := 0, out := out }, false)
    | some (nonce, draws) =>
        let tried := drawUntil (fun ephPrivate rx ↦ rx.offeredInto curve body ephPrivate nonce)
          drawAttempts draws rx { fault := none, outLen := 0, out := out }
        (tried.1, tried.2, tried.2.fault = none)

end Exchange

/-! ## Sealing in place -/

/-- `seal_staged`. The head and the plaintext behind it stand in `out`. -/
def SealTx.sealStagedInto (tx : SealTx) (cipher : CipherCall) (out : List UInt8)
    (headLen plainLen : Nat) : SealTx × Report :=
  let made := cipher.encrypt tx.key (sealNonce tx.counter) (out.take headLen)
    ((out.drop headLen).take plainLen)
  let sealed := overwrite (overwrite out headLen made.left) (headLen + plainLen) made.tag
  if made.done then
    ({ tx with counter := tx.counter + 1 },
     { fault := none, outLen := headLen + plainLen + sealTagSize, out := sealed })
  else
    (tx, { fault := some .auth, outLen := 0,
           out := overwrite sealed headLen (List.replicate plainLen 0) })

/-- The encoder both messages share, as in `SealTx.encodeSealed`. -/
def SealTx.encodeSealedInto (tx : SealTx) (cipher : CipherCall) (bodyLen headLen : Nat)
    (head : Nat → Option (List UInt8)) (plain : Nat → Option (List UInt8)) (out : List UInt8) :
    SealTx × Report :=
  if tx.live = false then (tx, { fault := some .noSeal, outLen := 0, out := out })
  else if out.length < bodyLen ∨ sealBodyMax < bodyLen then
    (tx, { fault := some .buffer, outLen := 0, out := out })
  else
    match head out.length with
    | none => (tx, { fault := some .buffer, outLen := 0, out := out })
    | some headBytes =>
        match plain (out.length - headLen) with
        | none => (tx, { fault := some .buffer, outLen := 0, out := overwrite out 0 headBytes })
        | some plainBytes =>
            tx.sealStagedInto cipher (overwrite (overwrite out 0 headBytes) headLen plainBytes)
              headLen plainBytes.length

/-- `dh_seal_encode_offer`. -/
def SealTx.encodeOfferInto (tx : SealTx) (cipher : CipherCall) (offer : ClipOffer)
    (out : List UInt8) : SealTx × Report :=
  tx.encodeSealedInto cipher (offerOverhead + offer.metadata.length) offerHeadLen
    (ClipOfferHead.encode { id := offer.id, sealId := tx.sealId, sealCounter := tx.counter })
    offer.encodePlain out

/-- `dh_seal_encode_chunk`. -/
def SealTx.encodeChunkInto (tx : SealTx) (cipher : CipherCall) (chunk : ClipChunk)
    (out : List UInt8) : SealTx × Report :=
  tx.encodeSealedInto cipher (chunkOverhead + chunk.data.length) chunkHeadLen
    (ClipChunkHead.encode
      { id := chunk.id, seq := chunk.seq, sealId := tx.sealId, sealCounter := tx.counter })
    chunk.encodePlain out

/-- What is sealed: an offer or a chunk. -/
inductive Message where
  | offer (fields : ClipOffer)
  | chunk (fields : ClipChunk)

namespace Message

/-- The bytes that stay in clear. -/
def headLen : Message → Nat
  | .offer _ => offerHeadLen
  | .chunk _ => chunkHeadLen

/-- The bytes that are sealed. -/
def plainLen : Message → Nat
  | .offer fields => offerPlainFixed + fields.metadata.length
  | .chunk fields => chunkPlainFixed + fields.data.length

/-- The bytes of the whole body. -/
def bodyLen (message : Message) : Nat := message.headLen + message.plainLen + sealTagSize

end Message

/-- The encoder of a message. -/
def SealTx.encodeInto (tx : SealTx) (cipher : CipherCall) (message : Message) (out : List UInt8) :
    SealTx × Report :=
  match message with
  | .offer fields => tx.encodeOfferInto cipher fields out
  | .chunk fields => tx.encodeChunkInto cipher fields out

/-- The encoder gets as far as staging the message: there is a key, and the body fits. -/
def SealTx.Stages (tx : SealTx) (message : Message) (cap : Nat) : Prop :=
  tx.live = true ∧ message.bodyLen ≤ cap ∧ message.bodyLen ≤ sealBodyMax

instance (tx : SealTx) (message : Message) (cap : Nat) : Decidable (tx.Stages message cap) :=
  inferInstanceAs (Decidable (_ ∧ _))

/-! ## What the exchange does -/

section Specs

variable {curve : P256} {tx : SealTx} {rx : SealRx} {draws : List (List UInt8)}
  {body out : List UInt8}

/-- What a call of a half leaves, read off the call that says what the half becomes. -/
def settled {σ : Type} (s : σ) (report : Report) : Except SealFault (σ × List UInt8) → σ × Report
  | .error fault => (s, { report with fault := some fault })
  | .ok (s', body) =>
      (s', { fault := none, outLen := exchangeLen, out := overwrite report.out 0 body })

theorem offerInto_eq (sealId : UInt32) (ephPrivate nonce : List UInt8) (report : Report) :
    tx.offerInto curve sealId ephPrivate nonce report =
      settled tx report (txOffer curve sealId ephPrivate nonce report.out.length) := by
  unfold SealTx.offerInto txOffer
  cases curve.publicFromPrivate ephPrivate with
  | none => rfl
  | some publicKey =>
      dsimp only
      cases encodeExchange sealId nonce publicKey report.out.length <;> rfl

theorem offeredInto_eq (ephPrivate nonce : List UInt8) (report : Report) :
    rx.offeredInto curve body ephPrivate nonce report =
      settled rx report (rxOffered curve body ephPrivate nonce report.out.length) := by
  unfold SealRx.offeredInto rxOffered
  by_cases hlength : body.length = exchangeLen
  · rw [if_neg (not_not.2 hlength), if_neg (not_not.2 hlength)]
    cases curve.publicFromPrivate ephPrivate with
    | none => rfl
    | some publicKey =>
        dsimp only
        cases derive curve ephPrivate (exchangePublic body) (exchangeNonce body) nonce with
        | none => rfl
        | some key =>
            dsimp only
            cases encodeExchange (get32 body) nonce publicKey report.out.length <;> rfl
  · rw [if_pos hlength, if_pos hlength]
    rfl

/-- The loop leaves what the last scalar tried leaves. -/
theorem drawUntil_eq {σ : Type} {s : σ} {use : List UInt8 → σ → Report → σ × Report}
    {useOf : List UInt8 → Except SealFault (σ × List UInt8)} {outLen : Nat}
    (huse : ∀ ephPrivate fault, use ephPrivate s ⟨fault, outLen, out⟩ =
      settled s ⟨fault, outLen, out⟩ (useOf ephPrivate)) :
    ∀ attempts draws fault, drawUntil use attempts draws s ⟨fault, outLen, out⟩ =
      settled s ⟨fault, outLen, out⟩ (drawPrivate useOf attempts draws) := by
  intro attempts
  induction attempts with
  | zero => intro draws fault; rfl
  | succ attempts ih =>
      intro draws fault
      rw [drawUntil, drawPrivate]
      cases draw draws privateSize with
      | none => rfl
      | some drawn =>
          obtain ⟨ephPrivate, rest⟩ := drawn
          dsimp only
          rw [huse]
          cases hof : useOf ephPrivate with
          | ok result => rfl
          | error refused =>
              cases refused with
              | key => exact ih rest _
              | _ => rfl

theorem makeOfferInto_eq :
    tx.makeOfferInto curve draws out =
      settled tx ⟨none, 0, out⟩ (tx.makeOffer curve draws out.length) := by
  unfold SealTx.makeOfferInto SealTx.makeOffer
  by_cases hcap : out.length < exchangeLen
  · rw [if_pos hcap, if_pos hcap]
    rfl
  rw [if_neg hcap, if_neg hcap]
  by_cases hoffered : tx.offered = true
  · rw [if_pos hoffered, if_pos hoffered]
    rfl
  rw [if_neg hoffered, if_neg hoffered]
  cases draw draws sealIdSize with
  | none => rfl
  | some id =>
      obtain ⟨id, rest⟩ := id
      cases hnonce : draw rest nonceSize with
      | none => simp only [hnonce]; rfl
      | some nonce =>
          simp only [hnonce]
          exact drawUntil_eq (fun _ _ ↦ offerInto_eq ..) _ _ _

theorem answerInto_eq :
    ((rx.answerInto curve draws body out).1, (rx.answerInto curve draws body out).2.1) =
      settled rx ⟨none, 0, out⟩ (rx.answer curve draws body out.length) := by
  unfold SealRx.answerInto SealRx.answer
  by_cases hlength : body.length = exchangeLen
  · rw [if_neg (not_not.2 hlength), if_neg (not_not.2 hlength)]
    by_cases hcap : out.length < exchangeLen
    · rw [if_pos hcap, if_pos hcap]
      rfl
    rw [if_neg hcap, if_neg hcap]
    by_cases hremembers : rx.Remembers body
    · rw [if_pos hremembers, if_pos hremembers]
      rfl
    rw [if_neg hremembers, if_neg hremembers]
    cases draw draws nonceSize with
    | none => rfl
    | some nonce => exact drawUntil_eq (fun _ _ ↦ offeredInto_eq ..) _ _ _
  · rw [if_pos hlength, if_pos hlength]
    rfl

/-- An answer is fresh when it was not remembered. -/
theorem answerInto_fresh :
    (rx.answerInto curve draws body out).2.2 = true ↔
      ¬ rx.Remembers body ∧ (rx.answerInto curve draws body out).2.1.fault = none := by
  unfold SealRx.answerInto
  split
  · simp
  · split
    · simp
    · split
      · simp [*]
      · split
        · simp
        · simp [*]

theorem acceptedInto_eq :
    tx.acceptedInto curve body =
      match tx.accepted curve body with
      | .error fault => (tx, some fault)
      | .ok tx' => (tx', none) := by
  unfold SealTx.acceptedInto SealTx.accepted deriveInto derive
  by_cases hlength : body.length = exchangeLen
  · rw [if_neg (not_not.2 hlength), if_neg (not_not.2 hlength)]
    by_cases hoffered : tx.offered = false
    · rw [if_pos hoffered, if_pos hoffered]
    rw [if_neg hoffered, if_neg hoffered]
    by_cases hid : get32 body = tx.sealId
    · rw [if_neg (not_not.2 hid), if_neg (not_not.2 hid)]
      cases curve.ecdh tx.ephPrivate (exchangePublic body) <;> rfl
    · rw [if_pos hid, if_pos hid]
  · rw [if_pos hlength, if_pos hlength]

end Specs

/-! ## What the encoders do -/

section Encoders

variable {tx tx' : SealTx} {cipher : CipherCall} {out : List UInt8}

/-- A copy over bytes of its own length replaces them. -/
theorem overwrite_middle {front old new rest : List UInt8} {offset : Nat}
    (hoffset : front.length = offset) (hlength : old.length = new.length) :
    overwrite (front ++ old ++ rest) offset new = front ++ new ++ rest := by
  subst hoffset
  have hfront : (front ++ old ++ rest).take front.length = front := by
    rw [List.append_assoc]
    exact List.take_left' rfl
  have hrest : (front ++ old ++ rest).drop (front.length + new.length) = rest :=
    drop_append_eq (by rw [List.length_append, hlength])
  rw [overwrite, hfront, hrest]

/-- The buffer once a message is staged in it. -/
theorem staged_eq {head plain : List UInt8} (hfits : head.length + plain.length ≤ out.length) :
    overwrite (overwrite out 0 head) head.length plain =
      head ++ plain ++ out.drop (head.length + plain.length) := by
  have hfirst : overwrite out 0 head =
      head ++ (out.drop head.length).take plain.length ++
        out.drop (head.length + plain.length) := by
    rw [overwrite, List.take_zero, List.nil_append, Nat.zero_add, List.append_assoc,
      ← List.drop_drop, List.take_append_drop]
  rw [hfirst]
  refine overwrite_middle rfl ?_
  rw [List.length_take, List.length_drop]
  omega

/-- What sealing in place leaves, of a message staged where it fits with its tag. -/
theorem sealStagedInto_eq {head plain rest : List UInt8} (htag : sealTagSize ≤ rest.length) :
    tx.sealStagedInto cipher (head ++ plain ++ rest) head.length plain.length =
      let made := cipher.encrypt tx.key (sealNonce tx.counter) head plain
      if made.done then
        ({ tx with counter := tx.counter + 1 },
         { fault := none, outLen := head.length + plain.length + sealTagSize,
           out := head ++ made.left ++ made.tag ++ rest.drop sealTagSize })
      else
        (tx, { fault := some .auth, outLen := 0,
               out := head ++ List.replicate plain.length 0 ++ made.tag ++
                 rest.drop sealTagSize }) := by
  have hhead : (head ++ plain ++ rest).take head.length = head := by
    rw [List.append_assoc, List.take_left']
    rfl
  have hplain : ((head ++ plain ++ rest).drop head.length).take plain.length = plain := by
    rw [List.append_assoc, drop_append_eq rfl, List.take_left']
    rfl
  have hleft := cipher.left_length tx.key (sealNonce tx.counter) head plain
  have hsize := cipher.tag_length tx.key (sealNonce tx.counter) head plain
  unfold SealTx.sealStagedInto
  rw [hhead, hplain]
  generalize cipher.encrypt tx.key (sealNonce tx.counter) head plain = made at *
  have hsealed : overwrite (overwrite (head ++ plain ++ rest) head.length made.left)
      (head.length + plain.length) made.tag =
        head ++ made.left ++ made.tag ++ rest.drop sealTagSize := by
    rw [overwrite_middle rfl hleft.symm]
    conv_lhs => rw [← List.take_append_drop sealTagSize rest, ← List.append_assoc]
    refine overwrite_middle ?_ ?_
    · rw [List.length_append, hleft]
    · rw [List.length_take, hsize, Nat.min_eq_left htag]
  have hwiped : overwrite (head ++ made.left ++ made.tag ++ rest.drop sealTagSize) head.length
      (List.replicate plain.length 0) =
        head ++ List.replicate plain.length 0 ++ made.tag ++ rest.drop sealTagSize := by
    rw [List.append_assoc (head ++ made.left), overwrite_middle rfl
      (by rw [List.length_replicate, hleft]), List.append_assoc (head ++ _)]
  simp only [hsealed, hwiped]

/-- The encoders do nothing unless they stage the message, and then they seal it in place. -/
theorem encodeSealedInto_eq {bodyLen headLen : Nat} {head plain : Nat → Option (List UInt8)}
    {headBytes plainBytes : List UInt8} (hlive : tx.live = true) (hcap : bodyLen ≤ out.length)
    (hmax : bodyLen ≤ sealBodyMax) (hhead : head out.length = some headBytes)
    (hlength : headBytes.length = headLen) (hplain : plain (out.length - headLen) = some plainBytes)
    (hbody : bodyLen = headLen + plainBytes.length + sealTagSize) :
    tx.encodeSealedInto cipher bodyLen headLen head plain out =
      let made := cipher.encrypt tx.key (sealNonce tx.counter) headBytes plainBytes
      if made.done then
        ({ tx with counter := tx.counter + 1 },
         { fault := none, outLen := bodyLen,
           out := headBytes ++ made.left ++ made.tag ++ out.drop bodyLen })
      else
        (tx, { fault := some .auth, outLen := 0,
               out := headBytes ++ List.replicate plainBytes.length 0 ++ made.tag ++
                 out.drop bodyLen }) := by
  subst hlength
  have hrest : sealTagSize ≤ (out.drop (headBytes.length + plainBytes.length)).length := by
    rw [List.length_drop]
    omega
  unfold SealTx.encodeSealedInto
  rw [if_neg (by simp [hlive]), if_neg (by omega), hhead]
  simp only [hplain]
  rw [staged_eq (by omega), sealStagedInto_eq hrest, List.drop_drop, ← hbody]

theorem encodeSealedInto_unstaged {bodyLen headLen : Nat}
    {head plain : Nat → Option (List UInt8)}
    (hno : ¬ (tx.live = true ∧ bodyLen ≤ out.length ∧ bodyLen ≤ sealBodyMax)) :
    ∃ fault, tx.encodeSealedInto cipher bodyLen headLen head plain out =
      (tx, { fault := some fault, outLen := 0, out := out }) := by
  unfold SealTx.encodeSealedInto
  by_cases hlive : tx.live = false
  · exact ⟨.noSeal, if_pos hlive⟩
  · rw [if_neg hlive, if_pos]
    · exact ⟨.buffer, rfl⟩
    · by_contra hfits
      exact hno ⟨by simpa using hlive, by omega, by omega⟩

/-- The encoder of a message, as `Payload` has it. -/
def SealTx.encode (aead : Aead) (tx : SealTx) (message : Message) (cap : Nat) :
    Except SealFault (SealTx × List UInt8) :=
  match message with
  | .offer fields => tx.encodeOffer aead fields cap
  | .chunk fields => tx.encodeChunk aead fields cap

theorem encodeInto_unstaged {message : Message} (hno : ¬ tx.Stages message out.length) :
    ∃ fault, tx.encodeInto cipher message out =
      (tx, { fault := some fault, outLen := 0, out := out }) := by
  cases message with
  | offer fields =>
      refine encodeSealedInto_unstaged fun hfits ↦ hno ?_
      simpa [SealTx.Stages, Message.bodyLen, Message.headLen, Message.plainLen, offerOverhead,
        Nat.add_assoc, Nat.add_comm, Nat.add_left_comm] using hfits
  | chunk fields =>
      refine encodeSealedInto_unstaged fun hfits ↦ hno ?_
      simpa [SealTx.Stages, Message.bodyLen, Message.headLen, Message.plainLen, chunkOverhead,
        Nat.add_assoc, Nat.add_comm, Nat.add_left_comm] using hfits

/-- A message that is staged is sealed in place, and the same bytes as in `Payload`. -/
theorem encodeInto_staged {message : Message} (hstages : tx.Stages message out.length) :
    ∃ head plain, head.length = message.headLen ∧ plain.length = message.plainLen ∧
      (∀ aead, tx.encode aead message out.length = tx.sealStaged aead head plain) ∧
      tx.encodeInto cipher message out =
        let made := cipher.encrypt tx.key (sealNonce tx.counter) head plain
        if made.done then
          ({ tx with counter := tx.counter + 1 },
           { fault := none, outLen := message.bodyLen,
             out := head ++ made.left ++ made.tag ++ out.drop message.bodyLen })
        else
          (tx, { fault := some .auth, outLen := 0,
                 out := head ++ List.replicate message.plainLen 0 ++ made.tag ++
                   out.drop message.bodyLen }) := by
  obtain ⟨hlive, hcap, hmax⟩ := hstages
  cases message with
  | offer fields =>
      have hbody : offerOverhead + fields.metadata.length = (Message.offer fields).bodyLen := by
        simp only [offerOverhead, Message.bodyLen, Message.headLen, Message.plainLen]
        omega
      obtain ⟨head, hhead⟩ : ∃ head, ClipOfferHead.encode
          { id := fields.id, sealId := tx.sealId, sealCounter := tx.counter } out.length =
            some head := by
        rw [ClipOfferHead.encode, if_neg]
        · exact ⟨_, rfl⟩
        · simp only [Message.bodyLen, Message.headLen] at hcap
          omega
      obtain ⟨plain, hplain⟩ : ∃ plain,
          fields.encodePlain (out.length - offerHeadLen) = some plain := by
        simp only [Message.bodyLen, Message.headLen, Message.plainLen, sealBodyMax] at hcap hmax
        rw [ClipOffer.encodePlain, if_neg]
        · exact ⟨_, rfl⟩
        · omega
      -- the cap and the bound on a body leave room for both parts, so neither encoder refuses
      have hlength := ClipOffer.encodePlain_length hplain
      refine ⟨head, plain, ClipOfferHead.encode_length hhead, hlength, ?_, ?_⟩
      · intro aead
        show tx.encodeSealed aead _ _ _ _ _ = _
        unfold SealTx.encodeSealed
        rw [if_neg (by simp [hlive]), if_neg (by omega), hhead]
        simp only [hplain]
      · show tx.encodeSealedInto cipher _ _ _ _ _ = _
        rw [hbody, encodeSealedInto_eq hlive hcap hmax hhead (ClipOfferHead.encode_length hhead)
          hplain (by rw [hlength]; rfl), hlength]
        rfl
  | chunk fields =>
      have hbody : chunkOverhead + fields.data.length = (Message.chunk fields).bodyLen := by
        simp only [chunkOverhead, Message.bodyLen, Message.headLen, Message.plainLen]
        omega
      obtain ⟨head, hhead⟩ : ∃ head, ClipChunkHead.encode
          { id := fields.id, seq := fields.seq, sealId := tx.sealId, sealCounter := tx.counter }
            out.length = some head := by
        rw [ClipChunkHead.encode, if_neg]
        · exact ⟨_, rfl⟩
        · simp only [Message.bodyLen, Message.headLen] at hcap
          omega
      obtain ⟨plain, hplain⟩ : ∃ plain,
          fields.encodePlain (out.length - chunkHeadLen) = some plain := by
        simp only [Message.bodyLen, Message.headLen, Message.plainLen, sealBodyMax] at hcap hmax
        rw [ClipChunk.encodePlain, if_neg]
        · exact ⟨_, rfl⟩
        · omega
      have hlength := ClipChunk.encodePlain_length hplain
      refine ⟨head, plain, ClipChunkHead.encode_length hhead, hlength, ?_, ?_⟩
      · intro aead
        show tx.encodeSealed aead _ _ _ _ _ = _
        unfold SealTx.encodeSealed
        rw [if_neg (by simp [hlive]), if_neg (by omega), hhead]
        simp only [hplain]
      · show tx.encodeSealedInto cipher _ _ _ _ _ = _
        rw [hbody, encodeSealedInto_eq hlive hcap hmax hhead (ClipChunkHead.encode_length hhead)
          hplain (by rw [hlength]; rfl), hlength]
        rfl

end Encoders

end DeskhopPlus.Seal
