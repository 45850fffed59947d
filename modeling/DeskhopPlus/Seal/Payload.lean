import DeskhopPlus.Seal.Exchange

/-!
# Sealed messages

How `dh_seal.c` seals a clipboard offer or chunk under the sender's key and opens it under the
receiver's. The cipher is the platform's and a parameter; `Aead.Lawful` is the one thing asked of
it, that what was sealed opens again under the same key, nonce and head.
-/

namespace DeskhopPlus.Seal

open Auth Crypto Wire

/-- `DH_SEAL_TAG_SIZE`. -/
def sealTagSize : Nat := 16

/-- `SEAL_BODY_MAX`: what a frame holds behind the hop's authentication. -/
def sealBodyMax : Nat := maxPayload - authPrefixSize

/-- `dh_seal_aead`. `seal` is `encrypt` here and gives the ciphertext and the tag,
`open` is `decrypt` and gives the plaintext. -/
structure Aead where
  encrypt : (key nonce aad plain : List UInt8) → Option (List UInt8 × List UInt8)
  decrypt : (key nonce aad cipher tag : List UInt8) → Option (List UInt8)

/-- The cipher keeps lengths, makes tags of sixteen bytes, and opens what it sealed. -/
structure Aead.Lawful (aead : Aead) : Prop where
  cipher_length : ∀ {key nonce aad plain cipher tag},
    aead.encrypt key nonce aad plain = some (cipher, tag) → cipher.length = plain.length
  tag_length : ∀ {key nonce aad plain cipher tag},
    aead.encrypt key nonce aad plain = some (cipher, tag) → tag.length = sealTagSize
  opens : ∀ {key nonce aad plain cipher tag},
    aead.encrypt key nonce aad plain = some (cipher, tag) →
    aead.decrypt key nonce aad cipher tag = some plain

/-- `seal_nonce`. -/
def sealNonce (counter : UInt64) : List UInt8 := put64 counter ++ List.replicate 4 0

/-- `DH_SEAL_OFFER_OVERHEAD`. -/
def offerOverhead : Nat := offerHeadLen + offerPlainFixed + sealTagSize

/-- `DH_SEAL_CHUNK_OVERHEAD`. -/
def chunkOverhead : Nat := chunkHeadLen + chunkPlainFixed + sealTagSize

section Cipher

variable (aead : Aead)

/-- `seal_staged`. -/
def SealTx.sealStaged (tx : SealTx) (head plain : List UInt8) :
    Except SealFault (SealTx × List UInt8) :=
  match aead.encrypt tx.key (sealNonce tx.counter) head plain with
  | none => .error .auth
  | some (cipher, tag) => .ok ({ tx with counter := tx.counter + 1 }, head ++ cipher ++ tag)

/-- The encoder both messages share: `dh_seal_encode_offer` and `dh_seal_encode_chunk` differ in
the sizes and in the head and plain part they stage. -/
def SealTx.encodeSealed (tx : SealTx) (bodyLen headLen : Nat) (head : Nat → Option (List UInt8))
    (plain : Nat → Option (List UInt8)) (cap : Nat) : Except SealFault (SealTx × List UInt8) :=
  if tx.live = false then .error .noSeal
  else if cap < bodyLen ∨ sealBodyMax < bodyLen then .error .buffer
  else
    match head cap with
    | none => .error .buffer
    | some headBytes =>
        match plain (cap - headLen) with
        | none => .error .buffer
        | some plainBytes => tx.sealStaged aead headBytes plainBytes

/-- `dh_seal_encode_offer`. -/
def SealTx.encodeOffer (tx : SealTx) (offer : ClipOffer) (cap : Nat) :
    Except SealFault (SealTx × List UInt8) :=
  tx.encodeSealed aead (offerOverhead + offer.metadata.length) offerHeadLen
    (ClipOfferHead.encode { id := offer.id, sealId := tx.sealId, sealCounter := tx.counter })
    offer.encodePlain cap

/-- `dh_seal_encode_chunk`. -/
def SealTx.encodeChunk (tx : SealTx) (chunk : ClipChunk) (cap : Nat) :
    Except SealFault (SealTx × List UInt8) :=
  tx.encodeSealed aead (chunkOverhead + chunk.data.length) chunkHeadLen
    (ClipChunkHead.encode
      { id := chunk.id, seq := chunk.seq, sealId := tx.sealId, sealCounter := tx.counter })
    chunk.encodePlain cap

/-- `open_staged`. -/
def SealRx.openStaged (rx : SealRx) (body : List UInt8) (headLen : Nat) (namedSealId : UInt32)
    (counter : UInt64) (plainCap : Nat) : Except SealFault (List UInt8) :=
  if body.length < headLen + sealTagSize then .error .malformed
  else if rx.live = false ∨ rx.sealId ≠ namedSealId then .error .unknownId
  else
    let cipherLen := body.length - headLen - sealTagSize
    if plainCap < cipherLen then .error .buffer
    else
      let sealed := body.drop headLen
      match aead.decrypt rx.key (sealNonce counter) (body.take headLen) (sealed.take cipherLen)
        (sealed.drop cipherLen) with
      | none => .error .auth
      | some plain => .ok plain

/-- `dh_seal_open_offer`. -/
def SealRx.openOffer (rx : SealRx) (body : List UInt8) (plainCap : Nat) :
    Except SealFault ClipOffer :=
  match ClipOfferHead.decode body with
  | none => .error .malformed
  | some head =>
      match rx.openStaged aead body offerHeadLen head.sealId head.sealCounter plainCap with
      | .error fault => .error fault
      | .ok plain =>
          match ClipOffer.decodePlain head.id plain with
          | none => .error .malformed
          | some offer => .ok offer

/-- `dh_seal_open_chunk`. -/
def SealRx.openChunk (rx : SealRx) (body : List UInt8) (plainCap : Nat) :
    Except SealFault ClipChunk :=
  match ClipChunkHead.decode body with
  | none => .error .malformed
  | some head =>
      match rx.openStaged aead body chunkHeadLen head.sealId head.sealCounter plainCap with
      | .error fault => .error fault
      | .ok plain =>
          match ClipChunk.decodePlain head.id head.seq plain with
          | none => .error .malformed
          | some chunk => .ok chunk

end Cipher

/-! ## What is sealed opens -/

section Opens

variable {aead : Aead} {tx tx' : SealTx} {rx : SealRx} {body : List UInt8} {cap plainCap : Nat}

/-- Both ends hold a live key under one id, and the keys are equal. -/
structure Agree (tx : SealTx) (rx : SealRx) : Prop where
  sender : tx.live = true
  receiver : rx.live = true
  sealId : rx.sealId = tx.sealId
  key : rx.key = tx.key

/-- What a successful encoder staged and sealed. -/
theorem encodeSealed_ok {bodyLen headLen : Nat} {head plain : Nat → Option (List UInt8)}
    (h : tx.encodeSealed aead bodyLen headLen head plain cap = .ok (tx', body)) :
    ∃ headBytes plainBytes cipher tag, head cap = some headBytes ∧
      plain (cap - headLen) = some plainBytes ∧
      aead.encrypt tx.key (sealNonce tx.counter) headBytes plainBytes = some (cipher, tag) ∧
      body = headBytes ++ cipher ++ tag := by
  unfold SealTx.encodeSealed at h
  split at h
  · cases h
  · split at h
    · cases h
    · split at h
      · cases h
      · rename_i headBytes hhead
        split at h
        · cases h
        · rename_i plainBytes hplain
          unfold SealTx.sealStaged at h
          split at h
          · cases h
          · rename_i cipher tag hseal
            cases h
            exact ⟨headBytes, plainBytes, cipher, tag, hhead, hplain, hseal, rfl⟩

/-- Sealing moves the counter and nothing else of the sender. -/
theorem encodeSealed_tx {bodyLen headLen : Nat} {head plain : Nat → Option (List UInt8)}
    (h : tx.encodeSealed aead bodyLen headLen head plain cap = .ok (tx', body)) :
    tx' = { tx with counter := tx.counter + 1 } := by
  unfold SealTx.encodeSealed SealTx.sealStaged at h
  split at h
  · cases h
  · split at h
    · cases h
    · split at h
      · cases h
      · split at h
        · cases h
        · split at h
          · cases h
          · cases h
            rfl

/-- The receiver's half of the round trip: a staged message sealed under an agreed key. -/
theorem openStaged_sealed (hlawful : aead.Lawful) (hagree : Agree tx rx)
    {head plain cipher tag : List UInt8}
    (hseal : aead.encrypt tx.key (sealNonce tx.counter) head plain = some (cipher, tag))
    (hcap : plain.length ≤ plainCap) :
    rx.openStaged aead (head ++ cipher ++ tag) head.length tx.sealId tx.counter plainCap =
      .ok plain := by
  have hcipher := hlawful.cipher_length hseal
  have htag := hlawful.tag_length hseal
  have hlen : (head ++ cipher ++ tag).length - head.length - sealTagSize = cipher.length := by
    simp only [List.length_append, htag]
    omega
  have hhead : (head ++ cipher ++ tag).take head.length = head := by simp
  have hback : (head ++ cipher ++ tag).drop head.length = cipher ++ tag := by
    rw [List.append_assoc]
    exact drop_append_eq rfl
  unfold SealRx.openStaged
  rw [if_neg (by simp only [List.length_append, htag]; omega),
    if_neg (by simp [hagree.receiver, hagree.sealId])]
  simp only [hlen, hhead, hback, drop_append_eq, List.take_left']
  rw [if_neg (by omega), hagree.key, hlawful.opens hseal]

/-- A chunk the sender seals opens at an agreeing receiver, with the same contents. -/
theorem openChunk_encodeChunk (hlawful : aead.Lawful) (hagree : Agree tx rx) {chunk : ClipChunk}
    (h : tx.encodeChunk aead chunk cap = .ok (tx', body))
    (hcap : chunkPlainFixed + chunk.data.length ≤ plainCap) :
    rx.openChunk aead body plainCap = .ok chunk := by
  obtain ⟨head, plain, cipher, tag, hhead, hplain, hseal, rfl⟩ := encodeSealed_ok h
  have hdecode := ClipChunk.decodePlain_encodePlain hplain
  have hlength : plain.length = chunkPlainFixed + chunk.data.length :=
    ClipChunk.encodePlain_length hplain
  have hopen := openStaged_sealed hlawful hagree hseal (hlength.trans_le hcap)
  rw [ClipChunkHead.encode_length hhead] at hopen
  rw [SealRx.openChunk, List.append_assoc, ClipChunkHead.decode_encode hhead, ← List.append_assoc]
  simp only [hopen, hdecode]

/-- An offer the sender seals opens at an agreeing receiver, with the same contents. -/
theorem openOffer_encodeOffer (hlawful : aead.Lawful) (hagree : Agree tx rx) {offer : ClipOffer}
    (h : tx.encodeOffer aead offer cap = .ok (tx', body))
    (hcap : offerPlainFixed + offer.metadata.length ≤ plainCap) :
    rx.openOffer aead body plainCap = .ok offer := by
  obtain ⟨head, plain, cipher, tag, hhead, hplain, hseal, rfl⟩ := encodeSealed_ok h
  have hdecode := ClipOffer.decodePlain_encodePlain hplain
  have hlength : plain.length = offerPlainFixed + offer.metadata.length :=
    ClipOffer.encodePlain_length hplain
  have hopen := openStaged_sealed hlawful hagree hseal (hlength.trans_le hcap)
  rw [ClipOfferHead.encode_length hhead] at hopen
  rw [SealRx.openOffer, List.append_assoc, ClipOfferHead.decode_encode hhead, ← List.append_assoc]
  simp only [hopen, hdecode]

end Opens

end DeskhopPlus.Seal
