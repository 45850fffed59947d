import DeskhopPlus.Library.Bytes
import DeskhopPlus.Wire.Frame

/-!
# The clipboard messages

The codecs of `dh_clip.c` for the two messages that carry the user's bytes. Each is a clear head,
which names the transfer and the seal, and a plain part that is only ever sent sealed. The decoders
undo the encoders.
-/

namespace DeskhopPlus.Wire

open Bytes

/-- `DH_CLIP_OFFER_HEAD_LEN`. -/
def offerHeadLen : Nat := 16

/-- `DH_CLIP_CHUNK_HEAD_LEN`. -/
def chunkHeadLen : Nat := 20

/-- `DH_CLIP_OFFER_PLAIN_FIXED`. -/
def offerPlainFixed : Nat := 11

/-- `DH_CLIP_CHUNK_PLAIN_FIXED`. -/
def chunkPlainFixed : Nat := 4

/-- `DH_CLIP_OFFER_META_WIRE_MAX`. -/
def offerMetaWireMax : Nat := maxPayload - authPrefixSize - offerHeadLen - offerPlainFixed - 16

/-- `put32`. -/
def put32 (number : UInt32) : List UInt8 := littleEndian 4 number.toNat

/-- `put64`. -/
def put64 (number : UInt64) : List UInt8 := littleEndian 8 number.toNat

/-- `get32`. -/
def get32 (bytes : List UInt8) : UInt32 := UInt32.ofNat (value (bytes.take 4))

/-- `get64`. -/
def get64 (bytes : List UInt8) : UInt64 := UInt64.ofNat (value (bytes.take 8))

/-- `dh_clip_offer_head`. -/
structure ClipOfferHead where
  id : UInt32
  sealId : UInt32
  sealCounter : UInt64
  deriving DecidableEq, Repr

/-- `dh_clip_chunk_head`. -/
structure ClipChunkHead where
  id : UInt32
  seq : UInt32
  sealId : UInt32
  sealCounter : UInt64
  deriving DecidableEq, Repr

/-- `dh_clip_offer`. The length of the metadata is a `uint16_t`. -/
structure ClipOffer where
  id : UInt32
  kind : UInt8
  total : UInt64
  metadata : List UInt8
  metadata_length : metadata.length < 2 ^ 16
  deriving DecidableEq

/-- `dh_clip_chunk`. The length of the data is a `uint16_t`. -/
structure ClipChunk where
  id : UInt32
  seq : UInt32
  crc32 : UInt32
  data : List UInt8
  data_length : data.length < 2 ^ 16
  deriving DecidableEq

/-! ## Encoders -/

/-- `dh_clip_encode_offer_head`. -/
def ClipOfferHead.encode (head : ClipOfferHead) (cap : Nat) : Option (List UInt8) :=
  if cap < offerHeadLen then none
  else some (put32 head.id ++ put32 head.sealId ++ put64 head.sealCounter)

/-- `dh_clip_encode_chunk_head`. -/
def ClipChunkHead.encode (head : ClipChunkHead) (cap : Nat) : Option (List UInt8) :=
  if cap < chunkHeadLen then none
  else some (put32 head.id ++ put32 head.seq ++ put32 head.sealId ++ put64 head.sealCounter)

/-- `dh_clip_encode_offer_plain`. -/
def ClipOffer.encodePlain (offer : ClipOffer) (cap : Nat) : Option (List UInt8) :=
  let total := offerPlainFixed + offer.metadata.length
  if cap < total ∨ maxPayload < total then none
  else some
    ([offer.kind] ++ put64 offer.total ++ littleEndian 2 offer.metadata.length ++ offer.metadata)

/-- `dh_clip_encode_chunk_plain`. -/
def ClipChunk.encodePlain (chunk : ClipChunk) (cap : Nat) : Option (List UInt8) :=
  let total := chunkPlainFixed + chunk.data.length
  if cap < total ∨ maxPayload < total then none
  else some (put32 chunk.crc32 ++ chunk.data)

/-! ## Decoders -/

/-- `dh_clip_decode_offer_head`. -/
def ClipOfferHead.decode (payload : List UInt8) : Option ClipOfferHead :=
  if payload.length < offerHeadLen then none
  else
    some { id := get32 payload, sealId := get32 (payload.drop 4),
           sealCounter := get64 (payload.drop 8) }

/-- `dh_clip_decode_chunk_head`. -/
def ClipChunkHead.decode (payload : List UInt8) : Option ClipChunkHead :=
  if payload.length < chunkHeadLen then none
  else
    some { id := get32 payload, seq := get32 (payload.drop 4), sealId := get32 (payload.drop 8),
           sealCounter := get64 (payload.drop 12) }

/-- `dh_clip_decode_offer_plain`, with the id its caller fills in from the head. -/
def ClipOffer.decodePlain (id : UInt32) (plain : List UInt8) : Option ClipOffer :=
  if plain.length < offerPlainFixed then none
  else if h : offerPlainFixed + value ((plain.drop 9).take 2) ≠ plain.length then none
  else
    some {
      id, kind := plain.headD 0, total := get64 (plain.drop 1),
      metadata := plain.drop offerPlainFixed
      metadata_length := by
        have hbound := value_lt ((plain.drop 9).take 2)
        have hpow : 256 ^ ((plain.drop 9).take 2).length ≤ 256 ^ 2 :=
          Nat.pow_le_pow_right (by omega) (List.length_take_le _ _)
        simp only [List.length_drop]
        omega }

/-- `dh_clip_decode_chunk_plain`, with the id and sequence number its caller fills in from the
head. -/
def ClipChunk.decodePlain (id seq : UInt32) (plain : List UInt8) : Option ClipChunk :=
  if h : plain.length < chunkPlainFixed ∨ maxPayload < plain.length - chunkPlainFixed then none
  else
    some {
      id, seq, crc32 := get32 plain, data := plain.drop chunkPlainFixed
      data_length := by
        simp only [maxPayload, not_or, not_lt] at h
        simp only [List.length_drop]
        omega }

/-! ## Round trips -/

@[simp] theorem put32_length (number : UInt32) : (put32 number).length = 4 := by simp [put32]

@[simp] theorem put64_length (number : UInt64) : (put64 number).length = 8 := by simp [put64]

@[simp] theorem get32_put32 (number : UInt32) (rest : List UInt8) :
    get32 (put32 number ++ rest) = number := by
  have htake : (put32 number ++ rest).take 4 = put32 number := by
    simp
  rw [get32, htake, put32, value_littleEndian_of_lt number.toNat_lt, UInt32.ofNat_toNat]

@[simp] theorem get64_put64 (number : UInt64) (rest : List UInt8) :
    get64 (put64 number ++ rest) = number := by
  have htake : (put64 number ++ rest).take 8 = put64 number := by
    simp
  rw [get64, htake, put64, value_littleEndian_of_lt number.toNat_lt, UInt64.ofNat_toNat]

/-- What is behind a head, behind what stands before it. -/
theorem drop_append_eq {front rest : List UInt8} {n : Nat} (h : front.length = n) :
    (front ++ rest).drop n = rest := by
  rw [List.drop_append_of_le_length h.ge, ← h, List.drop_length, List.nil_append]

variable {cap : Nat} {bytes : List UInt8}

theorem ClipOfferHead.encode_length {head : ClipOfferHead} (h : head.encode cap = some bytes) :
    bytes.length = offerHeadLen := by
  unfold encode at h
  split at h
  · cases h
  · cases h
    simp [offerHeadLen]

theorem ClipChunkHead.encode_length {head : ClipChunkHead} (h : head.encode cap = some bytes) :
    bytes.length = chunkHeadLen := by
  unfold encode at h
  split at h
  · cases h
  · cases h
    simp [chunkHeadLen]

/-- The head at the front of a payload is read back. -/
theorem ClipOfferHead.decode_encode {head : ClipOfferHead} (h : head.encode cap = some bytes)
    (rest : List UInt8) : decode (bytes ++ rest) = some head := by
  have hlength := encode_length h
  unfold encode at h
  split at h
  · cases h
  · cases h
    rw [decode, if_neg (by rw [List.length_append, hlength]; omega)]
    simp only [List.append_assoc, get32_put32, drop_append_eq (put32_length head.id)]
    rw [← List.append_assoc (put32 head.id), drop_append_eq (by simp), get64_put64]

theorem ClipChunkHead.decode_encode {head : ClipChunkHead} (h : head.encode cap = some bytes)
    (rest : List UInt8) : decode (bytes ++ rest) = some head := by
  have hlength := encode_length h
  unfold encode at h
  split at h
  · cases h
  · cases h
    rw [decode, if_neg (by rw [List.length_append, hlength]; omega)]
    simp only [List.append_assoc, get32_put32, drop_append_eq (put32_length head.id)]
    rw [← List.append_assoc (put32 head.id) (put32 head.seq), drop_append_eq (by simp),
      get32_put32, ← List.append_assoc (put32 head.id ++ put32 head.seq),
      drop_append_eq (by simp), get64_put64]

theorem ClipOffer.encodePlain_length {offer : ClipOffer}
    (h : offer.encodePlain cap = some bytes) :
    bytes.length = offerPlainFixed + offer.metadata.length := by
  unfold encodePlain at h
  simp only at h
  split at h
  · cases h
  · cases h
    simp [offerPlainFixed]
    omega

theorem ClipChunk.encodePlain_length {chunk : ClipChunk}
    (h : chunk.encodePlain cap = some bytes) :
    bytes.length = chunkPlainFixed + chunk.data.length := by
  unfold encodePlain at h
  simp only at h
  split at h
  · cases h
  · cases h
    simp [chunkPlainFixed]

theorem ClipOffer.decodePlain_encodePlain {offer : ClipOffer}
    (h : offer.encodePlain cap = some bytes) : decodePlain offer.id bytes = some offer := by
  unfold encodePlain at h
  simp only at h
  split at h
  · cases h
  · cases h
    have hmeta : value (littleEndian 2 offer.metadata.length) = offer.metadata.length :=
      value_littleEndian_of_lt (by have := offer.metadata_length; omega)
    have hback : ([offer.kind] ++ put64 offer.total ++ littleEndian 2 offer.metadata.length ++
        offer.metadata).drop 9 = littleEndian 2 offer.metadata.length ++ offer.metadata := by
      rw [List.append_assoc]
      exact drop_append_eq (by simp)
    have hlen : ((littleEndian 2 offer.metadata.length ++ offer.metadata).take 2) =
        littleEndian 2 offer.metadata.length := by
      simp
    have hdata : ([offer.kind] ++ put64 offer.total ++ littleEndian 2 offer.metadata.length ++
        offer.metadata).drop offerPlainFixed = offer.metadata :=
      drop_append_eq (by simp [offerPlainFixed])
    have htotal : get64 (([offer.kind] ++ put64 offer.total ++
        littleEndian 2 offer.metadata.length ++ offer.metadata).drop 1) = offer.total := by
      rw [List.append_assoc, List.append_assoc]
      exact get64_put64 _ _
    rw [decodePlain, if_neg (by simp [offerPlainFixed]; omega), dif_neg (by
      rw [hback, hlen, hmeta]
      simp [offerPlainFixed]
      omega)]
    simp only [hdata, htotal]
    rfl

theorem ClipChunk.decodePlain_encodePlain {chunk : ClipChunk}
    (h : chunk.encodePlain cap = some bytes) :
    decodePlain chunk.id chunk.seq bytes = some chunk := by
  unfold encodePlain at h
  simp only at h
  split at h
  · cases h
  · rename_i hfits
    cases h
    rw [decodePlain, dif_neg (by
      simp only [List.length_append, put32_length, chunkPlainFixed] at hfits ⊢
      omega)]
    simp only [get32_put32, drop_append_eq (put32_length chunk.crc32), chunkPlainFixed]

end DeskhopPlus.Wire
