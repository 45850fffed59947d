import DeskhopPlus.Auth.Window
import DeskhopPlus.Helper.Machine
import DeskhopPlus.Wire.Bodies
import DeskhopPlus.Wire.Slicing

/-!
# Round trips of the codecs

What every encoder writes its decoder reads back, and what a decoder accepts its encoder writes
again: frames, tagged frames, the bodies of a session (`dh_session.c`), placements, and the messages
of a transfer. A body of a fixed length is accepted at that length alone.
-/

namespace DeskhopPlus.Helper

open Bytes Layout Wire Auth Crypto Board

/-! ## Bodies of a session -/

/-- The fields of a hello have the widths the source gives them. -/
def HelloSized (hello : Hello) : Prop :=
  hello.protoVersion < 256 ^ 2 ∧ hello.maxChunk < 256 ^ 2 ∧ hello.correlation < 256 ^ 8 ∧
    hello.helperKeyId.length = keyIdSize ∧ hello.helperNonce.length = nonceSize

/-- The fields of a hello, in their order. -/
def helloFields (hello : Hello) : List (List UInt8) :=
  [littleEndian 2 hello.protoVersion, [hello.os], [hello.buildType], [hello.channelCount],
    littleEndian 2 hello.maxChunk, littleEndian 8 hello.correlation, hello.helperKeyId,
    hello.helperNonce]

/-- The fields of an ack fit their widths. -/
def HelloAckSized (ack : HelloAck) : Prop :=
  ack.correlation < 256 ^ 8 ∧ ack.protoVersion < 256 ^ 2 ∧ ack.maxChunk < 256 ^ 2 ∧
    ack.boardNonce.length = nonceSize

/-- The fields of an ack, in their order. -/
def helloAckFields (ack : HelloAck) : List (List UInt8) :=
  [littleEndian 8 ack.correlation, littleEndian 2 ack.protoVersion, [ack.buildType],
    [ack.channelCount], littleEndian 2 ack.maxChunk, ack.boardNonce]

/-- The fields of a refusal fit their widths. -/
def HelloRefusedSized (refused : HelloRefused) : Prop :=
  refused.correlation < 256 ^ 8 ∧ refused.protoVersion < 256 ^ 2

/-- The fields of a refusal, in their order. -/
def helloRefusedFields (refused : HelloRefused) : List (List UInt8) :=
  [littleEndian 8 refused.correlation, littleEndian 2 refused.protoVersion, [refused.status]]

/-- `dh_hello_refused_encode`. -/
def helloRefusedEncode (refused : HelloRefused) (cap : Nat) : Except FrameFault (List UInt8) :=
  encode Msg.helloRefused 0
    (littleEndian 8 refused.correlation ++ littleEndian 2 refused.protoVersion ++
      [refused.status]) cap

/-- The fields of a pairing request fit their widths. -/
def PairRequestSized (request : PairRequest) : Prop :=
  request.correlation < 256 ^ 8 ∧ request.helperPublic.length = publicSize

/-- The fields of a pairing request, in their order. -/
def pairRequestFields (request : PairRequest) : List (List UInt8) :=
  [littleEndian 8 request.correlation, request.helperPublic]

/-- A correlation of 64 bits and a public key. -/
def PairGrantSized (grant : Nat × List UInt8) : Prop :=
  grant.1 < 256 ^ 8 ∧ grant.2.length = publicSize

/-- The fields of a grant, in their order. -/
def pairGrantFields (grant : Nat × List UInt8) : List (List UInt8) :=
  [littleEndian 8 grant.1, grant.2]

/-- A correlation of 64 bits. -/
def PairRefusedSized (refused : Nat × UInt8) : Prop := refused.1 < 256 ^ 8

/-- The fields of a refused pairing, in their order. -/
def pairRefusedFields (refused : Nat × UInt8) : List (List UInt8) :=
  [littleEndian 8 refused.1, [refused.2]]

/-- The counts of the drops in the order they are written. -/
def dropsCounts (d : DeviceDrops) : List Nat :=
  [d.reports, d.inbound, d.outq, d.unsent, d.orphans, d.truncated, d.relayQ, d.outqPriority,
    d.outqBadHeader, d.framesIn, d.reportsIn, d.framesRefused]

/-- The counts of dropped frames fit their widths. -/
def DropsSized (d : DeviceDrops) : Prop := ∀ count ∈ dropsCounts d, count < 256 ^ 4

/-- The counts of dropped frames, in their order. -/
def dropsFields (d : DeviceDrops) : List (List UInt8) := (dropsCounts d).map (littleEndian 4)

/-- A hello is read field by field. -/
theorem helloDecode_codec :
    FixedCodec helloDecode helloFields HelloSized [2, 1, 1, 1, 2, 8, 8, 16] where
  refused bytes h := if_pos h
  accepted bytes h := by
    have hlength : bytes.length = 39 := h
    refine ⟨_, if_neg (not_not.mpr h), ?_, ?_⟩
    · exact ⟨value_take_lt (by omega), value_slice_lt (by omega), value_slice_lt (by omega),
        length_slice (by rw [keyIdSize]; omega), length_slice (by rw [nonceSize]; omega)⟩
    · simp (disch := omega) only [helloFields, keyIdSize, nonceSize, List.splitLengths_cons,
        List.splitLengths_nil, List.drop_drop, getD_slice, littleEndian_value_slice,
        littleEndian_value_take, Nat.reduceAdd]
  width message h := by
    obtain ⟨_, _, _, hkey, hnonce⟩ := h
    simp [helloFields, hkey, hnonce, keyIdSize, nonceSize]
  known message other h h' heq := by
    obtain ⟨hversion, hchunk, hcorrelation, _, _⟩ := h
    obtain ⟨hversion', hchunk', hcorrelation', _, _⟩ := h'
    cases message
    cases other
    simp only [helloFields, List.cons.injEq, and_true] at heq
    obtain ⟨hv, hos, hbuild, hcount, hm, hc, hkey, hnonce⟩ := heq
    rw [Hello.mk.injEq]
    exact ⟨littleEndian_inj hversion hversion' hv, hos, hbuild, hcount,
      littleEndian_inj hchunk hchunk' hm, littleEndian_inj hcorrelation hcorrelation' hc, hkey,
      hnonce⟩

/-- The decoder of an ack reads its fields. -/
theorem helloAckDecode_codec :
    FixedCodec helloAckDecode helloAckFields HelloAckSized [8, 2, 1, 1, 2, 16] where
  refused bytes h := if_pos h
  accepted bytes h := by
    have hlength : bytes.length = 30 := h
    refine ⟨_, if_neg (not_not.mpr h), ?_, ?_⟩
    · exact ⟨value_take_lt (by omega), value_slice_lt (by omega), value_slice_lt (by omega),
        length_slice (by rw [nonceSize]; omega)⟩
    · simp (disch := omega) only [helloAckFields, nonceSize, List.splitLengths_cons,
        List.splitLengths_nil, List.drop_drop, getD_slice, littleEndian_value_slice,
        littleEndian_value_take, Nat.reduceAdd]
  width message h := by
    obtain ⟨_, _, _, hnonce⟩ := h
    simp [helloAckFields, hnonce, nonceSize]
  known message other h h' heq := by
    obtain ⟨hcorrelation, hversion, hchunk, _⟩ := h
    obtain ⟨hcorrelation', hversion', hchunk', _⟩ := h'
    cases message
    cases other
    simp only [helloAckFields, List.cons.injEq, and_true] at heq
    obtain ⟨hc, hv, hbuild, hcount, hm, hnonce⟩ := heq
    rw [HelloAck.mk.injEq]
    exact ⟨littleEndian_inj hcorrelation hcorrelation' hc, littleEndian_inj hversion hversion' hv,
      hbuild, hcount, littleEndian_inj hchunk hchunk' hm, hnonce⟩

/-- The decoder of a refusal reads its fields. -/
theorem helloRefusedDecode_codec :
    FixedCodec helloRefusedDecode helloRefusedFields HelloRefusedSized [8, 2, 1] where
  refused bytes h := if_pos h
  accepted bytes h := by
    have hlength : bytes.length = 11 := h
    refine ⟨_, if_neg (not_not.mpr h), ⟨value_take_lt (by omega), value_slice_lt (by omega)⟩, ?_⟩
    simp (disch := omega) only [helloRefusedFields, List.splitLengths_cons, List.splitLengths_nil,
      List.drop_drop, getD_slice, littleEndian_value_slice, littleEndian_value_take, Nat.reduceAdd]
  width message _ := by simp [helloRefusedFields]
  known message other h h' heq := by
    cases message
    cases other
    simp only [helloRefusedFields, List.cons.injEq, and_true] at heq
    obtain ⟨hc, hv, hstatus⟩ := heq
    rw [HelloRefused.mk.injEq]
    exact ⟨littleEndian_inj h.1 h'.1 hc, littleEndian_inj h.2 h'.2 hv, hstatus⟩

/-- The decoder of a pairing request reads its fields. -/
theorem pairRequestDecode_codec :
    FixedCodec pairRequestDecode pairRequestFields PairRequestSized [8, 64] where
  refused bytes h := if_pos h
  accepted bytes h := by
    have hlength : bytes.length = 72 := h
    refine ⟨_, if_neg (not_not.mpr h),
      ⟨value_take_lt (by omega), length_slice (by rw [publicSize]; omega)⟩, ?_⟩
    simp (disch := omega) only [pairRequestFields, publicSize, List.splitLengths_cons,
      List.splitLengths_nil, littleEndian_value_take]
  width message h := by simp [pairRequestFields, h.2, publicSize]
  known message other h h' heq := by
    cases message
    cases other
    simp only [pairRequestFields, List.cons.injEq, and_true] at heq
    rw [PairRequest.mk.injEq]
    exact ⟨littleEndian_inj h.1 h'.1 heq.1, heq.2⟩

/-- The decoder of a grant reads its fields. -/
theorem pairGrantDecode_codec :
    FixedCodec pairGrantDecode pairGrantFields PairGrantSized [8, 64] where
  refused bytes h := if_pos h
  accepted bytes h := by
    have hlength : bytes.length = 72 := h
    refine ⟨_, if_neg (not_not.mpr h),
      ⟨value_take_lt (by omega), length_slice (by rw [publicSize]; omega)⟩, ?_⟩
    simp (disch := omega) only [pairGrantFields, publicSize, List.splitLengths_cons,
      List.splitLengths_nil, littleEndian_value_take]
  width message h := by simp [pairGrantFields, h.2, publicSize]
  known message other h h' heq := by
    simp only [pairGrantFields, List.cons.injEq, and_true] at heq
    exact Prod.ext (littleEndian_inj h.1 h'.1 heq.1) heq.2

/-- The decoder of a refused pairing reads its fields. -/
theorem pairRefusedDecode_codec :
    FixedCodec pairRefusedDecode pairRefusedFields PairRefusedSized [8, 1] where
  refused bytes h := if_pos h
  accepted bytes h := by
    have hlength : bytes.length = 9 := h
    refine ⟨_, if_neg (not_not.mpr h), value_take_lt (by omega), ?_⟩
    simp (disch := omega) only [pairRefusedFields, List.splitLengths_cons, List.splitLengths_nil,
      getD_slice, littleEndian_value_take]
  width message _ := by simp [pairRefusedFields]
  known message other h h' heq := by
    simp only [pairRefusedFields, List.cons.injEq, and_true] at heq
    exact Prod.ext (littleEndian_inj h h' heq.1) heq.2

/-- The decoder of the counts reads twelve of them. -/
theorem deviceDropsDecode_codec :
    FixedCodec deviceDropsDecode dropsFields DropsSized (List.replicate 12 4) where
  refused bytes h := if_pos h
  accepted bytes h := by
    have hlength : bytes.length = 48 := h
    refine ⟨_, if_neg (not_not.mpr h), ?_, ?_⟩
    · simp only [DropsSized, dropsCounts, List.forall_mem_cons]
      exact ⟨value_slice_lt (by omega), value_slice_lt (by omega), value_slice_lt (by omega),
        value_slice_lt (by omega), value_slice_lt (by omega), value_slice_lt (by omega),
        value_slice_lt (by omega), value_slice_lt (by omega), value_slice_lt (by omega),
        value_slice_lt (by omega), value_slice_lt (by omega), value_slice_lt (by omega),
        List.forall_mem_nil _⟩
    · simp (disch := omega) only [dropsFields, dropsCounts, List.map_cons, List.map_nil,
        List.replicate, List.splitLengths_cons, List.splitLengths_nil, List.drop_drop,
        littleEndian_value_slice, littleEndian_value_take, Nat.reduceMul, Nat.reduceAdd,
        List.drop_zero]
  width message _ := by simp [dropsFields, dropsCounts]
  known message other h h' heq := by
    have hback {d : DeviceDrops} (hd : DropsSized d) :
        (dropsFields d).map value = dropsCounts d := by
      rw [dropsFields, List.map_map]
      calc (dropsCounts d).map (value ∘ littleEndian 4) = (dropsCounts d).map id :=
            List.map_congr_left fun count hcount ↦ value_littleEndian_of_lt (hd count hcount)
        _ = dropsCounts d := List.map_id _
    have hcounts : dropsCounts message = dropsCounts other := by
      rw [← hback h, heq, hback h']
    cases message
    cases other
    simp only [dropsCounts, List.cons.injEq, and_true] at hcounts
    rw [DeviceDrops.mk.injEq]
    exact hcounts

/-! ## Frames -/

variable {type flags : UInt8} {payload body bytes key : List UInt8} {cap counter : Nat}

/-- The bytes of a view are decoded as that view. -/
theorem decode_view {view : FrameView} (htype : Msg.known view.type = true)
    (hpayload : view.payload.length ≤ maxPayload) :
    decode view.bytes = .ok (view, view.bytes.length) := by
  obtain ⟨other, hdecode, hbytes⟩ :=
    (WireFrame.ofPayload view.type view.flags view.payload htype hpayload).decode_bytes
  have hsame : other = view := FrameView.bytes_injective hbytes
  rw [hsame] at hdecode
  exact hdecode

/-- What is encoded is the bytes of a frame of a known type. -/
theorem encode_ok (h : encode type flags payload cap = .ok bytes) :
    payload.length ≤ maxPayload ∧ Msg.known type = true ∧
      bytes = FrameView.bytes ⟨type, flags, payload⟩ := by
  rw [encode] at h
  split at h
  · cases h
  split at h
  · cases h
  split at h
  · cases h
  next hpayload htype _ =>
    exact ⟨Nat.le_of_not_lt hpayload, Bool.eq_true_of_not_eq_false htype, (Except.ok.inj h).symm⟩

/-- A frame that was encoded is decoded, and takes all its bytes. -/
theorem decode_encode (h : encode type flags payload cap = .ok bytes) :
    decode bytes = .ok (⟨type, flags, payload⟩, bytes.length) := by
  obtain ⟨hpayload, htype, rfl⟩ := encode_ok h
  exact decode_view htype hpayload

/-- The bytes a decoded frame takes are those of its encoding. -/
theorem encode_decode {buf : List UInt8} {view : FrameView} {total : Nat}
    (h : decode buf = .ok (view, total)) (hcap : total ≤ cap) :
    encode view.type view.flags view.payload cap = .ok (buf.take total) := by
  obtain ⟨hdr, hparse, htotal, hlong, rfl⟩ := decode_ok h
  obtain ⟨htype, hlen, _, htake⟩ := header_parse_ok hparse
  have hsize : headerSize = 4 := rfl
  have hpayload : ((buf.take total).drop headerSize).length = hdr.len := by
    rw [List.length_drop, List.length_take]
    omega
  have hhead : (buf.take total).take headerSize = headerBytes hdr.type hdr.flags hdr.len := by
    rw [List.take_take, Nat.min_eq_left (by omega), htake]
  rw [encode, hpayload, if_neg (by omega), if_neg (by rw [htype]; exact Bool.noConfusion),
    if_neg (by omega), ← hhead, List.take_append_drop]

/-! ## Tagged frames -/

/-- A tagged frame is decoded and opened under its key at every counter that is fresh. -/
theorem open_frame {c : AuthCounter} (h : frame type flags key counter body cap = .ok bytes)
    (htype : Msg.known type = true) (hcounter : counter < 2 ^ 64) (hfresh : c.ok counter = true) :
    ∃ view, decode bytes = .ok (view, bytes.length) ∧ view.type = type ∧ view.flags = flags ∧
      authOpen key view c = (.ok body, c.accept counter) := by
  obtain ⟨rfl, hpayload⟩ := frame_ok h
  have hlength : (builtView type flags key counter body).payload.length ≤ maxPayload := by
    rw [builtView_payload_length]
    exact hpayload
  refine ⟨builtView type flags key counter body, decode_view htype hlength, rfl, rfl, ?_⟩
  rw [authOpen_eq, if_pos (builtView_tag_verifies type flags key counter body hcounter),
    counterOf_builtView type flags key counter body hcounter, hfresh, bodyOf_builtView]
  rfl

/-- A frame that was opened is the tagged frame of its body. -/
theorem frame_open {view : FrameView} {c rx : AuthCounter}
    (h : authOpen key view c = (.ok body, rx)) (hpayload : view.payload.length ≤ maxPayload)
    (hcap : headerSize + view.payload.length ≤ cap) :
    frame view.type view.flags key (counterOf view) body cap = .ok view.bytes := by
  rw [authOpen_eq] at h
  split at h
  · next hverifies =>
      obtain ⟨hlong, htag⟩ := hverifies
      split at h
      · obtain ⟨hbody, -⟩ := Prod.mk.inj h
        have hbody := Except.ok.inj hbody
        have hlength : authPrefixSize + body.length = view.payload.length := by
          rw [← hbody, bodyOf, List.length_drop]
          omega
        have hcounter : littleEndian counterSize (counterOf view) =
            view.payload.take counterSize :=
          littleEndian_value_take ((Nat.le_add_right counterSize tagSize).trans hlong)
        have hview : builtView view.type view.flags key (counterOf view) body = view := by
          have hparts : view.payload.take counterSize ++ tagOf view ++ body = view.payload := by
            rw [← hbody, tagOf, bodyOf, authPrefixSize, ← List.drop_drop, List.append_assoc,
              List.take_append_drop, List.take_append_drop]
          rw [builtView, hcounter, hlength, ← hbody, htag, hbody, hparts]
        rw [frame_fits (by omega) (by omega), hview]
      · cases h
  · split at h
    · cases h
    · cases h

/-! ## Plaintexts -/

variable {id seq : UInt32} {plain : List UInt8}

/-- An offer that was decoded is encoded as it came. -/
theorem encodePlain_decodePlain_offer {offer : ClipOffer}
    (h : ClipOffer.decodePlain id plain = some offer) (hplain : plain.length ≤ maxPayload)
    (hcap : plain.length ≤ cap) : offer.encodePlain cap = some plain := by
  rw [ClipOffer.decodePlain] at h
  split at h
  · cases h
  next hlong =>
    split at h
    · cases h
    next hlength =>
      have hlength := not_not.mp hlength
      have hfixed : offerPlainFixed = 11 := rfl
      cases h
      have hkind : [plain.headD 0] = plain.take 1 := by
        cases plain with
        | nil => exact absurd (by decide : ([] : List UInt8).length < offerPlainFixed) hlong
        | cons kind rest => rfl
      have htotal : put64 (get64 (plain.drop 1)) = (plain.drop 1).take 8 := by
        have hlt := @value_slice_lt plain 1 8 (by omega)
        rw [put64, get64, UInt64.toNat_ofNat_of_lt' hlt, littleEndian_value_slice (by omega)]
      have hmeta : littleEndian 2 (plain.drop offerPlainFixed).length = (plain.drop 9).take 2 := by
        rw [List.length_drop, ← hlength, Nat.add_sub_cancel_left,
          littleEndian_value_slice (by omega)]
      have hwhole : plain.take 1 ++ (plain.drop 1).take 8 ++ (plain.drop 9).take 2 ++
          plain.drop offerPlainFixed = plain := by
        have hback : plain.drop offerPlainFixed = (plain.drop 9).drop 2 := by
          rw [List.drop_drop, hfixed]
        have hmiddle : plain.drop 9 = (plain.drop 1).drop 8 := by rw [List.drop_drop]
        rw [hback, List.append_assoc, List.append_assoc, List.take_append_drop, hmiddle,
          List.take_append_drop, List.take_append_drop]
      rw [ClipOffer.encodePlain]
      dsimp only
      rw [if_neg (by rw [List.length_drop]; omega), hkind, htotal, hmeta, hwhole]

/-- A chunk that was decoded is encoded as it came. -/
theorem encodePlain_decodePlain_chunk {chunk : ClipChunk}
    (h : ClipChunk.decodePlain id seq plain = some chunk) (hplain : plain.length ≤ maxPayload)
    (hcap : plain.length ≤ cap) : chunk.encodePlain cap = some plain := by
  rw [ClipChunk.decodePlain] at h
  split at h
  · cases h
  next hlong =>
    have hfixed : chunkPlainFixed = 4 := rfl
    cases h
    rw [ClipChunk.encodePlain]
    dsimp only
    rw [if_neg (by rw [List.length_drop]; omega), get32_slice_zero (by omega), hfixed,
      List.take_append_drop]

/-! ## The laws -/

variable {α : Type}

/-- What is sent in the clear comes back from its frame, what a decoder accepts is the body its
message is sent with, and it accepts bodies of one length. -/
def PlainTrip (type : UInt8) (len : Nat) (encode : α → Nat → Except FrameFault (List UInt8))
    (decodeBody : List UInt8 → Option α) (Sized : α → Prop) : Prop :=
  (∀ (message : α) (cap : Nat) (bytes : List UInt8), Sized message →
    encode message cap = .ok bytes →
      ∃ view, decode bytes = .ok (view, bytes.length) ∧ view.type = type ∧
        decodeBody view.payload = some message) ∧
  (∀ (body : List UInt8) (message : α) (cap : Nat), decodeBody body = some message →
    Sized message ∧ encode message cap = Wire.encode type 0 body cap) ∧
  ∀ body : List UInt8, body.length ≠ len → decodeBody body = none

/-- The same of what is sent under a key and opened under that key at a fresh counter. -/
def TaggedTrip (type : UInt8) (len : Nat)
    (encode : α → List UInt8 → Nat → Nat → Except FrameFault (List UInt8))
    (decodeBody : List UInt8 → Option α) (Sized : α → Prop) : Prop :=
  (∀ (message : α) (key : List UInt8) (counter cap : Nat) (bytes : List UInt8) (c : AuthCounter),
    Sized message → counter < 2 ^ 64 → c.ok counter = true →
    encode message key counter cap = .ok bytes →
      ∃ view body rx, decode bytes = .ok (view, bytes.length) ∧ view.type = type ∧
        authOpen key view c = (.ok body, rx) ∧ decodeBody body = some message) ∧
  (∀ (body : List UInt8) (message : α) (key : List UInt8) (counter cap : Nat),
    decodeBody body = some message →
      Sized message ∧ encode message key counter cap = Auth.frame type 0 key counter body cap) ∧
  ∀ body : List UInt8, body.length ≠ len → decodeBody body = none

/-- A body of one length: what is accepted has that length and is written again from what was read,
and what is written is accepted. -/
def BodyTrip (encode : α → List UInt8) (decodeBody : List UInt8 → Option α) (Sized : α → Prop)
    (len : Nat) : Prop :=
  (∀ message, Sized message → decodeBody (encode message) = some message) ∧
    (∀ bytes message, decodeBody bytes = some message → Sized message ∧ encode message = bytes) ∧
    ∀ bytes : List UInt8, bytes.length ≠ len → decodeBody bytes = none

/-- A codec of fields is a round trip of bodies. -/
theorem bodyTrip_of_codec {decodeBody : List UInt8 → Option α} {fields : α → List (List UInt8)}
    {Sized : α → Prop} {widths : List Nat} (h : FixedCodec decodeBody fields Sized widths)
    {encode : α → List UInt8} (hencode : ∀ message, encode message = (fields message).flatten) :
    BodyTrip encode decodeBody Sized widths.sum := by
  refine ⟨fun message hsized ↦ ?_, fun bytes message hdecode ↦ ?_, h.refused⟩
  · exact h.decode_iff.mpr ⟨hsized, hencode message⟩
  · obtain ⟨hsized, hbytes⟩ := h.decode_iff.mp hdecode
    exact ⟨hsized, by rw [hencode, hbytes]⟩

/-- The same of an encoder that is given room. -/
def RoomTrip (encode : α → Nat → Option (List UInt8)) (decodeBody : List UInt8 → Option α)
    (len : Nat) : Prop :=
  (∀ message cap bytes, encode message cap = some bytes → decodeBody bytes = some message) ∧
    (∀ bytes message cap, decodeBody bytes = some message → len ≤ cap →
      encode message cap = some bytes) ∧
    ∀ bytes : List UInt8, bytes.length ≠ len → decodeBody bytes = none

/-- So is one whose encoder may lack the room. -/
theorem roomTrip_of_codec {decodeBody : List UInt8 → Option α} {fields : α → List (List UInt8)}
    {widths : List Nat} (h : FixedCodec decodeBody fields (fun _ ↦ True) widths)
    {encode : α → Nat → Option (List UInt8)}
    (hencode : ∀ message cap,
      encode message cap = if cap < widths.sum then none else some (fields message).flatten) :
    RoomTrip encode decodeBody widths.sum := by
  refine ⟨fun message cap bytes hbytes ↦ ?_, fun bytes message cap hdecode hcap ↦ ?_, h.refused⟩
  · rw [hencode] at hbytes
    split at hbytes
    · cases hbytes
    · exact h.decode_iff.mpr ⟨trivial, (Option.some.inj hbytes).symm⟩
  · obtain ⟨_, rfl⟩ := h.decode_iff.mp hdecode
    rw [hencode, if_neg (Nat.not_lt.mpr hcap)]

/-- A round trip of bodies is one of frames. -/
theorem plainTrip_of_body {encode : α → Nat → Except FrameFault (List UInt8)}
    {decodeBody : List UInt8 → Option α} {Sized : α → Prop} {body : α → List UInt8} {len : Nat}
    (h : BodyTrip body decodeBody Sized len)
    (hencode : ∀ message cap, encode message cap = Wire.encode type 0 (body message) cap) :
    PlainTrip type len encode decodeBody Sized := by
  refine ⟨fun message cap bytes hsized hbytes ↦ ?_, fun body message cap hbody ↦ ?_, h.2.2⟩
  · rw [hencode] at hbytes
    exact ⟨_, decode_encode hbytes, rfl, h.1 message hsized⟩
  · obtain ⟨hsized, hsame⟩ := h.2.1 body message hbody
    exact ⟨hsized, by rw [hencode, hsame]⟩

/-- And one of frames with a tag. -/
theorem taggedTrip_of_body
    {encode : α → List UInt8 → Nat → Nat → Except FrameFault (List UInt8)}
    {decodeBody : List UInt8 → Option α} {Sized : α → Prop} {body : α → List UInt8} {len : Nat}
    (h : BodyTrip body decodeBody Sized len) (htype : Msg.known type = true)
    (hencode : ∀ message key counter cap,
      encode message key counter cap = Auth.frame type 0 key counter (body message) cap) :
    TaggedTrip type len encode decodeBody Sized := by
  refine ⟨fun message key counter cap bytes c hsized hcounter hfresh hbytes ↦ ?_,
    fun body message key counter cap hbody ↦ ?_, h.2.2⟩
  · rw [hencode] at hbytes
    obtain ⟨view, hdecode, hview, _, hopen⟩ := open_frame hbytes htype hcounter hfresh
    exact ⟨view, _, _, hdecode, hview, hopen, h.1 message hsized⟩
  · obtain ⟨hsized, hsame⟩ := h.2.1 body message hbody
    exact ⟨hsized, by rw [hencode, hsame]⟩

/-! ## All codecs -/

/-- Hellos. -/
theorem hello_body : BodyTrip Hello.body helloDecode HelloSized 39 :=
  bodyTrip_of_codec helloDecode_codec fun hello ↦ by simp [Hello.body, helloFields]

/-- Acks. -/
theorem helloAck_body :
    BodyTrip (fun ack ↦ (helloAckFields ack).flatten) helloAckDecode HelloAckSized 30 :=
  bodyTrip_of_codec helloAckDecode_codec fun _ ↦ rfl

/-- Refusals. -/
theorem helloRefused_body :
    BodyTrip (fun refused ↦ (helloRefusedFields refused).flatten) helloRefusedDecode
      HelloRefusedSized 11 :=
  bodyTrip_of_codec helloRefusedDecode_codec fun _ ↦ rfl

/-- Pairing requests. -/
theorem pairRequest_body :
    BodyTrip (fun request ↦ (pairRequestFields request).flatten) pairRequestDecode
      PairRequestSized 72 :=
  bodyTrip_of_codec pairRequestDecode_codec fun _ ↦ rfl

/-- Grants. -/
theorem pairGrant_body :
    BodyTrip (fun grant ↦ (pairGrantFields grant).flatten) pairGrantDecode PairGrantSized 72 :=
  bodyTrip_of_codec pairGrantDecode_codec fun _ ↦ rfl

/-- Refused pairings. -/
theorem pairRefused_body :
    BodyTrip (fun refused ↦ (pairRefusedFields refused).flatten) pairRefusedDecode
      PairRefusedSized 9 :=
  bodyTrip_of_codec pairRefusedDecode_codec fun _ ↦ rfl

/-- Counts of dropped frames. -/
theorem deviceDrops_body : BodyTrip DeviceDrops.write deviceDropsDecode DropsSized 48 :=
  bodyTrip_of_codec deviceDropsDecode_codec fun _ ↦ rfl

/-- The messages of a session come back from their frames. -/
theorem messages_trip :
    TaggedTrip Msg.hello helloLen helloEncode helloDecode HelloSized ∧
      TaggedTrip Msg.helloAck helloAckLen helloAckEncode helloAckDecode HelloAckSized ∧
      PlainTrip Msg.helloRefused helloRefusedLen helloRefusedEncode helloRefusedDecode
        HelloRefusedSized ∧
      PlainTrip Msg.pairRequest pairRequestLen pairRequestEncode pairRequestDecode
        PairRequestSized ∧
      PlainTrip Msg.pairGrant pairGrantLen (fun grant ↦ pairGrantEncode grant.1 grant.2)
        pairGrantDecode PairGrantSized ∧
      PlainTrip Msg.pairRefused pairRefusedLen
        (fun refused ↦ pairRefusedEncode refused.1 refused.2) pairRefusedDecode
        PairRefusedSized ∧
      TaggedTrip Msg.deviceDrops deviceDropsLen
        (fun drops key counter cap ↦ Auth.frame Msg.deviceDrops 0 key counter drops.write cap)
        deviceDropsDecode DropsSized :=
  ⟨taggedTrip_of_body hello_body rfl fun _ _ _ _ ↦ rfl,
    taggedTrip_of_body helloAck_body rfl fun ack key counter cap ↦ by
      simp [helloAckEncode, helloAckFields],
    plainTrip_of_body helloRefused_body fun refused cap ↦ by
      simp [helloRefusedEncode, helloRefusedFields],
    plainTrip_of_body pairRequest_body fun request cap ↦ by
      simp [pairRequestEncode, pairRequestFields],
    plainTrip_of_body pairGrant_body fun grant cap ↦ by simp [pairGrantEncode, pairGrantFields],
    plainTrip_of_body pairRefused_body fun refused cap ↦ by
      simp [pairRefusedEncode, pairRefusedFields],
    taggedTrip_of_body deviceDrops_body rfl fun _ _ _ _ ↦ rfl⟩

/-- The short bodies come back. -/
theorem bodies_trip :
    RoomTrip placeEncode placeDecode placeBodyLen ∧
      RoomTrip positionEncode positionDecode positionBodyLen ∧
      RoomTrip clipEncodeId clipDecodeId 4 ∧
      RoomTrip (fun (id, seq) ↦ clipEncodeRetransmit id seq) clipDecodeRetransmit 8 ∧
      RoomTrip (fun (id, credits) ↦ clipEncodeCredit id credits) clipDecodeCredit 6 :=
  ⟨roomTrip_of_codec placeDecode_codec fun _ _ ↦ rfl,
    roomTrip_of_codec positionDecode_codec fun position cap ↦ by
      have hbody : [position.queryId, position.chainIndex] ++ put16 position.x ++ put16 position.y =
          position.fields.flatten := by
        simp [Position.fields]
      rw [positionEncode, hbody]
      rfl,
    roomTrip_of_codec clipDecodeId_codec fun id cap ↦ by simp [clipEncodeId],
    roomTrip_of_codec clipDecodeRetransmit_codec fun request cap ↦ by simp [clipEncodeRetransmit],
    roomTrip_of_codec clipDecodeCredit_codec fun credit cap ↦ by simp [clipEncodeCredit]⟩

/-- What any encoder writes is decoded to what was encoded, and what a decoder accepts is encoded to
the bytes that were decoded. Bodies of a fixed length are accepted at no other. -/
theorem codecs_round_trip :
    (∀ (type flags : UInt8) (payload : List UInt8) (cap : Nat), Msg.known type = true →
      payload.length ≤ maxPayload → headerSize + payload.length ≤ cap →
        ∃ bytes, encode type flags payload cap = .ok bytes ∧
          decode bytes = .ok (⟨type, flags, payload⟩, bytes.length)) ∧
    (∀ (buf : List UInt8) (view : FrameView) (total cap : Nat), decode buf = .ok (view, total) →
      total ≤ cap → encode view.type view.flags view.payload cap = .ok (buf.take total)) ∧
    (∀ (type flags : UInt8) (key body bytes : List UInt8) (counter cap : Nat) (c : AuthCounter),
      Msg.known type = true → counter < 2 ^ 64 → c.ok counter = true →
      frame type flags key counter body cap = .ok bytes →
        ∃ view, decode bytes = .ok (view, bytes.length) ∧ view.type = type ∧ view.flags = flags ∧
          authOpen key view c = (.ok body, c.accept counter)) ∧
    (∀ (key body : List UInt8) (view : FrameView) (c rx : AuthCounter) (cap : Nat),
      authOpen key view c = (.ok body, rx) → view.payload.length ≤ maxPayload →
      headerSize + view.payload.length ≤ cap →
        frame view.type view.flags key (counterOf view) body cap = .ok view.bytes) ∧
    (∀ (offer : ClipOffer) (cap : Nat) (bytes : List UInt8), offer.encodePlain cap = some bytes →
      ClipOffer.decodePlain offer.id bytes = some offer) ∧
    (∀ (id : UInt32) (plain : List UInt8) (offer : ClipOffer) (cap : Nat),
      ClipOffer.decodePlain id plain = some offer → plain.length ≤ maxPayload →
      plain.length ≤ cap → offer.encodePlain cap = some plain) ∧
    (∀ (chunk : ClipChunk) (cap : Nat) (bytes : List UInt8), chunk.encodePlain cap = some bytes →
      ClipChunk.decodePlain chunk.id chunk.seq bytes = some chunk) ∧
    (∀ (id seq : UInt32) (plain : List UInt8) (chunk : ClipChunk) (cap : Nat),
      ClipChunk.decodePlain id seq plain = some chunk → plain.length ≤ maxPayload →
      plain.length ≤ cap → chunk.encodePlain cap = some plain) ∧
    (TaggedTrip Msg.hello helloLen helloEncode helloDecode HelloSized ∧
      TaggedTrip Msg.helloAck helloAckLen helloAckEncode helloAckDecode HelloAckSized ∧
      PlainTrip Msg.helloRefused helloRefusedLen helloRefusedEncode helloRefusedDecode
        HelloRefusedSized ∧
      PlainTrip Msg.pairRequest pairRequestLen pairRequestEncode pairRequestDecode
        PairRequestSized ∧
      PlainTrip Msg.pairGrant pairGrantLen (fun grant ↦ pairGrantEncode grant.1 grant.2)
        pairGrantDecode PairGrantSized ∧
      PlainTrip Msg.pairRefused pairRefusedLen
        (fun refused ↦ pairRefusedEncode refused.1 refused.2) pairRefusedDecode
        PairRefusedSized ∧
      TaggedTrip Msg.deviceDrops deviceDropsLen
        (fun drops key counter cap ↦ Auth.frame Msg.deviceDrops 0 key counter drops.write cap)
        deviceDropsDecode DropsSized) ∧
    RoomTrip placeEncode placeDecode placeBodyLen ∧
      RoomTrip positionEncode positionDecode positionBodyLen ∧
      RoomTrip clipEncodeId clipDecodeId 4 ∧
      RoomTrip (fun (id, seq) ↦ clipEncodeRetransmit id seq) clipDecodeRetransmit 8 ∧
      RoomTrip (fun (id, credits) ↦ clipEncodeCredit id credits) clipDecodeCredit 6 := by
  refine ⟨fun type flags payload cap htype hpayload hcap ↦ ?_, fun _ _ _ _ ↦ encode_decode,
    fun _ _ _ _ _ _ _ _ htype hcounter hfresh h ↦ open_frame h htype hcounter hfresh,
    fun _ _ _ _ _ _ ↦ frame_open, fun _ _ _ ↦ ClipOffer.decodePlain_encodePlain,
    fun _ _ _ _ ↦ encodePlain_decodePlain_offer, fun _ _ _ ↦ ClipChunk.decodePlain_encodePlain,
    fun _ _ _ _ _ ↦ encodePlain_decodePlain_chunk, messages_trip, bodies_trip⟩
  have hencode : encode type flags payload cap =
      .ok (headerBytes type flags payload.length ++ payload) := by
    rw [encode, if_neg (Nat.not_lt.mpr hpayload), if_neg (by rw [htype]; exact Bool.noConfusion),
      if_neg (Nat.not_lt.mpr hcap)]
  exact ⟨_, hencode, decode_encode hencode⟩

/-- A decoded frame may be followed by bytes that are not its own. -/
theorem following_bytes_not_encoded :
    ¬∀ (buf : List UInt8) (view : FrameView) (total cap : Nat), buf.length ≤ maxPayload →
      decode buf = .ok (view, total) → buf.length ≤ cap →
        encode view.type view.flags view.payload cap = .ok buf := by
  intro h
  have hbuf := h [Msg.heartbeat, 0, 0, 0, 0xFF] ⟨Msg.heartbeat, 0, []⟩ 4 5 (by decide) (by decide)
    (by decide)
  exact absurd hbuf (by decide)

end DeskhopPlus.Helper
