import DeskhopPlus.Library.Bytes

/-!
# The frame codec

The wire format of `dh_frame.h`: a four-byte header (type, flags, little-endian length) and a
payload of that length. `headerParse` is the firmware's whole view of a frame; `decode` and
`encode` are the one-shot codec. `WireFrame` is a byte string that is exactly one frame, the
only thing the outgoing queues take.
-/

namespace DeskhopPlus.Wire

open Bytes

/-- `DH_FRAME_HEADER_SIZE`. -/
def headerSize : Nat := 4

/-- `DH_FRAME_MAX_PAYLOAD`. -/
def maxPayload : Nat := 4096

/-- `DH_FRAME_MAX_SIZE`. -/
def maxFrame : Nat := headerSize + maxPayload

/-- `DH_FRAME_COUNTER_SIZE`. -/
def counterSize : Nat := 8

/-- `DH_FRAME_TAG_SIZE`. -/
def tagSize : Nat := 16

/-- `DH_FRAME_AUTH_PREFIX_SIZE`: the counter and the tag in front of an authenticated body. -/
def authPrefixSize : Nat := counterSize + tagSize

/-- `DH_FRAME_PAD`, the filler between frames. No message type. -/
def pad : UInt8 := 0x00

/-! The message registry `DH_MSG_TYPE_LIST`. -/

namespace Msg

def hello : UInt8 := 0x01
def helloAck : UInt8 := 0x02
def listenerAlert : UInt8 := 0x03
def clipPolicy : UInt8 := 0x04
def heartbeat : UInt8 := 0x05
def deviceHeartbeat : UInt8 := 0x06
def sessionEnd : UInt8 := 0x07
def pairRequest : UInt8 := 0x08
def pairGrant : UInt8 := 0x09
def pairRefused : UInt8 := 0x0A
def helloRefused : UInt8 := 0x0B
def deviceDrops : UInt8 := 0x10
def hostSleep : UInt8 := 0x11
def place : UInt8 := 0x20
def posQuery : UInt8 := 0x21
def posResponse : UInt8 := 0x22
def arrival : UInt8 := 0x23
def peerHelper : UInt8 := 0x24
def clipOffer : UInt8 := 0x30
def clipRequest : UInt8 := 0x31
def clipChunk : UInt8 := 0x32
def clipDone : UInt8 := 0x33
def clipCancel : UInt8 := 0x34
def clipRetransmit : UInt8 := 0x35
def clipCredit : UInt8 := 0x36
def sealOffer : UInt8 := 0x37
def sealAccept : UInt8 := 0x38
def sealStale : UInt8 := 0x39
def clipReceived : UInt8 := 0x3A

/-- Every registered type. -/
def registry : List UInt8 :=
  [hello, helloAck, listenerAlert, clipPolicy, heartbeat, deviceHeartbeat, sessionEnd,
   pairRequest, pairGrant, pairRefused, helloRefused, deviceDrops, hostSleep, place, posQuery,
   posResponse, arrival, peerHelper, clipOffer, clipRequest, clipChunk, clipDone, clipCancel,
   clipRetransmit, clipCredit, sealOffer, sealAccept, sealStale, clipReceived]

/-- `dh_msg_type_known`. -/
def known (type : UInt8) : Bool := registry.contains type

/-- `dh_msg_is_authenticated`: everything outside the band 0x08-0x0F. -/
def isAuthenticated (type : UInt8) : Bool := type < 0x08 || type > 0x0F

/-- `dh_msg_is_bulk`. -/
def isBulk (type : UInt8) : Bool := type ≥ 0x30

/-- `dh_msg_is_striped`: only a chunk rotates across the channels. -/
def isStriped (type : UInt8) : Bool := type = clipChunk

/-- Padding is no message type, so a frame never starts with it. -/
theorem pad_not_known : known pad = false := by decide

/-- No known type is the padding. -/
theorem ne_pad_of_known {type : UInt8} (h : known type = true) : type ≠ pad := by
  rintro rfl
  rw [pad_not_known] at h
  cases h

end Msg

/-- `dh_frame_header`. -/
structure FrameHeader where
  type : UInt8
  flags : UInt8
  len : Nat
  deriving DecidableEq, Repr

/-- The results of `dh_frame_result` other than `DH_FRAME_OK`. -/
inductive FrameFault where
  | again
  | oversize
  | unknownType
  | buffer
  deriving DecidableEq, Repr

/-- `dh_frame_header_parse`: the length is judged before the type. -/
def headerParse (buf : List UInt8) : Except FrameFault FrameHeader :=
  match buf with
  | type :: flags :: low :: high :: _ =>
      let len := value [low, high]
      if maxPayload < len then .error .oversize
      else if Msg.known type then .ok { type := type, flags := flags, len := len }
      else .error .unknownType
  | _ => .error .again

/-- `dh_frame_view`. The payload view has exactly `hdr.len` bytes, so the length is the
payload's own. -/
structure FrameView where
  type : UInt8
  flags : UInt8
  payload : List UInt8
  deriving DecidableEq, Repr

/-- The header of a view. -/
def FrameView.hdr (view : FrameView) : FrameHeader :=
  { type := view.type, flags := view.flags, len := view.payload.length }

/-- The four header bytes as they stand on the wire. -/
def headerBytes (type flags : UInt8) (len : Nat) : List UInt8 :=
  type :: flags :: littleEndian 2 len

/-- The bytes of a frame: its header and its payload. -/
def FrameView.bytes (view : FrameView) : List UInt8 :=
  headerBytes view.type view.flags view.payload.length ++ view.payload

/-- The bytes of a view determine it. -/
theorem FrameView.bytes_injective : Function.Injective FrameView.bytes := by
  rintro ⟨type, flags, payload⟩ ⟨type', flags', payload'⟩ h
  simp only [FrameView.bytes, headerBytes, littleEndian, List.cons_append, List.nil_append,
    List.cons.injEq] at h
  simp [h.1, h.2.1, h.2.2.2.2]

/-- `dh_frame_decode`: the frame at the start of `buf` and the bytes it takes. -/
def decode (buf : List UInt8) : Except FrameFault (FrameView × Nat) :=
  match headerParse buf with
  | .error fault => .error fault
  | .ok hdr =>
      let total := headerSize + hdr.len
      if buf.length < total then .error .again
      else
        .ok ({ type := hdr.type, flags := hdr.flags,
               payload := (buf.drop headerSize).take hdr.len }, total)

/-- `dh_frame_encode` into an output of `cap` bytes. -/
def encode (type flags : UInt8) (payload : List UInt8) (cap : Nat) :
    Except FrameFault (List UInt8) :=
  if maxPayload < payload.length then .error .oversize
  else if Msg.known type = false then .error .unknownType
  else if cap < headerSize + payload.length then .error .buffer
  else .ok (headerBytes type flags payload.length ++ payload)

/-! ## Parsing what was written -/

/-- A header has `DH_FRAME_HEADER_SIZE` bytes. -/
@[simp] theorem headerBytes_length (type flags : UInt8) (len : Nat) :
    (headerBytes type flags len).length = headerSize := by
  simp [headerBytes, headerSize]

/-- A written header parses back, whatever follows it. -/
theorem header_parse_bytes {type flags : UInt8} {len : Nat} (rest : List UInt8)
    (htype : Msg.known type = true) (hlen : len ≤ maxPayload) :
    headerParse (headerBytes type flags len ++ rest) =
      .ok { type := type, flags := flags, len := len } := by
  have hbound : len < 256 ^ 2 := by simp only [maxPayload] at hlen; omega
  have hvalue : value (littleEndian 2 len) = len := value_littleEndian_of_lt hbound
  have hnot : ¬ maxPayload < len := by omega
  simp only [headerBytes, littleEndian, List.cons_append, List.nil_append, headerParse]
  simp only [littleEndian] at hvalue
  simp [hvalue, hnot, htype]

/-- What a successful parse says about the bytes. -/
theorem header_parse_ok {buf : List UInt8} {hdr : FrameHeader} (h : headerParse buf = .ok hdr) :
    Msg.known hdr.type = true ∧ hdr.len ≤ maxPayload ∧ headerSize ≤ buf.length ∧
      buf.take headerSize = headerBytes hdr.type hdr.flags hdr.len := by
  match buf, h with
  | type :: flags :: low :: high :: rest, h =>
      simp only [headerParse] at h
      split at h
      · cases h
      · split at h
        · rename_i hlen htype
          cases h
          refine ⟨htype, Nat.le_of_not_lt hlen, by simp [headerSize], ?_⟩
          have hlow : UInt8.ofNat (value [low, high]) = low := by
            apply UInt8.toNat.inj
            have := low.toNat_lt
            simp [value]
          have hhigh : UInt8.ofNat (value [low, high] / 256) = high := by
            apply UInt8.toNat.inj
            have hl := low.toNat_lt
            have hh := high.toNat_lt
            simp only [value, UInt8.toNat_ofNat']
            omega
          simp [headerSize, headerBytes, littleEndian, hlow, hhigh]
        · cases h

/-- The parse reads four bytes and no more. -/
theorem header_parse_append {buf : List UInt8} {hdr : FrameHeader} (rest : List UInt8)
    (h : headerParse buf = .ok hdr) : headerParse (buf ++ rest) = .ok hdr := by
  match buf, h with
  | _ :: _ :: _ :: _ :: _, h => simpa [headerParse] using h

/-- A prefix that still holds the header parses the same. -/
theorem header_parse_take {buf : List UInt8} {hdr : FrameHeader} {count : Nat}
    (hcount : headerSize ≤ count) (h : headerParse buf = .ok hdr) :
    headerParse (buf.take count) = .ok hdr := by
  match buf, h with
  | _ :: _ :: _ :: _ :: _, h =>
      obtain ⟨rest, rfl⟩ : ∃ rest, count = rest + 4 :=
        ⟨count - 4, by simp only [headerSize] at hcount; omega⟩
      simpa [headerParse] using h

/-! ## Whole frames -/

/-- A byte string that is exactly one frame: its header parses and names its length. -/
def IsFrame (bytes : List UInt8) : Prop :=
  ∃ hdr, headerParse bytes = .ok hdr ∧ bytes.length = headerSize + hdr.len

/-- A frame on the wire, carrying the proof that it is one. -/
structure WireFrame where
  bytes : List UInt8
  isFrame : IsFrame bytes

namespace WireFrame

/-- The frame of a known type and a payload that fits. -/
def ofPayload (type flags : UInt8) (payload : List UInt8) (htype : Msg.known type = true)
    (hlen : payload.length ≤ maxPayload) : WireFrame where
  bytes := FrameView.bytes { type := type, flags := flags, payload := payload }
  isFrame := ⟨_, header_parse_bytes payload htype hlen, by simp [FrameView.bytes]⟩

/-- Decoding a whole frame yields a view of exactly its bytes and takes all of them. -/
theorem decode_bytes (frame : WireFrame) :
    ∃ view, decode frame.bytes = .ok (view, frame.bytes.length) ∧ view.bytes = frame.bytes := by
  obtain ⟨hdr, hparse, hlen⟩ := frame.isFrame
  obtain ⟨-, -, -, htake⟩ := header_parse_ok hparse
  have hpayload : ((frame.bytes.drop headerSize).take hdr.len).length = hdr.len := by
    simp only [List.length_take, List.length_drop]
    omega
  refine ⟨{ type := hdr.type, flags := hdr.flags,
            payload := (frame.bytes.drop headerSize).take hdr.len }, ?_, ?_⟩
  · simp [decode, hparse, hlen]
  · have hall : (frame.bytes.drop headerSize).take hdr.len = frame.bytes.drop headerSize :=
      List.take_of_length_le (by simp only [List.length_drop]; omega)
    rw [FrameView.bytes, hpayload, ← htake, hall, List.take_append_drop]

/-- A frame is no shorter than its header. -/
theorem header_le_length (frame : WireFrame) : headerSize ≤ frame.bytes.length := by
  obtain ⟨hdr, -, hlen⟩ := frame.isFrame
  omega

/-- And no longer than `DH_FRAME_MAX`. -/
theorem length_le_max (frame : WireFrame) : frame.bytes.length ≤ maxFrame := by
  obtain ⟨hdr, hparse, hlen⟩ := frame.isFrame
  have := (header_parse_ok hparse).2.1
  simp only [maxFrame]
  omega

end WireFrame

/-! ## A stream of frames -/

/-- Decode frame after frame from a byte stream, at most `fuel` of them. -/
def decodeFrames : Nat → List UInt8 → List FrameView
  | 0, _ => []
  | fuel + 1, stream =>
      match decode stream with
      | .error _ => []
      | .ok (view, total) => view :: decodeFrames fuel (stream.drop total)

/-- The frames of a byte stream. A frame has at least one byte, so its length is fuel enough. -/
def decodeStream (stream : List UInt8) : List FrameView := decodeFrames stream.length stream

/-- The frame at the start of a stream is decoded whatever follows it. -/
theorem decode_append {frame : List UInt8} (hframe : IsFrame frame) (rest : List UInt8) :
    ∃ view, view.bytes = frame ∧ decode (frame ++ rest) = .ok (view, frame.length) := by
  obtain ⟨view, hdecode, hbytes⟩ := WireFrame.decode_bytes ⟨frame, hframe⟩
  refine ⟨view, hbytes, ?_⟩
  obtain ⟨hdr, hparse, hlen⟩ := hframe
  have hpayload : ((frame ++ rest).drop headerSize).take hdr.len =
      (frame.drop headerSize).take hdr.len := by
    rw [List.drop_append_of_le_length (by omega), List.take_append_of_le_length (by simp; omega)]
  simp only [decode, hparse, hlen, Nat.lt_irrefl, if_false] at hdecode
  simp only [decode, header_parse_append rest hparse, hpayload, List.length_append, hlen]
  rw [if_neg (by omega)]
  exact hdecode

/-- The frames of a concatenation of whole frames are those frames. -/
theorem decodeStream_flatten {frames : List (List UInt8)}
    (hframes : ∀ frame ∈ frames, IsFrame frame) :
    (decodeStream frames.flatten).map FrameView.bytes = frames := by
  have hfuel : ∀ fuel, frames.length ≤ fuel →
      (decodeFrames fuel frames.flatten).map FrameView.bytes = frames := by
    induction frames with
    | nil => intro fuel _; cases fuel <;> simp [decodeFrames, decode, headerParse]
    | cons frame rest ih =>
        intro fuel hfuel
        obtain ⟨fuel, rfl⟩ : ∃ more, fuel = more + 1 := ⟨fuel - 1, by simp at hfuel; omega⟩
        obtain ⟨view, hbytes, hdecode⟩ := decode_append (hframes frame (by simp)) rest.flatten
        have hrest := ih (fun other hother ↦ hframes other (List.mem_cons_of_mem _ hother)) fuel
          (by simpa using hfuel)
        simp [decodeFrames, hdecode, hbytes, hrest]
  apply hfuel
  have hpos : ∀ frame ∈ frames, 1 ≤ frame.length := by
    intro frame hframe
    obtain ⟨hdr, -, hlen⟩ := hframes frame hframe
    simp only [hlen, headerSize]
    omega
  clear hfuel hframes
  induction frames with
  | nil => simp
  | cons frame rest ih =>
      have hhead := hpos frame (by simp)
      have htail := ih fun other hother ↦ hpos other (List.mem_cons_of_mem _ hother)
      simp only [List.length_cons, List.flatten_cons, List.length_append]
      omega

end DeskhopPlus.Wire
