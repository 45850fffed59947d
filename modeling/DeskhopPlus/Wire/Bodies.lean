import DeskhopPlus.Library.Layout
import DeskhopPlus.Wire.Clip

/-!
# Short bodies

The codecs of `dh_place.c` for a placement and a position, and those of `dh_clip.c` for the messages
that carry a transfer's id and little else. Each body has one length.
-/

namespace DeskhopPlus.Wire

open Bytes Layout

/-- `DH_PLACE_BODY_SIZE`. -/
def placeBodyLen : Nat := 5

/-- `DH_POSITION_BODY_SIZE`. -/
def positionBodyLen : Nat := 6

/-- `wr_u16` and `put16`. -/
def put16 (number : UInt16) : List UInt8 := littleEndian 2 number.toNat

/-- `rd_u16` and `get16`. -/
def get16 (bytes : List UInt8) : UInt16 := UInt16.ofNat (value (bytes.take 2))

/-- `dh_place`. -/
structure Place where
  chainIndex : UInt8
  chainDirection : UInt8
  borderDirection : UInt8
  entryPosition : UInt16
  deriving DecidableEq, Repr

/-- `dh_position`. -/
structure Position where
  queryId : UInt8
  chainIndex : UInt8
  x : UInt16
  y : UInt16
  deriving DecidableEq, Repr

/-- `dh_place_encode`. -/
def placeEncode (place : Place) (cap : Nat) : Option (List UInt8) :=
  if cap < placeBodyLen then none
  else
    some ([place.chainIndex, place.chainDirection, place.borderDirection] ++
      put16 place.entryPosition)

/-- `dh_place_decode`. -/
def placeDecode (body : List UInt8) : Option Place :=
  if body.length ≠ placeBodyLen then none
  else
    some
      { chainIndex := body.getD 0 0
        chainDirection := body.getD 1 0
        borderDirection := body.getD 2 0
        entryPosition := get16 (body.drop 3) }

/-- `dh_position_encode`. -/
def positionEncode (position : Position) (cap : Nat) : Option (List UInt8) :=
  if cap < positionBodyLen then none
  else some ([position.queryId, position.chainIndex] ++ put16 position.x ++ put16 position.y)

/-- `dh_position_decode`. -/
def positionDecode (body : List UInt8) : Option Position :=
  if body.length ≠ positionBodyLen then none
  else
    some
      { queryId := body.getD 0 0
        chainIndex := body.getD 1 0
        x := get16 (body.drop 2)
        y := get16 (body.drop 4) }

/-- `dh_clip_encode_id`. -/
def clipEncodeId (id : UInt32) (cap : Nat) : Option (List UInt8) :=
  if cap < 4 then none else some (put32 id)

/-- `dh_clip_decode_id`. -/
def clipDecodeId (payload : List UInt8) : Option UInt32 :=
  if payload.length ≠ 4 then none else some (get32 payload)

/-- `dh_clip_encode_retransmit`. -/
def clipEncodeRetransmit (id seq : UInt32) (cap : Nat) : Option (List UInt8) :=
  if cap < 8 then none else some (put32 id ++ put32 seq)

/-- `dh_clip_decode_retransmit`. -/
def clipDecodeRetransmit (payload : List UInt8) : Option (UInt32 × UInt32) :=
  if payload.length ≠ 8 then none else some (get32 payload, get32 (payload.drop 4))

/-- `dh_clip_encode_credit`. -/
def clipEncodeCredit (id : UInt32) (credits : UInt16) (cap : Nat) : Option (List UInt8) :=
  if cap < 6 then none else some (put32 id ++ put16 credits)

/-- `dh_clip_decode_credit`. -/
def clipDecodeCredit (payload : List UInt8) : Option (UInt32 × UInt16) :=
  if payload.length ≠ 6 then none else some (get32 payload, get16 (payload.drop 4))

/-! ## Numbers that are read -/

variable {bytes : List UInt8} {place : Nat}

/-- Two bytes are read and written back. -/
theorem put16_get16_slice (h : place + 2 ≤ bytes.length) :
    put16 (get16 (bytes.drop place)) = (bytes.drop place).take 2 := by
  have hlt := value_slice_lt h
  rw [put16, get16, UInt16.toNat_ofNat_of_lt' hlt, littleEndian_value_slice h]

/-- Four bytes are read and written back. -/
theorem put32_get32_slice (h : place + 4 ≤ bytes.length) :
    put32 (get32 (bytes.drop place)) = (bytes.drop place).take 4 := by
  have hlt := value_slice_lt h
  rw [put32, get32, UInt32.toNat_ofNat_of_lt' hlt, littleEndian_value_slice h]

/-- Two bytes spell one number. -/
theorem put16_inj {number other : UInt16} (h : put16 number = put16 other) : number = other :=
  UInt16.toNat.inj (littleEndian_inj number.toNat_lt other.toNat_lt h)

/-- So do four. -/
theorem put32_inj {number other : UInt32} (h : put32 number = put32 other) : number = other :=
  UInt32.toNat.inj (littleEndian_inj number.toNat_lt other.toNat_lt h)

/-! ## The layouts -/

/-- The fields of a placement. -/
def Place.fields (place : Place) : List (List UInt8) :=
  [[place.chainIndex], [place.chainDirection], [place.borderDirection],
    put16 place.entryPosition]

/-- The fields of a position. -/
def Position.fields (position : Position) : List (List UInt8) :=
  [[position.queryId], [position.chainIndex], put16 position.x, put16 position.y]

/-- A placement is its fields one behind the other. -/
theorem placeDecode_codec :
    FixedCodec placeDecode Place.fields (fun _ ↦ True) [1, 1, 1, 2] where
  refused bytes h := if_pos h
  accepted bytes h := by
    have hlength : bytes.length = 5 := h
    refine ⟨_, if_neg (not_not.mpr h), trivial, ?_⟩
    simp (disch := omega) only [Place.fields, List.splitLengths_cons, List.splitLengths_nil,
      List.drop_drop, getD_slice, put16_get16_slice, List.drop_zero, Nat.reduceAdd]
  width message _ := by simp [Place.fields, put16]
  known message other _ _ h := by
    cases message
    cases other
    simp only [Place.fields, List.cons.injEq, and_true] at h
    obtain ⟨rfl, rfl, rfl, hposition⟩ := h
    rw [put16_inj hposition]

/-- So is a position. -/
theorem positionDecode_codec :
    FixedCodec positionDecode Position.fields (fun _ ↦ True) [1, 1, 2, 2] where
  refused bytes h := if_pos h
  accepted bytes h := by
    have hlength : bytes.length = 6 := h
    refine ⟨_, if_neg (not_not.mpr h), trivial, ?_⟩
    simp (disch := omega) only [Position.fields, List.splitLengths_cons, List.splitLengths_nil,
      List.drop_drop, getD_slice, put16_get16_slice, List.drop_zero, Nat.reduceAdd]
  width message _ := by simp [Position.fields, put16]
  known message other _ _ h := by
    cases message
    cases other
    simp only [Position.fields, List.cons.injEq, and_true] at h
    obtain ⟨rfl, rfl, hx, hy⟩ := h
    rw [put16_inj hx, put16_inj hy]

/-- The first four bytes of a body. -/
theorem get32_slice_zero (h : 4 ≤ bytes.length) : put32 (get32 bytes) = bytes.take 4 := by
  have hslice := @put32_get32_slice bytes 0 (by rw [Nat.zero_add]; exact h)
  rw [List.drop_zero] at hslice
  exact hslice

/-- An id alone. -/
theorem clipDecodeId_codec :
    FixedCodec clipDecodeId (fun id ↦ [put32 id]) (fun _ ↦ True) [4] where
  refused bytes h := if_pos h
  accepted bytes h := by
    have hlength : bytes.length = 4 := h
    refine ⟨_, if_neg (not_not.mpr h), trivial, ?_⟩
    simp (disch := omega) only [List.splitLengths_cons, List.splitLengths_nil, get32_slice_zero]
  width message _ := by simp
  known message other _ _ h := put32_inj (List.singleton_inj.mp h)

/-- An id and a sequence number. -/
theorem clipDecodeRetransmit_codec :
    FixedCodec clipDecodeRetransmit (fun (id, seq) ↦ [put32 id, put32 seq]) (fun _ ↦ True)
      [4, 4] where
  refused bytes h := if_pos h
  accepted bytes h := by
    have hlength : bytes.length = 8 := h
    refine ⟨_, if_neg (not_not.mpr h), trivial, ?_⟩
    simp (disch := omega) only [List.splitLengths_cons, List.splitLengths_nil, get32_slice_zero,
      put32_get32_slice]
  width message _ := by simp
  known message other _ _ h := by
    obtain ⟨hid, hseq⟩ := List.cons.inj h
    exact Prod.ext (put32_inj hid) (put32_inj (List.singleton_inj.mp hseq))

/-- An id and the credits. -/
theorem clipDecodeCredit_codec :
    FixedCodec clipDecodeCredit (fun (id, credits) ↦ [put32 id, put16 credits]) (fun _ ↦ True)
      [4, 2] where
  refused bytes h := if_pos h
  accepted bytes h := by
    have hlength : bytes.length = 6 := h
    refine ⟨_, if_neg (not_not.mpr h), trivial, ?_⟩
    simp (disch := omega) only [List.splitLengths_cons, List.splitLengths_nil, get32_slice_zero,
      put16_get16_slice]
  width message _ := by simp [put16]
  known message other _ _ h := by
    obtain ⟨hid, hcredits⟩ := List.cons.inj h
    exact Prod.ext (put32_inj hid) (put16_inj (List.singleton_inj.mp hcredits))

end DeskhopPlus.Wire
