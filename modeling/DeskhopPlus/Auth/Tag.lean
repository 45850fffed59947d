import DeskhopPlus.Crypto.Sha256
import DeskhopPlus.Wire.Frame

/-!
# Session keys and the frame tag

The codec half of `dh_auth.c`: the three keys of a session, the sixteen-byte tag over header,
counter and body, and the two builders of an authenticated frame. `TagVerifies` is what the tag
check of the receiver decides; `builtView_tag_verifies` says that a frame built under a key passes
it under that key.
-/

namespace DeskhopPlus.Auth

open Bytes Wire Crypto

/-- `DH_SESSION_KEY_SIZE`. -/
def sessionKeySize : Nat := 32

/-- `DH_NONCE_SIZE`. -/
def nonceSize : Nat := 16

/-- The bytes of an ASCII string, as `INFO_BYTES` takes them. -/
def infoBytes (text : String) : List UInt8 :=
  text.toList.map fun c ↦ UInt8.ofNat c.toNat

/-- `DH_INFO_HELLO`. -/
def infoHello : List UInt8 := infoBytes "deskhopplus/2 hello"

/-- `DH_INFO_H2B`. -/
def infoH2b : List UInt8 := infoBytes "deskhopplus/2 h2b"

/-- `DH_INFO_B2H`. -/
def infoB2h : List UInt8 := infoBytes "deskhopplus/2 b2h"

/-- `dh_auth_derive_hello_key`. -/
def deriveHelloKey (sharedSecret helperNonce : List UInt8) : List UInt8 :=
  hkdfSha256 sharedSecret helperNonce infoHello sessionKeySize

/-- `dh_auth_derive_session_keys`: the key toward the board, then the key toward the helper.
The salt is both nonces, the helper's first. -/
def deriveSessionKeys (sharedSecret helperNonce boardNonce : List UInt8) :
    List UInt8 × List UInt8 :=
  let salt := helperNonce ++ boardNonce
  (hkdfSha256 sharedSecret salt infoH2b sessionKeySize,
   hkdfSha256 sharedSecret salt infoB2h sessionKeySize)

/-- `dh_auth_tag`. `len` is the whole payload's length, prefix included. -/
def tag (key : List UInt8) (type flags : UInt8) (len counter : Nat) (body : List UInt8) :
    List UInt8 :=
  let covered := headerBytes type flags len ++ littleEndian counterSize counter
  let c := (Hmac.init key).update covered
  let c := if 0 < body.length then c.update body else c
  c.final.take tagSize

/-- The results of `dh_auth_result` other than `DH_AUTH_OK`. -/
inductive AuthFault where
  | short
  | tag
  | counter
  | buffer
  | noKey
  deriving DecidableEq, Repr

/-- `dh_auth_wrap` into an output of `cap` bytes. -/
def wrap (key : List UInt8) (type flags : UInt8) (counter : Nat) (body : List UInt8) (cap : Nat) :
    Except AuthFault (List UInt8) :=
  let total := authPrefixSize + body.length
  if maxPayload < total then .error .buffer
  else if cap < total then .error .buffer
  else
    .ok (littleEndian counterSize counter ++ tag key type flags total counter body ++ body)

/-- `dh_auth_frame` into an output of `cap` bytes. -/
def frame (type flags : UInt8) (key : List UInt8) (counter : Nat) (body : List UInt8)
    (cap : Nat) : Except FrameFault (List UInt8) :=
  let payloadLen := authPrefixSize + body.length
  if maxPayload < payloadLen then .error .oversize
  else if cap < headerSize + payloadLen then .error .buffer
  else
    match wrap key type flags counter body (cap - headerSize) with
    | .error _ => .error .buffer
    | .ok payload => .ok (headerBytes type flags payloadLen ++ payload)

/-- `dh_auth_bytes_equal`: the differences of all positions are gathered before the one test. -/
def bytesEqual (first second : List UInt8) : Bool :=
  (List.zipWith (· ^^^ ·) first second).foldl (· ||| ·) 0 = 0

/-- `dh_auth_peek_counter`. -/
def peekCounter (payload : List UInt8) : Option Nat :=
  if payload.length < counterSize then none else some (value (payload.take counterSize))

/-- The counter a view carries: the first eight bytes of its payload. -/
def counterOf (view : FrameView) : Nat := value (view.payload.take counterSize)

/-- The tag a view carries. -/
def tagOf (view : FrameView) : List UInt8 := (view.payload.drop counterSize).take tagSize

/-- The body behind the prefix. -/
def bodyOf (view : FrameView) : List UInt8 := view.payload.drop authPrefixSize

/-- The view is long enough to carry a tag, and carries the one the key asks for. -/
def TagVerifies (key : List UInt8) (view : FrameView) : Prop :=
  authPrefixSize ≤ view.payload.length ∧
    tag key view.type view.flags view.payload.length (counterOf view) (bodyOf view) = tagOf view

instance (key : List UInt8) (view : FrameView) : Decidable (TagVerifies key view) :=
  inferInstanceAs (Decidable (_ ∧ _))

/-! ## Lengths -/

theorem final_length (c : Hmac) : c.final.length = digestSize := by
  simp [Hmac.final, Sha256.final, storeBe32, digestSize]

@[simp] theorem tag_length (key : List UInt8) (type flags : UInt8) (len counter : Nat)
    (body : List UInt8) : (tag key type flags len counter body).length = tagSize := by
  simp [tag, final_length, tagSize, digestSize]

/-! ## The comparison without an early exit -/

theorem foldl_or_eq_zero (bytes : List UInt8) (start : UInt8) :
    bytes.foldl (· ||| ·) start = 0 ↔ start = 0 ∧ ∀ byte ∈ bytes, byte = 0 := by
  induction bytes generalizing start with
  | nil => simp
  | cons byte rest ih =>
      rw [List.foldl_cons, ih, UInt8.or_eq_zero_iff]
      simp [and_assoc]

/-- On strings of one length the comparison is equality. -/
theorem bytesEqual_iff {first second : List UInt8} (hlen : first.length = second.length) :
    bytesEqual first second = true ↔ first = second := by
  rw [bytesEqual, decide_eq_true_eq, foldl_or_eq_zero]
  simp only [true_and]
  induction first generalizing second with
  | nil =>
      cases second with
      | nil => simp
      | cons byte rest => cases hlen
  | cons byte rest ih =>
      cases second with
      | nil => cases hlen
      | cons other others =>
          have hlen' : rest.length = others.length := by simpa using hlen
          have hrest := ih hlen'
          simp only [List.zipWith_cons_cons, List.mem_cons, forall_eq_or_imp, hrest,
            UInt8.xor_eq_zero_iff, List.cons.injEq]

/-! ## Built frames -/

/-- The view of the frame `dh_auth_frame` builds. -/
def builtView (type flags : UInt8) (key : List UInt8) (counter : Nat) (body : List UInt8) :
    FrameView :=
  { type := type, flags := flags,
    payload := littleEndian counterSize counter ++
      tag key type flags (authPrefixSize + body.length) counter body ++ body }

section Built

variable (type flags : UInt8) (key : List UInt8) (counter : Nat) (body : List UInt8)

@[simp] theorem builtView_payload_length :
    (builtView type flags key counter body).payload.length = authPrefixSize + body.length := by
  simp [builtView, authPrefixSize, Nat.add_assoc]

/-- What a successful build wrote: the bytes of one view, short enough for the payload. -/
theorem frame_ok {type flags : UInt8} {key : List UInt8} {counter : Nat} {body : List UInt8}
    {cap : Nat} {bytes : List UInt8} (h : frame type flags key counter body cap = .ok bytes) :
    bytes = (builtView type flags key counter body).bytes ∧
      authPrefixSize + body.length ≤ maxPayload := by
  simp only [frame] at h
  split at h
  · cases h
  · split at h
    · cases h
    · rename_i hpayload hcap
      have hroom : ¬ cap - headerSize < authPrefixSize + body.length := by omega
      simp only [wrap, hpayload, hroom, if_false] at h
      cases h
      refine ⟨?_, by omega⟩
      rw [FrameView.bytes, builtView_payload_length]
      simp [builtView]

/-- What a successful build wrote fits its output. -/
theorem frame_within {type flags : UInt8} {key : List UInt8} {counter : Nat} {body : List UInt8}
    {cap : Nat} {bytes : List UInt8} (h : frame type flags key counter body cap = .ok bytes) :
    headerSize + (authPrefixSize + body.length) ≤ cap := by
  simp only [frame] at h
  split at h
  · cases h
  · split at h
    · cases h
    · exact Nat.le_of_not_lt (by assumption)

/-- A build succeeds when the payload and the output leave room for the prefix and the body. -/
theorem frame_fits {type flags : UInt8} {key : List UInt8} {counter : Nat} {body : List UInt8}
    {cap : Nat} (hpayload : authPrefixSize + body.length ≤ maxPayload)
    (hcap : headerSize + (authPrefixSize + body.length) ≤ cap) :
    frame type flags key counter body cap = .ok (builtView type flags key counter body).bytes := by
  have hroom : ¬ cap - headerSize < authPrefixSize + body.length := by omega
  simp only [frame, wrap, Nat.not_lt.2 hpayload, Nat.not_lt.2 hcap, hroom, if_false]
  rw [FrameView.bytes, builtView_payload_length]
  simp [builtView]

theorem counterOf_builtView (hcounter : counter < 2 ^ 64) :
    counterOf (builtView type flags key counter body) = counter := by
  have htake : (builtView type flags key counter body).payload.take counterSize =
      littleEndian counterSize counter := by
    simp only [builtView, List.append_assoc]
    exact List.take_left' (by simp)
  rw [counterOf, htake, value_littleEndian_of_lt (by simpa [counterSize] using hcounter)]

theorem tagOf_builtView :
    tagOf (builtView type flags key counter body) =
      tag key type flags (authPrefixSize + body.length) counter body := by
  have hdrop : (builtView type flags key counter body).payload.drop counterSize =
      tag key type flags (authPrefixSize + body.length) counter body ++ body := by
    simp only [builtView, List.append_assoc]
    exact List.drop_left' (by simp)
  rw [tagOf, hdrop]
  exact List.take_left' (by simp)

theorem bodyOf_builtView : bodyOf (builtView type flags key counter body) = body := by
  simp only [bodyOf, builtView]
  exact List.drop_left' (by simp [authPrefixSize])

/-- A frame built under a key passes the tag check under that key. -/
theorem builtView_tag_verifies (hcounter : counter < 2 ^ 64) :
    TagVerifies key (builtView type flags key counter body) := by
  refine ⟨by simp, ?_⟩
  rw [counterOf_builtView _ _ _ _ _ hcounter, bodyOf_builtView, tagOf_builtView,
    builtView_payload_length]
  rfl

end Built

end DeskhopPlus.Auth
