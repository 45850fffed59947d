import DeskhopPlus.Auth.Tag
import DeskhopPlus.Crypto.P256

/-!
# The board's identity and its one registration

`dh_pair.c`: the board's own key pair, the helper it is registered to, and the single-shot window
inside which a pairing request may replace that registration. Times are the board's millisecond
counter and wrap with it.
-/

namespace DeskhopPlus.Board

open Auth Crypto

/-- `DH_P256_SHARED_SIZE`. -/
def sharedSize : Nat := 32

/-- `DH_PAIR_WINDOW_MS`. -/
def pairWindowMs : UInt32 := 60000

/-- The results of `dh_pair_result` other than `DH_PAIR_OK`. -/
inductive PairFault where
  | noWindow
  | alreadyRegistered
  | badKey
  | noIdentity
  deriving DecidableEq, Repr

/-- `dh_pair`. -/
structure Pair where
  identityPrivate : List UInt8
  identityPublic : List UInt8
  hasIdentity : Bool
  helperKeyId : List UInt8
  sharedSecret : List UInt8
  registered : Bool
  windowOpen : Bool
  windowClaimed : Bool
  windowOpenedMs : UInt32
  registrations : UInt32
  deriving DecidableEq, Repr

namespace Pair

/-- `dh_pair_init`. -/
def init : Pair where
  identityPrivate := List.replicate privateSize 0
  identityPublic := List.replicate publicSize 0
  hasIdentity := false
  helperKeyId := List.replicate keyIdSize 0
  sharedSecret := List.replicate sharedSize 0
  registered := false
  windowOpen := false
  windowClaimed := false
  windowOpenedMs := 0
  registrations := 0

/-- `dh_pair_set_identity`. A key that is no scalar of the curve leaves the board as it was. -/
def setIdentity (curve : P256) (p : Pair) (privateKey : List UInt8) : Pair :=
  match curve.publicFromPrivate privateKey with
  | none => p
  | some publicKey =>
      { p with identityPrivate := privateKey, identityPublic := publicKey, hasIdentity := true }

/-- `dh_pair_public_key`. -/
def publicKey (p : Pair) : Option (List UInt8) :=
  if p.hasIdentity then some p.identityPublic else none

/-- `dh_pair_set_registration`. -/
def setRegistration (p : Pair) (keyId secret : List UInt8) : Pair :=
  { p with helperKeyId := keyId, sharedSecret := secret, registered := true }

/-- `dh_pair_clear_registration`. -/
def clearRegistration (p : Pair) : Pair :=
  { p with
    helperKeyId := List.replicate keyIdSize 0
    sharedSecret := List.replicate sharedSize 0
    registered := false }

/-- `dh_pair_is_registered_key`. -/
def isRegisteredKey (p : Pair) (keyId : List UInt8) : Bool :=
  if p.registered = false then false else bytesEqual p.helperKeyId keyId

/-- `dh_pair_shared_secret`. -/
def secret (p : Pair) : Option (List UInt8) :=
  if p.registered then some p.sharedSecret else none

/-- `dh_pair_open_window`. -/
def openWindow (p : Pair) (now : UInt32) : Pair :=
  { p with windowOpen := true, windowClaimed := false, windowOpenedMs := now }

/-- `dh_pair_window_open`. -/
def windowStands (p : Pair) (now : UInt32) : Bool :=
  p.windowOpen && now - p.windowOpenedMs < pairWindowMs

/-- `minute_elapsed`. -/
def minuteElapsed (p : Pair) (now : UInt32) : Bool := pairWindowMs ≤ now - p.windowOpenedMs

/-- `dh_pair_tick`. -/
def tick (p : Pair) (now : UInt32) : Pair :=
  let p := if p.windowOpen && !p.windowStands now then { p with windowOpen := false } else p
  if p.windowClaimed && p.minuteElapsed now then { p with windowClaimed := false } else p

/-- `dh_pair_refusal`. -/
def refusal (p : Pair) (now : UInt32) : PairFault :=
  if p.windowClaimed && !p.minuteElapsed now then .alreadyRegistered else .noWindow

/-- `dh_pair_register`: the one exchange of the pairing window, and the window closed behind it. -/
def register (curve : P256) (p : Pair) (now : UInt32) (helperPublic : List UInt8) :
    Except PairFault Unit × Pair :=
  if p.windowStands now = false then (.error (p.refusal now), p)
  else if p.hasIdentity = false then (.error .noIdentity, p)
  else
    match curve.ecdh p.identityPrivate helperPublic with
    | none => (.error .badKey, p)
    | some secret =>
        let p := p.setRegistration (keyId helperPublic) secret
        (.ok (), { p with
          windowOpen := false
          windowClaimed := true
          registrations := p.registrations + 1 })

/-- A request outside the window, or one the curve refuses, leaves the board as it was. -/
theorem register_error {curve : P256} {p : Pair} {now : UInt32} {helperPublic : List UInt8}
    {fault : PairFault} (h : (p.register curve now helperPublic).1 = .error fault) :
    (p.register curve now helperPublic).2 = p := by
  unfold register at h ⊢
  split
  · rfl
  · split
    · rfl
    · split
      · rfl
      · -- the exchange succeeded, so there was no fault
        simp_all

end Pair

end DeskhopPlus.Board
