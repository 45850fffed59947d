import DeskhopPlus.Crypto.Sha256
import DeskhopPlus.Library.Bytes

/-!
# The curve as the core sees it

`dh_p256.c` hands every curve operation to micro-ecc, so the curve is a parameter here: the public
half of a private key, and one Diffie-Hellman step. `P256.Lawful` collects what the core relies on,
that public keys are 64 bytes long and that both ends of an exchange compute one secret.
-/

namespace DeskhopPlus.Crypto

/-- `DH_P256_PRIVATE_SIZE`. -/
def privateSize : Nat := 32

/-- `DH_P256_PUBLIC_SIZE`. -/
def publicSize : Nat := 64

/-- `DH_KEY_ID_SIZE`. -/
def keyIdSize : Nat := 8

/-- The two curve operations of `dh_p256.h`. `none` is a return of `false`. -/
structure P256 where
  publicFromPrivate : List UInt8 → Option (List UInt8)
  ecdh : List UInt8 → List UInt8 → Option (List UInt8)

/-- What the callers of the curve rely on. -/
structure P256.Lawful (curve : P256) : Prop where
  public_length : ∀ {secret shown}, curve.publicFromPrivate secret = some shown →
    shown.length = publicSize
  agreement : ∀ {mine theirs myPublic theirPublic},
    curve.publicFromPrivate mine = some myPublic →
    curve.publicFromPrivate theirs = some theirPublic →
    curve.ecdh mine theirPublic = curve.ecdh theirs myPublic

/-- `dh_p256_key_id`. -/
def keyId (publicKey : List UInt8) : List UInt8 := (sha256 publicKey).take keyIdSize

/-! ## The curve at three private keys -/

/-- The scalar `k` as a private key. -/
def smallPrivate (k : Nat) : List UInt8 := (Bytes.littleEndian privateSize k).reverse

/-- The x coordinate of `k` times the base point, for the scalars two, three and four and their
products. -/
def smallX : Nat → Nat
  | 2 => 0x7cf27b188d034f7e8a52380304b51ac3c08969e277f21b35a60b48fc47669978
  | 3 => 0x5ecbe4d1a6330a44c8f7ef951d4bf165e6c6b721efada985fb41661bc6e7fd6c
  | 4 => 0xe2534a3532d08fbba02dde659ee62bd0031fe2db785596ef509302446b030852
  | 6 => 0xb01a172a76a4602c92d3242cb897dde3024c740debb215b4c6b0aae93c2291a9
  | 8 => 0x62d9779dbee9b0534042742d3ab54cadc1d238980fce97dbb4dd9dc1db6fb393
  | 9 => 0xea68d7b6fedf0b71878938d51d71f8729e0acb8c2c6df8b3d79e8a4b90949ee0
  | 12 => 0x741dd5bda817d95e4626537320e5d55179983028b2f82c99d500c5ee8624e3c4
  | _ => 0x76a94d138a6b41858b821c629836315fcd28392eff6ca038a5eb4787e1277c6e

/-- The y coordinate of the public key of `k`, for the scalars two, three and four. -/
def smallY : Nat → Nat
  | 2 => 0x07775510db8ed040293d9ac69f7430dbba7dade63ce982299e04b79d227873d1
  | 3 => 0x8734640c4998ff7e374b06ce1a64a2ecd82ab036384fb83d9a79b127a27d5032
  | _ => 0xe0f1575a4c633cc719dfee5fda862d764efc96c3f30ee0055c42c23f184ed8c6

/-- The public key of the scalar `k`. -/
def smallPublic (k : Nat) : List UInt8 :=
  (Bytes.littleEndian 32 (smallX k)).reverse ++ (Bytes.littleEndian 32 (smallY k)).reverse

/-- The scalars that are drawn. The library refuses the scalar one. -/
def smallScalars : List Nat := [2, 3, 4]

/-- The curve where only the scalars two, three and four are ever drawn. -/
def smallCurve : P256 where
  publicFromPrivate secret := (smallScalars.find? (smallPrivate · = secret)).map smallPublic
  ecdh secret shown :=
    match smallScalars.find? (smallPrivate · = secret),
      smallScalars.find? (smallPublic · = shown) with
    | some k, some l => some (Bytes.littleEndian 32 (smallX (k * l))).reverse
    | _, _ => none

theorem smallCurve_lawful : smallCurve.Lawful := by
  have hfind : ∀ {secret shown}, smallCurve.publicFromPrivate secret = some shown →
      ∃ k ∈ smallScalars, smallScalars.find? (smallPrivate · = secret) = some k ∧
        shown = smallPublic k := by
    intro secret shown h
    obtain ⟨k, hk, rfl⟩ := Option.map_eq_some_iff.1 h
    exact ⟨k, List.mem_of_find?_eq_some hk, hk, rfl⟩
  have hshown : ∀ k ∈ smallScalars, smallScalars.find? (smallPublic · = smallPublic k) =
      some k := by
    decide
  refine ⟨?_, ?_⟩
  · intro secret shown h
    obtain ⟨k, _, _, rfl⟩ := hfind h
    simp [smallPublic, publicSize]
  · intro mine theirs myPublic theirPublic hmine htheirs
    obtain ⟨k, hk, hfindk, rfl⟩ := hfind hmine
    obtain ⟨l, hl, hfindl, rfl⟩ := hfind htheirs
    simp only [smallCurve, hfindk, hfindl, hshown k hk, hshown l hl, Nat.mul_comm]

end DeskhopPlus.Crypto
