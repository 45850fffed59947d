import Mathlib.Data.List.Basic

/-!
# HMAC and HKDF over any hash

RFC 2104 keys a hash of octets, and RFC 5869 derives keys from such a keyed hash: it extracts one
from the input and expands it, each block of the output made from the one before it.
-/

namespace DeskhopPlus.KeyedHash

/-- Two strings of octets mixed. -/
def mix (first second : List UInt8) : List UInt8 := List.zipWith (· ^^^ ·) first second

/-- A key on a block of its own: one that is longer is hashed first, and zeros fill the rest. -/
def blockKey (hash : List UInt8 → List UInt8) (blockLen : Nat) (key : List UInt8) : List UInt8 :=
  let key := if blockLen < key.length then hash key else key
  key ++ List.replicate (blockLen - key.length) 0

/-- HMAC, by a hash with blocks of a length. -/
def hmac (hash : List UInt8 → List UInt8) (blockLen : Nat) (key text : List UInt8) : List UInt8 :=
  let key := blockKey hash blockLen key
  hash (mix key (List.replicate blockLen 0x5c) ++
    hash (mix key (List.replicate blockLen 0x36) ++ text))

/-! ## Deriving keys -/

/-- The step of extraction. A salt that is not given is a string of zeros as long as a hash. -/
def extract (mac : List UInt8 → List UInt8 → List UInt8) (hashLen : Nat)
    (salt : Option (List UInt8)) (ikm : List UInt8) : List UInt8 :=
  mac (salt.getD (List.replicate hashLen 0)) ikm

/-- The blocks of the expansion, `T(0)` the empty one. -/
def expandBlock (mac : List UInt8 → List UInt8 → List UInt8) (prk info : List UInt8) :
    Nat → List UInt8
  | 0 => []
  | n + 1 => mac prk (expandBlock mac prk info n ++ info ++ [UInt8.ofNat (n + 1)])

/-- The blocks `T(1)` to `T(n)`. -/
def expandBlocks (mac : List UInt8 → List UInt8 → List UInt8) (prk info : List UInt8) (n : Nat) :
    List UInt8 :=
  (List.range n).flatMap fun i ↦ expandBlock mac prk info (i + 1)

/-- The step of expansion: the first octets of as many blocks as they need. -/
def expand (mac : List UInt8 → List UInt8 → List UInt8) (hashLen : Nat) (prk info : List UInt8)
    (length : Nat) : List UInt8 :=
  (expandBlocks mac prk info ((length + hashLen - 1) / hashLen)).take length

/-- HKDF: extract, then expand. -/
def hkdf (mac : List UInt8 → List UInt8 → List UInt8) (hashLen : Nat) (salt : Option (List UInt8))
    (ikm info : List UInt8) (length : Nat) : List UInt8 :=
  expand mac hashLen (extract mac hashLen salt ikm) info length

variable {hash : List UInt8 → List UInt8} {mac : List UInt8 → List UInt8 → List UInt8}
  {blockLen : Nat} {key : List UInt8}

theorem mix_replicate (octets : List UInt8) (mark : UInt8) :
    mix octets (List.replicate octets.length mark) = octets.map (· ^^^ mark) := by
  refine List.ext_getElem (by simp [mix]) fun i hi hi' ↦ ?_
  simp [mix]

theorem blockKey_of_le (h : key.length ≤ blockLen) :
    blockKey hash blockLen key = key ++ List.replicate (blockLen - key.length) 0 := by
  rw [blockKey, if_neg (Nat.not_lt.2 h)]

theorem blockKey_of_lt (h : blockLen < key.length) :
    blockKey hash blockLen key = hash key ++ List.replicate (blockLen - (hash key).length) 0 := by
  rw [blockKey, if_pos h]

/-- A key fills its block, where a hash does not overflow it. -/
theorem length_blockKey (hhash : ∀ data, (hash data).length ≤ blockLen) (key : List UInt8) :
    (blockKey hash blockLen key).length = blockLen := by
  by_cases hlong : blockLen < key.length
  · rw [blockKey_of_lt hlong, List.length_append, List.length_replicate,
      Nat.add_sub_cancel' (hhash key)]
  · have hshort := Nat.not_lt.1 hlong
    rw [blockKey_of_le hshort, List.length_append, List.length_replicate,
      Nat.add_sub_cancel' hshort]

/-- Zeros at the end of a short key do not show. -/
theorem blockKey_zeros {n : Nat} (h : key.length + n ≤ blockLen) :
    blockKey hash blockLen (key ++ List.replicate n 0) = blockKey hash blockLen key := by
  have hlength : (key ++ List.replicate n (0 : UInt8)).length = key.length + n := by
    rw [List.length_append, List.length_replicate]
  rw [blockKey_of_le (by omega), blockKey_of_le (by omega), hlength, List.append_assoc,
    List.replicate_append_replicate]
  congr 2
  omega

/-- A salt that is not given is the empty key. -/
theorem extract_none {hashLen : Nat} (h : hashLen ≤ blockLen) (ikm : List UInt8) :
    extract (hmac hash blockLen) hashLen none ikm = hmac hash blockLen [] ikm := by
  have hkey : blockKey hash blockLen ([] ++ List.replicate hashLen 0) = blockKey hash blockLen [] :=
    blockKey_zeros (by simpa using h)
  rw [List.nil_append] at hkey
  rw [extract, Option.getD_none, hmac, hmac, hkey]

theorem expandBlocks_succ (prk info : List UInt8) (n : Nat) :
    expandBlocks mac prk info (n + 1) =
      expandBlocks mac prk info n ++ expandBlock mac prk info (n + 1) := by
  rw [expandBlocks, List.range_succ, List.flatMap_append, List.flatMap_singleton, expandBlocks]

end DeskhopPlus.KeyedHash
