import Mathlib.Algebra.Ring.Nat
import Mathlib.Data.List.Basic

/-!
# SHA-256, HMAC-SHA256 and HKDF-SHA256

The hash `dh_sha256.c` computes, as it computes it: a streaming context that holds the
chaining words, the bit count and the bytes of an unfinished block, an HMAC over two such
contexts, and the extract-and-expand key derivation. The C arrays of fixed size are byte lists;
the bytes of the block buffer past the held ones are never read and are not represented.
-/

namespace DeskhopPlus.Crypto

/-- The eight chaining words. -/
structure Words where
  a : UInt32
  b : UInt32
  c : UInt32
  d : UInt32
  e : UInt32
  f : UInt32
  g : UInt32
  h : UInt32
  deriving DecidableEq, Repr

/-- `DH_SHA256_BLOCK_SIZE`. -/
def blockSize : Nat := 64

/-- `DH_SHA256_DIGEST_SIZE`. -/
def digestSize : Nat := 32

/-- `DH_SHA256_K`, the round constants of FIPS 180-4. -/
def roundConstants : List UInt32 :=
  [0x428a2f98, 0x71374491, 0xb5c0fbcf, 0xe9b5dba5, 0x3956c25b, 0x59f111f1, 0x923f82a4,
   0xab1c5ed5, 0xd807aa98, 0x12835b01, 0x243185be, 0x550c7dc3, 0x72be5d74, 0x80deb1fe,
   0x9bdc06a7, 0xc19bf174, 0xe49b69c1, 0xefbe4786, 0x0fc19dc6, 0x240ca1cc, 0x2de92c6f,
   0x4a7484aa, 0x5cb0a9dc, 0x76f988da, 0x983e5152, 0xa831c66d, 0xb00327c8, 0xbf597fc7,
   0xc6e00bf3, 0xd5a79147, 0x06ca6351, 0x14292967, 0x27b70a85, 0x2e1b2138, 0x4d2c6dfc,
   0x53380d13, 0x650a7354, 0x766a0abb, 0x81c2c92e, 0x92722c85, 0xa2bfe8a1, 0xa81a664b,
   0xc24b8b70, 0xc76c51a3, 0xd192e819, 0xd6990624, 0xf40e3585, 0x106aa070, 0x19a4c116,
   0x1e376c08, 0x2748774c, 0x34b0bcb5, 0x391c0cb3, 0x4ed8aa4a, 0x5b9cca4f, 0x682e6ff3,
   0x748f82ee, 0x78a5636f, 0x84c87814, 0x8cc70208, 0x90befffa, 0xa4506ceb, 0xbef9a3f7,
   0xc67178f2]

/-- `rotr32`. -/
def rotr32 (x : UInt32) (n : UInt32) : UInt32 :=
  (x >>> n) ||| (x <<< (32 - n))

/-- `load_be32`: a big-endian word at the head of a byte list. -/
def loadBe32 (bytes : List UInt8) : UInt32 :=
  ((bytes.getD 0 0).toUInt32 <<< 24) ||| ((bytes.getD 1 0).toUInt32 <<< 16) |||
    ((bytes.getD 2 0).toUInt32 <<< 8) ||| (bytes.getD 3 0).toUInt32

/-- `store_be32`. -/
def storeBe32 (value : UInt32) : List UInt8 :=
  [(value >>> 24).toUInt8, (value >>> 16).toUInt8, (value >>> 8).toUInt8, value.toUInt8]

/-- The first sixteen schedule words of a block. -/
def loadBlock (block : List UInt8) : List UInt32 :=
  (List.range 16).map fun i ↦ loadBe32 (block.drop (4 * i))

/-- The schedule word that follows the words `w` already computed. -/
def nextWord (w : List UInt32) : UInt32 :=
  let i := w.length
  let early := w.getD (i - 15) 0
  let late := w.getD (i - 2) 0
  let s0 := rotr32 early 7 ^^^ rotr32 early 18 ^^^ (early >>> 3)
  let s1 := rotr32 late 17 ^^^ rotr32 late 19 ^^^ (late >>> 10)
  w.getD (i - 16) 0 + s0 + w.getD (i - 7) 0 + s1

/-- Append `n` schedule words. -/
def extendSchedule : Nat → List UInt32 → List UInt32
  | 0, w => w
  | n + 1, w => extendSchedule n (w ++ [nextWord w])

/-- One round of the compression function. -/
def round (s : Words) (k w : UInt32) : Words :=
  let s1 := rotr32 s.e 6 ^^^ rotr32 s.e 11 ^^^ rotr32 s.e 25
  let ch := (s.e &&& s.f) ^^^ (~~~ s.e &&& s.g)
  let t1 := s.h + s1 + ch + k + w
  let s0 := rotr32 s.a 2 ^^^ rotr32 s.a 13 ^^^ rotr32 s.a 22
  let maj := (s.a &&& s.b) ^^^ (s.a &&& s.c) ^^^ (s.b &&& s.c)
  { a := t1 + (s0 + maj), b := s.a, c := s.b, d := s.c,
    e := s.d + t1, f := s.e, g := s.f, h := s.g }

/-- `dh_sha256_compress`: one block into the chaining words. -/
def compress (state : Words) (block : List UInt8) : Words :=
  let w := extendSchedule 48 (loadBlock block)
  let s := (roundConstants.zip w).foldl (fun s kw ↦ round s kw.1 kw.2) state
  { a := state.a + s.a, b := state.b + s.b, c := state.c + s.c, d := state.d + s.d,
    e := state.e + s.e, f := state.f + s.f, g := state.g + s.g, h := state.h + s.h }

/-- `dh_sha256_ctx`. `block` holds the `have` bytes of the unfinished block. -/
structure Sha256 where
  state : Words
  bits : Nat
  block : List UInt8
  deriving DecidableEq, Repr

/-- `dh_sha256_init`. -/
def Sha256.init : Sha256 where
  state := { a := 0x6a09e667, b := 0xbb67ae85, c := 0x3c6ef372, d := 0xa54ff53a,
             e := 0x510e527f, f := 0x9b05688c, g := 0x1f83d9ab, h := 0x5be0cd19 }
  bits := 0
  block := []

/-- The loop over whole blocks of `dh_sha256_update`, run `count` times. -/
def compressBlocks : Nat → Words → List UInt8 → Words × List UInt8
  | 0, state, data => (state, data)
  | count + 1, state, data =>
      compressBlocks count (compress state (data.take blockSize)) (data.drop blockSize)

/-- The second half of `dh_sha256_update`, reached with an empty block buffer. -/
def Sha256.absorb (c : Sha256) (data : List UInt8) : Sha256 :=
  let (state, rest) := compressBlocks (data.length / blockSize) c.state data
  { c with state := state, block := rest }

/-- `dh_sha256_update`. -/
def Sha256.update (c : Sha256) (data : List UInt8) : Sha256 :=
  let c := { c with bits := (c.bits + data.length * 8) % 2 ^ 64 }
  if 0 < c.block.length then
    let take := min data.length (blockSize - c.block.length)
    let block := c.block ++ data.take take
    if block.length < blockSize then { c with block := block }
    else Sha256.absorb { c with state := compress c.state block, block := [] } (data.drop take)
  else c.absorb data

/-- The bit count in the last eight bytes of the padding, most significant first. -/
def lengthBytes (bits : Nat) : List UInt8 :=
  (List.range 8).map fun i ↦ UInt8.ofNat (bits >>> (56 - i * 8))

/-- `dh_sha256_final`. Each padding update restores the bit count of the message. -/
def Sha256.final (c : Sha256) : List UInt8 :=
  let bits := c.bits
  let c : Sha256 := { c.update [0x80] with bits := bits }
  let pad := if c.block.length ≤ 56 then 56 - c.block.length else 120 - c.block.length
  let c : Sha256 := if 0 < pad then { c.update (List.replicate pad 0) with bits := bits } else c
  let c := c.update (lengthBytes bits)
  storeBe32 c.state.a ++ storeBe32 c.state.b ++ storeBe32 c.state.c ++ storeBe32 c.state.d ++
    storeBe32 c.state.e ++ storeBe32 c.state.f ++ storeBe32 c.state.g ++ storeBe32 c.state.h

/-- `dh_sha256`. -/
def sha256 (data : List UInt8) : List UInt8 :=
  (Sha256.init.update data).final

/-- `dh_hmac_sha256_ctx`. -/
structure Hmac where
  inner : Sha256
  opad : List UInt8
  deriving DecidableEq, Repr

/-- `dh_hmac_sha256_init`: a long key is hashed first, and either is padded with zeros. -/
def Hmac.init (key : List UInt8) : Hmac :=
  let short := if blockSize < key.length then sha256 key else key
  let block := short ++ List.replicate (blockSize - short.length) 0
  { inner := Sha256.init.update (block.map (· ^^^ 0x36)), opad := block.map (· ^^^ 0x5c) }

/-- `dh_hmac_sha256_update`. -/
def Hmac.update (c : Hmac) (data : List UInt8) : Hmac :=
  { c with inner := c.inner.update data }

/-- `dh_hmac_sha256_final`. -/
def Hmac.final (c : Hmac) : List UInt8 :=
  ((Sha256.init.update c.opad).update c.inner.final).final

/-- `dh_hmac_sha256`. -/
def hmacSha256 (key data : List UInt8) : List UInt8 :=
  ((Hmac.init key).update data).final

/-- `DH_HKDF_MAX_OUTPUT`. -/
def hkdfMaxOutput : Nat := 255 * digestSize

/-- `count` rounds of the expand loop: the previous block, the counter and the output so far. -/
def hkdfExpand (prk info : List UInt8) : Nat → List UInt8 → Nat → List UInt8 → List UInt8
  | 0, _, _, out => out
  | count + 1, previous, counter, out =>
      let counter := counter + 1
      let c := Hmac.init prk
      let c := if 1 < counter then c.update previous else c
      let c := if 0 < info.length then c.update info else c
      let block := (c.update [UInt8.ofNat counter]).final
      hkdfExpand prk info count block counter (out ++ block)

/-- `dh_hkdf_sha256`. A request past the maximum writes nothing. -/
def hkdfSha256 (ikm salt info : List UInt8) (outLen : Nat) : List UInt8 :=
  if hkdfMaxOutput < outLen then []
  else
    (hkdfExpand (hmacSha256 salt ikm) info ((outLen + digestSize - 1) / digestSize) [] 0 []).take
      outLen

end DeskhopPlus.Crypto
