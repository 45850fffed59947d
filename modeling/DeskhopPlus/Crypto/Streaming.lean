import DeskhopPlus.Crypto.Sha256

/-!
# The streaming hash is the hash of the whole message

A context of `dh_sha256.c` takes its message in pieces of any size. `Absorbed` says which message a
context has taken, `absorbed_update` that an update appends to it, and `final_eq` that what comes
out is the digest of the padded message, block after block. The HMAC and the one round of the key
derivation that every key of the protocol needs are then hashes of whole messages as well.
-/

namespace DeskhopPlus.Crypto

/-- The bytes of the chaining words, most significant first. -/
def digest (s : Words) : List UInt8 :=
  storeBe32 s.a ++ storeBe32 s.b ++ storeBe32 s.c ++ storeBe32 s.d ++
    storeBe32 s.e ++ storeBe32 s.f ++ storeBe32 s.g ++ storeBe32 s.h

/-- The zeros between the end mark of a message and its bit count. -/
def zerosFor (length : Nat) : Nat :=
  if (length + 1) % blockSize ≤ 56 then 56 - (length + 1) % blockSize
  else 120 - (length + 1) % blockSize

/-- A message with its end mark, the zeros and the bit count. -/
def padded (data : List UInt8) : List UInt8 :=
  data ++ [0x80] ++ List.replicate (zerosFor data.length) 0 ++
    lengthBytes (data.length * 8 % 2 ^ 64)

/-- The words after `count` blocks, by a compression function. -/
def chain (compress : Words → List UInt8 → Words) : Nat → Words → List UInt8 → Words
  | 0, state, _ => state
  | count + 1, state, data =>
      chain compress count (compress state (data.take blockSize)) (data.drop blockSize)

/-- The hash of a whole message, by a compression function. -/
def hashBy (compress : Words → List UInt8 → Words) (data : List UInt8) : List UInt8 :=
  digest (chain compress ((padded data).length / blockSize) Sha256.init.state (padded data))

/-! ## Blocks -/

theorem compressBlocks_eq (count : Nat) (state : Words) (data : List UInt8) :
    compressBlocks count state data =
      (chain compress count state data, data.drop (count * blockSize)) := by
  induction count generalizing state data with
  | zero => simp [compressBlocks, chain]
  | succ count ih =>
      rw [compressBlocks, ih, chain, List.drop_drop, Nat.succ_mul, Nat.add_comm blockSize]

theorem chain_add (first second : Nat) (state : Words) (data : List UInt8) :
    chain compress (first + second) state data =
      chain compress second (chain compress first state data) (data.drop (first * blockSize)) := by
  induction first generalizing state data with
  | zero => simp [chain]
  | succ first ih =>
      rw [Nat.succ_add, chain, ih, chain, List.drop_drop, Nat.succ_mul, Nat.add_comm blockSize]

/-- The blocks inside a message do not depend on what follows it. -/
theorem chain_append {count : Nat} {data : List UInt8} (hwhole : count * blockSize ≤ data.length)
    (state : Words) (more : List UInt8) :
    chain compress count state (data ++ more) = chain compress count state data := by
  induction count generalizing state data with
  | zero => rfl
  | succ count ih =>
      have hblock : blockSize ≤ data.length := by
        rw [Nat.succ_mul] at hwhole
        omega
      have hrest : count * blockSize ≤ (data.drop blockSize).length := by
        rw [List.length_drop]
        rw [Nat.succ_mul] at hwhole
        omega
      rw [chain, chain, List.take_append_of_le_length hblock, List.drop_append_of_le_length hblock,
        ih hrest]

/-- The chaining words after the whole blocks of a message. -/
def chained (data : List UInt8) : Words :=
  chain compress (data.length / blockSize) Sha256.init.state data

/-- A message of whole blocks is chained first, and then what follows it. -/
theorem chained_append {data : List UInt8} (hwhole : data.length % blockSize = 0)
    (more : List UInt8) :
    chained (data ++ more) = chain compress (more.length / blockSize) (chained data) more := by
  have hlength : data.length / blockSize * blockSize = data.length :=
    Nat.div_mul_cancel (Nat.dvd_of_mod_eq_zero hwhole)
  have hcount : (data ++ more).length / blockSize =
      data.length / blockSize + more.length / blockSize := by
    simp only [List.length_append, blockSize] at *
    omega
  rw [chained, hcount, chain_add, chain_append (Nat.le_of_eq hlength), hlength, List.drop_left,
    chained]

/-- One more block. -/
theorem chained_block {data block : List UInt8} (hwhole : data.length % blockSize = 0)
    (hblock : block.length = blockSize) :
    chained (data ++ block) = compress (chained data) block := by
  rw [chained_append hwhole, hblock, Nat.div_self (by decide), chain, chain,
    List.take_of_length_le (Nat.le_of_eq hblock)]

/-! ## The context -/

/-- The context has taken the message: its words are those of the whole blocks, and the unfinished
block is what is left. The bit count is not part of it. -/
def Absorbed (c : Sha256) (data : List UInt8) : Prop :=
  ∃ whole, data = whole ++ c.block ∧ whole.length % blockSize = 0 ∧ c.block.length < blockSize ∧
    c.state = chained whole

variable {c : Sha256} {data : List UInt8}

theorem absorbed_init : Absorbed Sha256.init [] := ⟨[], rfl, rfl, by decide, rfl⟩

/-- The bit count does not show in what was taken. -/
theorem Absorbed.bits (h : Absorbed c data) (bits : Nat) :
    Absorbed { c with bits := bits } data := h

/-- With no block begun, whole blocks are chained and the rest is kept. -/
theorem Absorbed.absorb (h : Absorbed c data) (hempty : c.block = []) (more : List UInt8) :
    Absorbed (c.absorb more) (data ++ more) := by
  obtain ⟨whole, rfl, hwhole, -, hstate⟩ := h
  have hcut : more.length / blockSize * blockSize ≤ more.length := Nat.div_mul_le_self _ _
  have htaken : (more.take (more.length / blockSize * blockSize)).length =
      more.length / blockSize * blockSize := by
    rw [List.length_take, Nat.min_eq_left hcut]
  refine ⟨whole ++ more.take (more.length / blockSize * blockSize), ?_, ?_, ?_, ?_⟩
  · rw [Sha256.absorb, compressBlocks_eq, hempty]
    simp
  · rw [List.length_append, htaken, Nat.add_mul_mod_self_right, hwhole]
  · rw [Sha256.absorb, compressBlocks_eq]
    dsimp only
    rw [List.length_drop]
    simp only [blockSize]
    omega
  · rw [Sha256.absorb, compressBlocks_eq, chained_append hwhole, htaken,
      Nat.mul_div_cancel _ (by decide), ← hstate]
    have hinside := chain_append (Nat.le_of_eq htaken.symm) c.state
      (more.drop (more.length / blockSize * blockSize))
    rwa [List.take_append_drop] at hinside

/-- An update appends to the message. -/
theorem absorbed_update (h : Absorbed c data) (more : List UInt8) :
    Absorbed (c.update more) (data ++ more) := by
  rw [Sha256.update]
  dsimp only
  by_cases hbegun : 0 < c.block.length
  · rw [if_pos hbegun]
    obtain ⟨whole, rfl, hwhole, hroom, hstate⟩ := h
    by_cases hshort : c.block.length + more.length < blockSize
    · -- the unfinished block stays unfinished
      have htake : min more.length (blockSize - c.block.length) = more.length := by omega
      rw [htake, List.take_length, if_pos (by rwa [List.length_append])]
      exact ⟨whole, List.append_assoc .., hwhole, by rwa [List.length_append], hstate⟩
    · -- the unfinished block is filled up, and the rest is taken from there
      have htake : min more.length (blockSize - c.block.length) = blockSize - c.block.length := by
        omega
      have hfilled : (c.block ++ more.take (blockSize - c.block.length)).length = blockSize := by
        rw [List.length_append, List.length_take]
        omega
      rw [htake, if_neg (by omega)]
      have hnext : Absorbed
          { state := compress c.state (c.block ++ more.take (blockSize - c.block.length))
            bits := (c.bits + more.length * 8) % 2 ^ 64
            block := [] }
          (whole ++ (c.block ++ more.take (blockSize - c.block.length))) := by
        refine ⟨_, (List.append_nil _).symm, ?_, (by decide : 0 < blockSize), ?_⟩
        · rw [List.length_append, hfilled, Nat.add_mod_right, hwhole]
        · rw [chained_block hwhole hfilled, hstate]
      have habsorbed := hnext.absorb rfl (more.drop (blockSize - c.block.length))
      rwa [List.append_assoc, List.append_assoc, List.take_append_drop, ← List.append_assoc]
        at habsorbed
  · rw [if_neg hbegun]
    exact (h.bits _).absorb (List.eq_nil_of_length_eq_zero (by simpa using hbegun)) more

/-! ## The digest -/

/-- The words of a context that has taken whole blocks only. -/
theorem Absorbed.chained (h : Absorbed c data) (hwhole : data.length % blockSize = 0) :
    c.state = chained data := by
  obtain ⟨whole, rfl, hblocks, hroom, hstate⟩ := h
  have hempty : c.block = [] := by
    apply List.eq_nil_of_length_eq_zero
    rw [List.length_append] at hwhole
    simp only [blockSize] at *
    omega
  rw [hstate, hempty, List.append_nil]

theorem Absorbed.block_length (h : Absorbed c data) : c.block.length = data.length % blockSize := by
  obtain ⟨whole, rfl, hblocks, hroom, -⟩ := h
  rw [List.length_append]
  simp only [blockSize] at *
  omega

/-- The padding ends a message on a block. -/
theorem padded_length (data : List UInt8) : (padded data).length % blockSize = 0 := by
  simp only [padded, zerosFor, lengthBytes, List.length_append, List.length_replicate,
    List.length_map, List.length_range, List.length_singleton]
  split <;>
    · simp only [blockSize] at *
      omega

theorem update_bits (c : Sha256) (more : List UInt8) :
    (c.update more).bits = (c.bits + more.length * 8) % 2 ^ 64 := by
  rw [Sha256.update]
  dsimp only
  split
  · split <;> rfl
  · rfl

/-- The context has taken the message and counted its bits. -/
structure Hashing (c : Sha256) (data : List UInt8) : Prop where
  absorbed : Absorbed c data
  bits : c.bits = data.length * 8 % 2 ^ 64

theorem hashing_init : Hashing Sha256.init [] := ⟨absorbed_init, rfl⟩

theorem Hashing.update (h : Hashing c data) (more : List UInt8) :
    Hashing (c.update more) (data ++ more) := by
  refine ⟨absorbed_update h.absorbed more, ?_⟩
  rw [update_bits, h.bits, List.length_append, Nat.mod_add_mod, Nat.add_mul]

/-- What comes out is the digest of the padded message. -/
theorem Hashing.final (h : Hashing c data) : c.final = hashBy compress data := by
  have hmarked : Absorbed { c.update [0x80] with bits := c.bits } (data ++ [0x80]) :=
    (absorbed_update h.absorbed [0x80]).bits _
  have hblock := hmarked.block_length
  rw [List.length_append, List.length_singleton] at hblock
  have hzeros : (if (c.update [0x80]).block.length ≤ 56 then 56 - (c.update [0x80]).block.length
      else 120 - (c.update [0x80]).block.length) = zerosFor data.length := by
    rw [zerosFor, ← hblock]
  rw [Sha256.final]
  dsimp only
  rw [hzeros]
  have hfilled : Absorbed
      (if 0 < zerosFor data.length then
        { ({ c.update [0x80] with bits := c.bits } : Sha256).update
            (List.replicate (zerosFor data.length) 0) with bits := c.bits }
      else { c.update [0x80] with bits := c.bits })
      (data ++ [0x80] ++ List.replicate (zerosFor data.length) 0) := by
    split
    · exact (absorbed_update hmarked _).bits _
    · rename_i hnone
      rw [Nat.eq_zero_of_not_pos hnone]
      simpa using hmarked
  have hall := absorbed_update hfilled (lengthBytes c.bits)
  rw [h.bits] at hall ⊢
  rw [hall.chained (padded_length data)]
  rfl

/-- `dh_sha256` hashes the whole message. -/
theorem sha256_eq (data : List UInt8) : sha256 data = hashBy compress data :=
  (hashing_init.update data).final

/-! ## The keyed hash -/

/-- A key on a block of its own, each byte mixed with one constant. -/
def keyBlock (key : List UInt8) (mark : UInt8) : List UInt8 :=
  (key ++ List.replicate (blockSize - key.length) 0).map (· ^^^ mark)

/-- The HMAC of a whole message under a key of at most one block, by a compression function. -/
def hmacBy (compress : Words → List UInt8 → Words) (key data : List UInt8) : List UInt8 :=
  hashBy compress (keyBlock key 0x5c ++ hashBy compress (keyBlock key 0x36 ++ data))

/-- The HMAC context has taken the message under the key. -/
structure Keyed (c : Hmac) (key data : List UInt8) : Prop where
  inner : Hashing c.inner (keyBlock key 0x36 ++ data)
  opad : c.opad = keyBlock key 0x5c

variable {key : List UInt8} {hmac : Hmac}

theorem keyed_init (hkey : key.length ≤ blockSize) : Keyed (Hmac.init key) key [] := by
  rw [Hmac.init, if_neg (Nat.not_lt.2 hkey)]
  refine ⟨?_, rfl⟩
  rw [List.append_nil]
  exact hashing_init.update _

theorem Keyed.update (h : Keyed hmac key data) (more : List UInt8) :
    Keyed (hmac.update more) key (data ++ more) := by
  refine ⟨?_, h.opad⟩
  rw [← List.append_assoc]
  exact h.inner.update more

/-- What comes out is the HMAC of the whole message. -/
theorem Keyed.final (h : Keyed hmac key data) : hmac.final = hmacBy compress key data := by
  have houter := (hashing_init.update hmac.opad).update hmac.inner.final
  rw [Hmac.final, houter.final, h.inner.final, h.opad]
  rfl

theorem hmacSha256_eq (hkey : key.length ≤ blockSize) (data : List UInt8) :
    hmacSha256 key data = hmacBy compress key data :=
  ((keyed_init hkey).update data).final

theorem hashBy_length (compress : Words → List UInt8 → Words) (data : List UInt8) :
    (hashBy compress data).length = digestSize := by
  simp [hashBy, digest, storeBe32, digestSize]

/-- One round of the key derivation: the HMAC of the context and the counter one. -/
theorem hkdfSha256_eq {ikm salt info : List UInt8} {outLen : Nat} (hsalt : salt.length ≤ blockSize)
    (hinfo : 0 < info.length) (hpos : 0 < outLen) (hone : outLen ≤ digestSize) :
    hkdfSha256 ikm salt info outLen =
      (hmacBy compress (hmacBy compress salt ikm) (info ++ [1])).take outLen := by
  have hcount : (outLen + digestSize - 1) / digestSize = 1 := by
    simp only [digestSize] at *
    omega
  have hprk : (hmacBy compress salt ikm).length ≤ blockSize := by
    rw [hmacBy, hashBy_length]
    decide
  have hround : ((((Hmac.init (hmacBy compress salt ikm)).update info)).update
      [UInt8.ofNat (0 + 1)]).final = hmacBy compress (hmacBy compress salt ikm) (info ++ [1]) :=
    (((keyed_init hprk).update info).update [1]).final
  have hroom : ¬ hkdfMaxOutput < outLen := by
    simp only [hkdfMaxOutput, digestSize] at *
    omega
  rw [hkdfSha256, if_neg hroom, hcount, hmacSha256_eq hsalt, hkdfExpand, hkdfExpand, if_pos hinfo,
    if_neg (by decide : ¬ 1 < 0 + 1), hround, List.nil_append]

end DeskhopPlus.Crypto
