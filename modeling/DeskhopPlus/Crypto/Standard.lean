import DeskhopPlus.Crypto.Streaming
import DeskhopPlus.Library.KeyedHash
import DeskhopPlus.Library.Sha2

/-!
# The hashes are those of the standards

A message taken in any pieces has the digest of FIPS 180-4, the keyed hash is that of RFC 2104 for
keys of every length, and the derivation of keys is that of RFC 5869 for every length it serves.
-/

namespace DeskhopPlus.Crypto

/-! ## A block -/

theorem toBitVec_rotr32 (x : UInt32) {n : Nat} (hpos : 0 < n) (hn : n < 32) :
    (rotr32 x (UInt32.ofNat n)).toBitVec = x.toBitVec.rotateRight n := by
  have hright : ((UInt32.ofNat n).toBitVec % 32).toNat = n := by
    simp
    omega
  have hleft : ((32 - UInt32.ofNat n).toBitVec % 32).toNat = 32 - n := by
    simp
    omega
  rw [rotr32, UInt32.toBitVec_or, UInt32.toBitVec_shiftRight, UInt32.toBitVec_shiftLeft,
    BitVec.ushiftRight_eq', BitVec.shiftLeft_eq', hright, hleft,
    BitVec.rotateRight_eq_rotateRightAux_of_lt hn, BitVec.rotateRightAux]

/-! The four sigmas, by their rotations. -/

theorem bigSigma0_eq (x : UInt32) :
    (rotr32 x 2).toBitVec ^^^ (rotr32 x 13).toBitVec ^^^ (rotr32 x 22).toBitVec =
      Sha2.bigSigma0 x.toBitVec := by
  have hrotate := fun n ↦ toBitVec_rotr32 x (n := n)
  have h2 : (rotr32 x 2).toBitVec = _ := hrotate 2 (by decide) (by decide)
  have h13 : (rotr32 x 13).toBitVec = _ := hrotate 13 (by decide) (by decide)
  have h22 : (rotr32 x 22).toBitVec = _ := hrotate 22 (by decide) (by decide)
  rw [h2, h13, h22, Sha2.bigSigma0]

theorem bigSigma1_eq (x : UInt32) :
    (rotr32 x 6).toBitVec ^^^ (rotr32 x 11).toBitVec ^^^ (rotr32 x 25).toBitVec =
      Sha2.bigSigma1 x.toBitVec := by
  have hrotate := fun n ↦ toBitVec_rotr32 x (n := n)
  have h6 : (rotr32 x 6).toBitVec = _ := hrotate 6 (by decide) (by decide)
  have h11 : (rotr32 x 11).toBitVec = _ := hrotate 11 (by decide) (by decide)
  have h25 : (rotr32 x 25).toBitVec = _ := hrotate 25 (by decide) (by decide)
  rw [h6, h11, h25, Sha2.bigSigma1]

theorem smallSigma0_eq (x : UInt32) :
    (rotr32 x 7).toBitVec ^^^ (rotr32 x 18).toBitVec ^^^ (x >>> 3).toBitVec =
      Sha2.smallSigma0 x.toBitVec := by
  have hrotate := fun n ↦ toBitVec_rotr32 x (n := n)
  have h7 : (rotr32 x 7).toBitVec = _ := hrotate 7 (by decide) (by decide)
  have h18 : (rotr32 x 18).toBitVec = _ := hrotate 18 (by decide) (by decide)
  rw [h7, h18, Sha2.smallSigma0]
  rfl

theorem smallSigma1_eq (x : UInt32) :
    (rotr32 x 17).toBitVec ^^^ (rotr32 x 19).toBitVec ^^^ (x >>> 10).toBitVec =
      Sha2.smallSigma1 x.toBitVec := by
  have hrotate := fun n ↦ toBitVec_rotr32 x (n := n)
  have h17 : (rotr32 x 17).toBitVec = _ := hrotate 17 (by decide) (by decide)
  have h19 : (rotr32 x 19).toBitVec = _ := hrotate 19 (by decide) (by decide)
  rw [h17, h19, Sha2.smallSigma1]
  rfl

/-- The chaining words are the variables of the standard. -/
def Words.variables (s : Words) : Sha2.Variables where
  a := s.a.toBitVec
  b := s.b.toBitVec
  c := s.c.toBitVec
  d := s.d.toBitVec
  e := s.e.toBitVec
  f := s.f.toBitVec
  g := s.g.toBitVec
  h := s.h.toBitVec

theorem round_variables (s : Words) (k w : UInt32) :
    (round s k w).variables = Sha2.turn s.variables k.toBitVec w.toBitVec := by
  rw [round, Words.variables, Sha2.turn, Words.variables]
  simp only [UInt32.toBitVec_add, UInt32.toBitVec_xor, UInt32.toBitVec_and, UInt32.toBitVec_not,
    bigSigma0_eq, bigSigma1_eq, Sha2.ch, Sha2.maj]

/-- The words of the schedule that follow sixteen first ones. -/
theorem extendSchedule_eq (m : Nat → BitVec 32) (count n : Nat) (hn : 16 ≤ n) :
    extendSchedule count ((List.range n).map fun t ↦ UInt32.ofBitVec (Sha2.schedule m t)) =
      (List.range (n + count)).map fun t ↦ UInt32.ofBitVec (Sha2.schedule m t) := by
  induction count generalizing n with
  | zero => rfl
  | succ count ih =>
      have hword : ∀ i, 0 < i → i ≤ 16 →
          ((List.range n).map fun t ↦ UInt32.ofBitVec (Sha2.schedule m t)).getD (n - i) 0 =
            UInt32.ofBitVec (Sha2.schedule m (n - i)) := by
        intro i hpos hi
        have hlt : n - i < n := by omega
        simp [hlt]
      have hnext : nextWord ((List.range n).map fun t ↦ UInt32.ofBitVec (Sha2.schedule m t)) =
          UInt32.ofBitVec (Sha2.schedule m n) := by
        rw [nextWord, List.length_map, List.length_range, hword 15 (by decide) (by decide),
          hword 2 (by decide) (by decide), hword 16 (by decide) (by decide),
          hword 7 (by decide) (by decide)]
        refine UInt32.toBitVec_inj.1 ?_
        simp only [UInt32.toBitVec_add, UInt32.toBitVec_xor, smallSigma0_eq, smallSigma1_eq]
        rw [Sha2.schedule_of_le m hn]
        ac_rfl
      rw [extendSchedule, hnext, Nat.add_comm count, ← Nat.add_assoc, ← ih (n + 1) (by omega),
        List.range_succ, List.map_append]
      rfl

/-- The constants are those of the standard. -/
theorem roundConstants_eq :
    roundConstants = (List.range 64).map fun t ↦ UInt32.ofBitVec (Sha2.constants.getD t 0) := by
  rw [Sha2.constants_eq]
  decide +kernel

theorem init_variables : Sha256.init.state.variables = Sha2.initial := by decide +kernel

/-- A block is hashed as in the standard. -/
theorem compress_variables (state : Words) (block : List UInt8) :
    (compress state block).variables =
      Sha2.hashBlock state.variables fun t ↦ (loadBe32 (block.drop (4 * t))).toBitVec := by
  have hfirst : loadBlock block = (List.range 16).map fun t ↦ UInt32.ofBitVec
      (Sha2.schedule (fun t ↦ (loadBe32 (block.drop (4 * t))).toBitVec) t) := by
    refine List.map_congr_left fun t ht ↦ ?_
    rw [Sha2.schedule_of_lt _ (List.mem_range.1 ht)]
  have hturns : ∀ (turns : List Nat) (s : Words) (constant word : Nat → BitVec 32),
      ((turns.map fun t ↦ (UInt32.ofBitVec (constant t), UInt32.ofBitVec (word t))).foldl
        (fun s kw ↦ round s kw.1 kw.2) s).variables =
        turns.foldl (fun v t ↦ Sha2.turn v (constant t) (word t)) s.variables := by
    intro turns s constant word
    induction turns generalizing s with
    | nil => rfl
    | cons t turns ih =>
        rw [List.map_cons, List.foldl_cons, ih, round_variables, List.foldl_cons]
  rw [compress, hfirst, extendSchedule_eq _ 48 16 (Nat.le_refl _), roundConstants_eq,
    List.zip_map', Sha2.hashBlock, ← hturns]
  simp only [Words.variables, UInt32.toBitVec_add, BitVec.add_comm]

/-! ## A message -/

/-- Four octets are a word, the first one its highest. -/
theorem toBitVec_loadBe32 (first second third fourth : UInt8) (rest : List UInt8) :
    (loadBe32 (first :: second :: third :: fourth :: rest)).toBitVec =
      first.toBitVec ++ second.toBitVec ++ third.toBitVec ++ fourth.toBitVec := by
  have hload : (loadBe32 (first :: second :: third :: fourth :: rest)).toBitVec =
      (first.toBitVec.setWidth 32) <<< 24 ||| (second.toBitVec.setWidth 32) <<< 16 |||
        (third.toBitVec.setWidth 32) <<< 8 ||| fourth.toBitVec.setWidth 32 := by
    simp [loadBe32]
  have hshift : ∀ (octet : UInt8) (k i : Nat), i < 32 →
      ((octet.toBitVec.setWidth 32) <<< k).getLsbD i =
        (decide (k ≤ i) && octet.toBitVec.getLsbD (i - k)) := by
    intro octet k i hi
    by_cases hk : k ≤ i
    · simp [hi, hk]
    · simp [hk, Nat.lt_of_not_le hk]
  have hout : ∀ (octet : UInt8) j, 8 ≤ j → octet.toBitVec.getLsbD j = false :=
    fun octet j hj ↦ BitVec.getLsbD_of_ge _ _ hj
  refine BitVec.eq_of_getLsbD_eq fun i hi ↦ ?_
  simp only [hload, BitVec.getLsbD_or, hshift _ _ i hi, BitVec.getLsbD_setWidth,
    BitVec.getLsbD_append]
  simp only [Nat.sub_sub, Nat.reduceAdd]
  rcases (by omega : i < 8 ∨ (8 ≤ i ∧ i < 16) ∨ (16 ≤ i ∧ i < 24) ∨ 24 ≤ i) with h | h | h | h
  all_goals
    simp (disch := omega) only [hout, decide_eq_true, decide_eq_false, if_pos, if_neg,
      Bool.and_false, Bool.true_and, Bool.false_and, Bool.or_false, Bool.false_or]

/-- The word at the head of a string of octets. -/
theorem word_octetBits {bytes : List UInt8} (h : 4 ≤ bytes.length) :
    Sha2.word 32 (Sha2.octetBits bytes) = (loadBe32 bytes).toBitVec := by
  match bytes with
  | first :: second :: third :: fourth :: rest =>
      have hbits : Sha2.octetBits (first :: second :: third :: fourth :: rest) =
          Sha2.bits (loadBe32 (first :: second :: third :: fourth :: rest)).toBitVec ++
            Sha2.octetBits rest := by
        rw [toBitVec_loadBe32, Sha2.bits_append, Sha2.bits_append, Sha2.bits_append]
        simp only [Sha2.octetBits_cons, List.append_assoc]
      rw [hbits, Sha2.word_bits_append]
  | [_, _, _] | [_, _] | [_] | [] => exact absurd h (by simp)

theorem loadBe32_take (bytes : List UInt8) {n : Nat} (hn : 4 ≤ n) :
    loadBe32 (bytes.take n) = loadBe32 bytes := by
  have htake : ∀ i < 4, (bytes.take n).getD i 0 = bytes.getD i 0 := by
    intro i hi
    rw [List.getD_eq_getElem?_getD, List.getElem?_take_of_lt (by omega),
      List.getD_eq_getElem?_getD]
  rw [loadBe32, htake 0 (by decide), htake 1 (by decide), htake 2 (by decide), htake 3 (by decide),
    loadBe32]

/-- The padding is that of the standard. -/
theorem padded_bits (data : List UInt8) :
    Sha2.octetBits (padded data) = Sha2.pad (Sha2.octetBits data) := by
  have hzeros : (data.length + 1 + zerosFor data.length) % 64 = 56 ∧ zerosFor data.length < 64 := by
    have hcount : zerosFor data.length = if (data.length + 1) % 64 ≤ 56 then
        56 - (data.length + 1) % 64 else 120 - (data.length + 1) % 64 := rfl
    split_ifs at hcount <;> omega
  have hlength : lengthBytes (data.length * 8 % 2 ^ 64) =
      Sha2.octetsOf 8 (BitVec.ofNat 64 (8 * data.length)) := by
    refine List.map_congr_left fun i hi ↦ UInt8.toBitVec_inj.1 ?_
    have hplace : 56 - i * 8 = 8 * (8 - 1 - i) := by omega
    rw [hplace, Nat.mul_comm data.length]
    rfl
  rw [Sha2.pad_octetBits hzeros.1 hzeros.2, padded, hlength]

/-- Block after block is hashed as in the standard. -/
theorem chain_variables {count : Nat} {data : List UInt8} (h : count * blockSize ≤ data.length)
    (state : Words) :
    (chain compress count state data).variables =
      (List.range count).foldl (fun value i ↦
        Sha2.hashBlock value (Sha2.blockWords (Sha2.octetBits data) i)) state.variables := by
  induction count with
  | zero => rfl
  | succ count ih =>
      have hblock : ∀ t < 16, (loadBe32 (((data.drop (count * blockSize)).take blockSize).drop
          (4 * t))).toBitVec = Sha2.blockWords (Sha2.octetBits data) count t := by
        intro t ht
        simp only [blockSize] at h ⊢
        rw [List.drop_take, loadBe32_take _ (by omega), List.drop_drop, Sha2.blockWords_octetBits,
          Nat.mul_comm 64, word_octetBits]
        rw [List.length_drop]
        omega
      have hone : chain compress 1 (chain compress count state data)
          (data.drop (count * blockSize)) = compress (chain compress count state data)
            ((data.drop (count * blockSize)).take blockSize) := rfl
      rw [chain_add, hone, compress_variables, Sha2.hashBlock_congr hblock, ih, List.range_succ,
        List.foldl_append]
      · rfl
      · rw [Nat.succ_mul] at h
        omega

theorem digest_bits (s : Words) :
    Sha2.octetBits (digest s) = Sha2.bits s.variables.a ++ Sha2.bits s.variables.b ++
      Sha2.bits s.variables.c ++ Sha2.bits s.variables.d ++ Sha2.bits s.variables.e ++
      Sha2.bits s.variables.f ++ Sha2.bits s.variables.g ++ Sha2.bits s.variables.h := by
  have hword : ∀ value : UInt32, storeBe32 value = Sha2.octetsOf 4 value.toBitVec := by
    intro value
    have hoctet : ∀ (shifted : UInt32) (k : Nat), shifted.toBitVec = value.toBitVec >>> k →
        shifted.toUInt8 = UInt8.ofBitVec (value.toBitVec.extractLsb' k 8) := by
      intro shifted k hshift
      refine UInt8.toBitVec_inj.1 ?_
      rw [UInt32.toBitVec_toUInt8, hshift]
      rfl
    have hfirst := hoctet (value >>> 24) 24 rfl
    have hsecond := hoctet (value >>> 16) 16 rfl
    have hthird := hoctet (value >>> 8) 8 rfl
    have hfourth := hoctet value 0 rfl
    rw [storeBe32, hfirst, hsecond, hthird, hfourth]
    rfl
  simp only [digest, hword, Sha2.octetBits_append, Sha2.octetBits_octetsOf]
  rfl

/-- The hash of a whole message is its SHA-256. -/
theorem hashBy_eq (data : List UInt8) : hashBy compress data = Sha2.sha256Octets data := by
  have hwhole := padded_length data
  have hblocks : (Sha2.octetBits (padded data)).length / 512 =
      (padded data).length / blockSize := by
    rw [Sha2.length_octetBits]
    simp only [blockSize]
    omega
  have hchain := chain_variables (Nat.div_mul_le_self (padded data).length blockSize)
    Sha256.init.state
  rw [init_variables, ← hblocks, padded_bits] at hchain
  have hdigest : Sha2.octetBits (hashBy compress data) = Sha2.sha256 (Sha2.octetBits data) := by
    rw [hashBy, digest_bits, ← hblocks, padded_bits, hchain]
    rfl
  rw [Sha2.sha256Octets, ← hdigest, Sha2.octets_octetBits]

/-- The context has taken the pieces of a message, whatever they are. -/
theorem Hashing.pieces {c : Sha256} {data : List UInt8} (h : Hashing c data)
    (pieces : List (List UInt8)) :
    Hashing (pieces.foldl Sha256.update c) (data ++ pieces.flatten) := by
  induction pieces generalizing c data with
  | nil =>
      rw [List.flatten_nil, List.append_nil]
      exact h
  | cons piece pieces ih =>
      rw [List.foldl_cons, List.flatten_cons, ← List.append_assoc]
      exact ih (h.update piece)

/-! ## The keyed hash -/

/-- HMAC with SHA-256, whose blocks are 64 octets. -/
def standardHmac : List UInt8 → List UInt8 → List UInt8 :=
  KeyedHash.hmac Sha2.sha256Octets 64

/-- HKDF with SHA-256, whose digests are 32 octets. -/
def standardHkdf (salt : Option (List UInt8)) (ikm info : List UInt8) (length : Nat) :
    List UInt8 :=
  KeyedHash.hkdf standardHmac 32 salt ikm info length

theorem sha256Octets_length (data : List UInt8) :
    (Sha2.sha256Octets data).length = digestSize := by
  rw [← hashBy_eq, hashBy_length]

theorem keyBlock_eq {key : List UInt8} (hkey : key.length ≤ blockSize) (mark : UInt8) :
    keyBlock key mark = KeyedHash.mix (KeyedHash.blockKey Sha2.sha256Octets 64 key)
      (List.replicate 64 mark) := by
  have hlength : (KeyedHash.blockKey Sha2.sha256Octets 64 key).length = 64 := by
    refine KeyedHash.length_blockKey (fun data ↦ ?_) key
    rw [sha256Octets_length]
    decide
  have hmix := KeyedHash.mix_replicate (KeyedHash.blockKey Sha2.sha256Octets 64 key) mark
  rw [hlength] at hmix
  have hshort : key.length ≤ 64 := hkey
  rw [hmix, KeyedHash.blockKey_of_le hshort, keyBlock, blockSize]

theorem hmacBy_eq {key : List UInt8} (hkey : key.length ≤ blockSize) (data : List UInt8) :
    hmacBy compress key data = standardHmac key data := by
  rw [hmacBy, hashBy_eq, hashBy_eq, keyBlock_eq hkey, keyBlock_eq hkey, standardHmac,
    KeyedHash.hmac]

/-- A key longer than a block is hashed first, in the code and in the standard. -/
theorem init_long {key : List UInt8} (hkey : blockSize < key.length) :
    Hmac.init key = Hmac.init (sha256 key) ∧
      standardHmac key = standardHmac (sha256 key) := by
  have hshort : (sha256 key).length ≤ 64 := by
    rw [sha256_eq, hashBy_length]
    decide
  constructor
  · have hblock : ¬ blockSize < (sha256 key).length := Nat.not_lt.2 hshort
    rw [Hmac.init, if_pos hkey, Hmac.init, if_neg hblock]
  · have hlong : 64 < key.length := hkey
    have hblock : KeyedHash.blockKey Sha2.sha256Octets 64 key =
        KeyedHash.blockKey Sha2.sha256Octets 64 (sha256 key) := by
      rw [KeyedHash.blockKey_of_lt hlong, KeyedHash.blockKey_of_le hshort, sha256_eq, hashBy_eq]
    funext data
    rw [standardHmac, KeyedHash.hmac, hblock, KeyedHash.hmac]

/-- The keyed hash is HMAC, for keys of every length. -/
theorem hmacSha256_standard (key data : List UInt8) :
    hmacSha256 key data = standardHmac key data := by
  by_cases hkey : key.length ≤ blockSize
  · rw [hmacSha256_eq hkey, hmacBy_eq hkey]
  · obtain ⟨hinit, hstandard⟩ := init_long (Nat.not_le.1 hkey)
    have hshort : (sha256 key).length ≤ blockSize := by
      rw [sha256_eq, hashBy_length]
      decide
    rw [hstandard, ← hmacBy_eq hshort, ← hmacSha256_eq hshort, hmacSha256, hinit, hmacSha256]

/-! ## The derivation of keys -/

/-- The rounds of the code are the blocks of the expansion. -/
theorem hkdfExpand_eq {prk : List UInt8} (hprk : prk.length ≤ blockSize) (info : List UInt8)
    (count n : Nat) :
    hkdfExpand prk info count (KeyedHash.expandBlock standardHmac prk info n) n
        (KeyedHash.expandBlocks standardHmac prk info n) =
      KeyedHash.expandBlocks standardHmac prk info (n + count) := by
  induction count generalizing n with
  | zero => rfl
  | succ count ih =>
      rw [hkdfExpand]
      -- the first block follows the empty one, and an empty context is not taken
      have hprevious : Keyed
          (if 1 < n + 1 then
            (Hmac.init prk).update (KeyedHash.expandBlock standardHmac prk info n)
          else Hmac.init prk) prk (KeyedHash.expandBlock standardHmac prk info n) := by
        split_ifs with hlater
        · exact (keyed_init hprk).update _
        · obtain rfl : n = 0 := by omega
          exact keyed_init hprk
      generalize (if 1 < n + 1 then
        (Hmac.init prk).update (KeyedHash.expandBlock standardHmac prk info n)
          else Hmac.init prk) = c at hprevious ⊢
      have hinfo : Keyed (if 0 < info.length then c.update info else c) prk
          (KeyedHash.expandBlock standardHmac prk info n ++ info) := by
        split_ifs with hsome
        · exact hprevious.update info
        · obtain rfl := List.eq_nil_of_length_eq_zero (Nat.eq_zero_of_not_pos hsome)
          rw [List.append_nil]
          exact hprevious
      have hblock := (hinfo.update [UInt8.ofNat (n + 1)]).final.trans (hmacBy_eq hprk _)
      have hnext : standardHmac prk (KeyedHash.expandBlock standardHmac prk info n ++ info ++
          [UInt8.ofNat (n + 1)]) = KeyedHash.expandBlock standardHmac prk info (n + 1) := rfl
      rw [hblock, hnext, ← KeyedHash.expandBlocks_succ, ih, Nat.add_right_comm, Nat.add_assoc n]

/-- The derivation is HKDF for every length it serves, a salt of no bytes standing for none. -/
theorem hkdfSha256_standard (salt : Option (List UInt8)) (ikm info : List UInt8) {outLen : Nat}
    (hlen : outLen ≤ hkdfMaxOutput) :
    hkdfSha256 ikm (salt.getD []) info outLen = standardHkdf salt ikm info outLen := by
  have hextract : hmacSha256 (salt.getD []) ikm = KeyedHash.extract standardHmac 32 salt ikm := by
    rw [hmacSha256_standard]
    cases salt with
    | none => exact (KeyedHash.extract_none (by decide) ikm).symm
    | some salt => rfl
  have hprk : (hmacSha256 (salt.getD []) ikm).length ≤ blockSize := by
    rw [hmacSha256_standard, standardHmac, KeyedHash.hmac, sha256Octets_length]
    decide
  have hexpand := hkdfExpand_eq hprk info ((outLen + digestSize - 1) / digestSize) 0
  rw [Nat.zero_add] at hexpand
  rw [hkdfSha256, if_neg (Nat.not_lt.2 hlen)]
  refine (congrArg (List.take outLen) hexpand).trans ?_
  rw [hextract, standardHkdf, KeyedHash.hkdf, KeyedHash.expand]
  rfl

/-- The hashes are those of the standards: the digest of a message is that of SHA-256 in whatever
pieces it is taken, the keyed hash is HMAC for keys of every length, and the derivation is HKDF for
every length of its output that is served. -/
theorem hashes_standard :
    (∀ pieces : List (List UInt8),
      (pieces.foldl Sha256.update Sha256.init).final = Sha2.sha256Octets pieces.flatten) ∧
    (∀ key data, hmacSha256 key data = KeyedHash.hmac Sha2.sha256Octets 64 key data) ∧
    ∀ (salt : Option (List UInt8)) (ikm info : List UInt8) (outLen : Nat),
      outLen ≤ hkdfMaxOutput →
        hkdfSha256 ikm (salt.getD []) info outLen =
          KeyedHash.hkdf (KeyedHash.hmac Sha2.sha256Octets 64) 32 salt ikm info outLen := by
  refine ⟨fun pieces ↦ ?_, hmacSha256_standard, fun salt ikm info outLen ↦
    hkdfSha256_standard salt ikm info⟩
  rw [(hashing_init.pieces pieces).final, hashBy_eq, List.nil_append]

/-- Two blocks of output without a salt, the second one cut. -/
theorem hashes_standard_two_blocks :
    hkdfSha256 [1] [] [2] 42 =
      KeyedHash.hkdf (KeyedHash.hmac Sha2.sha256Octets 64) 32 none [1] [2] 42 :=
  hashes_standard.2.2 none [1] [2] 42 (by decide)

end DeskhopPlus.Crypto
