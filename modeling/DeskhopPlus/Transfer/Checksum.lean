import DeskhopPlus.Library.Remainder
import DeskhopPlus.Transfer.Lines

/-!
# The checksum of a chunk

`dh_crc32` takes a byte in two looks at a table of sixteen words. `crc32_eq_serial` says that this
is the reflected CRC-32 bit by bit, low bit first, and from there the remainders of the library
apply: one changed byte, or one burst of at most 32 bits, changes the checksum. A chunk that came
through so is never stored; where it is awaited it is asked for again.
-/

namespace DeskhopPlus.Transfer

open Remainder Wire

/-! ## Bit by bit -/

/-- The polynomial of CRC-32, reflected. -/
def polynomial : BitVec 32 := 0xEDB88320

/-- The bits of a byte in the order in which they are taken, low bit first. -/
def bitsOfByte (byte : UInt8) : List Bool := (List.range 8).map byte.toNat.testBit

/-- The bits of a byte string in the order in which they are taken. -/
def bitsOf (data : List UInt8) : List Bool := data.flatMap bitsOfByte

/-- The reflected CRC-32, a bit at a time, inverted before and after. -/
def serialCrc32 (data : List UInt8) : UInt32 :=
  ~~~ UInt32.ofBitVec (remainder polynomial (BitVec.allOnes 32) (bitsOf data))

theorem polynomial_msb : polynomial.msb = true := by decide

@[simp] theorem length_bitsOfByte (byte : UInt8) : (bitsOfByte byte).length = 8 := by
  simp [bitsOfByte]

theorem getElem?_bitsOfByte (byte : UInt8) {i : Nat} (hi : i < 8) :
    (bitsOfByte byte)[i]? = some (byte.toNat.testBit i) := by
  simp [bitsOfByte, hi]

theorem bitsOf_append (first second : List UInt8) :
    bitsOf (first ++ second) = bitsOf first ++ bitsOf second := List.flatMap_append

theorem bitsOf_cons (byte : UInt8) (data : List UInt8) :
    bitsOf (byte :: data) = bitsOfByte byte ++ bitsOf data := rfl

@[simp] theorem length_bitsOf (data : List UInt8) : (bitsOf data).length = 8 * data.length := by
  induction data with
  | nil => rfl
  | cons byte data ih =>
      rw [bitsOf_cons, List.length_append, ih, length_bitsOfByte, List.length_cons]
      omega

/-- Bytes with the same bits are the same. -/
theorem bitsOfByte_injective : Function.Injective bitsOfByte := by
  intro a b h
  refine UInt8.toNat_inj.1 (Nat.eq_of_testBit_eq fun i ↦ ?_)
  by_cases hi : i < 8
  · have hbit : some (a.toNat.testBit i) = some (b.toNat.testBit i) := by
      rw [← getElem?_bitsOfByte a hi, ← getElem?_bitsOfByte b hi, h]
    exact Option.some.inj hbit
  · have hwidth : 2 ^ 8 ≤ 2 ^ i := Nat.pow_le_pow_right (by decide) (by omega)
    rw [Nat.testBit_lt_two_pow (a.toNat_lt.trans_le hwidth),
      Nat.testBit_lt_two_pow (b.toNat_lt.trans_le hwidth)]

/-- The bits of a byte make up its word. -/
theorem wordOf_bitsOfByte (byte : UInt8) :
    (wordOf (bitsOfByte byte) : BitVec 32) = byte.toUInt32.toBitVec := by
  refine BitVec.eq_of_getLsbD_eq fun i hi ↦ ?_
  rw [getLsbD_wordOf, decide_eq_true hi, Bool.true_and, List.getD_eq_getElem?_getD]
  have hword : byte.toUInt32.toBitVec.getLsbD i = byte.toNat.testBit i := by
    rw [← BitVec.testBit_toNat]
    rfl
  rw [hword]
  by_cases hbyte : i < 8
  · rw [getElem?_bitsOfByte byte hbyte]
    rfl
  · rw [List.getElem?_eq_none (by rw [length_bitsOfByte]; omega), Nat.testBit_lt_two_pow
      (byte.toNat_lt.trans_le (Nat.pow_le_pow_right (by decide) (by omega)))]
    rfl

/-! ## The table -/

/-- An entry of the table is four turns of its index. -/
theorem crc32Nibble_eq : ∀ n < 16,
    (crc32Nibble.getD n 0).toBitVec = (shift polynomial)^[4] (BitVec.ofNat 32 n) := by
  decide

/-- A look at the table is four turns of the register. -/
theorem crc32Half_eq (crc : UInt32) :
    (crc32Half crc).toBitVec = (shift polynomial)^[4] crc.toBitVec := by
  have hlow : (crc &&& 0x0f).toNat < 16 := by
    rw [UInt32.toNat_and]
    exact Nat.and_lt_two_pow _ (by decide : (0x0f : UInt32).toNat < 2 ^ 4)
  -- the low four bits go out through the polynomial, the others only move down
  have hsplit : crc.toBitVec =
      (crc.toBitVec &&& ~~~ 0x0f#32) ^^^ (crc.toBitVec &&& 0x0f#32) := by
    ext i
    simp only [BitVec.getElem_xor, BitVec.getElem_and, BitVec.getElem_not]
    cases crc.toBitVec[i] <;> cases (0x0f#32)[i] <;> rfl
  have hmask : ∀ i : Nat, (0x0f#32).getLsbD i = decide (i < 4) := by
    intro i
    rw [BitVec.getLsbD_ofNat, show 0x0f = 2 ^ 4 - 1 from rfl, Nat.testBit_two_pow_sub_one]
    by_cases hi : i < 4
    · simp [hi, Nat.lt_trans hi (by decide : 4 < 32)]
    · simp [hi]
  have hhigh : (shift polynomial)^[4] (crc.toBitVec &&& ~~~ 0x0f#32) = crc.toBitVec >>> 4 := by
    rw [iterate_shift_of_low]
    · refine BitVec.eq_of_getLsbD_eq fun i hi ↦ ?_
      rw [BitVec.getLsbD_ushiftRight, BitVec.getLsbD_ushiftRight, BitVec.getLsbD_and,
        BitVec.getLsbD_not, hmask]
      by_cases hinside : 4 + i < 32
      · simp [hinside]
      · rw [BitVec.getLsbD_of_ge _ _ (by omega : 32 ≤ 4 + i), Bool.false_and]
    · intro i hi
      rw [BitVec.getLsbD_and, BitVec.getLsbD_not, hmask]
      simp [hi]
  have hentry : (shift polynomial)^[4] (crc.toBitVec &&& 0x0f#32) =
      (crc32Nibble.getD (crc &&& 0x0f).toNat 0).toBitVec := by
    rw [crc32Nibble_eq _ hlow]
    congr 1
    show _ = BitVec.ofNat 32 (crc.toBitVec &&& 0x0f#32).toNat
    rw [BitVec.ofNat_toNat, BitVec.setWidth_eq]
  rw [hsplit, iterate_shift_xor, hhigh, hentry]
  rfl

/-- The loop body is the byte's eight bits. -/
theorem crc32_byte (crc : UInt32) (byte : UInt8) :
    (crc32Half (crc32Half (crc ^^^ byte.toUInt32))).toBitVec =
      remainder polynomial crc.toBitVec (bitsOfByte byte) := by
  rw [remainder_eq_word (by rw [length_bitsOfByte]; decide), wordOf_bitsOfByte, length_bitsOfByte,
    crc32Half_eq, crc32Half_eq, ← Function.iterate_add_apply, UInt32.toBitVec_xor]

/-- `dh_crc32` is the reflected CRC-32 on every byte string. -/
theorem crc32_eq_serial (data : List UInt8) : crc32 data = serialCrc32 data := by
  have hloop : ∀ crc : UInt32,
      (data.foldl (fun crc byte ↦ crc32Half (crc32Half (crc ^^^ byte.toUInt32))) crc).toBitVec =
        remainder polynomial crc.toBitVec (bitsOf data) := by
    induction data with
    | nil => exact fun _ ↦ rfl
    | cons byte data ih =>
        intro crc
        rw [List.foldl_cons, ih, crc32_byte, bitsOf_cons, remainder_append]
  have hflip : ∀ crc : UInt32, crc ^^^ 0xffffffff = ~~~ crc := by
    intro crc
    rw [show (0xffffffff : UInt32) = -1 from rfl, UInt32.xor_neg_one]
  rw [crc32, hflip, serialCrc32]
  congr 1
  exact UInt32.toBitVec_inj.1 (hloop 0xffffffff)

/-! ## Damage -/

/-- Two byte strings that differ in exactly one byte. -/
def OneByteApart (sent came : List UInt8) : Prop :=
  ∃ before old new after, old ≠ new ∧ sent = before ++ old :: after ∧ came = before ++ new :: after

/-- Damage that the checksum is for: one byte, or one burst of at most 32 bits. -/
def Damaged (sent came : List UInt8) : Prop :=
  OneByteApart sent came ∨ Burst 32 (bitsOf sent) (bitsOf came)

variable {sent came : List UInt8}

/-- One byte is a burst of eight bits. -/
theorem OneByteApart.burst (h : OneByteApart sent came) : Burst 32 (bitsOf sent) (bitsOf came) := by
  obtain ⟨before, old, new, after, hne, rfl, rfl⟩ := h
  refine ⟨by simp, fun hsame ↦ ?_, 8 * before.length, fun i hi ↦ ?_⟩
  · rw [bitsOf_append, bitsOf_append, bitsOf_cons, bitsOf_cons] at hsame
    have hbytes := List.append_cancel_right (List.append_cancel_left hsame)
    exact hne (bitsOfByte_injective hbytes)
  · rw [bitsOf_append, bitsOf_append, bitsOf_cons, bitsOf_cons]
    rcases hi with hbefore | hafter
    · rw [List.getElem?_append_left (by rwa [length_bitsOf]),
        List.getElem?_append_left (by rwa [length_bitsOf])]
    · rw [← List.append_assoc, ← List.append_assoc, List.getElem?_append_right,
        List.getElem?_append_right]
      all_goals simp only [List.length_append, length_bitsOf, length_bitsOfByte]
      all_goals omega

theorem Damaged.burst (h : Damaged sent came) : Burst 32 (bitsOf sent) (bitsOf came) :=
  h.elim OneByteApart.burst id

/-- Damage shows in the checksum. -/
theorem crc32_ne_of_burst (h : Burst 32 (bitsOf sent) (bitsOf came)) : crc32 sent ≠ crc32 came := by
  intro hsame
  rw [crc32_eq_serial, crc32_eq_serial, serialCrc32, serialCrc32, UInt32.not_inj] at hsame
  exact remainder_ne_of_burst polynomial_msb h _ (congrArg UInt32.toBitVec hsame)

/-! ## Chunks -/

variable {x : Xfer} {cap : Nat} {chunk : ClipChunk}

/-- A chunk is awaited: it is one of the transfer under way, and not there yet. -/
structure Xfer.AwaitsNew (x : Xfer) (chunk : ClipChunk) : Prop where
  awaits : x.rx.standing.Awaits chunk
  new : chunk.seq.toNat ∉ x.rx.received

/-- A chunk was not stored. -/
def NotStored (x : Xfer) (result : Xfer × List Action) : Prop :=
  result.1.rx.received = x.rx.received ∧ result.1.rxBuf = x.rxBuf

/-- A request keeps what has arrived, and with room for two actions it asks for a chunk that is not
asked for yet. -/
theorem rxRequestChunk_received (s : Xfer.Sweep) (seq : Nat) (stale : Bool) :
    (Xfer.rxRequestChunk cap s seq stale).rx.received = s.rx.received := by
  rw [Xfer.rxRequestChunk]
  split_ifs <;> rfl

theorem rxRequestChunk_asks {s : Xfer.Sweep} {seq : Nat} (hseq : seq ∉ s.rx.requested)
    (hroom : s.acts.length + 2 ≤ cap) (stale : Bool) :
    (Xfer.rxRequestChunk cap s seq stale).acts = s.acts ++ [.sendRetransmit s.rx.id seq] ∧
      (Xfer.rxRequestChunk cap s seq stale).credits = (s.credits + 1) % 2 ^ 16 := by
  rw [Xfer.rxRequestChunk, if_neg hseq, if_neg (by omega)]
  exact ⟨rfl, rfl⟩

/-- A chunk whose checksum is not its own is not stored, in any state. -/
theorem handleChunk_notStored (hcrc : crc32 chunk.data ≠ chunk.crc32) :
    NotStored x (x.handleChunk cap chunk) := by
  unfold Xfer.handleChunk
  extract_lets seq source cleared asked
  by_cases hguard : x.rx.active = false ∨ x.rx.lazy = true ∨ x.rx.id ≠ chunk.id ∨ x.rx.nchunks ≤ seq
  · rw [if_pos hguard]
    exact ⟨rfl, rfl⟩
  rw [if_neg hguard]
  by_cases hhas : seq ∈ x.rx.received
  · rw [if_pos hhas]
    exact ⟨rfl, rfl⟩
  rw [if_neg hhas, if_pos (.inr hcrc)]
  exact ⟨rxRequestChunk_received _ seq false, rfl⟩

/-- Where it is awaited it is asked for again, with the credit that covers it. -/
theorem handleChunk_asksAgain (hawaits : x.AwaitsNew chunk) (hcap : 2 ≤ cap)
    (hcrc : crc32 chunk.data ≠ chunk.crc32) :
    (x.handleChunk cap chunk).2 =
      [.sendRetransmit chunk.id chunk.seq.toNat, .sendCredit chunk.id 1] := by
  obtain ⟨⟨hactive, hrequested, hid, hinside⟩, hnew⟩ := hawaits
  simp only [Incoming.standing] at hactive hrequested hid hinside
  have hguard : ¬ (x.rx.active = false ∨ x.rx.lazy = true ∨ x.rx.id ≠ chunk.id ∨
      x.rx.nchunks ≤ chunk.seq.toNat) := by
    simp [hactive, hrequested, hid, hinside]
  unfold Xfer.handleChunk
  extract_lets seq source cleared asked
  rw [if_neg hguard, if_neg hnew, if_pos (.inr hcrc)]
  have hfresh : seq ∉ cleared.requested := Finset.notMem_erase _ _
  have hasks := rxRequestChunk_asks (s := { rx := cleared, acts := [], credits := 0 }) hfresh hcap
    false
  have hacts : asked.acts = [.sendRetransmit x.rx.id seq] := hasks.1
  have hcredits : asked.credits = 1 := hasks.2
  have hroom : [Action.sendRetransmit x.rx.id seq].length < cap := hcap
  show Xfer.rxGrant cap x.rx.id asked.acts asked.credits = _
  rw [hacts, hcredits, Xfer.rxGrant, if_neg Nat.one_ne_zero, emit, if_pos hroom, hid]
  rfl

/-- The checksum is the reflected CRC-32 of the bytes, and it tells damage of one byte or one burst.
A chunk damaged so is never stored, and one that is awaited is asked for again. -/
theorem damage_is_told :
    (∀ data, crc32 data = serialCrc32 data) ∧
    (∀ sent came, OneByteApart sent came → crc32 sent ≠ crc32 came) ∧
    (∀ sent came, Burst 32 (bitsOf sent) (bitsOf came) → crc32 sent ≠ crc32 came) ∧
    ∀ (x : Xfer) (cap : Nat) (chunk : ClipChunk) (sent : List UInt8),
      chunk.crc32 = crc32 sent → Damaged sent chunk.data →
        NotStored x (x.handleChunk cap chunk) ∧
        (x.AwaitsNew chunk → 2 ≤ cap →
          (x.handleChunk cap chunk).2 =
            [.sendRetransmit chunk.id chunk.seq.toNat, .sendCredit chunk.id 1]) := by
  refine ⟨crc32_eq_serial, fun _ _ h ↦ crc32_ne_of_burst h.burst, fun _ _ h ↦ crc32_ne_of_burst h,
    fun x cap chunk sent hsent hdamaged ↦ ?_⟩
  have hcrc : crc32 chunk.data ≠ chunk.crc32 := by
    rw [hsent]
    exact (crc32_ne_of_burst hdamaged.burst).symm
  exact ⟨handleChunk_notStored hcrc, fun hawaits hcap ↦ handleChunk_asksAgain hawaits hcap hcrc⟩

theorem lastChunk_fits : ([1, 2, 3, 4] : List UInt8).length < 2 ^ 16 := by decide

/-- The last chunk of a payload of two, as it was sent. -/
def lastChunk : ClipChunk where
  id := 77
  seq := 1
  crc32 := crc32 [1, 2, 3, 4]
  data := [1, 2, 3, 4]
  data_length := lastChunk_fits

/-- The same chunk with one byte changed on the way. -/
def damagedChunk : ClipChunk where
  id := 77
  seq := 1
  crc32 := crc32 [1, 2, 3, 4]
  data := [1, 2, 9, 4]
  data_length := by decide

/-- A machine that was offered that payload and asked for it. -/
def offered : Xfer :=
  ((Xfer.init (List.replicate 1028 0)).handleOffer 18
    { id := 77, kind := 0, total := 1028, metadata := [],
      metadata_length := noMetadata_fits } false).1

theorem damagedChunk_damaged : Damaged [1, 2, 3, 4] damagedChunk.data :=
  .inl ⟨[1, 2], 3, 9, [4], by decide, rfl, rfl⟩

set_option maxRecDepth 20000 in
theorem offered_awaitsNew : offered.AwaitsNew damagedChunk :=
  ⟨⟨by decide, by decide, by decide, by decide⟩, by decide⟩

/-- The damaged chunk does not come in, and is asked for again. -/
theorem damage_is_told_awaited :
    (offered.handleChunk 18 damagedChunk).2 = [.sendRetransmit 77 1, .sendCredit 77 1] :=
  (damage_is_told.2.2.2 offered 18 damagedChunk [1, 2, 3, 4] rfl damagedChunk_damaged).2
    offered_awaitsNew (by decide)

set_option maxRecDepth 20000 in
/-- Once the chunk is there, a damaged copy of it is answered with its credit alone. -/
theorem damaged_copy_not_asked :
    ¬ ∀ (x : Xfer) (cap : Nat) (chunk : ClipChunk) (sent : List UInt8), 2 ≤ cap →
      chunk.crc32 = crc32 sent → Damaged sent chunk.data →
        .sendRetransmit chunk.id chunk.seq.toNat ∈ (x.handleChunk cap chunk).2 := by
  intro hall
  have hasked := hall (offered.handleChunk 18 lastChunk).1 18 damagedChunk [1, 2, 3, 4] (by decide)
    rfl damagedChunk_damaged
  have hanswer : ((offered.handleChunk 18 lastChunk).1.handleChunk 18 damagedChunk).2 =
      [.sendCredit 77 1] := by
    decide
  rw [hanswer] at hasked
  exact absurd hasked (by decide)

end DeskhopPlus.Transfer
