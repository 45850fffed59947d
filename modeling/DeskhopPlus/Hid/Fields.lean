import DeskhopPlus.Hid.Descriptor
import DeskhopPlus.Library.Slices
import Mathlib.Data.Nat.Bitwise

/-!
# Values of fields

`get_report_value`: the bits of a field are gathered from the bytes of a report, masked and
sign-extended. `getReportValue_eq` says that the result is the signed value of the bit slice the
field names, with the bits past the end of the report read as zero.
-/

namespace DeskhopPlus.Hid

open Slices

/-- The loop of `get_report_value` over the bytes behind the first, `remainingBits` of the result
being there. A byte moved past the top of the result loses its upper bits. -/
def gather (size : Nat) : List UInt8 → Nat → UInt32 → UInt32
  | [], _, result => result
  | byte :: rest, remainingBits, result =>
      if remainingBits < size then
        gather size rest (remainingBits + 8)
          (result ||| byte.toUInt32 <<< UInt32.ofNat remainingBits)
      else result

/-- `get_report_value`. -/
def getReportValue (report : List UInt8) (val : ReportVal) : Int :=
  let offsetInBits := val.offset % 8
  let remainingBits := 8 - offsetInBits
  match report.drop (val.offset / 8) with
  | [] => 0
  | first :: rest =>
      let mask : UInt32 := 1 <<< UInt32.ofNat val.size - 1
      let result :=
        gather val.size rest remainingBits (first.toUInt32 >>> UInt32.ofNat offsetInBits) &&& mask
      toInt32
        (if result &&& (mask >>> 1 + 1) ≠ 0 then result ||| 0xffffffff <<< UInt32.ofNat val.size
        else result)

/-! ## Gathering -/

/-- A place within a word is the distance a shift takes. -/
theorem toNat_place {place : Nat} (h : place < 32) : (UInt32.ofNat place).toNat % 32 = place := by
  rw [UInt32.toNat_ofNat', Nat.mod_eq_of_lt (by omega : place < 2 ^ 32), Nat.mod_eq_of_lt h]

/-- What is there stays, and a byte goes in above it. -/
theorem toNat_gathered {result : UInt32} {byte : UInt8} {remainingBits : Nat}
    (hresult : result.toNat < 2 ^ remainingBits) (hremaining : remainingBits < 32) :
    (result ||| byte.toUInt32 <<< UInt32.ofNat remainingBits).toNat =
      (result.toNat + 2 ^ remainingBits * byte.toNat) % 2 ^ 32 := by
  have hshort : result.toNat % 2 ^ 32 = result.toNat := Nat.mod_eq_of_lt result.toNat_lt
  rw [UInt32.toNat_or, UInt32.toNat_shiftLeft, toNat_place hremaining, Nat.shiftLeft_eq, ← hshort,
    ← Nat.or_mod_two_pow, hshort, UInt8.toNat_toUInt32, Nat.or_comm, Nat.mul_comm byte.toNat,
    ← Nat.two_pow_add_eq_or_of_lt hresult, Nat.add_comm]

/-- The loop gathers the field: what is there, and above it the bytes behind. -/
theorem gather_mod {size : Nat} (hsize : size < 32) (rest : List UInt8) {remainingBits : Nat}
    {result : UInt32} (hresult : result.toNat < 2 ^ remainingBits) :
    (gather size rest remainingBits result).toNat % 2 ^ size =
      (result.toNat + 2 ^ remainingBits * number rest) % 2 ^ size := by
  induction rest generalizing remainingBits result with
  | nil => simp [gather]
  | cons byte rest ih =>
      rw [gather]
      split_ifs with hmore
      · have hadded : (result ||| byte.toUInt32 <<< UInt32.ofNat remainingBits).toNat =
            (result.toNat + 2 ^ remainingBits * byte.toNat) % 2 ^ 32 :=
          toNat_gathered hresult (by omega)
        have hbyte := byte.toNat_lt
        have hnext : (result ||| byte.toUInt32 <<< UInt32.ofNat remainingBits).toNat <
            2 ^ (remainingBits + 8) := by
          rw [hadded, Nat.pow_add]
          refine (Nat.mod_le _ _).trans_lt ?_
          have hupper : 2 ^ remainingBits * byte.toNat ≤ 2 ^ remainingBits * 255 :=
            Nat.mul_le_mul_left _ (by omega)
          omega
        have hdvd : 2 ^ size ∣ 2 ^ 32 := Nat.pow_dvd_pow 2 (by omega)
        rw [ih hnext, hadded, Nat.add_mod, Nat.mod_mod_of_dvd _ hdvd, ← Nat.add_mod, number_cons,
          Nat.pow_add]
        congr 1
        ring
      · -- nothing above the field counts
        obtain ⟨above, rfl⟩ := Nat.exists_eq_add_of_le (Nat.not_lt.1 hmore)
        rw [Nat.pow_add, Nat.mul_assoc, Nat.add_mul_mod_self_left]

/-! ## Sign extension -/

theorem toNat_mask {size : Nat} (hsize : size < 32) :
    ((1 : UInt32) <<< UInt32.ofNat size - 1).toNat = 2 ^ size - 1 := by
  have hpow : 2 ^ size < 2 ^ 32 := Nat.pow_lt_pow_right (by decide) hsize
  have hone : ((1 : UInt32) <<< UInt32.ofNat size).toNat = 2 ^ size := by
    rw [UInt32.toNat_shiftLeft, toNat_place hsize, Nat.shiftLeft_eq, UInt32.toNat_one, Nat.one_mul,
      Nat.mod_eq_of_lt hpow]
  have hpos : 0 < 2 ^ size := Nat.two_pow_pos size
  rw [UInt32.toNat_sub_of_le _ _ (UInt32.le_iff_toNat_le.2 (by rw [hone]; exact hpos)), hone]
  rfl

/-- The bit that is tested is the top bit of the field. -/
theorem toNat_signBit {size : Nat} (hpos : 0 < size) (hsize : size < 32) :
    (((1 : UInt32) <<< UInt32.ofNat size - 1) >>> 1 + 1).toNat = 2 ^ (size - 1) := by
  obtain ⟨below, rfl⟩ := Nat.exists_eq_add_of_le' hpos
  have hhalf : (2 ^ (below + 1) - 1) / 2 + 1 = 2 ^ below := by
    have hbelow : 0 < 2 ^ below := Nat.two_pow_pos below
    rw [Nat.pow_succ]
    omega
  have hpow : 2 ^ below < 2 ^ 32 := Nat.pow_lt_pow_right (by decide) (by omega)
  rw [UInt32.toNat_add, UInt32.toNat_shiftRight, toNat_mask hsize, UInt32.toNat_one,
    Nat.shiftRight_eq_div_pow]
  show ((2 ^ (below + 1) - 1) / 2 + 1) % 2 ^ 32 = _
  rw [hhalf, Nat.mod_eq_of_lt hpow, Nat.add_sub_cancel]

/-- The ones above a field. -/
theorem toNat_onesAbove {size : Nat} (hsize : size < 32) :
    ((0xffffffff : UInt32) <<< UInt32.ofNat size).toNat = 2 ^ size * (2 ^ (32 - size) - 1) := by
  have hsplit : 2 ^ 32 = 2 ^ size * 2 ^ (32 - size) := by
    rw [← Nat.pow_add, Nat.add_sub_cancel' (Nat.le_of_lt hsize)]
  have hbelow : 0 < 2 ^ size := Nat.two_pow_pos size
  have habove : 0 < 2 ^ (32 - size) := Nat.two_pow_pos _
  have hones : (2 ^ size * 2 ^ (32 - size) - 1) % 2 ^ (32 - size) = 2 ^ (32 - size) - 1 := by
    obtain ⟨blocks, hblocks⟩ := Nat.exists_eq_add_of_le' hbelow
    rw [hblocks, Nat.succ_mul, Nat.add_sub_assoc habove, Nat.add_comm, Nat.add_mul_mod_self_right,
      Nat.mod_eq_of_lt (by omega)]
  rw [UInt32.toNat_shiftLeft, toNat_place hsize, Nat.shiftLeft_eq, Nat.mul_comm]
  show 2 ^ size * (2 ^ 32 - 1) % 2 ^ 32 = _
  rw [hsplit, Nat.mul_mod_mul_left, hones]

theorem toInt32_eq (n : UInt32) : toInt32 n = (n.toNat : Int).bmod (2 * 2147483648) := rfl

/-- A number below half the modulus is its own signed value. -/
theorem bmod_of_lt {n half : Nat} (h : n < half) : (n : Int).bmod (2 * half) = n :=
  Int.bmod_eq_of_le_mul_two (by omega) (by omega)

/-- A number from half the modulus on is signed. -/
theorem bmod_of_ge {n half : Nat} (hlow : half ≤ n) (hhigh : n < 2 * half) :
    (n : Int).bmod (2 * half) = n - 2 * half := by
  rw [← Int.sub_mul_bmod_self_right n 1, Int.bmod_eq_of_le_mul_two]
  · omega
  · omega
  · omega

/-- A masked field, with ones above it where its top bit is set, is its signed value. -/
theorem toInt32_signExtended {size : Nat} (hpos : 0 < size) (hsize : size < 32) {result : UInt32}
    (hresult : result.toNat < 2 ^ size) :
    toInt32
        (if result &&& (((1 : UInt32) <<< UInt32.ofNat size - 1) >>> 1 + 1) ≠ 0 then
          result ||| 0xffffffff <<< UInt32.ofNat size
        else result) =
      (result.toNat : Int).bmod (2 ^ size) := by
  have hsign := toNat_signBit hpos hsize
  obtain ⟨below, rfl⟩ := Nat.exists_eq_add_of_le' hpos
  rw [Nat.add_sub_cancel] at hsign
  have hhalf : 2 ^ (below + 1) = 2 * 2 ^ below := Nat.pow_succ'
  have htop : 2 ^ below ≤ 2 ^ 30 := Nat.pow_le_pow_right (by decide) (by omega)
  have htested : (result &&& (((1 : UInt32) <<< UInt32.ofNat (below + 1) - 1) >>> 1 + 1) ≠ 0) ↔
      2 ^ below ≤ result.toNat := by
    rw [ne_eq, ← UInt32.toNat_inj, UInt32.toNat_and, hsign, Nat.and_two_pow, UInt32.toNat_zero,
      Nat.testBit_eq_decide_div_mod_eq]
    rw [hhalf] at hresult
    rcases Nat.lt_or_ge result.toNat (2 ^ below) with hlow | hhigh
    · simp [Nat.div_eq_of_lt hlow, hlow]
    · have hone : result.toNat / 2 ^ below = 1 :=
        Nat.div_eq_of_lt_le (by omega) (by omega)
      simp [hone, hhigh]
  rw [hhalf] at hresult ⊢
  by_cases hnegative : 2 ^ below ≤ result.toNat
  · have hones : (result ||| 0xffffffff <<< UInt32.ofNat (below + 1)).toNat =
        2 ^ 32 - 2 * 2 ^ below + result.toNat := by
      have hsplit : 2 ^ 32 = 2 ^ (below + 1) * 2 ^ (32 - (below + 1)) := by
        rw [← Nat.pow_add, Nat.add_sub_cancel' (Nat.le_of_lt hsize)]
      rw [UInt32.toNat_or, toNat_onesAbove hsize, Nat.or_comm,
        ← Nat.two_pow_add_eq_or_of_lt (by rwa [hhalf]), Nat.mul_sub, ← hsplit, Nat.mul_one, hhalf]
    rw [toInt32_eq, if_pos (htested.2 hnegative), hones, bmod_of_ge hnegative hresult,
      bmod_of_ge (by omega) (by omega)]
    omega
  · rw [Nat.not_le] at hnegative
    rw [toInt32_eq, if_neg (mt htested.1 (Nat.not_le.2 hnegative)), bmod_of_lt hnegative,
      bmod_of_lt (by omega)]

/-! ## The value of a field -/

/-- The bits of the first byte from a place on, and the bytes behind above them. -/
theorem firstBits (first : UInt8) (rest : List UInt8) {place : Nat} (hplace : place < 8) :
    (first.toUInt32 >>> UInt32.ofNat place).toNat < 2 ^ (8 - place) ∧
      number (first :: rest) >>> place =
        (first.toUInt32 >>> UInt32.ofNat place).toNat + 2 ^ (8 - place) * number rest := by
  have hbyte : 2 ^ 8 = 2 ^ place * 2 ^ (8 - place) := by
    rw [← Nat.pow_add, Nat.add_sub_cancel' (Nat.le_of_lt hplace)]
  have hmoved : (first.toUInt32 >>> UInt32.ofNat place).toNat = first.toNat / 2 ^ place := by
    rw [UInt32.toNat_shiftRight, toNat_place (by omega), UInt8.toNat_toUInt32,
      Nat.shiftRight_eq_div_pow]
  rw [hmoved]
  constructor
  · rw [Nat.div_lt_iff_lt_mul (Nat.two_pow_pos _), Nat.mul_comm, ← hbyte]
    exact first.toNat_lt
  · rw [number_cons, Nat.shiftRight_eq_div_pow, show 256 = 2 ^ 8 from rfl, hbyte, Nat.mul_assoc,
      Nat.add_mul_div_left _ _ (Nat.two_pow_pos _)]

theorem toNat_masked {size : Nat} (hsize : size < 32) (result : UInt32) :
    (result &&& (1 <<< UInt32.ofNat size - 1)).toNat = result.toNat % 2 ^ size := by
  rw [UInt32.toNat_and, toNat_mask hsize, Nat.and_two_pow_sub_one_eq_mod]

/-- For every report and every field of at most 31 bits, the value is that of the field's bits, the
bits past the end of the report being zero, as a signed number. -/
theorem getReportValue_eq (report : List UInt8) (val : ReportVal) (hpos : 1 ≤ val.size)
    (hsize : val.size ≤ 31) :
    getReportValue report val = (slice report val.offset val.size).toInt := by
  have hoffset : number report >>> val.offset =
      number (report.drop (val.offset / 8)) >>> (val.offset % 8) := by
    rw [← number_shiftRight, ← Nat.shiftRight_add, Nat.div_add_mod]
  rw [slice, BitVec.toInt_ofNat', hoffset, getReportValue]
  dsimp only
  cases hrest : report.drop (val.offset / 8) with
  | nil => simp
  | cons first rest =>
      have hplace : val.offset % 8 < 8 := Nat.mod_lt _ (by decide)
      obtain ⟨hstart, hbits⟩ := firstBits first rest hplace
      have hgathered := gather_mod (Nat.lt_succ_of_le hsize) rest hstart
      have hmasked := toNat_masked (Nat.lt_succ_of_le hsize)
        (gather val.size rest (8 - val.offset % 8)
          (first.toUInt32 >>> UInt32.ofNat (val.offset % 8)))
      have hresult := toInt32_signExtended hpos (Nat.lt_succ_of_le hsize)
        (hmasked.trans_lt (Nat.mod_lt _ (Nat.two_pow_pos _)))
      rw [hmasked, hgathered, ← hbits] at hresult
      refine hresult.trans ?_
      rw [Int.natCast_mod, Int.emod_bmod]

/-- An axis of twelve bits that starts inside a byte, at its lowest value and cut off by the end of
the report. -/
theorem getReportValue_eq_axis :
    getReportValue [0x00, 0x00, 0x80] { ReportVal.zero with offset := 12, size := 12 } = -2048 ∧
      getReportValue [0x00, 0xf0] { ReportVal.zero with offset := 12, size := 12 } =
        (slice [0x00, 0xf0] 12 12).toInt :=
  ⟨(getReportValue_eq _ _ (by decide) (by decide)).trans (by decide),
    getReportValue_eq _ _ (by decide) (by decide)⟩

end DeskhopPlus.Hid
