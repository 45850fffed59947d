import Mathlib.Data.List.Basic
import Mathlib.Data.Nat.Find
import Mathlib.Data.Nat.NthRoot.Defs
import Mathlib.Data.Nat.Prime.Basic
import Mathlib.Tactic.Linarith

/-!
# SHA-256 as FIPS 180-4 states it

A message is a string of bits. It is padded to blocks of 512 bits, each block is sixteen words of 32
bits, and the schedule of a block is a recurrence over its words. The constants are the fractions of
roots of primes that the standard takes them from.
-/

namespace DeskhopPlus.Sha2

/-! ## Strings of bits -/

variable {w : Nat}

/-- The bits of a word, most significant first. -/
def bits (x : BitVec w) : List Bool := (List.range w).map x.getMsbD

/-- The word at the head of a string of bits. -/
def word (w : Nat) (string : List Bool) : BitVec w :=
  (BitVec.ofBoolListBE (string.take w)).setWidth w

/-- The bits of a string of octets. -/
def octetBits (data : List UInt8) : List Bool := data.flatMap fun octet ↦ bits octet.toBitVec

/-- The octets of a string of bits. -/
def octets (string : List Bool) : List UInt8 :=
  (List.range (string.length / 8)).map fun i ↦ UInt8.ofBitVec (word 8 (string.drop (8 * i)))

@[simp] theorem length_bits (x : BitVec w) : (bits x).length = w := by
  rw [bits, List.length_map, List.length_range]

/-- Words one behind the other have their bits so. -/
theorem bits_append {v : Nat} (x : BitVec v) (y : BitVec w) :
    bits (x ++ y) = bits x ++ bits y := by
  refine List.ext_getElem (by simp) fun i hi hi' ↦ ?_
  rw [List.getElem_append]
  simp only [bits, List.getElem_map, List.getElem_range, BitVec.getMsbD_append, List.length_map,
    List.length_range]
  split_ifs with hbehind hhead hhead
  · exact absurd hbehind (Nat.not_le.2 hhead)
  · rfl
  · rfl
  · omega

@[simp] theorem length_octetBits (data : List UInt8) :
    (octetBits data).length = 8 * data.length := by
  rw [octetBits, List.length_flatMap]
  simp [Nat.mul_comm]

@[simp] theorem octetBits_nil : octetBits [] = [] := rfl

@[simp] theorem octetBits_cons (octet : UInt8) (data : List UInt8) :
    octetBits (octet :: data) = bits octet.toBitVec ++ octetBits data := List.flatMap_cons

@[simp] theorem octetBits_append (first second : List UInt8) :
    octetBits (first ++ second) = octetBits first ++ octetBits second := List.flatMap_append

/-- The word whose bits head a string. -/
@[simp] theorem word_bits_append (x : BitVec w) (string : List Bool) :
    word w (bits x ++ string) = x := by
  rw [word, List.take_left' (length_bits x)]
  refine BitVec.eq_of_getMsbD_eq fun i hi ↦ ?_
  rw [BitVec.getMsbD_setWidth]
  simp [bits, hi]

theorem octetBits_drop (data : List UInt8) (i : Nat) :
    (octetBits data).drop (8 * i) = octetBits (data.drop i) := by
  induction i generalizing data with
  | zero => rfl
  | succ i ih =>
      cases data with
      | nil => rw [List.drop_nil, octetBits_nil, List.drop_nil]
      | cons octet data =>
          rw [octetBits_cons, Nat.mul_succ, Nat.add_comm, ← List.drop_drop,
            List.drop_left' (length_bits _), ih, List.drop_succ_cons]

/-- Octets are those of their bits. -/
theorem octets_octetBits (data : List UInt8) : octets (octetBits data) = data := by
  rw [octets, length_octetBits, Nat.mul_div_cancel_left _ (by decide)]
  refine List.ext_getElem (by simp) fun i hi hi' ↦ ?_
  rw [List.getElem_map, List.getElem_range, octetBits_drop, List.drop_eq_getElem_cons hi',
    octetBits_cons, word_bits_append]

/-- The octets of a number that is that many wide, most significant first. -/
def octetsOf (n : Nat) (x : BitVec (8 * n)) : List UInt8 :=
  (List.range n).map fun i ↦ UInt8.ofBitVec (x.extractLsb' (8 * (n - 1 - i)) 8)

/-- A number is its octets. -/
theorem octetBits_octetsOf (n : Nat) (x : BitVec (8 * n)) : octetBits (octetsOf n x) = bits x := by
  induction n with
  | zero => rfl
  | succ n ih =>
      -- the last octet is the low end, and the others are those of the number without it
      have hsplit : x = (x.extractLsb' 8 (8 * n) ++ x.extractLsb' 0 8 : BitVec (8 * n + 8)) := by
        refine BitVec.eq_of_getLsbD_eq fun i hi ↦ ?_
        simp only [BitVec.getLsbD_append, BitVec.getLsbD_extractLsb']
        split_ifs with hlow
        · rw [decide_eq_true hlow, Bool.true_and, Nat.zero_add]
        · rw [decide_eq_true (by omega), Bool.true_and]
          congr 1
          omega
      have hfront : (List.range n).map (fun i ↦
          UInt8.ofBitVec (x.extractLsb' (8 * (n + 1 - 1 - i)) 8)) =
            octetsOf n (x.extractLsb' 8 (8 * n)) := by
        refine List.map_congr_left fun i hi ↦ congrArg UInt8.ofBitVec ?_
        have hi := List.mem_range.1 hi
        refine BitVec.eq_of_getLsbD_eq fun j hj ↦ ?_
        simp only [BitVec.getLsbD_extractLsb']
        rw [decide_eq_true (show 8 * (n - 1 - i) + j < 8 * n by omega), Bool.true_and]
        congr 2
        omega
      have hlast : octetsOf (n + 1) x =
          octetsOf n (x.extractLsb' 8 (8 * n)) ++ [UInt8.ofBitVec (x.extractLsb' 0 8)] := by
        rw [octetsOf, List.range_succ, List.map_append, hfront, List.map_singleton,
          Nat.add_sub_cancel, Nat.sub_self]
      rw [hlast, octetBits_append, ih, octetBits_cons, octetBits_nil, List.append_nil]
      exact (bits_append _ _).symm.trans (congrArg bits hsplit.symm)

/-! ## Functions and constants -/

/-- The eight working variables, and the eight words of a hash value. -/
structure Variables where
  a : BitVec 32
  b : BitVec 32
  c : BitVec 32
  d : BitVec 32
  e : BitVec 32
  f : BitVec 32
  g : BitVec 32
  h : BitVec 32
  deriving DecidableEq, Repr

/-- `Ch`. -/
def ch (x y z : BitVec 32) : BitVec 32 := (x &&& y) ^^^ (~~~ x &&& z)

/-- `Maj`. -/
def maj (x y z : BitVec 32) : BitVec 32 := (x &&& y) ^^^ (x &&& z) ^^^ (y &&& z)

/-- The upper-case sigma 0. -/
def bigSigma0 (x : BitVec 32) : BitVec 32 :=
  x.rotateRight 2 ^^^ x.rotateRight 13 ^^^ x.rotateRight 22

/-- The upper-case sigma 1. -/
def bigSigma1 (x : BitVec 32) : BitVec 32 :=
  x.rotateRight 6 ^^^ x.rotateRight 11 ^^^ x.rotateRight 25

/-- The lower-case sigma 0. -/
def smallSigma0 (x : BitVec 32) : BitVec 32 := x.rotateRight 7 ^^^ x.rotateRight 18 ^^^ x >>> 3

/-- The lower-case sigma 1. -/
def smallSigma1 (x : BitVec 32) : BitVec 32 := x.rotateRight 17 ^^^ x.rotateRight 19 ^^^ x >>> 10

/-- The first 32 bits of the fractional part of the `n`th root of `p`: the root with 32 more binary
places, cut to an integer and to its low word. -/
def rootFraction (n p : Nat) : BitVec 32 := BitVec.ofNat 32 (Nat.nthRoot n (p * 2 ^ (32 * n)))

/-- The constants of the rounds, from the cube roots of the first sixty-four primes. -/
def constants : List (BitVec 32) := ((List.range 312).filter Nat.Prime).map (rootFraction 3)

/-- The primes by trial of every divisor up to the root. -/
theorem constants_eq :
    constants = ((List.range 312).filter fun n ↦
      2 ≤ n ∧ ∀ m ∈ List.range 18, 2 ≤ m → m * m ≤ n → ¬ m ∣ n).map (rootFraction 3) := by
  rw [constants]
  refine congrArg (List.map _) (List.filter_congr fun n hn ↦ decide_eq_decide.2 ?_)
  have hn := List.mem_range.1 hn
  rw [Nat.prime_def_le_sqrt]
  refine and_congr_right fun _ ↦ forall_congr' fun m ↦ ?_
  rw [Nat.le_sqrt, List.mem_range]
  constructor
  · exact fun h _ ↦ h
  · intro h htwo hroot
    refine h ?_ htwo hroot
    nlinarith

/-- The first hash value, from the square roots of the first eight primes. -/
def initial : Variables where
  a := rootFraction 2 2
  b := rootFraction 2 3
  c := rootFraction 2 5
  d := rootFraction 2 7
  e := rootFraction 2 11
  f := rootFraction 2 13
  g := rootFraction 2 17
  h := rootFraction 2 19

/-! ## Padding -/

theorem exists_zeros (length : Nat) : ∃ k, (length + 1 + k) % 512 = 448 :=
  ⟨(447 + 512 - length % 512) % 512, by omega⟩

/-- The least number of zeros that leaves 64 bits in the last block. -/
def zeros (length : Nat) : Nat := Nat.find (exists_zeros length)

/-- A message with the end mark, the zeros and its length. -/
def pad (message : List Bool) : List Bool :=
  message ++ true :: List.replicate (zeros message.length) false ++
    bits (BitVec.ofNat 64 message.length)

/-- The zeros of a length are the ones below a block that leave room for the count. -/
theorem zeros_eq {length k : Nat} (h : (length + 1 + k) % 512 = 448) (hk : k < 512) :
    zeros length = k := by
  refine (Nat.find_eq_iff _).2 ⟨h, fun j hj hj' ↦ ?_⟩
  omega

theorem octetBits_zeros (n : Nat) :
    octetBits (List.replicate n 0) = List.replicate (8 * n) false := by
  induction n with
  | zero => rfl
  | succ n ih =>
      rw [List.replicate_succ, octetBits_cons, ih, Nat.mul_succ, Nat.add_comm (8 * n),
        ← List.replicate_append_replicate]
      rfl

/-- A message of octets is padded by whole octets. -/
theorem pad_octetBits {data : List UInt8} {k : Nat} (h : (data.length + 1 + k) % 64 = 56)
    (hk : k < 64) :
    pad (octetBits data) = octetBits (data ++ [0x80] ++ List.replicate k 0 ++
      octetsOf 8 (BitVec.ofNat 64 (8 * data.length))) := by
  have hzeros : zeros (8 * data.length) = 7 + 8 * k := zeros_eq (by omega) (by omega)
  have hmark : octetBits [0x80] = true :: List.replicate 7 false := by decide
  rw [pad, length_octetBits, hzeros, octetBits_append, octetBits_append, octetBits_append, hmark,
    octetBits_zeros, octetBits_octetsOf, ← List.replicate_append_replicate]
  simp only [List.append_assoc, List.cons_append]

/-! ## Hashing -/

/-- The schedule of a block. -/
def schedule (m : Nat → BitVec 32) (t : Nat) : BitVec 32 :=
  if t < 16 then m t
  else smallSigma1 (schedule m (t - 2)) + schedule m (t - 7) + smallSigma0 (schedule m (t - 15)) +
    schedule m (t - 16)
termination_by t

theorem schedule_of_lt (m : Nat → BitVec 32) {t : Nat} (ht : t < 16) : schedule m t = m t := by
  rw [schedule, if_pos ht]

theorem schedule_of_le (m : Nat → BitVec 32) {t : Nat} (ht : 16 ≤ t) :
    schedule m t = smallSigma1 (schedule m (t - 2)) + schedule m (t - 7) +
      smallSigma0 (schedule m (t - 15)) + schedule m (t - 16) := by
  rw [schedule, if_neg (Nat.not_lt.2 ht)]

/-- A schedule looks at the sixteen words of its block. -/
theorem schedule_congr {m m' : Nat → BitVec 32} (h : ∀ t < 16, m t = m' t) (t : Nat) :
    schedule m t = schedule m' t := by
  induction t using Nat.strong_induction_on with
  | h t ih =>
      by_cases ht : t < 16
      · rw [schedule_of_lt m ht, schedule_of_lt m' ht, h t ht]
      · have ht := Nat.not_lt.1 ht
        rw [schedule_of_le m ht, schedule_of_le m' ht, ih (t - 2) (by omega), ih (t - 7) (by omega),
          ih (t - 15) (by omega), ih (t - 16) (by omega)]

/-- One turn of the variables. -/
def turn (v : Variables) (k w : BitVec 32) : Variables :=
  let t1 := v.h + bigSigma1 v.e + ch v.e v.f v.g + k + w
  let t2 := bigSigma0 v.a + maj v.a v.b v.c
  { a := t1 + t2, b := v.a, c := v.b, d := v.c, e := v.d + t1, f := v.e, g := v.f, h := v.g }

/-- The hash value after one more block. -/
def hashBlock (value : Variables) (m : Nat → BitVec 32) : Variables :=
  let v := (List.range 64).foldl (fun v t ↦ turn v (constants.getD t 0) (schedule m t)) value
  { a := v.a + value.a, b := v.b + value.b, c := v.c + value.c, d := v.d + value.d,
    e := v.e + value.e, f := v.f + value.f, g := v.g + value.g, h := v.h + value.h }

theorem hashBlock_congr {m m' : Nat → BitVec 32} (h : ∀ t < 16, m t = m' t) (value : Variables) :
    hashBlock value m = hashBlock value m' := by
  rw [hashBlock, funext (schedule_congr h), hashBlock]

/-- The words of a block of a padded message. -/
def blockWords (padded : List Bool) (i t : Nat) : BitVec 32 :=
  word 32 (padded.drop (512 * i + 32 * t))

theorem blockWords_octetBits (data : List UInt8) (i t : Nat) :
    blockWords (octetBits data) i t = word 32 (octetBits (data.drop (64 * i + 4 * t))) := by
  rw [blockWords, ← octetBits_drop]
  congr 2
  omega

/-- The hash value after all blocks of a padded message. -/
def hashValue (padded : List Bool) : Variables :=
  (List.range (padded.length / 512)).foldl (fun value i ↦ hashBlock value (blockWords padded i))
    initial

/-- The digest of a message. -/
def sha256 (message : List Bool) : List Bool :=
  let value := hashValue (pad message)
  bits value.a ++ bits value.b ++ bits value.c ++ bits value.d ++ bits value.e ++ bits value.f ++
    bits value.g ++ bits value.h

/-- The digest of a message of octets, in octets. -/
def sha256Octets (data : List UInt8) : List UInt8 := octets (sha256 (octetBits data))

end DeskhopPlus.Sha2
