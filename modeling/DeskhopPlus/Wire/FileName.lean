import DeskhopPlus.Library.Utf8
import Mathlib.Data.List.DropRight

/-!
# Names of files on the wire

`dh_file_name_clean` and `dh_file_name_is_clean` of `dh_file_list.c`. Cleaning cuts a name to 255
bytes, replaces the bytes that no name may have, strips dots and spaces from its end and puts a byte
in front of the name of a device. For a device name of 255 bytes it takes the last character off
for that byte, and a dot or a space can then be the last byte again.
-/

namespace DeskhopPlus.Wire

open Utf8

/-- `DH_FILE_NAME_MAX`. -/
def fileNameMax : Nat := 255

/-- The bytes of some ASCII characters. -/
def ascii (chars : List Char) : List UInt8 := chars.map fun char ↦ UInt8.ofNat char.toNat

/-- `DH_FILE_NAME_FALLBACK`. -/
def fileNameFallback : List UInt8 := ascii ['f', 'i', 'l', 'e']

def underscore : UInt8 := 0x5F

def dot : UInt8 := 0x2E

def space : UInt8 := 0x20

/-- The quotation mark. -/
def quote : UInt8 := 0x22

def backslash : UInt8 := 0x5C

/-- `byte_is_forbidden`. The list is the slash, the backslash, the colon, the star, the question
mark, the quotation mark, the angle brackets and the bar. -/
def byteIsForbidden (byte : UInt8) : Bool :=
  byte < 0x20 || byte == 0x7F ||
    [0x2F, backslash, 0x3A, 0x2A, 0x3F, quote, 0x3C, 0x3E, 0x7C].contains byte

/-- A digit from `'0'` to `'9'`. -/
def isDigit (byte : UInt8) : Bool := 0x30 ≤ byte && byte ≤ 0x39

/-- The upper-case letter for a lower-case one. -/
def upper (byte : UInt8) : UInt8 :=
  if 0x61 ≤ byte ∧ byte ≤ 0x7A then byte - 0x61 + 0x41 else byte

/-- `matches_upper` over the length of the literal. -/
def matchesUpper (name literal : List UInt8) : Bool :=
  (name.take literal.length).map upper == literal

/-- The bytes before the first dot. -/
def stemLength (name : List UInt8) : Nat := (name.takeWhile (· != dot)).length

/-- `stem_is_reserved_device`. -/
def stemIsReservedDevice (name : List UInt8) : Bool :=
  let stem := stemLength name
  if stem = 3 then
    [ascii ['C', 'O', 'N'], ascii ['P', 'R', 'N'], ascii ['A', 'U', 'X'], ascii ['N', 'U', 'L']].any
      (matchesUpper name)
  else if stem = 4 && name[3]?.any isDigit then
    matchesUpper name (ascii ['C', 'O', 'M']) || matchesUpper name (ascii ['L', 'P', 'T'])
  else false

/-- `write_fallback`. -/
def writeFallback (cap : Nat) : Option (List UInt8) :=
  if cap < fileNameFallback.length then none else some fileNameFallback

/-- The length a name is cut to. -/
def takenLength (name : List UInt8) : Nat :=
  if name.length ≤ fileNameMax then name.length else backOff name fileNameMax

/-- What stands for a byte in a clean name. -/
def replaced (byte : UInt8) : UInt8 := if byteIsForbidden byte then underscore else byte

/-- A byte that Windows strips from the end of a name. -/
def isTail (byte : UInt8) : Bool := byte == space || byte == dot

/-- The name after the loops that cut, replace and strip. -/
def stripped (name : List UInt8) : List UInt8 :=
  ((name.take (takenLength name)).map replaced).rdropWhile isTail

/-- What is kept of the name of a device to put a byte in front of it. -/
def madeRoom (name : List UInt8) : List UInt8 :=
  if fileNameMax < name.length + 1 then name.take (backOff name (fileNameMax - 1)) else name

/-- `dh_file_name_clean` into a buffer of `cap` bytes. It returns zero where this is `none`. -/
def fileNameClean (name : List UInt8) (cap : Nat) : Option (List UInt8) :=
  if cap = 0 ∨ cap < takenLength name then none
  else
    let out := stripped name
    if out = [] then writeFallback cap
    else if stemIsReservedDevice out then
      if cap < out.length + 1 then none else some (underscore :: madeRoom out)
    else some out

/-- `dh_file_name_is_clean`. -/
def fileNameIsClean (name : List UInt8) : Bool :=
  match fileNameClean name (fileNameMax + 1) with
  | none => false
  | some cleaned => cleaned.length == name.length && 0 < cleaned.length && cleaned == name

/-- What a clean name is. -/
structure CleanName (name : List UInt8) : Prop where
  some_byte : name ≠ []
  length_le : name.length ≤ fileNameMax
  allowed : ∀ byte ∈ name, byteIsForbidden byte = false
  end_kept : ∀ last, name.getLast? = some last → isTail last = false
  not_device : stemIsReservedDevice name = false

/-! ## Bytes -/

theorem replaced_allowed (byte : UInt8) : byteIsForbidden (replaced byte) = false := by
  rw [replaced]
  split
  · rfl
  · next h => exact Bool.eq_false_iff.mpr h

theorem replaced_of_allowed {byte : UInt8} (h : byteIsForbidden byte = false) :
    replaced byte = byte := by
  rw [replaced, h]
  rfl

/-- Every byte that is replaced is below `0x80`. -/
theorem replaced_of_high {byte : UInt8} (h : 0x80 ≤ byte.toNat) : replaced byte = byte := by
  apply replaced_of_allowed
  have hall : ∀ number : Fin 256, 0x80 ≤ number.val →
      byteIsForbidden (UInt8.ofNat number) = false := by decide +kernel
  have hbyte := hall ⟨byte.toNat, byte.toNat_lt⟩ h
  rw [UInt8.ofNat_toNat] at hbyte
  exact hbyte

theorem replaced_low {byte : UInt8} (h : byte.toNat < 0x80) : (replaced byte).toNat < 0x80 := by
  rw [replaced]
  split
  · decide
  · exact h

@[simp] theorem isContinuation_replaced (byte : UInt8) :
    isContinuation (replaced byte) = isContinuation byte := by
  rcases Nat.lt_or_ge byte.toNat 0x80 with hlow | hhigh
  · rw [isContinuation_of_ascii hlow, isContinuation_of_ascii (replaced_low hlow)]
  · rw [replaced_of_high hhigh]

/-- A property of bytes holds of all when it holds of the 256 numbers. -/
theorem forall_byte (holds : UInt8 → Prop) (h : ∀ number : Fin 256, holds (UInt8.ofNat number))
    (byte : UInt8) : holds byte := by
  have hbyte := h ⟨byte.toNat, byte.toNat_lt⟩
  rw [UInt8.ofNat_toNat] at hbyte
  exact hbyte

@[simp] theorem isTail_replaced (byte : UInt8) : isTail (replaced byte) = isTail byte :=
  forall_byte (fun byte ↦ isTail (replaced byte) = isTail byte) (by decide +kernel) byte

@[simp] theorem isDigit_replaced (byte : UInt8) : isDigit (replaced byte) = isDigit byte :=
  forall_byte (fun byte ↦ isDigit (replaced byte) = isDigit byte) (by decide +kernel) byte

@[simp] theorem replaced_bne_dot (byte : UInt8) : (replaced byte != dot) = (byte != dot) :=
  forall_byte (fun byte ↦ (replaced byte != dot) = (byte != dot)) (by decide +kernel) byte

/-- An upper-case letter stands for the same bytes before and after the replacing. -/
theorem upper_replaced_eq (byte : UInt8) {letter : UInt8} (h : 0x41 ≤ letter ∧ letter ≤ 0x5A) :
    upper (replaced byte) = letter ↔ upper byte = letter := by
  have hforbidden := forall_byte
    (fun byte ↦ byteIsForbidden byte = true → ¬(0x41 ≤ upper byte ∧ upper byte ≤ 0x5A))
    (by decide +kernel) byte
  rw [replaced]
  split
  · next hbyte =>
      constructor
      · rintro rfl
        exact absurd h (by decide)
      · rintro rfl
        exact absurd h (hforbidden hbyte)
  · exact Iff.rfl

/-! ## Names of devices -/

/-- A literal matches the same names before and after the replacing. -/
theorem matchesUpper_replaced (name : List UInt8) {literal : List UInt8}
    (h : ∀ letter ∈ literal, 0x41 ≤ letter ∧ letter ≤ 0x5A) :
    matchesUpper (name.map replaced) literal = matchesUpper name literal := by
  rw [Bool.eq_iff_iff, matchesUpper, matchesUpper, beq_iff_eq, beq_iff_eq]
  induction literal generalizing name with
  | nil => simp
  | cons letter rest ih =>
      obtain ⟨hletter, hrest⟩ := List.forall_mem_cons.mp h
      cases name with
      | nil => simp
      | cons byte name =>
          simp only [List.map_cons, List.length_cons, List.take_succ_cons, List.cons.injEq,
            ih name hrest, upper_replaced_eq byte hletter]

theorem stemLength_replaced (name : List UInt8) :
    stemLength (name.map replaced) = stemLength name := by
  rw [stemLength, stemLength, List.takeWhile_map, List.length_map]
  simp only [Function.comp_def, replaced_bne_dot]

set_option maxRecDepth 2048 in
/-- The replacing neither makes nor unmakes the name of a device. -/
theorem stemIsReservedDevice_replaced (name : List UInt8) :
    stemIsReservedDevice (name.map replaced) = stemIsReservedDevice name := by
  have hany (literals : List (List UInt8))
      (h : ∀ literal ∈ literals, ∀ letter ∈ literal, 0x41 ≤ letter ∧ letter ≤ 0x5A) :
      literals.any (matchesUpper (name.map replaced)) = literals.any (matchesUpper name) := by
    rw [Bool.eq_iff_iff, List.any_eq_true, List.any_eq_true]
    exact exists_congr fun literal ↦ and_congr_right fun hmem ↦ by
      rw [matchesUpper_replaced name (h literal hmem)]
  have hdigit : (name.map replaced)[3]?.any isDigit = name[3]?.any isDigit := by
    rw [List.getElem?_map, Option.any_map]
    simp only [isDigit_replaced]
  rw [stemIsReservedDevice, stemIsReservedDevice, stemLength_replaced, hdigit,
    hany _ (by decide), matchesUpper_replaced name (by decide),
    matchesUpper_replaced name (by decide)]

/-- No device has a name that begins with an underscore. -/
theorem not_device_underscore (rest : List UInt8) :
    stemIsReservedDevice (underscore :: rest) = false := by
  have hno (letter : UInt8) (letters : List UInt8) (h : upper underscore ≠ letter) :
      matchesUpper (underscore :: rest) (letter :: letters) = false := by
    rw [matchesUpper, beq_eq_false_iff_ne, List.length_cons, List.take_succ_cons, List.map_cons]
    exact fun heq ↦ h (List.cons.inj heq).1
  simp only [stemIsReservedDevice, ascii, List.map_cons, List.map_nil, List.any_cons, List.any_nil]
  rw [hno _ _ (by decide), hno _ _ (by decide), hno _ _ (by decide), hno _ _ (by decide),
    hno _ _ (by decide), hno _ _ (by decide)]
  simp

/-- The name of a device has three or four bytes before its first dot. -/
theorem stem_of_device {name : List UInt8} (h : stemIsReservedDevice name = true) :
    stemLength name = 3 ∨ stemLength name = 4 := by
  rw [stemIsReservedDevice] at h
  split at h
  · next hthree => exact .inl hthree
  split at h
  · next hfour =>
      rw [Bool.and_eq_true, decide_eq_true_iff] at hfour
      exact .inr hfour.1
  · cases h

/-- Behind the stem there is a dot or nothing. -/
theorem stem_ends (name : List UInt8) {byte : UInt8} (h : name[stemLength name]? = some byte) :
    byte = dot := by
  induction name with
  | nil => cases h
  | cons first rest ih =>
      rw [stemLength, List.takeWhile_cons] at h
      split at h
      · exact ih h
      · next hdot =>
          rw [bne_iff_ne, not_not] at hdot
          rw [← hdot]
          exact (Option.some.inj h).symm

theorem stem_boundary (name : List UInt8) : Boundary name (stemLength name) := by
  intro byte hbyte
  rw [stem_ends name hbyte]
  rfl

/-! ## The steps of cleaning -/

variable {name out : List UInt8} {cap : Nat}

theorem takenLength_le (name : List UInt8) : takenLength name ≤ fileNameMax := by
  rw [takenLength]
  split
  · assumption
  · exact backOff_le name fileNameMax

/-- What stripping leaves is the front of the replaced bytes. -/
theorem stripped_leads (name : List UInt8) :
    stripped name <+: (name.take (takenLength name)).map replaced :=
  List.rdropWhile_prefix _ _

theorem stripped_length_le (name : List UInt8) : (stripped name).length ≤ fileNameMax := by
  have hle := (stripped_leads name).length_le
  rw [List.length_map, List.length_take] at hle
  have := takenLength_le name
  omega

theorem stripped_allowed (name : List UInt8) :
    ∀ byte ∈ stripped name, byteIsForbidden byte = false := by
  intro byte hbyte
  obtain ⟨before, _, rfl⟩ := List.mem_map.mp ((stripped_leads name).subset hbyte)
  exact replaced_allowed before

theorem stripped_end (name : List UInt8) :
    ∀ last, (stripped name).getLast? = some last → isTail last = false := by
  intro last hlast
  obtain ⟨hne, rfl⟩ := List.mem_getLast?_eq_getLast hlast
  exact Bool.eq_false_iff.mpr (List.rdropWhile_last_not _ _ hne)

/-- What is kept of the name of a device is its stem at least, and leaves room for a byte. -/
theorem madeRoom_device (h : stemIsReservedDevice name = true) :
    3 ≤ (madeRoom name).length ∧ (madeRoom name).length < fileNameMax := by
  have hstem := stem_of_device h
  have hlength : stemLength name ≤ name.length := (List.takeWhile_prefix _).length_le
  have hmax : fileNameMax = 255 := rfl
  rw [madeRoom]
  split
  · have hkept : stemLength name ≤ backOff name (fileNameMax - 1) :=
      le_backOff (stem_boundary name) (by omega)
    have hle := backOff_le name (fileNameMax - 1)
    rw [List.length_take]
    omega
  · omega

/-- What cleaning gives. -/
theorem fileNameClean_cases (h : fileNameClean name cap = some out) :
    (stripped name = [] ∧ out = fileNameFallback) ∨
      (stripped name ≠ [] ∧ stemIsReservedDevice (stripped name) = false ∧ out = stripped name) ∨
      (stemIsReservedDevice (stripped name) = true ∧
        out = underscore :: madeRoom (stripped name)) := by
  rw [fileNameClean] at h
  split at h
  · cases h
  dsimp only at h
  split at h
  · next hnil =>
      rw [writeFallback] at h
      split at h
      · cases h
      · exact .inl ⟨hnil, (Option.some.inj h).symm⟩
  next hne =>
    split at h
    · next hdevice =>
        split at h
        · cases h
        · exact .inr (.inr ⟨hdevice, (Option.some.inj h).symm⟩)
    · next hdevice =>
        exact .inr (.inl ⟨hne, Bool.eq_false_iff.mpr hdevice, (Option.some.inj h).symm⟩)

theorem mem_madeRoom {byte : UInt8} (h : byte ∈ madeRoom name) : byte ∈ name := by
  rw [madeRoom] at h
  split at h
  · exact List.mem_of_mem_take h
  · exact h

set_option maxRecDepth 2048 in
/-- What a cleaned name is whatever its last byte is. -/
theorem fileNameClean_bytes (h : fileNameClean name cap = some out) :
    out ≠ [] ∧ out.length ≤ fileNameMax ∧ (∀ byte ∈ out, byteIsForbidden byte = false) ∧
      stemIsReservedDevice out = false := by
  rcases fileNameClean_cases h with ⟨_, rfl⟩ | ⟨hne, hdevice, rfl⟩ | ⟨hdevice, rfl⟩
  · decide
  · exact ⟨hne, stripped_length_le name, stripped_allowed name, hdevice⟩
  · obtain ⟨_, hroom⟩ := madeRoom_device hdevice
    refine ⟨List.cons_ne_nil _ _, hroom, fun byte hbyte ↦ ?_, not_device_underscore _⟩
    rcases List.mem_cons.mp hbyte with rfl | hbyte
    · rfl
    · exact stripped_allowed name byte (mem_madeRoom hbyte)

/-- A cleaned name is a clean one but for its last byte. -/
theorem cleanName_of_end (h : fileNameClean name cap = some out)
    (hend : ∀ last, out.getLast? = some last → isTail last = false) : CleanName out := by
  obtain ⟨hne, hlength, hallowed, hdevice⟩ := fileNameClean_bytes h
  exact ⟨hne, hlength, hallowed, hend, hdevice⟩

/-- A clean name is cleaned to itself. -/
theorem CleanName.cleaned (h : CleanName name) (hcap : fileNameMax < cap) :
    fileNameClean name cap = some name := by
  have htaken : takenLength name = name.length := if_pos h.length_le
  have hmap : name.map replaced = name := by
    calc name.map replaced = name.map id :=
          List.map_congr_left fun byte hbyte ↦ replaced_of_allowed (h.allowed byte hbyte)
      _ = name := List.map_id name
  have hstripped : stripped name = name := by
    rw [stripped, htaken, List.take_length, hmap, List.rdropWhile_eq_self_iff]
    intro hne
    rw [h.end_kept _ (List.getLast?_eq_some_getLast hne)]
    exact Bool.false_ne_true
  have hle := h.length_le
  rw [fileNameClean, if_neg (by omega)]
  dsimp only
  rw [hstripped, if_neg h.some_byte, h.not_device]
  rfl

/-- The first byte stays in front. -/
theorem stripped_head {byte first : UInt8} {rest others : List UInt8}
    (h : stripped (byte :: rest) = first :: others) : first = replaced byte := by
  have hprefix := stripped_leads (byte :: rest)
  rw [h] at hprefix
  cases hlength : takenLength (byte :: rest) with
  | zero =>
      rw [hlength, List.take_zero, List.map_nil, List.prefix_nil] at hprefix
      cases hprefix
  | succ length =>
      rw [hlength, List.take_succ_cons, List.map_cons, List.cons_prefix_cons] at hprefix
      exact hprefix.1

/-- A name that begins with an underscore is no device's when it is stripped. -/
theorem stripped_underscore (rest : List UInt8) :
    stemIsReservedDevice (stripped (underscore :: rest)) = false := by
  cases hstripped : stripped (underscore :: rest) with
  | nil => rfl
  | cons first others =>
      rw [stripped_head hstripped]
      exact not_device_underscore others

set_option maxRecDepth 2048 in
/-- A name the check accepts is a clean one, and the other way round. -/
theorem fileNameIsClean_iff : fileNameIsClean name = true ↔ CleanName name := by
  constructor
  · intro h
    rw [fileNameIsClean] at h
    split at h
    · cases h
    next cleaned hcleaned =>
      rw [Bool.and_eq_true, beq_iff_eq] at h
      obtain ⟨_, rfl⟩ := h
      refine cleanName_of_end hcleaned ?_
      rcases fileNameClean_cases hcleaned with ⟨_, hname⟩ | ⟨_, _, hname⟩ | ⟨hdevice, hname⟩
      · rw [hname]
        decide
      · rw [hname]
        exact stripped_end _
      · -- the name itself would begin with the byte that stands in front of a device
        rw [hname, stripped_underscore] at hdevice
        cases hdevice
  · intro h
    rw [fileNameIsClean, h.cleaned (Nat.lt_succ_self _)]
    have hpos := List.length_pos_iff.mpr h.some_byte
    simp [hpos]

/-! ## Where a clean name comes out with a dot or a space at its end -/

/-- The name is the name of a device in 255 bytes of whole characters, after the cut where it was
longer, its last byte is no dot or space, and its last character stands behind one. -/
def LastBehindTail (name : List UInt8) : Prop :=
  fileNameMax ≤ name.length ∧ Boundary name fileNameMax ∧
    stemIsReservedDevice (name.take fileNameMax) = true ∧
    (∃ last, name[fileNameMax - 1]? = some last ∧ isTail last = false) ∧
    ∃ before, name[backOff name (fileNameMax - 1) - 1]? = some before ∧ isTail before = true

theorem takenLength_full : takenLength name = fileNameMax ↔
    fileNameMax ≤ name.length ∧ Boundary name fileNameMax := by
  rw [takenLength]
  split
  · next hshort =>
      constructor
      · intro hlength
        refine ⟨Nat.le_of_eq hlength.symm, fun byte hbyte ↦ ?_⟩
        rw [List.getElem?_eq_none (Nat.le_of_eq hlength)] at hbyte
        cases hbyte
      · rintro ⟨hlong, _⟩
        exact Nat.le_antisymm hshort hlong
  · next hlong =>
      constructor
      · intro hback
        refine ⟨by omega, ?_⟩
        rcases backOff_boundary name fileNameMax with hzero | hboundary
        · rw [hback] at hzero
          cases hzero
        · rw [hback] at hboundary
          exact hboundary
      · rintro ⟨_, hboundary⟩
        exact Nat.le_antisymm (backOff_le _ _) (le_backOff hboundary (Nat.le_refl _))

theorem takenLength_of_full (h : (stripped name).length = fileNameMax) :
    takenLength name = fileNameMax := by
  have hle := (stripped_leads name).length_le
  rw [List.length_map, List.length_take] at hle
  have := takenLength_le name
  omega

/-- All 255 bytes are those of the name. -/
theorem stripped_of_full (h : (stripped name).length = fileNameMax) :
    stripped name = (name.take fileNameMax).map replaced := by
  have hprefix := stripped_leads name
  have htaken := takenLength_of_full h
  rw [htaken] at hprefix
  apply hprefix.eq_of_length
  rw [h, List.length_map, List.length_take, Nat.min_eq_left (takenLength_full.mp htaken).1]

/-- The last of 255 bytes. -/
theorem replaced_last (h : fileNameMax ≤ name.length) :
    ((name.take fileNameMax).map replaced).getLast? =
      name[fileNameMax - 1]?.map replaced := by
  rw [List.getLast?_eq_getElem?, List.length_map, List.length_take, Nat.min_eq_left h,
    List.getElem?_map, List.getElem?_take_of_lt (by decide)]

/-- A name keeps 255 bytes where the cut leaves them and the last is no dot or space. -/
theorem stripped_full : (stripped name).length = fileNameMax ↔
    (fileNameMax ≤ name.length ∧ Boundary name fileNameMax) ∧
      ∃ last, name[fileNameMax - 1]? = some last ∧ isTail last = false := by
  have hmax : fileNameMax = 255 := rfl
  constructor
  · intro hlength
    have hfull := takenLength_full.mp (takenLength_of_full hlength)
    have hlast := List.getElem?_eq_getElem (l := name) (i := fileNameMax - 1) (by omega)
    refine ⟨hfull, _, hlast, ?_⟩
    rw [← isTail_replaced]
    apply stripped_end name
    rw [stripped_of_full hlength, replaced_last hfull.1, hlast]
    rfl
  · rintro ⟨hfull, last, hlast, htail⟩
    have hkept : ((name.take fileNameMax).map replaced).rdropWhile isTail =
        (name.take fileNameMax).map replaced := by
      rw [List.rdropWhile_eq_self_iff]
      intro hne
      have hsome := List.getLast?_eq_some_getLast hne
      rw [replaced_last hfull.1, hlast, Option.map_some, Option.some.injEq] at hsome
      rw [← hsome, isTail_replaced, htail]
      exact Bool.false_ne_true
    rw [stripped, takenLength_full.mpr hfull, hkept, List.length_map, List.length_take,
      Nat.min_eq_left hfull.1]

/-- The name of a device gets a dot or a space at its end in this case and no other. -/
theorem prefixed_end (hdevice : stemIsReservedDevice (stripped name) = true) :
    (∀ last, (underscore :: madeRoom (stripped name)).getLast? = some last → isTail last = false) ↔
      ¬LastBehindTail name := by
  have hmax : fileNameMax = 255 := rfl
  by_cases hfull : (stripped name).length = fileNameMax
  · have hname := stripped_of_full hfull
    obtain ⟨⟨hlong, hboundary⟩, hlast⟩ := stripped_full.mp hfull
    have hstem : stemIsReservedDevice (name.take fileNameMax) = true := by
      rw [← stemIsReservedDevice_replaced, ← hname]
      exact hdevice
    have hread (step : Nat) (hstep : step < fileNameMax) :
        (stripped name)[step]? = name[step]?.map replaced := by
      rw [hname, List.getElem?_map, List.getElem?_take_of_lt hstep]
    have hback : backOff (stripped name) (fileNameMax - 1) = backOff name (fileNameMax - 1) := by
      apply backOff_congr
      intro step hstep
      rw [hread step (by omega), Option.map_map]
      congr 1
      funext byte
      exact isContinuation_replaced byte
    have hroom : madeRoom (stripped name) =
        (stripped name).take (backOff name (fileNameMax - 1)) := by
      rw [madeRoom, hback, if_pos (by omega)]
    obtain ⟨hthree, hlt⟩ := madeRoom_device hdevice
    rw [hroom, List.length_take] at hthree
    have hle := backOff_le name (fileNameMax - 1)
    -- the byte in front of the cut
    have hend : (underscore :: madeRoom (stripped name)).getLast? =
        name[backOff name (fileNameMax - 1) - 1]?.map replaced := by
      have hinside := List.getElem?_eq_getElem (l := name)
        (i := backOff name (fileNameMax - 1) - 1) (by omega)
      rw [hroom, List.getLast?_cons, List.getLast?_take, if_neg (by omega), hread _ (by omega),
        hinside]
      rfl
    rw [hend]
    constructor
    · rintro hkept ⟨_, _, _, _, before, hbefore, htail⟩
      have := hkept (replaced before) (by rw [hbefore]; rfl)
      rw [isTail_replaced, htail] at this
      cases this
    · intro hnot last hmap
      obtain ⟨before, hbefore, rfl⟩ := Option.map_eq_some_iff.mp hmap
      rw [isTail_replaced]
      refine Bool.eq_false_iff.mpr fun htail ↦ hnot ?_
      exact ⟨hlong, hboundary, hstem, hlast, before, hbefore, htail⟩
  · have hle := stripped_length_le name
    have hroom : madeRoom (stripped name) = stripped name := if_neg (by omega)
    constructor
    · rintro _ ⟨hlong, hboundary, _, hlast, _⟩
      exact hfull (stripped_full.mpr ⟨⟨hlong, hboundary⟩, hlast⟩)
    · intro _ last hlast
      rw [hroom, List.getLast?_cons] at hlast
      obtain ⟨hthree, _⟩ := madeRoom_device hdevice
      rw [hroom] at hthree
      have hsome := List.getLast?_eq_some_getLast (l := stripped name) fun hnil ↦ by
        rw [hnil] at hthree
        cases hthree
      rw [hsome, Option.getD_some] at hlast
      exact stripped_end name last (hsome.trans hlast)

theorem LastBehindTail.device (h : LastBehindTail name) :
    stemIsReservedDevice (stripped name) = true := by
  obtain ⟨hlong, hboundary, hstem, hlast, _⟩ := h
  rw [stripped_of_full (stripped_full.mpr ⟨⟨hlong, hboundary⟩, hlast⟩),
    stemIsReservedDevice_replaced]
  exact hstem

set_option maxRecDepth 2048 in
/-- The check accepts a cleaned name in every other case. -/
theorem fileNameIsClean_cleaned (h : fileNameClean name cap = some out) :
    fileNameIsClean out = true ↔ ¬LastBehindTail name := by
  rw [fileNameIsClean_iff]
  by_cases hdevice : stemIsReservedDevice (stripped name) = true
  · have hout : out = underscore :: madeRoom (stripped name) := by
      rcases fileNameClean_cases h with ⟨hnil, _⟩ | ⟨_, hnot, _⟩ | ⟨_, hout⟩
      · rw [hnil] at hdevice
        cases hdevice
      · rw [hdevice] at hnot
        cases hnot
      · exact hout
    rw [← prefixed_end hdevice, ← hout]
    exact ⟨fun hclean ↦ hclean.end_kept, cleanName_of_end h⟩
  · have hnot : ¬LastBehindTail name := fun hlast ↦ hdevice hlast.device
    refine ⟨fun _ ↦ hnot, fun _ ↦ cleanName_of_end h ?_⟩
    rcases fileNameClean_cases h with ⟨_, rfl⟩ | ⟨_, _, rfl⟩ | ⟨his, _⟩
    · decide
    · exact stripped_end name
    · exact absurd his hdevice

/-- A buffer of one byte more than a name is large enough. -/
theorem fileNameClean_some (name : List UInt8) (hcap : fileNameMax < cap) :
    ∃ out, fileNameClean name cap = some out := by
  have htaken := takenLength_le name
  have hlength := stripped_length_le name
  have hfallback : fileNameFallback.length ≤ fileNameMax := by decide
  rw [fileNameClean, if_neg (by omega)]
  dsimp only
  split
  · exact ⟨_, if_neg (by omega)⟩
  split
  · exact ⟨_, if_neg (by omega)⟩
  · exact ⟨_, rfl⟩

/-! ## Characters -/

/-- Stripping takes whole characters. -/
theorem Utf8.Spells.rdropWhile_isTail {bytes : List UInt8} (h : Spells bytes) :
    Spells (bytes.rdropWhile isTail) := by
  induction bytes using List.reverseRecOn with
  | nil => exact h
  | append_singleton bytes byte ih =>
      rw [List.rdropWhile_concat]
      split
      · next htail =>
          apply ih
          have hcut : Boundary (bytes ++ [byte]) bytes.length := by
            intro other hother
            rw [List.getElem?_concat_length, Option.some.injEq] at hother
            rw [← hother]
            rw [isTail, Bool.or_eq_true, beq_iff_eq, beq_iff_eq] at htail
            rcases htail with rfl | rfl <;> rfl
          have htake := h.take hcut
          rw [List.take_left] at htake
          exact htake
      · exact h

/-- A cleaned name is cut between characters. -/
theorem fileNameClean_spells (h : fileNameClean name cap = some out) (hname : Spells name) :
    Spells out := by
  have hstripped : Spells (stripped name) := by
    apply Utf8.Spells.rdropWhile_isTail
    refine Spells.map ?_ (fun _ ↦ replaced_low) (fun _ ↦ replaced_of_high)
    rw [takenLength]
    split
    · rw [List.take_length]
      exact hname
    · exact hname.take_backOff fileNameMax
  rcases fileNameClean_cases h with ⟨_, rfl⟩ | ⟨_, _, rfl⟩ | ⟨_, rfl⟩
  · exact (((spells_nil.cons (by decide)).cons (by decide)).cons (by decide)).cons (by decide)
  · exact hstripped
  · refine Spells.cons (by decide) ?_
    rw [madeRoom]
    split
    · exact hstripped.take_backOff (fileNameMax - 1)
    · exact hstripped

end DeskhopPlus.Wire
