import Mathlib.Data.List.GetD
import DeskhopPlus.Hid.Interface
import DeskhopPlus.Keyboard.Output

/-!
# Reading keyboard reports

`extract_kbd_data`: a report of a keyboard is read with the layout its descriptor gave, as a bitmap
of keys, as the eight bytes of the boot protocol, or as an array of keys.
-/

namespace DeskhopPlus.Hid

open DeskhopPlus.Keyboard (Report keysInUsbReport)

/-- `KBD_REPORT_LENGTH`. -/
def kbdReportLength : Nat := 8

/-- The six places of keys, filled from the first on. -/
def keycodes (keys : List UInt8) : List UInt8 :=
  keys.take keysInUsbReport ++ List.replicate (keysInUsbReport - keys.length) 0

theorem length_keycodes (keys : List UInt8) : (keycodes keys).length = keysInUsbReport := by
  rw [keycodes, List.length_append, List.length_take, List.length_replicate]
  omega

/-- A report of modifiers, a reserved byte and keys. -/
def reportOf (modifier reserved : UInt8) (keys : List UInt8) : Report :=
  ⟨modifier, reserved, keycodes keys, length_keycodes keys⟩

/-- Whether a bit of a payload is set; a bit past its end is not. -/
def bitSet (payload : List UInt8) (j : Nat) : Bool :=
  payload.getD (j / 8) 0 &&& 1 <<< UInt8.ofNat (j % 8) != 0

/-- The loop of `extract_bit_variable`, from a bit on. -/
def bitLoop (block : NkroBlock) (payload : List UInt8) (maxKeys : Nat) :
    Nat → Nat → List UInt8 → List UInt8
  | 0, _, keys => keys
  | remaining + 1, bit, keys =>
      if keys.length < maxKeys then
        let j := block.offset + bit
        if payload.length ≤ j / 8 then keys
        else
          bitLoop block payload maxKeys remaining (bit + 1)
            (if bitSet payload j then keys ++ [block.usageMin + UInt8.ofNat bit] else keys)
      else keys

/-- `extract_bit_variable`, with the keys it appends. -/
def extractBitVariable (block : NkroBlock) (payload : List UInt8) (maxKeys : Nat) : List UInt8 :=
  bitLoop block payload maxKeys block.size 0 []

/-- The keys of every section, until the report is full. -/
def nkroKeys (payload : List UInt8) : List NkroBlock → List UInt8 → List UInt8
  | [], keys => keys
  | block :: blocks, keys =>
      if keys.length < keysInUsbReport then
        nkroKeys payload blocks
          (keys ++ extractBitVariable block payload (keysInUsbReport - keys.length))
      else keys

/-- A report without its report ID. -/
def payloadOf (rawReport : List UInt8) (iface : Interface) : List UInt8 :=
  rawReport.drop iface.usesReportId.toNat

/-- The keyboard a report is read as. -/
def keyboardOf (rawReport : List UInt8) (iface : Interface) : Keyboard :=
  iface.keyboard (getKeyboard iface (rawReport.getD 0 0))

/-- `_extract_kbd_nkro`, or none. -/
def extractKbdNkro (rawReport : List UInt8) (iface : Interface) : Option (Nat × Report) :=
  let keyboard := keyboardOf rawReport iface
  let payload := payloadOf rawReport iface
  if keyboard.modifier.size ≠ modifierBitLength ∨ payload.length ≤ keyboard.modifier.offsetIdx then
    none
  else
    let keys := nkroKeys payload keyboard.nkro []
    some (keys.length, reportOf (payload.getD keyboard.modifier.offsetIdx 0) 0 keys)

/-- `_extract_kbd_boot`. -/
def extractKbdBoot (rawReport : List UInt8) : Option (Nat × Report) :=
  let src := if rawReport.length = kbdReportLength + 1 then rawReport.drop 1 else rawReport
  some (kbdReportLength,
    reportOf (src.getD 0 0) (src.getD 1 0)
      ((List.range keysInUsbReport).map fun i ↦ src.getD (i + 2) 0))

/-- `_extract_kbd_other`, or none. -/
def extractKbdOther (rawReport : List UInt8) (iface : Interface) : Option (Nat × Report) :=
  let keyboard := keyboardOf rawReport iface
  let src := payloadOf rawReport iface
  if src.length ≤ keyboard.modifier.offsetIdx then none
  else
    let keys := (List.range (min maxKeys src.length)).filter fun i ↦ keyboard.keyArray.getD i false
    some (kbdReportLength,
      reportOf (src.getD keyboard.modifier.offsetIdx 0) 0 (keys.map fun i ↦ src.getD i 0))

/-- `extract_kbd_data`: how much was read and the report, or none. -/
def extractKbdData (rawReport : List UInt8) (iface : Interface) : Option (Nat × Report) :=
  if iface.protocol = .boot then extractKbdBoot rawReport
  else
    match
      if (keyboardOf rawReport iface).isNkro then extractKbdNkro rawReport iface else none with
    | some read => some read
    | none =>
        if iface.usesReportId = false ∧
            (rawReport.length = kbdReportLength ∨ rawReport.length = kbdReportLength + 1) then
          extractKbdBoot rawReport
        else extractKbdOther rawReport iface

/-! ## Bitmaps -/

/-- The usages whose bits are set in a section, in the order of the bits. -/
def pressed (payload : List UInt8) (block : NkroBlock) : List UInt8 :=
  ((List.range block.size).filter fun bit ↦ bitSet payload (block.offset + bit)).map fun bit ↦
    block.usageMin + UInt8.ofNat bit

/-- Past the end of a payload no bit is set. -/
theorem bitSet_past {payload : List UInt8} {j : Nat} (h : payload.length ≤ j / 8) :
    bitSet payload j = false := by
  rw [bitSet, List.getD_eq_default _ _ h]
  simp

/-- The loop over bits appends the usages of the bits that are set, while there is room. -/
theorem bitLoop_eq (block : NkroBlock) (payload : List UInt8) {maxKeys : Nat} (remaining bit : Nat)
    (keys : List UInt8) (h : keys.length ≤ maxKeys) :
    bitLoop block payload maxKeys remaining bit keys =
      (keys ++ ((List.range' bit remaining).filter fun i ↦ bitSet payload (block.offset + i)).map
        fun i ↦ block.usageMin + UInt8.ofNat i).take maxKeys := by
  induction remaining generalizing bit keys with
  | zero =>
      rw [bitLoop, List.range'_zero, List.filter_nil, List.map_nil, List.append_nil,
        List.take_of_length_le h]
  | succ remaining ih =>
      rw [bitLoop]
      dsimp only
      split_ifs with hroom hpast hset
      · -- the loop stops at the end of the payload, where no bit is set any more
        have hnone : ((List.range' bit (remaining + 1)).filter fun i ↦
            bitSet payload (block.offset + i)) = [] := by
          rw [List.filter_eq_nil_iff]
          intro i hi
          have hle := (List.mem_range'_1.1 hi).1
          rw [bitSet_past (hpast.trans (Nat.div_le_div_right (Nat.add_le_add_left hle _)))]
          exact Bool.false_ne_true
        rw [hnone, List.map_nil, List.append_nil, List.take_of_length_le h]
      · rw [ih _ _ (by rw [List.length_append]; exact hroom), List.range'_succ,
          List.filter_cons, if_pos hset, List.map_cons, List.append_assoc]
        rfl
      · rw [ih _ _ h, List.range'_succ, List.filter_cons, if_neg hset]
      · rw [List.take_append_of_le_length (Nat.not_lt.1 hroom),
          List.take_of_length_le h]

/-- A section gives the usages of its bits that are set, as many as there is room for. -/
theorem extractBitVariable_eq (block : NkroBlock) (payload : List UInt8) (maxKeys : Nat) :
    extractBitVariable block payload maxKeys = (pressed payload block).take maxKeys := by
  rw [extractBitVariable, bitLoop_eq block payload _ _ _ (Nat.zero_le _), pressed,
    List.range_eq_range', List.nil_append]

/-- The sections give the first usages of all that are set, in the order of sections and bits. -/
theorem nkroKeys_eq (payload : List UInt8) (blocks : List NkroBlock) (keys : List UInt8)
    (h : keys.length ≤ keysInUsbReport) :
    nkroKeys payload blocks keys =
      (keys ++ blocks.flatMap (pressed payload)).take keysInUsbReport := by
  induction blocks generalizing keys with
  | nil => rw [nkroKeys, List.flatMap_nil, List.append_nil, List.take_of_length_le h]
  | cons block blocks ih =>
      rw [nkroKeys, List.flatMap_cons]
      split_ifs with hroom
      · rw [extractBitVariable_eq]
        have hlength :
            (keys ++ (pressed payload block).take (keysInUsbReport - keys.length)).length ≤
              keysInUsbReport := by
          rw [List.length_append, List.length_take]
          omega
        have hrest : keysInUsbReport - keys.length -
            min (keysInUsbReport - keys.length) (pressed payload block).length =
            keysInUsbReport - keys.length - (pressed payload block).length := by omega
        rw [ih _ hlength, List.append_assoc, List.take_append, List.take_append, List.take_take,
          Nat.min_self, List.length_take, hrest, ← List.take_append, ← List.take_append]
      · rw [List.take_append_of_le_length (Nat.not_lt.1 hroom), List.take_of_length_le h]

/-- A keyboard read as a bitmap, with modifiers of eight bits within the payload, gives the byte of
the modifiers and the first six usages that are pressed. -/
theorem extractKbdData_nkro {rawReport : List UInt8} {iface : Interface}
    (hprotocol : iface.protocol = .report) (hnkro : (keyboardOf rawReport iface).isNkro = true)
    (hsize : (keyboardOf rawReport iface).modifier.size = modifierBitLength)
    (hinside :
      (keyboardOf rawReport iface).modifier.offsetIdx < (payloadOf rawReport iface).length) :
    extractKbdData rawReport iface =
      let payload := payloadOf rawReport iface
      let keys := ((keyboardOf rawReport iface).nkro.flatMap (pressed payload)).take keysInUsbReport
      some (keys.length,
        reportOf (payload.getD (keyboardOf rawReport iface).modifier.offsetIdx 0) 0 keys) := by
  have hboot : ¬ iface.protocol = .boot := by
    rw [hprotocol]
    decide
  have hread : ¬ ((keyboardOf rawReport iface).modifier.size ≠ modifierBitLength ∨
      (payloadOf rawReport iface).length ≤ (keyboardOf rawReport iface).modifier.offsetIdx) := by
    rw [not_or, not_ne_iff]
    exact ⟨hsize, Nat.not_le.2 hinside⟩
  rw [extractKbdData, if_neg hboot, if_pos hnkro, extractKbdNkro, if_neg hread,
    nkroKeys_eq _ _ _ (Nat.zero_le _), List.nil_append]

end DeskhopPlus.Hid
