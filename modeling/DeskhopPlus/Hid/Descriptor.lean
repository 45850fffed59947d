import Mathlib.Algebra.Group.Nat.Defs
import Mathlib.Logic.Function.Basic
import DeskhopPlus.Hid.Interface

/-!
# Parsing report descriptors

`hid_parser.c`: the items of a report descriptor are read one by one, global and local items are
kept for the main items they describe, and an input item gives its elements their places in the
report. Each report ID has an offset of its own.
-/

namespace DeskhopPlus.Hid

/-- `HID_MAX_USAGES`. -/
def hidMaxUsages : Nat := 128

/-- `MAX_REPORT_LAYOUTS`. -/
def maxReportLayouts : Nat := 24

/-! ## Items -/

/-- `item_t`, its header unpacked: `size` is the two bits of the header, not a number of bytes. -/
structure Item where
  size : Fin 4
  type : Fin 4
  tag : Fin 16
  val : UInt32
  deriving DecidableEq, Repr

def typeMain : Fin 4 := 0
def typeGlobal : Fin 4 := 1
def typeLocal : Fin 4 := 2

def mainInput : Fin 16 := 8
def mainCollection : Fin 16 := 10
def mainCollectionEnd : Fin 16 := 12

def globalUsagePage : Fin 16 := 0
def globalReportSize : Fin 16 := 7
def globalReportId : Fin 16 := 8
def globalReportCount : Fin 16 := 9

def localUsage : Fin 16 := 0
def localUsageMin : Fin 16 := 1
def localUsageMax : Fin 16 := 2

/-- `SIZE_LOOKUP`: the bytes of data behind a header. -/
def sizeLookup : Fin 4 → Nat
  | 1 => 1
  | 2 => 2
  | 3 => 4
  | _ => 0

/-- `get_descriptor_value`, little-endian. -/
def getDescriptorValue (report : Nat → UInt8) (size : Fin 4) : UInt32 :=
  match size with
  | 1 => (report 0).toUInt32
  | 2 => (report 0).toUInt32 ||| (report 1).toUInt32 <<< 8
  | 3 =>
      (report 0).toUInt32 ||| (report 1).toUInt32 <<< 8 ||| (report 2).toUInt32 <<< 16 |||
        (report 3).toUInt32 <<< 24
  | _ => 0

/-- The item at a place: `header_t` has the size in its low two bits, then the type, then the
tag. -/
def itemAt (report : Nat → UInt8) : Item :=
  let header := (report 0).toNat
  { size := Fin.ofNat 4 header
    type := Fin.ofNat 4 (header / 4)
    tag := Fin.ofNat 16 (header / 16)
    val := getDescriptorValue (fun i ↦ report (i + 1)) (Fin.ofNat 4 header) }

/-! ## The state of the parser -/

/-- `report_offset_map_t`. -/
structure ReportOffset where
  reportId : UInt8
  offsetInBits : Nat
  deriving DecidableEq, Repr

/-- `parser_state_t`; of the items kept for a tag only the value is read, and `reportOffsets` holds
the `num_report_offsets` entries in use. -/
structure Parser where
  reportId : UInt32
  usageCount : Nat
  usages : List UInt16
  globalUsage : UInt16
  collectionStart : UInt8
  collectionEnd : UInt8
  reportOffsets : List ReportOffset
  globals : Fin 16 → UInt32
  locals : Fin 16 → UInt32

/-- The state wiped clean. -/
def Parser.zero : Parser where
  reportId := 0
  usageCount := 0
  usages := List.replicate hidMaxUsages 0
  globalUsage := 0
  collectionStart := 0
  collectionEnd := 0
  reportOffsets := []
  globals := fun _ ↦ 0
  locals := fun _ ↦ 0

/-- The parser and the interface it fills, with every element that was stored so far. -/
structure Parse where
  parser : Parser
  iface : Interface
  stored : List ReportVal

/-! ## Elements of an input item -/

/-- `get_or_create_report_offset`, by the place of the entry. -/
def getOrCreateReportOffset (parser : Parser) (reportId : UInt8) : Parser × Option Nat :=
  match parser.reportOffsets.findIdx? fun entry ↦ entry.reportId == reportId with
  | some i => (parser, some i)
  | none =>
      if parser.reportOffsets.length < maxReportLayouts then
        ({ parser with reportOffsets := parser.reportOffsets ++ [⟨reportId, 0⟩] },
          some parser.reportOffsets.length)
      else (parser, none)

/-- The offset of an entry. -/
def Parser.offsetAt (parser : Parser) (i : Nat) : Nat :=
  ((parser.reportOffsets[i]?).map ReportOffset.offsetInBits).getD 0

/-- A width is added to the offset of an entry, in 32 bits. -/
def Parser.advance (parser : Parser) (i width : Nat) : Parser :=
  { parser with
    reportOffsets := parser.reportOffsets.modify i fun entry ↦
      { entry with offsetInBits := (entry.offsetInBits + width) % 4294967296 } }

/-- `get_current_offset`. -/
def getCurrentOffset (parser : Parser) : Parser × Nat :=
  match getOrCreateReportOffset parser parser.reportId.toUInt8 with
  | (parser, some i) => (parser, parser.offsetAt i)
  | (parser, none) => (parser, 0)

/-- `get_usage`. -/
def getUsage (parser : Parser) (i : Nat) : UInt16 :=
  if parser.usageCount = 0 then parser.usages.getD 0 0
  else parser.usages.getD (if i < parser.usageCount then i else parser.usageCount - 1) 0

/-- A number of 32 bits read as signed. -/
def toInt32 (n : UInt32) : Int := (n.toNat : Int).bmod (2 ^ 32)

/-- `store_element` gives an element and notes that its interface uses report IDs. -/
def storeElement (state : Parse) (usage : UInt16) (data : UInt32) (size : Nat) :
    Parse × ReportVal :=
  let (parser, currentOffset) := getCurrentOffset state.parser
  let val : ReportVal :=
    { offset := currentOffset % 65536
      offsetIdx := currentOffset / 8 % 65536
      size := size % 65536
      usageMin := toInt32 (parser.locals localUsageMin)
      usageMax := toInt32 (parser.locals localUsageMax)
      itemType := if data &&& 1 ≠ 0 then .constant else .data
      dataType := if data &&& 2 ≠ 0 then .variable else .array
      reportId := parser.reportId.toUInt8
      globalUsage := parser.globalUsage
      usagePage := (parser.globals globalUsagePage).toUInt16
      usage := usage }
  ({ parser := parser
     iface := { state.iface with
       usesReportId := state.iface.usesReportId || decide (parser.reportId ≠ 0) }
     stored := state.stored ++ [val] }, val)

/-- One turn of the loop over the elements of an input item. -/
def inputElement (item : Item) (entry size i : Nat) (state : Parse) : Parse :=
  let (state, val) := storeElement state (getUsage state.parser i) item.val size
  { state with
    iface := extractData state.iface val
    parser := state.parser.advance entry size }

/-- The loop over the elements of an input item, from the `i`-th on. -/
def inputLoop (item : Item) (entry size : Nat) : Nat → Nat → Parse → Parse
  | 0, _, state => state
  | remaining + 1, i, state =>
      if 0 < size ∧ state.parser.offsetAt entry ≤ 65535 then
        inputLoop item entry size remaining (i + 1) (inputElement item entry size i state)
      else state

/-- The last usage is carried to a next main item that declares none. -/
def Parser.carryUsage (parser : Parser) : Parser :=
  if 0 < parser.usageCount then
    { parser with usages := parser.usages.set 0 (parser.usages.getD (parser.usageCount - 1) 0) }
  else parser

/-- `handle_main_input`: a field of single bits is one element as wide as the field. -/
def handleMainInput (state : Parse) (item : Item) : Parse :=
  let size := (state.parser.globals globalReportSize).toNat
  let count := (state.parser.globals globalReportCount).toNat
  let wide := size = 1 ∧ state.parser.usageCount ≤ 1
  match getOrCreateReportOffset state.parser state.parser.reportId.toUInt8 with
  | (_, none) => state
  | (parser, some entry) =>
      let state := inputLoop item entry (if wide then count else size) (if wide then 1 else count) 0
        { state with parser := parser }
      { state with parser := state.parser.carryUsage }

/-! ## Items -/

/-- `handle_global_item`. -/
def handleGlobalItem (parser : Parser) (item : Item) : Parser :=
  { parser with
    reportId := if item.tag = globalReportId then item.val else parser.reportId
    globals := Function.update parser.globals item.tag item.val }

/-- `handle_local_item`: a usage at the end of a block is that of the next block. -/
def handleLocalItem (parser : Parser) (item : Item) : Parser :=
  let parser := { parser with locals := Function.update parser.locals item.tag item.val }
  if item.tag = localUsage then
    if parser.collectionStart = parser.collectionEnd then
      { parser with globalUsage := item.val.toUInt16 }
    else if parser.usageCount < hidMaxUsages then
      { parser with
        usages := parser.usages.set parser.usageCount item.val.toUInt16
        usageCount := parser.usageCount + 1 }
    else parser
  else parser

/-- `handle_main_item`: local items do not carry over. -/
def handleMainItem (state : Parse) (item : Item) : Parse :=
  let state :=
    if item.tag = mainCollection then
      { state with
        parser := { state.parser with collectionStart := state.parser.collectionStart + 1 } }
    else if item.tag = mainCollectionEnd then
      { state with
        parser := { state.parser with collectionEnd := state.parser.collectionEnd + 1 } }
    else if item.tag = mainInput then handleMainInput state item
    else state
  { state with
    parser := { state.parser with usageCount := 0, locals := fun _ ↦ 0 } }

/-- What is done with an item, by its type. -/
def handleItem (state : Parse) (item : Item) : Parse :=
  if item.type = typeMain then handleMainItem state item
  else if item.type = typeGlobal then
    { state with parser := handleGlobalItem state.parser item }
  else if item.type = typeLocal then
    { state with parser := handleLocalItem state.parser item }
  else state

/-- The loop of `parse_report_descriptor`, from a place of the descriptor on. -/
def parseLoop (report : Nat → UInt8) (descLen : Nat) (state : Parse) : Parse :=
  if _h : 0 < descLen then
    let item := itemAt report
    parseLoop (fun i ↦ report (i + 1 + sizeLookup item.size))
      (descLen - (sizeLookup item.size + 1)) (handleItem state item)
  else state
termination_by descLen

/-- `parse_report_descriptor`, with the elements it stored. -/
def parseReportDescriptor (iface : Interface) (report : Nat → UInt8) (descLen : Nat) : Parse :=
  parseLoop report descLen ⟨.zero, iface, []⟩

end DeskhopPlus.Hid
