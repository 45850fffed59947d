import Mathlib.Data.List.Basic

/-!
# What a report descriptor tells of an interface

The element a report descriptor declares, `report_val_t`, and what `hid_report.c` keeps of it in the
interface: the fields of a mouse, the layouts of keyboards, consumer and system controls, and which
receiver a report ID goes to.
-/

namespace DeskhopPlus.Hid

/-! ## Elements -/

/-- The values of `data_type_e` that are used. -/
inductive DataType where
  | data | constant | array | variable
  deriving DecidableEq, Repr

/-- `report_val_t`, offset and size in bits. -/
structure ReportVal where
  offset : Nat
  offsetIdx : Nat
  size : Nat
  usageMin : Int
  usageMax : Int
  itemType : DataType
  dataType : DataType
  reportId : UInt8
  globalUsage : UInt16
  usagePage : UInt16
  usage : UInt16
  deriving DecidableEq, Repr

/-- A `report_val_t` of zeros. -/
def ReportVal.zero : ReportVal := ⟨0, 0, 0, 0, 0, .data, .data, 0, 0, 0, 0⟩

/-! ## Interfaces -/

/-- `MAX_CC_BUTTONS`. -/
def maxCcButtons : Nat := 16

/-- `MAX_KEYS`. -/
def maxKeys : Nat := 32

/-- `MAX_KEYBOARDS`. -/
def maxKeyboards : Nat := 5

/-- `MAX_NKRO_BLOCKS`. -/
def maxNkroBlocks : Nat := 4

/-- `NKRO_MIN_BITS`. -/
def nkroMinBits : Nat := 32

/-- `MODIFIER_BIT_LENGTH`. -/
def modifierBitLength : Nat := 8

/-- `PRIMARY_KEYBOARD`. -/
def primaryKeyboard : Nat := 0

/-- `receiver_e`. -/
inductive Receiver where
  | none | mouse | keyboard | consumer | system
  deriving DecidableEq, Repr

/-- `nkro_block_t`. -/
structure NkroBlock where
  offset : Nat
  size : Nat
  usageMin : UInt8
  deriving DecidableEq, Repr

/-- `keyboard_t`; `nkro` holds the `nkro_count` sections in use. -/
structure Keyboard where
  modifier : ReportVal
  nkro : List NkroBlock
  nkroBits : Nat
  ccArray : List UInt16
  keyArray : List Bool
  reportId : UInt8
  isFound : Bool
  isNkro : Bool
  deriving DecidableEq, Repr

/-- A `keyboard_t` of zeros. -/
def Keyboard.zero : Keyboard where
  modifier := .zero
  nkro := []
  nkroBits := 0
  ccArray := List.replicate maxCcButtons 0
  keyArray := List.replicate maxKeys false
  reportId := 0
  isFound := false
  isNkro := false

/-- `mouse_t`. -/
structure Mouse where
  buttons : ReportVal
  moveX : ReportVal
  moveY : ReportVal
  wheel : ReportVal
  pan : ReportVal
  reportId : UInt8
  isFound : Bool
  deriving DecidableEq, Repr

/-- `report_t`. -/
structure Control where
  val : ReportVal
  reportId : UInt8
  isVariable : Bool
  isArray : Bool
  deriving DecidableEq, Repr

/-- `hid_protocol_mode_enum_t`. -/
inductive Protocol where
  | boot | report
  deriving DecidableEq, Repr

/-- `hid_interface_t`. -/
structure Interface where
  keyboards : List Keyboard
  numKeyboards : Nat
  mouse : Mouse
  consumer : Control
  system : Control
  reportReceiver : List Receiver
  protocol : Protocol
  usesReportId : Bool
  deriving DecidableEq, Repr

/-- An interface cleared, in a protocol. -/
def Interface.zero (protocol : Protocol) : Interface where
  keyboards := List.replicate maxKeyboards .zero
  numKeyboards := 0
  mouse := ⟨.zero, .zero, .zero, .zero, .zero, 0, false⟩
  consumer := ⟨.zero, 0, false, false⟩
  system := ⟨.zero, 0, false, false⟩
  reportReceiver := List.replicate 256 .none
  protocol := protocol
  usesReportId := false

namespace Interface

/-- The keyboard of a slot. -/
def keyboard (iface : Interface) (slot : Nat) : Keyboard := iface.keyboards.getD slot .zero

/-- A change to the keyboard of a slot. -/
def modifyKeyboard (iface : Interface) (slot : Nat) (f : Keyboard → Keyboard) : Interface :=
  { iface with keyboards := iface.keyboards.modify slot f }

/-- The receiver of a report ID. -/
def setReceiver (iface : Interface) (reportId : UInt8) (receiver : Receiver) : Interface :=
  { iface with reportReceiver := iface.reportReceiver.set reportId.toNat receiver }

end Interface

/-- `get_keyboard`, by the slot of the keyboard. -/
def getKeyboard (iface : Interface) (reportId : UInt8) : Nat :=
  if iface.usesReportId then
    ((List.range (min iface.numKeyboards maxKeyboards)).find? fun i ↦
      (iface.keyboard i).reportId == reportId).getD primaryKeyboard
  else primaryKeyboard

/-- `get_or_add_keyboard`: the slot and the interface that may have given it out, or none. -/
def getOrAddKeyboard (iface : Interface) (reportId : UInt8) : Option (Nat × Interface) :=
  let slot := getKeyboard iface reportId
  if ¬ iface.usesReportId ∨ (iface.keyboard slot).reportId = reportId then some (slot, iface)
  else if maxKeyboards ≤ iface.numKeyboards then none
  else
    some (iface.numKeyboards,
      iface.modifyKeyboard iface.numKeyboards fun keyboard ↦ { keyboard with reportId := reportId })

/-! ## What is kept of an element -/

/-- `handle_consumer_control_values`. -/
def handleConsumerControlValues (src : ReportVal) (iface : Interface) : Interface :=
  let slot := getKeyboard iface src.reportId
  let iface :=
    if src.dataType = .array ∧ src.itemType = .data ∧ iface.consumer.val.size = 0 then
      { iface with consumer := { iface.consumer with val := src } }
    else iface
  if maxCcButtons ≤ src.offset then iface
  else
    let iface :=
      if src.dataType = .variable then
        { iface.modifyKeyboard slot fun keyboard ↦
            { keyboard with ccArray := keyboard.ccArray.set src.offset src.usage } with
          consumer := { iface.consumer with isVariable := true } }
      else iface
    { iface with
      consumer := { iface.consumer with
        isArray := iface.consumer.isArray || decide (src.dataType = .array) } }

/-- Whether a field holds the modifiers: left control is within its usages. -/
def isModifier (src : ReportVal) : Bool :=
  decide (src.size ≤ modifierBitLength ∧ src.dataType = .variable ∧ src.usageMin ≤ 0xe0 ∧
    0xe0 ≤ src.usageMax)

/-- Whether a field is a run of usages one per bit. -/
def usagePerBit (src : ReportVal) : Bool :=
  let span := src.usageMax - src.usageMin + 1
  decide (src.usageMin < src.usageMax ∧ (src.size : Int) ≤ span ∧
    (span = src.size ∨ nkroMinBits ≤ src.size))

/-- Whether a field is a section of a bitmap of keys. -/
def isSection (src : ReportVal) : Bool :=
  usagePerBit src && !isModifier src && decide (src.dataType = .variable)

/-- The section a field is; the first usage is cut to a byte. -/
def nkroBlock (src : ReportVal) : NkroBlock :=
  ⟨src.offset, src.size, UInt8.ofNat (src.usageMin % 256).toNat⟩

/-- The modifiers and the keys of an array are kept. -/
def Keyboard.keepFields (src : ReportVal) (keyboard : Keyboard) : Keyboard :=
  { keyboard with
    modifier := if isModifier src then src else keyboard.modifier
    keyArray :=
      if src.offsetIdx < maxKeys then
        keyboard.keyArray.set src.offsetIdx (decide (src.dataType = .array))
      else keyboard.keyArray }

/-- A section is kept while there is room. -/
def Keyboard.keepSection (src : ReportVal) (keyboard : Keyboard) : Keyboard :=
  if isSection src ∧ keyboard.nkro.length < maxNkroBlocks then
    { keyboard with
      nkro := keyboard.nkro ++ [nkroBlock src]
      nkroBits := (keyboard.nkroBits + src.size) % 65536
      isNkro := decide (nkroMinBits < (keyboard.nkroBits + src.size) % 65536) }
  else keyboard

/-- `handle_keyboard_descriptor_values`. -/
def handleKeyboardDescriptorValues (src : ReportVal) (iface : Interface) : Interface :=
  match getOrAddKeyboard iface src.reportId with
  | none => iface.setReceiver src.reportId .none
  | some (slot, iface) =>
      if src.itemType = .constant then iface
      else
        let iface := iface.modifyKeyboard slot fun keyboard ↦
          (keyboard.keepFields src).keepSection src
        if (iface.keyboard slot).isFound then iface
        else
          { iface.modifyKeyboard slot fun keyboard ↦ { keyboard with isFound := true } with
            numKeyboards := iface.numKeyboards + 1 }

/-- `handle_buttons`: constants are added to the size. -/
def handleButtons (src : ReportVal) (iface : Interface) : Interface :=
  if src.itemType = .constant then
    { iface with
      mouse := { iface.mouse with
        buttons := { iface.mouse.buttons with
          size := (iface.mouse.buttons.size + src.size) % 65536 } } }
  else { iface with mouse := { iface.mouse with buttons := src, isFound := true } }

/-- `_store`, with the field that is stored to. -/
def store (put : ReportVal → Interface → Interface) (src : ReportVal) (iface : Interface) :
    Interface :=
  if src.itemType = .constant then iface else put src iface

/-- `usage_map_t`; a usage or page of 0 is any. -/
structure UsageMap where
  globalUsage : UInt16
  usagePage : UInt16
  usage : UInt16
  handler : ReportVal → Interface → Interface
  receiver : Receiver
  setId : UInt8 → Interface → Interface

def setMouseId (reportId : UInt8) (iface : Interface) : Interface :=
  { iface with mouse := { iface.mouse with reportId := reportId } }

def setConsumerId (reportId : UInt8) (iface : Interface) : Interface :=
  { iface with consumer := { iface.consumer with reportId := reportId } }

def setSystemId (reportId : UInt8) (iface : Interface) : Interface :=
  { iface with system := { iface.system with reportId := reportId } }

/-- The map of `extract_data`. -/
def usageMap : List UsageMap :=
  -- the buttons, the axes and the wheels of a mouse first
  [⟨0x02, 0x09, 0x00, handleButtons, .mouse, setMouseId⟩,
   ⟨0x02, 0x01, 0x30,
    store fun src iface ↦ { iface with mouse := { iface.mouse with moveX := src } },
    .mouse, setMouseId⟩,
   ⟨0x02, 0x01, 0x31,
    store fun src iface ↦ { iface with mouse := { iface.mouse with moveY := src } },
    .mouse, setMouseId⟩,
   ⟨0x02, 0x01, 0x38,
    store fun src iface ↦ { iface with mouse := { iface.mouse with wheel := src } },
    .mouse, setMouseId⟩,
   ⟨0x02, 0x0c, 0x0238,
    store fun src iface ↦ { iface with mouse := { iface.mouse with pan := src } },
    .mouse, setMouseId⟩,
   -- a keyboard records its report ID itself
   ⟨0x06, 0x07, 0x00, handleKeyboardDescriptorValues, .keyboard, fun _ iface ↦ iface⟩,
   ⟨0x01, 0x0c, 0x00, handleConsumerControlValues, .consumer, setConsumerId⟩,
   ⟨0x80, 0x01, 0x00,
    store fun src iface ↦ { iface with system := { iface.system with val := src } },
    .system, setSystemId⟩]

/-- Whether an entry of the map is for an element. -/
def UsageMap.isFor (hay : UsageMap) (val : ReportVal) : Bool :=
  (val.globalUsage == hay.globalUsage || hay.globalUsage == 0) &&
    (val.usage == hay.usage || hay.usage == 0) &&
    (val.usagePage == hay.usagePage || hay.usagePage == 0)

/-- One entry of the map, for an element. -/
def UsageMap.apply (val : ReportVal) (iface : Interface) (hay : UsageMap) : Interface :=
  if hay.isFor val then
    hay.handler val ((hay.setId val.reportId iface).setReceiver val.reportId hay.receiver)
  else iface

/-- `extract_data`. -/
def extractData (iface : Interface) (val : ReportVal) : Interface :=
  usageMap.foldl (UsageMap.apply val) iface

end DeskhopPlus.Hid
