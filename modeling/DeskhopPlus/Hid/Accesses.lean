import DeskhopPlus.Hid.Keyboards
import DeskhopPlus.Library.Noting
import Mathlib.Algebra.GroupWithZero.Nat

/-!
# The accesses of the descriptor parser

`parse_report_descriptor` once more, with every byte of the descriptor it reads, every entry of a
table it writes and every value it gives the count of a table noted on the way. The functions have
their names here again, in a namespace of their own, and compute what they compute there
(`result_parseReportDescriptor`).
-/

namespace DeskhopPlus.Hid

open Noting

/-- The tables the parser writes. `sys_array` is none of them: the map stores system controls
whole. -/
inductive Table where
  | usages | reportOffsets | globals | locals | keyboards | nkro | ccArray | keyArray
  | reportReceiver
  deriving DecidableEq, Repr

/-- How many entries a table has. -/
def Table.size : Table → Nat
  | .usages => hidMaxUsages
  | .reportOffsets => maxReportLayouts
  | .globals | .locals => 16
  | .keyboards => maxKeyboards
  | .nkro => maxNkroBlocks
  | .ccArray => maxCcButtons
  | .keyArray => maxKeys
  | .reportReceiver => 256

/-- A byte of the descriptor is read, an entry of a table is written, or the entries in use of a
table are counted anew. -/
inductive Access where
  | read (place : Nat)
  | write (table : Table) (index : Nat)
  | count (table : Table) (value : Nat)
  deriving DecidableEq, Repr

namespace Accesses

/-! ## Reading the descriptor -/

/-- A byte of the descriptor, and that it was read. -/
def readByte (report : Nat → UInt8) (place : Nat) : Noted Access UInt8 := do
  note (.read place)
  pure (report place)

/-- `get_descriptor_value`, byte after byte. -/
def getDescriptorValue (report : Nat → UInt8) (place : Nat) (size : Fin 4) :
    Noted Access UInt32 :=
  match size with
  | 1 => do
      let first ← readByte report place
      pure first.toUInt32
  | 2 => do
      let second ← readByte report (place + 1)
      let first ← readByte report place
      pure (first.toUInt32 ||| second.toUInt32 <<< 8)
  | 3 => do
      let fourth ← readByte report (place + 3)
      let third ← readByte report (place + 2)
      let second ← readByte report (place + 1)
      let first ← readByte report place
      pure (first.toUInt32 ||| second.toUInt32 <<< 8 ||| third.toUInt32 <<< 16 |||
        fourth.toUInt32 <<< 24)
  | _ => pure 0

local instance twoBits : NeZero 4 := ⟨Nat.succ_ne_zero 3⟩
local instance fourBits : NeZero 16 := ⟨Nat.succ_ne_zero 15⟩

/-- The header and the value of the item at a place. -/
def itemAt (report : Nat → UInt8) (place : Nat) : Noted Access Item := do
  let header ← readByte report place
  let val ← getDescriptorValue report (place + 1) (Fin.ofNat 4 header.toNat)
  pure
    { size := Fin.ofNat 4 header.toNat
      type := Fin.ofNat 4 (header.toNat / 4)
      tag := Fin.ofNat 16 (header.toNat / 16)
      val := val }

/-! ## Keeping an element -/

/-- The receiver of a report id, and where it was written. -/
def setReceiver (iface : Interface) (reportId : UInt8) (receiver : Receiver) :
    Noted Access Interface := do
  note (.write .reportReceiver reportId.toNat)
  pure (iface.setReceiver reportId receiver)

/-- A change through the pointer to a keyboard. -/
def modifyKeyboard (iface : Interface) (slot : Nat) (f : Keyboard → Noted Access Keyboard) :
    Noted Access Interface := do
  note (.write .keyboards slot)
  let keyboard ← f (iface.keyboard slot)
  pure (iface.modifyKeyboard slot fun _ ↦ keyboard)

/-- `get_or_add_keyboard`: the slot that is taken, and the write of it. -/
def getOrAddKeyboard (iface : Interface) (reportId : UInt8) :
    Noted Access (Option (Nat × Interface)) :=
  let slot := getKeyboard iface reportId
  if ¬ iface.usesReportId ∨ (iface.keyboard slot).reportId = reportId then
    pure (some (slot, iface))
  else if maxKeyboards ≤ iface.numKeyboards then pure none
  else do
    let iface' ← modifyKeyboard iface iface.numKeyboards fun keyboard ↦
      pure { keyboard with reportId := reportId }
    pure (some (iface.numKeyboards, iface'))

/-- `handle_consumer_control_values`. -/
def handleConsumerControlValues (src : ReportVal) (iface : Interface) : Noted Access Interface :=
  let slot := getKeyboard iface src.reportId
  let iface :=
    if src.dataType = .array ∧ src.itemType = .data ∧ iface.consumer.val.size = 0 then
      { iface with consumer := { iface.consumer with val := src } }
    else iface
  let isArray (iface : Interface) : Interface :=
    { iface with
      consumer := { iface.consumer with
        isArray := iface.consumer.isArray || decide (src.dataType = .array) } }
  if maxCcButtons ≤ src.offset then pure iface
  else if src.dataType = .variable then do
    let iface' ← modifyKeyboard iface slot fun keyboard ↦ do
      note (.write .ccArray src.offset)
      pure { keyboard with ccArray := keyboard.ccArray.set src.offset src.usage }
    pure (isArray { iface' with consumer := { iface.consumer with isVariable := true } })
  else pure (isArray iface)

/-- The fields a keyboard keeps. -/
def keepFields (src : ReportVal) (keyboard : Keyboard) : Noted Access Keyboard :=
  let keyboard := { keyboard with modifier := if isModifier src then src else keyboard.modifier }
  if src.offsetIdx < maxKeys then do
    note (.write .keyArray src.offsetIdx)
    pure { keyboard with
      keyArray := keyboard.keyArray.set src.offsetIdx (decide (src.dataType = .array)) }
  else pure keyboard

/-- The section of a bitmap a keyboard keeps. -/
def keepSection (src : ReportVal) (keyboard : Keyboard) : Noted Access Keyboard :=
  if isSection src ∧ keyboard.nkro.length < maxNkroBlocks then do
    note (.write .nkro keyboard.nkro.length)
    note (.count .nkro (keyboard.nkro.length + 1))
    pure { keyboard with
      nkro := keyboard.nkro ++ [nkroBlock src]
      nkroBits := (keyboard.nkroBits + src.size) % 65536
      isNkro := decide (nkroMinBits < (keyboard.nkroBits + src.size) % 65536) }
  else pure keyboard

/-- `handle_keyboard_descriptor_values`. -/
def handleKeyboardDescriptorValues (src : ReportVal) (iface : Interface) :
    Noted Access Interface := do
  match ← getOrAddKeyboard iface src.reportId with
  | none => setReceiver iface src.reportId .none
  | some (slot, iface) =>
      if src.itemType = .constant then pure iface
      else do
        let iface ← modifyKeyboard iface slot fun keyboard ↦
          keepFields src keyboard >>= keepSection src
        if (iface.keyboard slot).isFound then pure iface
        else do
          let iface' ← modifyKeyboard iface slot fun keyboard ↦
            pure { keyboard with isFound := true }
          note (.count .keyboards (iface.numKeyboards + 1))
          pure { iface' with numKeyboards := iface.numKeyboards + 1 }

/-- A handler that writes no table. -/
def plain (hay : UsageMap) (src : ReportVal) (iface : Interface) : Noted Access Interface :=
  pure (hay.handler src iface)

/-- The handlers of the map of `extract_data`, in its order. -/
def handlers : List (UsageMap → ReportVal → Interface → Noted Access Interface) :=
  [plain, plain, plain, plain, plain, fun _ ↦ handleKeyboardDescriptorValues,
    fun _ ↦ handleConsumerControlValues, plain]

/-- One entry of the map with its handler, for an element. -/
def apply (val : ReportVal) (iface : Interface)
    (entry : UsageMap × (UsageMap → ReportVal → Interface → Noted Access Interface)) :
    Noted Access Interface :=
  if entry.1.isFor val then do
    let iface ← setReceiver (entry.1.setId val.reportId iface) val.reportId entry.1.receiver
    entry.2 entry.1 val iface
  else pure iface

/-- `extract_data`: every row of the usage map is asked. -/
def extractData (iface : Interface) (val : ReportVal) : Noted Access Interface :=
  (usageMap.zip handlers).foldlM (apply val) iface

/-! ## Elements of an input item -/

/-- `get_or_create_report_offset`. -/
def getOrCreateReportOffset (parser : Parser) (reportId : UInt8) :
    Noted Access (Parser × Option Nat) :=
  match parser.reportOffsets.findIdx? fun entry ↦ entry.reportId == reportId with
  | some i => pure (parser, some i)
  | none =>
      if parser.reportOffsets.length < maxReportLayouts then do
        note (.write .reportOffsets parser.reportOffsets.length)
        note (.count .reportOffsets (parser.reportOffsets.length + 1))
        pure ({ parser with reportOffsets := parser.reportOffsets ++ [⟨reportId, 0⟩] },
          some parser.reportOffsets.length)
      else pure (parser, none)

/-- The offset may be a new entry; nothing else that `store_element` writes is in a table. -/
def storeElement (state : Parse) (usage : UInt16) (data : UInt32) (size : Nat) :
    Noted Access (Parse × ReportVal) := do
  let _ ← getOrCreateReportOffset state.parser state.parser.reportId.toUInt8
  pure (Hid.storeElement state usage data size)

/-- The body of the loop of `handle_main_input`. -/
def inputElement (item : Item) (entry size i : Nat) (state : Parse) : Noted Access Parse := do
  let (state, val) ← storeElement state (getUsage state.parser i) item.val size
  let iface ← extractData state.iface val
  note (.write .reportOffsets entry)
  pure { state with iface := iface, parser := state.parser.advance entry size }

/-- The loop of `handle_main_input`. -/
def inputLoop (item : Item) (entry size : Nat) : Nat → Nat → Parse → Noted Access Parse
  | 0, _, state => pure state
  | remaining + 1, i, state =>
      if 0 < size ∧ state.parser.offsetAt entry ≤ 65535 then do
        let state ← inputElement item entry size i state
        inputLoop item entry size remaining (i + 1) state
      else pure state

/-- The last usage of an item, carried to the next. -/
def carryUsage (parser : Parser) : Noted Access Parser :=
  if 0 < parser.usageCount then do
    note (.write .usages 0)
    pure { parser with
      usages := parser.usages.set 0 (parser.usages.getD (parser.usageCount - 1) 0) }
  else pure parser

/-- `handle_main_input`. -/
def handleMainInput (state : Parse) (item : Item) : Noted Access Parse := do
  let size := (state.parser.globals globalReportSize).toNat
  let count := (state.parser.globals globalReportCount).toNat
  let wide := size = 1 ∧ state.parser.usageCount ≤ 1
  match ← getOrCreateReportOffset state.parser state.parser.reportId.toUInt8 with
  | (_, none) => pure state
  | (parser, some entry) =>
      let state ← inputLoop item entry (if wide then count else size) (if wide then 1 else count) 0
        { state with parser := parser }
      let parser ← carryUsage state.parser
      pure { state with parser := parser }

/-! ## Items -/

/-- `handle_global_item`. -/
def handleGlobalItem (parser : Parser) (item : Item) : Noted Access Parser := do
  note (.write .globals item.tag)
  pure
    { parser with
      reportId := if item.tag = globalReportId then item.val else parser.reportId
      globals := Function.update parser.globals item.tag item.val }

/-- `handle_local_item`. -/
def handleLocalItem (parser : Parser) (item : Item) : Noted Access Parser := do
  note (.write .locals item.tag)
  let parser := { parser with locals := Function.update parser.locals item.tag item.val }
  if item.tag = localUsage then
    if parser.collectionStart = parser.collectionEnd then
      pure { parser with globalUsage := item.val.toUInt16 }
    else if parser.usageCount < hidMaxUsages then do
      note (.write .usages parser.usageCount)
      note (.count .usages (parser.usageCount + 1))
      pure
        { parser with
          usages := parser.usages.set parser.usageCount item.val.toUInt16
          usageCount := parser.usageCount + 1 }
    else pure parser
  else pure parser

/-- The switch of `handle_main_item`. -/
def handleMainTag (state : Parse) (item : Item) : Noted Access Parse :=
  if item.tag = mainCollection then
    pure
      { state with
        parser := { state.parser with collectionStart := state.parser.collectionStart + 1 } }
  else if item.tag = mainCollectionEnd then
    pure
      { state with
        parser := { state.parser with collectionEnd := state.parser.collectionEnd + 1 } }
  else if item.tag = mainInput then handleMainInput state item
  else pure state

/-- The table of the local items is cleared as a whole. -/
def handleMainItem (state : Parse) (item : Item) : Noted Access Parse := do
  let state ← handleMainTag state item
  note (.count .usages 0)
  pure { state with parser := { state.parser with usageCount := 0, locals := fun _ ↦ 0 } }

/-- An item, by its type. -/
def handleItem (state : Parse) (item : Item) : Noted Access Parse :=
  if item.type = typeMain then handleMainItem state item
  else if item.type = typeGlobal then do
    let parser ← handleGlobalItem state.parser item
    pure { state with parser := parser }
  else if item.type = typeLocal then do
    let parser ← handleLocalItem state.parser item
    pure { state with parser := parser }
  else pure state

/-- The loop of `parse_report_descriptor`, with `descLen` bytes left from a place on. -/
def parseLoop (report : Nat → UInt8) (place descLen : Nat) (state : Parse) : Noted Access Parse :=
  if _h : 0 < descLen then do
    let item ← itemAt report place
    let state ← handleItem state item
    parseLoop report (place + 1 + sizeLookup item.size) (descLen - (sizeLookup item.size + 1)) state
  else pure state
termination_by descLen

/-- `parse_report_descriptor`. -/
def parseReportDescriptor (iface : Interface) (report : Nat → UInt8) (descLen : Nat) :
    Noted Access Parse :=
  parseLoop report 0 descLen ⟨.zero, iface, []⟩

/-! ## The same results -/

/-- The value is read as it is without the notes. -/
@[simp] theorem result_getDescriptorValue (report : Nat → UInt8) (place : Nat) (size : Fin 4) :
    result (getDescriptorValue report place size) =
      Hid.getDescriptorValue (fun i ↦ report (place + i)) size := by
  match size with
  | 0 => rfl
  | 1 => rfl
  | 2 => rfl
  | 3 => rfl

/-- So is an item. -/
@[simp] theorem result_itemAt (report : Nat → UInt8) (place : Nat) :
    result (itemAt report place) = Hid.itemAt fun i ↦ report (place + i) := by
  have hbehind : (fun i ↦ report (place + 1 + i)) = fun i ↦ report (place + (i + 1)) := by
    funext i
    rw [Nat.add_assoc, Nat.add_comm 1]
  simp only [itemAt, result_bind, result_pure, result_getDescriptorValue, Hid.itemAt, hbehind]
  rfl

/-- So is the receiver written. -/
@[simp] theorem result_setReceiver (iface : Interface) (reportId : UInt8) (receiver : Receiver) :
    result (setReceiver iface reportId receiver) = iface.setReceiver reportId receiver := rfl

/-- A keyboard is changed as it is without the notes. -/
@[simp] theorem result_modifyKeyboard (iface : Interface) (slot : Nat)
    (f : Keyboard → Noted Access Keyboard) :
    result (modifyKeyboard iface slot f) =
      iface.modifyKeyboard slot fun keyboard ↦ result (f keyboard) := by
  simp only [modifyKeyboard, result_bind, result_pure, Interface.modifyKeyboard]
  congr 1
  refine List.ext_getElem (by simp) fun i hi hi' ↦ ?_
  rw [List.getElem_modify, List.getElem_modify]
  split_ifs with hslot
  · subst hslot
    rw [Interface.keyboard, List.getD_eq_getElem _ _ (by simpa using hi)]
  · rfl

/-- So is one found or added. -/
@[simp] theorem result_getOrAddKeyboard (iface : Interface) (reportId : UInt8) :
    result (getOrAddKeyboard iface reportId) = Hid.getOrAddKeyboard iface reportId := by
  simp only [getOrAddKeyboard, Hid.getOrAddKeyboard, result_ite, result_bind, result_pure,
    result_modifyKeyboard]

/-- So are the values of a consumer control. -/
@[simp] theorem result_handleConsumerControlValues (src : ReportVal) (iface : Interface) :
    result (handleConsumerControlValues src iface) = Hid.handleConsumerControlValues src iface := by
  simp only [handleConsumerControlValues, Hid.handleConsumerControlValues, result_ite, result_bind,
    result_pure, result_modifyKeyboard]
  split_ifs <;> rfl

/-- So are the fields of a keyboard. -/
@[simp] theorem result_keepFields (src : ReportVal) (keyboard : Keyboard) :
    result (keepFields src keyboard) = keyboard.keepFields src := by
  simp only [keepFields, Keyboard.keepFields, result_ite, result_bind, result_pure]
  split_ifs <;> rfl

/-- So is a section of it. -/
@[simp] theorem result_keepSection (src : ReportVal) (keyboard : Keyboard) :
    result (keepSection src keyboard) = keyboard.keepSection src := by
  simp only [keepSection, Keyboard.keepSection, result_ite, result_bind, result_pure]

/-- So are the values of a keyboard. -/
@[simp] theorem result_handleKeyboardDescriptorValues (src : ReportVal) (iface : Interface) :
    result (handleKeyboardDescriptorValues src iface) =
      Hid.handleKeyboardDescriptorValues src iface := by
  rw [handleKeyboardDescriptorValues, Hid.handleKeyboardDescriptorValues, result_bind,
    result_getOrAddKeyboard]
  cases Hid.getOrAddKeyboard iface src.reportId with
  | none => rfl
  | some found =>
      simp only [result_ite, result_bind, result_pure, result_modifyKeyboard, result_keepFields,
        result_keepSection]

/-- Each handler does what that of its entry does. -/
theorem result_handlers : ∀ entry ∈ usageMap.zip handlers, ∀ src iface,
    result (entry.2 entry.1 src iface) = entry.1.handler src iface := by
  intro entry hentry src iface
  simp only [usageMap, handlers, List.zip_cons_cons, List.zip_nil_right, List.mem_cons,
    List.not_mem_nil, or_false] at hentry
  rcases hentry with rfl | rfl | rfl | rfl | rfl | rfl | rfl | rfl
  all_goals simp [plain]

/-- A row of the usage map does what it does without the notes. -/
theorem result_apply {val : ReportVal}
    {entry : UsageMap × (UsageMap → ReportVal → Interface → Noted Access Interface)}
    (h : entry ∈ usageMap.zip handlers) (iface : Interface) :
    result (apply val iface entry) = entry.1.apply val iface := by
  rw [apply, UsageMap.apply, result_ite, result_bind, result_handlers entry h]
  rfl

/-- So do all rows. -/
@[simp] theorem result_extractData (iface : Interface) (val : ReportVal) :
    result (extractData iface val) = Hid.extractData iface val := by
  suffices hfold : ∀ entries : List _, entries ⊆ usageMap.zip handlers → ∀ iface,
      result (entries.foldlM (apply val) iface) =
        (entries.map Prod.fst).foldl (UsageMap.apply val) iface from
    hfold _ (List.Subset.refl _) iface
  intro entries
  induction entries with
  | nil => exact fun _ _ ↦ rfl
  | cons entry entries ih =>
      intro hentries iface
      rw [List.cons_subset] at hentries
      rw [List.foldlM_cons, result_bind, result_apply hentries.1, ih hentries.2]
      rfl

/-- The place of a report id is found as it is without the notes. -/
@[simp] theorem result_getOrCreateReportOffset (parser : Parser) (reportId : UInt8) :
    result (getOrCreateReportOffset parser reportId) =
      Hid.getOrCreateReportOffset parser reportId := by
  rw [getOrCreateReportOffset, Hid.getOrCreateReportOffset]
  cases parser.reportOffsets.findIdx? fun entry ↦ entry.reportId == reportId with
  | some i => rfl
  | none =>
      dsimp only
      rw [result_ite]
      rfl

/-- An element is stored as it is without the notes. -/
@[simp] theorem result_inputElement (item : Item) (entry size i : Nat) (state : Parse) :
    result (inputElement item entry size i state) = Hid.inputElement item entry size i state := by
  simp only [inputElement, storeElement, result_bind, result_pure, result_extractData]
  rfl

/-- So are the elements of an item. -/
@[simp] theorem result_inputLoop (item : Item) (entry size remaining i : Nat) (state : Parse) :
    result (inputLoop item entry size remaining i state) =
      Hid.inputLoop item entry size remaining i state := by
  induction remaining generalizing i state with
  | zero => rfl
  | succ remaining ih =>
      rw [inputLoop, Hid.inputLoop, result_ite, result_bind, result_inputElement, ih]
      rfl

/-- So is an input item. -/
@[simp] theorem result_handleMainInput (state : Parse) (item : Item) :
    result (handleMainInput state item) = Hid.handleMainInput state item := by
  rw [handleMainInput, Hid.handleMainInput, result_bind, result_getOrCreateReportOffset]
  rcases Hid.getOrCreateReportOffset state.parser state.parser.reportId.toUInt8 with
    ⟨parser, - | entry⟩
  · rfl
  · simp only [result_bind, result_pure, result_inputLoop, carryUsage, result_ite]
    rfl

/-- So is a global item. -/
@[simp] theorem result_handleGlobalItem (parser : Parser) (item : Item) :
    result (handleGlobalItem parser item) = Hid.handleGlobalItem parser item := rfl

/-- So is a local item. -/
@[simp] theorem result_handleLocalItem (parser : Parser) (item : Item) :
    result (handleLocalItem parser item) = Hid.handleLocalItem parser item := by
  simp only [handleLocalItem, Hid.handleLocalItem, result_ite, result_bind, result_pure]

/-- So is a main item. -/
@[simp] theorem result_handleMainItem (state : Parse) (item : Item) :
    result (handleMainItem state item) = Hid.handleMainItem state item := by
  simp only [handleMainItem, handleMainTag, Hid.handleMainItem, result_bind, result_pure,
    result_ite, result_handleMainInput]

/-- So is any item. -/
@[simp] theorem result_handleItem (state : Parse) (item : Item) :
    result (handleItem state item) = Hid.handleItem state item := by
  simp only [handleItem, Hid.handleItem, result_ite, result_bind, result_pure,
    result_handleMainItem, result_handleGlobalItem, result_handleLocalItem]

/-- So is what is left of a descriptor. -/
theorem result_parseLoop (report : Nat → UInt8) (place descLen : Nat) (state : Parse) :
    result (parseLoop report place descLen state) =
      Hid.parseLoop (fun i ↦ report (place + i)) descLen state := by
  fun_induction parseLoop report place descLen state with
  | case1 place descLen state hmore ih =>
      rw [Hid.parseLoop, dif_pos hmore, result_bind, result_bind, ih, result_itemAt,
        result_handleItem]
      dsimp only
      congr 1
      funext i
      congr 1
      omega
  | case2 place descLen state hdone =>
      rw [Hid.parseLoop, dif_neg hdone]
      rfl

/-- The parser with notes is the parser. -/
theorem result_parseReportDescriptor (iface : Interface) (report : Nat → UInt8) (descLen : Nat) :
    result (parseReportDescriptor iface report descLen) =
      Hid.parseReportDescriptor iface report descLen := by
  rw [parseReportDescriptor, result_parseLoop, Hid.parseReportDescriptor]
  simp only [Nat.zero_add]

end Accesses

end DeskhopPlus.Hid
