import DeskhopPlus.Hid.Accesses
import DeskhopPlus.Hid.LayoutLaw

/-!
# The parser stays inside its tables

Whatever bytes a device sends, the parser writes no entry that its tables do not have and counts no
more entries than they have. It reads the bytes behind the header of an item without a look at how
many are left, so it stays inside the descriptor exactly when the last item is not cut off
(`staysInside_iff`).
-/

namespace DeskhopPlus.Hid

open Noting

/-- An access to a table that the table has room for. -/
def Access.OnTable : Access → Prop
  | .read _ => False
  | .write table index => index < table.size
  | .count table value => value ≤ table.size

/-! ## Interfaces -/

/-- The keyboards that are counted are the ones found, and no keyboard has more sections than it has
room for. -/
structure Tables (iface : Interface) : Prop where
  length : iface.keyboards.length = maxKeyboards
  num_le : iface.numKeyboards ≤ maxKeyboards
  isFound : ∀ slot < maxKeyboards,
    (iface.keyboard slot).isFound = decide (slot < iface.numKeyboards)
  sections : ∀ slot, (iface.keyboard slot).nkro.length ≤ maxNkroBlocks

variable {iface iface' : Interface}

/-- A cleared interface has no keyboard. -/
theorem Tables.zero (protocol : Protocol) : Tables (.zero protocol) where
  length := List.length_replicate
  num_le := Nat.zero_le _
  isFound slot _ := by
    rw [keyboard_zero]
    rfl
  sections slot := by
    rw [keyboard_zero]
    exact Nat.zero_le _

/-- The tables stay within their bounds where no slot changes. -/
theorem Tables.of_same (h : Tables iface) (hsame : SameSlots iface iface') : Tables iface' := by
  have hkeyboard := hsame.keyboard
  constructor
  · have hlength := congrArg List.length hsame.keyboards
    rw [List.length_map, List.length_map] at hlength
    exact hlength.trans h.length
  · exact hsame.numKeyboards ▸ h.num_le
  · intro slot hslot
    rw [hsame.numKeyboards, ← h.isFound slot hslot]
    exact congrArg (·.isFound) (hkeyboard slot)
  · intro slot
    have hnkro : (iface'.keyboard slot).nkro = (iface.keyboard slot).nkro :=
      congrArg (·.nkro) (hkeyboard slot)
    rw [hnkro]
    exact h.sections slot

/-- Whether report IDs are used is of no account. -/
theorem Tables.withUses (h : Tables iface) (uses : Bool) :
    Tables { iface with usesReportId := uses } :=
  ⟨h.length, h.num_le, h.isFound, h.sections⟩

/-- A change to a keyboard that keeps whether it is found and the room for its sections. -/
theorem Tables.modifyKeyboard (h : Tables iface) {slot : Nat} (hslot : slot < maxKeyboards)
    {f : Keyboard → Keyboard} (hfound : ∀ keyboard, (f keyboard).isFound = keyboard.isFound)
    (hsections : ∀ keyboard : Keyboard, keyboard.nkro.length ≤ maxNkroBlocks →
      (f keyboard).nkro.length ≤ maxNkroBlocks) :
    Tables (iface.modifyKeyboard slot f) := by
  have hmodify := keyboard_modify iface slot f
  simp only [h.length, hslot, and_true] at hmodify
  constructor
  · exact (List.length_modify ..).trans h.length
  · exact h.num_le
  · intro i hi
    have hwas := h.isFound i hi
    rw [hmodify]
    split_ifs
    · exact (hfound _).trans hwas
    · exact hwas
  · intro i
    have hwas := h.sections i
    rw [hmodify]
    split_ifs
    · exact hsections _ hwas
    · exact hwas

/-- The next slot is counted when its keyboard is found. -/
theorem Tables.count (h : Tables iface) (hroom : iface.numKeyboards < maxKeyboards) :
    Tables { iface.modifyKeyboard iface.numKeyboards fun keyboard ↦
        { keyboard with isFound := true } with
      numKeyboards := iface.numKeyboards + 1 } := by
  have hmodify := keyboard_modify iface iface.numKeyboards fun keyboard ↦
    { keyboard with isFound := true }
  simp only [h.length, hroom, and_true] at hmodify
  constructor
  · exact (List.length_modify ..).trans h.length
  · exact hroom
  · intro i hi
    refine (congrArg Keyboard.isFound (hmodify i)).trans ?_
    split_ifs with hnext
    · rw [hnext]
      exact (decide_eq_true (Nat.lt_succ_self _)).symm
    · rw [h.isFound i hi]
      exact decide_eq_decide.2 (by dsimp only; omega)
  · intro i
    refine Nat.le_trans (Nat.le_of_eq (congrArg (·.nkro.length) (hmodify i))) ?_
    split_ifs
    · exact h.sections i
    · exact h.sections i

/-- The slot of a report ID is counted, or the first. -/
theorem getKeyboard_slot (iface : Interface) (reportId : UInt8) :
    getKeyboard iface reportId ≤ iface.numKeyboards ∧
      getKeyboard iface reportId < maxKeyboards := by
  rw [getKeyboard]
  split_ifs with huses
  · cases hfind : (List.range (min iface.numKeyboards maxKeyboards)).find? fun i ↦
      (iface.keyboard i).reportId == reportId with
    | none => exact ⟨Nat.zero_le _, by decide⟩
    | some i =>
        have hi := List.mem_range.1 (List.mem_of_find?_eq_some hfind)
        exact ⟨by dsimp only [Option.getD]; omega, by dsimp only [Option.getD]; omega⟩
  · exact ⟨Nat.zero_le _, by decide⟩

/-- The slot an element is given is counted, or the next. -/
theorem Tables.getOrAddKeyboard_slot (h : Tables iface) {reportId : UInt8} {slot : Nat}
    (hslot : getOrAddKeyboard iface reportId = some (slot, iface')) :
    Tables iface' ∧ slot ≤ iface'.numKeyboards ∧ slot < maxKeyboards := by
  rw [getOrAddKeyboard] at hslot
  split_ifs at hslot with hplain hfull
  · cases hslot
    exact ⟨h, getKeyboard_slot iface reportId⟩
  · cases hslot
    have hroom := Nat.not_le.1 hfull
    exact ⟨h.modifyKeyboard hroom (fun _ ↦ rfl) (fun _ hsections ↦ hsections), Nat.le_refl _, hroom⟩

/-- A keyboard keeps no more sections than it has room for. -/
theorem keep_sections (src : ReportVal) {keyboard : Keyboard}
    (h : keyboard.nkro.length ≤ maxNkroBlocks) :
    ((keyboard.keepFields src).keepSection src).nkro.length ≤ maxNkroBlocks := by
  rw [Keyboard.keepSection]
  split_ifs with hsection
  · rw [List.length_append]
    exact hsection.2
  · exact h

/-- Storing a field of a keyboard keeps the tables. -/
theorem Tables.handleKeyboardDescriptorValues (h : Tables iface) (src : ReportVal) :
    Tables (handleKeyboardDescriptorValues src iface) := by
  rw [Hid.handleKeyboardDescriptorValues]
  cases hslot : getOrAddKeyboard iface src.reportId with
  | none => exact h.of_same (SameSlots.setReceiver ..)
  | some found =>
      obtain ⟨slot, iface'⟩ := found
      obtain ⟨htables, hle, hlt⟩ := h.getOrAddKeyboard_slot hslot
      dsimp only
      split_ifs with hconstant hfound
      · exact htables
      · exact htables.modifyKeyboard hlt (fun keyboard ↦ (Keyboard.keep_same src keyboard).2)
          fun _ ↦ keep_sections src
      · have hkept := htables.modifyKeyboard hlt
          (fun keyboard ↦ (Keyboard.keep_same src keyboard).2) fun _ ↦ keep_sections src
        -- a keyboard that is not found is the next to be counted
        have hnext : slot = iface'.numKeyboards := by
          change ¬ ((iface'.modifyKeyboard slot (Keyboard.keep src)).keyboard slot).isFound = true
            at hfound
          rw [hkept.isFound slot hlt, decide_eq_true_eq] at hfound
          exact Nat.le_antisymm hle (Nat.not_lt.1 hfound)
        subst hnext
        exact hkept.count hlt

/-- Each entry of the map keeps the tables, in naming its report ID and in its handler. -/
theorem usageMap_tables : ∀ hay ∈ usageMap, ∀ {iface : Interface}, Tables iface →
    (∀ reportId, Tables (hay.setId reportId iface)) ∧ ∀ src, Tables (hay.handler src iface) := by
  have hset : ∀ {iface : Interface} (_ : Tables iface) reportId,
      Tables (setMouseId reportId iface) ∧ Tables (setConsumerId reportId iface) ∧
        Tables (setSystemId reportId iface) :=
    fun h _ ↦ ⟨h.of_same ⟨rfl, rfl, rfl, rfl⟩, h.of_same ⟨rfl, rfl, rfl, rfl⟩,
      h.of_same ⟨rfl, rfl, rfl, rfl⟩⟩
  simp only [usageMap, List.forall_mem_cons, List.not_mem_nil, IsEmpty.forall_iff, implies_true,
    and_true]
  refine ⟨?_, ?_, ?_, ?_, ?_, ?_, ?_, ?_⟩
  · exact fun h ↦ ⟨fun id ↦ (hset h id).1, fun src ↦ h.of_same (handleButtons_same src _)⟩
  · exact fun h ↦ ⟨fun id ↦ (hset h id).1, fun src ↦ h.of_same
      (store_same (fun _ _ ↦ by exact ⟨rfl, rfl, rfl, rfl⟩) src _)⟩
  · exact fun h ↦ ⟨fun id ↦ (hset h id).1, fun src ↦ h.of_same
      (store_same (fun _ _ ↦ by exact ⟨rfl, rfl, rfl, rfl⟩) src _)⟩
  · exact fun h ↦ ⟨fun id ↦ (hset h id).1, fun src ↦ h.of_same
      (store_same (fun _ _ ↦ by exact ⟨rfl, rfl, rfl, rfl⟩) src _)⟩
  · exact fun h ↦ ⟨fun id ↦ (hset h id).1, fun src ↦ h.of_same
      (store_same (fun _ _ ↦ by exact ⟨rfl, rfl, rfl, rfl⟩) src _)⟩
  · exact fun h ↦ ⟨fun _ ↦ h, h.handleKeyboardDescriptorValues⟩
  · exact fun h ↦ ⟨fun id ↦ (hset h id).2.1,
      fun src ↦ h.of_same (handleConsumerControlValues_same src _)⟩
  · exact fun h ↦ ⟨fun id ↦ (hset h id).2.2, fun src ↦ h.of_same
      (store_same (fun _ _ ↦ by exact ⟨rfl, rfl, rfl, rfl⟩) src _)⟩

/-- A row of the usage map keeps the bounds. -/
theorem Tables.apply (h : Tables iface) {hay : UsageMap} (hhay : hay ∈ usageMap)
    (val : ReportVal) : Tables (hay.apply val iface) := by
  rw [UsageMap.apply]
  split_ifs
  · have hnamed := (usageMap_tables hay hhay h).1 val.reportId
    exact (usageMap_tables hay hhay (hnamed.of_same (SameSlots.setReceiver ..))).2 val
  · exact h

/-- Storing an element of any device keeps the tables. -/
theorem Tables.extractData (h : Tables iface) (val : ReportVal) :
    Tables (extractData iface val) := by
  rw [Hid.extractData]
  suffices hfold : ∀ (map : List UsageMap) (iface : Interface), map ⊆ usageMap → Tables iface →
      Tables (map.foldl (UsageMap.apply val) iface) from
    hfold usageMap iface (List.Subset.refl _) h
  intro map
  induction map with
  | nil => exact fun _ _ h ↦ h
  | cons hay map ih =>
      intro iface hmap h
      rw [List.cons_subset] at hmap
      exact ih _ hmap.2 (h.apply hmap.1 val)

/-! ## The accesses of the handlers -/

namespace Accesses

/-- A receiver is entered in its table. -/
theorem only_setReceiver (iface : Interface) (reportId : UInt8) (receiver : Receiver) :
    Only Access.OnTable (setReceiver iface reportId receiver) :=
  .bind (.note reportId.toNat_lt) (.pure _)

/-- A slot is changed in its table. -/
theorem only_modifyKeyboard {slot : Nat} (hslot : slot < maxKeyboards)
    {f : Keyboard → Noted Access Keyboard} (hf : Only Access.OnTable (f (iface.keyboard slot))) :
    Only Access.OnTable (modifyKeyboard iface slot f) :=
  .bind (.note hslot) (.bind hf (.pure _))

/-- A slot is looked up in its table. -/
theorem only_getOrAddKeyboard (iface : Interface) (reportId : UInt8) :
    Only Access.OnTable (getOrAddKeyboard iface reportId) := by
  rw [getOrAddKeyboard]
  refine .ite (fun _ ↦ .pure _) fun _ ↦ .ite (fun _ ↦ .pure _) fun hroom ↦ ?_
  exact .bind (only_modifyKeyboard (Nat.not_le.1 hroom) (.pure _)) (.pure _)

/-- The fields are kept in their tables. -/
theorem only_keepFields (src : ReportVal) (keyboard : Keyboard) :
    Only Access.OnTable (keepFields src keyboard) := by
  rw [keepFields]
  exact .ite (fun hkey ↦ .bind (.note hkey) (.pure _)) fun _ ↦ .pure _

/-- A section is kept in its table. -/
theorem only_keepSection (src : ReportVal) (keyboard : Keyboard) :
    Only Access.OnTable (keepSection src keyboard) := by
  rw [keepSection]
  refine .ite (fun hsection ↦ ?_) fun _ ↦ .pure _
  exact .bind (.note hsection.2) (.bind (.note (Nat.succ_le_of_lt hsection.2)) (.pure _))

/-- So are the values of consumer controls. -/
theorem only_handleConsumerControlValues (src : ReportVal) (iface : Interface) :
    Only Access.OnTable (handleConsumerControlValues src iface) := by
  rw [handleConsumerControlValues]
  refine .ite (fun _ ↦ .pure _) fun hplace ↦ .ite (fun _ ↦ ?_) fun _ ↦ .pure _
  refine .bind (only_modifyKeyboard (getKeyboard_slot iface src.reportId).2 ?_) (.pure _)
  exact .bind (.note (Nat.not_le.1 hplace)) (.pure _)

/-- So are those of keyboards. -/
theorem only_handleKeyboardDescriptorValues (h : Tables iface) (src : ReportVal) :
    Only Access.OnTable (handleKeyboardDescriptorValues src iface) := by
  rw [handleKeyboardDescriptorValues]
  refine .bind (only_getOrAddKeyboard iface src.reportId) ?_
  rw [result_getOrAddKeyboard]
  cases hslot : Hid.getOrAddKeyboard iface src.reportId with
  | none => exact only_setReceiver _ _ _
  | some found =>
      obtain ⟨slot, iface'⟩ := found
      obtain ⟨htables, -, hlt⟩ := h.getOrAddKeyboard_slot hslot
      have hkept := htables.modifyKeyboard hlt
        (fun keyboard ↦ (Keyboard.keep_same src keyboard).2) fun _ ↦ keep_sections src
      refine .ite (fun _ ↦ .pure _) fun _ ↦ .bind (only_modifyKeyboard hlt ?_) ?_
      · exact .bind (only_keepFields _ _) (only_keepSection _ _)
      · rw [result_modifyKeyboard]
        simp only [result_bind, result_keepFields, result_keepSection]
        refine .ite (fun _ ↦ .pure _) fun hfound ↦ .bind (only_modifyKeyboard hlt (.pure _)) ?_
        refine .bind (.note ?_) (.pure _)
        -- one keyboard is not found, so not all are counted
        change ¬ ((iface'.modifyKeyboard slot (Keyboard.keep src)).keyboard slot).isFound = true
          at hfound
        rw [hkept.isFound slot hlt, decide_eq_true_eq] at hfound
        exact Nat.lt_of_le_of_lt (Nat.not_lt.1 hfound) hlt

/-- Each handler stays on the tables. -/
theorem only_handlers (h : Tables iface) : ∀ entry ∈ usageMap.zip handlers, ∀ src,
    Only Access.OnTable (entry.2 entry.1 src iface) := by
  intro entry hentry src
  simp only [usageMap, handlers, List.zip_cons_cons, List.zip_nil_right, List.mem_cons,
    List.not_mem_nil, or_false] at hentry
  rcases hentry with rfl | rfl | rfl | rfl | rfl | rfl | rfl | rfl
  case inr.inr.inr.inr.inr.inl => exact only_handleKeyboardDescriptorValues h src
  case inr.inr.inr.inr.inr.inr.inl => exact only_handleConsumerControlValues src _
  all_goals exact .pure _

/-- So is whatever a value is handed to. -/
theorem only_extractData (h : Tables iface) (val : ReportVal) :
    Only Access.OnTable (extractData iface val) := by
  suffices hfold : ∀ (entries : List _) (iface : Interface), entries ⊆ usageMap.zip handlers →
      Tables iface → Only Access.OnTable (entries.foldlM (apply val) iface) from
    hfold _ iface (List.Subset.refl _) h
  intro entries
  induction entries with
  | nil => exact fun _ _ _ ↦ .pure _
  | cons entry entries ih =>
      intro iface hentries h
      rw [List.cons_subset] at hentries
      have hhay : entry.1 ∈ usageMap := (List.of_mem_zip hentries.1).1
      rw [List.foldlM_cons]
      refine .bind ?_ ?_
      · refine .ite (fun _ ↦ .bind (only_setReceiver _ _ _) ?_) fun _ ↦ .pure _
        have hnamed := (usageMap_tables entry.1 hhay h).1 val.reportId
        exact only_handlers (hnamed.of_same (SameSlots.setReceiver ..)) entry hentries.1 val
      · rw [result_apply hentries.1]
        exact ih _ hentries.2 (h.apply hhay val)

end Accesses

/-! ## The parser -/

/-- The counts of the parser and of the interface are within their tables. -/
structure Parse.Bounded (state : Parse) : Prop where
  usages : state.parser.usageCount ≤ hidMaxUsages
  reportOffsets : state.parser.reportOffsets.length ≤ maxReportLayouts
  tables : Tables state.iface

variable {state : Parse}

/-- The parser wiped clean, with an interface whose counts are right. -/
theorem Parse.Bounded.start (h : Tables iface) : Parse.Bounded ⟨.zero, iface, []⟩ :=
  ⟨Nat.zero_le _, Nat.zero_le _, h⟩

/-- The table of offsets grows to its bound and no further. -/
theorem getOrCreateReportOffset_bounds {parser : Parser}
    (h : parser.reportOffsets.length ≤ maxReportLayouts) (reportId : UInt8) :
    (getOrCreateReportOffset parser reportId).1.usageCount = parser.usageCount ∧
      (getOrCreateReportOffset parser reportId).1.reportOffsets.length ≤ maxReportLayouts ∧
      ∀ entry, (getOrCreateReportOffset parser reportId).2 = some entry →
        entry < maxReportLayouts := by
  rw [getOrCreateReportOffset]
  cases hfind : parser.reportOffsets.findIdx? fun entry ↦ entry.reportId == reportId with
  | some i =>
      refine ⟨rfl, h, fun entry hentry ↦ ?_⟩
      cases hentry
      exact Nat.lt_of_lt_of_le (List.findIdx?_eq_some_iff_getElem.1 hfind).1 h
  | none =>
      dsimp only
      split_ifs with hroom
      · refine ⟨rfl, ?_, fun entry hentry ↦ ?_⟩
        · rw [List.length_append]
          exact hroom
        · cases hentry
          exact hroom
      · exact ⟨rfl, h, fun entry hentry ↦ by cases hentry⟩

/-- Storing an element keeps the bounds. -/
theorem Parse.Bounded.storeElement (h : state.Bounded) (usage : UInt16) (data : UInt32)
    (size : Nat) : (storeElement state usage data size).1.Bounded := by
  have hbounds := getOrCreateReportOffset_bounds h.reportOffsets state.parser.reportId.toUInt8
  rw [Hid.storeElement, getCurrentOffset]
  rcases hget : getOrCreateReportOffset state.parser state.parser.reportId.toUInt8 with
    ⟨parser, - | i⟩
  · rw [hget] at hbounds
    exact ⟨hbounds.1.symm ▸ h.usages, hbounds.2.1, h.tables.withUses _⟩
  · rw [hget] at hbounds
    exact ⟨hbounds.1.symm ▸ h.usages, hbounds.2.1, h.tables.withUses _⟩

/-- So does an element of an Input item. -/
theorem Parse.Bounded.inputElement (h : state.Bounded) (item : Item) (entry size i : Nat) :
    (inputElement item entry size i state).Bounded := by
  have hstored := h.storeElement (getUsage state.parser i) item.val size
  rw [Hid.inputElement]
  exact ⟨hstored.usages, Nat.le_trans (Nat.le_of_eq (List.length_modify ..)) hstored.reportOffsets,
    hstored.tables.extractData _⟩

/-- So do all of them. -/
theorem Parse.Bounded.inputLoop (h : state.Bounded) (item : Item) (entry size remaining i : Nat) :
    (inputLoop item entry size remaining i state).Bounded := by
  induction remaining generalizing i state with
  | zero => exact h
  | succ remaining ih =>
      rw [Hid.inputLoop]
      split_ifs
      · exact ih (h.inputElement item entry size i) (i + 1)
      · exact h

/-- So does carrying a usage on. -/
theorem Parse.Bounded.carryUsage (h : state.Bounded) :
    Parse.Bounded { state with parser := state.parser.carryUsage } := by
  rw [Parser.carryUsage]
  split_ifs
  · exact ⟨h.usages, h.reportOffsets, h.tables⟩
  · exact h

/-- So does an Input item. -/
theorem Parse.Bounded.handleMainInput (h : state.Bounded) (item : Item) :
    (handleMainInput state item).Bounded := by
  have hbounds := getOrCreateReportOffset_bounds h.reportOffsets state.parser.reportId.toUInt8
  rw [Hid.handleMainInput]
  rcases hget : getOrCreateReportOffset state.parser state.parser.reportId.toUInt8 with
    ⟨parser, - | entry⟩
  · exact h
  · rw [hget] at hbounds
    have hready : Parse.Bounded { state with parser := parser } :=
      ⟨hbounds.1.symm ▸ h.usages, hbounds.2.1, h.tables⟩
    exact (hready.inputLoop item entry _ _ 0).carryUsage

/-- An item keeps the counts within the tables. -/
theorem Parse.Bounded.handleItem (h : state.Bounded) (item : Item) :
    (handleItem state item).Bounded := by
  have hinput := h.handleMainInput item
  rw [Hid.handleItem, handleMainItem, handleLocalItem]
  split_ifs with hmain hstart hend htag hglobal hlocal husage hblock hroom
  · exact ⟨Nat.zero_le _, h.reportOffsets, h.tables⟩
  · exact ⟨Nat.zero_le _, h.reportOffsets, h.tables⟩
  · exact ⟨Nat.zero_le _, hinput.reportOffsets, hinput.tables⟩
  · exact ⟨Nat.zero_le _, h.reportOffsets, h.tables⟩
  · exact ⟨h.usages, h.reportOffsets, h.tables⟩
  · exact ⟨h.usages, h.reportOffsets, h.tables⟩
  · exact ⟨hroom, h.reportOffsets, h.tables⟩
  · exact ⟨h.usages, h.reportOffsets, h.tables⟩
  · exact ⟨h.usages, h.reportOffsets, h.tables⟩
  · exact h

/-! ## The accesses of the items -/

namespace Accesses

/-- An offset is looked up in its table. -/
theorem only_getOrCreateReportOffset (parser : Parser) (reportId : UInt8) :
    Only Access.OnTable (getOrCreateReportOffset parser reportId) := by
  rw [getOrCreateReportOffset]
  cases parser.reportOffsets.findIdx? fun entry ↦ entry.reportId == reportId with
  | some i => exact .pure _
  | none =>
      refine .ite (fun hroom ↦ ?_) fun _ ↦ .pure _
      exact .bind (.note hroom) (.bind (.note (Nat.succ_le_of_lt hroom)) (.pure _))

/-- An element is read from the tables and stored in one. -/
theorem only_inputElement (h : state.Bounded) (item : Item) {entry : Nat}
    (hentry : entry < maxReportLayouts) (size i : Nat) :
    Only Access.OnTable (inputElement item entry size i state) := by
  have hstored := h.storeElement (getUsage state.parser i) item.val size
  rw [inputElement, storeElement]
  refine .bind (.bind (only_getOrCreateReportOffset _ _) (.pure _)) ?_
  exact .bind (only_extractData hstored.tables _) (.bind (.note hentry) (.pure _))

/-- So are all of an Input item. -/
theorem only_inputLoop (h : state.Bounded) (item : Item) {entry : Nat}
    (hentry : entry < maxReportLayouts) (size remaining i : Nat) :
    Only Access.OnTable (inputLoop item entry size remaining i state) := by
  induction remaining generalizing i state with
  | zero => exact .pure _
  | succ remaining ih =>
      rw [inputLoop]
      refine .ite (fun _ ↦ .bind (only_inputElement h item hentry size i) ?_) fun _ ↦ .pure _
      rw [result_inputElement]
      exact ih (h.inputElement item entry size i) (i + 1)

/-- So is the item. -/
theorem only_handleMainInput (h : state.Bounded) (item : Item) :
    Only Access.OnTable (handleMainInput state item) := by
  have hbounds := getOrCreateReportOffset_bounds h.reportOffsets state.parser.reportId.toUInt8
  rw [handleMainInput]
  refine .bind (only_getOrCreateReportOffset _ _) ?_
  rw [result_getOrCreateReportOffset]
  rcases hget : Hid.getOrCreateReportOffset state.parser state.parser.reportId.toUInt8 with
    ⟨parser, - | entry⟩
  · exact .pure _
  · rw [hget] at hbounds
    have hready : Parse.Bounded { state with parser := parser } :=
      ⟨hbounds.1.symm ▸ h.usages, hbounds.2.1, h.tables⟩
    refine .bind (only_inputLoop hready item (hbounds.2.2 entry rfl) _ _ 0) (.bind ?_ (.pure _))
    exact .ite (fun _ ↦ .bind (.note (by decide : 0 < hidMaxUsages)) (.pure _)) fun _ ↦ .pure _

/-- A local item is kept in its table. -/
theorem only_handleLocalItem (parser : Parser) (item : Item) :
    Only Access.OnTable (handleLocalItem parser item) := by
  rw [handleLocalItem]
  refine .bind (.note item.tag.isLt) (.ite (fun _ ↦ .ite (fun _ ↦ .pure _) fun _ ↦ ?_)
    fun _ ↦ .pure _)
  refine .ite (fun hroom ↦ ?_) fun _ ↦ .pure _
  exact .bind (.note hroom) (.bind (.note (Nat.succ_le_of_lt hroom)) (.pure _))

/-- What is done with an item reads no byte and stays on the tables. -/
theorem only_handleItem (h : state.Bounded) (item : Item) :
    Only Access.OnTable (handleItem state item) := by
  rw [handleItem]
  refine .ite (fun _ ↦ ?_) fun _ ↦ .ite (fun _ ↦ ?_) fun _ ↦ .ite (fun _ ↦ ?_) fun _ ↦ .pure _
  · rw [handleMainItem, handleMainTag]
    refine .bind ?_ (.bind (.note (Nat.zero_le _)) (.pure _))
    refine .ite (fun _ ↦ .pure _) fun _ ↦ .ite (fun _ ↦ .pure _) fun _ ↦ ?_
    exact .ite (fun _ ↦ only_handleMainInput h item) fun _ ↦ .pure _
  · exact .bind (.bind (.note item.tag.isLt) (.pure _)) (.pure _)
  · exact .bind (only_handleLocalItem state.parser item) (.pure _)

/-- The bytes of the data of an item are read. -/
theorem notes_getDescriptorValue (report : Nat → UInt8) (place : Nat) (size : Fin 4) :
    notes (getDescriptorValue report place size) =
      (List.range (sizeLookup size)).reverse.map fun i ↦ .read (place + i) := by
  match size with
  | 0 => rfl
  | 1 => rfl
  | 2 => rfl
  | 3 => rfl

/-- An item is read from its header to the end of its data. -/
theorem mem_notes_itemAt {report : Nat → UInt8} {place : Nat} {access : Access} :
    access ∈ notes (itemAt report place) ↔
      ∃ i ≤ sizeLookup (Hid.itemAt fun i ↦ report (place + i)).size,
        access = .read (place + i) := by
  have hnotes : notes (itemAt report place) = .read place ::
      notes (getDescriptorValue report (place + 1) (Fin.ofNat 4 (report place).toNat)) :=
    congrArg (Access.read place :: ·) (List.append_nil _)
  rw [hnotes, notes_getDescriptorValue, List.mem_cons, List.mem_map]
  constructor
  · rintro (rfl | ⟨i, hi, rfl⟩)
    · exact ⟨0, Nat.zero_le _, rfl⟩
    · rw [List.mem_reverse, List.mem_range] at hi
      exact ⟨i + 1, hi, by rw [Nat.add_assoc, Nat.add_comm 1]⟩
  · rintro ⟨i, hi, rfl⟩
    cases i with
    | zero => exact .inl rfl
    | succ i =>
        refine .inr ⟨i, List.mem_reverse.2 (List.mem_range.2 hi), ?_⟩
        rw [Nat.add_assoc, Nat.add_comm 1]

end Accesses

/-! ## The bytes that are read -/

/-- Where the walk from item to item ends, each as long as its header says: at the end of the
descriptor, or behind it where the last item is cut off. -/
def itemsEnd (report : Nat → UInt8) (descLen place : Nat) : Nat :=
  if _h : place < descLen then
    itemsEnd report descLen (place + 1 + sizeLookup (Fin.ofNat 4 (report place).toNat))
  else place
termination_by descLen - place

namespace Accesses

/-- The parser reads no byte behind the descriptor exactly when its items end where it does. -/
theorem parseLoop_reads (report : Nat → UInt8) (place descLen : Nat) {state : Parse}
    (h : state.Bounded) :
    (∀ p, .read p ∈ notes (parseLoop report place descLen state) → p < place + descLen) ↔
      itemsEnd report (place + descLen) place = place + descLen := by
  fun_induction parseLoop report place descLen state with
  | case2 place descLen state hdone =>
      rw [itemsEnd, dif_neg (by omega)]
      constructor
      · intro _
        omega
      · intro _ p hp
        cases hp
  | case1 place descLen state hmore ih =>
      rw [itemsEnd, dif_pos (by omega)]
      simp only [notes_bind, result_itemAt, result_handleItem]
      generalize hitem : (Hid.itemAt fun i ↦ report (place + i)) = item
      have hsize : Fin.ofNat 4 (report place).toNat = item.size := by rw [← hitem]; rfl
      have hread : ∀ access, access ∈ notes (itemAt report place) ↔
          ∃ i ≤ sizeLookup item.size, access = .read (place + i) := by
        intro access
        rw [mem_notes_itemAt, hitem]
      -- handling an item reads nothing of the descriptor: its bytes were read with it
      have hplain : ∀ p, .read p ∉ notes (handleItem state item) :=
        fun p hp ↦ only_handleItem h item _ hp
      rw [hsize]
      by_cases hfits : sizeLookup item.size + 1 ≤ descLen
      · -- the item lies inside, and the rest of the loop decides
        have hrest := ih item (Hid.handleItem state item) (h.handleItem item)
        rw [show place + 1 + sizeLookup item.size + (descLen - (sizeLookup item.size + 1)) =
          place + descLen by omega] at hrest
        rw [← hrest]
        constructor
        · exact fun hall p hp ↦
            hall p (List.mem_append_right _ (List.mem_append_right _ hp))
        · intro hall p hp
          rcases List.mem_append.1 hp with hown | hlater
          · obtain ⟨i, hi, hplace⟩ := (hread _).1 hown
            cases hplace
            omega
          · exact (List.mem_append.1 hlater).elim (fun hitem ↦ absurd hitem (hplain p)) (hall p)
      · -- the last byte of the item is read, and is none of the descriptor's
        constructor
        · intro hall
          have hlast := hall (place + sizeLookup item.size)
            (List.mem_append_left _ ((hread _).2 ⟨_, Nat.le_refl _, rfl⟩))
          omega
        · intro hend
          rw [itemsEnd, dif_neg (by omega)] at hend
          omega

end Accesses

/-! ## The turns of the loop over the elements -/

/-- The entries before stay. -/
theorem getOrCreateReportOffset_keeps (parser : Parser) (reportId : UInt8) {i : Nat}
    (hi : i < parser.reportOffsets.length) :
    i < (getOrCreateReportOffset parser reportId).1.reportOffsets.length ∧
      (getOrCreateReportOffset parser reportId).1.offsetAt i = parser.offsetAt i := by
  rw [getOrCreateReportOffset]
  cases parser.reportOffsets.findIdx? fun entry ↦ entry.reportId == reportId with
  | some found => exact ⟨hi, rfl⟩
  | none =>
      dsimp only
      split_ifs
      · rw [List.length_append, Parser.offsetAt, List.getElem?_append_left hi]
        exact ⟨Nat.lt_add_right _ hi, rfl⟩
      · exact ⟨hi, rfl⟩

/-- The entry that is found is one of the table. -/
theorem getOrCreateReportOffset_entry {parser parser' : Parser} {reportId : UInt8} {entry : Nat}
    (h : getOrCreateReportOffset parser reportId = (parser', some entry)) :
    entry < parser'.reportOffsets.length := by
  rw [getOrCreateReportOffset] at h
  cases hfind : parser.reportOffsets.findIdx? fun entry ↦ entry.reportId == reportId with
  | some i =>
      rw [hfind] at h
      cases h
      exact (List.findIdx?_eq_some_iff_getElem.1 hfind).1
  | none =>
      rw [hfind] at h
      dsimp only at h
      split_ifs at h
      · cases h
        rw [List.length_append]
        exact Nat.lt_succ_self _
      · cases h

/-- A turn stores one element and moves the offset on, in 32 bits. -/
theorem inputElement_turn {entry : Nat} (h : entry < state.parser.reportOffsets.length)
    (item : Item) (size i : Nat) :
    entry < (inputElement item entry size i state).parser.reportOffsets.length ∧
      (inputElement item entry size i state).parser.offsetAt entry =
        (state.parser.offsetAt entry + size) % 4294967296 ∧
      (inputElement item entry size i state).stored.length = state.stored.length + 1 := by
  obtain ⟨hentry, hoffset⟩ :=
    getOrCreateReportOffset_keeps state.parser state.parser.reportId.toUInt8 h
  rw [inputElement, storeElement, getCurrentOffset]
  rcases hget : getOrCreateReportOffset state.parser state.parser.reportId.toUInt8 with
    ⟨parser, - | found⟩
  all_goals
    rw [hget] at hentry hoffset
    dsimp only at hentry hoffset ⊢
    rw [Parser.offsetAt_advance parser hentry, hoffset, List.length_append, Parser.advance,
      List.length_modify]
    exact ⟨hentry, rfl, rfl⟩

/-- The turns there can be from an offset on. A size that the offsets have room for moves it up; a
larger one moves it past 16 bits or, where 32 bits overflow, down. -/
def turnsLeft (size offset : Nat) : Nat :=
  if size < 65536 then 65536 - offset else if offset < 65536 then offset + 1 else 0

/-- The loop takes at most 65536 turns. -/
theorem turnsLeft_le (size offset : Nat) : turnsLeft size offset ≤ 65536 := by
  rw [turnsLeft]
  split_ifs <;> omega

/-- Each turn is one less, with whatever size of 32 bits. -/
theorem turnsLeft_step {size offset : Nat} (hpos : 0 < size) (hsize : size < 4294967296)
    (hoffset : offset ≤ 65535) :
    turnsLeft size ((offset + size) % 4294967296) + 1 ≤ turnsLeft size offset := by
  rw [turnsLeft, turnsLeft]
  by_cases hsmall : size < 65536
  · rw [if_pos hsmall, if_pos hsmall, Nat.mod_eq_of_lt (by omega)]
    omega
  · rw [if_neg hsmall, if_neg hsmall]
    split_ifs <;> omega

/-- It stores no more elements than it takes turns. -/
theorem inputLoop_turns {entry size : Nat} (hsize : size < 4294967296)
    (h : entry < state.parser.reportOffsets.length) (item : Item) (remaining i : Nat) :
    (inputLoop item entry size remaining i state).stored.length ≤
      state.stored.length + turnsLeft size (state.parser.offsetAt entry) := by
  induction remaining generalizing i state with
  | zero => exact Nat.le_add_right _ _
  | succ remaining ih =>
      rw [inputLoop]
      split_ifs with hmore
      · obtain ⟨hentry, hoffset, hstored⟩ := inputElement_turn h item size i
        have hrest := ih hentry (i + 1)
        have hstep := turnsLeft_step hmore.1 hsize hmore.2
        rw [hoffset, hstored] at hrest
        omega
      · exact Nat.le_add_right _ _

/-- An input item takes at most as many turns as there are offsets of 16 bits, whatever its size and
its count. -/
theorem handleMainInput_turns (state : Parse) (item : Item) :
    (handleMainInput state item).stored.length ≤ state.stored.length + 65536 := by
  rw [handleMainInput]
  rcases hget : getOrCreateReportOffset state.parser state.parser.reportId.toUInt8 with
    ⟨parser, - | entry⟩
  · exact Nat.le_add_right _ _
  · let ready : Parse := { state with parser := parser }
    have hentry : entry < ready.parser.reportOffsets.length := getOrCreateReportOffset_entry hget
    refine Nat.le_trans (inputLoop_turns ?_ hentry item _ 0)
      (Nat.add_le_add_left (turnsLeft_le _ _) _)
    split_ifs
    · exact UInt32.toNat_lt _
    · exact UInt32.toNat_lt _

/-! ## Staying inside -/

namespace Accesses

/-- Besides reading, the parser only writes entries that the tables have. -/
theorem parseLoop_onTable (report : Nat → UInt8) (place descLen : Nat) {state : Parse}
    (h : state.Bounded) :
    Only (fun access ↦ (∃ p, access = .read p) ∨ access.OnTable)
      (parseLoop report place descLen state) := by
  fun_induction parseLoop report place descLen state with
  | case2 place descLen state hdone => exact .pure _
  | case1 place descLen state hmore ih =>
      refine .bind ?_ (.bind ?_ ?_)
      · intro access haccess
        obtain ⟨i, -, hplace⟩ := mem_notes_itemAt.1 haccess
        exact .inl ⟨_, hplace⟩
      · exact (only_handleItem h _).imp fun _ ↦ .inr
      · rw [result_handleItem]
        exact ih _ _ (h.handleItem _)

end Accesses

/-- The parser stays inside the descriptor and inside its tables: it reads only bytes before the
length, writes only entries that the tables have, counts no more of them than there are, and ends
the loop over the elements of an input item in a bounded number of turns. -/
structure StaysInside (iface : Interface) (report : Nat → UInt8) (descLen : Nat) : Prop where
  reads : ∀ place, .read place ∈ notes (Accesses.parseReportDescriptor iface report descLen) →
    place < descLen
  writes : ∀ table index,
    .write table index ∈ notes (Accesses.parseReportDescriptor iface report descLen) →
      index < table.size
  counts : ∀ table value,
    .count table value ∈ notes (Accesses.parseReportDescriptor iface report descLen) →
      value ≤ table.size
  turns : ∀ state item, (handleMainInput state item).stored.length ≤ state.stored.length + 65536

/-- An interface as the callbacks leave it: cleared, given a protocol, or filled from a
descriptor. -/
inductive Reached : Interface → Prop where
  | cleared (protocol : Protocol) : Reached (.zero protocol)
  | protocol {iface : Interface} (protocol : Protocol) (h : Reached iface) :
      Reached { iface with protocol := protocol }
  | parsed {iface : Interface} (report : Nat → UInt8) (descLen : Nat) (h : Reached iface) :
      Reached (parseReportDescriptor iface report descLen).iface

/-- Any bytes keep the counts within the tables. -/
theorem Parse.Bounded.parseLoop (h : state.Bounded) (report : Nat → UInt8) (descLen : Nat) :
    (parseLoop report descLen state).Bounded := by
  fun_induction Hid.parseLoop report descLen state with
  | case1 report descLen state hmore item ih => exact ih (h.handleItem item)
  | case2 report descLen state hdone => exact h

/-- Every interface that is reached is within its bounds. -/
theorem Reached.tables (h : Reached iface) : Tables iface := by
  induction h with
  | cleared protocol => exact .zero protocol
  | protocol protocol _ ih => exact ⟨ih.length, ih.num_le, ih.isFound, ih.sections⟩
  | parsed report descLen _ ih => exact ((Parse.Bounded.start ih).parseLoop report descLen).tables

/-- The parser stays inside exactly when the items of the descriptor end where it ends. -/
theorem staysInside_iff (h : Reached iface) (report : Nat → UInt8) (descLen : Nat) :
    StaysInside iface report descLen ↔ itemsEnd report descLen 0 = descLen := by
  have hstart := Parse.Bounded.start h.tables
  have honTable := Accesses.parseLoop_onTable report 0 descLen hstart
  have hreads := Accesses.parseLoop_reads report 0 descLen hstart
  rw [Nat.zero_add] at hreads
  constructor
  · exact fun hinside ↦ hreads.1 hinside.reads
  · intro hend
    constructor
    · exact hreads.2 hend
    · intro table index hwrite
      obtain ⟨p, hp⟩ | hroom := honTable _ hwrite
      · cases hp
      · exact hroom
    · intro table value hcount
      obtain ⟨p, hp⟩ | hroom := honTable _ hcount
      · cases hp
      · exact hroom
    · exact handleMainInput_turns

/-- A whole input item of a cleared interface. -/
theorem staysInside_iff_input :
    StaysInside (.zero .report) (fun i ↦ [0x75, 8, 0x95, 1, 0x81, 2].getD i 0) 6 :=
  (staysInside_iff (.cleared .report) _ 6).2 (by simp [itemsEnd, sizeLookup])

/-- The data of an item that is cut off behind its header is read behind the descriptor. -/
theorem cut_item_not_inside :
    ¬ ∀ iface report descLen, Reached iface → StaysInside iface report descLen := by
  intro hall
  have hinside := hall _ (fun _ ↦ 0x05) 1 (.cleared .report)
  have hread : Access.read 1 ∈
      notes (Accesses.parseReportDescriptor (.zero .report) (fun _ ↦ 0x05) 1) := by
    rw [Accesses.parseReportDescriptor, Accesses.parseLoop, dif_pos Nat.one_pos, notes_bind]
    refine List.mem_append_left _ (Accesses.mem_notes_itemAt.2 ⟨1, by decide, rfl⟩)
  exact absurd (hinside.reads 1 hread) (by decide)

end DeskhopPlus.Hid
