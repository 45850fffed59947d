import Mathlib.Data.List.GetD
import Mathlib.Data.List.Nodup
import DeskhopPlus.Hid.Descriptor

/-!
# The layout of reports

What the items of a descriptor mean, said of the items that stand before a main item and not of a
parser: the globals in force, the usages declared for it, and the place of its elements in the
report of its report ID, behind the fields of all earlier input items of that ID. The parser stores
exactly these elements, in order.
-/

namespace DeskhopPlus.Hid

/-! ## What stands before an item

The items before an item are listed from it backwards. -/

/-- The global value of a tag in force. -/
def globalValue (tag : Fin 16) : List Item → UInt32
  | [] => 0
  | item :: before =>
      if item.type = typeGlobal ∧ item.tag = tag then item.val else globalValue tag before

/-- The local value of a tag since the last main item. -/
def localValue (tag : Fin 16) : List Item → UInt32
  | [] => 0
  | item :: before =>
      if item.type = typeMain then 0
      else if item.type = typeLocal ∧ item.tag = tag then item.val
      else localValue tag before

/-- How many main items of a tag there were. -/
def mainCount (tag : Fin 16) : List Item → Nat
  | [] => 0
  | item :: before =>
      mainCount tag before + if item.type = typeMain ∧ item.tag = tag then 1 else 0

/-- As many collections were ended as were begun. -/
def BlockEnd (before : List Item) : Prop :=
  mainCount mainCollection before = mainCount mainCollectionEnd before

instance (before : List Item) : Decidable (BlockEnd before) := instDecidableEqNat _ _

/-- The usage of the block: the last one outside of collections. -/
def blockUsage : List Item → UInt16
  | [] => 0
  | item :: before =>
      if item.type = typeLocal ∧ item.tag = localUsage ∧ BlockEnd before then item.val.toUInt16
      else blockUsage before

/-- The usages declared for the next main item, within collections. -/
def declared : List Item → List UInt16
  | [] => []
  | item :: before =>
      if item.type = typeMain then []
      else if item.type = typeLocal ∧ item.tag = localUsage ∧ ¬ BlockEnd before then
        declared before ++ [item.val.toUInt16]
      else declared before

/-- An input item. -/
def IsInput (item : Item) : Prop := item.type = typeMain ∧ item.tag = mainInput

instance (item : Item) : Decidable (IsInput item) := instDecidableAnd

/-- The usage carried to a main item that declares none: the last one of an input item that declared
some, or the first one since that was declared for another main item. -/
def carried : List Item → UInt16
  | [] => 0
  | item :: before =>
      if IsInput item then (declared before).getLastD (carried before)
      else if item.type = typeMain then (declared before).headD (carried before)
      else carried before

/-- The usage of the `i`-th element of the next main item. -/
def usageOf (before : List Item) (i : Nat) : UInt16 :=
  if declared before = [] then carried before
  else (declared before).getD (min i ((declared before).length - 1)) 0

/-- The report ID in force. -/
def reportIdOf (before : List Item) : UInt8 := (globalValue globalReportId before).toUInt8

/-- The size in force behind these items. -/
def reportSizeOf (before : List Item) : Nat := (globalValue globalReportSize before).toNat

/-- The count in force behind these items. -/
def reportCountOf (before : List Item) : Nat := (globalValue globalReportCount before).toNat

/-- The bits of all input items of a report ID. -/
def inputBits (reportId : UInt8) : List Item → Nat
  | [] => 0
  | item :: before =>
      inputBits reportId before +
        if IsInput item ∧ reportIdOf before = reportId then
          reportSizeOf before * reportCountOf before
        else 0

/-- The report IDs of all input items. -/
def inputIds : List Item → List UInt8
  | [] => []
  | item :: before =>
      if IsInput item then (inputIds before).insert (reportIdOf before) else inputIds before

/-- A field of single bits that declares no more than one usage is one element. -/
def OneElement (before : List Item) : Prop := reportSizeOf before = 1 ∧ (declared before).length ≤ 1

instance (before : List Item) : Decidable (OneElement before) := instDecidableAnd

/-- How many elements an input item has. -/
def elementCount (before : List Item) : Nat :=
  if reportSizeOf before * reportCountOf before = 0 then 0
  else if OneElement before then 1
  else reportCountOf before

/-- How wide each is. -/
def elementWidth (before : List Item) : Nat :=
  if OneElement before then reportCountOf before else reportSizeOf before

/-- The `i`-th element of an input item. -/
def elementOf (before : List Item) (item : Item) (i : Nat) : ReportVal :=
  let offset := inputBits (reportIdOf before) before + i * elementWidth before
  { offset := offset
    offsetIdx := offset / 8
    size := elementWidth before
    usageMin := toInt32 (localValue localUsageMin before)
    usageMax := toInt32 (localValue localUsageMax before)
    itemType := if item.val &&& 1 ≠ 0 then .constant else .data
    dataType := if item.val &&& 2 ≠ 0 then .variable else .array
    reportId := reportIdOf before
    globalUsage := blockUsage before
    usagePage := (globalValue globalUsagePage before).toUInt16
    usage := usageOf before i }

/-- The elements of an item. -/
def elementsOf (before : List Item) (item : Item) : List ReportVal :=
  if IsInput item then (List.range (elementCount before)).map (elementOf before item) else []

/-- The elements of all items. -/
def layoutOf : List Item → List ReportVal
  | [] => []
  | item :: before => layoutOf before ++ elementsOf before item

/-- What a descriptor keeps within: the collections are counted in a byte, the report IDs and the
usages of a main item have their tables, and offsets are kept in 16 bits. -/
structure WithinLimits (items : List Item) : Prop where
  begun : mainCount mainCollection items < 256
  ended : mainCount mainCollectionEnd items < 256
  ids : (inputIds items).length ≤ maxReportLayouts
  usages : ∀ before, before <:+ items → (declared before).length ≤ hidMaxUsages
  bits : ∀ reportId, inputBits reportId items < 65536

/-- A limit on the items holds of the earlier ones. -/
theorem WithinLimits.tail {item : Item} {before : List Item} (h : WithinLimits (item :: before)) :
    WithinLimits before where
  begun := Nat.lt_of_le_of_lt (Nat.le_add_right _ _) h.begun
  ended := Nat.lt_of_le_of_lt (Nat.le_add_right _ _) h.ended
  ids := by
    refine Nat.le_trans ?_ h.ids
    rw [inputIds]
    split_ifs
    · exact List.length_le_length_insert
    · exact Nat.le_refl _
  usages := fun _ hbefore ↦ h.usages _ (hbefore.trans (List.suffix_cons _ _))
  bits := fun reportId ↦ Nat.lt_of_le_of_lt (Nat.le_add_right _ _) (h.bits reportId)

/-! ## Offsets -/

namespace Parser

/-- The report IDs that have an offset, in the order of the table. -/
def ids (parser : Parser) : List UInt8 := parser.reportOffsets.map ReportOffset.reportId

/-- Advancing an offset keeps the report ID in force. -/
@[simp] theorem advance_reportId (parser : Parser) (i width : Nat) :
    (parser.advance i width).reportId = parser.reportId := rfl

/-- And the report IDs that are known. -/
theorem advance_ids (parser : Parser) (i width : Nat) :
    (parser.advance i width).ids = parser.ids := by
  rw [ids, advance, ids]
  refine List.ext_getElem (by simp) fun j hj hj' ↦ ?_
  simp only [List.getElem_map, List.getElem_modify]
  split_ifs <;> rfl

/-- Advancing twice is advancing by the sum. -/
theorem advance_add (parser : Parser) (i first second : Nat) :
    (parser.advance i first).advance i second = parser.advance i (first + second) := by
  rw [advance, advance, advance, List.modify_modify_eq]
  congr 2
  funext entry
  simp only [Function.comp_apply, ReportOffset.mk.injEq, true_and]
  rw [Nat.mod_add_mod, Nat.add_assoc]

/-- The offset that is advanced wraps at 32 bits. -/
theorem offsetAt_advance (parser : Parser) {i : Nat} (hi : i < parser.reportOffsets.length)
    (width : Nat) :
    (parser.advance i width).offsetAt i = (parser.offsetAt i + width) % 4294967296 := by
  simp [offsetAt, advance, hi]

end Parser

/-- The entry of a report ID is found where it is. -/
theorem getOrCreateReportOffset_of_entry {parser : Parser} {reportId : UInt8} {entry : Nat}
    (hnodup : parser.ids.Nodup) (hentry : parser.ids[entry]? = some reportId) :
    getOrCreateReportOffset parser reportId = (parser, some entry) := by
  have hfind : (parser.reportOffsets.findIdx? fun e ↦ e.reportId == reportId) = some entry := by
    have hmap : parser.ids.findIdx? (· == reportId) = some entry := by
      obtain ⟨hlt, hget⟩ := List.getElem?_eq_some_iff.1 hentry
      rw [List.findIdx?_eq_some_iff_getElem]
      refine ⟨hlt, by rw [hget]; exact beq_self_eq_true _, fun j hj hbeq ↦ ?_⟩
      have hsame : parser.ids[j] = parser.ids[entry] := (beq_iff_eq.1 hbeq).trans hget.symm
      exact Nat.ne_of_lt hj ((hnodup.getElem_inj_iff).1 hsame)
    rw [Parser.ids, List.findIdx?_map] at hmap
    exact hmap
  rw [getOrCreateReportOffset, hfind]

/-- A report ID without an entry gets one at the end of the table. -/
theorem getOrCreateReportOffset_new {parser : Parser} {reportId : UInt8}
    (hnew : reportId ∉ parser.ids) (hroom : parser.reportOffsets.length < maxReportLayouts) :
    getOrCreateReportOffset parser reportId =
      ({ parser with reportOffsets := parser.reportOffsets ++ [⟨reportId, 0⟩] },
        some parser.reportOffsets.length) := by
  have hfind : (parser.reportOffsets.findIdx? fun e ↦ e.reportId == reportId) = none := by
    rw [List.findIdx?_eq_none_iff]
    intro e he
    rw [beq_eq_false_iff_ne]
    rintro rfl
    exact hnew (List.mem_map_of_mem he)
  rw [getOrCreateReportOffset, hfind]
  exact if_pos hroom

/-! ## Following the items -/

/-- A parser holds what the items before say. -/
structure Tracks (before : List Item) (parser : Parser) : Prop where
  begun : parser.collectionStart.toNat = mainCount mainCollection before % 256
  ended : parser.collectionEnd.toNat = mainCount mainCollectionEnd before % 256
  reportId : parser.reportId = globalValue globalReportId before
  globals : ∀ tag, parser.globals tag = globalValue tag before
  locals : ∀ tag, parser.locals tag = localValue tag before
  globalUsage : parser.globalUsage = blockUsage before
  usageCount : parser.usageCount = (declared before).length
  usages_length : parser.usages.length = hidMaxUsages
  usages : ∀ i < (declared before).length, parser.usages.getD i 0 = (declared before).getD i 0
  carried : declared before = [] → parser.usages.getD 0 0 = carried before
  ids : parser.ids = (inputIds before).reverse
  offsets : ∀ e ∈ parser.reportOffsets, e.offsetInBits = inputBits e.reportId before

/-- A parser that has just started tracks no items. -/
theorem Tracks.zero : Tracks [] .zero where
  begun := rfl
  ended := rfl
  reportId := rfl
  globals _ := rfl
  locals _ := rfl
  globalUsage := rfl
  usageCount := rfl
  usages_length := List.length_replicate
  usages := fun i hi ↦ absurd hi (Nat.not_lt_zero i)
  carried := fun _ ↦ rfl
  ids := rfl
  offsets := fun _ he ↦ absurd he List.not_mem_nil

/-- The report IDs of the Input items are counted once. -/
theorem inputIds_nodup (items : List Item) : (inputIds items).Nodup := by
  induction items with
  | nil => exact List.nodup_nil
  | cons item before ih =>
      rw [inputIds]
      split_ifs
      · exact ih.insert
      · exact ih

/-- So are those the parser knows. -/
theorem Tracks.ids_nodup {before : List Item} {parser : Parser} (h : Tracks before parser) :
    parser.ids.Nodup := by
  rw [h.ids]
  exact List.nodup_reverse.2 (inputIds_nodup before)

/-- A report ID of no input item has no bits. -/
theorem inputBits_of_notMem {reportId : UInt8} {items : List Item} (h : reportId ∉ inputIds items) :
    inputBits reportId items = 0 := by
  induction items with
  | nil => rfl
  | cons item before ih =>
      rw [inputIds] at h
      rw [inputBits]
      by_cases hinput : IsInput item
      · rw [if_pos hinput, List.mem_insert_iff, not_or] at h
        rw [if_neg fun hboth ↦ h.1 hboth.2.symm, ih h.2]
      · rw [if_neg hinput] at h
        rw [if_neg fun hboth ↦ hinput hboth.1, ih h]

section

variable {item : Item} {before : List Item}

/-- Only a main item counts. -/
theorem mainCount_other (h : ¬ item.type = typeMain) (tag : Fin 16) :
    mainCount tag (item :: before) = mainCount tag before := by
  rw [mainCount, if_neg fun hboth ↦ h hboth.1, Nat.add_zero]

/-- An Input item is a main item. -/
theorem not_isInput (h : ¬ item.type = typeMain) : ¬ IsInput item := fun hinput ↦ h hinput.1

/-- Only a main item carries usages on. -/
theorem carried_other (h : ¬ item.type = typeMain) : carried (item :: before) = carried before := by
  rw [carried, if_neg (not_isInput h), if_neg h]

/-- Only an Input item has a report ID of its own. -/
theorem inputIds_other (h : ¬ IsInput item) : inputIds (item :: before) = inputIds before := by
  rw [inputIds, if_neg h]

/-- Only an Input item takes bits. -/
theorem inputBits_other (h : ¬ IsInput item) (reportId : UInt8) :
    inputBits reportId (item :: before) = inputBits reportId before := by
  rw [inputBits, if_neg fun hboth ↦ h hboth.1, Nat.add_zero]

/-- Only a global item sets a global value. -/
theorem globalValue_other (h : ¬ item.type = typeGlobal) (tag : Fin 16) :
    globalValue tag (item :: before) = globalValue tag before := by
  rw [globalValue, if_neg fun hboth ↦ h hboth.1]

/-- Only a local item sets a local value, and only a main item clears it. -/
theorem localValue_other (hmain : ¬ item.type = typeMain) (hlocal : ¬ item.type = typeLocal)
    (tag : Fin 16) : localValue tag (item :: before) = localValue tag before := by
  rw [localValue, if_neg hmain, if_neg fun hboth ↦ hlocal hboth.1]

/-- Only a local item names a block. -/
theorem blockUsage_other (h : ¬ item.type = typeLocal) :
    blockUsage (item :: before) = blockUsage before := by
  rw [blockUsage, if_neg fun hboth ↦ h hboth.1]

/-- Only a local item declares usages, and only a main item clears them. -/
theorem declared_other (hmain : ¬ item.type = typeMain) (hlocal : ¬ item.type = typeLocal) :
    declared (item :: before) = declared before := by
  rw [declared, if_neg hmain, if_neg fun hboth ↦ hlocal hboth.1]

/-- A main item leaves no usages declared. -/
theorem declared_main (h : item.type = typeMain) : declared (item :: before) = [] := by
  rw [declared, if_pos h]

end

/-- An item that is neither main nor local and leaves the parser the globals it should leaves the
rest as it was. -/
theorem Tracks.withGlobals {before : List Item} {parser : Parser} (h : Tracks before parser)
    {item : Item} (hmain : ¬ item.type = typeMain) (hlocal : ¬ item.type = typeLocal)
    {reportId : UInt32} {globals : Fin 16 → UInt32}
    (hid : reportId = globalValue globalReportId (item :: before))
    (hglobals : ∀ tag, globals tag = globalValue tag (item :: before)) :
    Tracks (item :: before) { parser with reportId := reportId, globals := globals } where
  begun := (mainCount_other hmain _).symm ▸ h.begun
  ended := (mainCount_other hmain _).symm ▸ h.ended
  reportId := hid
  globals := hglobals
  locals tag := (localValue_other hmain hlocal tag).symm ▸ h.locals tag
  globalUsage := (blockUsage_other hlocal).symm ▸ h.globalUsage
  usageCount := (declared_other hmain hlocal).symm ▸ h.usageCount
  usages_length := h.usages_length
  usages := (declared_other hmain hlocal).symm ▸ h.usages
  carried := (declared_other hmain hlocal).symm ▸ (carried_other hmain).symm ▸ h.carried
  ids := (inputIds_other (not_isInput hmain)).symm ▸ h.ids
  offsets e he := (inputBits_other (not_isInput hmain) e.reportId).symm ▸ h.offsets e he

/-- After a global item. -/
theorem Tracks.global {before : List Item} {parser : Parser} (h : Tracks before parser)
    {item : Item}
    (htype : item.type = typeGlobal) :
    Tracks (item :: before) (handleGlobalItem parser item) := by
  refine h.withGlobals (by rw [htype]; decide) (by rw [htype]; decide) ?_ fun tag ↦ ?_
  · rw [globalValue, htype, h.reportId]
    simp only [true_and]
  · rw [globalValue, htype, Function.update_apply, h.globals tag]
    simp only [true_and, eq_comm]

/-- After an item of the type that is reserved. -/
theorem Tracks.reserved {before : List Item} {parser : Parser} (h : Tracks before parser)
    {item : Item} (hmain : ¬ item.type = typeMain) (hglobal : ¬ item.type = typeGlobal)
    (hlocal : ¬ item.type = typeLocal) : Tracks (item :: before) parser :=
  h.withGlobals hmain hlocal ((globalValue_other hglobal _).symm ▸ h.reportId)
    fun tag ↦ (globalValue_other hglobal tag).symm ▸ h.globals tag

/-- Below 256 collections the bytes that count them tell when all have ended. -/
theorem Tracks.blockEnd_iff {before : List Item} {parser : Parser} (h : Tracks before parser)
    (hlimits : WithinLimits before) :
    parser.collectionStart = parser.collectionEnd ↔ BlockEnd before := by
  rw [← UInt8.toNat_inj, h.begun, h.ended, Nat.mod_eq_of_lt hlimits.begun,
    Nat.mod_eq_of_lt hlimits.ended, BlockEnd]

/-- After a local item. -/
theorem Tracks.local {before : List Item} {parser : Parser} (h : Tracks before parser) {item : Item}
    (htype : item.type = typeLocal) (hlimits : WithinLimits (item :: before)) :
    Tracks (item :: before) (handleLocalItem parser item) := by
  have hmain : ¬ item.type = typeMain := by rw [htype]; decide
  have hglobal : ¬ item.type = typeGlobal := by rw [htype]; decide
  have hend := h.blockEnd_iff hlimits.tail
  have hlocals : ∀ tag, Function.update parser.locals item.tag item.val tag =
      localValue tag (item :: before) := by
    intro tag
    rw [localValue, if_neg hmain, htype, Function.update_apply, h.locals tag]
    simp only [true_and, eq_comm]
  -- what a local item that declares no usage leaves as it was
  have hquiet : (item.tag = localUsage → BlockEnd before) →
      ∀ globalUsage, globalUsage = blockUsage (item :: before) →
      Tracks (item :: before)
        { parser with
          locals := Function.update parser.locals item.tag item.val
          globalUsage := globalUsage } := by
    intro hblock globalUsage husage
    have hdeclared : declared (item :: before) = declared before := by
      rw [declared, if_neg hmain, if_neg fun hall ↦ hall.2.2 (hblock hall.2.1)]
    constructor
    · exact (mainCount_other hmain _).symm ▸ h.begun
    · exact (mainCount_other hmain _).symm ▸ h.ended
    · exact (globalValue_other hglobal _).symm ▸ h.reportId
    · exact fun tag ↦ (globalValue_other hglobal tag).symm ▸ h.globals tag
    · exact hlocals
    · exact husage
    · exact hdeclared.symm ▸ h.usageCount
    · exact h.usages_length
    · exact hdeclared.symm ▸ h.usages
    · exact hdeclared.symm ▸ (carried_other hmain).symm ▸ h.carried
    · exact (inputIds_other (not_isInput hmain)).symm ▸ h.ids
    · exact fun e he ↦ (inputBits_other (not_isInput hmain) e.reportId).symm ▸ h.offsets e he
  rw [handleLocalItem]
  by_cases htag : item.tag = localUsage
  · by_cases hblock : BlockEnd before
    · rw [if_pos htag, if_pos (hend.2 hblock)]
      refine hquiet (fun _ ↦ hblock) _ ?_
      rw [blockUsage, if_pos ⟨htype, htag, hblock⟩]
    · have hdeclared : declared (item :: before) = declared before ++ [item.val.toUInt16] := by
        rw [declared, if_neg hmain, if_pos ⟨htype, htag, hblock⟩]
      have hroom : (declared before).length < hidMaxUsages := by
        have hall := hlimits.usages _ (List.suffix_refl _)
        rw [hdeclared, List.length_append, List.length_singleton] at hall
        omega
      rw [if_pos htag, if_neg fun hsame ↦ hblock (hend.1 hsame), if_pos (h.usageCount ▸ hroom)]
      constructor
      · exact (mainCount_other hmain _).symm ▸ h.begun
      · exact (mainCount_other hmain _).symm ▸ h.ended
      · exact (globalValue_other hglobal _).symm ▸ h.reportId
      · exact fun tag ↦ (globalValue_other hglobal tag).symm ▸ h.globals tag
      · exact hlocals
      · rw [blockUsage, if_neg fun hall ↦ hblock hall.2.2]
        exact h.globalUsage
      · rw [hdeclared, List.length_append, List.length_singleton, h.usageCount]
      · exact List.length_set.trans h.usages_length
      · intro i hi
        rw [hdeclared, List.length_append, List.length_singleton] at hi
        rw [hdeclared]
        dsimp only
        rw [h.usageCount]
        rcases Nat.lt_succ_iff_lt_or_eq.1 hi with hlt | rfl
        · rw [List.getD_eq_getElem?_getD, List.getElem?_set_ne (Nat.ne_of_gt hlt),
            ← List.getD_eq_getElem?_getD, h.usages i hlt, List.getD_append _ _ _ _ hlt]
        · rw [List.getD_eq_getElem?_getD, List.getElem?_set_self (h.usages_length ▸ hroom),
            List.getD_append_right _ _ _ _ (Nat.le_refl _), Nat.sub_self]
          rfl
      · rw [hdeclared]
        intro hnone
        exact absurd hnone (List.append_ne_nil_of_right_ne_nil _ (List.cons_ne_nil _ _))
      · exact (inputIds_other (not_isInput hmain)).symm ▸ h.ids
      · exact fun e he ↦ (inputBits_other (not_isInput hmain) e.reportId).symm ▸ h.offsets e he
  · rw [if_neg htag]
    refine hquiet (fun hsame ↦ absurd hsame htag) _ ?_
    rw [blockUsage, if_neg fun hall ↦ htag hall.2.1]
    exact h.globalUsage

/-! ## Input items -/

/-- The element a parser stores at an offset. -/
def storedVal (parser : Parser) (usage : UInt16) (data : UInt32)
    (offset size : Nat) : ReportVal where
  offset := offset % 65536
  offsetIdx := offset / 8 % 65536
  size := size % 65536
  usageMin := toInt32 (parser.locals localUsageMin)
  usageMax := toInt32 (parser.locals localUsageMax)
  itemType := if data &&& 1 ≠ 0 then .constant else .data
  dataType := if data &&& 2 ≠ 0 then .variable else .array
  reportId := parser.reportId.toUInt8
  globalUsage := parser.globalUsage
  usagePage := (parser.globals globalUsagePage).toUInt16
  usage := usage

/-- The table of offsets has an entry for the report ID of a parser. -/
structure HasEntry (parser : Parser) (entry : Nat) : Prop where
  nodup : parser.ids.Nodup
  entry : parser.ids[entry]? = some parser.reportId.toUInt8

/-- An entry is one of the table. -/
theorem HasEntry.lt {parser : Parser} {entry : Nat} (h : HasEntry parser entry) :
    entry < parser.reportOffsets.length := by
  obtain ⟨hlt, -⟩ := List.getElem?_eq_some_iff.1 h.entry
  rwa [Parser.ids, List.length_map] at hlt

/-- Advancing keeps the entries. -/
theorem HasEntry.advance {parser : Parser} {entry : Nat} (h : HasEntry parser entry) (width : Nat) :
    HasEntry (parser.advance entry width) entry where
  nodup := (Parser.advance_ids parser entry width).symm ▸ h.nodup
  entry := (Parser.advance_ids parser entry width).symm ▸ h.entry

/-- One element is stored at the offset of its report ID, which then moves on. -/
theorem inputElement_eq {state : Parse} {entry : Nat} (h : HasEntry state.parser entry)
    (item : Item)
    (size i : Nat) :
    (inputElement item entry size i state).parser = state.parser.advance entry size ∧
      (inputElement item entry size i state).stored = state.stored ++
        [storedVal state.parser (getUsage state.parser i) item.val (state.parser.offsetAt entry)
          size] := by
  have hcurrent : getCurrentOffset state.parser = (state.parser, state.parser.offsetAt entry) := by
    rw [getCurrentOffset, getOrCreateReportOffset_of_entry h.nodup h.entry]
  rw [inputElement, storeElement, hcurrent]
  exact ⟨rfl, rfl⟩

/-- The loop stores its elements one behind the other. -/
theorem inputLoop_eq {base : Parser} {entry size : Nat} (h : HasEntry base entry) (item : Item)
    (remaining i : Nat) (state : Parse) (hparser : state.parser = base.advance entry (i * size))
    (hsize : 0 < size) (hfits : base.offsetAt entry + (i + remaining) * size < 65536) :
    (inputLoop item entry size remaining i state).parser =
        base.advance entry ((i + remaining) * size) ∧
      (inputLoop item entry size remaining i state).stored = state.stored ++
        (List.range' i remaining).map fun j ↦
          storedVal base (getUsage base j) item.val (base.offsetAt entry + j * size) size := by
  induction remaining generalizing i state with
  | zero => exact ⟨hparser, (List.append_nil _).symm⟩
  | succ remaining ih =>
      have hgrow : (i + 1) * size = i * size + size := Nat.succ_mul i size
      have hall : i * size + size ≤ (i + (remaining + 1)) * size := by
        rw [← hgrow]
        exact Nat.mul_le_mul_right size (by omega)
      have hoffset : state.parser.offsetAt entry = base.offsetAt entry + i * size := by
        rw [hparser, Parser.offsetAt_advance base h.lt, Nat.mod_eq_of_lt (by omega)]
      rw [inputLoop, if_pos ⟨hsize, by omega⟩]
      have hentry : HasEntry state.parser entry := hparser ▸ h.advance _
      obtain ⟨hnext, hstored⟩ := inputElement_eq hentry item size i
      have hparser' : (inputElement item entry size i state).parser =
          base.advance entry ((i + 1) * size) := by
        rw [hnext, hparser, Parser.advance_add, hgrow]
      have hmore : i + 1 + remaining = i + (remaining + 1) := by omega
      obtain ⟨hlast, hothers⟩ := ih (i + 1) _ hparser' (by rw [hmore]; exact hfits)
      rw [hmore] at hlast
      refine ⟨hlast, ?_⟩
      rw [hothers, hstored, hoffset, List.range'_succ, List.map_cons, List.append_assoc, hparser]
      rfl

/-- Without a width or a count nothing is stored. -/
theorem inputLoop_none (item : Item) (entry size remaining i : Nat) (state : Parse)
    (h : size = 0 ∨ remaining = 0) : inputLoop item entry size remaining i state = state := by
  rcases remaining with - | remaining
  · rfl
  · rw [inputLoop, if_neg]
    rintro ⟨hsize, -⟩
    omega

/-- What the table of offsets says of the entry of a report ID. -/
theorem Parser.offsetAt_of_ids {parser : Parser} {entry : Nat} {reportId : UInt8}
    (h : parser.ids[entry]? = some reportId) :
    ∃ e, parser.reportOffsets[entry]? = some e ∧ e.reportId = reportId ∧
      parser.offsetAt entry = e.offsetInBits := by
  rw [ids, List.getElem?_map, Option.map_eq_some_iff] at h
  obtain ⟨e, he, hid⟩ := h
  refine ⟨e, he, hid, ?_⟩
  rw [offsetAt, he]
  rfl

/-- The table has an entry for each input item up to and with this one, and the offsets are still
those before it. -/
structure Located (before : List Item) (item : Item) (parser base : Parser)
    (entry : Nat) : Prop where
  found : getOrCreateReportOffset parser parser.reportId.toUInt8 = (base, some entry)
  same : ∃ offsets, base = { parser with reportOffsets := offsets }
  hasEntry : HasEntry base entry
  ids : base.ids = (inputIds (item :: before)).reverse
  offset : base.offsetAt entry = inputBits (reportIdOf before) before
  offsets : ∀ e ∈ base.reportOffsets, e.offsetInBits = inputBits e.reportId before

/-- An Input item within the limits has an entry. -/
theorem Tracks.located {before : List Item} {parser : Parser} (h : Tracks before parser)
    {item : Item} (hinput : IsInput item) (hlimits : WithinLimits (item :: before)) :
    ∃ base entry, Located before item parser base entry := by
  have hid : parser.reportId.toUInt8 = reportIdOf before := by rw [h.reportId, reportIdOf]
  by_cases hmem : reportIdOf before ∈ inputIds before
  · have hmem' : reportIdOf before ∈ parser.ids := by
      rw [h.ids]
      exact List.mem_reverse.2 hmem
    obtain ⟨entry, hentry⟩ := List.getElem?_of_mem hmem'
    obtain ⟨e, he, hsame, hoffset⟩ := Parser.offsetAt_of_ids hentry
    refine ⟨parser, entry, ?_, ⟨_, rfl⟩, ⟨h.ids_nodup, hid ▸ hentry⟩, ?_, ?_, h.offsets⟩
    · rw [hid]
      exact getOrCreateReportOffset_of_entry h.ids_nodup hentry
    · rw [inputIds, if_pos hinput, List.insert_of_mem hmem, h.ids]
    · rw [hoffset, h.offsets e (List.mem_of_getElem? he), hsame]
  · have hinsert : inputIds (item :: before) = reportIdOf before :: inputIds before := by
      rw [inputIds, if_pos hinput, List.insert_of_not_mem hmem]
    have hnew : reportIdOf before ∉ parser.ids := by
      rw [h.ids, List.mem_reverse]
      exact hmem
    have hlength : parser.reportOffsets.length = (inputIds before).length := by
      have hids := congrArg List.length h.ids
      rwa [Parser.ids, List.length_map, List.length_reverse] at hids
    have hroom : parser.reportOffsets.length < maxReportLayouts := by
      have hids := hlimits.ids
      rw [hinsert, List.length_cons] at hids
      omega
    have hids : (parser.reportOffsets ++ [(⟨reportIdOf before, 0⟩ : ReportOffset)]).map
        ReportOffset.reportId = (inputIds (item :: before)).reverse := by
      rw [hinsert, List.reverse_cons, ← h.ids, List.map_append]
      rfl
    refine ⟨{ parser with reportOffsets := parser.reportOffsets ++ [⟨reportIdOf before, 0⟩] },
      parser.reportOffsets.length, ?_, ⟨_, rfl⟩, ⟨?_, ?_⟩, hids, ?_, ?_⟩
    · rw [hid]
      exact getOrCreateReportOffset_new hnew hroom
    · rw [Parser.ids, hids]
      exact List.nodup_reverse.2 (inputIds_nodup _)
    · dsimp only
      rw [Parser.ids, List.getElem?_map, List.getElem?_concat_length, hid]
      rfl
    · rw [Parser.offsetAt, List.getElem?_concat_length, inputBits_of_notMem hmem]
      rfl
    · intro e he
      rcases List.mem_append.1 he with hold | hadded
      · exact h.offsets e hold
      · rw [List.mem_singleton.1 hadded, inputBits_of_notMem hmem]

/-- The usage a parser gives an element is the one declared for it. -/
theorem Tracks.getUsage {before : List Item} {parser : Parser} (h : Tracks before parser)
    (i : Nat) : getUsage parser i = usageOf before i := by
  rw [Hid.getUsage, usageOf, h.usageCount]
  by_cases hnone : declared before = []
  · rw [if_pos (by rw [hnone]; rfl), if_pos hnone, h.carried hnone]
  · have hpos := List.length_pos_iff.2 hnone
    rw [if_neg (Nat.ne_of_gt hpos), if_neg hnone]
    have hindex : (if i < (declared before).length then i else (declared before).length - 1) =
        min i ((declared before).length - 1) := by
      split_ifs <;> omega
    rw [hindex, h.usages _ (by omega)]

/-- The element stored is the element there is. -/
theorem Tracks.storedVal {before : List Item} {item : Item} {parser base : Parser} {entry : Nat}
    (h : Tracks before parser) (hlocated : Located before item parser base entry) {i : Nat}
    (hwidth : elementWidth before < 65536)
    (hfits : inputBits (reportIdOf before) before + i * elementWidth before < 65536) :
    storedVal base (Hid.getUsage base i) item.val (base.offsetAt entry + i * elementWidth before)
      (elementWidth before) = elementOf before item i := by
  obtain ⟨offsets, rfl⟩ := hlocated.same
  have husage : Hid.getUsage { parser with reportOffsets := offsets } i = usageOf before i :=
    h.getUsage i
  rw [husage, hlocated.offset, Hid.storedVal, elementOf]
  simp only [h.reportId, h.globals, h.locals, h.globalUsage, Nat.mod_eq_of_lt hwidth,
    Nat.mod_eq_of_lt hfits]
  rw [Nat.mod_eq_of_lt (by omega), reportIdOf]

/-- Moving on by the bits of an input item makes the offsets those behind it. -/
theorem Located.offsets_advance {before : List Item} {item : Item} {parser base : Parser}
    {entry : Nat} (h : Located before item parser base entry)
    (hid : parser.reportId.toUInt8 = reportIdOf before) (hinput : IsInput item)
    (hlimits : WithinLimits (item :: before)) :
    ∀ e ∈ (base.advance entry (reportSizeOf before * reportCountOf before)).reportOffsets,
      e.offsetInBits = inputBits e.reportId (item :: before) := by
  intro e he
  obtain ⟨j, hj⟩ := List.getElem?_of_mem he
  obtain ⟨offsets, hsame⟩ := h.same
  have hentry : base.ids[entry]? = some (reportIdOf before) := by
    rw [h.hasEntry.entry, hsame]
    exact congrArg some hid
  have hids : base.ids[j]? = some e.reportId := by
    rw [← Parser.advance_ids base entry (reportSizeOf before * reportCountOf before), Parser.ids,
      List.getElem?_map, hj]
    rfl
  have hfits := hlimits.bits e.reportId
  rw [inputBits] at hfits ⊢
  rw [Parser.advance, List.getElem?_modify] at hj
  by_cases hj' : entry = j
  · subst hj'
    obtain ⟨old, hold, rfl⟩ := Option.map_eq_some_iff.1 hj
    rw [if_pos rfl] at hids hfits ⊢
    have hsame : reportIdOf before = old.reportId := Option.some.inj (hentry.symm.trans hids)
    dsimp only at hfits ⊢
    rw [if_pos ⟨hinput, hsame⟩] at hfits ⊢
    rw [h.offsets old (List.mem_of_getElem? hold), Nat.mod_eq_of_lt (by omega)]
  · obtain ⟨old, hold, rfl⟩ := Option.map_eq_some_iff.1 hj
    rw [if_neg hj'] at hids hfits ⊢
    have hother : ¬ (IsInput item ∧ reportIdOf before = old.reportId) := by
      rintro ⟨-, hsame⟩
      rw [← hsame] at hids
      obtain ⟨hlt, hget⟩ := List.getElem?_eq_some_iff.1 hentry
      obtain ⟨hlt', hget'⟩ := List.getElem?_eq_some_iff.1 hids
      exact hj' ((h.hasEntry.nodup.getElem_inj_iff).1 (hget.trans hget'.symm))
    rw [if_neg hother, h.offsets old (List.mem_of_getElem? hold), Nat.add_zero]

/-- The bits of an input item fit behind those before it. -/
theorem WithinLimits.fits {before : List Item} {item : Item} (h : WithinLimits (item :: before))
    (hinput : IsInput item) :
    inputBits (reportIdOf before) before + reportSizeOf before * reportCountOf before < 65536 := by
  have hbits := h.bits (reportIdOf before)
  rwa [inputBits, if_pos ⟨hinput, rfl⟩] at hbits

/-- No width added leaves a parser as it was. -/
theorem Parser.advance_zero {parser : Parser} (entry : Nat)
    (h : ∀ e ∈ parser.reportOffsets, e.offsetInBits < 65536) : parser.advance entry 0 = parser := by
  have hmodify : parser.reportOffsets.modify entry (fun e ↦
      { e with offsetInBits := (e.offsetInBits + 0) % 4294967296 }) = parser.reportOffsets := by
    refine List.ext_getElem? fun j ↦ ?_
    rw [List.getElem?_modify]
    rcases hj : parser.reportOffsets[j]? with - | e
    · rfl
    · have he := h e (List.mem_of_getElem? hj)
      have hmod : e.offsetInBits % 4294967296 = e.offsetInBits := Nat.mod_eq_of_lt (by omega)
      split_ifs
      · simp [hmod]
      · rfl
  rw [advance, hmodify]

/-- The loop over an input item stores its elements and moves on by its bits. -/
theorem Located.inputLoop {before : List Item} {item : Item} {state : Parse} {base : Parser}
    {entry : Nat} (htracks : Tracks before state.parser)
    (h : Located before item state.parser base entry) (hinput : IsInput item)
    (hlimits : WithinLimits (item :: before)) :
    (inputLoop item entry (elementWidth before)
        (if OneElement before then 1 else reportCountOf before) 0
        { state with parser := base }).parser =
      base.advance entry (reportSizeOf before * reportCountOf before) ∧
    (inputLoop item entry (elementWidth before)
        (if OneElement before then 1 else reportCountOf before) 0
        { state with parser := base }).stored =
      state.stored ++ elementsOf before item := by
  have hfits := hlimits.fits hinput
  have hsmall : ∀ e ∈ base.reportOffsets, e.offsetInBits < 65536 := by
    intro e he
    rw [h.offsets e he]
    exact hlimits.tail.bits e.reportId
  rw [elementsOf, if_pos hinput]
  by_cases hnone : reportSizeOf before * reportCountOf before = 0
  · -- the loop does not turn: no width, or no count
    rw [inputLoop_none, hnone, Parser.advance_zero entry hsmall, elementCount, if_pos hnone]
    · exact ⟨rfl, (List.append_nil _).symm⟩
    · rw [elementWidth]
      rcases Nat.mul_eq_zero.1 hnone with hsize | hcount
      · rw [if_neg fun hone ↦ Nat.succ_ne_zero 0 (hone.1.symm.trans hsize)]
        exact .inl hsize
      · split_ifs
        · exact .inl hcount
        · exact .inr hcount
  · have hcount : elementCount before = if OneElement before then 1 else reportCountOf before := by
      rw [elementCount, if_neg hnone]
    have htotal : elementCount before * elementWidth before =
        reportSizeOf before * reportCountOf before := by
      rw [hcount, elementWidth]
      split_ifs with hone
      · rw [hone.1]
      · exact Nat.mul_comm _ _
    have hpos : 0 < elementCount before * elementWidth before := by
      rw [htotal]
      exact Nat.pos_of_ne_zero hnone
    have hwidth : 0 < elementWidth before := Nat.pos_of_mul_pos_left hpos
    have hzero : base = base.advance entry (0 * elementWidth before) := by
      rw [Nat.zero_mul, Parser.advance_zero entry hsmall]
    rw [← hcount]
    obtain ⟨hparser, hstored⟩ := inputLoop_eq h.hasEntry item (elementCount before) 0
      { state with parser := base } hzero hwidth
        (by rw [h.offset, Nat.zero_add, htotal]; exact hfits)
    refine ⟨by rw [hparser, Nat.zero_add, htotal], ?_⟩
    rw [hstored, List.range_eq_range']
    congr 1
    refine List.map_congr_left fun i hi ↦ ?_
    have hlt : i < elementCount before := by
      have hrange := List.mem_range'_1.1 hi
      omega
    have hone : elementWidth before ≤ elementCount before * elementWidth before :=
      Nat.le_mul_of_pos_left _ (Nat.zero_lt_of_lt hlt)
    have hplace : i * elementWidth before ≤ elementCount before * elementWidth before :=
      Nat.mul_le_mul_right _ (Nat.le_of_lt hlt)
    exact htracks.storedVal h (by omega) (by omega)

/-! ## Main items -/

/-- What the first place of the usages holds. -/
theorem Tracks.first {before : List Item} {parser : Parser} (h : Tracks before parser) :
    parser.usages.getD 0 0 = (declared before).headD (Hid.carried before) := by
  rcases hdeclared : declared before with - | ⟨usage, others⟩
  · exact h.carried hdeclared
  · rw [h.usages 0 (by rw [hdeclared]; exact Nat.succ_pos _), hdeclared]
    rfl

/-- What it holds when the last usage was carried. -/
theorem Tracks.carryUsage {before : List Item} {parser : Parser} (h : Tracks before parser) :
    parser.carryUsage.usages.getD 0 0 = (declared before).getLastD (Hid.carried before) := by
  rw [Parser.carryUsage]
  by_cases hnone : declared before = []
  · rw [if_neg (by rw [h.usageCount, hnone]; exact Nat.lt_irrefl 0), hnone]
    exact h.carried hnone
  · have hpos : 0 < (declared before).length := List.length_pos_iff.2 hnone
    rw [if_pos (h.usageCount ▸ hpos), h.usageCount, h.usages _ (by omega)]
    dsimp only
    rw [List.getD_eq_getElem?_getD, List.getElem?_set_self (by rw [h.usages_length]; decide),
      List.getLastD_eq_getLast?, List.getLast?_eq_getElem?, List.getD_eq_getElem?_getD,
      List.getElem?_eq_getElem (by omega)]
    rfl

/-- Carrying a usage changes the usages alone, whatever the offsets. -/
theorem Parser.carryUsage_eq (parser : Parser) (offsets : List ReportOffset) :
    ({ parser with reportOffsets := offsets } : Parser).carryUsage =
      { parser with usages := parser.carryUsage.usages, reportOffsets := offsets } := by
  rw [carryUsage, carryUsage]
  split_ifs <;> rfl

/-- Carrying a usage on keeps the table's length. -/
theorem Parser.carryUsage_length (parser : Parser) :
    parser.carryUsage.usages.length = parser.usages.length := by
  rw [carryUsage]
  split_ifs
  · exact List.length_set
  · rfl

/-- After a main item nothing local is left. -/
theorem Tracks.main {before : List Item} {parser : Parser} (h : Tracks before parser) {item : Item}
    (htype : item.type = typeMain) {start stop : UInt8} {usages : List UInt16}
    {offsets : List ReportOffset}
    (hbegun : start.toNat = mainCount mainCollection (item :: before) % 256)
    (hended : stop.toNat = mainCount mainCollectionEnd (item :: before) % 256)
    (hlength : usages.length = hidMaxUsages)
    (hcarried : usages.getD 0 0 = Hid.carried (item :: before))
    (hids : offsets.map ReportOffset.reportId = (inputIds (item :: before)).reverse)
    (hoffsets : ∀ e ∈ offsets, e.offsetInBits = inputBits e.reportId (item :: before)) :
    Tracks (item :: before)
      { parser with
        collectionStart := start
        collectionEnd := stop
        usages := usages
        reportOffsets := offsets
        usageCount := 0
        locals := fun _ ↦ 0 } := by
  have hglobal : ¬ item.type = typeGlobal := by rw [htype]; decide
  have hlocal : ¬ item.type = typeLocal := by rw [htype]; decide
  constructor
  · exact hbegun
  · exact hended
  · exact (globalValue_other hglobal _).symm ▸ h.reportId
  · exact fun tag ↦ (globalValue_other hglobal tag).symm ▸ h.globals tag
  · intro tag
    rw [localValue, if_pos htype]
  · exact (blockUsage_other hlocal).symm ▸ h.globalUsage
  · rw [declared_main htype]
    rfl
  · exact hlength
  · rw [declared_main htype]
    exact fun i hi ↦ absurd hi (Nat.not_lt_zero i)
  · exact fun _ ↦ hcarried
  · exact hids
  · exact hoffsets

/-- A main item is counted under its tag. -/
theorem mainCount_main {item : Item} (htype : item.type = typeMain) (tag : Fin 16)
    (before : List Item) :
    mainCount tag (item :: before) = mainCount tag before + if item.tag = tag then 1 else 0 := by
  rw [mainCount]
  simp only [htype, true_and]

/-- A byte counts on modulo 256. -/
theorem toNat_succ (n : UInt8) : (n + 1).toNat = (n.toNat + 1) % 256 := by
  rw [UInt8.toNat_add]
  rfl

/-- An item is followed, and its elements are stored. -/
theorem Tracks.step {before : List Item} {state : Parse} (h : Tracks before state.parser)
    {item : Item} (hlimits : WithinLimits (item :: before)) :
    Tracks (item :: before) (handleItem state item).parser ∧
      (handleItem state item).stored = state.stored ++ elementsOf before item := by
  have hno : ¬ IsInput item → elementsOf before item = [] := fun hinput ↦ if_neg hinput
  rw [handleItem]
  by_cases hmain : item.type = typeMain
  · rw [if_pos hmain, handleMainItem]
    have hother : ¬ IsInput item → Hid.carried (item :: before) =
        (declared before).headD (Hid.carried before) := by
      intro hinput
      rw [Hid.carried, if_neg hinput, if_pos hmain]
    have hids : ¬ IsInput item → state.parser.ids = (inputIds (item :: before)).reverse :=
      fun hinput ↦ (inputIds_other hinput).symm ▸ h.ids
    have hoffsets : ¬ IsInput item → ∀ e ∈ state.parser.reportOffsets,
        e.offsetInBits = inputBits e.reportId (item :: before) :=
      fun hinput e he ↦ (inputBits_other hinput e.reportId).symm ▸ h.offsets e he
    have hcount : ∀ tag n, n = mainCount tag before % 256 → ¬ item.tag = tag →
        n = mainCount tag (item :: before) % 256 := by
      intro tag n hn htag
      rw [mainCount_main hmain, if_neg htag, Nat.add_zero]
      exact hn
    -- a collection begins or ends: a count moves and nothing is stored
    by_cases hcollection : item.tag = mainCollection
    · have hinput : ¬ IsInput item := by
        rintro ⟨-, htag⟩
        rw [hcollection] at htag
        exact absurd htag (by decide)
      rw [if_pos hcollection, hno hinput, List.append_nil]
      refine ⟨?_, rfl⟩
      refine h.main hmain ?_ ?_ h.usages_length (h.first.trans (hother hinput).symm) (hids hinput)
        (hoffsets hinput)
      · rw [mainCount_main hmain, if_pos hcollection, toNat_succ, h.begun, Nat.mod_add_mod]
      · exact hcount _ _ h.ended (by rw [hcollection]; decide)
    by_cases hend : item.tag = mainCollectionEnd
    · have hinput : ¬ IsInput item := by
        rintro ⟨-, htag⟩
        rw [hend] at htag
        exact absurd htag (by decide)
      rw [if_neg hcollection, if_pos hend, hno hinput, List.append_nil]
      refine ⟨?_, rfl⟩
      refine h.main hmain ?_ ?_ h.usages_length (h.first.trans (hother hinput).symm) (hids hinput)
        (hoffsets hinput)
      · exact hcount _ _ h.begun hcollection
      · rw [mainCount_main hmain, if_pos hend, toNat_succ, h.ended, Nat.mod_add_mod]
    rw [if_neg hcollection, if_neg hend]
    -- an input field: the offsets advance by its bits and its elements are stored
    by_cases htag : item.tag = mainInput
    · have hinput : IsInput item := ⟨hmain, htag⟩
      obtain ⟨base, entry, hlocated⟩ := h.located hinput hlimits
      obtain ⟨hparser, hstored⟩ := hlocated.inputLoop h hinput hlimits
      have hid : state.parser.reportId.toUInt8 = reportIdOf before := by rw [h.reportId, reportIdOf]
      have hhandled : handleMainInput state item =
          let state := inputLoop item entry (elementWidth before)
            (if OneElement before then 1 else reportCountOf before) 0 { state with parser := base }
          { state with parser := state.parser.carryUsage } := by
        rw [handleMainInput, hlocated.found]
        simp only [h.globals, h.usageCount]
        rfl
      rw [if_pos htag, hhandled]
      refine ⟨?_, hstored⟩
      have hoffsets := hlocated.offsets_advance hid hinput hlimits
      have hids := (Parser.advance_ids base entry
        (reportSizeOf before * reportCountOf before)).trans
        hlocated.ids
      obtain ⟨offsets, hsame⟩ := hlocated.same
      have hadvance : base.advance entry (reportSizeOf before * reportCountOf before) =
          { state.parser with reportOffsets := (base.advance entry
            (reportSizeOf before * reportCountOf before)).reportOffsets } := by
        rw [hsame]
        rfl
      dsimp only
      rw [hparser, hadvance, Parser.carryUsage_eq]
      refine h.main hmain (hcount _ _ h.begun hcollection) (hcount _ _ h.ended hend)
        ((Parser.carryUsage_length _).trans h.usages_length) ?_ hids hoffsets
      rw [h.carryUsage, Hid.carried, if_pos hinput]
    · -- any other main item clears the local state and stores nothing
      have hinput : ¬ IsInput item := fun hboth ↦ htag hboth.2
      rw [if_neg htag, hno hinput, List.append_nil]
      refine ⟨?_, rfl⟩
      exact h.main hmain (hcount _ _ h.begun hcollection) (hcount _ _ h.ended hend) h.usages_length
        (h.first.trans (hother hinput).symm) (hids hinput) (hoffsets hinput)
  · rw [if_neg hmain, hno (not_isInput hmain), List.append_nil]
    -- what is not a main item declares nothing
    by_cases hglobal : item.type = typeGlobal
    · rw [if_pos hglobal]
      exact ⟨h.global hglobal, rfl⟩
    · rw [if_neg hglobal]
      by_cases hlocal : item.type = typeLocal
      · rw [if_pos hlocal]
        exact ⟨h.local hlocal hlimits, rfl⟩
      · rw [if_neg hlocal]
        exact ⟨h.reserved hmain hglobal hlocal, rfl⟩

/-! ## Descriptors -/

/-- An item as it stands in a descriptor, with all its data. -/
structure ShortItem where
  header : UInt8
  data : List UInt8
  complete : data.length = sizeLookup (Fin.ofNat 4 header.toNat)

namespace ShortItem

/-- Its bytes. -/
def bytes (item : ShortItem) : List UInt8 := item.header :: item.data

/-- The item the parser reads. -/
def item (item : ShortItem) : Item := itemAt fun i ↦ item.bytes.getD i 0

end ShortItem

/-- The bytes of a descriptor. -/
def descriptorBytes (descriptor : List ShortItem) : List UInt8 := descriptor.flatMap ShortItem.bytes

/-- The items of a descriptor, the last one first. -/
def itemsOf (descriptor : List ShortItem) : List Item := (descriptor.map ShortItem.item).reverse

/-- A value depends on its own bytes only. -/
theorem getDescriptorValue_congr {report report' : Nat → UInt8} {size : Fin 4}
    (h : ∀ i < sizeLookup size, report i = report' i) :
    getDescriptorValue report size = getDescriptorValue report' size := by
  match size with
  | 0 => rfl
  | 1 => exact congrArg UInt8.toUInt32 (h 0 (by decide))
  | 2 => simp only [getDescriptorValue, h 0 (by decide), h 1 (by decide)]
  | 3 =>
      simp only [getDescriptorValue, h 0 (by decide), h 1 (by decide), h 2 (by decide),
        h 3 (by decide)]

namespace ShortItem

/-- A short item is its prefix and its value. -/
theorem length_bytes (item : ShortItem) : item.bytes.length = sizeLookup item.item.size + 1 := by
  rw [bytes, List.length_cons, item.complete]
  rfl

/-- The parser reads the item whose bytes are there. -/
theorem itemAt_eq {report : Nat → UInt8} {item : ShortItem}
    (h : ∀ i < item.bytes.length, report i = item.bytes.getD i 0) : itemAt report = item.item := by
  have hheader : report 0 = item.header := h 0 (Nat.succ_pos _)
  rw [ShortItem.item, itemAt, itemAt, hheader]
  have hval := @getDescriptorValue_congr (fun i ↦ report (i + 1))
    (fun i ↦ item.bytes.getD (i + 1) 0) (Fin.ofNat 4 item.header.toNat) fun i hi ↦
      h (i + 1) (by rw [bytes, List.length_cons, item.complete]; omega)
  exact congrArg (Item.mk _ _ _) hval

end ShortItem

/-- The loop over a descriptor handles its items, one by one. -/
theorem parseLoop_descriptor (descriptor : List ShortItem) (report : Nat → UInt8) (state : Parse)
    (h : ∀ i < (descriptorBytes descriptor).length,
      report i = (descriptorBytes descriptor).getD i 0) :
    parseLoop report (descriptorBytes descriptor).length state =
      (descriptor.map ShortItem.item).foldl handleItem state := by
  induction descriptor generalizing report state with
  | nil =>
      rw [parseLoop, dif_neg (show ¬ 0 < (descriptorBytes []).length from Nat.lt_irrefl 0)]
      rfl
  | cons item descriptor ih =>
      have hbytes : descriptorBytes (item :: descriptor) =
          item.bytes ++ descriptorBytes descriptor := List.flatMap_cons
      have hlength := item.length_bytes
      rw [hbytes, List.length_append] at h ⊢
      have hitem : itemAt report = item.item := by
        refine ShortItem.itemAt_eq fun i hi ↦ ?_
        rw [h i (by omega), List.getD_append _ _ _ _ hi]
      rw [parseLoop, dif_pos (by omega), List.map_cons, List.foldl_cons]
      dsimp only
      rw [hitem, ← hlength, Nat.add_sub_cancel_left, ih]
      intro i hi
      rw [show i + 1 + sizeLookup item.item.size = item.bytes.length + i by omega,
        h _ (by omega), List.getD_append_right _ _ _ _ (by omega), Nat.add_sub_cancel_left]

/-- A limit holds of a beginning. -/
theorem WithinLimits.of_append {later before : List Item} (h : WithinLimits (later ++ before)) :
    WithinLimits before := by
  induction later with
  | nil => exact h
  | cons item later ih => exact ih h.tail

/-- A run over items stores what they lay out. -/
theorem Tracks.run {before : List Item} {state : Parse} (h : Tracks before state.parser)
    (hstored : state.stored = layoutOf before) (items : List Item)
    (hlimits : WithinLimits (items.reverse ++ before)) :
    (items.foldl handleItem state).stored = layoutOf (items.reverse ++ before) := by
  induction items generalizing before state with
  | nil => exact hstored
  | cons item items ih =>
      rw [List.reverse_cons, List.append_assoc, List.singleton_append] at hlimits ⊢
      obtain ⟨hnext, helements⟩ := h.step hlimits.of_append
      rw [List.foldl_cons]
      refine ih hnext ?_ hlimits
      rw [helements, hstored, layoutOf]

/-- A descriptor stands in a memory from its start on. -/
def StandsIn (descriptor : List ShortItem) (report : Nat → UInt8) : Prop :=
  ∀ i < (descriptorBytes descriptor).length, report i = (descriptorBytes descriptor).getD i 0

/-- Parsing a descriptor stores the elements it lays out. -/
theorem parseReportDescriptor_stored {descriptor : List ShortItem}
    (hlimits : WithinLimits (itemsOf descriptor)) {report : Nat → UInt8}
    (hreport : StandsIn descriptor report) (iface : Interface) :
    (parseReportDescriptor iface report (descriptorBytes descriptor).length).stored =
      layoutOf (itemsOf descriptor) := by
  rw [parseReportDescriptor, parseLoop_descriptor descriptor report _ hreport]
  have hrun := @Tracks.run [] ⟨.zero, iface, []⟩ Tracks.zero rfl (descriptor.map ShortItem.item)
    (by rw [List.append_nil]; exact hlimits)
  rw [List.append_nil] at hrun
  exact hrun

end DeskhopPlus.Hid
