import DeskhopPlus.Hid.KeyboardReport
import DeskhopPlus.Hid.Keyboards
import DeskhopPlus.Hid.LayoutLaw

/-!
# From a descriptor to the keys of a report

A descriptor within the limits of the parser is laid out as its items say, and a keyboard that is
read as a bitmap is read by the sections and the modifiers that its report ID has in that layout.
-/

namespace DeskhopPlus.Hid

open DeskhopPlus.Keyboard (keysInUsbReport)

theorem itemsOf_concat (before : List ShortItem) (item : ShortItem) :
    itemsOf (before ++ [item]) = item.item :: itemsOf before := by
  rw [itemsOf, List.map_append, List.reverse_append]
  rfl

/-- Every element of a layout is one of an input item. -/
theorem mem_layoutOf {descriptor : List ShortItem} {element : ReportVal}
    (h : element ∈ layoutOf (itemsOf descriptor)) :
    ∃ before input after i, descriptor = before ++ input :: after ∧ IsInput input.item ∧
      i < elementCount (itemsOf before) ∧ element = elementOf (itemsOf before) input.item i := by
  induction descriptor using List.reverseRecOn with
  | nil => cases h
  | append_singleton before input ih =>
      rw [itemsOf_concat, layoutOf, List.mem_append] at h
      rcases h with hearlier | hlast
      · obtain ⟨earlier, other, after, i, rfl, hinput, hi, helement⟩ := ih hearlier
        refine ⟨earlier, other, after ++ [input], i, ?_, hinput, hi, helement⟩
        rw [List.append_assoc, List.cons_append]
      · rw [elementsOf] at hlast
        split_ifs at hlast with hinput
        · obtain ⟨i, hi, rfl⟩ := List.mem_map.1 hlast
          exact ⟨before, input, [], i, rfl, hinput, List.mem_range.1 hi, rfl⟩
        · cases hlast

/-- An element stands in a layout where the law says. -/
structure LaidOut (descriptor : List ShortItem) (element : ReportVal) : Prop where
  law : ∃ before input after i, descriptor = before ++ input :: after ∧ IsInput input.item ∧
    i < elementCount (itemsOf before) ∧
    element.reportId = reportIdOf (itemsOf before) ∧
    element.size = elementWidth (itemsOf before) ∧
    element.offset = inputBits element.reportId (itemsOf before) + i * element.size ∧
    element.offsetIdx = element.offset / 8 ∧
    element.usage = usageOf (itemsOf before) i

theorem laidOut_of_mem {descriptor : List ShortItem} {element : ReportVal}
    (h : element ∈ layoutOf (itemsOf descriptor)) : LaidOut descriptor element := by
  obtain ⟨before, input, after, i, hdescriptor, hinput, hi, rfl⟩ := mem_layoutOf h
  exact ⟨before, input, after, i, hdescriptor, hinput, hi, rfl, rfl, rfl, rfl, rfl⟩

/-- The byte the modifiers of a layout start in. -/
theorem modifierOf_offsetIdx (reportId : UInt8) (descriptor : List ShortItem) :
    (modifierOf reportId (layoutOf (itemsOf descriptor))).offsetIdx =
      (modifierOf reportId (layoutOf (itemsOf descriptor))).offset / 8 := by
  rw [modifierOf]
  rcases List.eq_nil_or_concat
    ((keyFields reportId (layoutOf (itemsOf descriptor))).filter isModifier) with hnone |
      ⟨_, last, hlast⟩
  · rw [hnone]
    rfl
  · have hmem : last ∈ layoutOf (itemsOf descriptor) := by
      refine List.mem_of_mem_filter (List.mem_of_mem_filter (?_ : last ∈ (keyFields reportId
        (layoutOf (itemsOf descriptor))).filter isModifier))
      rw [hlast, List.concat_eq_append]
      exact List.mem_concat_self
    rw [hlast, List.concat_eq_append, List.getLastD_concat]
    obtain ⟨_, _, _, _, -, -, -, -, -, -, hindex, -⟩ := (laidOut_of_mem hmem).law
    exact hindex

theorem getKeyboard_lt (iface : Interface) (reportId : UInt8) :
    getKeyboard iface reportId < maxKeyboards := by
  rw [getKeyboard]
  split_ifs
  · rcases hfind : (List.range (min iface.numKeyboards maxKeyboards)).find? fun i ↦
        (iface.keyboard i).reportId == reportId with - | slot
    · decide
    · have hmem := List.mem_range.1 (List.mem_of_find?_eq_some hfind)
      rw [Option.getD_some]
      omega
  · decide

/-- A keyboard read as a bitmap holds what its report ID has in the layout. -/
theorem Slots.holds_nkro {stored : List ReportVal} {iface : Interface} (h : Slots stored iface)
    {rawReport : List UInt8} (hnkro : (keyboardOf rawReport iface).isNkro = true) :
    (keyboardOf rawReport iface).Holds stored := by
  refine h.holds _ (Nat.not_le.1 fun hnum ↦ ?_)
  have hempty := (h.empty _ (getKeyboard_lt iface _) hnum).2.2
  rw [keyboardOf] at hnkro
  rw [hnkro] at hempty
  cases hempty

/-- What a report of a keyboard read as a bitmap gives: by the sections and modifiers that the
layout has for the keyboard's report ID, the byte the modifiers start in, and the first six usages
that are pressed. -/
def ReadsPressed (descriptor : List ShortItem) (iface : Interface) (rawReport : List UInt8) :
    Prop :=
  let reportId := (keyboardOf rawReport iface).reportId
  let payload := payloadOf rawReport iface
  let modifier := modifierOf reportId (layoutOf (itemsOf descriptor))
  let keys := ((sectionsOf reportId (layoutOf (itemsOf descriptor))).flatMap (pressed payload)).take
    keysInUsbReport
  modifier.size = modifierBitLength → modifier.offset / 8 < payload.length →
    extractKbdData rawReport iface =
      some (keys.length, reportOf (payload.getD (modifier.offset / 8) 0) 0 keys)

theorem Slots.readsPressed {descriptor : List ShortItem} {iface : Interface}
    (h : Slots (layoutOf (itemsOf descriptor)) iface) {rawReport : List UInt8}
    (hprotocol : iface.protocol = .report) (hnkro : (keyboardOf rawReport iface).isNkro = true) :
    ReadsPressed descriptor iface rawReport := by
  obtain ⟨hsections, hmodifier⟩ := h.holds_nkro hnkro
  have hindex : (keyboardOf rawReport iface).modifier.offsetIdx =
      (modifierOf (keyboardOf rawReport iface).reportId (layoutOf (itemsOf descriptor))).offset /
        8 := by
    rw [hmodifier]
    exact modifierOf_offsetIdx _ descriptor
  rw [ReadsPressed]
  intro hsize hinside
  rw [extractKbdData_nkro hprotocol hnkro (by rw [hmodifier]; exact hsize)
    (by rw [hindex]; exact hinside), hindex, hsections]

/-- A descriptor within the limits of the parser stores the elements it lays out, each behind all
earlier fields of its report ID and with the usage declared for it; and a keyboard so parsed that is
read as a bitmap, in report protocol, reads the keys that are pressed. -/
theorem descriptor_laid_out (descriptor : List ShortItem)
    (hlimits : WithinLimits (itemsOf descriptor)) (report : Nat → UInt8)
    (hreport : StandsIn descriptor report) (protocol : Protocol) :
    (parseReportDescriptor (.zero protocol) report (descriptorBytes descriptor).length).stored =
        layoutOf (itemsOf descriptor) ∧
      (∀ element ∈ (parseReportDescriptor (.zero protocol) report
        (descriptorBytes descriptor).length).stored, LaidOut descriptor element) ∧
      ∀ iface, iface = (parseReportDescriptor (.zero protocol) report
          (descriptorBytes descriptor).length).iface →
        ∀ rawReport, iface.protocol = .report → (keyboardOf rawReport iface).isNkro = true →
          ReadsPressed descriptor iface rawReport := by
  have hstored := parseReportDescriptor_stored hlimits hreport (.zero protocol)
  refine ⟨hstored, ?_, ?_⟩
  · rw [hstored]
    exact fun element helement ↦ laidOut_of_mem helement
  · rintro iface rfl rawReport hprotocol hnkro
    have hslots := Parse.Keeps.parse slots_keptByStoring (Slots.zero protocol) report
      (descriptorBytes descriptor).length
    rw [Parse.Keeps, hstored] at hslots
    exact hslots.readsPressed hprotocol hnkro

/-- No more usages are declared than there are items. -/
theorem length_declared_le (items : List Item) : (declared items).length ≤ items.length := by
  induction items with
  | nil => exact Nat.le_refl _
  | cons item before ih =>
      rw [declared]
      split_ifs
      · exact Nat.zero_le _
      · rw [List.length_append, List.length_singleton]
        exact Nat.succ_le_succ ih
      · exact Nat.le_succ_of_le ih

/-- The bits of all input items, whatever their report ID. -/
def allBits : List Item → Nat
  | [] => 0
  | item :: before =>
      allBits before + if IsInput item then reportSizeOf before * reportCountOf before else 0

theorem inputBits_le (reportId : UInt8) (items : List Item) :
    inputBits reportId items ≤ allBits items := by
  induction items with
  | nil => exact Nat.le_refl _
  | cons item before ih =>
      rw [inputBits, allBits]
      refine Nat.add_le_add ih ?_
      split_ifs with hboth hinput hinput
      · exact Nat.le_refl _
      · exact absurd hboth.1 hinput
      · exact Nat.zero_le _
      · exact Nat.le_refl _

/-- A short descriptor of few bits is within the limits. -/
theorem WithinLimits.of_short {items : List Item} (hitems : items.length ≤ hidMaxUsages)
    (hbegun : mainCount mainCollection items < 256)
    (hended : mainCount mainCollectionEnd items < 256)
    (hids : (inputIds items).length ≤ maxReportLayouts) (hbits : allBits items < 65536) :
    WithinLimits items where
  begun := hbegun
  ended := hended
  ids := hids
  usages := fun before hbefore ↦
    (length_declared_le before).trans (hbefore.length_le.trans hitems)
  bits := fun reportId ↦ Nat.lt_of_le_of_lt (inputBits_le reportId items) hbits

/-- A keyboard of modifiers and a bitmap of 48 keys. -/
def bitmapKeyboard : List ShortItem :=
  [⟨0x05, [0x01], rfl⟩, ⟨0x09, [0x06], rfl⟩, ⟨0xa1, [0x01], rfl⟩, ⟨0x05, [0x07], rfl⟩,
   ⟨0x19, [0xe0], rfl⟩, ⟨0x29, [0xe7], rfl⟩, ⟨0x75, [0x01], rfl⟩, ⟨0x95, [0x08], rfl⟩,
   ⟨0x81, [0x02], rfl⟩, ⟨0x19, [0x04], rfl⟩, ⟨0x29, [0x33], rfl⟩, ⟨0x95, [0x30], rfl⟩,
   ⟨0x81, [0x02], rfl⟩, ⟨0xc0, [], rfl⟩]

/-- The bytes of a descriptor in an empty memory. -/
def memoryOf (descriptor : List ShortItem) (i : Nat) : UInt8 :=
  (descriptorBytes descriptor).getD i 0

/-- Left shift, a and d, in a report that ends behind the first byte of the bitmap. -/
theorem descriptor_laid_out_bitmap :
    extractKbdData [0x02, 0x09] (parseReportDescriptor (.zero .report) (memoryOf bitmapKeyboard)
      (descriptorBytes bitmapKeyboard).length).iface = some (2, reportOf 0x02 0 [0x04, 0x07]) := by
  have hparse : parseReportDescriptor (.zero .report) (memoryOf bitmapKeyboard)
      (descriptorBytes bitmapKeyboard).length =
      (bitmapKeyboard.map ShortItem.item).foldl handleItem ⟨.zero, .zero .report, []⟩ :=
    parseLoop_descriptor bitmapKeyboard _ _ fun _ _ ↦ rfl
  have hlimits : WithinLimits (itemsOf bitmapKeyboard) :=
    .of_short (by decide) (by decide) (by decide) (by decide)
      (by decide)
  have hread := (descriptor_laid_out bitmapKeyboard hlimits (memoryOf bitmapKeyboard)
    (fun _ _ ↦ rfl) .report).2.2 _ rfl [0x02, 0x09]
  rw [hparse] at hread ⊢
  exact hread (by decide) (by decide) (by decide) (by decide)

/-- A usage outside of collections, a byte of an input item there, and two bytes in report 0 and in
report 256. -/
def strayItems : List ShortItem :=
  [⟨0x09, [0x30], rfl⟩, ⟨0x75, [0x08], rfl⟩, ⟨0x95, [0x01], rfl⟩, ⟨0x81, [0x02], rfl⟩,
   ⟨0x86, [0x00, 0x01], rfl⟩, ⟨0x81, [0x02], rfl⟩]

/-- A usage outside of collections is not that of the input item behind it, and the elements of
report 256 are laid out behind those of report 0. -/
theorem stray_items_differ :
    (parseReportDescriptor (.zero .report) (memoryOf strayItems)
        (descriptorBytes strayItems).length).stored.map
          (fun element ↦ (element.usage, element.offset)) =
      [(0, 0), (0, 8)] ∧
    (strayItems.map fun item ↦ (item.item.tag, item.item.val)) =
      [(localUsage, 0x30), (globalReportSize, 8), (globalReportCount, 1), (mainInput, 2),
        (globalReportId, 256), (mainInput, 2)] := by
  have hparse : parseReportDescriptor (.zero .report) (memoryOf strayItems)
      (descriptorBytes strayItems).length =
      (strayItems.map ShortItem.item).foldl handleItem ⟨.zero, .zero .report, []⟩ :=
    parseLoop_descriptor strayItems _ _ fun _ _ ↦ rfl
  rw [hparse]
  decide

end DeskhopPlus.Hid
