import Mathlib.Data.List.GetD
import DeskhopPlus.Hid.Descriptor

/-!
# The keyboards of an interface

Which slot an element of a keyboard goes to while a descriptor is parsed: each report ID keeps a
slot of its own from its first element on, as long as there are slots. So what a slot keeps is what
the elements of its report ID say, in the order in which they were stored.
-/

namespace DeskhopPlus.Hid

/-! ## What parsing keeps -/

/-- A property of the elements stored and the interface that storing one more keeps. -/
def KeptByStoring (P : List ReportVal → Interface → Prop) : Prop :=
  ∀ stored iface val uses, P stored iface → (iface.usesReportId = true → uses = true) →
    (uses = false → val.reportId = 0) →
    P (stored ++ [val]) (extractData { iface with usesReportId := uses } val)

section

variable {P : List ReportVal → Interface → Prop}

/-- The property holds of the elements stored so far and the interface. -/
def Parse.Keeps (P : List ReportVal → Interface → Prop) (state : Parse) : Prop :=
  P state.stored state.iface

theorem Parse.Keeps.inputElement (hP : KeptByStoring P) {state : Parse} (h : state.Keeps P)
    (item : Item) (entry size i : Nat) : (inputElement item entry size i state).Keeps P := by
  rw [Hid.inputElement, storeElement]
  refine hP _ _ _ _ h (fun huses ↦ by rw [huses, Bool.true_or]) fun huses ↦ ?_
  obtain ⟨-, hzero⟩ := Bool.or_eq_false_iff.1 huses
  dsimp only
  rw [not_ne_iff.1 (of_decide_eq_false hzero)]
  rfl

theorem Parse.Keeps.inputLoop (hP : KeptByStoring P) (item : Item) (entry size remaining i : Nat)
    {state : Parse} (h : state.Keeps P) :
    (inputLoop item entry size remaining i state).Keeps P := by
  induction remaining generalizing i state with
  | zero => exact h
  | succ remaining ih =>
      rw [Hid.inputLoop]
      split_ifs
      · exact ih (i + 1) (h.inputElement hP item entry size i)
      · exact h

theorem Parse.Keeps.handleItem (hP : KeptByStoring P) {state : Parse} (h : state.Keeps P)
    (item : Item) : (handleItem state item).Keeps P := by
  have hinput : (handleMainInput state item).Keeps P := by
    rw [handleMainInput]
    dsimp only
    rcases getOrCreateReportOffset state.parser state.parser.reportId.toUInt8 with
      ⟨parser, - | entry⟩
    · exact h
    · exact Parse.Keeps.inputLoop hP item entry _ _ 0 h
  rw [Hid.handleItem, handleMainItem]
  split_ifs
  · exact h
  · exact h
  · exact hinput
  · exact h
  · exact h
  · exact h
  · exact h

/-- What storing keeps holds after parsing any bytes. -/
theorem Parse.Keeps.parse (hP : KeptByStoring P) {iface : Interface} (h : P [] iface)
    (report : Nat → UInt8) (descLen : Nat) :
    (parseReportDescriptor iface report descLen).Keeps P := by
  rw [parseReportDescriptor]
  generalize hstate : (⟨.zero, iface, []⟩ : Parse) = state
  have hkeeps : state.Keeps P := by
    rw [← hstate]
    exact h
  clear hstate
  fun_induction parseLoop report descLen state with
  | case1 report descLen state hmore item ih => exact ih (hkeeps.handleItem hP item)
  | case2 => exact hkeeps

end

/-! ## Elements of other devices -/

/-- What a keyboard is without its consumer controls. -/
def Keyboard.withoutControls (keyboard : Keyboard) : Keyboard := { keyboard with ccArray := [] }

/-- The slots are the same, apart from consumer controls. -/
structure SameSlots (iface iface' : Interface) : Prop where
  keyboards : iface'.keyboards.map Keyboard.withoutControls =
    iface.keyboards.map Keyboard.withoutControls
  numKeyboards : iface'.numKeyboards = iface.numKeyboards
  usesReportId : iface'.usesReportId = iface.usesReportId
  protocol : iface'.protocol = iface.protocol

namespace SameSlots

theorem refl (iface : Interface) : SameSlots iface iface := ⟨rfl, rfl, rfl, rfl⟩

theorem trans {first second third : Interface} (h : SameSlots first second)
    (h' : SameSlots second third) : SameSlots first third :=
  ⟨h'.keyboards.trans h.keyboards, h'.numKeyboards.trans h.numKeyboards,
    h'.usesReportId.trans h.usesReportId, h'.protocol.trans h.protocol⟩

theorem setReceiver (iface : Interface) (reportId : UInt8) (receiver : Receiver) :
    SameSlots iface (iface.setReceiver reportId receiver) := ⟨rfl, rfl, rfl, rfl⟩

theorem keyboard {iface iface' : Interface} (h : SameSlots iface iface') (slot : Nat) :
    (iface'.keyboard slot).withoutControls = (iface.keyboard slot).withoutControls := by
  have hget := congrArg (fun keyboards ↦ keyboards.getD slot Keyboard.zero.withoutControls)
    h.keyboards
  simp only [List.getD_map] at hget
  exact hget

end SameSlots

theorem handleButtons_same (src : ReportVal) (iface : Interface) :
    SameSlots iface (handleButtons src iface) := by
  rw [handleButtons]
  split_ifs <;> exact ⟨rfl, rfl, rfl, rfl⟩

theorem store_same {put : ReportVal → Interface → Interface}
    (hput : ∀ src iface, SameSlots iface (put src iface)) (src : ReportVal) (iface : Interface) :
    SameSlots iface (store put src iface) := by
  rw [store]
  split_ifs
  · exact SameSlots.refl iface
  · exact hput src iface

theorem handleConsumerControlValues_same (src : ReportVal) (iface : Interface) :
    SameSlots iface (handleConsumerControlValues src iface) := by
  rw [handleConsumerControlValues]
  have hmodify : ∀ slot, (iface.keyboards.modify slot fun keyboard ↦
      { keyboard with ccArray := keyboard.ccArray.set src.offset src.usage }).map
        Keyboard.withoutControls = iface.keyboards.map Keyboard.withoutControls := by
    intro slot
    refine List.ext_getElem (by simp) fun j hj hj' ↦ ?_
    simp only [List.getElem_map, List.getElem_modify]
    split_ifs <;> rfl
  dsimp only
  split_ifs <;> first
    | exact ⟨rfl, rfl, rfl, rfl⟩
    | exact ⟨hmodify _, rfl, rfl, rfl⟩

/-- Whether an element is one of a keyboard. -/
def IsKey (val : ReportVal) : Prop := val.globalUsage = 0x06 ∧ val.usagePage = 0x07

instance (val : ReportVal) : Decidable (IsKey val) := instDecidableAnd

/-- An element of a keyboard goes to its handler and to no other. -/
theorem extractData_key {val : ReportVal} (h : IsKey val) (iface : Interface) :
    extractData iface val =
      handleKeyboardDescriptorValues val (iface.setReceiver val.reportId .keyboard) := by
  simp [extractData, usageMap, UsageMap.apply, UsageMap.isFor, h.1, h.2]

theorem UsageMap.apply_same {val : ReportVal} {hay : UsageMap}
    (hhandler : ∀ iface, SameSlots iface (hay.handler val iface))
    (hset : ∀ iface, SameSlots iface (hay.setId val.reportId iface)) (iface : Interface) :
    SameSlots iface (hay.apply val iface) := by
  rw [UsageMap.apply]
  split_ifs
  · exact ((hset iface).trans (SameSlots.setReceiver _ _ _)).trans (hhandler _)
  · exact SameSlots.refl iface

theorem UsageMap.apply_store {val : ReportVal} {hay : UsageMap}
    {put : ReportVal → Interface → Interface} (hhay : hay.handler = store put)
    (hput : ∀ src iface, SameSlots iface (put src iface))
    (hset : ∀ iface, SameSlots iface (hay.setId val.reportId iface)) (iface : Interface) :
    SameSlots iface (hay.apply val iface) :=
  UsageMap.apply_same (hhay ▸ store_same hput val) hset iface

/-- An element of another device leaves the slots as they are. -/
theorem extractData_other {val : ReportVal} (h : ¬ IsKey val) (iface : Interface) :
    SameSlots iface (extractData iface val) := by
  have hset : ∀ reportId iface, SameSlots iface (setMouseId reportId iface) ∧
      SameSlots iface (setConsumerId reportId iface) ∧
        SameSlots iface (setSystemId reportId iface) :=
    fun _ _ ↦ ⟨⟨rfl, rfl, rfl, rfl⟩, ⟨rfl, rfl, rfl, rfl⟩, ⟨rfl, rfl, rfl, rfl⟩⟩
  have hall : ∀ hay ∈ usageMap, ∀ iface, SameSlots iface (hay.apply val iface) := by
    simp only [usageMap, List.forall_mem_cons, List.not_mem_nil, IsEmpty.forall_iff,
      implies_true, and_true]
    refine ⟨UsageMap.apply_same (handleButtons_same val) fun iface ↦ (hset _ iface).1, ?_, ?_, ?_,
      ?_, fun iface ↦ ?_, UsageMap.apply_same (handleConsumerControlValues_same val) fun iface ↦
        (hset _ iface).2.1, ?_⟩
    · exact UsageMap.apply_store rfl (fun _ _ ↦ ⟨rfl, rfl, rfl, rfl⟩)
        fun iface ↦ (hset _ iface).1
    · exact UsageMap.apply_store rfl (fun _ _ ↦ ⟨rfl, rfl, rfl, rfl⟩)
        fun iface ↦ (hset _ iface).1
    · exact UsageMap.apply_store rfl (fun _ _ ↦ ⟨rfl, rfl, rfl, rfl⟩)
        fun iface ↦ (hset _ iface).1
    · exact UsageMap.apply_store rfl (fun _ _ ↦ ⟨rfl, rfl, rfl, rfl⟩)
        fun iface ↦ (hset _ iface).1
    · -- the entry of keyboards is not for it
      rw [UsageMap.apply, if_neg]
      · exact SameSlots.refl iface
      · simpa [UsageMap.isFor, IsKey] using h
    · exact UsageMap.apply_store rfl (fun _ _ ↦ ⟨rfl, rfl, rfl, rfl⟩)
        fun iface ↦ (hset _ iface).2.2
  rw [extractData]
  suffices hfold : ∀ (map : List UsageMap) (iface' : Interface),
      (∀ hay ∈ map, ∀ iface, SameSlots iface (hay.apply val iface)) →
      SameSlots iface' (map.foldl (UsageMap.apply val) iface') from hfold usageMap iface hall
  intro map
  induction map with
  | nil => exact fun iface' _ ↦ SameSlots.refl iface'
  | cons hay map ih =>
      intro iface' hsame
      refine (hsame hay List.mem_cons_self iface').trans (ih _ fun other hother ↦ ?_)
      exact hsame other (List.mem_cons_of_mem _ hother)

/-! ## Slots -/

/-- The fields of the keyboard of a report ID. -/
def keyFields (reportId : UInt8) (stored : List ReportVal) : List ReportVal :=
  stored.filter fun val ↦ decide (IsKey val ∧ val.itemType ≠ .constant ∧ val.reportId = reportId)

/-- Its sections, as many as are kept. -/
def sectionsOf (reportId : UInt8) (stored : List ReportVal) : List NkroBlock :=
  (((keyFields reportId stored).filter isSection).take maxNkroBlocks).map nkroBlock

/-- Its modifiers, of which the last are kept. -/
def modifierOf (reportId : UInt8) (stored : List ReportVal) : ReportVal :=
  ((keyFields reportId stored).filter isModifier).getLastD .zero

/-- A keyboard keeps what the fields of its report ID say. -/
def Keyboard.Holds (keyboard : Keyboard) (stored : List ReportVal) : Prop :=
  keyboard.nkro = sectionsOf keyboard.reportId stored ∧
    keyboard.modifier = modifierOf keyboard.reportId stored

/-- The slots that are counted hold a keyboard each, with a report ID of its own, and as long as
there are others every field is held. -/
structure Slots (stored : List ReportVal) (iface : Interface) : Prop where
  length : iface.keyboards.length = maxKeyboards
  num_le : iface.numKeyboards ≤ maxKeyboards
  isFound : ∀ slot < maxKeyboards,
    (iface.keyboard slot).isFound = decide (slot < iface.numKeyboards)
  distinct : ∀ i < iface.numKeyboards, ∀ j < iface.numKeyboards,
    (iface.keyboard i).reportId = (iface.keyboard j).reportId → i = j
  noIds : iface.usesReportId = false →
    ∀ slot < maxKeyboards, (iface.keyboard slot).reportId = 0
  holds : ∀ slot < iface.numKeyboards, (iface.keyboard slot).Holds stored
  empty : ∀ slot < maxKeyboards, iface.numKeyboards ≤ slot →
    (iface.keyboard slot).nkro = [] ∧ (iface.keyboard slot).modifier = .zero ∧
      (iface.keyboard slot).isNkro = false
  claimed : iface.numKeyboards < maxKeyboards → ∀ reportId, keyFields reportId stored ≠ [] →
    ∃ slot < iface.numKeyboards, (iface.keyboard slot).reportId = reportId

theorem keyboard_zero (protocol : Protocol) (slot : Nat) :
    (Interface.zero protocol).keyboard slot = .zero := by
  rw [Interface.keyboard, Interface.zero, List.getD_eq_getElem?_getD, List.getElem?_replicate]
  split_ifs <;> rfl

/-- A cleared interface holds nothing. -/
theorem Slots.zero (protocol : Protocol) : Slots [] (.zero protocol) where
  length := List.length_replicate
  num_le := Nat.zero_le _
  isFound slot _ := by
    rw [keyboard_zero]
    rfl
  distinct i hi := absurd hi (Nat.not_lt_zero i)
  noIds _ slot _ := by
    rw [keyboard_zero]
    rfl
  holds slot hslot := absurd hslot (Nat.not_lt_zero slot)
  empty slot _ _ := by
    rw [keyboard_zero]
    exact ⟨rfl, rfl, rfl⟩
  claimed _ _ hfields := absurd rfl hfields

section

variable {stored : List ReportVal} {iface iface' : Interface}

theorem Slots.of_same (h : Slots stored iface) (hsame : SameSlots iface iface') :
    Slots stored iface' := by
  have hfields : ∀ slot, (iface'.keyboard slot).nkro = (iface.keyboard slot).nkro ∧
      (iface'.keyboard slot).modifier = (iface.keyboard slot).modifier ∧
      (iface'.keyboard slot).reportId = (iface.keyboard slot).reportId ∧
      (iface'.keyboard slot).isFound = (iface.keyboard slot).isFound ∧
      (iface'.keyboard slot).isNkro = (iface.keyboard slot).isNkro := by
    intro slot
    have hkeyboard := hsame.keyboard slot
    exact ⟨congrArg (·.nkro) hkeyboard, congrArg (·.modifier) hkeyboard,
      congrArg (·.reportId) hkeyboard, congrArg (·.isFound) hkeyboard,
        congrArg (·.isNkro) hkeyboard⟩
  constructor
  · have hlength := congrArg List.length hsame.keyboards
    rw [List.length_map, List.length_map] at hlength
    exact hlength.trans h.length
  · exact hsame.numKeyboards ▸ h.num_le
  · intro slot hslot
    rw [(hfields slot).2.2.2.1, hsame.numKeyboards]
    exact h.isFound slot hslot
  · intro i hi j hj hid
    rw [hsame.numKeyboards] at hi hj
    rw [(hfields i).2.2.1, (hfields j).2.2.1] at hid
    exact h.distinct i hi j hj hid
  · intro huses slot hslot
    rw [(hfields slot).2.2.1]
    exact h.noIds (hsame.usesReportId ▸ huses) slot hslot
  · intro slot hslot
    rw [hsame.numKeyboards] at hslot
    rw [Keyboard.Holds, (hfields slot).1, (hfields slot).2.1, (hfields slot).2.2.1]
    exact h.holds slot hslot
  · intro slot hslot hnum
    rw [hsame.numKeyboards] at hnum
    rw [(hfields slot).1, (hfields slot).2.1, (hfields slot).2.2.2.2]
    exact h.empty slot hslot hnum
  · rw [hsame.numKeyboards]
    intro hroom reportId hsome
    obtain ⟨slot, hslot, hid⟩ := h.claimed hroom reportId hsome
    exact ⟨slot, hslot, (hfields slot).2.2.1.trans hid⟩

/-- More report IDs may be in use. -/
theorem Slots.withUses (h : Slots stored iface) {uses : Bool}
    (huses : iface.usesReportId = true → uses = true) :
    Slots stored { iface with usesReportId := uses } :=
  { h with
    noIds := fun hno ↦ h.noIds (by
      by_contra hyes
      rw [Bool.not_eq_false] at hyes
      rw [huses hyes] at hno
      cases hno) }

/-- An element that is no field of a keyboard is of no account. -/
theorem keyFields_append_other {val : ReportVal} {reportId : UInt8}
    (h : ¬ (IsKey val ∧ val.itemType ≠ .constant ∧ val.reportId = reportId)) :
    keyFields reportId (stored ++ [val]) = keyFields reportId stored := by
  rw [keyFields, List.filter_append, List.filter_cons_of_neg (by simpa using h), List.filter_nil,
    List.append_nil, keyFields]

theorem keyFields_append_own {val : ReportVal} (hkey : IsKey val)
    (hdata : val.itemType ≠ .constant) :
    keyFields val.reportId (stored ++ [val]) = keyFields val.reportId stored ++ [val] := by
  rw [keyFields, List.filter_append, List.filter_cons_of_pos (by simpa using ⟨hkey, hdata⟩),
    List.filter_nil, keyFields]

theorem Slots.append_other (h : Slots stored iface) {val : ReportVal}
    (hother : ¬ (IsKey val ∧ val.itemType ≠ .constant)) : Slots (stored ++ [val]) iface := by
  have hfields : ∀ reportId, keyFields reportId (stored ++ [val]) = keyFields reportId stored :=
    fun reportId ↦ keyFields_append_other fun hall ↦ hother ⟨hall.1, hall.2.1⟩
  refine { h with holds := ?_, claimed := ?_ }
  · intro slot hslot
    rw [Keyboard.Holds, sectionsOf, modifierOf, hfields]
    exact h.holds slot hslot
  · intro hroom reportId
    rw [hfields]
    exact h.claimed hroom reportId

/-- A change to one slot is seen there alone. -/
theorem keyboard_modify (iface : Interface) (slot : Nat) (f : Keyboard → Keyboard) (j : Nat) :
    (iface.modifyKeyboard slot f).keyboard j =
      if j = slot ∧ slot < iface.keyboards.length then f (iface.keyboard j)
      else iface.keyboard j := by
  rw [Interface.keyboard, Interface.modifyKeyboard, Interface.keyboard, List.getD_eq_getElem?_getD,
    List.getElem?_modify, List.getD_eq_getElem?_getD]
  by_cases hj : slot = j
  · subst hj
    by_cases hlt : slot < iface.keyboards.length
    · simp [hlt]
    · simp [hlt]
  · have hj' : ¬ j = slot := fun hsame ↦ hj hsame.symm
    simp [hj, hj']

theorem Slots.keyboard_modify (h : Slots stored iface) {slot : Nat} (hslot : slot < maxKeyboards)
    (f : Keyboard → Keyboard) (j : Nat) :
    (iface.modifyKeyboard slot f).keyboard j =
      if j = slot then f (iface.keyboard j) else iface.keyboard j := by
  rw [Hid.keyboard_modify, h.length]
  simp only [hslot, and_true]

/-- A report ID is that of a slot that is counted, or is given the first slot. -/
theorem Slots.getKeyboard_slot (h : Slots stored iface) (huses : iface.usesReportId = true)
    (reportId : UInt8) :
    (getKeyboard iface reportId < iface.numKeyboards ∧
        (iface.keyboard (getKeyboard iface reportId)).reportId = reportId) ∨
      (getKeyboard iface reportId = 0 ∧
        ∀ i < iface.numKeyboards, (iface.keyboard i).reportId ≠ reportId) := by
  rw [Hid.getKeyboard, if_pos huses, Nat.min_eq_left h.num_le]
  rcases hfind : (List.range iface.numKeyboards).find? fun i ↦
      (iface.keyboard i).reportId == reportId with - | slot
  · refine .inr ⟨rfl, fun i hi hid ↦ ?_⟩
    exact List.find?_eq_none.1 hfind i (List.mem_range.2 hi) (beq_iff_eq.2 hid)
  · refine .inl ⟨List.mem_range.1 (List.mem_of_find?_eq_some hfind), ?_⟩
    have hid := List.find?_some hfind
    exact beq_iff_eq.1 hid

/-- The slot an element goes to: its report ID is that of the element, and it is counted, or it is
the next and no other has that report ID. -/
structure Claims (iface : Interface) (reportId : UInt8) (slot : Nat) : Prop where
  lt : slot < maxKeyboards
  hasId : (iface.keyboard slot).reportId = reportId
  counted : slot < iface.numKeyboards ∨
    slot = iface.numKeyboards ∧ ∀ i < iface.numKeyboards, (iface.keyboard i).reportId ≠ reportId

theorem Slots.getOrAddKeyboard_slot (h : Slots stored iface) {reportId : UInt8}
    (hplain : iface.usesReportId = false → reportId = 0) :
    (getOrAddKeyboard iface reportId = none ∧ iface.numKeyboards = maxKeyboards ∧
        ∀ i < iface.numKeyboards, (iface.keyboard i).reportId ≠ reportId) ∨
      ∃ slot iface', getOrAddKeyboard iface reportId = some (slot, iface') ∧ Slots stored iface' ∧
        Claims iface' reportId slot := by
  rw [Hid.getOrAddKeyboard]
  by_cases huses : iface.usesReportId = true
  · rcases h.getKeyboard_slot huses reportId with ⟨hlt, hid⟩ | ⟨hfirst, hnone⟩
    · rw [if_pos (.inr hid)]
      exact .inr ⟨_, _, rfl, h, ⟨Nat.lt_of_lt_of_le hlt h.num_le, hid, .inl hlt⟩⟩
    · -- no counted keyboard has the report ID: the next slot takes it when there is one
      by_cases hid : (iface.keyboard (getKeyboard iface reportId)).reportId = reportId
      · rw [if_pos (.inr hid)]
        refine .inr ⟨_, _, rfl, h, ⟨by rw [hfirst]; decide, hid, .inr ⟨?_, hnone⟩⟩⟩
        rw [hfirst] at hid ⊢
        by_contra hcounted
        exact hnone 0 (Nat.pos_of_ne_zero fun hzero ↦ hcounted hzero.symm) hid
      · rw [if_neg (not_or.2 ⟨not_not.2 huses, hid⟩)]
        by_cases hfull : maxKeyboards ≤ iface.numKeyboards
        · rw [if_pos hfull]
          exact .inl ⟨rfl, Nat.le_antisymm h.num_le hfull, hnone⟩
        · rw [if_neg hfull]
          have hlt := Nat.not_le.1 hfull
          have hsame := h.keyboard_modify hlt fun keyboard ↦ { keyboard with reportId := reportId }
          have hcounted : ∀ i < iface.numKeyboards,
              (iface.modifyKeyboard iface.numKeyboards fun keyboard ↦
                { keyboard with reportId := reportId }).keyboard i = iface.keyboard i := by
            intro i hi
            rw [hsame, if_neg (Nat.ne_of_lt hi)]
          refine .inr ⟨_, _, rfl, ?_, ⟨hlt, ?_, .inr ⟨rfl, fun i hi ↦ ?_⟩⟩⟩
          · constructor
            · rw [Interface.modifyKeyboard, List.length_modify]
              exact h.length
            · exact h.num_le
            · intro slot hslot
              rw [hsame]
              have hfound := h.isFound slot hslot
              split_ifs
              · exact hfound
              · exact hfound
            · intro i hi j hj hid
              rw [hcounted i hi, hcounted j hj] at hid
              exact h.distinct i hi j hj hid
            · exact fun hno ↦ absurd (huses.symm.trans hno) (by decide)
            · intro slot hslot
              rw [hcounted slot hslot]
              exact h.holds slot hslot
            · intro slot hslot hnum
              rw [hsame]
              have hempty := h.empty slot hslot hnum
              split_ifs
              · exact hempty
              · exact hempty
            · intro hroom other hsome
              obtain ⟨slot, hslot, hid⟩ := h.claimed hroom other hsome
              exact ⟨slot, hslot, by rw [hcounted slot hslot]; exact hid⟩
          · rw [hsame, if_pos rfl]
          · rw [hcounted i hi]
            exact hnone i hi
  · rw [Bool.not_eq_true] at huses
    rw [if_pos (.inl (by rw [huses]; decide)), Hid.getKeyboard, huses, if_neg Bool.false_ne_true]
    -- without report IDs everything goes to the first keyboard
    have hid : (iface.keyboard primaryKeyboard).reportId = reportId :=
      (h.noIds huses 0 (by decide)).trans (hplain huses).symm
    refine .inr ⟨_, _, rfl, h, ⟨by decide, hid, ?_⟩⟩
    rcases Nat.eq_zero_or_pos iface.numKeyboards with hzero | hpos
    · refine .inr ⟨hzero.symm, fun i hi ↦ absurd hi ?_⟩
      rw [hzero]
      exact Nat.not_lt_zero i
    · exact .inl hpos

/-- What a keyboard keeps of a field. -/
def Keyboard.keep (src : ReportVal) (keyboard : Keyboard) : Keyboard :=
  (keyboard.keepFields src).keepSection src

theorem Keyboard.keep_same (src : ReportVal) (keyboard : Keyboard) :
    (keyboard.keep src).reportId = keyboard.reportId ∧
      (keyboard.keep src).isFound = keyboard.isFound := by
  rw [keep, keepSection]
  split_ifs <;> exact ⟨rfl, rfl⟩

theorem Keyboard.keep_nkro (src : ReportVal) (keyboard : Keyboard) :
    (keyboard.keep src).nkro =
      if isSection src ∧ keyboard.nkro.length < maxNkroBlocks then
        keyboard.nkro ++ [nkroBlock src]
      else keyboard.nkro := by
  rw [keep, keepSection]
  exact apply_ite Keyboard.nkro _ _ _

theorem Keyboard.keep_modifier (src : ReportVal) (keyboard : Keyboard) :
    (keyboard.keep src).modifier = if isModifier src then src else keyboard.modifier := by
  rw [keep, keepSection]
  exact (apply_ite Keyboard.modifier _ _ _).trans (ite_self _)

/-- A keyboard that keeps what the fields of its report ID say keeps what one field more says. -/
theorem Keyboard.Holds.keep {keyboard : Keyboard} {val : ReportVal} (h : keyboard.Holds stored)
    (hid : keyboard.reportId = val.reportId) (hkey : IsKey val) (hdata : val.itemType ≠ .constant) :
    (keyboard.keep val).Holds (stored ++ [val]) := by
  obtain ⟨hsections, hmodifier⟩ := h
  rw [sectionsOf, hid] at hsections
  rw [modifierOf, hid] at hmodifier
  rw [Keyboard.Holds, (keep_same val keyboard).1, hid, sectionsOf, modifierOf,
    keyFields_append_own hkey hdata, List.filter_append, List.filter_append]
  have hlength : keyboard.nkro.length =
      min maxNkroBlocks ((keyFields val.reportId stored).filter isSection).length := by
    rw [hsections, List.length_map, List.length_take]
  constructor
  · rw [keep_nkro]
    by_cases hsection : isSection val = true
    · rw [List.filter_cons_of_pos hsection, List.filter_nil]
      by_cases hroom : keyboard.nkro.length < maxNkroBlocks
      · have hfew : ((keyFields val.reportId stored).filter isSection).length < maxNkroBlocks := by
          omega
        rw [if_pos ⟨hsection, hroom⟩, List.take_of_length_le (by
          rw [List.length_append, List.length_singleton]
          exact hfew), List.map_append, hsections, List.take_of_length_le (Nat.le_of_lt hfew)]
        rfl
      · rw [if_neg fun hboth ↦ hroom hboth.2, List.take_append_of_le_length (by omega)]
        exact hsections
    · rw [if_neg fun hboth ↦ hsection hboth.1, List.filter_cons_of_neg hsection, List.filter_nil,
        List.append_nil]
      exact hsections
  · rw [keep_modifier]
    by_cases hmodifies : isModifier val = true
    · rw [if_pos hmodifies, List.filter_cons_of_pos hmodifies, List.filter_nil]
      simp
    · rw [if_neg hmodifies, List.filter_cons_of_neg hmodifies, List.filter_nil, List.append_nil]
      exact hmodifier

/-- A keyboard of another report ID is as it was. -/
theorem Keyboard.Holds.other {keyboard : Keyboard} {val : ReportVal} (h : keyboard.Holds stored)
    (hid : keyboard.reportId ≠ val.reportId) : keyboard.Holds (stored ++ [val]) := by
  rw [Keyboard.Holds, sectionsOf, modifierOf, keyFields_append_other fun hall ↦ hid hall.2.2.symm]
  exact h

/-- The slot a field goes to holds the fields before it. -/
theorem Slots.holds_claimed (h : Slots stored iface) {reportId : UInt8} {slot : Nat}
    (hclaims : Claims iface reportId slot) : (iface.keyboard slot).Holds stored := by
  rcases hclaims.counted with hlt | ⟨rfl, hnone⟩
  · exact h.holds slot hlt
  · obtain ⟨hnkro, hmodifier, -⟩ := h.empty _ hclaims.lt (Nat.le_refl _)
    have hfields : keyFields reportId stored = [] := by
      by_contra hsome
      obtain ⟨i, hi, hid⟩ := h.claimed hclaims.lt reportId hsome
      exact hnone i hi hid
    rw [Keyboard.Holds, hnkro, hmodifier, hclaims.hasId, sectionsOf, modifierOf, hfields]
    exact ⟨rfl, rfl⟩

/-- The slots that are counted other than the one of a field have other report IDs. -/
theorem Slots.other_id (h : Slots stored iface) {reportId : UInt8} {slot : Nat}
    (hclaims : Claims iface reportId slot) {i : Nat} (hi : i < iface.numKeyboards)
    (hne : i ≠ slot) :
    (iface.keyboard i).reportId ≠ reportId := by
  intro hid
  rcases hclaims.counted with hlt | ⟨-, hnone⟩
  · exact hne (h.distinct i hi slot hlt (hid.trans hclaims.hasId.symm))
  · exact hnone i hi hid

/-- A field that is kept renames no slot. -/
theorem Slots.keep_reportId (h : Slots stored iface) (val : ReportVal) {slot : Nat}
    (hslot : slot < maxKeyboards) (i : Nat) :
    ((iface.modifyKeyboard slot (Keyboard.keep val)).keyboard i).reportId =
      (iface.keyboard i).reportId := by
  rw [h.keyboard_modify hslot (Keyboard.keep val)]
  split_ifs
  · exact (Keyboard.keep_same val _).1
  · rfl

theorem Slots.keep_length (h : Slots stored iface) (val : ReportVal) (slot : Nat) :
    (iface.modifyKeyboard slot (Keyboard.keep val)).keyboards.length = maxKeyboards := by
  rw [Interface.modifyKeyboard, List.length_modify]
  exact h.length

/-- A slot that is counted keeps a field of its report ID. -/
theorem Slots.keep_counted (h : Slots stored iface) {val : ReportVal} {slot : Nat}
    (hclaims : Claims iface val.reportId slot) (hkey : IsKey val)
    (hdata : val.itemType ≠ .constant) (hlt : slot < iface.numKeyboards) :
    Slots (stored ++ [val]) (iface.modifyKeyboard slot (Keyboard.keep val)) := by
  have hmodify := h.keyboard_modify hclaims.lt (Keyboard.keep val)
  have hids := h.keep_reportId val hclaims.lt
  constructor
  · exact h.keep_length val slot
  · exact h.num_le
  · intro i hi
    have hfound := h.isFound i hi
    rw [hmodify]
    split_ifs
    · rw [(Keyboard.keep_same val _).2]
      exact hfound
    · exact hfound
  · intro i hi j hj hid
    rw [hids, hids] at hid
    exact h.distinct i hi j hj hid
  · intro hno i hi
    rw [hids]
    exact h.noIds hno i hi
  · intro i hi
    rw [hmodify]
    split_ifs with hsame
    · rw [hsame]
      exact (h.holds_claimed hclaims).keep hclaims.hasId hkey hdata
    · exact (h.holds i hi).other (h.other_id hclaims hi hsame)
  · intro i hi hnum
    rw [hmodify, if_neg (Nat.ne_of_gt (Nat.lt_of_lt_of_le hlt hnum))]
    exact h.empty i hi hnum
  · intro hroom reportId hsome
    by_cases hid : val.reportId = reportId
    · exact ⟨slot, hlt, by rw [hids, hclaims.hasId, hid]⟩
    · rw [keyFields_append_other fun hall ↦ hid hall.2.2] at hsome
      obtain ⟨i, hi, hid⟩ := h.claimed hroom reportId hsome
      exact ⟨i, hi, (hids i).trans hid⟩

/-- The next slot keeps the first field of a report ID and is counted from then on. -/
theorem Slots.keep_next (h : Slots stored iface) {val : ReportVal}
    (hclaims : Claims iface val.reportId iface.numKeyboards) (hkey : IsKey val)
    (hdata : val.itemType ≠ .constant)
    (hnone : ∀ i < iface.numKeyboards, (iface.keyboard i).reportId ≠ val.reportId) :
    Slots (stored ++ [val])
      { (iface.modifyKeyboard iface.numKeyboards (Keyboard.keep val)).modifyKeyboard
          iface.numKeyboards fun keyboard ↦ { keyboard with isFound := true } with
        numKeyboards := iface.numKeyboards + 1 } := by
  have hlength := h.keep_length val iface.numKeyboards
  have hfound : ∀ i, ((iface.modifyKeyboard iface.numKeyboards (Keyboard.keep val)).modifyKeyboard
      iface.numKeyboards fun keyboard ↦ { keyboard with isFound := true }).keyboard i =
      if i = iface.numKeyboards then
        { (iface.keyboard iface.numKeyboards).keep val with isFound := true }
      else iface.keyboard i := by
    intro i
    rw [Hid.keyboard_modify, hlength, h.keyboard_modify hclaims.lt (Keyboard.keep val)]
    simp only [hclaims.lt, and_true]
    split_ifs with hi
    · rw [hi]
    · rfl
  have hnum : ∀ i < iface.numKeyboards + 1, i ≠ iface.numKeyboards → i < iface.numKeyboards :=
    fun i hi hne ↦ Nat.lt_of_le_of_ne (Nat.le_of_lt_succ hi) hne
  have hids : ∀ i, (((iface.modifyKeyboard iface.numKeyboards (Keyboard.keep val)).modifyKeyboard
      iface.numKeyboards fun keyboard ↦ { keyboard with isFound := true }).keyboard i).reportId =
      (iface.keyboard i).reportId := by
    intro i
    rw [hfound]
    split_ifs with hi
    · rw [hi]
      exact (Keyboard.keep_same val _).1
    · rfl
  constructor
  · exact (List.length_modify ..).trans hlength
  · exact hclaims.lt
  · intro i hi
    have hwas := h.isFound i hi
    refine (congrArg Keyboard.isFound (hfound i)).trans ?_
    split_ifs with hne
    · rw [hne]
      exact (decide_eq_true (Nat.lt_succ_self _)).symm
    · rw [hwas]
      exact decide_eq_decide.2 ⟨Nat.lt_succ_of_lt, fun hlt ↦ hnum i hlt hne⟩
  · -- the report ID of the new keyboard is that of no other
    intro i hi j hj hid
    have hid' := ((hids i).symm.trans hid).trans (hids j)
    by_cases hi' : i = iface.numKeyboards
    · by_contra hne
      have hj' := hnum j hj fun hsame ↦ hne (hi'.trans hsame.symm)
      rw [hi', hclaims.hasId] at hid'
      exact hnone j hj' hid'.symm
    · by_cases hj' : j = iface.numKeyboards
      · rw [hj', hclaims.hasId] at hid'
        exact absurd hid' (hnone i (hnum i hi hi'))
      · exact h.distinct i (hnum i hi hi') j (hnum j hj hj') hid'
  · exact fun hno i hi ↦ (hids i).trans (h.noIds hno i hi)
  · intro i hi
    refine (congrArg (fun keyboard ↦ keyboard.Holds (stored ++ [val])) (hfound i)).mpr ?_
    split_ifs with hne
    · exact (h.holds_claimed hclaims).keep hclaims.hasId hkey hdata
    · exact (h.holds i (hnum i hi hne)).other (h.other_id hclaims (hnum i hi hne) hne)
  · intro i hi hle
    have hlt : iface.numKeyboards < i := hle
    have hempty := h.empty i hi (Nat.le_of_lt hlt)
    refine (congrArg (fun keyboard : Keyboard ↦ keyboard.nkro = [] ∧ keyboard.modifier = .zero ∧
      keyboard.isNkro = false) (hfound i)).mpr ?_
    rw [if_neg (Nat.ne_of_gt hlt)]
    exact hempty
  · -- a field of the report ID has its slot, and any other field had one before
    intro hroom reportId hsome
    by_cases hid : val.reportId = reportId
    · exact ⟨iface.numKeyboards, Nat.lt_succ_self _, (hids _).trans (hclaims.hasId.trans hid)⟩
    · rw [keyFields_append_other fun hall ↦ hid hall.2.2] at hsome
      obtain ⟨i, hi, hid⟩ := h.claimed hclaims.lt reportId hsome
      exact ⟨i, Nat.lt_succ_of_lt hi, (hids i).trans hid⟩

/-- The slot of a field keeps it and is counted from then on. -/
theorem Slots.keep (h : Slots stored iface) {val : ReportVal} {slot : Nat}
    (hclaims : Claims iface val.reportId slot) (hkey : IsKey val)
    (hdata : val.itemType ≠ .constant) :
    Slots (stored ++ [val])
      (if ((iface.modifyKeyboard slot (Keyboard.keep val)).keyboard slot).isFound then
        iface.modifyKeyboard slot (Keyboard.keep val)
      else
        { (iface.modifyKeyboard slot (Keyboard.keep val)).modifyKeyboard slot fun keyboard ↦
            { keyboard with isFound := true } with
          numKeyboards := (iface.modifyKeyboard slot (Keyboard.keep val)).numKeyboards + 1 }) := by
  have hslot : (iface.modifyKeyboard slot (Keyboard.keep val)).keyboard slot =
      (iface.keyboard slot).keep val := by
    rw [h.keyboard_modify hclaims.lt (Keyboard.keep val), if_pos rfl]
  rw [hslot, (Keyboard.keep_same val _).2, h.isFound slot hclaims.lt]
  rcases hclaims.counted with hlt | ⟨rfl, hnone⟩
  · rw [if_pos (decide_eq_true hlt)]
    exact h.keep_counted hclaims hkey hdata hlt
  · rw [if_neg (by simp)]
    exact h.keep_next hclaims hkey hdata hnone

/-- The slots are kept right when an element is stored. -/
theorem slots_keptByStoring : KeptByStoring Slots := by
  intro stored iface val uses h huses hplain
  have h' := h.withUses huses
  by_cases hkey : IsKey val
  · rw [extractData_key hkey, handleKeyboardDescriptorValues]
    have hreceiver := h'.of_same (SameSlots.setReceiver _ val.reportId .keyboard)
    rcases hreceiver.getOrAddKeyboard_slot hplain with
      ⟨hfull, hnum, hnone⟩ | ⟨slot, iface', hslot, hslots, hclaims⟩
    · rw [hfull]
      have hsame := hreceiver.of_same (SameSlots.setReceiver _ val.reportId .none)
      refine { hsame with holds := ?_, claimed := ?_ }
      · intro i hi
        exact (hsame.holds i hi).other (hnone i hi)
      · intro hroom
        exact absurd hnum (Nat.ne_of_lt hroom)
    · rw [hslot]
      dsimp only
      by_cases hconstant : val.itemType = .constant
      · rw [if_pos hconstant]
        exact hslots.append_other fun hboth ↦ hboth.2 hconstant
      · rw [if_neg hconstant]
        exact hslots.keep hclaims hkey hconstant
  · exact (h'.append_other fun hboth ↦ hkey hboth.1).of_same (extractData_other hkey _)

end

end DeskhopPlus.Hid
