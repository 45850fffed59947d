import DeskhopPlus.Keyboard.Hotkey
import DeskhopPlus.Library.Slots

/-!
# The report for the computer

What a computer gets to see of the keys that are held. The reports of all keyboards of a board are
merged into one of six slots, the keys of a latched chord are taken out, the keys of the other
board's keyboards are merged in, and last every key and modifier is replaced by its image under the
keymap of the output. A modifier may become a key and a key a modifier. `os_bound_exact` says that
only images of keys that are held come out, and all of them while there is room.
-/

namespace DeskhopPlus.Keyboard

open Slots

/-! ## The keys that are held -/

/-- `KEYS_IN_USB_REPORT`. -/
def keysInUsbReport : Nat := 6

/-- `hid_keyboard_report_t`. -/
structure Report where
  modifier : UInt8
  reserved : UInt8
  keycode : List UInt8
  keycode_length : keycode.length = keysInUsbReport
  deriving DecidableEq

/-- `dh_hotkey_latch_t`. -/
structure Latch where
  modifier : UInt8
  keys : List UInt8
  keys_length : keys.length = hotkeyKeyCapacity

namespace Report

/-- A report of no keys. -/
def empty : Report := ⟨0, 0, List.replicate 6 0, rfl⟩

/-- `add_keys`. -/
def addKeys (dest src : Report) : Report where
  modifier := dest.modifier
  reserved := dest.reserved
  keycode := src.keycode.foldl (put 0) dest.keycode
  keycode_length := by rw [putAll_length, dest.keycode_length]

/-- The modifiers and the keys of another report are added. -/
def merge (dest src : Report) : Report :=
  { dest with modifier := dest.modifier ||| src.modifier }.addKeys src

end Report

/-- `combine_held_local_kbd_states`. -/
def combineHeldLocal (locals : List Report) : Report := locals.foldl Report.merge .empty

/-- The keys of a report that are not latched. -/
def keptKeys (latch : Latch) (keycode : List UInt8) : List UInt8 :=
  keycode.filter fun key ↦ key != 0 && !containsKey latch.keys key

/-- `dh_hotkey_latch_mask`: the keys that are not latched, packed at the front. -/
def latchMask (latch : Latch) (report : Report) : Report where
  modifier := report.modifier &&& ~~~latch.modifier
  reserved := report.reserved
  keycode := keptKeys latch report.keycode ++
    List.replicate (keysInUsbReport - (keptKeys latch report.keycode).length) 0
  keycode_length := by
    have hle := List.length_filter_le
      (fun key ↦ key != 0 && !containsKey latch.keys key) report.keycode
    rw [report.keycode_length] at hle
    rw [List.length_append, List.length_replicate]
    simp only [keptKeys]
    omega

/-- `combine_local_kbd_states`. -/
def combineLocal (locals : List Report) (latch : Latch) : Report :=
  latchMask latch (combineHeldLocal locals)

/-- `combine_kbd_states`. -/
def combineKbdStates (locals : List Report) (latch : Latch) (remote : Report) : Report :=
  (combineLocal locals latch).merge remote

/-! ## The keymap -/

/-- `DH_CONFIG_TEXT_OVERRIDE_CAPACITY`. -/
def overrideCapacity : Nat := 32

/-- `DH_CONFIG_TEXT_PASSTHROUGH_CAPACITY`. -/
def passthroughCapacity : Nat := 16

/-- `dh_key_override_t`, its `from` and `to`. -/
structure KeyOverride where
  source : UInt8
  target : UInt8
  deriving DecidableEq, Repr

/-- `dh_keymap_profile_t`. -/
structure KeymapProfile where
  overrides : List KeyOverride
  overrideCount : UInt8
  passthrough : List UInt8
  passthroughCount : UInt8
  overrides_length : overrides.length = overrideCapacity
  passthrough_length : passthrough.length = passthroughCapacity

namespace KeymapProfile

/-- The entries in use. -/
def activeOverrides (profile : KeymapProfile) : List KeyOverride :=
  profile.overrides.take (min profile.overrideCount.toNat overrideCapacity)

/-- The keys that pass unchanged. -/
def activePassthrough (profile : KeymapProfile) : List UInt8 :=
  profile.passthrough.take (min profile.passthroughCount.toNat passthroughCapacity)

end KeymapProfile

/-- The swap of `map_usage`. -/
def swapped (usage : UInt8) (swapCtrlGui : Bool) : UInt8 :=
  if swapCtrlGui = false then usage
  else if usage = 0xe0 then 0xe3
  else if usage = 0xe3 then 0xe0
  else if usage = 0xe4 then 0xe7
  else if usage = 0xe7 then 0xe4
  else usage

/-- `map_usage`. -/
def mapUsage (profile : Option KeymapProfile) (swapCtrlGui : Bool) (usage : UInt8) : UInt8 :=
  match profile with
  | none => swapped usage swapCtrlGui
  | some profile =>
      if profile.activePassthrough.contains usage then usage
      else
        match profile.activeOverrides.find? (·.source == usage) with
        | some override => override.target
        | none => swapped usage swapCtrlGui

/-- A usage of the modifiers. -/
def IsModifier (usage : UInt8) : Prop := 0xe0 ≤ usage ∧ usage ≤ 0xe7

instance (usage : UInt8) : Decidable (IsModifier usage) := inferInstanceAs (Decidable (_ ∧ _))

/-- `add_usage`. -/
def addUsage (emitted : Report) (usage : UInt8) : Report :=
  if IsModifier usage then { emitted with modifier := emitted.modifier ||| 1 <<< (usage - 0xe0) }
  else if usage = 0 then emitted
  else if 0x03 < usage ∧ usage ∈ emitted.keycode then emitted
  else
    { emitted with
      keycode := fill 0 usage emitted.keycode
      keycode_length := by rw [fill_length, emitted.keycode_length] }

/-- `dh_keyboard_provenance`. -/
inductive Provenance where
  | physical | synthesized
  deriving DecidableEq, Repr

/-- The modifier of a bit is held. -/
def holdsBit (modifier : UInt8) (bit : Nat) : Bool := modifier.toBitVec.getLsbD bit

/-- `dh_keyboard_output_prepare`. -/
def outputPrepare (canonical : Report) (provenance : Provenance) (profile : Option KeymapProfile)
    (swapCtrlGui : Bool) : Report :=
  if provenance ≠ .physical then canonical
  else
    let emitted := (List.range 8).foldl
      (fun emitted bit ↦
        if holdsBit canonical.modifier bit then
          addUsage emitted (mapUsage profile swapCtrlGui (0xe0 + UInt8.ofNat bit))
        else emitted)
      { Report.empty with reserved := canonical.reserved }
    canonical.keycode.foldl
      (fun emitted key ↦ addUsage emitted (mapUsage profile swapCtrlGui key)) emitted

/-! ## Merging -/

theorem holdsBit_or (first second : UInt8) (bit : Nat) :
    holdsBit (first ||| second) bit = (holdsBit first bit || holdsBit second bit) := by
  simp [holdsBit]

theorem holdsBit_and_not (modifier latched : UInt8) {bit : Nat} (h : bit < 8) :
    holdsBit (modifier &&& ~~~latched) bit = (holdsBit modifier bit && !holdsBit latched bit) := by
  simp [holdsBit, h]

theorem holdsBit_zero (bit : Nat) : holdsBit 0 bit = false := by
  simp [holdsBit]

/-- The bit of a modifier. -/
theorem holdsBit_shift {usage : UInt8} (h : IsModifier usage) {bit : Nat} (hbit : bit < 8) :
    holdsBit (1 <<< (usage - 0xe0)) bit = decide (usage = 0xe0 + UInt8.ofNat bit) := by
  obtain ⟨n, hn, rfl⟩ : ∃ n < 8, usage = 0xe0 + UInt8.ofNat n := by
    obtain ⟨hlow, hhigh⟩ := h
    rw [UInt8.le_iff_toNat_le] at hlow hhigh
    have hlow' : 224 ≤ usage.toNat := hlow
    have hhigh' : usage.toNat ≤ 231 := hhigh
    refine ⟨usage.toNat - 224, by omega, UInt8.toNat_inj.1 ?_⟩
    rw [UInt8.toNat_add, UInt8.toNat_ofNat']
    show _ = (224 + _) % 256
    omega
  interval_cases n <;> interval_cases bit <;> rfl

/-- The keys a report holds. -/
def Report.held (report : Report) : List UInt8 := taken 0 report.keycode

theorem mem_held {report : Report} {key : UInt8} :
    key ∈ report.held ↔ key ∈ report.keycode ∧ key ≠ 0 := mem_taken

section Merge

variable {base : Report} {reports : List Report} {key : UInt8}

theorem holdsBit_merged (reports : List Report) (base : Report) (bit : Nat) :
    holdsBit (reports.foldl Report.merge base).modifier bit =
      (holdsBit base.modifier bit || reports.any fun report ↦ holdsBit report.modifier bit) := by
  induction reports generalizing base with
  | nil => simp
  | cons report rest ih =>
      rw [List.foldl_cons, ih, List.any_cons, ← Bool.or_assoc]
      congr 1
      exact holdsBit_or ..

theorem nodup_merged (h : base.held.Nodup) (reports : List Report) :
    (reports.foldl Report.merge base).held.Nodup := by
  induction reports generalizing base with
  | nil => exact h
  | cons report rest ih => exact ih (nodup_putAll h _)

theorem mem_merged (h : key ∈ (reports.foldl Report.merge base).held) :
    key ∈ base.held ∨ ∃ report ∈ reports, key ∈ report.keycode := by
  induction reports generalizing base with
  | nil => exact .inl h
  | cons report rest ih =>
      rcases ih h with hmerged | ⟨other, hother, hkey⟩
      · rcases mem_putAll hmerged with hbase | hreport
        · exact .inl hbase
        · exact .inr ⟨report, List.mem_cons_self, hreport⟩
      · exact .inr ⟨other, List.mem_cons_of_mem _ hother, hkey⟩

theorem held_subset_merged (reports : List Report) (base : Report) :
    base.held ⊆ (reports.foldl Report.merge base).held := by
  induction reports generalizing base with
  | nil => exact List.Subset.refl _
  | cons report rest ih =>
      intro key hkey
      exact ih (base.merge report) (taken_subset_putAll report.keycode hkey)

/-- No key is dropped while all keys together fit in a report. -/
theorem merged_holds {all : Finset UInt8} (hroom : all.card ≤ keysInUsbReport)
    (hbase : ∀ key ∈ base.held, key ∈ all)
    (hall : ∀ report ∈ reports, ∀ key ∈ report.held, key ∈ all) (hnodup : base.held.Nodup)
    {report : Report} (hreport : report ∈ reports) (hkey : key ∈ report.held) :
    key ∈ (reports.foldl Report.merge base).held := by
  induction reports generalizing base with
  | nil => cases hreport
  | cons first rest ih =>
      have hrest : ∀ report ∈ rest, ∀ key ∈ report.held, key ∈ all :=
        fun report hmem ↦ hall report (List.mem_cons_of_mem _ hmem)
      rw [List.foldl_cons]
      rcases List.mem_cons.1 hreport with rfl | hreport
      · refine held_subset_merged rest _ ?_
        have hvalues : ∀ other ∈ report.keycode, other ≠ 0 → other ∈ all :=
          fun other hmem hnone ↦ hall report List.mem_cons_self other (mem_held.2 ⟨hmem, hnone⟩)
        obtain ⟨hmem, hnone⟩ := mem_held.1 hkey
        exact mem_taken_putAll (by rw [base.keycode_length]; exact hroom) hbase hvalues hnodup hmem
          hnone
      · refine ih ?_ hrest (nodup_putAll hnodup _) hreport
        intro other hother
        rcases mem_putAll hother with hold | hnew
        · exact hbase other hold
        · exact hall first List.mem_cons_self other (mem_held.2 ⟨hnew, (mem_taken.1 hother).2⟩)

end Merge

theorem held_latchMask (latch : Latch) (report : Report) :
    (latchMask latch report).held = report.held.filter fun key ↦ !containsKey latch.keys key := by
  simp only [Report.held, latchMask, keptKeys, taken, List.filter_append, List.filter_filter,
    List.filter_replicate]
  simp only [ne_eq, not_true_eq_false, decide_false, Bool.false_eq_true, if_false, List.append_nil]
  congr 1
  funext key
  by_cases hkey : key = 0 <;> simp [hkey]

/-! ## The keys that pass -/

/-- The modifier of a bit is held locally and not latched, or held remotely. -/
def passesBit (locals : List Report) (latch : Latch) (remote : Report) (bit : Nat) : Bool :=
  (locals.any fun report ↦ holdsBit report.modifier bit) && !holdsBit latch.modifier bit ||
    holdsBit remote.modifier bit

/-- The key is held locally and not latched, or held remotely. -/
def PassesKey (locals : List Report) (latch : Latch) (remote : Report) (key : UInt8) : Prop :=
  key ≠ 0 ∧ ((∃ report ∈ locals, key ∈ report.keycode) ∧ key ∉ latch.keys ∨ key ∈ remote.keycode)

/-- The usage of a modifier or a key that passes. -/
def Passes (locals : List Report) (latch : Latch) (remote : Report) (usage : UInt8) : Prop :=
  (∃ bit < 8, passesBit locals latch remote bit = true ∧ usage = 0xe0 + UInt8.ofNat bit) ∨
    PassesKey locals latch remote usage

/-- The keys held across all keyboards. -/
def keysHeld (locals : List Report) (remote : Report) : Finset UInt8 :=
  ((locals ++ [remote]).flatMap Report.held).toFinset

section Canonical

variable {locals : List Report} {latch : Latch} {remote : Report}

theorem combineKbdStates_eq :
    combineKbdStates locals latch remote =
      [remote].foldl Report.merge (latchMask latch (locals.foldl Report.merge .empty)) := rfl

theorem holdsBit_combine {bit : Nat} (hbit : bit < 8) :
    holdsBit (combineKbdStates locals latch remote).modifier bit =
      passesBit locals latch remote bit := by
  rw [combineKbdStates_eq, holdsBit_merged, passesBit, latchMask, holdsBit_and_not _ _ hbit,
    holdsBit_merged]
  simp [Report.empty, holdsBit_zero]

theorem held_empty : Report.empty.held = [] := rfl

theorem nodup_combine : (combineKbdStates locals latch remote).held.Nodup := by
  rw [combineKbdStates_eq]
  refine nodup_merged ?_ _
  rw [held_latchMask]
  exact (nodup_merged (by rw [held_empty]; exact List.nodup_nil) locals).filter _

theorem not_containsKey {keys : List UInt8} {key : UInt8} (hkey : key ≠ 0) :
    (!containsKey keys key) = true ↔ key ∉ keys := by
  simp [containsKey, hkey]

theorem passes_of_combine {key : UInt8} (h : key ∈ (combineKbdStates locals latch remote).held) :
    PassesKey locals latch remote key := by
  have hkey := (mem_held.1 h).2
  rw [combineKbdStates_eq] at h
  refine ⟨hkey, ?_⟩
  rcases mem_merged h with hmasked | ⟨report, hreport, hremote⟩
  · rw [held_latchMask, List.mem_filter, not_containsKey hkey] at hmasked
    rcases mem_merged hmasked.1 with hempty | hlocal
    · rw [held_empty] at hempty
      cases hempty
    · exact .inl ⟨hlocal, hmasked.2⟩
  · rw [List.mem_singleton.1 hreport] at hremote
    exact .inr hremote

/-- While all keys fit in a report, every key that passes is in it. -/
theorem combine_holds (hroom : (keysHeld locals remote).card ≤ keysInUsbReport) {key : UInt8}
    (h : PassesKey locals latch remote key) :
    key ∈ (combineKbdStates locals latch remote).held := by
  obtain ⟨hkey, hheld⟩ := h
  have hall : ∀ report ∈ locals ++ [remote], ∀ key ∈ report.held, key ∈ keysHeld locals remote := by
    intro report hreport key hmem
    exact List.mem_toFinset.2 (List.mem_flatMap.2 ⟨report, hreport, hmem⟩)
  have hlocals : ∀ report ∈ locals, ∀ key ∈ report.held, key ∈ keysHeld locals remote :=
    fun report hreport ↦ hall report (List.mem_append_left _ hreport)
  have hnone : ∀ key ∈ Report.empty.held, key ∈ keysHeld locals remote := by
    rw [held_empty]
    simp
  have hfresh : Report.empty.held.Nodup := by
    rw [held_empty]
    exact List.nodup_nil
  rw [combineKbdStates_eq]
  rcases hheld with ⟨⟨report, hreport, hmem⟩, hfree⟩ | hremote
  · refine held_subset_merged _ _ ?_
    rw [held_latchMask, List.mem_filter, not_containsKey hkey]
    exact ⟨merged_holds hroom hnone hlocals hfresh hreport (mem_held.2 ⟨hmem, hkey⟩), hfree⟩
  · refine merged_holds hroom ?_ (fun report hreport ↦
      hall report (List.mem_append_right _ hreport))
      ?_ (List.mem_singleton_self remote) (mem_held.2 ⟨hremote, hkey⟩)
    · intro other hother
      rw [held_latchMask, List.mem_filter] at hother
      rcases mem_merged hother.1 with hempty | ⟨report, hreport, hmem⟩
      · exact hnone other hempty
      · exact hlocals report hreport other (mem_held.2 ⟨hmem, (mem_held.1 hother.1).2⟩)
    · rw [held_latchMask]
      exact (nodup_merged hfresh locals).filter _

/-- The keys of the merged report are keys held across all keyboards. -/
theorem length_combine_le :
    (combineKbdStates locals latch remote).held.length ≤ (keysHeld locals remote).card := by
  rw [← List.toFinset_card_of_nodup nodup_combine]
  refine Finset.card_le_card fun key hkey ↦ ?_
  obtain ⟨hnone, ⟨⟨report, hreport, hmem⟩, -⟩ | hremote⟩ :=
    passes_of_combine (List.mem_toFinset.1 hkey)
  · exact List.mem_toFinset.2 (List.mem_flatMap.2
      ⟨report, List.mem_append_left _ hreport, mem_held.2 ⟨hmem, hnone⟩⟩)
  · exact List.mem_toFinset.2 (List.mem_flatMap.2
      ⟨remote, List.mem_append_right _ (List.mem_singleton_self remote),
        mem_held.2 ⟨hremote, hnone⟩⟩)

end Canonical

/-! ## Emitting images -/

section Emit

variable {emitted : Report} {usages : List UInt8}

/-- What an image adds. -/
theorem addUsage_cases (emitted : Report) (usage : UInt8) :
    (IsModifier usage ∧ (addUsage emitted usage).keycode = emitted.keycode ∧
      (addUsage emitted usage).modifier = emitted.modifier ||| 1 <<< (usage - 0xe0)) ∨
    (¬ IsModifier usage ∧ (addUsage emitted usage).modifier = emitted.modifier ∧
      ((usage = 0 ∨ 0x03 < usage ∧ usage ∈ emitted.keycode) ∧
          (addUsage emitted usage).keycode = emitted.keycode ∨
        usage ≠ 0 ∧ (0x03 < usage → usage ∉ emitted.keycode) ∧
          (addUsage emitted usage).keycode = fill 0 usage emitted.keycode)) := by
  rw [addUsage]
  split_ifs with hmodifier hnone hheld
  · exact .inl ⟨hmodifier, rfl, rfl⟩
  · exact .inr ⟨hmodifier, rfl, .inl ⟨.inl hnone, rfl⟩⟩
  · exact .inr ⟨hmodifier, rfl, .inl ⟨.inr hheld, rfl⟩⟩
  · exact .inr ⟨hmodifier, rfl, .inr ⟨hnone, fun hlow hmem ↦ hheld ⟨hlow, hmem⟩, rfl⟩⟩

/-- The keys of a report other than the error usages. -/
def plainKeys (report : Report) : List UInt8 := report.held.filter (0x03 < ·)

theorem nodup_addUsage (h : (plainKeys emitted).Nodup) (usage : UInt8) :
    (plainKeys (addUsage emitted usage)).Nodup := by
  rw [plainKeys, Report.held] at h ⊢
  rcases addUsage_cases emitted usage with ⟨-, hkeys, -⟩ | ⟨-, -, ⟨-, hkeys⟩ | ⟨hnone, hnew, hkeys⟩⟩
  · rwa [hkeys]
  · rwa [hkeys]
  · rw [hkeys]
    by_cases hroom : 0 ∈ emitted.keycode
    · rw [((taken_fill hroom hnone).filter _).nodup_iff, List.filter_cons]
      split_ifs with hplain
      · refine List.nodup_cons.2 ⟨fun hmem ↦ ?_, h⟩
        exact hnew (by simpa using hplain) (mem_taken.1 (List.mem_filter.1 hmem).1).1
      · exact h
    · rwa [fill_full hroom]

theorem nodup_emitAll (h : (plainKeys emitted).Nodup) (usages : List UInt8) :
    (plainKeys (usages.foldl addUsage emitted)).Nodup := by
  induction usages generalizing emitted with
  | nil => exact h
  | cons usage rest ih => exact ih (nodup_addUsage h usage)

/-- A key that comes out was there or is an image. -/
theorem mem_emitAll {key : UInt8} (h : key ∈ (usages.foldl addUsage emitted).held) :
    key ∈ emitted.held ∨ key ∈ usages := by
  induction usages generalizing emitted with
  | nil => exact .inl h
  | cons usage rest ih =>
      rcases ih h with hadded | hrest
      · rw [Report.held] at hadded
        rcases addUsage_cases emitted usage with ⟨-, hkeys, -⟩ | ⟨-, -, ⟨-, hkeys⟩ | ⟨-, -, hkeys⟩⟩
        · exact .inl (by rwa [hkeys] at hadded)
        · exact .inl (by rwa [hkeys] at hadded)
        · rw [hkeys] at hadded
          rcases mem_fill hadded with hold | rfl
          · exact .inl hold
          · exact .inr List.mem_cons_self
      · exact .inr (List.mem_cons_of_mem _ hrest)

/-- The modifiers that come out are those that were there and the images. -/
theorem holdsBit_emitAll (usages : List UInt8) (emitted : Report) {bit : Nat} (hbit : bit < 8) :
    holdsBit (usages.foldl addUsage emitted).modifier bit = true ↔
      holdsBit emitted.modifier bit = true ∨ 0xe0 + UInt8.ofNat bit ∈ usages := by
  have hmodifier : IsModifier (0xe0 + UInt8.ofNat bit) := by
    interval_cases bit <;> decide
  induction usages generalizing emitted with
  | nil => simp
  | cons usage rest ih =>
      refine (ih (addUsage emitted usage)).trans ?_
      rw [List.mem_cons]
      rcases addUsage_cases emitted usage with ⟨husage, -, hbits⟩ | ⟨husage, hbits, -⟩
      · rw [hbits, holdsBit_or, holdsBit_shift husage hbit, Bool.or_eq_true, decide_eq_true_eq,
          or_assoc, @eq_comm _ usage]
      · have hother : 0xe0 + UInt8.ofNat bit ≠ usage := fun heq ↦ husage (heq ▸ hmodifier)
        rw [hbits]
        simp [hother]

/-- The images that go into a slot. -/
def slotted (usages : List UInt8) : List UInt8 :=
  usages.filter fun usage ↦ !IsModifier usage && usage != 0

theorem held_subset_addUsage (emitted : Report) (usage : UInt8) :
    emitted.held ⊆ (addUsage emitted usage).held := by
  rw [Report.held, Report.held]
  rcases addUsage_cases emitted usage with ⟨-, hkeys, -⟩ | ⟨-, -, ⟨-, hkeys⟩ | ⟨hnone, -, hkeys⟩⟩
  · rw [hkeys]
    exact List.Subset.refl _
  · rw [hkeys]
    exact List.Subset.refl _
  · rw [hkeys]
    exact taken_subset_fill hnone

theorem held_subset_emitAll (usages : List UInt8) (emitted : Report) :
    emitted.held ⊆ (usages.foldl addUsage emitted).held := by
  induction usages generalizing emitted with
  | nil => exact List.Subset.refl _
  | cons usage rest ih => exact List.Subset.trans (held_subset_addUsage emitted usage) (ih _)

/-- While there is a slot for every image that needs one, every such image comes out. -/
theorem emitAll_holds (hroom : emitted.held.length + (slotted usages).length ≤ keysInUsbReport)
    {usage : UInt8} (husage : usage ∈ slotted usages) :
    usage ∈ (usages.foldl addUsage emitted).held := by
  induction usages generalizing emitted with
  | nil => cases husage
  | cons first rest ih =>
      rw [List.foldl_cons]
      rw [slotted, List.filter_cons] at hroom husage
      split_ifs at hroom husage with hslot
      · have hcases : ¬ IsModifier first ∧ first ≠ 0 := by simpa using hslot
        rw [List.length_cons] at hroom
        have hlength : (addUsage emitted first).held.length ≤ emitted.held.length + 1 ∧
            first ∈ (addUsage emitted first).held := by
          rcases addUsage_cases emitted first with ⟨hmodifier, -, -⟩ |
            ⟨-, -, ⟨hskip, hkeys⟩ | ⟨hnone, -, hkeys⟩⟩
          · exact absurd hmodifier hcases.1
          · have hheld := (hskip.resolve_left hcases.2).2
            rw [Report.held, hkeys]
            exact ⟨Nat.le_succ _, mem_taken.2 ⟨hheld, hcases.2⟩⟩
          · have hfree : 0 ∈ emitted.keycode := room_of_length (by
              rw [emitted.keycode_length]
              rw [Report.held] at hroom
              omega)
            have hperm := taken_fill hfree hnone
            rw [Report.held, hkeys]
            exact ⟨by rw [hperm.length_eq, List.length_cons]; exact Nat.le_refl _,
              hperm.mem_iff.2 List.mem_cons_self⟩
        rcases List.mem_cons.1 husage with rfl | hrest
        · exact held_subset_emitAll rest _ hlength.2
        · exact ih (by rw [slotted]; omega) hrest
      · -- the image needs no slot
        have hsame : (addUsage emitted first).held = emitted.held := by
          rw [Report.held, Report.held]
          rcases addUsage_cases emitted first with ⟨-, hkeys, -⟩ |
            ⟨hmodifier, -, ⟨-, hkeys⟩ | ⟨hnone, -, -⟩⟩
          · rw [hkeys]
          · rw [hkeys]
          · exact absurd (by simp [hmodifier, hnone]) hslot
        exact ih (by rw [hsame, slotted]; exact hroom) husage

end Emit

/-! ## The whole way -/

/-- The images of the modifiers and keys of a report, in the order they are added. -/
def images (canonical : Report) (profile : Option KeymapProfile) (swapCtrlGui : Bool) :
    List UInt8 :=
  (((List.range 8).filter fun bit ↦ holdsBit canonical.modifier bit).map fun bit ↦
      mapUsage profile swapCtrlGui (0xe0 + UInt8.ofNat bit)) ++
    canonical.keycode.map (mapUsage profile swapCtrlGui)

theorem outputPrepare_eq (canonical : Report) (profile : Option KeymapProfile)
    (swapCtrlGui : Bool) :
    outputPrepare canonical .physical profile swapCtrlGui =
      (images canonical profile swapCtrlGui).foldl addUsage
        { Report.empty with reserved := canonical.reserved } := by
  rw [outputPrepare, if_neg (by simp), images, List.foldl_append, List.foldl_map, List.foldl_map,
    List.foldl_filter]

variable {profile : Option KeymapProfile} {swapCtrlGui : Bool}

/-- An empty slot has no image. -/
theorem mapUsage_zero
    (hsources : ∀ p, profile = some p → ∀ entry ∈ p.activeOverrides, entry.source ≠ 0) :
    mapUsage profile swapCtrlGui 0 = 0 := by
  have hswap : swapped 0 swapCtrlGui = 0 := by
    cases swapCtrlGui <;> rfl
  rcases profile with - | p
  · exact hswap
  · have hfind : p.activeOverrides.find? (·.source == 0) = none := by
      rw [List.find?_eq_none]
      intro entry hentry
      simpa using hsources p rfl entry hentry
    simp only [mapUsage, hfind, hswap, ite_self]

/-- What the computer gets to see of some keyboards. -/
structure EmitsImages (locals : List Report) (latch : Latch) (remote : Report)
    (profile : Option KeymapProfile) (swapCtrlGui : Bool) (emitted : Report) : Prop where
  once : ∀ key, 0x03 < key → emitted.keycode.count key ≤ 1
  keys : ∀ key ∈ emitted.keycode, key ≠ 0 →
    ∃ usage, Passes locals latch remote usage ∧ mapUsage profile swapCtrlGui usage = key
  modifiers : ∀ bit < 8, holdsBit emitted.modifier bit = true →
    ∃ usage, Passes locals latch remote usage ∧
      mapUsage profile swapCtrlGui usage = 0xe0 + UInt8.ofNat bit
  all : (keysHeld locals remote).card + (slotted (((List.range 8).filter
        (passesBit locals latch remote)).map fun bit ↦
          mapUsage profile swapCtrlGui (0xe0 + UInt8.ofNat bit))).length ≤ keysInUsbReport →
    ∀ usage, Passes locals latch remote usage →
      (∀ bit < 8, mapUsage profile swapCtrlGui usage = 0xe0 + UInt8.ofNat bit →
        holdsBit emitted.modifier bit = true) ∧
      (¬ IsModifier (mapUsage profile swapCtrlGui usage) → mapUsage profile swapCtrlGui usage ≠ 0 →
        mapUsage profile swapCtrlGui usage ∈ emitted.keycode)

section Whole

variable {locals : List Report} {latch : Latch} {remote : Report}

theorem mem_images (usage : UInt8) (husage : usage ≠ 0)
    (hzero : mapUsage profile swapCtrlGui 0 = 0) :
    usage ∈ images (combineKbdStates locals latch remote) profile swapCtrlGui ↔
      (∃ bit < 8, passesBit locals latch remote bit = true ∧
        mapUsage profile swapCtrlGui (0xe0 + UInt8.ofNat bit) = usage) ∨
      ∃ key ∈ (combineKbdStates locals latch remote).held,
        mapUsage profile swapCtrlGui key = usage := by
  rw [images, List.mem_append, List.mem_map, List.mem_map]
  refine or_congr ?_ ?_
  · constructor
    · rintro ⟨bit, hbit, heq⟩
      obtain ⟨hrange, hheld⟩ := List.mem_filter.1 hbit
      have hlt := List.mem_range.1 hrange
      rw [holdsBit_combine hlt] at hheld
      exact ⟨bit, hlt, hheld, heq⟩
    · rintro ⟨bit, hlt, hheld, heq⟩
      rw [← holdsBit_combine hlt] at hheld
      exact ⟨bit, List.mem_filter.2 ⟨List.mem_range.2 hlt, hheld⟩, heq⟩
  · constructor
    · rintro ⟨key, hkey, heq⟩
      refine ⟨key, mem_held.2 ⟨hkey, ?_⟩, heq⟩
      rintro rfl
      exact husage (heq.symm.trans hzero)
    · rintro ⟨key, hkey, heq⟩
      exact ⟨key, (mem_held.1 hkey).1, heq⟩

/-- Every image is one of a usage that passes. -/
theorem passes_of_images {usage : UInt8} (husage : usage ≠ 0)
    (hzero : mapUsage profile swapCtrlGui 0 = 0)
    (h : usage ∈ images (combineKbdStates locals latch remote) profile swapCtrlGui) :
    ∃ origin, Passes locals latch remote origin ∧ mapUsage profile swapCtrlGui origin = usage := by
  rcases (mem_images usage husage hzero).1 h with ⟨bit, hlt, hpasses, heq⟩ | ⟨key, hkey, heq⟩
  · exact ⟨_, .inl ⟨bit, hlt, hpasses, rfl⟩, heq⟩
  · exact ⟨key, .inr (passes_of_combine hkey), heq⟩

/-- The images that go into a slot are no more than the keys held and the modifiers remapped. -/
theorem slotted_images_le (hzero : mapUsage profile swapCtrlGui 0 = 0) :
    (slotted (images (combineKbdStates locals latch remote) profile swapCtrlGui)).length ≤
      (keysHeld locals remote).card + (slotted (((List.range 8).filter
        (passesBit locals latch remote)).map fun bit ↦
          mapUsage profile swapCtrlGui (0xe0 + UInt8.ofNat bit))).length := by
  have hbits : (List.range 8).filter
      (fun bit ↦ holdsBit (combineKbdStates locals latch remote).modifier bit) =
        (List.range 8).filter (passesBit locals latch remote) :=
    List.filter_congr fun bit hbit ↦ holdsBit_combine (List.mem_range.1 hbit)
  have hkeys : (slotted ((combineKbdStates locals latch remote).keycode.map
      (mapUsage profile swapCtrlGui))).length ≤
        (combineKbdStates locals latch remote).held.length := by
    rw [slotted, List.filter_map, List.length_map, Report.held, taken]
    refine (List.monotone_filter_right _ fun key hkey ↦ ?_).length_le
    simp only [Function.comp_apply, Bool.and_eq_true, bne_iff_ne] at hkey
    refine decide_eq_true fun hnone ↦ hkey.2 ?_
    rw [hnone, hzero]
  have hle := hkeys.trans (@length_combine_le locals latch remote)
  rw [images, hbits, slotted, List.filter_append, List.length_append]
  rw [slotted] at hle ⊢
  omega

/-- Of all keyboards the computer gets to see, error usages apart, no key twice and only images of
keys and modifiers that are held locally and not latched or held remotely; and while the keys held
and the modifiers that become keys fit in a report, every such image. -/
theorem os_bound_exact (locals : List Report) (latch : Latch) (remote : Report)
    (profile : Option KeymapProfile) (swapCtrlGui : Bool)
    (hsources : ∀ p, profile = some p → ∀ entry ∈ p.activeOverrides, entry.source ≠ 0) :
    EmitsImages locals latch remote profile swapCtrlGui
      (outputPrepare (combineKbdStates locals latch remote) .physical profile swapCtrlGui) := by
  have hzero : mapUsage profile swapCtrlGui 0 = 0 := mapUsage_zero hsources
  rw [outputPrepare_eq]
  constructor
  · intro key hkey
    have hnone : key ≠ 0 := by
      rintro rfl
      exact absurd hkey (by decide)
    -- a plain key is emitted into one slot only
    have hnodup := @nodup_emitAll { Report.empty with
      reserved := (combineKbdStates locals latch remote).reserved } List.nodup_nil
      (images (combineKbdStates locals latch remote) profile swapCtrlGui)
    have hcount := List.nodup_iff_count_le_one.1 hnodup key
    rw [plainKeys, Report.held, taken, List.filter_filter,
      List.count_filter (by simp [hkey, hnone])] at hcount
    exact hcount
  · intro key hkey hnone
    rcases mem_emitAll (mem_held.2 ⟨hkey, hnone⟩) with hempty | himage
    · cases hempty
    · exact passes_of_images hnone hzero himage
  · intro bit hbit hheld
    rcases (holdsBit_emitAll _ _ hbit).1 hheld with hempty | himage
    · rw [show (Report.empty).modifier = 0 from rfl, holdsBit_zero] at hempty
      cases hempty
    · refine passes_of_images ?_ hzero himage
      interval_cases bit <;> decide
  · intro hroom usage husage
    -- with room for all, every usage held reaches the report through its image
    have hall : mapUsage profile swapCtrlGui usage ≠ 0 →
        mapUsage profile swapCtrlGui usage ∈
          images (combineKbdStates locals latch remote) profile swapCtrlGui := by
      intro hnone
      refine (mem_images _ hnone hzero).2 ?_
      rcases husage with ⟨bit, hbit, hpasses, rfl⟩ | hkey
      · exact .inl ⟨bit, hbit, hpasses, rfl⟩
      · exact .inr ⟨usage, combine_holds (by omega) hkey, rfl⟩
    constructor
    · intro bit hbit heq
      rw [holdsBit_emitAll _ _ hbit, ← heq]
      refine .inr (hall ?_)
      rw [heq]
      interval_cases bit <;> decide
    · intro hkey hnone
      have hslot : mapUsage profile swapCtrlGui usage ∈
          slotted (images (combineKbdStates locals latch remote) profile swapCtrlGui) :=
        List.mem_filter.2 ⟨hall hnone, by simp [hkey, hnone]⟩
      refine (mem_held.1 (emitAll_holds ?_ hslot)).1
      have hle := @slotted_images_le profile swapCtrlGui locals latch remote hzero
      exact (Nat.zero_add _).le.trans (hle.trans hroom)

/-- A keymap that makes the right Alt key a D. -/
def altProfile : KeymapProfile :=
  ⟨⟨0xe6, 0x07⟩ :: List.replicate 31 ⟨0, 0⟩, 1, List.replicate 16 0, 0, rfl, rfl⟩

/-- A keyboard that holds A, B and the right Alt, and one of the other board that holds B. -/
theorem os_bound_exact_alt :
    EmitsImages [⟨0x40, 0, [0x04, 0x05, 0, 0, 0, 0], rfl⟩] ⟨0, List.replicate 6 0, rfl⟩
      ⟨0, 0, [0x05, 0, 0, 0, 0, 0], rfl⟩ (some altProfile) true
      (outputPrepare (combineKbdStates [⟨0x40, 0, [0x04, 0x05, 0, 0, 0, 0], rfl⟩]
        ⟨0, List.replicate 6 0, rfl⟩ ⟨0, 0, [0x05, 0, 0, 0, 0, 0], rfl⟩) .physical (some altProfile)
          true) :=
  os_bound_exact _ _ _ _ _ (by
    rintro p ⟨⟩
    decide)

end Whole

end DeskhopPlus.Keyboard
