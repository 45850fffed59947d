import DeskhopPlus.Keyboard.Output
import DeskhopPlus.Library.Since
import DeskhopPlus.Mouse.Device

/-!
# The keyboards of a board

What `keyboard.c` keeps of the keyboards and does with their reports. A chord that fires an action
and does not pass is latched, and its keys are kept from both computers until the fingers let go of
them. Main theorems: `latched_iff`, which says of every run which keys are latched, and
`chord_held_back`.
-/

namespace DeskhopPlus.Keyboard

open Slots
open DeskhopPlus.Mouse (Os)

/-! ## Resolving a chord -/

/-- `DH_HOTKEY_ACTION_COUNT`. -/
def hotkeyActionCount : UInt8 := 13

/-- `DH_HOTKEY_ACTION_PAIR`. -/
def hotkeyActionPair : UInt8 := 0xfe

/-- `dh_hotkey_action_passes_to_os`: only the mouse zoom does. -/
def hotkeyActionPassesToOs (actionId : UInt8) : Bool := actionId == 1

/-- `dh_hotkey_action_acknowledges`. -/
def hotkeyActionAcknowledges (actionId : UInt8) : Bool :=
  actionId == hotkeyActionPair || (decide (actionId < hotkeyActionCount) && actionId != 0)

/-- `dh_hotkey_action_releases_all_keys`: the actions that reboot a board or wipe the
configuration. -/
def hotkeyActionReleasesAllKeys (actionId : UInt8) : Bool :=
  actionId == 10 || actionId == 11 || actionId == 12 || actionId == 8

/-- `dh_keyboard_hotkey_result_t`, where a chord matched. -/
structure HotkeyResult where
  actionId : UInt8
  passToOs : Bool
  acknowledge : Bool
  releasesAllKeys : Bool
  chord : Hotkey

/-- `dh_keyboard_hotkey_resolve`. -/
def keyboardHotkeyResolve (hotkeys : List Hotkey) (modifier : UInt8) (keys : List UInt8) :
    Option HotkeyResult :=
  match hotkeyMatchWithFixed hotkeys modifier keys with
  | none => none
  | some chord =>
      if hotkeyActionCount ≤ chord.actionId ∧ chord.actionId ≠ hotkeyActionPair then none
      else
        some
          { actionId := chord.actionId
            passToOs := hotkeyActionPassesToOs chord.actionId
            acknowledge := hotkeyActionAcknowledges chord.actionId
            releasesAllKeys := hotkeyActionReleasesAllKeys chord.actionId
            chord := chord }

/-! ## The latch -/

namespace Latch

/-- A key of a chord goes into the first free slot, unless the latch has it. -/
def holdKey (keys : List UInt8) (key : UInt8) : List UInt8 :=
  if containsKey keys key then keys else fill 0 key keys

/-- Latching a key keeps the six places. -/
theorem holdKey_length (keys : List UInt8) (key : UInt8) :
    (holdKey keys key).length = keys.length := by
  unfold holdKey
  split
  · rfl
  · exact fill_length

/-- Latching the keys of a chord does. -/
theorem holdKeys_length (chord keys : List UInt8) :
    (chord.foldl holdKey keys).length = keys.length := by
  induction chord generalizing keys with
  | nil => rfl
  | cons key rest ih => rw [List.foldl_cons, ih, holdKey_length]

/-- `dh_hotkey_latch_hold`. -/
def hold (latch : Latch) (chord : Hotkey) : Latch where
  modifier := latch.modifier ||| chord.modifier
  keys := (chord.keys.take chord.keyCount.toNat).foldl holdKey latch.keys
  keys_length := by rw [holdKeys_length, latch.keys_length]

/-- `dh_hotkey_latch_release`. -/
def release (latch : Latch) (modifier : UInt8) (keys : List UInt8) : Latch where
  modifier := latch.modifier &&& modifier
  keys := latch.keys.map fun key ↦ if containsKey keys key then key else 0
  keys_length := by rw [List.length_map, latch.keys_length]

/-- An empty latch has six places. -/
theorem length_noKeys : (List.replicate 6 (0 : UInt8)).length = 6 := rfl

/-- The latch at boot. -/
def empty : Latch where
  modifier := 0
  keys := List.replicate 6 0
  keys_length := length_noKeys

end Latch

/-! ## The keyboards -/

/-- `MAX_DEVICES`. -/
def maxDevices : Nat := 4

/-- What goes out of the keyboards, with the parts it is built of. -/
inductive Emission where
  /-- `combine_kbd_states`: the keys of this board's keyboards and those of the other's. -/
  | combined (own remote : Report) (here : Bool)
  /-- `dh_keyboard_output_merge` of the own keys and a chord the other board made up. -/
  | merged (own injected : Report)
  /-- All keys up. -/
  | allUp (here : Bool)
  /-- A chord this board makes up. -/
  | injected (report : Report) (here : Bool)

/-- What the keyboards use of `device_t`, the latch and the table of hotkeys, and what went out. -/
structure Keyboards where
  locals : List Report
  maxKbdIdx : Nat
  remote : Report
  latch : Latch
  hotkeys : List Hotkey
  /-- The table a wipe leaves, of the default configuration. -/
  defaults : List Hotkey
  boardRole : Nat
  activeOutput : Nat
  os : Nat → Os
  switchLock : Bool
  configMode : Bool
  rebootRequested : Bool
  tudConnected : Bool
  /-- The number of times the LED acknowledged an action. -/
  blinks : Nat
  sent : List Emission
  locals_length : locals.length = maxDevices

namespace Keyboards

variable (s : Keyboards)

/-- `CURRENT_BOARD_IS_ACTIVE_OUTPUT`. -/
def here : Bool := decide (s.activeOutput = s.boardRole)

/-- The reports that are combined. -/
def held : List Report := s.locals.take (s.maxKbdIdx + 1)

/-- `update_kbd_state`. -/
def updateKbdState (report : Report) (deviceIdx : Nat) : Keyboards :=
  if maxDevices ≤ deviceIdx then s
  else
    { s with
      locals := s.locals.set deviceIdx report
      maxKbdIdx := if s.maxKbdIdx < deviceIdx then deviceIdx else s.maxKbdIdx
      locals_length := by rw [List.length_set, s.locals_length] }

/-- Something goes out. -/
def emit (emission : Emission) : Keyboards := { s with sent := s.sent ++ [emission] }

/-- There is a report for each device. -/
theorem length_allUp : (List.replicate 4 Report.empty).length = maxDevices := rfl

/-- `release_all_keys`. -/
def releaseAllKeys : Keyboards :=
  { s with
    locals := List.replicate 4 .empty
    remote := .empty
    sent := s.sent ++ [.allUp true]
    locals_length := length_allUp }

/-- `send_key`: the combined state of all keyboards. -/
def sendKey : Keyboards := s.emit (.combined (combineLocal s.held s.latch) s.remote s.here)

/-- A report of one key with its modifiers. -/
def chordReport (modifier key : UInt8) : Report := ⟨modifier, 0, [key, 0, 0, 0, 0, 0], rfl⟩

/-- The chord that locks the computer of an operating system, or the one of the output before it. -/
def lockReport (before : Report) : Os → Report
  | .windows | .linux => chordReport 0x08 0x0f
  | .macos => chordReport 0x09 0x14
  | _ => before

/-- One turn of the loop of `screenlock_hotkey_handler`. -/
def lockOutput (s : Keyboards) (output : Nat) (report : Report) : Keyboards :=
  if s.boardRole = output then (s.emit (.injected report true)).releaseAllKeys
  else (s.emit (.injected report false)).emit (.injected .empty false)

/-- The handlers of the actions, with what they do to the keyboards: the rest of them change nothing
here. -/
def act (actionId : UInt8) : Keyboards :=
  if actionId = 0 then
    -- `output_toggle_hotkey_handler`
    if s.switchLock then s
    else { s with activeOutput := s.activeOutput ^^^ 1 }.releaseAllKeys
  else if actionId = 2 then { s with switchLock := !s.switchLock }
  else if actionId = 3 then
    -- `screenlock_hotkey_handler`
    let first := lockReport .empty (s.os 0)
    (s.lockOutput 0 first).lockOutput 1 (lockReport first (s.os 1))
  else if actionId = 8 then { s with hotkeys := prepare s.defaults }
  else if actionId = 10 then
    -- `config_enable_hotkey_handler`
    if s.configMode then s.releaseAllKeys
    else { s.releaseAllKeys with rebootRequested := true }
  else s

/-- The latched keys that no keyboard of this board holds are let go of. -/
def letGo : Keyboards :=
  { s with latch :=
      s.latch.release (combineHeldLocal s.held).modifier (combineHeldLocal s.held).keycode }

/-- A chord that does not pass is held back before its action runs, and what goes out then is the
key-up of what the computer saw of it. -/
def holdBack (hotkey : HotkeyResult) : Keyboards :=
  if hotkey.passToOs then s
  else
    let s := { s with latch := s.latch.hold hotkey.chord }
    if hotkey.releasesAllKeys then s.emit (.allUp s.here) else s.sendKey

/-- `blink_led`, where an action is acknowledged. -/
def acknowledge (hotkey : HotkeyResult) : Keyboards :=
  if hotkey.acknowledge then { s with blinks := s.blinks + 1 } else s

/-- `process_keyboard_report`, from the keys of the report on. -/
def processKeyboardReport (report : Report) (itf : Nat) : Keyboards :=
  if s.rebootRequested then s
  else
    let s := (s.updateKbdState report itf).letGo
    match keyboardHotkeyResolve s.hotkeys report.modifier report.keycode with
    | none => s.sendKey
    | some hotkey =>
        let s := ((s.holdBack hotkey).acknowledge hotkey).act hotkey.actionId
        if hotkey.passToOs then s.sendKey else s

/-- `handle_keyboard_uart_msg`. -/
def handleKeyboardUartMsg (provenance : Provenance) (report : Report) : Keyboards :=
  let s := { s with remote := report }
  match provenance with
  | .synthesized => s.emit (.merged (combineLocal s.held s.latch) report)
  | .physical => s.emit (.combined (combineLocal s.held s.latch) s.remote true)

/-- `tud_hid_set_protocol_cb`, of the keyboard: the report that replaces one in the old format. -/
def setProtocol : Keyboards :=
  s.emit (if s.here then .combined (combineLocal s.held s.latch) s.remote true else .allUp true)

/-- `handle_output_select_msg`. -/
def handleOutputSelectMsg (output : Nat) : Keyboards :=
  let s := { s with activeOutput := output }
  if s.tudConnected then s.releaseAllKeys else s

end Keyboards

/-- What happens to the keyboards of a board: a report of a keyboard, a packet of the other board's
keyboards, a switch by the other board, an attach, a detach or a change of protocol by the computer,
a change of the lock by the other board, or of the table of hotkeys. -/
inductive KeyEvent where
  | report (itf : Nat) (report : Report)
  | uart (provenance : Provenance) (report : Report)
  | select (output : Nat)
  | mount
  | unmount
  | protocol
  | lock (on : Bool)
  | prepare (bindings : List Hotkey)

/-- One event. -/
def Keyboards.next (s : Keyboards) : KeyEvent → Keyboards
  | .report itf report => s.processKeyboardReport report itf
  | .uart provenance report => s.handleKeyboardUartMsg provenance report
  | .select output => s.handleOutputSelectMsg output
  | .mount => { s with tudConnected := true }.releaseAllKeys
  | .unmount => { s with tudConnected := false }
  | .protocol => s.setProtocol
  | .lock on => { s with switchLock := on }
  | .prepare bindings => { s with hotkeys := Keyboard.prepare bindings }

/-! ## The parts of a chord -/

/-- A key or a modifier. -/
inductive ChordPart where
  | key (usage : UInt8)
  | modifier (bit : Nat)

/-- A report holds the key or the modifier. -/
def Report.Holds (report : Report) : ChordPart → Prop
  | .key usage => containsKey report.keycode usage = true
  | .modifier bit => holdsBit report.modifier bit = true

/-- A chord is made of the key or the modifier, among others. -/
def Hotkey.Has (chord : Hotkey) : ChordPart → Prop
  | .key usage => containsKey (chord.keys.take chord.keyCount.toNat) usage = true
  | .modifier bit => holdsBit chord.modifier bit = true

/-- The key or the modifier is latched. -/
def Latch.Has (latch : Latch) : ChordPart → Prop
  | .key usage => containsKey latch.keys usage = true
  | .modifier bit => holdsBit latch.modifier bit = true

variable {part : ChordPart} {s : Keyboards}

/-- A key is contained if it is one of the keys and not zero. -/
theorem containsKey_iff {keys : List UInt8} {key : UInt8} :
    containsKey keys key = true ↔ key ≠ 0 ∧ key ∈ keys := by
  simp [containsKey]

/-- A bit of both masks is a bit of each. -/
theorem holdsBit_and (first second : UInt8) (bit : Nat) :
    holdsBit (first &&& second) bit = (holdsBit first bit && holdsBit second bit) := by
  simp [holdsBit]

/-- Filling with no key changes nothing. -/
theorem fill_none (keys : List UInt8) : fill 0 0 keys = keys := by
  induction keys with
  | nil => rfl
  | cons key rest ih =>
      rw [fill]
      split
      next hkey => rw [hkey]
      next => rw [ih]

/-- A key that is none is put in no slot. -/
theorem holdKey_eq (keys : List UInt8) (key : UInt8) : Latch.holdKey keys key = put 0 keys key := by
  unfold Latch.holdKey put
  by_cases hnone : key = 0
  · have hfree : ¬containsKey keys key = true := fun hheld ↦ (containsKey_iff.1 hheld).1 hnone
    rw [if_pos (Or.inl hnone), if_neg hfree, hnone, fill_none]
  · simp only [containsKey_iff, hnone, ne_eq, not_false_eq_true, true_and, false_or]

/-- The keys of a chord are put one by one into the first free place. -/
theorem holdKeys_eq (chord keys : List UInt8) :
    chord.foldl Latch.holdKey keys = chord.foldl (put 0) keys := by
  rw [show Latch.holdKey = put 0 from funext fun keys ↦ funext fun key ↦ holdKey_eq keys key]

/-- A key is let go of unless it is held. -/
theorem has_release (latch : Latch) (report : Report) (part : ChordPart) :
    (latch.release report.modifier report.keycode).Has part ↔
      latch.Has part ∧ report.Holds part := by
  cases part with
  | modifier bit =>
      show holdsBit (latch.modifier &&& report.modifier) bit = true ↔ _
      rw [holdsBit_and, Bool.and_eq_true]
      rfl
  | key usage =>
      show containsKey (latch.keys.map _) usage = true ↔ _ ∧ containsKey report.keycode usage = true
      rw [containsKey_iff, List.mem_map]
      constructor
      · rintro ⟨hnone, key, hkey, hkept⟩
        split at hkept
        next hheld => exact hkept ▸ ⟨containsKey_iff.2 ⟨hkept ▸ hnone, hkey⟩, hheld⟩
        next => exact absurd hkept.symm hnone
      · rintro ⟨hlatched, hheld⟩
        obtain ⟨hnone, hkey⟩ := containsKey_iff.1 hlatched
        exact ⟨hnone, usage, hkey, if_pos hheld⟩

/-- The slots of the latch hold no key twice. -/
def Latch.Sound (latch : Latch) : Prop := (taken 0 latch.keys).Nodup

/-- Slots some of which are emptied. -/
theorem taken_map_sublist (keep : UInt8 → Bool) (keys : List UInt8) :
    (taken 0 (keys.map fun key ↦ if keep key then key else 0)).Sublist (taken 0 keys) := by
  induction keys with
  | nil => exact List.Sublist.refl _
  | cons key rest ih =>
      unfold taken at ih ⊢
      rw [List.map_cons, List.filter_cons, List.filter_cons]
      by_cases hnone : key = 0
      · simpa [hnone] using ih
      · cases keep key with
        | true => simpa [hnone] using ih
        | false => simpa [hnone] using ih.trans (List.sublist_cons_self ..)

/-- Releasing keys keeps a latch sound. -/
theorem sound_release {latch : Latch} (h : latch.Sound) (modifier : UInt8) (keys : List UInt8) :
    (latch.release modifier keys).Sound :=
      h.sublist (taken_map_sublist (containsKey keys) latch.keys)

/-- Latching a chord keeps it sound. -/
theorem sound_hold {latch : Latch} (h : latch.Sound) (chord : Hotkey) :
    (latch.hold chord).Sound := by
  show (taken 0 (_ : List UInt8)).Nodup
  dsimp only [Latch.hold]
  rw [holdKeys_eq]
  exact nodup_putAll h _

/-- While all keys together fit in the slots, holding a chord latches it and nothing else. -/
theorem has_hold {latch : Latch} (h : latch.Sound) {chord : Hotkey} {all : Finset UInt8}
    (hroom : all.card ≤ keysInUsbReport) (hlatched : ∀ key ∈ taken 0 latch.keys, key ∈ all)
    (hchord : ∀ key ∈ chord.keys.take chord.keyCount.toNat, key ≠ 0 → key ∈ all) (usage : UInt8) :
    (latch.hold chord).Has (.key usage) ↔ chord.Has (.key usage) ∨ latch.Has (.key usage) := by
  unfold Latch.Has Hotkey.Has Latch.hold
  simp only [containsKey_iff, holdKeys_eq]
  constructor
  · rintro ⟨hnone, hheld⟩
    rcases mem_putAll (mem_taken.2 ⟨hheld, hnone⟩) with hold | hnew
    · exact .inr (mem_taken.1 hold).symm
    · exact .inl ⟨hnone, hnew⟩
  · rintro (⟨hnone, hnew⟩ | ⟨hnone, hold⟩)
    · refine ⟨hnone, (mem_taken.1 (mem_taken_putAll ?_ hlatched hchord h hnew hnone)).1⟩
      rw [latch.keys_length]
      exact hroom
    · exact ⟨hnone, (mem_taken.1 (taken_subset_putAll _ (mem_taken.2 ⟨hold, hnone⟩))).1⟩

/-- A modifier is latched with the chord or was before. -/
theorem has_hold_modifier (latch : Latch) (chord : Hotkey) (bit : Nat) :
    (latch.hold chord).Has (.modifier bit) ↔
      chord.Has (.modifier bit) ∨ latch.Has (.modifier bit) := by
  show holdsBit (latch.modifier ||| chord.modifier) bit = true ↔ _
  rw [holdsBit_or, Bool.or_eq_true, or_comm]
  rfl

/-- A latched part of a chord is not in what is built from the own keys. -/
theorem not_holds_latchMask {latch : Latch} (hlatched : latch.Has part) (report : Report) :
    ¬(latchMask latch report).Holds part := by
  cases part with
  | modifier bit =>
      intro hholds
      have hbit : bit < 8 := by
        by_contra hbig
        have hzero : holdsBit latch.modifier bit = false :=
          BitVec.getLsbD_of_ge _ _ (by omega)
        rw [show latch.Has (.modifier bit) ↔ holdsBit latch.modifier bit = true from Iff.rfl, hzero]
          at hlatched
        cases hlatched
      change holdsBit (report.modifier &&& ~~~latch.modifier) bit = true at hholds
      rw [holdsBit_and_not _ _ hbit, Bool.and_eq_true, Bool.not_eq_true'] at hholds
      exact Bool.false_ne_true (hholds.2.symm.trans hlatched)
  | key usage =>
      intro hholds
      obtain ⟨hnone, hmem⟩ := containsKey_iff.1 hholds
      have hheld : usage ∈ (latchMask latch report).held := mem_held.2 ⟨hmem, hnone⟩
      rw [held_latchMask, List.mem_filter, show containsKey latch.keys usage = true from hlatched]
        at hheld
      exact Bool.noConfusion hheld.2

/-! ## What an event does to the latch -/

namespace Keyboards

/-- A report that leaves the board latches nothing. -/
@[simp] theorem latch_emit (emission : Emission) : (s.emit emission).latch = s.latch := rfl

/-- Neither does the state of the keyboards sent. -/
@[simp] theorem latch_sendKey : s.sendKey.latch = s.latch := rfl

/-- Nor the release of all keys. -/
@[simp] theorem latch_releaseAllKeys : s.releaseAllKeys.latch = s.latch := rfl

/-- Nor a report that is kept. -/
@[simp] theorem latch_updateKbdState (report : Report) (itf : Nat) :
    (s.updateKbdState report itf).latch = s.latch := by
  unfold updateKbdState
  split <;> rfl

/-- A report that is kept leaves the hotkeys as they are. -/
@[simp] theorem hotkeys_updateKbdState (report : Report) (itf : Nat) :
    (s.updateKbdState report itf).hotkeys = s.hotkeys := by
  unfold updateKbdState
  split <;> rfl

/-- Locking an output latches nothing. -/
@[simp] theorem latch_lockOutput (output : Nat) (report : Report) :
    (s.lockOutput output report).latch = s.latch := by
  unfold lockOutput
  split <;> rfl

/-- No action touches the latch. -/
@[simp] theorem latch_act (actionId : UInt8) : (s.act actionId).latch = s.latch := by
  unfold act
  split_ifs
  all_goals first | rfl | exact (latch_lockOutput ..).trans (latch_lockOutput ..)

/-- Nor does the acknowledgement of a chord. -/
@[simp] theorem latch_acknowledge (hotkey : HotkeyResult) :
    (s.acknowledge hotkey).latch = s.latch := by
  unfold acknowledge
  split <;> rfl

/-- A chord that does not pass is latched. -/
@[simp] theorem latch_holdBack (hotkey : HotkeyResult) :
    (s.holdBack hotkey).latch =
      if hotkey.passToOs then s.latch else s.latch.hold hotkey.chord := by
  unfold holdBack
  dsimp only
  split_ifs <;> rfl

/-- The chord that a report fires and that does not pass. -/
def fires (s : Keyboards) (report : Report) : Option Hotkey :=
  (keyboardHotkeyResolve s.hotkeys report.modifier report.keycode).bind fun hotkey ↦
    if hotkey.passToOs then none else some hotkey.chord

/-- The latch after a report: what the fingers let go of is released, and then a chord that fires is
held. -/
theorem latch_processKeyboardReport (report : Report) (itf : Nat) :
    (s.processKeyboardReport report itf).latch =
      if s.rebootRequested then s.latch
      else
        match s.fires report with
        | none => (s.updateKbdState report itf).letGo.latch
        | some chord => (s.updateKbdState report itf).letGo.latch.hold chord := by
  unfold processKeyboardReport fires
  split
  · rfl
  · have hhotkeys : (s.updateKbdState report itf).letGo.hotkeys = s.hotkeys :=
      hotkeys_updateKbdState report itf
    dsimp only
    rw [hhotkeys]
    cases keyboardHotkeyResolve s.hotkeys report.modifier report.keycode with
    | none => rfl
    | some hotkey =>
        dsimp only [Option.bind_some]
        split_ifs with hpasses <;> simp [hpasses]

/-- A report fires a chord that does not pass, and the key or modifier is part of it. -/
def Catches (part : ChordPart) (s : Keyboards) : KeyEvent → Prop
  | .report _ report => s.rebootRequested = false ∧ ∃ chord, s.fires report = some chord ∧
      chord.Has part
  | _ => False

/-- A report comes after which no report that is kept of a keyboard of this board holds the key or
modifier. -/
def Drops (part : ChordPart) (s : Keyboards) : KeyEvent → Prop
  | .report itf report => s.rebootRequested = false ∧
      ∀ kept ∈ (s.updateKbdState report itf).held, ¬kept.Holds part
  | _ => False

/-- The keys held on the keyboards of this board fit in one report. Modifiers always do. -/
def Fits (part : ChordPart) (s : Keyboards) (event : KeyEvent) : Prop :=
  match part, event with
  | .key _, .report itf report =>
      (keysHeld (s.updateKbdState report itf).held report).card ≤ keysInUsbReport
  | _, _ => True

/-- The reports of all keyboards hold together what each of them holds. -/
theorem holds_combineHeldLocal {reports : List Report} {report : Report} (part : ChordPart)
    (hroom : ∀ usage, part = .key usage → (keysHeld reports report).card ≤ keysInUsbReport) :
    (combineHeldLocal reports).Holds part ↔ ∃ kept ∈ reports, kept.Holds part := by
  cases part with
  | modifier bit =>
      show holdsBit (reports.foldl Report.merge .empty).modifier bit = true ↔ _
      rw [holdsBit_merged, show holdsBit Report.empty.modifier bit = false from holdsBit_zero bit,
        Bool.false_or, List.any_eq_true]
      rfl
  | key usage =>
      show containsKey (combineHeldLocal reports).keycode usage = true ↔ _
      rw [containsKey_iff]
      constructor
      · rintro ⟨hnone, hmem⟩
        rcases mem_merged (mem_held.2 ⟨hmem, hnone⟩) with hempty | ⟨kept, hkept, hkey⟩
        · rw [held_empty] at hempty
          cases hempty
        · exact ⟨kept, hkept, containsKey_iff.2 ⟨hnone, hkey⟩⟩
      · rintro ⟨kept, hkept, hholds⟩
        obtain ⟨hnone, hkey⟩ := containsKey_iff.1 hholds
        -- there is room for all of them, so none is dropped
        refine ⟨hnone, (mem_held.1 (merged_holds (hroom usage rfl) ?_ ?_ ?_ hkept
          (mem_held.2 ⟨hkey, hnone⟩))).1⟩
        · rw [held_empty]
          simp
        · intro other hother key hmem
          exact List.mem_toFinset.2 (List.mem_flatMap.2
            ⟨other, List.mem_append_left _ hother, hmem⟩)
        · rw [held_empty]
          exact List.nodup_nil

/-- A chord that is found is held. -/
theorem held_of_found {hotkeys : List Hotkey} {modifier : UInt8} {keys : List UInt8}
    {chord : Hotkey} (h : hotkeyMatchWithFixed hotkeys modifier keys = some chord) :
    chord.Held modifier keys := by
  unfold hotkeyMatchWithFixed at h
  split at h
  next found hfixed => exact Option.some.inj h ▸ (hotkeyMatch_some hfixed).2
  next => exact (hotkeyMatch_some h).2

/-- The keys of a chord that a report fires are keys of the report. -/
theorem fires_held {report : Report} {chord : Hotkey}
    (h : s.fires report = some chord) {key : UInt8}
    (hkey : key ∈ chord.keys.take chord.keyCount.toNat) : key ∈ report.held := by
  unfold fires keyboardHotkeyResolve at h
  cases hfound : hotkeyMatchWithFixed s.hotkeys report.modifier report.keycode with
  | none =>
      rw [hfound] at h
      cases h
  | some found =>
      rw [hfound] at h
      dsimp only at h
      split at h
      next => cases h
      next =>
        rw [Option.bind_some] at h
        split at h
        next => cases h
        next =>
          obtain rfl := Option.some.inj h
          obtain ⟨hnone, hmem⟩ := (held_of_found hfound).2.2 key hkey
          exact mem_held.2 ⟨hmem, hnone⟩

/-- What is latched of a chord once the fingers let go. -/
theorem has_letGo (report : Report) (itf : Nat) (part : ChordPart)
    (hfits : Fits part s (.report itf report)) :
    (s.updateKbdState report itf).letGo.latch.Has part ↔
      s.latch.Has part ∧ ∃ kept ∈ (s.updateKbdState report itf).held, kept.Holds part := by
  have hroom : ∀ usage, part = .key usage →
      (keysHeld (s.updateKbdState report itf).held report).card ≤ keysInUsbReport := by
    intro usage hpart
    rw [hpart] at hfits
    exact hfits
  show ((s.updateKbdState report itf).latch.release _ _).Has part ↔ _
  rw [has_release, latch_updateKbdState, holds_combineHeldLocal part hroom]

/-- Of a chord that fires, and of what is latched, every part is latched then. -/
theorem has_fired (h : s.latch.Sound) {report : Report} {itf : Nat} {chord : Hotkey}
    (hfires : s.fires report = some chord) (part : ChordPart)
    (hfits : Fits part s (.report itf report)) :
    ((s.updateKbdState report itf).letGo.latch.hold chord).Has part ↔
      chord.Has part ∨ (s.updateKbdState report itf).letGo.latch.Has part := by
  cases part with
  | modifier bit => exact has_hold_modifier ..
  | key usage =>
      refine has_hold ?_ hfits (fun key hkey ↦ ?_) (fun key hkey _ ↦ ?_) usage
      · refine sound_release ?_ ..
        rw [latch_updateKbdState]
        exact h
      · -- what is still latched is held by a keyboard
        obtain ⟨hmem, hnone⟩ := mem_taken.1 hkey
        obtain ⟨-, kept, hkept, hholds⟩ :=
          (has_letGo report itf (.key key) hfits).1 (containsKey_iff.2 ⟨hnone, hmem⟩)
        exact List.mem_toFinset.2 (List.mem_flatMap.2 ⟨kept, List.mem_append_left _ hkept,
          mem_held.2 (containsKey_iff.1 hholds).symm⟩)
      · exact List.mem_toFinset.2 (List.mem_flatMap.2 ⟨report,
          List.mem_append_right _ (List.mem_singleton_self report), fires_held hfires hkey⟩)

/-- Events other than a report of a keyboard of this board leave the latch. -/
theorem latch_other {event : KeyEvent} (hreport : ∀ itf report, event ≠ .report itf report) :
    (s.next event).latch = s.latch ∧ ¬Catches part s event ∧ ¬Drops part s event := by
  cases event with
  | report itf report => exact absurd rfl (hreport itf report)
  | uart provenance report => cases provenance <;> exact ⟨rfl, id, id⟩
  | select output =>
      refine ⟨?_, id, id⟩
      show (s.handleOutputSelectMsg output).latch = s.latch
      unfold handleOutputSelectMsg
      dsimp only
      split <;> rfl
  | mount => exact ⟨rfl, id, id⟩
  | unmount => exact ⟨rfl, id, id⟩
  | protocol => exact ⟨rfl, id, id⟩
  | lock on => exact ⟨rfl, id, id⟩
  | prepare bindings => exact ⟨rfl, id, id⟩

/-- What one event says of a part of a chord. -/
theorem latch_next (h : s.latch.Sound) {event : KeyEvent} (hfits : Fits part s event) :
    (s.next event).latch.Has part ↔
      Catches part s event ∨ s.latch.Has part ∧ ¬Drops part s event := by
  by_cases hreport : ∃ itf report, event = .report itf report
  · obtain ⟨itf, report, rfl⟩ := hreport
    show (s.processKeyboardReport report itf).latch.Has part ↔ _
    rw [latch_processKeyboardReport]
    cases hreboot : s.rebootRequested with
    | true => simp [Catches, Drops, hreboot]
    | false =>
        have hdrops : ¬Drops part s (.report itf report) ↔
            ∃ kept ∈ (s.updateKbdState report itf).held, kept.Holds part := by
          simp [Drops, hreboot]
        have hletGo := has_letGo report itf part hfits
        rw [hdrops, if_neg Bool.false_ne_true, ← hletGo]
        cases hfires : s.fires report with
        | none => simp [Catches, hfires]
        | some chord => simp [Catches, hreboot, hfires, has_fired h hfires part hfits]
  · have hother : ∀ itf report, event ≠ .report itf report :=
      fun itf report heq ↦ hreport ⟨itf, report, heq⟩
    obtain ⟨hlatch, hcatches, hdrops⟩ := @latch_other part s event hother
    rw [hlatch]
    exact ⟨fun hhas ↦ .inr ⟨hhas, hdrops⟩, fun hhas ↦ (hhas.resolve_left hcatches).1⟩

/-- Every event keeps the latch sound. -/
theorem sound_next (h : s.latch.Sound) (event : KeyEvent) : (s.next event).latch.Sound := by
  by_cases hreport : ∃ itf report, event = .report itf report
  · obtain ⟨itf, report, rfl⟩ := hreport
    show (s.processKeyboardReport report itf).latch.Sound
    have hletGo : (s.updateKbdState report itf).letGo.latch.Sound := by
      refine sound_release ?_ ..
      rw [latch_updateKbdState]
      exact h
    rw [latch_processKeyboardReport]
    split
    · exact h
    · split
      · exact hletGo
      · exact sound_hold hletGo _
  · rw [(@latch_other (.modifier 0) s event fun itf report heq ↦ hreport ⟨itf, report, heq⟩).1]
    exact h

/-- Along every run from an empty latch, a key or modifier is latched exactly if a chord with it
fired and every report since then left it held by a keyboard of this board. No other key is kept
back, and none is kept back longer. -/
theorem latched_iff (h : s.latch = .empty) {events : List KeyEvent}
    (hfits : Runs.Along Keyboards.next (Fits part) s events) :
    (Runs.run Keyboards.next s events).latch.Has part ↔
      Runs.Since Keyboards.next (Catches part) (Drops part) s events := by
  have hnone : ¬s.latch.Has part := by
    rw [h]
    cases part with
    | key usage => simp [Latch.Has, Latch.empty, containsKey]
    | modifier bit => simp [Latch.Has, Latch.empty, holdsBit_zero]
  have hsound : s.latch.Sound := by
    rw [h]
    exact List.nodup_nil
  have hsteps : Runs.Along Keyboards.next (fun s event ↦ (s.next event).latch.Has part ↔
      Catches part s event ∨ s.latch.Has part ∧ ¬Drops part s event) s events := by
    clear h hnone
    induction events generalizing s with
    | nil => trivial
    | cons event rest ih =>
        exact ⟨latch_next hsound hfits.1, ih hfits.2 (sound_next hsound event)⟩
  have hsince := @Runs.holds_iff_since _ _ Keyboards.next (Catches part) (Drops part) s
    (fun s ↦ s.latch.Has part) events hsteps
  refine hsince.trans ?_
  exact ⟨fun hhas ↦ hhas.resolve_right fun hstart ↦ hnone hstart.1, .inl⟩

/-! ## What goes out -/

end Keyboards

/-- The part built of the own keys holds the key or modifier. -/
def Emission.OwnHolds (part : ChordPart) : Emission → Prop
  | .combined own _ _ => own.Holds part
  | .merged own _ => own.Holds part
  | _ => False

/-- Nothing that is latched is in the part built of the own keys. -/
def Emission.Masked (latch : Latch) (emission : Emission) : Prop :=
  ∀ part, latch.Has part → ¬emission.OwnHolds part

namespace Keyboards

/-- What went out in between keeps back what is latched. -/
def Sends (latch : Latch) (s s' : Keyboards) : Prop :=
  ∃ emissions, s'.sent = s.sent ++ emissions ∧ ∀ emission ∈ emissions, emission.Masked latch

variable {s' s'' : Keyboards} {latch : Latch}

/-- Nothing is sent. -/
theorem Sends.of_eq (h : s'.sent = s.sent) : Sends latch s s' :=
  ⟨[], by rw [h, List.append_nil], by simp⟩

/-- Two steps that send masked reports. -/
theorem Sends.trans (h : Sends latch s s') (h' : Sends latch s' s'') : Sends latch s s'' := by
  obtain ⟨first, hfirst, hmasked⟩ := h
  obtain ⟨second, hsecond, hmasked'⟩ := h'
  refine ⟨first ++ second, by rw [hsecond, hfirst, List.append_assoc], ?_⟩
  intro emission hmem
  exact (List.mem_append.1 hmem).elim (hmasked emission) (hmasked' emission)

/-- A masked report is sent. -/
theorem sends_emit (s : Keyboards) {emission : Emission} (h : emission.Masked latch) :
    Sends latch s (s.emit emission) :=
  ⟨[emission], rfl, fun _ hmem ↦ List.mem_singleton.1 hmem ▸ h⟩

/-- A report of no key shows no key. -/
theorem masked_allUp (here : Bool) : (Emission.allUp here).Masked latch := fun _ _ hholds ↦ hholds

/-- A report the board makes up shows no key of its keyboards. -/
theorem masked_injected (report : Report) (here : Bool) :
    (Emission.injected report here).Masked latch := fun _ _ hholds ↦ hholds

/-- The combined report is masked by the latch. -/
theorem masked_combined (locals : List Report) (remote : Report) (here : Bool) :
    (Emission.combined (combineLocal locals latch) remote here).Masked latch :=
  fun _ hlatched ↦ not_holds_latchMask hlatched _

/-- The state of the keyboards is sent masked. -/
theorem sends_sendKey (s : Keyboards) : Sends s.latch s s.sendKey :=
  sends_emit s (masked_combined _ _ _)

/-- So is the release of all keys. -/
theorem sends_releaseAllKeys (s : Keyboards) : Sends latch s s.releaseAllKeys :=
  ⟨[.allUp true], rfl, fun _ hmem ↦ List.mem_singleton.1 hmem ▸ masked_allUp true⟩

/-- So are the reports that lock an output. -/
theorem sends_lockOutput (s : Keyboards) (output : Nat) (report : Report) :
    Sends latch s (s.lockOutput output report) := by
  unfold lockOutput
  split
  · exact (sends_emit s (masked_injected _ _)).trans (sends_releaseAllKeys _)
  · exact (sends_emit s (masked_injected _ _)).trans (sends_emit _ (masked_injected _ _))

/-- So is what a hotkey does. -/
theorem sends_act (s : Keyboards) (actionId : UInt8) : Sends latch s (s.act actionId) := by
  unfold act
  split_ifs
  · exact .of_eq rfl
  · exact sends_releaseAllKeys { s with activeOutput := s.activeOutput ^^^ 1 }
  · exact .of_eq rfl
  · exact (sends_lockOutput ..).trans (sends_lockOutput ..)
  · exact .of_eq rfl
  · exact sends_releaseAllKeys s
  · exact sends_releaseAllKeys s
  · exact .of_eq rfl

/-- A chord that does not pass is held back in its own report. -/
theorem sends_holdBack (s : Keyboards) (hotkey : HotkeyResult) :
    Sends (s.holdBack hotkey).latch s (s.holdBack hotkey) := by
  unfold holdBack
  dsimp only
  split
  · exact .of_eq rfl
  · split
    · exact sends_emit { s with latch := s.latch.hold hotkey.chord } (masked_allUp _)
    · exact sends_sendKey { s with latch := s.latch.hold hotkey.chord }

/-- The acknowledgement sends masked reports only. -/
theorem sends_acknowledge (s : Keyboards) (hotkey : HotkeyResult) :
    Sends latch s (s.acknowledge hotkey) := by
  unfold acknowledge
  split <;> exact .of_eq rfl

/-- What a report of a keyboard sends is masked by the latch after it. -/
theorem sends_processKeyboardReport (s : Keyboards) (report : Report) (itf : Nat) :
    Sends (s.processKeyboardReport report itf).latch s (s.processKeyboardReport report itf) := by
  unfold processKeyboardReport
  split
  · exact .of_eq rfl
  · have hkept : ∀ latch, Sends latch s (s.updateKbdState report itf).letGo := by
      intro latch
      refine .of_eq ?_
      unfold letGo updateKbdState
      split <;> rfl
    generalize (s.updateKbdState report itf).letGo = kept at hkept ⊢
    dsimp only
    split
    · exact (hkept _).trans (sends_sendKey kept)
    next hotkey _ =>
      -- the latch is as it will be from the moment the chord is held
      have hacted : Sends (kept.holdBack hotkey).latch s
          (((kept.holdBack hotkey).acknowledge hotkey).act hotkey.actionId) :=
        (((hkept _).trans (sends_holdBack kept hotkey)).trans (sends_acknowledge ..)).trans
          (sends_act ..)
      have hlatch : (((kept.holdBack hotkey).acknowledge hotkey).act hotkey.actionId).latch =
          (kept.holdBack hotkey).latch := by
        rw [latch_act, latch_acknowledge]
      split
      · rw [latch_sendKey, hlatch]
        have hsend := sends_sendKey
          (((kept.holdBack hotkey).acknowledge hotkey).act hotkey.actionId)
        rw [hlatch] at hsend
        exact hacted.trans hsend
      · rw [hlatch]
        exact hacted

/-- What an event sends keeps back what is latched then. -/
theorem sends_next (s : Keyboards) (event : KeyEvent) :
    Sends (s.next event).latch s (s.next event) := by
  cases event with
  | report itf report => exact sends_processKeyboardReport ..
  | uart provenance report =>
      cases provenance with
      | synthesized =>
          exact sends_emit { s with remote := report }
            (fun _ hlatched ↦ not_holds_latchMask hlatched _)
      | physical => exact sends_emit { s with remote := report } (masked_combined _ _ _)
  | select output =>
      show Sends _ s (s.handleOutputSelectMsg output)
      unfold handleOutputSelectMsg
      dsimp only
      split
      · exact sends_releaseAllKeys { s with activeOutput := output }
      · exact .of_eq rfl
  | mount => exact sends_releaseAllKeys { s with tudConnected := true }
  | unmount => exact .of_eq rfl
  | protocol =>
      refine sends_emit s ?_
      split
      · exact masked_combined _ _ _
      · exact masked_allUp _
  | lock on => exact .of_eq rfl
  | prepare bindings => exact .of_eq rfl

/-- What goes out while a key or modifier stays latched is built without it. -/
theorem kept_back (h : s.latch.Sound) (hlatched : s.latch.Has part) {events : List KeyEvent}
    (hfits : Runs.Along Keyboards.next (Fits part) s events)
    (hheld : Runs.Along Keyboards.next (fun s event ↦ ¬Drops part s event) s events) :
    ∃ emissions, (Runs.run Keyboards.next s events).sent = s.sent ++ emissions ∧
      ∀ emission ∈ emissions, ¬emission.OwnHolds part := by
  induction events generalizing s with
  | nil => exact ⟨[], (List.append_nil _).symm, by simp⟩
  | cons event rest ih =>
      have hnext : (s.next event).latch.Has part :=
        (latch_next h hfits.1).2 (.inr ⟨hlatched, hheld.1⟩)
      obtain ⟨first, hfirst, hmasked⟩ := sends_next s event
      obtain ⟨later, hlater, hclean⟩ := ih (sound_next h event) hnext hfits.2 hheld.2
      refine ⟨first ++ later, by rw [Runs.run_cons, hlater, hfirst, List.append_assoc], ?_⟩
      intro emission hmem
      exact (List.mem_append.1 hmem).elim (fun hmem ↦ hmasked emission hmem part hnext)
        (hclean emission)

/-- A key that both boards' keyboards make up is held by one of them. -/
theorem holds_merge {own remote : Report} (h : (own.merge remote).Holds part)
    (hown : ¬own.Holds part) : remote.Holds part := by
  cases part with
  | modifier bit =>
      change holdsBit (own.modifier ||| remote.modifier) bit = true at h
      rw [holdsBit_or, Bool.or_eq_true] at h
      exact h.resolve_left hown
  | key usage =>
      obtain ⟨hnone, hmem⟩ := containsKey_iff.1 h
      rcases mem_putAll (mem_held.2 ⟨hmem, hnone⟩) with hold | hnew
      · exact absurd (containsKey_iff.2 (mem_held.1 hold).symm) hown
      · exact containsKey_iff.2 ⟨hnone, hnew⟩

/-- Once a chord that does not pass has fired, neither computer gets to see a key or modifier of it
from the keyboards of this board until a report comes after which none of them holds it: not with
the report that fired it, not with any later report, packet of the other board or change of
protocol. -/
theorem chord_held_back (h : s.latch = .empty) {before after : List KeyEvent} {event : KeyEvent}
    (hfits : Runs.Along Keyboards.next (Fits part) s (before ++ event :: after))
    (hcatches : Catches part (Runs.run Keyboards.next s before) event)
    (hheld : Runs.Along Keyboards.next (fun s event ↦ ¬Drops part s event)
      (Runs.run Keyboards.next s (before ++ [event])) after) :
    ∃ emissions, (Runs.run Keyboards.next s (before ++ event :: after)).sent =
        (Runs.run Keyboards.next s before).sent ++ emissions ∧
      ∀ emission ∈ emissions, ¬emission.OwnHolds part ∧
        ∀ own remote here, emission = .combined own remote here →
          (own.merge remote).Holds part → remote.Holds part := by
  have hsound : s.latch.Sound := by
    rw [h]
    exact List.nodup_nil
  have hreached : (Runs.run Keyboards.next s before).latch.Sound :=
    Runs.run_invariant (fun s : Keyboards ↦ s.latch.Sound) hsound
      (fun s event hs ↦ sound_next hs event) before
  obtain ⟨-, hfits, hrest⟩ := (Runs.Along.append _).1 hfits
  rw [Runs.run_snoc] at hheld
  have hlatched := (latch_next hreached hfits).2 (.inl hcatches)
  obtain ⟨first, hfirst, hmasked⟩ := sends_next (Runs.run Keyboards.next s before) event
  obtain ⟨later, hlater, hclean⟩ := kept_back (sound_next hreached event) hlatched hrest hheld
  -- what the report itself sends, and what is sent after it
  refine ⟨first ++ later, ?_, ?_⟩
  · rw [Runs.run_append, Runs.run_cons, hlater, hfirst, List.append_assoc]
  · intro emission hmem
    have hown : ¬emission.OwnHolds part := (List.mem_append.1 hmem).elim
      (fun hmem ↦ hmasked emission hmem part hlatched) (hclean emission)
    refine ⟨hown, fun own remote here heq hholds ↦ ?_⟩
    rw [heq] at hown
    exact holds_merge hholds hown

/-- A board of which the keyboards are at rest. -/
def atRest : Keyboards where
  locals := List.replicate 4 .empty
  maxKbdIdx := 0
  remote := .empty
  latch := .empty
  hotkeys := []
  defaults := []
  boardRole := 0
  activeOutput := 0
  os := fun _ ↦ .macos
  switchLock := false
  configMode := false
  rebootRequested := false
  tudConnected := true
  blinks := 0
  sent := []
  locals_length := length_allUp

/-- The pair chord, of which the modifiers are let go of first. -/
theorem chord_held_back_pair :
    ∃ emissions, (Runs.run Keyboards.next atRest
        [.report 0 (chordReport 0x21 0x13), .report 0 (chordReport 0 0x13)]).sent =
        atRest.sent ++ emissions ∧
      ∀ emission ∈ emissions, ¬emission.OwnHolds (.key 0x13) ∧
        ∀ own remote here, emission = .combined own remote here →
          (own.merge remote).Holds (.key 0x13) → remote.Holds (.key 0x13) := by
  refine @chord_held_back (.key 0x13) atRest rfl [] [.report 0 (chordReport 0 0x13)]
    (.report 0 (chordReport 0x21 0x13)) ⟨?_, ?_, trivial⟩ ⟨rfl, ?_⟩ ⟨fun hdrops ↦ ?_, trivial⟩
  · show (keysHeld _ _).card ≤ 6
    decide
  · show (keysHeld _ _).card ≤ 6
    decide
  · exact ⟨⟨0x21, [0x13, 0, 0, 0, 0, 0], 1, 0xfe, rfl⟩, rfl, rfl⟩
  · exact hdrops.2 (chordReport 0 0x13) (by decide) rfl

/-- After the chord the key stays latched, and so it is one of a chord that fired. -/
theorem latched_iff_pair :
    (Runs.run Keyboards.next atRest [.report 0 (chordReport 0x21 0x13)]).latch.Has (.key 0x13) ↔
      Runs.Since Keyboards.next (Catches (.key 0x13)) (Drops (.key 0x13)) atRest
        [.report 0 (chordReport 0x21 0x13)] :=
  latched_iff rfl ⟨show (keysHeld _ _).card ≤ 6 by decide, trivial⟩

end Keyboards

end DeskhopPlus.Keyboard
