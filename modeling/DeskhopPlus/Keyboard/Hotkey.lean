import DeskhopPlus.Library.StableSort
import Mathlib.Tactic.IntervalCases

/-!
# Hotkeys

The table of hotkeys of `dh_hotkey.c` and the search for the binding a keyboard report holds. The
table is sorted once, the most specific bindings first, so that of two chords of which one contains
the other the larger fires; `hotkeys_match` says which binding is found.
-/

namespace DeskhopPlus.Keyboard

open StableSort

/-- `DH_HOTKEY_KEY_CAPACITY`. -/
def hotkeyKeyCapacity : Nat := 6

/-- `dh_hotkey_t`. -/
structure Hotkey where
  modifier : UInt8
  keys : List UInt8
  keyCount : UInt8
  actionId : UInt8
  keys_length : keys.length = hotkeyKeyCapacity
  deriving DecidableEq

/-- The loop of `modifier_count`, over so many bits. -/
def countBits : Nat → Nat → Nat
  | 0, _ => 0
  | bits + 1, modifier =>
      if modifier = 0 then 0 else (modifier &&& 1) + countBits bits (modifier >>> 1)

/-- `modifier_count`. -/
def modifierCount (modifier : UInt8) : Nat := countBits 8 modifier.toNat

namespace Hotkey

/-- `specificity`. -/
def specificity (hotkey : Hotkey) : Nat := modifierCount hotkey.modifier + hotkey.keyCount.toNat

end Hotkey

/-- `dh_hotkey_prepare`. -/
def prepare (hotkeys : List Hotkey) : List Hotkey := sortInPlace Hotkey.specificity hotkeys

/-- `contains_key`. -/
def containsKey (keys : List UInt8) (wanted : UInt8) : Bool := wanted != 0 && keys.contains wanted

/-- The test `dh_hotkey_match` makes of a binding. -/
def Hotkey.matchesReport (modifier : UInt8) (keys : List UInt8) (hotkey : Hotkey) : Bool :=
  decide (hotkey.keyCount.toNat ≤ hotkeyKeyCapacity) &&
    hotkey.modifier == modifier &&& hotkey.modifier &&
    (hotkey.keys.take hotkey.keyCount.toNat).all (containsKey keys)

/-- `dh_hotkey_match`. -/
def hotkeyMatch (hotkeys : List Hotkey) (modifier : UInt8) (keys : List UInt8) : Option Hotkey :=
  hotkeys.find? (Hotkey.matchesReport modifier keys)

/-- The recovery chord and the pair chord. -/
def fixedChords : List Hotkey :=
  [⟨0x21, [0x06, 0x12, 0, 0, 0, 0], 2, 10, rfl⟩, ⟨0x21, [0x13, 0, 0, 0, 0, 0], 1, 0xfe, rfl⟩]

/-- `dh_hotkey_match_with_fixed`. -/
def hotkeyMatchWithFixed (hotkeys : List Hotkey) (modifier : UInt8) (keys : List UInt8) :
    Option Hotkey :=
  match hotkeyMatch fixedChords modifier keys with
  | some chord => some chord
  | none => hotkeyMatch hotkeys modifier keys

/-! ## Bindings that are held -/

/-- Every modifier and every key of the binding is held. No report holds a binding with more keys
than it has room for, or one with a key that is none. -/
def Hotkey.Held (hotkey : Hotkey) (modifier : UInt8) (keys : List UInt8) : Prop :=
  hotkey.keyCount.toNat ≤ hotkeyKeyCapacity ∧ hotkey.modifier = modifier &&& hotkey.modifier ∧
    ∀ key ∈ hotkey.keys.take hotkey.keyCount.toNat, key ≠ 0 ∧ key ∈ keys

variable {hotkeys : List Hotkey} {modifier : UInt8} {keys : List UInt8}

theorem matchesReport_iff (hotkey : Hotkey) :
    hotkey.matchesReport modifier keys = true ↔ hotkey.Held modifier keys := by
  simp [Hotkey.matchesReport, Hotkey.Held, containsKey, and_assoc]

theorem hotkeyMatch_none :
    hotkeyMatch hotkeys modifier keys = none ↔ ∀ hotkey ∈ hotkeys, ¬ hotkey.Held modifier keys := by
  simp only [hotkeyMatch, List.find?_eq_none, matchesReport_iff]

theorem hotkeyMatch_some {found : Hotkey} (h : hotkeyMatch hotkeys modifier keys = some found) :
    found ∈ hotkeys ∧ found.Held modifier keys :=
  ⟨List.mem_of_find?_eq_some h, (matchesReport_iff found).1 (List.find?_some h)⟩

theorem hotkeyMatchWithFixed_none :
    hotkeyMatchWithFixed hotkeys modifier keys = none ↔
      ∀ hotkey ∈ fixedChords ++ hotkeys, ¬ hotkey.Held modifier keys := by
  rw [hotkeyMatchWithFixed, List.forall_mem_append, ← hotkeyMatch_none, ← hotkeyMatch_none]
  cases hotkeyMatch fixedChords modifier keys <;> simp

/-- A report that holds all that another holds. -/
def HoldsMore (modifier : UInt8) (keys : List UInt8) (modifier' : UInt8) (keys' : List UInt8) :
    Prop :=
  modifier = modifier' &&& modifier ∧ ∀ key ∈ keys, key ≠ 0 → key ∈ keys'

/-- With more keys or modifiers held, a binding is still held. -/
theorem Hotkey.Held.more {hotkey : Hotkey} (h : hotkey.Held modifier keys) {modifier' : UInt8}
    {keys' : List UInt8} (hmore : HoldsMore modifier keys modifier' keys') :
    hotkey.Held modifier' keys' := by
  obtain ⟨hcount, hmodifier, hkeys⟩ := h
  obtain ⟨hmodifiers, hkeys'⟩ := hmore
  refine ⟨hcount, ?_, fun key hkey ↦ ?_⟩
  · calc hotkey.modifier = modifier &&& hotkey.modifier := hmodifier
      _ = (modifier' &&& modifier) &&& hotkey.modifier := by rw [← hmodifiers]
      _ = modifier' &&& (modifier &&& hotkey.modifier) := UInt8.and_assoc ..
      _ = modifier' &&& hotkey.modifier := by rw [← hmodifier]
  · obtain ⟨hnone, hheld⟩ := hkeys key hkey
    exact ⟨hnone, hkeys' key hheld hnone⟩

/-- Which binding of a table a report finds. -/
structure FindsRightly (hotkeys : List Hotkey) (modifier : UInt8) (keys : List UInt8) : Prop where
  fixed : (∃ chord ∈ fixedChords, chord.Held modifier keys) →
    ∃ chord ∈ fixedChords, chord.Held modifier keys ∧
      hotkeyMatchWithFixed (prepare hotkeys) modifier keys = some chord
  configured : (∀ chord ∈ fixedChords, ¬ chord.Held modifier keys) → ∀ found,
    hotkeyMatchWithFixed (prepare hotkeys) modifier keys = some found →
    found.Held modifier keys ∧
    (∀ hotkey ∈ hotkeys, hotkey.Held modifier keys → hotkey.specificity ≤ found.specificity) ∧
    ∃ before after, hotkeys = before ++ found :: after ∧
      ∀ hotkey ∈ before, hotkey.Held modifier keys → hotkey.specificity < found.specificity
  none_iff : hotkeyMatchWithFixed (prepare hotkeys) modifier keys = none ↔
    ∀ hotkey ∈ fixedChords ++ hotkeys, ¬ hotkey.Held modifier keys
  more : ∀ modifier' keys', HoldsMore modifier keys modifier' keys' →
    hotkeyMatchWithFixed (prepare hotkeys) modifier keys ≠ none →
    hotkeyMatchWithFixed (prepare hotkeys) modifier' keys' ≠ none

/-- The table is sorted by specificity with equals in their order. A report that holds a fixed chord
finds one; any other finds a binding it holds of the greatest specificity, the first configured of
equals, and none only where it holds no binding; and more keys or modifiers held still find one. -/
theorem hotkeys_match (hotkeys : List Hotkey) :
    StableSorted Hotkey.specificity hotkeys (prepare hotkeys) ∧
    ∀ modifier keys, FindsRightly hotkeys modifier keys := by
  have hsorted : StableSorted Hotkey.specificity hotkeys (prepare hotkeys) :=
    stableSorted_sortInPlace hotkeys
  have hnone : ∀ modifier keys, hotkeyMatchWithFixed (prepare hotkeys) modifier keys = none ↔
      ∀ hotkey ∈ fixedChords ++ hotkeys, ¬ hotkey.Held modifier keys := by
    intro modifier keys
    rw [hotkeyMatchWithFixed_none]
    simp only [List.mem_append, hsorted.perm.mem_iff]
  refine ⟨hsorted, fun modifier keys ↦ ⟨?_, ?_, hnone modifier keys, ?_⟩⟩
  · rintro ⟨chord, hchord, hheld⟩
    rcases hfound : hotkeyMatch fixedChords modifier keys with - | found
    · exact absurd hheld (hotkeyMatch_none.1 hfound chord hchord)
    · obtain ⟨hmem, hfoundHeld⟩ := hotkeyMatch_some hfound
      exact ⟨found, hmem, hfoundHeld, by rw [hotkeyMatchWithFixed, hfound]⟩
  · intro hfixed found hfound
    rw [hotkeyMatchWithFixed, hotkeyMatch_none.2 hfixed] at hfound
    obtain ⟨hgreatest, before, after, hsplit, hbefore⟩ := hsorted.find?_greatest hfound
    simp only [matchesReport_iff] at hgreatest hbefore
    exact ⟨(hotkeyMatch_some hfound).2, hgreatest, before, after, hsplit, hbefore⟩
  · intro modifier' keys' hmore hsome
    rw [Ne, hnone] at hsome ⊢
    intro hother
    exact hsome fun hotkey hmem hheld ↦ hother hotkey hmem (hheld.more hmore)

end DeskhopPlus.Keyboard
