import DeskhopPlus.Firmware.Pull
import DeskhopPlus.Keyboard.Hotkey
import DeskhopPlus.Library.Places

/-!
# The configuration and its fields

The bytes of `config_t`, and `api_field_map` of `protocol.c`, through which the config page reads
and writes them field by field. The fields of the map are apart from each other
(`configPlaces_apart`) and lie ahead of the checksum. The registration can be written through none
of them, and the shared secret is in none of them (`writable_spares`, `secret_unmapped`).
-/

namespace DeskhopPlus.Firmware

open Bytes Keyboard

/-! ## `output_t` -/

/-- `sizeof(output_t)`. -/
def outputSize : Nat := 168

namespace OutputPlace

/-! The places of its fields. -/

def number : Place := ⟨0, 4⟩
def screenCount : Place := ⟨4, 4⟩
def screenIndex : Place := ⟨8, 4⟩
def speedX : Place := ⟨12, 4⟩
def speedY : Place := ⟨16, 4⟩
def borderStart : Place := ⟨20, 4⟩
def borderEnd : Place := ⟨24, 4⟩
def os : Place := ⟨28, 1⟩
def chainDirection : Place := ⟨29, 1⟩
def borderDirection : Place := ⟨30, 1⟩
def mouseParkPos : Place := ⟨31, 1⟩
def swapCtrlGui : Place := ⟨32, 1⟩
def pointerSpeed : Place := ⟨33, 1⟩

/-- `seam_ranges`, each of six bytes with one of them reserved. -/
def seamScreenIndex (segment : Nat) : Place := ⟨34 + 6 * segment, 1⟩
def seamStart (segment : Nat) : Place := ⟨34 + 6 * segment + 2, 2⟩
def seamEnd (segment : Nat) : Place := ⟨34 + 6 * segment + 4, 2⟩

/-- `keymap`, of `DH_KEYMAP_PROFILE_SIZE` bytes. -/
def keymap : Place := ⟨58, 82⟩
def monitorWidth : Place := ⟨140, 2⟩
def monitorHeight : Place := ⟨142, 2⟩
def screensaverMode : Place := ⟨144, 1⟩
def onlyIfInactive : Place := ⟨145, 1⟩
def idleTimeUs : Place := ⟨152, 8⟩
def maxTimeUs : Place := ⟨160, 8⟩

end OutputPlace

/-! ## `config_t` -/

/-- `DH_HOTKEY_ACTION_COUNT`. -/
def hotkeyActionCount : Nat := 13

/-- `sizeof(dh_hotkey_t)`. -/
def hotkeySize : Nat := 9

namespace ConfigPlace

def magicHeader : Place := ⟨0, 4⟩
def version : Place := ⟨4, 4⟩
def forceMouseBootMode : Place := ⟨8, 1⟩
def forceKbdBootProtocol : Place := ⟨9, 1⟩
def kbdLedAsIndicator : Place := ⟨10, 1⟩
def hotkey (action : Nat) : Place := ⟨11 + hotkeySize * action, hotkeySize⟩
def enableAcceleration : Place := ⟨128, 1⟩
def enforcePorts : Place := ⟨129, 1⟩
def jumpThreshold : Place := ⟨130, 2⟩

/-- A field of `output[n]`, which stands on a multiple of eight. -/
def output (n : Nat) (field : Place) : Place := ⟨136 + outputSize * n + field.offset, field.length⟩

def channelHelperKeyId : Place := ⟨472, 8⟩
def channelSharedSecret : Place := ⟨480, 32⟩
def channelPaired : Place := ⟨512, 1⟩
def clipBlockAToB : Place := ⟨513, 1⟩
def clipBlockBToA : Place := ⟨514, 1⟩
def clipCapMb : Place := ⟨515, 1⟩
def ledOffMode : Place := ⟨516, 1⟩
def ledOffSec : Place := ⟨518, 2⟩
def sleepSync : Place := ⟨520, 1⟩
def sleepIdleMin : Place := ⟨521, 1⟩
def checksum : Place := ⟨524, 4⟩

end ConfigPlace

namespace Config

/-- What a field holds. -/
def read (config : Config) (p : Place) : List UInt8 := Bytes.read config.bytes p

/-- The configuration after `memcpy` to a field. Where more or other than the field is handed over,
the field keeps what it has. -/
def write (config : Config) (p : Place) (data : List UInt8) : Config :=
  if h : p.stop ≤ configSize ∧ data.length = p.length then
    ⟨Bytes.write config.bytes p data, by
      rw [write_length (by rw [config.length_bytes]; exact h.1) h.2, config.length_bytes]⟩
  else config

variable {config : Config} {p q : Place} {data : List UInt8}

theorem read_length (hfits : p.stop ≤ configSize) : (config.read p).length = p.length :=
  Bytes.read_length (by rw [config.length_bytes]; exact hfits)

theorem bytes_write (hfits : p.stop ≤ configSize) (hdata : data.length = p.length) :
    (config.write p data).bytes = Bytes.write config.bytes p data := by
  rw [write, dif_pos ⟨hfits, hdata⟩]

theorem getElem?_write {index : Nat} (hindex : ¬p.Covers index) :
    (config.write p data).bytes[index]? = config.bytes[index]? := by
  unfold write
  split
  next h => exact write_other (by rw [config.length_bytes]; exact h.1) h.2 hindex
  next => rfl

theorem read_write_apart (h : p.Apart q) : (config.write p data).read q = config.read q :=
  read_congr fun _ hq ↦ getElem?_write (h.symm.not_covers hq)

theorem eq_of_bytes {other : Config} (h : config.bytes = other.bytes) : config = other := by
  cases config
  cases other
  cases h
  rfl

/-- Writes that are apart may be swapped. -/
theorem write_comm {other : List UInt8} (h : p.Apart q) :
    (config.write p data).write q other = (config.write q other).write p data := by
  refine eq_of_bytes (List.ext_getElem? fun index ↦ ?_)
  by_cases hp : p.Covers index
  · have hq := h.not_covers hp
    rw [getElem?_write hq]
    unfold write
    split
    next hfits =>
      have hsize := fun config : Config ↦ config.length_bytes ▸ hfits.1
      rw [write_getElem? (hsize _) hfits.2, write_getElem? (hsize _) hfits.2, if_pos hp, if_pos hp]
    next => exact (getElem?_write hq).symm
  · rw [getElem?_write hp]
    unfold write
    split
    next hfits =>
      have hsize := fun config : Config ↦ config.length_bytes ▸ hfits.1
      rw [write_getElem? (hsize _) hfits.2, write_getElem? (hsize _) hfits.2]
      split
      · rfl
      · exact getElem?_write hp
    next => exact getElem?_write hp

/-- The binding of an action, as `dh_hotkey_t` lays it out. -/
def hotkey (config : Config) (action : Nat) : Hotkey :=
  let byte (i : Nat) := config.bytes.getD ((ConfigPlace.hotkey action).offset + i) 0
  { modifier := byte 0
    keys := (List.range hotkeyKeyCapacity).map fun i ↦ byte (1 + i)
    keyCount := byte 7
    actionId := byte 8
    keys_length := by rw [List.length_map, List.length_range] }

def hotkeys (config : Config) : List Hotkey := (List.range hotkeyActionCount).map config.hotkey

end Config

/-! ## The hotkey table -/

/-- One turn of the loop of `dh_hotkey_table_is_valid`: the actions seen so far with the binding's,
or none if the binding is refused. -/
def seeBinding (seen : UInt16) (binding : Hotkey) : Option UInt16 :=
  let bit : UInt16 := 1 <<< binding.actionId.toUInt16
  if hotkeyActionCount ≤ binding.actionId.toNat ∨ hotkeyKeyCapacity < binding.keyCount.toNat ∨
      (binding.modifier = 0 ∧ binding.keyCount = 0) ∨ seen &&& bit ≠ 0 then none
  else if 0 ∈ binding.keys.take binding.keyCount.toNat then none
  else some (seen ||| bit)

/-- `dh_hotkey_table_is_valid`. -/
def hotkeyTableIsValid (hotkeys : List Hotkey) : Bool :=
  hotkeys.length == hotkeyActionCount &&
    hotkeys.foldlM seeBinding 0 == some (1 <<< hotkeyActionCount.toUInt16 - 1)

/-! ## The field map -/

/-- What the map reaches of `device_t` besides the configuration. -/
inductive DeviceField where
  | activeOutput | pointerX | pointerY | mouseButtons
  | runningFwVersion | runningFwChecksum | peerFwVersion | peerFwChecksum
  | keyboardConnected | switchLock | relativeMouse | devBuild
  | reportsDropped | inboundDropped | outqRefused
  | relayDropped | relayOrphans | relayTruncated | relayRefused
  deriving DecidableEq, Repr

/-- Where a field of the map lies. -/
inductive FieldOffset where
  | config (offset : Nat)
  | device (field : DeviceField)
  deriving DecidableEq, Repr

/-- `field_map_t`. -/
structure FieldMap where
  idx : Nat
  readonly : Bool
  len : Nat
  offset : FieldOffset
  deriving DecidableEq, Repr

namespace FieldMap

/-- A row of the map for a field of the configuration. -/
def ofConfig (idx : Nat) (readonly : Bool) (p : Place) : FieldMap :=
  ⟨idx, readonly, p.length, .config p.offset⟩

/-- A read-only row for another field. -/
def ofDevice (idx len : Nat) (field : DeviceField) : FieldMap := ⟨idx, true, len, .device field⟩

/-- The bytes of the configuration the row reaches. -/
def place (map : FieldMap) : Option Place :=
  match map.offset with
  | .config offset => some ⟨offset, map.len⟩
  | .device _ => none

theorem place_eq_some {map : FieldMap} {p : Place} (hplace : map.place = some p) :
    ∃ offset, map.offset = .config offset ∧ p = ⟨offset, map.len⟩ := by
  unfold place at hplace
  cases hoffset : map.offset with
  | config offset =>
      rw [hoffset] at hplace
      exact ⟨offset, rfl, (Option.some.inj hplace).symm⟩
  | device field =>
      rw [hoffset] at hplace
      cases hplace

end FieldMap

/-- The rows of one output, up to its keymap. Its timers go by their first seven bytes, as many as a
packet carries. -/
def outputFields (base n : Nat) : List FieldMap :=
  [.ofConfig base false (ConfigPlace.output n OutputPlace.number),
   .ofConfig (base + 1) false (ConfigPlace.output n OutputPlace.screenCount),
   .ofConfig (base + 2) false (ConfigPlace.output n OutputPlace.speedX),
   .ofConfig (base + 3) false (ConfigPlace.output n OutputPlace.speedY),
   .ofConfig (base + 4) false (ConfigPlace.output n OutputPlace.borderStart),
   .ofConfig (base + 5) false (ConfigPlace.output n OutputPlace.borderEnd),
   .ofConfig (base + 6) false (ConfigPlace.output n OutputPlace.os),
   .ofConfig (base + 7) false (ConfigPlace.output n OutputPlace.borderDirection),
   .ofConfig (base + 8) false (ConfigPlace.output n OutputPlace.mouseParkPos),
   .ofConfig (base + 9) false (ConfigPlace.output n OutputPlace.screensaverMode),
   .ofConfig (base + 10) false (ConfigPlace.output n OutputPlace.onlyIfInactive),
   .ofConfig (base + 11) false (ConfigPlace.output n { OutputPlace.idleTimeUs with length := 7 }),
   .ofConfig (base + 12) false (ConfigPlace.output n { OutputPlace.maxTimeUs with length := 7 }),
   .ofConfig (base + 13) false (ConfigPlace.output n OutputPlace.swapCtrlGui)]

/-- `DH_KEYMAP_CONFIG_CHUNKS`: the keymap in twelve rows of seven bytes, the last one shorter. -/
def keymapFields (base n : Nat) : List FieldMap :=
  (List.range 12).map fun chunk ↦
    .ofConfig (base + chunk) false (ConfigPlace.output n
      ⟨OutputPlace.keymap.offset + 7 * chunk, min 7 (OutputPlace.keymap.length - 7 * chunk)⟩)

/-- `SEAM_RANGE_FIELDS` of the four segments. -/
def seamFields (base n : Nat) : List FieldMap :=
  (List.range 4).flatMap fun segment ↦
    [.ofConfig (base + segment * 3) false
      (ConfigPlace.output n (OutputPlace.seamScreenIndex segment)),
     .ofConfig (base + segment * 3 + 1) false
       (ConfigPlace.output n (OutputPlace.seamStart segment)),
     .ofConfig (base + segment * 3 + 2) false (ConfigPlace.output n (OutputPlace.seamEnd segment))]

/-- `WINDOWS_POINTER_FIELDS`. -/
def windowsPointerFields (base n : Nat) : List FieldMap :=
  [.ofConfig base false (ConfigPlace.output n OutputPlace.pointerSpeed),
   .ofConfig (base + 1) false (ConfigPlace.output n OutputPlace.monitorWidth),
   .ofConfig (base + 2) false (ConfigPlace.output n OutputPlace.monitorHeight)]

/-- `DH_HOTKEY_ACTION`: a binding in two rows, of six bytes and of three. -/
def hotkeyFields (base : Nat) : List FieldMap :=
  (List.range hotkeyActionCount).flatMap fun action ↦
    [.ofConfig (base + 2 * action) false ⟨(ConfigPlace.hotkey action).offset, 6⟩,
     .ofConfig (base + 2 * action + 1) false ⟨(ConfigPlace.hotkey action).offset + 6, 3⟩]

/-- `api_field_map`. -/
def apiFieldMap : List FieldMap :=
  [.ofDevice 0 1 .activeOutput, .ofDevice 1 2 .pointerX, .ofDevice 2 2 .pointerY,
   .ofDevice 3 2 .mouseButtons] ++
  outputFields 10 0 ++ keymapFields 24 0 ++ outputFields 40 1 ++ keymapFields 54 1 ++
  [.ofConfig 70 false ConfigPlace.version, .ofConfig 71 false ConfigPlace.forceMouseBootMode,
   .ofConfig 72 false ConfigPlace.forceKbdBootProtocol,
   .ofConfig 73 false ConfigPlace.kbdLedAsIndicator,
   .ofConfig 75 false ConfigPlace.enableAcceleration, .ofConfig 76 false ConfigPlace.enforcePorts,
   .ofConfig 77 false ConfigPlace.jumpThreshold,
   .ofDevice 78 2 .runningFwVersion, .ofDevice 79 4 .runningFwChecksum,
   .ofDevice 84 2 .peerFwVersion, .ofDevice 85 4 .peerFwChecksum,
   .ofDevice 80 1 .keyboardConnected, .ofDevice 81 1 .switchLock, .ofDevice 82 1 .relativeMouse,
   .ofDevice 83 1 .devBuild,
   .ofConfig 86 true ⟨ConfigPlace.channelHelperKeyId.offset, 4⟩,
   .ofConfig 87 true ⟨ConfigPlace.channelHelperKeyId.offset + 4, 4⟩,
   .ofConfig 88 true ConfigPlace.channelPaired,
   .ofConfig 89 false ConfigPlace.clipBlockAToB, .ofConfig 90 false ConfigPlace.clipBlockBToA,
   .ofConfig 100 false ConfigPlace.clipCapMb,
   .ofConfig 101 false ConfigPlace.ledOffMode, .ofConfig 102 false ConfigPlace.ledOffSec,
   .ofConfig 103 false ConfigPlace.sleepSync, .ofConfig 104 false ConfigPlace.sleepIdleMin,
   .ofDevice 91 4 .reportsDropped, .ofDevice 92 4 .inboundDropped, .ofDevice 93 4 .outqRefused,
   .ofDevice 94 4 .relayDropped, .ofDevice 95 4 .relayOrphans, .ofDevice 96 4 .relayTruncated,
   .ofDevice 97 4 .relayRefused,
   .ofConfig 98 false (ConfigPlace.output 0 OutputPlace.chainDirection),
   .ofConfig 99 false (ConfigPlace.output 1 OutputPlace.chainDirection)] ++
  seamFields 140 0 ++ seamFields 152 1 ++ windowsPointerFields 164 0 ++
  windowsPointerFields 167 1 ++ hotkeyFields 110

/-- `get_field_map_entry`. -/
def getFieldMapEntry (index : Nat) : Option FieldMap := apiFieldMap.find? (·.idx == index)

/-- `get_field_map_index`: an index past the map is its last row. -/
def getFieldMapIndex (index : Nat) : Option FieldMap :=
  apiFieldMap[min index (apiFieldMap.length - 1)]?

/-- The places of the configuration the map reaches, row by row. -/
def configPlaces : List Place := apiFieldMap.filterMap FieldMap.place

/-! ## The map as a whole -/

section Map

set_option maxRecDepth 8192

theorem apiFieldMap_length : apiFieldMap.length = 146 := by decide

/-- No two rows have one id. -/
theorem apiFieldMap_idx_nodup : (apiFieldMap.map FieldMap.idx).Nodup := by decide

/-- No two rows share a byte. -/
theorem configPlaces_apart : configPlaces.Pairwise Place.Apart := by decide

/-- An id is a byte, and a value fits a packet behind it. -/
theorem apiFieldMap_bounds : ∀ map ∈ apiFieldMap, map.idx < 256 ∧ map.len ≤ 7 := by decide

theorem configPlaces_inside : ∀ p ∈ configPlaces, p.stop ≤ ConfigPlace.checksum.offset := by decide

/-- No row reaches the shared secret. -/
theorem secret_unmapped : ∀ p ∈ configPlaces, ConfigPlace.channelSharedSecret.Apart p := by decide

/-- What only the board itself writes. -/
def guardedPlaces : List Place :=
  [ConfigPlace.magicHeader, ConfigPlace.channelHelperKeyId, ConfigPlace.channelSharedSecret,
   ConfigPlace.channelPaired, ConfigPlace.checksum]

/-- A row that may be written is of the configuration, and of nothing the board guards. -/
theorem writable_spares : ∀ map ∈ apiFieldMap, map.readonly = false →
    ∃ p, map.place = some p ∧ ∀ guarded ∈ guardedPlaces, guarded.Apart p := by
  have hall : apiFieldMap.all fun map ↦ map.readonly || (map.place.any fun p ↦
      guardedPlaces.all fun guarded ↦ decide (guarded.Apart p)) := by decide
  intro map hmem hwritable
  have hmap := List.all_eq_true.1 hall map hmem
  rw [hwritable, Bool.false_or] at hmap
  obtain ⟨p, hp, hguarded⟩ := Option.any_eq_true .. |>.1 hmap
  exact ⟨p, hp, fun guarded hmem ↦ of_decide_eq_true (List.all_eq_true.1 hguarded guarded hmem)⟩

end Map

theorem mem_configPlaces {map : FieldMap} (hmem : map ∈ apiFieldMap) {p : Place}
    (hplace : map.place = some p) : p ∈ configPlaces :=
  List.mem_filterMap.2 ⟨map, hmem, hplace⟩

/-- A row is found by its id. -/
theorem getFieldMapEntry_idx {map : FieldMap} (hmem : map ∈ apiFieldMap) :
    getFieldMapEntry map.idx = some map := by
  have hfound : ∀ maps : List FieldMap, (maps.map FieldMap.idx).Nodup → map ∈ maps →
      maps.find? (·.idx == map.idx) = some map := by
    intro maps hnodup hmem
    induction maps with
    | nil => cases hmem
    | cons first rest ih =>
        rw [List.map_cons, List.nodup_cons] at hnodup
        rcases List.mem_cons.1 hmem with rfl | hmem
        · exact List.find?_cons_of_pos (beq_self_eq_true _)
        · rw [List.find?_cons_of_neg]
          · exact ih hnodup.2 hmem
          · intro hsame
            exact hnodup.1 (List.mem_map.2 ⟨map, hmem, (eq_of_beq hsame).symm⟩)
  exact hfound apiFieldMap apiFieldMap_idx_nodup hmem

theorem exists_getFieldMapIndex (index : Nat) : ∃ map, getFieldMapIndex index = some map := by
  have hinside : min index (apiFieldMap.length - 1) < apiFieldMap.length := by
    rw [apiFieldMap_length]
    omega
  exact ⟨_, List.getElem?_eq_getElem hinside⟩

theorem mem_of_getFieldMapEntry {index : Nat} {map : FieldMap}
    (h : getFieldMapEntry index = some map) :
    map ∈ apiFieldMap :=
  List.mem_of_find?_eq_some h

end DeskhopPlus.Firmware
