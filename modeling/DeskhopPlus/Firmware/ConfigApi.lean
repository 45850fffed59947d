import DeskhopPlus.Firmware.ConfigLayout
import DeskhopPlus.Library.Runs
import DeskhopPlus.Link.Packet
import Mathlib.Logic.Function.Basic

/-!
# The config API

`handle_api_msgs` and `handle_api_read_all_step` of `handlers.c`, with the walk of
`config_read_all.c` and the queue to the host: the config page reads and writes a board field by
field. Main theorems: `secret_untold`, by which nothing the page is ever told depends on the shared
secret, `registration_kept`, by which no field it writes changes the registration, and
`settings_restored`, by which the answers to a Read All, sent back to any board, give it the
settings they were read from and leave the rest of it alone.
-/

namespace DeskhopPlus.Firmware

open Bytes Runs
open DeskhopPlus.Link (Packet)

/-- `HID_QUEUE_LENGTH`. -/
def hidQueueLength : Nat := 256

/-- `CONFIG_MODE_TIMEOUT`, in microseconds. -/
def configModeTimeout : Nat := 300 * 1000000

/-! ## The walk over the map -/

/-- `config_read_all_t`. -/
structure ConfigReadAll where
  pending : UInt16
  count : UInt16
  deriving DecidableEq

namespace ConfigReadAll

variable (walk : ConfigReadAll)

/-- `config_read_all_start`. -/
def start (fieldCount : UInt16) : ConfigReadAll := ⟨fieldCount, fieldCount⟩

/-- `config_read_all_peek`. -/
def peek : Option UInt16 := if walk.pending = 0 then none else some (walk.count - walk.pending)

/-- `config_read_all_sent`: a field the walk is not on is not confirmed. -/
def sent (index : UInt16) : ConfigReadAll :=
  if walk.peek = some index then { walk with pending := walk.pending - 1 } else walk

/-- `config_read_all_stop`. -/
def stop : ConfigReadAll := { walk with pending := 0 }

end ConfigReadAll

/-! ## The board, as the page sees it -/

/-- What waits for the host: an answer to the page, or a report of another kind, which shares the
queue. -/
inductive HidPacket where
  | answer (packet : Packet)
  | control (report : List UInt8)
  deriving DecidableEq

/-- What the API reads and writes of `device_t`. A field outside the configuration is kept as the
number its bytes spell. `heard` is what has left the queue. -/
structure Api where
  config : Config
  device : DeviceField → Nat
  configModeActive : Bool
  configModeTimer : Nat
  readAll : ConfigReadAll
  hidQueueOut : List HidPacket
  heard : List HidPacket

namespace Api

variable (s : Api)

/-- The bytes of a field. -/
def value (map : FieldMap) : List UInt8 :=
  match map.offset with
  | .config offset => s.config.read ⟨offset, map.len⟩
  | .device field => littleEndian map.len (s.device field)

/-- `memcpy` to a field. -/
def setValue (map : FieldMap) (data : List UInt8) : Api :=
  match map.offset with
  | .config offset => { s with config := s.config.write ⟨offset, map.len⟩ data }
  | .device field => { s with device := Function.update s.device field (Bytes.value data) }

/-- `_queue_packet`: a full queue takes nothing. -/
def queuePacket (packet : HidPacket) : Api × Bool :=
  if s.hidQueueOut.length < hidQueueLength then
    ({ s with hidQueueOut := s.hidQueueOut ++ [packet] }, true)
  else (s, false)

/-- `queue_cfg_packet`: outside config mode the interface is a helper's. -/
def queueCfgPacket (packet : Packet) : Api × Bool :=
  if s.configModeActive = false then (s, false) else s.queuePacket (.answer packet)

theorem length_answer (idx : Nat) (value : List UInt8) :
    ((UInt8.ofNat idx :: value).take Link.packetDataLength).length ≤ Link.packetDataLength :=
  List.length_take_le ..

/-- The answer `queue_api_value` makes: the id, and the value behind it. -/
def answer (map : FieldMap) : Packet :=
  .build Link.PacketType.getVal ((UInt8.ofNat map.idx :: s.value map).take Link.packetDataLength)
    (length_answer map.idx (s.value map))

/-- `queue_api_value`. -/
def queueApiValue (map : FieldMap) : Api × Bool := s.queueCfgPacket (s.answer map)

/-- `reset_config_timer`. -/
def resetConfigTimer (nowUs : Nat) : Api := { s with configModeTimer := nowUs + configModeTimeout }

/-- `handle_api_msgs`. The value of a message stands behind its id. -/
def handleApiMsgs (packet : Packet) (nowUs : Nat) : Api :=
  match getFieldMapEntry (packet.data.headD 0).toNat with
  | none => s
  | some map =>
      if packet.type = Link.PacketType.setVal then
        if map.readonly then s
        else (s.setValue map (packet.data.tail.take map.len)).resetConfigTimer nowUs
      else if packet.type = Link.PacketType.getVal then
        (s.queueApiValue map).1.resetConfigTimer nowUs
      else s.resetConfigTimer nowUs

/-- `handle_api_read_all_msg`. -/
def handleApiReadAllMsg (nowUs : Nat) : Api :=
  { s with readAll := .start (UInt16.ofNat apiFieldMap.length) }.resetConfigTimer nowUs

/-- `handle_api_read_all_step`: one field, into an idle queue. -/
def handleApiReadAllStep : Api :=
  if s.configModeActive = false then { s with readAll := s.readAll.stop }
  else if s.hidQueueOut ≠ [] then s
  else
    match s.readAll.peek with
    | none => s
    | some index =>
        match getFieldMapIndex index.toNat with
        | none => s
        | some map =>
            if (s.queueApiValue map).2 then
              { (s.queueApiValue map).1 with readAll := s.readAll.sent index }
            else (s.queueApiValue map).1

/-- The head of the queue leaves it, sent or thrown away. -/
def drain : Api :=
  { s with hidQueueOut := s.hidQueueOut.tail, heard := s.heard ++ s.hidQueueOut.take 1 }

end Api

/-- What happens to a board: a message of the page, the walk and the queue moving on, another report
for the host, and the rest of the board changing a field outside the configuration. -/
inductive ApiEvent where
  | message (packet : Packet) (nowUs : Nat)
  | readAll (nowUs : Nat)
  | step
  | drain
  | control (report : List UInt8)
  | configMode (active : Bool)
  | device (field : DeviceField) (value : Nat)

/-- One event. -/
def Api.next (s : Api) : ApiEvent → Api
  | .message packet nowUs => s.handleApiMsgs packet nowUs
  | .readAll nowUs => s.handleApiReadAllMsg nowUs
  | .step => s.handleApiReadAllStep
  | .drain => s.drain
  | .control report => (s.queuePacket (.control report)).1
  | .configMode active => { s with configModeActive := active }
  | .device field value => { s with device := Function.update s.device field value }

namespace Api

variable {s : Api}

/-! ## The shared secret -/

/-- The board with another shared secret. -/
def withSecret (secret : List UInt8) (s : Api) : Api :=
  { s with config := s.config.write ConfigPlace.channelSharedSecret secret }

theorem value_withSecret (secret : List UInt8) {map : FieldMap} (hmem : map ∈ apiFieldMap) :
    (s.withSecret secret).value map = s.value map := by
  have hplace := @mem_configPlaces map hmem
  unfold value
  unfold FieldMap.place at hplace
  split
  next offset hoffset =>
    rw [hoffset] at hplace
    exact Config.read_write_apart (secret_unmapped _ (hplace rfl))
  next => rfl

theorem setValue_withSecret (secret : List UInt8) {map : FieldMap} (hmem : map ∈ apiFieldMap)
    (data : List UInt8) :
    (s.withSecret secret).setValue map data = (s.setValue map data).withSecret secret := by
  have hplace := @mem_configPlaces map hmem
  unfold setValue
  unfold FieldMap.place at hplace
  split
  next offset hoffset =>
    rw [hoffset] at hplace
    have hcomm := @Config.write_comm s.config _ _ secret data (secret_unmapped _ (hplace rfl))
    exact congrArg (fun config : Config ↦ { s with config := config }) hcomm
  next => rfl

theorem queuePacket_withSecret (secret : List UInt8) (packet : HidPacket) :
    (s.withSecret secret).queuePacket packet =
      ((s.queuePacket packet).1.withSecret secret, (s.queuePacket packet).2) := by
  unfold queuePacket
  show (if s.hidQueueOut.length < hidQueueLength then _ else _) = _
  split <;> rfl

theorem queueApiValue_withSecret (secret : List UInt8) {map : FieldMap} (hmem : map ∈ apiFieldMap) :
    (s.withSecret secret).queueApiValue map =
      ((s.queueApiValue map).1.withSecret secret, (s.queueApiValue map).2) := by
  have hanswer : (s.withSecret secret).answer map = s.answer map := by
    have hvalue := @value_withSecret s secret map hmem
    unfold answer
    simp only [hvalue]
  unfold queueApiValue
  rw [hanswer]
  unfold queueCfgPacket
  show (if s.configModeActive = false then _ else _) = _
  split
  · rfl
  · exact queuePacket_withSecret secret _

theorem handleApiReadAllStep_withSecret (secret : List UInt8) :
    (s.withSecret secret).handleApiReadAllStep = s.handleApiReadAllStep.withSecret secret := by
  unfold handleApiReadAllStep
  show (if s.configModeActive = false then _ else if s.hidQueueOut ≠ [] then _ else
    match s.readAll.peek with
    | none => s.withSecret secret
    | some index => _) = _
  split
  · rfl
  · split
    · rfl
    · cases s.readAll.peek with
      | none => rfl
      | some index =>
          dsimp only
          cases hmap : getFieldMapIndex index.toNat with
          | none => rfl
          | some map =>
              have hmem : map ∈ apiFieldMap := List.mem_of_getElem? hmap
              simp only [queueApiValue_withSecret secret hmem]
              split <;> rfl

/-- Whatever happens, it happens alike with another secret. -/
theorem next_withSecret (secret : List UInt8) (event : ApiEvent) :
    (s.withSecret secret).next event = (s.next event).withSecret secret := by
  cases event with
  | message packet nowUs =>
      show (s.withSecret secret).handleApiMsgs packet nowUs =
        (s.handleApiMsgs packet nowUs).withSecret secret
      unfold handleApiMsgs
      cases hentry : getFieldMapEntry (packet.data.headD 0).toNat with
      | none => rfl
      | some map =>
          -- a field of the map does not reach the secret
          have hmem := mem_of_getFieldMapEntry hentry
          dsimp only
          split
          · split
            · rfl
            · rw [setValue_withSecret secret hmem]
              rfl
          · split
            · rw [queueApiValue_withSecret secret hmem]
              rfl
            · rfl
  | readAll nowUs => rfl
  | step => exact handleApiReadAllStep_withSecret secret
  | drain => rfl
  | control report =>
      show ((s.withSecret secret).queuePacket (.control report)).1 = _
      rw [queuePacket_withSecret]
      rfl
  | configMode active => rfl
  | device field value => rfl

/-- Nothing the host is ever told depends on the shared secret: a board with another secret goes
through the same run with the same answers, and keeps its own secret. -/
theorem secret_untold (s : Api) (secret : List UInt8) (events : List ApiEvent) :
    run Api.next (s.withSecret secret) events = (run Api.next s events).withSecret secret :=
  run_map (fun _ ↦ next_withSecret secret) s events

/-! ## The registration -/

theorem value_of_place {map : FieldMap} {p : Place} (hplace : map.place = some p) :
    s.value map = s.config.read p := by
  obtain ⟨offset, hoffset, rfl⟩ := FieldMap.place_eq_some hplace
  simp only [value, hoffset]

theorem setValue_of_place {map : FieldMap} {p : Place} (hplace : map.place = some p)
    (data : List UInt8) :
    s.setValue map data = { s with config := s.config.write p data } := by
  obtain ⟨offset, hoffset, rfl⟩ := FieldMap.place_eq_some hplace
  simp only [setValue, hoffset]

/-- The places the board guards hold what they held. -/
def Guarded (s s' : Api) : Prop := ∀ p ∈ guardedPlaces, s'.config.read p = s.config.read p

theorem guarded_setValue {map : FieldMap} (hmem : map ∈ apiFieldMap)
    (hwritable : map.readonly = false) (data : List UInt8) : Guarded s (s.setValue map data) := by
  obtain ⟨p, hplace, hspares⟩ := writable_spares map hmem hwritable
  intro guarded hguarded
  rw [setValue_of_place hplace]
  exact Config.read_write_apart (hspares guarded hguarded).symm

theorem config_queuePacket (packet : HidPacket) : (s.queuePacket packet).1.config = s.config := by
  unfold queuePacket
  split <;> rfl

theorem config_queueApiValue (map : FieldMap) : (s.queueApiValue map).1.config = s.config := by
  unfold queueApiValue queueCfgPacket
  split
  · rfl
  · exact config_queuePacket _

theorem config_handleApiReadAllStep : s.handleApiReadAllStep.config = s.config := by
  unfold handleApiReadAllStep
  split
  · rfl
  · split
    · rfl
    · split
      · rfl
      · split
        · rfl
        · split
          · exact config_queueApiValue _
          · exact config_queueApiValue _

theorem guarded_next (event : ApiEvent) : Guarded s (s.next event) := by
  have hsame : ∀ s' : Api, s'.config = s.config → Guarded s s' := by
    intro s' hconfig p _
    rw [hconfig]
  cases event with
  | message packet nowUs =>
      show Guarded s (s.handleApiMsgs packet nowUs)
      unfold handleApiMsgs
      split
      · exact hsame _ rfl
      next map hentry =>
        split
        · split
          · exact hsame _ rfl
          next hwritable =>
            exact guarded_setValue (mem_of_getFieldMapEntry hentry)
              (Bool.eq_false_of_not_eq_true hwritable) _
        · split
          · exact hsame _ (config_queueApiValue map)
          · exact hsame _ rfl
  | readAll nowUs => exact hsame _ rfl
  | step => exact hsame _ config_handleApiReadAllStep
  | drain => exact hsame _ rfl
  | control report => exact hsame _ (config_queuePacket _)
  | configMode active => exact hsame _ rfl
  | device field value => exact hsame _ rfl

/-- Nothing that is read or written field by field changes the registration: over every run the
board's magic word, the id of its helper's key, the shared secret, whether it is paired and the
stored checksum stay what they were. -/
theorem registration_kept (s : Api) (events : List ApiEvent) :
    ∀ p ∈ guardedPlaces, (run Api.next s events).config.read p = s.config.read p :=
  run_invariant (Guarded s) (fun _ _ ↦ rfl)
    (fun _ event hkept p hmem ↦ (guarded_next event p hmem).trans (hkept p hmem)) events

/-- A board with a configuration of zeros. -/
def zeros : Api where
  config := ⟨List.replicate configSize 0, List.length_replicate⟩
  device := fun _ ↦ 0
  configModeActive := false
  configModeTimer := 0
  readAll := ⟨0, 0⟩
  hidQueueOut := []
  heard := []

/-- In config mode, messages that write the jump threshold and a field that is read only, and the
start of a Read All. -/
def writesAndReads : List ApiEvent :=
  [.configMode true, .message (.build Link.PacketType.setVal [77, 5, 0] (by decide)) 0,
   .message (.build Link.PacketType.setVal [88, 5, 0] (by decide)) 1, .readAll 2, .step, .drain]

/-- The threshold is written, and the shared secret is kept. -/
theorem registration_kept_secret :
    (run Api.next zeros writesAndReads).config.read ConfigPlace.jumpThreshold = [5, 0] ∧
      (run Api.next zeros writesAndReads).config.read ConfigPlace.channelSharedSecret =
        zeros.config.read ConfigPlace.channelSharedSecret :=
  ⟨by decide +kernel, registration_kept zeros _ _ (by decide)⟩

/-! ## Settings read from one board and sent to another -/

/-- The message of the page that writes back what an answer said. -/
def setMessage (answer : Packet) : Packet := { answer with type := Link.PacketType.setVal }

theorem stop_le {map : FieldMap} (hmem : map ∈ apiFieldMap) {p : Place}
    (hplace : map.place = some p) : p.stop ≤ configSize :=
  (configPlaces_inside p (mem_configPlaces hmem hplace)).trans (by decide)

theorem value_length {map : FieldMap} (hmem : map ∈ apiFieldMap) :
    (s.value map).length = map.len := by
  have hstop := @stop_le map hmem
  unfold FieldMap.place at hstop
  unfold value
  split
  next offset hoffset =>
    rw [hoffset] at hstop
    exact Config.read_length (hstop rfl)
  next => exact littleEndian_length ..

/-- The writes a full set of answers makes: every row that may be written, with its value. -/
def settings (s : Api) (maps : List FieldMap) : List (Place × List UInt8) :=
  maps.filterMap fun map ↦
    if map.readonly then none else map.place.map fun p ↦ (p, s.value map)

theorem mem_settings {maps : List FieldMap} {w : Place × List UInt8} :
    w ∈ s.settings maps ↔
      ∃ map ∈ maps, map.readonly = false ∧ map.place = some w.1 ∧ s.value map = w.2 := by
  simp only [settings, List.mem_filterMap]
  refine exists_congr fun map ↦ and_congr_right fun _ ↦ ?_
  cases map.readonly with
  | true => simp
  | false =>
      simp only [Bool.false_eq_true, if_false, Option.map_eq_some_iff, true_and]
      constructor
      · rintro ⟨p, hplace, rfl⟩
        exact ⟨hplace, rfl⟩
      · rintro ⟨hplace, hvalue⟩
        exact ⟨w.1, hplace, by rw [hvalue]⟩

theorem fits_settings {maps : List FieldMap} (hmaps : ∀ map ∈ maps, map ∈ apiFieldMap) :
    Fits configSize (s.settings maps) := by
  intro w hmem
  obtain ⟨map, hmap, -, hplace, hvalue⟩ := mem_settings.1 hmem
  refine ⟨stop_le (hmaps map hmap) hplace, ?_⟩
  obtain ⟨offset, -, hplace⟩ := FieldMap.place_eq_some hplace
  rw [← hvalue, value_length (hmaps map hmap), hplace]

theorem settings_apart (s : Api) : (s.settings apiFieldMap).Pairwise fun w v ↦ w.1.Apart v.1 := by
  refine List.pairwise_filterMap.2 ((List.pairwise_filterMap.1 configPlaces_apart).imp ?_)
  intro first second hapart w hw v hv
  have hplace : ∀ {map : FieldMap} {w : Place × List UInt8},
      (if map.readonly then none else map.place.map fun p ↦ (p, s.value map)) = some w →
        map.place = some w.1 := by
    intro map w hw
    split at hw
    · cases hw
    · obtain ⟨p, hp, rfl⟩ := Option.map_eq_some_iff.1 hw
      exact hp
  exact hapart w.1 (hplace hw) v.1 (hplace hv)

/-- An answer sent back is one of the writes, or nothing. -/
theorem handleApiMsgs_setMessage (t : Api) {map : FieldMap} (hmem : map ∈ apiFieldMap)
    (nowUs : Nat) :
    t.handleApiMsgs (setMessage (s.answer map)) nowUs =
      if map.readonly then t else (t.setValue map (s.value map)).resetConfigTimer nowUs := by
  obtain ⟨hidx, hlen⟩ := apiFieldMap_bounds map hmem
  have hlength := @value_length s map hmem
  -- no field is longer than what a packet carries behind its id
  have htake : (UInt8.ofNat map.idx :: s.value map).take Link.packetDataLength =
      UInt8.ofNat map.idx :: s.value map := by
    refine List.take_of_length_le ?_
    rw [List.length_cons, hlength]
    exact Nat.succ_le_succ hlen
  have hdata : (setMessage (s.answer map)).data = UInt8.ofNat map.idx :: (s.value map ++
      List.replicate (Link.packetDataLength - (s.value map).length - 1) 0) := by
    show (UInt8.ofNat map.idx :: s.value map).take Link.packetDataLength ++ _ = _
    rw [htake, List.cons_append, List.length_cons, Nat.sub_sub]
  have hentry : getFieldMapEntry ((setMessage (s.answer map)).data.headD 0).toNat = some map := by
    rw [hdata, List.headD_cons, UInt8.toNat_ofNat_of_lt' hidx]
    exact getFieldMapEntry_idx hmem
  have hvalue : (setMessage (s.answer map)).data.tail.take map.len = s.value map := by
    rw [hdata, List.tail_cons, ← hlength, List.take_left']
    rfl
  unfold handleApiMsgs
  rw [hentry]
  dsimp only
  rw [hvalue]
  exact if_pos rfl

theorem bytes_setValue {t : Api} {map : FieldMap} (hmem : map ∈ apiFieldMap) {p : Place}
    (hplace : map.place = some p) {data : List UInt8} (hdata : data.length = map.len) :
    (t.setValue map data).config.bytes = write t.config.bytes p data ∧
      (t.setValue map data).device = t.device := by
  rw [setValue_of_place hplace]
  have hstop := stop_le hmem hplace
  obtain ⟨offset, -, rfl⟩ := FieldMap.place_eq_some hplace
  exact ⟨Config.bytes_write hstop hdata, rfl⟩

/-- The rows of the map, sent back one after the other. -/
theorem run_setMessages (nowUs : FieldMap → Nat) {maps : List FieldMap}
    (hmaps : ∀ map ∈ maps, map ∈ apiFieldMap) (t : Api) :
    (run Api.next t
      (maps.map fun map ↦ .message (setMessage (s.answer map)) (nowUs map))).config.bytes =
        writeAll t.config.bytes (s.settings maps) ∧
      (run Api.next t
        (maps.map fun map ↦ .message (setMessage (s.answer map)) (nowUs map))).device =
        t.device := by
  induction maps generalizing t with
  | nil => exact ⟨rfl, rfl⟩
  | cons map rest ih =>
      have hmem := hmaps map (List.mem_cons_self ..)
      have hrest := ih fun other hother ↦ hmaps other (List.mem_cons_of_mem _ hother)
      have hstep : t.next (.message (setMessage (s.answer map)) (nowUs map)) =
          if map.readonly then t else (t.setValue map (s.value map)).resetConfigTimer (nowUs map) :=
        handleApiMsgs_setMessage t hmem (nowUs map)
      rw [List.map_cons, run_cons, hstep]
      cases hwritable : map.readonly with
      | true =>
          have hnone : s.settings (map :: rest) = s.settings rest := by
            simp [settings, hwritable]
          rw [hnone]
          exact hrest t
      | false =>
          obtain ⟨p, hplace, -⟩ := writable_spares map hmem hwritable
          have hsome : s.settings (map :: rest) = (p, s.value map) :: s.settings rest := by
            simp [settings, hwritable, hplace]
          obtain ⟨hbytes, hdevice⟩ := @bytes_setValue t map hmem p hplace _ (value_length hmem)
          obtain ⟨hconfig, hfields⟩ :=
            hrest ((t.setValue map (s.value map)).resetConfigTimer (nowUs map))
          rw [hsome]
          exact ⟨hconfig.trans (congrArg (writeAll · (s.settings rest)) hbytes),
            hfields.trans hdevice⟩

/-- The answers to a Read All of one board, sent to another: every field that may be written holds
there what it held on the first, and every other byte of the configuration, the registration among
them, and every other field stays as it was. -/
theorem settings_restored (s t : Api) (nowUs : FieldMap → Nat) :
    let restored := run Api.next t
      (apiFieldMap.map fun map ↦ .message (setMessage (s.answer map)) (nowUs map))
    (∀ map ∈ apiFieldMap, map.readonly = false → restored.value map = s.value map) ∧
      (∀ index, (∀ map ∈ apiFieldMap, map.readonly = false → ∀ p ∈ map.place, ¬p.Covers index) →
        restored.config.bytes[index]? = t.config.bytes[index]?) ∧
      restored.device = t.device := by
  have hfits : Fits t.config.bytes.length (s.settings apiFieldMap) := by
    rw [t.config.length_bytes]
    exact fits_settings fun _ hmem ↦ hmem
  obtain ⟨hbytes, hdevice⟩ := @run_setMessages s nowUs apiFieldMap (fun _ hmem ↦ hmem) t
  dsimp only
  generalize run Api.next t _ = restored at hbytes hdevice ⊢
  refine ⟨fun map hmem hwritable ↦ ?_, fun index hindex ↦ ?_, hdevice⟩
  · obtain ⟨p, hplace, -⟩ := writable_spares map hmem hwritable
    have hread := read_writeAll hfits (settings_apart s) (p, s.value map)
      (mem_settings.2 ⟨map, hmem, hwritable, hplace, rfl⟩)
    rw [← hbytes] at hread
    exact (value_of_place hplace).trans hread
  · rw [hbytes]
    refine getElem?_writeAll hfits fun w hmem ↦ ?_
    obtain ⟨map, hmap, hwritable, hplace, -⟩ := mem_settings.1 hmem
    exact hindex map hmap hwritable w.1 hplace

end Api

end DeskhopPlus.Firmware
