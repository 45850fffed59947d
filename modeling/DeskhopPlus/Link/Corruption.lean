import DeskhopPlus.Link.Receiver
import Mathlib.Tactic.IntervalCases

/-!
# One corrupted byte

What a receiver in step dispatches when one of the twelve bytes of a packet arrives changed and the
packets behind it arrive as they were sent. The checksum is one of the data alone: a changed data
byte or checksum is found, a changed type is not. A changed start byte puts the receiver out of step
within the packet, where it may take start bytes that stand in the data for those of a packet.
`Receiver.corruption_harmless_iff` says which changes lead to nothing that was not sent.
-/

namespace DeskhopPlus.Link

open Runs Scanning

/-! ## The checksum of changed data -/

private theorem foldl_xor_start (data : List UInt8) (first second : UInt8) :
    data.foldl (· ^^^ ·) (first ^^^ second) = first ^^^ data.foldl (· ^^^ ·) second := by
  induction data generalizing second with
  | nil => rfl
  | cons byte rest ih => rw [List.foldl_cons, List.foldl_cons, UInt8.xor_assoc, ih]

theorem calcChecksum_cons (byte : UInt8) (rest : List UInt8) :
    calcChecksum (byte :: rest) = byte ^^^ calcChecksum rest := by
  rw [calcChecksum, List.foldl_cons, UInt8.xor_comm 0 byte]
  exact foldl_xor_start rest byte 0

/-- A change of one byte shows in the checksum. -/
theorem calcChecksum_set {data : List UInt8} {place : Nat} {value : UInt8}
    (hplace : place < data.length)
    (hsame : calcChecksum (data.set place value) = calcChecksum data) :
    data[place]? = some value := by
  induction data generalizing place with
  | nil => exact absurd hplace (Nat.not_lt_zero _)
  | cons byte rest ih =>
      cases place with
      | zero =>
          rw [List.set_cons_zero, calcChecksum_cons, calcChecksum_cons, UInt8.xor_left_inj] at hsame
          rw [hsame]
          rfl
      | succ place =>
          rw [List.set_cons_succ, calcChecksum_cons, calcChecksum_cons,
            UInt8.xor_right_inj] at hsame
          exact ih (Nat.lt_of_succ_lt_succ hplace) hsame

/-! ## A packet with a changed byte -/

/-- The bytes of a packet on the wire with the byte at a place changed. -/
def corrupted (packet : Packet) (place : Nat) (value : UInt8) : List UInt8 :=
  (writeRawPacket packet).set place value

/-- The changes of one byte that lead to nothing that was not sent: the type becomes one without a
handler, or a start byte changes and no start bytes stand in the first eleven bytes then, or the
change is in the data or the checksum. -/
def Harmless (packet : Packet) (place : Nat) (value : UInt8) : Prop :=
  (place = 2 → handlerTypes.contains value = false) ∧
  (place < 2 → ∀ offset, offset < 10 →
    opensPacket ((corrupted packet place value).drop offset) = false)

instance (packet : Packet) (place : Nat) (value : UInt8) :
    Decidable (Harmless packet place value) :=
  inferInstanceAs (Decidable (_ ∧ _))

variable {packet : Packet} {place : Nat} {value : UInt8}

theorem corrupted_length : (corrupted packet place value).length = rawPacketLength := by
  rw [corrupted, List.length_set, (isFrame_writeRawPacket packet).length]

/-- With its start bytes intact the packet is still taken as one. -/
theorem isFrame_corrupted (hplace : 2 ≤ place) :
    IsFrame opensPacket rawPacketLength (corrupted packet place value) where
  length := corrupted_length
  opens := by
    obtain ⟨more, rfl⟩ : ∃ more, place = more + 2 := ⟨place - 2, by omega⟩
    simp [corrupted, writeRawPacket, opensPacket]

/-- With a start byte changed it is not. -/
theorem corrupted_closed (hplace : place < 2)
    (hvalue : (writeRawPacket packet)[place]? ≠ some value) :
    opensPacket (corrupted packet place value) = false := by
  rw [Bool.eq_false_iff]
  intro hopen
  refine hvalue ?_
  obtain rfl | rfl : place = 0 ∨ place = 1 := by omega
  · simp [corrupted, writeRawPacket, opensPacket] at hopen
    simp [writeRawPacket, hopen]
  · simp [corrupted, writeRawPacket, opensPacket] at hopen
    simp [writeRawPacket, hopen]

/-- What the task does with a packet whose type is changed. -/
theorem dispatchOf_corrupted_type :
    dispatchOf (corrupted packet 2 value) =
      if handlerTypes.contains value then [{ packet.onWire with type := value }] else [] := by
  have hwritten : corrupted packet 2 value = writeRawPacket { packet with type := value } := rfl
  rw [hwritten, dispatchOf_writeRawPacket, dispatches_onWire]
  rfl

/-- A change in the data or the checksum is found. -/
theorem dispatchOf_corrupted_data (hlow : 3 ≤ place) (hhigh : place < rawPacketLength)
    (hvalue : (writeRawPacket packet)[place]? ≠ some value) :
    dispatchOf (corrupted packet place value) = [] := by
  obtain ⟨more, rfl⟩ : ∃ more, place = more + 3 := ⟨place - 3, by omega⟩
  have hlength := packet.data_length
  simp only [rawPacketLength, packetDataLength] at hhigh hlength
  rw [dispatchOf, dif_pos corrupted_length]
  have hbytes : corrupted packet (more + 3) value =
      start1 :: start2 :: packet.type ::
        (packet.data ++ [calcChecksum packet.data]).set more value := rfl
  have hfound : verifyChecksum (Packet.ofRaw (corrupted packet (more + 3) value) corrupted_length) =
      false := by
    simp only [verifyChecksum, Packet.ofRaw, hbytes, List.drop_succ_cons, List.drop_zero,
      List.getD_cons_succ, decide_eq_false_iff_not, packetDataLength]
    simp only [writeRawPacket, List.cons_append, List.getElem?_cons_succ] at hvalue
    rcases Nat.lt_or_ge more 8 with hdata | hcheck
    · rw [List.set_append_left _ _ (by omega), List.take_left' (by simpa using hlength)]
      rw [List.getElem?_append_left (by omega)] at hvalue
      simp only [List.getD_eq_getElem?_getD]
      rw [List.getElem?_append_right (by simp [hlength])]
      simp only [List.length_set, hlength, Nat.sub_self, List.getElem?_cons_zero, Option.getD_some]
      intro hsame
      exact hvalue (calcChecksum_set (by omega) hsame)
    · obtain rfl : more = 8 := by omega
      rw [List.set_append_right _ _ (by omega), List.take_left' hlength]
      rw [List.getElem?_append_right (by omega)] at hvalue
      simp only [List.getD_eq_getElem?_getD]
      rw [List.getElem?_append_right (by omega)]
      simp only [hlength, Nat.sub_self, List.set_cons_zero, List.getElem?_cons_zero,
        Option.getD_some] at hvalue ⊢
      exact fun hsame ↦ hvalue (congrArg some hsame)
  simp [Packet.dispatches, hfound]

/-! ## A receiver that reads each byte as it comes -/

theorem wireBytes_readAsItComes (bytes : List UInt8) : wireBytes (readAsItComes bytes) = bytes := by
  induction bytes with
  | nil => rfl
  | cons value rest ih => exact congrArg (value :: ·) ih

namespace Receiver

theorem unread_task {r : Receiver} (h : r.InRing) :
    (r.step .task).unread = (scan opensPacket rawPacketLength r.unread).2 := by
  obtain ⟨count, hcount, hahead, hreceive⟩ := receive_eq r.getPtrDelta r
  change (r.receive r.getPtrDelta).unread = _
  rw [hreceive]
  exact (unread_advance h hcount _).2.trans hahead.symm

/-- A look at no more than a packet leaves less than one. -/
theorem scan_length {bytes : List UInt8} (h : bytes.length ≤ rawPacketLength) :
    (scan opensPacket rawPacketLength bytes).2.length < rawPacketLength := by
  cases hfound : (scan opensPacket rawPacketLength bytes).1 with
  | none => exact scan_none (by decide) hfound
  | some frame =>
      induction bytes with
      | nil => cases hfound
      | cons value rest ih =>
          rw [scan] at hfound ⊢
          split
          · assumption
          · rename_i hlong
            rw [if_neg hlong] at hfound
            split
            · rw [List.drop_eq_nil_of_le h]
              exact Nat.succ_pos _
            · rename_i hcloses
              rw [if_neg hcloses] at hfound
              exact ih (Nat.le_of_succ_le h) hfound

theorem getPtrDelta_eq_length (r : Receiver) : r.getPtrDelta = r.unread.length :=
  (bytesFrom_length ..).symm

/-- The ring of such a receiver does not overrun, and it dispatches every packet the bytes show. -/
theorem readAsItComes_dispatched {r : Receiver} {before : List UInt8} (bytes : List UInt8)
    (h : r.Follows before) (hread : r.unread.length < rawPacketLength) :
    Along step Fits r (readAsItComes bytes) ∧
      (run step r (readAsItComes bytes)).dispatched =
        (frames opensPacket rawPacketLength (before ++ bytes)).flatMap dispatchOf := by
  induction bytes generalizing r before with
  | nil =>
      refine ⟨trivial, ?_⟩
      obtain ⟨-, found, hdispatched, hfound⟩ := h
      have hall := hfound []
      rw [List.append_nil, List.append_nil, frames_of_short hread, List.append_nil] at hall
      rw [List.append_nil, hall]
      exact hdispatched
  | cons value rest ih =>
      have hroom : r.getPtrDelta + 1 < dmaRxBufferSize := by
        rw [getPtrDelta_eq_length]
        simp only [rawPacketLength, dmaRxBufferSize] at hread ⊢
        omega
      have hfits : r.Fits (.byte value) := fun _ ↦ hroom
      have hbyte := h.byte hfits
      have hlast : (r.step (.byte value)).unread.length ≤ rawPacketLength := by
        rw [(unread_byte h.inRing hroom value).2, List.length_append]
        exact hread
      have hnext := ih hbyte.task (by
        rw [unread_task hbyte.inRing]
        exact scan_length hlast)
      rw [List.append_assoc] at hnext
      exact ⟨⟨hfits, fun htask ↦ absurd rfl htask, hnext.1⟩, hnext.2⟩

/-- In any run a receiver dispatches no more than the bytes show. -/
theorem Follows.dispatched_prefix {r : Receiver} {bytes : List UInt8} (h : r.Follows bytes) :
    r.dispatched <+: (frames opensPacket rawPacketLength bytes).flatMap dispatchOf := by
  obtain ⟨-, found, hdispatched, hfound⟩ := h
  have hall := hfound []
  rw [List.append_nil, List.append_nil] at hall
  rw [hall, hdispatched, List.flatMap_append]
  exact List.prefix_append ..

end Receiver

/-! ## Harmless changes -/

theorem opensPacket_take (bytes : List UInt8) :
    opensPacket (bytes.take rawPacketLength) = opensPacket bytes := by
  rw [opensPacket, opensPacket, List.take_take]
  rfl

theorem opensPacket_append {bytes : List UInt8} (h : 2 ≤ bytes.length) (more : List UInt8) :
    opensPacket (bytes ++ more) = opensPacket bytes := by
  rw [opensPacket, opensPacket, List.take_append_of_le_length h]

/-- Twelve bytes with a type that has no handler. -/
theorem dispatchOf_unhandled {raw : List UInt8} (h : handlerTypes.contains (raw.getD 2 0) = false) :
    dispatchOf raw = [] := by
  unfold dispatchOf
  split
  · simp only [Packet.dispatches, Packet.ofRaw, h, Bool.and_false, Bool.false_eq_true, if_false]
  · rfl

/-- In step, a receiver dispatches packets as they were sent. -/
theorem dispatched_in_step (after : List Packet) :
    ((frames opensPacket rawPacketLength
      (after.map writeRawPacket).flatten).flatMap dispatchOf).Sublist
      (after.map Packet.onWire) := by
  rw [frames_flatten (by decide) (by
    intro frame hframe
    obtain ⟨packet, -, rfl⟩ := List.mem_map.1 hframe
    exact isFrame_writeRawPacket packet)]
  induction after with
  | nil => exact List.Sublist.refl _
  | cons packet rest ih =>
      rw [List.map_cons, List.flatMap_cons, dispatchOf_writeRawPacket, dispatches_onWire,
        List.map_cons]
      split
      · exact ih.cons_cons _
      · exact ih.cons _

/-- Two bytes of a packet are left before those that follow. Where they are start bytes, the first
start byte of the next packet is taken for a type, which has no handler. -/
theorem dispatched_behind_two (first second : UInt8) (after : List Packet) :
    ((frames opensPacket rawPacketLength
      (first :: second :: (after.map writeRawPacket).flatten)).flatMap dispatchOf).Sublist
      (after.map Packet.onWire) := by
  induction after generalizing first second with
  | nil =>
      rw [frames_of_short (by simp [rawPacketLength])]
      exact List.nil_sublist _
  | cons packet rest ih =>
      have hnext := isFrame_writeRawPacket packet
      have hsecond : opensPacket ((second :: ((packet :: rest).map writeRawPacket).flatten).take
          rawPacketLength) = false := by
        simp [opensPacket, writeRawPacket, rawPacketLength, start1, start2]
      cases hopens : opensPacket ((first :: second ::
          ((packet :: rest).map writeRawPacket).flatten).take rawPacketLength) with
      | false =>
          rw [frames_cons hopens, frames_cons hsecond]
          exact dispatched_in_step (packet :: rest)
      | true =>
          have hlong : rawPacketLength ≤
              (first :: second :: ((packet :: rest).map writeRawPacket).flatten).length := by
            simp only [List.map_cons, List.flatten_cons, List.length_cons, List.length_append,
              hnext.length]
            omega
          rw [frames_of_opens (by decide) hlong hopens, List.flatMap_cons, dispatchOf_unhandled,
            List.nil_append, List.map_cons, List.map_cons, List.flatten_cons]
          · have hrest : (first :: second :: (writeRawPacket packet ++
                (rest.map writeRawPacket).flatten)).drop rawPacketLength =
                (writeRawPacket packet).drop 10 ++ (rest.map writeRawPacket).flatten := by
              show (writeRawPacket packet ++ _).drop 10 = _
              rw [List.drop_append_of_le_length (by rw [hnext.length]; decide)]
            obtain ⟨seventh, check, htwo⟩ := List.length_eq_two.1
              (show ((writeRawPacket packet).drop 10).length = 2 by
                rw [List.length_drop, hnext.length]
                rfl)
            rw [hrest, htwo]
            exact (ih seventh check).cons _
          · show handlerTypes.contains start1 = false
            decide

/-- For a packet with a harmless change nothing is dispatched, and of those behind it nothing but
what was sent. -/
theorem Harmless.dispatched (h : Harmless packet place value) (hplace : place < rawPacketLength)
    (hvalue : (writeRawPacket packet)[place]? ≠ some value) (after : List Packet) :
    ((frames opensPacket rawPacketLength (corrupted packet place value ++
      (after.map writeRawPacket).flatten)).flatMap dispatchOf).Sublist
        (after.map Packet.onWire) := by
  have hlength := @corrupted_length packet place value
  rcases Nat.lt_or_ge place 2 with hstart | hrest
  · have hcloses : ∀ offset < 10, opensPacket (((corrupted packet place value ++
        (after.map writeRawPacket).flatten).drop offset).take rawPacketLength) = false := by
      intro offset hoffset
      rw [opensPacket_take, List.drop_append_of_le_length (by
          rw [hlength, rawPacketLength]; omega),
        opensPacket_append (by rw [List.length_drop, hlength, rawPacketLength]; omega)]
      exact h.2 hstart offset hoffset
    obtain ⟨seventh, check, htwo⟩ := List.length_eq_two.1
      (show ((corrupted packet place value).drop 10).length = 2 by
        rw [List.length_drop, hlength]
        rfl)
    rw [frames_drop hcloses, List.drop_append_of_le_length (by rw [hlength]; decide), htwo]
    exact dispatched_behind_two seventh check after
  · have hnone : dispatchOf (corrupted packet place value) = [] := by
      rcases Nat.eq_or_lt_of_le hrest with rfl | hdata
      · rw [dispatchOf_corrupted_type, h.1 rfl]
        rfl
      · exact dispatchOf_corrupted_data hdata hplace hvalue
    rw [frames_frame (by decide) (isFrame_corrupted hrest), List.flatMap_cons, hnone]
    exact dispatched_in_step after

/-! ## Harmful changes -/

/-- A packet whose last two data bytes are the start bytes and whose checksum is a type. -/
def lure : Packet := ⟨0, [0, 0, 0, 0, 0, 0xfe, start1, start2], 0, rfl⟩

/-- A packet whose front ends the packet that a receiver takes at the start bytes of the lure. -/
def bait (type : UInt8) : Packet := ⟨type, [0, 0, 0, 0, 0, 0xff ^^^ type, 0, 0], 0, rfl⟩

/-- What is taken there. -/
def misread (type : UInt8) : Packet where
  type := PacketType.keyboardReport
  data := [start1, start2, type, 0, 0, 0, 0, 0]
  checksum := 0xff ^^^ type
  data_length := rfl

/-- A receiver out of step within the lure takes a packet that was not sent. -/
theorem misread_dispatched (type : UInt8) {skip : Nat} (hpos : 0 < skip) (hskip : skip < 10) :
    misread type ∈ (frames opensPacket rawPacketLength
      ((([lure, bait type].map writeRawPacket).flatten).drop skip)).flatMap dispatchOf := by
  have hbytes : (([lure, bait type].map writeRawPacket).flatten).drop 9 =
      [start1, start2, 1, start1, start2, type, 0, 0, 0, 0, 0, 0xff ^^^ type, 0, 0,
        calcChecksum (bait type).data] := rfl
  have hcloses : ∀ i < 9 - skip,
      opensPacket ((((([lure, bait type].map writeRawPacket).flatten).drop
      skip).drop i).take rawPacketLength) = false := by
    intro i hi
    have hclear : ∀ offset, 0 < offset → offset < 9 →
        opensPacket ((writeRawPacket lure).drop offset) = false := by
      intro offset _ _
      interval_cases offset <;> rfl
    rw [opensPacket_take, List.drop_drop, List.map_cons, List.flatten_cons,
      List.drop_append_of_le_length (by
        rw [(isFrame_writeRawPacket lure).length, rawPacketLength]
        omega),
      opensPacket_append (by
        rw [List.length_drop, (isFrame_writeRawPacket lure).length, rawPacketLength]; omega)]
    exact hclear (skip + i) (by omega) (by omega)
  rw [frames_drop hcloses, List.drop_drop, show skip + (9 - skip) = 9 by omega, hbytes,
    frames_of_opens (by decide) (by simp [rawPacketLength]) rfl, List.flatMap_cons]
  refine List.mem_append_left _ ?_
  have htaken : dispatchOf [start1, start2, 1, start1, start2, type, 0, 0, 0, 0, 0, 0xff ^^^ type] =
      (misread type).dispatches := rfl
  have hgood : verifyChecksum (misread type) = true := by
    simp only [verifyChecksum, misread, calcChecksum, List.foldl_cons, List.foldl_nil,
      UInt8.xor_zero, decide_eq_true_eq]
    rfl
  have hhandled : handlerTypes.contains (misread type).type = true := rfl
  show _ ∈ dispatchOf [start1, start2, 1, start1, start2, type, 0, 0, 0, 0, 0, 0xff ^^^ type]
  rw [htaken, Packet.dispatches, hgood, hhandled]
  exact List.mem_singleton_self _

/-- Start bytes within the changed packet lead a receiver that found none before out of step. -/
theorem misled {offset : Nat} (hpos : 0 < offset) (hlt : offset < 10)
    (hnone : ∀ before < offset, opensPacket ((corrupted packet place value).drop before) = false)
    (hopen : opensPacket ((corrupted packet place value).drop offset) = true) (type : UInt8) :
    misread type ∈ (frames opensPacket rawPacketLength (corrupted packet place value ++
      ([lure, bait type].map writeRawPacket).flatten)).flatMap dispatchOf := by
  have hlength := @corrupted_length packet place value
  generalize hafter : ([lure, bait type].map writeRawPacket).flatten = after
  have hlong : after.length = 24 := by
    rw [← hafter]
    rfl
  have hthere : ∀ before ≤ offset, opensPacket
      (((corrupted packet place value ++ after).drop before).take rawPacketLength) =
        opensPacket ((corrupted packet place value).drop before) := by
    intro before hbefore
    rw [opensPacket_take, List.drop_append_of_le_length (by rw [hlength, rawPacketLength]; omega),
      opensPacket_append (by rw [List.length_drop, hlength, rawPacketLength]; omega)]
  have hcloses : ∀ before < offset, opensPacket
      (((corrupted packet place value ++ after).drop before).take rawPacketLength) = false := by
    intro before hbefore
    rw [hthere before (Nat.le_of_lt hbefore)]
    exact hnone before hbefore
  have hbehind : ((corrupted packet place value ++ after).drop offset).drop rawPacketLength =
      after.drop offset := by
    rw [List.drop_drop, ← hlength, Nat.add_comm, List.drop_append]
    simp
  rw [frames_drop hcloses, frames_of_opens (by decide) (by
      rw [List.length_drop, List.length_append, hlength, hlong, rawPacketLength]
      omega) (by rw [hthere offset (Nat.le_refl _)]; exact hopen), hbehind, List.flatMap_cons,
        ← hafter]
  exact List.mem_append_right _ (misread_dispatched type hpos hlt)

/-- The packet taken there is none of those sent, where it differs from the first of them. -/
theorem misread_not_sent {type : UInt8} (h : packet.data.getD 2 0 ≠ type) :
    misread type ∉ [packet, lure, bait type].map Packet.onWire := by
  intro hmem
  simp only [List.map_cons, List.map_nil, List.mem_cons, List.not_mem_nil, or_false] at hmem
  rcases hmem with hpacket | hlure | hbait
  · refine h ?_
    rw [show packet.data = [start1, start2, type, 0, 0, 0, 0, 0] from
      (congrArg Packet.data hpacket).symm]
    rfl
  · have hdata := congrArg Packet.data hlure
    simp [misread, Packet.onWire, lure, start1] at hdata
  · have hdata := congrArg Packet.data hbait
    simp [misread, Packet.onWire, bait, start1] at hdata

namespace Receiver

/-- The receiver dispatches nothing that was not sent, in any run in which the ring does not
overrun: in step, at any place of the ring, it reads the packet with its change and, in any number
of passes, whatever packets follow. -/
def DispatchesSent (packet : Packet) (place : Nat) (value : UInt8) : Prop :=
  ∀ (buffer : Nat → UInt8) (start : Nat) (after : List Packet) (events : List WireEvent),
    start < dmaRxBufferSize →
    wireBytes events = corrupted packet place value ++ (after.map writeRawPacket).flatten →
    Along step Fits (idle buffer start) events →
    ∀ dispatched ∈ (run step (idle buffer start) events).dispatched,
      dispatched ∈ (packet :: after).map Packet.onWire

/-- What a receiver in step finds in the bytes that arrive, it dispatches in some run. -/
theorem DispatchesSent.mem (h : DispatchesSent packet place value) (after : List Packet)
    (dispatched : Packet) (hfound : dispatched ∈ (frames opensPacket rawPacketLength
      (corrupted packet place value ++ (after.map writeRawPacket).flatten)).flatMap dispatchOf) :
    dispatched ∈ (packet :: after).map Packet.onWire := by
  have hstart : 0 < dmaRxBufferSize := by decide
  obtain ⟨hfits, hall⟩ := readAsItComes_dispatched (corrupted packet place value ++
    (after.map writeRawPacket).flatten) (Follows.idle (fun _ ↦ 0) hstart) (by decide)
  refine h (fun _ ↦ 0) 0 after _ hstart (wireBytes_readAsItComes _) hfits dispatched ?_
  rw [hall, List.nil_append]
  exact hfound

/-- A changed type that has a handler is dispatched. -/
theorem DispatchesSent.type_unhandled (h : DispatchesSent packet 2 value)
    (hvalue : packet.type ≠ value) : handlerTypes.contains value = false := by
  by_contra hhandled
  have hdispatch := @dispatchOf_corrupted_type packet value
  rw [if_pos (by simpa using hhandled)] at hdispatch
  have hsent := h.mem [] { packet.onWire with type := value } (by
    rw [frames_frame (by decide) (isFrame_corrupted (Nat.le_refl 2)), List.flatMap_cons, hdispatch]
    exact List.mem_cons_self)
  rw [List.map_singleton, List.mem_singleton] at hsent
  exact hvalue (congrArg Packet.type hsent).symm

/-- One changed byte of a packet leads to nothing that was not sent if and only if the change is
harmless. -/
theorem corruption_harmless_iff (packet : Packet) {place : Nat} (hplace : place < rawPacketLength)
    {value : UInt8} (hvalue : (writeRawPacket packet)[place]? ≠ some value) :
    DispatchesSent packet place value ↔ Harmless packet place value := by
  constructor
  · intro h
    constructor
    · rintro rfl
      exact h.type_unhandled fun hsame ↦ hvalue (congrArg some hsame)
    · intro hstart
      by_contra hopens
      have hfirst : ∃ offset, offset < 10 ∧
          opensPacket ((corrupted packet place value).drop offset) = true := by
        simpa using hopens
      obtain ⟨hlt, hopen⟩ := Nat.find_spec hfirst
      have hnone : ∀ before < Nat.find hfirst,
          opensPacket ((corrupted packet place value).drop before) = false := by
        intro before hbefore
        have hmin := Nat.find_min hfirst hbefore
        simp only [not_and, Bool.not_eq_true] at hmin
        exact hmin (Nat.lt_trans hbefore hlt)
      have hpos : 0 < Nat.find hfirst := by
        rw [Nat.pos_iff_ne_zero]
        intro hzero
        rw [hzero, List.drop_zero] at hopen
        exact absurd hopen (by rw [corrupted_closed hstart hvalue]; exact Bool.false_ne_true)
      -- packets that make the one taken there good, and other than the packet sent
      have hdiffers : packet.data.getD 2 0 ≠ packet.data.getD 2 0 + 1 := by simp
      exact misread_not_sent hdiffers (h.mem _ _ (misled hpos hlt hnone hopen _))
  · intro hharmless buffer start after events hstart hbytes hfits dispatched hmem
    have hfollows := (Follows.idle buffer hstart).run hfits
    rw [List.nil_append, hbytes] at hfollows
    have hsent := hfollows.dispatched_prefix.subset hmem
    exact List.mem_cons_of_mem _ ((hharmless.dispatched hplace hvalue after).subset hsent)

/-- A changed data byte of a packet of zeros. -/
theorem corruption_harmless_iff_data :
    DispatchesSent plainPacket 3 1 ↔ Harmless plainPacket 3 1 :=
  corruption_harmless_iff plainPacket (by decide) (by decide)

/-- A mouse report with one bit of its type changed wipes the configuration. -/
theorem mouse_report_wipes_config :
    (writeRawPacket plainPacket)[2]? = some PacketType.mouseReport ∧
    Along step Fits (idle (fun _ ↦ 0) 0)
      (readAsItComes (corrupted plainPacket 2 PacketType.wipeConfig)) ∧
    (run step (idle (fun _ ↦ 0) 0)
      (readAsItComes (corrupted plainPacket 2 PacketType.wipeConfig))).dispatched =
        [{ plainPacket with type := PacketType.wipeConfig }] := by
  decide

end Receiver

end DeskhopPlus.Link
