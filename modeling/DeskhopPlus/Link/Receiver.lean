import DeskhopPlus.Library.Runs
import DeskhopPlus.Library.Scanning
import DeskhopPlus.Link.Packet
import Mathlib.Logic.Function.Basic

/-!
# Receiving packets

The receive half of the link: the ring the DMA fills with the bytes of the wire, and
`packet_receiver_task`, which looks for the two start bytes and takes the twelve bytes from there,
whether or not their checksum then holds. The same two bytes may stand within a packet, so a reader
out of step can take the wrong twelve bytes again and again; it is in step behind the first packet
that holds no start bytes of its own.
-/

namespace DeskhopPlus.Link

open Runs Scanning

/-! ## The ring and its reader -/

/-- `DMA_RX_BUFFER_SIZE`. -/
def dmaRxBufferSize : Nat := 1024

def start1 : UInt8 := 0xaa

def start2 : UInt8 := 0x55

/-- `NEXT_RING_IDX`. -/
def nextRingIdx (x : Nat) : Nat := (x + 1) &&& 0x3ff

/-- `write_raw_packet`: the start bytes, the type, the data, and the checksum of the data. -/
def writeRawPacket (packet : Packet) : List UInt8 :=
  start1 :: start2 :: packet.type :: packet.data ++ [calcChecksum packet.data]

/-- The ring with the place the DMA writes to next and the place the reader stands at, and every
packet dispatched so far. -/
structure Receiver where
  uartRxbuf : Nat → UInt8
  currentPointer : Nat
  dmaPtr : Nat
  dispatched : List Packet := []

/-- The bytes of a ring from a place on. -/
def bytesFrom (buffer : Nat → UInt8) : Nat → Nat → List UInt8
  | 0, _ => []
  | count + 1, place => buffer place :: bytesFrom buffer count (nextRingIdx place)

/-- A place moved on around the ring. -/
def advance : Nat → Nat → Nat
  | 0, place => place
  | count + 1, place => advance count (nextRingIdx place)

theorem bytesFrom_length (buffer : Nat → UInt8) (count place : Nat) :
    (bytesFrom buffer count place).length = count := by
  induction count generalizing place with
  | zero => rfl
  | succ count ih => simp [bytesFrom, ih]

namespace Receiver

def isStartOfPacket (r : Receiver) : Bool :=
  r.uartRxbuf r.dmaPtr == start1 && r.uartRxbuf (nextRingIdx r.dmaPtr) == start2

def getPtrDelta (r : Receiver) : Nat :=
  let delta :=
    if r.dmaPtr ≤ r.currentPointer then r.currentPointer - r.dmaPtr
    else dmaRxBufferSize - r.dmaPtr + r.currentPointer
  delta &&& 0x3ff

/-- `fetch_packet`: the packet behind the start bytes, with the reader behind the packet. -/
def fetchPacket (r : Receiver) : Packet × Receiver :=
  (Packet.ofRaw (bytesFrom r.uartRxbuf rawPacketLength r.dmaPtr) (bytesFrom_length ..),
    { r with dmaPtr := advance rawPacketLength r.dmaPtr })

/-- `process_packet`: a packet with a good checksum and a handler is dispatched. -/
def processPacket (r : Receiver) (packet : Packet) : Receiver :=
  if verifyChecksum packet = false then r
  else if handlerTypes.contains packet.type = false then r
  else { r with dispatched := r.dispatched ++ [packet] }

/-- The loop of `packet_receiver_task`, with so many bytes ahead. -/
def receive : Nat → Receiver → Receiver
  | 0, r => r
  | delta + 1, r =>
      if delta + 1 < rawPacketLength then r
      else if r.isStartOfPacket then r.fetchPacket.2.processPacket r.fetchPacket.1
      else receive delta { r with dmaPtr := nextRingIdx r.dmaPtr }

def packetReceiverTask (r : Receiver) : Receiver := r.receive r.getPtrDelta

end Receiver

/-- A byte of the wire, which the DMA puts in the ring, or a pass of the task. -/
inductive WireEvent where
  | byte (value : UInt8)
  | task
  deriving DecidableEq

namespace Receiver

def step (r : Receiver) : WireEvent → Receiver
  | .byte value =>
      { r with
        uartRxbuf := Function.update r.uartRxbuf r.currentPointer value
        currentPointer := nextRingIdx r.currentPointer }
  | .task => r.packetReceiverTask

/-- The ring does not overrun: a byte finds room in it. -/
def Fits (r : Receiver) (event : WireEvent) : Prop :=
  event ≠ .task → r.getPtrDelta + 1 < dmaRxBufferSize

instance (r : Receiver) (event : WireEvent) : Decidable (r.Fits event) :=
  inferInstanceAs (Decidable (_ → _))

/-- A reader that has read everything, at any place of the ring, whatever is left in it. -/
def idle (buffer : Nat → UInt8) (place : Nat) : Receiver where
  uartRxbuf := buffer
  currentPointer := place
  dmaPtr := place

end Receiver

/-- The bytes of a run. -/
def wireBytes : List WireEvent → List UInt8
  | [] => []
  | .byte value :: rest => value :: wireBytes rest
  | .task :: rest => wireBytes rest

/-! ## The ring as a queue -/

theorem nextRingIdx_eq (x : Nat) : nextRingIdx x = (x + 1) % 1024 :=
  Nat.and_two_pow_sub_one_eq_mod (x + 1) 10

theorem advance_eq (count : Nat) {place : Nat} (h : place < 1024) :
    advance count place = (place + count) % 1024 := by
  induction count generalizing place with
  | zero => exact (Nat.mod_eq_of_lt h).symm
  | succ count ih =>
      rw [advance, nextRingIdx_eq, ih (Nat.mod_lt _ (by decide))]
      omega

theorem bytesFrom_add (buffer : Nat → UInt8) (first second place : Nat) :
    bytesFrom buffer (first + second) place =
      bytesFrom buffer first place ++ bytesFrom buffer second (advance first place) := by
  induction first generalizing place with
  | zero => simp [bytesFrom, advance]
  | succ first ih => simp only [Nat.succ_add, bytesFrom, advance, ih, List.cons_append]

/-- A byte written outside the bytes read. -/
theorem bytesFrom_update (buffer : Nat → UInt8) {count place other : Nat} (value : UInt8)
    (hplace : place < 1024) (hother : ∀ i < count, (place + i) % 1024 ≠ other) :
    bytesFrom (Function.update buffer other value) count place = bytesFrom buffer count place := by
  induction count generalizing place with
  | zero => rfl
  | succ count ih =>
      have hhere := hother 0 (Nat.succ_pos _)
      rw [Nat.add_zero, Nat.mod_eq_of_lt hplace] at hhere
      rw [bytesFrom, bytesFrom, Function.update_of_ne hhere, nextRingIdx_eq, ih]
      · exact Nat.mod_lt _ (by decide)
      · intro i hi
        have hnext := hother (i + 1) (Nat.succ_lt_succ hi)
        rwa [← Nat.add_assoc, Nat.add_right_comm, ← Nat.mod_add_mod] at hnext

namespace Receiver

/-- The bytes ahead of the reader. -/
def unread (r : Receiver) : List UInt8 := bytesFrom r.uartRxbuf r.getPtrDelta r.dmaPtr

/-- Both places are in the ring. -/
structure InRing (r : Receiver) : Prop where
  current_lt : r.currentPointer < 1024
  ptr_lt : r.dmaPtr < 1024

variable {r : Receiver}

theorem getPtrDelta_eq (h : r.InRing) :
    r.getPtrDelta = (r.currentPointer + 1024 - r.dmaPtr) % 1024 := by
  have hcurrent := h.current_lt
  have hptr := h.ptr_lt
  have hmask : ∀ x, x &&& 0x3ff = x % 1024 := fun x ↦ Nat.and_two_pow_sub_one_eq_mod x 10
  simp only [getPtrDelta, dmaRxBufferSize, hmask]
  split <;> omega

/-- What is ahead of a reader moved on within the bytes ahead of it. -/
theorem unread_advance (h : r.InRing) {count : Nat} (hcount : count ≤ r.getPtrDelta)
    (dispatched : List Packet) :
    InRing { r with dmaPtr := advance count r.dmaPtr, dispatched := dispatched } ∧
    unread { r with dmaPtr := advance count r.dmaPtr, dispatched := dispatched } =
      bytesFrom r.uartRxbuf (r.getPtrDelta - count) (advance count r.dmaPtr) := by
  have hcurrent := h.current_lt
  have hptr := h.ptr_lt
  have hplace := advance_eq count hptr
  have hring : InRing { r with dmaPtr := advance count r.dmaPtr, dispatched := dispatched } := by
    refine ⟨hcurrent, ?_⟩
    show advance count r.dmaPtr < 1024
    rw [hplace]
    exact Nat.mod_lt _ (by decide)
  refine ⟨hring, ?_⟩
  have hdelta := getPtrDelta_eq h
  have hleft : getPtrDelta { r with dmaPtr := advance count r.dmaPtr, dispatched := dispatched } =
      r.getPtrDelta - count := by
    rw [getPtrDelta_eq hring]
    simp only [hplace]
    omega
  rw [unread, hleft]

/-- A byte of the wire goes to the end of those ahead. -/
theorem unread_byte (h : r.InRing) (hroom : r.getPtrDelta + 1 < 1024) (value : UInt8) :
    (r.step (.byte value)).InRing ∧ (r.step (.byte value)).unread = r.unread ++ [value] := by
  have hcurrent := h.current_lt
  have hptr := h.ptr_lt
  have hdelta := getPtrDelta_eq h
  have hring : (r.step (.byte value)).InRing := by
    refine ⟨?_, hptr⟩
    show nextRingIdx r.currentPointer < 1024
    rw [nextRingIdx_eq]
    exact Nat.mod_lt _ (by decide)
  refine ⟨hring, ?_⟩
  have hmore : (r.step (.byte value)).getPtrDelta = r.getPtrDelta + 1 := by
    rw [getPtrDelta_eq hring]
    show (nextRingIdx r.currentPointer + 1024 - r.dmaPtr) % 1024 = _
    rw [nextRingIdx_eq]
    omega
  have hlast : advance r.getPtrDelta r.dmaPtr = r.currentPointer := by
    rw [advance_eq _ hptr]
    omega
  rw [unread, hmore]
  show bytesFrom (Function.update r.uartRxbuf r.currentPointer value) _ r.dmaPtr = _
  rw [bytesFrom_add, hlast, bytesFrom_update _ _ hptr (by omega)]
  simp [unread, bytesFrom]

end Receiver

/-! ## Passes of the task -/

/-- The start bytes are ahead. -/
def opensPacket (bytes : List UInt8) : Bool := bytes.take 2 == [start1, start2]

/-- What comes of a packet: it is dispatched or it is not. -/
def Packet.dispatches (packet : Packet) : List Packet :=
  if verifyChecksum packet && handlerTypes.contains packet.type then [packet] else []

/-- What the task dispatches of the twelve bytes it took. -/
def dispatchOf (raw : List UInt8) : List Packet :=
  if h : raw.length = rawPacketLength then (Packet.ofRaw raw h).dispatches else []

namespace Receiver

variable {r : Receiver}

theorem processPacket_eq (r : Receiver) (packet : Packet) :
    r.processPacket packet = { r with dispatched := r.dispatched ++ packet.dispatches } := by
  unfold processPacket Packet.dispatches
  cases verifyChecksum packet <;> cases handlerTypes.contains packet.type <;> simp

theorem processPacket_fetchPacket (r : Receiver) :
    r.fetchPacket.2.processPacket r.fetchPacket.1 =
      { r with
        dmaPtr := advance rawPacketLength r.dmaPtr
        dispatched := r.dispatched ++
          dispatchOf (bytesFrom r.uartRxbuf rawPacketLength r.dmaPtr) } := by
  rw [processPacket_eq, dispatchOf, dif_pos (bytesFrom_length ..)]
  rfl

theorem isStartOfPacket_eq (r : Receiver) (more : Nat) :
    r.isStartOfPacket = opensPacket
      ((bytesFrom r.uartRxbuf (more + 2) r.dmaPtr).take rawPacketLength) := by
  simp only [isStartOfPacket, opensPacket, bytesFrom, rawPacketLength, List.take_succ_cons,
    List.take_zero, beq_eq_decide, List.cons.injEq, and_true, Bool.decide_and]

/-- The loop finds what a look at the bytes ahead finds. -/
theorem receive_eq (delta : Nat) (r : Receiver) :
    let look := scan opensPacket rawPacketLength (bytesFrom r.uartRxbuf delta r.dmaPtr)
    ∃ count ≤ delta, look.2 = bytesFrom r.uartRxbuf (delta - count) (advance count r.dmaPtr) ∧
      r.receive delta =
        { r with
          dmaPtr := advance count r.dmaPtr
          dispatched := r.dispatched ++ look.1.toList.flatMap dispatchOf } := by
  induction delta generalizing r with
  | zero => exact ⟨0, Nat.le_refl _, rfl, by simp [receive, advance, bytesFrom, scan]⟩
  | succ delta ih =>
      have hlength := bytesFrom_length r.uartRxbuf (delta + 1) r.dmaPtr
      rw [bytesFrom] at hlength
      simp only [bytesFrom, scan, receive, hlength]
      split
      · exact ⟨0, Nat.zero_le _, rfl, by simp [advance]⟩
      · rename_i hlong
        obtain ⟨more, rfl⟩ : ∃ more, delta = more + 11 := ⟨delta - 11, by
          simp only [rawPacketLength] at hlong
          omega⟩
        have hstart := isStartOfPacket_eq r (more + 10)
        have hsplit := bytesFrom_add r.uartRxbuf rawPacketLength more r.dmaPtr
        rw [show rawPacketLength + more =
          more + 11 + 1 by simp only [rawPacketLength]; omega] at hsplit
        rw [bytesFrom] at hstart hsplit
        rw [← hstart]
        split
        · refine ⟨rawPacketLength, Nat.le_of_not_lt hlong, ?_, ?_⟩
          · rw [hsplit, List.drop_left' (bytesFrom_length ..)]
            congr 1
          · rw [processPacket_fetchPacket, hsplit, List.take_left' (bytesFrom_length ..)]
            simp
        · obtain ⟨count, hcount, hahead, hreceive⟩ := ih { r with dmaPtr := nextRingIdx r.dmaPtr }
          refine ⟨count + 1, Nat.succ_le_succ hcount, ?_, hreceive⟩
          rw [hahead, Nat.add_sub_add_right]
          rfl

/-- The reader follows the bytes of the wire: what it has dispatched is what it found in them, and
what it will find is ahead of it. -/
structure Follows (r : Receiver) (bytes : List UInt8) : Prop where
  inRing : r.InRing
  found : ∃ found, r.dispatched = found.flatMap dispatchOf ∧
    ∀ more, frames opensPacket rawPacketLength (bytes ++ more) =
      found ++ frames opensPacket rawPacketLength (r.unread ++ more)

theorem Follows.idle (buffer : Nat → UInt8) {place : Nat} (hplace : place < 1024) :
    (idle buffer place).Follows [] := by
  have hring : (Receiver.idle buffer place).InRing := ⟨hplace, hplace⟩
  have hempty : (Receiver.idle buffer place).unread = [] := by
    have hdelta : (Receiver.idle buffer place).getPtrDelta = 0 := by
      rw [getPtrDelta_eq hring]
      show (place + 1024 - place) % 1024 = 0
      omega
    rw [unread, hdelta]
    rfl
  refine ⟨hring, [], rfl, fun more ↦ ?_⟩
  rw [hempty]
  rfl

theorem Follows.byte {bytes : List UInt8} (h : r.Follows bytes) {value : UInt8}
    (hfits : r.Fits (.byte value)) : (r.step (.byte value)).Follows (bytes ++ [value]) := by
  obtain ⟨hring, found, hdispatched, hfound⟩ := h
  obtain ⟨hnext, hunread⟩ := unread_byte hring (hfits nofun) value
  refine ⟨hnext, found, hdispatched, fun more ↦ ?_⟩
  rw [hunread, List.append_assoc, List.append_assoc]
  exact hfound _

theorem Follows.task {bytes : List UInt8} (h : r.Follows bytes) : (r.step .task).Follows bytes := by
  obtain ⟨hring, found, hdispatched, hfound⟩ := h
  obtain ⟨count, hcount, hahead, hreceive⟩ := receive_eq r.getPtrDelta r
  change (r.receive r.getPtrDelta).Follows bytes
  rw [hreceive]
  obtain ⟨hnext, hunread⟩ := unread_advance hring hcount
    (r.dispatched ++ (scan opensPacket rawPacketLength r.unread).1.toList.flatMap dispatchOf)
  refine ⟨hnext, found ++ (scan opensPacket rawPacketLength r.unread).1.toList, ?_, fun more ↦ ?_⟩
  · rw [List.flatMap_append, ← hdispatched]
    rfl
  · have hsame := hunread.trans hahead.symm
    change _ = (scan opensPacket rawPacketLength r.unread).2 at hsame
    rw [hfound, List.append_assoc, frames_scan (by decide) r.unread more, ← hsame]
    rfl

/-- The reader follows the wire in every run in which the ring does not overrun. -/
theorem Follows.run {bytes : List UInt8} {events : List WireEvent} (h : r.Follows bytes)
    (hfits : Along step Fits r events) :
    (Runs.run step r events).Follows (bytes ++ wireBytes events) := by
  induction events generalizing r bytes with
  | nil =>
      rw [wireBytes, List.append_nil]
      exact h
  | cons event rest ih =>
      cases event with
      | byte value =>
          have hrest := ih (h.byte hfits.1) hfits.2
          rwa [List.append_assoc] at hrest
      | task => exact ih h.task hfits.2

end Receiver

/-! ## Packets on the wire -/

/-- The packet as it comes off the wire, with the checksum it was given there. -/
def Packet.onWire (packet : Packet) : Packet :=
  { packet with checksum := calcChecksum packet.data }

/-- The start bytes stand among the type, the data and the checksum of a packet. -/
def Packet.HoldsStart (packet : Packet) : Prop :=
  [start1, start2] <:+: packet.type :: packet.data ++ [calcChecksum packet.data]

instance (packet : Packet) : Decidable packet.HoldsStart :=
  inferInstanceAs (Decidable (_ <:+: _))

theorem isFrame_writeRawPacket (packet : Packet) :
    IsFrame opensPacket rawPacketLength (writeRawPacket packet) where
  length := by simp [writeRawPacket, packet.data_length, packetDataLength, rawPacketLength]
  opens := by simp [writeRawPacket, opensPacket]

theorem dispatchOf_writeRawPacket (packet : Packet) :
    dispatchOf (writeRawPacket packet) = packet.onWire.dispatches := by
  have hlength := (isFrame_writeRawPacket packet).length
  rw [dispatchOf, dif_pos hlength]
  congr 1
  have hdata : (packet.data ++ [calcChecksum packet.data]).take 8 = packet.data :=
    List.take_left' packet.data_length
  have hlast : (packet.data ++ [calcChecksum packet.data]).getD 8 0 = calcChecksum packet.data := by
    rw [List.getD_eq_getElem?_getD, List.getElem?_append_right
      (show packet.data.length ≤ 8 from Nat.le_of_eq packet.data_length)]
    simp [packet.data_length, packetDataLength]
  simp only [Packet.ofRaw, Packet.onWire, writeRawPacket, packetDataLength, List.cons_append,
    List.getD_cons_succ, List.getD_cons_zero, List.drop_succ_cons, List.drop_zero, hdata, hlast]

/-- A packet on the wire passes its checksum. -/
theorem dispatches_onWire (packet : Packet) :
    packet.onWire.dispatches = if handlerTypes.contains packet.type then
      [packet.onWire] else [] := by
  simp [Packet.dispatches, Packet.onWire, verifyChecksum]

/-- Nothing opens within a packet that holds no start bytes, whatever packets follow it. -/
theorem clear_writeRawPacket {packet : Packet} (h : ¬ packet.HoldsStart) (after : List Packet) :
    Clear opensPacket rawPacketLength (writeRawPacket packet)
      (after.map writeRawPacket).flatten := by
  intro i hpos hi
  rw [Bool.eq_false_iff]
  intro hopens
  have hraw := (isFrame_writeRawPacket packet).length
  have htwo : ((writeRawPacket packet).drop i ++ (after.map writeRawPacket).flatten).take 2 =
      [start1, start2] := by
    have := beq_iff_eq.1 hopens
    rwa [List.take_take] at this
  obtain ⟨place, rfl⟩ : ∃ place, i = place + 1 := ⟨i - 1, by omega⟩
  cases place with
  | zero =>
      -- the second start byte is not the first
      have hfirst := congrArg List.head? htwo
      simp [writeRawPacket, start1, start2] at hfirst
  | succ place =>
      have hdrop : (writeRawPacket packet).drop (place + 1 + 1) =
          (packet.type :: packet.data ++ [calcChecksum packet.data]).drop place := rfl
      rw [hdrop] at htwo
      have hbody : (packet.type :: packet.data ++ [calcChecksum packet.data]).length = 10 := by
        simp [packet.data_length, packetDataLength]
      by_cases hinside : place + 2 ≤ 10
      · refine h ?_
        rw [List.take_append_of_le_length (by rw [List.length_drop, hbody]; omega)] at htwo
        rw [Packet.HoldsStart, ← htwo]
        exact (List.take_prefix ..).isInfix.trans (List.drop_suffix ..).isInfix
      · -- only the checksum is left, and what follows it starts a packet
        simp only [rawPacketLength] at hi
        have hlast : place = 9 := by omega
        subst hlast
        have hone : ((packet.type :: packet.data ++ [calcChecksum packet.data]).drop 9).length =
            1 := by
          rw [List.length_drop, hbody]
        obtain ⟨last, hlast⟩ := List.length_eq_one_iff.1 hone
        rw [hlast] at htwo
        cases after with
        | nil => simp at htwo
        | cons next others => simp [writeRawPacket, start1, start2] at htwo

/-! ## Runs -/

/-- The link comes back into step. Whatever noise comes first, at whatever place of the ring, and
whatever the packets hold: in every run in which the ring does not overrun and is read to its end,
every packet behind the first one that holds no start bytes of its own is dispatched once, as it was
sent, and nothing else is dispatched from there on. -/
theorem Receiver.packets_resync (buffer : Nat → UInt8) {place : Nat}
    (hplace : place < dmaRxBufferSize)
    (noise : List UInt8) {before after : List Packet} {clear : Packet} (hclear : ¬ clear.HoldsStart)
    {events : List WireEvent}
    (hbytes : wireBytes events =
      noise ++ ((before ++ clear :: after).map writeRawPacket).flatten)
    (hfits : Along Receiver.step Fits (idle buffer place) events)
    (hread : (run Receiver.step (idle buffer place) events).getPtrDelta < rawPacketLength) :
    ∃ misread missed, missed ≤ before.length + 1 ∧
      (run Receiver.step (idle buffer place) events).dispatched = misread ++
        (((before ++ clear :: after).drop missed).filter
          fun packet ↦ handlerTypes.contains packet.type).map Packet.onWire := by
  obtain ⟨-, found, hdispatched, hfound⟩ := (Follows.idle buffer hplace).run hfits
  have hnone : frames opensPacket rawPacketLength
      (run Receiver.step (idle buffer place) events).unread = [] := by
    refine frames_of_short ?_
    rw [unread, bytesFrom_length]
    exact hread
  have hall := hfound []
  rw [List.nil_append, List.append_nil, List.append_nil, hnone, List.append_nil, hbytes,
    List.map_append, List.map_cons] at hall
  have hframes : ∀ frame ∈ before.map writeRawPacket ++ writeRawPacket clear ::
      after.map writeRawPacket, IsFrame opensPacket rawPacketLength frame := by
    intro frame hframe
    rw [← List.map_cons, ← List.map_append] at hframe
    obtain ⟨packet, -, rfl⟩ := List.mem_map.1 hframe
    exact isFrame_writeRawPacket packet
  obtain ⟨junk, missed, hmissed, hjunk⟩ :=
    frames_resync (by decide) noise hframes (clear_writeRawPacket hclear after)
  refine ⟨junk.flatMap dispatchOf, missed, by simpa using hmissed, ?_⟩
  rw [hdispatched, ← hall, hjunk, List.flatMap_append, ← List.map_cons, ← List.map_append,
    ← List.map_drop]
  congr 1
  induction (before ++ clear :: after).drop missed with
  | nil => rfl
  | cons packet rest ih =>
      rw [List.map_cons, List.flatMap_cons, ih, dispatchOf_writeRawPacket, dispatches_onWire,
        List.filter_cons]
      split <;> simp

/-- A packet of zeros but for a pair of start bytes at the front of its data. -/
def markedPacket : Packet := ⟨2, [start1, start2, 0, 0, 0, 0, 0, 0], 0, rfl⟩

/-- A packet of zeros. -/
def plainPacket : Packet := ⟨2, [0, 0, 0, 0, 0, 0, 0, 0], 0, rfl⟩

/-- The first nine bytes of a packet. -/
def truncated : List UInt8 := [start1, start2, 0, 0, 0, 0, 0, 0, 0]

/-- The bytes one after the other, with a pass of the task behind each of them. -/
def readAsItComes (bytes : List UInt8) : List WireEvent :=
  bytes.flatMap fun value ↦ [.byte value, .task]

set_option maxRecDepth 4096 in
/-- Of a marked packet, a plain one and a third behind a truncated one, near the end of the ring,
the third is dispatched. -/
theorem packets_resync_truncated :
    ∃ misread missed, missed ≤ 2 ∧
      (run Receiver.step (Receiver.idle (fun _ ↦ 0) 1020) (readAsItComes
        (truncated ++
          ([markedPacket, plainPacket, plainPacket].map writeRawPacket).flatten))).dispatched =
      misread ++ (([markedPacket, plainPacket, plainPacket].drop missed).filter
        fun packet ↦ handlerTypes.contains packet.type).map Packet.onWire := by
  have hfits : Along Receiver.step Receiver.Fits (Receiver.idle (fun _ ↦ 0) 1020) (readAsItComes
      (truncated ++ ([markedPacket, plainPacket, plainPacket].map writeRawPacket).flatten)) := by
    decide
  have hplain : ¬ plainPacket.HoldsStart := by decide
  exact @Receiver.packets_resync (fun _ ↦ 0) 1020 (by decide) truncated [markedPacket] [plainPacket]
    plainPacket hplain _ (by decide) hfits (by decide)

set_option maxRecDepth 4096 in
/-- Behind a truncated packet, a reader of packets that all hold the start bytes at one place stays
out of step: of four packets none is dispatched. -/
theorem marked_packets_lost :
    let s := run Receiver.step (Receiver.idle (fun _ ↦ 0) 0) (readAsItComes
      (truncated ++ ((List.replicate 4 markedPacket).map writeRawPacket).flatten))
    Along Receiver.step Receiver.Fits (Receiver.idle (fun _ ↦ 0) 0) (readAsItComes
      (truncated ++ ((List.replicate 4 markedPacket).map writeRawPacket).flatten)) ∧
    s.getPtrDelta < rawPacketLength ∧ s.dispatched = [] := by
  decide

end DeskhopPlus.Link
