import DeskhopPlus.Library.Runs
import DeskhopPlus.Link.Packet
import Mathlib.Logic.Function.Basic

/-!
# What a host can make the boards do

Two boards joined by their packet queues, with a host that writes reports to the configuration
endpoint. Whatever the boards dispatch is recorded. `innermost` is the type a packet turns into
when every proxy layer has been taken off; forwarding keeps it, so a run only dispatches allowed
types if every accepted report is innermost allowed. The test of the endpoint looks one layer deep
and does not see to that.
-/

namespace DeskhopPlus.Link

open PacketType Runs

/-- One of the two boards. -/
inductive BoardId where
  | a
  | b
  deriving DecidableEq, Repr

/-- The other board. -/
def BoardId.other : BoardId → BoardId
  | .a => .b
  | .b => .a

/-- A board: whether it is in config mode, and what waits for the wire to the other board. -/
structure Board where
  configMode : Bool
  txQueue : List Packet

/-- Both boards, and every type dispatched so far with the board it was dispatched on. -/
structure Boards where
  board : BoardId → Board
  dispatched : List (BoardId × UInt8)

/-- What can happen. A report is whatever bytes the host wrote to the endpoint. -/
inductive LinkEvent where
  | configMode (id : BoardId) (active : Bool)
  | report (id : BoardId) (buffer : List UInt8)
  | deliver (id : BoardId)
  | lose (id : BoardId)
  deriving DecidableEq, Repr

/-- `queue_uart_packet` for one packet: a full queue drops it. -/
def queueUartPacket (queue : List Packet) (packet : Packet) : List Packet :=
  if queue.length < uartQueueLength then queue ++ [packet] else queue

section Machine

variable (others : Packet → List Packet)

/-- `process_packet` on a board: a packet with a good checksum and a handler is dispatched. -/
def processPacket (s : Boards) (id : BoardId) (packet : Packet) : Boards :=
  if verifyChecksum packet = false then s
  else if handlerTypes.contains packet.type = false then s
  else
    let queue := (handlerSends others packet).foldl queueUartPacket (s.board id).txQueue
    { board := Function.update s.board id { s.board id with txQueue := queue },
      dispatched := s.dispatched ++ [(id, packet.type)] }

/-- The packet of a report the configuration endpoint accepts, as `tud_hid_set_report_cb` tests
it. -/
def acceptReport (s : Boards) (id : BoardId) (buffer : List UInt8) : Option Packet :=
  if (s.board id).configMode = false then none
  else if h : buffer.length = rawPacketLength then
    if validatePacket (Packet.ofRaw buffer h) then some (Packet.ofRaw buffer h) else none
  else none

/-- Take the packet at the head of a board's queue off it. -/
def dequeue (s : Boards) (id : BoardId) : Boards :=
  let queue := (s.board id).txQueue.tail
  { s with board := Function.update s.board id { s.board id with txQueue := queue } }

/-- One event. A delivered packet is processed by the other board. -/
def linkStep (s : Boards) : LinkEvent → Boards
  | .configMode id active =>
      { s with board := Function.update s.board id { s.board id with configMode := active } }
  | .report id buffer =>
      match acceptReport s id buffer with
      | none => s
      | some packet => processPacket others s id packet
  | .deliver id =>
      match (s.board id).txQueue with
      | [] => s
      | packet :: _ => processPacket others (dequeue s id) id.other packet
  | .lose id => dequeue s id

end Machine

/-- Idle boards with nothing queued. -/
def idleBoards (configMode : BoardId → Bool) : Boards :=
  { board := fun id ↦ { configMode := configMode id, txQueue := [] }, dispatched := [] }

/-! ## Under the proxies -/

/-- The type of a packet once every proxy layer has been taken off. The last data bytes of a
forwarded packet are zero. -/
def innermost (packet : Packet) : UInt8 :=
  ((packet.type :: packet.data).dropWhile (· = proxyPacket)).headD 0

/-- The packet ends in an allowed type, or in one no handler takes. -/
def Tame (packet : Packet) : Prop :=
  innermost packet ∈ allowedPackets ∨ innermost packet ∉ handlerTypes

instance (packet : Packet) : Decidable (Tame packet) := inferInstanceAs (Decidable (_ ∨ _))

/-- Taking off a proxy layer does not change what is under all of them. -/
theorem innermost_handleProxyMsg {packet : Packet} (h : packet.type = proxyPacket) :
    innermost (handleProxyMsg packet) = innermost packet := by
  have hdata : packet.data ≠ [] := by
    apply List.ne_nil_of_length_pos
    rw [packet.data_length]
    decide
  obtain ⟨first, rest, hcons⟩ := List.exists_cons_of_ne_nil hdata
  have hlength : rest.length = 7 := by
    have := packet.data_length
    simpa [hcons, packetDataLength] using this
  -- the forwarded packet is the data shifted up, with a zero behind it
  have hforward : (handleProxyMsg packet).type :: (handleProxyMsg packet).data =
      packet.data ++ [0] := by
    simp [handleProxyMsg, Packet.build, hcons, hlength, packetDataLength]
  have hzero : ∀ bytes : List UInt8, ((bytes ++ [0]).dropWhile (· = proxyPacket)).headD 0 =
      (bytes.dropWhile (· = proxyPacket)).headD 0 := by
    intro bytes
    induction bytes with
    | nil => rfl
    | cons head tail ih =>
        by_cases hproxy : head = proxyPacket
        · simpa [hproxy] using ih
        · simp [hproxy]
  rw [innermost, innermost, hforward, hzero, List.dropWhile_cons_of_pos (by simp [h])]

/-- A packet that is no proxy is its own innermost. -/
theorem innermost_of_ne {packet : Packet} (h : packet.type ≠ proxyPacket) :
    innermost packet = packet.type := by
  simp [innermost, h]

/-- A tame packet that is dispatched is of an allowed type, and so is all it forwards. -/
theorem Tame.dispatch {packet : Packet} (h : Tame packet) (others : Packet → List Packet)
    (hhandled : packet.type ∈ handlerTypes) :
    packet.type ∈ allowedPackets ∧ ∀ sent ∈ handlerSends others packet, Tame sent := by
  by_cases hproxy : packet.type = proxyPacket
  · refine ⟨by rw [hproxy]; decide, ?_⟩
    intro sent hsent
    rw [handlerSends, if_pos hproxy, List.mem_singleton] at hsent
    rw [hsent, Tame, innermost_handleProxyMsg hproxy]
    exact h
  · have hallowed : packet.type ∈ allowedPackets := by
      rw [Tame, innermost_of_ne hproxy] at h
      exact h.resolve_right fun hnot ↦ hnot hhandled
    refine ⟨hallowed, ?_⟩
    intro sent hsent
    rw [handlerSends, if_neg hproxy, if_pos (by simpa using hallowed)] at hsent
    cases hsent

/-! ## Runs -/

/-- Everything queued is tame, and everything dispatched was allowed. -/
structure Confined (s : Boards) : Prop where
  queued : ∀ id, ∀ packet ∈ (s.board id).txQueue, Tame packet
  allowed : ∀ entry ∈ s.dispatched, entry.2 ∈ allowedPackets

/-- Every report the endpoint accepts, its checksum being good, is innermost allowed. -/
def TameReport (s : Boards) : LinkEvent → Prop
  | .report id buffer =>
      ∀ packet ∈ acceptReport s id buffer, verifyChecksum packet = true → Tame packet
  | _ => True

instance (s : Boards) (event : LinkEvent) : Decidable (TameReport s event) :=
  match event with
  | .report id buffer =>
      inferInstanceAs (Decidable
        (∀ packet ∈ acceptReport s id buffer, verifyChecksum packet = true → Tame packet))
  | .configMode _ _ => .isTrue trivial
  | .deliver _ => .isTrue trivial
  | .lose _ => .isTrue trivial

section Confinement

variable {others : Packet → List Packet} {s : Boards}

theorem mem_foldl_queueUartPacket {packets queue : List Packet} {packet : Packet}
    (h : packet ∈ packets.foldl queueUartPacket queue) : packet ∈ queue ∨ packet ∈ packets := by
  induction packets generalizing queue with
  | nil => exact .inl h
  | cons first rest ih =>
      rcases ih h with hqueue | hrest
      · rw [queueUartPacket] at hqueue
        split at hqueue
        · rcases List.mem_append.1 hqueue with hold | hnew
          · exact .inl hold
          · exact .inr (by simp [List.mem_singleton.1 hnew])
        · exact .inl hqueue
      · exact .inr (List.mem_cons_of_mem _ hrest)

/-- Processing a tame packet. -/
theorem Confined.processPacket (h : Confined s) (id : BoardId) {packet : Packet}
    (htame : verifyChecksum packet = true → Tame packet) :
    Confined (processPacket others s id packet) := by
  unfold Link.processPacket
  split
  · exact h
  · rename_i hchecksum
    split
    · exact h
    · rename_i hhandled
      obtain ⟨hallowed, hsends⟩ :=
        (htame (by simpa using hchecksum)).dispatch others (by simpa using hhandled)
      refine ⟨?_, ?_⟩
      · intro other queued hqueued
        by_cases hsame : other = id
        · subst hsame
          simp only [Function.update_self] at hqueued
          rcases mem_foldl_queueUartPacket hqueued with hold | hnew
          · exact h.queued other queued hold
          · exact hsends queued hnew
        · simp only [Function.update_of_ne hsame] at hqueued
          exact h.queued other queued hqueued
      · intro entry hentry
        rcases List.mem_append.1 hentry with hold | hnew
        · exact h.allowed entry hold
        · rw [List.mem_singleton.1 hnew]
          exact hallowed

theorem Confined.dequeue (h : Confined s) (id : BoardId) : Confined (dequeue s id) := by
  refine ⟨?_, h.allowed⟩
  intro other queued hqueued
  by_cases hsame : other = id
  · subst hsame
    simp only [Link.dequeue, Function.update_self] at hqueued
    exact h.queued other queued (List.mem_of_mem_tail hqueued)
  · simp only [Link.dequeue, Function.update_of_ne hsame] at hqueued
    exact h.queued other queued hqueued

/-- Every event whose report is tame keeps the boards confined. -/
theorem Confined.step (h : Confined s) (event : LinkEvent) (htame : TameReport s event) :
    Confined (linkStep others s event) := by
  cases event with
  | configMode id active =>
      refine ⟨?_, h.allowed⟩
      intro other queued hqueued
      by_cases hsame : other = id
      · subst hsame
        simp only [linkStep, Function.update_self] at hqueued
        exact h.queued other queued hqueued
      · simp only [linkStep, Function.update_of_ne hsame] at hqueued
        exact h.queued other queued hqueued
  | report id buffer =>
      simp only [linkStep]
      split
      · exact h
      · rename_i packet haccept
        exact h.processPacket id (htame packet haccept)
  | deliver id =>
      simp only [linkStep]
      split
      · exact h
      · rename_i packet rest hqueue
        have htame : Tame packet := h.queued id packet (by simp [hqueue])
        exact (h.dequeue id).processPacket id.other fun _ ↦ htame
  | lose id => exact h.dequeue id

/-- When the configuration endpoint is confined: in every run whose accepted reports are innermost
allowed, or end in a type without a handler, both boards dispatch allowed types only. -/
theorem dispatched_allowed (others : Packet → List Packet) (configMode : BoardId → Bool)
    (events : List LinkEvent)
    (htame : Along (linkStep others) TameReport (idleBoards configMode) events) :
    ∀ entry ∈ (run (linkStep others) (idleBoards configMode) events).dispatched,
      entry.2 ∈ allowedPackets := by
  have hstart : Confined (idleBoards configMode) :=
    ⟨fun _ _ h ↦ absurd h List.not_mem_nil, fun _ h ↦ absurd h List.not_mem_nil⟩
  exact (run_invariant_along Confined hstart (fun _ event h ↦ h.step event) htame).allowed

/-- A report that proxies a request to flash the LED, delivered. -/
theorem dispatched_allowed_flashLed :
    ((run (linkStep fun _ ↦ []) (idleBoards fun _ ↦ true)
      [.report .a [0xAA, 0x55, proxyPacket, flashLed, 0, 0, 0, 0, 0, 0, 0, flashLed],
        .deliver .a]).dispatched = [(.a, proxyPacket), (.b, flashLed)]) ∧
      ∀ entry ∈ (run (linkStep fun _ ↦ []) (idleBoards fun _ ↦ true)
        [.report .a [0xAA, 0x55, proxyPacket, flashLed, 0, 0, 0, 0, 0, 0, 0, flashLed],
          .deliver .a]).dispatched, entry.2 ∈ allowedPackets :=
  ⟨by decide, dispatched_allowed _ _ _ (by decide)⟩

/-- A proxy in a proxy passes the test, and the firmware upgrade inside comes back to the board
the host is attached to. -/
theorem nested_proxy_dispatches_firmwareUpgrade :
    ((.a, firmwareUpgrade) ∈ (run (linkStep fun _ ↦ []) (idleBoards fun _ ↦ true)
      [.report .a [0xAA, 0x55, proxyPacket, proxyPacket, firmwareUpgrade, 0, 0, 0, 0, 0, 0,
          proxyPacket ^^^ firmwareUpgrade],
        .deliver .a, .deliver .b]).dispatched) ∧
      firmwareUpgrade ∉ allowedPackets := by
  decide

end Confinement

end DeskhopPlus.Link
