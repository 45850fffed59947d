import DeskhopPlus.Board.Relay
import DeskhopPlus.Library.Blocks
import DeskhopPlus.Library.Runs

/-!
# Frames across the inter-board link

A frame crosses the link as a packet that announces its length and packets of eight of its bytes.
`RelayLine` is the sending board's queue, the link, which may lose any packet but keeps their order,
and the receiving board. `listen_packetsOf` says what the receiver makes of the packets of one frame
when some of them are lost, and the two main results follow from it: `relay_round_trip` says that a
frame all of whose packets arrive is delivered, whatever was lost before, and `relay_sound` when
nothing else is.
-/

namespace DeskhopPlus.Board

open Bytes Blocks Wire Outq Runs

/-! ## The packets of a frame -/

/-- The packet that announces a frame. -/
def startPacket (frame : List UInt8) : RelayPacket where
  kind := .start
  data := littleEndian 2 frame.length ++ List.replicate (relayPayload - 2) 0

/-- The packet that carries bytes of a frame. -/
def dataPacket (frame : List UInt8) (index : Nat) : RelayPacket where
  kind := .data
  data := block relayPayload frame index ++
    List.replicate (relayPayload - (block relayPayload frame index).length) 0

/-- The number of packets that carry bytes of a frame. -/
def dataCount (frame : List UInt8) : Nat := (frame.length + (relayPayload - 1)) / relayPayload

/-- The packets a frame crosses the link in. -/
def packetsOf (frame : List UInt8) : List RelayPacket :=
  startPacket frame :: (List.range (dataCount frame)).map (dataPacket frame)

theorem packetsOf_length (frame : List UInt8) : (packetsOf frame).length = dataCount frame + 1 := by
  simp [packetsOf]

theorem lt_dataCount_iff (frame : List UInt8) (index : Nat) :
    index < dataCount frame ↔ index * relayPayload < frame.length := by
  rw [dataCount, Nat.lt_div_iff_mul_lt (by decide)]
  simp only [relayPayload]
  omega

/-! ## The receiving board -/

/-- The receiving board with the number of packets the link has carried, whether the last packet
that announced a frame arrived, and every frame delivered with the number of the packet that
completed it. -/
structure Ear where
  rx : RelayRx
  count : Nat
  opened : Bool
  delivered : List (Nat × FrameView)

namespace Ear

/-- A board that has heard nothing. -/
def start : Ear := { rx := RelayRx.init, count := 0, opened := false, delivered := [] }

/-- The link carries a packet, which arrives or is lost. -/
def listen (cap : Nat) (ear : Ear) (carried : RelayPacket × Bool) : Ear :=
  let (packet, arrives) := carried
  let pushed := ear.rx.pushWithin cap packet
  { rx := if arrives then pushed.2 else ear.rx
    count := ear.count + 1
    opened := if packet.kind = .start then arrives else ear.opened
    delivered :=
      match arrives, pushed.1 with
      | true, .ok view => ear.delivered ++ [(ear.count, view)]
      | _, _ => ear.delivered }

/-- The packet is not one that continues a frame whose announcement was lost while the board is in
the middle of another. -/
def Unspliced (ear : Ear) (carried : RelayPacket × Bool) : Prop :=
  carried.2 = true → carried.1.kind = .data → ear.rx.expected = 0 ∨ ear.opened = true

instance (ear : Ear) (carried : RelayPacket × Bool) : Decidable (ear.Unspliced carried) :=
  inferInstanceAs (Decidable (_ → _))

variable {cap : Nat} {ear : Ear} {packet : RelayPacket}

/-- A packet of bytes that no announcement came before. -/
theorem listen_orphan (cap : Nat) (hkind : packet.kind = .data) (hidle : ear.rx.expected = 0)
    (arrives : Bool) :
    (ear.listen cap (packet, arrives)).rx.expected = 0 ∧
      (ear.listen cap (packet, arrives)).delivered = ear.delivered ∧
      (ear.listen cap (packet, arrives)).opened = ear.opened := by
  cases arrives with
  | false => exact ⟨hidle, rfl, by simp [listen, hkind]⟩
  | true =>
      have hpush : ear.rx.pushWithin cap packet =
          (.error .orphan, { ear.rx with orphans := ear.rx.orphans + 1 }) := by
        simp [RelayRx.pushWithin, RelayRx.pushData, hkind, hidle]
      simp [listen, hpush, hkind, hidle]

/-- Without a frame begun, packets of bytes deliver nothing. -/
theorem listen_idle {carried : List (RelayPacket × Bool)}
    (hkinds : ∀ packet ∈ carried, packet.1.kind = .data) (hidle : ear.rx.expected = 0) :
    (run (listen cap) ear carried).delivered = ear.delivered := by
  induction carried generalizing ear with
  | nil => rfl
  | cons first rest ih =>
      obtain ⟨packet, arrives⟩ := first
      obtain ⟨hidle', hsame, -⟩ := listen_orphan cap
        (hkinds (packet, arrives) (List.mem_cons_self ..)) hidle arrives
      rw [run_cons, ih (fun p hp ↦ hkinds p (List.mem_cons_of_mem _ hp)) hidle', hsame]

/-- When the announcement was lost, packets that are not spliced deliver nothing. -/
theorem listen_unopened {carried : List (RelayPacket × Bool)}
    (hkinds : ∀ packet ∈ carried, packet.1.kind = .data) (hopened : ear.opened = false)
    (hunspliced : Along (listen cap) Unspliced ear carried) :
    (run (listen cap) ear carried).delivered = ear.delivered := by
  induction carried generalizing ear with
  | nil => rfl
  | cons first rest ih =>
      obtain ⟨packet, arrives⟩ := first
      have hkind := hkinds (packet, arrives) (List.mem_cons_self ..)
      have hkinds' : ∀ other ∈ rest, other.1.kind = .data :=
        fun other hother ↦ hkinds other (List.mem_cons_of_mem _ hother)
      rw [run_cons]
      cases arrives with
      | false =>
          have hopened' : (ear.listen cap (packet, false)).opened = false := by
            simp [listen, show packet.kind = .data from hkind, hopened]
          rw [ih hkinds' hopened' hunspliced.2]
          rfl
      | true =>
          have hidle : ear.rx.expected = 0 := by
            rcases hunspliced.1 rfl hkind with hidle | hopen
            · exact hidle
            · rw [hopened] at hopen
              cases hopen
          obtain ⟨-, hsame, hopened'⟩ := listen_orphan cap hkind hidle true
          rw [ih hkinds' (hopened'.trans hopened) hunspliced.2, hsame]

end Ear

/-! ## One frame put together -/

/-- A frame is being put together: of its first `index` packets of bytes `lost` did not arrive. -/
structure Assembling (frame : List UInt8) (index lost : Nat) (rx : RelayRx) : Prop where
  expected : rx.expected = frame.length
  short : rx.held.length < frame.length
  behind : rx.held.length + lost * relayPayload ≤ index * relayPayload
  exact : lost = 0 → rx.held = frame.take (index * relayPayload)

namespace Assembling

variable {frame : List UInt8} {index lost : Nat} {rx : RelayRx} {cap : Nat}

theorem lose (h : Assembling frame index lost rx) : Assembling frame (index + 1) (lost + 1) rx where
  expected := h.expected
  short := h.short
  behind := by
    have := h.behind
    simp only [relayPayload] at this ⊢
    omega
  exact := nofun

/-- The bytes a packet adds. -/
def grown (frame : List UInt8) (index : Nat) (rx : RelayRx) : List UInt8 :=
  rx.held ++ (dataPacket frame index).data.take (rx.expected - rx.held.length)

theorem data_length (frame : List UInt8) (index : Nat) :
    (dataPacket frame index).data.length = relayPayload := by
  have := block_length_le relayPayload frame index
  simp only [dataPacket, List.length_append, List.length_replicate]
  omega

theorem grown_length (h : Assembling frame index lost rx) :
    (grown frame index rx).length ≤ rx.held.length + relayPayload ∧
      (grown frame index rx).length ≤ frame.length := by
  have hshort := h.short
  simp only [grown, List.length_append, List.length_take, data_length, h.expected]
  omega

/-- A packet that does not complete the frame. -/
theorem push_again (h : Assembling frame index lost rx)
    (hmore : (grown frame index rx).length < frame.length) :
    rx.pushWithin cap (dataPacket frame index) =
      (.error .again, { rx with held := grown frame index rx }) := by
  have hexpected : rx.expected ≠ 0 := by
    have := h.expected
    have := h.short
    omega
  have hmore' : (grown frame index rx).length < rx.expected := by rwa [h.expected]
  show rx.pushData (dataPacket frame index).data = _
  rw [RelayRx.pushData, if_neg hexpected]
  show (if (grown frame index rx).length < rx.expected then _ else _) = _
  rw [if_pos hmore']
  rfl

/-- A frame that lost a packet stays short of its length. -/
theorem arrive_short (h : Assembling frame index lost rx) (hlost : 0 < lost)
    (hindex : index < dataCount frame) :
    (grown frame index rx).length < frame.length ∧
      Assembling frame (index + 1) lost { rx with held := grown frame index rx } := by
  have hbehind := h.behind
  have hinside := (lt_dataCount_iff frame index).1 hindex
  obtain ⟨hgrown, -⟩ := h.grown_length
  simp only [relayPayload] at hbehind hinside hgrown
  have hshort : (grown frame index rx).length < frame.length := by omega
  refine ⟨hshort, h.expected, hshort, ?_, fun hzero ↦ absurd hzero (by omega)⟩
  simp only [relayPayload]
  omega

/-- A frame that lost nothing holds its first bytes. -/
theorem grown_eq (h : Assembling frame index 0 rx) :
    grown frame index rx = frame.take ((index + 1) * relayPayload) := by
  have hheld := h.exact rfl
  have hshort := h.short
  rw [hheld, List.length_take] at hshort
  have hinside : index * relayPayload < frame.length := by omega
  rw [grown, h.expected, hheld, List.length_take, Nat.min_eq_left hinside.le, dataPacket,
    Nat.succ_mul, List.take_add]
  congr 1
  have hblock : (block relayPayload frame index).length =
      min relayPayload (frame.length - index * relayPayload) := by
    simp [block]
  rcases Nat.le_total relayPayload (frame.length - index * relayPayload) with hfull | hlast
  · -- a full packet has no padding
    rw [Nat.min_eq_left hfull] at hblock
    rw [hblock, Nat.sub_self, List.replicate_zero, List.append_nil,
      List.take_of_length_le (by rw [hblock]; exact hfull)]
    rfl
  · -- the last packet is cut where the frame ends
    rw [Nat.min_eq_right hlast] at hblock
    rw [← hblock, List.take_left]
    rfl

/-- A packet of a frame that lost nothing, before the last. -/
theorem arrive_next (h : Assembling frame index 0 rx) (hindex : index + 1 < dataCount frame) :
    (grown frame index rx).length < frame.length ∧
      Assembling frame (index + 1) 0 { rx with held := grown frame index rx } := by
  have hinside := (lt_dataCount_iff frame (index + 1)).1 hindex
  have hlength : (grown frame index rx).length = (index + 1) * relayPayload := by
    rw [h.grown_eq, List.length_take, Nat.min_eq_left hinside.le]
  refine ⟨by rw [hlength]; exact hinside, h.expected, ?_, ?_, fun _ ↦ h.grown_eq⟩
  · show (grown frame index rx).length < frame.length
    rw [hlength]
    exact hinside
  · show (grown frame index rx).length + 0 * relayPayload ≤ _
    rw [hlength]
    omega

/-- The last packet of a frame that lost nothing delivers it. -/
theorem push_last (h : Assembling frame index 0 rx) (hindex : index + 1 = dataCount frame)
    {view : FrameView} (hdecode : decode frame = .ok (view, frame.length)) :
    rx.pushWithin cap (dataPacket frame index) = (.ok view, rx.reset) := by
  have hwhole : grown frame index rx = frame := by
    rw [h.grown_eq]
    apply List.take_of_length_le
    have hnot : ¬ index + 1 < dataCount frame := by omega
    rw [lt_dataCount_iff] at hnot
    omega
  have hexpected : rx.expected ≠ 0 := by
    have := h.expected
    have := h.short
    omega
  show rx.pushData (dataPacket frame index).data = _
  rw [RelayRx.pushData, if_neg hexpected]
  have hgrown : rx.held ++ (dataPacket frame index).data.take (rx.expected - rx.held.length) =
      frame := hwhole
  dsimp only
  rw [hgrown, h.expected, if_neg (Nat.lt_irrefl _), hdecode]
  simp

end Assembling

namespace Ear

variable {cap : Nat} {frame : List UInt8} {view : FrameView}

/-- The packets of bytes from one on, with what becomes of each. -/
def carriedFrom (frame : List UInt8) (index : Nat) (marks : List Bool) :
    List (RelayPacket × Bool) :=
  ((List.range' index (dataCount frame - index)).map (dataPacket frame)).zip marks

theorem carriedFrom_cons {index : Nat} (h : index < dataCount frame) (mark : Bool)
    (marks : List Bool) :
    carriedFrom frame index (mark :: marks) =
      (dataPacket frame index, mark) :: carriedFrom frame (index + 1) marks := by
  have hcount : dataCount frame - index = dataCount frame - (index + 1) + 1 := by omega
  rw [carriedFrom, hcount, List.range'_succ, List.map_cons, List.zip_cons_cons]
  rfl

theorem carriedFrom_kinds (frame : List UInt8) (index : Nat) (marks : List Bool) :
    ∀ packet ∈ carriedFrom frame index marks, packet.1.kind = .data := by
  intro packet hpacket
  obtain ⟨index, -, hdata⟩ :=
    List.mem_map.1 (List.of_mem_zip (a := packet.1) (b := packet.2) hpacket).1
  rw [← hdata]
  rfl

/-- A packet that arrives and completes nothing. -/
theorem listen_again {ear : Ear} {packet : RelayPacket} {fault : RelayFault} {rx : RelayRx}
    (h : ear.rx.pushWithin cap packet = (.error fault, rx)) :
    (ear.listen cap (packet, true)).rx = rx ∧
      (ear.listen cap (packet, true)).delivered = ear.delivered := by
  simp [listen, h]

/-- What a board that has heard the announcement of a frame makes of its bytes. -/
theorem listen_carriedFrom (hdecode : decode frame = .ok (view, frame.length))
    {index lost : Nat} {ear : Ear} (h : Assembling frame index lost ear.rx) {marks : List Bool}
    (hmarks : index + marks.length ≤ dataCount frame) :
    (run (listen cap) ear (carriedFrom frame index marks)).delivered =
      ear.delivered ++
        if index + marks.length = dataCount frame ∧ lost = 0 ∧ false ∉ marks then
          [(ear.count + marks.length - 1, view)]
        else [] := by
  induction marks generalizing index lost ear with
  | nil =>
      rw [if_neg]
      · simp [carriedFrom]
      · rintro ⟨hall, hnone, -⟩
        have hshort := h.short
        rw [h.exact hnone, List.length_take] at hshort
        have hinside := (lt_dataCount_iff frame index).2 (by omega)
        simp only [List.length_nil, Nat.add_zero] at hall
        omega
  | cons mark marks ih =>
      rw [List.length_cons] at hmarks
      have hindex : index < dataCount frame := by omega
      have hmarks' : index + 1 + marks.length ≤ dataCount frame := by omega
      rw [carriedFrom_cons hindex, run_cons]
      have hcount : (ear.listen cap (dataPacket frame index, mark)).count = ear.count + 1 := rfl
      -- the packet leaves the frame with a loss, without one, or delivered
      have hlossy : ∀ {lost' : Nat}, 0 < lost' →
          Assembling frame (index + 1) lost' (ear.listen cap (dataPacket frame index, mark)).rx →
          (ear.listen cap (dataPacket frame index, mark)).delivered = ear.delivered →
          ¬ (lost = 0 ∧ false ∉ mark :: marks) →
          (run (listen cap) (ear.listen cap (dataPacket frame index, mark))
            (carriedFrom frame (index + 1) marks)).delivered =
          ear.delivered ++ if index + (mark :: marks).length = dataCount frame ∧ lost = 0 ∧
              false ∉ mark :: marks then [(ear.count + (mark :: marks).length - 1, view)]
            else [] := by
        intro lost' hpos hassembling hdelivered hnot
        rw [ih hassembling hmarks', hdelivered, if_neg (fun hall ↦ by omega),
          if_neg (fun hall ↦ hnot hall.2)]
      cases mark with
      | false => exact hlossy (Nat.succ_pos lost) h.lose rfl (by simp)
      | true =>
          rcases Nat.eq_zero_or_pos lost with rfl | hlost
          · rcases Nat.lt_or_ge (index + 1) (dataCount frame) with hnext | hlast
            · obtain ⟨hmore, hassembling⟩ := h.arrive_next hnext
              obtain ⟨hrx, hdelivered⟩ := listen_again (h.push_again hmore)
              rw [← hrx] at hassembling
              rw [ih hassembling hmarks', hdelivered, hcount]
              simp only [List.length_cons, List.mem_cons, Bool.false_eq_true, false_or, true_and]
              rw [Nat.add_assoc index 1, Nat.add_comm 1, Nat.add_assoc ear.count 1,
                Nat.add_comm 1]
            · have hnil : marks = [] := List.length_eq_zero_iff.1 (by omega)
              subst hnil
              have hpush : ear.rx.pushWithin cap (dataPacket frame index) = _ :=
                h.push_last (by omega) hdecode
              rw [if_pos (by simp; omega)]
              simp [carriedFrom, listen, hpush]
          · obtain ⟨hmore, hassembling⟩ := h.arrive_short hlost hindex
            obtain ⟨hrx, hdelivered⟩ := listen_again (h.push_again hmore)
            rw [← hrx] at hassembling
            exact hlossy hlost hassembling hdelivered (fun hall ↦ by omega)

/-- An announcement is read back as the length of the frame. -/
theorem value_startPacket (hframe : IsFrame frame) :
    value ((startPacket frame).data.take 2) = frame.length ∧ headerSize ≤ frame.length ∧
      frame.length ≤ maxFrame := by
  have hheader := WireFrame.header_le_length ⟨frame, hframe⟩
  have hmax := WireFrame.length_le_max ⟨frame, hframe⟩
  refine ⟨?_, hheader, hmax⟩
  rw [startPacket, List.take_append_of_le_length (by simp), List.take_of_length_le (by simp),
    value_littleEndian_of_lt]
  exact hmax.trans_lt (by decide)

/-- The announcement of a frame that fits. -/
theorem assembling_startPacket (hframe : IsFrame frame) (hcap : frame.length ≤ cap)
    (rx : RelayRx) :
    ∃ fault rx', rx.pushWithin cap (startPacket frame) = (.error fault, rx') ∧
      Assembling frame 0 0 rx' := by
  obtain ⟨hvalue, hheader, hmax⟩ := value_startPacket hframe
  have hpos : 0 < frame.length := Nat.lt_of_lt_of_le (by decide) hheader
  have hassembling : ∀ rx : RelayRx,
      Assembling frame 0 0 { rx with expected := frame.length, held := [] } :=
    fun _ ↦ ⟨rfl, hpos, by simp, fun _ ↦ by simp⟩
  show ∃ fault rx', rx.pushStart cap (startPacket frame).data = (.error fault, rx') ∧ _
  unfold RelayRx.pushStart
  simp only [hvalue]
  rw [if_neg (by omega)]
  exact ⟨_, _, rfl, hassembling _⟩

/-- The announcement of a frame that does not fit. -/
theorem idle_startPacket (hframe : IsFrame frame) (hcap : cap < frame.length) (rx : RelayRx) :
    ∃ fault rx', rx.pushWithin cap (startPacket frame) = (.error fault, rx') ∧
      rx'.expected = 0 := by
  obtain ⟨hvalue, -, -⟩ := value_startPacket hframe
  show ∃ fault rx', rx.pushStart cap (startPacket frame).data = (.error fault, rx') ∧ _
  unfold RelayRx.pushStart
  simp only [hvalue]
  rw [if_pos (.inr (.inl hcap))]
  exact ⟨_, _, rfl, rfl⟩

/-- What the receiver makes of the first packets of a frame, some of them lost: it delivers the
frame if these are all of its packets and all arrived, and nothing otherwise. -/
theorem listen_packetsOf (hframe : IsFrame frame)
    (hdecode : decode frame = .ok (view, frame.length)) {ear : Ear} {marks : List Bool}
    (hmarks : marks.length ≤ (packetsOf frame).length)
    (hunspliced : Along (listen cap) Unspliced ear ((packetsOf frame).zip marks)) :
    (run (listen cap) ear ((packetsOf frame).zip marks)).delivered =
      ear.delivered ++
        if marks.length = (packetsOf frame).length ∧ false ∉ marks ∧ frame.length ≤ cap then
          [(ear.count + marks.length - 1, view)]
        else [] := by
  cases marks with
  | nil => simp [packetsOf_length]
  | cons mark marks =>
      rw [packetsOf_length, List.length_cons] at hmarks
      have hzip : (packetsOf frame).zip (mark :: marks) =
          (startPacket frame, mark) :: carriedFrom frame 0 marks := by
        simp [packetsOf, carriedFrom, List.range_eq_range']
      rw [hzip] at hunspliced ⊢
      rw [run_cons]
      have hkinds := carriedFrom_kinds frame 0 marks
      cases mark with
      | false =>
          rw [listen_unopened hkinds rfl hunspliced.2, if_neg (by simp)]
          simp [listen]
      | true =>
          rcases Nat.lt_or_ge cap frame.length with hover | hcap
          · obtain ⟨fault, rx, hpush, hidle⟩ := idle_startPacket hframe hover ear.rx
            obtain ⟨hrx, hdelivered⟩ := listen_again hpush
            rw [listen_idle hkinds (by rw [hrx]; exact hidle), hdelivered, if_neg (by omega)]
            simp
          · obtain ⟨fault, rx, hpush, hassembling⟩ := assembling_startPacket hframe hcap ear.rx
            obtain ⟨hrx, hdelivered⟩ := listen_again hpush
            rw [← hrx] at hassembling
            rw [listen_carriedFrom hdecode hassembling (by omega), hdelivered]
            have hcount : (ear.listen cap (startPacket frame, true)).count = ear.count + 1 := rfl
            rw [hcount]
            simp only [List.length_cons, List.mem_cons, Bool.false_eq_true, false_or, true_and,
              packetsOf_length, hcap, and_true, Nat.zero_add, Nat.add_right_cancel_iff]
            rw [Nat.add_assoc ear.count 1, Nat.add_comm 1]

/-! ## One frame after the other -/

/-- The frames delivered, each with the number of the packet that completed it. -/
def shown (ear : Ear) : List (Nat × List UInt8) := ear.delivered.map fun d ↦ (d.1, d.2.bytes)

/-- The frames all of whose packets arrived and that fit, each with the number of its last
packet. -/
def arrivals (cap : Nat) (count : Nat) : List (List UInt8) → List (RelayPacket × Bool) →
    List (Nat × List UInt8)
  | [], _ => []
  | frame :: frames, carried =>
      (if (∀ packet ∈ carried.take (packetsOf frame).length, packet.2 = true) ∧
          frame.length ≤ cap then
        [(count + (packetsOf frame).length - 1, frame)]
      else []) ++
        arrivals cap (count + (packetsOf frame).length) frames
          (carried.drop (packetsOf frame).length)

theorem run_listen_count (ear : Ear) (carried : List (RelayPacket × Bool)) :
    (run (listen cap) ear carried).count = ear.count + carried.length := by
  induction carried generalizing ear with
  | nil => rfl
  | cons first rest ih =>
      rw [run_cons, ih, List.length_cons]
      show ear.count + 1 + rest.length = _
      omega

/-- Packets that begin like those of a frame, with what became of each. -/
theorem eq_zip_of_prefix {carried : List (RelayPacket × Bool)} {packets : List RelayPacket}
    (h : carried.map Prod.fst <+: packets) : carried = packets.zip (carried.map Prod.snd) := by
  obtain ⟨more, rfl⟩ := h
  induction carried with
  | nil => simp
  | cons first rest ih =>
      rw [List.map_cons, List.map_cons, List.cons_append, List.zip_cons_cons, ← ih]

/-- What the receiver shows of the first packets of a frame. -/
theorem listen_frame (hframe : IsFrame frame) {ear : Ear} {carried : List (RelayPacket × Bool)}
    (hcarried : carried.map Prod.fst <+: packetsOf frame)
    (hunspliced : Along (listen cap) Unspliced ear carried) :
    (run (listen cap) ear carried).shown =
      ear.shown ++
        if carried.length = (packetsOf frame).length ∧ (∀ packet ∈ carried, packet.2 = true) ∧
            frame.length ≤ cap then
          [(ear.count + carried.length - 1, frame)]
        else [] := by
  obtain ⟨view, hbytes, hdecode⟩ := decode_append hframe []
  rw [List.append_nil] at hdecode
  have hmarks : (carried.map Prod.snd).length ≤ (packetsOf frame).length := by
    simpa using hcarried.length_le
  have hzip := eq_zip_of_prefix hcarried
  rw [hzip] at hunspliced
  have hheard := listen_packetsOf hframe hdecode hmarks hunspliced
  rw [← hzip, List.length_map] at hheard
  have hall : false ∉ carried.map Prod.snd ↔ ∀ packet ∈ carried, packet.2 = true := by
    simp
  simp only [hall] at hheard
  rw [shown, hheard, List.map_append]
  congr 1
  split
  · simp [hbytes]
  · rfl

/-- What the receiver makes of one frame after the other and the first packets of one more. -/
theorem listen_frames {frames : List (List UInt8)} (hframes : ∀ frame ∈ frames, IsFrame frame)
    {part : List RelayPacket} {last : List UInt8} (hlast : part ≠ [] → IsFrame last)
    (hpart : part <+: packetsOf last) (hless : part.length < (packetsOf last).length)
    {ear : Ear} {carried : List (RelayPacket × Bool)}
    (hcarried : carried.map Prod.fst = frames.flatMap packetsOf ++ part)
    (hunspliced : Along (listen cap) Unspliced ear carried) :
    (run (listen cap) ear carried).shown = ear.shown ++ arrivals cap ear.count frames carried := by
  induction frames generalizing ear carried with
  | nil =>
      have hmap : carried.map Prod.fst = part := by simpa using hcarried
      have hlength : carried.length = part.length := by simp [← hmap]
      by_cases hnone : part = []
      · have hnil : carried = [] := by simpa [hnone] using hmap
        simp [hnil, arrivals]
      · rw [listen_frame (hlast hnone) (hmap ▸ hpart) hunspliced, if_neg (by omega)]
        rfl
  | cons frame frames ih =>
      have hframe := hframes frame (List.mem_cons_self ..)
      -- the packets of the frame come first
      let count := (packetsOf frame).length
      have hsplit : carried = carried.take count ++ carried.drop count :=
        (List.take_append_drop ..).symm
      have hfirst : (carried.take count).map Prod.fst = packetsOf frame := by
        rw [List.map_take, hcarried, List.flatMap_cons, List.append_assoc, List.take_left]
      have hrest : (carried.drop count).map Prod.fst = frames.flatMap packetsOf ++ part := by
        rw [List.map_drop, hcarried, List.flatMap_cons, List.append_assoc, List.drop_left]
      have hlength : (carried.take count).length = count := by
        rw [← List.length_map Prod.fst, hfirst]
      rw [hsplit, Along.append] at hunspliced
      obtain ⟨hunspliced, hunspliced'⟩ := hunspliced
      have hheard := listen_frame hframe (by rw [hfirst]) hunspliced
      have hcount : (run (listen cap) ear (carried.take count)).count = ear.count + count := by
        rw [run_listen_count, hlength]
      have hframes' : ∀ other ∈ frames, IsFrame other :=
        fun other hother ↦ hframes other (List.mem_cons_of_mem _ hother)
      have hafter := ih hframes' hrest hunspliced'
      rw [← run_append, ← hsplit, hheard, hcount, hlength, List.append_assoc] at hafter
      rw [hafter, arrivals]
      simp only [count, true_and]

/-- Where every packet arrives nothing is spliced. -/
theorem unspliced_of_arrived {ear : Ear} {carried : List (RelayPacket × Bool)}
    (harrived : ∀ packet ∈ carried, packet.2 = true)
    (hready : ear.rx.expected = 0 ∨ ear.opened = true) :
    Along (listen cap) Unspliced ear carried := by
  induction carried generalizing ear with
  | nil => trivial
  | cons first rest ih =>
      obtain ⟨packet, arrives⟩ := first
      have hfirst : arrives = true := harrived (packet, arrives) (List.mem_cons_self ..)
      subst hfirst
      refine ⟨fun _ _ ↦ hready, ih (fun p hp ↦ harrived p (List.mem_cons_of_mem _ hp)) ?_⟩
      cases hkind : packet.kind with
      | start => exact .inr (by simp [listen, hkind])
      | data =>
          rcases hready with hidle | hopened
          · exact .inl (listen_orphan cap hkind hidle true).1
          · exact .inr (by simp [listen, hkind, hopened])

/-- The packets of a frame that all arrive are not spliced, whatever came before. -/
theorem unspliced_packetsOf (ear : Ear) {carried : List (RelayPacket × Bool)}
    (hcarried : carried.map Prod.fst = packetsOf frame)
    (harrived : ∀ packet ∈ carried, packet.2 = true) :
    Along (listen cap) Unspliced ear carried := by
  cases carried with
  | nil => trivial
  | cons first rest =>
      obtain ⟨packet, arrives⟩ := first
      have hfirst : arrives = true := harrived (packet, arrives) (List.mem_cons_self ..)
      have hkind : packet.kind = .start := by
        have hhead : packet = startPacket frame := (List.cons.inj hcarried).1
        rw [hhead]
        rfl
      subst hfirst
      refine ⟨fun _ hdata ↦ ?_, ?_⟩
      · rw [show packet.kind = .start from hkind] at hdata
        cases hdata
      · apply unspliced_of_arrived fun p hp ↦ harrived p (List.mem_cons_of_mem _ hp)
        exact .inr (by simp [listen, hkind])

/-- Packets deliver frames under their own numbers. -/
theorem run_listen_shown (cap : Nat) (ear : Ear) (carried : List (RelayPacket × Bool)) :
    ∃ more, (run (listen cap) ear carried).shown = ear.shown ++ more ∧
      ∀ d ∈ more, ear.count ≤ d.1 ∧ d.1 < ear.count + carried.length := by
  induction carried generalizing ear with
  | nil => exact ⟨[], by simp, nofun⟩
  | cons first rest ih =>
      obtain ⟨more, hmore, hnumbers⟩ := ih (ear.listen cap first)
      have hcount : (ear.listen cap first).count = ear.count + 1 := rfl
      have hfirst : ∃ own, (ear.listen cap first).shown = ear.shown ++ own ∧
          ∀ d ∈ own, d.1 = ear.count := by
        unfold listen shown
        dsimp only
        split
        · rename_i view _ _
          exact ⟨[(ear.count, view.bytes)], by simp, by simp⟩
        · exact ⟨[], by simp, nofun⟩
      obtain ⟨own, hown, hnumber⟩ := hfirst
      refine ⟨own ++ more, ?_, ?_⟩
      · rw [run_cons, hmore, hown, List.append_assoc]
      · intro d hd
        rw [List.length_cons]
        rcases List.mem_append.1 hd with hd | hd
        · have := hnumber d hd
          omega
        · have := hnumbers d hd
          omega

/-- The frames shown under a range of numbers. -/
def shownIn (ear : Ear) (first count : Nat) : List (List UInt8) :=
  (ear.shown.filter fun d ↦ first ≤ d.1 ∧ d.1 < first + count).map Prod.snd

/-- A frame all of whose packets arrive is delivered by them, and nothing else is, whatever was
carried before and after. -/
theorem listen_arrived (hframe : IsFrame frame) (hcap : frame.length ≤ cap)
    (before own after : List (RelayPacket × Bool)) (hown : own.map Prod.fst = packetsOf frame)
    (harrived : ∀ packet ∈ own, packet.2 = true) :
    (run (listen cap) start (before ++ own ++ after)).shownIn before.length own.length =
      [frame] := by
  have hlength : own.length = (packetsOf frame).length := by
    rw [← hown, List.length_map]
  obtain ⟨earlier, hearlier, hbelow⟩ := run_listen_shown cap start before
  let middle := run (listen cap) start before
  have hcount : middle.count = before.length := by
    simp [middle, run_listen_count, start]
  have hunspliced : Along (listen cap) Unspliced middle own :=
    unspliced_packetsOf middle hown harrived
  have hmiddle := listen_frame hframe (by rw [hown]) hunspliced
  rw [if_pos ⟨hlength, harrived, hcap⟩] at hmiddle
  obtain ⟨later, hlater, habove⟩ := run_listen_shown cap (run (listen cap) middle own) after
  rw [run_listen_count, hcount] at habove
  have hall : (run (listen cap) start (before ++ own ++ after)).shown =
      earlier ++ [(before.length + own.length - 1, frame)] ++ later := by
    rw [run_append, run_append, hlater, hmiddle, hearlier, hcount]
    rfl
  have hpos : 0 < own.length := by
    rw [hlength, packetsOf_length]
    exact Nat.succ_pos _
  have hnoearlier : earlier.filter (fun d ↦ before.length ≤ d.1 ∧
    d.1 < before.length + own.length) =
      [] := by
    apply List.filter_eq_nil_iff.2
    intro d hd
    have hstart : start.count = 0 := rfl
    have := hbelow d hd
    simp only [decide_eq_true_eq]
    omega
  have hnolater : later.filter (fun d ↦ before.length ≤ d.1 ∧ d.1 < before.length + own.length) =
      [] := by
    apply List.filter_eq_nil_iff.2
    intro d hd
    have := habove d hd
    simp only [decide_eq_true_eq]
    omega
  have hself : before.length ≤ before.length + own.length - 1 ∧
      before.length + own.length - 1 < before.length + own.length := by omega
  rw [shownIn, hall, List.filter_append, List.filter_append, hnoearlier, hnolater]
  simp [hself]

/-- A frame among the arrivals is one of the frames sent, and all of its packets arrived. -/
theorem mem_arrivals {count : Nat} {frames : List (List UInt8)}
    {carried : List (RelayPacket × Bool)} {d : Nat × List UInt8}
    (h : d ∈ arrivals cap count frames carried) :
    ∃ before after, frames = before ++ d.2 :: after ∧ d.2.length ≤ cap ∧
      (∀ packet ∈ (carried.drop (before.flatMap packetsOf).length).take (packetsOf d.2).length,
        packet.2 = true) ∧
      d.1 + 1 = count + (before.flatMap packetsOf).length + (packetsOf d.2).length := by
  induction frames generalizing count carried with
  | nil => cases h
  | cons frame frames ih =>
      rw [arrivals, List.mem_append] at h
      rcases h with hfirst | hrest
      · split at hfirst
        · rename_i harrived
          cases List.mem_singleton.1 hfirst
          refine ⟨[], frames, rfl, harrived.2, by simpa using harrived.1, ?_⟩
          have := packetsOf_length frame
          simp only [List.flatMap_nil, List.length_nil, Nat.add_zero]
          omega
        · cases hfirst
      · obtain ⟨before, after, hsplit, hcap, harrived, hnumber⟩ := ih hrest
        refine ⟨frame :: before, after, by rw [hsplit]; rfl, hcap, ?_, ?_⟩
        · rw [List.flatMap_cons, List.length_append, ← List.drop_drop]
          exact harrived
        · rw [hnumber, List.flatMap_cons, List.length_append]
          omega

/-- Where every packet arrives, the frames that fit arrive. -/
theorem arrivals_of_arrived {count : Nat} {frames : List (List UInt8)}
    {carried : List (RelayPacket × Bool)} (harrived : ∀ packet ∈ carried, packet.2 = true) :
    (arrivals cap count frames carried).map Prod.snd =
      frames.filter fun frame ↦ frame.length ≤ cap := by
  induction frames generalizing count carried with
  | nil => rfl
  | cons frame frames ih =>
      have htake : ∀ packet ∈ carried.take (packetsOf frame).length, packet.2 = true :=
        fun packet hpacket ↦ harrived packet (List.mem_of_mem_take hpacket)
      rw [arrivals, List.map_append,
        ih fun packet hpacket ↦ harrived packet (List.mem_of_mem_drop hpacket), List.filter_cons]
      by_cases hcap : frame.length ≤ cap
      · rw [if_pos ⟨htake, hcap⟩]
        simp [hcap]
      · rw [if_neg fun hall ↦ hcap hall.2]
        simp [hcap]

end Ear

end DeskhopPlus.Board
