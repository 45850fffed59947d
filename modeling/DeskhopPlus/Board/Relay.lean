import DeskhopPlus.Outq.Stream

/-!
# The inter-board relay and the inbound ring

`dh_relay.c` and `dh_inq.c`: frames toward the peer board wait in an outbound queue and leave in
packets of eight bytes; packets from the peer board are put together again and parked until core 0
tags them for its helper. The ring of `dh_inq` is the list of the frames parked in it, and a stage
with the publish behind it is one step, because the consumer sees nothing before the publish.
-/

namespace DeskhopPlus.Board

open Bytes Wire Outq

/-- `DH_RELAY_PAYLOAD`. -/
def relayPayload : Nat := 8

/-- `DH_RELAY_BURST_MAX`. -/
def relayBurstMax : Nat := 8

/-- `DH_INQ_DEPTH`. -/
def inqDepth : Nat := 4

/-- `DH_INQ_SLOT_MAX`. -/
def inqSlotMax : Nat := stageMax

/-- `dh_relay_pkt_kind`. -/
inductive PacketKind where
  | start
  | data
  deriving DecidableEq, Repr

/-- `dh_relay_packet`, of `relayPayload` bytes. -/
structure RelayPacket where
  kind : PacketKind
  data : List UInt8
  deriving DecidableEq, Repr

/-! ## Toward the peer -/

/-- `dh_relay_tx`. -/
structure RelayTx where
  q : Outq
  burst : Nat

namespace RelayTx

/-- `dh_relay_tx_init`. -/
def init : RelayTx := { q := Outq.init, burst := 0 }

/-- `dh_relay_tx_reset`. -/
def reset (t : RelayTx) : RelayTx := { q := t.q.reset, burst := 0 }

/-- `dh_relay_tx_yield`. -/
def giveWay (t : RelayTx) : RelayTx := { t with burst := 0 }

/-- `dh_relay_tx_offer`. -/
def offer (t : RelayTx) (frame : List UInt8) : OutqResult × RelayTx :=
  let (result, q) := t.q.offer frame
  (result, { t with q := q })

/-- `relay_owed`: the burst cap holds back bulk only. -/
def owed (t : RelayTx) : Option View :=
  match t.q.peek with
  | none => none
  | some view => if view.band = .bulk ∧ relayBurstMax ≤ t.burst then none else some view

/-- `packet_take`. -/
def packetTake (view : View) : Nat :=
  if view.remaining < relayPayload then view.remaining else relayPayload

/-- `dh_relay_tx_peek`. The tail of the last packet is zero. -/
def peek (t : RelayTx) : Option RelayPacket :=
  t.owed.map fun view ↦
    if view.preambleOwed then
      { kind := .start
        data := littleEndian 2 view.total ++ List.replicate (relayPayload - 2) 0 }
    else
      { kind := .data
        data := view.atBytes.take (packetTake view) ++
          List.replicate (relayPayload - packetTake view) 0 }

/-- `dh_relay_tx_commit`. -/
def commit (t : RelayTx) : RelayTx :=
  match t.owed with
  | none => t
  | some view =>
      { q := if view.preambleOwed then t.q.notePreamble view
          else t.q.advance view (packetTake view)
        burst := if view.band = .bulk then t.burst + 1 else t.burst }

end RelayTx

/-! ## From the peer -/

/-- The results of `dh_relay_rx_push` other than `DH_RELAY_OK`. -/
inductive RelayFault where
  | again
  | oversize
  | truncated
  | orphan
  | frame
  deriving DecidableEq, Repr

/-- `dh_relay_rx`. `held` is its buffer up to `have`; the size of the buffer comes with a push. -/
structure RelayRx where
  expected : Nat
  held : List UInt8
  orphans : UInt32
  truncated : UInt32
  deriving DecidableEq, Repr

namespace RelayRx

/-- `dh_relay_rx_init`. -/
def init : RelayRx := { expected := 0, held := [], orphans := 0, truncated := 0 }

/-- `dh_relay_rx_reset`. -/
def reset (r : RelayRx) : RelayRx := { r with expected := 0, held := [] }

/-- The branch of `dh_relay_rx_push` for a packet that announces a frame, with a buffer of `cap`
bytes. -/
def pushStart (cap : Nat) (r : RelayRx) (data : List UInt8) :
    Except RelayFault FrameView × RelayRx :=
  let total := value (data.take 2)
  let interrupted := r.expected ≠ 0
  let r := if interrupted then { r with truncated := r.truncated + 1 } else r
  if total < headerSize ∨ cap < total ∨ maxFrame < total then (.error .oversize, r.reset)
  else
    (.error (if interrupted then .truncated else .again),
     { r with expected := total, held := [] })

/-- The branch of `dh_relay_rx_push` for a packet of frame bytes. -/
def pushData (r : RelayRx) (data : List UInt8) : Except RelayFault FrameView × RelayRx :=
  if r.expected = 0 then (.error .orphan, { r with orphans := r.orphans + 1 })
  else
    let held := r.held ++ data.take (r.expected - r.held.length)
    if held.length < r.expected then (.error .again, { r with held := held })
    else
      match decode held with
      | .error _ => (.error .frame, r.reset)
      | .ok (view, consumed) =>
          if consumed ≠ r.expected then (.error .frame, r.reset) else (.ok view, r.reset)

/-- `dh_relay_rx_push` with a buffer of `cap` bytes. -/
def pushWithin (cap : Nat) (r : RelayRx) (packet : RelayPacket) :
    Except RelayFault FrameView × RelayRx :=
  match packet.kind with
  | .start => r.pushStart cap packet.data
  | .data => r.pushData packet.data

/-- `dh_relay_rx_push` with the buffer the channel gives it, which has room for any frame. -/
def push (r : RelayRx) (packet : RelayPacket) : Except RelayFault FrameView × RelayRx :=
  r.pushWithin maxFrame packet

end RelayRx

/-- `dh_inq`: the frames parked, oldest first. -/
structure Inq where
  parked : List (List UInt8)
  dropped : Nat
  deriving DecidableEq, Repr

namespace Inq

/-- `dh_inq_init`. -/
def init : Inq := { parked := [], dropped := 0 }

/-- `dh_inq_reset`. -/
def reset (q : Inq) : Inq := { q with parked := [] }

/-- `dh_inq_stage` with the `dh_inq_publish` behind it. -/
def stage (q : Inq) (frame : List UInt8) : Inq :=
  if frame.length = 0 ∨ inqSlotMax < frame.length ∨ inqDepth ≤ q.parked.length then
    { q with dropped := saturate q.dropped }
  else { q with parked := q.parked ++ [frame] }

/-- `dh_inq_peek`. -/
def peek (q : Inq) : Option (List UInt8) := q.parked.head?

/-- `dh_inq_release`. -/
def release (q : Inq) : Inq := { q with parked := q.parked.tail }

end Inq

end DeskhopPlus.Board
