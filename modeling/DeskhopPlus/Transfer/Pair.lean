import DeskhopPlus.Library.Runs
import DeskhopPlus.Transfer.Machine
import Mathlib.Logic.Function.Basic

/-!
# Two machines and a network

Two transfer machines, each sending to the other. Whatever a machine asks to be sent is built from
it at once, and stays in the network for good: a delivery names a message by its place, so a
message may be lost, delivered twice or overtaken. Beside each machine stands what its caller
handed it, the offers and the payloads, and what it delivered.
-/

namespace DeskhopPlus.Transfer

open Wire Runs

/-- The messages of a transfer. -/
inductive Message where
  | offer (offer : ClipOffer)
  | request (id : UInt32)
  | chunk (chunk : ClipChunk)
  | credit (id : UInt32) (credits : Nat)
  | retransmit (id : UInt32) (seq : Nat)
  | done (id : UInt32)
  | received (id : UInt32)
  | cancel (id : UInt32)
  deriving DecidableEq

/-- The message a caller builds for an action, from the machine as the call left it. -/
def messageOf (x : Xfer) : Action → Option Message
  | .sendOffer _ | .sendOfferRetry _ => x.offerInfo.map .offer
  | .sendChunk _ seq => (x.chunkAt seq).map .chunk
  | .sendDone id | .sendDoneRetry id => some (.done id)
  | .sendRequest id => some (.request id)
  | .sendRetransmit id seq => some (.retransmit id seq)
  | .sendCredit id credits => some (.credit id credits)
  | .sendCancel id => some (.cancel id)
  | .sendReceived id => some (.received id)
  | .needData _ | .delivered _ | .failed _ _ | .protocolError _ => none

/-- What a caller reads at `DH_XFER_ACT_DELIVERED`: the payload in the receive buffer, what
`dh_xfer_delivered_len`, `_kind` and `_meta` return, and the set of chunks behind it. -/
structure Delivery where
  id : UInt32
  kind : UInt8
  total : UInt64
  metadata : List UInt8
  payload : List UInt8
  nchunks : Nat
  received : Finset Nat
  deriving DecidableEq

/-- The delivery an action announces. -/
def deliveryOf (x : Xfer) : Action → Option Delivery
  | .delivered id =>
      some { id, kind := x.rx.kind, total := x.rx.total, metadata := x.rx.metadata,
             payload := x.rxBuf.take x.rx.total.toNat, nchunks := x.rx.nchunks,
             received := x.rx.received }
  | _ => none

/-- What a caller has handed its machine: the offers under the ids they were given, and the
payloads, with the offer or later. -/
structure Ledger where
  offers : List ClipOffer
  payloads : List (UInt32 × List UInt8)

/-- A machine with its ledger, what it sent and what it delivered. -/
structure Endpoint where
  machine : Xfer
  ledger : Ledger
  sent : List Message
  deliveries : List Delivery

/-- The calls of a caller, messages apart. -/
inductive Call where
  | offer (kind : UInt8) (metadata : List UInt8) (metadata_length : metadata.length < 2 ^ 16)
      (data : Option (List UInt8)) (total : UInt64)
  | retryOffer
  | provide (data : List UInt8)
  | provideFail
  | pump
  | retryDone
  | cancelTx
  | expireTx
  | requestLazy (id : UInt32)
  | setRxBuffer (rxBuf : List UInt8)
  | sweepRx
  | cancelRx
  | linkDown
  | rxSealReplaced

/-- The payload of an offer holds what the offer promises, and so does the one provided later. -/
def Call.Meets (x : Xfer) : Call → Prop
  | .offer _ _ _ data total => ∀ payload ∈ data, payload.length = total.toNat
  | .provide data => data.length = x.tx.total.toNat
  | _ => True

instance (x : Xfer) (call : Call) : Decidable (call.Meets x) :=
  match call with
  | .offer _ _ _ data total =>
      inferInstanceAs (Decidable (∀ payload ∈ data, payload.length = total.toNat))
  | .provide data => inferInstanceAs (Decidable (data.length = x.tx.total.toNat))
  | .retryOffer | .provideFail | .pump | .retryDone | .cancelTx | .expireTx | .requestLazy _
  | .setRxBuffer _ | .sweepRx | .cancelRx | .linkDown | .rxSealReplaced => .isTrue trivial

/-- A call on a machine. -/
def Xfer.perform (x : Xfer) (cap : Nat) : Call → Xfer × List Action
  | .offer kind metadata metadata_length data total =>
      x.offer cap kind metadata metadata_length data total
  | .retryOffer => x.retryOffer cap
  | .provide data => (x.provide data, [])
  | .provideFail => x.provideFail cap
  | .pump => x.pump cap
  | .retryDone => (x, x.retryDone cap)
  | .cancelTx => x.cancelTx cap
  | .expireTx => (x.expireTx, [])
  | .requestLazy id => x.requestLazy cap id
  | .setRxBuffer rxBuf => (x.setRxBuffer rxBuf, [])
  | .sweepRx => x.sweepRx cap
  | .cancelRx => x.cancelRx cap
  | .linkDown => x.linkDown cap
  | .rxSealReplaced => x.rxSealReplaced cap

/-- A message in. An offer is handled lazily or not, as the caller likes. -/
def Xfer.handle (x : Xfer) (cap : Nat) (lazy : Bool) : Message → Xfer × List Action
  | .offer offer => x.handleOffer cap offer lazy
  | .request id => x.handleRequest cap id
  | .chunk chunk => x.handleChunk cap chunk
  | .credit id credits => (x.handleCredit id credits, [])
  | .retransmit id seq => (x.handleRetransmit id seq, [])
  | .done id => x.handleDone cap id
  | .received id => (x.handleReceived id, [])
  | .cancel id => x.handleCancel cap id

/-- What a call adds to the ledger. A payload provided when none is awaited is not taken. -/
def Ledger.record (ledger : Ledger) (x : Xfer) : Call → Ledger
  | .offer kind metadata metadata_length data total =>
      { offers := ledger.offers ++ [{ id := x.nextId, kind, total, metadata, metadata_length }],
        payloads := ledger.payloads ++ (data.map fun payload ↦ (x.nextId, payload)).toList }
  | .provide data =>
      if x.tx.active = false ∨ x.tx.lazyPending = false then ledger
      else { ledger with payloads := ledger.payloads ++ [(x.tx.id, data)] }
  | _ => ledger

/-- The endpoint after a call: its actions become messages and deliveries. -/
def Endpoint.after (e : Endpoint) (ledger : Ledger) (result : Xfer × List Action) : Endpoint where
  machine := result.1
  ledger := ledger
  sent := e.sent ++ result.2.filterMap (messageOf result.1)
  deliveries := e.deliveries ++ result.2.filterMap (deliveryOf result.1)

/-- One of the two ends. -/
inductive Side where
  | a
  | b
  deriving DecidableEq, Repr

/-- The other end. -/
def Side.other : Side → Side
  | .a => .b
  | .b => .a

/-- What can happen at one end: a call of its caller, or a message the other end has sent. -/
inductive TransferEvent where
  | call (side : Side) (call : Call) (cap : Nat)
  | deliver (side : Side) (index : Nat) (lazy : Bool) (cap : Nat)

/-- One event. A call that does not meet its contract is not made. -/
def transferStep (s : Side → Endpoint) : TransferEvent → Side → Endpoint
  | .call side call cap =>
      let e := s side
      if call.Meets e.machine then
        Function.update s side
          (e.after (e.ledger.record e.machine call) (e.machine.perform cap call))
      else s
  | .deliver side index lazy cap =>
      match (s side.other).sent[index]? with
      | none => s
      | some message =>
          let e := s side
          Function.update s side (e.after e.ledger (e.machine.handle cap lazy message))

/-- An end that has just started, with its receive buffer. -/
def Endpoint.init (rxBuf : List UInt8) : Endpoint where
  machine := Xfer.init rxBuf
  ledger := { offers := [], payloads := [] }
  sent := []
  deliveries := []

/-! ## Conditions on a step -/

/-- No id is offered twice. -/
def FreshOffer (s : Side → Endpoint) : TransferEvent → Prop
  | .call side (.offer ..) _ =>
      ∀ offer ∈ (s side).ledger.offers, offer.id ≠ (s side).machine.nextId
  | _ => True

instance (s : Side → Endpoint) (event : TransferEvent) : Decidable (FreshOffer s event) :=
  match event with
  | .call side (.offer ..) _ => inferInstanceAs
      (Decidable (∀ offer ∈ (s side).ledger.offers, offer.id ≠ (s side).machine.nextId))
  | .call _ .retryOffer _ | .call _ (.provide _) _ | .call _ .provideFail _ | .call _ .pump _
  | .call _ .retryDone _ | .call _ .cancelTx _ | .call _ .expireTx _ | .call _ (.requestLazy _) _
  | .call _ (.setRxBuffer _) _ | .call _ .sweepRx _ | .call _ .cancelRx _ | .call _ .linkDown _
  | .call _ .rxSealReplaced _ | .deliver .. => .isTrue trivial

/-- A receive buffer whose chunks a 32-bit count can number. The helpers never allocate more than
the 64 MiB of `DH_CLIP_CAP_MB_MAX`. -/
def BufferFits (rxBuf : List UInt8) : Prop := rxBuf.length + chunkSize ≤ 2 ^ 42

/-- Every buffer handed over fits. -/
def BuffersFit (_ : Side → Endpoint) : TransferEvent → Prop
  | .call _ (.setRxBuffer rxBuf) _ => BufferFits rxBuf
  | _ => True

instance (rxBuf : List UInt8) : Decidable (BufferFits rxBuf) :=
  inferInstanceAs (Decidable (_ ≤ _))

instance (s : Side → Endpoint) (event : TransferEvent) : Decidable (BuffersFit s event) :=
  match event with
  | .call _ (.setRxBuffer rxBuf) _ => inferInstanceAs (Decidable (BufferFits rxBuf))
  | .call _ (.offer ..) _ | .call _ .retryOffer _ | .call _ (.provide _) _ | .call _ .provideFail _
  | .call _ .pump _ | .call _ .retryDone _ | .call _ .cancelTx _ | .call _ .expireTx _
  | .call _ (.requestLazy _) _ | .call _ .sweepRx _ | .call _ .cancelRx _ | .call _ .linkDown _
  | .call _ .rxSealReplaced _ | .deliver .. => .isTrue trivial

end DeskhopPlus.Transfer
