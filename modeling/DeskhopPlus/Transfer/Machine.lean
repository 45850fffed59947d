import DeskhopPlus.Library.Blocks
import DeskhopPlus.Wire.Clip
import Mathlib.Data.Finset.Basic

/-!
# The transfer machine

`dh_xfer.c`: one machine that sends one payload and receives another, messages in and actions out.
Every call takes the room its caller has for actions and returns the machine afterwards with the
actions it wrote. Bit sets are finite sets of sequence numbers, the ring of retransmit requests is
a queue, and the receive buffer is its bytes, its length being the capacity.
-/

namespace DeskhopPlus.Transfer

open Bytes Wire

/-- `DH_XFER_CHUNK_SIZE`. -/
def chunkSize : Nat := 1024

/-- `DH_XFER_CREDIT_WINDOW`. -/
def creditWindow : Nat := 3

/-- `DH_XFER_BATCH_MAX`. -/
def batchMax : Nat := 16

/-- `DH_XFER_RETX_MAX`. -/
def retxMax : Nat := 64

/-- `DH_XFER_MAX_CHUNKS`. -/
def maxChunks : Nat := 65536

/-- `DH_XFER_META_MAX`. -/
def metaMax : Nat := 1024

/-- `DH_XFER_IDENTITY_META_MAX`. -/
def identityMetaMax : Nat := offerMetaWireMax

/-- `crc32_nibble`. -/
def crc32Nibble : List UInt32 :=
  [0x00000000, 0x1db71064, 0x3b6e20c8, 0x26d930ac, 0x76dc4190, 0x6b6b51f4,
   0x4db26158, 0x5005713c, 0xedb88320, 0xf00f9344, 0xd6d6a3e8, 0xcb61b38c,
   0x9b64c2b0, 0x86d3d2d4, 0xa00ae278, 0xbdbdf21c]

/-- One half of the loop body of `dh_crc32`. -/
def crc32Half (crc : UInt32) : UInt32 :=
  (crc >>> 4) ^^^ crc32Nibble.getD (crc &&& 0x0f).toNat 0

/-- `dh_crc32`. -/
def crc32 (data : List UInt8) : UInt32 :=
  data.foldl (fun crc byte ↦ crc32Half (crc32Half (crc ^^^ byte.toUInt32))) 0xffffffff ^^^
    0xffffffff

/-- `chunk_count`: the sum is a `uint64_t`, the result a `uint32_t`. -/
def chunkCount (total : UInt64) : Nat :=
  (total.toNat + chunkSize - 1) % 2 ^ 64 / chunkSize % 2 ^ 32

/-- `chunk_len`, in the arithmetic of `uint64_t` cut to a `uint16_t`. -/
def chunkLen (total : UInt64) (nchunks seq : Nat) : Nat :=
  if (seq + 1) % 2 ^ 32 = nchunks then
    (total.toNat + 2 ^ 64 - seq * chunkSize % 2 ^ 64) % 2 ^ 64 % 2 ^ 16
  else chunkSize

theorem chunkLen_lt (total : UInt64) (nchunks seq : Nat) : chunkLen total nchunks seq < 2 ^ 16 := by
  unfold chunkLen chunkSize
  split <;> omega

/-- `dh_xfer_fail_reason`. -/
inductive FailReason where
  | cancelled
  | linkDrop
  | noData
  | sealReplaced
  deriving DecidableEq, Repr

/-- `dh_xfer_action`, one constructor for each `dh_xfer_action_type` with the fields it sets. -/
inductive Action where
  | sendOffer (id : UInt32)
  | needData (id : UInt32)
  | sendChunk (id : UInt32) (seq : Nat)
  | sendDone (id : UInt32)
  | sendRequest (id : UInt32)
  | sendRetransmit (id : UInt32) (seq : Nat)
  | sendCredit (id : UInt32) (credits : Nat)
  | sendCancel (id : UInt32)
  | delivered (id : UInt32)
  | failed (id : UInt32) (reason : FailReason)
  | sendOfferRetry (id : UInt32)
  | protocolError (id : UInt32)
  | sendDoneRetry (id : UInt32)
  | sendReceived (id : UInt32)
  deriving DecidableEq, Repr

/-- The outgoing transfer, `tx` of `dh_xfer`. -/
structure Outgoing where
  active : Bool
  streaming : Bool
  lazyPending : Bool
  needDone : Bool
  id : UInt32
  kind : UInt8
  metadata : List UInt8
  data : Option (List UInt8)
  total : UInt64
  nchunks : Nat
  nextSeq : Nat
  credits : Nat
  retx : List Nat
  openingCreditAccepted : Bool
  recoveryCreditDue : Bool
  retxAsked : Nat
  retxSent : Nat
  offerRetries : Nat
  metadata_length : metadata.length < 2 ^ 16

/-- The incoming transfer, `rx` of `dh_xfer`. `metaLen` is the length the offer named, `metadata`
what was copied of it. -/
structure Incoming where
  active : Bool
  lazy : Bool
  seenOffer : Bool
  completed : Bool
  id : UInt32
  kind : UInt8
  total : UInt64
  nchunks : Nat
  nreceived : Nat
  maxSeqSeen : Nat
  anySeen : Bool
  ungranted : Nat
  retxAsked : Nat
  retxAnswered : Nat
  duplicateOffers : Nat
  metaLen : Nat
  metadata : List UInt8
  received : Finset Nat
  requested : Finset Nat
  requestedStale : Finset Nat

/-- `dh_xfer`. -/
structure Xfer where
  tx : Outgoing
  rx : Incoming
  rxBuf : List UInt8
  nextId : UInt32

/-- A transfer without a name has metadata that fits. -/
theorem noMetadata_fits : ([] : List UInt8).length < 2 ^ 16 := by decide

/-- The zeroed outgoing transfer, `tx_reset`. -/
def Outgoing.reset : Outgoing where
  active := false
  streaming := false
  lazyPending := false
  needDone := false
  id := 0
  kind := 0
  metadata := []
  data := none
  total := 0
  nchunks := 0
  nextSeq := 0
  credits := 0
  retx := []
  openingCreditAccepted := false
  recoveryCreditDue := false
  retxAsked := 0
  retxSent := 0
  offerRetries := 0
  metadata_length := noMetadata_fits

/-- The zeroed incoming transfer, `rx_forget`. -/
def Incoming.forget : Incoming where
  active := false
  lazy := false
  seenOffer := false
  completed := false
  id := 0
  kind := 0
  total := 0
  nchunks := 0
  nreceived := 0
  maxSeqSeen := 0
  anySeen := false
  ungranted := 0
  retxAsked := 0
  retxAnswered := 0
  duplicateOffers := 0
  metaLen := 0
  metadata := []
  received := ∅
  requested := ∅
  requestedStale := ∅

/-- `dh_xfer_init`. -/
def Xfer.init (rxBuf : List UInt8) : Xfer where
  tx := Outgoing.reset
  rx := Incoming.forget
  rxBuf := rxBuf
  nextId := 1

/-- `emit`, followed by the caller filling the action in. No room, no action. -/
def emit (cap : Nat) (acts : List Action) (action : Action) : List Action :=
  if acts.length < cap then acts ++ [action] else acts

/-- `serial_newer`. -/
def serialNewer (candidate current : UInt32) : Bool :=
  candidate ≠ current && candidate - current < 0x80000000

namespace Xfer

variable (x : Xfer) (cap : Nat)

/-- `dh_xfer_set_rx_buffer`. The empty buffer stands for a null pointer or no capacity. -/
def setRxBuffer (rxBuf : List UInt8) : Xfer :=
  if rxBuf.length = 0 then x
  else if x.rx.active then x
  else { x with rxBuf := rxBuf }

/-! ## Sender -/

/-- `dh_xfer_offer`. -/
def offer (kind : UInt8) (metadata : List UInt8) (metadata_length : metadata.length < 2 ^ 16)
    (data : Option (List UInt8)) (total : UInt64) : Xfer × List Action :=
  let next := x.nextId + 1
  let tx : Outgoing :=
    { Outgoing.reset with
      active := true, id := x.nextId, kind, metadata, metadata_length, data, total,
      nchunks := chunkCount total }
  ({ x with tx := tx, nextId := if next = 0 then 1 else next }, emit cap [] (.sendOffer x.nextId))

/-- `dh_xfer_retry_offer`. -/
def retryOffer : Xfer × List Action :=
  if x.tx.active = false ∨ x.tx.streaming ∨ x.tx.lazyPending then (x, [])
  else if cap = 0 then (x, [])
  else
    ({ x with tx := { x.tx with offerRetries := x.tx.offerRetries + 1 } },
      [.sendOfferRetry x.tx.id])

/-- `tx_start_streaming`. -/
def txStartStreaming : Xfer :=
  let credits := min x.tx.credits creditWindow
  { x with tx := { x.tx with
      streaming := true, needDone := true, credits := credits,
      openingCreditAccepted := 0 < credits } }

/-- `dh_xfer_provide`. -/
def provide (data : List UInt8) : Xfer :=
  if x.tx.active = false ∨ x.tx.lazyPending = false then x
  else
    { x with tx := { x.tx with data := some data, lazyPending := false } }.txStartStreaming

/-- `dh_xfer_provide_fail`. -/
def provideFail : Xfer × List Action :=
  if x.tx.active = false ∨ x.tx.lazyPending = false then (x, [])
  else ({ x with tx := Outgoing.reset }, emit cap [] (.sendCancel x.tx.id))

/-- `tx_queue_retransmit`. -/
def txQueueRetransmit (retx : List Nat) (seq : Nat) : List Nat :=
  if retx.contains seq then retx
  else if retxMax ≤ retx.length then retx
  else retx ++ [seq]

/-- The loop of `dh_xfer_pump`, with the chunks of this batch still allowed. -/
def pumpLoop : Nat → Outgoing → List Action → Outgoing × List Action
  | 0, tx, acts => (tx, acts)
  | room + 1, tx, acts =>
      if 0 < tx.credits ∧ acts.length + 1 < cap then
        match tx.retx with
        | seq :: rest =>
            pumpLoop room
              { tx with retx := rest, retxSent := tx.retxSent + 1, credits := tx.credits - 1 }
              (acts ++ [.sendChunk tx.id seq])
        | [] =>
            if tx.nextSeq < tx.nchunks then
              pumpLoop room { tx with nextSeq := tx.nextSeq + 1, credits := tx.credits - 1 }
                (acts ++ [.sendChunk tx.id tx.nextSeq])
            else (tx, acts)
      else (tx, acts)

/-- `dh_xfer_pump`. -/
def pump : Xfer × List Action :=
  if x.tx.active = false ∨ x.tx.streaming = false ∨ x.tx.lazyPending then (x, [])
  else
    let (tx, acts) := pumpLoop cap batchMax x.tx []
    if tx.needDone ∧ tx.retx = [] ∧ tx.nchunks ≤ tx.nextSeq ∧ acts.length < cap then
      ({ x with tx := { tx with needDone := false } }, acts ++ [.sendDone tx.id])
    else ({ x with tx := tx }, acts)

/-- `dh_xfer_tx_awaiting_receipt`. -/
def txAwaitingReceipt : Bool :=
  x.tx.active && x.tx.streaming && decide (x.tx.nchunks ≤ x.tx.nextSeq)

/-- `dh_xfer_retry_done`. -/
def retryDone : List Action :=
  if x.txAwaitingReceipt then emit cap [] (.sendDoneRetry x.tx.id) else []

/-- `dh_xfer_cancel_tx`. -/
def cancelTx : Xfer × List Action :=
  if x.tx.active then
    ({ x with tx := Outgoing.reset }, emit cap [] (.sendCancel x.tx.id))
  else (x, [])

/-- `dh_xfer_expire_tx`. -/
def expireTx : Xfer := if x.txAwaitingReceipt then { x with tx := Outgoing.reset } else x

/-- `dh_xfer_handle_request`. -/
def handleRequest (id : UInt32) : Xfer × List Action :=
  if x.tx.active = false ∨ x.tx.id ≠ id ∨ x.tx.streaming ∨ x.tx.lazyPending then (x, [])
  else if x.tx.data.isNone ∧ 0 < x.tx.total then
    ({ x with tx := { x.tx with lazyPending := true } }, emit cap [] (.needData x.tx.id))
  else (x.txStartStreaming, [])

/-- `dh_xfer_handle_retransmit`. -/
def handleRetransmit (id : UInt32) (seq : Nat) : Xfer :=
  if x.tx.active = false ∨ x.tx.id ≠ id ∨ x.tx.nchunks ≤ seq then x
  else
    let tx := { x.tx with recoveryCreditDue := true, needDone := true }
    let tx :=
      if seq < tx.nextSeq then
        { tx with retx := txQueueRetransmit tx.retx seq, retxAsked := tx.retxAsked + 1 }
      else tx
    { x with tx := tx }

/-- `dh_xfer_handle_credit`. -/
def handleCredit (id : UInt32) (credits : Nat) : Xfer :=
  if x.tx.active = false ∨ x.tx.id ≠ id then x
  else
    let openingGrant :=
      x.tx.streaming && decide (credits = creditWindow) && !x.tx.recoveryCreditDue
    let tx :=
      if openingGrant && !x.tx.openingCreditAccepted then
        let room := creditWindow - x.tx.credits
        { x.tx with
          credits := x.tx.credits + min credits room, openingCreditAccepted := true }
      else if openingGrant = false then
        { x.tx with credits := (x.tx.credits + credits) % 2 ^ 32 }
      else x.tx
    { x with tx := { tx with recoveryCreditDue := false } }

/-- `dh_xfer_offer_info`. -/
def offerInfo : Option ClipOffer :=
  if x.tx.active then
    some { id := x.tx.id, kind := x.tx.kind, total := x.tx.total, metadata := x.tx.metadata,
           metadata_length := x.tx.metadata_length }
  else none

/-- `dh_xfer_chunk_at`. -/
def chunkAt (seq : Nat) : Option ClipChunk :=
  match x.tx.data with
  | none => none
  | some data =>
      if x.tx.active = false ∨ x.tx.nchunks ≤ seq then none
      else
        let slice := (data.drop (seq * chunkSize)).take (chunkLen x.tx.total x.tx.nchunks seq)
        some
          { id := x.tx.id, seq := UInt32.ofNat seq, crc32 := crc32 slice, data := slice
            data_length :=
              Nat.lt_of_le_of_lt (List.length_take_le _ _)
                (chunkLen_lt x.tx.total x.tx.nchunks seq) }

/-! ## Receiver -/

/-- The request and the window that covers it, as three places emit them. -/
def requestWindow (id : UInt32) : List Action :=
  emit cap (emit cap [] (.sendRequest id)) (.sendCredit id creditWindow)

/-- The incoming transfer right after a newer offer: everything forgotten but its identity. -/
def acceptIdentity (offer : ClipOffer) : Incoming :=
  { Incoming.forget with
    seenOffer := true, id := offer.id, kind := offer.kind, total := offer.total,
    nchunks := chunkCount offer.total, metaLen := offer.metadata.length,
    metadata := if offer.metadata.length ≤ identityMetaMax then offer.metadata else [] }

/-- `handle_offer`, behind `dh_xfer_handle_offer` and `dh_xfer_handle_offer_lazy`. -/
def handleOffer (offer : ClipOffer) (lazy : Bool) : Xfer × List Action :=
  if offer.id = 0 then (x, emit cap [] (.protocolError 0))
  else if x.rx.seenOffer ∧ offer.id = x.rx.id then
    if offer.metadata.length ≤ identityMetaMax ∧ offer.kind = x.rx.kind ∧
        offer.total = x.rx.total ∧ offer.metadata.length = x.rx.metaLen ∧
        offer.metadata = x.rx.metadata then
      let rx := { x.rx with duplicateOffers := x.rx.duplicateOffers + 1 }
      if rx.active = false ∨ rx.anySeen ∨ rx.lazy then ({ x with rx := rx }, [])
      else ({ x with rx := rx }, requestWindow cap offer.id)
    else (x, emit cap [] (.protocolError offer.id))
  else if x.rx.seenOffer ∧ serialNewer offer.id x.rx.id = false then (x, [])
  else
    let rx := acceptIdentity offer
    if x.rxBuf.length < offer.total.toNat ∨ maxChunks < rx.nchunks ∨
        metaMax < offer.metadata.length then
      ({ x with rx := rx }, emit cap [] (.sendCancel offer.id))
    else if lazy then ({ x with rx := { rx with active := true, lazy := true } }, [])
    else ({ x with rx := { rx with active := true } }, requestWindow cap offer.id)

/-- `dh_xfer_request_lazy`. -/
def requestLazy (id : UInt32) : Xfer × List Action :=
  if x.rx.active = false ∨ x.rx.lazy = false ∨ x.rx.id ≠ id then (x, [])
  else ({ x with rx := { x.rx with lazy := false } }, requestWindow cap id)

/-- What a sweep works on: the incoming transfer, the actions so far and the credits they owe. -/
structure Sweep where
  rx : Incoming
  acts : List Action
  credits : Nat

/-- `rx_request_chunk`. -/
def rxRequestChunk (s : Sweep) (seq : Nat) (stale : Bool) : Sweep :=
  if seq ∈ s.rx.requested then s
  else if cap ≤ s.acts.length + 1 then s
  else
    let marks :=
      if stale then insert seq s.rx.requestedStale else s.rx.requestedStale.erase seq
    let rx :=
      { s.rx with
        requested := insert seq s.rx.requested, retxAsked := s.rx.retxAsked + 1,
        requestedStale := marks }
    { rx := rx, acts := s.acts ++ [.sendRetransmit s.rx.id seq],
      credits := (s.credits + 1) % 2 ^ 16 }

/-- `rx_grant`. -/
def rxGrant (id : UInt32) (acts : List Action) (credits : Nat) : List Action :=
  if credits = 0 then acts else emit cap acts (.sendCredit id credits)

/-- `rx_complete`: `none` when the action would not fit. -/
def rxComplete (rx : Incoming) (acts : List Action) : Option (Incoming × List Action) :=
  if acts.length < cap then
    some ({ rx with active := false, completed := true },
      emit cap (acts ++ [.delivered rx.id]) (.sendReceived rx.id))
  else none

/-- The receive buffer and the incoming transfer once a good chunk is stored. -/
def storeChunk (chunk : ClipChunk) : Xfer :=
  let seq := chunk.seq.toNat
  let frontier := x.rx.anySeen = false ∨ x.rx.maxSeqSeen < seq
  let rx :=
    { x.rx with
      maxSeqSeen := if frontier then seq else x.rx.maxSeqSeen,
      anySeen := true,
      received := insert seq x.rx.received,
      retxAnswered := if seq ∈ x.rx.requested then x.rx.retxAnswered + 1 else x.rx.retxAnswered,
      requested := x.rx.requested.erase seq,
      nreceived := x.rx.nreceived + 1 }
  { x with rx := rx, rxBuf := overwrite x.rxBuf (seq * chunkSize) chunk.data }

/-- `dh_xfer_handle_chunk`. -/
def handleChunk (chunk : ClipChunk) : Xfer × List Action :=
  let seq := chunk.seq.toNat
  if x.rx.active = false ∨ x.rx.lazy ∨ x.rx.id ≠ chunk.id ∨ x.rx.nchunks ≤ seq then (x, [])
  else if seq ∈ x.rx.received then (x, rxGrant cap x.rx.id [] 1)
  else if chunk.data.length ≠ chunkLen x.rx.total x.rx.nchunks seq ∨
      crc32 chunk.data ≠ chunk.crc32 then
    let cleared := { x.rx with requested := x.rx.requested.erase seq }
    let s := rxRequestChunk cap { rx := cleared, acts := [], credits := 0 } seq false
    ({ x with rx := s.rx }, rxGrant cap x.rx.id s.acts s.credits)
  else
    let x := x.storeChunk chunk
    let finished := if x.rx.nchunks ≤ x.rx.nreceived then rxComplete cap x.rx [] else none
    match finished with
    | some (rx, acts) => ({ x with rx := rx }, acts)
    | none =>
        let ungranted := x.rx.ungranted + 1
        if creditWindow / 2 ≤ ungranted then
          ({ x with rx := { x.rx with ungranted := 0 } },
            rxGrant cap x.rx.id [] (ungranted % 2 ^ 16))
        else ({ x with rx := { x.rx with ungranted := ungranted } }, [])

/-- The body of the loop of `rx_sweep_range`. -/
def rxSweepOne (aged : Bool) (s : Sweep) (m : Nat) : Sweep :=
  if m ∈ s.rx.received then s
  else if aged ∧ m ∈ s.rx.requested ∧ m ∉ s.rx.requestedStale then
    { s with rx := { s.rx with requestedStale := insert m s.rx.requestedStale } }
  else
    rxRequestChunk cap { s with rx := { s.rx with requested := s.rx.requested.erase m } } m aged

/-- `rx_sweep_range`. -/
def rxSweepRange (limit : Nat) (aged : Bool) (s : Sweep) : Sweep :=
  (List.range limit).foldl (rxSweepOne cap aged) s

/-- The second loop of `dh_xfer_sweep_rx`: the sequence numbers left to look at, and how many were
named. -/
def rxSweepWindow : List Nat → Nat → Sweep → Sweep
  | [], _, s => s
  | m :: rest, named, s =>
      if named < creditWindow then
        if m ∈ s.rx.received then rxSweepWindow rest named s
        else
          rxSweepWindow rest (named + 1)
            (rxRequestChunk cap { s with rx := { s.rx with requested := s.rx.requested.erase m } }
              m false)
      else s

/-- `dh_xfer_sweep_rx`. -/
def sweepRx : Xfer × List Action :=
  if x.rx.active = false ∨ x.rx.lazy then (x, [])
  else
    let s : Sweep := { rx := x.rx, acts := [], credits := 0 }
    let s :=
      if x.rx.anySeen then rxSweepRange cap x.rx.maxSeqSeen false s
      else { s with acts := emit cap s.acts (.sendRequest x.rx.id) }
    let first := if s.rx.anySeen then s.rx.maxSeqSeen else 0
    let s := rxSweepWindow cap ((List.range s.rx.nchunks).drop first) 0 s
    ({ x with rx := s.rx }, rxGrant cap s.rx.id s.acts s.credits)

/-- `dh_xfer_handle_done`. -/
def handleDone (id : UInt32) : Xfer × List Action :=
  if x.rx.completed ∧ x.rx.id = id then (x, emit cap [] (.sendReceived id))
  else if x.rx.active = false ∨ x.rx.lazy ∨ x.rx.id ≠ id then (x, [])
  else if x.rx.nreceived < x.rx.nchunks then
    let s := rxSweepRange cap x.rx.nchunks true { rx := x.rx, acts := [], credits := 0 }
    ({ x with rx := s.rx }, rxGrant cap s.rx.id s.acts s.credits)
  else
    match rxComplete cap x.rx [] with
    | some (rx, acts) => ({ x with rx := rx }, acts)
    | none => (x, [])

/-! ## Both directions -/

/-- `dh_xfer_handle_received`. -/
def handleReceived (id : UInt32) : Xfer :=
  if x.tx.active ∧ x.tx.id = id ∧ x.tx.streaming ∧ x.tx.nchunks ≤ x.tx.nextSeq then
    { x with tx := Outgoing.reset }
  else x

/-- `dh_xfer_cancel_rx`. -/
def cancelRx : Xfer × List Action :=
  if x.rx.active then
    ({ x with rx := { x.rx with active := false } }, emit cap [] (.sendCancel x.rx.id))
  else (x, [])

/-- `dh_xfer_handle_cancel`. -/
def handleCancel (id : UInt32) : Xfer × List Action :=
  let (x, acts) : Xfer × List Action :=
    if x.rx.active ∧ x.rx.id = id then
      ({ x with rx := { x.rx with active := false } }, emit cap [] (.failed id .cancelled))
    else (x, [])
  if x.tx.active ∧ x.tx.id = id then
    ({ x with tx := Outgoing.reset }, emit cap acts (.failed id .cancelled))
  else (x, acts)

/-- `rx_abandon`. -/
def rxAbandon (reason : FailReason) : Xfer × List Action :=
  ({ x with rx := Incoming.forget },
    if x.rx.active then emit cap [] (.failed x.rx.id reason) else [])

/-- `dh_xfer_link_down`. -/
def linkDown : Xfer × List Action :=
  let (x, acts) := x.rxAbandon cap .linkDrop
  if x.tx.active then
    ({ x with tx := Outgoing.reset }, emit cap acts (.failed x.tx.id .linkDrop))
  else (x, acts)

/-- `dh_xfer_rx_seal_replaced`. -/
def rxSealReplaced : Xfer × List Action := x.rxAbandon cap .sealReplaced

end Xfer

end DeskhopPlus.Transfer
