import DeskhopPlus.Transfer.Directions
import Mathlib.Data.Finset.Card

/-!
# Two machines joined by lines

The ends of `Pair` with a line in each direction: messages arrive in order and none is lost. The
flow of one transfer is told by a few fields of the outgoing half and of the incoming half, its
`Course` and its `Standing`. `Sends` and `Answers` list what a turn can do to them, with the
messages it puts on the line, and `sends_turn` and `answers_turn` say that every turn does one of
these.
-/

namespace DeskhopPlus.Transfer

open Bytes Wire Runs

/-- Two ends, and how many of the other's messages each has handled. -/
structure Lines where
  ends : Side → Endpoint
  handled : Side → Nat

/-- A call at one end, or the next message of the other end at this one. -/
inductive LineEvent where
  | call (side : Side) (call : Call) (cap : Nat)
  | deliver (side : Side) (lazy : Bool) (cap : Nat)

namespace Lines

/-- Two ends that have just started. -/
def init (rxBufs : Side → List UInt8) : Lines where
  ends side := Endpoint.init (rxBufs side)
  handled _ := 0

/-- What an end sent and the other has not handled. -/
def flight (s : Lines) (side : Side) : List Message :=
  (s.ends side).sent.drop (s.handled side.other)

/-- One event. -/
def step (s : Lines) : LineEvent → Lines
  | .call side call cap => { s with ends := transferStep s.ends (.call side call cap) }
  | .deliver side lazy cap =>
      if s.handled side < (s.ends side.other).sent.length then
        { ends := transferStep s.ends (.deliver side (s.handled side) lazy cap)
          handled := Function.update s.handled side (s.handled side + 1) }
      else s

end Lines

/-- Neither a stall sweep, nor the loss of the link, nor the replacement of the seal. -/
def Turn.undisturbed : Turn → Bool
  | .call .sweepRx _ | .call .linkDown _ | .call .rxSealReplaced _ => false
  | _ => true

/-- The condition on a step: nothing disturbs the lines, and no id is offered twice. -/
def Lines.Undisturbed (s : Lines) : LineEvent → Prop
  | .call side call cap =>
      (Turn.call call cap).undisturbed = true ∧ FreshOffer s.ends (.call side call cap)
  | .deliver .. => True

/-- The messages of the copy side of a transfer. -/
def Message.forward : Message → Bool
  | .offer _ | .chunk _ | .done _ => true
  | _ => false

/-- The messages of the paste side that the copy side acts on. -/
def Message.backward : Message → Bool
  | .request _ | .credit _ _ | .retransmit _ _ => true
  | _ => false

/-- Whether a message is a chunk. -/
def Message.isChunk : Message → Bool
  | .chunk _ => true
  | _ => false

/-- The transfer a message is about. -/
def Message.names : Message → UInt32
  | .offer made => made.id
  | .chunk part => part.id
  | .request id | .credit id _ | .retransmit id _ | .done id | .received id | .cancel id => id

/-- The message a turn brings. -/
def Turn.brings : Turn → Option Message
  | .message heard .. => some heard
  | .call .. => none

/-- The turn is a new offer. -/
def Turn.offers : Turn → Bool
  | .call (.offer ..) _ => true
  | _ => false

/-! ## The copy side -/

/-- What the flow of an outgoing transfer depends on. -/
structure Course where
  active : Bool
  streaming : Bool
  pending : Bool
  id : UInt32
  total : UInt64
  nextSeq : Nat
  credits : Nat
  opened : Bool

/-- The course of an outgoing transfer. -/
def Outgoing.course (tx : Outgoing) : Course where
  active := tx.active
  streaming := tx.streaming
  pending := tx.lazyPending
  id := tx.id
  total := tx.total
  nextSeq := tx.nextSeq
  credits := tx.credits
  opened := tx.openingCreditAccepted

namespace Course

/-- The course of an offer that has just been made. -/
def offered (id : UInt32) (total : UInt64) : Course :=
  { Outgoing.reset.course with active := true, id := id, total := total }

/-- The course once chunks may flow. -/
def started (c : Course) : Course :=
  { c with
    streaming := true
    pending := false
    credits := min c.credits creditWindow
    opened := decide (0 < min c.credits creditWindow) }

/-- The course after a grant with no retransmit request before it. -/
def granted (c : Course) (credits : Nat) : Course :=
  if c.streaming && decide (credits = creditWindow) then
    if c.opened then c
    else
      { c with
        credits := c.credits + min credits (creditWindow - c.credits)
        opened := true }
  else { c with credits := (c.credits + credits) % 2 ^ 32 }

/-- The course after so many new chunks. -/
def pumped (c : Course) (count : Nat) : Course :=
  { c with nextSeq := c.nextSeq + count, credits := c.credits - count }

end Course

/-- A chunk of the transfer of an offer. -/
structure Cut (id : UInt32) (total : UInt64) (seq : Nat) (chunk : ClipChunk) : Prop where
  names : chunk.id = id
  numbered : chunk.seq.toNat = seq
  inside : seq < chunkCount total
  length : chunk.data.length = chunkLen total (chunkCount total) seq
  intact : crc32 chunk.data = chunk.crc32

/-- What a turn can do to the course of an outgoing transfer, and the messages it sends, unless it
is a new offer. -/
inductive Sends (c : Course) (turn : Turn) : Course → List Message → Prop
  | rests : Sends c turn c []
  | resets : Sends c turn Outgoing.reset.course []
  | repeats {offer : ClipOffer} (hactive : c.active = true) (hidle : c.streaming = false)
      (hid : offer.id = c.id) (htotal : offer.total = c.total) : Sends c turn c [.offer offer]
  | probes (hactive : c.active = true) (hstreaming : c.streaming = true)
      (hall : chunkCount c.total ≤ c.nextSeq) : Sends c turn c [.done c.id]
  | waits (hturn : turn.brings = some (.request c.id)) (hactive : c.active = true)
      (hidle : c.streaming = false) : Sends c turn { c with pending := true } []
  | starts (hactive : c.active = true) (hidle : c.streaming = false)
      (hasked : turn.brings = some (.request c.id) ∨ c.pending = true) :
      Sends c turn c.started []
  | credited {credits : Nat} (hturn : turn.brings = some (.credit c.id credits))
      (hactive : c.active = true) : Sends c turn (c.granted credits) []
  | pumps {count : Nat} {cut : Nat → ClipChunk} {tail : List Message} (hactive : c.active = true)
      (hstreaming : c.streaming = true) (hcredits : count ≤ c.credits)
      (hcut : ∀ seq ∈ List.range' c.nextSeq count, Cut c.id c.total seq (cut seq))
      (htail : tail = [] ∨ tail = [.done c.id] ∧ chunkCount c.total ≤ c.nextSeq + count) :
      Sends c turn (c.pumped count)
        ((List.range' c.nextSeq count).map (fun seq ↦ .chunk (cut seq)) ++ tail)

/-- The message of a new offer, if there is room for it. -/
def Offers (id : UInt32) (total : UInt64) (new : List Message) : Prop :=
  new = [] ∨ ∃ offer : ClipOffer, new = [.offer offer] ∧ offer.id = id ∧ offer.total = total

/-- What every outgoing transfer keeps on undisturbed lines: it was never asked for a chunk again,
and its payload has the length it promised. -/
structure Outgoing.Straight (tx : Outgoing) : Prop where
  ring : tx.retx = []
  recovery : tx.recoveryCreditDue = false
  count : tx.active = true → tx.nchunks = chunkCount tx.total
  supplied : tx.active = true → ∀ payload ∈ tx.data, payload.length = tx.total.toNat
  flows : tx.streaming = true → tx.data.isSome = true ∨ tx.total = 0
  waits : tx.lazyPending = true → tx.streaming = false

/-! ## The paste side -/

/-- What the flow of an incoming transfer depends on. -/
structure Standing where
  seenOffer : Bool
  active : Bool
  lazy : Bool
  id : UInt32
  total : UInt64
  nchunks : Nat
  received : Finset Nat

/-- The standing of an incoming transfer. -/
def Incoming.standing (rx : Incoming) : Standing where
  seenOffer := rx.seenOffer
  active := rx.active
  lazy := rx.lazy
  id := rx.id
  total := rx.total
  nchunks := rx.nchunks
  received := rx.received

/-- The standing of an offer that has just been taken up. -/
def Standing.taken (offer : ClipOffer) (active lazy : Bool) : Standing where
  seenOffer := true
  active := active
  lazy := lazy
  id := offer.id
  total := offer.total
  nchunks := chunkCount offer.total
  received := ∅

/-- The request for a transfer and its first window, as far as there is room. -/
def Opening (id : UInt32) (new : List Message) : Prop :=
  new = [] ∨ new = [.request id] ∨ new = [.request id, .credit id creditWindow]

/-- The transfer a chunk is for is arriving and has been asked for. -/
structure Standing.Awaits (r : Standing) (chunk : ClipChunk) : Prop where
  active : r.active = true
  requested : r.lazy = false
  id : r.id = chunk.id
  inside : chunk.seq.toNat < r.nchunks

/-- What a turn can do to the standing of an incoming transfer, and the messages it sends. -/
inductive Answers (r : Standing) (turn : Turn) : Standing → List Message → Prop
  | rests (hturn : ∀ chunk, turn.brings = some (.chunk chunk) → r.Awaits chunk →
      chunk.seq.toNat ∈ r.received) : Answers r turn r []
  | stops : Answers r turn { r with active := false } []
  | takes {offer : ClipOffer} {active lazy : Bool} {new : List Message}
      (hturn : turn.brings = some (.offer offer)) (hnew : r.seenOffer = true → r.id ≠ offer.id)
      (hopening : Opening offer.id new) (hasks : new ≠ [] → lazy = false) :
      Answers r turn (Standing.taken offer active lazy) new
  | asks {new : List Message} (hturn : ∀ chunk, turn.brings ≠ some (.chunk chunk))
      (hactive : r.active = true) (hopening : Opening r.id new) :
      Answers r turn { r with lazy := false } new
  | stores {chunk : ClipChunk} {active : Bool} {new : List Message}
      (hturn : turn.brings = some (.chunk chunk)) (hawaits : r.Awaits chunk)
      (hnew : new = [] ∨ new = [.credit r.id 1]) :
      Answers r turn
        { r with active := active, received := insert chunk.seq.toNat r.received } new

/-- What every incoming transfer keeps on undisturbed lines. -/
structure Incoming.Even (rx : Incoming) : Prop where
  ungranted : rx.ungranted = 0
  count : rx.nreceived = rx.received.card

/-! ## Turns of the copy side -/

/-- What the copy side puts on the line. -/
def forwards (result : Xfer × List Action) : List Message :=
  (result.2.filterMap (messageOf result.1)).filter Message.forward

/-- The outgoing transfer stays straight, and its course moves. -/
structure Courses (x : Xfer) (turn : Turn) (result : Xfer × List Action) : Prop where
  straight : result.1.tx.Straight
  sends : Sends x.tx.course turn result.1.tx.course (forwards result)

section Sending

variable {x : Xfer} {cap : Nat} {turn : Turn} {result : Xfer × List Action}

/-- A direction that was reset is straight. -/
theorem Outgoing.straight_reset : Outgoing.reset.Straight := by
  refine ⟨rfl, rfl, ?_, ?_, ?_, ?_⟩ <;> nofun

/-- The paste side puts nothing on the line of the copy side. -/
theorem forwards_pasting (h : Pasting result.2) : forwards result = [] := by
  unfold forwards
  rw [List.filter_eq_nil_iff]
  intro message hmessage
  obtain ⟨action, haction, hsome⟩ := List.mem_filterMap.1 hmessage
  have hpaste := h action haction
  cases action with
  | sendOffer | needData | sendChunk | sendDone | sendOfferRetry | sendDoneRetry => cases hpaste
  | delivered | failed | protocolError => cases hsome
  | _ =>
      obtain rfl := Option.some.inj hsome
      exact Bool.false_ne_true

/-- A turn that leaves the outgoing direction alone. -/
theorem courses_same (hstraight : x.tx.Straight) (htx : result.1.tx = x.tx)
    (h : Pasting result.2) : Courses x turn result := by
  refine ⟨htx ▸ hstraight, ?_⟩
  rw [htx, forwards_pasting h]
  exact .rests

/-- A turn that resets it. -/
theorem courses_reset (htx : result.1.tx = Outgoing.reset) (h : Pasting result.2) :
    Courses x turn result := by
  refine ⟨htx ▸ Outgoing.straight_reset, ?_⟩
  rw [htx, forwards_pasting h]
  exact .resets

/-- The outgoing transfer stays or is given up. -/
theorem courses_kept (hstraight : x.tx.Straight)
    (htx : result.1.tx = x.tx ∨ result.1.tx = Outgoing.reset) (h : Pasting result.2) :
    Courses x turn result := by
  rcases htx with hsame | hreset
  · exact courses_same hstraight hsame h
  · exact courses_reset hreset h

/-- A new offer, and its message if there is room. -/
theorem offers_offer (kind : UInt8) (metadata : List UInt8) (hlength : metadata.length < 2 ^ 16)
    (data : Option (List UInt8)) (total : UInt64)
    (hdata : ∀ payload ∈ data, payload.length = total.toNat) :
    (x.offer cap kind metadata hlength data total).1.tx.Straight ∧
      (x.offer cap kind metadata hlength data total).1.tx.course =
        Course.offered x.nextId total ∧
      Offers x.nextId total (forwards (x.offer cap kind metadata hlength data total)) := by
  refine ⟨⟨rfl, rfl, fun _ ↦ rfl, fun _ ↦ hdata, nofun, nofun⟩, rfl, ?_⟩
  unfold Xfer.offer forwards emit
  by_cases hroom : 0 < cap
  · rw [List.length_nil, if_pos hroom]
    exact .inr ⟨{ id := x.nextId, kind, total, metadata, metadata_length := hlength },
      rfl, rfl, rfl⟩
  · rw [List.length_nil, if_neg hroom]
    exact .inl rfl

/-- An offer made again. -/
theorem courses_retryOffer (hstraight : x.tx.Straight) : Courses x turn (x.retryOffer cap) := by
  unfold Xfer.retryOffer
  by_cases hguard : x.tx.active = false ∨ x.tx.streaming = true ∨ x.tx.lazyPending = true
  · rw [if_pos hguard]
    exact courses_same hstraight rfl pasting_nil
  · rw [if_neg hguard]
    split
    · exact courses_same hstraight rfl pasting_nil
    · simp only [not_or, Bool.not_eq_false, Bool.not_eq_true] at hguard
      obtain ⟨hactive, hidle, -⟩ := hguard
      refine ⟨⟨hstraight.ring, hstraight.recovery, hstraight.count, hstraight.supplied,
        hstraight.flows, hstraight.waits⟩, ?_⟩
      have hsent : forwards
          ({ x with tx := { x.tx with offerRetries := x.tx.offerRetries + 1 } },
            [.sendOfferRetry x.tx.id]) =
          [.offer { id := x.tx.id, kind := x.tx.kind, total := x.tx.total,
                    metadata := x.tx.metadata, metadata_length := x.tx.metadata_length }] := by
        simp [forwards, messageOf, Xfer.offerInfo, hactive, Message.forward]
      rw [hsent]
      exact .repeats hactive hidle rfl rfl

/-- Chunks may flow from now on. -/
theorem courses_start (hstraight : x.tx.Straight) (hactive : x.tx.active = true)
    (hidle : x.tx.streaming = false) (data : Option (List UInt8))
    (hdata : ∀ payload ∈ data, payload.length = x.tx.total.toNat)
    (hsupplied : data.isSome = true ∨ x.tx.total = 0)
    (hasked : turn.brings = some (.request x.tx.id) ∨ x.tx.lazyPending = true) :
    Courses x turn
      (({ x with tx := { x.tx with data := data, lazyPending := false } } : Xfer).txStartStreaming,
        []) :=
  ⟨⟨hstraight.ring, hstraight.recovery, hstraight.count, fun _ ↦ hdata, fun _ ↦ hsupplied, nofun⟩,
    .starts hactive hidle hasked⟩

/-- The payload of an offer. -/
theorem courses_provide (hstraight : x.tx.Straight) (data : List UInt8)
    (hdata : data.length = x.tx.total.toNat) : Courses x turn (x.provide data, []) := by
  unfold Xfer.provide
  by_cases hguard : x.tx.active = false ∨ x.tx.lazyPending = false
  · rw [if_pos hguard]
    exact courses_same hstraight rfl pasting_nil
  · rw [if_neg hguard]
    simp only [not_or, Bool.not_eq_false] at hguard
    obtain ⟨hactive, hpending⟩ := hguard
    have hsupplied : ∀ payload ∈ some data, payload.length = x.tx.total.toNat := by
      intro payload hpayload
      cases hpayload
      exact hdata
    exact courses_start hstraight hactive (hstraight.waits hpending) (some data)
      hsupplied (.inl rfl)
      (.inr hpending)

/-- A payload that cannot be had. -/
theorem courses_provideFail (hstraight : x.tx.Straight) :
    Courses x turn (x.provideFail cap) := by
  unfold Xfer.provideFail
  split
  · exact courses_same hstraight rfl pasting_nil
  · exact courses_reset rfl (pasting_emit rfl)

/-- What is sent is given up. -/
theorem courses_cancelTx (hstraight : x.tx.Straight) : Courses x turn (x.cancelTx cap) := by
  unfold Xfer.cancelTx
  split
  · exact courses_reset rfl (pasting_emit rfl)
  · exact courses_same hstraight rfl pasting_nil

/-- What was sent whole is forgotten. -/
theorem courses_expireTx (hstraight : x.tx.Straight) : Courses x turn (x.expireTx, []) := by
  unfold Xfer.expireTx
  split
  · exact courses_reset rfl pasting_nil
  · exact courses_same hstraight rfl pasting_nil

/-- A receipt. -/
theorem courses_handleReceived (hstraight : x.tx.Straight) (id : UInt32) :
    Courses x turn (x.handleReceived id, []) := by
  unfold Xfer.handleReceived
  split
  · exact courses_reset rfl pasting_nil
  · exact courses_same hstraight rfl pasting_nil

/-- A done said again. -/
theorem courses_retryDone (hstraight : x.tx.Straight) : Courses x turn (x, x.retryDone cap) := by
  unfold Xfer.retryDone
  by_cases hguard : x.txAwaitingReceipt = true
  · rw [if_pos hguard]
    unfold Xfer.txAwaitingReceipt at hguard
    simp only [Bool.and_eq_true, decide_eq_true_eq] at hguard
    obtain ⟨⟨hactive, hstreaming⟩, hall⟩ := hguard
    refine ⟨hstraight, ?_⟩
    unfold forwards emit
    by_cases hroom : 0 < cap
    · rw [List.length_nil, if_pos hroom]
      exact .probes hactive hstreaming (hstraight.count hactive ▸ hall)
    · rw [List.length_nil, if_neg hroom]
      exact .rests
  · rw [if_neg hguard]
    exact courses_same hstraight rfl pasting_nil

/-- A request. -/
theorem courses_handleRequest (hstraight : x.tx.Straight) (id : UInt32)
    (hturn : turn.brings = some (.request id)) : Courses x turn (x.handleRequest cap id) := by
  unfold Xfer.handleRequest
  by_cases hguard : x.tx.active = false ∨ x.tx.id ≠ id ∨ x.tx.streaming = true ∨
      x.tx.lazyPending = true
  · rw [if_pos hguard]
    exact courses_same hstraight rfl pasting_nil
  · rw [if_neg hguard]
    simp only [not_or, Bool.not_eq_false, Bool.not_eq_true, not_not] at hguard
    obtain ⟨hactive, rfl, hidle, hpending⟩ := hguard
    by_cases hlacks : x.tx.data.isNone = true ∧ 0 < x.tx.total
    · rw [if_pos hlacks]
      refine ⟨⟨hstraight.ring, hstraight.recovery, hstraight.count, hstraight.supplied,
        hstraight.flows, fun _ ↦ hidle⟩, ?_⟩
      have hsilent : ∀ y : Xfer, forwards (y, emit cap [] (.needData x.tx.id)) = [] := by
        intro y
        unfold forwards emit
        split <;> rfl
      rw [hsilent]
      exact .waits hturn hactive hidle
    · rw [if_neg hlacks]
      have hsupplied : x.tx.data.isSome = true ∨ x.tx.total = 0 := by
        by_cases hsome : x.tx.data.isSome = true
        · exact .inl hsome
        · refine .inr (UInt64.le_zero_iff.1 (UInt64.not_lt.1 ?_))
          exact fun hpos ↦ hlacks ⟨by simpa using hsome, hpos⟩
      have hstart := courses_start hstraight hactive hidle x.tx.data
        (hstraight.supplied hactive) hsupplied (.inl hturn)
      have hsame : ({ x with tx := { x.tx with data := x.tx.data, lazyPending := false } } : Xfer) =
          x := by
        rw [← hpending]
      rw [hsame] at hstart
      exact hstart

/-- A credit. -/
theorem courses_handleCredit (hstraight : x.tx.Straight) (id : UInt32) (credits : Nat)
    (hturn : turn.brings = some (.credit id credits)) :
    Courses x turn (x.handleCredit id credits, []) := by
  unfold Xfer.handleCredit
  by_cases hguard : x.tx.active = false ∨ x.tx.id ≠ id
  · rw [if_pos hguard]
    exact courses_same hstraight rfl pasting_nil
  · rw [if_neg hguard]
    simp only [not_or, Bool.not_eq_false, not_not] at hguard
    obtain ⟨hactive, rfl⟩ := hguard
    extract_lets openingGrant room source tx
    have hopening : openingGrant = (x.tx.streaming && decide (credits = creditWindow)) := by
      show (_ && !x.tx.recoveryCreditDue) = _
      rw [hstraight.recovery, Bool.not_false, Bool.and_true]
    have hgranted : tx.course = x.tx.course.granted credits := by
      simp only [tx, hopening]
      unfold Course.granted Outgoing.course
      by_cases hfirst : (x.tx.streaming && decide (credits = creditWindow)) = true
      · by_cases hopened : x.tx.openingCreditAccepted = true <;>
          simp [hfirst, hopened, source, room]
      · simp [hfirst, source]
    have hkept : tx =
        { x.tx with credits := tx.credits, openingCreditAccepted := tx.openingCreditAccepted } := by
      simp only [tx]
      split
      · rfl
      · split <;> rfl
    refine ⟨?_, ?_⟩
    · rw [hkept]
      exact ⟨hstraight.ring, rfl, hstraight.count, hstraight.supplied, hstraight.flows,
        hstraight.waits⟩
    · show Sends x.tx.course turn tx.course []
      rw [hgranted]
      exact .credited hturn hactive

/-- The chunks of a transfer lie within its payload. -/
theorem chunkLen_le {total : UInt64} {seq : Nat} (h : seq < chunkCount total) :
    chunkLen total (chunkCount total) seq ≤ total.toNat - seq * chunkSize := by
  have := total.toNat_lt
  unfold chunkLen
  by_cases hlast : (seq + 1) % 2 ^ 32 = chunkCount total
  · rw [if_pos hlast]
    simp only [chunkCount, chunkSize] at h hlast ⊢
    omega
  · rw [if_neg hlast]
    simp only [chunkCount, chunkSize] at h hlast ⊢
    omega

/-- The chunk a machine cuts from its payload. -/
theorem chunkAt_cut (hstraight : x.tx.Straight) (hactive : x.tx.active = true)
    {payload : List UInt8} (hpayload : x.tx.data = some payload) {seq : Nat}
    (hseq : seq < chunkCount x.tx.total) :
    ∃ chunk, x.chunkAt seq = some chunk ∧ Cut x.tx.id x.tx.total seq chunk := by
  have hcount := hstraight.count hactive
  have hlength := hstraight.supplied hactive payload hpayload
  have hguard : ¬ (x.tx.active = false ∨ x.tx.nchunks ≤ seq) := by
    rw [hactive, hcount]
    simpa using hseq
  unfold Xfer.chunkAt
  simp only [hpayload, if_neg hguard]
  refine ⟨_, rfl, rfl, ?_, hseq, ?_, rfl⟩
  · show (UInt32.ofNat seq).toNat = seq
    rw [UInt32.toNat_ofNat']
    apply Nat.mod_eq_of_lt
    unfold chunkCount at hseq
    omega
  · rw [List.length_take, List.length_drop, hlength, hcount]
    exact Nat.min_eq_left (chunkLen_le hseq)

/-- A pump with an empty ring sends the next chunks. -/
theorem pumpLoop_straight (room : Nat) (tx : Outgoing) (acts : List Action) (hring : tx.retx = []) :
    ∃ count, count ≤ tx.credits ∧ (0 < count → tx.nextSeq + count ≤ tx.nchunks) ∧
      Xfer.pumpLoop cap room tx acts =
        ({ tx with nextSeq := tx.nextSeq + count, credits := tx.credits - count },
          acts ++ (List.range' tx.nextSeq count).map (.sendChunk tx.id)) := by
  induction room generalizing tx acts with
  | zero => exact ⟨0, Nat.zero_le _, nofun, by simp [Xfer.pumpLoop]⟩
  | succ room ih =>
      unfold Xfer.pumpLoop
      by_cases hroom : 0 < tx.credits ∧ acts.length + 1 < cap
      · rw [if_pos hroom, hring]
        by_cases hmore : tx.nextSeq < tx.nchunks
        · simp only [if_pos hmore]
          obtain ⟨count, hcredits, hinside, heq⟩ :=
            ih { tx with nextSeq := tx.nextSeq + 1, credits := tx.credits - 1, retx := [] }
              (acts ++ [.sendChunk tx.id tx.nextSeq]) rfl
          simp only at hcredits hinside heq
          refine ⟨count + 1, by omega, by omega, ?_⟩
          rw [heq, List.range'_succ]
          simp [Nat.add_assoc, Nat.add_comm 1 count, Nat.sub_sub]
        · simp only [if_neg hmore]
          exact ⟨0, Nat.zero_le _, nofun, by rw [← hring]; simp⟩
      · rw [if_neg hroom]
        exact ⟨0, Nat.zero_le _, nofun, by simp⟩

/-- What a pump does on undisturbed lines: chunks, as many as there are credits for, and one
done. -/
theorem pump_straight (hstraight : x.tx.Straight) :
    (x.pump cap).1.tx.Straight ∧
      ((x.pump cap).1.tx = x.tx ∧ (x.pump cap).2 = [] ∨
        ∃ count tail, x.tx.active = true ∧ x.tx.streaming = true ∧ count ≤ x.tx.credits ∧
          (0 < count → x.tx.nextSeq + count ≤ x.tx.nchunks) ∧
          (x.pump cap).1.tx.course = x.tx.course.pumped count ∧
          (x.pump cap).1.tx.data = x.tx.data ∧
          (x.pump cap).2 =
            (List.range' x.tx.nextSeq count).map (.sendChunk x.tx.id) ++ tail ∧
          (tail = [] ∨ tail = [.sendDone x.tx.id] ∧ x.tx.nchunks ≤ x.tx.nextSeq + count)) := by
  unfold Xfer.pump
  by_cases hguard : x.tx.active = false ∨ x.tx.streaming = false ∨ x.tx.lazyPending = true
  · rw [if_pos hguard]
    exact ⟨hstraight, .inl ⟨rfl, rfl⟩⟩
  · rw [if_neg hguard]
    simp only [not_or, Bool.not_eq_false] at hguard
    obtain ⟨hactive, hstreaming, -⟩ := hguard
    obtain ⟨count, hcredits, hinside, heq⟩ :=
      pumpLoop_straight batchMax x.tx [] hstraight.ring
    rw [heq]
    simp only [List.nil_append]
    split
    · rename_i hdone
      refine ⟨⟨hstraight.ring, hstraight.recovery, hstraight.count, hstraight.supplied,
        hstraight.flows, hstraight.waits⟩, .inr ⟨count, [.sendDone x.tx.id], hactive, hstreaming,
        hcredits, hinside, rfl, rfl, rfl, .inr ⟨rfl, hdone.2.2.1⟩⟩⟩
    · exact ⟨⟨hstraight.ring, hstraight.recovery, hstraight.count, hstraight.supplied,
        hstraight.flows, hstraight.waits⟩, .inr ⟨count, [], hactive, hstreaming, hcredits, hinside,
        rfl, rfl, (List.append_nil _).symm, .inl rfl⟩⟩

/-- The messages of chunks that can all be cut. -/
theorem exists_cuts {start count : Nat} (h : ∀ seq ∈ List.range' start count,
    ∃ chunk, x.chunkAt seq = some chunk ∧ Cut x.tx.id x.tx.total seq chunk) :
    ∃ cut : Nat → ClipChunk,
      (∀ seq ∈ List.range' start count, Cut x.tx.id x.tx.total seq (cut seq)) ∧
        ((List.range' start count).map (.sendChunk x.tx.id)).filterMap (messageOf x) =
          (List.range' start count).map (fun seq ↦ .chunk (cut seq)) := by
  have hall : ∀ seq, ∃ chunk, seq ∈ List.range' start count →
      x.chunkAt seq = some chunk ∧ Cut x.tx.id x.tx.total seq chunk := by
    intro seq
    by_cases hseq : seq ∈ List.range' start count
    · obtain ⟨chunk, hchunk⟩ := h seq hseq
      exact ⟨chunk, fun _ ↦ hchunk⟩
    · exact ⟨{ id := 0, seq := 0, crc32 := 0, data := [], data_length := by decide },
        fun hmem ↦ absurd hmem hseq⟩
  choose cut hcut using hall
  refine ⟨cut, fun seq hseq ↦ (hcut seq hseq).2, ?_⟩
  rw [List.filterMap_map, ← List.filterMap_eq_map]
  apply List.filterMap_congr
  intro seq hseq
  simp [messageOf, (hcut seq hseq).1]

/-- The pump. -/
theorem courses_pump (hstraight : x.tx.Straight) : Courses x turn (x.pump cap) := by
  obtain ⟨hafter, hpump⟩ := pump_straight hstraight
  refine ⟨hafter, ?_⟩
  rcases hpump with ⟨hsame, hnone⟩ | hpump
  · rw [hsame, forwards_pasting (hnone ▸ pasting_nil)]
    exact .rests
  · obtain ⟨count, tail, hactive, hstreaming, hcredits, hinside, hcourse, hdata, hacts, htail⟩ :=
      hpump
    have hcount := hstraight.count hactive
    have hactive' : (x.pump cap).1.tx.active = true :=
      (congrArg Course.active hcourse).trans hactive
    have hid : (x.pump cap).1.tx.id = x.tx.id := congrArg Course.id hcourse
    have htotal : (x.pump cap).1.tx.total = x.tx.total := congrArg Course.total hcourse
    -- what a pump sends lies inside the payload it has, so each chunk is cut from it
    have hcuts : ∀ seq ∈ List.range' x.tx.nextSeq count, ∃ chunk,
        (x.pump cap).1.chunkAt seq = some chunk ∧
          Cut (x.pump cap).1.tx.id (x.pump cap).1.tx.total seq chunk := by
      intro seq hseq
      obtain ⟨hfrom, hto⟩ := List.mem_range'_1.1 hseq
      have hlt : seq < chunkCount x.tx.total := by
        have := hinside (by omega)
        omega
      rcases hstraight.flows hstreaming with hsome | hzero
      · obtain ⟨payload, hpayload⟩ := Option.isSome_iff_exists.1 hsome
        exact chunkAt_cut hafter hactive' (hdata.trans hpayload) (htotal ▸ hlt)
      · rw [hzero] at hlt
        exact absurd hlt (Nat.not_lt_zero seq)
    obtain ⟨cut, hcut, hmap⟩ := exists_cuts hcuts
    rw [hid, htotal] at hcut
    rw [hid] at hmap
    have hsent : forwards (x.pump cap) =
        (List.range' x.tx.nextSeq count).map (fun seq ↦ .chunk (cut seq)) ++
          tail.filterMap (messageOf (x.pump cap).1) := by
      unfold forwards
      rw [hacts, List.filterMap_append, hmap, List.filter_eq_self.2]
      intro message hmessage
      rcases List.mem_append.1 hmessage with hchunk | hdone
      · obtain ⟨seq, -, rfl⟩ := List.mem_map.1 hchunk
        rfl
      · rcases htail with rfl | ⟨rfl, -⟩
        · cases hdone
        · rw [List.mem_singleton.1 hdone]
          rfl
    rw [hcourse, hsent]
    refine .pumps hactive hstreaming hcredits hcut ?_
    rcases htail with rfl | ⟨rfl, hall⟩
    · exact .inl rfl
    · exact .inr ⟨rfl, hcount ▸ hall⟩

/-- A turn of the receiving direction writes what a paste side writes. -/
theorem pasting_turn (h : turn.about .receiving = true) : Pasting (x.turn turn).2 := by
  cases turn with
  | call call cap =>
      cases call with
      | requestLazy id => exact pasting_requestLazy id
      | setRxBuffer rxBuf => exact pasting_nil
      | sweepRx => exact pasting_sweepRx
      | cancelRx => exact pasting_cancelRx
      | rxSealReplaced => exact pasting_rxAbandon .sealReplaced
      | offer | retryOffer | provide | provideFail | pump | retryDone | cancelTx | expireTx
      | linkDown => cases h
  | message message lazy cap =>
      cases message with
      | offer offer => exact pasting_handleOffer offer lazy
      | chunk chunk => exact pasting_handleChunk chunk
      | done id => exact pasting_handleDone id
      | request | retransmit | credit | received | cancel => cases h

/-- Every turn of the paste side. -/
theorem courses_receiving (hstraight : x.tx.Straight) (h : turn.about .receiving = true) :
    Courses x turn (x.turn turn) := by
  have hone : turn.OneDirection := by
    intro hnone
    rw [Turn.about, hnone] at h
    cases h
  have hnot : turn.about .sending = false := by
    rw [Turn.about, decide_eq_true_eq] at h
    rw [Turn.about, h]
    rfl
  have htx : (x.turn turn).1.sendingHalf = x.sendingHalf := sending_owned.other turn hnot hone x
  exact courses_same hstraight (Prod.mk.inj htx).1 (pasting_turn h)

/-- Every turn that is no offer and brings no retransmit request keeps the outgoing transfer
straight. -/
theorem courses_turn (hstraight : x.tx.Straight) (hoffers : turn.offers = false)
    (hmeets : ∀ call cap, turn = .call call cap → call.Meets x)
    (hbrings : ∀ id seq, turn.brings ≠ some (.retransmit id seq)) :
    Courses x turn (x.turn turn) := by
  cases turn with
  | call call cap =>
      have hmeets := hmeets call cap rfl
      cases call with
      | offer => cases hoffers
      | retryOffer => exact courses_retryOffer hstraight
      | provide data => exact courses_provide hstraight data hmeets
      | provideFail => exact courses_provideFail hstraight
      | pump => exact courses_pump hstraight
      | retryDone => exact courses_retryDone hstraight
      | cancelTx => exact courses_cancelTx hstraight
      | expireTx => exact courses_expireTx hstraight
      | linkDown => exact courses_kept hstraight linkDown_tx.1 linkDown_tx.2
      | requestLazy | setRxBuffer | sweepRx | cancelRx | rxSealReplaced =>
          exact courses_receiving hstraight rfl
  | message message lazy cap =>
      cases message with
      | request id => exact courses_handleRequest hstraight id rfl
      | credit id credits => exact courses_handleCredit hstraight id credits rfl
      | retransmit id seq => exact absurd rfl (hbrings id seq)
      | received id => exact courses_handleReceived hstraight id
      | cancel id => exact courses_kept hstraight (handleCancel_tx id).1 (handleCancel_tx id).2
      | offer | chunk | done => exact courses_receiving hstraight rfl

end Sending

/-! ## Turns of the paste side -/

/-- What the paste side puts on its line. -/
def backwards (result : Xfer × List Action) : List Message :=
  (result.2.filterMap (messageOf result.1)).filter Message.backward

/-- The incoming transfer stays even, and its standing moves. -/
structure Answering (x : Xfer) (turn : Turn) (result : Xfer × List Action) : Prop where
  even : result.1.rx.Even
  answers : Answers x.rx.standing turn result.1.rx.standing (backwards result)

/-- No chunk comes in. -/
def Turn.Chunkless (turn : Turn) : Prop := ∀ chunk, turn.brings ≠ some (.chunk chunk)

section Receiving

variable {x y : Xfer} {cap : Nat} {turn : Turn} {result : Xfer × List Action} {acts : List Action}

/-- A direction that was forgotten is even. -/
theorem Incoming.even_forget : Incoming.forget.Even := ⟨rfl, rfl⟩

/-- None of these actions asks for anything. -/
def Unasking (acts : List Action) : Prop := ∀ action ∈ acts, action.isRequest = false

/-- No action asks for nothing. -/
theorem unasking_nil : Unasking [] := nofun

/-- Another action that is no request, where there may be no room for it. -/
theorem Unasking.emit (h : Unasking acts) {action : Action} (haction : action.isRequest = false) :
    Unasking (emit cap acts action) := by
  unfold Transfer.emit
  split
  · intro other hother
    rcases List.mem_append.1 hother with hold | hnew
    · exact h other hold
    · rw [List.mem_singleton.1 hnew]
      exact haction
  · exact h

/-- One action that is no request, or none. -/
theorem unasking_emit {action : Action} (haction : action.isRequest = false) :
    Unasking (emit cap [] action) :=
  unasking_nil.emit haction

/-- What asks for nothing puts nothing on the line back. -/
theorem backwards_unasking (h : Unasking result.2) : backwards result = [] := by
  unfold backwards
  rw [List.filter_eq_nil_iff]
  intro message hmessage
  obtain ⟨action, haction, hsome⟩ := List.mem_filterMap.1 hmessage
  have hunasking := h action haction
  cases action with
  | sendRequest | sendRetransmit | sendCredit => cases hunasking
  | delivered | failed | protocolError | needData => cases hsome
  | sendOffer | sendOfferRetry | sendChunk =>
      obtain ⟨_, -, rfl⟩ := Option.map_eq_some_iff.1 hsome
      exact Bool.false_ne_true
  | _ =>
      obtain rfl := Option.some.inj hsome
      exact Bool.false_ne_true

/-- The incoming transfer is as it was, and nothing is asked for. -/
theorem answering_same (heven : x.rx.Even) (hrx : result.1.rx = x.rx) (h : Unasking result.2)
    (hturn : ∀ chunk, turn.brings = some (.chunk chunk) → x.rx.standing.Awaits chunk →
      chunk.seq.toNat ∈ x.rx.received) : Answering x turn result := by
  refine ⟨hrx ▸ heven, ?_⟩
  rw [hrx, backwards_unasking h]
  exact .rests hturn

/-- A turn without a chunk brings none that is awaited. -/
theorem Turn.Chunkless.awaits {P : ClipChunk → Prop} (h : turn.Chunkless) :
    ∀ chunk, turn.brings = some (.chunk chunk) → P chunk :=
  fun chunk hbrings ↦ absurd hbrings (h chunk)

/-- What is received is no longer active. -/
theorem answering_stops (heven : result.1.rx.Even)
    (hrx : result.1.rx.standing = { x.rx.standing with active := false }) (h : Unasking result.2) :
    Answering x turn result := by
  refine ⟨heven, ?_⟩
  rw [hrx, backwards_unasking h]
  exact .stops

/-- The request and its window, as far as there is room. -/
theorem opening_requestWindow (id : UInt32) :
    Opening id (backwards (y, Xfer.requestWindow cap id)) := by
  unfold Xfer.requestWindow emit backwards
  by_cases hfirst : 0 < cap
  · by_cases hsecond : 1 < cap
    · refine .inr (.inr ?_)
      simp [hfirst, hsecond, messageOf, Message.backward]
    · refine .inr (.inl ?_)
      simp [hfirst, hsecond, messageOf, Message.backward]
  · refine .inl ?_
    simp [hfirst]

/-- An offer that was held back is asked for. -/
theorem answering_requestLazy (heven : x.rx.Even) (id : UInt32) (hturn : turn.Chunkless) :
    Answering x turn (x.requestLazy cap id) := by
  unfold Xfer.requestLazy
  by_cases hguard : x.rx.active = false ∨ x.rx.lazy = false ∨ x.rx.id ≠ id
  · rw [if_pos hguard]
    exact answering_same heven rfl unasking_nil hturn.awaits
  · rw [if_neg hguard]
    simp only [not_or, Bool.not_eq_false, not_not] at hguard
    obtain ⟨hactive, -, rfl⟩ := hguard
    exact ⟨⟨heven.ungranted, heven.count⟩, .asks hturn hactive (opening_requestWindow x.rx.id)⟩

/-- What is received is given up. -/
theorem answering_cancelRx (heven : x.rx.Even) (hturn : turn.Chunkless) :
    Answering x turn (x.cancelRx cap) := by
  unfold Xfer.cancelRx
  split
  · exact answering_stops ⟨heven.ungranted, heven.count⟩ rfl (unasking_emit rfl)
  · exact answering_same heven rfl unasking_nil hturn.awaits

/-- A buffer is swapped. -/
theorem answering_setRxBuffer (heven : x.rx.Even) (rxBuf : List UInt8) (hturn : turn.Chunkless) :
    Answering x turn (x.setRxBuffer rxBuf, []) := by
  refine answering_same heven ?_ unasking_nil hturn.awaits
  unfold Xfer.setRxBuffer
  split
  · rfl
  · split <;> rfl

/-- A cancel. -/
theorem answering_handleCancel (heven : x.rx.Even) (id : UInt32) (hturn : turn.Chunkless) :
    Answering x turn (x.handleCancel cap id) := by
  unfold Xfer.handleCancel
  by_cases hrx : x.rx.active = true ∧ x.rx.id = id
  · simp only [if_pos hrx]
    split
    · exact answering_stops ⟨heven.ungranted, heven.count⟩ rfl ((unasking_emit rfl).emit rfl)
    · exact answering_stops ⟨heven.ungranted, heven.count⟩ rfl (unasking_emit rfl)
  · simp only [if_neg hrx]
    split
    · exact answering_same heven rfl (unasking_emit rfl) hturn.awaits
    · exact answering_same heven rfl unasking_nil hturn.awaits

/-- An offer. -/
theorem answering_handleOffer (heven : x.rx.Even) (offer : ClipOffer) (held : Bool)
    (hturn : turn.brings = some (.offer offer)) :
    Answering x turn (x.handleOffer cap offer held) := by
  have hchunkless : turn.Chunkless := by
    intro chunk hchunk
    rw [hturn] at hchunk
    cases hchunk
  unfold Xfer.handleOffer
  split
  · exact answering_same heven rfl (unasking_emit rfl) hchunkless.awaits
  · by_cases hknown : x.rx.seenOffer = true ∧ offer.id = x.rx.id
    · rw [if_pos hknown]
      split
      · -- the known offer again: it is asked for as long as none of its chunks came
        extract_lets source rx
        have heven' : rx.Even := ⟨heven.ungranted, heven.count⟩
        split
        · exact ⟨heven', .rests hchunkless.awaits⟩
        · rename_i hwaits
          simp only [not_or, Bool.not_eq_false, Bool.not_eq_true] at hwaits
          obtain ⟨hactive, -, hrequested⟩ := hwaits
          have hstanding : rx.standing = { x.rx.standing with lazy := false } := by
            rw [← hrequested]
            rfl
          refine ⟨heven', ?_⟩
          show Answers x.rx.standing turn rx.standing _
          rw [hstanding, hknown.2]
          exact .asks hchunkless hactive (opening_requestWindow x.rx.id)
      · exact answering_same heven rfl (unasking_emit rfl) hchunkless.awaits
    · rw [if_neg hknown]
      -- another id: passed over when it is not newer, else refused, kept or asked for at once
      have hnew : x.rx.standing.seenOffer = true → x.rx.standing.id ≠ offer.id :=
        fun hseen heq ↦ hknown ⟨hseen, heq.symm⟩
      have heven' : ∀ active lazy : Bool,
          Incoming.Even { Xfer.acceptIdentity offer with active := active, lazy := lazy } :=
        fun _ _ ↦ ⟨rfl, rfl⟩
      split
      · exact answering_same heven rfl unasking_nil hchunkless.awaits
      · extract_lets rx
        split
        · refine ⟨heven' false false, ?_⟩
          rw [backwards_unasking (unasking_emit rfl)]
          exact .takes hturn hnew (.inl rfl) (absurd rfl)
        · split
          · refine ⟨heven' true true, ?_⟩
            rw [backwards_unasking unasking_nil]
            exact .takes hturn hnew (.inl rfl) (absurd rfl)
          · exact ⟨heven' true false, .takes hturn hnew
              (opening_requestWindow offer.id) (fun _ ↦ rfl)⟩

/-- A grant of one credit, if there is room. -/
theorem backwards_grant (id : UInt32) :
    backwards (y, Xfer.rxGrant cap id [] 1) = [] ∨
      backwards (y, Xfer.rxGrant cap id [] 1) = [.credit id 1] := by
  unfold Xfer.rxGrant emit backwards
  by_cases hroom : 0 < cap
  · refine .inr ?_
    simp [hroom, messageOf, Message.backward]
  · refine .inl ?_
    simp [hroom]

/-- A chunk is intact where the transfer awaits it. -/
structure Incoming.Accepts (rx : Incoming) (chunk : ClipChunk) : Prop where
  length : chunk.data.length = chunkLen rx.total rx.nchunks chunk.seq.toNat
  intact : crc32 chunk.data = chunk.crc32

/-- A chunk. -/
theorem answering_handleChunk (heven : x.rx.Even) (chunk : ClipChunk)
    (hturn : turn.brings = some (.chunk chunk))
    (haccepts : x.rx.standing.Awaits chunk → x.rx.Accepts chunk) :
    Answering x turn (x.handleChunk cap chunk) := by
  unfold Xfer.handleChunk
  extract_lets seq source cleared asked stored finished ungranted
  by_cases hguard : x.rx.active = false ∨ x.rx.lazy = true ∨ x.rx.id ≠ chunk.id ∨ x.rx.nchunks ≤ seq
  · rw [if_pos hguard]
    -- a chunk the transfer does not await is dropped, and it asks for nothing
    refine answering_same heven rfl unasking_nil ?_
    intro other hother hawaits
    rw [hturn] at hother
    cases hother
    have hinside : seq < x.rx.nchunks := hawaits.inside
    rcases hguard with hidle | hlazy | hid | hbeyond
    · exact absurd (hawaits.active.symm.trans hidle) Bool.noConfusion
    · exact absurd (hawaits.requested.symm.trans hlazy) Bool.noConfusion
    · exact absurd hawaits.id hid
    · omega
  · rw [if_neg hguard]
    simp only [not_or, Bool.not_eq_false, Bool.not_eq_true, not_not, Nat.not_le] at hguard
    obtain ⟨hactive, hrequested, hid, hinside⟩ := hguard
    have hawaits : x.rx.standing.Awaits chunk := ⟨hactive, hrequested, hid, hinside⟩
    by_cases hhas : seq ∈ x.rx.received
    · rw [if_pos hhas]
      -- a repeat of a stored chunk: only the credit goes back
      have hstores := @Answers.stores _ _ _ x.rx.active _ hturn hawaits
        (@backwards_grant x cap x.rx.id)
      rw [Finset.insert_eq_of_mem (show seq ∈ x.rx.standing.received from hhas)] at hstores
      exact ⟨heven, hstores⟩
    · rw [if_neg hhas]
      -- a new chunk is intact by assumption, so it is stored
      have hgood := haccepts hawaits
      have hintact : ¬ (chunk.data.length ≠ chunkLen x.rx.total x.rx.nchunks seq ∨
          crc32 chunk.data ≠ chunk.crc32) := by
        rw [not_or, not_not, not_not]
        exact ⟨hgood.length, hgood.intact⟩
      rw [if_neg hintact]
      have hcard : x.rx.nreceived + 1 = (insert seq x.rx.received).card := by
        rw [Finset.card_insert_of_notMem hhas, heven.count]
      have hstores : ∀ {active : Bool} {new : List Message},
          (new = [] ∨ new = [.credit x.rx.id 1]) →
          Answers x.rx.standing turn
            { x.rx.standing with
              active := active, received := insert seq x.rx.standing.received } new :=
        fun hnew ↦ .stores hturn hawaits hnew
      cases hfinished : finished with
      | some done =>
          -- the last chunk completes the transfer, and nothing is granted for it
          have hdone : ∃ acts,
            done = ({ stored.rx with active := false, completed := true }, acts) ∧
              Unasking acts := by
            simp only [finished] at hfinished
            split at hfinished
            · unfold Xfer.rxComplete at hfinished
              split at hfinished
              · cases hfinished
                refine ⟨_, rfl, Unasking.emit ?_ rfl⟩
                intro action haction
                rw [List.mem_singleton.1 haction]
                rfl
              · cases hfinished
            · cases hfinished
          obtain ⟨acts, rfl, hacts⟩ := hdone
          refine ⟨⟨heven.ungranted, hcard⟩, ?_⟩
          simp only
          rw [backwards_unasking hacts]
          exact hstores (.inl rfl)
      | none =>
          simp only
          have hungranted : ungranted = 1 := congrArg (· + 1) heven.ungranted
          rw [hungranted, if_pos (by decide)]
          exact ⟨⟨rfl, hcard⟩, hstores (backwards_grant x.rx.id)⟩

/-- A done. -/
theorem answering_handleDone (heven : x.rx.Even) (id : UInt32) (hturn : turn.Chunkless)
    (hall : x.rx.active = true → x.rx.lazy = false → x.rx.id = id →
      x.rx.nchunks ≤ x.rx.nreceived) : Answering x turn (x.handleDone cap id) := by
  unfold Xfer.handleDone
  split
  · exact answering_same heven rfl (unasking_emit rfl) hturn.awaits
  · split
    · exact answering_same heven rfl unasking_nil hturn.awaits
    · rename_i hguard
      simp only [not_or, Bool.not_eq_false, Bool.not_eq_true, not_not] at hguard
      obtain ⟨hactive, hrequested, hid⟩ := hguard
      rw [if_neg (Nat.not_lt.2 (hall hactive hrequested hid))]
      unfold Xfer.rxComplete
      by_cases hroom : ([] : List Action).length < cap
      · rw [if_pos hroom]
        refine answering_stops ⟨heven.ungranted, heven.count⟩ rfl (Unasking.emit ?_ rfl)
        intro action haction
        rw [List.mem_singleton.1 haction]
        rfl
      · rw [if_neg hroom]
        exact answering_same heven rfl unasking_nil hturn.awaits

/-- A turn of the sending direction asks for nothing. -/
theorem unasking_turn (hstraight : x.tx.Straight) (h : turn.about .sending = true) :
    Unasking (x.turn turn).2 := by
  cases turn with
  | call call cap =>
      cases call with
      | offer => exact unasking_emit rfl
      | retryOffer =>
          show Unasking (x.retryOffer cap).2
          unfold Xfer.retryOffer
          split
          · exact unasking_nil
          · split
            · exact unasking_nil
            · intro action haction
              rw [List.mem_singleton.1 haction]
              rfl
      | provide => exact unasking_nil
      | provideFail =>
          show Unasking (x.provideFail cap).2
          unfold Xfer.provideFail
          split
          · exact unasking_nil
          · exact unasking_emit rfl
      | pump =>
          rcases (pump_straight hstraight).2 with ⟨-, hnone⟩ | hpump
          · show Unasking (x.pump cap).2
            rw [hnone]
            exact unasking_nil
          · -- a pump emits chunks, then the done if they were the last
            obtain ⟨count, tail, -, -, -, -, -, -, hacts, htail⟩ := hpump
            show Unasking (x.pump cap).2
            rw [hacts]
            intro action haction
            rcases List.mem_append.1 haction with hchunk | hdone
            · obtain ⟨seq, -, rfl⟩ := List.mem_map.1 hchunk
              rfl
            · rcases htail with rfl | ⟨rfl, -⟩
              · cases hdone
              · rw [List.mem_singleton.1 hdone]
                rfl
      | retryDone =>
          show Unasking (x.retryDone cap)
          unfold Xfer.retryDone
          split
          · exact unasking_emit rfl
          · exact unasking_nil
      | cancelTx =>
          show Unasking (x.cancelTx cap).2
          unfold Xfer.cancelTx
          split
          · exact unasking_emit rfl
          · exact unasking_nil
      | expireTx => exact unasking_nil
      | requestLazy | setRxBuffer | sweepRx | cancelRx | linkDown | rxSealReplaced => cases h
  | message message lazy cap =>
      cases message with
      | request id =>
          show Unasking (x.handleRequest cap id).2
          unfold Xfer.handleRequest
          split
          · exact unasking_nil
          · split
            · exact unasking_emit rfl
            · exact unasking_nil
      | credit => exact unasking_nil
      | retransmit => exact unasking_nil
      | received => exact unasking_nil
      | offer | chunk | done | cancel => cases h

/-- Every turn of the copy side. -/
theorem answering_sending (hstraight : x.tx.Straight) (heven : x.rx.Even)
    (h : turn.about .sending = true) (hturn : turn.Chunkless) :
    Answering x turn (x.turn turn) := by
  have hone : turn.OneDirection := by
    intro hnone
    rw [Turn.about, hnone] at h
    cases h
  have hnot : turn.about .receiving = false := by
    rw [Turn.about, decide_eq_true_eq] at h
    rw [Turn.about, h]
    rfl
  have hrx : (x.turn turn).1.receivingHalf = x.receivingHalf :=
    receiving_owned.other turn hnot hone x
  exact answering_same heven (Prod.mk.inj hrx).1 (unasking_turn hstraight h) hturn.awaits

/-- Every turn that neither sweeps nor forgets keeps the incoming transfer even, if its chunks are
intact and its dones come last. -/
theorem answering_turn (hstraight : x.tx.Straight) (heven : x.rx.Even)
    (hturn : turn.undisturbed = true)
    (haccepts : ∀ chunk, turn.brings = some (.chunk chunk) → x.rx.standing.Awaits chunk →
      x.rx.Accepts chunk)
    (hall : ∀ id, turn.brings = some (.done id) → x.rx.active = true → x.rx.lazy = false →
      x.rx.id = id → x.rx.nchunks ≤ x.rx.nreceived) : Answering x turn (x.turn turn) := by
  cases turn with
  | call call cap =>
      have hchunkless : Turn.Chunkless (.call call cap) := nofun
      cases call with
      | requestLazy id => exact answering_requestLazy heven id hchunkless
      | setRxBuffer rxBuf => exact answering_setRxBuffer heven rxBuf hchunkless
      | cancelRx => exact answering_cancelRx heven hchunkless
      | sweepRx | linkDown | rxSealReplaced => cases hturn
      | offer | retryOffer | provide | provideFail | pump | retryDone | cancelTx | expireTx =>
          exact answering_sending hstraight heven rfl hchunkless
  | message message lazy cap =>
      cases message with
      | offer offer => exact answering_handleOffer heven offer lazy rfl
      | chunk chunk => exact answering_handleChunk heven chunk rfl (haccepts chunk rfl)
      | done id => exact answering_handleDone heven id nofun (hall id rfl)
      | cancel id => exact answering_handleCancel heven id nofun
      | request | credit | retransmit | received =>
          exact answering_sending hstraight heven rfl nofun

end Receiving

end DeskhopPlus.Transfer
