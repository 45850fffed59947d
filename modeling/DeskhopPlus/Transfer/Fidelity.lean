import DeskhopPlus.Transfer.Ledger

/-!
# End-to-end fidelity

Over every run of the two machines, whatever an end delivers is what the other end's caller handed
over: an offer of its ledger with its kind, total and metadata, and the payload recorded for it,
byte for byte and with no chunk missing. `delivered_covered` is the theorem.
-/

namespace DeskhopPlus.Transfer

open Bytes Blocks Wire Runs

/-- What an end sends is backed by its ledger. -/
structure Endpoint.Sending (e : Endpoint) : Prop where
  consistent : e.ledger.Consistent
  tx : e.machine.tx.Backed e.ledger
  sent : ∀ message ∈ e.sent, e.ledger.Vouches message

/-- What an end receives and has delivered is backed by the other end's ledger. -/
structure Endpoint.Receiving (e : Endpoint) (ledger : Ledger) : Prop where
  fits : BufferFits e.machine.rxBuf
  rx : e.machine.rx.Backed e.machine.rxBuf ledger
  deliveries : ∀ delivery ∈ e.deliveries, ledger.Covers delivery

/-- Both directions are backed. -/
def Sound (s : Side → Endpoint) : Prop :=
  ∀ side, (s side).Sending ∧ (s side).Receiving (s side.other).ledger

section Endpoints

variable {e : Endpoint} {ledger ledger' : Ledger} {result : Xfer × List Action}

theorem Endpoint.Sending.after (h : e.Sending) (hext : e.ledger.Extends ledger')
    (hconsistent : ledger'.Consistent) (htx : result.1.tx.Backed ledger') :
    (e.after ledger' result).Sending := by
  refine ⟨hconsistent, htx, ?_⟩
  intro message hmessage
  rcases List.mem_append.1 hmessage with hold | hnew
  · exact (h.sent message hold).mono hext
  · obtain ⟨action, _, haction⟩ := List.mem_filterMap.1 hnew
    exact htx.vouches haction

theorem Endpoint.Receiving.after (h : e.Receiving ledger) (hfits : BufferFits result.1.rxBuf)
    (hrx : result.1.rx.Backed result.1.rxBuf ledger)
    (hdelivered : ∀ id, Action.delivered id ∈ result.2 →
      ∀ delivery ∈ deliveryOf result.1 (.delivered id), ledger.Covers delivery) :
    (e.after ledger' result).Receiving ledger := by
  refine ⟨hfits, hrx, ?_⟩
  intro delivery hdelivery
  rcases List.mem_append.1 hdelivery with hold | hnew
  · exact h.deliveries delivery hold
  · obtain ⟨action, hmem, haction⟩ := List.mem_filterMap.1 hnew
    cases action with
    | delivered id => exact hdelivered id hmem delivery haction
    | _ => cases haction

/-- A silent call that leaves the receive side backed. -/
theorem Endpoint.Receiving.silent (h : e.Receiving ledger) (hfits : BufferFits result.1.rxBuf)
    (hrx : result.1.rx.Backed result.1.rxBuf ledger) (hsilent : Silent result.2) :
    (e.after ledger' result).Receiving ledger :=
  h.after hfits hrx fun id hmem ↦ absurd hmem (hsilent id)

theorem Endpoint.Sending.steady (h : e.Sending) (hsteady : Steady e.machine result) :
    (e.after e.ledger result).Sending :=
  h.after (.refl _) h.consistent (h.tx.kept hsteady.tx)

theorem Endpoint.Receiving.steady (h : e.Receiving ledger) (hsteady : Steady e.machine result) :
    (e.after ledger' result).Receiving ledger := by
  refine h.silent ?_ ?_ hsteady.silent
  · rw [hsteady.rxBuf]
    exact h.fits
  · rw [hsteady.rxBuf]
    exact h.rx.kept hsteady.rx

end Endpoints

/-! ## The calls that are not steady -/

section Calls

variable {e : Endpoint} {ledger : Ledger} {cap : Nat}

/-- Offering a payload under a new id. -/
theorem Endpoint.Sending.offer (h : e.Sending) {kind : UInt8} {metadata : List UInt8}
    {metadata_length : metadata.length < 2 ^ 16} {data : Option (List UInt8)} {total : UInt64}
    (hfresh : ∀ offer ∈ e.ledger.offers, offer.id ≠ e.machine.nextId)
    (hdata : ∀ payload ∈ data, payload.length = total.toNat) :
    (e.after (e.ledger.record e.machine (.offer kind metadata metadata_length data total))
      (e.machine.offer cap kind metadata metadata_length data total)).Sending := by
  have hext : e.ledger.Extends
      (e.ledger.record e.machine (.offer kind metadata metadata_length data total)) :=
    ⟨List.subset_append_left _ _, List.subset_append_left _ _⟩
  have hconsistent := h.consistent.offer
    { id := e.machine.nextId, kind, total, metadata, metadata_length } data hfresh hdata
  refine h.after hext hconsistent ⟨?_, ?_, ?_, fun hpending ↦ absurd hpending Bool.false_ne_true⟩
  · intro _
    exact ⟨_, List.mem_append_right _ (List.mem_singleton.2 rfl), rfl, rfl, rfl, rfl, rfl⟩
  · intro _ payload hpayload
    refine List.mem_append_right _ ?_
    rw [Option.mem_toList]
    exact Option.map_eq_some_iff.2 ⟨payload, hpayload, rfl⟩
  · intro _ hnone entry hentry
    -- nothing was recorded with the offer, and the id was not used before
    have hold : entry ∈ e.ledger.payloads := by
      rcases List.mem_append.1 hentry with hold | hnew
      · exact hold
      · rw [show data = none from hnone] at hnew
        cases hnew
    obtain ⟨old, hmem, hid, _⟩ := h.consistent.payload_offered entry hold
    rw [← hid]
    exact hfresh old hmem

/-- Providing the payload an offer left open. -/
theorem Endpoint.Sending.provide (h : e.Sending) {data : List UInt8}
    (hdata : data.length = e.machine.tx.total.toNat) :
    (e.after (e.ledger.record e.machine (.provide data)) (e.machine.provide data, [])).Sending := by
  by_cases hguard : e.machine.tx.active = false ∨ e.machine.tx.lazyPending = false
  · have hledger : e.ledger.record e.machine (.provide data) = e.ledger := if_pos hguard
    have hmachine : e.machine.provide data = e.machine := if_pos hguard
    rw [hledger, hmachine]
    exact h.steady (Xfer.steady_refl silent_nil)
  · have hledger : e.ledger.record e.machine (.provide data) =
        { e.ledger with payloads := e.ledger.payloads ++ [(e.machine.tx.id, data)] } :=
      if_neg hguard
    rw [not_or, Bool.not_eq_false, Bool.not_eq_false] at hguard
    obtain ⟨offer, hoffer, hid, hkind, htotal, hmetadata, hnchunks⟩ := h.tx.offered hguard.1
    have hnone := h.tx.waiting hguard.1 (h.tx.pending hguard.2)
    have hprovide : e.machine.provide data =
        { e.machine with tx := { e.machine.tx with
          data := some data, lazyPending := false } }.txStartStreaming := by
      rw [Xfer.provide, if_neg (by simp [hguard.1, hguard.2])]
    rw [hledger]
    refine h.after ⟨List.Subset.refl _, List.subset_append_left _ _⟩ ?_ ?_
    · rw [← hid]
      exact h.consistent.provide hoffer (by rw [hdata, htotal]) (by rw [hid]; exact hnone)
    · rw [hprovide]
      refine ⟨?_, ?_, ?_, ?_⟩
      · intro _
        exact ⟨offer, hoffer, hid, hkind, htotal, hmetadata, hnchunks⟩
      · intro _ payload hpayload
        cases hpayload
        exact List.mem_append_right _ (List.mem_singleton.2 rfl)
      · intro _ hnone
        cases hnone
      · intro hpending
        cases hpending

/-- An offer of the other end's ledger arrives. -/
theorem Endpoint.Receiving.handleOffer (h : e.Receiving ledger) {offer : ClipOffer}
    (hoffer : offer ∈ ledger.offers) (lazy : Bool) :
    (e.after e.ledger (e.machine.handleOffer cap offer lazy)).Receiving ledger := by
  have hknows : (Xfer.acceptIdentity offer).Knows offer := by
    refine ⟨rfl, rfl, rfl, rfl, rfl, ?_⟩
    intro hle
    exact if_pos hle
  have hfresh : ∀ {lazy}, offer.total.toNat ≤ e.machine.rxBuf.length →
      offer.metadata.length ≤ metaMax →
      Incoming.Backed { Xfer.acceptIdentity offer with active := true, lazy := lazy }
        e.machine.rxBuf ledger := by
    intro lazy htotal hmeta
    refine ⟨fun _ ↦ ⟨offer, hoffer, ⟨rfl, rfl, rfl, rfl, rfl, hknows.metadata⟩⟩, fun _ ↦ ?_⟩
    exact ⟨rfl, htotal, hmeta, rfl, fun seq hseq ↦ absurd hseq (Finset.notMem_empty seq),
      fun seq hseq ↦ absurd hseq (Finset.notMem_empty seq)⟩
  unfold Xfer.handleOffer
  split
  · exact h.steady (Xfer.steady_refl (silent_emit (by simp)))
  · split
    · split
      · simp only
        split
        · exact h.steady (Xfer.steady_rx (.inl rfl) silent_nil)
        · exact h.steady (Xfer.steady_rx (.inl rfl) (Xfer.requestWindow_silent _))
      · exact h.steady (Xfer.steady_refl (silent_emit (by simp)))
    · split
      · exact h.steady (Xfer.steady_refl silent_nil)
      · simp only
        split
        · refine h.silent h.fits ?_ (silent_emit (by simp))
          exact ⟨fun _ ↦ ⟨offer, hoffer, hknows⟩, fun hactive ↦ absurd hactive Bool.false_ne_true⟩
        · rename_i hguard
          simp only [not_or, not_lt] at hguard
          split
          · exact h.silent h.fits (hfresh hguard.1 hguard.2.2) silent_nil
          · exact h.silent h.fits (hfresh hguard.1 hguard.2.2) (Xfer.requestWindow_silent _)

/-- The transfer after a chunk of the other end's payload is stored. -/
theorem storeChunk_arriving {x : Xfer} (hledger : ledger.Consistent) (hfits : BufferFits x.rxBuf)
    (h : x.rx.Arriving x.rxBuf ledger) {offer : ClipOffer} (hoffer : offer ∈ ledger.offers)
    (hknows : x.rx.Knows offer) {chunk : ClipChunk} (hchunk : ledger.HasChunk chunk)
    (hid : x.rx.id = chunk.id) (hnew : chunk.seq.toNat ∉ x.rx.received) :
    (x.storeChunk chunk).rx.Arriving (x.storeChunk chunk).rxBuf ledger ∧
      (x.storeChunk chunk).rxBuf.length = x.rxBuf.length := by
  obtain ⟨origin, horigin, payload, hchunkid, hpayload, hseq, hdata⟩ := hchunk
  -- one id, one offer: the chunk was cut from the payload that is awaited
  have hsame : origin = offer := by
    refine hledger.offers_inj origin horigin offer hoffer ?_
    rw [hchunkid, hknows.id, hid]
  subst hsame
  have hsmall : origin.total.toNat + chunkSize ≤ 2 ^ 42 := by
    have hcap := h.fits
    rw [← hknows.total] at hcap
    unfold BufferFits at hfits
    omega
  have hlength : payload.length = origin.total.toNat :=
    hledger.payload_length horigin (by rw [hchunkid]; exact hpayload)
  have hblock : chunk.data = block chunkSize payload chunk.seq.toNat := by
    rw [hdata, chunkLen_eq hsmall hseq, block, ← hlength, ← List.length_drop, List.take_eq_take_min,
      Nat.min_assoc, Nat.min_self, ← List.take_eq_take_min]
  have hinside : chunk.seq.toNat * chunkSize < origin.total.toNat := by
    rw [chunkCount_eq hsmall] at hseq
    simp only [chunkSize] at hseq ⊢
    omega
  have hplace : chunk.seq.toNat * chunkSize ≤ x.rxBuf.length := by
    have := h.fits
    rw [← hknows.total] at this
    omega
  have hend : chunk.seq.toNat * chunkSize + chunk.data.length ≤ x.rxBuf.length := by
    have hcap := h.fits
    rw [← hknows.total] at hcap
    rw [hblock, block, List.length_take, List.length_drop, hlength]
    omega
  -- the block lies inside the buffer, so its length stays
  have hbuffer : (x.storeChunk chunk).rxBuf.length = x.rxBuf.length := overwrite_length hend
  refine ⟨⟨h.seen, ?_, h.metaFits, ?_, ?_, ?_⟩, hbuffer⟩
  · rw [hbuffer]
    exact h.fits
  · change x.rx.nreceived + 1 = (insert chunk.seq.toNat x.rx.received).card
    rw [Finset.card_insert_of_notMem hnew, h.count]
  · intro seq hmem
    rcases Finset.mem_insert.1 hmem with rfl | hold
    · change chunk.seq.toNat < x.rx.nchunks
      rw [hknows.nchunks, ← hknows.total]
      exact hseq
    · exact h.inside seq hold
  · intro seq hmem
    change ∃ payload, (x.rx.id, payload) ∈ ledger.payloads ∧
      Holds chunkSize (overwrite x.rxBuf (chunk.seq.toNat * chunkSize) chunk.data) payload seq
    rw [hblock]
    rcases Finset.mem_insert.1 hmem with rfl | hold
    · exact ⟨payload, by rw [hid]; exact hpayload, holds_overwrite (by decide) hplace⟩
    · obtain ⟨other, hother, hholds⟩ := h.stored seq hold
      have heq : other = payload :=
        hledger.payloads_inj _ hother _ hpayload hid
      subst heq
      refine ⟨other, hother, hholds.overwrite_other hplace ?_⟩
      rintro rfl
      exact hnew hold

/-- Completing a transfer that has all its chunks delivers the payload. -/
theorem Endpoint.Receiving.complete {x : Xfer} (h : e.Receiving ledger)
    (hledger : ledger.Consistent) (hfits : BufferFits x.rxBuf) (hrx : x.rx.Backed x.rxBuf ledger)
    (hactive : x.rx.active = true) (hall : x.rx.nchunks ≤ x.rx.nreceived) {rx : Incoming}
    {acts : List Action} (hcomplete : Xfer.rxComplete cap x.rx [] = some (rx, acts)) :
    (e.after e.ledger ({ x with rx := rx }, acts)).Receiving ledger := by
  have harriving := hrx.arriving hactive
  obtain ⟨offer, hoffer, hknows⟩ := hrx.known harriving.seen
  unfold Xfer.rxComplete at hcomplete
  split at hcomplete
  · cases hcomplete
    refine h.after hfits (hrx.kept (.inr ⟨rfl, .inl rfl⟩)) ?_
    intro id hmem delivery hdelivery
    have hid : id = x.rx.id := by
      unfold emit at hmem
      split at hmem <;> simpa using hmem
    cases hdelivery
    subst hid
    exact harriving.covers hledger hfits hoffer hknows hall
  · cases hcomplete

/-- A chunk of the other end's payload arrives. -/
theorem Endpoint.Receiving.handleChunk (h : e.Receiving ledger) (hledger : ledger.Consistent)
    {chunk : ClipChunk} (hchunk : ledger.HasChunk chunk) :
    (e.after e.ledger (e.machine.handleChunk cap chunk)).Receiving ledger := by
  unfold Xfer.handleChunk
  simp only
  split
  · exact h.steady (Xfer.steady_refl silent_nil)
  · rename_i hguard
    simp only [not_or, Bool.not_eq_false, not_not] at hguard
    split
    · exact h.steady (Xfer.steady_refl (Xfer.rxGrant_silent silent_nil _ _))
    · rename_i hnew
      split
      · refine h.steady (Xfer.steady_sweep (Xfer.rxRequestChunk_from ?_ _ _) _)
        exact ⟨rfl, silent_nil⟩
      · -- the chunk is stored, and may be the last
        have harriving := h.rx.arriving hguard.1
        obtain ⟨offer, hoffer, hknows⟩ := h.rx.known harriving.seen
        obtain ⟨hstored, hlength⟩ := storeChunk_arriving hledger h.fits harriving hoffer hknows
          hchunk hguard.2.2.1 hnew
        have hfits : BufferFits (e.machine.storeChunk chunk).rxBuf := by
          unfold BufferFits
          rw [hlength]
          exact h.fits
        have hbacked : (e.machine.storeChunk chunk).rx.Backed
            (e.machine.storeChunk chunk).rxBuf ledger :=
          ⟨fun _ ↦ ⟨offer, hoffer, ⟨hknows.id, hknows.kind, hknows.total, hknows.nchunks,
            hknows.metaLen, hknows.metadata⟩⟩, fun _ ↦ hstored⟩
        split
        · rename_i rx acts hfinished
          split at hfinished
          · rename_i hall
            exact h.complete hledger hfits hbacked hguard.1 hall hfinished
          · cases hfinished
        · split
          · exact h.silent hfits (hbacked.kept (.inl rfl)) (Xfer.rxGrant_silent silent_nil _ _)
          · exact h.silent hfits (hbacked.kept (.inl rfl)) silent_nil

/-- The other end says it has sent everything. -/
theorem Endpoint.Receiving.handleDone (h : e.Receiving ledger) (hledger : ledger.Consistent)
    (id : UInt32) : (e.after e.ledger (e.machine.handleDone cap id)).Receiving ledger := by
  unfold Xfer.handleDone
  split
  · exact h.steady (Xfer.steady_refl (silent_emit (by simp)))
  · split
    · exact h.steady (Xfer.steady_refl silent_nil)
    · rename_i hguard
      simp only [not_or, Bool.not_eq_false] at hguard
      split
      · refine h.steady (Xfer.steady_sweep (Xfer.rxSweepRange_from ?_ _ _) _)
        exact ⟨rfl, silent_nil⟩
      · rename_i hall
        split
        · rename_i rx acts hcomplete
          exact h.complete hledger h.fits h.rx hguard.1 (not_lt.1 hall) hcomplete
        · exact h.steady (Xfer.steady_refl silent_nil)

end Calls

/-! ## Steps and runs -/

section Steps

variable {s : Side → Endpoint} {side : Side} {e : Endpoint}

theorem Side.other_ne (side : Side) : side.other ≠ side := by
  cases side <;> decide

theorem Side.eq_other_of_ne {side other : Side} (h : other ≠ side) : other = side.other := by
  revert h
  cases side <;> cases other <;> decide

theorem Side.other_other (side : Side) : side.other.other = side := by
  cases side <;> rfl

theorem Ledger.extends_record (ledger : Ledger) (x : Xfer) (call : Call) :
    ledger.Extends (ledger.record x call) := by
  cases call with
  | offer kind metadata metadata_length data total =>
      exact ⟨List.subset_append_left _ _, List.subset_append_left _ _⟩
  | provide data =>
      simp only [Ledger.record]
      split
      · exact .refl _
      · exact ⟨List.Subset.refl _, List.subset_append_left _ _⟩
  | _ => exact .refl _

/-- One end moves. The other only sees its ledger grow. -/
theorem Sound.update (h : Sound s) (hsending : e.Sending)
    (hreceiving : e.Receiving (s side.other).ledger) (hext : (s side).ledger.Extends e.ledger) :
    Sound (Function.update s side e) := by
  intro other
  by_cases hsame : other = side
  · subst hsame
    rw [Function.update_self, Function.update_of_ne (Side.other_ne other)]
    exact ⟨hsending, hreceiving⟩
  · have hother := Side.eq_other_of_ne hsame
    subst hother
    rw [Function.update_of_ne hsame, Side.other_other, Function.update_self]
    obtain ⟨hsend, hreceive⟩ := h side.other
    rw [Side.other_other] at hreceive
    exact ⟨hsend, hreceive.fits, hreceive.rx.mono hext,
      fun delivery hdelivery ↦ (hreceive.deliveries delivery hdelivery).mono hext⟩

/-- A steady call. -/
theorem Sound.steady (h : Sound s) {result : Xfer × List Action}
    (hsteady : Steady (s side).machine result) :
    Sound (Function.update s side ((s side).after (s side).ledger result)) :=
  h.update ((h side).1.steady hsteady) ((h side).2.steady hsteady) (.refl _)

/-- A call of a caller. -/
theorem Sound.call (h : Sound s) (call : Call) (cap : Nat) (hmeets : call.Meets (s side).machine)
    (hfresh : FreshOffer s (.call side call cap)) (hfit : BuffersFit s (.call side call cap)) :
    Sound (Function.update s side ((s side).after ((s side).ledger.record (s side).machine call)
      ((s side).machine.perform cap call))) := by
  obtain ⟨hsend, hreceive⟩ := h side
  have hext := (s side).ledger.extends_record (s side).machine call
  cases call with
  | offer kind metadata metadata_length data total =>
      refine h.update (hsend.offer hfresh hmeets) ?_ hext
      exact hreceive.silent hreceive.fits hreceive.rx (silent_emit (by simp))
  | provide data =>
      refine h.update (hsend.provide hmeets) ?_ hext
      simp only [Xfer.perform, Xfer.provide]
      split
      · exact hreceive.silent hreceive.fits hreceive.rx silent_nil
      · exact hreceive.silent hreceive.fits hreceive.rx silent_nil
  | setRxBuffer rxBuf =>
      simp only [Xfer.perform, Xfer.setRxBuffer, Ledger.record]
      split
      · exact h.steady (Xfer.steady_refl silent_nil)
      · split
        · exact h.steady (Xfer.steady_refl silent_nil)
        · rename_i hidle
          refine h.update (hsend.after (.refl _) hsend.consistent hsend.tx) ?_ (.refl _)
          refine hreceive.silent hfit ⟨hreceive.rx.known, ?_⟩ silent_nil
          intro hactive
          exact absurd hactive hidle
  | retryOffer => exact h.steady Xfer.retryOffer_steady
  | provideFail => exact h.steady Xfer.provideFail_steady
  | pump => exact h.steady Xfer.pump_steady
  | retryDone => exact h.steady Xfer.retryDone_steady
  | cancelTx => exact h.steady Xfer.cancelTx_steady
  | expireTx => exact h.steady Xfer.expireTx_steady
  | requestLazy id => exact h.steady (Xfer.requestLazy_steady id)
  | sweepRx => exact h.steady Xfer.sweepRx_steady
  | cancelRx => exact h.steady Xfer.cancelRx_steady
  | linkDown => exact h.steady Xfer.linkDown_steady
  | rxSealReplaced => exact h.steady Xfer.rxSealReplaced_steady

/-- A message the other end has sent arrives. -/
theorem Sound.handle (h : Sound s) (cap : Nat) (lazy : Bool) {message : Message}
    (hsent : message ∈ (s side.other).sent) :
    Sound (Function.update s side
      ((s side).after (s side).ledger ((s side).machine.handle cap lazy message))) := by
  obtain ⟨hsend, hreceive⟩ := h side
  have hpeer := (h side.other).1
  have hvouched := hpeer.sent message hsent
  have hkeeps : ∀ {result : Xfer × List Action}, result.1.tx = (s side).machine.tx →
      ((s side).after (s side).ledger result).Sending := by
    intro result htx
    exact hsend.after (.refl _) hsend.consistent (by rw [htx]; exact hsend.tx)
  cases message with
  | offer offer =>
      exact h.update (hkeeps (Xfer.handleOffer_tx offer lazy))
        (hreceive.handleOffer hvouched lazy) (.refl _)
  | chunk chunk =>
      exact h.update (hkeeps (Xfer.handleChunk_tx chunk))
        (hreceive.handleChunk hpeer.consistent hvouched) (.refl _)
  | done id =>
      exact h.update (hkeeps (Xfer.handleDone_tx id))
        (hreceive.handleDone hpeer.consistent id) (.refl _)
  | request id => exact h.steady (Xfer.handleRequest_steady id)
  | credit id credits => exact h.steady (Xfer.handleCredit_steady id credits)
  | retransmit id seq => exact h.steady (Xfer.handleRetransmit_steady id seq)
  | received id => exact h.steady (Xfer.handleReceived_steady id)
  | cancel id => exact h.steady (Xfer.handleCancel_steady id)

/-- Every event with a fresh offer id and a buffer that fits keeps both directions backed. -/
theorem Sound.step (h : Sound s) (event : TransferEvent) (hfresh : FreshOffer s event)
    (hfit : BuffersFit s event) : Sound (transferStep s event) := by
  cases event with
  | call side call cap =>
      simp only [transferStep]
      split
      · rename_i hmeets
        exact h.call call cap hmeets hfresh hfit
      · exact h
  | deliver side index lazy cap =>
      simp only [transferStep]
      split
      · exact h
      · rename_i message hmessage
        exact h.handle cap lazy (List.mem_of_getElem? hmessage)

end Steps

/-- Two ends that have just started are backed by their empty ledgers. -/
theorem sound_init {rxBufs : Side → List UInt8} (hfits : ∀ side, BufferFits (rxBufs side)) :
    Sound fun side ↦ Endpoint.init (rxBufs side) := by
  intro side
  refine ⟨⟨⟨?_, ?_, ?_⟩, Outgoing.backed_reset, ?_⟩, hfits side, ⟨?_, ?_⟩, ?_⟩
  · intro first hfirst
    cases hfirst
  · intro first hfirst
    cases hfirst
  · intro entry hentry
    cases hentry
  · intro message hmessage
    cases hmessage
  · intro hseen
    cases hseen
  · intro hactive
    cases hactive
  · intro delivery hdelivery
    cases hdelivery

/-- End-to-end fidelity. Whatever an end delivers, over any run with fresh offer ids and buffers
that fit, is covered by the other end's ledger, and nothing else is recorded under its id. -/
theorem delivered_covered {rxBufs : Side → List UInt8} (hfits : ∀ side, BufferFits (rxBufs side))
    {events : List TransferEvent}
    (hfresh : Along transferStep FreshOffer (fun side ↦ Endpoint.init (rxBufs side)) events)
    (hbuffers : Along transferStep BuffersFit (fun side ↦ Endpoint.init (rxBufs side)) events)
    {s : Side → Endpoint}
    (hrun : s = run transferStep (fun side ↦ Endpoint.init (rxBufs side)) events) (side : Side) :
    ∀ delivery ∈ (s side).deliveries, (s side.other).ledger.Covers delivery ∧
      (∀ payload, (delivery.id, payload) ∈ (s side.other).ledger.payloads →
        payload = delivery.payload) ∧
      ∀ offer ∈ (s side.other).ledger.offers, offer.id = delivery.id →
        offer.kind = delivery.kind ∧ offer.total = delivery.total ∧
          offer.metadata = delivery.metadata := by
  have hsound : Sound s := by
    rw [hrun]
    exact run_invariant_along Sound (sound_init hfits)
      (fun _ event h hstep ↦ h.step event hstep.1 hstep.2) (hfresh.and hbuffers)
  intro delivery hdelivery
  have hcovers := (hsound side).2.deliveries delivery hdelivery
  have hledger := (hsound side.other).1.consistent
  obtain ⟨offer, hoffer, hid, hkind, htotal, hmetadata⟩ := hcovers.offered
  refine ⟨hcovers, ?_, ?_⟩
  · intro payload hpayload
    have hlength : payload.length = delivery.total.toNat := by
      rw [← htotal]
      exact hledger.payload_length hoffer (by rw [hid]; exact hpayload)
    rcases Nat.eq_zero_or_pos delivery.total.toNat with hzero | hpos
    · rw [List.eq_nil_of_length_eq_zero (hlength.trans hzero),
        List.eq_nil_of_length_eq_zero (hcovers.whole.trans hzero)]
    · exact hledger.payloads_inj _ hpayload _ (hcovers.payload hpos) rfl
  · intro other hother hsame
    rw [hledger.offers_inj other hother offer hoffer (hsame.trans hid.symm)]
    exact ⟨hkind, htotal, hmetadata⟩

/-- Two bytes offered, requested, pumped and stored. -/
def greetingRun : List TransferEvent :=
  [.call .a (.offer 0 [7] (by decide) (some [0x68, 0x69]) 2) 18, .deliver .b 0 false 18,
    .deliver .a 0 false 18, .deliver .a 1 false 18, .call .a .pump 18, .deliver .b 1 false 18]

/-- A payload of two bytes is offered, sent and delivered as it was. -/
theorem delivered_covered_greeting :
    (run transferStep (fun _ ↦ Endpoint.init [0, 0, 0, 0]) greetingRun .b).deliveries =
        [{ id := 1, kind := 0, total := 2, metadata := [7], payload := [0x68, 0x69], nchunks := 1,
           received := {0} }] ∧
      ∀ delivery ∈ (run transferStep (fun _ ↦ Endpoint.init [0, 0, 0, 0]) greetingRun
        .b).deliveries,
        (run transferStep (fun _ ↦ Endpoint.init [0, 0, 0, 0]) greetingRun .a).ledger.Covers
          delivery := by
  refine ⟨by decide, ?_⟩
  intro delivery hdelivery
  exact (delivered_covered (fun _ ↦ by decide) (by decide) (by decide) rfl .b
    delivery hdelivery).1

end DeskhopPlus.Transfer
