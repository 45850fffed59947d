import DeskhopPlus.Library.Blocks
import DeskhopPlus.Transfer.Steady
import Mathlib.Data.Finset.Card
import Mathlib.Tactic.Convert

/-!
# Machines and ledgers

What ties a machine to the ledgers. The outgoing transfer is one its own ledger records; the
incoming one is known from an offer of the other end's ledger, and every chunk it has received
stands in the buffer as the payload recorded there has it. A transfer with all its chunks then
holds the payload.
-/

namespace DeskhopPlus.Transfer

open Bytes Blocks Wire

/-! ## Chunk arithmetic -/

/-- The chunks of a total that a 32-bit count can number. -/
theorem chunkCount_eq {total : UInt64} (h : total.toNat + chunkSize ≤ 2 ^ 42) :
    chunkCount total = (total.toNat + chunkSize - 1) / chunkSize := by
  simp only [chunkCount, chunkSize] at h ⊢
  omega

theorem chunkLen_eq {total : UInt64} {seq : Nat} (h : total.toNat + chunkSize ≤ 2 ^ 42)
    (hseq : seq < chunkCount total) :
    chunkLen total (chunkCount total) seq = min chunkSize (total.toNat - seq * chunkSize) := by
  have hcount := chunkCount_eq h
  simp only [chunkLen, chunkSize] at h hcount ⊢
  split <;> omega

/-! ## Ledgers -/

/-- Ids name one offer and one payload, and a payload belongs to an offer and has its length. -/
structure Ledger.Consistent (ledger : Ledger) : Prop where
  offers_inj : ∀ first ∈ ledger.offers, ∀ second ∈ ledger.offers,
    first.id = second.id → first = second
  payloads_inj : ∀ first ∈ ledger.payloads, ∀ second ∈ ledger.payloads,
    first.1 = second.1 → first.2 = second.2
  payload_offered : ∀ entry ∈ ledger.payloads, ∃ offer ∈ ledger.offers,
    offer.id = entry.1 ∧ entry.2.length = offer.total.toNat

/-- A ledger that has grown. -/
structure Ledger.Extends (ledger ledger' : Ledger) : Prop where
  offers : ledger.offers ⊆ ledger'.offers
  payloads : ledger.payloads ⊆ ledger'.payloads

theorem Ledger.Extends.refl (ledger : Ledger) : ledger.Extends ledger :=
  ⟨List.Subset.refl _, List.Subset.refl _⟩

/-- A chunk cut from a recorded payload. -/
def Ledger.HasChunk (ledger : Ledger) (chunk : ClipChunk) : Prop :=
  ∃ offer ∈ ledger.offers, ∃ payload, offer.id = chunk.id ∧ (chunk.id, payload) ∈ ledger.payloads ∧
    chunk.seq.toNat < chunkCount offer.total ∧
    chunk.data = (payload.drop (chunk.seq.toNat * chunkSize)).take
      (chunkLen offer.total (chunkCount offer.total) chunk.seq.toNat)

/-- A message that says what the ledger says. Control messages say nothing. -/
def Ledger.Vouches (ledger : Ledger) : Message → Prop
  | .offer offer => offer ∈ ledger.offers
  | .chunk chunk => ledger.HasChunk chunk
  | _ => True

/-- The delivery is of a recorded offer, its payload the recorded one, and no chunk is missing. -/
structure Ledger.Covers (ledger : Ledger) (delivery : Delivery) : Prop where
  offered : ∃ offer ∈ ledger.offers, offer.id = delivery.id ∧ offer.kind = delivery.kind ∧
    offer.total = delivery.total ∧ offer.metadata = delivery.metadata
  whole : delivery.payload.length = delivery.total.toNat
  payload : 0 < delivery.total.toNat → (delivery.id, delivery.payload) ∈ ledger.payloads
  complete : delivery.received = Finset.range delivery.nchunks
  count : delivery.nchunks = chunkCount delivery.total

section Ledgers

variable {ledger ledger' : Ledger}

theorem Ledger.Vouches.mono (hext : ledger.Extends ledger') {message : Message}
    (h : ledger.Vouches message) : ledger'.Vouches message := by
  cases message with
  | offer offer => exact hext.offers h
  | chunk chunk =>
      obtain ⟨offer, hoffer, payload, hid, hpayload, hrest⟩ := h
      exact ⟨offer, hext.offers hoffer, payload, hid, hext.payloads hpayload, hrest⟩
  | _ => trivial

theorem Ledger.Covers.mono (hext : ledger.Extends ledger') {delivery : Delivery}
    (h : ledger.Covers delivery) : ledger'.Covers delivery := by
  obtain ⟨offer, hoffer, hfields⟩ := h.offered
  exact ⟨⟨offer, hext.offers hoffer, hfields⟩, h.whole,
    fun hpos ↦ hext.payloads (h.payload hpos), h.complete, h.count⟩

/-- The payload recorded under the id of an offer has the offer's length. -/
theorem Ledger.Consistent.payload_length (h : ledger.Consistent) {offer : ClipOffer}
    (hoffer : offer ∈ ledger.offers) {payload : List UInt8}
    (hpayload : (offer.id, payload) ∈ ledger.payloads) : payload.length = offer.total.toNat := by
  obtain ⟨other, hother, hid, hlength⟩ := h.payload_offered _ hpayload
  rw [h.offers_inj other hother offer hoffer hid] at hlength
  exact hlength

/-- A new offer under a new id. -/
theorem Ledger.Consistent.offer (h : ledger.Consistent) (offer : ClipOffer)
    (data : Option (List UInt8)) (hfresh : ∀ old ∈ ledger.offers, old.id ≠ offer.id)
    (hdata : ∀ payload ∈ data, payload.length = offer.total.toNat) :
    Ledger.Consistent
      { offers := ledger.offers ++ [offer],
        payloads := ledger.payloads ++ (data.map fun payload ↦ (offer.id, payload)).toList } := by
  have hnew : ∀ entry ∈ ledger.payloads, entry.1 ≠ offer.id := by
    intro entry hentry heq
    obtain ⟨old, hold, hid, _⟩ := h.payload_offered entry hentry
    exact hfresh old hold (hid.trans heq)
  have hentry : ∀ {entry}, entry ∈ ledger.payloads ++
      (data.map fun payload ↦ (offer.id, payload)).toList →
      entry ∈ ledger.payloads ∨ ∃ payload ∈ data, entry = (offer.id, payload) := by
    intro entry hmem
    rcases List.mem_append.1 hmem with hold | hnew
    · exact .inl hold
    · rw [Option.mem_toList] at hnew
      obtain ⟨payload, hpayload, rfl⟩ := Option.map_eq_some_iff.1 hnew
      exact .inr ⟨payload, hpayload, rfl⟩
  refine ⟨?_, ?_, ?_⟩
  · intro first hfirst second hsecond heq
    rcases List.mem_append.1 hfirst with hfirst | hfirst <;>
      rcases List.mem_append.1 hsecond with hsecond | hsecond
    · exact h.offers_inj first hfirst second hsecond heq
    · rw [List.mem_singleton.1 hsecond] at heq
      exact absurd heq (hfresh first hfirst)
    · rw [List.mem_singleton.1 hfirst] at heq
      exact absurd heq.symm (hfresh second hsecond)
    · rw [List.mem_singleton.1 hfirst, List.mem_singleton.1 hsecond]
  · intro first hfirst second hsecond heq
    rcases hentry hfirst with hfirst | ⟨one, hone, rfl⟩ <;>
      rcases hentry hsecond with hsecond | ⟨two, htwo, rfl⟩
    · exact h.payloads_inj first hfirst second hsecond heq
    · exact absurd heq (hnew first hfirst)
    · exact absurd heq.symm (hnew second hsecond)
    · exact Option.some.inj (hone.symm.trans htwo)
  · intro entry hmem
    rcases hentry hmem with hold | ⟨payload, hpayload, rfl⟩
    · obtain ⟨old, hold, hfields⟩ := h.payload_offered entry hold
      exact ⟨old, List.mem_append_left _ hold, hfields⟩
    · exact ⟨offer, by simp, rfl, hdata payload hpayload⟩

/-- A payload for an offer that had none. -/
theorem Ledger.Consistent.provide (h : ledger.Consistent) {offer : ClipOffer}
    (hoffer : offer ∈ ledger.offers) {payload : List UInt8}
    (hlength : payload.length = offer.total.toNat)
    (hnone : ∀ entry ∈ ledger.payloads, entry.1 ≠ offer.id) :
    Ledger.Consistent { ledger with payloads := ledger.payloads ++ [(offer.id, payload)] } := by
  refine ⟨h.offers_inj, ?_, ?_⟩
  · intro first hfirst second hsecond heq
    rcases List.mem_append.1 hfirst with hfirst | hfirst <;>
      rcases List.mem_append.1 hsecond with hsecond | hsecond
    · exact h.payloads_inj first hfirst second hsecond heq
    · rw [List.mem_singleton.1 hsecond] at heq
      exact absurd heq (hnone first hfirst)
    · rw [List.mem_singleton.1 hfirst] at heq
      exact absurd heq.symm (hnone second hsecond)
    · rw [List.mem_singleton.1 hfirst, List.mem_singleton.1 hsecond]
  · intro entry hmem
    rcases List.mem_append.1 hmem with hold | hnew
    · exact h.payload_offered entry hold
    · rw [List.mem_singleton.1 hnew]
      exact ⟨offer, hoffer, rfl, hlength⟩

end Ledgers

/-! ## The outgoing transfer -/

/-- An active outgoing transfer is the one of a recorded offer, and its data the payload recorded
for it; while it has none, none is recorded. -/
structure Outgoing.Backed (tx : Outgoing) (ledger : Ledger) : Prop where
  offered : tx.active = true → ∃ offer ∈ ledger.offers, offer.id = tx.id ∧
    offer.kind = tx.kind ∧ offer.total = tx.total ∧ offer.metadata = tx.metadata ∧
    tx.nchunks = chunkCount tx.total
  data : tx.active = true → ∀ payload ∈ tx.data, (tx.id, payload) ∈ ledger.payloads
  waiting : tx.active = true → tx.data = none → ∀ entry ∈ ledger.payloads, entry.1 ≠ tx.id
  pending : tx.lazyPending = true → tx.data = none

section Sender

variable {ledger : Ledger} {x : Xfer} {tx tx' : Outgoing}

theorem Outgoing.backed_reset : Outgoing.reset.Backed ledger := by
  refine ⟨?_, ?_, ?_, ?_⟩ <;>
    · intro h
      cases h

/-- Only what the transfer is about matters. -/
theorem Outgoing.Backed.kept (h : tx.Backed ledger) (hkept : tx.Kept tx') : tx'.Backed ledger := by
  rcases hkept with ⟨hcore, hpending⟩ | rfl
  · simp only [Outgoing.core, Prod.mk.injEq] at hcore
    obtain ⟨hactive, hid, hkind, hmetadata, hdata, htotal, hnchunks⟩ := hcore
    refine ⟨?_, ?_, ?_, ?_⟩
    · rw [hactive, hid, hkind, hmetadata, htotal, hnchunks]
      exact h.offered
    · rw [hactive, hid, hdata]
      exact h.data
    · rw [hactive, hid, hdata]
      exact h.waiting
    · rcases hpending with hsame | hnone
      · rw [hsame, hdata]
        exact h.pending
      · exact fun _ ↦ hnone
  · exact backed_reset

/-- Whatever is sent is what the ledger says. -/
theorem Outgoing.Backed.vouches (h : x.tx.Backed ledger) {action : Action} {message : Message}
    (hmessage : messageOf x action = some message) : ledger.Vouches message := by
  have hoffer : ∀ {sent}, x.offerInfo.map Message.offer = some sent → ledger.Vouches sent := by
    intro sent hsent
    obtain ⟨info, hinfo, rfl⟩ := Option.map_eq_some_iff.1 hsent
    unfold Xfer.offerInfo at hinfo
    split at hinfo
    · rename_i hactive
      obtain ⟨offer, hmem, hid, hkind, htotal, hmetadata, _⟩ := h.offered hactive
      cases hinfo
      change _ ∈ ledger.offers
      convert hmem using 1
      cases offer
      simp_all
    · cases hinfo
  cases action with
  | sendOffer id => exact hoffer hmessage
  | sendOfferRetry id => exact hoffer hmessage
  | sendChunk id seq =>
      obtain ⟨chunk, hchunk, rfl⟩ := Option.map_eq_some_iff.1 hmessage
      unfold Xfer.chunkAt at hchunk
      split at hchunk
      · cases hchunk
      · rename_i payload hpayload
        split at hchunk
        · cases hchunk
        · rename_i hguard
          rw [not_or, Bool.not_eq_false, not_le] at hguard
          obtain ⟨offer, hmem, hid, _, htotal, _, hnchunks⟩ := h.offered hguard.1
          have hcount : x.tx.nchunks < 2 ^ 32 := by
            rw [hnchunks, chunkCount]
            omega
          have hseq : (UInt32.ofNat seq).toNat = seq := by
            rw [UInt32.toNat_ofNat']
            exact Nat.mod_eq_of_lt (hguard.2.trans hcount)
          cases hchunk
          refine ⟨offer, hmem, payload, hid, h.data hguard.1 payload hpayload, ?_, ?_⟩
          · rw [hseq, htotal, ← hnchunks]
            exact hguard.2
          · simp only [hseq, htotal, ← hnchunks]
  | _ => cases hmessage <;> trivial

end Sender

/-! ## The incoming transfer -/

/-- The incoming transfer is the one of this offer. -/
structure Incoming.Knows (rx : Incoming) (offer : ClipOffer) : Prop where
  id : offer.id = rx.id
  kind : offer.kind = rx.kind
  total : offer.total = rx.total
  nchunks : rx.nchunks = chunkCount rx.total
  metaLen : rx.metaLen = offer.metadata.length
  metadata : rx.metaLen ≤ identityMetaMax → rx.metadata = offer.metadata

/-- The state of a transfer that is arriving. -/
structure Incoming.Arriving (rx : Incoming) (rxBuf : List UInt8) (ledger : Ledger) : Prop where
  seen : rx.seenOffer = true
  fits : rx.total.toNat ≤ rxBuf.length
  metaFits : rx.metaLen ≤ metaMax
  count : rx.nreceived = rx.received.card
  inside : ∀ seq ∈ rx.received, seq < rx.nchunks
  stored : ∀ seq ∈ rx.received, ∃ payload, (rx.id, payload) ∈ ledger.payloads ∧
    Holds chunkSize rxBuf payload seq

/-- What the ledger of the other end says of an incoming transfer. -/
structure Incoming.Backed (rx : Incoming) (rxBuf : List UInt8) (ledger : Ledger) : Prop where
  known : rx.seenOffer = true → ∃ offer ∈ ledger.offers, rx.Knows offer
  arriving : rx.active = true → rx.Arriving rxBuf ledger

section Receiver

variable {ledger ledger' : Ledger} {rx rx' : Incoming} {rxBuf : List UInt8}

theorem Incoming.Backed.mono (hext : ledger.Extends ledger') (h : rx.Backed rxBuf ledger) :
    rx.Backed rxBuf ledger' := by
  refine ⟨?_, ?_⟩
  · intro hseen
    obtain ⟨offer, hoffer, hknows⟩ := h.known hseen
    exact ⟨offer, hext.offers hoffer, hknows⟩
  · intro hactive
    have harriving := h.arriving hactive
    refine { harriving with stored := ?_ }
    intro seq hseq
    obtain ⟨payload, hpayload, hholds⟩ := harriving.stored seq hseq
    exact ⟨payload, hext.payloads hpayload, hholds⟩

/-- Only what the transfer is about matters. -/
theorem Incoming.Backed.kept (h : rx.Backed rxBuf ledger) (hkept : rx.Kept rx') :
    rx'.Backed rxBuf ledger := by
  have hidentity : rx'.identity = rx.identity →
      (rx'.seenOffer = true → ∃ offer ∈ ledger.offers, rx'.Knows offer) := by
    intro heq hseen
    simp only [Incoming.identity, Prod.mk.injEq] at heq
    obtain ⟨hseen', hid, hkind, htotal, hnchunks, hmetaLen, hmetadata⟩ := heq
    obtain ⟨offer, hoffer, hknows⟩ := h.known (hseen' ▸ hseen)
    refine ⟨offer, hoffer, ?_⟩
    exact ⟨hid ▸ hknows.id, hkind ▸ hknows.kind, htotal ▸ hknows.total,
      by rw [hnchunks, htotal]; exact hknows.nchunks, hmetaLen ▸ hknows.metaLen,
      by rw [hmetaLen, hmetadata]; exact hknows.metadata⟩
  rcases hkept with hcore | ⟨hinactive, hknown⟩
  · have hsame : rx'.identity = rx.identity := by
      simp only [Incoming.core, Prod.mk.injEq] at hcore
      exact hcore.2.2.2
    refine ⟨hidentity hsame, ?_⟩
    simp only [Incoming.core, Incoming.identity, Prod.mk.injEq] at hcore
    obtain ⟨hactive, hcount, hreceived, hseen, hid, -, htotal, hnchunks, hmetaLen, -⟩ := hcore
    intro hactive'
    have harriving := h.arriving (hactive ▸ hactive')
    exact ⟨hseen ▸ harriving.seen, htotal ▸ harriving.fits, hmetaLen ▸ harriving.metaFits,
      by rw [hcount, hreceived]; exact harriving.count,
      by rw [hreceived, hnchunks]; exact harriving.inside,
      by rw [hreceived, hid]; exact harriving.stored⟩
  · refine ⟨?_, fun hactive ↦ absurd hactive (by simp [hinactive])⟩
    rcases hknown with hsame | hunseen
    · exact hidentity hsame
    · intro hseen
      exact absurd hseen (by simp [hunseen])

/-- A transfer that has received as many chunks as it has holds the payload. -/
theorem Incoming.Arriving.covers (h : rx.Arriving rxBuf ledger) (hledger : ledger.Consistent)
    (hfits : BufferFits rxBuf) {offer : ClipOffer} (hoffer : offer ∈ ledger.offers)
    (hknows : rx.Knows offer) (hall : rx.nchunks ≤ rx.nreceived) :
    ledger.Covers
      { id := rx.id, kind := rx.kind, total := rx.total, metadata := rx.metadata,
        payload := rxBuf.take rx.total.toNat, nchunks := rx.nchunks, received := rx.received } := by
  have hsmall : rx.total.toNat + chunkSize ≤ 2 ^ 42 := by
    have := h.fits
    have := hfits
    unfold BufferFits at this
    omega
  have hcount := chunkCount_eq hsmall
  rw [← hknows.nchunks] at hcount
  have hreceived : rx.received = Finset.range rx.nchunks := by
    refine Finset.eq_of_subset_of_card_le ?_ ?_
    · intro seq hseq
      exact Finset.mem_range.2 (h.inside seq hseq)
    · rw [Finset.card_range, ← h.count]
      exact hall
  have hmetadata : rx.metadata = offer.metadata := by
    refine hknows.metadata (h.metaFits.trans ?_)
    decide
  refine ⟨⟨offer, hoffer, hknows.id, hknows.kind, hknows.total, hmetadata.symm⟩, ?_, ?_, hreceived,
    hknows.nchunks⟩
  · simp only [List.length_take]
    exact Nat.min_eq_left h.fits
  · intro hpos
    change 0 < rx.total.toNat at hpos
    -- every chunk came from one payload, the one of the first chunk
    have hmem : ∀ seq, seq * chunkSize < rx.total.toNat → seq ∈ rx.received := by
      intro seq hseq
      rw [hreceived, Finset.mem_range, hcount]
      simp only [chunkSize] at hseq ⊢
      omega
    obtain ⟨payload, hpayload, _⟩ := h.stored 0 (hmem 0 (by simpa using hpos))
    have hlength : payload.length = rx.total.toNat := by
      rw [← hknows.total]
      exact hledger.payload_length hoffer (by rw [hknows.id]; exact hpayload)
    have hheld : ∀ seq, seq * chunkSize < payload.length → Holds chunkSize rxBuf payload seq := by
      intro seq hseq
      obtain ⟨other, hother, hholds⟩ := h.stored seq (hmem seq (hlength ▸ hseq))
      have hsame : other = payload := hledger.payloads_inj _ hother _ hpayload rfl
      exact hsame ▸ hholds
    have hbuffer : rxBuf.take rx.total.toNat = payload := by
      rw [← hlength]
      exact take_eq_of_holds hheld
    change (rx.id, rxBuf.take rx.total.toNat) ∈ ledger.payloads
    rw [hbuffer]
    exact hpayload

end Receiver

end DeskhopPlus.Transfer
