import DeskhopPlus.Transfer.Fidelity

/-!
# Ids that come round, and a count cut short

What fidelity rests on beyond the code. `nextId` skips nothing but the zero, so over every run an
id comes back only after all the others, `offers_apart`. It does come back, and a chunk that has
stayed in the network since is then one of the new payload, `reused_id_mixes`; and a receive buffer
of 2^42 bytes takes an offer whose chunks are counted as none, `uncounted_chunks_deliver`.
-/

namespace DeskhopPlus.Transfer

open Bytes Wire Runs

/-! ## The ids of the offers -/

/-- The id given after so many offers. -/
def idAfter (count : Nat) : UInt32 := UInt32.ofNat (count % (2 ^ 32 - 1) + 1)

theorem idAfter_toNat (count : Nat) : (idAfter count).toNat = count % (2 ^ 32 - 1) + 1 := by
  rw [idAfter, UInt32.toNat_ofNat', Nat.mod_eq_of_lt (by omega)]

/-- The increment of `dh_xfer_offer`, which skips the zero. -/
theorem idAfter_succ (count : Nat) :
    idAfter (count + 1) = if idAfter count + 1 = 0 then 1 else idAfter count + 1 := by
  have hsum : (idAfter count + 1).toNat = (count % (2 ^ 32 - 1) + 2) % 2 ^ 32 := by
    rw [UInt32.toNat_add, idAfter_toNat, UInt32.toNat_one]
  apply UInt32.toNat.inj
  rw [idAfter_toNat]
  split
  · rename_i hzero
    rw [hzero, UInt32.toNat_zero] at hsum
    rw [UInt32.toNat_one]
    omega
  · rename_i hpos
    have hne : (idAfter count + 1).toNat ≠ 0 := fun hzero ↦ hpos (UInt32.toNat.inj hzero)
    rw [hsum] at hne ⊢
    omega

/-- Equal ids are given at least half the serial space apart. -/
theorem idAfter_apart {first second : Nat} (hlt : first < second)
    (heq : idAfter first = idAfter second) : first + 2 ^ 31 ≤ second := by
  have hnat := congrArg UInt32.toNat heq
  rw [idAfter_toNat, idAfter_toNat] at hnat
  omega

/-- A call that offers nothing keeps the id that is due. -/
theorem Xfer.perform_nextId (x : Xfer) (cap : Nat) {call : Call}
    (hcall : ∀ kind metadata metadata_length data total,
      call ≠ .offer kind metadata metadata_length data total) :
    (x.perform cap call).1.nextId = x.nextId := by
  cases call with
  | offer kind metadata metadata_length data total => exact absurd rfl (hcall _ _ _ _ _)
  | linkDown =>
      change (if x.tx.active = true then _ else _ : Xfer × List Action).1.nextId = x.nextId
      split <;> rfl
  | _ =>
      simp only [perform, retryOffer, provide, provideFail, pump, cancelTx, expireTx, requestLazy,
        setRxBuffer, sweepRx, cancelRx, rxSealReplaced, rxAbandon]
      repeat' split
      all_goals rfl

/-- No other call puts an offer into the ledger. -/
theorem Ledger.record_offers (ledger : Ledger) (x : Xfer) {call : Call}
    (hcall : ∀ kind metadata metadata_length data total,
      call ≠ .offer kind metadata metadata_length data total) :
    (ledger.record x call).offers = ledger.offers := by
  cases call with
  | offer kind metadata metadata_length data total => exact absurd rfl (hcall _ _ _ _ _)
  | provide data =>
      simp only [record]
      split <;> rfl
  | _ => rfl

/-- So does a message. -/
theorem Xfer.handle_nextId (x : Xfer) (cap : Nat) (lazy : Bool) (message : Message) :
    (x.handle cap lazy message).1.nextId = x.nextId := by
  cases message <;>
    simp only [handle, handleOffer, handleRequest, handleChunk, handleCredit, handleRetransmit,
      handleDone, handleReceived, handleCancel]
  all_goals
    repeat' split
  all_goals rfl

/-- These offers bear the ids in their order, and this one is due. -/
structure Numbered (offers : List ClipOffer) (nextId : UInt32) : Prop where
  ids : offers.map (·.id) = (List.range offers.length).map idAfter
  next : nextId = idAfter offers.length

theorem Numbered.snoc {offers : List ClipOffer} {nextId : UInt32} (h : Numbered offers nextId)
    {offer : ClipOffer} (hid : offer.id = nextId) :
    Numbered (offers ++ [offer]) (if nextId + 1 = 0 then 1 else nextId + 1) := by
  refine ⟨?_, ?_⟩
  · rw [List.map_append, h.ids, List.length_append, List.length_singleton, List.range_succ,
      List.map_append, List.map_singleton, List.map_singleton, hid, h.next]
  · rw [List.length_append, List.length_singleton, idAfter_succ, h.next]

/-- An end whose offers are numbered. -/
def Endpoint.Numbers (e : Endpoint) : Prop := Numbered e.ledger.offers e.machine.nextId

theorem Endpoint.Numbers.call {e : Endpoint} (h : e.Numbers) (cap : Nat) (call : Call) :
    (e.after (e.ledger.record e.machine call) (e.machine.perform cap call)).Numbers := by
  by_cases hoffer : ∃ kind metadata metadata_length data total,
      call = .offer kind metadata metadata_length data total
  · obtain ⟨kind, metadata, metadata_length, data, total, rfl⟩ := hoffer
    exact h.snoc rfl
  · have hcall : ∀ kind metadata metadata_length data total,
        call ≠ .offer kind metadata metadata_length data total :=
      fun _ _ _ _ _ heq ↦ hoffer ⟨_, _, _, _, _, heq⟩
    unfold Numbers at h
    rw [← e.machine.perform_nextId cap hcall, ← e.ledger.record_offers e.machine hcall] at h
    exact h

theorem Endpoint.Numbers.handle {e : Endpoint} (h : e.Numbers) (cap : Nat) (lazy : Bool)
    (message : Message) : (e.after e.ledger (e.machine.handle cap lazy message)).Numbers := by
  unfold Numbers at h
  rw [← e.machine.handle_nextId cap lazy message] at h
  exact h

/-- Both ends are numbered. -/
def Numbering (s : Side → Endpoint) : Prop := ∀ side, (s side).Numbers

theorem Numbering.step {s : Side → Endpoint} (h : Numbering s) (event : TransferEvent) :
    Numbering (transferStep s event) := by
  have hupdate : ∀ (moved : Side) (e : Endpoint), e.Numbers →
      Numbering (Function.update s moved e) := by
    intro moved e he side
    by_cases hsame : side = moved
    · rw [hsame, Function.update_self]
      exact he
    · rw [Function.update_of_ne hsame]
      exact h side
  cases event with
  | call moved call cap =>
      simp only [transferStep]
      split
      · exact hupdate moved _ ((h moved).call cap call)
      · exact h
  | deliver moved index lazy cap =>
      simp only [transferStep]
      split
      · exact h
      · exact hupdate moved _ ((h moved).handle cap lazy _)

/-- No two offers with one id stand within half the serial space of each other. -/
def HalfApart (offers : List ClipOffer) : Prop :=
  ∀ first second, first < second → second < offers.length →
    offers[first]?.map (·.id) = offers[second]?.map (·.id) → first + 2 ^ 31 ≤ second

theorem Numbered.halfApart {offers : List ClipOffer} {nextId : UInt32}
    (h : Numbered offers nextId) : HalfApart offers := by
  have hid : ∀ index, index < offers.length →
      offers[index]?.map (·.id) = some (idAfter index) := by
    intro index hindex
    rw [← List.getElem?_map, h.ids, List.getElem?_map, List.getElem?_range hindex]
    rfl
  intro first second hlt hlength heq
  rw [hid first (hlt.trans hlength), hid second hlength] at heq
  exact idAfter_apart hlt (Option.some.inj heq)

/-- Offer ids are not reused within half the serial space, whatever the ends are asked to do. -/
theorem offers_apart (rxBufs : Side → List UInt8) (events : List TransferEvent) (side : Side) :
    HalfApart (run transferStep (fun side ↦ Endpoint.init (rxBufs side)) events
      side).ledger.offers := by
  have hnumbers : Numbering (run transferStep (fun side ↦ Endpoint.init (rxBufs side)) events) :=
    run_invariant Numbering (fun _ ↦ ⟨rfl, rfl⟩) (fun _ event h ↦ h.step event) events
  exact (hnumbers side).halfApart

/-! ## An id that comes round -/

/-- A ledger without the offers. -/
def Ledger.unoffered (ledger : Ledger) : Ledger := { ledger with offers := [] }

/-- An end without the offers its caller has recorded. -/
def Endpoint.unoffered (e : Endpoint) : Endpoint := { e with ledger := e.ledger.unoffered }

/-- The ends without the offers their callers have recorded. -/
def unoffered (s : Side → Endpoint) : Side → Endpoint := fun side ↦ (s side).unoffered

/-- A step without the record of the offers. -/
def unofferedStep (s : Side → Endpoint) (event : TransferEvent) : Side → Endpoint :=
  unoffered (transferStep s event)

theorem Ledger.unoffered_record (ledger : Ledger) (x : Xfer) (call : Call) :
    (ledger.record x call).unoffered = (ledger.unoffered.record x call).unoffered := by
  cases call with
  | provide data =>
      simp only [record]
      split <;> rfl
  | _ => rfl

theorem Endpoint.unoffered_after (e : Endpoint) {ledger ledger' : Ledger}
    (h : ledger.unoffered = ledger'.unoffered) (result : Xfer × List Action) :
    (e.after ledger result).unoffered = (e.unoffered.after ledger' result).unoffered := by
  unfold unoffered after
  rw [h]

theorem unoffered_update (s : Side → Endpoint) (side : Side) (e : Endpoint) :
    unoffered (Function.update s side e) = Function.update (unoffered s) side e.unoffered := by
  funext each
  by_cases hsame : each = side
  · rw [hsame, Function.update_self, unoffered, Function.update_self]
  · rw [Function.update_of_ne hsame, unoffered, Function.update_of_ne hsame, unoffered]

/-- The record of the offers decides nothing. -/
theorem unoffered_step (s : Side → Endpoint) (event : TransferEvent) :
    unoffered (transferStep s event) = unofferedStep (unoffered s) event := by
  have hidem : unoffered (unoffered s) = unoffered s := rfl
  unfold unofferedStep
  cases event with
  | call side call cap =>
      by_cases hmeets : call.Meets (s side).machine
      · have hmeets' : call.Meets (unoffered s side).machine := hmeets
        simp only [transferStep, if_pos hmeets, if_pos hmeets', unoffered_update, hidem]
        rw [Endpoint.unoffered_after _ (Ledger.unoffered_record ..)]
        rfl
      · have hmeets' : ¬call.Meets (unoffered s side).machine := hmeets
        simp only [transferStep, if_neg hmeets, if_neg hmeets', hidem]
  | deliver side index lazy cap =>
      have hsent : (unoffered s side.other).sent = (s side.other).sent := rfl
      simp only [transferStep, hsent]
      split
      · rfl
      · rw [unoffered_update, unoffered_update]
        rfl

theorem unoffered_run (s : Side → Endpoint) (events : List TransferEvent) :
    unoffered (run transferStep s events) = run unofferedStep (unoffered s) events := by
  induction events generalizing s with
  | nil => rfl
  | cons event rest ih => rw [run_cons, run_cons, ih, unoffered_step]

/-- An offer of nothing that finds no room for its message. -/
def unheardOffer : TransferEvent := .call .a (.offer 0 [] noMetadata_fits none 0) 0

/-- An end after it has made the offer of this number unheard. -/
def Endpoint.unheard (e : Endpoint) (count : Nat) : Endpoint :=
  { e with
    machine :=
      { e.machine with
        tx := { Outgoing.reset with active := true, id := idAfter count }
        nextId := idAfter (count + 1) } }

/-- The ends after the first of them has made the offer of this number unheard. -/
def unheard (s : Side → Endpoint) (count : Nat) : Side → Endpoint :=
  Function.update s .a ((s .a).unheard count)

theorem unheard_unheard (s : Side → Endpoint) (first second : Nat) :
    unheard (unoffered (unheard s first)) second = unoffered (unheard s second) := by
  unfold unheard
  rw [unoffered_update, unoffered_update, Function.update_idem, Function.update_self]
  rfl

theorem step_unheard {s : Side → Endpoint} {count : Nat}
    (hnext : (s .a).machine.nextId = idAfter count) :
    unofferedStep s unheardOffer = unoffered (unheard s count) := by
  have hmeets : Call.Meets (s .a).machine (.offer 0 [] noMetadata_fits none 0) := nofun
  unfold unofferedStep unheardOffer transferStep unheard Endpoint.unheard
  simp only [if_pos hmeets]
  rw [unoffered_update, unoffered_update, idAfter_succ, ← hnext]
  simp only [Endpoint.after, Endpoint.unoffered, Ledger.unoffered, Ledger.record, Xfer.perform,
    Xfer.offer, emit, List.length_nil, Nat.lt_irrefl, if_false, List.filterMap_nil, List.append_nil,
    Option.map_none, Option.toList_none]
  rfl

/-- Offers made one after the other unheard. -/
theorem run_unheard {s : Side → Endpoint} {first : Nat}
    (hnext : (s .a).machine.nextId = idAfter first) (count : Nat) :
    run unofferedStep s (List.replicate (count + 1) unheardOffer) =
      unoffered (unheard s (first + count)) := by
  induction count with
  | zero => exact step_unheard hnext
  | succ count ih =>
      have hagain : ((unoffered (unheard s (first + count))) .a).machine.nextId =
          idAfter (first + count + 1) := rfl
      rw [List.replicate_succ', run_snoc, ih, step_unheard hagain, unheard_unheard]
      rfl

/-- The payload of the first offer. -/
def stalePayload : List UInt8 := List.replicate 1025 0x61

/-- The payload offered when the ids have come round. -/
def freshPayload : List UInt8 := List.replicate 1025 0x62

/-- Both chunks of the first payload are sent, and none of them arrives. -/
def staleOffer : List TransferEvent :=
  [.call .a (.offer 0 [] noMetadata_fits (some stalePayload) 1025) 18, .deliver .b 0 false 18,
    .deliver .a 0 false 18, .deliver .a 1 false 18, .call .a .pump 18]

/-- Two offers half the ids further are heard, the second of them newer than the first and older
than what comes after. -/
def halfway : List TransferEvent :=
  [.call .a (.offer 0 [] noMetadata_fits none 0) 18, .deliver .b 4 true 18, unheardOffer,
    .call .a (.offer 0 [] noMetadata_fits none 0) 18, .deliver .b 5 true 18]

/-- Another payload is offered under the first id, and the first chunk that arrives for it is the
old one. -/
def freshOffer : List TransferEvent :=
  [.call .a (.offer 0 [] noMetadata_fits (some freshPayload) 1025) 18, .deliver .b 6 false 18,
    .deliver .a 2 false 18, .deliver .a 3 false 18, .call .a .pump 18, .deliver .b 1 false 18,
    .deliver .b 8 false 18]

/-- The ids come round once. -/
def reuseRun : List TransferEvent :=
  staleOffer ++ List.replicate (2 ^ 31 - 2) unheardOffer ++ halfway ++
    List.replicate (2 ^ 31 - 3) unheardOffer ++ freshOffer

set_option maxRecDepth 20000 in
/-- What is delivered when the ids have come round is the first chunk of the one payload and the
last of the other. -/
theorem reused_id_mixes :
    ∃ delivery ∈ (run transferStep (fun _ ↦ Endpoint.init (List.replicate 1025 0)) reuseRun
        .b).deliveries,
      delivery.payload = stalePayload.take chunkSize ++ freshPayload.drop chunkSize ∧
      ∀ entry ∈ (run transferStep (fun _ ↦ Endpoint.init (List.replicate 1025 0)) reuseRun
        .a).ledger.payloads, entry.2 ≠ delivery.payload := by
  have hdeliveries : ∀ s : Side → Endpoint, (s .b).deliveries = (unoffered s .b).deliveries :=
    fun _ ↦ rfl
  have hpayloads : ∀ s : Side → Endpoint,
      (s .a).ledger.payloads = (unoffered s .a).ledger.payloads := fun _ ↦ rfl
  have hfirst : 2 ^ 31 - 2 = (2 ^ 31 - 3) + 1 := rfl
  have hsecond : 2 ^ 31 - 3 = (2 ^ 31 - 4) + 1 := rfl
  rw [hdeliveries, hpayloads, reuseRun, unoffered_run, run_append, run_append, run_append,
    run_append, hfirst, run_unheard (show _ = idAfter 1 by decide), hsecond,
    run_unheard (show _ = idAfter (2 ^ 31 + 2) by decide)]
  decide +kernel

/-! ## A count cut short -/

/-- The bytes of 2^32 chunks. -/
def vastTotal : UInt64 := 0x40000000000

/-- An offer of 2^32 chunks, which a 32-bit count takes for none. -/
def vastOffer : ClipOffer where
  id := 1
  kind := 0
  total := vastTotal
  metadata := []
  metadata_length := noMetadata_fits

/-- The offer is taken, nothing is left to send, and the done completes it. -/
def vastRun (payload : List UInt8) : List TransferEvent :=
  [.call .a (.offer 0 [] noMetadata_fits (some payload) vastTotal) 18, .deliver .b 0 false 18,
    .deliver .a 0 false 18, .call .a .pump 18, .deliver .b 1 false 18]

/-- The ends once it is offered. -/
def vastOffered (payload rxBuf : List UInt8) : Side → Endpoint :=
  Function.update (fun _ ↦ Endpoint.init rxBuf) .a
    ((Endpoint.init rxBuf).after ((Endpoint.init rxBuf).ledger.record (Xfer.init rxBuf)
      (.offer 0 [] noMetadata_fits (some payload) vastTotal))
      ((Xfer.init rxBuf).offer 18 0 [] noMetadata_fits (some payload) vastTotal))

/-- A buffer that holds such a payload takes the offer. -/
theorem handleOffer_vast {rxBuf : List UInt8} (hlength : rxBuf.length = 2 ^ 42) :
    (Xfer.init rxBuf).handleOffer 18 vastOffer false =
      ({ Xfer.init rxBuf with rx := { Xfer.acceptIdentity vastOffer with active := true } },
        [.sendRequest 1, .sendCredit 1 creditWindow]) := by
  have hroom : ¬((Xfer.init rxBuf).rxBuf.length < vastOffer.total.toNat ∨
      maxChunks < (Xfer.acceptIdentity vastOffer).nchunks ∨
        metaMax < vastOffer.metadata.length) := by
    rw [show (Xfer.init rxBuf).rxBuf.length = 2 ^ 42 from hlength]
    decide
  unfold Xfer.handleOffer
  rw [if_neg (by decide), if_neg nofun, if_neg nofun]
  simp only [if_neg hroom]
  rfl

/-- The receive buffer is delivered as it stands, without one chunk. -/
theorem uncounted_chunks_deliver {payload rxBuf : List UInt8} (hpayload : payload.length = 2 ^ 42)
    (hrxBuf : rxBuf.length = 2 ^ 42) :
    (run transferStep (fun _ ↦ Endpoint.init rxBuf) (vastRun payload) .b).deliveries =
        [{ id := 1, kind := 0, total := vastTotal, metadata := [], payload := rxBuf.take (2 ^ 42),
           nchunks := 0, received := ∅ }] ∧
      (run transferStep (fun _ ↦ Endpoint.init rxBuf) (vastRun payload) .a).ledger.payloads =
        [(1, payload)] := by
  have hmeets : Call.Meets (Xfer.init rxBuf)
      (.offer 0 [] noMetadata_fits (some payload) vastTotal) := by
    rintro _ ⟨⟩
    exact hpayload
  have hoffered : transferStep (fun _ ↦ Endpoint.init rxBuf)
      (.call .a (.offer 0 [] noMetadata_fits (some payload) vastTotal) 18) =
        vastOffered payload rxBuf := if_pos hmeets
  have htaken : transferStep (vastOffered payload rxBuf) (.deliver .b 0 false 18) =
      Function.update (vastOffered payload rxBuf) .b
        ((Endpoint.init rxBuf).after (Endpoint.init rxBuf).ledger
          ({ Xfer.init rxBuf with rx := { Xfer.acceptIdentity vastOffer with active := true } },
            [.sendRequest 1, .sendCredit 1 creditWindow])) := by
    rw [← handleOffer_vast hrxBuf]
    rfl
  rw [vastRun, run_cons, hoffered, run_cons, htaken]
  exact ⟨rfl, rfl⟩

/-- Its one offer is the first. -/
theorem vastRun_fresh (payload rxBuf : List UInt8) :
    Along transferStep FreshOffer (fun _ ↦ Endpoint.init rxBuf) (vastRun payload) := by
  refine ⟨?_, trivial, trivial, trivial, trivial, trivial⟩
  intro offer hmem
  cases hmem

/-! ## What fidelity asks for -/

/-- No buffer is swapped when the ids come round. -/
theorem reuseRun_fits (s : Side → Endpoint) : ∀ event ∈ reuseRun, BuffersFit s event := by
  have hunheard : ∀ count, ∀ event ∈ List.replicate count unheardOffer, BuffersFit s event := by
    intro count event hmem
    rw [List.eq_of_mem_replicate hmem]
    trivial
  intro event hmem
  simp only [reuseRun, List.mem_append] at hmem
  rcases hmem with (((hmem | hmem) | hmem) | hmem) | hmem
  · revert event
    simp [staleOffer, BuffersFit]
  · exact hunheard _ event hmem
  · revert event
    simp [halfway, unheardOffer, BuffersFit]
  · exact hunheard _ event hmem
  · revert event
    simp [freshOffer, BuffersFit]

/-- Neither condition of fidelity can be left out. With ids half the serial space apart and buffers
that fit, an id that has come round delivers what nobody offered; with fresh ids, a buffer of 2^42
bytes does. -/
theorem fidelity_broken :
    (∀ side, HalfApart (run transferStep (fun _ ↦ Endpoint.init (List.replicate 1025 0)) reuseRun
        side).ledger.offers) ∧
      BufferFits (List.replicate 1025 0) ∧ (∀ s, ∀ event ∈ reuseRun, BuffersFit s event) ∧
      (∃ delivery ∈ (run transferStep (fun _ ↦ Endpoint.init (List.replicate 1025 0)) reuseRun
          .b).deliveries,
        ∀ entry ∈ (run transferStep (fun _ ↦ Endpoint.init (List.replicate 1025 0)) reuseRun
          .a).ledger.payloads, entry.2 ≠ delivery.payload) ∧
      Along transferStep FreshOffer (fun _ ↦ Endpoint.init (List.replicate (2 ^ 42) 0))
        (vastRun (List.replicate (2 ^ 42) 1)) ∧
      ∃ delivery ∈ (run transferStep (fun _ ↦ Endpoint.init (List.replicate (2 ^ 42) 0))
          (vastRun (List.replicate (2 ^ 42) 1)) .b).deliveries,
        delivery.received = ∅ ∧
          ∀ entry ∈ (run transferStep (fun _ ↦ Endpoint.init (List.replicate (2 ^ 42) 0))
            (vastRun (List.replicate (2 ^ 42) 1)) .a).ledger.payloads,
            entry.2 ≠ delivery.payload := by
  obtain ⟨delivery, hdelivery, _, hmixed⟩ := reused_id_mixes
  have hlength : ∀ byte : UInt8, (List.replicate (2 ^ 42) byte).length = 2 ^ 42 :=
    fun _ ↦ List.length_replicate
  obtain ⟨hdeliveries, hpayloads⟩ := uncounted_chunks_deliver (hlength 1) (hlength 0)
  have hfits : BufferFits (List.replicate 1025 0) := by
    rw [BufferFits, List.length_replicate]
    decide
  refine ⟨offers_apart (fun _ ↦ List.replicate 1025 0) reuseRun, hfits, reuseRun_fits,
    ⟨delivery, hdelivery, hmixed⟩, vastRun_fresh _ _, ?_⟩
  rw [hdeliveries, hpayloads]
  refine ⟨_, List.mem_singleton.2 rfl, rfl, ?_⟩
  intro entry hentry heq
  rw [List.mem_singleton.1 hentry] at heq
  have hone : (1 : UInt8) ∈ List.replicate (2 ^ 42) (1 : UInt8) :=
    List.mem_replicate.2 ⟨by decide, rfl⟩
  rw [show List.replicate (2 ^ 42) (1 : UInt8) = _ from heq] at hone
  exact absurd (List.eq_of_mem_replicate (List.mem_of_mem_take hone)) (by decide)

end DeskhopPlus.Transfer
