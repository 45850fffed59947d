import DeskhopPlus.Transfer.Steady

/-!
# One machine, turn by turn

A turn is a call of the caller or a message from anywhere, with the room it has for actions. The two
directions of the machine hardly meet: `RxMove` lists all that a turn can do to the incoming one,
and `turn_rx` says that every turn does one of these. Everything the receiver is held to is read off
that list.
-/

namespace DeskhopPlus.Transfer

open Bytes Wire

/-- A call, or a message in. -/
inductive Turn where
  | call (call : Call) (cap : Nat)
  | message (message : Message) (lazy : Bool) (cap : Nat)

/-- The room for actions. -/
def Turn.cap : Turn → Nat
  | .call _ cap => cap
  | .message _ _ cap => cap

/-- The machine after a turn, and the actions it wrote. -/
def Xfer.turn (x : Xfer) : Turn → Xfer × List Action
  | .call call cap => x.perform cap call
  | .message message lazy cap => x.handle cap lazy message

/-- A boundary of the other end's namespace of offers. -/
def Turn.boundary : Turn → Bool
  | .call .linkDown _ => true
  | .call .rxSealReplaced _ => true
  | _ => false

/-- No action of these announces a delivery or acknowledges one. -/
def Quiet (acts : List Action) : Prop :=
  ∀ id, Action.delivered id ∉ acts ∧ Action.sendReceived id ∉ acts

/-- The incoming transfer has asked for chunks it lacks, or stopped waiting to be asked for them,
and is otherwise the same. -/
structure Incoming.Asks (rx rx' : Incoming) : Prop where
  same : rx' =
    { rx with
      lazy := rx'.lazy
      duplicateOffers := rx'.duplicateOffers
      retxAsked := rx'.retxAsked
      requested := rx'.requested
      requestedStale := rx'.requestedStale }
  asked : ∀ seq ∈ rx'.requested, seq ∈ rx.requested ∨ seq ∉ rx.received

/-- A chunk of the transfer that is arriving and does not have it yet. -/
structure Xfer.Fresh (x : Xfer) (chunk : ClipChunk) : Prop where
  active : x.rx.active = true
  requested : x.rx.lazy = false
  id : x.rx.id = chunk.id
  inside : chunk.seq.toNat < x.rx.nchunks
  lacks : chunk.seq.toNat ∉ x.rx.received
  length : chunk.data.length = chunkLen x.rx.total x.rx.nchunks chunk.seq.toNat

/-- An offer the machine has room for. -/
structure Xfer.Fits (x : Xfer) (offer : ClipOffer) : Prop where
  total : offer.total.toNat ≤ x.rxBuf.length
  nchunks : chunkCount offer.total ≤ maxChunks
  metadata : offer.metadata.length ≤ metaMax

/-- The actions that announce a delivery: it is acknowledged if there is room. -/
def Xfer.announce (cap : Nat) (id : UInt32) : List Action :=
  emit cap [.delivered id] (.sendReceived id)

/-- What a turn can do to the incoming direction, its buffer and the actions. -/
inductive RxMove (x : Xfer) (turn : Turn) : Incoming → List UInt8 → List Action → Prop where
  | asks {rx : Incoming} {acts : List Action} (hasks : x.rx.Asks rx) (hquiet : Quiet acts) :
      RxMove x turn rx x.rxBuf acts
  | swaps {rxBuf : List UInt8} {cap : Nat} (hturn : turn = .call (.setRxBuffer rxBuf) cap)
      (hidle : x.rx.active = false) : RxMove x turn x.rx rxBuf []
  | stops {acts : List Action} (hquiet : Quiet acts) :
      RxMove x turn { x.rx with active := false } x.rxBuf acts
  | forgets {acts : List Action} (hboundary : turn.boundary = true) (hquiet : Quiet acts) :
      RxMove x turn Incoming.forget x.rxBuf acts
  | takes {offer : ClipOffer} {held : Bool} {cap : Nat} {active lazy : Bool} {acts : List Action}
      (hturn : turn = .message (.offer offer) held cap) (hid : offer.id ≠ 0)
      (hnewer : x.rx.seenOffer = true → serialNewer offer.id x.rx.id = true)
      (hfits : active = true → x.Fits offer) (hquiet : Quiet acts) :
      RxMove x turn { Xfer.acceptIdentity offer with active := active, lazy := lazy } x.rxBuf acts
  | stores {chunk : ClipChunk} {held : Bool} {cap ungranted : Nat} {acts : List Action}
      (hturn : turn = .message (.chunk chunk) held cap) (hfresh : x.Fresh chunk)
      (hmore : x.rx.nreceived + 1 < x.rx.nchunks ∨ cap = 0) (hquiet : Quiet acts) :
      RxMove x turn { (x.storeChunk chunk).rx with ungranted := ungranted }
        (x.storeChunk chunk).rxBuf acts
  | fills {chunk : ClipChunk} {held : Bool} {cap : Nat}
      (hturn : turn = .message (.chunk chunk) held cap) (hfresh : x.Fresh chunk)
      (hall : x.rx.nchunks ≤ x.rx.nreceived + 1) (hroom : 0 < cap) :
      RxMove x turn { (x.storeChunk chunk).rx with active := false, completed := true }
        (x.storeChunk chunk).rxBuf (Xfer.announce cap x.rx.id)
  | finishes {held : Bool} {cap : Nat} (hturn : turn = .message (.done x.rx.id) held cap)
      (hactive : x.rx.active = true) (hrequested : x.rx.lazy = false)
      (hall : x.rx.nchunks ≤ x.rx.nreceived) (hroom : 0 < cap) :
      RxMove x turn { x.rx with active := false, completed := true } x.rxBuf
        (Xfer.announce cap x.rx.id)
  | repeats {held : Bool} {cap : Nat} (hturn : turn = .message (.done x.rx.id) held cap)
      (hcompleted : x.rx.completed = true) :
      RxMove x turn x.rx x.rxBuf (emit cap [] (.sendReceived x.rx.id))

/-! ## Quiet actions -/

section Quiet

variable {cap : Nat} {acts : List Action} {action : Action}

/-- The actions of a turn that is not about a finished receive. -/
def Action.isReceipt : Action → Bool
  | .delivered _ => true
  | .sendReceived _ => true
  | _ => false

/-- No action at all is quiet. -/
@[simp] theorem quiet_nil : Quiet [] := by simp [Quiet]

/-- Another action that is no receipt. -/
theorem Quiet.append (h : Quiet acts) (haction : action.isReceipt = false) :
    Quiet (acts ++ [action]) := by
  intro id
  constructor
  · intro hmem
    rcases List.mem_append.1 hmem with hold | hnew
    · exact (h id).1 hold
    · cases List.mem_singleton.1 hnew
      cases haction
  · intro hmem
    rcases List.mem_append.1 hmem with hold | hnew
    · exact (h id).2 hold
    · cases List.mem_singleton.1 hnew
      cases haction

/-- The same, where there may be no room for it. -/
theorem Quiet.emit (h : Quiet acts) (haction : action.isReceipt = false) :
    Quiet (emit cap acts action) := by
  unfold Transfer.emit
  split
  · exact h.append haction
  · exact h

/-- One action that is no receipt, or none. -/
theorem quiet_emit (haction : action.isReceipt = false) : Quiet (emit cap [] action) :=
  quiet_nil.emit haction

/-- The actions a receiver asks the copy side with. -/
def Action.isRequest : Action → Bool
  | .sendRequest _ => true
  | .sendRetransmit _ _ => true
  | .sendCredit _ _ => true
  | _ => false

/-- All of these actions are requests. -/
def Requests (acts : List Action) : Prop := ∀ action ∈ acts, action.isRequest = true

/-- No action at all asks for nothing else. -/
@[simp] theorem requests_nil : Requests [] := by simp [Requests]

/-- Another action that asks. -/
theorem Requests.append (h : Requests acts) (haction : action.isRequest = true) :
    Requests (acts ++ [action]) := by
  intro other hother
  rcases List.mem_append.1 hother with hold | hnew
  · exact h other hold
  · cases List.mem_singleton.1 hnew
    exact haction

/-- The same, where there may be no room for it. -/
theorem Requests.emit (h : Requests acts) (haction : action.isRequest = true) :
    Requests (emit cap acts action) := by
  unfold Transfer.emit
  split
  · exact h.append haction
  · exact h

/-- A request and the window behind it only ask. -/
theorem requests_requestWindow (id : UInt32) : Requests (Xfer.requestWindow cap id) :=
  (requests_nil.emit rfl).emit rfl

/-- So does a grant behind what already only asks. -/
theorem Requests.rxGrant (h : Requests acts) (id : UInt32) (credits : Nat) :
    Requests (Xfer.rxGrant cap id acts credits) := by
  unfold Xfer.rxGrant
  split
  · exact h
  · exact h.emit rfl

/-- What only asks announces no delivery. -/
theorem Requests.quiet (h : Requests acts) : Quiet acts := by
  intro id
  constructor
  · intro hmem
    cases h _ hmem
  · intro hmem
    cases h _ hmem

end Quiet

/-! ## Asking for chunks -/

/-- Asking for nothing. -/
theorem Incoming.Asks.refl (rx : Incoming) : rx.Asks rx := ⟨rfl, fun _ hseq ↦ .inl hseq⟩

/-- Asking twice. -/
theorem Incoming.Asks.trans {rx rx' rx'' : Incoming} (h : rx.Asks rx') (h' : rx'.Asks rx'') :
    rx.Asks rx'' := by
  refine ⟨?_, fun seq hseq ↦ ?_⟩
  · rw [h'.same, h.same]
  · rcases h'.asked seq hseq with hold | hlacks
    · exact h.asked seq hold
    · rw [h.same] at hlacks
      exact .inr hlacks

/-- Dropping a request. -/
theorem Incoming.asks_erase (rx : Incoming) (seq : Nat) :
    rx.Asks { rx with requested := rx.requested.erase seq } :=
  ⟨rfl, fun _ hseq ↦ .inl (Finset.mem_of_mem_erase hseq)⟩

/-- A sweep under way from an incoming transfer has only asked. -/
structure Xfer.Sweep.Asking (rx : Incoming) (s : Xfer.Sweep) : Prop where
  asks : rx.Asks s.rx
  requests : Requests s.acts

namespace Xfer

variable {x : Xfer} {cap : Nat} {rx : Incoming} {s : Sweep}

/-- One chunk that is lacking is asked for. -/
theorem asking_rxRequestChunk (h : s.Asking rx) {seq : Nat} (hlacks : seq ∉ s.rx.received)
    (stale : Bool) : (rxRequestChunk cap s seq stale).Asking rx := by
  unfold rxRequestChunk
  split
  · exact h
  · split
    · exact h
    · refine ⟨h.asks.trans ⟨rfl, ?_⟩, h.requests.append rfl⟩
      intro other hother
      rcases Finset.mem_insert.1 hother with rfl | hold
      · exact .inr hlacks
      · exact .inl hold

/-- Asking again for a chunk the transfer lacks. -/
theorem asking_again (h : s.Asking rx) {seq : Nat} (hlacks : seq ∉ s.rx.received) (stale : Bool) :
    (rxRequestChunk cap { s with rx := { s.rx with requested := s.rx.requested.erase seq } } seq
      stale).Asking rx := by
  have herased : Sweep.Asking rx
      { s with rx := { s.rx with requested := s.rx.requested.erase seq } } :=
    ⟨h.asks.trans (s.rx.asks_erase seq), h.requests⟩
  exact asking_rxRequestChunk herased hlacks stale

/-- The body of the sweep asks at most for the chunk it looks at. -/
theorem asking_rxSweepOne (h : s.Asking rx) (aged : Bool) (m : Nat) :
    (rxSweepOne cap aged s m).Asking rx := by
  unfold rxSweepOne
  split
  · exact h
  · rename_i hlacks
    split
    · exact ⟨h.asks.trans ⟨rfl, fun _ hseq ↦ .inl hseq⟩, h.requests⟩
    · exact asking_again h hlacks aged

/-- The sweep over all that came before a chunk only asks. -/
theorem asking_rxSweepRange (h : s.Asking rx) (limit : Nat) (aged : Bool) :
    (rxSweepRange cap limit aged s).Asking rx := by
  unfold rxSweepRange
  induction List.range limit generalizing s with
  | nil => exact h
  | cons m rest ih => exact ih (asking_rxSweepOne h aged m)

/-- So does the sweep over the next window. -/
theorem asking_rxSweepWindow (seqs : List Nat) (named : Nat) (h : s.Asking rx) :
    (rxSweepWindow cap seqs named s).Asking rx := by
  induction seqs generalizing named s with
  | nil => exact h
  | cons m rest ih =>
      unfold rxSweepWindow
      split
      · split
        · exact ih named h
        · rename_i hlacks
          exact ih _ (asking_again h hlacks false)
      · exact h

/-! ## The moves of each call -/

variable {turn : Turn}

/-- A move of the incoming direction by a result. -/
def Moves (x : Xfer) (turn : Turn) (result : Xfer × List Action) : Prop :=
  RxMove x turn result.1.rx result.1.rxBuf result.2

/-- A turn that leaves the incoming direction alone. -/
theorem moves_still {tx : Outgoing} {nextId : UInt32} {acts : List Action} (hquiet : Quiet acts) :
    x.Moves turn ({ x with tx := tx, nextId := nextId }, acts) :=
  .asks (.refl _) hquiet

/-- The end of a sweep. -/
theorem moves_sweep (h : s.Asking x.rx) (id : UInt32) :
    x.Moves turn ({ x with rx := s.rx }, rxGrant cap id s.acts s.credits) :=
  .asks h.asks (h.requests.rxGrant id s.credits).quiet

/-- The pump sends chunks, and chunks are no receipts. -/
theorem pumpLoop_quiet (cap room : Nat) (tx : Outgoing) {acts : List Action} (h : Quiet acts) :
    Quiet (pumpLoop cap room tx acts).2 := by
  induction room generalizing tx acts with
  | zero => exact h
  | succ room ih =>
      unfold pumpLoop
      split
      · split
        · exact ih _ (h.append rfl)
        · split
          · exact ih _ (h.append rfl)
          · exact h
      · exact h

/-- The pump leaves the incoming direction as it is. -/
theorem pump_moves : x.Moves turn (x.pump cap) := by
  unfold pump
  split
  · exact moves_still quiet_nil
  · have hquiet := pumpLoop_quiet cap batchMax x.tx quiet_nil
    simp only
    split
    · exact moves_still (hquiet.append rfl)
    · exact moves_still hquiet

/-- So does an offer made again. -/
theorem retryOffer_moves : x.Moves turn (x.retryOffer cap) := by
  unfold retryOffer
  split
  · exact moves_still quiet_nil
  · split
    · exact moves_still quiet_nil
    · exact moves_still (quiet_nil.append rfl)

/-- So does the payload of an offer. -/
theorem provide_moves (data : List UInt8) : x.Moves turn (x.provide data, []) := by
  unfold provide
  split <;> exact moves_still quiet_nil

/-- So does a payload that cannot be had. -/
theorem provideFail_moves : x.Moves turn (x.provideFail cap) := by
  unfold provideFail
  split
  · exact moves_still quiet_nil
  · exact moves_still (quiet_emit rfl)

/-- So does a done said again. -/
theorem retryDone_moves : x.Moves turn (x, x.retryDone cap) := by
  unfold retryDone
  split
  · exact moves_still (quiet_emit rfl)
  · exact moves_still quiet_nil

/-- So does giving up what is sent. -/
theorem cancelTx_moves : x.Moves turn (x.cancelTx cap) := by
  unfold cancelTx
  split
  · exact moves_still (quiet_emit rfl)
  · exact moves_still quiet_nil

/-- So does forgetting what was sent whole. -/
theorem expireTx_moves : x.Moves turn (x.expireTx, []) := by
  unfold expireTx
  split <;> exact moves_still quiet_nil

/-- An offer that was held back is asked for. -/
theorem requestLazy_moves (id : UInt32) : x.Moves turn (x.requestLazy cap id) := by
  unfold requestLazy
  split
  · exact moves_still quiet_nil
  · exact .asks ⟨rfl, fun _ hseq ↦ .inl hseq⟩ (requests_requestWindow id).quiet

/-- A buffer is swapped while nothing is received. -/
theorem setRxBuffer_moves (rxBuf : List UInt8) (cap : Nat) :
    x.Moves (.call (.setRxBuffer rxBuf) cap) (x.setRxBuffer rxBuf, []) := by
  unfold setRxBuffer
  split
  · exact moves_still quiet_nil
  · split
    · exact moves_still quiet_nil
    · rename_i hidle
      exact .swaps rfl (by simpa using hidle)

/-- A sweep asks for chunks. -/
theorem sweepRx_moves : x.Moves turn (x.sweepRx cap) := by
  unfold sweepRx
  split
  · exact moves_still quiet_nil
  · refine moves_sweep (asking_rxSweepWindow _ _ ?_) _
    split
    · refine asking_rxSweepRange ?_ _ _
      exact ⟨.refl _, requests_nil⟩
    · exact ⟨.refl _, requests_nil.emit rfl⟩

/-- What is received is given up. -/
theorem cancelRx_moves : x.Moves turn (x.cancelRx cap) := by
  unfold cancelRx
  split
  · exact .stops (quiet_emit rfl)
  · exact moves_still quiet_nil

/-- Forgetting what is received announces no delivery. -/
theorem rxAbandon_quiet (reason : FailReason) : Quiet (x.rxAbandon cap reason).2 := by
  simp only [rxAbandon]
  split
  · exact quiet_emit rfl
  · exact quiet_nil

/-- What is received is forgotten at a boundary. -/
theorem rxAbandon_moves (hboundary : turn.boundary = true) (reason : FailReason) :
    x.Moves turn (x.rxAbandon cap reason) :=
  .forgets hboundary (rxAbandon_quiet reason)

/-- The link going down is such a boundary. -/
theorem linkDown_moves (cap' : Nat) : x.Moves (.call .linkDown cap') (x.linkDown cap) := by
  have hquiet : Quiet (x.rxAbandon cap .linkDrop).2 := rxAbandon_quiet .linkDrop
  unfold linkDown
  simp only
  split
  · exact .forgets rfl (hquiet.emit rfl)
  · exact .forgets rfl hquiet

/-- An offer is new, is known, or is not taken. -/
theorem handleOffer_moves (offer : ClipOffer) (held : Bool) :
    x.Moves (.message (.offer offer) held cap) (x.handleOffer cap offer held) := by
  unfold handleOffer
  split
  · exact moves_still (quiet_emit rfl)
  · rename_i hid
    split
    · split
      · simp only
        split
        · exact .asks ⟨rfl, fun _ hseq ↦ .inl hseq⟩ quiet_nil
        · exact .asks ⟨rfl, fun _ hseq ↦ .inl hseq⟩ (requests_requestWindow _).quiet
      · exact moves_still (quiet_emit rfl)
    · split
      · exact moves_still quiet_nil
      · rename_i hstale
        have hnewer : x.rx.seenOffer = true → serialNewer offer.id x.rx.id = true := by
          intro hseen
          by_contra hnot
          exact hstale ⟨hseen, by simpa using hnot⟩
        simp only
        split
        · exact .takes rfl hid hnewer nofun (quiet_emit rfl)
        · rename_i hroom
          simp only [not_or, Nat.not_lt] at hroom
          have hfits : x.Fits offer := ⟨hroom.1, hroom.2.1, hroom.2.2⟩
          split
          · exact .takes rfl hid hnewer (fun _ ↦ hfits) quiet_nil
          · exact .takes rfl hid hnewer (fun _ ↦ hfits) (requests_requestWindow _).quiet

/-- A chunk is stored, completes the transfer, or is asked for again. -/
theorem handleChunk_moves (chunk : ClipChunk) (held : Bool) :
    x.Moves (.message (.chunk chunk) held cap) (x.handleChunk cap chunk) := by
  unfold handleChunk
  simp only
  split
  · exact moves_still quiet_nil
  · rename_i hguard
    simp only [not_or, Bool.not_eq_false, Bool.not_eq_true, not_not, Nat.not_le] at hguard
    obtain ⟨hactive, hlazy, hid, hinside⟩ := hguard
    split
    · exact moves_still (requests_nil.rxGrant _ _).quiet
    · rename_i hlacks
      split
      · refine moves_sweep (asking_rxRequestChunk ?_ hlacks _) _
        exact ⟨x.rx.asks_erase _, requests_nil⟩
      · rename_i hgood
        simp only [not_or, ne_eq, not_not] at hgood
        have hfresh : x.Fresh chunk := ⟨hactive, hlazy, hid, hinside, hlacks, hgood.1⟩
        by_cases hall : x.rx.nchunks ≤ x.rx.nreceived + 1
        · rw [if_pos (show (x.storeChunk chunk).rx.nchunks ≤ (x.storeChunk chunk).rx.nreceived
            from hall)]
          unfold rxComplete
          by_cases hroom : 0 < cap
          · rw [if_pos (show ([] : List Action).length < cap from hroom)]
            exact .fills rfl hfresh hall hroom
          · rw [if_neg (show ¬ ([] : List Action).length < cap from hroom)]
            have hnone : cap = 0 := by omega
            simp only
            split
            · exact .stores rfl hfresh (.inr hnone) (requests_nil.rxGrant _ _).quiet
            · exact .stores rfl hfresh (.inr hnone) quiet_nil
        · rw [if_neg (show ¬ (x.storeChunk chunk).rx.nchunks ≤ (x.storeChunk chunk).rx.nreceived
            from hall)]
          have hmore : x.rx.nreceived + 1 < x.rx.nchunks := Nat.lt_of_not_le hall
          simp only
          split
          · exact .stores rfl hfresh (.inl hmore) (requests_nil.rxGrant _ _).quiet
          · exact .stores rfl hfresh (.inl hmore) quiet_nil

/-- A done completes the transfer, or has the missing chunks asked for. -/
theorem handleDone_moves (id : UInt32) (held : Bool) :
    x.Moves (.message (.done id) held cap) (x.handleDone cap id) := by
  unfold handleDone
  split
  · rename_i hcompleted
    obtain ⟨hcompleted, rfl⟩ := hcompleted
    exact .repeats rfl hcompleted
  · split
    · exact moves_still quiet_nil
    · rename_i hguard
      simp only [not_or, Bool.not_eq_false, Bool.not_eq_true, ne_eq, not_not] at hguard
      obtain ⟨hactive, hlazy, rfl⟩ := hguard
      split
      · refine moves_sweep (asking_rxSweepRange ?_ _ _) _
        exact ⟨.refl _, requests_nil⟩
      · rename_i hall
        unfold rxComplete
        by_cases hroom : 0 < cap
        · rw [if_pos (show ([] : List Action).length < cap from hroom)]
          exact .finishes rfl hactive hlazy (Nat.le_of_not_lt hall) hroom
        · rw [if_neg (show ¬ ([] : List Action).length < cap from hroom)]
          exact moves_still quiet_nil

/-- A request is of the outgoing direction. -/
theorem handleRequest_moves (id : UInt32) : x.Moves turn (x.handleRequest cap id) := by
  unfold handleRequest
  split
  · exact moves_still quiet_nil
  · split
    · exact moves_still (quiet_emit rfl)
    · exact moves_still quiet_nil

/-- A cancel gives up the direction it names. -/
theorem handleCancel_moves (id : UInt32) : x.Moves turn (x.handleCancel cap id) := by
  unfold handleCancel
  by_cases hrx : x.rx.active = true ∧ x.rx.id = id
  · simp only [if_pos hrx]
    split
    · exact .stops ((quiet_emit rfl).emit rfl)
    · exact .stops (quiet_emit rfl)
  · simp only [if_neg hrx]
    split
    · exact moves_still (quiet_emit rfl)
    · exact moves_still quiet_nil

/-- Every turn makes one of the moves. -/
theorem turn_rx (x : Xfer) (turn : Turn) : x.Moves turn (x.turn turn) := by
  cases turn with
  | call call cap =>
      cases call with
      | offer => exact moves_still (quiet_emit rfl)
      | retryOffer => exact retryOffer_moves
      | provide data => exact provide_moves data
      | provideFail => exact provideFail_moves
      | pump => exact pump_moves
      | retryDone => exact retryDone_moves
      | cancelTx => exact cancelTx_moves
      | expireTx => exact expireTx_moves
      | requestLazy id => exact requestLazy_moves id
      | setRxBuffer rxBuf => exact setRxBuffer_moves rxBuf cap
      | sweepRx => exact sweepRx_moves
      | cancelRx => exact cancelRx_moves
      | linkDown => exact linkDown_moves cap
      | rxSealReplaced => exact rxAbandon_moves rfl .sealReplaced
  | message message held cap =>
      cases message with
      | offer offer => exact handleOffer_moves offer held
      | request id => exact handleRequest_moves id
      | chunk chunk => exact handleChunk_moves chunk held
      | credit id credits =>
          show x.Moves _ (x.handleCredit id credits, [])
          unfold handleCredit
          split <;> exact moves_still quiet_nil
      | retransmit id seq =>
          show x.Moves _ (x.handleRetransmit id seq, [])
          unfold handleRetransmit
          split <;> exact moves_still quiet_nil
      | done id => exact handleDone_moves id held
      | received id =>
          show x.Moves _ (x.handleReceived id, [])
          unfold handleReceived
          split <;> exact moves_still quiet_nil
      | cancel id => exact handleCancel_moves id

end Xfer

/-! ## The actions of the paste side -/

/-- The actions a machine writes as the paste side of a transfer, or to give one up. -/
def Action.paste : Action → Bool
  | .sendRequest _ | .sendRetransmit _ _ | .sendCredit _ _ | .sendReceived _ | .sendCancel _
  | .delivered _ | .failed _ _ | .protocolError _ => true
  | _ => false

/-- All of these are actions of the paste side. -/
def Pasting (acts : List Action) : Prop := ∀ action ∈ acts, action.paste = true

section Pasting

variable {x : Xfer} {cap : Nat} {acts : List Action} {action : Action}

/-- No action at all is of the paste side alone. -/
theorem pasting_nil : Pasting [] := nofun

/-- Another action of the paste side, where there may be no room for it. -/
theorem Pasting.emit (h : Pasting acts) (haction : action.paste = true) :
    Pasting (emit cap acts action) := by
  unfold Transfer.emit
  split
  · intro other hother
    rcases List.mem_append.1 hother with hold | hnew
    · exact h other hold
    · rw [List.mem_singleton.1 hnew]
      exact haction
  · exact h

/-- One action of the paste side, or none. -/
theorem pasting_emit (haction : action.paste = true) : Pasting (emit cap [] action) :=
  pasting_nil.emit haction

/-- What only asks is of the paste side. -/
theorem Requests.pasting (h : Requests acts) : Pasting acts := by
  intro action haction
  have := h action haction
  cases action with
  | sendRequest | sendRetransmit | sendCredit => rfl
  | _ => cases this

/-- A delivery and its receipt are of the paste side. -/
theorem pasting_announce (id : UInt32) : Pasting (Xfer.announce cap id) := by
  apply Pasting.emit
  · intro action haction
    rw [List.mem_singleton.1 haction]
    rfl
  · rfl

/-- What a sweep writes is of the paste side. -/
theorem pasting_sweepRx : Pasting (x.sweepRx cap).2 := by
  unfold Xfer.sweepRx
  split
  · exact pasting_nil
  · apply Requests.pasting
    refine Requests.rxGrant (Xfer.Sweep.Asking.requests (?_ : Xfer.Sweep.Asking x.rx _)) _ _
    refine Xfer.asking_rxSweepWindow _ _ ?_
    split
    · refine Xfer.asking_rxSweepRange ?_ _ _
      exact ⟨.refl _, requests_nil⟩
    · exact ⟨.refl _, requests_nil.emit rfl⟩

/-- What an offer is answered with is of the paste side. -/
theorem pasting_handleOffer (offer : ClipOffer) (held : Bool) :
    Pasting (x.handleOffer cap offer held).2 := by
  unfold Xfer.handleOffer
  split
  · exact pasting_emit rfl
  · split
    · split
      · simp only
        split
        · exact pasting_nil
        · exact (requests_requestWindow _).pasting
      · exact pasting_emit rfl
    · split
      · exact pasting_nil
      · simp only
        split
        · exact pasting_emit rfl
        · split
          · exact pasting_nil
          · exact (requests_requestWindow _).pasting

/-- What asks for an offer that was held back is of the paste side. -/
theorem pasting_requestLazy (id : UInt32) : Pasting (x.requestLazy cap id).2 := by
  unfold Xfer.requestLazy
  split
  · exact pasting_nil
  · exact (requests_requestWindow id).pasting

/-- What a complete transfer writes is of the paste side. -/
theorem pasting_rxComplete {rx rx' : Incoming}
    (h : Xfer.rxComplete cap rx [] = some (rx', acts)) : Pasting acts := by
  unfold Xfer.rxComplete at h
  split at h
  · cases h
    exact pasting_announce _
  · cases h

/-- What a chunk is answered with is of the paste side. -/
theorem pasting_handleChunk (chunk : ClipChunk) : Pasting (x.handleChunk cap chunk).2 := by
  have hgrant : ∀ id credits, Pasting (Xfer.rxGrant cap id [] credits) :=
    fun id credits ↦ (requests_nil.rxGrant id credits).pasting
  unfold Xfer.handleChunk
  simp only
  split
  · exact pasting_nil
  · split
    · exact hgrant x.rx.id 1
    · rename_i hlacks
      split
      · apply Requests.pasting
        refine Requests.rxGrant (Xfer.Sweep.Asking.requests (?_ : Xfer.Sweep.Asking x.rx _)) _ _
        refine Xfer.asking_rxRequestChunk ?_ hlacks _
        exact ⟨x.rx.asks_erase _, requests_nil⟩
      · split
        · rename_i hfinished
          split at hfinished
          · exact pasting_rxComplete hfinished
          · cases hfinished
        · split
          · exact hgrant _ _
          · exact pasting_nil

/-- What a done is answered with is of the paste side. -/
theorem pasting_handleDone (id : UInt32) : Pasting (x.handleDone cap id).2 := by
  unfold Xfer.handleDone
  split
  · exact pasting_emit rfl
  · split
    · exact pasting_nil
    · split
      · apply Requests.pasting
        refine Requests.rxGrant (Xfer.Sweep.Asking.requests (?_ : Xfer.Sweep.Asking x.rx _)) _ _
        refine Xfer.asking_rxSweepRange ?_ _ _
        exact ⟨.refl _, requests_nil⟩
      · split
        · rename_i hfinished
          exact pasting_rxComplete hfinished
        · exact pasting_nil

/-- What gives up the incoming direction is of the paste side. -/
theorem pasting_cancelRx : Pasting (x.cancelRx cap).2 := by
  unfold Xfer.cancelRx
  split
  · exact pasting_emit rfl
  · exact pasting_nil

/-- What forgets it is of the paste side. -/
theorem pasting_rxAbandon (reason : FailReason) : Pasting (x.rxAbandon cap reason).2 := by
  simp only [Xfer.rxAbandon]
  split
  · exact pasting_emit rfl
  · exact pasting_nil

/-- Both directions at once: the outgoing transfer stays or is given up. -/
theorem handleCancel_tx (id : UInt32) :
    ((x.handleCancel cap id).1.tx = x.tx ∨ (x.handleCancel cap id).1.tx = Outgoing.reset) ∧
      Pasting (x.handleCancel cap id).2 := by
  unfold Xfer.handleCancel
  by_cases hrx : x.rx.active = true ∧ x.rx.id = id
  · simp only [if_pos hrx]
    split
    · exact ⟨.inr rfl, (pasting_emit rfl).emit rfl⟩
    · exact ⟨.inl rfl, pasting_emit rfl⟩
  · simp only [if_neg hrx]
    split
    · exact ⟨.inr rfl, pasting_emit rfl⟩
    · exact ⟨.inl rfl, pasting_nil⟩

/-- The link going down keeps the outgoing direction or forgets it. -/
theorem linkDown_tx :
    ((x.linkDown cap).1.tx = x.tx ∨ (x.linkDown cap).1.tx = Outgoing.reset) ∧
      Pasting (x.linkDown cap).2 := by
  have hpasting : Pasting (x.rxAbandon cap .linkDrop).2 := pasting_rxAbandon .linkDrop
  unfold Xfer.linkDown
  simp only
  split
  · exact ⟨.inr rfl, hpasting.emit rfl⟩
  · exact ⟨.inl rfl, hpasting⟩

end Pasting

end DeskhopPlus.Transfer
