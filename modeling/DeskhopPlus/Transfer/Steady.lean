import DeskhopPlus.Transfer.Pair

/-!
# What the calls leave alone

Most calls of the machine move its bookkeeping only: credits, the retransmit queue, the sets of
requested chunks. `Steady` says that a call keeps what each direction is about, or gives that
direction up, and that it delivers nothing. The calls that are not steady are the offer, the
provision of its payload, the swap of the buffer, the arrival of an offer, and the chunk or done
that is stored or completes.
-/

namespace DeskhopPlus.Transfer

open Wire

/-- What the outgoing direction is about. -/
def Outgoing.core (tx : Outgoing) :
    Bool × UInt32 × UInt8 × List UInt8 × Option (List UInt8) × UInt64 × Nat :=
  (tx.active, tx.id, tx.kind, tx.metadata, tx.data, tx.total, tx.nchunks)

/-- The offer the incoming direction knows. -/
def Incoming.identity (rx : Incoming) :
    Bool × UInt32 × UInt8 × UInt64 × Nat × Nat × List UInt8 :=
  (rx.seenOffer, rx.id, rx.kind, rx.total, rx.nchunks, rx.metaLen, rx.metadata)

/-- What the incoming direction is about: its offer and what has arrived of it. -/
def Incoming.core (rx : Incoming) :
    Bool × Nat × Finset Nat × Bool × UInt32 × UInt8 × UInt64 × Nat × Nat × List UInt8 :=
  (rx.active, rx.nreceived, rx.received, rx.identity)

/-- The outgoing direction is kept, or given up. Only a payload that is missing is waited for. -/
def Outgoing.Kept (tx tx' : Outgoing) : Prop :=
  tx'.core = tx.core ∧ (tx'.lazyPending = tx.lazyPending ∨ tx'.data = none) ∨
    tx' = Outgoing.reset

/-- The incoming direction is kept, given up with its offer still known, or forgotten. -/
def Incoming.Kept (rx rx' : Incoming) : Prop :=
  rx'.core = rx.core ∨
    rx'.active = false ∧ (rx'.identity = rx.identity ∨ rx'.seenOffer = false)

/-- No action of these announces a delivery. -/
def Silent (acts : List Action) : Prop := ∀ id, Action.delivered id ∉ acts

/-- A call that keeps or gives up each direction, leaves the buffer alone and delivers nothing. -/
structure Steady (x : Xfer) (result : Xfer × List Action) : Prop where
  tx : x.tx.Kept result.1.tx
  rx : x.rx.Kept result.1.rx
  rxBuf : result.1.rxBuf = x.rxBuf
  silent : Silent result.2

section Silence

variable {cap : Nat} {acts : List Action} {action : Action}

/-- No action at all is silent. -/
@[simp] theorem silent_nil : Silent [] := by simp [Silent]

/-- Another action that delivers nothing. -/
theorem Silent.append (h : Silent acts) (haction : ∀ id, action ≠ .delivered id) :
    Silent (acts ++ [action]) := by
  intro id hmem
  rcases List.mem_append.1 hmem with hold | hnew
  · exact h id hold
  · exact haction id (List.mem_singleton.1 hnew).symm

/-- The same, where there may be no room for it. -/
theorem Silent.emit (h : Silent acts) (haction : ∀ id, action ≠ .delivered id) :
    Silent (emit cap acts action) := by
  unfold Transfer.emit
  split
  · exact h.append haction
  · exact h

/-- One action that delivers nothing, or none. -/
theorem silent_emit (haction : ∀ id, action ≠ .delivered id) : Silent (emit cap [] action) :=
  silent_nil.emit haction

end Silence

/-- An outgoing direction that is as it was. -/
theorem Outgoing.Kept.refl (tx : Outgoing) : tx.Kept tx := .inl ⟨rfl, .inl rfl⟩

/-- An incoming direction that is as it was. -/
theorem Incoming.Kept.refl (rx : Incoming) : rx.Kept rx := .inl rfl

namespace Xfer

variable {x : Xfer} {cap : Nat}

/-- A call that does nothing. -/
theorem steady_refl {acts : List Action} (h : Silent acts) : Steady x (x, acts) :=
  ⟨.refl _, .refl _, rfl, h⟩

/-- A call on the outgoing direction. -/
theorem steady_tx {tx : Outgoing} {acts : List Action} (htx : x.tx.Kept tx) (h : Silent acts) :
    Steady x ({ x with tx := tx }, acts) :=
  ⟨htx, .refl _, rfl, h⟩

/-- A call on the incoming direction. -/
theorem steady_rx {rx : Incoming} {acts : List Action} (hrx : x.rx.Kept rx) (h : Silent acts) :
    Steady x ({ x with rx := rx }, acts) :=
  ⟨.refl _, hrx, rfl, h⟩

/-! ## Sender -/

/-- An offer made again counts itself. -/
theorem retryOffer_steady : Steady x (x.retryOffer cap) := by
  unfold retryOffer
  split
  · exact steady_refl silent_nil
  · split
    · exact steady_refl silent_nil
    · exact steady_tx (.inl ⟨rfl, .inl rfl⟩) (by simp [Silent])

/-- A payload that cannot be had gives the outgoing direction up. -/
theorem provideFail_steady : Steady x (x.provideFail cap) := by
  unfold provideFail
  split
  · exact steady_refl silent_nil
  · exact steady_tx (.inr rfl) (silent_emit (by simp))

/-- The batch loop keeps the payload and names chunks only. -/
theorem pumpLoop_kept (cap room : Nat) (tx : Outgoing) (acts : List Action) (h : Silent acts) :
    (pumpLoop cap room tx acts).1.core = tx.core ∧
      (pumpLoop cap room tx acts).1.lazyPending = tx.lazyPending ∧
      Silent (pumpLoop cap room tx acts).2 := by
  induction room generalizing tx acts with
  | zero => exact ⟨rfl, rfl, h⟩
  | succ room ih =>
      unfold pumpLoop
      split
      · split
        · exact ih _ _ (h.append (by simp))
        · split
          · exact ih _ _ (h.append (by simp))
          · exact ⟨rfl, rfl, h⟩
      · exact ⟨rfl, rfl, h⟩

/-- The pump spends credits. -/
theorem pump_steady : Steady x (x.pump cap) := by
  unfold pump
  split
  · exact steady_refl silent_nil
  · obtain ⟨hcore, hpending, hsilent⟩ := pumpLoop_kept cap batchMax x.tx [] silent_nil
    simp only
    split
    · exact steady_tx (.inl ⟨hcore, .inl hpending⟩) (hsilent.append (by simp))
    · exact steady_tx (.inl ⟨hcore, .inl hpending⟩) hsilent

/-- A done said again changes nothing. -/
theorem retryDone_steady : Steady x (x, x.retryDone cap) := by
  unfold retryDone
  split
  · exact steady_refl (silent_emit (by simp))
  · exact steady_refl silent_nil

/-- Cancelling gives the outgoing direction up. -/
theorem cancelTx_steady : Steady x (x.cancelTx cap) := by
  unfold cancelTx
  split
  · exact steady_tx (.inr rfl) (silent_emit (by simp))
  · exact steady_refl silent_nil

/-- So does forgetting what was sent whole. -/
theorem expireTx_steady : Steady x (x.expireTx, []) := by
  unfold expireTx
  split
  · exact steady_tx (.inr rfl) silent_nil
  · exact steady_refl silent_nil

/-- A request starts the stream, or has the payload asked for. -/
theorem handleRequest_steady (id : UInt32) : Steady x (x.handleRequest cap id) := by
  unfold handleRequest
  split
  · exact steady_refl silent_nil
  · split
    · rename_i hmissing
      have hdata : x.tx.data = none := Option.isNone_iff_eq_none.1 hmissing.1
      exact steady_tx (.inl ⟨rfl, .inr hdata⟩) (silent_emit (by simp))
    · exact steady_tx (.inl ⟨rfl, .inl rfl⟩) silent_nil

/-- A chunk asked for again is queued. -/
theorem handleRetransmit_steady (id : UInt32) (seq : Nat) :
    Steady x (x.handleRetransmit id seq, []) := by
  unfold handleRetransmit
  split
  · exact steady_refl silent_nil
  · refine steady_tx (.inl ?_) silent_nil
    simp only
    split <;> exact ⟨rfl, .inl rfl⟩

/-- A credit adds to the credits. -/
theorem handleCredit_steady (id : UInt32) (credits : Nat) :
    Steady x (x.handleCredit id credits, []) := by
  unfold handleCredit
  split
  · exact steady_refl silent_nil
  · refine steady_tx (.inl ?_) silent_nil
    simp only
    split
    · exact ⟨rfl, .inl rfl⟩
    · split <;> exact ⟨rfl, .inl rfl⟩

/-- A receipt ends what was sent whole. -/
theorem handleReceived_steady (id : UInt32) : Steady x (x.handleReceived id, []) := by
  unfold handleReceived
  split
  · exact steady_tx (.inr rfl) silent_nil
  · exact steady_refl silent_nil

/-! ## Receiver -/

/-- A request and its window deliver nothing. -/
theorem requestWindow_silent (id : UInt32) : Silent (requestWindow cap id) :=
  (silent_emit (by simp)).emit (by simp)

/-- A grant delivers nothing. -/
theorem rxGrant_silent {acts : List Action} (h : Silent acts) (id : UInt32) (credits : Nat) :
    Silent (rxGrant cap id acts credits) := by
  unfold rxGrant
  split
  · exact h
  · exact h.emit (by simp)

/-- An offer that was held back is asked for. -/
theorem requestLazy_steady (id : UInt32) : Steady x (x.requestLazy cap id) := by
  unfold requestLazy
  split
  · exact steady_refl silent_nil
  · exact steady_rx (.inl rfl) (requestWindow_silent id)

/-- A sweep is under way from an incoming transfer: what that is about is untouched. -/
structure Sweep.From (rx : Incoming) (s : Sweep) : Prop where
  core : s.rx.core = rx.core
  silent : Silent s.acts

/-- Asking for a chunk touches only the sets of what is asked for. -/
theorem rxRequestChunk_from {rx : Incoming} {s : Sweep} (h : s.From rx) (seq : Nat)
    (stale : Bool) : (rxRequestChunk cap s seq stale).From rx := by
  unfold rxRequestChunk
  split
  · exact h
  · split
    · exact h
    · exact ⟨h.core, h.silent.append (by simp)⟩

/-- So does the body of the sweep. -/
theorem rxSweepOne_from {rx : Incoming} {s : Sweep} (h : s.From rx) (aged : Bool) (m : Nat) :
    (rxSweepOne cap aged s m).From rx := by
  unfold rxSweepOne
  split
  · exact h
  · split
    · exact ⟨h.core, h.silent⟩
    · refine rxRequestChunk_from ?_ m aged
      exact ⟨h.core, h.silent⟩

/-- So does the sweep over all that came before a chunk. -/
theorem rxSweepRange_from {rx : Incoming} {s : Sweep} (h : s.From rx) (limit : Nat)
    (aged : Bool) : (rxSweepRange cap limit aged s).From rx := by
  unfold rxSweepRange
  induction List.range limit generalizing s with
  | nil => exact h
  | cons m rest ih => exact ih (rxSweepOne_from h aged m)

/-- So does the sweep over the next window. -/
theorem rxSweepWindow_from {rx : Incoming} (seqs : List Nat) (named : Nat) {s : Sweep}
    (h : s.From rx) : (rxSweepWindow cap seqs named s).From rx := by
  induction seqs generalizing named s with
  | nil => exact h
  | cons m rest ih =>
      unfold rxSweepWindow
      split
      · split
        · exact ih named h
        · refine ih _ (rxRequestChunk_from ?_ m false)
          exact ⟨h.core, h.silent⟩
      · exact h

/-- A sweep that has ended. -/
theorem steady_sweep {s : Sweep} (h : s.From x.rx) (id : UInt32) :
    Steady x ({ x with rx := s.rx }, rxGrant cap id s.acts s.credits) :=
  steady_rx (.inl h.core) (rxGrant_silent h.silent id s.credits)

/-- A sweep asks for chunks. -/
theorem sweepRx_steady : Steady x (x.sweepRx cap) := by
  unfold sweepRx
  split
  · exact steady_refl silent_nil
  · refine steady_sweep (rxSweepWindow_from _ _ ?_) _
    split
    · refine rxSweepRange_from ?_ _ _
      exact ⟨rfl, silent_nil⟩
    · exact ⟨rfl, silent_emit (by simp)⟩

/-- Cancelling gives the incoming direction up. -/
theorem cancelRx_steady : Steady x (x.cancelRx cap) := by
  unfold cancelRx
  split
  · exact steady_rx (.inr ⟨rfl, .inl rfl⟩) (silent_emit (by simp))
  · exact steady_refl silent_nil

/-! An offer, a chunk or a done leaves the outgoing direction alone. -/

/-- An offer does not touch the outgoing direction. -/
theorem handleOffer_tx (offer : ClipOffer) (lazy : Bool) :
    (x.handleOffer cap offer lazy).1.tx = x.tx := by
  unfold handleOffer
  split
  · rfl
  · split
    · split
      · simp only
        split <;> rfl
      · rfl
    · split
      · rfl
      · simp only
        split
        · rfl
        · split <;> rfl

/-- Nor does a chunk. -/
theorem handleChunk_tx (chunk : ClipChunk) : (x.handleChunk cap chunk).1.tx = x.tx := by
  unfold handleChunk
  simp only
  split
  · rfl
  · split
    · rfl
    · split
      · rfl
      · split
        · rfl
        · split <;> rfl

/-- Nor does a done. -/
theorem handleDone_tx (id : UInt32) : (x.handleDone cap id).1.tx = x.tx := by
  unfold handleDone
  split
  · rfl
  · split
    · rfl
    · split
      · rfl
      · split <;> rfl

/-! ## Both directions -/

/-- A cancel gives up the direction it names. -/
theorem handleCancel_steady (id : UInt32) : Steady x (x.handleCancel cap id) := by
  unfold handleCancel
  by_cases hrx : x.rx.active = true ∧ x.rx.id = id
  · simp only [if_pos hrx]
    split
    · exact ⟨.inr rfl, .inr ⟨rfl, .inl rfl⟩, rfl, (silent_emit (by simp)).emit (by simp)⟩
    · exact steady_rx (.inr ⟨rfl, .inl rfl⟩) (silent_emit (by simp))
  · simp only [if_neg hrx]
    split
    · exact steady_tx (.inr rfl) (silent_emit (by simp))
    · exact steady_refl silent_nil

/-- Forgetting what is received delivers nothing. -/
theorem rxAbandon_silent (reason : FailReason) : Silent (x.rxAbandon cap reason).2 := by
  simp only [rxAbandon]
  split
  · exact silent_emit (by simp)
  · exact silent_nil

/-- A new seal has what is received forgotten. -/
theorem rxSealReplaced_steady : Steady x (x.rxSealReplaced cap) :=
  ⟨.refl _, .inr ⟨rfl, .inr rfl⟩, rfl, rxAbandon_silent .sealReplaced⟩

/-- The link going down gives both directions up. -/
theorem linkDown_steady : Steady x (x.linkDown cap) := by
  have hsilent : Silent (x.rxAbandon cap .linkDrop).2 := rxAbandon_silent .linkDrop
  unfold linkDown
  simp only
  split
  · exact ⟨.inr rfl, .inr ⟨rfl, .inr rfl⟩, rfl, hsilent.emit (by simp)⟩
  · exact ⟨.refl _, .inr ⟨rfl, .inr rfl⟩, rfl, hsilent⟩

end Xfer

end DeskhopPlus.Transfer
