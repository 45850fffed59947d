import DeskhopPlus.Library.Runs
import DeskhopPlus.Transfer.Ledger
import DeskhopPlus.Transfer.Turns
import Mathlib.Data.UInt

/-!
# What the sender lets out

Beside the machine stands the log of the offer it is sending: what came in for it (the request, the
payload, grants and retransmit requests), the chunks and dones that went out, and its release.
`Allowed` says when each entry may stand behind those before it, and `Flow` what the machine knows
of its log. `sender_disciplined` says that every sequence of turns writes an allowed log.
-/

namespace DeskhopPlus.Transfer

open Bytes Blocks Wire Runs

/-- What happens to an offer. -/
inductive Entry where
  | requested
  | provided
  | granted (credits : Nat)
  | asked (seq : Nat)
  | chunk (seq : Nat)
  | done
  | probed
  | released
  deriving DecidableEq, Repr

/-- The entry of an action. A done sent again is a probe for the receipt. -/
def Action.entry : Action → Option Entry
  | .sendChunk _ seq => some (.chunk seq)
  | .sendDone _ => some .done
  | .sendDoneRetry _ => some .probed
  | _ => none

/-- What a turn brings for the offer that is out. -/
def Turn.heard (x : Xfer) : Turn → List Entry
  | .message (.request id) _ _ => if x.tx.active = true ∧ x.tx.id = id then [.requested] else []
  | .message (.retransmit id seq) _ _ =>
      if x.tx.active = true ∧ x.tx.id = id then [.asked seq] else []
  | .message (.credit id credits) _ _ =>
      if x.tx.active = true ∧ x.tx.id = id then [.granted credits] else []
  | .call (.provide _) _ =>
      if x.tx.active = true ∧ x.tx.lazyPending = true then [.provided] else []
  | _ => []

/-- The release of an offer by a receipt, or by the caller giving up on one. -/
def Turn.released (x x' : Xfer) : Turn → List Entry
  | .message (.received _) _ _ =>
      if x.tx.active = true ∧ x'.tx.active = false then [.released] else []
  | .call .expireTx _ => if x.tx.active = true ∧ x'.tx.active = false then [.released] else []
  | _ => []

/-- A machine with the log of its last offer, whether that came without its payload, and the number
of its chunks. -/
structure Sender where
  machine : Xfer
  lazy : Bool
  nchunks : Nat
  log : List Entry

namespace Sender

/-- A machine that has offered nothing. -/
def init (rxBuf : List UInt8) : Sender where
  machine := Xfer.init rxBuf
  lazy := false
  nchunks := 0
  log := []

/-- What a turn adds to the log. -/
def gains (x : Xfer) (turn : Turn) : List Entry :=
  turn.heard x ++ (x.turn turn).2.filterMap Action.entry ++ turn.released x (x.turn turn).1

/-- The sender after a turn that adds to the log. -/
def goesOn (s : Sender) (turn : Turn) : Sender :=
  { s with machine := (s.machine.turn turn).1, log := s.log ++ gains s.machine turn }

/-- One turn. An offer starts a log of its own. -/
def step (s : Sender) (turn : Turn) : Sender :=
  match turn with
  | .call (.offer _ _ _ data total) _ =>
      { machine := (s.machine.turn turn).1
        lazy := data.isNone
        nchunks := chunkCount total
        log := [] }
  | _ => s.goesOn turn

end Sender

/-! ## The rules -/

/-- The credits granted in a log. -/
def granted : List Entry → Nat
  | [] => 0
  | .granted credits :: rest => credits + granted rest
  | _ :: rest => granted rest

/-- Whether an entry is a chunk that went out. -/
def Entry.isChunk : Entry → Bool
  | .chunk _ => true
  | _ => false

/-- The chunks that went out. -/
def emitted (log : List Entry) : Nat := log.countP Entry.isChunk

/-- A chunk was asked for again after it had gone out. -/
def AskedAfter (log : List Entry) (seq : Nat) : Prop :=
  ∃ before after, log = before ++ .asked seq :: after ∧ .chunk seq ∈ before

/-- When an entry may follow those before it. A chunk goes out behind the request, and the payload
where that was not offered; it is the next one in order or was asked for again; and there is credit
for it. A done, a probe or a release comes after every chunk went out. -/
def Allowed (lazy : Bool) (nchunks : Nat) (before : List Entry) : Entry → Prop
  | .chunk seq =>
      seq < nchunks ∧ .requested ∈ before ∧ (lazy = true → .provided ∈ before) ∧
      ((∀ other, .chunk other ∈ before ↔ other < seq) ∨ AskedAfter before seq) ∧
      emitted before < granted before
  | .done | .probed | .released => ∀ seq < nchunks, .chunk seq ∈ before
  | .requested | .provided | .granted _ | .asked _ => True

/-- What the machine knows of the log of the offer it is sending. -/
structure Flow (lazy : Bool) (tx : Outgoing) (log : List Entry) : Prop where
  law : EachAfter (Allowed lazy tx.nchunks) log
  ring_nodup : tx.retx.Nodup
  ring_length : tx.retx.length ≤ retxMax
  ring_lt : ∀ seq ∈ tx.retx, seq < tx.nextSeq
  next_le : tx.nextSeq ≤ tx.nchunks
  nchunks_eq : tx.nchunks = chunkCount tx.total
  sent : ∀ seq, .chunk seq ∈ log ↔ seq < tx.nextSeq
  asked : ∀ seq ∈ tx.retx, AskedAfter log seq
  budget : emitted log + tx.credits ≤ granted log
  requested : tx.streaming = true ∨ tx.lazyPending = true → .requested ∈ log
  provided : lazy = true → tx.streaming = true → tx.nchunks = 0 ∨ .provided ∈ log
  unprovided : lazy = true → tx.data = none ∨ .provided ∈ log

/-! ## Logs that grow -/

section Logs

variable {log : List Entry} {seq : Nat}

@[simp] theorem granted_append (log more : List Entry) :
    granted (log ++ more) = granted log + granted more := by
  induction log with
  | nil => simp [granted]
  | cons entry rest ih => cases entry <;> simp [granted, ih, Nat.add_assoc]

@[simp] theorem emitted_append (log more : List Entry) :
    emitted (log ++ more) = emitted log + emitted more := List.countP_append

theorem AskedAfter.append (h : AskedAfter log seq) (more : List Entry) :
    AskedAfter (log ++ more) seq := by
  obtain ⟨before, after, rfl, hsent⟩ := h
  exact ⟨before, after ++ more, by simp, hsent⟩

/-- A chunk asked for now, after it went out. -/
theorem askedAfter_snoc (h : .chunk seq ∈ log) : AskedAfter (log ++ [.asked seq]) seq :=
  ⟨log, [], rfl, h⟩

/-- Another entry than a chunk changes neither what went out nor its count. -/
theorem mem_chunk_snoc {entry : Entry} (hentry : entry.isChunk = false) :
    .chunk seq ∈ log ++ [entry] ↔ .chunk seq ∈ log := by
  rw [List.mem_append, List.mem_singleton]
  constructor
  · rintro (hold | rfl)
    · exact hold
    · cases hentry
  · exact .inl

theorem emitted_snoc {entry : Entry} (hentry : entry.isChunk = false) :
    emitted (log ++ [entry]) = emitted log := by
  simp [emitted, List.countP_append, hentry]

end Logs

/-! ## The flow of one offer -/

section Flow

variable {lazy : Bool} {tx : Outgoing} {log : List Entry}

/-- An entry that is no chunk, written while the machine changes what is not in the log. -/
theorem Flow.note (h : Flow lazy tx log) {tx' : Outgoing} {entry : Entry}
    (hentry : entry.isChunk = false) (hallowed : Allowed lazy tx.nchunks log entry)
    (hretx : tx'.retx.Nodup ∧ tx'.retx.length ≤ retxMax ∧
      ∀ seq ∈ tx'.retx, seq ∈ tx.retx ∨ seq < tx.nextSeq ∧ entry = .asked seq)
    (hnext : tx'.nextSeq = tx.nextSeq) (hnchunks : tx'.nchunks = tx.nchunks)
    (htotal : tx'.total = tx.total)
    (hbudget : emitted log + tx'.credits ≤ granted (log ++ [entry]))
    (hrequested : tx'.streaming = true ∨ tx'.lazyPending = true →
      (tx.streaming = true ∨ tx.lazyPending = true) ∨ entry = .requested)
    (hprovided : lazy = true → tx'.streaming = true →
      tx.streaming = true ∨ tx.nchunks = 0 ∨ .provided ∈ log ++ [entry])
    (hunprovided : lazy = true → tx'.data = tx.data ∨ entry = .provided) :
    Flow lazy tx' (log ++ [entry]) where
  law := by
    rw [hnchunks]
    exact eachAfter_snoc.2 ⟨h.law, hallowed⟩
  ring_nodup := hretx.1
  ring_length := hretx.2.1
  ring_lt seq hseq := by
    rw [hnext]
    rcases hretx.2.2 seq hseq with hold | ⟨hlt, -⟩
    · exact h.ring_lt seq hold
    · exact hlt
  next_le := by
    rw [hnext, hnchunks]
    exact h.next_le
  nchunks_eq := by
    rw [hnchunks, htotal]
    exact h.nchunks_eq
  sent seq := by
    rw [mem_chunk_snoc hentry, hnext]
    exact h.sent seq
  asked seq hseq := by
    rcases hretx.2.2 seq hseq with hold | ⟨hlt, rfl⟩
    · exact (h.asked seq hold).append _
    · -- a seq asked for just now was sent before
      exact askedAfter_snoc ((h.sent seq).2 hlt)
  budget := by
    rw [emitted_snoc hentry]
    exact hbudget
  requested hyes := by
    rcases hrequested hyes with hold | rfl
    · exact List.mem_append_left _ (h.requested hold)
    · exact List.mem_append_right _ (List.mem_singleton_self _)
  provided hlazy hstreaming := by
    rw [hnchunks]
    rcases hprovided hlazy hstreaming with hold | hnone | hmem
    · exact (h.provided hlazy hold).imp_right (List.mem_append_left _)
    · exact .inl hnone
    · exact .inr hmem
  unprovided hlazy := by
    rcases hunprovided hlazy with hsame | rfl
    · rw [hsame]
      exact (h.unprovided hlazy).imp_right (List.mem_append_left _)
    · exact .inr (List.mem_append_right _ (List.mem_singleton_self _))

/-- The next chunk in order. -/
theorem Flow.sendNext (h : Flow lazy tx log) (hstreaming : tx.streaming = true)
    (hcredits : 0 < tx.credits) (hmore : tx.nextSeq < tx.nchunks) (hring : tx.retx = []) :
    Flow lazy { tx with nextSeq := tx.nextSeq + 1, credits := tx.credits - 1 }
      (log ++ [.chunk tx.nextSeq]) where
  law := by
    refine eachAfter_snoc.2 ⟨h.law, hmore, h.requested (.inl hstreaming), ?_, .inl h.sent, ?_⟩
    · intro hlazy
      exact (h.provided hlazy hstreaming).resolve_left (by omega)
    · have := h.budget
      omega
  ring_nodup := h.ring_nodup
  ring_length := h.ring_length
  ring_lt seq hseq := by
    rw [show ({ tx with nextSeq := tx.nextSeq + 1, credits := tx.credits - 1 } : Outgoing).retx = []
      from hring] at hseq
    cases hseq
  next_le := hmore
  nchunks_eq := h.nchunks_eq
  sent seq := by
    show _ ↔ seq < tx.nextSeq + 1
    rw [List.mem_append, List.mem_singleton, h.sent, Entry.chunk.injEq]
    omega
  asked seq hseq := (h.asked seq hseq).append _
  budget := by
    have := h.budget
    simp only [emitted_append, granted_append]
    show emitted log + 1 + (tx.credits - 1) ≤ granted log + 0
    omega
  requested hyes := List.mem_append_left _ (h.requested hyes)
  provided hlazy hyes := (h.provided hlazy hyes).imp_right (List.mem_append_left _)
  unprovided hlazy := (h.unprovided hlazy).imp_right (List.mem_append_left _)

/-- A chunk that was asked for again. -/
theorem Flow.sendAgain (h : Flow lazy tx log) (hstreaming : tx.streaming = true)
    (hcredits : 0 < tx.credits) {seq : Nat} {rest : List Nat} (hring : tx.retx = seq :: rest) :
    Flow lazy { tx with retx := rest, retxSent := tx.retxSent + 1, credits := tx.credits - 1 }
      (log ++ [.chunk seq]) where
  law := by
    have hmem : seq ∈ tx.retx := by simp [hring]
    have hlt := h.ring_lt seq hmem
    have hle := h.next_le
    refine eachAfter_snoc.2 ⟨h.law, Nat.lt_of_lt_of_le hlt hle, h.requested (.inl hstreaming), ?_,
      .inr (h.asked seq hmem), ?_⟩
    · intro hlazy
      exact (h.provided hlazy hstreaming).resolve_left (by omega)
    · have := h.budget
      omega
  ring_nodup := by
    have := h.ring_nodup
    rw [hring] at this
    exact (List.nodup_cons.1 this).2
  ring_length := by
    have := h.ring_length
    rw [hring, List.length_cons] at this
    show rest.length ≤ retxMax
    omega
  ring_lt other hother := h.ring_lt other (by rw [hring]; exact List.mem_cons_of_mem _ hother)
  next_le := h.next_le
  nchunks_eq := h.nchunks_eq
  sent other := by
    have hlt := h.ring_lt seq (by simp [hring])
    show _ ↔ other < tx.nextSeq
    rw [List.mem_append, List.mem_singleton, h.sent, Entry.chunk.injEq]
    constructor
    · rintro (hold | rfl)
      · exact hold
      · exact hlt
    · exact .inl
  asked other hother :=
    (h.asked other (by rw [hring]; exact List.mem_cons_of_mem _ hother)).append _
  budget := by
    have := h.budget
    simp only [emitted_append, granted_append]
    show emitted log + 1 + (tx.credits - 1) ≤ granted log + 0
    omega
  requested hyes := List.mem_append_left _ (h.requested hyes)
  provided hlazy hyes := (h.provided hlazy hyes).imp_right (List.mem_append_left _)
  unprovided hlazy := (h.unprovided hlazy).imp_right (List.mem_append_left _)

/-- The log after some actions. -/
def logged (log : List Entry) (acts : List Action) : List Entry :=
  log ++ acts.filterMap Action.entry

/-- What the batch loop does to the flow: the actions it adds are chunks the log allows. -/
theorem Flow.pumpLoop (cap room : Nat) {tx : Outgoing} {log : List Entry} (h : Flow lazy tx log)
    (hstreaming : tx.streaming = true) (acts : List Action) :
    ∃ new, (Xfer.pumpLoop cap room tx acts).2 = acts ++ new ∧
      Flow lazy (Xfer.pumpLoop cap room tx acts).1 (logged log new) ∧
      (∀ id, .sendDone id ∉ new) ∧
      (Xfer.pumpLoop cap room tx acts).1.active = tx.active ∧
      (Xfer.pumpLoop cap room tx acts).1.streaming = tx.streaming ∧
      (Xfer.pumpLoop cap room tx acts).1.nchunks = tx.nchunks := by
  -- induction on the chunks the batch still allows; each turn of the loop is one of the two sends
  induction room generalizing tx log acts with
  | zero => exact ⟨[], by simp [Xfer.pumpLoop], by simpa [logged, Xfer.pumpLoop] using h, by simp,
      rfl, rfl, rfl⟩
  | succ room ih =>
      have hstop : ∃ new, acts = acts ++ new ∧ Flow lazy tx (logged log new) ∧
          (∀ id, .sendDone id ∉ new) ∧ tx.active = tx.active ∧ tx.streaming = tx.streaming ∧
          tx.nchunks = tx.nchunks :=
        ⟨[], by simp, by simpa [logged] using h, by simp, rfl, rfl, rfl⟩
      unfold Xfer.pumpLoop
      split
      · rename_i hcredit
        split
        · rename_i seq rest hring
          obtain ⟨new, hacts, hflow, hnone, hsame⟩ :=
            ih (h.sendAgain hstreaming hcredit.1 hring) hstreaming (acts ++ [.sendChunk tx.id seq])
          refine ⟨.sendChunk tx.id seq :: new, by simp [hacts], ?_, by simpa using hnone, hsame⟩
          simpa [logged, Action.entry] using hflow
        · rename_i hring
          split
          · rename_i hmore
            obtain ⟨new, hacts, hflow, hnone, hsame⟩ :=
              ih (h.sendNext hstreaming hcredit.1 hmore hring) hstreaming
                (acts ++ [.sendChunk tx.id tx.nextSeq])
            refine ⟨.sendChunk tx.id tx.nextSeq :: new, by simp [hacts], ?_, by simpa using hnone,
              hsame⟩
            simpa [logged, Action.entry] using hflow
          · exact hstop
      · exact hstop

end Flow

/-! ## The machine and its log -/

/-- The log is allowed, the machine knows it while the offer is out, and is blank when none is. -/
structure Sender.Disciplined (s : Sender) : Prop where
  law : EachAfter (Allowed s.lazy s.nchunks) s.log
  budget : emitted s.log ≤ granted s.log
  flow : s.machine.tx.active = true → Flow s.lazy s.machine.tx s.log
  nchunks : s.machine.tx.active = true → s.machine.tx.nchunks = s.nchunks
  idle : s.machine.tx.active = false → s.machine.tx = Outgoing.reset

section Discipline

variable {s : Sender} {x : Xfer}

/-- The sender after a turn that leaves the outgoing direction and its log alone. -/
theorem Sender.Disciplined.still (h : s.Disciplined) (htx : x.tx = s.machine.tx) :
    Disciplined { s with machine := x } := by
  refine ⟨h.law, h.budget, ?_, ?_, ?_⟩
  · simp only [htx]
    exact h.flow
  · simp only [htx]
    exact h.nchunks
  · simp only [htx]
    exact h.idle

/-- The sender after the offer was given up. -/
theorem Sender.Disciplined.resets (h : s.Disciplined) (htx : x.tx = Outgoing.reset) :
    Disciplined { s with machine := x } := by
  refine ⟨h.law, h.budget, ?_, ?_, ?_⟩
  · simp only [htx]
    nofun
  · simp only [htx]
    nofun
  · exact fun _ ↦ htx

/-- The sender after a turn that moves the flow of the offer that is out. -/
theorem Sender.Disciplined.flows (h : s.Disciplined) (hactive : s.machine.tx.active = true)
    {log : List Entry} (hflow : Flow s.lazy x.tx log) (hstays : x.tx.active = true)
    (hnchunks : x.tx.nchunks = s.machine.tx.nchunks) :
    Disciplined { s with machine := x, log := log } := by
  have hsame : x.tx.nchunks = s.nchunks := hnchunks.trans (h.nchunks hactive)
  refine ⟨?_, ?_, fun _ ↦ hflow, fun _ ↦ hsame, ?_⟩
  · show EachAfter (Allowed s.lazy s.nchunks) log
    rw [← hsame]
    exact hflow.law
  · have := hflow.budget
    show emitted log ≤ granted log
    omega
  · intro hidle
    rw [hstays] at hidle
    cases hidle

end Discipline

/-! ## Turns of the receiving direction -/

/-- No action of these goes into the log. -/
def Unsent (acts : List Action) : Prop := acts.filterMap Action.entry = []

section Unsent

variable {x : Xfer} {cap : Nat} {acts : List Action} {action : Action}

theorem Unsent.emit (h : Unsent acts) (haction : action.entry = none) :
    Unsent (emit cap acts action) := by
  unfold Transfer.emit
  split
  · rw [Unsent, List.filterMap_append, h, List.filterMap_cons_none haction]
    rfl
  · exact h

theorem unsent_emit (haction : action.entry = none) : Unsent (emit cap [] action) :=
  Unsent.emit rfl haction

/-- The paste side writes nothing into the log. -/
theorem Pasting.unsent (h : Pasting acts) : Unsent acts := by
  rw [Unsent, List.filterMap_eq_nil_iff]
  intro action haction
  have hpaste := h action haction
  cases action with
  | sendOffer | needData | sendChunk | sendDone | sendOfferRetry | sendDoneRetry => cases hpaste
  | _ => rfl

/-- Only the pump and the probe put anything out. -/
theorem unsent_turn {turn : Turn} (hpump : ∀ cap, turn ≠ .call .pump cap)
    (hprobe : ∀ cap, turn ≠ .call .retryDone cap) : Unsent (x.turn turn).2 := by
  cases turn with
  | call call cap =>
      cases call with
      | pump => exact absurd rfl (hpump cap)
      | retryDone => exact absurd rfl (hprobe cap)
      | offer => exact unsent_emit rfl
      | retryOffer =>
          show Unsent (x.retryOffer cap).2
          unfold Xfer.retryOffer
          split
          · rfl
          · split <;> rfl
      | provideFail =>
          show Unsent (x.provideFail cap).2
          unfold Xfer.provideFail
          split
          · rfl
          · exact unsent_emit rfl
      | cancelTx =>
          show Unsent (x.cancelTx cap).2
          unfold Xfer.cancelTx
          split
          · exact unsent_emit rfl
          · rfl
      | requestLazy id => exact (pasting_requestLazy id).unsent
      | sweepRx => exact pasting_sweepRx.unsent
      | cancelRx => exact pasting_cancelRx.unsent
      | linkDown => exact linkDown_tx.2.unsent
      | rxSealReplaced => exact (pasting_rxAbandon .sealReplaced).unsent
      | provide | expireTx | setRxBuffer => rfl
  | message message held cap =>
      cases message with
      | offer offer => exact (pasting_handleOffer offer held).unsent
      | request id =>
          show Unsent (x.handleRequest cap id).2
          unfold Xfer.handleRequest
          split
          · rfl
          · split
            · exact unsent_emit rfl
            · rfl
      | chunk chunk => exact (pasting_handleChunk chunk).unsent
      | done id => exact (pasting_handleDone id).unsent
      | cancel id => exact (handleCancel_tx id).2.unsent
      | credit | retransmit | received => rfl

end Unsent

/-! ## One turn -/

namespace Sender

variable {s : Sender}

/-- A turn with nothing for the log that keeps the outgoing direction or gives it up. -/
theorem Disciplined.passes (h : s.Disciplined) {turn : Turn} (hgains : gains s.machine turn = [])
    (htx : (s.machine.turn turn).1.tx = s.machine.tx ∨
      (s.machine.turn turn).1.tx = Outgoing.reset) : (s.goesOn turn).Disciplined := by
  rw [goesOn, hgains, List.append_nil]
  rcases htx with hsame | hreset
  · exact h.still hsame
  · exact h.resets hreset

/-- What a turn adds when nothing came in for the offer and it was not released. -/
theorem gains_unsent {x : Xfer} {turn : Turn} (hheard : turn.heard x = [])
    (hreleased : turn.released x (x.turn turn).1 = []) (hunsent : Unsent (x.turn turn).2) :
    gains x turn = [] := by
  rw [gains, hheard, hreleased, hunsent]
  rfl

/-- A new offer starts with an empty log. -/
theorem disciplined_offer (s : Sender) (kind : UInt8) (metadata : List UInt8)
    (hlength : metadata.length < 2 ^ 16) (data : Option (List UInt8)) (total : UInt64) (cap : Nat) :
    (s.step (.call (.offer kind metadata hlength data total) cap)).Disciplined where
  law := eachAfter_nil
  budget := Nat.le_refl _
  flow _ :=
    { law := eachAfter_nil
      ring_nodup := List.nodup_nil
      ring_length := Nat.zero_le _
      ring_lt := nofun
      next_le := Nat.zero_le _
      nchunks_eq := rfl
      sent := fun seq ↦ ⟨nofun, fun h ↦ absurd h (Nat.not_lt_zero _)⟩
      asked := nofun
      budget := Nat.le_refl _
      requested := by
        rintro (h | h)
        · cases h
        · cases h
      provided := fun _ h ↦ by cases h
      unprovided := fun hlazy ↦ .inl (Option.isNone_iff_eq_none.1 hlazy) }
  nchunks _ := rfl
  idle h := by cases h

/-- The offer is retried, or is not waiting to be. -/
theorem disciplined_retryOffer (h : s.Disciplined) (cap : Nat) :
    (s.goesOn (.call .retryOffer cap)).Disciplined := by
  have hturn : s.machine.turn (.call .retryOffer cap) = s.machine.retryOffer cap := rfl
  by_cases hguard : s.machine.tx.active = false ∨ s.machine.tx.streaming = true ∨
      s.machine.tx.lazyPending = true
  · rw [Xfer.retryOffer, if_pos hguard] at hturn
    refine h.passes (gains_unsent rfl rfl ?_) (.inl (by rw [hturn]))
    rw [hturn]
    rfl
  · rw [Xfer.retryOffer, if_neg hguard] at hturn
    simp only [not_or, Bool.not_eq_false] at hguard
    split at hturn
    · refine h.passes (gains_unsent rfl rfl ?_) (.inl (by rw [hturn]))
      rw [hturn]
      rfl
    · have hgains : gains s.machine (.call .retryOffer cap) = [] := by
        refine gains_unsent rfl rfl ?_
        rw [hturn]
        rfl
      have hflow := h.flow hguard.1
      rw [goesOn, hgains, List.append_nil, hturn]
      exact h.flows hguard.1 { hflow with } hguard.1 rfl

/-- The flow of an offer that starts streaming. -/
theorem flow_startStreaming {lazy : Bool} {x : Xfer} {log : List Entry} {entry : Entry}
    (h : Flow lazy x.tx log) (hentry : entry = .requested ∨ entry = .provided)
    (hrequested : x.tx.lazyPending = true ∨ entry = .requested)
    (hprovided : lazy = true → x.tx.nchunks = 0 ∨ .provided ∈ log ++ [entry])
    (data : Option (List UInt8)) (hdata : lazy = true → data = x.tx.data ∨ entry = .provided)
    (pending : Bool) :
    Flow lazy
      ({ x with tx := { x.tx with data := data, lazyPending := pending } } :
        Xfer).txStartStreaming.tx
      (log ++ [entry]) := by
  have hkind : entry.isChunk = false := by
    rcases hentry with rfl | rfl <;> rfl
  have hfree : granted [entry] = 0 := by
    rcases hentry with rfl | rfl <;> rfl
  refine h.note hkind ?_ ⟨h.ring_nodup, h.ring_length, fun seq hseq ↦ .inl hseq⟩ rfl rfl rfl ?_ ?_
    ?_ ?_
  · rcases hentry with rfl | rfl <;> trivial
  · have := h.budget
    rw [granted_append, hfree]
    show emitted log + min x.tx.credits creditWindow ≤ granted log + 0
    omega
  · intro _
    exact hrequested.imp_left .inr
  · intro hlazy _
    exact .inr (hprovided hlazy)
  · exact hdata

theorem disciplined_provide (h : s.Disciplined) (data : List UInt8) (cap : Nat) :
    (s.goesOn (.call (.provide data) cap)).Disciplined := by
  have hturn : s.machine.turn (.call (.provide data) cap) = (s.machine.provide data, []) := rfl
  by_cases hguard : s.machine.tx.active = false ∨ s.machine.tx.lazyPending = false
  · rw [Xfer.provide, if_pos hguard] at hturn
    refine h.passes (gains_unsent ?_ rfl ?_) (.inl (by rw [hturn]))
    · rw [Turn.heard, if_neg]
      rintro ⟨hactive, hpending⟩
      simp [hactive, hpending] at hguard
    · rw [hturn]
      rfl
  · rw [Xfer.provide, if_neg hguard] at hturn
    simp only [not_or, Bool.not_eq_false] at hguard
    have hgains : gains s.machine (.call (.provide data) cap) = [.provided] := by
      rw [gains, Turn.heard, if_pos hguard, hturn]
      rfl
    rw [goesOn, hgains, hturn]
    exact h.flows hguard.1 (flow_startStreaming (h.flow hguard.1) (.inr rfl) (.inl hguard.2)
      (fun _ ↦ .inr (by simp)) (some data) (fun _ ↦ .inr rfl) false) hguard.1 rfl

theorem disciplined_handleRequest (h : s.Disciplined) (id : UInt32) (held : Bool) (cap : Nat) :
    (s.goesOn (.message (.request id) held cap)).Disciplined := by
  have hturn : s.machine.turn (.message (.request id) held cap) =
      s.machine.handleRequest cap id := rfl
  by_cases hmine : s.machine.tx.active = true ∧ s.machine.tx.id = id
  · have hflow := h.flow hmine.1
    have hheard : Turn.heard s.machine (.message (.request id) held cap) = [.requested] := by
      rw [Turn.heard, if_pos hmine]
    have hunsent : Unsent (s.machine.handleRequest cap id).2 := by
      unfold Xfer.handleRequest
      split
      · rfl
      · split
        · exact unsent_emit rfl
        · rfl
    have hgains : gains s.machine (.message (.request id) held cap) = [.requested] := by
      rw [gains, hheard, hturn, hunsent]
      rfl
    have hring : s.machine.tx.retx.Nodup ∧ s.machine.tx.retx.length ≤ retxMax ∧
        ∀ seq ∈ s.machine.tx.retx, seq ∈ s.machine.tx.retx ∨
          seq < s.machine.tx.nextSeq ∧ Entry.requested = .asked seq :=
      ⟨hflow.ring_nodup, hflow.ring_length, fun seq hseq ↦ .inl hseq⟩
    have hbudget : emitted s.log + s.machine.tx.credits ≤ granted (s.log ++ [.requested]) := by
      have := hflow.budget
      rw [granted_append]
      exact this
    rw [goesOn, hgains, hturn]
    unfold Xfer.handleRequest
    split
    · -- already asked for
      exact h.flows hmine.1 (hflow.note rfl trivial hring rfl rfl rfl hbudget .inl
        (fun _ hyes ↦ .inl hyes) (fun _ ↦ .inl rfl)) hmine.1 rfl
    · split
      · -- the payload has to be fetched first
        exact h.flows hmine.1 (hflow.note rfl trivial hring rfl rfl rfl hbudget
          (fun _ ↦ .inr rfl) (fun _ hyes ↦ .inl hyes) (fun _ ↦ .inl rfl)) hmine.1 rfl
      · rename_i hhere
        refine h.flows hmine.1 (flow_startStreaming hflow (.inl rfl) (.inr rfl) ?_ s.machine.tx.data
          (fun _ ↦ .inl rfl) s.machine.tx.lazyPending) hmine.1 rfl
        intro hlazy
        rcases hflow.unprovided hlazy with hmissing | hgiven
        · -- a payload of no bytes is not waited for
          have hempty : s.machine.tx.total = 0 := by
            by_contra hsome
            refine hhere ⟨by rw [hmissing]; rfl, ?_⟩
            exact UInt64.pos_iff_ne_zero.2 hsome
          left
          rw [hflow.nchunks_eq, hempty]
          rfl
        · exact .inr (List.mem_append_left _ hgiven)
  · -- a request for another transfer is not heard
    have hother : s.machine.handleRequest cap id = (s.machine, []) := by
      rw [Xfer.handleRequest, if_pos]
      by_cases hactive : s.machine.tx.active = true
      · exact .inr (.inl fun hid ↦ hmine ⟨hactive, hid⟩)
      · exact .inl (by simpa using hactive)
    rw [hother] at hturn
    refine h.passes (gains_unsent ?_ rfl ?_) (.inl (by rw [hturn]))
    · rw [Turn.heard, if_neg hmine]
    · rw [hturn]
      rfl

/-- The ring after a retransmit request. -/
theorem txQueueRetransmit_ring {retx : List Nat} {next seq : Nat} (hnodup : retx.Nodup)
    (hlength : retx.length ≤ retxMax) (hseq : seq < next) :
    (Xfer.txQueueRetransmit retx seq).Nodup ∧
      (Xfer.txQueueRetransmit retx seq).length ≤ retxMax ∧
      ∀ other ∈ Xfer.txQueueRetransmit retx seq,
        other ∈ retx ∨ other < next ∧ Entry.asked seq = .asked other := by
  unfold Xfer.txQueueRetransmit
  split
  · exact ⟨hnodup, hlength, fun other hother ↦ .inl hother⟩
  · rename_i hnew
    split
    · exact ⟨hnodup, hlength, fun other hother ↦ .inl hother⟩
    · rename_i hroom
      refine ⟨?_, ?_, ?_⟩
      · refine List.Nodup.append hnodup (List.nodup_singleton _) ?_
        intro other hold hlast
        cases List.mem_singleton.1 hlast
        exact hnew (by simpa using hold)
      · rw [List.length_append, List.length_singleton]
        omega
      · intro other hother
        rcases List.mem_append.1 hother with hold | hlast
        · exact .inl hold
        · cases List.mem_singleton.1 hlast
          exact .inr ⟨hseq, rfl⟩

theorem disciplined_handleRetransmit (h : s.Disciplined) (id : UInt32) (seq : Nat) (held : Bool)
    (cap : Nat) : (s.goesOn (.message (.retransmit id seq) held cap)).Disciplined := by
  have hturn : s.machine.turn (.message (.retransmit id seq) held cap) =
      (s.machine.handleRetransmit id seq, []) := rfl
  by_cases hmine : s.machine.tx.active = true ∧ s.machine.tx.id = id
  · have hflow := h.flow hmine.1
    have hgains : gains s.machine (.message (.retransmit id seq) held cap) = [.asked seq] := by
      rw [gains, Turn.heard, if_pos hmine, hturn]
      rfl
    have hbudget : emitted s.log + s.machine.tx.credits ≤ granted (s.log ++ [.asked seq]) := by
      have := hflow.budget
      rw [granted_append]
      exact this
    have hring := And.intro hflow.ring_nodup (And.intro hflow.ring_length
      fun other (hother : other ∈ s.machine.tx.retx) ↦
        (.inl hother : other ∈ s.machine.tx.retx ∨
          other < s.machine.tx.nextSeq ∧ Entry.asked seq = .asked other))
    rw [goesOn, hgains, hturn]
    unfold Xfer.handleRetransmit
    split
    · exact h.flows hmine.1 (hflow.note rfl trivial hring rfl rfl rfl hbudget .inl
        (fun _ hyes ↦ .inl hyes) (fun _ ↦ .inl rfl)) hmine.1 rfl
    · by_cases hsent : seq < s.machine.tx.nextSeq
      · simp only [if_pos hsent]
        exact h.flows hmine.1 (hflow.note rfl trivial
          (txQueueRetransmit_ring hflow.ring_nodup hflow.ring_length hsent) rfl rfl rfl hbudget .inl
          (fun _ hyes ↦ .inl hyes) (fun _ ↦ .inl rfl)) hmine.1 rfl
      · simp only [if_neg hsent]
        exact h.flows hmine.1 (hflow.note rfl trivial hring rfl rfl rfl hbudget .inl
          (fun _ hyes ↦ .inl hyes) (fun _ ↦ .inl rfl)) hmine.1 rfl
  · have hother : s.machine.handleRetransmit id seq = s.machine := by
      rw [Xfer.handleRetransmit, if_pos]
      by_cases hactive : s.machine.tx.active = true
      · exact .inr (.inl fun hid ↦ hmine ⟨hactive, hid⟩)
      · exact .inl (by simpa using hactive)
    rw [hother] at hturn
    refine h.passes (gains_unsent ?_ rfl ?_) (.inl (by rw [hturn]))
    · rw [Turn.heard, if_neg hmine]
    · rw [hturn]
      rfl

/-- A grant raises the credit by no more than it says. -/
theorem handleCredit_credits (x : Xfer) (id : UInt32) (credits : Nat) :
    (x.handleCredit id credits).tx.credits ≤ x.tx.credits + credits := by
  unfold Xfer.handleCredit
  split
  · omega
  · simp only
    split
    · simp only
      omega
    · split
      · exact Nat.mod_le _ _
      · exact Nat.le_add_right _ _

theorem disciplined_handleCredit (h : s.Disciplined) (id : UInt32) (credits : Nat) (held : Bool)
    (cap : Nat) : (s.goesOn (.message (.credit id credits) held cap)).Disciplined := by
  have hturn : s.machine.turn (.message (.credit id credits) held cap) =
      (s.machine.handleCredit id credits, []) := rfl
  by_cases hmine : s.machine.tx.active = true ∧ s.machine.tx.id = id
  · have hflow := h.flow hmine.1
    have hgains : gains s.machine (.message (.credit id credits) held cap) =
        [.granted credits] := by
      rw [gains, Turn.heard, if_pos hmine, hturn]
      rfl
    have hbudget : emitted s.log + (s.machine.handleCredit id credits).tx.credits ≤
        granted (s.log ++ [.granted credits]) := by
      have := hflow.budget
      have := handleCredit_credits s.machine id credits
      rw [granted_append]
      show _ ≤ granted s.log + (credits + 0)
      omega
    -- a grant writes the account and its two marks, and nothing else of the transfer
    have hrest : ∃ credits' accepted, (s.machine.handleCredit id credits).tx =
        { s.machine.tx with
          credits := credits'
          openingCreditAccepted := accepted
          recoveryCreditDue := false } := by
      rw [Xfer.handleCredit, if_neg (by simp [hmine])]
      simp only
      split
      · exact ⟨_, _, rfl⟩
      · split <;> exact ⟨_, _, rfl⟩
    obtain ⟨credits', accepted, hrest⟩ := hrest
    rw [hrest] at hbudget
    rw [goesOn, hgains, hturn]
    refine h.flows hmine.1 (x := s.machine.handleCredit id credits) ?_ ?_ ?_
    · rw [hrest]
      exact hflow.note rfl trivial
        ⟨hflow.ring_nodup, hflow.ring_length, fun seq hseq ↦ .inl hseq⟩ rfl rfl rfl hbudget .inl
        (fun _ hyes ↦ .inl hyes) (fun _ ↦ .inl rfl)
    · rw [hrest]
      exact hmine.1
    · rw [hrest]
  · -- a grant for another transfer is not heard
    have hother : s.machine.handleCredit id credits = s.machine := by
      rw [Xfer.handleCredit, if_pos]
      by_cases hactive : s.machine.tx.active = true
      · exact .inr fun hid ↦ hmine ⟨hactive, hid⟩
      · exact .inl (by simpa using hactive)
    rw [hother] at hturn
    refine h.passes (gains_unsent ?_ rfl ?_) (.inl (by rw [hturn]))
    · rw [Turn.heard, if_neg hmine]
    · rw [hturn]
      rfl

/-- An offer whose chunks have all gone out. -/
theorem Disciplined.all_sent (h : s.Disciplined) (hactive : s.machine.tx.active = true)
    (hall : s.machine.tx.nchunks ≤ s.machine.tx.nextSeq) :
    ∀ seq < s.nchunks, .chunk seq ∈ s.log := by
  intro seq hseq
  rw [(h.flow hactive).sent]
  rw [← h.nchunks hactive] at hseq
  omega

/-- The release of an offer whose chunks have all gone out. -/
theorem Disciplined.releases (h : s.Disciplined) {turn : Turn}
    (hactive : s.machine.tx.active = true)
    (hall : s.machine.tx.nchunks ≤ s.machine.tx.nextSeq)
    (hgains : gains s.machine turn = [.released])
    (htx : (s.machine.turn turn).1.tx = Outgoing.reset) : (s.goesOn turn).Disciplined := by
  rw [goesOn, hgains]
  refine ⟨eachAfter_snoc.2 ⟨h.law, h.all_sent hactive hall⟩, ?_, ?_, ?_, fun _ ↦ htx⟩
  · rw [emitted_snoc rfl, granted_append]
    exact Nat.le_trans h.budget (Nat.le_add_right _ _)
  · simp only [htx]
    nofun
  · simp only [htx]
    nofun

theorem disciplined_handleReceived (h : s.Disciplined) (id : UInt32) (held : Bool) (cap : Nat) :
    (s.goesOn (.message (.received id) held cap)).Disciplined := by
  have hturn : s.machine.turn (.message (.received id) held cap) =
      (s.machine.handleReceived id, []) := rfl
  unfold Xfer.handleReceived at hturn
  split at hturn
  · rename_i hdone
    refine h.releases hdone.1 hdone.2.2.2 ?_ (by rw [hturn])
    rw [gains, hturn]
    show [] ++ [] ++ _ = _
    rw [Turn.released, if_pos ⟨hdone.1, rfl⟩]
    rfl
  · refine h.passes (gains_unsent rfl ?_ ?_) (.inl (by rw [hturn]))
    · rw [hturn, Turn.released, if_neg]
      rintro ⟨hactive, hidle⟩
      rw [hactive] at hidle
      cases hidle
    · rw [hturn]
      rfl

theorem awaiting_iff (x : Xfer) : x.txAwaitingReceipt = true ↔
    x.tx.active = true ∧ x.tx.streaming = true ∧ x.tx.nchunks ≤ x.tx.nextSeq := by
  simp [Xfer.txAwaitingReceipt, and_assoc]

theorem disciplined_expireTx (h : s.Disciplined) (cap : Nat) :
    (s.goesOn (.call .expireTx cap)).Disciplined := by
  have hturn : s.machine.turn (.call .expireTx cap) = (s.machine.expireTx, []) := rfl
  unfold Xfer.expireTx at hturn
  split at hturn
  · rename_i hawaiting
    obtain ⟨hactive, -, hall⟩ := (awaiting_iff _).1 hawaiting
    refine h.releases hactive hall ?_ (by rw [hturn])
    rw [gains, hturn]
    show [] ++ [] ++ _ = _
    rw [Turn.released, if_pos ⟨hactive, rfl⟩]
    rfl
  · refine h.passes (gains_unsent rfl ?_ ?_) (.inl (by rw [hturn]))
    · rw [hturn, Turn.released, if_neg]
      rintro ⟨hactive, hidle⟩
      rw [hactive] at hidle
      cases hidle
    · rw [hturn]
      rfl

theorem disciplined_retryDone (h : s.Disciplined) (cap : Nat) :
    (s.goesOn (.call .retryDone cap)).Disciplined := by
  have hturn : s.machine.turn (.call .retryDone cap) = (s.machine, s.machine.retryDone cap) := rfl
  have hnone : Unsent (s.machine.retryDone cap) →
      (s.goesOn (.call .retryDone cap)).Disciplined := by
    intro hunsent
    refine h.passes (gains_unsent rfl rfl ?_) (.inl (by rw [hturn]))
    rw [hturn]
    exact hunsent
  by_cases hawaiting : s.machine.txAwaitingReceipt = true
  · obtain ⟨hactive, -, hall⟩ := (awaiting_iff _).1 hawaiting
    have hacts : s.machine.retryDone cap = emit cap [] (.sendDoneRetry s.machine.tx.id) := by
      rw [Xfer.retryDone, if_pos hawaiting]
    by_cases hroom : 0 < cap
    · have hgains : gains s.machine (.call .retryDone cap) = [.probed] := by
        rw [gains, hturn, hacts, emit, if_pos (by exact hroom)]
        rfl
      have hflow := h.flow hactive
      rw [goesOn, hgains, hturn]
      refine h.flows hactive (hflow.note rfl ?_
        ⟨hflow.ring_nodup, hflow.ring_length, fun seq hseq ↦ .inl hseq⟩ rfl rfl rfl ?_ .inl
        (fun _ hyes ↦ .inl hyes) (fun _ ↦ .inl rfl)) hactive rfl
      · intro seq hseq
        exact (hflow.sent seq).2 (by omega)
      · have := hflow.budget
        rw [granted_append]
        exact this
    · apply hnone
      rw [hacts, emit, if_neg (by exact hroom)]
      rfl
  · apply hnone
    rw [Xfer.retryDone, if_neg hawaiting]
    rfl

theorem disciplined_pump (h : s.Disciplined) (cap : Nat) :
    (s.goesOn (.call .pump cap)).Disciplined := by
  have hturn : s.machine.turn (.call .pump cap) = s.machine.pump cap := rfl
  unfold Xfer.pump at hturn
  split at hturn
  · refine h.passes (gains_unsent rfl rfl ?_) (.inl (by rw [hturn]))
    rw [hturn]
    rfl
  · rename_i hguard
    simp only [not_or, Bool.not_eq_false] at hguard
    obtain ⟨hactive, hstreaming, -⟩ := hguard
    obtain ⟨new, hacts, hflow, -, hstays, -, hnchunks⟩ :=
      (h.flow hactive).pumpLoop cap batchMax hstreaming []
    simp only [List.nil_append] at hacts
    simp only [hacts] at hturn
    rw [hactive] at hstays
    split at hturn
    · rename_i hdone
      have hgains : gains s.machine (.call .pump cap) = new.filterMap Action.entry ++ [.done] := by
        rw [gains, hturn, List.filterMap_append]
        show [] ++ _ ++ [] = _
        simp [Action.entry]
      rw [goesOn, hgains, hturn, ← List.append_assoc]
      refine h.flows hactive (hflow.note rfl ?_
        ⟨hflow.ring_nodup, hflow.ring_length, fun seq hseq ↦ .inl hseq⟩ rfl rfl rfl ?_ .inl
        (fun _ hyes ↦ .inl hyes) (fun _ ↦ .inl rfl)) hstays hnchunks
      · intro seq hseq
        exact (hflow.sent seq).2 (by omega)
      · have := hflow.budget
        rw [granted_append]
        exact this
    · have hgains : gains s.machine (.call .pump cap) = new.filterMap Action.entry := by
        rw [gains, hturn]
        show [] ++ _ ++ [] = _
        simp
      rw [goesOn, hgains, hturn]
      exact h.flows hactive hflow hstays hnchunks

/-- Every turn writes what the log allows. -/
theorem disciplined_step (h : s.Disciplined) (turn : Turn) : (s.step turn).Disciplined := by
  cases turn with
  | call call cap =>
      cases call with
      | offer kind metadata hlength data total =>
          exact disciplined_offer s kind metadata hlength data total cap
      | retryOffer => exact disciplined_retryOffer h cap
      | provide data => exact disciplined_provide h data cap
      | provideFail =>
          show (s.goesOn (.call .provideFail cap)).Disciplined
          have hturn : s.machine.turn (.call .provideFail cap) = s.machine.provideFail cap := rfl
          -- a failed provider gives the transfer up, if there is one
          unfold Xfer.provideFail at hturn
          split at hturn
          · exact h.passes (gains_unsent rfl rfl (unsent_turn nofun nofun)) (.inl (by rw [hturn]))
          · exact h.passes (gains_unsent rfl rfl (unsent_turn nofun nofun)) (.inr (by rw [hturn]))
      | pump => exact disciplined_pump h cap
      | retryDone => exact disciplined_retryDone h cap
      | cancelTx =>
          show (s.goesOn (.call .cancelTx cap)).Disciplined
          have hturn : s.machine.turn (.call .cancelTx cap) = s.machine.cancelTx cap := rfl
          unfold Xfer.cancelTx at hturn
          split at hturn
          · exact h.passes (gains_unsent rfl rfl (unsent_turn nofun nofun)) (.inr (by rw [hturn]))
          · exact h.passes (gains_unsent rfl rfl (unsent_turn nofun nofun)) (.inl (by rw [hturn]))
      | expireTx => exact disciplined_expireTx h cap
      | requestLazy id =>
          refine h.passes (gains_unsent rfl rfl (unsent_turn nofun nofun)) (.inl ?_)
          show (s.machine.requestLazy cap id).1.tx = _
          unfold Xfer.requestLazy
          split <;> rfl
      | setRxBuffer rxBuf =>
          refine h.passes (gains_unsent rfl rfl (unsent_turn nofun nofun)) (.inl ?_)
          show (s.machine.setRxBuffer rxBuf).tx = _
          unfold Xfer.setRxBuffer
          split
          · rfl
          · split <;> rfl
      | sweepRx =>
          refine h.passes (gains_unsent rfl rfl (unsent_turn nofun nofun)) (.inl ?_)
          show (s.machine.sweepRx cap).1.tx = _
          unfold Xfer.sweepRx
          split <;> rfl
      | cancelRx =>
          refine h.passes (gains_unsent rfl rfl (unsent_turn nofun nofun)) (.inl ?_)
          show (s.machine.cancelRx cap).1.tx = _
          unfold Xfer.cancelRx
          split <;> rfl
      | linkDown => exact h.passes (gains_unsent rfl rfl (unsent_turn nofun nofun)) linkDown_tx.1
      | rxSealReplaced =>
          exact h.passes (gains_unsent rfl rfl (unsent_turn nofun nofun)) (.inl rfl)
  | message message held cap =>
      cases message with
      | offer offer =>
          exact h.passes (gains_unsent rfl rfl (unsent_turn nofun nofun))
            (.inl (Xfer.handleOffer_tx offer held))
      | request id => exact disciplined_handleRequest h id held cap
      | chunk chunk =>
          exact h.passes (gains_unsent rfl rfl (unsent_turn nofun nofun))
            (.inl (Xfer.handleChunk_tx chunk))
      | credit id credits => exact disciplined_handleCredit h id credits held cap
      | retransmit id seq => exact disciplined_handleRetransmit h id seq held cap
      | done id =>
          exact h.passes (gains_unsent rfl rfl (unsent_turn nofun nofun))
            (.inl (Xfer.handleDone_tx id))
      | received id => exact disciplined_handleReceived h id held cap
      | cancel id =>
          exact h.passes (gains_unsent rfl rfl (unsent_turn nofun nofun)) (handleCancel_tx id).1

theorem disciplined_init (rxBuf : List UInt8) : (init rxBuf).Disciplined where
  law := eachAfter_nil
  budget := Nat.le_refl _
  flow h := by cases h
  nchunks h := by cases h
  idle _ := rfl

end Sender

/-! ## Dones and the ids of what goes out -/

section Out

variable {x : Xfer} {turn : Turn}

/-- The id of an action that goes into the log. -/
def Action.sentId : Action → UInt32
  | .sendChunk id _ => id
  | .sendDone id => id
  | .sendDoneRetry id => id
  | _ => 0

/-- The batch loop names chunks of the offer that is out. -/
theorem pumpLoop_chunks (cap room : Nat) (tx : Outgoing) (acts : List Action) :
    (Xfer.pumpLoop cap room tx acts).1.id = tx.id ∧
      ∀ action ∈ (Xfer.pumpLoop cap room tx acts).2,
        action ∈ acts ∨ ∃ seq, action = .sendChunk tx.id seq := by
  induction room generalizing tx acts with
  | zero => exact ⟨rfl, fun action haction ↦ .inl haction⟩
  | succ room ih =>
      have hsends : ∀ tx' : Outgoing, tx'.id = tx.id → ∀ seq,
          (Xfer.pumpLoop cap room tx' (acts ++ [.sendChunk tx.id seq])).1.id = tx.id ∧
            ∀ action ∈ (Xfer.pumpLoop cap room tx' (acts ++ [.sendChunk tx.id seq])).2,
              action ∈ acts ∨ ∃ seq, action = .sendChunk tx.id seq := by
        intro tx' hid seq
        obtain ⟨hsame, hall⟩ := ih tx' (acts ++ [.sendChunk tx.id seq])
        refine ⟨hsame.trans hid, fun action haction ↦ ?_⟩
        rcases hall action haction with hold | ⟨other, rfl⟩
        · rcases List.mem_append.1 hold with hold | hnew
          · exact .inl hold
          · exact .inr ⟨seq, List.mem_singleton.1 hnew⟩
        · exact .inr ⟨other, by rw [hid]⟩
      unfold Xfer.pumpLoop
      split
      · split
        · exact hsends _ (by rfl) _
        · split
          · exact hsends _ (by rfl) _
          · exact ⟨rfl, fun action haction ↦ .inl haction⟩
      · exact ⟨rfl, fun action haction ↦ .inl haction⟩

/-- An action that goes into the log is written by the pump or the probe. -/
theorem sent_cases {action : Action} (hmem : action ∈ (x.turn turn).2)
    (hsent : action.entry ≠ none) :
    ∃ cap, turn = .call .pump cap ∨ turn = .call .retryDone cap := by
  by_contra hother
  have hunsent : Unsent (x.turn turn).2 :=
    unsent_turn (fun cap h ↦ hother ⟨cap, .inl h⟩) (fun cap h ↦ hother ⟨cap, .inr h⟩)
  rw [Unsent, List.filterMap_eq_nil_iff] at hunsent
  exact hsent (hunsent action hmem)

/-- What the pump writes: chunks of the offer, and a done when the ring is empty. -/
theorem mem_pump {cap : Nat} {action : Action} (hmem : action ∈ (x.pump cap).2) :
    (∃ seq, action = .sendChunk x.tx.id seq) ∨
      action = .sendDone x.tx.id ∧ (x.pump cap).1.tx.retx = [] := by
  unfold Xfer.pump at hmem ⊢
  split at hmem
  · cases hmem
  · rename_i hguard
    rw [if_neg hguard]
    obtain ⟨hid, hall⟩ := pumpLoop_chunks cap batchMax x.tx []
    have hchunks : ∀ action ∈ (Xfer.pumpLoop cap batchMax x.tx []).2,
        ∃ seq, action = .sendChunk x.tx.id seq := by
      intro action haction
      exact (hall action haction).resolve_left (by simp)
    simp only at hmem ⊢
    split at hmem
    · rename_i hdone
      rw [if_pos hdone]
      rcases List.mem_append.1 hmem with hchunk | hlast
      · exact .inl (hchunks action hchunk)
      · rw [List.mem_singleton.1 hlast, hid]
        exact .inr ⟨rfl, hdone.2.1⟩
    · exact .inl (hchunks action hmem)

/-- Whatever goes out names the offer that is out, and a done goes out with the ring empty. -/
theorem sent_names {action : Action} (hmem : action ∈ (x.turn turn).2)
    (hsent : action.entry ≠ none) :
    action.sentId = x.tx.id ∧ (action.entry = some .done → (x.turn turn).1.tx.retx = []) := by
  obtain ⟨cap, rfl | rfl⟩ := sent_cases hmem hsent
  · rcases mem_pump hmem with ⟨seq, rfl⟩ | ⟨rfl, hring⟩
    · exact ⟨rfl, nofun⟩
    · exact ⟨rfl, fun _ ↦ hring⟩
  · have hprobe : action = .sendDoneRetry x.tx.id := by
      have hmem : action ∈ x.retryDone cap := hmem
      unfold Xfer.retryDone emit at hmem
      split at hmem
      · split at hmem
        · simpa using hmem
        · cases hmem
      · cases hmem
    subst hprobe
    exact ⟨rfl, nofun⟩

end Out

/-! ## Slices -/

/-- What `dh_xfer_chunk_at` returns for each chunk in turn. -/
def Xfer.slices (x : Xfer) : List (List UInt8) :=
  (List.range x.tx.nchunks).filterMap fun seq ↦ (x.chunkAt seq).map ClipChunk.data

/-- The slices are the blocks of the payload. -/
theorem slices_eq {x : Xfer} {payload : List UInt8} (hactive : x.tx.active = true)
    (hdata : x.tx.data = some payload) (hlength : payload.length = x.tx.total.toNat)
    (hnchunks : x.tx.nchunks = chunkCount x.tx.total)
    (hsmall : x.tx.total.toNat + chunkSize ≤ 2 ^ 42) :
    x.slices = (List.range x.tx.nchunks).map (block chunkSize payload) := by
  rw [Xfer.slices, ← List.filterMap_eq_map]
  apply List.filterMap_congr
  intro seq hseq
  have hseq := List.mem_range.1 hseq
  rw [Xfer.chunkAt, hdata]
  simp only [hactive, Bool.true_eq_false, false_or, if_neg (Nat.not_le.2 hseq), Option.map_some,
    Function.comp_apply, Option.some.injEq]
  rw [hnchunks] at hseq ⊢
  rw [chunkLen_eq hsmall hseq, block, ← hlength, ← List.length_drop, List.take_eq_take_min,
    Nat.min_assoc, Nat.min_self, ← List.take_eq_take_min]

/-- The slices partition the payload, all but the last of the full size. -/
theorem slices_partition {x : Xfer} {payload : List UInt8} (hactive : x.tx.active = true)
    (hdata : x.tx.data = some payload) (hlength : payload.length = x.tx.total.toNat)
    (hnchunks : x.tx.nchunks = chunkCount x.tx.total)
    (hsmall : x.tx.total.toNat + chunkSize ≤ 2 ^ 42) :
    x.slices.length = x.tx.nchunks ∧ x.slices.flatten = payload ∧
      ∀ seq, seq + 1 < x.tx.nchunks → x.slices[seq]?.map List.length = some chunkSize := by
  have hcount : x.tx.nchunks = (x.tx.total.toNat + chunkSize - 1) / chunkSize :=
    hnchunks.trans (chunkCount_eq hsmall)
  rw [slices_eq hactive hdata hlength hnchunks hsmall]
  refine ⟨by simp, ?_, ?_⟩
  · rw [flatten_blocks, List.take_of_length_le]
    rw [hlength, hcount]
    simp only [chunkSize]
    omega
  · intro seq hseq
    rw [List.getElem?_map, List.getElem?_range (by omega), Option.map_some, Option.map_some, block,
      List.length_take, List.length_drop, hlength]
    rw [hcount] at hseq
    simp only [chunkSize, Option.some.injEq] at hseq ⊢
    omega

/-! ## Runs -/

/-- The sender's discipline. Over every sequence of calls and messages, the log of each offer is
allowed entry by entry, the ring of retransmit requests holds no number twice, none that has not
gone out and at most 64, what goes out names the offer, and a first done goes out with the ring
empty. The slices of a payload the chunk count can number partition it, every one but the last of
1024 bytes. -/
theorem sender_disciplined (rxBuf : List UInt8) (turns : List Turn) :
    let s := run Sender.step (Sender.init rxBuf) turns
    EachAfter (Allowed s.lazy s.nchunks) s.log ∧
    s.machine.tx.retx.Nodup ∧ s.machine.tx.retx.length ≤ retxMax ∧
    (∀ seq ∈ s.machine.tx.retx, seq < s.machine.tx.nextSeq) ∧
    (∀ turn, ∀ action ∈ (s.machine.turn turn).2, action.entry ≠ none →
      action.sentId = s.machine.tx.id ∧
        (action.entry = some .done → (s.machine.turn turn).1.tx.retx = [])) ∧
    ∀ payload, s.machine.tx.active = true → s.machine.tx.data = some payload →
      payload.length = s.machine.tx.total.toNat →
      s.machine.tx.total.toNat + chunkSize ≤ 2 ^ 42 →
      s.machine.slices.length = s.machine.tx.nchunks ∧ s.machine.slices.flatten = payload ∧
        ∀ seq, seq + 1 < s.machine.tx.nchunks →
          s.machine.slices[seq]?.map List.length = some chunkSize := by
  intro s
  have hdisciplined : s.Disciplined :=
    run_invariant Sender.Disciplined (Sender.disciplined_init rxBuf)
      (fun _ turn h ↦ Sender.disciplined_step h turn) turns
  have hring : s.machine.tx.retx.Nodup ∧ s.machine.tx.retx.length ≤ retxMax ∧
      ∀ seq ∈ s.machine.tx.retx, seq < s.machine.tx.nextSeq := by
    by_cases hactive : s.machine.tx.active = true
    · have hflow := hdisciplined.flow hactive
      exact ⟨hflow.ring_nodup, hflow.ring_length, hflow.ring_lt⟩
    · rw [hdisciplined.idle (by simpa using hactive)]
      exact ⟨List.nodup_nil, Nat.zero_le _, nofun⟩
  refine ⟨hdisciplined.law, hring.1, hring.2.1, hring.2.2, ?_, ?_⟩
  · intro turn action hmem hsent
    exact sent_names hmem hsent
  · intro payload hactive hdata hlength hsmall
    exact slices_partition hactive hdata hlength (hdisciplined.flow hactive).nchunks_eq hsmall

/-- One byte is offered, requested and sent; the chunk is asked for again with no credit left. -/
def probedTurns : List Turn :=
  [.call (.offer 0 [] noMetadata_fits (some [7]) 1) 4,
   .message (.request 1) false 4,
   .message (.credit 1 1) false 4,
   .call .pump 4,
   .message (.retransmit 1 0) false 4]

/-- A done is sent again as a probe while the ring still holds a chunk, and a payload of 2 ^ 42
bytes has no slices. -/
theorem done_probed_with_ring :
    let s := run Sender.step (Sender.init []) probedTurns
    s.machine.tx.retx = [0] ∧
      (s.machine.turn (.call .retryDone 4)).2 = [.sendDoneRetry 1] ∧
      messageOf s.machine (.sendDoneRetry 1) = some (.done 1) ∧
      chunkCount (2 ^ 42) = 0 := by
  decide

end DeskhopPlus.Transfer
