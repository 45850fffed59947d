import DeskhopPlus.Library.Runs
import DeskhopPlus.Transfer.Ledger
import DeskhopPlus.Transfer.Turns

/-!
# The receive that is assembling

What holds of the incoming transfer while it is active: its size against the buffer, the count of
chunks against their set, the frontier, and the chunks asked for. `Represented` is the invariant,
`represented_step` keeps it through every turn, and `receiver_represented` adds where a turn writes
and when a receive is completed.
-/

namespace DeskhopPlus.Transfer

open Bytes Wire Runs

/-- The largest receive buffer, the 64 MiB of `DH_CLIP_CAP_MB_MAX`. -/
def bufferMax : Nat := 64 * 1024 * 1024

/-- The representation of an active receive. -/
structure Incoming.Represented (rx : Incoming) (rxBuf : List UInt8) : Prop where
  total_le : rx.total.toNat ≤ rxBuf.length
  nchunks_eq : rx.nchunks = (rx.total.toNat + chunkSize - 1) / chunkSize
  nchunks_le : rx.nchunks ≤ maxChunks
  nreceived_eq : rx.nreceived = (rx.received.filter (· < rx.nchunks)).card
  received_lt : ∀ seq ∈ rx.received, seq < rx.nchunks
  received_le : ∀ seq ∈ rx.received, seq ≤ rx.maxSeqSeen
  frontier : rx.anySeen = true → rx.maxSeqSeen ∈ rx.received
  unseen : rx.anySeen = false → rx.received = ∅
  disjoint : ∀ seq ∈ rx.received, seq ∉ rx.requested

/-- A machine whose buffer is not too large and whose active receive is represented. -/
structure Xfer.Assembling (x : Xfer) : Prop where
  buffer : x.rxBuf.length ≤ bufferMax
  unfinished : x.rx.active = true → x.rx.completed = false
  represented : x.rx.active = true → x.rx.Represented x.rxBuf

/-- A buffer the caller hands over is not too large. -/
def Turn.BufferBounded : Turn → Prop
  | .call (.setRxBuffer rxBuf) _ => rxBuf.length ≤ bufferMax
  | _ => True

/-- The bytes a turn writes lie in the part of the buffer the active receive has taken. -/
def Xfer.WritesInside (x x' : Xfer) : Prop :=
  x'.rxBuf = x.rxBuf ∨
    ∃ offset data, x.rx.active = true ∧ x'.rxBuf = overwrite x.rxBuf offset data ∧
      offset + data.length ≤ x.rx.total.toNat ∧ x.rx.total.toNat ≤ x.rxBuf.length

/-- The active receive is completed by this turn. -/
def Xfer.Completes (x : Xfer) (turn : Turn) : Prop :=
  x.rx.active = true ∧ (x.turn turn).1.rx.completed = true

/-- The turn stores the last chunk of the active receive that was missing. -/
def Xfer.Fills (x : Xfer) (turn : Turn) : Prop :=
  x.rx.active = true ∧ x.rx.nreceived < x.rx.nchunks ∧
    (x.turn turn).1.rx.nreceived = x.rx.nchunks

/-- The turn is the done of an active receive that has no chunks. -/
def Xfer.Concludes (x : Xfer) (turn : Turn) : Prop :=
  x.rx.active = true ∧ x.rx.lazy = false ∧ x.rx.nchunks = 0 ∧
    ∃ held cap, turn = .message (.done x.rx.id) held cap

/-! ## One turn -/

section Step

variable {x : Xfer} {turn : Turn}

/-- The sizes of a receive that fits a bounded buffer are small. -/
theorem Incoming.Represented.small {rx : Incoming} {rxBuf : List UInt8} (h : rx.Represented rxBuf)
    (hbuffer : rxBuf.length ≤ bufferMax) : rx.total.toNat + chunkSize ≤ 2 ^ 42 := by
  have := h.total_le
  simp only [bufferMax] at hbuffer
  simp only [chunkSize]
  omega

/-- A fresh chunk ends inside the payload. -/
theorem Xfer.Fresh.end_le {chunk : ClipChunk} (hfresh : x.Fresh chunk) (h : x.Assembling) :
    chunk.seq.toNat * chunkSize + chunk.data.length ≤ x.rx.total.toNat := by
  have hrep := h.represented hfresh.active
  have hsmall := hrep.small h.buffer
  have hinside := hfresh.inside
  have hcount : x.rx.nchunks = chunkCount x.rx.total := by
    rw [chunkCount_eq hsmall, hrep.nchunks_eq]
  rw [hcount] at hinside
  rw [hfresh.length, hcount, chunkLen_eq hsmall hinside]
  rw [chunkCount_eq hsmall] at hinside
  simp only [chunkSize] at hinside ⊢
  omega

theorem Xfer.Fresh.buffer_length {chunk : ClipChunk} (hfresh : x.Fresh chunk) (h : x.Assembling) :
    (x.storeChunk chunk).rxBuf.length = x.rxBuf.length := by
  have hend := hfresh.end_le h
  have hfits := (h.represented hfresh.active).total_le
  exact overwrite_length (by omega)

/-- Storing a fresh chunk keeps the representation. -/
theorem Xfer.Fresh.represented {chunk : ClipChunk} (hfresh : x.Fresh chunk) (h : x.Assembling) :
    (x.storeChunk chunk).rx.Represented (x.storeChunk chunk).rxBuf := by
  have hrep := h.represented hfresh.active
  have hinsert : ∀ seq ∈ insert chunk.seq.toNat x.rx.received, seq < x.rx.nchunks := by
    intro seq hseq
    rcases Finset.mem_insert.1 hseq with rfl | hold
    · exact hfresh.inside
    · exact hrep.received_lt seq hold
  refine
    { total_le := ?_
      nchunks_eq := hrep.nchunks_eq
      nchunks_le := hrep.nchunks_le
      nreceived_eq := ?_
      received_lt := hinsert
      received_le := ?_
      frontier := ?_
      unseen := nofun
      disjoint := ?_ }
  · rw [hfresh.buffer_length h]
    exact hrep.total_le
  · show x.rx.nreceived + 1 =
      ((insert chunk.seq.toNat x.rx.received).filter (· < x.rx.nchunks)).card
    rw [Finset.filter_true_of_mem hinsert, Finset.card_insert_of_notMem hfresh.lacks,
      hrep.nreceived_eq, Finset.filter_true_of_mem hrep.received_lt]
  · -- the frontier is the new chunk, or stays ahead of it
    intro seq hseq
    show seq ≤ if x.rx.anySeen = false ∨ x.rx.maxSeqSeen < chunk.seq.toNat then chunk.seq.toNat
      else x.rx.maxSeqSeen
    rcases Finset.mem_insert.1 hseq with rfl | hold
    · split
      · exact Nat.le_refl _
      · rename_i hbehind
        simp only [not_or, Nat.not_lt] at hbehind
        exact hbehind.2
    · have hle := hrep.received_le seq hold
      split
      · rename_i hfrontier
        rcases hfrontier with hunseen | hahead
        · rw [hrep.unseen hunseen] at hold
          simp at hold
        · omega
      · exact hle
  · intro _
    show (if x.rx.anySeen = false ∨ x.rx.maxSeqSeen < chunk.seq.toNat then chunk.seq.toNat
      else x.rx.maxSeqSeen) ∈ insert chunk.seq.toNat x.rx.received
    split
    · exact Finset.mem_insert_self _ _
    · rename_i hbehind
      simp only [not_or, Bool.not_eq_false] at hbehind
      exact Finset.mem_insert_of_mem (hrep.frontier hbehind.1)
  · intro seq hseq
    show seq ∉ x.rx.requested.erase chunk.seq.toNat
    rcases Finset.mem_insert.1 hseq with rfl | hold
    · exact Finset.notMem_erase _ _
    · exact fun hmem ↦ hrep.disjoint seq hold (Finset.mem_of_mem_erase hmem)

/-- An offer that is taken up and fits starts with nothing received. -/
theorem represented_takes {offer : ClipOffer} (h : x.Assembling) (hfits : x.Fits offer)
    (active lazy : Bool) :
    Incoming.Represented { Xfer.acceptIdentity offer with active := active, lazy := lazy }
      x.rxBuf where
  total_le := hfits.total
  nchunks_eq := by
    have hbuffer := h.buffer
    have htotal := hfits.total
    refine chunkCount_eq ?_
    simp only [bufferMax] at hbuffer
    simp only [chunkSize]
    omega
  nchunks_le := hfits.nchunks
  nreceived_eq := rfl
  received_lt seq hseq := absurd hseq (Finset.notMem_empty seq)
  received_le seq hseq := absurd hseq (Finset.notMem_empty seq)
  frontier hseen := by cases hseen
  unseen _ := rfl
  disjoint seq hseq := absurd hseq (Finset.notMem_empty seq)

theorem assembling_init {rxBuf : List UInt8} (hbuffer : rxBuf.length ≤ bufferMax) :
    (Xfer.init rxBuf).Assembling where
  buffer := hbuffer
  unfinished hactive := by cases hactive
  represented hactive := by cases hactive

/-- Asking for missing chunks keeps the representation. -/
theorem Incoming.Represented.asks {rx rx' : Incoming} {rxBuf : List UInt8}
    (h : rx.Represented rxBuf) (hasks : rx.Asks rx') : rx'.Represented rxBuf := by
  have hdisjoint : ∀ seq ∈ rx.received, seq ∉ rx'.requested := by
    intro seq hseq hasked
    rcases hasks.asked seq hasked with hold | hlacks
    · exact h.disjoint seq hseq hold
    · exact hlacks hseq
  rw [hasks.same]
  exact ⟨h.total_le, h.nchunks_eq, h.nchunks_le, h.nreceived_eq, h.received_lt, h.received_le,
    h.frontier, h.unseen, hdisjoint⟩

/-- Every turn keeps the representation. -/
theorem assembling_step (h : x.Assembling) (hbounded : turn.BufferBounded) :
    (x.turn turn).1.Assembling := by
  have hmove := x.turn_rx turn
  unfold Xfer.Moves at hmove
  generalize hrx : (x.turn turn).1.rx = rx at hmove
  generalize hbuf : (x.turn turn).1.rxBuf = rxBuf at hmove
  generalize (x.turn turn).2 = acts at hmove
  have hsuffices : rxBuf.length ≤ bufferMax ∧ (rx.active = true → rx.completed = false) ∧
      (rx.active = true → rx.Represented rxBuf) := by
    cases hmove with
    | asks hasks hquiet =>
        refine ⟨h.buffer, ?_, ?_⟩
        · rw [hasks.same]
          exact h.unfinished
        · intro hactive
          have hactive' : x.rx.active = true := by
            rw [hasks.same] at hactive
            exact hactive
          exact (h.represented hactive').asks hasks
    | swaps hturn hidle =>
        subst hturn
        refine ⟨hbounded, ?_, ?_⟩
        · rw [hidle]
          nofun
        · rw [hidle]
          nofun
    | stops hquiet => exact ⟨h.buffer, nofun, nofun⟩
    | forgets hboundary hquiet => exact ⟨h.buffer, nofun, nofun⟩
    | takes hturn hid hnewer hfits hquiet =>
        refine ⟨h.buffer, fun _ ↦ rfl, ?_⟩
        intro hactive
        exact represented_takes h (hfits hactive) _ _
    | stores hturn hfresh hmore hquiet =>
        refine ⟨?_, ?_, ?_⟩
        · rw [hfresh.buffer_length h]
          exact h.buffer
        · exact fun _ ↦ h.unfinished hfresh.active
        · intro _
          have hrep := hfresh.represented h
          exact ⟨hrep.total_le, hrep.nchunks_eq, hrep.nchunks_le, hrep.nreceived_eq,
            hrep.received_lt, hrep.received_le, hrep.frontier, hrep.unseen, hrep.disjoint⟩
    | fills hturn hfresh hall hroom =>
        refine ⟨?_, nofun, nofun⟩
        rw [hfresh.buffer_length h]
        exact h.buffer
    | finishes hturn hactive hrequested hall hroom => exact ⟨h.buffer, nofun, nofun⟩
    | repeats hturn hcompleted => exact ⟨h.buffer, h.unfinished, h.represented⟩
  obtain ⟨hbuffer, hunfinished, hrepresented⟩ := hsuffices
  subst hrx hbuf
  exact ⟨hbuffer, hunfinished, hrepresented⟩

/-- A turn swaps the buffer of an idle machine or writes inside the payload. -/
theorem writesInside_turn (h : x.Assembling) :
    (∃ rxBuf cap, turn = .call (.setRxBuffer rxBuf) cap ∧ x.rx.active = false) ∨
      x.WritesInside (x.turn turn).1 := by
  have hmove := x.turn_rx turn
  unfold Xfer.Moves at hmove
  unfold Xfer.WritesInside
  generalize (x.turn turn).1.rx = rx, (x.turn turn).1.rxBuf = rxBuf,
    (x.turn turn).2 = acts at hmove ⊢
  have hstores : ∀ chunk, x.Fresh chunk →
      ∃ offset data, x.rx.active = true ∧
        (x.storeChunk chunk).rxBuf = overwrite x.rxBuf offset data ∧
        offset + data.length ≤ x.rx.total.toNat ∧ x.rx.total.toNat ≤ x.rxBuf.length :=
    fun chunk hfresh ↦ ⟨_, _, hfresh.active, rfl, hfresh.end_le h,
      (h.represented hfresh.active).total_le⟩
  cases hmove with
  | swaps hturn hidle => exact .inl ⟨_, _, hturn, hidle⟩
  | stores hturn hfresh hmore hquiet => exact .inr (.inr (hstores _ hfresh))
  | fills hturn hfresh hall hroom => exact .inr (.inr (hstores _ hfresh))
  | asks | stops | forgets | takes | finishes | repeats => exact .inr (.inl rfl)

/-! ## When a receive is completed -/

/-- An active receive lacks a chunk, unless it has none. -/
def Xfer.Lacking (x : Xfer) : Prop :=
  x.rx.active = true → x.rx.nchunks = 0 ∨ x.rx.nreceived < x.rx.nchunks

/-- Where there is room for the delivery, a receive with all its chunks does not stay active. -/
theorem lacking_step (h : x.Lacking) (hroom : 0 < turn.cap) : (x.turn turn).1.Lacking := by
  have hmove := x.turn_rx turn
  unfold Xfer.Moves at hmove
  unfold Xfer.Lacking at h ⊢
  generalize (x.turn turn).1.rx = rx, (x.turn turn).1.rxBuf = rxBuf,
    (x.turn turn).2 = acts at hmove ⊢
  cases hmove with
  | asks hasks hquiet =>
      rw [hasks.same]
      exact h
  | swaps hturn hidle => exact h
  | stops hquiet => nofun
  | forgets hboundary hquiet => nofun
  | takes hturn hid hnewer hfits hquiet =>
      intro _
      exact Nat.eq_zero_or_pos _
  | stores hturn hfresh hmore hquiet =>
      intro _
      rcases hmore with hmore | hnone
      · exact .inr hmore
      · subst hturn
        exact absurd hroom (by simp [Turn.cap, hnone])
  | fills hturn hfresh hall hroom => nofun
  | finishes hturn hactive hrequested hall hroom => nofun
  | repeats hturn hcompleted => exact h

/-- What the completion of a receive comes with. -/
theorem delivered_of_completes (h : x.Assembling) (hcompletes : x.Completes turn) :
    .delivered x.rx.id ∈ (x.turn turn).2 ∧ (x.turn turn).1.rx.active = false := by
  obtain ⟨hactive, hcompleted⟩ := hcompletes
  have hunfinished := h.unfinished hactive
  have hmove := x.turn_rx turn
  unfold Xfer.Moves at hmove
  generalize (x.turn turn).1.rx = rx, (x.turn turn).1.rxBuf = rxBuf, (x.turn turn).2 = acts
    at hmove hcompleted ⊢
  have hannounced : ∀ cap, .delivered x.rx.id ∈ Xfer.announce cap x.rx.id := by
    intro cap
    unfold Xfer.announce emit
    split <;> simp
  cases hmove with
  | asks hasks hquiet =>
      rw [hasks.same, hunfinished] at hcompleted
      cases hcompleted
  | forgets | takes => cases hcompleted
  | fills hturn hfresh hall hroom => exact ⟨hannounced _, rfl⟩
  | finishes hturn hactive hrequested hall hroom => exact ⟨hannounced _, rfl⟩
  | swaps | stops | stores | repeats =>
      rw [show x.rx.completed = true from hcompleted] at hunfinished
      cases hunfinished

/-- A receive is completed by the chunk it lacked last, or by the done of an empty one. -/
theorem completes_iff (h : x.Assembling) (hlacking : x.Lacking) (hroom : 0 < turn.cap) :
    x.Completes turn ↔ x.Fills turn ∨ x.Concludes turn := by
  constructor
  · rintro ⟨hactive, hcompleted⟩
    have hunfinished := h.unfinished hactive
    have hmove := x.turn_rx turn
    unfold Xfer.Moves at hmove
    unfold Xfer.Fills
    generalize (x.turn turn).1.rx = rx, (x.turn turn).1.rxBuf = rxBuf, (x.turn turn).2 = acts
      at hmove hcompleted ⊢
    cases hmove with
    | asks hasks hquiet =>
        rw [hasks.same, hunfinished] at hcompleted
        cases hcompleted
    | forgets | takes => cases hcompleted
    | fills hturn hfresh hall hroom =>
        have hinside := hfresh.inside
        have hless : x.rx.nreceived < x.rx.nchunks := by
          rcases hlacking hactive with hnone | hless
          · omega
          · exact hless
        refine .inl ⟨hactive, hless, ?_⟩
        show x.rx.nreceived + 1 = x.rx.nchunks
        omega
    | finishes hturn hactive hrequested hall hroom =>
        -- a done completes only a transfer of no chunks: any other was completed by its last
        have hnone : x.rx.nchunks = 0 := by
          rcases hlacking hactive with hnone | hless
          · exact hnone
          · omega
        exact .inr ⟨hactive, hrequested, hnone, _, _, hturn⟩
    | swaps | stops | stores | repeats =>
        rw [show x.rx.completed = true from hcompleted] at hunfinished
        cases hunfinished
  · rintro (⟨hactive, hless, hfull⟩ | ⟨hactive, hrequested, hnone, held, cap, rfl⟩)
    · refine ⟨hactive, ?_⟩
      have hmove := x.turn_rx turn
      unfold Xfer.Moves at hmove
      generalize (x.turn turn).1.rx = rx, (x.turn turn).1.rxBuf = rxBuf, (x.turn turn).2 = acts
        at hmove hfull ⊢
      cases hmove with
      | asks hasks hquiet =>
          rw [hasks.same] at hfull
          exact absurd hfull (Nat.ne_of_lt hless)
      | forgets | takes =>
          rw [← hfull] at hless
          exact absurd hless (Nat.not_lt_zero _)
      | stores hturn hfresh hmore hquiet =>
          have hfull : x.rx.nreceived + 1 = x.rx.nchunks := hfull
          rcases hmore with hmore | hcap
          · omega
          · subst hturn
            exact absurd hroom (by simp [Turn.cap, hcap])
      | fills hturn hfresh hall hroom => rfl
      | finishes hturn hactive hrequested hall hroom => rfl
      | swaps | stops | repeats => exact absurd hfull (Nat.ne_of_lt hless)
    · refine ⟨hactive, ?_⟩
      have hunfinished := h.unfinished hactive
      show (x.handleDone cap x.rx.id).1.rx.completed = true
      rw [Xfer.handleDone, if_neg (by simp [hunfinished]), if_neg (by simp [hactive, hrequested]),
        if_neg (by omega), Xfer.rxComplete, if_pos (by exact hroom)]

end Step

/-- The machine after a turn, its actions aside. -/
def Xfer.next (x : Xfer) (turn : Turn) : Xfer := (x.turn turn).1

/-- The receiver's representation. After every sequence of turns on a machine whose buffers are at
most 64 MiB an active receive is represented, and every turn either swaps the buffer of an idle
machine or writes inside the payload. Where every turn has room for an action, a receive is
completed exactly by the turn that stores its last missing chunk or by the done of an empty one,
and it is then delivered. -/
theorem receiver_represented {rxBuf : List UInt8} (hbuffer : rxBuf.length ≤ bufferMax)
    {turns : List Turn} (hbounded : ∀ turn ∈ turns, turn.BufferBounded) :
    let x := run Xfer.next (Xfer.init rxBuf) turns
    (x.rx.active = true → x.rx.Represented x.rxBuf) ∧
    ∀ turn,
      ((∃ rxBuf cap, turn = .call (.setRxBuffer rxBuf) cap ∧ x.rx.active = false) ∨
        x.WritesInside (x.next turn)) ∧
      ((∀ turn ∈ turns, 0 < turn.cap) → 0 < turn.cap →
        (x.Completes turn ↔ x.Fills turn ∨ x.Concludes turn) ∧
        (x.Completes turn →
          .delivered x.rx.id ∈ (x.turn turn).2 ∧ (x.next turn).rx.active = false)) := by
  intro x
  have hassembling : x.Assembling :=
    run_invariant_of_mem Xfer.Assembling (assembling_init hbuffer)
      (fun _ turn hturn h ↦ assembling_step h (hbounded turn hturn))
  refine ⟨hassembling.represented, fun turn ↦ ⟨writesInside_turn hassembling, ?_⟩⟩
  intro hrooms hroom
  have hlacking : x.Lacking :=
    run_invariant_of_mem Xfer.Lacking (fun hactive ↦ by cases hactive)
      (fun _ turn hturn h ↦ lacking_step h (hrooms turn hturn))
  exact ⟨completes_iff hassembling hlacking hroom, delivered_of_completes hassembling⟩

/-! ## A short payload -/

/-- The offer of four bytes. -/
def shortOffer : ClipOffer where
  id := 1
  kind := 0
  total := 4
  metadata := []
  metadata_length := noMetadata_fits

/-- The one chunk of it. -/
def shortChunk : ClipChunk where
  id := 1
  seq := 0
  crc32 := crc32 [1, 2, 3, 4]
  data := [1, 2, 3, 4]
  data_length := by decide

/-- Four bytes arrive in one chunk, and the chunk completes the receive. -/
theorem receiver_represented_short :
    (run Xfer.next (Xfer.init [0, 0, 0, 0, 0])
        [.message (.offer shortOffer) false 4]).Completes
      (.message (.chunk shortChunk) false 4) := by
  have hbuffer : ([0, 0, 0, 0, 0] : List UInt8).length ≤ bufferMax := by decide
  have hbounded : ∀ turn ∈ [Turn.message (.offer shortOffer) false 4], turn.BufferBounded := by
    intro turn hturn
    cases List.mem_singleton.1 hturn
    trivial
  have h := receiver_represented hbuffer hbounded
  have hrooms : ∀ turn ∈ [Turn.message (.offer shortOffer) false 4], 0 < turn.cap := by
    intro turn hturn
    cases List.mem_singleton.1 hturn
    decide
  exact ((h.2 (.message (.chunk shortChunk) false 4)).2 hrooms (by decide)).1.2
    (.inl ⟨by decide, by decide, by decide⟩)

end DeskhopPlus.Transfer
