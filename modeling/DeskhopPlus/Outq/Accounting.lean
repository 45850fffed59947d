import DeskhopPlus.Outq.Stream

/-!
# What the queue refuses and what it counts

Whatever is offered, drained and reset, in any order: a call takes its frame and counts nothing, or
moves no band and counts one refusal against one cause. The totals count up to the largest 32-bit
number and stay there, so short of it the refusals are the sum over their causes.
-/

namespace DeskhopPlus.Outq

open Bytes Wire Runs

/-! ## The totals -/

/-- The refusal totals of a queue. -/
structure Totals where
  refused : Nat
  priority : Nat
  bulk : Nat
  badHeader : Nat
  deriving DecidableEq

/-- What a refusal is counted against. -/
inductive RefusalCause where
  | priority
  | bulk
  | badHeader

/-- One more refusal. -/
def Totals.count (t : Totals) : RefusalCause → Totals
  | .priority => { t with refused := saturate t.refused, priority := saturate t.priority }
  | .bulk => { t with refused := saturate t.refused, bulk := saturate t.bulk }
  | .badHeader => { t with refused := saturate t.refused, badHeader := saturate t.badHeader }

/-- The totals of a queue. -/
def totals (q : Outq) : Totals :=
  ⟨q.refused, q.refusedPriority, q.refusedBulk, q.refusedBadHeader⟩

/-- Short of the largest total, the refusals are the sum over their causes. -/
def Totals.Balanced (t : Totals) : Prop :=
  t.refused < 2 ^ 32 - 1 → t.refused = t.priority + t.bulk + t.badHeader

theorem saturate_of_lt {count : Nat} (h : count < 2 ^ 32 - 1) : saturate count = count + 1 :=
  if_pos h

theorem lt_of_saturate_lt {count : Nat} (h : saturate count < 2 ^ 32 - 1) : count < 2 ^ 32 - 1 := by
  unfold saturate at h
  split at h <;> omega

theorem Totals.Balanced.count {t : Totals} (h : t.Balanced) (cause : RefusalCause) :
    (t.count cause).Balanced := by
  intro hmore
  have hlow : t.refused < 2 ^ 32 - 1 := by
    cases cause <;> exact lt_of_saturate_lt hmore
  have hsum := h hlow
  -- no cause has been counted more often than all of them
  cases cause with
  | priority =>
      show saturate t.refused = saturate t.priority + t.bulk + t.badHeader
      rw [saturate_of_lt hlow, saturate_of_lt (by omega)]
      omega
  | bulk =>
      show saturate t.refused = t.priority + saturate t.bulk + t.badHeader
      rw [saturate_of_lt hlow, saturate_of_lt (by omega)]
      omega
  | badHeader =>
      show saturate t.refused = t.priority + t.bulk + saturate t.badHeader
      rw [saturate_of_lt hlow, saturate_of_lt (by omega)]
      omega

/-- The queue moved no band and counted one refusal. -/
structure Refuses (q q' : Outq) : Prop where
  priority : q'.priority = q.priority
  bulk : q'.bulk = q.bulk
  counted : ∃ cause, totals q' = (totals q).count cause

theorem refuses_refuse (q : Outq) (cause : BandId) : Refuses q (q.refuse cause) := by
  cases cause with
  | priority => exact ⟨rfl, rfl, .priority, rfl⟩
  | bulk => exact ⟨rfl, rfl, .bulk, rfl⟩

theorem refuses_refuseBadHeader (q : Outq) : Refuses q q.refuseBadHeader :=
  ⟨rfl, rfl, .badHeader, rfl⟩

/-- The queue took some frames at the end of one band and counted nothing. -/
structure Takes (q q' : Outq) (id : BandId) (frames : List (List UInt8)) : Prop where
  taken : (q'.band id).frames = (q.band id).frames ++ frames
  others : ∀ other, other ≠ id → q'.band other = q.band other
  uncounted : totals q' = totals q

theorem totals_setBand (q : Outq) (id : BandId) (b : Band id) :
    totals (q.setBand id b) = totals q := by
  cases id <;> rfl

theorem takes_setBand {q : Outq} {id : BandId} {b : Band id} {frames : List (List UInt8)}
    (h : b.frames = (q.band id).frames ++ frames) : Takes q (q.setBand id b) id frames where
  taken := by rw [band_setBand_self, h]
  others := fun _ hne ↦ band_setBand_of_ne q hne b
  uncounted := totals_setBand q id b

/-! ## One call -/

/-- Both bands are in order. -/
def InOrder (q : Outq) : Prop := ∀ id, (q.band id).Valid

variable {q : Outq}

theorem InOrder.setBand (h : InOrder q) {id : BandId} {b : Band id} (hvalid : b.Valid) :
    InOrder (q.setBand id b) := by
  intro other
  by_cases hsame : other = id
  · subst hsame
    rwa [band_setBand_self]
  · rw [band_setBand_of_ne q hsame]
    exact h other

theorem InOrder.refuses (h : InOrder q) {q' : Outq} (hrefuses : Refuses q q') : InOrder q' := by
  intro id
  cases id with
  | priority =>
      show q'.priority.Valid
      rw [hrefuses.priority]
      exact h .priority
  | bulk =>
      show q'.bulk.Valid
      rw [hrefuses.bulk]
      exact h .bulk

/-- A frame goes into the empty buffer of its band. -/
theorem takes_hold (h : InOrder q) {id : BandId} (hempty : (q.band id).len = 0) {frame : List UInt8}
    (hne : frame ≠ []) : Takes q (q.setBand id ((q.band id).hold frame)) id [frame] := by
  refine takes_setBand ?_
  rw [((h id).hold hempty hne).2, Band.frames_eq_nil_iff.2 hempty]
  rfl

/-- A frame goes behind the others of its band. -/
theorem takes_enqueue (h : InOrder q) {id : BandId} (hbusy : 0 < (q.band id).len)
    {frame : List UInt8} (hne : frame ≠ []) (hroom : (q.band id).stage.used < id.depth) :
    Takes q (q.setBand id ((q.band id).enqueue frame hroom)) id [frame] :=
  takes_setBand ((h id).enqueue hbusy hne hroom).2

/-- An offer takes its frame and counts nothing, or counts one refusal and moves no band. -/
theorem InOrder.offer (h : InOrder q) (frame : List UInt8) :
    InOrder (q.offer frame).2 ∧
    ((q.offer frame).1 = .ok ∧ Takes q (q.offer frame).2 (bandOf frame) [frame] ∨
      (q.offer frame).1 ≠ .ok ∧ Refuses q (q.offer frame).2) := by
  have hrefuse : ∀ {q' : Outq}, Refuses q q' → InOrder q' := h.refuses
  unfold Outq.offer
  split
  · exact ⟨hrefuse (refuses_refuseBadHeader q),
      .inr ⟨(fun hok ↦ by cases hok), refuses_refuseBadHeader q⟩⟩
  · rename_i hdr hwhole
    obtain ⟨-, hne, hband⟩ := wholeFrame_some hwhole
    split
    · rename_i hpriority
      rw [hpriority] at hband
      rw [show bandOf frame = .priority by simpa using hband]
      split
      · exact ⟨hrefuse (refuses_refuse q .priority),
          .inr ⟨(fun hok ↦ by cases hok), refuses_refuse q .priority⟩⟩
      · split
        · rename_i hbusy
          split
          · rename_i hroom
            exact ⟨h.setBand ((h .priority).enqueue hbusy hne hroom).1,
              .inl ⟨rfl, takes_enqueue h hbusy hne hroom⟩⟩
          · exact ⟨hrefuse (refuses_refuse q .priority),
              .inr ⟨(fun hok ↦ by cases hok), refuses_refuse q .priority⟩⟩
        · rename_i hempty
          have hempty : (q.band .priority).len = 0 := Nat.eq_zero_of_not_pos hempty
          exact ⟨h.setBand ((h .priority).hold hempty hne).1, .inl ⟨rfl, takes_hold h hempty hne⟩⟩
    · rename_i hbulk
      rw [show bandOf frame = .bulk by simpa [hbulk] using hband]
      split
      · rename_i hempty
        exact ⟨h.setBand ((h .bulk).hold hempty hne).1,
          .inl ⟨rfl, takes_hold h hempty hne⟩⟩
      · rename_i hbusy
        have hbusy : 0 < (q.band .bulk).len := Nat.pos_of_ne_zero hbusy
        split
        · exact ⟨hrefuse (refuses_refuse q .bulk),
            .inr ⟨(fun hok ↦ by cases hok), refuses_refuse q .bulk⟩⟩
        · split
          · rename_i hroom
            exact ⟨h.setBand ((h .bulk).enqueue hbusy hne hroom).1,
              .inl ⟨rfl, takes_enqueue h hbusy hne hroom⟩⟩
          · exact ⟨hrefuse (refuses_refuse q .bulk),
              .inr ⟨(fun hok ↦ by cases hok), refuses_refuse q .bulk⟩⟩

/-- A pair in an emptied band is all the band holds, one frame right behind the other. -/
theorem holdPair_spec (b : Band .priority) {first second : List UInt8} (hfirst : 0 < first.length)
    (hsecond : 0 < second.length) :
    (holdPair b first second).Valid ∧ (holdPair b first second).frames = [first, second] := by
  obtain ⟨old, -, hcontents⟩ := b.stage.restart_contents (Slot.write second)
  refine ⟨⟨?_, ?_, Band.le_length_overwrite _ _, ?_⟩, ?_⟩
  · intro hzero
    simp only [holdPair, Band.hold] at hzero
    omega
  · intro _
    exact hfirst
  · intro slot hslot
    simp only [holdPair, hcontents, List.mem_singleton] at hslot
    subst hslot
    exact ⟨hsecond, Band.le_length_overwrite _ _⟩
  · simp only [Band.frames, holdPair, Band.hold, Band.clear, hcontents, Band.take_overwrite]
    rw [if_neg (by omega)]
    simp [Slot.frame, Slot.write, Band.take_overwrite]

/-- A pair is taken whole, one frame right behind the other, or counts one refusal and moves no
band. -/
theorem InOrder.offerPair (h : InOrder q) (first second : List UInt8) :
    InOrder (q.offerPair first second).2 ∧
    ((q.offerPair first second).1 = .ok ∧
        Takes q (q.offerPair first second).2 .priority [first, second] ∨
      (q.offerPair first second).1 ≠ .ok ∧ Refuses q (q.offerPair first second).2) := by
  have hrefused := fun cause ↦ h.refuses (refuses_refuse q cause)
  unfold Outq.offerPair
  split
  · rename_i firstHdr secondHdr hfirst hsecond
    have hfirstLen : 0 < first.length := List.length_pos_iff.2 (wholeFrame_some hfirst).2.1
    have hsecondLen : 0 < second.length := List.length_pos_iff.2 (wholeFrame_some hsecond).2.1
    split
    · exact ⟨hrefused .priority, .inr ⟨(fun hok ↦ by cases hok), refuses_refuse q .priority⟩⟩
    · split
      · exact ⟨hrefused .priority, .inr ⟨(fun hok ↦ by cases hok), refuses_refuse q .priority⟩⟩
      · split
        · exact ⟨hrefused .priority, .inr ⟨(fun hok ↦ by cases hok), refuses_refuse q .priority⟩⟩
        · rename_i hfree
          have hempty : (q.band .priority).len = 0 := by
            simp only [pairBusy, Bool.or_eq_true, decide_eq_true_eq, not_or] at hfree
            simp only [band]
            omega
          obtain ⟨hvalid, hframes⟩ := holdPair_spec q.priority hfirstLen hsecondLen
          refine ⟨h.setBand hvalid, .inl ⟨rfl, @takes_setBand _ .priority _ _ ?_⟩⟩
          rw [hframes, Band.frames_eq_nil_iff.2 hempty]
          rfl
  · exact ⟨h.refuses (refuses_refuseBadHeader q),
      .inr ⟨(fun hok ↦ by cases hok), refuses_refuseBadHeader q⟩⟩

/-- The frames a band holds are the one in its buffer and those in its slots. -/
theorem frames_length {id : BandId} {b : Band id} (h : b.Valid) :
    b.frames.length = (if b.len = 0 then 0 else 1) + b.stage.used := by
  unfold Band.frames
  split
  · rename_i hempty
    have hnone := (h.empty hempty).1
    rw [Ring.contents_eq_nil_iff] at hnone
    simp [hnone]
  · simp [Nat.add_comm]

/-- A bulk frame no longer than a queued slot. -/
def FitsSlot (frame : List UInt8) : Prop :=
  ∃ hdr, wholeFrame frame = some hdr ∧ Msg.isBulk hdr.type = true ∧ frame.length ≤ stageMax

/-- A bulk frame that fits a slot finds room behind so many others. -/
theorem InOrder.offer_bulk (h : InOrder q) {frame : List UInt8} (hfits : FitsSlot frame)
    (hheld : (q.band .bulk).frames.length ≤ bulkDepth) : (q.offer frame).1 = .ok := by
  obtain ⟨hdr, hwhole, hbulk, hlength⟩ := hfits
  rw [frames_length (h .bulk)] at hheld
  unfold Outq.offer
  rw [hwhole]
  dsimp only
  rw [if_neg (by simp [hbulk])]
  split
  · rfl
  · rename_i hbusy
    have hbusy : (q.band .bulk).len ≠ 0 := hbusy
    have hroom : q.bulk.stage.used < bulkDepth := by
      rw [if_neg hbusy] at hheld
      change 1 + q.bulk.stage.used ≤ bulkDepth at hheld
      omega
    rw [if_neg (Nat.not_lt.2 hlength), dif_pos hroom]

/-- One offer after the other. -/
def offerAll (q : Outq) (frames : List (List UInt8)) : Outq :=
  frames.foldl (fun q frame ↦ (q.offer frame).2) q

/-- As many bulk frames as there are slots, and one more, find room in an empty band. -/
theorem InOrder.offer_window (h : InOrder q) (hempty : (q.band .bulk).frames = [])
    {frames : List (List UInt8)} (hcount : frames.length ≤ bulkDepth + 1)
    (hfits : ∀ frame ∈ frames, FitsSlot frame) {before after : List (List UInt8)}
    {frame : List UInt8} (hsplit : frames = before ++ frame :: after) :
    ((offerAll q before).offer frame).1 = .ok := by
  -- the band holds the frames offered so far
  have hsofar : ∀ before after, frames = before ++ after →
      InOrder (offerAll q before) ∧ ((offerAll q before).band .bulk).frames = before := by
    intro before
    induction before using List.reverseRecOn with
    | nil => exact fun _ _ ↦ ⟨h, hempty⟩
    | append_singleton before last ih =>
        intro after hsplit
        obtain ⟨horder, hheld⟩ := ih (last :: after) (by rw [hsplit]; simp)
        have hfitsLast := hfits last (by rw [hsplit]; simp)
        have hroom : ((offerAll q before).band .bulk).frames.length ≤ bulkDepth := by
          rw [hheld]
          rw [hsplit] at hcount
          simp only [List.length_append, List.length_singleton] at hcount
          omega
        have hok := horder.offer_bulk hfitsLast hroom
        obtain ⟨hnext, htaken | hrefused⟩ := horder.offer last
        · obtain ⟨hdr, hwhole, hbulk, -⟩ := hfitsLast
          have hband : bandOf last = .bulk := by
            rw [(wholeFrame_some hwhole).2.2, if_pos hbulk]
          have hlast := htaken.2.taken
          rw [hband, hheld] at hlast
          rw [offerAll, List.foldl_append]
          exact ⟨hnext, hlast⟩
        · exact absurd hok hrefused.1
  obtain ⟨horder, hheld⟩ := hsofar before (frame :: after) hsplit
  refine horder.offer_bulk (hfits frame (by rw [hsplit]; simp)) ?_
  rw [hheld]
  rw [hsplit] at hcount
  simp only [List.length_append, List.length_cons] at hcount
  omega

/-! ## Runs -/

/-- What its users do to a queue. A view is one the transport holds, of now or of earlier. -/
inductive QueueEvent where
  | offer (frame : List UInt8)
  | offerPair (first second : List UInt8)
  | reset
  | advance (view : View) (n : Nat)
  | notePreamble (view : View)

/-- One use of a queue. -/
def queueStep (q : Outq) : QueueEvent → Outq
  | .offer frame => (q.offer frame).2
  | .offerPair first second => (q.offerPair first second).2
  | .reset => q.reset
  | .advance view n => q.advance view n
  | .notePreamble view => q.notePreamble view

theorem InOrder.advance (h : InOrder q) (view : View) (n : Nat) : InOrder (q.advance view n) := by
  refine h.setBand ?_
  have hvalid := h view.band
  by_cases hempty : (q.band view.band).len = 0
  · have hstay : (q.band view.band).advance n = q.band view.band := by simp [Band.advance, hempty]
    rwa [hstay]
  · have hbusy : 0 < (q.band view.band).len := Nat.pos_of_ne_zero hempty
    by_cases hmore : (q.band view.band).sent + n < (q.band view.band).len
    · rw [Band.advance_inside hmore]
      exact ⟨fun hzero ↦ absurd hzero hempty, fun _ ↦ hmore, hvalid.filled, hvalid.slots⟩
    · rw [Band.advance_complete hbusy (hvalid.within hbusy) (Nat.le_of_not_lt hmore)]
      exact (Band.promote_spec (b := { q.band view.band with sent := (q.band view.band).len }) hbusy
        hvalid.slots).1

theorem InOrder.notePreamble (h : InOrder q) (view : View) : InOrder (q.notePreamble view) := by
  refine h.setBand ?_
  have hvalid := h view.band
  unfold Band.notePreamble
  split
  · exact hvalid
  · rename_i hbusy
    exact ⟨fun hzero ↦ absurd hzero hbusy, hvalid.within, hvalid.filled, hvalid.slots⟩

theorem inOrder_reset (q : Outq) : InOrder q.reset := by
  intro id
  cases id <;> exact Band.valid_init _

theorem frames_reset (q : Outq) (id : BandId) : (q.reset.band id).frames = [] := by
  cases id <;> exact Band.frames_init _

/-- A queue whose bands are in order and whose totals add up. -/
structure Accounted (q : Outq) : Prop where
  inOrder : InOrder q
  balanced : (totals q).Balanced

theorem Accounted.step (h : Accounted q) (event : QueueEvent) : Accounted (queueStep q event) := by
  have hcounted : ∀ {q' : Outq}, Refuses q q' → (totals q').Balanced := by
    intro q' hrefuses
    obtain ⟨cause, hcause⟩ := hrefuses.counted
    rw [hcause]
    exact h.balanced.count cause
  cases event with
  | offer frame =>
      obtain ⟨horder, htaken | hrefused⟩ := h.inOrder.offer frame
      · exact ⟨horder, by rw [queueStep, htaken.2.uncounted]; exact h.balanced⟩
      · exact ⟨horder, hcounted hrefused.2⟩
  | offerPair first second =>
      obtain ⟨horder, htaken | hrefused⟩ := h.inOrder.offerPair first second
      · exact ⟨horder, by rw [queueStep, htaken.2.uncounted]; exact h.balanced⟩
      · exact ⟨horder, hcounted hrefused.2⟩
  | reset => exact ⟨inOrder_reset q, h.balanced⟩
  | advance view n =>
      refine ⟨h.inOrder.advance view n, ?_⟩
      rw [queueStep, Outq.advance, totals_setBand]
      exact h.balanced
  | notePreamble view =>
      refine ⟨h.inOrder.notePreamble view, ?_⟩
      rw [queueStep, Outq.notePreamble, totals_setBand]
      exact h.balanced

/-- After every run of offers, pairs, drains and resets: an offer takes its frame at the end of its
band and counts nothing, or moves no band and counts one refusal against one cause; a pair is taken
whole or counts one refusal; short of the largest total, the refusals are the sum over their causes;
a reset empties both bands and keeps the totals; a bulk frame that fits a slot is taken while no
more are held than there are slots, so that a window of frames and one more go into an empty
band. -/
theorem refusals_accounted (events : List QueueEvent) :
    let q := run queueStep Outq.init events
    (∀ frame, (q.offer frame).1 = .ok ∧ Takes q (q.offer frame).2 (bandOf frame) [frame] ∨
      (q.offer frame).1 ≠ .ok ∧ Refuses q (q.offer frame).2) ∧
    (∀ first second, (q.offerPair first second).1 = .ok ∧
        Takes q (q.offerPair first second).2 .priority [first, second] ∨
      (q.offerPair first second).1 ≠ .ok ∧ Refuses q (q.offerPair first second).2) ∧
    (totals q).Balanced ∧
    (totals q.reset = totals q ∧ ∀ id, (q.reset.band id).frames = []) ∧
    (∀ frame, FitsSlot frame → (q.band .bulk).frames.length ≤ bulkDepth →
      (q.offer frame).1 = .ok) ∧
    ∀ frames, (q.band .bulk).frames = [] → frames.length ≤ bulkDepth + 1 →
      (∀ frame ∈ frames, FitsSlot frame) → ∀ before frame after,
      frames = before ++ frame :: after → ((offerAll q before).offer frame).1 = .ok := by
  intro q
  have hstart : Accounted Outq.init := ⟨inOrder_reset Outq.init, fun _ ↦ rfl⟩
  have hhere : Accounted q :=
    run_invariant Accounted hstart (fun _ event h ↦ h.step event) events
  refine ⟨fun frame ↦ (hhere.inOrder.offer frame).2,
    fun first second ↦ (hhere.inOrder.offerPair first second).2, hhere.balanced,
    ⟨rfl, frames_reset q⟩, ?_, ?_⟩
  · intro frame hfits hheld
    exact hhere.inOrder.offer_bulk hfits hheld
  · intro frames hempty hcount hfits before frame after hsplit
    exact hhere.inOrder.offer_window hempty hcount hfits hsplit

end DeskhopPlus.Outq
