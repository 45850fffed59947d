import DeskhopPlus.Library.LaneQueue
import DeskhopPlus.Library.Runs
import DeskhopPlus.Outq.Queue

/-!
# The outbound queue is a lane queue

The bands of `Outq` refine the lanes of `LaneQueue`: a band's waiting items are the frame in its
buffer followed by the frames in its ring. `Refines` is the relation, and each operation of the
queue is one operation of the specification. A `Driver` is the queue with the transport that
drains it, holding the view of its last peek while offers arrive; its runs refine the
specification's, so the bytes that leave are whole accepted frames one after the other.
-/

namespace DeskhopPlus.Outq

open Bytes Wire Runs

namespace Band

variable {id : BandId} {b : Band id}

/-- The frames a band holds: the one in its buffer, then the queued ones. -/
def frames (b : Band id) : List (List UInt8) :=
  if b.len = 0 then [] else b.buf.take b.len :: b.stage.contents.map Slot.frame

/-- What the operations keep of a band: an empty buffer means an empty band, a frame in the buffer
is not finished, and every length is covered by the bytes behind it. -/
structure Valid (b : Band id) : Prop where
  empty : b.len = 0 → b.stage.contents = [] ∧ b.sent = 0 ∧ b.preambleDone = false
  within : 0 < b.len → b.sent < b.len
  filled : b.len ≤ b.buf.length
  slots : ∀ slot ∈ b.stage.contents, 0 < slot.len ∧ slot.len ≤ slot.bytes.length

theorem valid_init (id : BandId) : (init id).Valid where
  empty _ := ⟨Ring.contents_empty _ _, rfl, rfl⟩
  within h := absurd h (by simp [init])
  filled := Nat.zero_le _
  slots slot h := by simp [init, Ring.contents_empty] at h

theorem frames_init (id : BandId) : (init id).frames = [] := by
  simp [frames, init]

theorem frames_eq_nil_iff : b.frames = [] ↔ b.len = 0 := by
  by_cases h : b.len = 0 <;> simp [frames, h]

/-- The length of the frame in the buffer. -/
theorem Valid.head_length (h : b.Valid) : (b.buf.take b.len).length = b.len := by
  simpa using h.filled

/-- A copy at the start of a buffer is read back by its length. -/
theorem take_overwrite (buffer frame : List UInt8) :
    (overwrite buffer 0 frame).take frame.length = frame := by
  simp [overwrite]

theorem le_length_overwrite (buffer frame : List UInt8) :
    frame.length ≤ (overwrite buffer 0 frame).length := by
  simp [overwrite]

/-- A frame copied into the buffer of an empty band is all the band holds. -/
theorem Valid.hold (h : b.Valid) (hempty : b.len = 0) {frame : List UInt8} (hne : frame ≠ []) :
    (b.hold frame).Valid ∧ (b.hold frame).frames = [frame] := by
  have hlen : 0 < frame.length := List.length_pos_iff.2 hne
  have hstage := (h.empty hempty).1
  refine ⟨⟨?_, ?_, le_length_overwrite _ _, ?_⟩, ?_⟩
  · intro hzero
    simp only [Band.hold] at hzero
    omega
  · intro _
    exact hlen
  · intro slot hslot
    exact h.slots slot hslot
  · simp only [Band.frames, Band.hold, Band.clear, take_overwrite, hstage, List.map_nil]
    rw [if_neg (by omega)]

/-- A queued frame goes behind what the band holds. -/
theorem Valid.enqueue (h : b.Valid) (hbusy : 0 < b.len) {frame : List UInt8} (hne : frame ≠ [])
    (hroom : b.stage.used < id.depth) :
    (b.enqueue frame hroom).Valid ∧ (b.enqueue frame hroom).frames = b.frames ++ [frame] := by
  have hlen : 0 < frame.length := List.length_pos_iff.2 hne
  obtain ⟨old, -, hcontents⟩ := b.stage.push_contents (Slot.write frame) hroom
  refine ⟨⟨?_, h.within, h.filled, ?_⟩, ?_⟩
  · intro hzero
    simp only [Band.enqueue] at hzero
    omega
  · intro slot hslot
    simp only [Band.enqueue, hcontents, List.mem_append, List.mem_singleton] at hslot
    rcases hslot with hold | rfl
    · exact h.slots slot hold
    · exact ⟨hlen, le_length_overwrite _ _⟩
  · simp only [Band.frames, Band.enqueue, hcontents, List.map_append, List.map_cons, List.map_nil]
    rw [if_neg (by omega), if_neg (by omega)]
    simp [Slot.frame, Slot.write, take_overwrite]

/-- Promotion drops the finished frame and leaves the next one untouched in the buffer. -/
theorem promote_spec (hbusy : 0 < b.len)
    (hslots : ∀ slot ∈ b.stage.contents, 0 < slot.len ∧ slot.len ≤ slot.bytes.length) :
    b.promote.Valid ∧ b.promote.frames = b.frames.tail ∧ b.promote.sent = 0 ∧
      b.promote.preambleDone = false := by
  have htail : b.frames.tail = b.stage.contents.map Slot.frame := by
    simp [Band.frames, Nat.ne_of_gt hbusy]
  unfold promote
  split
  · rename_i hused
    have hcontents := b.stage.pop_contents hused
    have holdest := hslots b.stage.oldest (by simp [hcontents])
    have hframe : b.stage.oldest.frame.length = b.stage.oldest.len := by
      simp only [Slot.frame, List.length_take]
      omega
    refine ⟨⟨?_, ?_, ?_, ?_⟩, ?_, rfl, rfl⟩
    · intro hzero
      simp only at hzero
      omega
    · intro _
      exact holdest.1
    · simp only [← hframe]
      exact le_length_overwrite _ _
    · intro slot hslot
      exact hslots slot (by rw [hcontents]; exact List.mem_cons_of_mem _ hslot)
    · rw [htail, hcontents, List.map_cons]
      simp only [Band.frames]
      rw [if_neg (by omega)]
      have hread := take_overwrite b.buf b.stage.oldest.frame
      rw [hframe] at hread
      rw [hread]
      rfl
  · rename_i hused
    have hnil : b.stage.contents = [] := by
      rw [Ring.contents_eq_nil_iff]
      simp only [Band.clear] at hused
      omega
    refine ⟨⟨?_, ?_, Nat.zero_le _, ?_⟩, ?_, rfl, rfl⟩
    · intro _
      exact ⟨hnil, rfl, rfl⟩
    · intro h
      simp [Band.clear] at h
    · intro slot hslot
      exact hslots slot hslot
    · rw [htail, hnil]
      simp [Band.frames, Band.clear]

/-- An advance short of the end of the frame moves the mark and nothing else. -/
theorem advance_inside {n : Nat} (hmore : b.sent + n < b.len) :
    b.advance n = { b with sent := b.sent + n } := by
  have hn : n < b.len - b.sent := by omega
  simp [Band.advance, hn, hmore, show b.len ≠ 0 by omega]

/-- An advance to the end of the frame promotes the next one. -/
theorem advance_complete {n : Nat} (hbusy : 0 < b.len) (hwithin : b.sent < b.len)
    (hend : b.len ≤ b.sent + n) : b.advance n = ({ b with sent := b.len } : Band id).promote := by
  have hclamp : (if n < b.len - b.sent then n else b.len - b.sent) = b.len - b.sent := by
    split <;> omega
  have hsum : b.sent + (b.len - b.sent) = b.len := by omega
  simp [Band.advance, hclamp, hsum, show b.len ≠ 0 by omega]

end Band

/-! ## Each operation refines one of the specification -/

/-- The queue holds what the specification says waits, and has begun what it says has begun. -/
structure Refines (q : Outq) (spec : LaneQueue BandId UInt8) : Prop where
  valid : ∀ id, (q.band id).Valid
  waiting : ∀ id, spec.waiting id = (q.band id).frames
  begun : ∀ id, spec.begun = some id ↔ (q.band id).inFlight = true
  sent : ∀ id, (q.band id).sent = if spec.begun = some id then spec.sent else 0

theorem refines_reset (q : Outq) : Refines q.reset LaneQueue.empty where
  valid id := by cases id <;> exact Band.valid_init _
  waiting id := by cases id <;> exact (Band.frames_init _).symm
  begun id := by cases id <;> simp [LaneQueue.empty, reset, band, Band.init, Band.inFlight]
  sent id := by cases id <;> rfl

/-- The band an offered frame is for. -/
def bandOf (frame : List UInt8) : BandId :=
  if Msg.isBulk (frame.headD 0) then .bulk else .priority

/-- What the header test of an offer establishes. -/
theorem wholeFrame_some {frame : List UInt8} {hdr : FrameHeader}
    (h : wholeFrame frame = some hdr) :
    IsFrame frame ∧ frame ≠ [] ∧
      bandOf frame = if Msg.isBulk hdr.type then .bulk else .priority := by
  unfold wholeFrame at h
  split at h
  · cases h
  · rename_i parsed hparse
    split at h
    · rename_i hlen
      cases h
      obtain ⟨-, -, hsize, htake⟩ := header_parse_ok hparse
      match frame, hsize with
      | head :: tail, _ =>
          have hhead : head = hdr.type := by
            simp only [headerSize, headerBytes, List.take_succ_cons, List.cons.injEq] at htake
            exact htake.1
          exact ⟨⟨hdr, hparse, hlen⟩, by simp, by simp [bandOf, hhead]⟩
    · cases h

namespace Refines

variable {q : Outq} {spec next : LaneQueue BandId UInt8} {id : BandId} {frame : List UInt8}

/-- Replacing one band: the other keeps what it holds and how far it is. -/
theorem setBand (h : Refines q spec) {b : Band id} (hvalid : b.Valid)
    (hwaiting : next.waiting = Function.update spec.waiting id b.frames)
    (hself : next.begun = some id ↔ b.inFlight = true)
    (hsent : b.sent = if next.begun = some id then next.sent else 0)
    (hother : ∀ other, other ≠ id → (next.begun = some other ↔ spec.begun = some other))
    (hkeep : ∀ other, other ≠ id → spec.begun = some other → next.sent = spec.sent) :
    Refines (q.setBand id b) next := by
  constructor <;> intro other <;> by_cases hsame : other = id
  · subst hsame
    simpa using hvalid
  · simpa [band_setBand_of_ne q hsame] using h.valid other
  · subst hsame
    simp [hwaiting]
  · rw [hwaiting, Function.update_of_ne hsame, band_setBand_of_ne q hsame]
    exact h.waiting other
  · subst hsame
    simpa using hself
  · rw [band_setBand_of_ne q hsame, hother other hsame]
    exact h.begun other
  · subst hsame
    simpa using hsent
  · rw [band_setBand_of_ne q hsame, h.sent other]
    by_cases hbegun : spec.begun = some other
    · rw [if_pos hbegun, if_pos ((hother other hsame).2 hbegun), hkeep other hsame hbegun]
    · rw [if_neg hbegun, if_neg (fun hnext ↦ hbegun ((hother other hsame).1 hnext))]

/-- A band that holds nothing waits for nothing. -/
theorem waiting_nil (h : Refines q spec) (id : BandId) (hempty : (q.band id).len = 0) :
    spec.waiting id = [] := by
  rw [h.waiting, Band.frames_eq_nil_iff.2 hempty]

/-- A frame taken into an empty band. -/
theorem hold (h : Refines q spec) (id : BandId) (hempty : (q.band id).len = 0) (hne : frame ≠ []) :
    Refines (q.setBand id ((q.band id).hold frame)) (spec.accept id frame) := by
  obtain ⟨hvalid, hframes⟩ := (h.valid id).hold hempty hne
  have hidle : spec.begun ≠ some id := by
    intro hbegun
    have := (h.begun id).1 hbegun
    simp [Band.inFlight, hempty] at this
  refine h.setBand hvalid ?_ ?_ ?_ (fun _ _ ↦ Iff.rfl) (fun _ _ _ ↦ rfl)
  · simp [LaneQueue.accept, hframes, h.waiting_nil _ hempty]
  · simp [LaneQueue.accept, hidle, Band.inFlight, Band.hold, Band.clear]
  · simp [LaneQueue.accept, hidle, Band.hold, Band.clear]

/-- A frame taken behind others of its band. -/
theorem enqueue (h : Refines q spec) (id : BandId) (hbusy : 0 < (q.band id).len)
    (hne : frame ≠ []) (hroom : (q.band id).stage.used < id.depth) :
    Refines (q.setBand id ((q.band id).enqueue frame hroom)) (spec.accept id frame) := by
  obtain ⟨hvalid, hframes⟩ := (h.valid id).enqueue hbusy hne hroom
  refine h.setBand hvalid ?_ (h.begun id) (h.sent id) (fun _ _ ↦ Iff.rfl) (fun _ _ _ ↦ rfl)
  simp [LaneQueue.accept, hframes, h.waiting id]

/-- Two frames admitted at once into an empty priority band. -/
theorem holdPair (h : Refines q spec) (hempty : (q.band .priority).len = 0)
    {first second : List UInt8} (hfirst : first ≠ []) (hsecond : second ≠ []) :
    Refines (q.setBand .priority (holdPair q.priority first second))
      ((spec.accept .priority first).accept .priority second) := by
  have hfirstLen : 0 < first.length := List.length_pos_iff.2 hfirst
  have hsecondLen : 0 < second.length := List.length_pos_iff.2 hsecond
  obtain ⟨old, -, hcontents⟩ := q.priority.stage.restart_contents (Slot.write second)
  have hidle : spec.begun ≠ some .priority := by
    intro hbegun
    have := (h.begun .priority).1 hbegun
    simp [Band.inFlight, hempty] at this
  have hframes : (Outq.holdPair q.priority first second).frames = [first, second] := by
    simp only [Band.frames, Outq.holdPair, Band.hold, Band.clear, hcontents, Band.take_overwrite]
    rw [if_neg (by omega)]
    simp [Slot.frame, Slot.write, Band.take_overwrite]
  refine h.setBand ⟨?_, ?_, Band.le_length_overwrite _ _, ?_⟩ ?_ ?_ ?_ (fun _ _ ↦ Iff.rfl)
    (fun _ _ _ ↦ rfl)
  · intro hzero
    simp only [Outq.holdPair, Band.hold] at hzero
    omega
  · intro _
    exact hfirstLen
  · intro slot hslot
    simp only [Outq.holdPair, hcontents, List.mem_singleton] at hslot
    subst hslot
    exact ⟨hsecondLen, Band.le_length_overwrite _ _⟩
  · simp [LaneQueue.accept, hframes, h.waiting_nil _ hempty]
  · simp [LaneQueue.accept, hidle, Band.inFlight, Outq.holdPair, Band.hold, Band.clear]
  · simp [LaneQueue.accept, hidle, Outq.holdPair, Band.hold, Band.clear]

/-- A refusal moves no band. -/
theorem refuse (h : Refines q spec) (cause : BandId) : Refines (q.refuse cause) spec := by
  cases cause <;>
    exact ⟨fun id ↦ by cases id <;> exact h.valid _, fun id ↦ by cases id <;> exact h.waiting _,
      fun id ↦ by cases id <;> exact h.begun _, fun id ↦ by cases id <;> exact h.sent _⟩

theorem refuseBadHeader (h : Refines q spec) : Refines q.refuseBadHeader spec :=
  ⟨fun id ↦ by cases id <;> exact h.valid _, fun id ↦ by cases id <;> exact h.waiting _,
    fun id ↦ by cases id <;> exact h.begun _, fun id ↦ by cases id <;> exact h.sent _⟩

/-- The mark of a band that may go on is the specification's. -/
theorem sent_eq (h : Refines q spec) (hsound : spec.Sound) (hfree : spec.FreeFor id) :
    (q.band id).sent = spec.sent := by
  rw [h.sent id]
  rcases hfree with hnone | hbegun
  · simp [hnone, hsound.idle hnone]
  · simp [hbegun]

/-- What waits in a band that holds a frame. -/
theorem waiting_cons (h : Refines q spec) (id : BandId) (hbusy : 0 < (q.band id).len) :
    spec.waiting id = (q.band id).buf.take (q.band id).len ::
      (q.band id).stage.contents.map Slot.frame := by
  rw [h.waiting id, Band.frames, if_neg (by omega)]

/-- Advancing short of the end of the frame. -/
theorem advance_inside (h : Refines q spec) (hsound : spec.Sound) (hfree : spec.FreeFor id)
    {n : Nat} (hmore : (q.band id).sent + n < (q.band id).len) :
    Refines (q.setBand id ((q.band id).advance n)) (spec.emit id n) := by
  have hvalid := h.valid id
  have hbusy : 0 < (q.band id).len := by omega
  have hsent := h.sent_eq hsound hfree
  have hroom : spec.sent + n < ((q.band id).buf.take (q.band id).len).length := by
    rw [hvalid.head_length, ← hsent]
    exact hmore
  rw [Band.advance_inside hmore, LaneQueue.emit_inside (h.waiting_cons _ hbusy) hroom]
  refine h.setBand ⟨fun h0 ↦ absurd h0 (by simp; omega), fun _ ↦ hmore, hvalid.filled,
    hvalid.slots⟩ ?_ ?_ ?_ ?_ ?_
  · calc spec.waiting = Function.update spec.waiting id (spec.waiting id) := by simp
      _ = Function.update spec.waiting id (q.band id).frames := by rw [h.waiting id]
  · by_cases hn : n = 0
    · simpa only [hn, if_true, Nat.add_zero] using h.begun id
    · have hpos : 0 < (q.band id).sent + n := by omega
      simp [hn, Band.inFlight, hbusy, hpos]
  · by_cases hn : n = 0
    · simpa only [hn, if_true, Nat.add_zero] using h.sent id
    · simp [hn, hsent]
  · intro other hne
    by_cases hn : n = 0
    · simp [hn]
    · simp [hn, Ne.symm hne, hfree.begun_ne hne]
  · intro other hne hbegun
    exact absurd hbegun (hfree.begun_ne hne)

/-- Advancing to the end of the frame. -/
theorem advance_complete (h : Refines q spec) (hsound : spec.Sound) (hfree : spec.FreeFor id)
    {n : Nat} (hbusy : 0 < (q.band id).len) (hend : (q.band id).len ≤ (q.band id).sent + n) :
    Refines (q.setBand id ((q.band id).advance n)) (spec.emit id n) := by
  have hvalid := h.valid id
  have hsent := h.sent_eq hsound hfree
  have hcomplete : ((q.band id).buf.take (q.band id).len).length ≤ spec.sent + n := by
    rw [hvalid.head_length, ← hsent]
    exact hend
  obtain ⟨hvalid', hframes, hzero, hpreamble⟩ :=
    Band.promote_spec (b := { q.band id with sent := (q.band id).len }) hbusy hvalid.slots
  have htail : ({ q.band id with sent := (q.band id).len } : Band id).frames.tail =
      (q.band id).stage.contents.map Slot.frame := by
    simp [Band.frames, Nat.ne_of_gt hbusy]
  rw [Band.advance_complete hbusy (hvalid.within hbusy) hend,
    LaneQueue.emit_complete (h.waiting_cons _ hbusy) hcomplete]
  refine h.setBand hvalid' ?_ ?_ ?_ ?_ ?_
  · rw [hframes, htail]
  · simp [Band.inFlight, hzero, hpreamble]
  · simpa using hzero
  · intro other hne
    simp [hfree.begun_ne hne]
  · intro other hne hbegun
    exact absurd hbegun (hfree.begun_ne hne)

/-- Advancing a band that no other has begun before puts out its bytes. -/
theorem advance (h : Refines q spec) (hsound : spec.Sound) (hfree : spec.FreeFor id) (n : Nat) :
    Refines (q.setBand id ((q.band id).advance n)) (spec.emit id n) := by
  by_cases hempty : (q.band id).len = 0
  · have hstay : (q.band id).advance n = q.band id := by simp [Band.advance, hempty]
    rw [LaneQueue.emit_nil (h.waiting_nil _ hempty), hstay]
    refine h.setBand (h.valid id) ?_ (h.begun id) (h.sent id) (fun _ _ ↦ Iff.rfl)
      (fun _ _ _ ↦ rfl)
    rw [← h.waiting id, Function.update_eq_self]
  · by_cases hmore : (q.band id).sent + n < (q.band id).len
    · exact h.advance_inside hsound hfree hmore
    · exact h.advance_complete hsound hfree (by omega) (by omega)

/-- Noting the preamble of a band that no other has begun before begins its frame. -/
theorem notePreamble (h : Refines q spec) (hsound : spec.Sound) (hfree : spec.FreeFor id) :
    Refines (q.setBand id (q.band id).notePreamble) (spec.start id) := by
  have hvalid := h.valid id
  have hkeep : spec.waiting = Function.update spec.waiting id (q.band id).frames := by
    rw [← h.waiting id, Function.update_eq_self]
  by_cases hempty : (q.band id).len = 0
  · have hstay : (q.band id).notePreamble = q.band id := by simp [Band.notePreamble, hempty]
    have hnone : spec.start id = spec := by simp [LaneQueue.start, h.waiting_nil _ hempty]
    rw [hstay, hnone]
    exact h.setBand hvalid hkeep (h.begun id) (h.sent id) (fun _ _ ↦ Iff.rfl) (fun _ _ _ ↦ rfl)
  · have hbusy : 0 < (q.band id).len := by omega
    have hstart : spec.start id = { spec with begun := some id } := by
      simp [LaneQueue.start, h.waiting_cons _ hbusy]
    have hmark : (q.band id).notePreamble = { q.band id with preambleDone := true } := by
      simp [Band.notePreamble, hempty]
    rw [hstart, hmark]
    refine h.setBand ⟨fun h0 ↦ absurd h0 hempty, hvalid.within, hvalid.filled, hvalid.slots⟩
      hkeep ?_ ?_ ?_ (fun _ _ _ ↦ rfl)
    · simp [Band.inFlight, hbusy]
    · simpa using h.sent_eq hsound hfree
    · intro other hne
      simp [Ne.symm hne, hfree.begun_ne hne]

/-- An offer takes the frame at the end of its band, or refuses it and moves no band. -/
theorem offer (h : Refines q spec) (frame : List UInt8) :
    ((q.offer frame).1 = .ok ∧ IsFrame frame ∧
        Refines (q.offer frame).2 (spec.accept (bandOf frame) frame)) ∨
      ((q.offer frame).1 ≠ .ok ∧ Refines (q.offer frame).2 spec) := by
  unfold Outq.offer
  split
  · exact .inr ⟨by simp, h.refuseBadHeader⟩
  · rename_i hdr hwhole
    obtain ⟨hframe, hne, hband⟩ := wholeFrame_some hwhole
    split
    · rename_i hpriority
      rw [hpriority] at hband
      rw [show bandOf frame = .priority by simpa using hband]
      split
      · exact .inr ⟨by simp, h.refuse .priority⟩
      · split
        · rename_i hbusy
          split
          · rename_i hroom
            exact .inl ⟨rfl, hframe, h.enqueue .priority hbusy hne hroom⟩
          · exact .inr ⟨by simp, h.refuse .priority⟩
        · rename_i hempty
          exact .inl ⟨rfl, hframe, h.hold .priority (Nat.eq_zero_of_not_pos hempty) hne⟩
    · rename_i hbulk
      rw [show bandOf frame = .bulk by simpa [hbulk] using hband]
      split
      · rename_i hempty
        exact .inl ⟨rfl, hframe, h.hold .bulk hempty hne⟩
      · rename_i hbusy
        split
        · exact .inr ⟨by simp, h.refuse .bulk⟩
        · split
          · rename_i hroom
            exact .inl ⟨rfl, hframe,
              h.enqueue .bulk (Nat.pos_of_ne_zero hbusy) hne hroom⟩
          · exact .inr ⟨by simp, h.refuse .bulk⟩

/-- A pair is admitted in order, or refused without moving a band. -/
theorem offerPair (h : Refines q spec) (first second : List UInt8) :
    ((q.offerPair first second).1 = .ok ∧ IsFrame first ∧ IsFrame second ∧
        Refines (q.offerPair first second).2
          ((spec.accept (bandOf first) first).accept (bandOf second) second)) ∨
      ((q.offerPair first second).1 ≠ .ok ∧ Refines (q.offerPair first second).2 spec) := by
  unfold Outq.offerPair
  split
  · rename_i firstHdr secondHdr hfirst hsecond
    obtain ⟨hfirstFrame, hfirstNe, hfirstBand⟩ := wholeFrame_some hfirst
    obtain ⟨hsecondFrame, hsecondNe, hsecondBand⟩ := wholeFrame_some hsecond
    split
    · exact .inr ⟨by simp, h.refuse .priority⟩
    · rename_i hpriority
      simp only [Bool.or_eq_true, not_or, Bool.not_eq_true] at hpriority
      split
      · exact .inr ⟨by simp, h.refuse .priority⟩
      · split
        · exact .inr ⟨by simp, h.refuse .priority⟩
        · rename_i hfree
          have hempty : (q.band .priority).len = 0 := by
            simp only [pairBusy, Bool.or_eq_true, decide_eq_true_eq, not_or] at hfree
            simp only [band]
            omega
          refine .inl ⟨rfl, hfirstFrame, hsecondFrame, ?_⟩
          rw [show bandOf first = .priority by simpa [hpriority.1] using hfirstBand,
            show bandOf second = .priority by simpa [hpriority.2] using hsecondBand]
          exact h.holdPair hempty hfirstNe hsecondNe
  · exact .inr ⟨by simp, h.refuseBadHeader⟩

end Refines

/-! ## The queue and the transport that drains it -/

/-- What can happen to a queue. The transport advances over what its last peek showed. -/
inductive Event where
  | offer (frame : List UInt8)
  | offerPair (first second : List UInt8)
  | peek
  | advance (n : Nat)
  | notePreamble
  deriving DecidableEq, Repr

/-- A queue, the view the transport last got, the frames the queue took, and the bytes the
transport read through its views and advanced over. -/
structure Driver where
  queue : Outq
  view : Option View
  accepted : List (List UInt8)
  emitted : List UInt8

namespace Driver

/-- A reset queue and a transport that has not looked yet. -/
def start (q : Outq) : Driver :=
  { queue := q.reset, view := none, accepted := [], emitted := [] }

/-- One event. An advance past what the view shows does not happen; the bytes advanced over are
those the peek showed, not those the buffer holds by then. -/
def step (s : Driver) : Event → Driver
  | .offer frame =>
      let (result, queue) := s.queue.offer frame
      { s with
        queue := queue
        accepted := if result = .ok then s.accepted ++ [frame] else s.accepted }
  | .offerPair first second =>
      let (result, queue) := s.queue.offerPair first second
      { s with
        queue := queue
        accepted := if result = .ok then s.accepted ++ [first, second] else s.accepted }
  | .peek => { s with view := s.queue.peek }
  | .advance n =>
      match s.view with
      | none => s
      | some view =>
          if view.remaining < n then s
          else
            { s with
              queue := s.queue.advance view n
              view := some { view with
                atBytes := view.atBytes.drop n, remaining := view.remaining - n }
              emitted := s.emitted ++ view.atBytes.take n }
  | .notePreamble =>
      match s.view with
      | none => s
      | some view => { s with queue := s.queue.notePreamble view }

/-- What the specification does while the driver takes an event. -/
def shadow (s : Driver) (spec : LaneQueue BandId UInt8) : Event → LaneQueue BandId UInt8
  | .offer frame =>
      if (s.queue.offer frame).1 = .ok then spec.accept (bandOf frame) frame else spec
  | .offerPair first second =>
      if (s.queue.offerPair first second).1 = .ok then
        (spec.accept (bandOf first) first).accept (bandOf second) second
      else spec
  | .peek => spec
  | .advance n =>
      match s.view with
      | none => spec
      | some view => if view.remaining < n then spec else spec.emit view.band n
  | .notePreamble =>
      match s.view with
      | none => spec
      | some view => spec.start view.band

/-- A view still shows the unsent part of the head of its band, unless all of it was advanced
over. -/
def Shown (spec : LaneQueue BandId UInt8) (view : View) : Prop :=
  view.atBytes = [] ∨ view.atBytes = ((spec.waiting view.band).headD []).drop spec.sent

/-- The specification's past is the driver's, and the driver's view is one the specification
allows it to advance over. -/
structure Tracks (s : Driver) (spec : LaneQueue BandId UInt8) : Prop where
  sound : spec.Sound
  refines : Refines s.queue spec
  accepted : spec.accepted = s.accepted.map fun frame ↦ (bandOf frame, frame)
  emitted : spec.emitted = s.emitted
  remaining : ∀ view ∈ s.view, view.remaining = view.atBytes.length
  free : ∀ view ∈ s.view, spec.FreeFor view.band
  shown : ∀ view ∈ s.view, Shown spec view

theorem tracks_start (q : Outq) : Tracks (start q) LaneQueue.empty where
  sound := LaneQueue.sound_empty
  refines := refines_reset q
  accepted := rfl
  emitted := rfl
  remaining _ h := by cases h
  free _ h := by cases h
  shown _ h := by cases h

end Driver

/-- The owed band may go on, and no band is owed only when both are empty. -/
theorem Refines.owedBand {q : Outq} {spec : LaneQueue BandId UInt8} (h : Refines q spec) :
    (∀ id, q.owedBand = some id → spec.FreeFor id ∧ 0 < (q.band id).len) ∧
      (q.owedBand = none → ∀ id, (q.band id).len = 0) := by
  have hbulk := h.begun .bulk
  have hpriority := h.begun .priority
  simp only [band] at hbulk hpriority
  have hnone : ∀ id, spec.begun ≠ some .priority → spec.begun ≠ some .bulk →
      spec.FreeFor id := by
    intro id hp hb
    refine .inl ?_
    match hbegun : spec.begun with
    | none => rfl
    | some .priority => exact absurd hbegun hp
    | some .bulk => exact absurd hbegun hb
  unfold Outq.owedBand
  by_cases hflight : q.bulk.inFlight = true
  · rw [if_pos hflight]
    refine ⟨?_, fun h ↦ by cases h⟩
    rintro _ ⟨⟩
    refine ⟨.inr (hbulk.2 hflight), ?_⟩
    simp only [Band.inFlight, Bool.and_eq_true, decide_eq_true_eq] at hflight
    exact hflight.1
  · have hnotBulk : spec.begun ≠ some .bulk := fun hbegun ↦ hflight (hbulk.1 hbegun)
    rw [if_neg hflight]
    by_cases hheld : 0 < q.priority.len
    · rw [if_pos hheld]
      refine ⟨?_, fun h ↦ by cases h⟩
      rintro _ ⟨⟩
      refine ⟨?_, hheld⟩
      by_cases hbegun : spec.begun = some .priority
      · exact .inr hbegun
      · exact hnone _ hbegun hnotBulk
    · have hnotPriority : spec.begun ≠ some .priority := by
        intro hbegun
        have := hpriority.1 hbegun
        simp only [Band.inFlight, Bool.and_eq_true, decide_eq_true_eq] at this
        exact hheld this.1
      rw [if_neg hheld]
      by_cases hwaits : 0 < q.bulk.len
      · rw [if_pos hwaits]
        refine ⟨?_, fun h ↦ by cases h⟩
        rintro _ ⟨⟩
        exact ⟨hnone _ hnotPriority hnotBulk, hwaits⟩
      · rw [if_neg hwaits]
        refine ⟨fun id h ↦ absurd h (by simp), ?_⟩
        intro _ id
        cases id with
        | priority => exact Nat.eq_zero_of_not_pos hheld
        | bulk => exact Nat.eq_zero_of_not_pos hwaits

/-- What a peek shows is the unsent part of the head of a band that may go on. -/
theorem Refines.peek {q : Outq} {spec : LaneQueue BandId UInt8} (h : Refines q spec)
    (hsound : spec.Sound) {view : View} (hview : q.peek = some view) :
    spec.FreeFor view.band ∧ view.remaining = view.atBytes.length ∧
      ∃ frame rest, spec.waiting view.band = frame :: rest ∧
        view.atBytes = frame.drop spec.sent := by
  obtain ⟨id, howed, rfl⟩ := Option.map_eq_some_iff.1 hview
  obtain ⟨hfree, hheld⟩ := h.owedBand.1 id howed
  have hlength := (h.valid id).head_length
  refine ⟨hfree, ?_, _, _, h.waiting_cons _ hheld, ?_⟩
  · simp only [viewOf, List.length_drop, hlength]
  · simp only [viewOf, h.sent_eq hsound hfree]

namespace Driver

variable {s : Driver} {spec : LaneQueue BandId UInt8}

/-- Taking a frame leaves the view as good as it was. -/
theorem Shown.accept {view : View} (h : Shown spec view) (lane : BandId) (frame : List UInt8) :
    Shown (spec.accept lane frame) view := by
  rcases h with hnil | hshown
  · exact .inl hnil
  · by_cases hempty : spec.waiting view.band = []
    · rw [hempty] at hshown
      exact .inl (by simpa using hshown)
    · refine .inr ?_
      by_cases hsame : view.band = lane
      · subst hsame
        rw [LaneQueue.accept_waiting_self, LaneQueue.Sound.headD_append hempty]
        exact hshown
      · rw [LaneQueue.accept_waiting_of_ne spec hsame]
        exact hshown

theorem isFrame_ne_nil {frame : List UInt8} (h : IsFrame frame) : frame ≠ [] := by
  obtain ⟨hdr, hparse, -⟩ := h
  rintro rfl
  cases hparse

/-- An offer, taken or not. -/
theorem Tracks.offer (h : Tracks s spec) (frame : List UInt8) :
    Tracks (s.step (.offer frame)) (s.shadow spec (.offer frame)) := by
  rcases h.refines.offer frame with ⟨hok, hframe, hrefines⟩ | ⟨hrefused, hrefines⟩
  · rw [shadow, if_pos hok]
    exact { sound := h.sound.accept (isFrame_ne_nil hframe), refines := hrefines,
            accepted := by simp [step, hok, LaneQueue.accept, h.accepted],
            emitted := h.emitted, remaining := h.remaining, free := h.free,
            shown := fun view hview ↦ (h.shown view hview).accept _ _ }
  · rw [shadow, if_neg hrefused]
    exact { sound := h.sound, refines := hrefines,
            accepted := by simp [step, hrefused, h.accepted],
            emitted := h.emitted, remaining := h.remaining, free := h.free, shown := h.shown }

/-- A pair, taken or not. -/
theorem Tracks.offerPair (h : Tracks s spec) (first second : List UInt8) :
    Tracks (s.step (.offerPair first second)) (s.shadow spec (.offerPair first second)) := by
  rcases h.refines.offerPair first second with
    ⟨hok, hfirst, hsecond, hrefines⟩ | ⟨hrefused, hrefines⟩
  · rw [shadow, if_pos hok]
    exact { sound := (h.sound.accept (isFrame_ne_nil hfirst)).accept (isFrame_ne_nil hsecond),
            refines := hrefines,
            accepted := by simp [step, hok, LaneQueue.accept, h.accepted],
            emitted := h.emitted, remaining := h.remaining, free := h.free,
            shown := fun view hview ↦ ((h.shown view hview).accept _ _).accept _ _ }
  · rw [shadow, if_neg hrefused]
    exact { sound := h.sound, refines := hrefines,
            accepted := by simp [step, hrefused, h.accepted],
            emitted := h.emitted, remaining := h.remaining, free := h.free, shown := h.shown }

/-- A peek shows the unsent part of the head of the owed band. -/
theorem Tracks.peek (h : Tracks s spec) : Tracks (s.step .peek) (s.shadow spec .peek) where
  sound := h.sound
  refines := h.refines
  accepted := h.accepted
  emitted := h.emitted
  remaining _ hview := (h.refines.peek h.sound hview).2.1
  free _ hview := (h.refines.peek h.sound hview).1
  shown view hview := by
    obtain ⟨-, -, frame, rest, hwaiting, hbytes⟩ := h.refines.peek h.sound hview
    exact .inr (by simp [shadow, hwaiting, hbytes])

/-- What is left of a view after an advance is still shown, and what was advanced over is what the
specification put out. -/
theorem Shown.emit {view : View} (h : Shown spec view) (hfree : spec.FreeFor view.band) {n : Nat}
    (hn : n ≤ view.atBytes.length) :
    Shown (spec.emit view.band n) { view with
      atBytes := view.atBytes.drop n, remaining := view.remaining - n } ∧
    (spec.emit view.band n).emitted = spec.emitted ++ view.atBytes.take n ∧
    (spec.emit view.band n).FreeFor view.band := by
  cases hwaiting : spec.waiting view.band with
  | nil =>
      have hnil : view.atBytes = [] := by
        rcases h with hnil | hshown
        · exact hnil
        · simpa [hwaiting] using hshown
      rw [LaneQueue.emit_nil hwaiting]
      exact ⟨.inl (by simp [hnil]), by simp [hnil], hfree⟩
  | cons frame rest =>
      have htake : (frame.drop spec.sent).take n = view.atBytes.take n := by
        rcases h with hnil | hshown
        · have hzero : n = 0 := by simpa [hnil] using hn
          simp [hzero]
        · simp [hshown, hwaiting]
      by_cases hmore : spec.sent + n < frame.length
      · rw [LaneQueue.emit_inside hwaiting hmore]
        refine ⟨?_, by rw [htake], ?_⟩
        · rcases h with hnil | hshown
          · exact .inl (by simp [hnil])
          · exact .inr (by simp [hshown, hwaiting])
        · by_cases hzero : n = 0
          · simpa [LaneQueue.FreeFor, hzero] using hfree
          · simp [LaneQueue.FreeFor, hzero]
      · rw [LaneQueue.emit_complete hwaiting (Nat.le_of_not_lt hmore)]
        refine ⟨?_, by rw [htake], .inl rfl⟩
        rcases h with hnil | hshown
        · exact .inl (by simp [hnil])
        · have hlength : view.atBytes.length = frame.length - spec.sent := by
            simp [hshown, hwaiting]
          exact .inl (List.drop_eq_nil_iff.2 (by omega))

/-- An advance over what the view shows. -/
theorem Tracks.advance (h : Tracks s spec) (n : Nat) :
    Tracks (s.step (.advance n)) (s.shadow spec (.advance n)) := by
  cases hview : s.view with
  | none =>
      simp only [Driver.step, shadow, hview]
      exact h
  | some view =>
      by_cases hpast : view.remaining < n
      · simp only [Driver.step, shadow, hview, if_pos hpast]
        exact h
      · have hfree := h.free view hview
        have hremaining := h.remaining view hview
        obtain ⟨hshown, hemitted, hstill⟩ :=
          (h.shown view hview).emit hfree (n := n) (by omega)
        simp only [Driver.step, shadow, hview, if_neg hpast]
        refine { sound := h.sound.emit hfree n,
                 refines := h.refines.advance h.sound hfree n,
                 accepted := ?_, emitted := ?_, remaining := ?_, free := ?_, shown := ?_ }
        · rw [spec.emit_accepted, h.accepted]
        · rw [hemitted, h.emitted]
        · rintro _ ⟨⟩
          simp [hremaining]
        · rintro _ ⟨⟩
          exact hstill
        · rintro _ ⟨⟩
          exact hshown

/-- A preamble of the frame the view shows. -/
theorem Tracks.notePreamble (h : Tracks s spec) :
    Tracks (s.step .notePreamble) (s.shadow spec .notePreamble) := by
  cases hview : s.view with
  | none =>
      simp only [Driver.step, shadow, hview]
      exact h
  | some view =>
      have hfree := h.free view hview
      have hkept : (spec.start view.band).FreeFor view.band ∧
          Shown (spec.start view.band) view := by
        unfold LaneQueue.start
        split
        · exact ⟨hfree, h.shown view hview⟩
        · exact ⟨.inr rfl, h.shown view hview⟩
      simp only [Driver.step, shadow, hview]
      refine { sound := h.sound.start hfree, refines := h.refines.notePreamble h.sound hfree,
               accepted := ?_, emitted := ?_, remaining := ?_, free := ?_, shown := ?_ }
      · rw [spec.start_accepted, h.accepted]
      · rw [spec.start_emitted, h.emitted]
      · rintro _ ⟨⟩
        exact h.remaining view hview
      · rintro _ ⟨⟩
        exact hkept.1
      · rintro _ ⟨⟩
        exact hkept.2

/-- Every event keeps the driver's past the past of the specification. -/
theorem Tracks.step (h : Tracks s spec) (event : Event) :
    Tracks (s.step event) (s.shadow spec event) := by
  cases event with
  | offer frame => exact h.offer frame
  | offerPair first second => exact h.offerPair first second
  | peek => exact h.peek
  | advance n => exact h.advance n
  | notePreamble => exact h.notePreamble

/-- Every run of the driver has a specification state behind it. -/
theorem run_tracks (q : Outq) (events : List Event) :
    ∃ spec, Tracks (run Driver.step (start q) events) spec :=
  run_invariant (fun s ↦ ∃ spec, Tracks s spec) ⟨_, tracks_start q⟩
    (fun _ event ⟨_, h⟩ ↦ ⟨_, h.step event⟩) events

/-- The bands, this one first. -/
def lanesFrom : BandId → List BandId
  | .priority => [.priority, .bulk]
  | .bulk => [.bulk, .priority]

theorem nodup_lanesFrom (first : BandId) : (lanesFrom first).Nodup := by
  cases first <;> decide

theorem mem_lanesFrom (first id : BandId) : id ∈ lanesFrom first := by
  cases first <;> cases id <;> decide

/-- Completed and waiting frames are filed under the band their type names. -/
theorem Tracks.named (h : Tracks s spec) (first : BandId) :
    ∀ item ∈ spec.done ++ spec.backlog (lanesFrom first), item.1 = bandOf item.2 := by
  have haccepted : ∀ item ∈ spec.accepted, item.1 = bandOf item.2 := by
    rw [h.accepted]
    intro item hitem
    obtain ⟨frame, -, rfl⟩ := List.mem_map.1 hitem
    rfl
  rintro ⟨lane, frame⟩ hitem
  apply haccepted (lane, frame)
  apply h.sound.mem_accepted
  rcases List.mem_append.1 hitem with hdone | hwaits
  · refine .inl (List.mem_map.2 ⟨(lane, frame), ?_, rfl⟩)
    exact List.mem_filter.2 ⟨hdone, by simp⟩
  · obtain ⟨id, -, hmem⟩ := List.mem_flatMap.1 hwaits
    obtain ⟨queued, hqueued, heq⟩ := List.mem_map.1 hmem
    cases heq
    exact .inr hqueued

/-- Per band, what completed and what waits is what was accepted, in order. -/
theorem Tracks.filter_bandOf (h : Tracks s spec) (first id : BandId) :
    (spec.done.map Prod.snd ++ (spec.backlog (lanesFrom first)).map Prod.snd).filter
        (fun frame ↦ bandOf frame = id) =
      s.accepted.filter fun frame ↦ bandOf frame = id := by
  have hnamed : ∀ item ∈ spec.accepted, item.1 = bandOf item.2 := by
    rw [h.accepted]
    intro item hitem
    obtain ⟨frame, -, rfl⟩ := List.mem_map.1 hitem
    rfl
  have hsent : s.accepted = spec.accepted.map Prod.snd := by
    simp [h.accepted, Function.comp_def]
  rw [← List.map_append, ← LaneQueue.onLane_eq_filter (h.named first), LaneQueue.onLane_append,
    LaneQueue.onLane_backlog spec (nodup_lanesFrom first) (mem_lanesFrom first id),
    h.sound.account, LaneQueue.onLane_eq_filter hnamed, hsent]

/-- No other band has begun than the one that is owed. -/
theorem Tracks.free_owed (h : Tracks s spec) :
    spec.FreeFor (s.queue.owedBand.getD .priority) := by
  obtain ⟨howed, hnone⟩ := h.refines.owedBand
  cases hcase : s.queue.owedBand with
  | some id => exact (howed id hcase).1
  | none =>
      refine .inl ?_
      match hbegun : spec.begun with
      | none => rfl
      | some id =>
          have hflight := (h.refines.begun id).1 hbegun
          simp [Band.inFlight, hnone hcase id] at hflight

/-- The backlog starts with the head of the band put first. -/
theorem backlog_lanesFrom {first : BandId} {frame : List UInt8} {rest : List (List UInt8)}
    (hwaiting : spec.waiting first = frame :: rest) :
    ∃ more, (spec.backlog (lanesFrom first)).map Prod.snd = frame :: more := by
  cases first <;> simp [LaneQueue.backlog, lanesFrom, hwaiting]

/-- A peek finds nothing only when nothing waits. -/
theorem Tracks.backlog_nil (h : Tracks s spec) (hpeek : s.queue.peek = none)
    (lanes : List BandId) : spec.backlog lanes = [] := by
  have howed : s.queue.owedBand = none := by simpa [Outq.peek] using hpeek
  have hempty := h.refines.owedBand.2 howed
  apply List.flatMap_eq_nil_iff.2
  intro id _
  simp [h.refines.waiting_nil id (hempty id)]

/-- What leaves an outbound queue. Over every sequence of offers, pairs, peeks, advances and
preambles on a reset queue, the bytes advanced over are whole frames followed by a proper part of
one more. With the frames still waiting behind it, per band these are exactly the accepted frames
in the order of their offers; a peek shows the rest of the frame that has begun, or the next whole
one; nothing is left when there is nothing to show; and at most one band has begun. -/
theorem run_stream_integrity (q : Outq) (events : List Event) :
    let s := run Driver.step (start q) events
    ∃ (done rest : List (List UInt8)) (part : List UInt8),
      s.emitted <+: (done ++ rest).flatten ∧
      s.emitted = done.flatten ++ part ∧
      (part = [] ∨ ∃ frame more, rest = frame :: more ∧ part <+: frame ∧ part ≠ frame) ∧
      (∀ id, (done ++ rest).filter (fun frame ↦ bandOf frame = id) =
        s.accepted.filter fun frame ↦ bandOf frame = id) ∧
      (∀ view, s.queue.peek = some view →
        ∃ frame more, rest = frame :: more ∧ bandOf frame = view.band ∧
          part ++ view.atBytes = frame) ∧
      (s.queue.peek = none → rest = []) ∧
      ¬ (s.queue.priority.inFlight = true ∧ s.queue.bulk.inFlight = true) ∧
      (s.queue.bulk.inFlight = true → ∃ view, s.queue.peek = some view ∧ view.band = .bulk) := by
  intro s
  obtain ⟨spec, h⟩ := run_tracks q events
  -- the specification has no committed band the queue does not serve
  have hfree := h.free_owed
  have hstream : s.emitted = (spec.done.map Prod.snd).flatten ++ spec.part := by
    rw [← h.emitted, h.sound.stream]
    rfl
  refine ⟨spec.done.map Prod.snd, (spec.backlog (lanesFrom _)).map Prod.snd, spec.part, ?_,
    hstream, ?_, h.filter_bandOf (s.queue.owedBand.getD .priority), ?_, ?_, ?_, ?_⟩
  · have hprefix : spec.emitted <+: LaneQueue.bytes (spec.done ++
        spec.backlog (lanesFrom (s.queue.owedBand.getD .priority))) := by
      cases howed : s.queue.owedBand.getD .priority <;>
        exact h.sound.emitted_prefix (howed ▸ hfree)
    rw [h.emitted] at hprefix
    simpa [LaneQueue.bytes] using hprefix
  · rcases hfree with hnone | hbegun
    · exact .inl (by simp [LaneQueue.part, hnone])
    · -- a frame begun is inside: some of its bytes are still to come
      obtain ⟨frame, items, hwaiting⟩ :=
        List.exists_cons_of_ne_nil (h.sound.waiting_ne_nil hbegun)
      obtain ⟨more, hmore⟩ := backlog_lanesFrom hwaiting
      have hinside : spec.sent < frame.length := by
        simpa [hwaiting] using h.sound.inside _ hbegun
      refine .inr ⟨frame, more, hmore, ?_, ?_⟩
      · rw [h.sound.part_eq (.inr hbegun) hwaiting]
        exact List.take_prefix _ _
      · rw [h.sound.part_eq (.inr hbegun) hwaiting]
        intro hwhole
        have := congrArg List.length hwhole
        simp only [List.length_take] at this
        omega
  · intro view hview
    obtain ⟨hviewFree, -, frame, items, hwaiting, hbytes⟩ := h.refines.peek h.sound hview
    have hband : s.queue.owedBand.getD .priority = view.band := by
      obtain ⟨id, howed, rfl⟩ := Option.map_eq_some_iff.1 hview
      simp [howed, viewOf]
    obtain ⟨more, hmore⟩ := backlog_lanesFrom hwaiting
    rw [hband]
    refine ⟨frame, more, hmore, ?_, ?_⟩
    · refine (h.named view.band (view.band, frame) ?_).symm
      refine List.mem_append_right _ (List.mem_flatMap.2 ⟨view.band, mem_lanesFrom _ _, ?_⟩)
      exact List.mem_map.2 ⟨frame, by simp [hwaiting], rfl⟩
    · rw [h.sound.part_eq hviewFree hwaiting, hbytes, List.take_append_drop]
  · intro hpeek
    simp [h.backlog_nil hpeek]
  · rintro ⟨hpriority, hbulk⟩
    have hfirst := (h.refines.begun .priority).2 hpriority
    have hsecond := (h.refines.begun .bulk).2 hbulk
    rw [hfirst] at hsecond
    cases hsecond
  · intro hbulk
    exact ⟨s.queue.viewOf .bulk, by simp [Outq.peek, owedBand, hbulk], rfl⟩

end Driver

end DeskhopPlus.Outq
