import DeskhopPlus.Library.Ring
import DeskhopPlus.Wire.Frame

/-!
# The outbound frame queue

`dh_outq.c`: a priority band and a bulk band in front of one transport. Each band has the buffer
of the frame in flight and a ring of slots for the frames behind it. A frame is copied into a
buffer of fixed size and its length noted beside it, as the source does; what the buffer holds
past that length is left over from earlier frames. The two bands differ in their sizes and in
when they are owed, so one family of operations indexed by `BandId` serves both.
-/

namespace DeskhopPlus.Outq

open Bytes Wire

/-- `DH_OUTQ_PRIORITY_MAX`. -/
def priorityMax : Nat := 128

/-- `DH_OUTQ_PRIORITY_DEPTH`. -/
def priorityDepth : Nat := 1

/-- `DH_OUTQ_STAGE_MAX`. -/
def stageMax : Nat := 1095

/-- `DH_OUTQ_DEPTH`. -/
def bulkDepth : Nat := 3

/-- `band_id` without `BAND_NONE`, which is `none` where it occurs. -/
inductive BandId where
  | priority
  | bulk
  deriving DecidableEq, Repr

/-- The queued slots behind the frame in flight. -/
def BandId.depth : BandId → Nat
  | .priority => priorityDepth
  | .bulk => bulkDepth

/-- The size of the in-flight buffer. -/
def BandId.bufSize : BandId → Nat
  | .priority => priorityMax
  | .bulk => maxFrame

/-- The size of a queued slot. -/
def BandId.slotSize : BandId → Nat
  | .priority => priorityMax
  | .bulk => stageMax

theorem BandId.depth_pos (id : BandId) : 0 < id.depth := by
  cases id <;> decide

/-- One row of `stage` with its entry of `stage_len`. -/
structure Slot where
  bytes : List UInt8
  len : Nat

/-- Copy a frame into a slot. -/
def Slot.write (frame : List UInt8) (slot : Slot) : Slot :=
  { bytes := overwrite slot.bytes 0 frame, len := frame.length }

/-- The frame a slot holds. -/
def Slot.frame (slot : Slot) : List UInt8 := slot.bytes.take slot.len

/-- `dh_outq_band` with its in-flight buffer and its ring of queued slots. -/
structure Band (id : BandId) where
  len : Nat
  sent : Nat
  preambleDone : Bool
  buf : List UInt8
  stage : Ring Slot id.depth

namespace Band

variable {id : BandId}

/-- A band of `dh_outq_init`. -/
def init (id : BandId) : Band id where
  len := 0
  sent := 0
  preambleDone := false
  buf := List.replicate id.bufSize 0
  stage := Ring.empty id.depth id.depth_pos { bytes := List.replicate id.slotSize 0, len := 0 }

/-- `band_in_flight`. -/
def inFlight (b : Band id) : Bool := 0 < b.len && (0 < b.sent || b.preambleDone)

/-- `band_clear`. -/
def clear (b : Band id) : Band id := { b with len := 0, sent := 0, preambleDone := false }

/-- `promote` and `promote_priority`: the next queued frame becomes the one in flight. -/
def promote (b : Band id) : Band id :=
  if hused : 0 < b.clear.stage.used then
    { b.clear with
      buf := overwrite b.buf 0 b.stage.oldest.frame
      len := b.stage.oldest.len
      stage := b.clear.stage.pop hused }
  else b.clear

/-- Copy a frame into the in-flight buffer of an empty band. -/
def hold (b : Band id) (frame : List UInt8) : Band id :=
  { b.clear with buf := overwrite b.buf 0 frame, len := frame.length }

/-- Copy a frame into the next queued slot. -/
def enqueue (b : Band id) (frame : List UInt8) (hroom : b.stage.used < id.depth) : Band id :=
  { b with stage := b.stage.push (Slot.write frame) hroom }

/-- The half of `dh_outq_advance` that works on one band. -/
def advance (b : Band id) (n : Nat) : Band id :=
  if b.len = 0 then b
  else
    let remaining := b.len - b.sent
    let b := { b with sent := b.sent + (if n < remaining then n else remaining) }
    if b.sent < b.len then b else b.promote

/-- The half of `dh_outq_note_preamble` that works on one band. -/
def notePreamble (b : Band id) : Band id :=
  if b.len = 0 then b else { b with preambleDone := true }

end Band

/-- The results of `dh_outq_result`. -/
inductive OutqResult where
  | ok
  | busy
  | oversize
  | frame
  deriving DecidableEq, Repr

/-- `dh_outq_view`. `atBytes` is the unsent part of the frame, read through the pointer. -/
structure View where
  atBytes : List UInt8
  remaining : Nat
  total : Nat
  band : BandId
  preambleOwed : Bool
  deriving DecidableEq, Repr

end DeskhopPlus.Outq

namespace DeskhopPlus

open Bytes Wire Outq

/-- `dh_outq`. -/
structure Outq where
  priority : Band .priority
  bulk : Band .bulk
  refused : Nat
  refusedPriority : Nat
  refusedBulk : Nat
  refusedBadHeader : Nat

namespace Outq

/-- The band of an id. -/
def band (q : Outq) : (id : BandId) → Band id
  | .priority => q.priority
  | .bulk => q.bulk

/-- Replace one band. -/
def setBand (q : Outq) (id : BandId) (b : Band id) : Outq :=
  match id, b with
  | .priority, b => { q with priority := b }
  | .bulk, b => { q with bulk := b }

@[simp] theorem band_setBand_self (q : Outq) (id : BandId) (b : Band id) :
    (q.setBand id b).band id = b := by
  cases id <;> rfl

theorem band_setBand_of_ne (q : Outq) {id other : BandId} (h : other ≠ id) (b : Band id) :
    (q.setBand id b).band other = q.band other := by
  cases id <;> cases other <;> first | rfl | exact absurd rfl h

/-- `dh_outq_init`. -/
def init : Outq where
  priority := Band.init .priority
  bulk := Band.init .bulk
  refused := 0
  refusedPriority := 0
  refusedBulk := 0
  refusedBadHeader := 0

/-- `dh_outq_reset`: everything queued is dropped, the refusal totals stay. -/
def reset (q : Outq) : Outq :=
  { q with priority := Band.init .priority, bulk := Band.init .bulk }

/-- Count up to `UINT32_MAX` and stay there. -/
def saturate (count : Nat) : Nat := if count < 2 ^ 32 - 1 then count + 1 else count

/-- `refuse` against `refused_bad_header`. -/
def refuseBadHeader (q : Outq) : Outq :=
  { q with refused := saturate q.refused, refusedBadHeader := saturate q.refusedBadHeader }

/-- `refuse` against the cause of a band. -/
def refuse (q : Outq) : BandId → Outq
  | .priority =>
      { q with refused := saturate q.refused, refusedPriority := saturate q.refusedPriority }
  | .bulk => { q with refused := saturate q.refused, refusedBulk := saturate q.refusedBulk }

/-- `owed_band`. -/
def owedBand (q : Outq) : Option BandId :=
  if q.bulk.inFlight then some .bulk
  else if 0 < q.priority.len then some .priority
  else if 0 < q.bulk.len then some .bulk
  else none

/-- `dh_outq_pair_busy`. -/
def pairBusy (q : Outq) : Bool :=
  0 < q.priority.len || 0 < q.priority.stage.used || q.bulk.inFlight

/-- `dh_outq_busy`. -/
def busy (q : Outq) : Bool := 0 < q.priority.len || 0 < q.bulk.len

/-- `dh_outq_priority_full`. -/
def priorityFull (q : Outq) : Bool :=
  0 < q.priority.len && priorityDepth ≤ q.priority.stage.used

/-- The header of a byte string that is exactly one frame. -/
def wholeFrame (frame : List UInt8) : Option FrameHeader :=
  match headerParse frame with
  | .error _ => none
  | .ok hdr => if frame.length = headerSize + hdr.len then some hdr else none

/-- `dh_outq_offer`. -/
def offer (q : Outq) (frame : List UInt8) : OutqResult × Outq :=
  match wholeFrame frame with
  | none => (.frame, q.refuseBadHeader)
  | some hdr =>
      if Msg.isBulk hdr.type = false then
        if priorityMax < frame.length then (.oversize, q.refuse .priority)
        else if 0 < q.priority.len then
          if hroom : q.priority.stage.used < priorityDepth then
            (.ok, q.setBand .priority (q.priority.enqueue frame hroom))
          else (.busy, q.refuse .priority)
        else (.ok, q.setBand .priority (q.priority.hold frame))
      else if q.bulk.len = 0 then (.ok, q.setBand .bulk (q.bulk.hold frame))
      else if stageMax < frame.length then (.busy, q.refuse .bulk)
      else if hroom : q.bulk.stage.used < bulkDepth then
        (.ok, q.setBand .bulk (q.bulk.enqueue frame hroom))
      else (.busy, q.refuse .bulk)

/-- The admission `dh_outq_offer_pair` ends in: the first frame in the buffer, the second in
slot 0. -/
def holdPair (b : Band .priority) (first second : List UInt8) : Band .priority :=
  { b.hold first with stage := b.stage.restart (Slot.write second) }

/-- `dh_outq_offer_pair`. -/
def offerPair (q : Outq) (first second : List UInt8) : OutqResult × Outq :=
  match wholeFrame first, wholeFrame second with
  | some firstHdr, some secondHdr =>
      if Msg.isBulk firstHdr.type || Msg.isBulk secondHdr.type then
        (.frame, q.refuse .priority)
      else if priorityMax < first.length ∨ priorityMax < second.length then
        (.oversize, q.refuse .priority)
      else if q.pairBusy then (.busy, q.refuse .priority)
      else (.ok, q.setBand .priority (holdPair q.priority first second))
  | _, _ => (.frame, q.refuseBadHeader)

/-- What `dh_outq_peek` shows of a band. -/
def viewOf (q : Outq) (id : BandId) : View :=
  let b := q.band id
  { atBytes := (b.buf.take b.len).drop b.sent
    remaining := b.len - b.sent
    total := b.len
    band := id
    preambleOwed := !b.preambleDone }

/-- `dh_outq_peek`. -/
def peek (q : Outq) : Option View := q.owedBand.map q.viewOf

/-- `dh_outq_advance`. Only the band is read from the view. -/
def advance (q : Outq) (view : View) (n : Nat) : Outq :=
  q.setBand view.band ((q.band view.band).advance n)

/-- `dh_outq_note_preamble`. -/
def notePreamble (q : Outq) (view : View) : Outq :=
  q.setBand view.band (q.band view.band).notePreamble

end Outq

end DeskhopPlus
