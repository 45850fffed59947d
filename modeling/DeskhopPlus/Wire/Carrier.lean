import DeskhopPlus.Library.Runs
import DeskhopPlus.Wire.Reader

/-!
# The report carrier

Frames are cut into fixed reports, a flag and sixty-three stream bytes with the last tail padded,
and some of the reports are lost. `Segment` is a frame with the loss pattern of its reports and
`Survivor` one report that arrives. The first part shows that the reader never fails and delivers
every frame whose reports all arrive, once and unchanged. The second part shows what else it can
deliver: a frame that lost a report and was completed by later ones passes for whole only when the
report that completes it ends with it or holds nothing but padding behind it.
-/

namespace DeskhopPlus.Wire

open Bytes Runs

/-- A report: the flag, the stream bytes and padding up to the fixed size. -/
def reportBytes (start : Bool) (chunk : List UInt8) : List UInt8 :=
  (if start then reportFrameStart else reportFrameContinues) ::
    (chunk ++ List.replicate (reportStreamSize - chunk.length) pad)

/-- The stream bytes of one report of a frame. -/
def chunkAt (frame : List UInt8) (index : Nat) : List UInt8 :=
  (frame.drop (reportStreamSize * index)).take reportStreamSize

/-- One report of a frame: only the first has the start flag. -/
def reportAt (frame : List UInt8) (index : Nat) : List UInt8 :=
  reportBytes (index = 0) (chunkAt frame index)

/-- The number of reports of a frame. -/
def reportCount (frame : List UInt8) : Nat :=
  (frame.length + (reportStreamSize - 1)) / reportStreamSize

/-- The reports of a frame. -/
def cut (frame : List UInt8) : List (List UInt8) :=
  (List.range (reportCount frame)).map (reportAt frame)

/-- A frame sent over the carrier, and which of its reports arrive. -/
structure Segment where
  frame : WireFrame
  keep : Nat → Bool

/-- A report that arrives: which one of which frame, and whether all earlier reports of that frame
arrived. -/
structure Survivor where
  frame : WireFrame
  index : Nat
  intact : Bool

/-- The bytes of the report. -/
def Survivor.report (survivor : Survivor) : List UInt8 :=
  reportAt survivor.frame.bytes survivor.index

namespace Segment

/-- The arriving report of an index. -/
def survivor (seg : Segment) (index : Nat) : Survivor :=
  { frame := seg.frame, index := index, intact := (List.range index).all seg.keep }

/-- The reports of the segment that arrive, in order. -/
def survivors (seg : Segment) : List Survivor :=
  ((List.range (reportCount seg.frame.bytes)).filter seg.keep).map seg.survivor

/-- Every report of the frame arrives. -/
def whole (seg : Segment) : Bool := (List.range (reportCount seg.frame.bytes)).all seg.keep

end Segment

/-- The reader after a report. -/
def readStep (r : FrameReader) (survivor : Survivor) : FrameReader :=
  (r.report survivor.report).2

/-- The frames the reader delivers over a sequence of reports. -/
def delivered (r : FrameReader) : List Survivor → List FrameView
  | [] => []
  | survivor :: rest =>
      match (r.report survivor.report).1 with
      | .ok view => view :: delivered (readStep r survivor) rest
      | .error _ => delivered (readStep r survivor) rest

theorem delivered_append (r : FrameReader) (first second : List Survivor) :
    delivered r (first ++ second) =
      delivered r first ++ delivered (run readStep r first) second := by
  induction first generalizing r with
  | nil => rfl
  | cons survivor rest ih =>
      simp only [List.cons_append, delivered, run_cons]
      split
      · rw [ih, List.cons_append]
      · exact ih _

/-! ## The stream of a report -/

/-- The stream bytes of a report: a piece of the frame, padded. -/
def streamAt (frame : List UInt8) (index : Nat) : List UInt8 :=
  chunkAt frame index ++ List.replicate (reportStreamSize - (chunkAt frame index).length) pad

theorem reportAt_zero (frame : List UInt8) :
    reportAt frame 0 = reportFrameStart :: streamAt frame 0 := rfl

theorem reportAt_succ (frame : List UInt8) {index : Nat} (h : 0 < index) :
    reportAt frame index = reportFrameContinues :: streamAt frame index := by
  simp [reportAt, reportBytes, streamAt, Nat.ne_of_gt h]

theorem chunkAt_length_le (frame : List UInt8) (index : Nat) :
    (chunkAt frame index).length ≤ reportStreamSize := by
  simp [chunkAt]

@[simp] theorem streamAt_length (frame : List UInt8) (index : Nat) :
    (streamAt frame index).length = reportStreamSize := by
  have := chunkAt_length_le frame index
  simp only [streamAt, List.length_append, List.length_replicate]
  omega

theorem streamAt_ne_nil (frame : List UInt8) (index : Nat) : streamAt frame index ≠ [] := by
  apply List.ne_nil_of_length_pos
  rw [streamAt_length]
  decide

/-- The last report of a frame carries the rest of it and padding. -/
theorem streamAt_last {frame : List UInt8} {index : Nat}
    (hlast : frame.length ≤ reportStreamSize * (index + 1)) :
    (streamAt frame index).take (frame.length - reportStreamSize * index) =
        frame.drop (reportStreamSize * index) ∧
      ((streamAt frame index).drop (frame.length - reportStreamSize * index)).all
        (· = pad) = true := by
  have hchunk : chunkAt frame index = frame.drop (reportStreamSize * index) := by
    apply List.take_of_length_le
    rw [List.length_drop]
    rw [Nat.mul_succ] at hlast
    omega
  have hlength : (chunkAt frame index).length = frame.length - reportStreamSize * index := by
    simp [hchunk]
  refine ⟨?_, ?_⟩
  · rw [streamAt, List.take_left' hlength, hchunk]
  · rw [streamAt, List.drop_left' hlength]
    simp

/-- A report that is not the last carries stream bytes only. -/
theorem streamAt_inside {frame : List UInt8} {index : Nat}
    (hmore : reportStreamSize * (index + 1) < frame.length) :
    streamAt frame index = chunkAt frame index := by
  have hlength : (chunkAt frame index).length = reportStreamSize := by
    rw [Nat.mul_succ] at hmore
    simp only [chunkAt, List.length_take, List.length_drop]
    omega
  simp [streamAt, hlength]

/-! ## Reports of the frame in progress -/

section Own

variable {frame : WireFrame} {r : FrameReader} {index : Nat}

/-- The header of a frame can be read from its first report. -/
theorem header_parse_streamAt {hdr : FrameHeader} (hparse : headerParse frame.bytes = .ok hdr) :
    headerParse (streamAt frame.bytes 0) = .ok hdr := by
  rw [streamAt, chunkAt, Nat.mul_zero, List.drop_zero]
  exact header_parse_append _ (header_parse_take (by decide) hparse)

/-- A view built from the header and the bytes of a frame is that frame. -/
theorem view_bytes {hdr : FrameHeader} (hparse : headerParse frame.bytes = .ok hdr)
    (hlen : frame.bytes.length = headerSize + hdr.len) :
    FrameView.bytes { type := hdr.type, flags := hdr.flags,
                      payload := frame.bytes.drop headerSize } = frame.bytes := by
  obtain ⟨-, -, -, htake⟩ := header_parse_ok hparse
  have hpayload : (frame.bytes.drop headerSize).length = hdr.len := by
    simp [hlen]
  rw [FrameView.bytes, hpayload, ← htake, List.take_append_drop]

/-- Reading the next report of a frame all of whose earlier reports were read: the reader holds
one piece more, and delivers the frame with its last report. -/
theorem report_own (hown : index = 0 ∨ r.held = frame.bytes.take (reportStreamSize * index))
    (hindex : reportStreamSize * index < frame.bytes.length) :
    (r.report (reportAt frame.bytes index)).2.held =
        frame.bytes.take (reportStreamSize * (index + 1)) ∧
      ((frame.bytes.length ≤ reportStreamSize * (index + 1) ∧
          ∃ view, view.bytes = frame.bytes ∧
            (r.report (reportAt frame.bytes index)).1 = .ok view) ∨
        (reportStreamSize * (index + 1) < frame.bytes.length ∧
          (r.report (reportAt frame.bytes index)).1 = .error .again)) := by
  obtain ⟨hdr, hparse, hlen⟩ := frame.isFrame
  by_cases hfirst : index = 0
  · subst hfirst
    obtain ⟨resyncs, hreport⟩ := r.report_start (header_parse_streamAt hparse)
    rw [reportAt_zero, hreport, streamAt_length, ← hlen]
    by_cases hlast : frame.bytes.length ≤ reportStreamSize * (0 + 1)
    · obtain ⟨htake, hpad⟩ := streamAt_last hlast
      simp only [Nat.mul_zero, Nat.sub_zero, List.drop_zero] at htake hpad
      have hends : frame.bytes.length ≤ reportStreamSize := by omega
      simp only [hends, if_true, hpad, htake]
      refine ⟨(List.take_of_length_le hlast).symm, .inl ⟨hlast, _, view_bytes hparse hlen, rfl⟩⟩
    · have hends : ¬ frame.bytes.length ≤ reportStreamSize := by omega
      simp only [hends, if_false]
      refine ⟨?_, .inr ⟨by omega, trivial⟩⟩
      rw [streamAt_inside (by omega), chunkAt, Nat.mul_zero, List.drop_zero, Nat.zero_add,
        Nat.mul_one]
  · -- a report of the middle: the reader is inside this frame and goes on with it
    have hheld := hown.resolve_left hfirst
    have hsize : headerSize ≤ reportStreamSize * index := by
      have : 1 ≤ index := by omega
      calc headerSize ≤ reportStreamSize * 1 := by decide
        _ ≤ reportStreamSize * index := Nat.mul_le_mul_left _ this
    have hheldLength : r.held.length = reportStreamSize * index := by
      rw [hheld, List.length_take]
      omega
    have hin : r.InFrame hdr :=
      ⟨hheld ▸ header_parse_take hsize hparse, by rw [hheldLength, ← hlen]; exact hindex⟩
    rw [reportAt_succ _ (by omega), r.report_continues hin (streamAt_ne_nil _ _),
      streamAt_length, ← hlen, hheldLength]
    by_cases hlast : frame.bytes.length ≤ reportStreamSize * (index + 1)
    · obtain ⟨htake, hpad⟩ := streamAt_last hlast
      have hends : frame.bytes.length - reportStreamSize * index ≤ reportStreamSize := by
        rw [Nat.mul_succ] at hlast
        omega
      simp only [hends, if_true, hpad, htake, hheld, List.take_append_drop]
      refine ⟨(List.take_of_length_le hlast).symm, .inl ⟨hlast, _, view_bytes hparse hlen, rfl⟩⟩
    · have hends : ¬ frame.bytes.length - reportStreamSize * index ≤ reportStreamSize := by
        rw [Nat.mul_succ] at hlast
        omega
      simp only [hends, if_false]
      refine ⟨?_, .inr ⟨by omega, trivial⟩⟩
      rw [streamAt_inside (by omega), hheld, chunkAt, ← List.take_add, Nat.mul_succ]

end Own

/-! ## Any report -/

/-- The reader is idle or inside a frame whose header it holds. -/
def FrameReader.Valid (r : FrameReader) : Prop := r.Idle ∨ ∃ hdr, r.InFrame hdr

/-- Holding the first reports of a frame. -/
theorem valid_of_take {frame : WireFrame} {r : FrameReader} {count : Nat} (hcount : 0 < count)
    (hheld : r.held = frame.bytes.take (reportStreamSize * count)) : r.Valid := by
  obtain ⟨hdr, hparse, hlen⟩ := frame.isFrame
  by_cases hwhole : frame.bytes.length ≤ reportStreamSize * count
  · rw [List.take_of_length_le hwhole] at hheld
    exact .inl (FrameReader.idle_of_frame (hheld ▸ frame.isFrame))
  · have hsize : headerSize ≤ reportStreamSize * count :=
      calc headerSize ≤ reportStreamSize * 1 := by decide
        _ ≤ reportStreamSize * count := Nat.mul_le_mul_left _ hcount
    refine .inr ⟨hdr, hheld ▸ header_parse_take hsize hparse, ?_⟩
    rw [hheld, List.length_take, ← hlen]
    omega

/-- The reports of a frame are those that begin before its end. -/
theorem lt_reportCount_iff (frame : List UInt8) (index : Nat) :
    index < reportCount frame ↔ reportStreamSize * index < frame.length := by
  rw [reportCount, Nat.lt_div_iff_mul_lt (by decide), Nat.mul_comm]
  simp only [reportStreamSize]
  omega

/-- A continuation of another frame, or of one that lost a report, leaves the reader valid and is
never an error. It passes for the end of the frame in progress only when that frame lacks no more
than the report holds and the rest of the report is padding. -/
theorem report_foreign {frame : WireFrame} {r : FrameReader} {index : Nat} (hindex : 0 < index)
    (h : r.Valid) :
    (r.report (reportAt frame.bytes index)).2.Valid ∧
      ((r.report (reportAt frame.bytes index)).1 = .error .again ∨
        ∃ view lacking, (r.report (reportAt frame.bytes index)).1 = .ok view ∧
          r.missing = some lacking ∧ lacking ≤ reportStreamSize ∧
          ((streamAt frame.bytes index).drop lacking).all (· = pad) = true) := by
  rw [reportAt_succ _ hindex]
  rcases h with hidle | ⟨hdr, hin⟩
  · rw [r.report_continues_idle hidle]
    exact ⟨.inl (FrameReader.idle_of_nil hidle), .inl rfl⟩
  · have hparse := hin.parses
    have hshort := hin.short
    have hsize := hin.header_le
    rw [r.report_continues hin (streamAt_ne_nil _ _), streamAt_length]
    by_cases hends : headerSize + hdr.len - r.held.length ≤ reportStreamSize
    · simp only [hends, if_true]
      split
      · rename_i hpad
        refine ⟨.inl (FrameReader.idle_of_frame ?_), .inr ⟨_, _, rfl, hin.missing_eq, hends, hpad⟩⟩
        refine ⟨hdr, header_parse_append _ hparse, ?_⟩
        simp only [List.length_append, List.length_take, streamAt_length]
        omega
      · exact ⟨.inl (FrameReader.idle_of_nil rfl), .inl rfl⟩
    · simp only [hends, if_false]
      refine ⟨.inr ⟨hdr, header_parse_append _ hparse, ?_⟩, .inl trivial⟩
      simp only [List.length_append, streamAt_length]
      omega

/-! ## Walking over the surviving reports -/

/-- Before the report of an index: the reader is valid, and if every earlier report of the frame
arrived it holds exactly these. -/
structure Ready (seg : Segment) (r : FrameReader) (index : Nat) : Prop where
  valid : r.Valid
  own : (List.range index).all seg.keep = true →
    index = 0 ∨ r.held = seg.frame.bytes.take (reportStreamSize * index)

section Walk

variable {seg : Segment} {r : FrameReader} {index : Nat}

/-- A lost report leaves the frame broken. -/
theorem Ready.lost (h : Ready seg r index) (hlost : seg.keep index = false) :
    Ready seg r (index + 1) := by
  refine ⟨h.valid, ?_⟩
  intro hall
  simp [List.range_succ, hlost] at hall

/-- A report that arrives. -/
theorem Ready.kept (h : Ready seg r index)
    (hindex : reportStreamSize * index < seg.frame.bytes.length) :
    Ready seg (readStep r (seg.survivor index)) (index + 1) := by
  show Ready seg (r.report (reportAt seg.frame.bytes index)).2 (index + 1)
  by_cases hintact : (List.range index).all seg.keep = true
  · have hheld := (report_own (h.own hintact) hindex).1
    exact ⟨valid_of_take (Nat.succ_pos _) hheld, fun _ ↦ .inr hheld⟩
  · have hpos : 0 < index := by
      apply Nat.pos_of_ne_zero
      rintro rfl
      exact hintact rfl
    refine ⟨(report_foreign hpos h.valid).1, ?_⟩
    intro hall
    rw [List.range_succ, List.all_append, Bool.and_eq_true] at hall
    exact absurd hall.1 hintact

/-- A fact about every report met in a ready state holds along all surviving reports of a
segment, and the reader is valid at its end. -/
theorem along_survivors {fact : FrameReader → Survivor → Prop}
    (hfact : ∀ r index, Ready seg r index →
      reportStreamSize * index < seg.frame.bytes.length → fact r (seg.survivor index))
    (h : r.Valid) :
    Along readStep fact r seg.survivors ∧ (run readStep r seg.survivors).Valid := by
  have hwalk : ∀ count index r, index + count = reportCount seg.frame.bytes →
      Ready seg r index →
      Along readStep fact r (((List.range' index count).filter seg.keep).map seg.survivor) ∧
        (run readStep r
          (((List.range' index count).filter seg.keep).map seg.survivor)).Valid := by
    intro count
    induction count with
    | zero => exact fun index r _ hready ↦ ⟨trivial, hready.valid⟩
    | succ count ih =>
        intro index r hcount hready
        have hindex := (lt_reportCount_iff seg.frame.bytes index).1 (by omega)
        rw [List.range'_succ]
        cases hkeep : seg.keep index with
        | false =>
            rw [List.filter_cons_of_neg (by simp [hkeep])]
            exact ih (index + 1) r (by omega) (hready.lost hkeep)
        | true =>
            rw [List.filter_cons_of_pos hkeep, List.map_cons]
            obtain ⟨halong, hvalid⟩ := ih (index + 1) _ (by omega) (hready.kept hindex)
            exact ⟨⟨hfact r index hready hindex, halong⟩, hvalid⟩
  have hstart : Ready seg r 0 := ⟨h, fun _ ↦ .inl rfl⟩
  have := hwalk (reportCount seg.frame.bytes) 0 r (by omega) hstart
  rwa [← List.range_eq_range'] at this

/-- The same along any sequence of segments. -/
theorem along_segments {fact : FrameReader → Survivor → Prop} {segments : List Segment}
    (hfact : ∀ seg ∈ segments, ∀ r index, Ready seg r index →
      reportStreamSize * index < seg.frame.bytes.length → fact r (seg.survivor index))
    (h : r.Valid) :
    Along readStep fact r (segments.flatMap Segment.survivors) ∧
      (run readStep r (segments.flatMap Segment.survivors)).Valid := by
  induction segments generalizing r with
  | nil => exact ⟨trivial, h⟩
  | cons seg rest ih =>
      obtain ⟨halong, hvalid⟩ := along_survivors (hfact seg (by simp)) h
      obtain ⟨hrest, hend⟩ :=
        ih (fun other hother ↦ hfact other (List.mem_cons_of_mem _ hother)) hvalid
      rw [List.flatMap_cons, run_append]
      exact ⟨(Along.append readStep).2 ⟨halong, hrest⟩, hend⟩

end Walk

theorem valid_init : FrameReader.init.Valid := .inl (FrameReader.idle_of_nil rfl)

/-! ## Completeness -/

/-- A report met in a ready state is never a protocol error. -/
theorem Ready.no_fault {seg : Segment} {r : FrameReader} {index : Nat} (h : Ready seg r index)
    (hindex : reportStreamSize * index < seg.frame.bytes.length) :
    (r.report (seg.survivor index).report).1 = .error .again ∨
      ∃ view, (r.report (seg.survivor index).report).1 = .ok view := by
  show (r.report (reportAt seg.frame.bytes index)).1 = _ ∨
    ∃ view, (r.report (reportAt seg.frame.bytes index)).1 = .ok view
  by_cases hfirst : index = 0
  · rcases (report_own (.inl hfirst) hindex).2 with ⟨-, view, -, hview⟩ | ⟨-, hagain⟩
    · exact .inr ⟨view, hview⟩
    · exact .inl hagain
  · rcases (report_foreign (Nat.pos_of_ne_zero hfirst) h.valid).2 with
      hagain | ⟨view, -, hview, -⟩
    · exact .inl hagain
    · exact .inr ⟨view, hview⟩

/-- A segment without a loss delivers its frame and nothing else, whatever the reader held. -/
theorem delivered_whole {seg : Segment} (hwhole : seg.whole = true) (r : FrameReader) :
    ∃ view, view.bytes = seg.frame.bytes ∧ delivered r seg.survivors = [view] := by
  have hall : seg.survivors =
      (List.range (reportCount seg.frame.bytes)).map seg.survivor := by
    rw [Segment.survivors, List.filter_eq_self.2 (List.all_eq_true.1 hwhole)]
  have hwalk : ∀ count index r, index + (count + 1) = reportCount seg.frame.bytes →
      (index = 0 ∨ r.held = seg.frame.bytes.take (reportStreamSize * index)) →
      ∃ view, view.bytes = seg.frame.bytes ∧
        delivered r ((List.range' index (count + 1)).map seg.survivor) = [view] := by
    intro count
    induction count with
    | zero =>
        intro index r hcount hown
        have hindex := (lt_reportCount_iff seg.frame.bytes index).1 (by omega)
        have hnext := (lt_reportCount_iff seg.frame.bytes (index + 1)).not.1 (by omega)
        obtain ⟨-, ⟨-, view, hbytes, hview⟩ | ⟨hmore, -⟩⟩ := report_own hown hindex
        · refine ⟨view, hbytes, ?_⟩
          show delivered r [seg.survivor index] = [view]
          simp only [delivered, Survivor.report, Segment.survivor, hview]
        · omega
    | succ count ih =>
        intro index r hcount hown
        have hindex := (lt_reportCount_iff seg.frame.bytes index).1 (by omega)
        have hnext := (lt_reportCount_iff seg.frame.bytes (index + 1)).1 (by omega)
        obtain ⟨hheld, ⟨hlast, -⟩ | ⟨-, hagain⟩⟩ := report_own hown hindex
        · omega
        · obtain ⟨view, hbytes, hrest⟩ := ih (index + 1) _ (by omega) (.inr hheld)
          refine ⟨view, hbytes, ?_⟩
          rw [List.range'_succ, List.map_cons, ← hrest]
          simp only [delivered, Survivor.report, Segment.survivor, hagain]
          rfl
  have hpos : 0 < reportCount seg.frame.bytes := by
    rw [lt_reportCount_iff]
    have := seg.frame.header_le_length
    simp only [headerSize] at this
    omega
  obtain ⟨count, hcount⟩ : ∃ count, reportCount seg.frame.bytes = count + 1 :=
    ⟨reportCount seg.frame.bytes - 1, by omega⟩
  rw [hall, List.range_eq_range', hcount]
  exact hwalk count 0 r (by omega) (.inl rfl)

/-- The carrier is complete. Whatever reports of a sequence of frames are lost, no surviving
report is a protocol error, and a frame all of whose reports survive is delivered by them, once
and byte for byte, between what the reports before and the reports after deliver. -/
theorem carrier_complete (segments : List Segment) :
    Along readStep
      (fun r survivor ↦ (r.report survivor.report).1 = .error .again ∨
        ∃ view, (r.report survivor.report).1 = .ok view)
      FrameReader.init (segments.flatMap Segment.survivors) ∧
    (∀ before seg after, segments = before ++ seg :: after → seg.whole = true →
      ∃ view, view.bytes = seg.frame.bytes ∧
        delivered FrameReader.init (segments.flatMap Segment.survivors) =
          delivered FrameReader.init (before.flatMap Segment.survivors) ++ view ::
            delivered (run readStep FrameReader.init
              ((before ++ [seg]).flatMap Segment.survivors)) (after.flatMap Segment.survivors)) ∧
    List.Sublist ((segments.filter Segment.whole).map fun seg ↦ seg.frame.bytes)
      ((delivered FrameReader.init (segments.flatMap Segment.survivors)).map
        FrameView.bytes) := by
  refine ⟨(along_segments (fun seg _ r index h hindex ↦ h.no_fault hindex) valid_init).1, ?_, ?_⟩
  · rintro before seg after rfl hwhole
    obtain ⟨view, hbytes, hdelivered⟩ := delivered_whole hwhole
      (run readStep FrameReader.init (before.flatMap Segment.survivors))
    refine ⟨view, hbytes, ?_⟩
    rw [List.flatMap_append, List.flatMap_cons, delivered_append, delivered_append, hdelivered,
      List.flatMap_append, run_append]
    simp
  · generalize FrameReader.init = r
    induction segments generalizing r with
    | nil => simp [delivered]
    | cons seg rest ih =>
        rw [List.flatMap_cons, delivered_append, List.map_append]
        by_cases hwhole : seg.whole = true
        · obtain ⟨view, hbytes, hdelivered⟩ := delivered_whole hwhole r
          rw [List.filter_cons_of_pos hwhole, hdelivered, List.map_cons]
          simpa [hbytes] using ih _
        · rw [List.filter_cons_of_neg hwhole]
          exact (ih _).trans (List.sublist_append_right _ _)

/-! ## Soundness -/

/-- A continuation of a frame that lost an earlier report gives itself away: if it would complete
the frame in progress before its own end, something other than padding follows. -/
def Telling (r : FrameReader) (survivor : Survivor) : Prop :=
  survivor.intact = false → ∀ lacking ∈ r.missing, lacking < reportStreamSize →
    ((streamAt survivor.frame.bytes survivor.index).drop lacking).all (· = pad) = false

instance (r : FrameReader) (survivor : Survivor) : Decidable (Telling r survivor) :=
  inferInstanceAs (Decidable (_ → _))

/-- A report met in a ready state delivers its own frame, or completes a broken one to the byte. -/
theorem Ready.sound {seg : Segment} {r : FrameReader} {index : Nat} (h : Ready seg r index)
    (hindex : reportStreamSize * index < seg.frame.bytes.length)
    (htelling : Telling r (seg.survivor index)) :
    ∀ view, (r.report (seg.survivor index).report).1 = .ok view →
      view.bytes = seg.frame.bytes ∨
        ((seg.survivor index).intact = false ∧ r.missing = some reportStreamSize) := by
  intro view hview
  change (r.report (reportAt seg.frame.bytes index)).1 = .ok view at hview
  by_cases hintact : (List.range index).all seg.keep = true
  · rcases (report_own (h.own hintact) hindex).2 with ⟨-, own, hbytes, hown⟩ | ⟨-, hagain⟩
    · rw [hown] at hview
      cases hview
      exact .inl hbytes
    · rw [hagain] at hview
      cases hview
  · have hbroken : (seg.survivor index).intact = false := by
      simpa [Segment.survivor] using hintact
    have hpos : 0 < index := by
      apply Nat.pos_of_ne_zero
      rintro rfl
      exact hintact rfl
    rcases (report_foreign hpos h.valid).2 with hagain | ⟨-, lacking, -, hlacks, hle, hpad⟩
    · rw [hagain] at hview
      cases hview
    · refine .inr ⟨hbroken, ?_⟩
      by_cases hexact : lacking = reportStreamSize
      · rw [hlacks, hexact]
      · have htells := htelling hbroken lacking hlacks (by omega)
        change ((streamAt seg.frame.bytes index).drop lacking).all (· = pad) = false at htells
        rw [htells] at hpad
        cases hpad

/-- When the carrier is sound. In every run whose continuations give themselves away, each
delivered frame is the sent frame its last report belongs to, except a broken frame whose missing
bytes fill the report exactly. -/
theorem carrier_sound (segments : List Segment)
    (htelling : Along readStep Telling FrameReader.init
      (segments.flatMap Segment.survivors)) :
    Along readStep
      (fun r survivor ↦ ∀ view, (r.report survivor.report).1 = .ok view →
        (∃ seg ∈ segments, view.bytes = seg.frame.bytes) ∨
          (survivor.intact = false ∧ r.missing = some reportStreamSize))
      FrameReader.init (segments.flatMap Segment.survivors) := by
  refine htelling.mp (along_segments ?_ valid_init).1
  intro seg hseg r index h hindex htells view hview
  rcases h.sound hindex htells view hview with hbytes | hexact
  · exact .inl ⟨seg, hseg, hbytes⟩
  · exact .inr hexact

/-- A frame of one payload byte repeated. -/
def repeated (length : Nat) (byte : UInt8) (h : length ≤ maxPayload) : WireFrame :=
  WireFrame.ofPayload Msg.clipChunk 0 (List.replicate length byte) (by decide) (by simpa using h)

/-- A frame that lacks ten bytes in its second report, and a neighbour whose second report holds
`tail` bytes; the gap between them takes the second report of one and the first of the other. -/
def gap (tail : Nat) (h : 59 + tail ≤ maxPayload) : List Segment :=
  [{ frame := repeated 69 0xAA (by decide), keep := fun index ↦ index = 0 },
   { frame := repeated (59 + tail) 0xBB h, keep := fun index ↦ index = 1 }]

set_option maxRecDepth 4096 in
/-- A neighbour with more bytes than the broken frame lacks gives itself away. -/
theorem carrier_sound_long_tail :
    Along readStep
      (fun r survivor ↦ ∀ view, (r.report survivor.report).1 = .ok view →
        (∃ seg ∈ gap 40 (by decide), view.bytes = seg.frame.bytes) ∨
          (survivor.intact = false ∧ r.missing = some reportStreamSize))
      FrameReader.init ((gap 40 (by decide)).flatMap Segment.survivors) :=
  carrier_sound (gap 40 (by decide)) (by decide)

/-- What the gap makes of the broken frame when its neighbour's second report holds one byte. -/
def splicedFrame : FrameView :=
  { type := Msg.clipChunk, flags := 0
    payload := List.replicate 59 0xAA ++ [0xBB] ++ List.replicate 9 pad }

set_option maxRecDepth 4096 in
/-- A neighbour with a single byte does not: the broken frame is completed by that byte and the
padding behind it, lacks ten bytes and not sixty-three, and is delivered though nobody sent it. -/
theorem spliced_frame_delivered :
    delivered FrameReader.init ((gap 1 (by decide)).flatMap Segment.survivors) = [splicedFrame] ∧
      (∀ seg ∈ gap 1 (by decide), splicedFrame.bytes ≠ seg.frame.bytes) ∧
      (∀ survivor ∈ ((gap 1 (by decide)).flatMap Segment.survivors).head?,
        (readStep FrameReader.init survivor).missing = some 10) := by
  decide

end DeskhopPlus.Wire
