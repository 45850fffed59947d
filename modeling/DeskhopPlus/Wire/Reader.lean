import DeskhopPlus.Wire.Frame

/-!
# The report reader

`dh_frame_reader_push` and `dh_frame_reader_report`: a buffer that collects a frame from pieces of
a byte stream, and the rules by which it survives lost reports. The buffer is the list of the
`have` bytes it holds. Every path through the loop of the push ends in a break or a return, so the
loop runs at most once and is written as its body.

A report finds the reader idle or inside a frame. `InFrame` describes the second case; the lemmas
after it say what a start and a continuation do in each.
-/

namespace DeskhopPlus.Wire

open Bytes

/-- `DH_REPORT_SIZE`. -/
def reportSize : Nat := 64

/-- `DH_REPORT_STREAM_SIZE`: the stream bytes behind the flag. -/
def reportStreamSize : Nat := 63

/-- `DH_REPORT_FRAME_START`. -/
def reportFrameStart : UInt8 := 1

/-- `DH_REPORT_FRAME_CONTINUES`. -/
def reportFrameContinues : UInt8 := 0

/-- `dh_frame_reader`. `held` is the buffer up to `have`. -/
structure FrameReader where
  held : List UInt8
  resyncs : Nat
  deriving DecidableEq, Repr

namespace FrameReader

/-- `dh_frame_reader_init`. -/
def init : FrameReader := { held := [], resyncs := 0 }

/-- `reader_fill`: up to `want` bytes of the unread part of the data. -/
def fill (r : FrameReader) (data : List UInt8) (used want : Nat) : Nat × FrameReader :=
  let take := if data.length - used < want then data.length - used else want
  (take, { r with held := r.held ++ (data.drop used).take take })

/-- `reader_release`: a complete frame rests in the buffer only after it was returned. -/
def release (r : FrameReader) : FrameReader :=
  if r.held.length < headerSize then r
  else
    match headerParse r.held with
    | .error _ => r
    | .ok hdr => if r.held.length = headerSize + hdr.len then { r with held := [] } else r

/-- `reader_resynced`. -/
def resynced (r : FrameReader) : FrameReader :=
  { r with resyncs := if r.resyncs < 2 ^ 32 - 1 then r.resyncs + 1 else r.resyncs }

/-- The body of the push from the header on: fill it, judge it, fill the payload. -/
def collect (r : FrameReader) (data : List UInt8) (used : Nat) :
    Except FrameFault FrameView × Nat × FrameReader :=
  let (taken, r) :=
    if r.held.length < headerSize then r.fill data used (headerSize - r.held.length) else (0, r)
  let used := used + taken
  if r.held.length < headerSize then (.error .again, used, r)
  else
    match headerParse r.held with
    | .error fault => (.error fault, used, { r with held := [] })
    | .ok hdr =>
        let total := headerSize + hdr.len
        let (taken, r) := r.fill data used (total - r.held.length)
        let used := used + taken
        if r.held.length = total then
          (.ok { type := hdr.type, flags := hdr.flags, payload := r.held.drop headerSize },
           used, r)
        else (.error .again, used, r)

/-- `dh_frame_reader_push`: the frame, the bytes eaten and the reader after it. -/
def push (r : FrameReader) (data : List UInt8) :
    Except FrameFault FrameView × Nat × FrameReader :=
  let r := r.release
  -- padding only ever stands between frames
  let used := if r.held = [] then (data.takeWhile (· = pad)).length else 0
  if used = data.length then (.error .again, used, r) else r.collect data used

/-- `dh_frame_reader_report`. -/
def report (r : FrameReader) (report : List UInt8) :
    Except FrameFault FrameView × FrameReader :=
  match report with
  | [] => (.error .again, r)
  | flag :: stream =>
      let r := r.release
      if flag ≠ reportFrameStart ∧ r.held = [] then
        -- the tail of a frame whose head was lost
        (.error .again, r.resynced)
      else
        -- a start inside a frame: that frame lost a report
        let r := if flag = reportFrameStart ∧ r.held ≠ [] then
            FrameReader.resynced { r with held := [] } else r
        match r.push stream with
        | (.error fault, _, r) => (.error fault, r)
        | (.ok view, consumed, r) =>
            if (stream.drop consumed).all (· = pad) then (.ok view, r)
            else (.error .again, FrameReader.resynced { r with held := [] })

/-! ## Where a report finds the reader -/

/-- The reader is inside a frame of this header: it holds the header and not yet the whole. -/
structure InFrame (r : FrameReader) (hdr : FrameHeader) : Prop where
  parses : headerParse r.held = .ok hdr
  short : r.held.length < headerSize + hdr.len

/-- The reader holds nothing, or a frame it has already returned. -/
def Idle (r : FrameReader) : Prop := r.release.held = []

/-- The bytes the frame in progress still lacks. -/
def missing (r : FrameReader) : Option Nat :=
  match headerParse r.release.held with
  | .error _ => none
  | .ok hdr => some (headerSize + hdr.len - r.release.held.length)

theorem InFrame.header_le {r : FrameReader} {hdr : FrameHeader} (h : r.InFrame hdr) :
    headerSize ≤ r.held.length := (header_parse_ok h.parses).2.2.1

theorem InFrame.held_ne_nil {r : FrameReader} {hdr : FrameHeader} (h : r.InFrame hdr) :
    r.held ≠ [] := by
  have hle := h.header_le
  simp only [headerSize] at hle
  exact List.ne_nil_of_length_pos (by omega)

/-- A frame in progress is not released. -/
theorem InFrame.release_eq {r : FrameReader} {hdr : FrameHeader} (h : r.InFrame hdr) :
    r.release = r := by
  have hle := h.header_le
  have hshort := h.short
  unfold release
  rw [if_neg (by omega), h.parses]
  simp only
  rw [if_neg (by omega)]

theorem InFrame.missing_eq {r : FrameReader} {hdr : FrameHeader} (h : r.InFrame hdr) :
    r.missing = some (headerSize + hdr.len - r.held.length) := by
  rw [missing, h.release_eq, h.parses]

/-- A frame held whole is released. -/
theorem idle_of_frame {r : FrameReader} (h : IsFrame r.held) : r.Idle := by
  obtain ⟨hdr, hparse, hlen⟩ := h
  show r.release.held = []
  unfold release
  rw [if_neg (by omega), hparse]
  simp only
  rw [if_pos hlen]

theorem idle_of_nil {r : FrameReader} (h : r.held = []) : r.Idle := by
  show r.release.held = []
  unfold release
  rw [if_pos (by simp [h, headerSize])]
  exact h

/-! ## Collecting -/

/-- The rest of a frame in progress: it completes, or takes the whole stream. -/
theorem InFrame.collect {r : FrameReader} {hdr : FrameHeader} (h : r.InFrame hdr)
    (stream : List UInt8) :
    r.collect stream 0 =
      if headerSize + hdr.len - r.held.length ≤ stream.length then
        (.ok { type := hdr.type, flags := hdr.flags,
               payload := (r.held ++
                 stream.take (headerSize + hdr.len - r.held.length)).drop headerSize },
         headerSize + hdr.len - r.held.length,
         { r with held := r.held ++ stream.take (headerSize + hdr.len - r.held.length) })
      else (.error .again, stream.length, { r with held := r.held ++ stream }) := by
  have hle := h.header_le
  have hshort := h.short
  have hnot : ¬ r.held.length < headerSize := by omega
  unfold FrameReader.collect
  simp only [hnot, if_false, h.parses, fill, Nat.zero_add, Nat.sub_zero, List.drop_zero]
  by_cases hends : headerSize + hdr.len - r.held.length ≤ stream.length
  · have hfill : ¬ stream.length < headerSize + hdr.len - r.held.length := by omega
    simp only [hends, hfill, if_true, if_false]
    rw [if_pos (by simp only [List.length_append, List.length_take]; omega)]
  · have hfill : stream.length < headerSize + hdr.len - r.held.length := by omega
    simp only [hends, hfill, if_true, if_false, List.take_length]
    rw [if_neg (by simp only [List.length_append]; omega)]

/-- From an empty buffer, a stream that starts with a header completes the frame or is its
beginning. -/
theorem collect_start {r : FrameReader} {hdr : FrameHeader} {stream : List UInt8}
    (hempty : r.held = []) (hparse : headerParse stream = .ok hdr) :
    r.collect stream 0 =
      if headerSize + hdr.len ≤ stream.length then
        (.ok { type := hdr.type, flags := hdr.flags,
               payload := (stream.take (headerSize + hdr.len)).drop headerSize },
         headerSize + hdr.len, { r with held := stream.take (headerSize + hdr.len) })
      else (.error .again, stream.length, { r with held := stream }) := by
  have hsize := (header_parse_ok hparse).2.2.1
  have hhead : headerParse (stream.take headerSize) = .ok hdr :=
    header_parse_take (Nat.le_refl _) hparse
  have htake : (stream.take headerSize).length = headerSize := by simpa using hsize
  have hfill : ¬ stream.length < headerSize := by omega
  have hzero : (0 : Nat) < headerSize := by decide
  unfold FrameReader.collect
  simp only [hempty, List.length_nil, hzero, if_true, fill, Nat.sub_zero, hfill, if_false,
    List.nil_append, List.drop_zero, Nat.zero_add, htake, Nat.lt_irrefl, hhead,
    Nat.add_sub_cancel_left]
  by_cases hends : headerSize + hdr.len ≤ stream.length
  · have hrest : ¬ stream.length - headerSize < hdr.len := by omega
    have hjoin : stream.take headerSize ++ (stream.drop headerSize).take hdr.len =
        stream.take (headerSize + hdr.len) := List.take_add.symm
    simp only [hends, hrest, if_true, if_false, hjoin]
    rw [if_pos (by simpa using hends)]
  · have hrest : stream.length - headerSize < hdr.len := by omega
    have hjoin : stream.take headerSize ++
        (stream.drop headerSize).take (stream.length - headerSize) = stream := by
      rw [← List.take_add, Nat.add_sub_cancel' hsize, List.take_length]
    simp only [hends, hrest, if_true, if_false, hjoin]
    rw [if_neg (by omega)]
    simp only [Nat.add_sub_cancel' hsize]

/-! ## One report -/

/-- A start report whose stream begins with a header is read from the start, whatever the reader
held. -/
theorem report_start {r : FrameReader} {hdr : FrameHeader} {stream : List UInt8}
    (hparse : headerParse stream = .ok hdr) :
    ∃ resyncs, r.report (reportFrameStart :: stream) =
      if headerSize + hdr.len ≤ stream.length then
        if (stream.drop (headerSize + hdr.len)).all (· = pad) then
          (.ok { type := hdr.type, flags := hdr.flags,
                 payload := (stream.take (headerSize + hdr.len)).drop headerSize },
           { held := stream.take (headerSize + hdr.len), resyncs := resyncs })
        else (.error .again, { held := [], resyncs := resyncs })
      else (.error .again, { held := stream, resyncs := resyncs }) := by
  obtain ⟨hknown, -, hsize, htake⟩ := header_parse_ok hparse
  -- the start empties the buffer, so the push begins between frames and skips no padding
  have hpush : ∀ cleared : FrameReader, cleared.held = [] →
      cleared.push stream = cleared.collect stream 0 := by
    intro cleared hcleared
    have hreleased : cleared.release = cleared := by
      unfold release
      rw [if_pos (by simp [hcleared, headerSize])]
    have hskip : stream.takeWhile (· = pad) = [] := by
      have hpos : 0 < stream.length := lt_of_lt_of_le (by decide) hsize
      obtain ⟨head, tail, rfl⟩ := List.exists_cons_of_length_pos hpos
      have hhead : head = hdr.type := by
        simp only [headerSize, headerBytes, List.take_succ_cons, List.cons.injEq] at htake
        exact htake.1
      simp [hhead, Msg.ne_pad_of_known hknown]
    unfold push
    simp only [hreleased, hcleared, if_true, hskip, List.length_nil]
    rw [if_neg (by simp only [headerSize] at hsize; omega)]
  have hcleared : ∃ cleared : FrameReader, cleared.held = [] ∧
      r.report (reportFrameStart :: stream) =
        match cleared.collect stream 0 with
        | (.error fault, _, r) => (.error fault, r)
        | (.ok view, consumed, r) =>
            if (stream.drop consumed).all (· = pad) then (.ok view, r)
            else (.error .again, FrameReader.resynced { r with held := [] }) := by
    by_cases hheld : r.release.held = []
    · refine ⟨r.release, hheld, ?_⟩
      simp only [report, hheld, ne_eq, not_true_eq_false, and_false, false_and, if_false]
      rw [hpush _ hheld]
    · refine ⟨FrameReader.resynced { r.release with held := [] }, rfl, ?_⟩
      simp only [report, hheld, ne_eq, not_true_eq_false, not_false_eq_true, and_true, and_false,
        if_true, if_false]
      rw [hpush _ rfl]
  obtain ⟨cleared, hempty, hreport⟩ := hcleared
  rw [hreport, collect_start hempty hparse]
  by_cases hends : headerSize + hdr.len ≤ stream.length
  · by_cases hpadding : (stream.drop (headerSize + hdr.len)).all (· = pad) = true
    · exact ⟨cleared.resyncs, by simp only [hends, hpadding, if_true]⟩
    · exact ⟨_, by simp only [hends, hpadding, if_true, resynced]; rfl⟩
  · exact ⟨cleared.resyncs, by simp only [hends, if_false]⟩

/-- A continuation between frames is dropped. -/
theorem report_continues_idle {r : FrameReader} (h : r.Idle) (stream : List UInt8) :
    r.report (reportFrameContinues :: stream) = (.error .again, r.release.resynced) := by
  have hflag : reportFrameContinues ≠ reportFrameStart := by decide
  have hheld : r.release.held = [] := h
  simp only [report, hflag, hheld, ne_eq, not_false_eq_true, and_self, if_true]

/-- A continuation inside a frame is read as the next bytes of that frame. -/
theorem report_continues {r : FrameReader} {hdr : FrameHeader} (h : r.InFrame hdr)
    {stream : List UInt8} (hstream : stream ≠ []) :
    r.report (reportFrameContinues :: stream) =
      if headerSize + hdr.len - r.held.length ≤ stream.length then
        if (stream.drop (headerSize + hdr.len - r.held.length)).all (· = pad) then
          (.ok { type := hdr.type, flags := hdr.flags,
                 payload := (r.held ++
                   stream.take (headerSize + hdr.len - r.held.length)).drop headerSize },
           { r with held := r.held ++ stream.take (headerSize + hdr.len - r.held.length) })
        else (.error .again, FrameReader.resynced { r with held := [] })
      else (.error .again, { r with held := r.held ++ stream }) := by
  have hflag : reportFrameContinues ≠ reportFrameStart := by decide
  have hheld := h.held_ne_nil
  have hpush : r.push stream = r.collect stream 0 := by
    unfold push
    simp only [h.release_eq, hheld, if_false]
    rw [if_neg (by have := List.length_pos_iff.2 hstream; omega)]
  simp only [report, h.release_eq, hflag, hheld, false_and, and_false, if_false, hpush, h.collect]
  by_cases hends : headerSize + hdr.len - r.held.length ≤ stream.length
  · simp only [hends, if_true]
  · simp only [hends, if_false]

end FrameReader

end DeskhopPlus.Wire
