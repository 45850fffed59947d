import DeskhopPlus.Library.Runs
import DeskhopPlus.Wire.Reader
import Mathlib.Data.List.DropRight

/-!
# However the stream is cut

A reader is fed pieces of a byte stream and drained of its frames after each of them, until the
stream breaks the protocol. `decodeAll` decodes the stream in one go. The two see the same frames
and the same fault: between two pushes the reader holds the bytes of the frame that is not complete,
and a push is a decode of those bytes and the new ones (`push_eq`).
-/

namespace DeskhopPlus.Wire

open Bytes Runs

/-! ## The stream in one go -/

/-- The padding in front of a stream taken off. -/
def skipPad (stream : List UInt8) : List UInt8 := stream.dropWhile (· = pad)

theorem decode_ok {buf : List UInt8} {view : FrameView} {total : Nat}
    (h : decode buf = .ok (view, total)) :
    ∃ hdr, headerParse buf = .ok hdr ∧ total = headerSize + hdr.len ∧ total ≤ buf.length ∧
      view = ⟨hdr.type, hdr.flags, (buf.take total).drop headerSize⟩ := by
  unfold decode at h
  split at h
  · cases h
  · rename_i hdr hparse
    dsimp only at h
    split at h
    · cases h
    · rename_i hlong
      cases h
      refine ⟨hdr, hparse, rfl, Nat.le_of_not_lt hlong, ?_⟩
      rw [List.drop_take, Nat.add_sub_cancel_left]

theorem decode_shorter {stream : List UInt8} {view : FrameView} {total : Nat}
    (h : decode (skipPad stream) = .ok (view, total)) :
    ((skipPad stream).drop total).length < stream.length := by
  obtain ⟨hdr, -, htotal, hlong, -⟩ := decode_ok h
  have hskip : (skipPad stream).length ≤ stream.length := (List.dropWhile_sublist _).length_le
  rw [List.length_drop]
  simp only [headerSize] at htotal
  omega

/-- Frame after frame with the padding between them, up to the end of the stream or the first
fault. -/
def decodeAll (stream : List UInt8) : List FrameView × Option FrameFault :=
  match _h : decode (skipPad stream) with
  | .error .again => ([], none)
  | .error fault => ([], some fault)
  | .ok (view, total) =>
      let rest := decodeAll ((skipPad stream).drop total)
      (view :: rest.1, rest.2)
termination_by stream.length
decreasing_by exact decode_shorter _h

/-- A decode that does not wait for more bytes is the same when more come. -/
theorem decode_more {buf : List UInt8} (more : List UInt8) (h : decode buf ≠ .error .again) :
    decode (buf ++ more) = decode buf := by
  cases hparse : headerParse buf with
  | error fault =>
      have hfault : decode buf = .error fault := by rw [decode, hparse]
      have hmore : headerParse (buf ++ more) = .error fault := by
        have hneeded : fault ≠ .again := fun hagain ↦ h (hagain ▸ hfault)
        rcases buf with _ | ⟨_, _ | ⟨_, _ | ⟨_, _ | ⟨_, payload⟩⟩⟩⟩
        · exact absurd (Except.error.inj hparse).symm hneeded
        · exact absurd (Except.error.inj hparse).symm hneeded
        · exact absurd (Except.error.inj hparse).symm hneeded
        · exact absurd (Except.error.inj hparse).symm hneeded
        · simpa [headerParse] using hparse
      rw [hfault, decode, hmore]
  | ok hdr =>
      by_cases hlong : buf.length < headerSize + hdr.len
      · exact absurd (by simp only [decode, hparse, if_pos hlong]) h
      · have hsize := (header_parse_ok hparse).2.2.1
        simp only [decode, hparse, header_parse_append more hparse, List.length_append,
          if_neg hlong]
        rw [if_neg (by omega), List.drop_append_of_le_length hsize,
          List.take_append_of_le_length (by rw [List.length_drop]; omega)]

theorem decode_nil : decode [] = .error .again := rfl

theorem skipPad_skipPad (stream : List UInt8) : skipPad (skipPad stream) = skipPad stream :=
  List.dropWhile_idempotent _ _

/-- Padding in front is skipped whatever follows it. -/
theorem skipPad_append (stream more : List UInt8) :
    skipPad (stream ++ more) = skipPad (skipPad stream ++ more) := by
  unfold skipPad
  rw [List.dropWhile_append, List.dropWhile_append, List.dropWhile_idempotent]

theorem skipPad_append_of_ne {stream : List UInt8} (more : List UInt8) (h : skipPad stream ≠ []) :
    skipPad (stream ++ more) = skipPad stream ++ more := by
  unfold skipPad at h ⊢
  rw [List.dropWhile_append, if_neg (by simpa using h)]

theorem decodeAll_congr {stream stream' : List UInt8} (h : skipPad stream = skipPad stream') :
    decodeAll stream = decodeAll stream' := by
  rw [decodeAll, decodeAll, h]

theorem decodeAll_again {stream : List UInt8} (h : decode (skipPad stream) = .error .again) :
    decodeAll stream = ([], none) := by
  rw [decodeAll]
  split
  · rfl
  · rename_i hne hfault
    rw [h] at hfault
    cases hfault
    exact absurd rfl hne
  · rename_i hok
    rw [h] at hok
    cases hok

/-- The first frame, with more of the stream to come. -/
theorem decodeAll_ok {stream : List UInt8} {view : FrameView} {total : Nat} (more : List UInt8)
    (h : decode (skipPad stream) = .ok (view, total)) :
    decodeAll (stream ++ more) =
      (view :: (decodeAll ((skipPad stream).drop total ++ more)).1,
        (decodeAll ((skipPad stream).drop total ++ more)).2) := by
  obtain ⟨hdr, -, htotal, hlong, -⟩ := decode_ok h
  have hne : skipPad stream ≠ [] := by
    rintro hempty
    rw [hempty] at h
    cases h
  have hmore : decode (skipPad (stream ++ more)) = .ok (view, total) := by
    rw [skipPad_append_of_ne more hne, decode_more more (by rw [h]; nofun), h]
  rw [decodeAll]
  split
  · rename_i hagain
    rw [hmore] at hagain
    cases hagain
  · rename_i hfault
    rw [hmore] at hfault
    cases hfault
  · rename_i hok
    rw [hmore] at hok
    cases hok
    rw [skipPad_append_of_ne more hne, List.drop_append_of_le_length hlong]

/-- The first fault ends the stream. -/
theorem decodeAll_fault {stream : List UInt8} {fault : FrameFault} (more : List UInt8)
    (h : decode (skipPad stream) = .error fault) (hfault : fault ≠ .again) :
    decodeAll (stream ++ more) = ([], some fault) := by
  have hne : skipPad stream ≠ [] := by
    rintro hempty
    rw [hempty, decode_nil] at h
    cases h
    exact hfault rfl
  have hmore : decode (skipPad (stream ++ more)) = .error fault := by
    rw [skipPad_append_of_ne more hne, decode_more more (by rw [h]; simpa using hfault), h]
  rw [decodeAll]
  split
  · rename_i hagain
    rw [hmore] at hagain
    cases hagain
    exact absurd rfl hfault
  · rename_i _ hsome
    rw [hmore] at hsome
    cases hsome
    rfl
  · rename_i hok
    rw [hmore] at hok
    cases hok

/-! ## One push -/

namespace FrameReader

variable {r : FrameReader} {data : List UInt8}

theorem fill_eq (r : FrameReader) (data : List UInt8) (used want : Nat) :
    r.fill data used want = (min want (data.length - used),
      { r with held := r.held ++ (data.drop used).take want }) := by
  unfold fill
  dsimp only
  by_cases hshort : data.length - used < want
  · rw [if_pos hshort, Nat.min_eq_right (Nat.le_of_lt hshort)]
    congr 3
    rw [List.take_of_length_le (Nat.le_of_eq List.length_drop),
      List.take_of_length_le (by rw [List.length_drop]; omega)]
  · rw [if_neg hshort, Nat.min_eq_left (Nat.le_of_not_lt hshort)]

/-- The first four bytes decide the header. -/
theorem header_parse_prefix {buf : List UInt8} {count : Nat} (h : headerSize ≤ count) :
    headerParse (buf.take count) = headerParse buf := by
  obtain ⟨rest, rfl⟩ : ∃ rest, count = rest + 4 :=
    ⟨count - 4, by simp only [headerSize] at h; omega⟩
  rcases buf with _ | ⟨_, _ | ⟨_, _ | ⟨_, _ | ⟨_, payload⟩⟩⟩⟩
  · rfl
  · rfl
  · rfl
  · rfl
  · simp only [List.take_succ_cons, headerParse]

theorem header_parse_short {buf : List UInt8} (h : buf.length < headerSize) :
    headerParse buf = .error .again := by
  match buf, h with
  | [], _ | [_], _ | [_, _], _ | [_, _, _], _ => rfl
  | _ :: _ :: _ :: _ :: rest, h => exact absurd h (by simp [headerSize])

theorem header_parse_again {buf : List UInt8} (h : headerParse buf = .error .again) :
    buf.length < headerSize := by
  match buf, h with
  | [], _ | [_], _ | [_, _], _ | [_, _, _], _ => simp [headerSize]
  | _ :: _ :: _ :: _ :: rest, h =>
      simp only [headerParse] at h
      split at h
      · cases h
      · split at h <;> cases h

/-- What is held of a frame that is not complete reaches short of its end. -/
theorem held_short {held more : List UInt8} {hdr : FrameHeader}
    (hopen : decode held = .error .again) (hparse : headerParse (held ++ more) = .ok hdr) :
    held.length < headerSize + hdr.len := by
  by_cases hsize : held.length < headerSize
  · omega
  · have hheld : headerParse held = .ok hdr := by
      rw [← header_parse_prefix (Nat.le_of_not_lt hsize), List.take_left] at hparse
      exact hparse
    by_contra hlong
    rw [decode, hheld] at hopen
    dsimp only at hopen
    rw [if_neg hlong] at hopen
    cases hopen

/-- The bytes of the header, as far as they are there. -/
theorem fill_header (r : FrameReader) (data : List UInt8) (used : Nat) :
    (if r.held.length < headerSize then r.fill data used (headerSize - r.held.length) else (0, r)) =
      (min (headerSize - r.held.length) (data.length - used),
        { r with held := (r.held ++ data.drop used).take (max headerSize r.held.length) }) := by
  split
  · rename_i hshort
    rw [fill_eq, Nat.max_eq_left (Nat.le_of_lt hshort), List.take_append,
      List.take_of_length_le (Nat.le_of_lt hshort)]
  · rename_i hlong
    rw [Nat.max_eq_right (Nat.le_of_not_lt hlong), List.take_left,
      Nat.sub_eq_zero_of_le (Nat.le_of_not_lt hlong), Nat.zero_min]

/-- Collecting decodes what is held and what is new of the data, taken together. -/
theorem collect_eq (hopen : decode r.held = .error .again) {used : Nat}
    (hused : used ≤ data.length) :
    match decode (r.held ++ data.drop used) with
    | .ok (view, total) => r.held.length < total ∧ r.collect data used =
        (.ok view, used + (total - r.held.length),
          { r with held := (r.held ++ data.drop used).take total })
    | .error .again => r.collect data used =
        (.error .again, data.length, { r with held := r.held ++ data.drop used })
    | .error fault => ∃ eaten, r.collect data used =
      (.error fault, eaten, { r with held := [] }) := by
  generalize hahead : r.held ++ data.drop used = ahead
  have hlength : ahead.length = r.held.length + (data.length - used) := by
    rw [← hahead, List.length_append, List.length_drop]
  unfold collect
  rw [fill_header, hahead]
  dsimp only
  by_cases hshort : ahead.length < headerSize
  · rw [decode, header_parse_short hshort]
    dsimp only
    rw [if_pos (by rw [List.length_take]; omega), List.take_of_length_le (by omega),
      Nat.min_eq_right (by omega), Nat.add_sub_cancel' hused]
  · have hlong : headerSize ≤ ahead.length := Nat.le_of_not_lt hshort
    -- the bytes up to here, and those behind them
    obtain ⟨middle, hmiddle⟩ : ∃ middle, middle = max headerSize r.held.length := ⟨_, rfl⟩
    rw [← hmiddle]
    have htaken : min (headerSize - r.held.length) (data.length - used) =
        middle - r.held.length := by
      omega
    have hlater : data.drop (used + (middle - r.held.length)) = ahead.drop middle := by
      have hover : r.held.length ≤ middle := by omega
      rw [← hahead, List.drop_append, List.drop_eq_nil_of_le hover, List.nil_append,
        List.drop_drop]
    have hhead : (ahead.take middle).length = middle := List.length_take_of_le (by omega)
    rw [htaken, hhead, if_neg (by omega), header_parse_prefix (by omega)]
    cases hparse : headerParse ahead with
    | error fault =>
        rw [decode, hparse]
        cases fault with
        | again => exact absurd (header_parse_again hparse) hshort
        | _ => exact ⟨_, rfl⟩
    | ok hdr =>
        have hheld := held_short hopen (by rw [hahead]; exact hparse)
        have hjoin : ahead.take middle ++ (ahead.drop middle).take (headerSize + hdr.len - middle) =
            ahead.take (headerSize + hdr.len) := by
          rw [← List.take_add, Nat.add_sub_cancel' (by omega)]
        have hdecode : decode ahead =
            if ahead.length < headerSize + hdr.len then .error .again
            else .ok (⟨hdr.type, hdr.flags, (ahead.take (headerSize + hdr.len)).drop headerSize⟩,
              headerSize + hdr.len) := by
          rw [decode, hparse, List.drop_take, Nat.add_sub_cancel_left]
        dsimp only
        rw [fill_eq, hlater, hjoin, hdecode]
        by_cases hends : ahead.length < headerSize + hdr.len
        · rw [if_pos hends, List.take_of_length_le (Nat.le_of_lt hends)]
          dsimp only
          rw [if_neg (Nat.ne_of_lt hends)]
          congr 2
          omega
        · rw [if_neg hends]
          dsimp only
          refine ⟨hheld, ?_⟩
          rw [if_pos (List.length_take_of_le (Nat.le_of_not_lt hends))]
          congr 2
          omega

/-- A frame that is not complete is not released. -/
theorem release_of_again (h : decode r.held = .error .again) : r.release = r := by
  unfold release
  split
  · rfl
  · split
    · rfl
    · rename_i hdr hparse
      rw [decode, hparse] at h
      dsimp only at h
      split at h
      · rename_i hshort
        rw [if_neg (by omega)]
      · cases h

/-- Between two pushes the reader holds the beginning of a frame, or nothing, or a frame it has
returned. -/
structure Rests (r : FrameReader) : Prop where
  again : decode r.release.held = .error .again
  skipped : skipPad r.release.held = r.release.held

theorem Rests.of_again (h : decode r.held = .error .again) (hskip : skipPad r.held = r.held) :
    r.Rests := by
  have hsame := release_of_again h
  exact ⟨by rw [hsame, h], by rw [hsame, hskip]⟩

theorem Rests.of_nil (h : r.release.held = []) : r.Rests := by
  refine ⟨?_, ?_⟩
  · rw [h, decode_nil]
  · rw [h]
    rfl

/-- A push decodes what the reader rests with and the new bytes, taken together. -/
theorem push_eq (hrests : r.Rests) (hdata : data ≠ []) :
    match decode (skipPad (r.release.held ++ data)) with
    | .ok (view, total) => ∃ used next, r.push data = (.ok view, used, next) ∧ 0 < used ∧
        data.drop used = (skipPad (r.release.held ++ data)).drop total ∧
        next.held = (skipPad (r.release.held ++ data)).take total
    | .error .again => ∃ next, r.push data = (.error .again, data.length, next) ∧
        next.held = skipPad (r.release.held ++ data)
    | .error fault => ∃ eaten next, r.push data = (.error fault, eaten, next) ∧ next.held = [] := by
  obtain ⟨used, hdef⟩ : ∃ used, used =
    if r.release.held = [] then (data.takeWhile (· = pad)).length else 0 := ⟨_, rfl⟩
  have hused : used ≤ data.length := by
    rw [hdef]
    split
    · exact (List.takeWhile_sublist _).length_le
    · exact Nat.zero_le _
  have hahead : r.release.held ++ data.drop used = skipPad (r.release.held ++ data) := by
    by_cases hheld : r.release.held = []
    · rw [hdef, if_pos hheld, hheld, List.nil_append, List.nil_append]
      have hsplit := List.takeWhile_append_dropWhile (p := (· = pad)) (l := data)
      conv_lhs => arg 2; rw [← hsplit]
      exact List.drop_left
    · rw [hdef, if_neg hheld, List.drop_zero, skipPad_append_of_ne, hrests.skipped]
      rw [hrests.skipped]
      exact hheld
  unfold push
  dsimp only
  rw [← hdef, ← hahead]
  by_cases hnothing : used = data.length
  · -- nothing but padding, so the reader held nothing
    have hheld : r.release.held = [] := by
      by_contra hheld
      rw [if_neg hheld] at hdef
      exact hdata (List.eq_nil_of_length_eq_zero (by omega))
    rw [if_pos hnothing, hnothing, List.drop_length, List.append_nil, hheld, decode_nil]
    exact ⟨_, rfl, hheld⟩
  · rw [if_neg hnothing]
    have hcollect := collect_eq hrests.again hused
    split
    · rename_i view total hok
      rw [hok] at hcollect
      obtain ⟨hheld, hcollect⟩ := hcollect
      refine ⟨_, _, hcollect, by omega, ?_, rfl⟩
      rw [← List.drop_drop, List.drop_append, List.drop_eq_nil_of_le (Nat.le_of_lt hheld),
        List.nil_append]
    · rename_i hagain
      rw [hagain] at hcollect
      exact ⟨_, hcollect, rfl⟩
    · rename_i fault hne hfault
      rw [hfault] at hcollect
      cases fault with
      | again => exact absurd rfl hne
      | _ =>
          obtain ⟨eaten, hcollect⟩ := hcollect
          exact ⟨eaten, _, hcollect, rfl⟩

/-! ## Piece by piece -/

/-- A piece of the stream, pushed until all of it is eaten: the frames, the fault that ended it if
one did, and the reader after it. -/
def drain : Nat → FrameReader → List UInt8 → List FrameView × Option FrameFault × FrameReader
  | 0, r, _ => ([], none, r)
  | fuel + 1, r, data =>
      if data = [] then ([], none, r)
      else
        match r.push data with
        | (.ok view, used, r) =>
            let (views, fault, r) := drain fuel r (data.drop used)
            (view :: views, fault, r)
        | (.error .again, _, r) => ([], none, r)
        | (.error fault, _, r) => ([], some fault, r)

end FrameReader

/-- A connection: its reader, the frames it has delivered, and the fault it was dropped for. -/
structure Feed where
  reader : FrameReader := FrameReader.init
  views : List FrameView := []
  fault : Option FrameFault := none

/-- A piece of the stream. A push eats at least one byte, so its length is fuel enough. -/
def Feed.step (s : Feed) (piece : List UInt8) : Feed :=
  if s.fault.isSome then s
  else
    let (views, fault, reader) := s.reader.drain piece.length piece
    { reader, views := s.views ++ views, fault }

namespace FrameReader

variable {r : FrameReader} {data : List UInt8}

/-- The frames of a piece are the next ones of the stream, and the reader goes on from there. -/
theorem drain_eq {fuel : Nat} (hrests : r.Rests) (hfuel : data.length ≤ fuel) :
    let out := r.drain fuel data
    match out.2.1 with
    | none => out.2.2.Rests ∧ ∀ more, decodeAll (r.release.held ++ data ++ more) =
        (out.1 ++ (decodeAll (out.2.2.release.held ++ more)).1,
          (decodeAll (out.2.2.release.held ++ more)).2)
    | some fault => ∀ more, decodeAll (r.release.held ++ data ++ more) = (out.1, some fault) := by
  induction fuel generalizing r data with
  | zero =>
      rw [List.eq_nil_of_length_eq_zero (Nat.le_zero.1 hfuel)]
      exact ⟨hrests, fun more ↦ by rw [List.append_nil]; rfl⟩
  | succ fuel ih =>
      dsimp only
      rw [drain]
      by_cases hdata : data = []
      · rw [if_pos hdata, hdata]
        exact ⟨hrests, fun more ↦ by rw [List.append_nil]; rfl⟩
      · rw [if_neg hdata]
        have hpush := push_eq hrests hdata
        cases hdecode : decode (skipPad (r.release.held ++ data)) with
        | ok found =>
            obtain ⟨view, total⟩ := found
            rw [hdecode] at hpush
            obtain ⟨used, next, hpush, hpos, hleft, hnext⟩ := hpush
            obtain ⟨hdr, hparse, htotal, hlong, -⟩ := decode_ok hdecode
            -- a frame is complete: the reader starts over with what is behind it
            have hempty : next.release.held = [] := by
              refine idle_of_frame ⟨hdr, ?_, ?_⟩
              · rw [hnext, header_parse_prefix (by omega), hparse]
              · rw [hnext, List.length_take_of_le hlong, htotal]
            have hrest := @ih next (data.drop used) (Rests.of_nil hempty)
              (by rw [List.length_drop]; omega)
            rw [hempty, List.nil_append, hleft] at hrest
            rw [hpush]
            dsimp only at hrest ⊢
            rw [hleft]
            split at hrest
            · rename_i hnone
              rw [hnone]
              refine ⟨hrest.1, fun more ↦ ?_⟩
              rw [decodeAll_ok more hdecode, hrest.2 more]
              rfl
            · rename_i fault hsome
              rw [hsome]
              intro more
              rw [decodeAll_ok more hdecode, hrest more]
        | error fault =>
            rw [hdecode] at hpush
            cases fault with
            | again =>
                obtain ⟨next, hpush, hnext⟩ := hpush
                -- the bytes end inside a frame, which the reader holds on to
                have hopen : decode next.held = .error .again := by rw [hnext, hdecode]
                rw [hpush]
                refine ⟨Rests.of_again hopen (by rw [hnext, skipPad_skipPad]), fun more ↦ ?_⟩
                show _ = ([] ++ (decodeAll (next.release.held ++ more)).1, _)
                rw [release_of_again hopen, hnext, decodeAll_congr (skipPad_append _ more)]
                rfl
            | oversize | unknownType | buffer =>
                obtain ⟨eaten, next, hpush, -⟩ := hpush
                rw [hpush]
                exact fun more ↦ decodeAll_fault more hdecode (by decide)

end FrameReader

/-! ## Runs -/

/-- A connection that has been fed a stream: what is left to decode is what its reader rests
with. -/
structure Feed.Decodes (s : Feed) (stream : List UInt8) : Prop where
  lasts : s.fault = none → s.reader.Rests ∧ ∀ more, decodeAll (stream ++ more) =
    (s.views ++ (decodeAll (s.reader.release.held ++ more)).1,
      (decodeAll (s.reader.release.held ++ more)).2)
  dropped : ∀ fault, s.fault = some fault →
    ∀ more, decodeAll (stream ++ more) = (s.views, some fault)

theorem Feed.Decodes.step {s : Feed} {stream : List UInt8} (h : s.Decodes stream)
    (piece : List UInt8) : (s.step piece).Decodes (stream ++ piece) := by
  unfold Feed.step
  cases hfault : s.fault with
  | some fault =>
      rw [Option.isSome_some, if_pos rfl]
      refine ⟨fun hnone ↦ ?_, fun other hother more ↦ ?_⟩
      · rw [hfault] at hnone
        cases hnone
      · rw [List.append_assoc]
        exact h.dropped other hother _
  | none =>
      rw [Option.isSome_none, if_neg Bool.false_ne_true]
      obtain ⟨hrests, hstream⟩ := h.lasts hfault
      have hdrain := FrameReader.drain_eq hrests (Nat.le_refl piece.length)
      dsimp only at hdrain ⊢
      split at hdrain
      · rename_i hnone
        refine ⟨fun _ ↦ ⟨hdrain.1, fun more ↦ ?_⟩, fun fault hsome ↦ ?_⟩
        · rw [List.append_assoc, hstream, ← List.append_assoc, hdrain.2 more, List.append_assoc]
        · rw [hnone] at hsome
          cases hsome
      · rename_i fault hsome
        refine ⟨fun hnone ↦ ?_, fun other hother more ↦ ?_⟩
        · rw [hsome] at hnone
          cases hnone
        · rw [hsome] at hother
          cases hother
          rw [List.append_assoc, hstream, ← List.append_assoc, hdrain more]

/-! The buffer holds a frame of the greatest length and never more. -/

namespace FrameReader

variable {r : FrameReader}

theorem release_fits (h : r.held.length ≤ maxFrame) : r.release.held.length ≤ maxFrame := by
  unfold release
  split
  · exact h
  · split
    · exact h
    · split
      · exact Nat.zero_le _
      · exact h

theorem fill_fits (h : r.held.length ≤ maxFrame) (data : List UInt8) (used : Nat) {total : Nat}
    (htotal : total ≤ maxFrame) :
    (r.fill data used (total - r.held.length)).2.held.length ≤ maxFrame := by
  rw [fill_eq]
  dsimp only
  rw [List.length_append, List.length_take]
  omega

theorem collect_fits (h : r.held.length ≤ maxFrame) (data : List UInt8) (used : Nat) :
    (r.collect data used).2.2.held.length ≤ maxFrame := by
  unfold collect
  dsimp only
  generalize hheader : (if r.held.length < headerSize then
      r.fill data used (headerSize - r.held.length) else (0, r)) = header
  have hfirst : header.2.held.length ≤ maxFrame := by
    rw [← hheader]
    split
    · exact fill_fits h data used (by decide)
    · exact h
  split
  · exact hfirst
  · split
    · exact Nat.zero_le _
    · rename_i hdr hparse
      have hlen := (header_parse_ok hparse).2.1
      have htotal : headerSize + hdr.len ≤ maxFrame := Nat.add_le_add_left hlen _
      split
      · exact fill_fits hfirst data _ htotal
      · exact fill_fits hfirst data _ htotal

theorem push_fits (h : r.held.length ≤ maxFrame) (data : List UInt8) :
    (r.push data).2.2.held.length ≤ maxFrame := by
  unfold push
  dsimp only
  generalize (if r.release.held = [] then (data.takeWhile (· = pad)).length else 0) = used
  split
  · exact release_fits h
  · exact collect_fits (release_fits h) data used

theorem drain_fits {fuel : Nat} (h : r.held.length ≤ maxFrame) (data : List UInt8) :
    (r.drain fuel data).2.2.held.length ≤ maxFrame := by
  induction fuel generalizing r data with
  | zero => exact h
  | succ fuel ih =>
      have hpush := push_fits h data
      rw [drain]
      split
      · exact h
      · split
        · rename_i hok
          rw [hok] at hpush
          exact ih hpush _
        · rename_i hagain
          rw [hagain] at hpush
          exact hpush
        · rename_i hfault
          rw [hfault] at hpush
          exact hpush

end FrameReader

/-- However a stream of bytes is cut into pieces, the reader delivers the frames of the whole stream
and drops the connection for its first fault, and its buffer never overflows. -/
theorem Feed.slicing_independent (pieces : List (List UInt8)) :
    ((run Feed.step {} pieces).views, (run Feed.step {} pieces).fault) = decodeAll pieces.flatten ∧
      (run Feed.step {} pieces).reader.held.length ≤ maxFrame := by
  have hrun : ∀ (s : Feed) (stream : List UInt8), s.Decodes stream →
      (run Feed.step s pieces).Decodes (stream ++ pieces.flatten) := by
    induction pieces with
    | nil =>
        intro s stream h
        rw [List.flatten_nil, List.append_nil]
        exact h
    | cons piece rest ih =>
        intro s stream h
        rw [List.flatten_cons, ← List.append_assoc]
        exact ih _ _ (h.step piece)
  have hstart : Decodes {} [] := by
    refine ⟨fun _ ↦ ⟨FrameReader.Rests.of_nil rfl, fun more ↦ rfl⟩, nofun⟩
  have hend : (run Feed.step {} pieces).Decodes pieces.flatten := hrun _ _ hstart
  refine ⟨?_, ?_⟩
  · generalize run Feed.step {} pieces = s at hend
    cases hfault : s.fault with
    | some fault =>
        have hall := hend.dropped fault hfault []
        rw [List.append_nil] at hall
        exact hall.symm
    | none =>
        obtain ⟨hrests, hall⟩ := hend.lasts hfault
        have hall := hall []
        -- the reader rests with the beginning of a frame, which decodes to nothing
        have hnothing : decodeAll s.reader.release.held = ([], none) :=
          decodeAll_again (by rw [hrests.skipped]; exact hrests.again)
        rw [List.append_nil, List.append_nil, hnothing, List.append_nil] at hall
        exact hall.symm
  · refine run_invariant (fun s : Feed ↦ s.reader.held.length ≤ maxFrame) (Nat.zero_le _) ?_ pieces
    intro s piece hfits
    unfold Feed.step
    split
    · exact hfits
    · exact FrameReader.drain_fits hfits piece

end DeskhopPlus.Wire
