import Mathlib.Data.List.Basic
import Mathlib.Data.List.Flatten

/-!
# Scanning a stream for frames

A reader looks for frames of one length in a stream. Where the symbols ahead open a frame it takes
the whole frame and goes on behind it, elsewhere it goes on by one symbol. It looks at nothing until
a whole frame's length is ahead, so what it has found does not depend on when it looked.

`frames` is what a reader finds in a finished stream, `scan` one look at a stream that still grows.
A reader out of step with a stream of frames may stay so from frame to frame, and is in step again
behind the first frame within which nothing opens (`frames_resync`).
-/

namespace DeskhopPlus.Scanning

variable {α : Type*} (opens : List α → Bool) (size : Nat)

/-- One look: the first frame, if there is one yet, and the stream ahead of the reader then. -/
def scan : List α → Option (List α) × List α
  | [] => (none, [])
  | x :: rest =>
      if (x :: rest).length < size then (none, x :: rest)
      else if opens ((x :: rest).take size) then
        (some ((x :: rest).take size), (x :: rest).drop size)
      else scan rest

/-- The frames of a stream, after symbols that belong to a frame already taken. -/
def framesAfter : Nat → List α → List (List α)
  | _, [] => []
  | skip + 1, _ :: rest => framesAfter skip rest
  | 0, x :: rest =>
      if (x :: rest).length < size then []
      else if opens ((x :: rest).take size) then
        (x :: rest).take size :: framesAfter (size - 1) rest
      else framesAfter 0 rest

/-- The frames of a stream. -/
def frames (stream : List α) : List (List α) := framesAfter opens size 0 stream

variable {opens size}

theorem framesAfter_eq (skip : Nat) (stream : List α) :
    framesAfter opens size skip stream = frames opens size (stream.drop skip) := by
  induction skip generalizing stream with
  | zero => rfl
  | succ skip ih =>
      cases stream with
      | nil => simp [frames, framesAfter]
      | cons x rest => exact ih rest

theorem frames_of_short {stream : List α} (h : stream.length < size) :
    frames opens size stream = [] := by
  cases stream with
  | nil => rfl
  | cons x rest => simp only [frames, framesAfter, if_pos h]

variable (hsize : 0 < size)

include hsize

/-- A frame ahead is taken. -/
theorem frames_of_opens {stream : List α} (hlong : size ≤ stream.length)
    (hopens : opens (stream.take size) = true) :
    frames opens size stream = stream.take size :: frames opens size (stream.drop size) := by
  cases stream with
  | nil => exact absurd hlong (by simpa using Nat.ne_of_gt hsize)
  | cons x rest =>
      rw [frames, framesAfter, if_neg (by omega), if_pos hopens, framesAfter_eq]
      obtain ⟨more, rfl⟩ : ∃ more, size = more + 1 := ⟨size - 1, by omega⟩
      rfl

omit hsize in
/-- A symbol that opens nothing is passed over. -/
theorem frames_cons {x : α} {rest : List α} (hcloses : opens ((x :: rest).take size) = false) :
    frames opens size (x :: rest) = frames opens size rest := by
  rw [frames, framesAfter]
  split
  · rename_i hshort
    rw [frames_of_short]
    simp only [List.length_cons] at hshort
    omega
  · rw [if_neg (by simp [hcloses])]
    rfl

omit hsize in
/-- Symbols none of which opens a frame are passed over. -/
theorem frames_drop {stream : List α} {count : Nat}
    (h : ∀ i < count, opens ((stream.drop i).take size) = false) :
    frames opens size stream = frames opens size (stream.drop count) := by
  induction count generalizing stream with
  | zero => rfl
  | succ count ih =>
      cases stream with
      | nil => simp
      | cons x rest =>
          rw [frames_cons (h 0 (Nat.succ_pos count)), List.drop_succ_cons]
          exact ih fun i hi ↦ h (i + 1) (Nat.succ_lt_succ hi)

/-- What a look finds are the next frames of the stream, however it goes on. -/
theorem frames_scan (stream more : List α) :
    frames opens size (stream ++ more) =
      (scan opens size stream).1.toList ++ frames opens size
        ((scan opens size stream).2 ++ more) := by
  induction stream with
  | nil => rfl
  | cons x rest ih =>
      rw [scan]
      split
      · rfl
      · rename_i hlong
        have hlong : size ≤ (x :: rest).length := Nat.le_of_not_lt hlong
        have htake : (x :: rest ++ more).take size = (x :: rest).take size :=
          List.take_append_of_le_length hlong
        split
        · rename_i hopens
          rw [frames_of_opens hsize (by rw [List.length_append]; omega)
            (by rw [htake]; exact hopens),
            htake, List.drop_append_of_le_length hlong]
          rfl
        · rename_i hcloses
          rw [List.cons_append, frames_cons, ih]
          rw [← List.cons_append, htake]
          simpa using hcloses

/-- Nothing is left to find in the stream ahead of a look that found no frame. -/
theorem scan_none {stream : List α} (h : (scan opens size stream).1 = none) :
    (scan opens size stream).2.length < size := by
  induction stream with
  | nil => exact hsize
  | cons x rest ih =>
      rw [scan] at h ⊢
      split
      · assumption
      · rename_i hlong
        rw [if_neg hlong] at h
        split
        · rename_i hopens
          rw [if_pos hopens] at h
          cases h
        · rename_i hcloses
          rw [if_neg hcloses] at h
          exact ih h

/-- What a reader takes within some symbols reaches less than a frame beyond them. -/
theorem frames_enter {opens : List α → Bool} (first second : List α) :
    ∃ junk skip, skip < size ∧
      frames opens size (first ++ second) = junk ++ frames opens size (second.drop skip) := by
  -- the symbols of the first part that are still to come go down with every move
  induction hlength : first.length using Nat.strongRecOn generalizing first with
  | ind length ih =>
      cases first with
      | nil => exact ⟨[], 0, hsize, rfl⟩
      | cons x rest =>
          by_cases hlong : size ≤ (x :: rest ++ second).length
          · cases hopens : opens ((x :: rest ++ second).take size) with
            | false =>
                rw [List.cons_append, frames_cons (by rw [← List.cons_append]; exact hopens)]
                exact ih rest.length (by simp [← hlength]) rest rfl
            | true =>
                rw [frames_of_opens hsize hlong hopens, List.drop_append]
                by_cases hover : (x :: rest).length ≤ size
                · rw [List.drop_eq_nil_of_le hover]
                  refine ⟨[(x :: rest ++ second).take size], size - (x :: rest).length, ?_, rfl⟩
                  simp only [List.length_cons]
                  omega
                · have hnone : size - (x :: rest).length = 0 := by omega
                  rw [hnone, List.drop_zero]
                  obtain ⟨junk, skip, hskip, hjunk⟩ :=
                    ih ((x :: rest).drop size).length (by rw [List.length_drop]; omega) _ rfl
                  rw [hjunk]
                  exact ⟨(x :: rest ++ second).take size :: junk, skip, hskip, rfl⟩
          · rw [frames_of_short (Nat.lt_of_not_le hlong)]
            refine ⟨[], 0, hsize, ?_⟩
            rw [List.drop_zero, frames_of_short]
            · rfl
            · simp only [List.length_append] at hlong
              omega

/-! ## Streams of frames -/

/-- A frame: of the right length, and opening. -/
structure IsFrame (opens : List α → Bool) (size : Nat) (frame : List α) : Prop where
  length : frame.length = size
  opens : opens frame = true

/-- Nothing opens within a frame, behind its first symbol, when the stream goes on in a given
way. -/
def Clear (opens : List α → Bool) (size : Nat) (frame more : List α) : Prop :=
  ∀ i, 0 < i → i < size → opens ((frame.drop i ++ more).take size) = false

theorem frames_frame {frame : List α} (h : IsFrame opens size frame) (more : List α) :
    frames opens size (frame ++ more) = frame :: frames opens size more := by
  have htake : (frame ++ more).take size = frame := by
    rw [← h.length, List.take_left]
  rw [frames_of_opens hsize (by rw [List.length_append, h.length]; omega)
    (by rw [htake]; exact h.opens),
    htake, ← h.length, List.drop_left]

/-- A reader in step takes every frame. -/
theorem frames_flatten {all : List (List α)} (h : ∀ frame ∈ all, IsFrame opens size frame) :
    frames opens size all.flatten = all := by
  induction all with
  | nil => rfl
  | cons frame rest ih =>
      rw [List.flatten_cons, frames_frame hsize (h frame List.mem_cons_self),
        ih fun other hother ↦ h other (List.mem_cons_of_mem _ hother)]

omit hsize in
/-- A reader within a clear frame takes nothing of it. -/
theorem frames_clear {frame more : List α} (hlength : frame.length = size)
    (hclear : Clear opens size frame more) {skip : Nat} (hpos : 0 < skip) :
    frames opens size (frame.drop skip ++ more) = frames opens size more := by
  induction hleft : size - skip generalizing skip with
  | zero =>
      rw [List.drop_eq_nil_of_le (by omega)]
      rfl
  | succ left ih =>
      have hinside : skip < frame.length := by omega
      have hhere := hclear skip hpos (by omega)
      rw [List.drop_eq_getElem_cons hinside, List.cons_append] at hhere ⊢
      rw [frames_cons hhere]
      exact ih (by omega) (by omega)

/-- A stream of frames behind any other symbols: the reader misses no frame behind the first clear
one. -/
theorem frames_resync (noise : List α) {before after : List (List α)} {clear : List α}
    (hframes : ∀ frame ∈ before ++ clear :: after, IsFrame opens size frame)
    (hclear : Clear opens size clear after.flatten) :
    ∃ junk missed, missed ≤ before.length + 1 ∧
      frames opens size (noise ++ (before ++ clear :: after).flatten) =
        junk ++ (before ++ clear :: after).drop missed := by
  induction before generalizing noise with
  | nil =>
      rw [List.nil_append] at hframes ⊢
      obtain ⟨junk, skip, hskip, hjunk⟩ := frames_enter hsize noise (clear :: after).flatten
      rcases Nat.eq_zero_or_pos skip with rfl | hpos
      · refine ⟨junk, 0, Nat.zero_le _, ?_⟩
        rw [hjunk, List.drop_zero, frames_flatten hsize hframes]
        rfl
      · have hlength := (hframes clear (by simp)).length
        refine ⟨junk, 1, Nat.le_refl _, ?_⟩
        rw [hjunk, List.flatten_cons, List.drop_append_of_le_length (by omega),
          frames_clear hlength hclear hpos, frames_flatten hsize fun other hother ↦
            hframes other (by simp [hother])]
        rfl
  | cons frame rest ih =>
      rw [List.cons_append] at hframes ⊢
      obtain ⟨junk, skip, hskip, hjunk⟩ :=
        frames_enter hsize noise (frame :: (rest ++ clear :: after)).flatten
      rcases Nat.eq_zero_or_pos skip with rfl | hpos
      · refine ⟨junk, 0, Nat.zero_le _, ?_⟩
        rw [hjunk, List.drop_zero, frames_flatten hsize hframes]
        rfl
      · -- what is left of the frame is noise before the frames behind it
        have hlength := (hframes frame (by simp)).length
        obtain ⟨more, missed, hmissed, hmore⟩ :=
          ih (frame.drop skip) fun other hother ↦ hframes other (List.mem_cons_of_mem _ hother)
        refine ⟨junk ++ more, missed + 1, Nat.succ_le_succ hmissed, ?_⟩
        rw [hjunk, List.flatten_cons, List.drop_append_of_le_length (by omega),
          hmore, List.append_assoc]
        rfl

end DeskhopPlus.Scanning
