import DeskhopPlus.Library.Rounding
import DeskhopPlus.Library.Runs
import Mathlib.Algebra.BigOperators.Group.List.Basic
import Mathlib.Order.Bounds.Defs
import Mathlib.Tactic.IntervalCases

/-!
# The pointer of Windows

Windows moves the cursor by whole pixels toward zero and keeps the rest for the next report. The
board copies that arithmetic where it cannot place the cursor. Division is that of C, toward zero.
No part of a pixel is lost from report to report (`windows_pointer_exact`), as long as the numbers
fit in 32 bits.
-/

namespace DeskhopPlus.Mouse

open Rounding Runs

/-- `DH_WINDOWS_POINTER_MULT32`. -/
def mult32 : List Int :=
  [1, 2, 4, 8, 12, 16, 20, 24, 28, 32, 40, 48, 56, 64, 72, 80, 88, 96, 104, 112]

/-- The units of a screen. -/
def units : Int := 32768

/-- What a variable of 16 bits keeps of a number. -/
def int16 (value : Int) : Int := value.bmod (2 ^ 16)

/-- What a variable of 32 bits keeps of a number. -/
def int32 (value : Int) : Int := value.bmod (2 ^ 32)

/-- What a variable of 8 bits keeps of a number. -/
def int8 (value : Int) : Int := value.bmod (2 ^ 8)

/-- `dh_windows_pointer_speed_is_set`. -/
def pointerSpeedIsSet (step : Nat) : Bool := decide (1 ≤ step ∧ step ≤ mult32.length)

/-- The multiplier of a speed. -/
def multiplier (step : Nat) : Int := mult32.getD (step - 1) 0

/-- `unit_of`: the first unit of a pixel. -/
def unitOf (pixel : Int) (pixels : Nat) : Int :=
  let n := pixel * units
  if 0 ≤ n then (n + pixels - 1).tdiv pixels else -((-n).tdiv pixels)

/-- `dh_windows_estimate_offset`: the offset, and the part of a pixel that is kept. -/
def estimateOffset (position counts : Int) (step pixels : Nat) (speed partPixel : Int) :
    Int × Int :=
  if pointerSpeedIsSet step = false ∨ pixels = 0 then (int32 (counts * speed), partPixel)
  else
    let n := position * pixels
    let pixel := if 0 ≤ n then n.tdiv units else -((-n + units - 1).tdiv units)
    let moved32 := counts * multiplier step + partPixel
    let moved := moved32.tdiv 32
    let kept := int8 (moved32 - moved * 32)
    if moved = 0 then (0, kept) else (int32 (unitOf (pixel + moved) pixels - position), kept)

/-- `pixels_moved`. -/
def pixelsMoved (counts step partPixel : Int) : Int := (counts * step + partPixel).tdiv 32

/-- `dh_windows_counts_nearest`. -/
def countsNearest (pixels : Int) (step : Nat) (partPixel : Int) : Int :=
  if pointerSpeedIsSet step = false then 0
  else
    let m := multiplier step
    let n := pixels * 32 - partPixel
    let c := if 0 ≤ n then n.tdiv m else -((-n + m - 1).tdiv m)
    let miss := pixelsMoved c m partPixel - pixels
    let missNext := pixelsMoved (c + 1) m partPixel - pixels
    int32 (if missNext.natAbs < miss.natAbs then c + 1 else c)

/-- `dh_windows_pixels_per_count`. -/
def pixelsPerCount (step : Nat) : Int :=
  if pointerSpeedIsSet step = false then 0 else (multiplier step + 31).tdiv 32

/-- `dh_windows_counts_for_pixels`, with a dividend of 32 bits. -/
def countsForPixels (pixels : Int) (step : Nat) : Int :=
  if pointerSpeedIsSet step = false then 0
  else (int32 (pixels * 32 + multiplier step - 1)).tdiv (multiplier step)

theorem int8_self {value : Int} (hlow : -128 ≤ value) (hhigh : value ≤ 127) : int8 value = value :=
  Int.bmod_eq_of_le (by omega) (by omega)

theorem int32_self {value : Int} (hlow : -2147483648 ≤ value) (hhigh : value ≤ 2147483647) :
    int32 value = value :=
  Int.bmod_eq_of_le (by omega) (by omega)

variable {step pixels : Nat}

theorem multiplier_between (h : pointerSpeedIsSet step = true) :
    1 ≤ multiplier step ∧ multiplier step ≤ 112 := by
  rw [pointerSpeedIsSet, decide_eq_true_eq] at h
  obtain ⟨hlow, hhigh⟩ : 1 ≤ step ∧ step ≤ 20 := h
  interval_cases step <;> decide

/-! ## The estimate from report to report -/

/-- The pixel a position is in. Pixels go on past either edge. -/
def pixelOf (position : Int) (pixels : Nat) : Int := position * pixels / units

/-- The estimate of the board along an axis. -/
structure Estimate where
  position : Int
  partPixel : Int
  deriving DecidableEq, Repr

namespace Estimate

/-- A report of so many counts. -/
def report (step pixels : Nat) (speed : Int) (e : Estimate) (counts : Int) : Estimate :=
  let moved := estimateOffset e.position counts step pixels speed e.partPixel
  ⟨e.position + moved.1, moved.2⟩

/-- The pixel the counts lead to. -/
def target (step pixels : Nat) (e : Estimate) (counts : Int) : Int :=
  pixelOf e.position pixels + pixelsMoved counts (multiplier step) e.partPixel

/-- The offset to the pixel the counts lead to fits in 32 bits. -/
def Fits (step pixels : Nat) (e : Estimate) (counts : Int) : Prop :=
  -2147483648 ≤ unitOf (target step pixels e counts) pixels - e.position ∧
    unitOf (target step pixels e counts) pixels - e.position ≤ 2147483647

instance (step pixels : Nat) (e : Estimate) (counts : Int) :
    Decidable (e.Fits step pixels counts) :=
  inferInstanceAs (Decidable (_ ∧ _))

/-- Where the cursor is, in 32nds of a pixel. -/
def reading (pixels : Nat) (e : Estimate) : Int := 32 * pixelOf e.position pixels + e.partPixel

variable {speed : Int} {e : Estimate}

/-- The first unit of a pixel is in it. -/
theorem pixelOf_unitOf (hpos : 0 < pixels) (hpixels : pixels ≤ 32768) (pixel : Int) :
    pixelOf (unitOf pixel pixels) pixels = pixel := by
  have hunit : unitOf pixel pixels = ceil (pixel * units) pixels := ceil_of_tdiv (by omega)
  rw [hunit, pixelOf]
  exact floor_ceil (by omega) (by rw [units]; omega) pixel

/-- What a report makes of the estimate. -/
theorem report_eq (hspeed : pointerSpeedIsSet step = true) (hpos : 0 < pixels) (counts : Int) :
    e.report step pixels speed counts =
      { position :=
          if pixelsMoved counts (multiplier step) e.partPixel = 0 then e.position
          else e.position + int32 (unitOf (e.target step pixels counts) pixels - e.position)
        partPixel := counts * multiplier step + e.partPixel -
          pixelsMoved counts (multiplier step) e.partPixel * 32 } := by
  obtain ⟨hlow, hhigh⟩ := tmod_between (counts * multiplier step + e.partPixel)
    (show (0 : Int) < 32 by decide)
  have hfloor : (if 0 ≤ e.position * pixels then (e.position * pixels).tdiv units
      else -((-(e.position * pixels) + units - 1).tdiv units)) = pixelOf e.position pixels :=
    floor_of_tdiv (by decide)
  rw [report, estimateOffset, if_neg (by simp [hspeed, Nat.ne_of_gt hpos])]
  simp only [hfloor]
  rw [target, pixelsMoved, int8_self (by omega) (by omega)]
  split_ifs with hnone
  · simp
  · rfl

theorem report_partPixel (hspeed : pointerSpeedIsSet step = true) (hpos : 0 < pixels)
    (counts : Int) :
    -32 < (e.report step pixels speed counts).partPixel ∧
      (e.report step pixels speed counts).partPixel < 32 := by
  rw [report_eq hspeed hpos]
  exact tmod_between _ (by decide)

theorem report_of_none (hspeed : pointerSpeedIsSet step = true) (hpos : 0 < pixels) {counts : Int}
    (hnone : pixelsMoved counts (multiplier step) e.partPixel = 0) :
    (e.report step pixels speed counts).position = e.position := by
  rw [report_eq hspeed hpos]
  exact if_pos hnone

theorem report_pixel (hspeed : pointerSpeedIsSet step = true) (hpos : 0 < pixels)
    (hpixels : pixels ≤ 32768) {counts : Int} (hfits : e.Fits step pixels counts) :
    pixelOf (e.report step pixels speed counts).position pixels = e.target step pixels counts := by
  rw [report_eq hspeed hpos]
  dsimp only
  split_ifs with hnone
  · rw [target, hnone, add_zero]
  · rw [int32_self hfits.1 hfits.2, add_sub_cancel, pixelOf_unitOf hpos hpixels]

/-- No part of a pixel is lost in a report. -/
theorem report_reading (hspeed : pointerSpeedIsSet step = true) (hpos : 0 < pixels)
    (hpixels : pixels ≤ 32768) {counts : Int} (hfits : e.Fits step pixels counts) :
    (e.report step pixels speed counts).reading pixels =
      e.reading pixels + multiplier step * counts := by
  rw [reading, report_pixel hspeed hpos hpixels hfits, report_eq hspeed hpos, target, reading]
  ring

/-- Nor in any number of them. -/
theorem run_reading (hspeed : pointerSpeedIsSet step = true) (hpos : 0 < pixels)
    (hpixels : pixels ≤ 32768) {counts : List Int}
    (hfits : Along (report step pixels speed) (Fits step pixels) e counts) :
    (run (report step pixels speed) e counts).reading pixels =
      e.reading pixels + multiplier step * counts.sum := by
  induction counts generalizing e with
  | nil => simp
  | cons first rest ih =>
      rw [run_cons, ih hfits.2, report_reading hspeed hpos hpixels hfits.1, List.sum_cons]
      ring

theorem run_partPixel (hspeed : pointerSpeedIsSet step = true) (hpos : 0 < pixels)
    (hlow : -32 < e.partPixel) (hhigh : e.partPixel < 32) (counts : List Int) :
    -32 < (run (report step pixels speed) e counts).partPixel ∧
      (run (report step pixels speed) e counts).partPixel < 32 :=
  run_invariant (fun e : Estimate ↦ -32 < e.partPixel ∧ e.partPixel < 32) ⟨hlow, hhigh⟩
    (fun _ counts _ ↦ report_partPixel hspeed hpos counts) counts

end Estimate

/-! ## The counts for a number of pixels -/

theorem pixelsMoved_mono {step : Int} (hstep : 0 < step) (partPixel : Int) {first second : Int}
    (h : first ≤ second) :
    pixelsMoved first step partPixel ≤ pixelsMoved second step partPixel := by
  have hcounts := mul_le_mul_of_nonneg_right h (Int.le_of_lt hstep)
  exact Int.tdiv_le_tdiv (by decide) (by omega)

theorem le_pixelsMoved {counts step partPixel pixels : Int}
    (h : pixels * 32 ≤ counts * step + partPixel) : pixels ≤ pixelsMoved counts step partPixel := by
  have hdiv := Int.tdiv_le_tdiv (show (0 : Int) < 32 by decide) h
  rwa [Int.mul_tdiv_cancel _ (by decide)] at hdiv

theorem pixelsMoved_le {counts step partPixel pixels : Int}
    (h : counts * step + partPixel ≤ pixels * 32) : pixelsMoved counts step partPixel ≤ pixels := by
  have hdiv := Int.tdiv_le_tdiv (show (0 : Int) < 32 by decide) h
  rwa [Int.mul_tdiv_cancel _ (by decide)] at hdiv

/-- The counts whose movement is the nearest of all are returned, in 32 bits. -/
theorem countsNearest_nearest (hspeed : pointerSpeedIsSet step = true) (pixels partPixel : Int) :
    ∃ counts, countsNearest pixels step partPixel = int32 counts ∧
      ∀ other, (pixelsMoved counts (multiplier step) partPixel - pixels).natAbs ≤
        (pixelsMoved other (multiplier step) partPixel - pixels).natAbs := by
  have hpos : 0 < multiplier step := (multiplier_between hspeed).1
  generalize hm : multiplier step = m at hpos
  have hfloor : (if 0 ≤ pixels * 32 - partPixel then (pixels * 32 - partPixel).tdiv m
      else -((-(pixels * 32 - partPixel) + m - 1).tdiv m)) = (pixels * 32 - partPixel) / m :=
    floor_of_tdiv hpos
  rw [countsNearest, if_neg (by simp [hspeed]), hm]
  simp only [hfloor]
  have hlow := floor_mul_le (pixels * 32 - partPixel) hpos
  have hhigh := lt_floor_mul (pixels * 32 - partPixel) hpos
  generalize (pixels * 32 - partPixel) / m = short at hlow hhigh
  -- no movement up to the counts just short exceeds the request, and none from the next on
  -- misses it
  have hshort := @pixelsMoved_le short m partPixel pixels (by omega)
  have hnext := @le_pixelsMoved (short + 1) m partPixel pixels (by rw [add_mul, one_mul]; omega)
  have hother : ∀ other, pixelsMoved other m partPixel ≤ pixelsMoved short m partPixel ∨
      pixelsMoved (short + 1) m partPixel ≤ pixelsMoved other m partPixel := by
    intro other
    rcases lt_or_ge short other with hlt | hge
    · exact .inr (pixelsMoved_mono hpos partPixel hlt)
    · exact .inl (pixelsMoved_mono hpos partPixel hge)
  refine ⟨_, rfl, fun other ↦ ?_⟩
  have hcases := hother other
  split_ifs <;> omega

/-- The least counts that move at least so many pixels. -/
theorem countsForPixels_isLeast (hspeed : pointerSpeedIsSet step = true) {pixels : Int}
    (hpixels : 1 ≤ pixels) (hfits : pixels * 32 + multiplier step ≤ 2147483648) :
    IsLeast {counts | pixels ≤ pixelsMoved counts (multiplier step) 0}
      (countsForPixels pixels step) := by
  have hpos : 0 < multiplier step := (multiplier_between hspeed).1
  rw [countsForPixels, if_neg (by simp [hspeed]), int32_self (by omega) (by omega)]
  generalize multiplier step = m at hpos hfits ⊢
  have hceil : (pixels * 32 + m - 1).tdiv m = ceil (pixels * 32) m := by
    have h := @ceil_of_tdiv (pixels * 32) m hpos
    rwa [if_pos (by omega)] at h
  rw [hceil]
  constructor
  · exact le_pixelsMoved (by rw [add_zero]; exact le_ceil_mul _ hpos)
  · intro counts hmoved
    rw [ceil_le_iff hpos]
    by_contra hshort
    -- a 32nd short of the request is a pixel short of it
    have hdiv := Int.tdiv_le_tdiv (show (0 : Int) < 32 by decide)
      (show counts * m + 0 ≤ pixels * 32 - 1 by omega)
    rw [Int.tdiv_eq_ediv_of_nonneg (show 0 ≤ pixels * 32 - 1 by omega)] at hdiv
    have hrequest : pixels ≤ (counts * m + 0).tdiv 32 := hmoved
    omega

/-! ## The arithmetic as a whole -/

/-- Over any reports whose offsets fit in 32 bits the pixel and the part of a pixel kept account for
every count, the part stays below a pixel, and a report that moves no whole pixel moves nothing; of
all counts the nearest to a request are returned, in 32 bits; and the counts for a number of pixels
are the least that move so many. -/
theorem windows_pointer_exact {step : Nat} (hspeed : pointerSpeedIsSet step = true) :
    (∀ (pixels : Nat) (speed : Int) (e : Estimate) (counts : List Int),
      1 ≤ pixels → pixels ≤ 32768 →
      Along (Estimate.report step pixels speed) (Estimate.Fits step pixels) e counts →
      32 * pixelOf (run (Estimate.report step pixels speed) e counts).position pixels +
          (run (Estimate.report step pixels speed) e counts).partPixel =
        32 * pixelOf e.position pixels + e.partPixel + multiplier step * counts.sum) ∧
    (∀ (pixels : Nat) (speed : Int) (e : Estimate) (counts : List Int), 1 ≤ pixels →
      -32 < e.partPixel → e.partPixel < 32 →
      -32 < (run (Estimate.report step pixels speed) e counts).partPixel ∧
        (run (Estimate.report step pixels speed) e counts).partPixel < 32) ∧
    (∀ (pixels : Nat) (speed : Int) (e : Estimate) (counts : Int), 1 ≤ pixels →
      pixelsMoved counts (multiplier step) e.partPixel = 0 →
      (e.report step pixels speed counts).position = e.position) ∧
    (∀ pixels partPixel : Int, ∃ counts, countsNearest pixels step partPixel = int32 counts ∧
      ∀ other, (pixelsMoved counts (multiplier step) partPixel - pixels).natAbs ≤
        (pixelsMoved other (multiplier step) partPixel - pixels).natAbs) ∧
    ∀ pixels : Int, 1 ≤ pixels → pixels * 32 + multiplier step ≤ 2147483648 →
      IsLeast {counts | pixels ≤ pixelsMoved counts (multiplier step) 0}
        (countsForPixels pixels step) := by
  refine ⟨?_, ?_, ?_, countsNearest_nearest hspeed, ?_⟩
  · intro pixels speed e counts hpos hpixels hfits
    exact Estimate.run_reading hspeed hpos hpixels hfits
  · intro pixels speed e counts hpos hlow hhigh
    exact Estimate.run_partPixel hspeed hpos hlow hhigh counts
  · intro pixels speed e counts hpos hnone
    exact Estimate.report_of_none hspeed hpos hnone
  · intro pixels hpixels hfits
    exact countsForPixels_isLeast hspeed hpixels hfits

/-- Three reports on a small monitor, from a place past its near edge. -/
theorem windows_pointer_exact_creeps :
    32 * pixelOf (run (Estimate.report 4 5 1) ⟨-3, 0⟩ [3, -1, 4]).position 5 +
        (run (Estimate.report 4 5 1) ⟨-3, 0⟩ [3, -1, 4]).partPixel =
      32 * pixelOf (-3) 5 + 0 + multiplier 4 * [3, -1, 4].sum :=
  (windows_pointer_exact (by decide)).1 5 1 ⟨-3, 0⟩ [3, -1, 4] (by decide) (by decide)
    (by decide)

/-- Past 32 bits an estimate loses counts and the counts returned are not the nearest; and for no
pixels fewer counts than none would do. -/
theorem windows_pointer_limits :
    (Estimate.report 20 1 1 ⟨0, 0⟩ 2147483647).reading 1 ≠
      Estimate.reading 1 ⟨0, 0⟩ + multiplier 20 * 2147483647 ∧
    (pixelsMoved 0 (multiplier 1) 0 - 67108864).natAbs <
      (pixelsMoved (countsNearest 67108864 1 0) (multiplier 1) 0 - 67108864).natAbs ∧
    pixelsMoved (countsForPixels 67108864 1) (multiplier 1) 0 < 67108864 ∧
    0 ≤ pixelsMoved (-31) (multiplier 1) 0 ∧ -31 < countsForPixels 0 1 := by
  decide

end DeskhopPlus.Mouse
