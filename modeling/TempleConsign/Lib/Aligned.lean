import Mathlib.Algebra.Order.Ring.Int
import Mathlib.Tactic.Ring

/-!
# Aligned intervals

The multiples of a length cut the line into intervals. `floorTo w t` is the start of the one
that `t` lies in.

Results:
* `floorTo_le`, `lt_floorTo_add`: the interval of a number contains it.
* `floorTo_eq_floorTo_iff`: two numbers have one start exactly when some interval contains
  both.
* `floorTo_units`, `floorTo_within`: counted in a unit, or from a multiple of the length.
-/

namespace Aligned

/-- The last multiple of `w` that is not after `t`. -/
def floorTo (w t : ℤ) : ℤ := t / w * w

/-- `t` lies in the `k`-th interval of length `w`. -/
def InInterval (w k t : ℤ) : Prop := k * w ≤ t ∧ t < (k + 1) * w

variable {w t u k : ℤ}

theorem inInterval_iff (hw : 0 < w) : InInterval w k t ↔ t / w = k := by
  unfold InInterval
  rw [← Int.le_ediv_iff_mul_le hw, ← Int.ediv_lt_iff_lt_mul hw]
  omega

theorem floorTo_le (hw : 0 < w) (t : ℤ) : floorTo w t ≤ t := ((inInterval_iff hw).mpr rfl).1

theorem lt_floorTo_add (hw : 0 < w) (t : ℤ) : t < floorTo w t + w := by
  have hlt : t < (t / w + 1) * w := ((inInterval_iff hw).mpr rfl).2
  rw [Int.add_mul, Int.one_mul] at hlt
  exact hlt

theorem floorTo_eq_floorTo_iff (hw : 0 < w) :
    floorTo w t = floorTo w u ↔ ∃ k, InInterval w k t ∧ InInterval w k u := by
  unfold floorTo
  rw [Int.mul_eq_mul_right_iff (Int.ne_of_gt hw)]
  simp only [inInterval_iff hw]
  constructor
  · intro h
    exact ⟨t / w, rfl, h.symm⟩
  · rintro ⟨k, ht, hu⟩
    rw [ht, hu]

/-- A length of `m` units, counted in units. -/
theorem floorTo_units {unit : ℤ} (hunit : 0 < unit) (m t : ℤ) :
    floorTo m (t / unit) * unit = floorTo (m * unit) t := by
  unfold floorTo
  rw [Int.ediv_ediv_of_nonneg (Int.le_of_lt hunit), Int.mul_comm unit m, Int.mul_assoc]

/-- Within an interval whose length is a multiple of `w`. -/
theorem floorTo_within {n : ℤ} (hw : 0 < w) (hdvd : w ∣ n) (t : ℤ) :
    t - t % n + floorTo w (t % n) = floorTo w t := by
  obtain ⟨c, rfl⟩ := hdvd
  have hrest : t % (w * c) = t + w * -(c * (t / (w * c))) := by
    rw [Int.emod_def]
    ring
  have hquot : t % (w * c) / w = t / w - c * (t / (w * c)) := by
    rw [hrest, Int.add_mul_ediv_left _ _ (Int.ne_of_gt hw)]
    ring
  unfold floorTo
  rw [hquot, hrest]
  ring

end Aligned
