import Mathlib.Algebra.Order.Floor.Ring
import Mathlib.Algebra.Order.Round
import Mathlib.Tactic.Linarith
import Mathlib.Tactic.Ring

/-!
# Rounding to a grid

A value that is rounded to a multiple of `1 / n`, half up or half to even.

Results:
* `roundHalfUp_mono`: rounding half up keeps the order.
* `roundHalfUp_of_mem`: it leaves the values of the grid alone.
* `nearestEven_eq_zero`, `nearestEven_pos`: what the nearest integer makes of a half and of more.
-/

namespace RoundingLib

variable {K : Type*} [Field K] [LinearOrder K] [IsStrictOrderedRing K] [FloorRing K]

/-- The nearest multiple of `1 / n`, a tie going up. -/
def roundHalfUp (n : ℕ) (x : K) : K := (⌊x * n + 1 / 2⌋ : K) / n

/-- The nearest integer, a tie going to the even one. -/
def nearestEven (x : K) : ℤ :=
  if Int.fract x < 1 / 2 then ⌊x⌋
  else if 1 / 2 < Int.fract x then ⌊x⌋ + 1
  else if Even ⌊x⌋ then ⌊x⌋
  else ⌊x⌋ + 1

/-- The nearest multiple of `1 / n`, a tie going to the even numerator. -/
def roundHalfEven (n : ℕ) (x : K) : K := (nearestEven (x * n) : K) / n

variable {n : ℕ} {x y : K}

theorem roundHalfUp_mono (h : x ≤ y) : roundHalfUp n x ≤ roundHalfUp n y := by
  have hn : (0 : K) ≤ n := Nat.cast_nonneg n
  have hfloor : ⌊x * n + 1 / 2⌋ ≤ ⌊y * n + 1 / 2⌋ := by
    apply Int.floor_le_floor
    have := mul_le_mul_of_nonneg_right h hn
    linarith
  unfold roundHalfUp
  exact div_le_div_of_nonneg_right (Int.cast_le.mpr hfloor) hn

/-- A multiple of `1 / n` is its own rounding. -/
theorem roundHalfUp_of_mem (hn : 0 < n) (k : ℤ) : roundHalfUp n ((k : K) / n) = (k : K) / n := by
  have hn' : (n : K) ≠ 0 := Nat.cast_ne_zero.mpr hn.ne'
  have hfloor : ⌊(k : K) + 1 / 2⌋ = k := by
    rw [Int.floor_eq_iff]
    constructor
    · linarith
    · linarith
  unfold roundHalfUp
  rw [div_mul_cancel₀ _ hn', hfloor]

/-- A value in an interval of the grid is rounded to one in it. -/
theorem roundHalfUp_mem_Icc (hn : 0 < n) {a b : ℤ} (ha : (a : K) / n ≤ x) (hb : x ≤ (b : K) / n) :
    (a : K) / n ≤ roundHalfUp n x ∧ roundHalfUp n x ≤ (b : K) / n := by
  constructor
  · rw [← roundHalfUp_of_mem hn a]
    exact roundHalfUp_mono ha
  · rw [← roundHalfUp_of_mem hn b]
    exact roundHalfUp_mono hb

theorem abs_nearestEven_sub_le (x : K) : |(nearestEven x : K) - x| ≤ 1 / 2 := by
  have hfloor := Int.self_sub_floor x
  have hlow := Int.fract_nonneg x
  have hhigh := Int.fract_lt_one x
  unfold nearestEven
  rw [abs_le]
  split_ifs with hbelow habove heven
  · constructor
    · linarith
    · linarith
  · push_cast
    constructor
    · linarith
    · linarith
  · constructor
    · linarith
    · linarith
  · push_cast
    constructor
    · linarith
    · linarith

theorem nearestEven_eq_zero (hlow : 0 ≤ x) (hhigh : x ≤ 1 / 2) : nearestEven x = 0 := by
  have hfloor : ⌊x⌋ = 0 := by
    rw [Int.floor_eq_zero_iff, Set.mem_Ico]
    exact ⟨hlow, by linarith⟩
  have hfract : Int.fract x = x := by
    have := Int.self_sub_floor x
    rw [hfloor] at this
    simpa using this.symm
  unfold nearestEven
  rw [hfract, hfloor, if_neg hhigh.not_gt]
  simp

/-- What is above a half is not rounded to zero. -/
theorem nearestEven_pos (h : 1 / 2 < x) : 0 < nearestEven x := by
  have hlow := (abs_le.mp (abs_nearestEven_sub_le x)).1
  have : (0 : K) < nearestEven x := by linarith
  exact_mod_cast this

end RoundingLib
