import Mathlib.Algebra.BigOperators.Ring.List
import Mathlib.Algebra.Order.BigOperators.Group.List
import Mathlib.Algebra.Order.Field.Basic
import Mathlib.Data.List.Forall2
import Mathlib.Tactic.Linarith
import Mathlib.Tactic.Ring

/-!
# Weighted means

The mean of a list of values, each with its weight.

Results:
* `mean_perm`, `mean_scale`, `mean_cons_zero`: what the mean does not depend on.
* `mean_le`, `le_mean`: it lies between the values of positive weight.
* `mean_mono`: it grows with each value.
-/

namespace MeanLib

variable {K : Type*} [Field K]

/-- The sum of the weights. -/
def weightOf (l : List (K × K)) : K := (l.map Prod.snd).sum

/-- The sum of the values, each times its weight. -/
def weightedSum (l : List (K × K)) : K := (l.map fun e => e.1 * e.2).sum

def mean (l : List (K × K)) : K := weightedSum l / weightOf l

/-- The same values with all weights times `c`. -/
def scale (c : K) (l : List (K × K)) : List (K × K) := l.map fun e => (e.1, c * e.2)

variable {l l' : List (K × K)} {b c s : K} {e : K × K}

@[simp] theorem weightOf_nil : weightOf ([] : List (K × K)) = 0 := rfl

@[simp] theorem weightOf_cons : weightOf (e :: l) = e.2 + weightOf l := by simp [weightOf]

@[simp] theorem weightedSum_nil : weightedSum ([] : List (K × K)) = 0 := rfl

@[simp] theorem weightedSum_cons : weightedSum (e :: l) = e.1 * e.2 + weightedSum l := by
  simp [weightedSum]

theorem weightOf_perm (h : l.Perm l') : weightOf l = weightOf l' := (h.map _).sum_eq

theorem mean_perm (h : l.Perm l') : mean l = mean l' := by
  have hsum : weightedSum l = weightedSum l' := (h.map _).sum_eq
  rw [mean, mean, hsum, weightOf_perm h]

theorem weightOf_scale : weightOf (scale c l) = c * weightOf l := by
  simp only [weightOf, scale, List.map_map, Function.comp_def, List.sum_map_mul_left]

theorem weightedSum_scale : weightedSum (scale c l) = c * weightedSum l := by
  simp only [weightedSum, scale, List.map_map, Function.comp_def, mul_left_comm _ c,
    List.sum_map_mul_left]

theorem mean_scale (hc : c ≠ 0) : mean (scale c l) = mean l := by
  rw [mean, weightOf_scale, weightedSum_scale, mul_div_mul_left _ _ hc, mean]

theorem mean_cons_zero : mean ((s, 0) :: l) = mean l := by simp [mean]

/-- The values with the other sign. -/
def negate (l : List (K × K)) : List (K × K) := l.map fun e => (-e.1, e.2)

theorem weightOf_negate : weightOf (negate l) = weightOf l := by
  simp [weightOf, negate, Function.comp_def]

theorem weightedSum_negate : weightedSum (negate l) = -weightedSum l := by
  induction l with
  | nil => simp [negate]
  | cons e l ih =>
    have hcons : negate (e :: l) = (-e.1, e.2) :: negate l := rfl
    rw [hcons, weightedSum_cons, weightedSum_cons, ih]
    ring

variable [LinearOrder K]

/-- `l'` has the weights of `l` and no value below that of `l`. -/
def Raised (l l' : List (K × K)) : Prop := List.Forall₂ (fun e e' => e.1 ≤ e'.1 ∧ e.2 = e'.2) l l'

omit [Field K] in
/-- An entry of the raised list has the weight and at least the value of one of the
    other. -/
theorem Raised.exists_of_mem {e' : K × K} (h : Raised l l') (he' : e' ∈ l') :
    ∃ e ∈ l, e.1 ≤ e'.1 ∧ e.2 = e'.2 := by
  induction h with
  | nil => cases he'
  | cons hhead _ ih =>
    rcases List.mem_cons.mp he' with rfl | he'
    · exact ⟨_, List.mem_cons_self, hhead⟩
    · obtain ⟨e, he, hle⟩ := ih he'
      exact ⟨e, List.mem_cons_of_mem _ he, hle⟩

theorem Raised.weightOf_eq (h : Raised l l') : weightOf l = weightOf l' := by
  induction h with
  | nil => rfl
  | cons he _ ih => rw [weightOf_cons, weightOf_cons, he.2, ih]

variable [IsStrictOrderedRing K]

theorem weightOf_nonneg (hw : ∀ e ∈ l, 0 ≤ e.2) : 0 ≤ weightOf l := by
  apply List.sum_nonneg
  intro w h
  obtain ⟨e, he, rfl⟩ := List.mem_map.mp h
  exact hw e he

/-- With a positive sum one of the weights is positive. -/
theorem exists_pos_weight (hl : 0 < weightOf l) : ∃ e ∈ l, 0 < e.2 := by
  by_contra hnone
  push Not at hnone
  have hsum : (l.map Prod.snd).sum ≤ (l.map fun _ => (0 : K)).sum := List.sum_le_sum hnone
  rw [List.sum_map_zero] at hsum
  exact absurd hl hsum.not_gt

theorem weightedSum_le (hw : ∀ e ∈ l, 0 ≤ e.2) (hb : ∀ e ∈ l, 0 < e.2 → e.1 ≤ b) :
    weightedSum l ≤ b * weightOf l := by
  induction l with
  | nil => simp
  | cons e l ih =>
    have htail := ih (fun x hx => hw x (List.mem_cons_of_mem e hx))
      (fun x hx => hb x (List.mem_cons_of_mem e hx))
    have hhead : e.1 * e.2 ≤ b * e.2 := by
      rcases (hw e List.mem_cons_self).eq_or_lt with hzero | hpos
      · simp [← hzero]
      · exact mul_le_mul_of_nonneg_right (hb e List.mem_cons_self hpos) hpos.le
    rw [weightedSum_cons, weightOf_cons, mul_add]
    exact add_le_add hhead htail

theorem le_weightedSum (hw : ∀ e ∈ l, 0 ≤ e.2) (hb : ∀ e ∈ l, 0 < e.2 → b ≤ e.1) :
    b * weightOf l ≤ weightedSum l := by
  have h : weightedSum (negate l) ≤ -b * weightOf (negate l) := by
    apply weightedSum_le
    · intro x hx
      obtain ⟨e, he, rfl⟩ := List.mem_map.mp hx
      exact hw e he
    · intro x hx hpos
      obtain ⟨e, he, rfl⟩ := List.mem_map.mp hx
      exact neg_le_neg (hb e he hpos)
  rw [weightedSum_negate, weightOf_negate] at h
  linarith

theorem mean_le (hl : 0 < weightOf l) (hw : ∀ e ∈ l, 0 ≤ e.2)
    (hb : ∀ e ∈ l, 0 < e.2 → e.1 ≤ b) : mean l ≤ b :=
  (div_le_iff₀ hl).mpr (weightedSum_le hw hb)

theorem le_mean (hl : 0 < weightOf l) (hw : ∀ e ∈ l, 0 ≤ e.2)
    (hb : ∀ e ∈ l, 0 < e.2 → b ≤ e.1) : b ≤ mean l :=
  (le_div_iff₀ hl).mpr (le_weightedSum hw hb)

theorem Raised.weightedSum_le (h : Raised l l') (hw : ∀ e ∈ l, 0 ≤ e.2) :
    weightedSum l ≤ weightedSum l' := by
  induction h with
  | nil => exact le_refl _
  | @cons e e' t t' he _ ih =>
    have htail := ih fun x hx => hw x (List.mem_cons_of_mem e hx)
    have hhead : e.1 * e.2 ≤ e'.1 * e'.2 := by
      rw [← he.2]
      exact mul_le_mul_of_nonneg_right he.1 (hw e List.mem_cons_self)
    rw [weightedSum_cons, weightedSum_cons]
    exact add_le_add hhead htail

theorem mean_mono (h : Raised l l') (hw : ∀ e ∈ l, 0 ≤ e.2) : mean l ≤ mean l' := by
  rw [mean, mean, ← h.weightOf_eq]
  exact div_le_div_of_nonneg_right (h.weightedSum_le hw) (weightOf_nonneg hw)

end MeanLib
