import Mathlib.Data.Set.Finite.Lemmas
import Mathlib.Data.Set.Finite.List
import Mathlib.Order.Bounds.Basic
import TempleConsign.Lib.Rounding
import TempleConsign.Lib.WeightedMean
import TempleConsign.Scoring

/-!
# The overall score

`calculate_overall` (`src/api/services/scoring_service.py` line 46) is a weighted mean
that is rounded to cents, and its docstring (lines 12–18) gives the interval of each band
in cents. The results are about exact arithmetic, where `Decimal(str(x))` is `x`.

Results:
* `overall_eq`: the overall score is the rounded mean, so that the clamp does nothing.
* `overall_mem_Icc`: it lies between the rounded scores of positive weight.
* `exists_band`: its band is the one whose documented interval contains it.
* `calculateOverall_weightedMean`: all of it, with what the score does not depend on.
-/

namespace TempleConsign

open MeanLib RoundingLib

/-! ## Components and bands -/

/-- What the form sends: scores on the scale and no negative weight, not all of them
    zero. -/
structure Scored (l : List (ℚ × ℚ)) : Prop where
  score : ∀ e ∈ l, 0 ≤ e.1 ∧ e.1 ≤ 5
  weight : ∀ e ∈ l, 0 ≤ e.2
  total : 0 < weightOf l

/-- The scores that count. -/
def countedScores (l : List (ℚ × ℚ)) : Set ℚ := {s | ∃ w, 0 < w ∧ (s, w) ∈ l}

/-- A documented band, with its least and its greatest score in cents. -/
structure ScoreBand where
  low : ℤ
  high : ℤ
  label : String
  deriving DecidableEq

/-- The bands of the docstring (lines 13–18). -/
def documentedBands : List ScoreBand :=
  [⟨450, 500, "Premium resale-ready"⟩,
    ⟨375, 449, "Strong resale candidate"⟩,
    ⟨300, 374, "Usable with value deductions"⟩,
    ⟨200, 299, "Heavy discount / repair candidate"⟩,
    ⟨100, 199, "Project, salvage, or parts-biased"⟩,
    ⟨0, 99, "Insufficient data"⟩]

def ScoreBand.Contains (b : ScoreBand) (overall : ℚ) : Prop :=
  (b.low : ℚ) ≤ overall * 100 ∧ overall * 100 ≤ b.high

/-- The result for components of exact numbers. -/
abbrev exactOverall (l : List (ℚ × ℚ)) : ScoringResult := calculateOverall exactArith l

/-! ## The score -/

variable {l l' : List (ℚ × ℚ)}

theorem quantize_eq {q : ℚ} (hq : 0 ≤ q) : quantize q = roundHalfUp 100 q := by
  unfold quantize roundHalfUp
  rw [if_pos hq, Nat.cast_ofNat]

theorem Scored.mean_mem (hl : Scored l) : 0 ≤ mean l ∧ mean l ≤ 5 := by
  constructor
  · exact le_mean hl.total hl.weight fun e he _ => (hl.score e he).1
  · exact mean_le hl.total hl.weight fun e he _ => (hl.score e he).2

/-- The rounded mean is a number of cents on the scale. -/
theorem Scored.exists_cents (hl : Scored l) :
    ∃ k : ℤ, roundHalfUp 100 (mean l) = k / 100 ∧ 0 ≤ k ∧ k ≤ 500 := by
  obtain ⟨hlow, hhigh⟩ := roundHalfUp_mem_Icc (n := 100) (x := mean l) (a := 0) (b := 500)
    (by norm_num) (by simpa using hl.mean_mem.1) (by norm_num; exact hl.mean_mem.2)
  refine ⟨⌊mean l * 100 + 1 / 2⌋, ?_, ?_, ?_⟩
  · simp [roundHalfUp]
  · have h : (0 : ℚ) ≤ ⌊mean l * 100 + 1 / 2⌋ / 100 := by simpa [roundHalfUp] using hlow
    have : (0 : ℚ) ≤ ⌊mean l * 100 + 1 / 2⌋ := by linarith
    exact_mod_cast this
  · have h : (⌊mean l * 100 + 1 / 2⌋ : ℚ) / 100 ≤ 500 / 100 := by
      simpa [roundHalfUp] using hhigh
    have : (⌊mean l * 100 + 1 / 2⌋ : ℚ) ≤ 500 := by linarith
    exact_mod_cast this

/-- The result, without the cases that the schema and the weights exclude. -/
theorem Scored.exactOverall_eq (hl : Scored l) :
    exactOverall l =
      { overall := roundHalfUp 100 (mean l)
        band := bandOf (roundHalfUp 100 (mean l))
        weightNormalized :=
          !(decide (199 / 2 ≤ weightOf l) && decide (weightOf l ≤ 201 / 2)) } := by
  obtain ⟨k, hk, hlow, hhigh⟩ := hl.exists_cents
  have hne : l.isEmpty = false := by
    obtain ⟨e, he, -⟩ := exists_pos_weight hl.total
    rw [List.isEmpty_eq_false_iff_exists_mem]
    exact ⟨e, he⟩
  have hclamp : max 0 (min 5 (roundHalfUp 100 (mean l))) = roundHalfUp 100 (mean l) := by
    have h0 : (0 : ℚ) ≤ k := by exact_mod_cast hlow
    have h5 : (k : ℚ) ≤ 500 := by exact_mod_cast hhigh
    rw [hk, min_eq_right (by linarith), max_eq_right (by linarith)]
  have hround := quantize_eq hl.mean_mem.1
  have htotal := hl.total.ne'
  simp only [mean, weightOf, weightedSum] at hclamp hround htotal ⊢
  simp only [exactOverall, calculateOverall, exactArith, hne, htotal, hround, hclamp,
    decide_false, Bool.false_eq_true, if_false]
  rfl

theorem overall_eq (hl : Scored l) : (exactOverall l).overall = roundHalfUp 100 (mean l) := by
  rw [hl.exactOverall_eq]

/-- The least and the greatest of the scores that count bound the overall score. -/
theorem overall_mem_Icc (hl : Scored l) {low high : ℚ} (hlow : IsLeast (countedScores l) low)
    (hhigh : IsGreatest (countedScores l) high) :
    roundHalfUp 100 low ≤ (exactOverall l).overall ∧
      (exactOverall l).overall ≤ roundHalfUp 100 high := by
  rw [overall_eq hl]
  constructor
  · exact roundHalfUp_mono (le_mean hl.total hl.weight fun e he hpos => hlow.2 ⟨e.2, hpos, he⟩)
  · exact roundHalfUp_mono (mean_le hl.total hl.weight fun e he hpos => hhigh.2 ⟨e.2, hpos, he⟩)

/-- Some score counts, so that there is a least and a greatest one. -/
theorem Scored.exists_bounds (hl : Scored l) :
    ∃ low high, IsLeast (countedScores l) low ∧ IsGreatest (countedScores l) high := by
  have hfinite : Set.Finite (countedScores l) := by
    apply Set.Finite.subset (List.finite_toSet (l.map Prod.fst))
    rintro s ⟨w, -, hmem⟩
    exact List.mem_map.mpr ⟨(s, w), hmem, rfl⟩
  have hne : Set.Nonempty (countedScores l) := by
    obtain ⟨e, he, hpos⟩ := exists_pos_weight hl.total
    exact ⟨e.1, e.2, hpos, he⟩
  obtain ⟨low, hlow, hleast⟩ := Set.exists_min_image _ id hfinite hne
  obtain ⟨high, hhigh, hgreatest⟩ := Set.exists_max_image _ id hfinite hne
  exact ⟨low, high, ⟨hlow, hleast⟩, ⟨hhigh, hgreatest⟩⟩

theorem Scored.perm (hl : Scored l) (h : l.Perm l') : Scored l' where
  score e he := hl.score e (h.mem_iff.mpr he)
  weight e he := hl.weight e (h.mem_iff.mpr he)
  total := weightOf_perm h ▸ hl.total

theorem Scored.scale {c : ℚ} (hl : Scored l) (hc : 0 < c) : Scored (scale c l) where
  score x hx := by
    obtain ⟨e, he, rfl⟩ := List.mem_map.mp hx
    exact hl.score e he
  weight x hx := by
    obtain ⟨e, he, rfl⟩ := List.mem_map.mp hx
    exact mul_nonneg hc.le (hl.weight e he)
  total := by
    rw [weightOf_scale]
    exact mul_pos hc hl.total

theorem Scored.cons_zero {s : ℚ} (hl : Scored l) (hs0 : 0 ≤ s) (hs5 : s ≤ 5) :
    Scored ((s, 0) :: l) where
  score e he := by
    rcases List.mem_cons.mp he with rfl | he
    · exact ⟨hs0, hs5⟩
    · exact hl.score e he
  weight e he := by
    rcases List.mem_cons.mp he with rfl | he
    · exact le_refl _
    · exact hl.weight e he
  total := by
    rw [weightOf_cons, zero_add]
    exact hl.total

theorem Scored.raised (hl : Scored l) (h : Raised l l') (hscale : ∀ e ∈ l', e.1 ≤ 5) :
    Scored l' where
  score e' he' := by
    obtain ⟨e, he, hle, -⟩ := h.exists_of_mem he'
    exact ⟨(hl.score e he).1.trans hle, hscale e' he'⟩
  weight e' he' := by
    obtain ⟨e, he, -, heq⟩ := h.exists_of_mem he'
    exact heq ▸ hl.weight e he
  total := h.weightOf_eq ▸ hl.total

/-! ## The band -/

theorem bandOf_cents (k : ℤ) :
    bandOf (k / 100) =
      if 450 ≤ k then "Premium resale-ready"
      else if 375 ≤ k then "Strong resale candidate"
      else if 300 ≤ k then "Usable with value deductions"
      else if 200 ≤ k then "Heavy discount / repair candidate"
      else if 100 ≤ k then "Project, salvage, or parts-biased"
      else if 0 ≤ k then "Insufficient data"
      else "salvage" := by
  have hle (t : ℚ) (c : ℤ) (ht : t = c / 100) : decide (t ≤ (k : ℚ) / 100) = decide (c ≤ k) := by
    rw [ht, decide_eq_decide, div_le_div_iff_of_pos_right (by norm_num), Int.cast_le]
  unfold bandOf scoreBands
  simp only [List.find?_cons, hle (9 / 2) 450 (by norm_num), hle (15 / 4) 375 (by norm_num),
    hle 3 300 (by norm_num), hle 2 200 (by norm_num), hle 1 100 (by norm_num),
    hle 0 0 (by norm_num), List.find?_nil]
  split_ifs
  all_goals simp only [*, decide_true, decide_false, Option.map_some, Option.map_none,
    Option.getD_some, Option.getD_none]

theorem ScoreBand.contains_cents {b : ScoreBand} {k : ℤ} :
    b.Contains (k / 100) ↔ b.low ≤ k ∧ k ≤ b.high := by
  unfold ScoreBand.Contains
  rw [div_mul_cancel₀ _ (by norm_num), Int.cast_le, Int.cast_le]

/-- No number of cents is in two of the intervals. -/
theorem documentedBands_apart : ∀ b ∈ documentedBands, ∀ b' ∈ documentedBands,
    b' = b ∨ b.high < b'.low ∨ b'.high < b.low := by decide

theorem band_unique {b b' : ScoreBand} {k : ℤ} (hb : b ∈ documentedBands)
    (hb' : b' ∈ documentedBands) (h : b.low ≤ k ∧ k ≤ b.high) (h' : b'.low ≤ k ∧ k ≤ b'.high) :
    b' = b := by
  rcases documentedBands_apart b hb b' hb' with heq | habove | hbelow
  · exact heq
  · omega
  · omega

/-- Every score on the scale is in the interval of its band. -/
theorem exists_band {k : ℤ} (hlow : 0 ≤ k) (hhigh : k ≤ 500) :
    ∃ b ∈ documentedBands, b.Contains (k / 100) ∧ bandOf (k / 100) = b.label ∧
      ∀ b' ∈ documentedBands, b'.Contains (k / 100) → b' = b := by
  have hcover : ∃ b ∈ documentedBands, (b.low ≤ k ∧ k ≤ b.high) ∧ bandOf (k / 100) = b.label := by
    rw [bandOf_cents]
    unfold documentedBands
    simp only [List.exists_mem_cons_iff, List.not_mem_nil, false_and, exists_false, or_false]
    split_ifs
    all_goals simp
    all_goals omega
  obtain ⟨b, hb, hin, hlabel⟩ := hcover
  refine ⟨b, hb, ScoreBand.contains_cents.mpr hin, hlabel, fun b' hb' hin' => ?_⟩
  exact band_unique hb hb' hin (ScoreBand.contains_cents.mp hin')

/-! ## The weighted mean -/

/-- For every list of components with scores in `[0, 5]` and weights that are not negative
    and not all zero: the overall score is the weighted mean, rounded half up to cents,
    and lies between the rounded least and greatest scores of positive weight; neither the
    order nor a common factor of the weights nor a component without weight changes it,
    and no raised score lowers it; its band is the one documented interval that contains
    it, never the initial label of the loop; and the flag says whether the weights miss
    100 by more than a half. -/
theorem calculateOverall_weightedMean (l : List (ℚ × ℚ)) (hl : Scored l) :
    (exactOverall l).overall = roundHalfUp 100 (mean l) ∧
    (∃ low high, IsLeast (countedScores l) low ∧ IsGreatest (countedScores l) high ∧
      roundHalfUp 100 low ≤ (exactOverall l).overall ∧
      (exactOverall l).overall ≤ roundHalfUp 100 high) ∧
    (∀ l', l.Perm l' → exactOverall l' = exactOverall l) ∧
    (∀ c, 0 < c → (exactOverall (scale c l)).overall = (exactOverall l).overall ∧
      (exactOverall (scale c l)).band = (exactOverall l).band) ∧
    (∀ s l', 0 ≤ s → s ≤ 5 → ((s, 0) :: l).Perm l' → exactOverall l' = exactOverall l) ∧
    (∀ l', Raised l l' → (∀ e ∈ l', e.1 ≤ 5) →
      (exactOverall l).overall ≤ (exactOverall l').overall) ∧
    (∃ b ∈ documentedBands, b.Contains (exactOverall l).overall ∧
      (exactOverall l).band = b.label ∧
      ∀ b' ∈ documentedBands, b'.Contains (exactOverall l).overall → b' = b) ∧
    (exactOverall l).band ≠ "salvage" ∧
    ((exactOverall l).weightNormalized = true ↔
      ¬ (199 / 2 ≤ weightOf l ∧ weightOf l ≤ 201 / 2)) := by
  refine ⟨overall_eq hl, ?_, fun l' hperm => ?_, fun c hc => ?_, fun s l' hs0 hs5 hperm => ?_,
    fun l' hraised hscale => ?_, ?_, ?_, ?_⟩
  · obtain ⟨low, high, hlow, hhigh⟩ := hl.exists_bounds
    exact ⟨low, high, hlow, hhigh, overall_mem_Icc hl hlow hhigh⟩
  · have hl' := hl.perm hperm
    rw [hl.exactOverall_eq, hl'.exactOverall_eq, mean_perm hperm, weightOf_perm hperm]
  · have hl' := hl.scale hc
    rw [hl.exactOverall_eq, hl'.exactOverall_eq, mean_scale hc.ne']
    exact ⟨rfl, rfl⟩
  · have hl' := (hl.cons_zero hs0 hs5).perm hperm
    rw [hl.exactOverall_eq, hl'.exactOverall_eq, ← mean_perm hperm, ← weightOf_perm hperm,
      mean_cons_zero, weightOf_cons, zero_add]
  · have hl' := hl.raised hraised hscale
    rw [overall_eq hl, overall_eq hl']
    exact roundHalfUp_mono (mean_mono hraised hl.weight)
  · obtain ⟨k, hk, hlow, hhigh⟩ := hl.exists_cents
    rw [hl.exactOverall_eq, hk]
    exact exists_band hlow hhigh
  · intro hsalvage
    have hmem := calculateOverall_band exactArith l
    rw [hsalvage] at hmem
    exact absurd hmem (by decide)
  · rw [hl.exactOverall_eq, Bool.not_eq_true', ← Bool.not_eq_true, Bool.and_eq_true,
      decide_eq_true_eq, decide_eq_true_eq]

/-- A report of three components, the third without a weight. -/
theorem calculateOverall_weightedMean_halves :
    Scored [(5, 30), (4, 70), (1, 0)] ∧
      (exactOverall [(5, 30), (4, 70), (1, 0)]).overall = roundHalfUp 100 (43 / 10) := by
  have hl : Scored [(5, 30), (4, 70), (1, 0)] := by
    refine ⟨?_, ?_, ?_⟩
    all_goals simp
    all_goals norm_num
  refine ⟨hl, ?_⟩
  rw [(calculateOverall_weightedMean _ hl).1]
  congr 1
  norm_num [mean]

end TempleConsign
