import TempleConsign.OverallScore

/-!
# The scores of the printed report

`_build_component_rows` (`src/api/services/report_data_service.py` line 223) multiplies a
score by its weight, and the table of `src/api/templates/pdf/appraisal_report.html.j2`
(line 173) prints the weight times 100, as if it were a fraction. But
`weight_at_time_of_scoring` is the `weight_pct` of the component
(`src/api/services/appraisal_submission_service.py` line 304), a percentage, and
`calculate_overall` divides by the sum of the weights.

Results:
* `printsPercentages_iff`: the weights that are printed as they are.
* `contribution_eq_zero`: rows of such weights contribute nothing.
* `addsUp_iff`: the table is right only for weights that all print as zero.
-/

namespace TempleConsign

open MeanLib RoundingLib

/-! ## The rows of the report -/

/-- A row of `component_scores` with the name of its component: a score on the scale and a
    weight as `NUMERIC(6, 4)`. -/
structure ScoredComponent where
  name : Option String
  rawScore : ℚ
  weight : ℚ
  score_mem : 0 ≤ rawScore ∧ rawScore ≤ 5
  weight_stored : ∃ k : ℕ, weight = k / 10000

/-- `ComponentScoreRow` (`src/api/schemas/report.py` line 12). -/
structure ComponentScoreRow where
  componentName : String
  rawScore : ℚ
  weightPct : ℚ
  weightedContribution : ℚ

/-- A round of `_build_component_rows` (line 223); `quantize` rounds half to even. -/
def buildComponentRow (cs : ScoredComponent) : ComponentScoreRow where
  componentName := cs.name.getD "Unknown"
  rawScore := cs.rawScore
  weightPct := cs.weight
  weightedContribution := roundHalfEven 100 (cs.rawScore * cs.weight)

def buildComponentRows (scores : List ScoredComponent) : List ComponentScoreRow :=
  scores.map buildComponentRow

/-- `(row.weight_pct * 100) | round(1)` (template, line 177). -/
def ComponentScoreRow.printedWeight (row : ComponentScoreRow) : ℚ :=
  roundHalfEven 10 (row.weightPct * 100)

/-- The scores and weights, as `calculate_overall` gets them. -/
def ScoredComponent.entry (cs : ScoredComponent) : ℚ × ℚ := (cs.rawScore, cs.weight)

variable {F : Type}

/-- The overall score of a submission with these components. -/
def overallOf (A : FloatArith F) (scores : List ScoredComponent) : ℚ :=
  (calculateOverall A (scores.map fun cs =>
    (A.ofDecimal cs.rawScore, A.ofDecimal cs.weight))).overall

/-- The contributions sum to the overall score, up to half a cent for each row and for the
    overall score. -/
def ContributionsAddUp (rows : List ComponentScoreRow) (overall : ℚ) : Prop :=
  |(rows.map ComponentScoreRow.weightedContribution).sum - overall| ≤ (rows.length + 1) / 200

/-- Each weight is printed as a percentage, with one decimal. -/
def PrintsPercentages (rows : List ComponentScoreRow) : Prop :=
  ∀ row ∈ rows, row.printedWeight = roundHalfEven 10 row.weightPct ∧
    0 ≤ row.printedWeight ∧ row.printedWeight ≤ 100

/-! ## The weights -/

variable {scores : List ScoredComponent}

/-- A weight prints as itself only where both print as zero. -/
theorem printed_eq_iff (k : ℕ) :
    roundHalfEven 10 ((k / 10000 : ℚ) * 100) = roundHalfEven 10 (k / 10000 : ℚ) ↔ k ≤ 5 := by
  have hten : ((10 : ℕ) : ℚ) ≠ 0 := by norm_num
  unfold roundHalfEven
  rw [div_left_inj' hten, Int.cast_inj]
  constructor
  · intro h
    by_contra hk
    have hkq : (6 : ℚ) ≤ k := by exact_mod_cast Nat.lt_of_not_le hk
    have hpos : 0 < nearestEven ((k / 10000 : ℚ) * 100 * (10 : ℕ)) := by
      apply nearestEven_pos
      push_cast
      linarith
    by_cases hsmall : k ≤ 500
    · have hkq' : (k : ℚ) ≤ 500 := by exact_mod_cast hsmall
      have hzero : nearestEven ((k / 10000 : ℚ) * (10 : ℕ)) = 0 := by
        apply nearestEven_eq_zero
        · positivity
        · push_cast
          linarith
      omega
    · have hkq' : (501 : ℚ) ≤ k := by exact_mod_cast Nat.lt_of_not_le hsmall
      have hlarge := abs_le.mp (abs_nearestEven_sub_le ((k / 10000 : ℚ) * 100 * (10 : ℕ)))
      have hless := abs_le.mp (abs_nearestEven_sub_le ((k / 10000 : ℚ) * (10 : ℕ)))
      rw [h] at hlarge
      push_cast at hlarge hless
      linarith [hlarge.1, hless.2]
  · intro hk
    have hkq : (k : ℚ) ≤ 5 := by exact_mod_cast hk
    have hnonneg : (0 : ℚ) ≤ k := Nat.cast_nonneg k
    rw [nearestEven_eq_zero, nearestEven_eq_zero]
    · positivity
    · push_cast
      linarith
    · positivity
    · push_cast
      linarith

theorem overallOf_mem (A : FloatArith F) (scores : List ScoredComponent) :
    0 ≤ overallOf A scores ∧ overallOf A scores ≤ 5 := by
  unfold overallOf calculateOverall
  dsimp only
  split_ifs
  · exact ⟨le_refl _, by norm_num [insufficientData]⟩
  · exact ⟨le_refl _, by norm_num [insufficientData]⟩
  · exact ⟨le_max_left _ _, max_le (by norm_num) (min_le_left _ _)⟩

/-- The weights that print as themselves are as good as none. -/
theorem printsPercentages_iff :
    PrintsPercentages (buildComponentRows scores) ↔ ∀ cs ∈ scores, cs.weight ≤ 5 / 10000 := by
  have hsmall {cs : ScoredComponent} {k : ℕ} (hk : cs.weight = k / 10000) :
      cs.weight ≤ 5 / 10000 ↔ k ≤ 5 := by
    rw [hk, div_le_div_iff_of_pos_right (by norm_num)]
    norm_cast
  unfold PrintsPercentages buildComponentRows
  rw [List.forall_mem_map]
  refine forall₂_congr fun cs _ => ?_
  obtain ⟨k, hk⟩ := cs.weight_stored
  rw [hsmall hk]
  have hprinted : (buildComponentRow cs).printedWeight =
      roundHalfEven 10 ((k / 10000 : ℚ) * 100) := by
    rw [← hk]
    rfl
  have hweight : (buildComponentRow cs).weightPct = k / 10000 := hk
  rw [hprinted, hweight, printed_eq_iff]
  refine ⟨fun h => h.1, fun h => ⟨h, ?_⟩⟩
  have hkq : (k : ℚ) ≤ 5 := by exact_mod_cast h
  have hzero : nearestEven ((k / 10000 : ℚ) * 100 * (10 : ℕ)) = 0 := by
    apply nearestEven_eq_zero
    · positivity
    · push_cast
      linarith
  rw [roundHalfEven, hzero]
  norm_num

/-- Components of such weights contribute nothing. -/
theorem contribution_eq_zero {cs : ScoredComponent} (h : cs.weight ≤ 5 / 10000) :
    (buildComponentRow cs).weightedContribution = 0 := by
  obtain ⟨k, hk⟩ := cs.weight_stored
  have hnonneg : 0 ≤ cs.weight := by
    rw [hk]
    positivity
  have hlow : 0 ≤ cs.rawScore * cs.weight := mul_nonneg cs.score_mem.1 hnonneg
  have hhigh : cs.rawScore * cs.weight ≤ 5 * (5 / 10000) :=
    mul_le_mul cs.score_mem.2 h hnonneg (by norm_num)
  have hzero : nearestEven (cs.rawScore * cs.weight * (100 : ℕ)) = 0 := by
    apply nearestEven_eq_zero
    · positivity
    · push_cast
      linarith
  unfold buildComponentRow roundHalfEven
  dsimp only
  rw [hzero]
  norm_num

theorem weightOf_le_length {w : ℚ} (h : ∀ cs ∈ scores, cs.weight ≤ w) :
    weightOf (scores.map ScoredComponent.entry) ≤ scores.length * w := by
  rw [weightOf, List.map_map]
  calc (scores.map (Prod.snd ∘ ScoredComponent.entry)).sum
      ≤ (scores.map fun _ => w).sum := List.sum_le_sum h
    _ = scores.length * w := by rw [List.map_const', List.sum_replicate, nsmul_eq_mul]

/-- For every submission whose weights sum to 100, whatever the floats of its overall score
    do: the table adds up and prints the weights as they are exactly when no weight is
    above 0.0005, so that it has two hundred thousand rows of zeros. -/
theorem addsUp_iff (A : FloatArith F) (scores : List ScoredComponent)
    (hsum : weightOf (scores.map ScoredComponent.entry) = 100) :
    (ContributionsAddUp (buildComponentRows scores) (overallOf A scores) ∧
      PrintsPercentages (buildComponentRows scores)) ↔
      ∀ cs ∈ scores, cs.weight ≤ 5 / 10000 := by
  refine ⟨fun h => printsPercentages_iff.mp h.2, fun h => ⟨?_, printsPercentages_iff.mpr h⟩⟩
  have hlength := weightOf_le_length h
  rw [hsum] at hlength
  have hzero : ((buildComponentRows scores).map
      ComponentScoreRow.weightedContribution).sum = 0 := by
    apply List.sum_eq_zero
    intro x hx
    rw [buildComponentRows, List.map_map, List.mem_map] at hx
    obtain ⟨cs, hcs, rfl⟩ := hx
    exact contribution_eq_zero (h cs hcs)
  obtain ⟨hlow, hhigh⟩ := overallOf_mem A scores
  unfold ContributionsAddUp
  rw [hzero, zero_sub, abs_neg, abs_of_nonneg hlow, buildComponentRows, List.length_map]
  linarith

/-- A machine with two components, both scored 4. -/
def twoComponents : List ScoredComponent :=
  [⟨some "Engine", 4, 60, by norm_num, 600000, by norm_num⟩,
    ⟨some "Undercarriage", 4, 40, by norm_num, 400000, by norm_num⟩]

/-- The sum of its weights is 100, and the table is wrong. -/
theorem addsUp_iff_twoComponents :
    ¬ (ContributionsAddUp (buildComponentRows twoComponents) (overallOf exactArith twoComponents) ∧
      PrintsPercentages (buildComponentRows twoComponents)) := by
  rw [addsUp_iff exactArith twoComponents (by norm_num [twoComponents, ScoredComponent.entry])]
  intro h
  have := h _ List.mem_cons_self
  norm_num at this

/-- Weights that sum to 100 are printed as 6000% and 4000%. -/
theorem twoComponents_misprinted :
    ¬ ∀ (A : FloatArith ℚ) (scores : List ScoredComponent),
      weightOf (scores.map ScoredComponent.entry) = 100 →
        ContributionsAddUp (buildComponentRows scores) (overallOf A scores) ∧
          PrintsPercentages (buildComponentRows scores) := by
  intro h
  have hrows := (h exactArith twoComponents
    (by norm_num [twoComponents, ScoredComponent.entry])).2
  have hengine := (hrows (buildComponentRow ⟨some "Engine", 4, 60, by norm_num, 600000,
    by norm_num⟩) List.mem_cons_self).2.2
  have hprinted : (buildComponentRow ⟨some "Engine", 4, 60, by norm_num, 600000,
      by norm_num⟩).printedWeight = 6000 := by decide +kernel
  rw [hprinted] at hengine
  norm_num at hengine

end TempleConsign
