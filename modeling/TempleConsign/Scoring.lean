import Mathlib.Data.Rat.Floor
import TempleConsign.Database

/-!
# Scores and bands

Model of `src/api/services/scoring_service.py` and of `recalculateScore`
(`src/ios/TempleHEAppraiser/Form/DynamicFormView.swift` line 70). Both compute
with binary floats, whose arithmetic is a parameter: no result here depends on
how they round.

Results:
* `calculateOverall_band`: the server stores one of its own labels.
* `scoreBandLabel_mem`: the phone shows one of its own.
* `bands_disjoint`: no label is of both.
-/

namespace TempleConsign

/-! ## Floats -/

/-- Binary floats: `ofDecimal` is `float` of a decimal and `toDecimal` is
    `Decimal(str(x))`; `sum` is Python's built-in, `rounded` Swift's. -/
structure FloatArith (F : Type) where
  ofDecimal : ℚ → F
  toDecimal : F → ℚ
  add : F → F → F
  mul : F → F → F
  div : F → F → F
  sum : List F → F
  rounded : F → F
  eq : F → F → Bool
  le : F → F → Bool
  lt : F → F → Bool

/-- Arithmetic without rounding, for concrete runs. -/
def exactArith : FloatArith ℚ where
  ofDecimal q := q
  toDecimal q := q
  add := (· + ·)
  mul := (· * ·)
  div := (· / ·)
  sum := List.sum
  rounded q := if 0 ≤ q then ⌊q + 1 / 2⌋ else -⌊-q + 1 / 2⌋
  eq a b := a = b
  le a b := a ≤ b
  lt a b := a < b

/-- `q.quantize(Decimal("0.01"), rounding=ROUND_HALF_UP)`. -/
def quantize (q : ℚ) : ℚ :=
  if 0 ≤ q then (⌊q * 100 + 1 / 2⌋ : ℚ) / 100 else -((⌊-q * 100 + 1 / 2⌋ : ℚ) / 100)

/-! ## The server -/

/-- `_SCORE_BANDS` (line 32). -/
def scoreBands : List (ℚ × String) :=
  [(9 / 2, "Premium resale-ready"),
    (15 / 4, "Strong resale candidate"),
    (3, "Usable with value deductions"),
    (2, "Heavy discount / repair candidate"),
    (1, "Project, salvage, or parts-biased"),
    (0, "Insufficient data")]

structure ScoringResult where
  overall : ℚ
  band : String
  weightNormalized : Bool
  deriving DecidableEq

def insufficientData : ScoringResult := ⟨0, "Insufficient data", false⟩

/-- The loop over `_SCORE_BANDS` (line 80). -/
def bandOf (overall : ℚ) : String :=
  ((scoreBands.find? fun b => b.1 ≤ overall).map Prod.snd).getD "salvage"

variable {F : Type}

/-- `calculate_overall` (line 51) on the `(score, weight)` of each component. -/
def calculateOverall (A : FloatArith F) (componentScores : List (F × F)) : ScoringResult :=
  let totalWeight := A.sum (componentScores.map Prod.snd)
  if componentScores.isEmpty then insufficientData
  else if A.eq totalWeight (A.ofDecimal 0) then insufficientData
  else
    let weightedSum := A.sum (componentScores.map fun e => A.mul e.1 e.2)
    let overall := max 0 (min 5 (quantize (A.toDecimal (A.div weightedSum totalWeight))))
    { overall := overall
      band := bandOf overall
      weightNormalized :=
        !(A.le (A.ofDecimal (199 / 2)) totalWeight && A.le totalWeight (A.ofDecimal (201 / 2))) }

/-! ## The phone -/

/-- `IOSConfigComponent` (`Endpoints.swift` line 153); `weight` is `weightDouble`. -/
structure ConfigComponent (F : Type) where
  id : ℕ
  categoryId : ℕ
  displayOrder : ℤ
  weight : F

/-- The score that the form shows. -/
structure ShownScore (F : Type) where
  overallScore : F
  scoreBand : String
  scoreWeightNormalized : Bool

/-- `scoreBandLabel` (line 113). -/
def scoreBandLabel (A : FloatArith F) (score : F) : String :=
  if A.le (A.ofDecimal (9 / 2)) score then "excellent"
  else if A.le (A.ofDecimal (7 / 2)) score then "good"
  else if A.le (A.ofDecimal (5 / 2)) score then "fair"
  else if A.le (A.ofDecimal (3 / 2)) score then "poor"
  else "salvage"

def totalWeight (A : FloatArith F) (components : List (ConfigComponent F)) : F :=
  components.foldl (fun sum c => A.add sum c.weight) (A.ofDecimal 0)

/-- `recalculateScore` (line 70), where `components` are those of the draft's
    category (`none` without one) and `score` looks up a component. -/
def recalculateScore (A : FloatArith F) (components : Option (List (ConfigComponent F)))
    (score : ℕ → Option F) (shown : ShownScore F) : ShownScore F :=
  match components with
  | none => { shown with overallScore := A.ofDecimal 0, scoreBand := "salvage" }
  | some components =>
    if components.isEmpty then
      { shown with overallScore := A.ofDecimal 0, scoreBand := "salvage" }
    else if A.lt (A.ofDecimal 0) (totalWeight A components) then
      let weighted := components.foldl
        (fun sum c => A.add sum (A.mul ((score c.id).getD (A.ofDecimal 0)) c.weight))
        (A.ofDecimal 0)
      let avg := A.div weighted (totalWeight A components)
      let overallScore :=
        A.div (A.rounded (A.mul avg (A.ofDecimal 100))) (A.ofDecimal 100)
      { overallScore := overallScore
        scoreBand := scoreBandLabel A overallScore
        scoreWeightNormalized :=
          !(A.le (A.ofDecimal (199 / 2)) (totalWeight A components) &&
            A.le (totalWeight A components) (A.ofDecimal (201 / 2))) }
    else shown

/-! ## The labels -/

/-- The labels of the phone. -/
def phoneBands : List String := ["excellent", "good", "fair", "poor", "salvage"]

theorem bandOf_mem {overall : ℚ} (h : 0 ≤ overall) :
    bandOf overall ∈ scoreBands.map Prod.snd := by
  unfold bandOf
  cases hfind : scoreBands.find? fun b => b.1 ≤ overall with
  | none =>
    -- the last threshold is zero
    have hlast := List.find?_eq_none.mp hfind (0, "Insufficient data") (by simp [scoreBands])
    exact absurd (decide_eq_true h) hlast
  | some b => exact List.mem_map_of_mem (List.mem_of_find?_eq_some hfind)

theorem calculateOverall_band (A : FloatArith F) (componentScores : List (F × F)) :
    (calculateOverall A componentScores).band ∈ scoreBands.map Prod.snd := by
  have hnone : insufficientData.band ∈ scoreBands.map Prod.snd := by decide
  unfold calculateOverall
  dsimp only
  split_ifs
  · exact hnone
  · exact hnone
  · exact bandOf_mem (le_max_left _ _)

theorem scoreBandLabel_mem (A : FloatArith F) (score : F) :
    scoreBandLabel A score ∈ phoneBands := by
  unfold scoreBandLabel phoneBands
  split_ifs
  all_goals simp

theorem bands_disjoint {band : String} (hs : band ∈ scoreBands.map Prod.snd) :
    band ∉ phoneBands := by
  simp only [scoreBands, List.map_cons, List.map_nil, List.mem_cons, List.not_mem_nil,
    or_false] at hs
  rcases hs with rfl | rfl | rfl | rfl | rfl | rfl
  all_goals decide

/-- The category stops `recalculateScore` before it writes. -/
def StopsRecalculation (A : FloatArith F) (components : Option (List (ConfigComponent F))) :
    Prop :=
  ∃ l, components = some l ∧ l.isEmpty = false ∧ A.lt (A.ofDecimal 0) (totalWeight A l) = false

/-- Where it does not stop, the phone shows a label of its own. -/
theorem recalculateScore_band (A : FloatArith F)
    {components : Option (List (ConfigComponent F))} (score : ℕ → Option F)
    (shown : ShownScore F) (h : ¬ StopsRecalculation A components) :
    (recalculateScore A components score shown).scoreBand ∈ phoneBands := by
  unfold recalculateScore
  cases components with
  | none => simp [phoneBands]
  | some l =>
    dsimp only
    split_ifs with hempty hpos
    · simp [phoneBands]
    · exact scoreBandLabel_mem A _
    · refine absurd ⟨l, rfl, ?_, ?_⟩ h
      · simpa using hempty
      · simpa using hpos

/-- Where it stops, the phone shows what it showed before. -/
theorem recalculateScore_of_stops (A : FloatArith F)
    {components : Option (List (ConfigComponent F))} {score : ℕ → Option F}
    {shown : ShownScore F} (h : StopsRecalculation A components) :
    recalculateScore A components score shown = shown := by
  obtain ⟨l, rfl, hne, hpos⟩ := h
  simp [recalculateScore, hne, hpos]

end TempleConsign
