import TempleConsign.Appraisal
import TempleConsign.Categories

/-!
# Red flags

Model of the pure part of `src/api/services/red_flag_service.py`: the rules that fire on
a submission and what they do to its flags.

Deviations: a rule has one of the three operators that the admin service writes. `str`
of a value that is no text is a parameter.

Results:
* `triggered_evaluateRules`: the rules that `evaluate_rules` lists are those whose
  condition matches.
-/

namespace TempleConsign

open ServiceLib

/-- `bool(value)`. -/
def PyValue.truthy : PyValue → Bool
  | .none => false
  | .bool b => b
  | .int n => n ≠ 0
  | .float x => x ≠ some 0
  | .str s => s ≠ ""
  | .uuid _ => true
  | .list items => !items.isEmpty
  | .dict entries => !entries.isEmpty

/-- `str(value)` of a text or `None`. -/
def pyStr (value : Option String) : String := value.getD "None"

/-- `_MARKETABILITY_BANDS` (line 61). -/
def marketabilityBands : List String := ["Fast Sell", "Average", "Slow Sell", "Salvage Risk"]

/-- What `evaluate_rules` accumulates: `RedFlagResult` (line 86), before the flush types
    its texts. -/
structure Evaluation where
  managementReviewRequired : Bool
  holdForTitleReview : Bool
  marketabilityRating : PyValue
  reviewNotes : PyValue
  triggeredRules : List ℕ

/-- The `fields` of a rule's condition. -/
abbrev Fields := List (String × Option String)

/-- Model of `_condition_matches` (line 125). -/
def conditionMatches (fields : Fields) (rule : RuleColumns) : Bool :=
  match fields.lookup rule.conditionField with
  | none => false
  | some value =>
    match rule.conditionOperator with
    | .isTrue => (truthy value).isSome
    | .isFalse => (truthy value).isNone
    | .equals => pyStr value = pyStr rule.conditionValue

/-- Model of `_downgrade` (line 171). -/
def downgrade : PyValue → String
  | .str current =>
    if current ∈ marketabilityBands then
      marketabilityBands.getD (min (marketabilityBands.idxOf current + 1)
        (marketabilityBands.length - 1)) "Salvage Risk"
    else "Salvage Risk"
  | _ => "Salvage Risk"

/-- `actions.get(key)`. -/
def RuleColumns.action (rule : RuleColumns) (key : String) : PyValue :=
  (rule.actions.lookup key).getD .none

/-- `str(value)`; `str` is that of a value that is no text. -/
def PyValue.text (str : PyValue → String) : PyValue → String
  | .str s => s
  | v => str v

def PyValue.isText (text : String) : PyValue → Bool
  | .str s => s = text
  | _ => false

/-- Model of `_apply_actions` (line 143). -/
def applyActions (str : PyValue → String) (result : Evaluation) (rule : ℕ × RuleColumns) :
    Evaluation :=
  let downgraded := if (rule.2.action "downgrade_marketability").truthy then
    .str (downgrade result.marketabilityRating) else result.marketabilityRating
  let forced := rule.2.action "set_marketability"
  let note := rule.2.action "append_review_note"
  { managementReviewRequired := result.managementReviewRequired ||
      (rule.2.action "set_management_review_required").truthy ||
      (rule.2.action "flag").isText "management_review"
    holdForTitleReview := result.holdForTitleReview ||
      (rule.2.action "hold_for_title_review").truthy
    marketabilityRating := if forced.truthy then forced else downgraded
    reviewNotes :=
      if note.truthy then
        if result.reviewNotes.truthy then
          .str (result.reviewNotes.text str ++ "\n" ++ note.text str)
        else note
      else result.reviewNotes
    triggeredRules := result.triggeredRules ++ [rule.1] }

/-- A nullable text column as a Python value. -/
def textValue : Option String → PyValue
  | none => .none
  | some s => .str s

/-- Model of `evaluate_rules` (line 99). -/
def evaluateRules (str : PyValue → String) (rules : List (ℕ × RuleColumns)) (fields : Fields)
    (currentMarketability currentReviewNotes : Option String) : Evaluation :=
  (rules.filter fun r => conditionMatches fields r.2).foldl (applyActions str)
    ⟨false, false, textValue currentMarketability, textValue currentReviewNotes, []⟩

theorem triggered_foldl (str : PyValue → String) (rules : List (ℕ × RuleColumns))
    (result : Evaluation) :
    (rules.foldl (applyActions str) result).triggeredRules =
      result.triggeredRules ++ rules.map Prod.fst := by
  induction rules generalizing result with
  | nil => simp
  | cons r rules ih => rw [List.foldl_cons, ih]; simp [applyActions]

/-- The rules that `evaluate_rules` lists are those whose condition matches. -/
theorem triggered_evaluateRules {str : PyValue → String} {rules : List (ℕ × RuleColumns)}
    {fields : Fields} {marketability notes : Option String} :
    (evaluateRules str rules fields marketability notes).triggeredRules =
      (rules.filter fun r => conditionMatches fields r.2).map Prod.fst := by
  rw [evaluateRules, triggered_foldl, List.nil_append]

/-- A rating moves one band down, and the last one stays. -/
example : ["Fast Sell", "Average", "Slow Sell", "Salvage Risk", "Unknown"].map
    (fun band => downgrade (.str band)) =
    ["Average", "Slow Sell", "Salvage Risk", "Salvage Risk", "Salvage Risk"] := by decide

end TempleConsign
