import TempleConsign.Lib.Register
import TempleConsign.RedFlags

/-!
# What red-flag rules mean

`evaluate_rules` (`src/api/services/red_flag_service.py` line 99) on any list of rules: an
operator is any text, and a field, an action or the value of one is any Python value.
`RedFlags` has the rules as the database stores them; they are a case of these
(`evaluateRules_eq_specs`).

Deviations: the label of a rule, which no evaluation reads, is left out.

Results:
* `matches_iff`: a rule fires exactly when its condition holds.
* `rating_evaluateSpecs`: the rating as a register that rules set and lower.
* `notes_evaluateSpecs`: the notes as the lines that were appended.
* `evaluateSpecs_meaning`: the whole result in closed form.
-/

namespace TempleConsign

open RegisterLib

/-! ## The evaluation -/

/-- A `dict[str, Any]` of fields. -/
abbrev FieldMap := List (String × PyValue)

/-- `RuleSpec` (line 70). -/
structure RuleSpec where
  id : ℕ
  conditionField : String
  conditionOperator : String
  conditionValue : Option String
  actions : List (String × PyValue)

/-- `actions.get(key)`. -/
def RuleSpec.action (rule : RuleSpec) (key : String) : PyValue :=
  (rule.actions.lookup key).getD .none

/-- `str(value)`; `str` is that of a value that is neither a text nor `None`. -/
def PyValue.strOf (str : PyValue → String) : PyValue → String
  | .none => "None"
  | .str s => s
  | v => str v

/-- Model of `_condition_matches` (line 124). -/
def RuleSpec.matches (str : PyValue → String) (fields : FieldMap) (rule : RuleSpec) : Bool :=
  match fields.lookup rule.conditionField with
  | none => false
  | some value =>
    if rule.conditionOperator = "is_true" then value.truthy
    else if rule.conditionOperator = "is_false" then !value.truthy
    else if rule.conditionOperator = "equals" then
      value.strOf str = (textValue rule.conditionValue).strOf str
    else false

/-- Model of `_apply_actions` (line 141). -/
def applySpec (str : PyValue → String) (result : Evaluation) (rule : RuleSpec) : Evaluation :=
  let downgraded := if (rule.action "downgrade_marketability").truthy then
    .str (downgrade result.marketabilityRating) else result.marketabilityRating
  let forced := rule.action "set_marketability"
  let note := rule.action "append_review_note"
  { managementReviewRequired := result.managementReviewRequired ||
      (rule.action "set_management_review_required").truthy ||
      (rule.action "flag").isText "management_review"
    holdForTitleReview := result.holdForTitleReview ||
      (rule.action "hold_for_title_review").truthy
    marketabilityRating := if forced.truthy then forced else downgraded
    reviewNotes :=
      if note.truthy then
        if result.reviewNotes.truthy then
          .str (result.reviewNotes.text str ++ "\n" ++ note.text str)
        else note
      else result.reviewNotes
    triggeredRules := result.triggeredRules ++ [rule.id] }

/-- Model of `evaluate_rules` (line 99). -/
def evaluateSpecs (str : PyValue → String) (rules : List RuleSpec) (fields : FieldMap)
    (currentMarketability currentReviewNotes : Option String) : Evaluation :=
  rules.foldl (fun result rule =>
      if rule.matches str fields then applySpec str result rule else result)
    ⟨false, false, textValue currentMarketability, textValue currentReviewNotes, []⟩

/-! ## The rules of the database -/

def ConditionOperator.value : ConditionOperator → String
  | .equals => "equals"
  | .isTrue => "is_true"
  | .isFalse => "is_false"

/-- The `RuleSpec` that `evaluate` (line 206) builds of a row. -/
def RuleColumns.spec (c : RuleColumns) (id : ℕ) : RuleSpec where
  id := id
  conditionField := c.conditionField
  conditionOperator := c.conditionOperator.value
  conditionValue := c.conditionValue
  actions := c.actions

/-- Columns of a submission as fields. -/
def Fields.values (fields : Fields) : FieldMap := fields.map fun f => (f.1, textValue f.2)

variable {str : PyValue → String}

theorem truthy_textValue (value : Option String) :
    (textValue value).truthy = (truthy value).isSome := by
  cases value with
  | none => rfl
  | some s => by_cases hs : s = "" <;> simp [textValue, PyValue.truthy, truthy, hs]

theorem strOf_textValue (value : Option String) : (textValue value).strOf str = pyStr value := by
  cases value with
  | none => rfl
  | some s => rfl

theorem lookup_values (fields : Fields) (key : String) :
    (Fields.values fields).lookup key = (fields.lookup key).map textValue := by
  induction fields with
  | nil => rfl
  | cons f fields ih =>
    have hcons : Fields.values (f :: fields) = (f.1, textValue f.2) :: Fields.values fields := rfl
    rw [hcons, List.lookup_cons, List.lookup_cons, ih]
    cases key == f.1 <;> rfl

theorem conditionMatches_eq_spec (fields : Fields) (c : RuleColumns) (id : ℕ) :
    conditionMatches fields c = (c.spec id).matches str (Fields.values fields) := by
  obtain ⟨field, operator, value, actions, label⟩ := c
  simp only [conditionMatches, RuleSpec.matches, RuleColumns.spec, lookup_values]
  cases fields.lookup field with
  | none => rfl
  | some value =>
    cases operator with
    | equals => simp [ConditionOperator.value, strOf_textValue]
    | isTrue => simp [ConditionOperator.value, truthy_textValue]
    | isFalse => simp [ConditionOperator.value, truthy_textValue]

theorem foldl_matches (rules : List RuleSpec) (fields : FieldMap) (result : Evaluation) :
    rules.foldl (fun result rule =>
        if rule.matches str fields then applySpec str result rule else result) result =
      (rules.filter fun rule => rule.matches str fields).foldl (applySpec str) result := by
  rw [List.foldl_filter]

/-- The rules of the database are evaluated as rules in general. -/
theorem evaluateRules_eq_specs (rules : List (ℕ × RuleColumns)) (fields : Fields)
    (marketability notes : Option String) :
    evaluateRules str rules fields marketability notes =
      evaluateSpecs str (rules.map fun r => r.2.spec r.1) (Fields.values fields)
        marketability notes := by
  rw [evaluateRules, evaluateSpecs, foldl_matches, List.filter_map, List.foldl_map]
  have hfilter : (rules.filter fun r => conditionMatches fields r.2) =
      rules.filter ((fun rule : RuleSpec => rule.matches str (Fields.values fields)) ∘
        fun r => r.2.spec r.1) := by
    apply List.filter_congr
    intro r _
    exact conditionMatches_eq_spec fields r.2 r.1
  rw [hfilter]
  rfl

/-! ## What a rule asks for -/

namespace RuleSpec

/-- The condition of a rule, as its operator is documented (lines 29–33). -/
def Holds (str : PyValue → String) (fields : FieldMap) (rule : RuleSpec) : Prop :=
  ∃ value, fields.lookup rule.conditionField = some value ∧
    ((rule.conditionOperator = "is_true" ∧ value.truthy = true) ∨
      (rule.conditionOperator = "is_false" ∧ value.truthy = false) ∨
      (rule.conditionOperator = "equals" ∧
        value.strOf str = (textValue rule.conditionValue).strOf str))

/-- The two accepted shapes for a management review. -/
def requiresReview (rule : RuleSpec) : Bool :=
  (rule.action "set_management_review_required").truthy ||
    (rule.action "flag").isText "management_review"

def holdsTitle (rule : RuleSpec) : Bool := (rule.action "hold_for_title_review").truthy

def lowers (rule : RuleSpec) : Bool := (rule.action "downgrade_marketability").truthy

/-- The band that the rule forces. -/
def forces (rule : RuleSpec) : Option PyValue :=
  let forced := rule.action "set_marketability"
  if forced.truthy then some forced else none

/-- The note that the rule appends. -/
def note (rule : RuleSpec) : Option PyValue :=
  let note := rule.action "append_review_note"
  if note.truthy then some note else none

end RuleSpec

variable {fields : FieldMap} {rule : RuleSpec} {rules : List RuleSpec} {result : Evaluation}

theorem matches_iff : rule.matches str fields = true ↔ rule.Holds str fields := by
  unfold RuleSpec.matches RuleSpec.Holds
  cases fields.lookup rule.conditionField with
  | none => simp
  | some value =>
    dsimp only
    split_ifs with htrue hfalse hequals
    · simp [htrue]
    · simp [hfalse]
    · simp [hequals]
    · simp [htrue, hfalse, hequals]

instance (str : PyValue → String) (fields : FieldMap) (rule : RuleSpec) :
    Decidable (rule.Holds str fields) :=
  decidable_of_iff _ matches_iff

/-- The rules that fire. -/
def firedRules (str : PyValue → String) (rules : List RuleSpec) (fields : FieldMap) :
    List RuleSpec :=
  rules.filter fun rule => decide (rule.Holds str fields)

/-! ## The marketability bands -/

/-- The place of a value among the bands, best first; what is no band counts as the
    worst. -/
def bandRank : PyValue → ℕ
  | .str s => if s ∈ marketabilityBands then marketabilityBands.idxOf s else 3
  | _ => 3

/-- A rating after `n` downgrades. -/
def lowered (n : ℕ) (rating : PyValue) : PyValue :=
  if n = 0 then rating
  else .str (marketabilityBands.getD (min (bandRank rating + n) 3) "Salvage Risk")

theorem bandRank_le (rating : PyValue) : bandRank rating ≤ 3 := by
  cases rating with
  | str s =>
    unfold bandRank
    dsimp only
    split_ifs with hs
    · exact Nat.le_of_lt_succ (List.idxOf_lt_length_of_mem hs)
    · exact le_refl _
  | _ => exact le_refl _

/-- The band of every place has that place. -/
theorem bandRank_getD :
    ∀ k ≤ 3, bandRank (.str (marketabilityBands.getD k "Salvage Risk")) = k := by
  decide

theorem downgrade_eq (rating : PyValue) :
    downgrade rating = marketabilityBands.getD (min (bandRank rating + 1) 3) "Salvage Risk" := by
  cases rating with
  | str s =>
    unfold downgrade bandRank
    dsimp only
    split_ifs with hs
    · rfl
    · rfl
  | _ => rfl

theorem lowered_zero (rating : PyValue) : lowered 0 rating = rating := rfl

theorem lowered_one (rating : PyValue) : lowered 1 rating = .str (downgrade rating) := by
  rw [downgrade_eq]
  rfl

/-- A downgrade after `n` others. -/
theorem lowered_succ (n : ℕ) (rating : PyValue) :
    lowered (n + 1) rating = .str (downgrade (lowered n rating)) := by
  by_cases hn : n = 0
  · rw [hn, lowered_zero, lowered_one]
  · have hrank : bandRank (lowered n rating) = min (bandRank rating + n) 3 := by
      unfold lowered
      rw [if_neg hn]
      exact bandRank_getD _ (Nat.min_le_right _ _)
    have hmin : min (min (bandRank rating + n) 3 + 1) 3 = min (bandRank rating + (n + 1)) 3 := by
      omega
    rw [downgrade_eq, hrank, hmin]
    rfl

theorem iterate_downgrade (n : ℕ) (rating : PyValue) :
    (fun r => PyValue.str (downgrade r))^[n] rating = lowered n rating := by
  induction n with
  | zero => rfl
  | succ n ih => rw [Function.iterate_succ_apply', ih, lowered_succ]

/-- A downgrade never improves the rating. -/
theorem bandRank_le_lowered (n : ℕ) (rating : PyValue) :
    bandRank rating ≤ bandRank (lowered n rating) := by
  have hle := bandRank_le rating
  unfold lowered
  split_ifs with hn
  · exact le_refl _
  · rw [bandRank_getD _ (Nat.min_le_right _ _)]
    omega

/-! ## The flags and the rating -/

theorem foldl_or_any {α : Type} (p : α → Bool) (l : List α) (b : Bool) :
    l.foldl (fun b a => b || p a) b = (b || l.any p) := by
  induction l generalizing b with
  | nil => simp
  | cons a l ih => rw [List.foldl_cons, ih, List.any_cons, Bool.or_assoc]

theorem evaluateSpecs_eq_foldl (rules : List RuleSpec) (fields : FieldMap)
    (marketability notes : Option String) :
    evaluateSpecs str rules fields marketability notes =
      (firedRules str rules fields).foldl (applySpec str)
        ⟨false, false, textValue marketability, textValue notes, []⟩ := by
  have hfired : firedRules str rules fields =
      rules.filter fun rule => rule.matches str fields := by
    apply List.filter_congr
    intro rule _
    rw [Bool.eq_iff_iff, decide_eq_true_iff, matches_iff]
  rw [evaluateSpecs, foldl_matches, hfired]

theorem triggered_foldl_applySpec : (rules.foldl (applySpec str) result).triggeredRules =
    result.triggeredRules ++ rules.map RuleSpec.id := by
  induction rules generalizing result with
  | nil => simp
  | cons rule rules ih => rw [List.foldl_cons, ih]; simp [applySpec]

theorem review_foldl_applySpec : (rules.foldl (applySpec str) result).managementReviewRequired =
    (result.managementReviewRequired || rules.any RuleSpec.requiresReview) := by
  rw [← foldl_or_any]
  symm
  apply List.foldl_hom (f := Evaluation.managementReviewRequired)
  intro result rule
  exact (Bool.or_assoc _ _ _).symm

theorem title_foldl_applySpec : (rules.foldl (applySpec str) result).holdForTitleReview =
    (result.holdForTitleReview || rules.any RuleSpec.holdsTitle) := by
  rw [← foldl_or_any]
  symm
  apply List.foldl_hom (f := Evaluation.holdForTitleReview)
  intro result rule
  rfl

/-- A rule does to the rating what an element does to a register. -/
theorem rating_applySpec : (applySpec str result rule).marketabilityRating =
    update RuleSpec.forces RuleSpec.lowers (fun r => .str (downgrade r))
      result.marketabilityRating rule := by
  simp only [applySpec, update, RuleSpec.forces, RuleSpec.lowers]
  by_cases hforced : (rule.action "set_marketability").truthy = true
  · rw [if_pos hforced, if_pos hforced, Option.getD_some]
  · rw [if_neg hforced, if_neg hforced, Option.getD_none]
    rfl

theorem rating_foldl_applySpec : (rules.foldl (applySpec str) result).marketabilityRating =
    final RuleSpec.forces RuleSpec.lowers (fun r => .str (downgrade r))
      result.marketabilityRating rules := by
  symm
  apply List.foldl_hom (f := Evaluation.marketabilityRating)
  intro result rule
  exact rating_applySpec.symm

/-- The last rule that forces a band, and the downgrades after it, or all of them where no
    rule does. -/
theorem rating_evaluateSpecs (marketability notes : Option String) :
    (∃ pre last post band, firedRules str rules fields = pre ++ last :: post ∧
      last.forces = some band ∧ (∀ rule ∈ post, rule.forces = none) ∧
      (evaluateSpecs str rules fields marketability notes).marketabilityRating =
        lowered (post.countP RuleSpec.lowers) band) ∨
    ((∀ rule ∈ firedRules str rules fields, rule.forces = none) ∧
      (evaluateSpecs str rules fields marketability notes).marketabilityRating =
        lowered ((firedRules str rules fields).countP RuleSpec.lowers)
          (textValue marketability)) := by
  rw [evaluateSpecs_eq_foldl, rating_foldl_applySpec]
  generalize firedRules str rules fields = fired
  by_cases hset : ∃ rule ∈ fired, rule.forces ≠ none
  · left
    obtain ⟨pre, last, post, band, rfl, hlast, hpost⟩ := exists_last hset
    refine ⟨pre, last, post, band, rfl, hlast, hpost, ?_⟩
    rw [final_of_last hlast hpost, iterate_downgrade]
  · right
    push Not at hset
    refine ⟨hset, ?_⟩
    rw [final_of_none hset, iterate_downgrade]

/-! ## The notes -/

/-- `f"{review_notes}\n{note}"`, or the note alone. -/
def appendNote (str : PyValue → String) (notes note : PyValue) : PyValue :=
  if notes.truthy then .str (notes.text str ++ "\n" ++ note.text str) else note

/-- The texts that the rules append. -/
def appendedNotes (str : PyValue → String) (rules : List RuleSpec) : List String :=
  (rules.filterMap RuleSpec.note).map (PyValue.text str)

/-- The notes of the submission, when there are any. -/
def priorNotes (notes : Option String) : List String := (truthy notes).toList

theorem notes_applySpec : (applySpec str result rule).reviewNotes =
    match rule.note with
    | some note => appendNote str result.reviewNotes note
    | none => result.reviewNotes := by
  simp only [applySpec, RuleSpec.note, appendNote]
  by_cases hnote : (rule.action "append_review_note").truthy = true
  · rw [if_pos hnote, if_pos hnote]
  · rw [if_neg hnote, if_neg hnote]

theorem notes_foldl_applySpec : (rules.foldl (applySpec str) result).reviewNotes =
    (rules.filterMap RuleSpec.note).foldl (appendNote str) result.reviewNotes := by
  rw [List.foldl_filterMap]
  symm
  apply List.foldl_hom (f := Evaluation.reviewNotes)
  intro result rule
  rw [notes_applySpec]
  cases rule.note <;> rfl

theorem truthy_of_note {note : PyValue} (h : rule.note = some note) : note.truthy = true := by
  simp only [RuleSpec.note] at h
  split_ifs at h with htruthy
  cases h
  exact htruthy

theorem truthy_newline (a b : String) : (PyValue.str (a ++ "\n" ++ b)).truthy = true := by
  have hne : a ++ "\n" ++ b ≠ "" := by
    intro h
    have hlength := congrArg String.length h
    simp only [String.length_append, String.length_empty] at hlength
    have : "\n".length = 1 := by decide
    omega
  exact decide_eq_true hne

/-- From notes that are not empty on, every note is a further line. -/
theorem text_foldl_appendNote (ns : List PyValue) {notes : PyValue} (h : notes.truthy = true) :
    (ns.foldl (appendNote str) notes).text str =
      "\n".intercalate (notes.text str :: ns.map (PyValue.text str)) := by
  induction ns generalizing notes with
  | nil => rfl
  | cons note ns ih =>
    have happend : appendNote str notes note =
        .str (notes.text str ++ "\n" ++ note.text str) := if_pos h
    rw [List.foldl_cons, happend, ih (truthy_newline _ _)]
    rfl

theorem notes_evaluateSpecs (marketability notes : Option String) :
    (appendedNotes str (firedRules str rules fields) = [] →
      (evaluateSpecs str rules fields marketability notes).reviewNotes = textValue notes) ∧
    (appendedNotes str (firedRules str rules fields) ≠ [] →
      (evaluateSpecs str rules fields marketability notes).reviewNotes.text str =
        "\n".intercalate (priorNotes notes ++
          appendedNotes str (firedRules str rules fields))) := by
  rw [evaluateSpecs_eq_foldl, notes_foldl_applySpec]
  unfold appendedNotes
  have hnotes : ∀ note ∈ (firedRules str rules fields).filterMap RuleSpec.note,
      note.truthy = true := by
    intro note hnote
    obtain ⟨rule, -, hrule⟩ := List.mem_filterMap.mp hnote
    exact truthy_of_note hrule
  generalize (firedRules str rules fields).filterMap RuleSpec.note = ns at hnotes
  constructor
  · intro hempty
    rw [List.map_eq_nil_iff.mp hempty]
    rfl
  · intro hne
    by_cases hprior : (textValue notes).truthy = true
    · rw [text_foldl_appendNote ns hprior]
      cases notes with
      | none => cases hprior
      | some s =>
        have hs : priorNotes (some s) = [s] := by
          rw [truthy_textValue] at hprior
          unfold priorNotes
          obtain ⟨t, ht⟩ := Option.isSome_iff_exists.mp hprior
          rw [ht]
          rw [Option.some.inj (Option.filter_eq_some_iff.mp ht).1]
          rfl
        rw [hs]
        rfl
    · have hs : priorNotes notes = [] := by
        rw [truthy_textValue, Bool.not_eq_true, Option.isSome_eq_false_iff,
          Option.isNone_iff_eq_none] at hprior
        rw [priorNotes, hprior]
        rfl
      cases ns with
      | nil => exact absurd rfl hne
      | cons note ns =>
        have happend : appendNote str (textValue notes) note = note := if_neg hprior
        rw [List.foldl_cons, happend, text_foldl_appendNote ns (hnotes note List.mem_cons_self),
          hs]
        rfl

/-! ## The closed form -/

/-- For every list of rules, fields, current rating and notes: the rules listed are those
    whose condition holds, in their order; each flag says whether one of them asks for it;
    the notes are the lines of the prior notes and of theirs; the rating is what the last
    of them that forces a band leaves after the downgrades that follow, or the current one
    after all downgrades, which is never a better one. -/
theorem evaluateSpecs_meaning (str : PyValue → String) (rules : List RuleSpec)
    (fields : FieldMap) (marketability notes : Option String) :
    (evaluateSpecs str rules fields marketability notes).triggeredRules =
      (firedRules str rules fields).map RuleSpec.id ∧
    ((evaluateSpecs str rules fields marketability notes).managementReviewRequired = true ↔
      ∃ rule ∈ firedRules str rules fields, rule.requiresReview = true) ∧
    ((evaluateSpecs str rules fields marketability notes).holdForTitleReview = true ↔
      ∃ rule ∈ firedRules str rules fields, rule.holdsTitle = true) ∧
    ((appendedNotes str (firedRules str rules fields) = [] →
        (evaluateSpecs str rules fields marketability notes).reviewNotes = textValue notes) ∧
      (appendedNotes str (firedRules str rules fields) ≠ [] →
        (evaluateSpecs str rules fields marketability notes).reviewNotes.text str =
          "\n".intercalate (priorNotes notes ++
            appendedNotes str (firedRules str rules fields)))) ∧
    ((∃ pre last post band, firedRules str rules fields = pre ++ last :: post ∧
        last.forces = some band ∧ (∀ rule ∈ post, rule.forces = none) ∧
        (evaluateSpecs str rules fields marketability notes).marketabilityRating =
          lowered (post.countP RuleSpec.lowers) band) ∨
      ((∀ rule ∈ firedRules str rules fields, rule.forces = none) ∧
        (evaluateSpecs str rules fields marketability notes).marketabilityRating =
          lowered ((firedRules str rules fields).countP RuleSpec.lowers)
            (textValue marketability) ∧
        bandRank (textValue marketability) ≤
          bandRank (evaluateSpecs str rules fields marketability notes).marketabilityRating)) := by
  refine ⟨?_, ?_, ?_, notes_evaluateSpecs marketability notes, ?_⟩
  · rw [evaluateSpecs_eq_foldl, triggered_foldl_applySpec, List.nil_append]
  · rw [evaluateSpecs_eq_foldl, review_foldl_applySpec, Bool.false_or, List.any_eq_true]
  · rw [evaluateSpecs_eq_foldl, title_foldl_applySpec, Bool.false_or, List.any_eq_true]
  · have hcases := @rating_evaluateSpecs str fields rules marketability notes
    rcases hcases with hforced | ⟨hnone, hrating⟩
    · exact Or.inl hforced
    · refine Or.inr ⟨hnone, hrating, ?_⟩
      rw [hrating]
      exact bandRank_le_lowered _ _

end TempleConsign
