import TempleConsign.RuleOrder

/-!
# What stored rules do

Two promises about the rules of a category. A rule is skipped where the submission has no
value for its field, since "the condition cannot be evaluated without a value"
(`src/api/services/red_flag_service.py` line 38); but `_extract_fields` has a key for every
column, and the guard of `_condition_matches` (line 127) asks for the key. And a rule does
what its actions say; but every writer takes any JSON object, the bundle of
`src/scripts/import_category_bundle.py` (line 58) has a vocabulary of its own, and
`_apply_actions` (line 141) reads six keys.

Deviations: the amount of a downgrade that is a float is cut off to a whole number.

Results:
* `skipsUnrecorded_iff`: which rules are skipped where nothing is recorded.
* `notInert_iff`: of which rules every entry is applied.
* `sharedRedFlags_effective`: one of the five rules of the bundle is.
-/

namespace TempleConsign

open RegisterLib SubmitSnapshot

variable {str : PyValue → String} {row : AppraisalSubmission} {d : SubmitSnapshot.SubmissionDetails}

/-! ## Fields without a value -/

/-- The value that the submission has for a field: none when the column is null or there is
    no such field. -/
def recordedValue (row : AppraisalSubmission) (d : SubmitSnapshot.SubmissionDetails)
    (field : String) : Option String :=
  ((extractFields row d).lookup field).getD none

/-- A rule does not fire on a field without a value. -/
def SkipsUnrecorded (str : PyValue → String) (row : AppraisalSubmission)
    (d : SubmitSnapshot.SubmissionDetails) (rule : RuleSpec) : Prop :=
  recordedValue row d rule.conditionField = none →
    rule.matches str (Fields.values (extractFields row d)) = false

/-- The condition is true of `None`. -/
def HoldsOfNull (rule : RuleSpec) : Prop :=
  rule.conditionOperator = "is_false" ∨
    (rule.conditionOperator = "equals" ∧
      (rule.conditionValue = none ∨ rule.conditionValue = some "None"))

theorem pyStr_eq_none {value : Option String} :
    pyStr value = "None" ↔ value = none ∨ value = some "None" := by
  cases value with
  | none => simp [pyStr]
  | some s => simp [pyStr]

/-- On a null column a rule fires as on `None`. -/
theorem matches_null {rule : RuleSpec} {fields : Fields}
    (h : fields.lookup rule.conditionField = some none) :
    rule.matches str (Fields.values fields) = true ↔ HoldsOfNull rule := by
  unfold RuleSpec.matches HoldsOfNull
  rw [lookup_values, h, Option.map_some]
  dsimp only
  rw [strOf_textValue, strOf_textValue, ← pyStr_eq_none]
  split_ifs with htrue hfalse hequals
  · simp [htrue, textValue, PyValue.truthy]
  · simp [hfalse, textValue, PyValue.truthy]
  · rw [decide_eq_true_iff]
    exact ⟨fun h => Or.inr ⟨hequals, h.symm⟩, fun h => (h.resolve_left hfalse).2.symm⟩
  · simp [hfalse, hequals]

/-- For every submission and every rule: it is skipped where the submission has no value
    for its field exactly when the field is no column, or the column has a value, or the
    condition is not true of `None`. -/
theorem skipsUnrecorded_iff (str : PyValue → String) (row : AppraisalSubmission)
    (d : SubmitSnapshot.SubmissionDetails) (rule : RuleSpec) :
    SkipsUnrecorded str row d rule ↔
      ((extractFields row d).lookup rule.conditionField = some none → ¬ HoldsOfNull rule) := by
  unfold SkipsUnrecorded recordedValue
  cases hlookup : (extractFields row d).lookup rule.conditionField with
  | none =>
    have hskip : rule.matches str (Fields.values (extractFields row d)) = false := by
      unfold RuleSpec.matches
      rw [lookup_values, hlookup]
      rfl
    simp [hskip]
  | some value =>
    cases value with
    | none => simp [← @matches_null str rule _ hlookup]
    | some s => simp

/-- A submission without a title status. -/
def untitledDetails : SubmitSnapshot.SubmissionDetails :=
  ⟨some "Running", none, some "Verified", none, []⟩

/-- A rule that waits for the title status `None` fires where there is none. -/
theorem equals_none_fires :
    ¬ ∀ (str : PyValue → String) (row : AppraisalSubmission) (d : SubmitSnapshot.SubmissionDetails)
      (rule : RuleSpec), SkipsUnrecorded str row d rule := by
  intro h
  have hskip := h (fun _ => "") (newDraft 0 0) untitledDetails
    ⟨0, "title_status", "equals", some "None", []⟩ rfl
  exact absurd hskip (by decide +kernel)

/-! ## Actions -/

/-- The amount of a downgrade. -/
def amountOf : PyValue → ℕ
  | .bool b => b.toNat
  | .int n => n.toNat
  | .float x => (x.getD 0).floor.toNat
  | v => if v.truthy then 1 else 0

/-- The keys of an actions object: those of the docstring (lines 19–26), and those of the
    bundle. -/
def actionKeys : List String :=
  ["set_management_review_required", "flag", "hold_for_title_review", "downgrade_marketability",
    "set_marketability", "append_review_note", "set", "marketability_downgrade"]

/-- The keys of the nested form. -/
def nestedActionKeys : List String :=
  ["management_review_required", "hold_for_title_review", "marketability_rating"]

namespace RuleSpec

/-- The entries of the nested form. -/
def nestedEntries (rule : RuleSpec) : List (String × PyValue) :=
  match rule.action "set" with
  | .dict entries => entries
  | _ => []

def nested (rule : RuleSpec) (key : String) : PyValue :=
  (rule.nestedEntries.lookup key).getD .none

/-- The steps that the rule asks to lower the rating. -/
def amount (rule : RuleSpec) : ℕ :=
  amountOf (rule.action "downgrade_marketability") +
    amountOf (rule.action "marketability_downgrade")

/-- The ratings that the rule asks for. -/
def ratings (rule : RuleSpec) : List PyValue :=
  [rule.action "set_marketability", rule.nested "marketability_rating"].filter PyValue.truthy

end RuleSpec

/-- Every entry says something. -/
structure Known (rule : RuleSpec) : Prop where
  keys : ∀ e ∈ rule.actions, e.1 ∈ actionKeys
  flag : ∀ e ∈ rule.actions, e.1 = "flag" → e.2.isText "management_review" = true
  nestedKeys : ∀ e ∈ rule.nestedEntries, e.1 ∈ nestedActionKeys

/-- Every entry of the actions is applied, where the rule finds `before` and leaves
    `after`, and the evaluation ends with `last`. -/
structure Applied (str : PyValue → String) (rule : RuleSpec) (before after last : Evaluation) :
    Prop where
  known : Known rule
  review : rule.requiresReview = true ∨
    (rule.nested "management_review_required").truthy = true →
      last.managementReviewRequired = true
  title : rule.holdsTitle = true ∨ (rule.nested "hold_for_title_review").truthy = true →
    last.holdForTitleReview = true
  lowered : rule.amount ≠ 0 →
    after.marketabilityRating = lowered rule.amount before.marketabilityRating
  forced : ∀ v ∈ rule.ratings, after.marketabilityRating = v
  noted : ∀ note, rule.note = some note →
    after.reviewNotes = appendNote str before.reviewNotes note

/-- What the nested form asks for is asked for by a key that is read as well, and the
    amount is one step, or three and more beside the worst band. -/
structure Effective (rule : RuleSpec) : Prop where
  known : Known rule
  review : (rule.nested "management_review_required").truthy = true → rule.requiresReview = true
  title : (rule.nested "hold_for_title_review").truthy = true → rule.holdsTitle = true
  lowered : rule.amount = 0 ∨
    (rule.amount = 1 ∧ rule.lowers = true ∧ rule.forces = none) ∨
    (3 ≤ rule.amount ∧ rule.forces = some (.str "Salvage Risk"))
  forced : ∀ v ∈ rule.ratings, rule.forces = some v

/-! ## What one rule does -/

/-- The evaluation of rules for a submission. -/
def evaluationOf (str : PyValue → String) (row : AppraisalSubmission)
    (d : SubmitSnapshot.SubmissionDetails) (rules : List (ℕ × RuleColumns)) : Evaluation :=
  evaluateRules str rules (extractFields row d) row.marketabilityRating row.reviewNotes

/-- Every entry of the actions of a rule is applied, whatever rules come before and after
    it. -/
def AppliedAlways (str : PyValue → String) (row : AppraisalSubmission)
    (d : SubmitSnapshot.SubmissionDetails) (rule : ℕ × RuleColumns) : Prop :=
  ∀ earlier later, Applied str (specOf rule) (evaluationOf str row d earlier)
    (evaluationOf str row d (earlier ++ [rule])) (evaluationOf str row d (earlier ++ rule :: later))

variable {rule : ℕ × RuleColumns} {earlier later : List (ℕ × RuleColumns)}

theorem evaluationOf_eq_foldl (rules : List (ℕ × RuleColumns)) :
    evaluationOf str row d rules =
      ((firedOf (extractFields row d) rules).map specOf).foldl (applySpec str)
        ⟨false, false, textValue row.marketabilityRating, textValue row.reviewNotes, []⟩ := by
  rw [List.foldl_map]
  rfl

theorem firedOf_append (fields : Fields) (l l' : List (ℕ × RuleColumns)) :
    firedOf fields (l ++ l') = firedOf fields l ++ firedOf fields l' := List.filter_append ..

theorem firedOf_cons {fields : Fields} (h : conditionMatches fields rule.2 = true) :
    firedOf fields (rule :: later) = rule :: firedOf fields later := List.filter_cons_of_pos h

/-- A rule that fires is applied to what the earlier ones left. -/
theorem evaluationOf_snoc (h : conditionMatches (extractFields row d) rule.2 = true) :
    evaluationOf str row d (earlier ++ [rule]) =
      applySpec str (evaluationOf str row d earlier) (specOf rule) := by
  rw [evaluationOf_eq_foldl, evaluationOf_eq_foldl, firedOf_append, firedOf_cons h,
    List.map_append, List.foldl_append]
  rfl

theorem evaluationOf_review (rules : List (ℕ × RuleColumns)) :
    (evaluationOf str row d rules).managementReviewRequired =
      ((firedOf (extractFields row d) rules).map specOf).any RuleSpec.requiresReview := by
  rw [evaluationOf_eq_foldl, review_foldl_applySpec, Bool.false_or]

theorem evaluationOf_title (rules : List (ℕ × RuleColumns)) :
    (evaluationOf str row d rules).holdForTitleReview =
      ((firedOf (extractFields row d) rules).map specOf).any RuleSpec.holdsTitle := by
  rw [evaluationOf_eq_foldl, title_foldl_applySpec, Bool.false_or]

/-- The flag of a rule that fires is set at the end. -/
theorem any_fired {p : RuleSpec → Bool} (h : conditionMatches (extractFields row d) rule.2 = true)
    (hp : p (specOf rule) = true) :
    ((firedOf (extractFields row d) (earlier ++ rule :: later)).map specOf).any p = true := by
  rw [firedOf_append, firedOf_cons h, List.any_eq_true]
  exact ⟨specOf rule, by simp, hp⟩

/-- A rule with the condition of another that forces a band. -/
def forcing (rule : ℕ × RuleColumns) (band : String) : ℕ × RuleColumns :=
  (rule.1, { rule.2 with actions := [("set_marketability", .str band)] })

theorem evaluationOf_forcing {band : String} (hband : band ≠ "")
    (h : conditionMatches (extractFields row d) rule.2 = true) :
    (evaluationOf str row d [forcing rule band]).marketabilityRating = .str band := by
  have hfires : conditionMatches (extractFields row d) (forcing rule band).2 = true := h
  have hset : (specOf (forcing rule band)).forces = some (.str band) := by
    simp [specOf, forcing, RuleColumns.spec, RuleSpec.forces, RuleSpec.action, PyValue.truthy,
      hband]
  rw [evaluationOf_eq_foldl, firedOf_cons hfires]
  exact (rating_applySpec).trans (update_of_some hset)

/-- What a rule makes of a band. -/
def leaves (spec : RuleSpec) (band : String) : PyValue :=
  update RuleSpec.forces RuleSpec.lowers (fun r => .str (downgrade r)) (.str band) spec

/-- Beside other rules, a rule finds any band that one can force. -/
theorem AppliedAlways.after (h : AppliedAlways str row d rule)
    (hfires : conditionMatches (extractFields row d) rule.2 = true) (band : String)
    (hband : band ≠ "") :
    ((specOf rule).amount ≠ 0 →
      leaves (specOf rule) band = lowered (specOf rule).amount (.str band)) ∧
    ∀ v ∈ (specOf rule).ratings, leaves (specOf rule) band = v := by
  have happlied := h [forcing rule band] []
  have hafter : (evaluationOf str row d ([forcing rule band] ++ [rule])).marketabilityRating =
      leaves (specOf rule) band := by
    rw [evaluationOf_snoc hfires, rating_applySpec, evaluationOf_forcing hband hfires]
    rfl
  constructor
  · intro hamount
    have hlowered := happlied.lowered hamount
    rwa [hafter, evaluationOf_forcing hband hfires] at hlowered
  · intro v hv
    have hforced := happlied.forced v hv
    rwa [hafter] at hforced

/-! ## Which rules are applied -/

theorem bandRank_lowered_fast {n : ℕ} : bandRank (lowered n (.str "Fast Sell")) = min n 3 := by
  have hfast : bandRank (.str "Fast Sell") = 0 := by decide
  unfold lowered
  split_ifs with hn
  · rw [hfast, hn]
    rfl
  · rw [hfast, bandRank_getD _ (Nat.min_le_right _ _), Nat.zero_add]

/-- Three steps lead to the worst band. -/
theorem lowered_worst {n : ℕ} (hn : 3 ≤ n) (rating : PyValue) :
    lowered n rating = .str "Salvage Risk" := by
  unfold lowered
  rw [if_neg (by omega), Nat.min_eq_right (by omega)]
  rfl

/-- The amount is right for the best and the worst band only where it is one step, or where
    the worst band is forced. -/
theorem lowered_cases {spec : RuleSpec} {n : ℕ} (hn : n ≠ 0)
    (hfast : leaves spec "Fast Sell" = lowered n (.str "Fast Sell"))
    (hworst : leaves spec "Salvage Risk" = lowered n (.str "Salvage Risk")) :
    (n = 1 ∧ spec.lowers = true ∧ spec.forces = none) ∨
      (3 ≤ n ∧ spec.forces = some (.str "Salvage Risk")) := by
  rw [lowered_salvage] at hworst
  have hrank := congrArg bandRank hfast
  rw [bandRank_lowered_fast] at hrank
  have hsalvage : bandRank (.str "Salvage Risk") = 3 := by decide
  cases hforces : spec.forces with
  | some v =>
    rw [leaves, update_of_some hforces] at hworst hrank
    rw [hworst, hsalvage] at hrank
    exact Or.inr ⟨by omega, by rw [hworst]⟩
  | none =>
    rw [leaves, update_of_none hforces] at hrank
    by_cases hlowers : spec.lowers = true
    · have hone : bandRank (.str (downgrade (.str "Fast Sell"))) = 1 := by decide
      rw [if_pos hlowers, hone] at hrank
      exact Or.inl ⟨by omega, hlowers, rfl⟩
    · have hzero : bandRank (.str "Fast Sell") = 0 := by decide
      rw [if_neg hlowers, hzero] at hrank
      omega

/-- A rating that comes out for the best and for the worst band is forced. -/
theorem forces_of_leaves {spec : RuleSpec} {v : PyValue} (hfast : leaves spec "Fast Sell" = v)
    (hworst : leaves spec "Salvage Risk" = v) : spec.forces = some v := by
  cases hforces : spec.forces with
  | some w =>
    rw [leaves, update_of_some hforces] at hfast
    rw [hfast]
  | none =>
    have hrank := congrArg bandRank (hfast.trans hworst.symm)
    rw [leaves, leaves, update_of_none hforces, update_of_none hforces] at hrank
    by_cases hlowers : spec.lowers = true
    · rw [if_pos hlowers, if_pos hlowers] at hrank
      exact absurd hrank (by decide)
    · rw [if_neg hlowers, if_neg hlowers] at hrank
      exact absurd hrank (by decide)

theorem AppliedAlways.effective (h : AppliedAlways str row d rule)
    (hfires : conditionMatches (extractFields row d) rule.2 = true) :
    Effective (specOf rule) := by
  have halone := h [] []
  have hfired : (firedOf (extractFields row d) [rule]).map specOf = [specOf rule] := by
    rw [firedOf_cons hfires]
    rfl
  have hreview := @evaluationOf_review str row d [rule]
  have htitle := @evaluationOf_title str row d [rule]
  rw [hfired, List.any_cons, List.any_nil, Bool.or_false] at hreview htitle
  obtain ⟨hfast, hfastForced⟩ := h.after hfires "Fast Sell" (by decide)
  obtain ⟨hworst, hworstForced⟩ := h.after hfires "Salvage Risk" (by decide)
  refine ⟨halone.known, fun hnested => ?_, fun hnested => ?_, ?_, fun v hv => ?_⟩
  · rw [← hreview]
    exact halone.review (Or.inr hnested)
  · rw [← htitle]
    exact halone.title (Or.inr hnested)
  · by_cases hamount : (specOf rule).amount = 0
    · exact Or.inl hamount
    · exact Or.inr (lowered_cases hamount (hfast hamount) (hworst hamount))
  · exact forces_of_leaves (hfastForced v hv) (hworstForced v hv)

theorem Effective.appliedAlways (h : Effective (specOf rule))
    (hfires : conditionMatches (extractFields row d) rule.2 = true) :
    AppliedAlways str row d rule := by
  intro earlier later
  have hafter := @evaluationOf_snoc str row d rule earlier hfires
  refine ⟨h.known, fun hreview => ?_, fun htitle => ?_, fun hamount => ?_, fun v hv => ?_,
    fun note hnote => ?_⟩
  · rw [evaluationOf_review]
    exact any_fired hfires (hreview.elim id h.review)
  · rw [evaluationOf_title]
    exact any_fired hfires (htitle.elim id h.title)
  · rw [hafter, rating_applySpec]
    rcases h.lowered with hzero | ⟨hone, hlowers, hforces⟩ | ⟨hthree, hforces⟩
    · exact absurd hzero hamount
    · rw [update_of_none hforces, if_pos hlowers, hone, lowered_one]
    · rw [update_of_some hforces, lowered_worst hthree]
  · rw [hafter, rating_applySpec, update_of_some (h.forced v hv)]
  · rw [hafter, notes_applySpec, hnote]

/-- On a submission on which it fires, the rule does all it says. -/
def NotInert (str : PyValue → String) (row : AppraisalSubmission)
    (d : SubmitSnapshot.SubmissionDetails) (rule : ℕ × RuleColumns) : Prop :=
  conditionMatches (extractFields row d) rule.2 = true → AppliedAlways str row d rule

/-- For every rule that a table can hold and every submission: where the rule fires, every
    entry of its actions is applied exactly when the actions are effective. -/
theorem notInert_iff (str : PyValue → String) (row : AppraisalSubmission)
    (d : SubmitSnapshot.SubmissionDetails) (rule : ℕ × RuleColumns) :
    NotInert str row d rule ↔
      (conditionMatches (extractFields row d) rule.2 = true → Effective (specOf rule)) :=
  forall_congr' fun hfires => ⟨fun h => h.effective hfires, fun h => h.appliedAlways hfires⟩

/-! ## The bundle -/

/-- `_shared_red_flags` (`src/scripts/import_category_bundle.py` line 58), which
    `import_category` (line 324) writes for every category. -/
def sharedRedFlags : List RuleColumns :=
  [{ conditionField := "structural_damage"
     conditionOperator := .isTrue
     conditionValue := none
     label := "Structural damage (cracks, poor repairs, bent frame/body/boom/blade)"
     actions := [("set", .dict [("management_review_required", .bool true)]),
       ("marketability_downgrade", .int 1)] },
   { conditionField := "active_major_leak"
     conditionOperator := .isTrue
     conditionValue := none
     label := "Active major leak (hydraulic, engine, coolant, drivetrain)"
     actions := [("set", .dict [("management_review_required", .bool true)])] },
   { conditionField := "missing_serial_plate"
     conditionOperator := .isTrue
     conditionValue := none
     label := "Missing or unreadable serial plate (identity risk)"
     actions := [("set", .dict [("hold_for_title_review", .bool true)])] },
   { conditionField := "running_status"
     conditionOperator := .equals
     conditionValue := some "not_running"
     label := "Unit is non-running"
     actions := [("set", .dict [("management_review_required", .bool true),
       ("marketability_rating", .str "salvage_risk")])] },
   { conditionField := "hours_verified"
     conditionOperator := .isFalse
     conditionValue := none
     label := "Hours not verified — review meter history"
     actions := [("append_review_note", .str "verify hours history")] }]

/-- Of the rules of the bundle only the one that appends a note is effective. -/
theorem sharedRedFlags_effective :
    ∀ columns ∈ sharedRedFlags,
      Effective (columns.spec 0) ↔ columns.conditionField = "hours_verified" := by
  have hnoted : Effective ((⟨"hours_verified", .isFalse, none,
      [("append_review_note", .str "verify hours history")],
      "Hours not verified — review meter history"⟩ : RuleColumns).spec 0) := by
    refine ⟨⟨by decide, by decide, by decide⟩, by decide, by decide, .inl (by decide), ?_⟩
    intro v hv
    cases hv
  unfold sharedRedFlags
  simp only [List.forall_mem_cons]
  refine ⟨?_, ?_, ?_, ?_, ?_, by simp⟩
  · exact iff_of_false (fun h => absurd (h.review (by decide)) (by decide)) (by decide)
  · exact iff_of_false (fun h => absurd (h.review (by decide)) (by decide)) (by decide)
  · exact iff_of_false (fun h => absurd (h.title (by decide)) (by decide)) (by decide)
  · exact iff_of_false (fun h => absurd (h.review (by decide)) (by decide)) (by decide)
  · exact iff_of_true hnoted trivial

/-- A unit that does not run. -/
def notRunningDetails : SubmitSnapshot.SubmissionDetails :=
  ⟨some "not_running", none, none, none, []⟩

/-- The rule of the bundle about units that do not run fires and sets no flag. -/
theorem bundle_rule_inert :
    ¬ ∀ (str : PyValue → String) (row : AppraisalSubmission) (d : SubmitSnapshot.SubmissionDetails),
      ∀ columns ∈ sharedRedFlags, NotInert str row d (0, columns) := by
  intro h
  have hrule := h (fun _ => "") (newDraft 0 0) notRunningDetails _
    (List.mem_of_getElem? (i := 3) rfl) (by decide +kernel) [] []
  exact absurd (hrule.review (Or.inr (by decide +kernel))) (by decide +kernel)

end TempleConsign
