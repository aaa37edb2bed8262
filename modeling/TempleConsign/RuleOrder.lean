import Mathlib.Data.Finset.Dedup
import TempleConsign.RuleEvaluation
import TempleConsign.SubmitSnapshot

/-!
# The order of the rules

The query of `evaluate` (`src/api/services/red_flag_service.py` line 190) has no
`ORDER BY`, while `current_red_flag_rules` (`category_versioning_service.py` line 74) reads
the same rows in the order of their ids. So the same rules may come in any order, and this
module says for which rules that does not show in what `submit` stores.

Results:
* `takesNotes_perm`: the order does not decide whether the notes can be stored.
* `orderHidden_iff`: when every order leaves the same outcome.
* `forced_and_lowered_disagree`: a rule that forces a band beside one that lowers it.
-/

namespace TempleConsign.SubmitSnapshot

open ServiceLib RegisterLib

/-! ## What a submission stores -/

/-- What the rules leave on a submission. -/
structure StoredOutcome where
  managementReviewRequired : Bool
  holdForTitleReview : Bool
  marketabilityRating : Option String
  appendedNotes : Finset String
  deriving DecidableEq

/-- The rule with its id, as `evaluate` gives it to `evaluate_rules`. -/
def specOf (rule : ℕ × RuleColumns) : RuleSpec := rule.2.spec rule.1

/-- The rules that fire, in the order of the list. -/
def firedOf (fields : Fields) (rules : List (ℕ × RuleColumns)) : List (ℕ × RuleColumns) :=
  rules.filter fun rule => conditionMatches fields rule.2

/-- The outcome for rules in a given order; `none` when the flush refuses it, so that
    nothing is stored. -/
def storedOutcome (env : SubmitEnv) (now : ℤ) (row : AppraisalSubmission) (d : SubmissionDetails)
    (rules : List (ℕ × RuleColumns)) : Option StoredOutcome :=
  let fields := extractFields row d
  (env.flags (evaluateRules env.str rules fields row.marketabilityRating row.reviewNotes)).map
    fun flags =>
      let stored := submittedRow now flags row
      { managementReviewRequired := stored.managementReviewRequired
        holdForTitleReview := stored.holdForTitleReview
        marketabilityRating := stored.marketabilityRating
        appendedNotes := (appendedNotes env.str ((firedOf fields rules).map specOf)).toFinset }

/-- PostgreSQL takes every text without a NUL. -/
def takesAllButNul (s : String) : Bool := !s.toList.contains '\x00'

def isText : PyValue → Bool
  | .str _ => true
  | _ => false

/-- The notes can be stored: none has a NUL, and one that stays alone is a text. -/
def takesNotes (env : SubmitEnv) (prior : Option String) (notes : List PyValue) : Bool :=
  (priorNotes prior).all env.takesText && (notes.map (PyValue.text env.str)).all env.takesText &&
    (notes.length ≠ 1 || (priorNotes prior).length = 1 || notes.all isText)

variable {env : SubmitEnv} {row : AppraisalSubmission} {d : SubmissionDetails}
  {rules l : List (ℕ × RuleColumns)} {fields : Fields}

/-! ## The notes -/

theorem takesAllButNul_append (a b : String) :
    takesAllButNul (a ++ b) = (takesAllButNul a && takesAllButNul b) := by
  simp [takesAllButNul, String.toList_append, Bool.not_or]

theorem takesAllButNul_join (a : String) (parts : List String) :
    takesAllButNul ("\n".intercalate (a :: parts)) =
      (takesAllButNul a && parts.all takesAllButNul) := by
  induction parts generalizing a with
  | nil =>
    have hjoin : "\n".intercalate [a] = a := rfl
    rw [hjoin, List.all_nil, Bool.and_true]
  | cons b parts ih =>
    have hjoin : "\n".intercalate (a :: b :: parts) =
        "\n".intercalate ((a ++ "\n" ++ b) :: parts) := rfl
    have hnewline : takesAllButNul "\n" = true := by decide
    rw [hjoin, ih, takesAllButNul_append, takesAllButNul_append, hnewline, Bool.and_true,
      List.all_cons, Bool.and_assoc]

theorem takesNotes_perm {prior : Option String} {notes notes' : List PyValue}
    (h : notes.Perm notes') : takesNotes env prior notes = takesNotes env prior notes' := by
  simp only [takesNotes, h.length_eq, (h.map _).all_eq, h.all_eq]

theorem exists_str_foldl (ns : List PyValue) {s : String} (hs : (PyValue.str s).truthy = true) :
    ∃ t, ns.foldl (appendNote env.str) (.str s) = .str t := by
  induction ns generalizing s with
  | nil => exact ⟨s, rfl⟩
  | cons note ns ih =>
    rw [List.foldl_cons, appendNote, if_pos hs]
    exact ih (truthy_newline _ _)

/-- Further lines make a text of any notes. -/
theorem flush_further_lines (htext : env.takesText = takesAllButNul) {first note : PyValue}
    (hfirst : first.truthy = true) (ns : List PyValue) :
    (env.flushText none ((note :: ns).foldl (appendNote env.str) first)).isSome =
      (takesAllButNul (first.text env.str) &&
        ((note :: ns).map (PyValue.text env.str)).all takesAllButNul) := by
  have hlines := @text_foldl_appendNote env.str (note :: ns) first hfirst
  obtain ⟨t, ht⟩ : ∃ t, (note :: ns).foldl (appendNote env.str) first = .str t := by
    rw [List.foldl_cons, appendNote, if_pos hfirst]
    exact exists_str_foldl ns (truthy_newline _ _)
  rw [ht] at hlines ⊢
  rw [← takesAllButNul_join, ← hlines]
  simp only [SubmitEnv.flushText, htext, PyValue.text]
  split_ifs with htakes
  · rw [htakes, Option.isSome_some]
  · rw [Bool.not_eq_true] at htakes
    rw [htakes, Option.isSome_none]

theorem flush_single {note : PyValue} (hnote : note.truthy = true) :
    (env.flushText none note).isSome = (env.takesText (note.text env.str) && isText note) := by
  cases note with
  | none => cases hnote
  | str s =>
    simp only [SubmitEnv.flushText, PyValue.text, isText, Bool.and_true]
    split_ifs with htakes
    · rw [htakes, Option.isSome_some]
    · rw [Bool.not_eq_true] at htakes
      rw [htakes, Option.isSome_none]
  | _ => simp [SubmitEnv.flushText, isText]

theorem priorNotes_of_truthy (str : PyValue → String) {prior : Option String}
    (h : (textValue prior).truthy = true) :
    priorNotes prior = [(textValue prior).text str] := by
  cases prior with
  | none => cases h
  | some s =>
    have hs : s ≠ "" := by simpa [textValue, PyValue.truthy] using h
    simp [priorNotes, truthy, hs, textValue, PyValue.text]

theorem priorNotes_of_not_truthy {prior : Option String} (h : (textValue prior).truthy = false) :
    priorNotes prior = [] := by
  rw [truthy_textValue] at h
  have hnone : truthy prior = none := by simpa using h
  rw [priorNotes, hnone, Option.toList_none]

/-- When the column takes what the notes add up to. -/
theorem flush_notes (htext : env.takesText = takesAllButNul) {prior : Option String}
    {ns : List PyValue} (hns : ∀ note ∈ ns, note.truthy = true) :
    (env.flushText none (ns.foldl (appendNote env.str) (textValue prior))).isSome =
      takesNotes env prior ns := by
  by_cases hprior : (textValue prior).truthy = true
  · unfold takesNotes
    rw [priorNotes_of_truthy env.str hprior]
    cases ns with
    | nil =>
      rw [List.foldl_nil, flush_single hprior]
      cases prior with
      | none => cases hprior
      | some s => simp [textValue, isText]
    | cons note ns =>
      rw [flush_further_lines htext hprior, htext]
      simp
  · rw [Bool.not_eq_true] at hprior
    unfold takesNotes
    rw [priorNotes_of_not_truthy hprior]
    cases ns with
    | nil =>
      cases prior with
      | none => rfl
      | some s =>
        have hs : s = "" := by simpa [textValue, PyValue.truthy] using hprior
        have htakes : takesAllButNul "" = true := by decide
        simp [textValue, hs, SubmitEnv.flushText, htext, htakes]
    | cons note ns =>
      have hfirst := hns note List.mem_cons_self
      have happend : appendNote env.str (textValue prior) note = note := by
        simp [appendNote, hprior]
      rw [List.foldl_cons, happend]
      cases ns with
      | nil =>
        rw [List.foldl_nil, flush_single hfirst]
        simp
      | cons note' ns =>
        rw [flush_further_lines htext hfirst, htext]
        simp

/-! ## The outcome -/

/-- The rating that the row has after the flush of a value; `none` when it is refused. -/
def storedRating (env : SubmitEnv) (row : AppraisalSubmission) (v : PyValue) :
    Option (Option String) :=
  (env.flushText (some 20) v).map fun x => x.or row.marketabilityRating

/-- The rating that a fired rule forces. -/
def forcedBy (rule : ℕ × RuleColumns) : Option PyValue := (specOf rule).forces

def lowersRating (rule : ℕ × RuleColumns) : Bool := (specOf rule).lowers

/-- The rating of `evaluate_rules` as a register. -/
def ratingOf (row : AppraisalSubmission) (fired : List (ℕ × RuleColumns)) : PyValue :=
  final forcedBy lowersRating (fun r => .str (downgrade r)) (textValue row.marketabilityRating)
    fired

/-- The notes that fired rules append. -/
def notesOf (fired : List (ℕ × RuleColumns)) : List PyValue :=
  (fired.map specOf).filterMap RuleSpec.note

/-- The outcome of fired rules with the rating that is stored. -/
def outcomeWith (env : SubmitEnv) (fired : List (ℕ × RuleColumns)) (rating : Option String) :
    StoredOutcome where
  managementReviewRequired := (fired.map specOf).any RuleSpec.requiresReview
  holdForTitleReview := (fired.map specOf).any RuleSpec.holdsTitle
  marketabilityRating := rating
  appendedNotes := (appendedNotes env.str (fired.map specOf)).toFinset

theorem outcomeWith_injective (fired : List (ℕ × RuleColumns)) :
    Function.Injective (outcomeWith env fired) :=
  fun _ _ h => congrArg StoredOutcome.marketabilityRating h

theorem outcomeWith_perm {fired fired' : List (ℕ × RuleColumns)} (h : fired.Perm fired') :
    outcomeWith env fired = outcomeWith env fired' := by
  have hspecs := h.map specOf
  have hnotes : (appendedNotes env.str (fired.map specOf)).toFinset =
      (appendedNotes env.str (fired'.map specOf)).toFinset :=
    List.toFinset_eq_of_perm _ _ ((hspecs.filterMap RuleSpec.note).map _)
  funext rating
  unfold outcomeWith
  rw [hspecs.any_eq, hspecs.any_eq, hnotes]

theorem notesOf_perm {fired fired' : List (ℕ × RuleColumns)} (h : fired.Perm fired') :
    (notesOf fired).Perm (notesOf fired') :=
  (h.map specOf).filterMap RuleSpec.note

theorem evaluateRules_eq_foldl (marketability notes : Option String) :
    evaluateRules env.str rules fields marketability notes =
      ((firedOf fields rules).map specOf).foldl (applySpec env.str)
        ⟨false, false, textValue marketability, textValue notes, []⟩ := by
  rw [List.foldl_map]
  rfl

theorem storedOutcome_eq (htext : env.takesText = takesAllButNul) (now : ℤ) :
    storedOutcome env now row d rules =
      if takesNotes env row.reviewNotes (notesOf (firedOf (extractFields row d) rules)) then
        (storedRating env row (ratingOf row (firedOf (extractFields row d) rules))).map
          (outcomeWith env (firedOf (extractFields row d) rules))
      else none := by
  have hnotes : ∀ note ∈ notesOf (firedOf (extractFields row d) rules), note.truthy = true := by
    intro note hnote
    obtain ⟨rule, -, hrule⟩ := List.mem_filterMap.mp hnote
    exact truthy_of_note hrule
  have htakes := @flush_notes env htext row.reviewNotes _ hnotes
  have hrating : final RuleSpec.forces RuleSpec.lowers (fun r => .str (downgrade r))
      (textValue row.marketabilityRating) ((firedOf (extractFields row d) rules).map specOf) =
      ratingOf row (firedOf (extractFields row d) rules) := by
    rw [final, List.foldl_map]
    rfl
  have hfold : ((firedOf (extractFields row d) rules).map specOf).filterMap RuleSpec.note =
      notesOf (firedOf (extractFields row d) rules) := rfl
  simp only [storedOutcome, evaluateRules_eq_foldl, SubmitEnv.flags, rating_foldl_applySpec,
    notes_foldl_applySpec, review_foldl_applySpec, title_foldl_applySpec, Bool.false_or, hrating,
    hfold, storedRating]
  generalize ratingOf row (firedOf (extractFields row d) rules) = rating
  cases hflush : env.flushText (some 20) rating with
  | none => simp
  | some x =>
    cases hlines : env.flushText none
        ((notesOf (firedOf (extractFields row d) rules)).foldl (appendNote env.str)
          (textValue row.reviewNotes)) with
    | none =>
      rw [hlines, Option.isSome_none] at htakes
      simp [← htakes]
    | some y =>
      rw [hlines, Option.isSome_some] at htakes
      simp [← htakes, submittedRow, outcomeWith]

/-- An order of the rules that fire is one of all rules. -/
theorem exists_perm_firedOf {fired : List (ℕ × RuleColumns)}
    (h : (firedOf fields rules).Perm fired) :
    ∃ l, rules.Perm l ∧ firedOf fields l = fired := by
  have hfires : ∀ rule ∈ fired, conditionMatches fields rule.2 = true := fun rule hrule =>
    (List.mem_filter.mp (h.mem_iff.mpr hrule)).2
  refine ⟨fired ++ rules.filter (fun rule => !conditionMatches fields rule.2), ?_, ?_⟩
  · exact (List.filter_append_perm _ _).symm.trans (h.append_right _)
  · rw [firedOf, List.filter_append, List.filter_eq_self.mpr hfires, List.filter_filter]
    simp

theorem firedOf_perm (fields : Fields) (h : rules.Perm l) :
    (firedOf fields rules).Perm (firedOf fields l) :=
  h.filter _

/-- The order shows in the outcome exactly when it shows in the stored rating. -/
theorem outcome_perm_iff (htext : env.takesText = takesAllButNul) (now : ℤ) :
    (∀ l, rules.Perm l → storedOutcome env now row d l = storedOutcome env now row d rules) ↔
      takesNotes env row.reviewNotes (notesOf (firedOf (extractFields row d) rules)) = false ∨
        ∀ fired, (firedOf (extractFields row d) rules).Perm fired →
          storedRating env row (ratingOf row fired) =
            storedRating env row (ratingOf row (firedOf (extractFields row d) rules)) := by
  constructor
  · intro h
    refine or_iff_not_imp_left.mpr fun htakes fired hperm => ?_
    rw [Bool.not_eq_false] at htakes
    obtain ⟨l, hl, rfl⟩ := exists_perm_firedOf hperm
    have heq := h l hl
    rw [storedOutcome_eq htext, storedOutcome_eq htext, takesNotes_perm (notesOf_perm hperm.symm),
      if_pos htakes, if_pos htakes, outcomeWith_perm hperm.symm] at heq
    exact Option.map_injective (outcomeWith_injective _) heq
  · intro h l hl
    have hperm := firedOf_perm (extractFields row d) hl
    rw [storedOutcome_eq htext, storedOutcome_eq htext, takesNotes_perm (notesOf_perm hperm.symm)]
    rcases h with hrefused | hsame
    · rw [hrefused]
      rfl
    · rw [hsame _ hperm, outcomeWith_perm hperm.symm]

/-! ## Which rules do not disagree -/

/-- A rule that fires lowers the rating and forces none. -/
def SomeLowers (fired : List (ℕ × RuleColumns)) : Prop :=
  ∃ rule ∈ fired, forcedBy rule = none ∧ lowersRating rule = true

/-- No rule that fires forces a rating; or they all force what is stored as the same, and
    where another one lowers it, they force the worst band. -/
def RatingAgreed (env : SubmitEnv) (fired : List (ℕ × RuleColumns)) : Prop :=
  (∀ rule ∈ fired, forcedBy rule = none) ∨
    ∃ stored, ∀ rule ∈ fired, ∀ v, forcedBy rule = some v →
      env.flushText (some 20) v = stored ∧ (SomeLowers fired → v = .str "Salvage Risk")

theorem countP_shifts_pos {fired : List (ℕ × RuleColumns)} :
    0 < fired.countP (shifts forcedBy lowersRating) ↔ SomeLowers fired := by
  rw [List.countP_pos_iff]
  simp only [shifts, Bool.and_eq_true, Option.isNone_iff_eq_none, SomeLowers]

theorem truthy_of_forcedBy {rule : ℕ × RuleColumns} {v : PyValue} (h : forcedBy rule = some v) :
    v.truthy = true := by
  simp only [forcedBy, RuleSpec.forces] at h
  split_ifs at h with htruthy
  cases h
  exact htruthy

/-- A value that is not `None` is stored as it is. -/
theorem storedRating_of_truthy {v : PyValue} (h : v.truthy = true) :
    storedRating env row v = env.flushText (some 20) v := by
  unfold storedRating
  cases v with
  | none => cases h
  | str s =>
    simp only [SubmitEnv.flushText]
    split_ifs
    · cases varchar 20 s with
      | none => rfl
      | some t => rfl
    · rfl
  | _ => rfl

theorem varchar_short {s band : String} (h : varchar 20 s = some band) (hband : band.length < 20) :
    s = band := by
  unfold varchar at h
  split_ifs at h with hlength hblank
  · exact Option.some.inj h
  · have hcut := congrArg String.length (Option.some.inj h)
    rw [String.length_ofList, List.length_take, String.length_toList] at hcut
    omega

theorem downgrade_mem (v : PyValue) :
    downgrade v ∈ ["Average", "Slow Sell", "Salvage Risk"] := by
  have hall : ∀ k ≤ 3, marketabilityBands.getD (min (k + 1) 3) "Salvage Risk" ∈
      ["Average", "Slow Sell", "Salvage Risk"] := by
    decide
  rw [downgrade_eq]
  exact hall _ (bandRank_le v)

theorem takes_downgrade (v : PyValue) :
    takesAllButNul (downgrade v) = true ∧ (downgrade v).length < 20 := by
  have h := downgrade_mem v
  generalize downgrade v = band at h
  simp only [List.mem_cons, List.not_mem_nil, or_false] at h
  rcases h with rfl | rfl | rfl
  all_goals decide

theorem flush_downgrade (htext : env.takesText = takesAllButNul) (v : PyValue) :
    env.flushText (some 20) (.str (downgrade v)) = some (some (downgrade v)) := by
  obtain ⟨htakes, hlength⟩ := takes_downgrade v
  simp only [SubmitEnv.flushText, htext, htakes, if_true, varchar]
  rw [if_pos hlength.le]
  rfl

/-- Only the worst band is stored as what a downgrade makes of it. -/
theorem eq_salvage_of_flush (htext : env.takesText = takesAllButNul) {v : PyValue}
    (h : env.flushText (some 20) v = env.flushText (some 20) (.str (downgrade v))) :
    v = .str "Salvage Risk" := by
  rw [flush_downgrade htext] at h
  obtain ⟨-, hlength⟩ := takes_downgrade v
  cases v with
  | str s =>
    simp only [SubmitEnv.flushText] at h
    split_ifs at h
    obtain ⟨band, hband, heq⟩ := Option.map_eq_some_iff.mp h
    cases heq
    have hs := varchar_short hband hlength
    have hmem := downgrade_mem (.str s)
    rw [← hs] at hmem
    simp only [List.mem_cons, List.not_mem_nil, or_false] at hmem
    rcases hmem with rfl | rfl | rfl
    · exact absurd hs (by decide)
    · exact absurd hs (by decide)
    · rfl
  | none => cases h
  | _ => cases h

theorem lowered_salvage (k : ℕ) : lowered k (.str "Salvage Risk") = .str "Salvage Risk" := by
  have hrank : bandRank (.str "Salvage Risk") = 3 := by decide
  unfold lowered
  split_ifs
  · rfl
  · rw [hrank, Nat.min_eq_right (by omega)]
    rfl

theorem orderFree_iff (htext : env.takesText = takesAllButNul) {fired : List (ℕ × RuleColumns)} :
    OrderFree forcedBy lowersRating (fun r => .str (downgrade r)) (storedRating env row) fired ↔
      RatingAgreed env fired := by
  unfold OrderFree RatingAgreed
  refine or_congr_right ⟨?_, ?_⟩
  · rintro ⟨stored, hstored⟩
    refine ⟨stored, fun rule hrule v hv => ?_⟩
    have hzero := hstored rule hrule v hv 0 (Nat.zero_le _)
    rw [Function.iterate_zero_apply, storedRating_of_truthy (truthy_of_forcedBy hv)] at hzero
    refine ⟨hzero, fun hlowers => ?_⟩
    have hone := hstored rule hrule v hv 1 (countP_shifts_pos.mpr hlowers)
    have htruthy : (PyValue.str (downgrade v)).truthy = true := by
      have hne : downgrade v ≠ "" := by
        intro hempty
        have hmem := downgrade_mem v
        rw [hempty] at hmem
        exact absurd hmem (by decide)
      exact decide_eq_true hne
    rw [Function.iterate_one, storedRating_of_truthy htruthy] at hone
    exact eq_salvage_of_flush htext (hzero.trans hone.symm)
  · rintro ⟨stored, hstored⟩
    refine ⟨stored, fun rule hrule v hv k hk => ?_⟩
    obtain ⟨hflush, hworst⟩ := hstored rule hrule v hv
    rw [iterate_downgrade]
    have hsame : lowered k v = v := by
      by_cases hzero : k = 0
      · rw [hzero, lowered_zero]
      · rw [hworst (countP_shifts_pos.mp (by omega)), lowered_salvage]
    rw [hsame, storedRating_of_truthy (truthy_of_forcedBy hv), hflush]

/-- Whatever the order in which the database returns the current active rules of the
    category, the same is stored. -/
def OrderHidden (env : SubmitEnv) (now : ℤ) (tables : CategoryDb) (row : AppraisalSubmission)
    (d : SubmissionDetails) : Prop :=
  ∀ l, (activeRules tables row.categoryId).Perm l →
    storedOutcome env now row d l =
      storedOutcome env now row d (activeRules tables row.categoryId)

/-- For every category and every submission, the order never shows exactly when the notes
    cannot be stored at all, so that nothing is, or the rules that fire agree on the
    rating. -/
theorem orderHidden_iff (env : SubmitEnv) (htext : env.takesText = takesAllButNul) (now : ℤ)
    (tables : CategoryDb) (row : AppraisalSubmission) (d : SubmissionDetails) :
    OrderHidden env now tables row d ↔
      takesNotes env row.reviewNotes
          (notesOf (firedOf (extractFields row d) (activeRules tables row.categoryId))) = false ∨
        RatingAgreed env
          (firedOf (extractFields row d) (activeRules tables row.categoryId)) := by
  rw [OrderHidden, outcome_perm_iff htext, ← @orderFree_iff env row htext,
    ← perm_invariant_iff]
  rfl

/-! ## Runs -/

/-- The deployment of `sampleEnv`, with texts as PostgreSQL takes them. -/
def plainSubmitEnv : SubmitEnv := { sampleEnv with takesText := takesAllButNul }

/-- A rule about units that do not run. -/
def notRunning (actions : List (String × PyValue)) : VersionedPart RuleColumns :=
  ⟨⟨0, ⟨"running_status", .equals, some "Non-Running", actions, "Unit is non-running"⟩, true⟩, 1,
    none⟩

/-- A category with one rule for each of the actions. -/
def rulesTables (actions : List (List (String × PyValue))) : CategoryDb :=
  { sampleTables with
    redFlagRules := actions.foldl (fun t a => t.create (notRunning a)) .empty }

/-- A draft of a unit that does not run. -/
def nonRunningDraft : AppraisalSubmission :=
  { newDraft 0 0 with categoryId := some 0, marketabilityRating := some "Average" }

def nonRunningDetails : SubmissionDetails := ⟨some "Non-Running", none, none, none, []⟩

/-- Two rules that lower the rating agree. -/
theorem orderHidden_iff_lowers :
    OrderHidden plainSubmitEnv 0
      (rulesTables [[("downgrade_marketability", .bool true)],
        [("downgrade_marketability", .bool true)]])
      nonRunningDraft nonRunningDetails := by
  refine (orderHidden_iff plainSubmitEnv rfl _ _ _ _).mpr (.inr (.inl ?_))
  decide +kernel

/-- A rule that forces a band beside one that lowers it: the unit is a fast sell or an
    average one, as the database likes. -/
theorem forced_and_lowered_disagree :
    ¬ ∀ (env : SubmitEnv), env.takesText = takesAllButNul → ∀ (now : ℤ) (tables : CategoryDb)
      (row : AppraisalSubmission) (d : SubmissionDetails), OrderHidden env now tables row d := by
  intro h
  have hrules := h plainSubmitEnv rfl 0
    (rulesTables [[("set_marketability", .str "Fast Sell")],
      [("downgrade_marketability", .bool true)]]) nonRunningDraft nonRunningDetails _
    (List.reverse_perm _).symm
  exact absurd hrules (by decide +kernel)

end TempleConsign.SubmitSnapshot
