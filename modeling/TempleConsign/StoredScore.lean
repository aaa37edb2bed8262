import TempleConsign.DraftPatch

/-!
# The score of a draft and its answers

`update_draft` (`src/api/services/appraisal_submission_service.py` line 99) scores a draft
whenever the body has scores, and then over all rows of `component_scores` that the draft
has; the category is a column of its own, which a body may change with or without scores.
The phone scores the components of the draft's category
(`src/ios/TempleHEAppraiser/Form/DynamicFormView.swift` line 70).

The order of the rows is unspecified in SQL, so a score belongs to the rows in some order.
`category` is the `category_id` of a component.

Results:
* `belongs_of_scored`: what an update with scores needs.
* `belongs_of_kept`: what an update without them needs.
* `runs_belong`: in runs of such updates the score is always that of the answers.
* `changedCategory_fails`: the category is changed after the scores.
-/

namespace TempleConsign

open ServiceLib

variable {F : Type} {env : DraftEnv F} {db db' : DraftDb} {submissionId : ℕ}
  {body : SubmissionUpdateRequest} {category : ℕ → ℕ}

/-! ## The property -/

/-- The component is one of the category. -/
def InCategory (category : ℕ → ℕ) (categoryId : Option ℕ) (componentId : ℕ) : Prop :=
  categoryId = some (category componentId)

instance (category : ℕ → ℕ) (categoryId : Option ℕ) (componentId : ℕ) :
    Decidable (InCategory category categoryId componentId) :=
  inferInstanceAs (Decidable (_ = _))

/-- The scores of the draft that are for components of the category. -/
def DraftDb.answers (db : DraftDb) (category : ℕ → ℕ) (submissionId : ℕ)
    (categoryId : Option ℕ) : List (ℕ × ComponentScore) :=
  (db.scoresOf submissionId).filter fun e => InCategory category categoryId e.2.componentId

/-- The stored score is that of the answers for the draft's category. -/
def ScoreBelongs (env : DraftEnv F) (category : ℕ → ℕ) (submissionId : ℕ) (db : DraftDb) : Prop :=
  ∀ s, db.submissions.get? submissionId = some s →
    ∃ rows, (db.answers category submissionId s.categoryId).Perm rows ∧
      s.overallScore = some (calculateOverall env.arith (scoringInput env.arith rows)).overall ∧
      s.scoreBand = some (calculateOverall env.arith (scoringInput env.arith rows)).band

/-- A call of `update_draft`. -/
structure UpdateCall where
  user : DraftUser
  body : SubmissionUpdateRequest

def UpdateCall.request (env : DraftEnv F) (submissionId : ℕ) (c : UpdateCall) (db : DraftDb) :
    Except Exn Unit × DraftDb :=
  draftRequest (updateSubmission env c.user submissionId c.body) db

def updateStep (env : DraftEnv F) (submissionId : ℕ) (db : DraftDb) (c : UpdateCall) : DraftDb :=
  (c.request env submissionId db).2

/-- A call that is accepted leaves a score that belongs to the answers. -/
def LeavesBelonging (env : DraftEnv F) (category : ℕ → ℕ) (submissionId : ℕ) (db : DraftDb)
    (c : UpdateCall) : Prop :=
  (c.request env submissionId db).1 = .ok () →
    ScoreBelongs env category submissionId (updateStep env submissionId db c)

/-- A draft that `create_draft` has just started. -/
structure JustStarted (submissionId : ℕ) (db : DraftDb) : Prop where
  unscored : ∀ s, db.submissions.get? submissionId = some s → s.overallScore = none
  noScores : db.scoresOf submissionId = []

/-! ## Which updates keep it -/

/-- An update with scores: they and the rows that the draft has are for components of the
    category that the draft then has, and the scores have two decimals. -/
structure ScoresCategory (category : ℕ → ℕ) (db : DraftDb) (submissionId : ℕ)
    (categoryId : Option ℕ) (l : List ComponentScoreIn) : Prop where
  rows : ∀ e ∈ db.scoresOf submissionId, InCategory category categoryId e.2.componentId
  scores : ∀ e ∈ l, (db.components e.componentId).isSome →
    InCategory category categoryId e.componentId
  decimals : ∀ e ∈ l, (db.components e.componentId).isSome → numeric32 e.score = e.score

/-- An update without scores: the draft has been scored, and the category that it then has
    counts the same of its rows. -/
structure KeepsAnswers (category : ℕ → ℕ) (db : DraftDb) (submissionId : ℕ)
    (s : SubmissionRow) (categoryId : Option ℕ) : Prop where
  scored : s.overallScore ≠ none
  rows : ∀ e ∈ db.scoresOf submissionId,
    (InCategory category categoryId e.2.componentId ↔
      InCategory category s.categoryId e.2.componentId)

/-- What the call must meet in the state that it finds. -/
def MeetsCategory (category : ℕ → ℕ) (submissionId : ℕ) (db : DraftDb) (c : UpdateCall) : Prop :=
  ∀ s, db.submissions.get? submissionId = some s →
    match c.body.componentScores with
    | some l => ScoresCategory category db submissionId (c.body.categoryId.or s.categoryId) l
    | none => KeepsAnswers category db submissionId s (c.body.categoryId.or s.categoryId)

/-- What every call of such a run finds. -/
def ScoredBelongs (env : DraftEnv F) (category : ℕ → ℕ) (submissionId : ℕ) (db : DraftDb) : Prop :=
  (∀ s, db.submissions.get? submissionId = some s → s.overallScore ≠ none) →
    ScoreBelongs env category submissionId db

/-! ## The rows after an update -/

theorem mem_of_overwrites {components : ℕ → Option ℚ} {existing : ℕ → Option ℕ} {k : ℕ}
    {l : List ComponentScoreIn} {e : ComponentScoreIn}
    (h : e ∈ overwrites components existing k l) :
    e ∈ l ∧ (components e.componentId).isSome := by
  obtain ⟨hmem, hcond⟩ := List.mem_filter.mp h
  rw [Bool.and_eq_true] at hcond
  exact ⟨hmem, hcond.1⟩

theorem mem_of_inserts {components : ℕ → Option ℚ} {existing : ℕ → Option ℕ}
    {l : List ComponentScoreIn} {e : ComponentScoreIn} (h : e ∈ inserts components existing l) :
    e ∈ l ∧ (components e.componentId).isSome := by
  obtain ⟨hmem, hcond⟩ := List.mem_filter.mp h
  rw [Bool.and_eq_true] at hcond
  exact ⟨hmem, hcond.1⟩

/-- Scores with two decimals are stored as the session holds them. -/
theorem flushScores_get? {l : List ComponentScoreIn}
    (hdec : ∀ e ∈ l, (db.components e.componentId).isSome → numeric32 e.score = e.score) (k : ℕ) :
    (db.flushScores submissionId l).get? k = (db.upsert submissionId l).get? k := by
  have hloop := loopSpec_upsert db submissionId l
  by_cases hk : k < db.scores.next
  · rw [flushScores_old hk, hloop.old k hk]
    congr 1
    funext cs
    unfold lastStored lastWritten
    cases hlast : (overwrites db.components (existingByComponent (db.scoresOf submissionId)) k
        l).getLast? with
    | none => rfl
    | some e =>
      obtain ⟨hmem, hknown⟩ := mem_of_overwrites (List.mem_of_getLast? hlast)
      simp only [Option.map_some, Option.getD_some, ComponentScoreIn.onRow, hdec e hmem hknown]
  · obtain ⟨i, rfl⟩ := Nat.exists_eq_add_of_le (Nat.le_of_not_lt hk)
    rw [flushScores_new, hloop.new]
    cases hget : (inserts db.components (existingByComponent (db.scoresOf submissionId)) l)[i]? with
    | none => rfl
    | some e =>
      obtain ⟨hmem, hknown⟩ := mem_of_inserts (List.mem_of_getElem? hget)
      simp only [Option.map_some, ComponentScoreIn.storedRow, ComponentScoreIn.newRow,
        hdec e hmem hknown]

/-- After an update with scores every row is for a component of the category. -/
theorem ScoresCategory.after {categoryId : Option ℕ} {l : List ComponentScoreIn}
    (h : ScoresCategory category db submissionId categoryId l) {e : ℕ × ComponentScore}
    (he : e ∈ (db.flushScores submissionId l).select fun _ cs => cs.submissionId = submissionId) :
    InCategory category categoryId e.2.componentId := by
  obtain ⟨k, cs⟩ := e
  rcases mem_flushScores.mp he with ⟨cs0, hmem, rfl⟩ | ⟨i, e, hget, -, rfl⟩
  · rw [(lastStored_ids _ _ _).2]
    exact h.rows _ hmem
  · obtain ⟨hmem, hknown⟩ := mem_of_inserts (List.mem_of_getElem? hget)
    exact h.scores e hmem hknown

/-! ## Steps -/

/-- An update with scores scores the answers when all rows are answers. -/
theorem belongs_of_scored {l : List ComponentScoreIn} (hbody : body.componentScores = some l)
    (h : ∀ s, db.submissions.get? submissionId = some s →
      ScoresCategory category db submissionId (body.categoryId.or s.categoryId) l) :
    ScoreBelongs env category submissionId (db.updated env submissionId body) := by
  intro s' hs'
  obtain ⟨s, hs, rfl⟩ : ∃ s, db.submissions.get? submissionId = some s ∧
      db.scored env submissionId body.componentScores (body.apply env s) = s' := by
    simpa [DraftDb.updated] using hs'
  have hcategory := h s hs
  refine ⟨(db.upsert submissionId l).select fun _ cs => cs.submissionId = submissionId, ?_, ?_⟩
  · have hall : (db.updated env submissionId body).answers category submissionId
        (body.categoryId.or s.categoryId) =
        (db.flushScores submissionId l).select fun _ cs => cs.submissionId = submissionId := by
      simp only [DraftDb.answers, DraftDb.scoresOf, DraftDb.updated, hbody]
      rw [List.filter_eq_self]
      intro e he
      exact decide_eq_true (hcategory.after he)
    have hid : (db.scored env submissionId body.componentScores (body.apply env s)).categoryId =
        body.categoryId.or s.categoryId := by
      rw [hbody]
      rfl
    rw [hid, hall]
    exact Store.select_perm (flushScores_get? hcategory.decimals) _
  · rw [hbody]
    exact ⟨rfl, rfl⟩

/-- An update without scores keeps a score that belongs to the answers, when they stay the
    same. -/
theorem belongs_of_kept (hbody : body.componentScores = none)
    (hbelongs : ScoreBelongs env category submissionId db)
    (h : ∀ s, db.submissions.get? submissionId = some s →
      KeepsAnswers category db submissionId s (body.categoryId.or s.categoryId)) :
    ScoreBelongs env category submissionId (db.updated env submissionId body) := by
  intro s' hs'
  obtain ⟨s, hs, rfl⟩ : ∃ s, db.submissions.get? submissionId = some s ∧
      db.scored env submissionId body.componentScores (body.apply env s) = s' := by
    simpa [DraftDb.updated] using hs'
  obtain ⟨rows, hperm, hscore⟩ := hbelongs s hs
  have hkept : (db.updated env submissionId body).answers category submissionId
      (body.categoryId.or s.categoryId) = db.answers category submissionId s.categoryId := by
    simp only [DraftDb.answers, DraftDb.scoresOf, DraftDb.updated, hbody]
    apply List.filter_congr
    intro e he
    rw [decide_eq_decide]
    exact (h s hs).rows e he
  rw [hbody]
  exact ⟨rows, hkept ▸ hperm, hscore⟩

/-! ## Runs -/

variable {c : UpdateCall}

theorem updateStep_of_ok (h : (c.request env submissionId db).1 = .ok ()) :
    updateStep env submissionId db c = db.updated env submissionId c.body := by
  have hret : Svc.Returns (updateSubmission env c.user submissionId c.body) db ()
      (updateStep env submissionId db c) :=
    draftRequest_ok (Prod.ext h rfl)
  simp only [updateSubmission, Svc.returns_require_bind, Drafts.returns_updateDraft] at hret
  exact hret.2.2.2.2.symm

theorem updateStep_of_error {e : Exn} (h : (c.request env submissionId db).1 = .error e) :
    updateStep env submissionId db c = db :=
  draftRequest_error (Prod.ext h rfl)

/-- A call that meets the condition leaves a score that belongs to the answers. -/
theorem MeetsCategory.leaves (hinv : ScoredBelongs env category submissionId db)
    (h : MeetsCategory category submissionId db c) :
    LeavesBelonging env category submissionId db c := by
  intro hok
  rw [updateStep_of_ok hok]
  cases hbody : c.body.componentScores with
  | some l =>
    apply belongs_of_scored hbody
    intro s hs
    have hmeets := h s hs
    rw [hbody] at hmeets
    exact hmeets
  | none =>
    have hkeeps : ∀ s, db.submissions.get? submissionId = some s →
        KeepsAnswers category db submissionId s (c.body.categoryId.or s.categoryId) := by
      intro s hs
      have hmeets := h s hs
      rw [hbody] at hmeets
      exact hmeets
    exact belongs_of_kept hbody (hinv fun s hs => (hkeeps s hs).scored) hkeeps

theorem ScoredBelongs.step (hinv : ScoredBelongs env category submissionId db)
    (h : MeetsCategory category submissionId db c) :
    ScoredBelongs env category submissionId (updateStep env submissionId db c) := by
  cases hresult : (c.request env submissionId db).1 with
  | ok u => exact fun _ => h.leaves hinv hresult
  | error e =>
    rw [updateStep_of_error hresult]
    exact hinv

theorem JustStarted.scoredBelongs (h : JustStarted submissionId db) :
    ScoredBelongs env category submissionId db :=
  fun hscored s hs => absurd (h.unscored s hs) (hscored s hs)

/-- From a new draft on, whatever the calls are: as long as every call with scores has only
    components of the category that the draft then has, beside rows of that category, and
    every call without them finds a scored draft and keeps its answers, each accepted call
    leaves the score of exactly the answers for the draft's category. -/
theorem runs_belong (env : DraftEnv F) (category : ℕ → ℕ) (submissionId : ℕ) (db : DraftDb)
    (hstart : JustStarted submissionId db) (calls : List UpdateCall)
    (h : AllSteps (updateStep env submissionId) (MeetsCategory category submissionId) db calls) :
    AllSteps (updateStep env submissionId) (LeavesBelonging env category submissionId) db calls :=
  h.of_inv (fun _ _ hinv hc => ScoredBelongs.step hinv hc)
    (fun _ _ hinv hc => MeetsCategory.leaves hinv hc) hstart.scoredBelongs

/-- A new draft of appraiser 7; component `c` is one of category `c`. -/
def draftTables : DraftDb where
  submissions := Store.empty.create (SubmissionRow.started 7)
  scores := .empty
  components c := if c < 2 then some 50 else none
  categories c := c < 2

theorem draftTables_justStarted : JustStarted 0 draftTables where
  unscored s hs := by
    cases hs
    rfl
  noScores := rfl

/-- A component of the first category is scored. -/
def scoreFirst : UpdateCall where
  user := ⟨7, false⟩
  body := { SubmissionUpdateRequest.empty with
    categoryId := some 0
    componentScores := some [⟨0, 5, none⟩] }

/-- The draft becomes one of the second category. -/
def changeCategory : UpdateCall where
  user := ⟨7, false⟩
  body := { SubmissionUpdateRequest.empty with categoryId := some 1 }

/-- The year is corrected. -/
def correctYear : UpdateCall where
  user := ⟨7, false⟩
  body := { SubmissionUpdateRequest.empty with year := some 2019 }

/-- A draft that is scored and then corrected keeps its score. -/
theorem runs_belong_corrected :
    AllSteps (updateStep plainDraftEnv 0) (LeavesBelonging plainDraftEnv id 0) draftTables
      [scoreFirst, correctYear] := by
  apply runs_belong plainDraftEnv id 0 draftTables draftTables_justStarted
  refine ⟨fun s _ => ?_, fun s hs => ?_, trivial⟩
  · refine ⟨fun e he => ?_, fun e he _ => ?_, fun e he _ => ?_⟩
    · rw [draftTables_justStarted.noScores] at he
      cases he
    · rw [List.mem_singleton.mp he]
      rfl
    · rw [List.mem_singleton.mp he]
      decide +kernel
  · refine ⟨fun hnone => ?_, fun e _ => Iff.rfl⟩
    have hscore : ((updateStep plainDraftEnv 0 draftTables scoreFirst).submissions.get? 0).map
        SubmissionRow.overallScore = some (some 5) := by
      decide +kernel
    rw [hs, Option.map_some, hnone] at hscore
    exact absurd hscore (by decide)

/-- The score stays when the category is changed, although the draft has no answer for the
    new one. -/
theorem changedCategory_fails :
    ¬ ∀ (env : DraftEnv ℚ) (category : ℕ → ℕ) (submissionId : ℕ) (db : DraftDb),
      JustStarted submissionId db → ∀ calls : List UpdateCall,
        AllSteps (updateStep env submissionId) (LeavesBelonging env category submissionId) db
          calls := by
  intro h
  have hlast := (h plainDraftEnv id 0 draftTables draftTables_justStarted
    [scoreFirst, changeCategory]).2.1 rfl
  have hrow : ((updateStep plainDraftEnv 0 (updateStep plainDraftEnv 0 draftTables scoreFirst)
      changeCategory).submissions.get? 0).map (fun s => (s.overallScore, s.categoryId)) =
      some (some 5, some 1) := by
    decide +kernel
  obtain ⟨s, hs, hpair⟩ := Option.map_eq_some_iff.mp hrow
  obtain ⟨hscore, hcategory⟩ := Prod.mk.inj hpair
  obtain ⟨rows, hperm, hoverall, -⟩ := hlast s hs
  have hnone : ((updateStep plainDraftEnv 0 (updateStep plainDraftEnv 0 draftTables scoreFirst)
      changeCategory).answers id 0 (some 1)).length = 0 := by
    decide +kernel
  rw [hcategory, List.eq_nil_of_length_eq_zero hnone] at hperm
  rw [hperm.nil_eq.symm, hscore] at hoverall
  exact absurd hoverall (by decide +kernel)

end TempleConsign
