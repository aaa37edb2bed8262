import TempleConsign.Database

/-!
# Appraisal submissions

Model of `src/api/services/appraisal_submission_service.py`: creating,
updating and submitting a draft. What `red_flag_service.evaluate` answers and
which required photo slots are empty are arguments.

Results:
* `returns_createDraft`, `returns_updateDraft`, `returns_submit`: what each
  service checked and wrote when it returned.
-/

namespace TempleConsign

open ServiceLib

/-- The row of a new draft. -/
def newDraft (recordId appraiserId : ℕ) : AppraisalSubmission where
  recordId := recordId
  appraiserId := some appraiserId
  status := .draft
  categoryId := none
  make := none
  model := none
  year := none
  managementReviewRequired := false
  holdForTitleReview := false
  marketabilityRating := none
  reviewNotes := none
  approvedPurchaseOffer := none
  suggestedConsignmentPrice := none
  rejectionNotes := none
  approvedById := none
  approvedAt := none
  submittedAt := none
  deletedAt := none

/-- `create_draft` (line 62). The last check stands for the foreign key and
    the partial unique index `uq_appraisal_submissions_one_draft`. -/
def createDraft (appraiser recordId : ℕ) : Service ℕ := do
  let existing ← selectOne Db.submissions fun _ s =>
    s.recordId = recordId && s.status = .draft && s.deletedAt.isNone
  Svc.require (existing = none) (.valueError "A draft already exists for this equipment record")
  let db ← get
  Svc.require (db.records.get? recordId ≠ none ∧
      (db.submissions.exists? fun _ s => s.recordId = recordId && s.status = .draft) = false)
    .integrityError
  modify fun db => { db with submissions := db.submissions.create (newDraft recordId appraiser) }
  pure db.submissions.next

/-- `_fetch` (line 375). -/
def fetchSubmission (submissionId : ℕ) : Service AppraisalSubmission :=
  fetch Db.submissions submissionId (fun s => s.deletedAt.isNone)
    (.lookupError s!"Submission {submissionId} not found")

/-- `_check_access` (line 410). -/
def checkAccess (userId : ℕ) (submission : AppraisalSubmission) : Service Unit := do
  let db ← get
  let roles := ((db.users.get? userId).map User.roles).getD []
  Svc.require (.admin ∈ roles ∨ submission.appraiserId = some userId)
    (.permissionError "Access denied to submission")

/-- The scalar fields of `SubmissionUpdateRequest` some modelled service reads. -/
structure SubmissionUpdate where
  categoryId : Option ℕ := none
  make : Option String := none
  model : Option String := none
  year : Option ℤ := none
  marketabilityRating : Option String := none

/-- `_apply_scalar_fields` (line 259): a field that is `None` is left alone. -/
def applyScalarFields (body : SubmissionUpdate) (s : AppraisalSubmission) : AppraisalSubmission :=
  { s with
    categoryId := body.categoryId.or s.categoryId
    make := body.make.or s.make
    model := body.model.or s.model
    year := body.year.or s.year
    marketabilityRating := body.marketabilityRating.or s.marketabilityRating }

/-- `update_draft` (line 105), on the scalar fields. -/
def updateDraft (userId submissionId : ℕ) (body : SubmissionUpdate) : Service Unit := do
  let submission ← fetchSubmission submissionId
  checkAccess userId submission
  Svc.require (submission.status = .draft)
    (.valueError s!"Only drafts can be updated; status is '{submission.status.value}'")
  modify fun db =>
    { db with submissions := db.submissions.modify submissionId (applyScalarFields body) }

/-- What `red_flag_service.evaluate` returns. -/
structure RedFlagResult where
  managementReviewRequired : Bool := false
  holdForTitleReview : Bool := false
  marketabilityRating : Option String := none
  reviewNotes : Option String := none

/-- The fields `submit` writes (lines 208-217). -/
def submittedRow (now : ℤ) (flags : RedFlagResult) (s : AppraisalSubmission) :
    AppraisalSubmission :=
  { s with
    managementReviewRequired := flags.managementReviewRequired
    holdForTitleReview := flags.holdForTitleReview
    marketabilityRating := flags.marketabilityRating.or s.marketabilityRating
    reviewNotes := flags.reviewNotes.or s.reviewNotes
    status := .submitted
    submittedAt := some now }

/-- `submit` (line 179). `missing` are the required photo slots of the
    submission's category without a photo (`_validate_required_photos`). -/
def submit (now : ℤ) (appraiser submissionId : ℕ) (flags : RedFlagResult)
    (missing : List String) : Service Unit := do
  let submission ← fetchSubmission submissionId
  checkAccess appraiser submission
  Svc.require (submission.status = .draft)
    (.valueError s!"Cannot submit: status is '{submission.status.value}', expected 'draft'")
  Svc.require (submission.categoryId = none ∨ missing = [])
    (.valueError s!"Required photo slots not captured: {missing}")
  modify fun db =>
    { db with submissions := db.submissions.modify submissionId (submittedRow now flags) }
  let db ← get
  match db.records.get? submission.recordId with
  | some record =>
    recordTransition submission.recordId record .appraisalComplete (some appraiser) none
  | none => pure ()

/-! ## What each service did when it returned -/

/-- `checkAccess` passes for an admin and for the submission's appraiser. -/
def HasAccess (db : Db) (userId : ℕ) (submission : AppraisalSubmission) : Prop :=
  (.admin ∈ ((db.users.get? userId).map User.roles).getD [] ∨
    submission.appraiserId = some userId)

theorem returns_checkAccess {userId : ℕ} {submission : AppraisalSubmission} {db db' : Db}
    {u : Unit} :
    Svc.Returns (checkAccess userId submission) db u db' ↔
      HasAccess db userId submission ∧ db = db' := by
  simp only [checkAccess, Svc.returns_get_bind, Svc.returns_require, HasAccess]

theorem returns_createDraft {appraiser recordId id : ℕ} {db db' : Db} :
    Svc.Returns (createDraft appraiser recordId) db id db' ↔
      db.records.get? recordId ≠ none ∧
        (∀ k s, db.submissions.get? k = some s → s.recordId = recordId → s.status ≠ .draft) ∧
        db.submissions.next = id ∧
        { db with submissions := db.submissions.create (newDraft recordId appraiser) } = db' := by
  simp only [createDraft, returns_selectOne_bind, Svc.returns_require_bind, Svc.returns_get_bind,
    Svc.returns_modify_bind, Svc.returns_pure, ← Bool.not_eq_true, Store.exists?_iff,
    Bool.and_eq_true, decide_eq_true_eq, not_exists, not_and]
  constructor
  · rintro ⟨o, -, -, ⟨hr, hno⟩, hid, hdb⟩
    exact ⟨hr, fun k s hk hs hd => hno k s hk hs hd, hid, hdb⟩
  · rintro ⟨hr, hno, hid, hdb⟩
    refine ⟨none, ?_, rfl, ⟨hr, fun k s hk hs hd => hno k s hk hs hd⟩, hid, hdb⟩
    rw [Store.scalar_select_none_iff]
    intro k s hk
    have := hno k s hk
    by_cases hs : s.recordId = recordId
    · simp [this hs]
    · simp [hs]

theorem returns_updateDraft {userId submissionId : ℕ} {body : SubmissionUpdate} {db db' : Db}
    {u : Unit} :
    Svc.Returns (updateDraft userId submissionId body) db u db' ↔
      ∃ s, (db.submissions.get? submissionId = some s ∧ s.deletedAt.isNone = true) ∧
        HasAccess db userId s ∧ s.status = .draft ∧
        { db with submissions :=
            db.submissions.modify submissionId (applyScalarFields body) } = db' := by
  simp only [updateDraft, fetchSubmission, returns_fetch_bind,
    Svc.returns_bind_of_write fun _ _ => returns_checkAccess, Svc.returns_require_bind,
    Svc.returns_modify]

/-- `submit` turns the draft into a submission and moves its record to
    `appraisal_complete`. -/
theorem returns_submit {now : ℤ} {appraiser submissionId : ℕ} {flags : RedFlagResult}
    {missing : List String} {db db' : Db} {u : Unit} :
    Svc.Returns (submit now appraiser submissionId flags missing) db u db' ↔
      ∃ s, (db.submissions.get? submissionId = some s ∧ s.deletedAt.isNone = true) ∧
        HasAccess db appraiser s ∧ s.status = .draft ∧ (s.categoryId = none ∨ missing = []) ∧
        ((∃ record, db.records.get? s.recordId = some record ∧
            record.status ≠ .appraisalComplete ∧
            ({ db with submissions :=
                db.submissions.modify submissionId (submittedRow now flags) }).transition
              s.recordId record.status .appraisalComplete (some appraiser) none = db') ∨
         (db.records.get? s.recordId = none ∧
            { db with submissions :=
                db.submissions.modify submissionId (submittedRow now flags) } = db')) := by
  simp only [submit, fetchSubmission, returns_fetch_bind,
    Svc.returns_bind_of_write fun _ _ => returns_checkAccess, Svc.returns_require_bind,
    Svc.returns_modify_bind, Svc.returns_get_bind]
  refine exists_congr fun s => and_congr_right fun _ => and_congr_right fun _ =>
    and_congr_right fun _ => and_congr_right fun _ => ?_
  have hforb (record : EquipmentRecord) :
      isForbiddenTransition record.status .appraisalComplete = false :=
    not_forbidden_into _ (by decide)
  cases db.records.get? s.recordId with
  | some record => simp [hforb]
  | none => simp

end TempleConsign
