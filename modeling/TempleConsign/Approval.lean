import Mathlib.Data.Rat.Floor
import TempleConsign.Appraisal
import TempleConsign.Signing

/-!
# Manager approval

Model of `src/api/services/approval_service.py`: approving a submission, with
the contract dispatch it ends in, rejecting one, and re-approving a price.

Results:
* `returns_approve`, `returns_reject`, `returns_approvePriceChange`: what each
  service checked and wrote when it returned.
-/

namespace TempleConsign

open ServiceLib

/-- The notes `approve` stores (line 148). -/
def appendNotes (prior notes : Option String) : Option String :=
  match truthy notes, truthy prior with
  | none, _ => prior
  | some n, some p => some (strip (p ++ "\n" ++ n))
  | some n, none => some n

/-- The body of `ApprovalDecisionRequest` (`src/api/schemas/approval.py` line 34). -/
structure ApprovalDecision where
  purchaseOffer : ℚ
  consignmentPrice : ℚ
  notes : Option String := none
  titleReviewConfirmed : Bool := false

/-- The fields `approve` writes (lines 146-153). -/
def approvedRow (now : ℤ) (approvingUser : ℕ) (body : ApprovalDecision) (s : AppraisalSubmission) :
    AppraisalSubmission :=
  { s with
    approvedPurchaseOffer := some body.purchaseOffer
    suggestedConsignmentPrice := some body.consignmentPrice
    reviewNotes := appendNotes s.reviewNotes body.notes
    approvedById := some approvingUser
    approvedAt := some now
    status := .approved }

/-- `approve` (line 103). An exception of the contract dispatch is logged and
    the approval stands. -/
def approve (now : ℤ) (providerOk : Bool) (approvingUser submissionId : ℕ)
    (body : ApprovalDecision) : Service AppraisalSubmission := do
  let submission ← fetchSubmission submissionId
  Svc.require (submission.status = .submitted)
    (.valueError s!"Cannot approve: submission status is '{submission.status.value}'")
  Svc.require (submission.holdForTitleReview = false ∨ body.titleReviewConfirmed = true)
    (.valueError
      "This submission has a title hold — set title_review_confirmed to true to proceed.")
  let record ← fetch Db.records submission.recordId (fun _ => true)
    (.lookupError s!"Equipment record for submission {submissionId} not found")
  modify fun db => { db with
    submissions := db.submissions.modify submissionId (approvedRow now approvingUser body) }
  recordTransition submission.recordId record .approvedPendingEsign (some approvingUser) none
  Svc.attempt (dispatchContract providerOk submission.recordId record)
  fetchSubmission submissionId

/-- The fields `reject` writes (lines 236-237). -/
def rejectedRow (rejectionNotes : String) (s : AppraisalSubmission) : AppraisalSubmission :=
  { s with rejectionNotes := some rejectionNotes, status := .rejected }

/-- The record status `reject` moves to (line 240). -/
def rejectTarget (sendBack : Bool) : Status := if sendBack then .newRequest else .declined

/-- `reject` (line 199). -/
def reject (rejectingUser submissionId : ℕ) (rejectionNotes : String) (sendBack : Bool) :
    Service AppraisalSubmission := do
  let submission ← fetchSubmission submissionId
  Svc.require (submission.status = .submitted)
    (.valueError s!"Cannot reject: submission status is '{submission.status.value}'")
  let record ← fetch Db.records submission.recordId (fun _ => true)
    (.lookupError s!"Equipment record for submission {submissionId} not found")
  modify fun db => { db with
    submissions := db.submissions.modify submissionId (rejectedRow rejectionNotes) }
  recordTransition submission.recordId record (rejectTarget sendBack) (some rejectingUser)
    (some rejectionNotes)
  fetchSubmission submissionId

/-- The approved submission of a record, for `approve_price_change` (line 336). -/
def isLiveApprovedFor (recordId : ℕ) (_ : ℕ) (s : AppraisalSubmission) : Bool :=
  s.recordId = recordId && s.status = .approved && s.deletedAt.isNone

/-- `str` of a price out of its `NUMERIC(12, 2)` column. -/
def priceText (price : ℚ) : String :=
  let cents := ⌊|price| * 100 + 1 / 2⌋.toNat
  (if price < 0 ∧ cents ≠ 0 then "-" else "") ++ s!"{cents / 100}." ++
    String.ofList [(cents % 100 / 10).digitChar, (cents % 10).digitChar]

example : priceText 600 = "600.00" := by decide +kernel

/-- The fields `approve_price_change` writes on the request (lines 350-357). -/
def reapprovedRow (now : ℤ) (approvingUser : ℕ) (c : ChangeRequest) : ChangeRequest :=
  { c with
    status := .resolved
    resolvedBy := some approvingUser
    resolvedAt := some now
    requiresManagerReapproval := false
    resolutionNotes := match c.proposedConsignmentPrice with
      | some price => some ("Manager re-approved price change to $" ++ priceText price)
      | none => c.resolutionNotes }

/-- The price `approve_price_change` writes on the submission (line 358). -/
def Db.setPrice (db : Db) (submission : Option (ℕ × AppraisalSubmission)) (price : Option ℚ) : Db :=
  match submission, price with
  | some (id, _), some p => { db with
      submissions :=
        db.submissions.modify id fun s => { s with suggestedConsignmentPrice := some p } }
  | _, _ => db

/-- `approve_price_change` (line 309). -/
def approvePriceChange (now : ℤ) (approvingUser changeRequestId : ℕ) : Service Unit := do
  let change ← fetch Db.changeRequests changeRequestId (fun _ => true)
    (.lookupError s!"Change request {changeRequestId} not found")
  Svc.require (change.status = .pending)
    (.valueError s!"Cannot re-approve: change request status is '{change.status.value}'")
  Svc.require (change.requiresManagerReapproval = true)
    (.valueError "This change request does not require manager re-approval.")
  let submission ← selectOne Db.submissions (isLiveApprovedFor change.recordId)
  modify fun db => { db.setPrice submission change.proposedConsignmentPrice with
    changeRequests := db.changeRequests.modify changeRequestId (reapprovedRow now approvingUser) }

/-! ## What each service did when it returned -/

/-- The database after the writes of `approve`, before the dispatch. -/
def Db.approved (db : Db) (now : ℤ) (approvingUser submissionId : ℕ) (body : ApprovalDecision)
    (recordId : ℕ) (source : Status) : Db :=
  ({ db with submissions :=
      db.submissions.modify submissionId (approvedRow now approvingUser body) }).transition
    recordId source .approvedPendingEsign (some approvingUser) none

/-- The dispatch leaves the submissions alone. -/
theorem dispatch_submissions (providerOk : Bool) (recordId : ℕ) (record : EquipmentRecord)
    (db : Db) :
    (Svc.exec (dispatchContract providerOk recordId record) db).2.submissions = db.submissions := by
  rcases dispatch_cases providerOk recordId record db with h | ⟨contract, envelope, -, -, h⟩
  · rw [h]
  · rw [h]
    cases contract <;> rfl

/-- Re-reading a live submission after an update that keeps it live. -/
theorem live_modify_iff {t : Store AppraisalSubmission} {id : ℕ} {s res : AppraisalSubmission}
    {f : AppraisalSubmission → AppraisalSubmission}
    (h : t.get? id = some s ∧ s.deletedAt.isNone = true) (hf : (f s).deletedAt = s.deletedAt) :
    ((t.modify id f).get? id = some res ∧ res.deletedAt.isNone = true) ↔ f s = res := by
  rw [Store.get?_modify_self, h.1, Option.map_some, Option.some_inj]
  constructor
  · exact fun hr => hr.1
  · rintro rfl
    exact ⟨rfl, by rw [hf]; exact h.2⟩

/-- `approve` needs a submitted submission without an open title hold on a
    record that is not in `approved_pending_esign`. -/
theorem returns_approve {now : ℤ} {providerOk : Bool} {approvingUser submissionId : ℕ}
    {body : ApprovalDecision} {db db' : Db} {res : AppraisalSubmission} :
    Svc.Returns (approve now providerOk approvingUser submissionId body) db res db' ↔
      ∃ s, (db.submissions.get? submissionId = some s ∧ s.deletedAt.isNone = true) ∧
        s.status = .submitted ∧
        (s.holdForTitleReview = false ∨ body.titleReviewConfirmed = true) ∧
        ∃ record, db.records.get? s.recordId = some record ∧
          record.status ≠ .approvedPendingEsign ∧
          approvedRow now approvingUser body s = res ∧
          (Svc.exec (dispatchContract providerOk s.recordId record)
            (db.approved now approvingUser submissionId body s.recordId record.status)).2 =
              db' := by
  simp only [approve, fetchSubmission, returns_fetch_bind, Svc.returns_require_bind, and_true,
    Svc.returns_modify_bind, returns_recordTransition_bind, Svc.returns_attempt_bind,
    returns_fetch]
  refine exists_congr fun s => and_congr_right fun hs => and_congr_right fun _ =>
    and_congr_right fun _ => exists_congr fun record => and_congr_right fun _ => ?_
  have hforb : isForbiddenTransition record.status .approvedPendingEsign = false :=
    not_forbidden_into _ (by decide)
  rw [dispatch_submissions, transition_submissions, live_modify_iff hs rfl, hforb, Db.approved]
  simp

/-- `reject` needs a submitted submission; sending back is refused from
    `sold`, `declined` and `new_request`. -/
theorem returns_reject {rejectingUser submissionId : ℕ} {rejectionNotes : String}
    {sendBack : Bool} {db db' : Db} {res : AppraisalSubmission} :
    Svc.Returns (reject rejectingUser submissionId rejectionNotes sendBack) db res db' ↔
      ∃ s, (db.submissions.get? submissionId = some s ∧ s.deletedAt.isNone = true) ∧
        s.status = .submitted ∧
        ∃ record, db.records.get? s.recordId = some record ∧
          record.status ≠ rejectTarget sendBack ∧
          isForbiddenTransition record.status (rejectTarget sendBack) = false ∧
          rejectedRow rejectionNotes s = res ∧
          ({ db with submissions :=
              db.submissions.modify submissionId (rejectedRow rejectionNotes) }).transition
            s.recordId record.status (rejectTarget sendBack) (some rejectingUser)
            (some rejectionNotes) = db' := by
  simp only [reject, fetchSubmission, returns_fetch_bind, Svc.returns_require_bind, and_true,
    Svc.returns_modify_bind, returns_recordTransition_bind, returns_fetch]
  refine exists_congr fun s => and_congr_right fun hs => and_congr_right fun _ =>
    exists_congr fun record => and_congr_right fun _ => ?_
  rw [transition_submissions, live_modify_iff hs rfl]
  simp [and_assoc]

theorem returns_approvePriceChange {now : ℤ} {approvingUser changeRequestId : ℕ} {db db' : Db}
    {u : Unit} :
    Svc.Returns (approvePriceChange now approvingUser changeRequestId) db u db' ↔
      ∃ change, db.changeRequests.get? changeRequestId = some change ∧
        change.status = .pending ∧ change.requiresManagerReapproval = true ∧
        ∃ submission, Store.scalarOneOrNone
            (db.submissions.select (isLiveApprovedFor change.recordId)) = some submission ∧
          { db.setPrice submission change.proposedConsignmentPrice with
            changeRequests :=
              db.changeRequests.modify changeRequestId (reapprovedRow now approvingUser) } =
            db' := by
  simp only [approvePriceChange, returns_fetch_bind, Svc.returns_require_bind, and_true,
    returns_selectOne_bind, Svc.returns_modify]

end TempleConsign
