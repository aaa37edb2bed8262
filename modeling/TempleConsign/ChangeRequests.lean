import Mathlib.Algebra.Order.Field.Rat
import TempleConsign.Database

/-!
# Change requests

Model of `src/api/services/change_request_service.py` and of the threshold
check of `src/api/services/price_change_service.py`. Notes come in sanitized.

Deviations:
* The `float` arithmetic of the threshold check is a parameter (`PriceThreshold`).
* A proposed price is stored with the digits it comes in with, where the column keeps two
  decimals.

Results:
* `returns_submitChangeRequest`, `returns_resolveChangeRequest`: what each
  service checked and wrote when it returned.
-/

namespace TempleConsign

open ServiceLib

/-- The row `submit_change_request` inserts (line 71). -/
def newChangeRequest (recordId : ℕ) (requestType : RequestType) (customerNotes : Option String)
    (price : Option ℚ) : ChangeRequest where
  recordId := recordId
  requestType := requestType
  customerNotes := customerNotes
  status := .pending
  resolutionNotes := none
  requiresManagerReapproval := false
  proposedConsignmentPrice := price
  resolvedAt := none
  resolvedBy := none

/-- The configured threshold, and `abs(proposed_price - approved_price) / approved_price *
    100` as the `float` it is for an approved and a proposed price. -/
structure PriceThreshold where
  changePct : ℚ → ℚ → ℚ
  thresholdPct : ℚ

/-- The threshold test of `evaluate` (`price_change_service.py` lines 58-70). -/
def exceedsThreshold (threshold : PriceThreshold) (approvedPrice proposedPrice : ℚ) : Bool :=
  approvedPrice ≠ 0 && threshold.thresholdPct < threshold.changePct approvedPrice proposedPrice

/-- `evaluate` (`price_change_service.py` line 31): whether the new request
    needs a manager. -/
def evaluate (threshold : PriceThreshold) (change : ChangeRequest) : Service Bool := do
  match change.proposedConsignmentPrice with
  | none => pure false
  | some proposed => do
    let submission ← selectOne Db.submissions fun _ s =>
      s.recordId = change.recordId && s.status = .approved
    match submission.bind fun s => s.2.suggestedConsignmentPrice with
    | none => pure false
    | some approved => pure (exceedsThreshold threshold approved proposed)

/-- `get_record_for_user` (`equipment_service.py` line 360). -/
def getRecordForUser (userId recordId : ℕ) : Service EquipmentRecord := do
  let customer ← selectOne Db.customers fun _ c => c.userId = some userId
  let (customerId, _) ← Svc.expect customer (.httpException 404 "Equipment record not found.")
  fetch Db.records recordId (fun r => r.customerId = customerId)
    (.httpException 404 "Equipment record not found.")

/-- `submit_change_request` (line 55) on the record of the signed-in customer.
    The second check is the index `ux_change_requests_one_pending_per_record`. -/
def submitChangeRequest (threshold : PriceThreshold) (customer recordId : ℕ)
    (requestType : String) (customerNotes : Option String) (price : Option ℚ) :
    Service Unit := do
  let _ ← getRecordForUser customer recordId
  let kind ← Svc.expect (RequestType.ofValue? requestType)
    (.httpException 422 ("request_type must be one of: ['edit_details', 'other', " ++
      "'update_consignment_price', 'update_location', 'update_photos', 'withdraw']"))
  let db ← get
  Svc.require ((db.changeRequests.exists? fun _ c =>
      c.recordId = recordId && c.status = .pending) = false)
    (.httpException 409 ("A change request for this record is already pending. " ++
      "Wait for the sales team to resolve it before submitting another."))
  let change := newChangeRequest recordId kind customerNotes price
  let flagged ← evaluate threshold change
  modify fun db => { db with
    changeRequests :=
      db.changeRequests.create { change with requiresManagerReapproval := flagged } }

/-- The legal targets of `resolve_change_request` (line 190). -/
def resolution? (newStatus : String) : Option ChangeStatus :=
  if newStatus = "resolved" then some .resolved
  else if newStatus = "rejected" then some .rejected
  else none

/-- The note of the withdraw transition (line 235). -/
def withdrawNote (resolutionNotes : Option String) : String :=
  String.ofList
    ((((truthy resolutionNotes).getD "Withdrawn via customer change request.").toList).take 500)

/-- The fields `resolve_change_request` writes (lines 220-223). -/
def resolvedRow (now : ℤ) (resolver : ℕ) (target : ChangeStatus) (resolutionNotes : Option String)
    (c : ChangeRequest) : ChangeRequest :=
  { c with
    status := target
    resolutionNotes := resolutionNotes
    resolvedAt := some now
    resolvedBy := some resolver }

/-- `resolve_change_request` (line 174). A resolved `withdraw` request moves
    the record to `withdrawn`. The customer mail at the end reads the name of the
    customer's account. -/
def resolveChangeRequest (now : ℤ) (resolver changeRequestId : ℕ) (newStatus : String)
    (resolutionNotes : Option String) : Service Unit := do
  let target ← Svc.expect (resolution? newStatus)
    (.httpException 422 "status must be 'resolved' or 'rejected'")
  let change ← fetch Db.changeRequests changeRequestId (fun _ => true)
    (.httpException 404 "change request not found")
  Svc.require (change.status = .pending)
    (.httpException 409
      s!"change request is already '{change.status.value}'; cannot re-resolve")
  let db ← get
  let record ← Svc.expect (db.records.get? change.recordId) .attributeError
  modify fun db => { db with
    changeRequests :=
      db.changeRequests.modify changeRequestId (resolvedRow now resolver target resolutionNotes) }
  Svc.onlyIf (target = .resolved ∧ change.requestType = .withdraw)
    (recordTransition change.recordId record .withdrawn (some resolver)
      (some (withdrawNote resolutionNotes)))
  Svc.require ((customerUser db record).isSome = true) .attributeError

/-! ## What each service did when it returned -/

theorem returns_getRecordForUser {userId recordId : ℕ} {db db' : Db} {record : EquipmentRecord}
    (h : Svc.Returns (getRecordForUser userId recordId) db record db') :
    db.records.get? recordId = some record ∧ db = db' := by
  simp only [getRecordForUser, returns_selectOne_bind, Svc.returns_expect_bind, returns_fetch] at h
  obtain ⟨_, -, _, -, ⟨hr, -⟩, hdb⟩ := h
  exact ⟨hr, hdb⟩

theorem returns_evaluate {threshold : PriceThreshold} {change : ChangeRequest} {db db' : Db}
    {b : Bool}
    (h : Svc.Returns (evaluate threshold change) db b db') : db = db' := by
  unfold evaluate at h
  split at h
  · exact (Svc.returns_pure.mp h).2
  · simp only [returns_selectOne_bind] at h
    obtain ⟨o, -, h⟩ := h
    split at h
    · exact (Svc.returns_pure.mp h).2
    · exact (Svc.returns_pure.mp h).2

/-- `submit_change_request` inserts one pending request. -/
theorem returns_submitChangeRequest {threshold : PriceThreshold} {customer recordId : ℕ}
    {requestType : String} {customerNotes : Option String} {price : Option ℚ} {db db' : Db}
    {u : Unit}
    (h : Svc.Returns
      (submitChangeRequest threshold customer recordId requestType customerNotes price)
      db u db') :
    ∃ change, change.recordId = recordId ∧ change.status = .pending ∧
      { db with changeRequests := db.changeRequests.create change } = db' := by
  unfold submitChangeRequest at h
  obtain ⟨record, db1, h1, h⟩ := Svc.returns_bind.mp h
  obtain ⟨-, rfl⟩ := returns_getRecordForUser h1
  simp only [Svc.returns_expect_bind, Svc.returns_get_bind, Svc.returns_require_bind] at h
  obtain ⟨kind, -, -, h⟩ := h
  obtain ⟨flagged, db2, h2, h⟩ := Svc.returns_bind.mp h
  obtain rfl := returns_evaluate h2
  exact ⟨_, rfl, rfl, Svc.returns_modify.mp h⟩

/-- `resolve_change_request` resolves a pending request and, for a resolved
    `withdraw`, moves its record to `withdrawn`. -/
theorem returns_resolveChangeRequest {now : ℤ} {resolver changeRequestId : ℕ} {newStatus : String}
    {resolutionNotes : Option String} {db db' : Db} {u : Unit} :
    Svc.Returns (resolveChangeRequest now resolver changeRequestId newStatus resolutionNotes)
        db u db' ↔
      ∃ target, resolution? newStatus = some target ∧
      ∃ change, db.changeRequests.get? changeRequestId = some change ∧
        change.status = .pending ∧
        ∃ record, db.records.get? change.recordId = some record ∧
        (customerUser db record).isSome = true ∧
        ((target = .resolved ∧ change.requestType = .withdraw ∧ record.status ≠ .withdrawn ∧
            ({ db with
                changeRequests := db.changeRequests.modify changeRequestId
                  (resolvedRow now resolver target resolutionNotes) }).transition
              change.recordId record.status .withdrawn (some resolver)
              (some (withdrawNote resolutionNotes)) = db') ∨
         (¬ (target = .resolved ∧ change.requestType = .withdraw) ∧
            { db with
              changeRequests := db.changeRequests.modify changeRequestId
                (resolvedRow now resolver target resolutionNotes) } = db')) := by
  simp only [resolveChangeRequest, Svc.returns_expect_bind, returns_fetch_bind, and_true,
    Svc.returns_require_bind, Svc.returns_get_bind, Svc.returns_modify_bind,
    Svc.returns_onlyIf_bind, Svc.returns_require, returns_recordTransition]
  refine exists_congr fun target => and_congr_right fun _ => exists_congr fun change =>
    and_congr_right fun _ => and_congr_right fun _ => exists_congr fun record =>
    and_congr_right fun _ => ?_
  have hforb : isForbiddenTransition record.status .withdrawn = false :=
    not_forbidden_into _ (by decide)
  by_cases hu : (customerUser db record).isSome = true
  · simp [hu, hforb, and_assoc]
  · simp [hu]

end TempleConsign
