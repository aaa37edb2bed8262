import TempleConsign.Database

/-!
# Intake, reports, publication and the admin override

Model of `submit_intake` (`src/api/services/equipment_service.py`),
`generate_and_store` (`src/api/services/pdf_generation_worker.py`),
`publish_record` (`src/api/services/sales_service.py`) and of the admin
endpoint `manual_transition` (`src/api/routers/admin.py`).

Results:
* `returns_submitIntake`, `returns_generateAndStore`, `returns_publishRecord`,
  `returns_manualTransition`: what each service checked and wrote when it
  returned.
-/

namespace TempleConsign

open ServiceLib

/-- The part of `IntakeSubmission` the record keeps, sanitized, with the
    reserved reference number. -/
structure Intake where
  customerId : ℕ
  referenceNumber : Option String := none
  customerMake : Option String := none
  customerModel : Option String := none
  customerLocationText : Option String := none

/-- The row `submit_intake` inserts (`equipment_service.py` line 115). -/
def Intake.record (payload : Intake) : EquipmentRecord where
  customerId := payload.customerId
  status := .newRequest
  referenceNumber := payload.referenceNumber
  customerMake := payload.customerMake
  customerModel := payload.customerModel
  customerLocationText := payload.customerLocationText
  deletedAt := none

/-- `submit_intake` (`equipment_service.py` line 103). -/
def submitIntake (payload : Intake) : Service ℕ := do
  let db ← get
  Svc.require (db.customers.get? payload.customerId ≠ none) .integrityError
  modify fun db => { db with records := db.records.create payload.record }
  pure db.records.next

/-- `generate_and_store` (`pdf_generation_worker.py` line 87) once the PDF is
    rendered and stored under `storageKey`. -/
def generateAndStore (now : ℤ) (submissionId : ℕ) (storageKey : String) : Service Unit := do
  let submission ← fetch Db.submissions submissionId (fun _ => true)
    (.lookupError s!"Submission {submissionId} not found")
  let existing ← selectOne Db.reports fun _ r => r.submissionId = some submissionId
  modify fun db => { db with
    reports := match existing with
      | some (id, _) => db.reports.modify id fun r =>
          { r with gcsPath := storageKey, generatedAt := now }
      | none => db.reports.create
          { recordId := submission.recordId, submissionId := some submissionId,
            gcsPath := storageKey, generatedAt := now } }

/-- The title of a new listing (`sales_service.py` line 358). -/
def listingTitle (recordId : ℕ) (record : EquipmentRecord) : String :=
  (truthy (some (strip (record.customerMake.getD "" ++ " " ++ record.customerModel.getD "")))).getD
    ((truthy record.referenceNumber).getD (toString recordId))

/-- The listing `publish_record` creates or refreshes (`sales_service.py` lines
    353-366). -/
def Db.list (db : Db) (now : ℤ) (recordId : ℕ) (record : EquipmentRecord) : Db :=
  { db with
    listings := match (db.listings.select fun _ l => l.recordId = recordId).head? with
      | none => db.listings.create
          { recordId, listingTitle := listingTitle recordId record, status := "active",
            publishedAt := some now }
      | some (id, _) => db.listings.modify id fun l =>
          { l with status := "active", publishedAt := some now } }

/-- `record.consignment_contract is None or … signed_at is None`, negated
    (`sales_service.py` line 341). -/
def hasSignedContract (db : Db) (recordId : ℕ) : Bool :=
  ((db.contracts.select fun _ c => c.recordId = recordId).head?.bind fun c => c.2.signedAt).isSome

/-- `publish_record` (`sales_service.py` line 301). -/
def publishRecord (now : ℤ) (actingUser recordId : ℕ) : Service Unit := do
  let record ← fetch Db.records recordId (fun r => r.deletedAt.isNone)
    (.httpException 404 "record not found")
  Svc.require (record.status = .esignedPendingPublish)
    (.httpException 400 (s!"record is in '{record.status.value}', not " ++
      s!"'{Status.esignedPendingPublish.value}'; publish is only valid after eSign"))
  let db ← get
  Svc.require (hasSignedContract db recordId = true)
    (.httpException 400 "no signed consignment contract on file")
  Svc.require ((db.reports.exists? fun _ r => r.recordId = recordId) = true)
    (.httpException 400 "no appraisal report on file")
  modify fun db => db.list now recordId record
  recordTransition recordId record .listed (some actingUser)
    (some "Listing published by sales rep.")

/-- `manual_transition` (`routers/admin.py` line 109). -/
def manualTransition (admin recordId : ℕ) (toStatus reason : String) : Service Unit := do
  let target ← Svc.expect (Status.ofValue? toStatus)
    (.httpException 422 s!"Unknown status '{toStatus}'.")
  let record ← fetch Db.records recordId (fun r => r.deletedAt.isNone)
    (.httpException 404 "Equipment record not found.")
  recordTransition recordId record target (some admin) (some reason)

/-! ## What each service did when it returned -/

theorem returns_submitIntake {payload : Intake} {db db' : Db} {id : ℕ} :
    Svc.Returns (submitIntake payload) db id db' ↔
      db.customers.get? payload.customerId ≠ none ∧ db.records.next = id ∧
        { db with records := db.records.create payload.record } = db' := by
  simp only [submitIntake, Svc.returns_get_bind, Svc.returns_require_bind,
    Svc.returns_modify_bind, Svc.returns_pure]

/-- A report row is added, or the submission's row is refreshed. -/
theorem returns_generateAndStore {now : ℤ} {submissionId : ℕ} {storageKey : String} {db db' : Db}
    {u : Unit} (h : Svc.Returns (generateAndStore now submissionId storageKey) db u db') :
    ∃ submission, db.submissions.get? submissionId = some submission ∧
      ((∃ id, { db with
          reports := db.reports.modify id fun r =>
            { r with gcsPath := storageKey, generatedAt := now } } = db') ∨
       { db with
          reports := db.reports.create
            { recordId := submission.recordId, submissionId := some submissionId,
              gcsPath := storageKey, generatedAt := now } } = db') := by
  simp only [generateAndStore, returns_fetch_bind, returns_selectOne_bind, Svc.returns_modify] at h
  obtain ⟨submission, ⟨hs, -⟩, existing, -, hdb⟩ := h
  refine ⟨submission, hs, ?_⟩
  cases existing with
  | none => exact Or.inr hdb
  | some e => exact Or.inl ⟨e.1, hdb⟩

/-- `publish_record` needs a live record in `esigned_pending_publish`, a signed
    contract and a report. -/
theorem returns_publishRecord {now : ℤ} {actingUser recordId : ℕ} {db db' : Db} {u : Unit} :
    Svc.Returns (publishRecord now actingUser recordId) db u db' ↔
      ∃ record, (db.records.get? recordId = some record ∧ record.deletedAt.isNone = true) ∧
        record.status = .esignedPendingPublish ∧ hasSignedContract db recordId = true ∧
        (∃ k r, db.reports.get? k = some r ∧ r.recordId = recordId) ∧
        (db.list now recordId record).transition recordId .esignedPendingPublish .listed
          (some actingUser) (some "Listing published by sales rep.") = db' := by
  simp only [publishRecord, returns_fetch_bind, Svc.returns_require_bind, Svc.returns_get_bind,
    Svc.returns_modify_bind, returns_recordTransition, Store.exists?_iff, decide_eq_true_eq]
  refine exists_congr fun record => and_congr_right fun _ => and_congr_right fun hs => ?_
  simp [hs, isForbiddenTransition, forbiddenTransitions]

theorem returns_manualTransition {admin recordId : ℕ} {toStatus reason : String} {db db' : Db}
    {u : Unit} :
    Svc.Returns (manualTransition admin recordId toStatus reason) db u db' ↔
      ∃ target, target.value = toStatus ∧
      ∃ record, (db.records.get? recordId = some record ∧ record.deletedAt.isNone = true) ∧
        record.status ≠ target ∧ isForbiddenTransition record.status target = false ∧
        db.transition recordId record.status target (some admin) (some reason) = db' := by
  simp only [manualTransition, Svc.returns_expect_bind, Status.ofValue?_eq_some,
    returns_fetch_bind, returns_recordTransition]

end TempleConsign
