import TempleConsign.LeadRouting
import TempleConsign.NotificationQueue
import TempleConsign.Lib.CivilTime
import TempleConsign.Lib.UuidText

/-!
# Data exports

Model of `request_export` (`src/api/services/data_export_service.py` line 305) in the
transaction of its request: `get_db` (`src/api/database/base.py` line 42) commits when
the endpoint returns and rolls back on any exception. R2 is outside the transaction.

Deviations: the columns of the rows that are gathered are one JSON value, what
`_serialize_*` makes of a row. What R2, the zip file, the JSON encoder and a lost
connection answer is a parameter. After a failed `SELECT` the flush of the handler
raises another error; here it writes like after the other failures.

Results:
* `returns_requestExport`: what a request needs to return, and what it leaves.
* `raised_row`: at the raise the job is marked failed, with the error of the step.
* `exportRecorded_iff`: after the request that row is there only if no step failed.
-/

namespace TempleConsign.DataExports

open ServiceLib
open LeadRouting (Json)
open CivilTime (isoformat)

variable {β : Type}

/-! ## Tables -/

/-- `DataExportJob` (`src/api/database/models.py` line 292). -/
structure DataExportJob where
  userId : ℕ
  status : String
  requestedAt : ℤ
  completedAt : Option ℤ
  storageKey : Option String
  downloadUrl : Option String
  urlExpiresAt : Option ℤ
  error : Option String

/-- `UserConsentVersion`. -/
structure ConsentRow where
  userId : ℕ
  acceptedAt : ℤ
  data : Json

/-- `Customer`. -/
structure CustomerRow where
  userId : Option ℕ
  data : Json

/-- `EquipmentRecord`, with its change requests. -/
structure RecordRow where
  customerId : ℕ
  createdAt : ℤ
  data : Json
  changeRequests : List Json

/-- The database, and the bucket of R2. -/
structure ExportState (β : Type) where
  jobs : Store DataExportJob
  notifications : Store Job
  consents : List ConsentRow
  customers : Store CustomerRow
  records : List RecordRow
  bucket : List (String × β)

/-- The signed-in user. -/
structure ExportUser where
  id : ℕ
  email : String
  firstName : String
  data : Json

inductive ExportExn
  | httpException (statusCode : ℕ) (detail : String)
  | python (typeName message : String)

/-- What is outside the service. `reads` is the exception of a `SELECT`, if one fails. -/
structure ExportEnv (β : Type) where
  now : ℤ
  reads : Except ExportExn Unit
  notification : Job → Json
  dumps : Json → Except ExportExn String
  zip : List (String × String) → Except ExportExn β
  configured : Bool
  putObject : String → β → Except ExportExn Unit
  presign : String → Except ExportExn String
  enqueued : Except ExportExn Unit

/-! ## The steps -/

/-- The dictionary of `_gather_user_data`. -/
structure ExportPayload where
  user : Json
  userId : ℕ
  customer : Option Json
  consentVersions : List Json
  equipmentRecords : List Json
  changeRequests : List Json
  notificationsSent : List Json
  generatedAt : String

/-- The records of a customer, in the order of their creation. -/
def ExportState.recordsOf (s : ExportState β) (customerId : ℕ) : List RecordRow :=
  (s.records.filter fun r => r.customerId = customerId).mergeSort fun a b =>
    a.createdAt ≤ b.createdAt

/-- `_gather_user_data` (line 78). -/
def gatherUserData (env : ExportEnv β) (user : ExportUser) (s : ExportState β) :
    Except ExportExn ExportPayload := do
  env.reads
  match Store.scalarOneOrNone (s.customers.select fun _ c => c.userId = some user.id) with
  | none => throw (.python "MultipleResultsFound"
      "Multiple rows were found when one or none was required")
  | some customer =>
    let records := (customer.map fun c => s.recordsOf c.1).getD []
    return {
      user := user.data
      userId := user.id
      customer := customer.map fun c => c.2.data
      consentVersions := ((s.consents.filter fun c => c.userId = user.id).mergeSort fun a b =>
        a.acceptedAt ≤ b.acceptedAt).map ConsentRow.data
      equipmentRecords := records.map RecordRow.data
      changeRequests := records.flatMap RecordRow.changeRequests
      notificationsSent := (s.notifications.inOrder fun n => n.userId = some user.id).map
        env.notification
      generatedAt := isoformat env.now }

/-- `_manifest_text` (line 263). -/
def manifestText (p : ExportPayload) : String :=
  "Temple Heavy Equipment — Data Export\n" ++
    "Generated: " ++ p.generatedAt ++ "\n" ++
    "User ID: " ++ UuidText.text p.userId ++ "\n" ++
    "Equipment records: " ++ toString p.equipmentRecords.length ++ "\n" ++
    "Change requests: " ++ toString p.changeRequests.length ++ "\n" ++
    "Consent records: " ++ toString p.consentVersions.length ++ "\n" ++
    "Notifications sent: " ++ toString p.notificationsSent.length ++ "\n\n" ++
    "Files:\n" ++
    "  user.json               — your profile\n" ++
    "  customer.json           — your customer profile (optional)\n" ++
    "  consent_versions.json   — every ToS / Privacy acceptance\n" ++
    "  equipment_records.json  — submissions, photos, and timeline\n" ++
    "  change_requests.json    — change requests you filed\n" ++
    "  notifications_sent.json — emails and SMS sent to you\n"

/-- The files of the archive that are JSON. -/
def ExportPayload.files (p : ExportPayload) : List (String × Json) :=
  [("user.json", p.user)] ++ (p.customer.map fun c => ("customer.json", c)).toList ++
    [("consent_versions.json", .arr p.consentVersions),
      ("equipment_records.json", .arr p.equipmentRecords),
      ("change_requests.json", .arr p.changeRequests),
      ("notifications_sent.json", .arr p.notificationsSent)]

/-- `_build_zip` (line 237). -/
def buildZip (env : ExportEnv β) (p : ExportPayload) : Except ExportExn β := do
  let files ← p.files.mapM fun file => do return (file.1, ← env.dumps file.2)
  env.zip (("manifest.txt", manifestText p) :: files)

/-- The key of an archive (line 289). -/
def exportKey (userId jobId : ℕ) : String :=
  "exports/" ++ UuidText.text userId ++ "/" ++ UuidText.text jobId ++ ".zip"

/-- `_URL_VALID_SECONDS`, in microseconds. -/
def urlValid : ℤ := 7 * 24 * 60 * 60 * 1000000

/-- `_upload_zip` (line 286): the key and the link. -/
def uploadZip (env : ExportEnv β) (zipBytes : β) (userId jobId : ℕ) :
    Svc (ExportState β) ExportExn (String × String) := do
  Svc.require (env.configured = true)
    (.httpException 503 "Object storage is not configured. Contact support.")
  Svc.lift (env.putObject (exportKey userId jobId) zipBytes)
  modify fun s => { s with bucket := s.bucket ++ [(exportKey userId jobId, zipBytes)] }
  let url ← Svc.lift (env.presign (exportKey userId jobId))
  pure (exportKey userId jobId, url)

/-- The `try` (line 318). -/
def generate (env : ExportEnv β) (user : ExportUser) (jobId : ℕ) :
    Svc (ExportState β) ExportExn (String × String) := do
  let s ← get
  let payload ← Svc.lift (gatherUserData env user s)
  let zipBytes ← Svc.lift (buildZip env payload)
  uploadZip env zipBytes user.id jobId

/-- `job.error` after the exception, and the exception that is raised (lines 324–336). -/
def ExportExn.recorded : ExportExn → String
  | .httpException _ _ => "object storage unavailable"
  | .python typeName message => String.ofList ((typeName ++ ": " ++ message).toList.take 1000)

def ExportExn.reraised : ExportExn → ExportExn
  | .httpException statusCode detail => .httpException statusCode detail
  | .python _ _ =>
    .httpException 500 "Data export failed. Please try again or contact support."

def failJob (jobId : ℕ) (e : ExportExn) (s : ExportState β) : ExportState β :=
  { s with jobs := s.jobs.modify jobId fun j =>
      { j with status := "failed", error := some e.recorded } }

def completeJob (now : ℤ) (jobId : ℕ) (storageKey url : String) (s : ExportState β) :
    ExportState β :=
  { s with jobs := s.jobs.modify jobId fun j =>
      { j with
        status := "complete"
        storageKey := some storageKey
        downloadUrl := some url
        urlExpiresAt := some (now + urlValid)
        completedAt := some now } }

/-- The email with the link (line 348). -/
def readyEmail (user : ExportUser) (jobId : ℕ) (url : String) : EnqueueRequest where
  idempotencyKey := "data_export:" ++ UuidText.text jobId
  userId := some user.id
  channel := "email"
  template := "data_export_ready"
  payload := ⟨[
    ("to_email", .str user.email),
    ("subject", .str "Your Temple Heavy Equipment data export is ready"),
    ("html_body", .str ("<p>Hi " ++ user.firstName ++ ",</p>" ++
      "<p>Your data export is ready. The download link below is valid for 7 days:</p>" ++
      "<p><a href=\"" ++ url ++ "\">Download your data</a></p>" ++
      "<p>If you did not request this export, contact support immediately.</p>" ++
      "<p>— The Temple Heavy Equipment team</p>")),
    ("download_url", .str url)]⟩
  scheduledFor := none
  maxAttempts := defaultMaxAttempts
  maxAttempts_pos := defaultMaxAttempts_pos

/-- The new row of `request_export`. -/
def newJob (now : ℤ) (user : ExportUser) : DataExportJob :=
  ⟨user.id, "processing", now, none, none, none, none, none⟩

/-- The `INSERT` of the email; its channel is known to `enqueue`. -/
def ExportState.notify (now : ℤ) (r : EnqueueRequest) (s : ExportState β) : ExportState β :=
  { s with notifications := (Svc.exec (enqueue now r) s.notifications).2 }

/-- `request_export` (line 305); the key of the job it returns. -/
def requestExport (env : ExportEnv β) (user : ExportUser) : Svc (ExportState β) ExportExn ℕ := do
  let s ← get
  modify fun s => { s with jobs := s.jobs.create (newJob env.now user) }
  let link ← tryCatch (generate env user s.jobs.next) fun e => do
    modify (failJob s.jobs.next e)
    throw e.reraised
  modify (completeJob env.now s.jobs.next link.1 link.2)
  Svc.lift env.enqueued
  modify (ExportState.notify env.now (readyEmail user s.jobs.next link.2))
  pure s.jobs.next

/-- The request: on an exception the database is rolled back, and R2 is not. -/
def requestDataExport (env : ExportEnv β) (user : ExportUser) (s : ExportState β) :
    Except ExportExn ℕ × ExportState β :=
  Svc.request (fun before after => { before with bucket := after.bucket })
    (requestExport env user) s

/-! ## The property -/

/-- A failed request leaves a new row with its failure, and one that returns a complete
    row with the key and the link. -/
structure Recorded (env : ExportEnv β) (user : ExportUser) (s : ExportState β) : Prop where
  failed : ∀ e, (requestDataExport env user s).1 = .error e → ∃ id job,
    (requestDataExport env user s).2.jobs.get? id = some job ∧ s.jobs.get? id = none ∧
      job.userId = user.id ∧ job.status = "failed" ∧ job.error.isSome = true
  completed : ∀ id, (requestDataExport env user s).1 = .ok id → ∃ job,
    (requestDataExport env user s).2.jobs.get? id = some job ∧ s.jobs.get? id = none ∧
      job.userId = user.id ∧ job.status = "complete" ∧ job.storageKey.isSome = true ∧
        job.downloadUrl.isSome = true

/-- Every step succeeds: the reads, the archive, the upload, the link and the email. -/
def StepsSucceed (env : ExportEnv β) (user : ExportUser) (s : ExportState β) : Prop :=
  ∃ payload zipBytes url,
    gatherUserData env user s = .ok payload ∧ buildZip env payload = .ok zipBytes ∧
      env.configured = true ∧ env.putObject (exportKey user.id s.jobs.next) zipBytes = .ok () ∧
        env.presign (exportKey user.id s.jobs.next) = .ok url ∧ env.enqueued = .ok ()

/-! ## What a request leaves -/

variable {env : ExportEnv β} {user : ExportUser} {s s' : ExportState β}

/-- The job row that a request inserts. -/
def ExportState.withJob (env : ExportEnv β) (user : ExportUser) (s : ExportState β) :
    ExportState β :=
  { s with jobs := s.jobs.create (newJob env.now user) }

/-- The archive in the bucket. -/
def ExportState.withObject (key : String) (zipBytes : β) (s : ExportState β) : ExportState β :=
  { s with bucket := s.bucket ++ [(key, zipBytes)] }

theorem returns_lift_bind {σ ε α γ : Type} {x : Except ε α} {f : α → Svc σ ε γ} {t t' : σ} {b : γ} :
    Svc.Returns (Svc.lift x >>= f) t b t' ↔ ∃ a, x = .ok a ∧ Svc.Returns (f a) t b t' :=
  Svc.returns_bind_of_read fun _ _ => Svc.returns_lift

theorem returns_generate {jobId : ℕ} {link : String × String} :
    Svc.Returns (generate env user jobId) s link s' ↔ ∃ payload zipBytes,
      gatherUserData env user s = .ok payload ∧ buildZip env payload = .ok zipBytes ∧
        env.configured = true ∧ env.putObject (exportKey user.id jobId) zipBytes = .ok () ∧
        env.presign (exportKey user.id jobId) = .ok link.2 ∧ link.1 = exportKey user.id jobId ∧
        s.withObject (exportKey user.id jobId) zipBytes = s' := by
  simp only [generate, uploadZip, Svc.returns_get_bind, returns_lift_bind,
    Svc.returns_require_bind, Svc.returns_modify_bind, Svc.returns_pure]
  constructor
  · rintro ⟨payload, hgather, zipBytes, hzip, hconfigured, ⟨⟩, hput, url, hurl, rfl, hs⟩
    exact ⟨payload, zipBytes, hgather, hzip, hconfigured, hput, hurl, rfl, hs⟩
  · rintro ⟨payload, zipBytes, hgather, hzip, hconfigured, hput, hurl, hkey, hs⟩
    exact ⟨payload, hgather, zipBytes, hzip, hconfigured, (), hput, link.2, hurl,
      Prod.ext hkey.symm rfl, hs⟩

/-- A request returns exactly when all steps succeed, with its job complete and the email
    enqueued. -/
theorem returns_requestExport {id : ℕ} :
    Svc.Returns (requestExport env user) s id s' ↔ ∃ payload zipBytes url,
      (gatherUserData env user s = .ok payload ∧ buildZip env payload = .ok zipBytes ∧
        env.configured = true ∧ env.putObject (exportKey user.id s.jobs.next) zipBytes = .ok () ∧
        env.presign (exportKey user.id s.jobs.next) = .ok url ∧ env.enqueued = .ok ()) ∧
      id = s.jobs.next ∧
      s' = (completeJob env.now s.jobs.next (exportKey user.id s.jobs.next) url
        ((s.withJob env user).withObject (exportKey user.id s.jobs.next) zipBytes)).notify env.now
          (readyEmail user s.jobs.next url) := by
  have hraises : ∀ (e : ExportExn) (t : ExportState β) (b : String × String) (t' : ExportState β),
      ¬ Svc.Returns (do
        modify (failJob s.jobs.next e)
        throw e.reraised : Svc (ExportState β) ExportExn (String × String)) t b t' := by
    intro e t b t' h
    simp only [Svc.returns_modify_bind, Svc.returns_throw] at h
  simp only [requestExport, Svc.returns_get_bind, Svc.returns_modify_bind]
  rw [Svc.returns_bind]
  simp only [Svc.returns_tryCatch_reraise hraises, Svc.returns_modify_bind, returns_lift_bind,
    Svc.returns_pure]
  constructor
  · rintro ⟨link, t, hgenerate, ⟨⟩, henqueued, rfl, hs⟩
    obtain ⟨payload, zipBytes, hgather, hzip, hconfigured, hput, hurl, hkey, rfl⟩ :=
      returns_generate.mp hgenerate
    rw [hkey] at hs
    exact ⟨payload, zipBytes, link.2, ⟨hgather, hzip, hconfigured, hput, hurl, henqueued⟩, rfl,
      hs.symm⟩
  · rintro ⟨payload, zipBytes, url, ⟨hgather, hzip, hconfigured, hput, hurl, henqueued⟩, rfl, rfl⟩
    exact ⟨(exportKey user.id s.jobs.next, url), _,
      returns_generate.mpr ⟨payload, zipBytes, hgather, hzip, hconfigured, hput, hurl, rfl, rfl⟩,
      (), henqueued, rfl, rfl⟩

/-- The job of a request that returns. -/
theorem completeJob_row {key url : String} {zipBytes : β} {r : EnqueueRequest} :
    ((completeJob env.now s.jobs.next key url ((s.withJob env user).withObject key zipBytes)).notify
      env.now r).jobs.get? s.jobs.next =
        some ⟨user.id, "complete", env.now, some env.now, some key, some url,
          some (env.now + urlValid), none⟩ := by
  show (Store.modify _ _ _).get? s.jobs.next = _
  rw [Store.get?_modify_self]
  show Option.map _ ((s.jobs.create (newJob env.now user)).get? s.jobs.next) = _
  rw [Store.get?_create_self]
  rfl

/-- The steps of the `try` do not touch the jobs. -/
theorem generate_jobs (jobId : ℕ) (t : ExportState β) :
    (Svc.exec (generate env user jobId) t).2.jobs = t.jobs := by
  simp only [generate, uploadZip, Svc.exec_bind, Svc.exec_get, Svc.exec_lift, Svc.exec_require,
    Svc.exec_modify, Svc.exec_pure]
  cases gatherUserData env user t with
  | error e => rfl
  | ok payload =>
    cases hzip : buildZip env payload with
    | error e => simp [hzip]
    | ok zipBytes =>
      by_cases hconfigured : env.configured = true
      · cases hput : env.putObject (exportKey user.id jobId) zipBytes with
        | error e => simp [hzip, hconfigured, hput]
        | ok _ =>
          cases env.presign (exportKey user.id jobId) with
          | error e => simp [hzip, hconfigured, hput]
          | ok url => simp [hzip, hconfigured, hput]
      · simp [hzip, hconfigured]

/-- When a step of the `try` raises, the job is marked failed, with the error of the
    step, before the exception leaves. -/
theorem raised_row {e : ExportExn}
    (h : Svc.Raises (generate env user s.jobs.next) (s.withJob env user) e) :
    ∃ after, Svc.exec (requestExport env user) s = (.error e.reraised, after) ∧
      after.jobs.get? s.jobs.next =
        some ⟨user.id, "failed", env.now, none, none, none, none, some e.recorded⟩ := by
  have hjobs : (Svc.exec (generate env user s.jobs.next) (s.withJob env user)).2.jobs =
      (s.withJob env user).jobs := generate_jobs _ _
  have hexec : Svc.exec (generate env user s.jobs.next) (s.withJob env user) =
      (.error e, (Svc.exec (generate env user s.jobs.next) (s.withJob env user)).2) :=
    Prod.ext h rfl
  generalize (Svc.exec (generate env user s.jobs.next) (s.withJob env user)).2 = t at hexec hjobs
  refine ⟨failJob s.jobs.next e t, ?_, ?_⟩
  · have hwith : Svc.exec (generate env user s.jobs.next)
        { s with jobs := s.jobs.create (newJob env.now user) } = (.error e, t) := hexec
    simp only [requestExport, Svc.exec_bind, Svc.exec_get, Svc.exec_modify, Svc.exec_tryCatch,
      hwith, Svc.exec_throw]
  · show (t.jobs.modify _ _).get? s.jobs.next = _
    rw [Store.get?_modify_self, hjobs]
    show Option.map _ ((s.jobs.create (newJob env.now user)).get? s.jobs.next) = _
    rw [Store.get?_create_self]
    rfl

/-! ## What is left of a failure -/

/-- The request returns exactly when all steps succeed. -/
theorem requestDataExport_ok_iff {id : ℕ} :
    (requestDataExport env user s).1 = .ok id ↔ StepsSucceed env user s ∧ id = s.jobs.next := by
  rcases Svc.request_cases (fun before after => { before with bucket := after.bucket })
      (requestExport env user) s with ⟨id', t, hreturns, hrequest⟩ | ⟨e, t, hraises, hrequest⟩
  · obtain ⟨payload, zipBytes, url, hsteps, rfl, -⟩ := returns_requestExport.mp hreturns
    rw [requestDataExport, hrequest]
    constructor
    · intro h
      exact ⟨⟨payload, zipBytes, url, hsteps⟩, (Except.ok.inj h).symm⟩
    · rintro ⟨-, rfl⟩
      rfl
  · rw [requestDataExport, hrequest]
    constructor
    · intro h
      cases h
    · rintro ⟨⟨payload, zipBytes, url, hsteps⟩, rfl⟩
      have hreturns := returns_requestExport.mpr ⟨payload, zipBytes, url, hsteps, rfl, rfl⟩
      cases hraises.symm.trans hreturns

/-- A failed request leaves no row. -/
theorem jobs_of_error {e : ExportExn} (h : (requestDataExport env user s).1 = .error e) :
    (requestDataExport env user s).2.jobs = s.jobs := by
  rcases Svc.request_cases (fun before after => { before with bucket := after.bucket })
      (requestExport env user) s with ⟨id, t, -, hrequest⟩ | ⟨e', t, -, hrequest⟩
  · rw [requestDataExport, hrequest] at h
    cases h
  · rw [requestDataExport, hrequest]

/-- A failed export is recorded, and a successful one complete, exactly when no step of
    the request fails. -/
theorem exportRecorded_iff (env : ExportEnv β) (user : ExportUser) (s : ExportState β) :
    Recorded env user s ↔ StepsSucceed env user s := by
  constructor
  · intro h
    cases hresult : (requestDataExport env user s).1 with
    | ok id => exact (requestDataExport_ok_iff.mp hresult).1
    | error e =>
      obtain ⟨id, job, hjob, hnone, -⟩ := h.failed e hresult
      rw [jobs_of_error hresult, hnone] at hjob
      cases hjob
  · intro h
    have hok := requestDataExport_ok_iff.mpr ⟨h, rfl⟩
    constructor
    · intro e he
      cases hok.symm.trans he
    · intro id hid
      obtain rfl : s.jobs.next = id := Except.ok.inj (hok.symm.trans hid)
      obtain ⟨payload, zipBytes, url, hsteps⟩ := h
      have hreturns := returns_requestExport.mpr ⟨payload, zipBytes, url, hsteps, rfl, rfl⟩
      have hrequest : requestDataExport env user s = _ := Svc.request_of_returns hreturns
      rw [hrequest]
      exact ⟨_, completeJob_row, Store.get?_next s.jobs, rfl, rfl, rfl, rfl⟩

/-- R2 is not configured. -/
def noStorage : ExportEnv (List UInt8) where
  now := 0
  reads := .ok ()
  notification := fun _ => .null
  dumps := fun _ => .ok "null"
  zip := fun _ => .ok []
  configured := false
  putObject := fun _ _ => .ok ()
  presign := fun _ => .ok ""
  enqueued := .ok ()

/-- The failed request of a customer leaves nothing. -/
theorem failure_lost : ¬ ∀ (env : ExportEnv (List UInt8)) (user : ExportUser)
    (s : ExportState (List UInt8)), Recorded env user s := by
  intro h
  let ann : ExportUser := ⟨1, "ann@example.com", "Ann", .null⟩
  let before : ExportState (List UInt8) := ⟨Store.empty, Store.empty, [], Store.empty, [], []⟩
  have hraised : (requestDataExport noStorage ann before).1 = .error
      (.httpException 503 "Object storage is not configured. Contact support.") := rfl
  obtain ⟨id, job, hjob, hnone, -⟩ := (h noStorage ann before).failed _ hraised
  rw [jobs_of_error hraised, hnone] at hjob
  cases hjob

end TempleConsign.DataExports
