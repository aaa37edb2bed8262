import TempleConsign.StorageKeys
import TempleConsign.Lib.ObjectLog
import TempleConsign.Lib.ReadCommitted

/-!
# Stored reports

Model of `generate_and_store` and its best-effort wrapper
(`src/api/services/pdf_generation_worker.py`), of the checks of `build_report_data`
(`src/api/services/report_data_service.py` line 51) and of `_pdf_background`
(`src/api/routers/manager_approvals.py` line 36). Any number of generations run at READ
COMMITTED, each in its own session; the upload to R2 takes effect at once and is not
rolled back. R2 keeps no versions.

Deviations: `build_report_data` is one statement, and of what it reads only what it
checks and the record's key are kept; the bytes that are rendered and the answers of
WeasyPrint and of R2 come with each step. `original` on a report row, and the log of the
successful generations, are not in the code: they say which bytes a row was stored with.

Results:
* `buildStorageKey_injective`: the key says which submission it is for.
* `freshPuts_iff`: in every run, the successful generations wrote fresh keys exactly
  when each was the first upload of its submission.
* `reportsImmutable`: stored reports are immutable in every run that uploads no
  submission twice.
-/

namespace TempleConsign.StoredReports

open ServiceLib StorageKeys

variable {β : Type}

/-! ## Tables -/

/-- `AppraisalSubmission` as `build_report_data` checks it. -/
structure ReportedSubmission where
  recordId : Uuid
  deletedAt : Option ℤ
  approvedPurchaseOffer : Option ℚ
  suggestedConsignmentPrice : Option ℚ

/-- The tables a report is made from. -/
structure SourceTables where
  records : Uuid → Bool
  submissions : Uuid → Option ReportedSubmission

/-- `AppraisalReport` (`src/api/database/models.py` line 858). -/
structure ReportRow (β : Type) where
  recordId : Uuid
  submissionId : Option Uuid
  gcsPath : String
  generatedAt : ℤ
  original : β

/-- The `AuditLog` of a failure. -/
structure FailureAudit where
  eventType : String
  targetId : Uuid
  error : String

/-- The tables a generation writes. -/
structure ReportDb (β : Type) where
  reports : Store (ReportRow β)
  auditLogs : List FailureAudit

/-- A rendered report. -/
structure Rendered (β : Type) where
  recordId : Uuid
  submissionId : Uuid
  pdfBytes : β

inductive GenerationError
  | lookupError (message : String)
  | reportDataIncomplete (message : String)
  | multipleResultsFound
  /-- Raised by WeasyPrint or by R2. -/
  | outside

/-! ## The steps of a generation -/

/-- The checks of `build_report_data` and `_assemble`; the key of the record. -/
def buildReportData (tables : SourceTables) (submissionId : Uuid) :
    Except GenerationError Uuid :=
  let id := UuidText.text submissionId
  match tables.submissions submissionId with
  | none => .error (.lookupError s!"Submission {id} not found")
  | some row =>
    if row.deletedAt.isSome then .error (.lookupError s!"Submission {id} not found")
    else if tables.records row.recordId = false then
      .error (.reportDataIncomplete s!"Equipment record for submission {id} not found")
    else if row.approvedPurchaseOffer = none ∧ row.suggestedConsignmentPrice = none then
      .error (.reportDataIncomplete (s!"Submission {id} has no approval data " ++
        "(approved_purchase_offer and suggested_consignment_price are both null). " ++
        "The report cannot be generated until the manager has approved the submission."))
    else .ok row.recordId

/-- `_build_storage_key` (line 57). -/
def buildStorageKey (recordId submissionId : Uuid) : String :=
  "reports/" ++ UuidText.text recordId ++ "/" ++ UuidText.text submissionId ++ ".pdf"

def Rendered.storageKey (r : Rendered β) : String := buildStorageKey r.recordId r.submissionId

/-- What R2 answers to a put: it may also have stored an object and lost the answer. -/
inductive UploadAnswer
  | stored
  | refused
  | lost
  deriving DecidableEq

/-- The clock and the answers of what is outside the database. -/
structure Answers (β : Type) where
  now : ℤ
  pdfBytes : Option β
  upload : UploadAnswer

/-- What comes next. -/
inductive ReportPoint (β : Type)
  | build (submissionId : Uuid)
  | upload (r : Rendered β)
  | findRow (r : Rendered β)
  | storeRow (r : Rendered β) (existing : Option ℕ)
  | stored (r : Rendered β)
  | fail (submissionId : Uuid) (error : GenerationError)
  | failed

/-- The audit row of `generate_and_store_best_effort` (lines 161–191). -/
def GenerationError.audit (submissionId : Uuid) : GenerationError → FailureAudit
  | .reportDataIncomplete message => ⟨"pdf_generation.incomplete_data", submissionId, message⟩
  | _ => ⟨"pdf_generation.failed", submissionId, "unexpected_error"⟩

/-- `report_row` is updated or added (lines 123–137). -/
def Rendered.store (r : Rendered β) (now : ℤ) (existing : Option ℕ) (s : ReportDb β) :
    ReportDb β :=
  { s with
    reports := match existing with
      | some id => s.reports.modify id fun row =>
          { row with gcsPath := r.storageKey, generatedAt := now }
      | none => s.reports.create ⟨r.recordId, some r.submissionId, r.storageKey, now, r.pdfBytes⟩ }

/-- Model of `generate_and_store_best_effort` (line 146); a row that is updated is locked
    under its key. `configured` says that the R2 keys are set. -/
def reportStmt (tables : SourceTables) (configured : Bool) (answers : Answers β) :
    ReportPoint β → ReportDb β → Stmt (ReportDb β) ℕ (ReportPoint β)
  | .build submissionId, _ =>
    match buildReportData tables submissionId, answers.pdfBytes with
    | .error e, _ => .goOn [] id (.fail submissionId e)
    | .ok _, none => .goOn [] id (.fail submissionId .outside)
    | .ok recordId, some pdfBytes => .goOn [] id (.upload ⟨recordId, submissionId, pdfBytes⟩)
  | .upload r, _ =>
    if configured = true ∧ answers.upload ≠ .stored then .goOn [] id (.fail r.submissionId .outside)
    else .goOn [] id (.findRow r)
  | .findRow r, s =>
    match Store.scalarOneOrNone
      (s.reports.select fun _ row => row.submissionId = some r.submissionId) with
    | none => .goOn [] id (.fail r.submissionId .multipleResultsFound)
    | some existing => .goOn [] id (.storeRow r (existing.map Prod.fst))
  | .storeRow r existing, _ => .goOn existing.toList (r.store answers.now existing) (.stored r)
  | .stored _, _ => .commit
  | .fail submissionId e, _ =>
    .goOn [] (fun s => { s with auditLogs := s.auditLogs ++ [e.audit submissionId] }) .failed
  | .failed, _ => .commit

def reportProgram (tables : SourceTables) (configured : Bool) (answers : Answers β) :
    Program (ReportDb β) ℕ Uuid (ReportPoint β) where
  entry := .build
  stmt := reportStmt tables configured answers

/-! ## The world -/

/-- A put of generation `t` for a submission. -/
abbrev ReportPut (β : Type) := Put (ℕ × Uuid) String β

def Rendered.put (r : Rendered β) (t : ℕ) : ReportPut β where
  writer := (t, r.submissionId)
  key := r.storageKey
  body := r.pdfBytes

/-- What `_upload_pdf` leaves in the bucket (line 108). -/
def ReportPoint.puts (configured : Bool) (answers : Answers β) (t : ℕ) :
    ReportPoint β → List (ReportPut β)
  | .upload r => if configured = true ∧ answers.upload ≠ .refused then [r.put t] else []
  | _ => []

/-- The generation that succeeds with its next step. -/
def ReportPoint.successes (t : ℕ) : ReportPoint β → List (ReportPut β)
  | .stored r => [r.put t]
  | _ => []

structure World (β : Type) where
  tables : SourceTables
  db : Rc (ReportDb β) ℕ (ReportPoint β)
  bucket : List (ReportPut β)
  succeeded : List (ReportPut β)

inductive WorldOp (β : Type)
  | addRecord (id : Uuid)
  | addSubmission (id : Uuid) (submission : ReportedSubmission)
  | editSubmission (id : Uuid) (deletedAt : Option ℤ) (offer price : Option ℚ)
  | start (submissionId : Uuid)
  | exec (t : ℕ) (answers : Answers β)
  | abort (t : ℕ)

def SourceTables.addSubmission (tables : SourceTables) (id : Uuid)
    (submission : ReportedSubmission) : SourceTables :=
  { tables with
    submissions := fun i =>
      if i = id then some ((tables.submissions id).getD submission) else tables.submissions i }

/-- Other requests write to a submission; its record stays. -/
def SourceTables.editSubmission (tables : SourceTables) (id : Uuid) (deletedAt : Option ℤ)
    (offer price : Option ℚ) : SourceTables :=
  { tables with
    submissions := fun i =>
      if i = id then (tables.submissions id).map fun s => ⟨s.recordId, deletedAt, offer, price⟩
      else tables.submissions i }

/-- One step of the generations or of the other requests. -/
def worldStep (configured : Bool) (x : World β) : WorldOp β → World β
  | .addRecord id =>
    { x with tables := { x.tables with records := fun i => i = id || x.tables.records i } }
  | .addSubmission id submission => { x with tables := x.tables.addSubmission id submission }
  | .editSubmission id deletedAt offer price =>
    { x with tables := x.tables.editSubmission id deletedAt offer price }
  | .start submissionId => { x with
      db := { x.db with txns := x.db.txns.create ⟨.build submissionId, [], id⟩ } }
  | .abort t => { x with db := { x.db with txns := x.db.txns.delete t } }
  | .exec t answers =>
    match x.db.txns.get? t with
    | none => x
    | some a => { x with
        db := rcStep (reportProgram x.tables configured answers) x.db (.exec t)
        bucket := x.bucket ++ a.point.puts configured answers t
        succeeded := x.succeeded ++ a.point.successes t }

/-- Before the first generation. -/
def World.start (tables : SourceTables) : World β where
  tables := tables
  db := Rc.init ⟨Store.empty, []⟩
  bucket := []
  succeeded := []

/-- Every successful generation wrote its PDF to a key nobody had written, and every
    report row refers to the bytes it was stored with. -/
structure Immutable (x : World β) : Prop where
  fresh : ∀ g ∈ x.succeeded, FirstOf Put.key x.bucket g
  rows : ∀ id row, x.db.committed.reports.get? id = some row →
    objectAt x.bucket row.gcsPath = some row.original

/-- R2 is configured, and no submission is uploaded a second time. -/
def UploadsOnce (configured : Bool) (x : World β) : WorldOp β → Prop
  | .exec t answers => ∀ a r, x.db.txns.get? t = some a → a.point = .upload r →
      configured = true ∧ (answers.upload ≠ .refused → ∀ p ∈ x.bucket, p.writer.2 ≠ r.submissionId)
  | _ => True

/-! ## Keys and submissions -/

/-- The key says which submission it is for. -/
theorem buildStorageKey_injective {recordId recordId' submissionId submissionId' : Uuid}
    (h : buildStorageKey recordId submissionId = buildStorageKey recordId' submissionId') :
    submissionId = submissionId' := by
  have hlist := congrArg String.toList h
  simp only [buildStorageKey, String.toList_append, List.append_assoc] at hlist
  have hsecond := List.append_cancel_left (List.append_inj_right (List.append_cancel_left hlist)
    ((UuidText.length_text recordId).trans (UuidText.length_text recordId').symm))
  exact Fin.ext (UuidText.text_injective submissionId.isLt submissionId'.isLt
    (String.toList_injective (List.append_cancel_right hsecond)))

/-- `AppraisalSubmission.equipment_record_id`. -/
def SourceTables.recordOf (tables : SourceTables) (submissionId : Uuid) : Option Uuid :=
  (tables.submissions submissionId).map ReportedSubmission.recordId

theorem buildReportData_ok {tables : SourceTables} {submissionId recordId : Uuid}
    (h : buildReportData tables submissionId = .ok recordId) :
    tables.recordOf submissionId = some recordId := by
  unfold buildReportData at h
  unfold SourceTables.recordOf
  dsimp only at h
  split at h
  · cases h
  · next submission hs =>
    split_ifs at h
    rw [hs, Option.map_some, Except.ok.inj h]

/-- No request moves a submission to another record. -/
theorem recordOf_addSubmission {tables : SourceTables} {id submissionId recordId : Uuid}
    {submission : ReportedSubmission} (h : tables.recordOf submissionId = some recordId) :
    (tables.addSubmission id submission).recordOf submissionId = some recordId := by
  obtain ⟨row, hrow, hrecord⟩ := Option.map_eq_some_iff.mp h
  have hkept : (tables.addSubmission id submission).submissions submissionId = some row := by
    show (if submissionId = id then _ else _) = _
    split_ifs with hid
    · rw [← hid, hrow, Option.getD_some]
    · exact hrow
  rw [SourceTables.recordOf, hkept, Option.map_some, hrecord]

theorem recordOf_editSubmission {tables : SourceTables} {id submissionId recordId : Uuid}
    {deletedAt : Option ℤ} {offer price : Option ℚ}
    (h : tables.recordOf submissionId = some recordId) :
    (tables.editSubmission id deletedAt offer price).recordOf submissionId = some recordId := by
  obtain ⟨row, hrow, hrecord⟩ := Option.map_eq_some_iff.mp h
  have hkept : ((tables.editSubmission id deletedAt offer price).submissions submissionId).map
      ReportedSubmission.recordId = some recordId := by
    show Option.map _ (if submissionId = id then _ else _) = _
    split_ifs with hid
    · rw [← hid, hrow, Option.map_some, Option.map_some, hrecord]
    · rw [hrow, Option.map_some, hrecord]
  exact hkept

/-! ## What a step does -/

/-- The points before the first write. -/
def ReportPoint.reads : ReportPoint β → Bool
  | .build _ => true
  | .upload _ => true
  | .findRow _ => true
  | _ => false

/-- The row of the submission that was found. -/
def RowOf (s : ReportDb β) (r : Rendered β) (existing : Option ℕ) : Prop :=
  ∀ id, existing = some id →
    ∃ row, s.reports.get? id = some row ∧ row.submissionId = some r.submissionId

/-- What the statements before the commit write, and what comes after them. -/
inductive Advance (tables : SourceTables) (configured : Bool) (answers : Answers β)
    (s : ReportDb β) : ReportPoint β → (ReportDb β → ReportDb β) → ReportPoint β → Prop
  | built {submissionId recordId : Uuid} {pdfBytes : β}
    (h : tables.recordOf submissionId = some recordId) :
    Advance tables configured answers s (.build submissionId) id
      (.upload ⟨recordId, submissionId, pdfBytes⟩)
  | uploaded {r : Rendered β} (h : configured = true → answers.upload = .stored) :
    Advance tables configured answers s (.upload r) id (.findRow r)
  | found {r : Rendered β} {existing : Option ℕ} (h : RowOf s r existing) :
    Advance tables configured answers s (.findRow r) id (.storeRow r existing)
  | wrote {r : Rendered β} {existing : Option ℕ} :
    Advance tables configured answers s (.storeRow r existing) (r.store answers.now existing)
      (.stored r)
  | failing {point : ReportPoint β} {submissionId : Uuid} {e : GenerationError}
    (h : point.reads = true) :
    Advance tables configured answers s point id (.fail submissionId e)
  | audited {submissionId : Uuid} {e : GenerationError} :
    Advance tables configured answers s (.fail submissionId e)
      (fun s => { s with auditLogs := s.auditLogs ++ [e.audit submissionId] }) .failed

variable {tables : SourceTables} {configured : Bool} {answers : Answers β} {s : ReportDb β}

theorem reportStmt_goOn {point next : ReportPoint β} {locks : List ℕ}
    {write : ReportDb β → ReportDb β}
    (h : reportStmt tables configured answers point s = .goOn locks write next) :
    Advance tables configured answers s point write next := by
  cases point with
  | build submissionId =>
    simp only [reportStmt] at h
    split at h
    · cases h
      exact .failing rfl
    · cases h
      exact .failing rfl
    · next recordId pdfBytes hbuilt _ =>
      cases h
      exact .built (buildReportData_ok hbuilt)
  | upload r =>
    simp only [reportStmt] at h
    split_ifs at h with hrefused
    · cases h
      exact .failing rfl
    · cases h
      exact .uploaded fun hconfigured => not_not.mp fun hne => hrefused ⟨hconfigured, hne⟩
  | findRow r =>
    simp only [reportStmt] at h
    split at h
    · cases h
      exact .failing rfl
    · next existing hselect =>
      cases h
      refine .found fun id hid => ?_
      obtain ⟨⟨id', row⟩, rfl, rfl⟩ := Option.map_eq_some_iff.mp hid
      obtain ⟨⟨hrow, hp⟩, -⟩ := Store.scalar_select_some_iff.mp hselect
      exact ⟨row, hrow, of_decide_eq_true hp⟩
  | storeRow r existing =>
    cases h
    exact .wrote
  | stored r => cases h
  | fail submissionId e =>
    cases h
    exact .audited
  | failed => cases h

/-- A statement that is not the last one is no success. -/
theorem successes_of_goOn {point next : ReportPoint β} {locks : List ℕ}
    {write : ReportDb β → ReportDb β}
    (h : reportStmt tables configured answers point s = .goOn locks write next) (t : ℕ) :
    point.successes t = [] := by
  cases point with
  | stored r => cases h
  | _ => rfl

/-- An upload does not wait. -/
theorem puts_of_locks {point next : ReportPoint β} {locks : List ℕ}
    {write : ReportDb β → ReportDb β}
    (h : reportStmt tables configured answers point s = .goOn locks write next)
    (hlocks : locks ≠ []) (t : ℕ) : point.puts configured answers t = [] := by
  cases point with
  | upload r =>
    simp only [reportStmt] at h
    split_ifs at h
    · cases h
      exact absurd rfl hlocks
    · cases h
      exact absurd rfl hlocks
  | _ => rfl

theorem puts_of_commit {point : ReportPoint β}
    (h : reportStmt tables configured answers point s = .commit) (t : ℕ) :
    point.puts configured answers t = [] := by
  cases point with
  | upload r =>
    simp only [reportStmt] at h
    split_ifs at h
  | _ => rfl

theorem reportStmt_ne_rollback (point : ReportPoint β) :
    reportStmt tables configured answers point s ≠ .rollback := by
  intro h
  cases point with
  | build submissionId =>
    simp only [reportStmt] at h
    split at h <;> cases h
  | upload r =>
    simp only [reportStmt] at h
    split_ifs at h
  | findRow r =>
    simp only [reportStmt] at h
    split at h <;> cases h
  | _ => cases h

/-- What an operation leaves. -/
inductive WorldMove (configured : Bool) (x : World β) : WorldOp β → World β → Prop
  | tables {o : WorldOp β} (tables : SourceTables)
    (h : ∀ id recordId, x.tables.recordOf id = some recordId →
      tables.recordOf id = some recordId) :
    WorldMove configured x o { x with tables := tables }
  | start (submissionId : Uuid) : WorldMove configured x (.start submissionId)
      { x with db := { x.db with txns := x.db.txns.create ⟨.build submissionId, [], id⟩ } }
  | stop (t : ℕ) :
    WorldMove configured x (.abort t) { x with db := { x.db with txns := x.db.txns.delete t } }
  | wait {o : WorldOp β} : WorldMove configured x o x
  | goOn {t : ℕ} {answers : Answers β} {a : Txn (ReportDb β) ℕ (ReportPoint β)} {locks : List ℕ}
    {write : ReportDb β → ReportDb β} {next : ReportPoint β} (ha : x.db.txns.get? t = some a)
    (hstmt : Advance x.tables configured answers (a.write x.db.committed) a.point write next) :
    WorldMove configured x (.exec t answers) { x with
      db := { x.db with txns := x.db.txns.modify t fun a => a.goOn locks write next }
      bucket := x.bucket ++ a.point.puts configured answers t }
  | finish {t : ℕ} {answers : Answers β} {a : Txn (ReportDb β) ℕ (ReportPoint β)}
    (ha : x.db.txns.get? t = some a)
    (hstmt : reportStmt x.tables configured answers a.point (a.write x.db.committed) = .commit) :
    WorldMove configured x (.exec t answers) { x with
      db := ⟨a.write x.db.committed, x.db.txns.delete t⟩
      succeeded := x.succeeded ++ a.point.successes t }

theorem worldStep_cases (configured : Bool) (x : World β) (o : WorldOp β) :
    WorldMove configured x o (worldStep configured x o) := by
  cases o with
  | addRecord id => exact .tables _ fun _ _ h => h
  | addSubmission id submission => exact .tables _ fun _ _ h => recordOf_addSubmission h
  | editSubmission id deletedAt offer price =>
    exact .tables _ fun _ _ h => recordOf_editSubmission h
  | start submissionId => exact .start submissionId
  | abort t => exact .stop t
  | exec t answers =>
    cases ha : x.db.txns.get? t with
    | none =>
      simp only [worldStep, ha]
      exact .wait
    | some a =>
      simp only [worldStep, ha, rcStep, Program.next, reportProgram]
      cases hs : reportStmt x.tables configured answers a.point (a.write x.db.committed) with
      | goOn locks write next =>
        rw [successes_of_goOn hs, List.append_nil]
        cases hb : x.db.blocked t locks with
        | true =>
          have hlocks : locks ≠ [] := by
            rintro rfl
            simp [Rc.blocked] at hb
          rw [puts_of_locks hs hlocks, List.append_nil]
          simp only [hb, if_true]
          exact .wait
        | false =>
          simp only [hb, Bool.false_eq_true, if_false]
          exact .goOn ha (reportStmt_goOn hs)
      | commit =>
        rw [puts_of_commit hs, List.append_nil]
        exact .finish ha hs
      | rollback => exact absurd hs (reportStmt_ne_rollback _)

/-! ## Every key is its submission's -/

/-- The report in progress. -/
def ReportPoint.rendered? : ReportPoint β → Option (Rendered β)
  | .upload r => some r
  | .findRow r => some r
  | .storeRow r _ => some r
  | .stored r => some r
  | _ => none

def PutKeyed (tables : SourceTables) (p : ReportPut β) : Prop :=
  ∃ recordId, tables.recordOf p.writer.2 = some recordId ∧
    p.key = buildStorageKey recordId p.writer.2

/-- Keys are made of the record of their submission. -/
structure Keyed (x : World β) : Prop where
  bucket : ∀ p ∈ x.bucket, PutKeyed x.tables p
  succeeded : ∀ p ∈ x.succeeded, PutKeyed x.tables p
  running : ∀ t a r, x.db.txns.get? t = some a → a.point.rendered? = some r →
    x.tables.recordOf r.submissionId = some r.recordId

/-- Two puts for one submission have one key, and the other way round. -/
theorem PutKeyed.key_eq_iff {p q : ReportPut β} (hp : PutKeyed tables p)
    (hq : PutKeyed tables q) : q.key = p.key ↔ q.writer.2 = p.writer.2 := by
  obtain ⟨recordId, hrecord, hkey⟩ := hp
  obtain ⟨recordId', hrecord', hkey'⟩ := hq
  constructor
  · intro h
    rw [hkey, hkey'] at h
    exact buildStorageKey_injective h
  · intro h
    rw [h, hrecord] at hrecord'
    rw [hkey, hkey', h, Option.some.inj hrecord']

theorem putKeyed {r : Rendered β} (h : tables.recordOf r.submissionId = some r.recordId) (t : ℕ) :
    PutKeyed tables (r.put t) :=
  ⟨r.recordId, h, rfl⟩

theorem mem_puts {point : ReportPoint β} {t : ℕ} {p : ReportPut β}
    (h : p ∈ point.puts configured answers t) : ∃ r, point = .upload r ∧ p = r.put t ∧
      configured = true ∧ answers.upload ≠ .refused := by
  cases point with
  | upload r =>
    simp only [ReportPoint.puts] at h
    split_ifs at h with hput
    · exact ⟨r, rfl, List.mem_singleton.mp h, hput⟩
    · cases h
  | _ => cases h

theorem mem_successes {point : ReportPoint β} {t : ℕ} {p : ReportPut β}
    (h : p ∈ point.successes t) : ∃ r, point = .stored r ∧ p = r.put t := by
  cases point with
  | stored r => exact ⟨r, rfl, List.mem_singleton.mp h⟩
  | _ => cases h

/-- The next point has the report of this one, or a new one for its submission. -/
theorem Advance.recordOf {point next : ReportPoint β} {write : ReportDb β → ReportDb β}
    (h : Advance tables configured answers s point write next)
    (hpoint : ∀ r, point.rendered? = some r → tables.recordOf r.submissionId = some r.recordId) :
    ∀ r, next.rendered? = some r → tables.recordOf r.submissionId = some r.recordId := by
  intro r hr
  cases h with
  | built hrecord =>
    cases hr
    exact hrecord
  | uploaded => exact hpoint r hr
  | found => exact hpoint r hr
  | wrote => exact hpoint r hr
  | failing => cases hr
  | audited => cases hr

theorem keyed_step (x : World β) (o : WorldOp β) (h : Keyed x) :
    Keyed (worldStep configured x o) := by
  have hm := worldStep_cases configured x o
  generalize worldStep configured x o = x' at hm
  cases hm with
  | tables tables hkeeps =>
    have hput : ∀ p : ReportPut β, PutKeyed x.tables p → PutKeyed tables p := by
      rintro p ⟨recordId, hrecord, hkey⟩
      exact ⟨recordId, hkeeps _ _ hrecord, hkey⟩
    exact ⟨fun p hp => hput p (h.bucket p hp), fun p hp => hput p (h.succeeded p hp),
      fun t a r ha hr => hkeeps _ _ (h.running t a r ha hr)⟩
  | start submissionId =>
    refine ⟨h.bucket, h.succeeded, ?_⟩
    intro t a r ha hr
    rw [Store.get?_create] at ha
    split_ifs at ha
    · cases ha
      cases hr
    · exact h.running t a r ha hr
  | stop t =>
    refine ⟨h.bucket, h.succeeded, ?_⟩
    intro u a r ha hr
    rw [Store.get?_delete] at ha
    split_ifs at ha
    exact h.running u a r ha hr
  | wait => exact h
  | @goOn t answers a locks write next ha hstmt =>
    refine ⟨?_, h.succeeded, ?_⟩
    · intro p hp
      rcases List.mem_append.mp hp with hp | hp
      · exact h.bucket p hp
      · obtain ⟨r, hpoint, rfl, -⟩ := mem_puts hp
        exact putKeyed (h.running t a r ha (by rw [hpoint]; rfl)) t
    · intro u b r hb hr
      rw [Store.get?_modify] at hb
      split_ifs at hb with hu
      · rw [hu, ha] at hb
        cases hb
        exact hstmt.recordOf (fun r hr => h.running t a r ha hr) r hr
      · exact h.running u b r hb hr
  | @finish t answers a ha hstmt =>
    refine ⟨h.bucket, ?_, ?_⟩
    · intro p hp
      rcases List.mem_append.mp hp with hp | hp
      · exact h.succeeded p hp
      · obtain ⟨r, hpoint, rfl⟩ := mem_successes hp
        exact putKeyed (h.running t a r ha (by rw [hpoint]; rfl)) t
    · intro u b r hb hr
      rw [Store.get?_delete] at hb
      split_ifs at hb
      exact h.running u b r hb hr

theorem keyed_start (tables : SourceTables) : Keyed (World.start tables : World β) where
  bucket := fun _ hp => nomatch hp
  succeeded := fun _ hp => nomatch hp
  running := by
    intro t a r ha
    simp only [World.start, Rc.init, Store.get?_empty] at ha
    cases ha

/-- In every run, successful generations wrote fresh keys exactly when each of them was
    the first to upload its submission. -/
theorem freshPuts_iff (configured : Bool) (tables : SourceTables) (ops : List (WorldOp β)) :
    (∀ g ∈ (run (worldStep configured) (World.start tables) ops).succeeded,
        FirstOf Put.key (run (worldStep configured) (World.start tables) ops).bucket g) ↔
      ∀ g ∈ (run (worldStep configured) (World.start tables) ops).succeeded,
        FirstOf (fun p => p.writer.2) (run (worldStep configured) (World.start tables) ops).bucket
          g := by
  have hkeyed : Keyed (run (worldStep configured) (World.start tables) ops) :=
    run_induction keyed_step (keyed_start tables) ops
  refine forall₂_congr fun g hg => firstOf_congr fun q hq => ?_
  exact (hkeyed.succeeded g hg).key_eq_iff (hkeyed.bucket q hq)

/-! ## Runs that upload no submission twice -/

/-- What a generation knows of the bucket and of the table, and what it has written. -/
def Knows (bucket : List (ReportPut β)) (s : ReportDb β) (t : ℕ)
    (a : Txn (ReportDb β) ℕ (ReportPoint β)) : Prop :=
  match a.point with
  | .findRow r => a.write = id ∧ r.put t ∈ bucket
  | .storeRow r existing => a.write = id ∧ r.put t ∈ bucket ∧ RowOf s r existing
  | .stored r => r.put t ∈ bucket ∧ ∃ now existing, a.write = r.store now existing ∧
      RowOf s r existing
  | .failed => ∀ s, (a.write s).reports = s.reports
  | _ => a.write = id

/-- The row of a put. -/
def RowFor (p : ReportPut β) (row : ReportRow β) : Prop :=
  row.submissionId = some p.writer.2 ∧ row.gcsPath = p.key ∧ row.original = p.body

/-- No submission was uploaded twice, and every row has its put. -/
structure Kept (x : World β) : Prop where
  keyed : Keyed x
  once : (x.bucket.map fun p => p.writer.2).Nodup
  running : ∀ t a, x.db.txns.get? t = some a → Knows x.bucket x.db.committed t a
  succeeded : ∀ g ∈ x.succeeded, g ∈ x.bucket
  rows : ∀ id row, x.db.committed.reports.get? id = some row → ∃ p ∈ x.bucket, RowFor p row

theorem Kept.immutable {x : World β} (h : Kept x) : Immutable x := by
  have hkeys : (x.bucket.map Put.key).Nodup := by
    refine List.Nodup.map_on ?_ (List.Nodup.of_map _ h.once)
    intro p hp q hq hkey
    have hwriter := ((h.keyed.bucket q hq).key_eq_iff (h.keyed.bucket p hp)).mp hkey
    exact List.inj_on_of_nodup_map h.once hp hq hwriter
  constructor
  · exact fun g hg => firstOf_of_nodup hkeys (h.succeeded g hg)
  · intro id row hrow
    obtain ⟨p, hp, -, hpath, horiginal⟩ := h.rows id row hrow
    rw [hpath, horiginal]
    exact objectAt_of_nodup hkeys hp

/-- The rows that are there stay, each for its submission. -/
def RowsKept (s s' : ReportDb β) : Prop :=
  ∀ id row, s.reports.get? id = some row →
    ∃ row', s'.reports.get? id = some row' ∧ row'.submissionId = row.submissionId

theorem RowOf.mono {s s' : ReportDb β} {r : Rendered β} {existing : Option ℕ}
    (h : RowOf s r existing) (hkept : RowsKept s s') : RowOf s' r existing := by
  intro id hid
  obtain ⟨row, hrow, hsubmission⟩ := h id hid
  obtain ⟨row', hrow', hsame⟩ := hkept id row hrow
  exact ⟨row', hrow', hsame.trans hsubmission⟩

theorem Knows.mono {bucket bucket' : List (ReportPut β)} {s s' : ReportDb β} {t : ℕ}
    {a : Txn (ReportDb β) ℕ (ReportPoint β)} (h : Knows bucket s t a)
    (hbucket : ∀ p ∈ bucket, p ∈ bucket') (hkept : RowsKept s s') : Knows bucket' s' t a := by
  unfold Knows at h ⊢
  split at h
  · exact ⟨h.1, hbucket _ h.2⟩
  · exact ⟨h.1, hbucket _ h.2.1, h.2.2.mono hkept⟩
  · obtain ⟨hput, now, existing, hwrite, hrow⟩ := h
    exact ⟨hbucket _ hput, now, existing, hwrite, hrow.mono hkept⟩
  · exact h
  · exact h

theorem RowsKept.refl (s : ReportDb β) : RowsKept s s := fun _ row hrow => ⟨row, hrow, rfl⟩

theorem rowsKept_store {r : Rendered β} {now : ℤ} {existing : Option ℕ} :
    RowsKept s (r.store now existing s) := by
  intro id row hrow
  cases existing with
  | none => exact ⟨row, Store.get?_create_of_some hrow, rfl⟩
  | some id' =>
    show ∃ row', (s.reports.modify id' _).get? id = some row' ∧ _
    rw [Store.get?_modify]
    split_ifs with hid
    · rw [hrow]
      exact ⟨_, rfl, rfl⟩
    · exact ⟨row, hrow, rfl⟩

/-- A statement before the commit leaves the generation with what it learned. -/
theorem Knows.advance {bucket : List (ReportPut β)} {t : ℕ}
    {a : Txn (ReportDb β) ℕ (ReportPoint β)} {locks : List ℕ} {write : ReportDb β → ReportDb β}
    {next : ReportPoint β} (h : Knows bucket s t a)
    (hstmt : Advance tables configured answers (a.write s) a.point write next)
    (hconfigured : ∀ r, a.point = .upload r → configured = true) :
    Knows (bucket ++ a.point.puts configured answers t) s t (a.goOn locks write next) := by
  obtain ⟨point, held, done⟩ := a
  cases hstmt with
  | built => exact h
  | @uploaded r hstored =>
    have hon := hconfigured r rfl
    have hputs : ReportPoint.puts configured answers t (.upload r) = [r.put t] := by
      simp [ReportPoint.puts, hon, hstored hon]
    refine ⟨h, ?_⟩
    rw [hputs]
    exact List.mem_append_right _ List.mem_cons_self
  | found hrow =>
    obtain ⟨hwrite, hput⟩ := h
    obtain rfl : done = id := hwrite
    exact ⟨rfl, List.mem_append_left _ hput, hrow⟩
  | @wrote r existing =>
    obtain ⟨hwrite, hput, hrow⟩ := h
    obtain rfl : done = id := hwrite
    exact ⟨List.mem_append_left _ hput, answers.now, existing, rfl, hrow⟩
  | failing hreads =>
    cases point with
    | build submissionId => exact h
    | upload r => exact h
    | findRow r => exact h.1
    | _ => cases hreads
  | audited =>
    obtain rfl : done = id := h
    exact fun s => rfl

/-- A generation commits once its row is stored, or its failure is recorded. -/
theorem stored_or_failed_of_commit {point : ReportPoint β}
    (h : reportStmt tables configured answers point s = .commit) :
    (∃ r, point = .stored r) ∨ point = .failed := by
  cases point with
  | build submissionId =>
    simp only [reportStmt] at h
    split at h <;> cases h
  | upload r =>
    simp only [reportStmt] at h
    split_ifs at h
  | findRow r =>
    simp only [reportStmt] at h
    split at h <;> cases h
  | storeRow r existing => cases h
  | stored r => exact .inl ⟨r, rfl⟩
  | fail submissionId e => cases h
  | failed => exact .inr rfl

/-- Storing a report leaves every row with a put. -/
theorem rows_store {x : World β} (h : Kept x) {r : Rendered β} {t : ℕ} {now : ℤ}
    {existing : Option ℕ} (hput : r.put t ∈ x.bucket) (hrowOf : RowOf x.db.committed r existing)
    {id : ℕ} {row : ReportRow β}
    (hrow : (r.store now existing x.db.committed).reports.get? id = some row) :
    ∃ p ∈ x.bucket, RowFor p row := by
  cases existing with
  | none =>
    have hcreate : (x.db.committed.reports.create ⟨r.recordId, some r.submissionId, r.storageKey,
      now, r.pdfBytes⟩).get? id = some row := hrow
    rw [Store.get?_create] at hcreate
    split_ifs at hcreate
    · cases hcreate
      exact ⟨r.put t, hput, rfl, rfl, rfl⟩
    · exact h.rows id row hcreate
  | some id' =>
    have hmodify : (x.db.committed.reports.modify id' fun row =>
      { row with gcsPath := r.storageKey, generatedAt := now }).get? id = some row := hrow
    rw [Store.get?_modify] at hmodify
    split_ifs at hmodify with hid
    · obtain ⟨old, hold, rfl⟩ := Option.map_eq_some_iff.mp hmodify
      obtain ⟨p, hp, hsubmission, -, horiginal⟩ := h.rows id old hold
      obtain ⟨old', hold', hsame⟩ := hrowOf id (congrArg some hid.symm)
      rw [hold] at hold'
      cases hold'
      -- both keys are the submission's
      have hwriter : (r.put t).writer.2 = p.writer.2 :=
        (Option.some.inj (hsubmission.symm.trans hsame)).symm
      have hkey := ((h.keyed.bucket p hp).key_eq_iff (h.keyed.bucket _ hput)).mpr hwriter
      exact ⟨p, hp, hsubmission, hkey, horiginal⟩
    · exact h.rows id row hmodify

/-- The rows after a commit have their puts. -/
theorem rows_finish {x : World β} (h : Kept x) {t : ℕ} {a : Txn (ReportDb β) ℕ (ReportPoint β)}
    (ha : x.db.txns.get? t = some a)
    (hcommit : reportStmt x.tables configured answers a.point (a.write x.db.committed) = .commit) :
    RowsKept x.db.committed (a.write x.db.committed) ∧
      ∀ id row, (a.write x.db.committed).reports.get? id = some row →
        ∃ p ∈ x.bucket, RowFor p row := by
  have hknows := h.running t a ha
  unfold Knows at hknows
  rcases stored_or_failed_of_commit hcommit with ⟨r, hpoint⟩ | hpoint
  · rw [hpoint] at hknows
    obtain ⟨hput, now, existing, hwrite, hrowOf⟩ := hknows
    rw [hwrite]
    exact ⟨rowsKept_store, fun id row hrow => rows_store h hput hrowOf hrow⟩
  · rw [hpoint] at hknows
    have hreports : (a.write x.db.committed).reports = x.db.committed.reports := hknows _
    unfold RowsKept
    rw [hreports]
    exact ⟨fun id row hrow => ⟨row, hrow, rfl⟩, h.rows⟩

/-- A put of a submission that was not uploaded before keeps the submissions apart. -/
theorem once_puts {bucket : List (ReportPut β)} {point : ReportPoint β} (t : ℕ)
    (h : (bucket.map fun p => p.writer.2).Nodup)
    (hfresh : ∀ r, point = .upload r → answers.upload ≠ .refused →
      ∀ p ∈ bucket, p.writer.2 ≠ r.submissionId) :
    ((bucket ++ point.puts configured answers t).map fun p => p.writer.2).Nodup := by
  rw [List.map_append, List.nodup_append]
  refine ⟨h, ?_, ?_⟩
  · cases point with
    | upload r =>
      simp only [ReportPoint.puts]
      split_ifs
      · exact List.nodup_singleton _
      · exact List.nodup_nil
    | _ => exact List.nodup_nil
  · intro u hu v hv
    obtain ⟨p, hp, rfl⟩ := List.mem_map.mp hu
    obtain ⟨q, hq, rfl⟩ := List.mem_map.mp hv
    obtain ⟨r, hpoint, rfl, -, hanswer⟩ := mem_puts hq
    exact hfresh r hpoint hanswer p hp

theorem kept_step (x : World β) (o : WorldOp β) (h : Kept x) (hc : UploadsOnce configured x o) :
    Kept (worldStep configured x o) := by
  have hkeyed : Keyed (worldStep configured x o) := keyed_step x o h.keyed
  have hm := worldStep_cases configured x o
  generalize worldStep configured x o = x' at hm hkeyed
  cases hm with
  | tables tables hkeeps => exact ⟨hkeyed, h.once, h.running, h.succeeded, h.rows⟩
  | start submissionId =>
    refine ⟨hkeyed, h.once, ?_, h.succeeded, h.rows⟩
    intro t a ha
    rw [Store.get?_create] at ha
    split_ifs at ha
    · cases ha
      rfl
    · exact h.running t a ha
  | stop t =>
    refine ⟨hkeyed, h.once, ?_, h.succeeded, h.rows⟩
    intro u a ha
    rw [Store.get?_delete] at ha
    split_ifs at ha
    exact h.running u a ha
  | wait => exact h
  | @goOn t answers a locks write next ha hstmt =>
    have hgrows : ∀ p ∈ x.bucket, p ∈ x.bucket ++ a.point.puts configured answers t :=
      fun p hp => List.mem_append_left _ hp
    refine ⟨hkeyed, ?_, ?_, fun g hg => hgrows g (h.succeeded g hg), ?_⟩
    · exact once_puts t h.once fun r hpoint hanswer => (hc a r ha hpoint).2 hanswer
    · intro u b hb
      rw [Store.get?_modify] at hb
      split_ifs at hb with hu
      · rw [hu, ha] at hb
        cases hb
        rw [hu]
        exact (h.running t a ha).advance hstmt fun r hr => (hc a r ha hr).1
      · exact (h.running u b hb).mono hgrows (RowsKept.refl _)
    · intro id row hrow
      obtain ⟨p, hp, hfor⟩ := h.rows id row hrow
      exact ⟨p, hgrows p hp, hfor⟩
  | @finish t answers a ha hstmt =>
    obtain ⟨hkept, hrows⟩ := rows_finish h ha hstmt
    refine ⟨hkeyed, h.once, ?_, ?_, hrows⟩
    · intro u b hb
      rw [Store.get?_delete] at hb
      split_ifs at hb
      exact (h.running u b hb).mono (fun p hp => hp) hkept
    · intro g hg
      rcases List.mem_append.mp hg with hg | hg
      · exact h.succeeded g hg
      · obtain ⟨r, hpoint, rfl⟩ := mem_successes hg
        have hknows := h.running t a ha
        unfold Knows at hknows
        rw [hpoint] at hknows
        exact hknows.1

theorem kept_start (tables : SourceTables) : Kept (World.start tables : World β) where
  keyed := keyed_start tables
  once := List.nodup_nil
  running := by
    intro t a ha
    simp only [World.start, Rc.init, Store.get?_empty] at ha
    cases ha
  succeeded := fun _ hg => nomatch hg
  rows := by
    intro id row hrow
    simp only [World.start, Rc.init, Store.get?_empty] at hrow
    cases hrow

/-- Stored reports are immutable in every run, of any number of generations, in which no
    submission is uploaded twice. -/
theorem reportsImmutable {configured : Bool} {tables : SourceTables} {ops : List (WorldOp β)}
    (h : AllSteps (worldStep configured) (UploadsOnce configured) (World.start tables) ops) :
    AllStates (worldStep configured) Immutable (World.start tables) ops :=
  (allStates_of_allSteps kept_step (kept_start tables) h).mono fun _ => Kept.immutable

theorem uploadsOnce_upload {x : World β} {t : ℕ} {a : Txn (ReportDb β) ℕ (ReportPoint β)}
    {r : Rendered β} (ha : x.db.txns.get? t = some a) (hpoint : a.point = .upload r)
    (hconfigured : configured = true) (hfresh : ∀ p ∈ x.bucket, p.writer.2 ≠ r.submissionId) :
    UploadsOnce configured x (.exec t answers) := by
  intro b r' hb hr'
  rw [ha] at hb
  cases hb
  rw [hpoint] at hr'
  cases hr'
  exact ⟨hconfigured, fun _ => hfresh⟩

theorem uploadsOnce_other {x : World β} {t : ℕ} {a : Txn (ReportDb β) ℕ (ReportPoint β)}
    (ha : x.db.txns.get? t = some a) (hpoint : ∀ r, a.point ≠ .upload r) :
    UploadsOnce configured x (.exec t answers) := by
  intro b r hb hr
  rw [ha] at hb
  cases hb
  exact absurd hr (hpoint r)

/-- Two approved submissions of one record. -/
def twoSubmissions : SourceTables where
  records := fun id => id = 9
  submissions := fun id => if id = 2 ∨ id = 3 then some ⟨9, none, some 5000, none⟩ else none

/-- R2 stores what WeasyPrint has rendered. -/
def rendered (pdfBytes : List UInt8) : Answers (List UInt8) := ⟨0, some pdfBytes, .stored⟩

/-- Both reports of a record are generated at the same time. -/
theorem reportsImmutable_concurrent :
    AllStates (worldStep true) Immutable (World.start twoSubmissions)
      [.start 2, .start 3, .exec 0 (rendered [1]), .exec 1 (rendered [2]),
        .exec 0 (rendered [1]), .exec 1 (rendered [2]), .exec 0 (rendered [1]),
        .exec 1 (rendered [2]), .exec 0 (rendered [1]), .exec 1 (rendered [2]),
        .exec 0 (rendered [1]), .exec 1 (rendered [2])] := by
  apply reportsImmutable
  refine ⟨trivial, trivial, ?_, ?_, ?_, ?_, ?_, ?_, ?_, ?_, ?_, ?_, trivial⟩
  · exact uploadsOnce_other rfl fun r h => by cases h
  · exact uploadsOnce_other rfl fun r h => by cases h
  · exact uploadsOnce_upload (r := ⟨9, 2, [1]⟩) rfl rfl rfl fun p hp => by cases hp
  · refine uploadsOnce_upload (r := ⟨9, 3, [2]⟩) rfl rfl rfl fun p hp => ?_
    obtain rfl : p = Rendered.put ⟨9, 2, [1]⟩ 0 := List.mem_singleton.mp hp
    decide
  · exact uploadsOnce_other rfl fun r h => by cases h
  · exact uploadsOnce_other rfl fun r h => by cases h
  · exact uploadsOnce_other rfl fun r h => by cases h
  · exact uploadsOnce_other rfl fun r h => by cases h
  · exact uploadsOnce_other rfl fun r h => by cases h
  · exact uploadsOnce_other rfl fun r h => by cases h

/-- The report of one submission is generated twice. -/
def regeneration : List (WorldOp (List UInt8)) :=
  [.start 2, .exec 0 (rendered [1]), .exec 0 (rendered [1]), .exec 0 (rendered [1]),
    .exec 0 (rendered [1]), .exec 0 (rendered [1]),
    .start 2, .exec 1 (rendered [2]), .exec 1 (rendered [2]), .exec 1 (rendered [2]),
    .exec 1 (rendered [2]), .exec 1 (rendered [2])]

/-- The second report overwrites the first. -/
theorem report_overwritten : ¬ ∀ (configured : Bool) (tables : SourceTables)
    (ops : List (WorldOp (List UInt8))),
    AllStates (worldStep configured) Immutable (World.start tables) ops := by
  intro h
  have hend := (h true twoSubmissions regeneration).last
  have hsucceeded : Rendered.put ⟨9, 2, [2]⟩ 1 ∈
      (run (worldStep true) (World.start twoSubmissions) regeneration).succeeded :=
    List.mem_cons_of_mem _ List.mem_cons_self
  obtain ⟨before, after, hbucket, hfirst⟩ := hend.fresh _ hsucceeded
  have hputs : [Rendered.put ⟨9, 2, [1]⟩ 0, Rendered.put ⟨9, 2, [2]⟩ 1] =
      before ++ Rendered.put ⟨9, 2, [2]⟩ 1 :: after := hbucket
  cases before with
  | nil =>
    have hwriter := congrArg Put.writer (List.cons.inj hputs).1
    cases hwriter
  | cons q before =>
    obtain ⟨rfl, -⟩ := List.cons.inj hputs
    exact hfirst _ List.mem_cons_self rfl

end TempleConsign.StoredReports
