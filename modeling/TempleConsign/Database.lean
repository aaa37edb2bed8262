import Mathlib.Data.Rat.Defs
import TempleConsign.EquipmentStatus
import TempleConsign.Lib.Service
import TempleConsign.Lib.Store

/-!
# Tables and exceptions

The rows of `src/api/database/models.py` that the equipment lifecycle reads
and writes, the database they form and the exceptions its services raise. A
row keeps the columns some modelled function uses. Keys are natural numbers
(`uuid4`), instants are microseconds and prices are exact rationals
(`NUMERIC(12, 2)`).

Notification jobs and audit rows are written by nearly every service and read
by none of those modelled here, so they are left out.

`envelopes` lives at the signing provider: a rollback does not take back an
envelope that was created.
-/

namespace TempleConsign

open ServiceLib

/-! ## Instants and texts -/

/-- `timedelta(seconds=n)`. -/
def seconds (n : ℤ) : ℤ := n * 1000000

/-- `timedelta(minutes=n)`. -/
def minutes (n : ℤ) : ℤ := seconds (n * 60)

/-- `timedelta(days=n)`. -/
def days (n : ℤ) : ℤ := minutes (n * 1440)

/-- `str.isspace` of one character. -/
def isSpace (c : Char) : Bool :=
  (0x09 ≤ c.toNat && c.toNat ≤ 0x0d) || (0x1c ≤ c.toNat && c.toNat ≤ 0x20) ||
  c.toNat = 0x85 || c.toNat = 0xa0 || c.toNat = 0x1680 ||
  (0x2000 ≤ c.toNat && c.toNat ≤ 0x200a) || c.toNat = 0x2028 || c.toNat = 0x2029 ||
  c.toNat = 0x202f || c.toNat = 0x205f || c.toNat = 0x3000

/-- `str.strip`. -/
def strip (s : String) : String :=
  String.ofList ((s.toList.dropWhile isSpace).reverse.dropWhile isSpace).reverse

/-- `s or None`: the empty string counts as absent. -/
def truthy (s : Option String) : Option String := s.filter fun t => t ≠ ""

/-! ## Rows -/

/-- `roles.slug`. -/
inductive RoleSlug
  | customer
  | sales
  | appraiser
  | salesManager
  | reporting
  | admin
  deriving DecidableEq, Repr

namespace RoleSlug

def value : RoleSlug → String
  | customer => "customer"
  | sales => "sales"
  | appraiser => "appraiser"
  | salesManager => "sales_manager"
  | reporting => "reporting"
  | admin => "admin"

end RoleSlug

/-- `User` (line 79). `role` is the slug behind `role_id`, `roles` the slugs of
    the `user_roles` join. -/
structure User where
  email : String
  firstName : String
  lastName : String
  role : RoleSlug
  roles : List RoleSlug

/-- `Customer` (line 378). -/
structure Customer where
  userId : Option ℕ

/-- `EquipmentRecord` (line 418). -/
structure EquipmentRecord where
  customerId : ℕ
  status : Status
  referenceNumber : Option String
  customerMake : Option String
  customerModel : Option String
  customerLocationText : Option String
  deletedAt : Option ℤ

/-- `StatusEvent` (line 523). -/
structure StatusEvent where
  recordId : ℕ
  fromStatus : Option Status
  toStatus : Status
  changedBy : Option ℕ
  note : Option String

/-- `CalendarEvent` (line 955). -/
structure CalendarEvent where
  recordId : ℕ
  appraiserId : ℕ
  scheduledAt : ℤ
  durationMinutes : ℕ
  siteAddress : Option String
  cancelledAt : Option ℤ
  deriving DecidableEq

/-- The values of `appraisal_submissions.status`. -/
inductive SubmissionStatus
  | draft
  | submitted
  | underReview
  | approved
  | rejected
  deriving DecidableEq, Repr

namespace SubmissionStatus

def value : SubmissionStatus → String
  | draft => "draft"
  | submitted => "submitted"
  | underReview => "under_review"
  | approved => "approved"
  | rejected => "rejected"

end SubmissionStatus

/-- `AppraisalSubmission` (line 712). -/
structure AppraisalSubmission where
  recordId : ℕ
  appraiserId : Option ℕ
  status : SubmissionStatus
  categoryId : Option ℕ
  make : Option String
  model : Option String
  year : Option ℤ
  managementReviewRequired : Bool
  holdForTitleReview : Bool
  marketabilityRating : Option String
  reviewNotes : Option String
  approvedPurchaseOffer : Option ℚ
  suggestedConsignmentPrice : Option ℚ
  rejectionNotes : Option String
  approvedById : Option ℕ
  approvedAt : Option ℤ
  submittedAt : Option ℤ
  deletedAt : Option ℤ

/-- The values of `consignment_contracts.status`. -/
inductive ContractStatus
  | sent
  | completed
  | declined
  deriving DecidableEq, Repr

/-- `ConsignmentContract` (line 884). -/
structure ConsignmentContract where
  recordId : ℕ
  envelopeId : Option ℕ
  status : ContractStatus
  signedAt : Option ℤ

/-- The values of `change_requests.status`. -/
inductive ChangeStatus
  | pending
  | resolved
  | rejected
  deriving DecidableEq, Repr

namespace ChangeStatus

def value : ChangeStatus → String
  | pending => "pending"
  | resolved => "resolved"
  | rejected => "rejected"

end ChangeStatus

/-- `_ALLOWED_REQUEST_TYPES` (`change_request_service.py` line 44). -/
inductive RequestType
  | editDetails
  | updateLocation
  | updatePhotos
  | updateConsignmentPrice
  | withdraw
  | other
  deriving DecidableEq, Repr

namespace RequestType

def value : RequestType → String
  | editDetails => "edit_details"
  | updateLocation => "update_location"
  | updatePhotos => "update_photos"
  | updateConsignmentPrice => "update_consignment_price"
  | withdraw => "withdraw"
  | other => "other"

/-- The allowed type with this value. -/
def ofValue? (v : String) : Option RequestType :=
  [editDetails, updateLocation, updatePhotos, updateConsignmentPrice, withdraw, other].find?
    fun t => t.value = v

end RequestType

/-- `ChangeRequest` (line 903). -/
structure ChangeRequest where
  recordId : ℕ
  requestType : RequestType
  customerNotes : Option String
  status : ChangeStatus
  resolutionNotes : Option String
  requiresManagerReapproval : Bool
  proposedConsignmentPrice : Option ℚ
  resolvedAt : Option ℤ
  resolvedBy : Option ℕ

/-- `PublicListing` (line 976). -/
structure PublicListing where
  recordId : ℕ
  listingTitle : String
  status : String
  publishedAt : Option ℤ

/-- `AppraisalReport` (line 858). -/
structure AppraisalReport where
  recordId : ℕ
  submissionId : Option ℕ
  gcsPath : String
  generatedAt : ℤ

/-- The values that fill `_CONTRACT_STUB_TEXT` (`esign_service.py` line 31). -/
structure DocumentData where
  make : String
  model : String
  year : Option ℤ
  referenceNumber : String
  purchaseOffer : ℚ
  consignmentPrice : ℚ
  deriving DecidableEq

/-- What `SigningService.create_envelope` was called with. -/
structure Envelope where
  recordId : ℕ
  customerEmail : String
  customerName : String
  documentData : DocumentData

/-! ## The database -/

structure Db where
  users : Store User
  customers : Store Customer
  records : Store EquipmentRecord
  statusEvents : Store StatusEvent
  calendarEvents : Store CalendarEvent
  submissions : Store AppraisalSubmission
  contracts : Store ConsignmentContract
  changeRequests : Store ChangeRequest
  listings : Store PublicListing
  reports : Store AppraisalReport
  envelopes : Store Envelope

/-- A database with accounts and nothing else. -/
def Db.init (users : Store User) (customers : Store Customer) : Db where
  users := users
  customers := customers
  records := .empty
  statusEvents := .empty
  calendarEvents := .empty
  submissions := .empty
  contracts := .empty
  changeRequests := .empty
  listings := .empty
  reports := .empty
  envelopes := .empty

/-- `session.rollback()`: the tables are as before the request, the envelopes
    stay at the provider. -/
def Db.rollback (before atRaise : Db) : Db := { before with envelopes := atRaise.envelopes }

/-- The exceptions a service raises. -/
inductive Exn
  | httpException (statusCode : ℕ) (detail : String)
  | lookupError (message : String)
  | valueError (message : String)
  | permissionError (message : String)
  | attributeError
  | multipleResultsFound
  | integrityError
  | inFailedSqlTransaction
  | signingFailed

/-- A service of the API. -/
abbrev Service (α : Type) := Svc Db Exn α

/-- `scalar_one_or_none()` on the rows of a table that satisfy `p`. -/
def selectOne {ρ : Type} (table : Db → Store ρ) (p : ℕ → ρ → Bool) : Service (Option (ℕ × ρ)) := do
  let db ← get
  Svc.expect (Store.scalarOneOrNone ((table db).select p)) .multipleResultsFound

@[simp] theorem exec_selectOne {ρ : Type} (table : Db → Store ρ) (p : ℕ → ρ → Bool) (db : Db) :
    Svc.exec (selectOne table p) db =
      match Store.scalarOneOrNone ((table db).select p) with
      | some o => (.ok o, db)
      | none => (.error .multipleResultsFound, db) := by
  simp only [selectOne, Svc.exec_bind, Svc.exec_get, Svc.exec_expect]
  cases Store.scalarOneOrNone ((table db).select p) <;> rfl

@[simp] theorem returns_selectOne {ρ : Type} {table : Db → Store ρ} {p : ℕ → ρ → Bool}
    {db db' : Db} {o : Option (ℕ × ρ)} :
    Svc.Returns (selectOne table p) db o db' ↔
      Store.scalarOneOrNone ((table db).select p) = some o ∧ db = db' := by
  simp [selectOne, eq_comm]

/-- `scalar_one_or_none()` on the row with key `k`, which must satisfy `p`. -/
def fetch {ρ : Type} (table : Db → Store ρ) (k : ℕ) (p : ρ → Bool) (e : Exn) : Service ρ := do
  let db ← get
  Svc.expect (((table db).get? k).filter p) e

@[simp] theorem returns_fetch {ρ : Type} {table : Db → Store ρ} {k : ℕ} {p : ρ → Bool} {e : Exn}
    {db db' : Db} {r : ρ} :
    Svc.Returns (fetch table k p e) db r db' ↔
      ((table db).get? k = some r ∧ p r = true) ∧ db = db' := by
  simp [fetch, Option.filter_eq_some_iff]

@[simp] theorem returns_selectOne_bind {ρ α : Type} {table : Db → Store ρ} {p : ℕ → ρ → Bool}
    {f : Option (ℕ × ρ) → Service α} {db db' : Db} {a : α} :
    Svc.Returns (selectOne table p >>= f) db a db' ↔
      ∃ o, Store.scalarOneOrNone ((table db).select p) = some o ∧ Svc.Returns (f o) db a db' :=
  Svc.returns_bind_of_read fun _ _ => returns_selectOne

@[simp] theorem returns_fetch_bind {ρ α : Type} {table : Db → Store ρ} {k : ℕ} {p : ρ → Bool}
    {e : Exn} {f : ρ → Service α} {db db' : Db} {a : α} :
    Svc.Returns (fetch table k p e >>= f) db a db' ↔
      ∃ r, ((table db).get? k = some r ∧ p r = true) ∧ Svc.Returns (f r) db a db' :=
  Svc.returns_bind_of_read fun _ _ => returns_fetch

/-- `record.customer.user`. -/
def customerUser (db : Db) (record : EquipmentRecord) : Option User :=
  (db.customers.get? record.customerId).bind fun customer => customer.userId.bind db.users.get?

/-! ## Status transitions -/

/-- The writes of `record_transition`: a `status_events` row and the new
    status. -/
def Db.transition (db : Db) (id : ℕ) (source target : Status) (changedBy : Option ℕ)
    (note : Option String) : Db :=
  { db with
    statusEvents := db.statusEvents.create
      { recordId := id, fromStatus := some source, toStatus := target, changedBy, note }
    records := db.records.modify id fun r => { r with status := target } }

/-! A transition writes `records` and `statusEvents` only. -/

section
variable (db : Db) (id : ℕ) (source target : Status) (changedBy : Option ℕ) (note : Option String)

@[simp] theorem transition_users :
    (db.transition id source target changedBy note).users = db.users := rfl

@[simp] theorem transition_customers :
    (db.transition id source target changedBy note).customers = db.customers := rfl

@[simp] theorem transition_calendarEvents :
    (db.transition id source target changedBy note).calendarEvents = db.calendarEvents := rfl

@[simp] theorem transition_submissions :
    (db.transition id source target changedBy note).submissions = db.submissions := rfl

@[simp] theorem transition_contracts :
    (db.transition id source target changedBy note).contracts = db.contracts := rfl

@[simp] theorem transition_changeRequests :
    (db.transition id source target changedBy note).changeRequests = db.changeRequests := rfl

@[simp] theorem transition_listings :
    (db.transition id source target changedBy note).listings = db.listings := rfl

@[simp] theorem transition_reports :
    (db.transition id source target changedBy note).reports = db.reports := rfl

@[simp] theorem transition_envelopes :
    (db.transition id source target changedBy note).envelopes = db.envelopes := rfl

end

/-- Model of `record_transition` (`equipment_status_service.py` line 74) up to
    the flush; `record` is the row the caller loaded. -/
def recordTransition (id : ℕ) (record : EquipmentRecord) (target : Status)
    (changedBy : Option ℕ) (note : Option String) : Service Unit := do
  Svc.require (record.status ≠ target)
    (.httpException 409 s!"Record is already in status '{target.value}'.")
  Svc.require (isForbiddenTransition record.status target = false)
    (.httpException 409 s!"Cannot transition from '{record.status.value}' to '{target.value}'.")
  modify fun db => db.transition id record.status target changedBy note

@[simp] theorem returns_recordTransition {id : ℕ} {record : EquipmentRecord} {target : Status}
    {changedBy : Option ℕ} {note : Option String} {db db' : Db} {u : Unit} :
    Svc.Returns (recordTransition id record target changedBy note) db u db' ↔
      record.status ≠ target ∧ isForbiddenTransition record.status target = false ∧
        db.transition id record.status target changedBy note = db' := by
  simp [recordTransition]

@[simp] theorem returns_recordTransition_bind {α : Type} {id : ℕ} {record : EquipmentRecord}
    {target : Status} {changedBy : Option ℕ} {note : Option String} {f : Unit → Service α}
    {db db' : Db} {a : α} :
    Svc.Returns (recordTransition id record target changedBy note >>= f) db a db' ↔
      (record.status ≠ target ∧ isForbiddenTransition record.status target = false) ∧
        Svc.Returns (f ()) (db.transition id record.status target changedBy note) a db' :=
  Svc.returns_bind_of_write fun _ _ => by rw [returns_recordTransition, and_assoc]

/-- The status of a record after a transition of record `id`. -/
theorem transition_records (db : Db) (id : ℕ) (source target : Status) (changedBy : Option ℕ)
    (note : Option String) (k : ℕ) :
    (db.transition id source target changedBy note).records.get? k =
      if k = id then (db.records.get? k).map fun r => { r with status := target }
      else db.records.get? k :=
  Store.get?_modify _ _ _ _

end TempleConsign
