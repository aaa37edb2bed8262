import TempleConsign.ChangeRequests
import TempleConsign.IntakeRouting
import TempleConsign.StorageKeys
import TempleConsign.Lib.Views

/-!
# The customer portal

Model of the endpoints under `/me` that a customer's portal calls
(`src/api/routers/customers.py`, `src/api/routers/equipment.py`) with the services behind them,
of the data export of a customer (`_gather_user_data` in
`src/api/services/data_export_service.py`), and of what the staff does to the same tables:
`src/api/services/admin_customer_service.py`, `record_transition`, `resolve_change_request` and
the erasure of an account.

The identifiers, the reference numbers and the clock that a request draws are part of it
(`Draws`), as is the order of the rows that routing reads.

Deviations:
* Requests are handled one at a time.
* Texts are of any length; `IntakeRouting` has the limits of the columns.
* `Op.office` leaves any rules, configuration and users behind: what the staff and the
  registration do to the tables of routing is not followed.
* `assigned_sales_rep_id`, which no customer is shown, notifications and audit rows are left
  out. The export leaves out the consents and the notifications.
* The two nulls of `communication_prefs` are one: `_read_prefs` takes both for `None`.
* A change request comes with no proposed price, as the router passes none.
-/

namespace TempleConsign.Portal

open ServiceLib
open LeadRouting (IntakeSubmission IntakePhotoIn LeadRoutingRule RoutedCustomer RoutingDb
  RoutingDecision RoutingEnv)
open PhotoSlots (PhotoEnv)

/-! ## Tables -/

/-- `EmailPrefs` (`src/api/schemas/customer.py` line 69). -/
structure EmailPrefs where
  intakeConfirmations : Bool := true
  statusUpdates : Bool := true
  marketing : Bool := false
  smsOptIn : Bool := false
  deriving DecidableEq

/-- The nullable columns of `customers` that a profile shows. -/
inductive Column
  | businessName
  | title
  | addressStreet
  | addressCity
  | addressState
  | addressZip
  | businessPhone
  | businessPhoneExt
  | cellPhone
  deriving DecidableEq

/-- `Customer` (`src/api/database/models.py` line 378). -/
structure CustomerRow where
  id : ℕ
  userId : Option ℕ
  inviteEmail : Option String
  submitterName : String
  columns : Column → Option String
  communicationPrefs : Option EmailPrefs
  createdAt : ℤ
  deletedAt : Option ℤ

/-- The columns of a record that the customer reported. -/
structure Reported where
  categoryId : Option ℕ
  make : Option String
  model : Option String
  year : Option ℕ
  serialNumber : Option String
  hours : Option ℕ
  runningStatus : Option String
  ownershipType : Option String
  locationText : Option String
  description : Option String
  submittedAt : Option ℤ
  deriving DecidableEq

/-- `EquipmentRecord` (line 418). -/
structure RecordRow where
  id : ℕ
  customerId : ℕ
  status : Status
  referenceNumber : Option String
  reported : Reported
  createdAt : ℤ
  deletedAt : Option ℤ
  deriving DecidableEq

/-- `CustomerIntakePhoto` (line 491). -/
structure PhotoRow where
  id : ℕ
  recordId : ℕ
  storageKey : String
  caption : Option String
  displayOrder : ℕ
  uploadedAt : ℤ
  scanStatus : String
  contentType : Option String
  sha256 : Option String
  deriving DecidableEq

/-- `StatusEvent` (line 523). -/
structure EventRow where
  id : ℕ
  recordId : ℕ
  fromStatus : Option Status
  toStatus : Status
  changedBy : Option ℕ
  note : Option String
  createdAt : ℤ
  deriving DecidableEq

/-- `ChangeRequest` (line 903). -/
structure ChangeRow where
  id : ℕ
  recordId : ℕ
  requestType : RequestType
  customerNotes : Option String
  status : ChangeStatus
  resolutionNotes : Option String
  submittedAt : ℤ
  resolvedAt : Option ℤ
  resolvedBy : Option ℕ
  deriving DecidableEq

/-- `routing` is what routing reads, `isUser` the keys of `users`. -/
structure Tables where
  customers : List CustomerRow
  records : List RecordRow
  photos : List PhotoRow
  events : List EventRow
  changes : List ChangeRow
  activeCategory : ℕ → Bool
  routing : RoutingDb
  isUser : ℕ → Bool

/-- No rule, and no default rep. -/
def noRouting : RoutingDb := ⟨Store.empty, LeadRouting.emptyRoster, none⟩

def Tables.empty (activeCategory : ℕ → Bool) : Tables :=
  ⟨[], [], [], [], [], activeCategory, noRouting, fun _ => false⟩

abbrev Service (α : Type) := Svc Tables Exn α

/-! ## Answers -/

/-- `CustomerProfileRead`. -/
structure ProfileOut where
  id : ℕ
  userId : Option ℕ
  submitterName : String
  columns : Column → Option String
  emailPrefs : EmailPrefs

/-- `IntakePhotoOut` (`src/api/schemas/equipment.py` line 78). -/
structure PhotoOut where
  id : ℕ
  storageKey : String
  caption : Option String
  displayOrder : ℕ
  uploadedAt : ℤ
  scanStatus : String
  contentType : Option String
  deriving DecidableEq

/-- `StatusEventOut`. -/
structure EventOut where
  id : ℕ
  fromStatus : Option Status
  toStatus : Status
  note : Option String
  createdAt : ℤ
  deriving DecidableEq

/-- `EquipmentRecordOut`. -/
structure RecordOut where
  id : ℕ
  referenceNumber : Option String
  status : Status
  reported : Reported
  createdAt : ℤ
  photos : List PhotoOut
  statusEvents : List EventOut
  deriving DecidableEq

/-- `ChangeRequestOut`. -/
structure ChangeOut where
  id : ℕ
  recordId : ℕ
  requestType : RequestType
  customerNotes : Option String
  status : ChangeStatus
  submittedAt : ℤ
  resolvedAt : Option ℤ
  deriving DecidableEq

/-- The export of a customer's rows. -/
structure ExportOut where
  customer : Option ProfileOut
  records : List RecordOut
  changes : List ChangeOut

inductive Answer
  | profile (p : ProfileOut)
  | emailPrefs (p : EmailPrefs)
  | record (r : RecordOut)
  | records (rs : List RecordOut)
  | photo (p : PhotoOut)
  | change (c : ChangeOut)
  | changes (cs : List ChangeOut)
  | export (e : ExportOut)

def PhotoRow.out (p : PhotoRow) : PhotoOut :=
  ⟨p.id, p.storageKey, p.caption, p.displayOrder, p.uploadedAt, p.scanStatus, p.contentType⟩

def EventRow.out (e : EventRow) : EventOut :=
  ⟨e.id, e.fromStatus, e.toStatus, e.note, e.createdAt⟩

def ChangeRow.out (c : ChangeRow) : ChangeOut :=
  ⟨c.id, c.recordId, c.requestType, c.customerNotes, c.status, c.submittedAt, c.resolvedAt⟩

/-- `_read_prefs` (`customer_service.py` line 38). -/
def CustomerRow.prefs (c : CustomerRow) : EmailPrefs := c.communicationPrefs.getD {}

/-- `_serialize` of `customers.py` (line 19). -/
def CustomerRow.out (c : CustomerRow) : ProfileOut :=
  ⟨c.id, c.userId, c.submitterName, c.columns, c.prefs⟩

/-- `record.intake_photos`. -/
def Tables.photosOf (t : Tables) (recordId : ℕ) : List PhotoRow :=
  t.photos.filter fun p => p.recordId = recordId

/-- `record.status_events`, ordered by `created_at`. -/
def Tables.eventsOf (t : Tables) (recordId : ℕ) : List EventRow :=
  (t.events.filter fun e => e.recordId = recordId).mergeSort fun a b => a.createdAt ≤ b.createdAt

/-- `record.change_requests`. -/
def Tables.changesOf (t : Tables) (recordId : ℕ) : List ChangeRow :=
  t.changes.filter fun c => c.recordId = recordId

/-- `_serialize` of `equipment.py` (line 34); the events are sorted as they come. -/
def Tables.serialize (t : Tables) (r : RecordRow) : RecordOut where
  id := r.id
  referenceNumber := some (r.referenceNumber.getD "")
  status := r.status
  reported := r.reported
  createdAt := r.createdAt
  photos := ((t.photosOf r.id).mergeSort fun a b => a.displayOrder ≤ b.displayOrder).map
    PhotoRow.out
  statusEvents := (t.eventsOf r.id).map EventRow.out

/-- `_serialize_record` (`data_export_service.py` line 169). -/
def Tables.exportRecord (t : Tables) (r : RecordRow) : RecordOut where
  id := r.id
  referenceNumber := r.referenceNumber
  status := r.status
  reported := r.reported
  createdAt := r.createdAt
  photos := (t.photosOf r.id).map PhotoRow.out
  statusEvents := (t.eventsOf r.id).map EventRow.out

/-! ## Services -/

/-- `current_user`. -/
structure Account where
  id : ℕ
  email : String
  firstName : String
  lastName : String

/-- The order in which the query for the active rules returns them; it has no `ORDER BY`. -/
structure RowOrder where
  rows : RoutingDb → List (ℕ × LeadRoutingRule)
  loads : ∀ db, LeadRouting.LoadsActiveRules db (rows db)

/-- What a request draws: the clock, the identifiers and the reference numbers that it uses if
    it inserts, and the order of the active rules. -/
structure Draws where
  now : ℤ
  customerId : ℕ
  recordId : ℕ
  photoId : ℕ → ℕ
  changeId : ℕ
  eventId : ℕ
  reference : ℕ → String
  activeRules : RowOrder

/-- `clean` is `bleach.clean` without tags, `upper` is `str.upper`. -/
structure Env where
  clean : String → String
  upper : String → String
  photo : PhotoEnv
  routing : RoutingEnv

/-- `sanitize_plain` (`sanitization.py` line 46). -/
def sanitizePlain (env : Env) (value : Option String) : Option String :=
  value.bind fun v => truthy (some (strip (env.clean v)))

/-! ### Writes -/

def Tables.addCustomer (t : Tables) (c : CustomerRow) : Tables :=
  { t with customers := t.customers ++ [c] }

def Tables.setCustomer (t : Tables) (id : ℕ) (f : CustomerRow → CustomerRow) : Tables :=
  { t with customers := t.customers.map fun c => if c.id = id then f c else c }

def Tables.addRecord (t : Tables) (r : RecordRow) : Tables :=
  { t with records := t.records ++ [r] }

def Tables.setRecords (t : Tables) (f : RecordRow → RecordRow) : Tables :=
  { t with records := t.records.map f }

def Tables.addPhotos (t : Tables) (ps : List PhotoRow) : Tables :=
  { t with photos := t.photos ++ ps }

def Tables.addEvent (t : Tables) (e : EventRow) : Tables :=
  { t with events := t.events ++ [e] }

def Tables.addChange (t : Tables) (c : ChangeRow) : Tables :=
  { t with changes := t.changes ++ [c] }

def Tables.setRouting (t : Tables) (routing : RoutingDb) : Tables := { t with routing := routing }

def Tables.setChange (t : Tables) (id : ℕ) (f : ChangeRow → ChangeRow) : Tables :=
  { t with changes := t.changes.map fun c => if c.id = id then f c else c }

/-! ### The endpoints -/

/-- `scalar_one_or_none()`. -/
def one {α : Type} (l : List α) : Service (Option α) :=
  Svc.expect (Store.scalarOneOrNone l) .multipleResultsFound

/-- `select(Customer).where(Customer.user_id == user.id)`. -/
def selectCustomer (userId : ℕ) : Service (Option CustomerRow) := do
  one (← Svc.read fun t => t.customers.filter fun c => c.userId = some userId)

/-- The flush of a new customer: the primary key, and the unique index on `user_id`. -/
def insertCustomer (c : CustomerRow) : Service Unit := do
  let clash ← Svc.read fun t =>
    t.customers.any fun x => x.id = c.id || (c.userId.isSome && x.userId = c.userId)
  Svc.require (clash = false) .integrityError
  modify fun t => t.addCustomer c

/-- The row that `ensure_profile_for_user` creates (line 28). -/
def newCustomer (user : Account) (d : Draws) : CustomerRow where
  id := d.customerId
  userId := some user.id
  inviteEmail := none
  submitterName := strip (user.firstName ++ " " ++ user.lastName)
  columns := fun _ => none
  communicationPrefs := some {}
  createdAt := d.now
  deletedAt := none

/-- `ensure_profile_for_user` (`customer_service.py` line 15). -/
def ensureProfileForUser (user : Account) (d : Draws) : Service CustomerRow := do
  match ← selectCustomer user.id with
  | some customer => pure customer
  | none => do
    insertCustomer (newCustomer user d)
    pure (newCustomer user d)

/-- `CustomerProfileUpdate` without the fields that are not set: the inner `none` is a null. -/
structure ProfilePatch where
  submitterName : Option (Option String) := none
  columns : List (Column × Option String) := []

def ProfilePatch.isEmpty (p : ProfilePatch) : Bool := p.submitterName.isNone && p.columns.isEmpty

/-- The `setattr` loop (line 62). -/
def ProfilePatch.apply (p : ProfilePatch) (c : CustomerRow) : CustomerRow :=
  { c with
    submitterName := p.submitterName.join.getD c.submitterName
    columns := p.columns.foldl (fun cols u => Function.update cols u.1 u.2) c.columns }

/-- `update_profile` (line 49). -/
def updateProfile (user : Account) (d : Draws) (patch : ProfilePatch) : Service Answer := do
  let customer ← ensureProfileForUser user d
  if patch.isEmpty then pure (.profile customer.out)
  else do
    Svc.require (patch.submitterName.all fun name => (truthy name).isSome)
      (.httpException 422 "submitter_name cannot be empty.")
    modify fun t => t.setCustomer customer.id patch.apply
    pure (.profile (patch.apply customer).out)

/-- `update_email_prefs` (line 70). -/
def updateEmailPrefs (user : Account) (d : Draws) (prefs : EmailPrefs) : Service Answer := do
  let customer ← ensureProfileForUser user d
  modify fun t => t.setCustomer customer.id fun c => { c with communicationPrefs := some prefs }
  pure (.emailPrefs prefs)

/-- `_validate_category` (`equipment_service.py` line 78). -/
def validateCategory (categoryId : Option ℕ) : Service Unit := do
  let active ← Svc.read fun t => categoryId.all t.activeCategory
  Svc.require (active = true) (.httpException 422 "Unknown or inactive equipment category.")

/-- `_reserve_reference_number` (line 58): the first of ten that no record has. -/
def reserveReferenceNumber (d : Draws) : Service String := do
  let free ← Svc.read fun t => ((List.range LeadRouting.maxRefAttempts).map d.reference).find?
    fun candidate => t.records.all fun r => r.referenceNumber ≠ some candidate
  Svc.expect free (.httpException 500 "Could not allocate a reference number. Please retry.")

/-- The columns of `submit_intake` (line 115). -/
def newReported (env : Env) (d : Draws) (payload : IntakeSubmission) : Reported where
  categoryId := payload.categoryId
  make := sanitizePlain env payload.make
  model := sanitizePlain env payload.model
  year := payload.year
  serialNumber := sanitizePlain env payload.serialNumber
  hours := payload.hours
  runningStatus := payload.runningStatus
  ownershipType := payload.ownershipType
  locationText := sanitizePlain env payload.locationText
  description := sanitizePlain env payload.description
  submittedAt := some d.now

def newRecord (env : Env) (d : Draws) (payload : IntakeSubmission) (customerId : ℕ)
    (reference : String) : RecordRow where
  id := d.recordId
  customerId := customerId
  status := .newRequest
  referenceNumber := some reference
  reported := newReported env d payload
  createdAt := d.now
  deletedAt := none

/-- The photos of line 136: the position stands in for a display order of zero. -/
def newPhotos (env : Env) (d : Draws) (photos : List IntakePhotoIn) : List PhotoRow :=
  photos.zipIdx.map fun (photo, idx) =>
    { id := d.photoId idx
      recordId := d.recordId
      storageKey := strip photo.storageKey
      caption := sanitizePlain env photo.caption
      displayOrder := if photo.displayOrder ≠ 0 then photo.displayOrder else idx
      uploadedAt := d.now
      scanStatus := "pending"
      contentType := none
      sha256 := none }

/-- The flush of a record: its primary key and the unique index on the reference. -/
def insertRecord (r : RecordRow) : Service Unit := do
  let clash ← Svc.read fun t =>
    t.records.any fun x => x.id = r.id || x.referenceNumber = r.referenceNumber
  Svc.require (clash = false) .integrityError
  modify fun t => t.addRecord r

def insertPhotos (ps : List PhotoRow) : Service Unit := do
  let clash ← Svc.read fun t => t.photos.any fun x => ps.any fun p => x.id = p.id
  Svc.require (clash = false) .integrityError
  modify fun t => t.addPhotos ps

/-- `submit_intake` (line 103) up to the routing. -/
def storeIntake (env : Env) (user : Account) (d : Draws) (payload : IntakeSubmission) :
    Service (RecordRow × CustomerRow) := do
  validateCategory payload.categoryId
  let customer ← ensureProfileForUser user d
  let reference ← reserveReferenceNumber d
  let record := newRecord env d payload customer.id reference
  insertRecord record
  insertPhotos (newPhotos env d payload.photos)
  pure (record, customer)

/-- The row of a customer as routing reads it. -/
def CustomerRow.routed (c : CustomerRow) (user : Account) : RoutedCustomer where
  id := c.id
  email := some user.email
  addressStreet := c.columns .addressStreet
  addressCity := c.columns .addressCity
  addressState := c.columns .addressState
  addressZip := c.columns .addressZip

/-- The `try` of `_route_and_assign` (line 167): the decision, or none when routing raised. What
    it wrote stays. An error of the database is swallowed too, but it aborts the transaction, and
    the next statement raises. -/
def tryRoute (env : Env) (d : Draws) (customer : RoutedCustomer) :
    Service (Option RoutingDecision) := do
  let t ← get
  match Svc.exec (LeadRouting.routeForRecord env.routing (d.activeRules.rows t.routing) customer)
      t.routing with
  | (.ok decision, routing) => do
    modify fun t => t.setRouting routing
    pure (some decision)
  | (.error e, routing) => do
    Svc.require (e ≠ .dataError) .inFailedSqlTransaction
    modify fun t => t.setRouting routing
    pure none

/-- `_route_and_assign` (line 154). The flush of the assignment is outside of the `try`: its
    foreign key wants a user. -/
def routeAndAssign (env : Env) (d : Draws) (customer : RoutedCustomer) : Service Unit := do
  match ← tryRoute env d customer with
  | none => pure ()
  | some decision => do
    let assignable ← Svc.read fun t => decision.assignedUserId.all t.isUser
    Svc.require (assignable = true) .integrityError

/-- `submit_intake`, with the answer of the router. -/
def submitIntake (env : Env) (user : Account) (d : Draws) (payload : IntakeSubmission) :
    Service Answer := do
  let (record, customer) ← storeIntake env user d payload
  routeAndAssign env d (customer.routed user)
  return .record (← Svc.read fun t => t.serialize record)

/-- `list_records_for_user` (line 343). -/
def listRecordsForUser (user : Account) : Service Answer := do
  match ← selectCustomer user.id with
  | none => pure (.records [])
  | some customer => return .records (← Svc.read fun t =>
      ((t.records.filter fun r => r.customerId = customer.id).mergeSort
        fun a b => b.createdAt ≤ a.createdAt).map t.serialize)

/-- `get_record_for_user` (line 360). -/
def getRecordForUser (user : Account) (recordId : ℕ) : Service RecordRow := do
  let customer ← Svc.expect (← selectCustomer user.id)
    (.httpException 404 "Equipment record not found.")
  Svc.expect (← one (← Svc.read fun t =>
      t.records.filter fun r => r.id = recordId && r.customerId = customer.id))
    (.httpException 404 "Equipment record not found.")

/-- `get_equipment` (`equipment.py` line 161). -/
def getEquipment (user : Account) (recordId : ℕ) : Service Answer := do
  let record ← getRecordForUser user recordId
  return .record (← Svc.read fun t => t.serialize record)

/-- `FinalizePhotoRequest`. -/
structure FinalizePhotoRequest where
  storageKey : String
  contentType : String
  caption : Option String
  displayOrder : ℕ
  sha256 : Option String

/-- The row of `finalize_intake_photo` (`equipment_service.py` line 395). -/
def finalizedPhoto (env : Env) (d : Draws) (recordId : ℕ) (body : FinalizePhotoRequest) :
    PhotoRow where
  id := d.photoId 0
  recordId := recordId
  storageKey := body.storageKey
  caption := sanitizePlain env body.caption
  displayOrder := body.displayOrder
  uploadedAt := d.now
  scanStatus := "pending"
  contentType := some body.contentType
  sha256 := (truthy body.sha256).map env.photo.lower

/-- `finalize_photo` (`equipment.py` line 198). -/
def finalizePhoto (env : Env) (user : Account) (d : Draws) (recordId : ℕ)
    (body : FinalizePhotoRequest) : Service Answer := do
  let record ← getRecordForUser user recordId
  Svc.lift (StorageKeys.validateFinalizeInputs env.photo body.storageKey record.id
    body.contentType body.sha256)
  insertPhotos [finalizedPhoto env d record.id body]
  pure (.photo (finalizedPhoto env d record.id body).out)

/-- The row of `submit_change_request` (`change_request_service.py` line 71). -/
def newChange (env : Env) (d : Draws) (recordId : ℕ) (requestType : RequestType)
    (customerNotes : Option String) : ChangeRow where
  id := d.changeId
  recordId := recordId
  requestType := requestType
  customerNotes := sanitizePlain env customerNotes
  status := .pending
  resolutionNotes := none
  submittedAt := d.now
  resolvedAt := none
  resolvedBy := none

/-- `create_change_request` (`equipment.py` line 241). An integrity error of the flush is taken
    for the index on the pending request. -/
def createChangeRequest (env : Env) (user : Account) (d : Draws) (recordId : ℕ)
    (requestType : String) (customerNotes : Option String) : Service Answer := do
  let record ← getRecordForUser user recordId
  let kind ← Svc.expect (RequestType.ofValue? requestType)
    (.httpException 422 ("request_type must be one of: ['edit_details', 'other', " ++
      "'update_consignment_price', 'update_location', 'update_photos', 'withdraw']"))
  let change := newChange env d record.id kind customerNotes
  let clash ← Svc.read fun t => t.changes.any fun x =>
    x.id = change.id || (x.recordId = record.id && x.status = .pending)
  Svc.require (clash = false)
    (.httpException 409 ("A change request for this record is already pending. " ++
      "Wait for the sales team to resolve it before submitting another."))
  modify fun t => t.addChange change
  pure (.change change.out)

/-- `list_change_requests` (line 262). -/
def listChangeRequests (user : Account) (recordId : ℕ) : Service Answer := do
  let record ← getRecordForUser user recordId
  return .changes (← Svc.read fun t =>
    ((t.changesOf record.id).mergeSort fun a b => b.submittedAt ≤ a.submittedAt).map ChangeRow.out)

/-- `_gather_user_data` (`data_export_service.py` line 78). -/
def gatherUserData (user : Account) : Service Answer := do
  match ← selectCustomer user.id with
  | none => pure (.export ⟨none, [], []⟩)
  | some customer => do
    let records ← Svc.read fun t => (t.records.filter fun r =>
      r.customerId = customer.id).mergeSort fun a b => a.createdAt ≤ b.createdAt
    return .export (← Svc.read fun t => ⟨some customer.out, records.map t.exportRecord,
      records.flatMap fun r => (t.changesOf r.id).map ChangeRow.out⟩)

/-- A request of a customer's portal. -/
inductive Request
  | getProfile
  | patchProfile (patch : ProfilePatch)
  | getEmailPrefs
  | patchEmailPrefs (prefs : EmailPrefs)
  | submitIntake (payload : IntakeSubmission)
  | listEquipment
  | getEquipment (recordId : ℕ)
  | finalizePhoto (recordId : ℕ) (body : FinalizePhotoRequest)
  | createChangeRequest (recordId : ℕ) (requestType : String) (customerNotes : Option String)
  | listChangeRequests (recordId : ℕ)
  | dataExport

def Request.service (env : Env) (user : Account) (d : Draws) : Request → Service Answer
  | .getProfile => do return .profile (← ensureProfileForUser user d).out
  | .patchProfile patch => updateProfile user d patch
  | .getEmailPrefs => do return .emailPrefs (← ensureProfileForUser user d).prefs
  | .patchEmailPrefs prefs => updateEmailPrefs user d prefs
  | .submitIntake payload => Portal.submitIntake env user d payload
  | .listEquipment => listRecordsForUser user
  | .getEquipment recordId => Portal.getEquipment user recordId
  | .finalizePhoto recordId body => Portal.finalizePhoto env user d recordId body
  | .createChangeRequest recordId requestType customerNotes =>
    Portal.createChangeRequest env user d recordId requestType customerNotes
  | .listChangeRequests recordId => Portal.listChangeRequests user recordId
  | .dataExport => gatherUserData user

/-! ## The staff -/

/-- `_EMAIL_REGEX` (`admin_customer_service.py` line 24); its `$` passes over a final newline. -/
def emailMatches (s : String) : Bool :=
  let text := if s.toList.getLast? = some '\n' then s.toList.dropLast else s.toList
  match text.splitOn '@' with
  | [user, domain] =>
    user ≠ [] && (user ++ domain).all (fun c => !isSpace c) && domain.tail.dropLast.contains '.'
  | _ => false

/-- `AdminCustomerPatch` without the fields that are not set. -/
structure AdminPatch extends ProfilePatch where
  inviteEmail : Option (Option String) := none

/-- `strip().upper()` of a state. -/
def upperState (env : Env) (u : Column × Option String) : Column × Option String :=
  if u.1 = .addressState then (u.1, u.2.map fun s => env.upper (strip s)) else u

def AdminPatch.apply (env : Env) (p : AdminPatch) (c : CustomerRow) : CustomerRow :=
  { ProfilePatch.apply { p.toProfilePatch with columns := p.columns.map (upperState env) } c with
    inviteEmail := p.inviteEmail.getD c.inviteEmail }

def selectCustomerById (id : ℕ) : Service CustomerRow := do
  Svc.expect (← one (← Svc.read fun t => t.customers.filter fun c => c.id = id))
    (.httpException 404 "Customer not found.")

/-- `update_customer` (line 125). The flush fails on a null name, and where neither a user nor an
    address for the invite is left. -/
def adminUpdateCustomer (env : Env) (id : ℕ) (patch : AdminPatch) : Service Unit := do
  let customer ← selectCustomerById id
  Svc.require (¬ (patch.isEmpty = true ∧ patch.inviteEmail = none))
    (.httpException 400 "No fields to update.")
  Svc.require (patch.inviteEmail.join.all emailMatches)
    (.httpException 422 "invite_email is not a valid address.")
  Svc.require (patch.submitterName ≠ some none ∧
      (customer.userId.isSome ∨ (patch.apply env customer).inviteEmail.isSome)) .integrityError
  modify fun t => t.setCustomer id (patch.apply env)

def CustomerRow.softDeleted (now : ℤ) (c : CustomerRow) : CustomerRow :=
  { c with deletedAt := some now }

/-- The cascade of a soft delete to a record. -/
def RecordRow.softDeleted (customerId : ℕ) (now : ℤ) (r : RecordRow) : RecordRow :=
  if r.customerId = customerId ∧ r.deletedAt = none then { r with deletedAt := some now } else r

/-- `soft_delete_customer` (line 168). -/
def softDeleteCustomer (id : ℕ) (now : ℤ) : Service Unit := do
  let customer ← selectCustomerById id
  if customer.deletedAt.isSome then pure ()
  else modify fun t =>
    (t.setCustomer id (CustomerRow.softDeleted now)).setRecords (RecordRow.softDeleted id now)

/-- `AdminCustomerCreate`. -/
structure AdminCustomerCreate where
  submitterName : String
  inviteEmail : String
  columns : Column → Option String

/-- `create_walkin` (line 210). -/
def createWalkin (env : Env) (d : Draws) (payload : AdminCustomerCreate) : Service Unit := do
  Svc.require (emailMatches payload.inviteEmail = true)
    (.httpException 422 "invite_email is not a valid address.")
  insertCustomer
    { id := d.customerId
      userId := none
      inviteEmail := some (env.photo.lower (strip payload.inviteEmail))
      submitterName := strip payload.submitterName
      columns := fun c => (upperState env (c, payload.columns c)).2
      communicationPrefs := none
      createdAt := d.now
      deletedAt := none }

/-- The row of the record with this key moves to the status. -/
def RecordRow.moved (recordId : ℕ) (target : Status) (r : RecordRow) : RecordRow :=
  if r.id = recordId then { r with status := target } else r

/-- `record_transition` (`equipment_status_service.py` line 74) of the record that its caller
    found. -/
def recordTransition (recordId : ℕ) (target : Status) (changedBy : Option ℕ)
    (note : Option String) (d : Draws) : Service Unit := do
  let record ← Svc.expect (← one (← Svc.read fun t =>
    t.records.filter fun r => r.id = recordId)) (.lookupError "record not found")
  Svc.require (record.status ≠ target)
    (.httpException 409 s!"Record is already in status '{target.value}'.")
  Svc.require (isForbiddenTransition record.status target = false)
    (.httpException 409
      s!"Cannot transition from '{record.status.value}' to '{target.value}'.")
  modify fun t => (t.addEvent
    ⟨d.eventId, recordId, some record.status, target, changedBy, note, d.now⟩).setRecords
      (RecordRow.moved recordId target)

/-- The fields that `resolve_change_request` writes (line 220). -/
def ChangeRow.resolved (target : ChangeStatus) (notes : Option String) (now : ℤ) (resolver : ℕ)
    (c : ChangeRow) : ChangeRow :=
  { c with
    status := target
    resolutionNotes := notes
    resolvedAt := some now
    resolvedBy := some resolver }

/-- `resolve_change_request` (`change_request_service.py` line 174). -/
def resolveChangeRequest (env : Env) (d : Draws) (resolver changeId : ℕ) (newStatus : String)
    (resolutionNotes : Option String) : Service Unit := do
  let target ← Svc.expect (resolution? newStatus)
    (.httpException 422 "status must be 'resolved' or 'rejected'")
  let change ← Svc.expect (← one (← Svc.read fun t => t.changes.filter fun c => c.id = changeId))
    (.httpException 404 "change request not found")
  Svc.require (change.status = .pending)
    (.httpException 409
      s!"change request is already '{change.status.value}'; cannot re-resolve")
  let notes := sanitizePlain env resolutionNotes
  modify fun t => t.setChange changeId (ChangeRow.resolved target notes d.now resolver)
  Svc.onlyIf (target = .resolved ∧ change.requestType = .withdraw)
    (recordTransition change.recordId .withdrawn (some resolver) (some (withdrawNote notes)) d)

/-- The scrub of `finalize_deletion_for_user` (`account_deletion_service.py` line 131). -/
def CustomerRow.scrubbed (now : ℤ) (c : CustomerRow) : CustomerRow :=
  { c with
    submitterName := "[deleted]"
    columns := fun _ => none
    communicationPrefs := none
    deletedAt := some now }

def finalizeDeletion (userId : ℕ) (now : ℤ) : Service Unit := do
  match ← selectCustomer userId with
  | none => pure ()
  | some customer => modify fun t => t.setCustomer customer.id (CustomerRow.scrubbed now)

/-! ## Requests -/

/-- A request of a portal, or what the staff and the retention sweep do. `office` replaces the
    tables of routing. -/
inductive Op
  | portal (user : Account) (d : Draws) (request : Request)
  | adminUpdate (customerId : ℕ) (patch : AdminPatch)
  | softDelete (customerId : ℕ) (now : ℤ)
  | walkin (d : Draws) (payload : AdminCustomerCreate)
  | transition (d : Draws) (recordId : ℕ) (target : Status) (changedBy : Option ℕ)
      (note : Option String)
  | resolve (d : Draws) (resolver changeId : ℕ) (newStatus : String) (notes : Option String)
  | erase (userId : ℕ) (now : ℤ)
  | category (id : ℕ) (active : Bool)
  | office (routing : RoutingDb) (isUser : ℕ → Bool)

/-- One request in its transaction. -/
def commit {α : Type} (m : Service α) (t : Tables) : Except Exn α × Tables :=
  Svc.request (fun before _ => before) m t

def step (env : Env) (t : Tables) : Op → Tables
  | .portal user d request => (commit (request.service env user d) t).2
  | .adminUpdate id patch => (commit (adminUpdateCustomer env id patch) t).2
  | .softDelete id now => (commit (softDeleteCustomer id now) t).2
  | .walkin d payload => (commit (createWalkin env d payload) t).2
  | .transition d recordId target changedBy note =>
    (commit (recordTransition recordId target changedBy note d) t).2
  | .resolve d resolver changeId newStatus notes =>
    (commit (resolveChangeRequest env d resolver changeId newStatus notes) t).2
  | .erase userId now => (commit (finalizeDeletion userId now) t).2
  | .category id active =>
    { t with activeCategory := Function.update t.activeCategory id active }
  | .office routing isUser => { t with routing := routing, isUser := isUser }

/-- What the portal of a user is answered. -/
def answer (env : Env) (userId : ℕ) (t : Tables) : Op → Option (Except Exn Answer)
  | .portal user d request =>
    if user.id = userId then some (commit (request.service env user d) t).1 else none
  | _ => none

end TempleConsign.Portal
