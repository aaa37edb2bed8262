import TempleConsign.Notices
import TempleConsign.RoutingOrder

/-!
# Submitting an intake

Model of `submit_intake` in `src/api/services/equipment_service.py`: it stores
the record, runs the routing waterfall inside a `try`, applies the decision
outside of it and enqueues the confirmation, all in one transaction. An error of
the database leaves the transaction aborted: a handler may swallow the exception,
but every later statement raises.

`equipment_records` is split into the columns that notices read (`Tables`) and
the others (`IntakeDetails`). The payload is what `IntakeSubmission`
(`src/api/schemas/equipment.py`) returns.

Deviations:
* `bleach.clean` and the random reference numbers are parameters (`IntakeEnv`).
* The foreign keys to `users` refer to the users of `Tables`; routing does not
  read its roster.

Results:
* `returns_storeIntake`: what is stored before the record is routed.
* `exec_tryRoute`: what a routing exception leaves behind.
* `accepted_iff`: which intakes are stored and confirmed.
-/

namespace TempleConsign.LeadRouting

open ServiceLib

/-! ## Rows -/

/-- The columns of `customers` an intake reads and writes. -/
structure CustomerProfile where
  userId : Option ℕ
  submitterName : String
  addressStreet : Option String := none
  addressCity : Option String := none
  addressState : Option String := none
  addressZip : Option String := none

/-- `IntakePhotoIn` (`src/api/schemas/equipment.py` line 15). -/
structure IntakePhotoIn where
  storageKey : String
  caption : Option String := none
  displayOrder : ℕ := 0

/-- `IntakeSubmission` (line 28). -/
structure IntakeSubmission where
  categoryId : Option ℕ := none
  make : Option String := none
  model : Option String := none
  year : Option ℕ := none
  serialNumber : Option String := none
  hours : Option ℕ := none
  runningStatus : Option String := none
  ownershipType : Option String := none
  locationText : Option String := none
  description : Option String := none
  photos : List IntakePhotoIn := []

/-- The columns of a record that no notice reads, with its photos. -/
structure IntakeDetails where
  customerId : ℕ
  categoryId : Option ℕ
  customerYear : Option ℕ
  customerSerialNumber : Option String
  customerHours : Option ℕ
  customerRunningStatus : Option String
  customerOwnershipType : Option String
  customerLocationText : Option String
  customerDescription : Option String
  customerSubmittedAt : ℤ
  intakePhotos : List IntakePhotoIn

/-- The `AuditLog` row `equipment_record.routed`. -/
structure RoutedAudit where
  targetId : ℕ
  trigger : String
  ruleId : Option ℕ
  ruleType : Option RuleType
  assignedSalesRepId : Option ℕ

/-- The tables of an intake, and whether its transaction is aborted. -/
structure IntakeDb where
  routing : RoutingDb
  tables : Tables
  details : ℕ → Option IntakeDetails
  profiles : Store CustomerProfile
  activeCategory : ℕ → Bool
  auditLogs : List RoutedAudit
  jobs : Store Job
  aborted : Bool

/-- The exceptions that leave `submit_intake`. -/
inductive IntakeError
  | httpException (statusCode : ℕ) (detail : String)
  | multipleResultsFound
  | dataError
  | integrityError (constraint : String)
  | inFailedSqlTransaction
  deriving DecidableEq

abbrev IntakeService (α : Type) := Svc IntakeDb IntakeError α

/-- The user who submits. -/
structure Submitter extends Recipient where
  lastName : String

/-- What an intake calls: `clean` is `bleach.clean` without tags, `referenceNumber`
    the number that the attempt of this index generates. -/
structure IntakeEnv extends RoutingEnv where
  clean : String → String
  referenceNumber : ℕ → String
  now : ℤ

/-! ## Statements -/

/-- A statement answers with what it reads, unless the transaction is aborted. -/
def statement : IntakeService IntakeDb := do
  let db ← get
  Svc.require (db.aborted = false) .inFailedSqlTransaction
  pure db

/-- A statement that writes. -/
def write (f : IntakeDb → IntakeDb) : IntakeService Unit := do
  let _ ← statement
  modify f

/-! ## Storing the record -/

/-- `_validate_category` (line 78). -/
def validateCategory (categoryId : Option ℕ) : IntakeService Unit :=
  match categoryId with
  | none => pure ()
  | some category => do
    let db ← statement
    Svc.require (db.activeCategory category = true)
      (.httpException 422 "Unknown or inactive equipment category.")

/-- PostgreSQL takes the text into a column of this length. -/
def fits (limit : ℕ) (text : Option String) : Bool :=
  text.all fun t => t.length ≤ limit && !t.toList.contains '\x00'

/-- PostgreSQL takes the text into a `TEXT` column. -/
def fitsText (text : Option String) : Bool := text.all fun t => !t.toList.contains '\x00'

/-- The row of a customer as routing reads it. -/
def CustomerProfile.routed (p : CustomerProfile) (id : ℕ) (user : Submitter) : RoutedCustomer where
  id := id
  email := some user.email
  addressStreet := p.addressStreet
  addressCity := p.addressCity
  addressState := p.addressState
  addressZip := p.addressZip

/-- The profile `ensure_profile_for_user` creates. -/
def newProfile (user : Submitter) : CustomerProfile where
  userId := some user.id
  submitterName := strip (user.firstName ++ " " ++ user.lastName)

/-- `ensure_profile_for_user` (`src/api/services/customer_service.py` line 15). -/
def ensureProfileForUser (user : Submitter) : IntakeService RoutedCustomer := do
  let db ← statement
  let profile ← Svc.expect
    (Store.scalarOneOrNone (db.profiles.select fun _ p => p.userId = some user.id))
    .multipleResultsFound
  match profile with
  | some (id, p) => pure (p.routed id user)
  | none => do
    Svc.require (fits 200 (some (newProfile user).submitterName) = true) .dataError
    modify fun db => { db with profiles := db.profiles.create (newProfile user) }
    pure ((newProfile user).routed db.profiles.next user)

/-- `sanitize_plain` (`src/api/services/sanitization.py` line 50). -/
def sanitizePlain (env : IntakeEnv) (value : Option String) : Option String :=
  value.bind fun v => truthy (some (strip (env.clean v)))

/-- `_MAX_REF_ATTEMPTS` (line 50). -/
def maxRefAttempts : ℕ := 10

/-- The first generated number that no record has. -/
def freeReference (env : IntakeEnv) (db : IntakeDb) : Option String :=
  ((List.range maxRefAttempts).map env.referenceNumber).find? fun candidate =>
    db.tables.records.exists? (fun _ r => r.referenceNumber = some candidate) = false

/-- `_reserve_reference_number` (line 58). -/
def reserveReferenceNumber (env : IntakeEnv) : IntakeService String := do
  let db ← statement
  Svc.expect (freeReference env db)
    (.httpException 500 "Could not allocate a reference number. Please retry.")

/-- The new record, as notices read it. -/
def newRecord (env : IntakeEnv) (payload : IntakeSubmission) (reference : String) :
    NotifiedRecord where
  status := .newRequest
  referenceNumber := some reference
  customerMake := sanitizePlain env payload.make
  customerModel := sanitizePlain env payload.model
  assignedSalesRepId := none

/-- The photos of line 137: the position stands in for a display order of zero. -/
def newPhotos (env : IntakeEnv) (photos : List IntakePhotoIn) : List IntakePhotoIn :=
  photos.zipIdx.map fun (photo, idx) =>
    { storageKey := strip photo.storageKey
      caption := sanitizePlain env photo.caption
      displayOrder := if photo.displayOrder ≠ 0 then photo.displayOrder else idx }

/-- The other columns of the new record. -/
def newDetails (env : IntakeEnv) (payload : IntakeSubmission) (customerId : ℕ) : IntakeDetails where
  customerId := customerId
  categoryId := payload.categoryId
  customerYear := payload.year
  customerSerialNumber := sanitizePlain env payload.serialNumber
  customerHours := payload.hours
  customerRunningStatus := payload.runningStatus
  customerOwnershipType := payload.ownershipType
  customerLocationText := sanitizePlain env payload.locationText
  customerDescription := sanitizePlain env payload.description
  customerSubmittedAt := env.now
  intakePhotos := newPhotos env payload.photos

/-- The columns take the sanitized texts. Escaping may have made them longer. -/
def columnsTake (env : IntakeEnv) (payload : IntakeSubmission) : Bool :=
  fits 100 (sanitizePlain env payload.make) && fits 100 (sanitizePlain env payload.model) &&
    fits 100 (sanitizePlain env payload.serialNumber) &&
    fits 255 (sanitizePlain env payload.locationText) &&
    fitsText (sanitizePlain env payload.description) &&
    (newPhotos env payload.photos).all fun photo =>
      fits 255 (some photo.storageKey) && fitsText photo.caption

/-- The flush of the new record (line 144). -/
def insertRecord (env : IntakeEnv) (payload : IntakeSubmission) (customerId : ℕ)
    (reference : String) : IntakeService ℕ := do
  let db ← statement
  Svc.require (columnsTake env payload = true) .dataError
  let id := db.tables.records.next
  modify fun db => { db with
    tables := { db.tables with
      records := db.tables.records.create (newRecord env payload reference) }
    details := Function.update db.details id (some (newDetails env payload customerId)) }
  pure id

/-- `submit_intake` up to the routing (lines 109 to 150). -/
def storeIntake (env : IntakeEnv) (user : Submitter) (payload : IntakeSubmission) :
    IntakeService (ℕ × RoutedCustomer) := do
  validateCategory payload.categoryId
  let customer ← ensureProfileForUser user
  let reference ← reserveReferenceNumber env
  let id ← insertRecord env payload customer.id reference
  pure (id, customer)

/-! ## Routing it -/

/-- `notification_service.enqueue` of one notice. -/
def enqueueNotice (env : IntakeEnv) (notice : Notice) : IntakeService Unit :=
  write fun db => { db with jobs := (Svc.exec (enqueue env.now notice.request) db.jobs).2 }

/-- The calls of `enqueue` one after the other. -/
def enqueueNotices (env : IntakeEnv) : List Notice → IntakeService Unit
  | [] => pure ()
  | notice :: notices => do
    enqueueNotice env notice
    enqueueNotices env notices

/-- The trigger of a decision, as the key of a notice has it. -/
def RoutingDecision.assignmentTrigger (decision : RoutingDecision) : AssignmentTrigger :=
  if decision.ruleId.isSome then .leadRouting else .defaultSalesRep

/-- The `try` of `_route_and_assign` (line 167): the decision, or none when routing
    raised. What it wrote stays, and an error of the database aborts the
    transaction. -/
def tryRoute (env : IntakeEnv) (rows : List (ℕ × LeadRoutingRule)) (customer : RoutedCustomer) :
    IntakeService (Option RoutingDecision) := do
  let db ← get
  match Svc.exec (routeForRecord env.toRoutingEnv rows customer) db.routing with
  | (.ok decision, routing) => do
    modify fun db => { db with routing := routing }
    pure (some decision)
  | (.error e, routing) => do
    modify fun db => { db with routing := routing, aborted := db.aborted || e = .dataError }
    pure none

/-- The audit row of a decision. -/
def RoutingDecision.audit (decision : RoutingDecision) (id : ℕ) : RoutedAudit where
  targetId := id
  trigger := decision.trigger
  ruleId := decision.ruleId
  ruleType := decision.ruleType
  assignedSalesRepId := decision.assignedUserId

/-- The foreign key of `assigned_sales_rep_id`
    (`src/api/database/models.py` line 446). -/
def assigneeKey : String := "equipment_records_assigned_sales_rep_id_fkey"

/-- The flush of the assignment (line 216): the row must be of a user. -/
def assign (id userId : ℕ) (decision : RoutingDecision) : IntakeService Unit := do
  let db ← statement
  Svc.require ((db.tables.users userId).isSome = true) (.integrityError assigneeKey)
  modify fun db => { db with
    tables := { db.tables with
      records := db.tables.records.modify id fun r => { r with assignedSalesRepId := some userId } }
    auditLogs := db.auditLogs ++ [decision.audit id] }

/-- `enqueue_assignment_notification` (line 234). -/
def enqueueAssignmentNotification (env : IntakeEnv) (id userId : ℕ) (trigger : AssignmentTrigger) :
    IntakeService Unit := do
  let db ← statement
  match db.tables.records.get? id with
  | some record => enqueueNotices env (assignmentNotices db.tables id record userId trigger)
  | none => pure ()

/-- `_route_and_assign` from line 182 on. -/
def applyDecision (env : IntakeEnv) (id : ℕ) (decision : RoutingDecision) : IntakeService Unit :=
  match decision.assignedUserId with
  | none => write fun db => { db with auditLogs := db.auditLogs ++ [decision.audit id] }
  | some userId => do
    assign id userId decision
    enqueueAssignmentNotification env id userId decision.assignmentTrigger

/-- `_route_and_assign` (line 154). -/
def routeAndAssign (env : IntakeEnv) (rows : List (ℕ × LeadRoutingRule)) (id : ℕ)
    (customer : RoutedCustomer) : IntakeService Unit := do
  match ← tryRoute env rows customer with
  | none => pure ()
  | some decision => applyDecision env id decision

/-- `_enqueue_confirmation` (line 313). -/
def enqueueConfirmation (env : IntakeEnv) (user : Submitter) (id : ℕ) : IntakeService Unit := do
  let db ← statement
  match db.tables.records.get? id with
  | some record => enqueueNotice env (confirmationNotice id record user.toRecipient)
  | none => pure ()

/-- `submit_intake` (line 103); `rows` is what `_load_active_rules` returns. The
    result is the id of the record. -/
def submitIntake (env : IntakeEnv) (rows : List (ℕ × LeadRoutingRule)) (user : Submitter)
    (payload : IntakeSubmission) : IntakeService ℕ := do
  let (id, customer) ← storeIntake env user payload
  routeAndAssign env rows id customer
  enqueueConfirmation env user id
  pure id

/-! ## What is stored -/

variable {env : IntakeEnv} {db db' : IntakeDb} {user : Submitter} {payload : IntakeSubmission}

theorem returns_statement_bind {α : Type} {f : IntakeDb → IntakeService α} {a : α} :
    Svc.Returns (statement >>= f) db a db' ↔
      db.aborted = false ∧ Svc.Returns (f db) db a db' := by
  simp [statement]

theorem returns_write {f : IntakeDb → IntakeDb} {u : Unit} :
    Svc.Returns (write f) db u db' ↔ db.aborted = false ∧ f db = db' := by
  simp [write, returns_statement_bind]

/-- What the query for the profile finds; none where it finds several. -/
def profileOf (db : IntakeDb) (user : Submitter) : Option (Option (ℕ × CustomerProfile)) :=
  Store.scalarOneOrNone (db.profiles.select fun _ p => p.userId = some user.id)

/-- The customer whose address routes the intake of the user. -/
def customerOf (db : IntakeDb) (user : Submitter) : RoutedCustomer :=
  match profileOf db user with
  | some (some (id, p)) => p.routed id user
  | _ => (newProfile user).routed db.profiles.next user

/-- The user has one profile, or gets one. -/
def ProfileReady (db : IntakeDb) (user : Submitter) : Prop :=
  profileOf db user ≠ none ∧
    (profileOf db user = some none → fits 200 (some (newProfile user).submitterName) = true)

/-- The tables with the profile of the user. -/
def withProfile (db : IntakeDb) (user : Submitter) : IntakeDb :=
  match profileOf db user with
  | some none => { db with profiles := db.profiles.create (newProfile user) }
  | _ => db

theorem returns_ensureProfileForUser {customer : RoutedCustomer} :
    Svc.Returns (ensureProfileForUser user) db customer db' ↔
      db.aborted = false ∧ ProfileReady db user ∧ customer = customerOf db user ∧
        db' = withProfile db user := by
  rw [ensureProfileForUser, returns_statement_bind, Svc.returns_expect_bind]
  refine and_congr_right fun _ => ?_
  show (∃ profile, profileOf db user = some profile ∧ _) ↔ _
  unfold ProfileReady customerOf withProfile
  match hprofile : profileOf db user with
  | none =>
    constructor
    · rintro ⟨profile, hfound, -⟩
      cases hfound
    · rintro ⟨⟨hfound, -⟩, -⟩
      exact absurd rfl hfound
  | some none =>
    constructor
    · rintro ⟨profile, hfound, hrest⟩
      cases hfound
      rw [Svc.returns_require_bind, Svc.returns_modify_bind, Svc.returns_pure] at hrest
      obtain ⟨hfits, hcustomer, hdb⟩ := hrest
      exact ⟨⟨nofun, fun _ => hfits⟩, hcustomer.symm, hdb.symm⟩
    · rintro ⟨⟨-, hfits⟩, rfl, rfl⟩
      refine ⟨none, rfl, ?_⟩
      rw [Svc.returns_require_bind, Svc.returns_modify_bind, Svc.returns_pure]
      exact ⟨hfits rfl, rfl, rfl⟩
  | some (some (id, p)) =>
    constructor
    · rintro ⟨profile, hfound, hrest⟩
      cases hfound
      obtain ⟨hcustomer, hdb⟩ := Svc.returns_pure.mp hrest
      exact ⟨⟨nofun, nofun⟩, hcustomer.symm, hdb.symm⟩
    · rintro ⟨-, rfl, rfl⟩
      exact ⟨some (id, p), rfl, Svc.returns_pure.mpr ⟨rfl, rfl⟩⟩

theorem withProfile_eq (db : IntakeDb) (user : Submitter) :
    ∃ profiles, withProfile db user = { db with profiles := profiles } := by
  unfold withProfile
  match profileOf db user with
  | some none => exact ⟨_, rfl⟩
  | some (some _) => exact ⟨db.profiles, rfl⟩
  | none => exact ⟨db.profiles, rfl⟩

/-- The category of the payload is active, when it names one. -/
def CategoryValid (db : IntakeDb) (payload : IntakeSubmission) : Prop :=
  ∀ category ∈ payload.categoryId, db.activeCategory category = true

theorem returns_validateCategory {u : Unit} (h : db.aborted = false) :
    Svc.Returns (validateCategory payload.categoryId) db u db' ↔
      CategoryValid db payload ∧ db = db' := by
  unfold CategoryValid
  cases payload.categoryId with
  | none => simp [validateCategory]
  | some category => simp [validateCategory, returns_statement_bind, h]

/-- The tables with the new record. -/
def withRecord (env : IntakeEnv) (db : IntakeDb) (payload : IntakeSubmission) (customerId : ℕ)
    (reference : String) : IntakeDb :=
  { db with
    tables := { db.tables with
      records := db.tables.records.create (newRecord env payload reference) }
    details := Function.update db.details db.tables.records.next
      (some (newDetails env payload customerId)) }

theorem returns_reserveReferenceNumber {reference : String} (h : db.aborted = false) :
    Svc.Returns (reserveReferenceNumber env) db reference db' ↔
      freeReference env db = some reference ∧ db = db' := by
  rw [reserveReferenceNumber, returns_statement_bind, Svc.returns_expect]
  exact and_iff_right h

theorem returns_insertRecord {customerId id : ℕ} {reference : String} (h : db.aborted = false) :
    Svc.Returns (insertRecord env payload customerId reference) db id db' ↔
      columnsTake env payload = true ∧ id = db.tables.records.next ∧
        db' = withRecord env db payload customerId reference := by
  rw [insertRecord, returns_statement_bind, Svc.returns_require_bind, Svc.returns_modify_bind,
    Svc.returns_pure]
  constructor
  · rintro ⟨-, hcolumns, rfl, rfl⟩
    exact ⟨hcolumns, rfl, rfl⟩
  · rintro ⟨hcolumns, rfl, rfl⟩
    exact ⟨h, hcolumns, rfl, rfl⟩

/-- What is stored before the record is routed. -/
theorem returns_storeIntake {stored : ℕ × RoutedCustomer} (h : db.aborted = false) :
    Svc.Returns (storeIntake env user payload) db stored db' ↔
      CategoryValid db payload ∧ ProfileReady db user ∧ columnsTake env payload = true ∧
        ∃ reference, freeReference env db = some reference ∧
          stored = (db.tables.records.next, customerOf db user) ∧
          db' = withRecord env (withProfile db user) payload (customerOf db user).id
            reference := by
  obtain ⟨profiles, hprofiles⟩ := withProfile_eq db user
  have hopen : (withProfile db user).aborted = false := by
    rw [hprofiles]
    exact h
  have hfree : freeReference env (withProfile db user) = freeReference env db := by
    rw [hprofiles]
    rfl
  have hnext : (withProfile db user).tables.records.next = db.tables.records.next := by
    rw [hprofiles]
  rw [storeIntake, Svc.returns_bind_of_write fun _ _ => returns_validateCategory h]
  refine and_congr_right fun _ => ?_
  simp only [Svc.returns_bind, Svc.returns_pure]
  constructor
  · rintro ⟨customer, db₁, hensured, reference, db₂, href, id, db₃, hinserted, rfl, rfl⟩
    obtain ⟨-, hprofile, rfl, rfl⟩ := returns_ensureProfileForUser.mp hensured
    obtain ⟨hreference, rfl⟩ := (returns_reserveReferenceNumber hopen).mp href
    obtain ⟨hcolumns, rfl, rfl⟩ := (returns_insertRecord hopen).mp hinserted
    rw [hfree] at hreference
    rw [hnext]
    exact ⟨hprofile, hcolumns, reference, hreference, rfl, rfl⟩
  · rintro ⟨hprofile, hcolumns, reference, hreference, rfl, rfl⟩
    refine ⟨_, _, returns_ensureProfileForUser.mpr ⟨h, hprofile, rfl, rfl⟩, reference, _,
      (returns_reserveReferenceNumber hopen).mpr ⟨hfree.trans hreference, rfl⟩, _, _,
      (returns_insertRecord hopen).mpr ⟨hcolumns, rfl, rfl⟩, ?_, rfl⟩
    rw [hnext]

/-! ## What is enqueued -/

/-- The tables after the calls of `enqueue`. -/
def withNotices (env : IntakeEnv) (db : IntakeDb) (notices : List Notice) : IntakeDb :=
  { db with
    jobs := notices.foldl (fun jobs n => (Svc.exec (enqueue env.now n.request) jobs).2) db.jobs }

theorem returns_enqueueNotices {notices : List Notice} {u : Unit} (h : db.aborted = false) :
    Svc.Returns (enqueueNotices env notices) db u db' ↔ withNotices env db notices = db' := by
  induction notices generalizing db with
  | nil => exact Svc.returns_pure.trans (and_iff_right rfl)
  | cons notice notices ih =>
    rw [enqueueNotices, enqueueNotice, Svc.returns_bind_of_write fun _ _ => returns_write,
      and_iff_right h]
    exact ih h

/-- A job has the key of the notice. -/
def HasJob (jobs : Store Job) (key : Key) : Prop :=
  ∃ k job, jobs.get? k = some job ∧ job.idempotencyKey = key.text

/-- After `enqueue` a job has the key, new or not. -/
theorem hasJob_enqueue (now : ℤ) (notice : Notice) (jobs : Store Job) :
    HasJob (Svc.exec (enqueue now notice.request) jobs).2 notice.key := by
  have hchannel : notice.request.channel ∈ channels := by
    show notice.channel.value ∈ channels
    cases notice.channel <;> decide
  unfold enqueue
  rw [Svc.exec_bind, Svc.exec_require, if_pos hchannel]
  show HasJob (Svc.exec (get >>= _) jobs).2 _
  rw [Svc.exec_bind, Svc.exec_get]
  let clashing : ℕ → Job → Bool := fun _ j => j.idempotencyKey = notice.request.idempotencyKey
  by_cases htaken : jobs.exists? clashing = true
  · obtain ⟨k, job, hget, hkey⟩ := Store.exists?_iff.mp htaken
    dsimp only
    rw [if_pos htaken]
    exact ⟨k, job, hget, of_decide_eq_true hkey⟩
  · dsimp only
    rw [if_neg htaken]
    exact ⟨jobs.next, notice.request.row now, Store.get?_create_self _ _, rfl⟩

/-! ## After the record is stored -/

/-- The record stands in the tables as the payload has it, assigned or not. -/
def Persisted (env : IntakeEnv) (payload : IntakeSubmission) (id : ℕ) (db : IntakeDb) : Prop :=
  ∃ reference rep customerId,
    db.tables.records.get? id =
      some { newRecord env payload reference with assignedSalesRepId := rep } ∧
    db.details id = some (newDetails env payload customerId)

theorem Persisted.stored {id : ℕ} (hp : Persisted env payload id db) :
    ∃ record, db.tables.records.get? id = some record := by
  obtain ⟨reference, rep, customerId, hget, -⟩ := hp
  exact ⟨_, hget⟩

theorem persisted_withRecord (customerId : ℕ) (reference : String) :
    Persisted env payload db.tables.records.next (withRecord env db payload customerId reference) :=
  ⟨reference, none, customerId, Store.get?_create_self _ _, Function.update_self _ _ _⟩

/-- Routing does no harm: it decides for nobody or for a user who exists, or raises
    without aborting the transaction. -/
def RouteHarmless (env : IntakeEnv) (rows : List (ℕ × LeadRoutingRule)) (db : IntakeDb)
    (customer : RoutedCustomer) : Prop :=
  match (Svc.exec (routeForRecord env.toRoutingEnv rows customer) db.routing).1 with
  | .ok decision => ∀ u ∈ decision.assignedUserId, (db.tables.users u).isSome = true
  | .error e => e ≠ .dataError

/-- The tables with the record assigned and the audit row. -/
def withAssignment (db : IntakeDb) (id userId : ℕ) (decision : RoutingDecision) : IntakeDb :=
  { db with
    tables := { db.tables with
      records := db.tables.records.modify id fun r => { r with assignedSalesRepId := some userId } }
    auditLogs := db.auditLogs ++ [decision.audit id] }

theorem returns_assign {id userId : ℕ} {decision : RoutingDecision} {u : Unit}
    (h : db.aborted = false) :
    Svc.Returns (assign id userId decision) db u db' ↔
      (db.tables.users userId).isSome = true ∧ withAssignment db id userId decision = db' := by
  rw [assign, returns_statement_bind, Svc.returns_require_bind, Svc.returns_modify]
  exact and_iff_right h

theorem Persisted.withAssignment {id : ℕ} (hp : Persisted env payload id db) (userId : ℕ)
    (decision : RoutingDecision) :
    Persisted env payload id (withAssignment db id userId decision) := by
  obtain ⟨reference, rep, customerId, hget, hdetails⟩ := hp
  refine ⟨reference, some userId, customerId, ?_, hdetails⟩
  show (db.tables.records.modify id _).get? id = _
  rw [Store.get?_modify_self, hget]
  rfl

theorem returns_enqueueAssignmentNotification {id : ℕ} (h : db.aborted = false)
    (hp : Persisted env payload id db) (userId : ℕ) (trigger : AssignmentTrigger) :
    ∃ notices, Svc.Returns (enqueueAssignmentNotification env id userId trigger) db ()
      (withNotices env db notices) := by
  obtain ⟨record, hget⟩ := hp.stored
  refine ⟨assignmentNotices db.tables id record userId trigger, ?_⟩
  rw [enqueueAssignmentNotification, returns_statement_bind, hget]
  exact ⟨h, (returns_enqueueNotices h).mpr rfl⟩

/-- What a routing exception leaves behind. -/
theorem exec_tryRoute (rows : List (ℕ × LeadRoutingRule)) (customer : RoutedCustomer) :
    Svc.exec (tryRoute env rows customer) db =
      match Svc.exec (routeForRecord env.toRoutingEnv rows customer) db.routing with
      | (.ok decision, routing) => (.ok (some decision), { db with routing := routing })
      | (.error e, routing) =>
        (.ok none, { db with routing := routing, aborted := db.aborted || e = .dataError }) := by
  rw [tryRoute, Svc.exec_bind, Svc.exec_get]
  dsimp only
  match Svc.exec (routeForRecord env.toRoutingEnv rows customer) db.routing with
  | (.ok decision, routing) => rfl
  | (.error e, routing) => rfl

/-- A decision is applied when its user exists, and the record stays. -/
theorem returns_applyDecision {id : ℕ} {decision : RoutingDecision} (h : db.aborted = false)
    (hp : Persisted env payload id db)
    (huser : ∀ u ∈ decision.assignedUserId, (db.tables.users u).isSome = true) :
    ∃ db', Svc.Returns (applyDecision env id decision) db () db' ∧ db'.aborted = false ∧
      Persisted env payload id db' := by
  unfold applyDecision
  cases hassignee : decision.assignedUserId with
  | none => exact ⟨_, returns_write.mpr ⟨h, rfl⟩, h, hp⟩
  | some userId =>
    have hassigned : Svc.Returns (assign id userId decision) db ()
        (withAssignment db id userId decision) :=
      (returns_assign h).mpr ⟨huser userId hassignee, rfl⟩
    have hstored := hp.withAssignment userId decision
    have hopen : (withAssignment db id userId decision).aborted = false := h
    obtain ⟨notices, hnotified⟩ := returns_enqueueAssignmentNotification hopen hstored userId
      decision.assignmentTrigger
    exact ⟨_, Svc.returns_bind.mpr ⟨(), _, hassigned, hnotified⟩, h, hstored⟩

/-- The user of a decision that is applied exists. -/
theorem user_of_applyDecision {id : ℕ} {decision : RoutingDecision} {u : Unit}
    (h : db.aborted = false) (hreturns : Svc.Returns (applyDecision env id decision) db u db') :
    ∀ u ∈ decision.assignedUserId, (db.tables.users u).isSome = true := by
  unfold applyDecision at hreturns
  intro userId hassignee
  have hsome : decision.assignedUserId = some userId := hassignee
  rw [hsome] at hreturns
  obtain ⟨u, db₁, hassign, -⟩ := Svc.returns_bind.mp hreturns
  exact ((returns_assign h).mp hassign).1

/-- Where routing does no harm, `_route_and_assign` keeps the record and leaves the
    transaction open. -/
theorem returns_routeAndAssign {rows : List (ℕ × LeadRoutingRule)} {id : ℕ}
    {customer : RoutedCustomer} (h : db.aborted = false) (hp : Persisted env payload id db)
    (hharmless : RouteHarmless env rows db customer) :
    ∃ db', Svc.Returns (routeAndAssign env rows id customer) db () db' ∧ db'.aborted = false ∧
      Persisted env payload id db' := by
  have hrun := @exec_tryRoute env db rows customer
  unfold Svc.Returns
  unfold RouteHarmless at hharmless
  rw [routeAndAssign, Svc.exec_bind, hrun]
  match hroute : Svc.exec (routeForRecord env.toRoutingEnv rows customer) db.routing with
  | (.error e, routing) =>
    rw [hroute] at hharmless
    have herror : e ≠ .dataError := hharmless
    refine ⟨_, rfl, ?_, hp⟩
    simp [h, herror]
  | (.ok decision, routing) =>
    rw [hroute] at hharmless
    have hrouted : Persisted env payload id { db with routing := routing } := hp
    exact @returns_applyDecision env { db with routing := routing } payload id decision h hrouted
      hharmless

/-- Where `_route_and_assign` leaves the transaction open, routing did no harm. -/
theorem harmless_of_routeAndAssign {rows : List (ℕ × LeadRoutingRule)} {id : ℕ}
    {customer : RoutedCustomer} {u : Unit} (h : db.aborted = false)
    (hreturns : Svc.Returns (routeAndAssign env rows id customer) db u db')
    (hopen : db'.aborted = false) : RouteHarmless env rows db customer := by
  have hrun := @exec_tryRoute env db rows customer
  unfold Svc.Returns at hreturns
  rw [routeAndAssign, Svc.exec_bind, hrun] at hreturns
  unfold RouteHarmless
  match hroute : Svc.exec (routeForRecord env.toRoutingEnv rows customer) db.routing with
  | (.error e, routing) =>
    intro herror
    rw [hroute, herror] at hreturns
    obtain ⟨-, hdb⟩ := Prod.mk.inj hreturns
    rw [← hdb] at hopen
    simp at hopen
  | (.ok decision, routing) =>
    rw [hroute] at hreturns
    exact @user_of_applyDecision env { db with routing := routing } db' id decision u h hreturns

/-! ## The whole intake -/

/-- In an open transaction the confirmation is enqueued. -/
theorem returns_enqueueConfirmation (user : Submitter) {id : ℕ} (h : db.aborted = false)
    (hp : Persisted env payload id db) :
    ∃ db', Svc.Returns (enqueueConfirmation env user id) db () db' ∧ Persisted env payload id db' ∧
      HasJob db'.jobs (.intakeConfirmation id) := by
  obtain ⟨record, hget⟩ := hp.stored
  have hreturns : Svc.Returns (enqueueConfirmation env user id) db ()
      (withNotices env db [confirmationNotice id record user.toRecipient]) := by
    rw [enqueueConfirmation, returns_statement_bind, hget]
    exact ⟨h, returns_write.mpr ⟨h, rfl⟩⟩
  exact ⟨_, hreturns, hp,
    hasJob_enqueue env.now (confirmationNotice id record user.toRecipient) db.jobs⟩

/-- What a customer is owed: the record, and the job of its confirmation. -/
def Accepted (env : IntakeEnv) (rows : List (ℕ × LeadRoutingRule)) (db : IntakeDb)
    (user : Submitter) (payload : IntakeSubmission) : Prop :=
  ∃ id db', Svc.Returns (submitIntake env rows user payload) db id db' ∧
    Persisted env payload id db' ∧ HasJob db'.jobs (.intakeConfirmation id)

/-- An intake is accepted exactly when it can be stored and routing does no harm. -/
theorem accepted_iff {rows : List (ℕ × LeadRoutingRule)} (h : db.aborted = false) :
    Accepted env rows db user payload ↔
      CategoryValid db payload ∧ ProfileReady db user ∧ columnsTake env payload = true ∧
        (freeReference env db).isSome = true ∧
        RouteHarmless env rows db (customerOf db user) := by
  obtain ⟨profiles, hprofiles⟩ := withProfile_eq db user
  have hnext : (withProfile db user).tables.records.next = db.tables.records.next := by
    rw [hprofiles]
  have hafter : ∀ reference,
      let db₁ := withRecord env (withProfile db user) payload (customerOf db user).id reference
      db₁.aborted = false ∧ Persisted env payload db.tables.records.next db₁ ∧
        (RouteHarmless env rows db₁ (customerOf db user) ↔
          RouteHarmless env rows db (customerOf db user)) := by
    intro reference
    refine ⟨?_, ?_, ?_⟩
    · rw [hprofiles]
      exact h
    · rw [← hnext]
      exact persisted_withRecord _ _
    · rw [hprofiles]
      rfl
  constructor
  · rintro ⟨id, db', hreturns, -, -⟩
    obtain ⟨⟨id, customer⟩, db₁, hstored, hrest⟩ := Svc.returns_bind.mp hreturns
    obtain ⟨hcategory, hprofile, hcolumns, reference, hfree, heq, rfl⟩ :=
      (returns_storeIntake h).mp hstored
    obtain ⟨rfl, rfl⟩ := Prod.mk.inj heq
    obtain ⟨hopen, hp, hsame⟩ := hafter reference
    obtain ⟨u, db₂, hrouted, hrest⟩ := Svc.returns_bind.mp hrest
    obtain ⟨v, db₃, hconfirmed, -⟩ := Svc.returns_bind.mp hrest
    have hopen₂ := (returns_statement_bind.mp hconfirmed).1
    exact ⟨hcategory, hprofile, hcolumns, Option.isSome_iff_exists.mpr ⟨reference, hfree⟩,
      hsame.mp (harmless_of_routeAndAssign hopen hrouted hopen₂)⟩
  · rintro ⟨hcategory, hprofile, hcolumns, hfree, hharmless⟩
    obtain ⟨reference, hreference⟩ := Option.isSome_iff_exists.mp hfree
    obtain ⟨hopen, hp, hsame⟩ := hafter reference
    obtain ⟨db₂, hrouted, hopen₂, hp₂⟩ := returns_routeAndAssign hopen hp (hsame.mpr hharmless)
    obtain ⟨db₃, hconfirmed, hp₃, hjob⟩ := returns_enqueueConfirmation user hopen₂ hp₂
    have hstored := (returns_storeIntake h).mpr
      ⟨hcategory, hprofile, hcolumns, reference, hreference, rfl, rfl⟩
    refine ⟨db.tables.records.next, db₃, ?_, hp₃, hjob⟩
    refine Svc.returns_bind.mpr ⟨_, _, hstored, Svc.returns_bind.mpr ⟨(), db₂, hrouted, ?_⟩⟩
    exact Svc.returns_bind.mpr ⟨(), db₃, hconfirmed, Svc.returns_pure.mpr ⟨rfl, rfl⟩⟩

end TempleConsign.LeadRouting
