import TempleConsign.DisabledAccounts

/-!
# Account deletion

Model of `src/api/services/account_deletion_service.py`, of the sweep
`fn_delete_expired_accounts` (`src/api/alembic/versions/
008_phase2_account_deletion_and_audit_scrub.py` line 145) and of the requests that
write personal data to `users` and `customers`: registration, the email change,
`customer_service.py` and `admin_customer_service.py`.

Deviations: role checks and column lengths only reject and are left out, as are
the notifications. No other account has the scrubbed address of a user, since
registration refuses the reserved domain.

Results:
* `personStep_cases`: a request commits or leaves everything as it was.
* `returns_getCurrentUser`: a signed-in user has an active or pending account.
* `personStep_oneCustomer`: a user has at most one customer row.
-/

namespace TempleConsign

open ServiceLib

/-! ## State -/

/-- The columns of `users` that only the person's data needs. -/
structure UserDetails where
  firstName : String
  lastName : String
  googleId : Option String
  profilePhotoUrl : Option String
  deletionRequestedAt : Option ℤ
  deriving DecidableEq

/-- A row of `users` without its login counters. -/
structure UserRow where
  email : String
  passwordHash : Option String
  status : AccountStatus
  totpEnabled : Bool
  totpSecretEnc : Option String
  deletionGraceUntil : Option ℤ
  details : UserDetails
  deriving DecidableEq

/-- `EmailPrefs` (`src/api/schemas/customer.py` line 69). -/
structure EmailPrefs where
  intakeConfirmations : Bool := true
  statusUpdates : Bool := true
  marketing : Bool := false
  smsOptIn : Bool := false
  deriving DecidableEq

/-- A nullable `JSONB` column: SQL's `NULL`, the document `null`, or another document. -/
inductive JsonbColumn (α : Type)
  | sqlNull
  | jsonNull
  | document (a : α)
  deriving DecidableEq

/-- The column after the flush of an assignment. The type is declared without
    `none_as_null`, so that `None` is written as the document `null`; an attribute
    that was `None` already, from either null, has not changed. -/
def JsonbColumn.assign {α : Type} : Option α → JsonbColumn α → JsonbColumn α
  | some a, _ => .document a
  | none, .document _ => .jsonNull
  | none, column => column

/-- A row of `customers` (`src/api/database/models.py` line 378). -/
structure CustomerRow where
  userId : Option ℕ
  inviteEmail : Option String
  businessName : Option String
  submitterName : String
  title : Option String
  addressStreet : Option String
  addressCity : Option String
  addressState : Option String
  addressZip : Option String
  businessPhone : Option String
  businessPhoneExt : Option String
  cellPhone : Option String
  communicationPrefs : JsonbColumn EmailPrefs
  deletedAt : Option ℤ
  deriving DecidableEq

/-- The payload of an email change token. -/
structure ChangeEmailToken where
  sub : ℕ
  newEmail : String
  exp : ℤ
  deriving DecidableEq

/-- `details` are columns of `users`; `changeEmail` are the tokens signed so far. -/
structure PersonDb where
  tokens : TokenDb
  details : ℕ → UserDetails
  customers : Store CustomerRow
  changeEmail : List ChangeEmailToken

def PersonDb.empty : PersonDb :=
  ⟨TokenDb.empty, fun _ => ⟨"", "", none, none, none⟩, Store.empty, []⟩

abbrev PersonService (α : Type) := Svc PersonDb HttpException α

/-- `str.upper`, and `_EMAIL_REGEX` (`admin_customer_service.py` line 24). -/
structure PersonEnv extends TokenEnv where
  upper : String → String
  matchesEmail : String → Bool

/-- The row of a user. -/
def PersonDb.user? (db : PersonDb) (id : ℕ) : Option UserRow :=
  (db.tokens.account? id).map fun a =>
    { email := a.email
      passwordHash := a.passwordHash
      status := a.status
      totpEnabled := a.totpEnabled
      totpSecretEnc := db.tokens.totpSecretEnc id
      deletionGraceUntil := db.tokens.deletionGraceUntil id
      details := db.details id }

def onTokens {α : Type} (m : TokenService α) : PersonService α :=
  Svc.zoom PersonDb.tokens (fun t db => { db with tokens := t }) m

def updateDetails (id : ℕ) (f : UserDetails → UserDetails) : PersonService Unit :=
  modify fun db => { db with details := Function.update db.details id (f (db.details id)) }

def currentUser (now : ℤ) (token : SignedToken) : PersonService (ℕ × Account) :=
  onTokens (getCurrentUser now token)

def auditPerson (eventType : String) (actorId : ℕ) : PersonService Unit :=
  onTokens (auditUser eventType actorId)

/-! ## Registration and the email change -/

/-- `termsCurrent` says that the versions echoed are the current ones. -/
structure Registration where
  now : ℤ
  email : String
  passwordHash : String
  firstName : String
  lastName : String
  termsCurrent : Bool

/-- `register_user` (`src/api/services/auth_service.py` line 226). -/
def registerUser (env : PersonEnv) (r : Registration) : PersonService Unit := do
  let db ← get
  let existing ← Svc.expect
    (Store.scalarOneOrNone (db.tokens.auth.users.select fun _ u => u.email = env.lower r.email))
    internalError
  Svc.require (existing = none) ⟨409, "An account with this email already exists.", []⟩
  Svc.require (r.termsCurrent = true)
    ⟨409, "Terms have been updated. Please refresh and review the latest versions.", []⟩
  let userId := db.tokens.auth.users.next
  onTokens (onAuth (createAccount
    ⟨env.lower r.email, some r.passwordHash, .pendingVerification, false⟩))
  updateDetails userId fun _ => ⟨strip r.firstName, strip r.lastName, none, none, none⟩
  onTokens (signToken ⟨userId, .verifyEmail, r.now + days 1⟩)
  auditPerson "user.registered" userId

def emailInUse : HttpException := ⟨409, "This email address is already in use.", []⟩

/-- `initiate_email_change` (line 573). -/
def initiateEmailChange (env : PersonEnv) (now : ℤ) (token : SignedToken)
    (newEmail currentPassword : String) : PersonService Unit := do
  let (userId, user) ← currentUser now token
  Svc.require (env.accepts user currentPassword = true)
    ⟨403, "Current password is incorrect.", []⟩
  let db ← get
  let existing ← Svc.expect
    (Store.scalarOneOrNone (db.tokens.auth.users.select fun _ u => u.email = env.lower newEmail))
    internalError
  Svc.require (existing = none) emailInUse
  modify fun db => { db with
    changeEmail := ⟨userId, env.lower newEmail, now + minutes 60⟩ :: db.changeEmail }
  auditPerson "user.email_change_requested" userId

def emailLinkInvalid : HttpException :=
  ⟨400, "Email change link is invalid or has expired.", []⟩

/-- `confirm_email_change` (line 619). -/
def confirmEmailChange (now : ℤ) (token : ChangeEmailToken) : PersonService Unit := do
  let db ← get
  Svc.require (token ∈ db.changeEmail ∧ now < token.exp) emailLinkInvalid
  let _ ← Svc.expect (db.tokens.account? token.sub) emailLinkInvalid
  Svc.require (token.newEmail ≠ "") emailLinkInvalid
  let taken ← Svc.expect
    (Store.scalarOneOrNone (db.tokens.auth.users.select fun _ u => u.email = token.newEmail))
    internalError
  Svc.require (taken = none) emailInUse
  onTokens (updateUser token.sub fun u => { u with email := token.newEmail })
  onTokens (onSessions (revokeAllForUser now token.sub))
  auditPerson "user.email_changed" token.sub

/-! ## Customer rows -/

/-- A PATCH of a profile: an absent field is `none`, a `null` is `some none`. -/
structure CustomerProfileUpdate where
  submitterName : Option (Option String) := none
  businessName : Option (Option String) := none
  title : Option (Option String) := none
  addressStreet : Option (Option String) := none
  addressCity : Option (Option String) := none
  addressState : Option (Option String) := none
  addressZip : Option (Option String) := none
  businessPhone : Option (Option String) := none
  businessPhoneExt : Option (Option String) := none
  cellPhone : Option (Option String) := none
  deriving DecidableEq

/-- `AdminCustomerPatch` (`src/api/schemas/admin.py` line 133). -/
structure AdminCustomerPatch extends CustomerProfileUpdate where
  inviteEmail : Option (Option String) := none
  deriving DecidableEq

/-- The `setattr` loop over the fields of a profile; `submitter_name` is not null. -/
def CustomerRow.setProfile (p : CustomerProfileUpdate) (c : CustomerRow) : CustomerRow :=
  { c with
    submitterName := (p.submitterName.getD none).getD c.submitterName
    businessName := p.businessName.getD c.businessName
    title := p.title.getD c.title
    addressStreet := p.addressStreet.getD c.addressStreet
    addressCity := p.addressCity.getD c.addressCity
    addressState := p.addressState.getD c.addressState
    addressZip := p.addressZip.getD c.addressZip
    businessPhone := p.businessPhone.getD c.businessPhone
    businessPhoneExt := p.businessPhoneExt.getD c.businessPhoneExt
    cellPhone := p.cellPhone.getD c.cellPhone }

/-- The `setattr` loop of `update_customer`, with the state in upper case. -/
def CustomerRow.setAdmin (env : PersonEnv) (p : AdminCustomerPatch) (c : CustomerRow) :
    CustomerRow :=
  { c.setProfile { p.toCustomerProfileUpdate with
      addressState := p.addressState.map (Option.map fun s => env.upper (strip s)) } with
    inviteEmail := p.inviteEmail.getD c.inviteEmail }

/-- The row that `ensure_profile_for_user` adds (`customer_service.py` line 28). -/
def newProfile (userId : ℕ) (d : UserDetails) : CustomerRow where
  userId := some userId
  inviteEmail := none
  businessName := none
  submitterName := strip (d.firstName ++ " " ++ d.lastName)
  title := none
  addressStreet := none
  addressCity := none
  addressState := none
  addressZip := none
  businessPhone := none
  businessPhoneExt := none
  cellPhone := none
  communicationPrefs := .document {}
  deletedAt := none

/-- The query for the customer row of a user. -/
def PersonDb.customersOf (db : PersonDb) (userId : ℕ) : List (ℕ × CustomerRow) :=
  db.customers.select fun _ c => c.userId = some userId

/-- `ensure_profile_for_user` (line 15): the key of the row. -/
def ensureProfileForUser (userId : ℕ) : PersonService ℕ := do
  let db ← get
  let customer ← Svc.expect (Store.scalarOneOrNone (db.customersOf userId)) internalError
  match customer with
  | some (id, _) => pure id
  | none => do
    modify fun db => { db with
      customers := db.customers.create (newProfile userId (db.details userId)) }
    pure db.customers.next

def updateCustomerRow (id : ℕ) (f : CustomerRow → CustomerRow) : PersonService Unit :=
  modify fun db => { db with customers := db.customers.modify id f }

/-- `get_profile` (line 44), and the profile of an intake (`equipment_service.py`
    line 110). -/
def getProfile (now : ℤ) (token : SignedToken) : PersonService Unit := do
  let (userId, _) ← currentUser now token
  let _ ← ensureProfileForUser userId

/-- `update_profile` (line 49). -/
def updateProfile (now : ℤ) (token : SignedToken) (patch : CustomerProfileUpdate) :
    PersonService Unit := do
  let (userId, _) ← currentUser now token
  let customerId ← ensureProfileForUser userId
  Svc.onlyIf (patch ≠ {}) do
    Svc.require (patch.submitterName ≠ some none ∧ patch.submitterName ≠ some (some ""))
      ⟨422, "submitter_name cannot be empty.", []⟩
    updateCustomerRow customerId (CustomerRow.setProfile patch)

/-- `update_email_prefs` (line 70). -/
def updateEmailPrefs (now : ℤ) (token : SignedToken) (prefs : EmailPrefs) :
    PersonService Unit := do
  let (userId, _) ← currentUser now token
  let customerId ← ensureProfileForUser userId
  updateCustomerRow customerId fun c =>
    { c with communicationPrefs := c.communicationPrefs.assign (some prefs) }

/-- `AdminCustomerCreate` (`src/api/schemas/admin.py` line 115). -/
structure AdminCustomerCreate where
  submitterName : String
  inviteEmail : String
  businessName : Option String
  title : Option String
  addressStreet : Option String
  addressCity : Option String
  addressState : Option String
  addressZip : Option String
  businessPhone : Option String
  businessPhoneExt : Option String
  cellPhone : Option String

/-- The row of a walk-in. -/
def AdminCustomerCreate.row (env : PersonEnv) (payload : AdminCustomerCreate) : CustomerRow where
  userId := none
  inviteEmail := some (env.lower (strip payload.inviteEmail))
  businessName := payload.businessName
  submitterName := strip payload.submitterName
  title := payload.title
  addressStreet := payload.addressStreet
  addressCity := payload.addressCity
  addressState := payload.addressState.map fun s => env.upper (strip s)
  addressZip := payload.addressZip
  businessPhone := payload.businessPhone
  businessPhoneExt := payload.businessPhoneExt
  cellPhone := payload.cellPhone
  communicationPrefs := .sqlNull
  deletedAt := none

def inviteEmailInvalid : HttpException := ⟨422, "invite_email is not a valid address.", []⟩

/-- `create_walkin` (`admin_customer_service.py` line 210). -/
def createWalkin (env : PersonEnv) (payload : AdminCustomerCreate) (actor : ℕ) :
    PersonService Unit := do
  Svc.require (env.matchesEmail payload.inviteEmail = true) inviteEmailInvalid
  modify fun db => { db with customers := db.customers.create (payload.row env) }
  auditPerson "customer.admin_walkin_created" actor

def AdminCustomerPatch.inviteEmailValid (env : PersonEnv) (patch : AdminCustomerPatch) : Bool :=
  match patch.inviteEmail with
  | some (some email) => env.matchesEmail email
  | _ => true

def customerNotFound : HttpException := ⟨404, "Customer not found.", []⟩

/-- `update_customer` (line 125). Its flush fails on a null name and on
    `ck_customers_user_or_invite`. -/
def updateCustomer (env : PersonEnv) (customerId : ℕ) (patch : AdminCustomerPatch)
    (actor : ℕ) : PersonService Unit := do
  let db ← get
  let customer ← Svc.expect (db.customers.get? customerId) customerNotFound
  Svc.require (patch ≠ {}) ⟨400, "No fields to update.", []⟩
  Svc.require (patch.inviteEmailValid env = true) inviteEmailInvalid
  Svc.require (patch.submitterName ≠ some none) internalError
  Svc.require (customer.userId ≠ none ∨ (customer.setAdmin env patch).inviteEmail ≠ none)
    internalError
  updateCustomerRow customerId (CustomerRow.setAdmin env patch)
  auditPerson "customer.admin_update" actor

/-- `soft_delete_customer` (line 168). -/
def softDeleteCustomerRow (now : ℤ) (customerId actor : ℕ) : PersonService Unit := do
  let db ← get
  let customer ← Svc.expect (db.customers.get? customerId) customerNotFound
  Svc.onlyIf (customer.deletedAt = none) do
    updateCustomerRow customerId fun c => { c with deletedAt := some now }
    auditPerson "customer.admin_soft_delete" actor

/-! ## Deletion -/

/-- `user.status == "pending_deletion" and user.deletion_grace_until is not None`. -/
def TokenDb.graceRunning (db : TokenDb) (userId : ℕ) : Bool :=
  match db.account? userId with
  | some user => user.status = .pendingDeletion && (db.deletionGraceUntil userId).isSome
  | none => false

/-- `request_deletion` (line 44), with the column that `requestDeletion` leaves
    out. -/
def requestAccountDeletion (now : ℤ) (token : SignedToken) : PersonService Unit := do
  let before ← get
  onTokens (requestDeletion now token)
  Svc.onlyIf (before.tokens.graceRunning token.sub = false)
    (updateDetails token.sub fun d => { d with deletionRequestedAt := some now })

/-- `cancel_deletion` (line 99), likewise. -/
def cancelAccountDeletion (now : ℤ) (token : SignedToken) : PersonService Unit := do
  onTokens (cancelDeletion now token)
  updateDetails token.sub fun d => { d with deletionRequestedAt := none }

def scrubbedEmail (userId : ℕ) : String := "deleted-" ++ toString userId ++ "@deleted.invalid"

/-- The customer columns that `finalize_deletion_for_user` writes (line 141). -/
def CustomerRow.finalized (now : ℤ) (c : CustomerRow) : CustomerRow :=
  { c with
    submitterName := "[deleted]"
    businessName := none
    title := none
    addressStreet := none
    addressCity := none
    addressState := none
    addressZip := none
    businessPhone := none
    businessPhoneExt := none
    cellPhone := none
    communicationPrefs := c.communicationPrefs.assign none
    deletedAt := some now }

/-- The names and profile columns that it writes (line 156). -/
def UserDetails.finalized (d : UserDetails) : UserDetails :=
  { d with firstName := "[deleted]", lastName := "", googleId := none, profilePhotoUrl := none }

/-- `finalize_deletion_for_user` (line 131). -/
def finalizeDeletionForUser (now : ℤ) (userId : ℕ) : PersonService Unit := do
  let db ← get
  let user ← Svc.expect (db.tokens.account? userId) internalError
  Svc.onlyIf (user.status ≠ .deleted) do
    let customer ← Svc.expect (Store.scalarOneOrNone (db.customersOf userId)) internalError
    match customer with
    | some (id, _) => updateCustomerRow id (CustomerRow.finalized now)
    | none => pure ()
    onTokens (finalizeDeletion userId (scrubbedEmail userId))
    updateDetails userId UserDetails.finalized

/-- The `UPDATE customers` of the sweep (migration 008, line 161). -/
def CustomerRow.swept (now : ℤ) (c : CustomerRow) : CustomerRow :=
  { c with
    submitterName := "[deleted]"
    businessName := none
    title := none
    addressStreet := none
    addressCity := none
    addressState := none
    addressZip := none
    businessPhone := none
    businessPhoneExt := none
    cellPhone := none
    communicationPrefs := .sqlNull
    deletedAt := some now }

/-- One round of the loop of `fn_delete_expired_accounts`. -/
def PersonDb.sweepAccount (now : ℤ) (db : PersonDb) (id : ℕ) : PersonDb :=
  { db with
    customers := db.customers.modifyWhere (fun _ c => c.userId = some id) (CustomerRow.swept now)
    tokens := { db.tokens with
      auth := { db.tokens.auth with
        users := db.tokens.auth.users.modify id fun u => { u with
          email := scrubbedEmail id
          passwordHash := none
          totpEnabled := false
          status := .deleted } }
      totpSecretEnc := Function.update db.tokens.totpSecretEnc id none
      deletionGraceUntil := Function.update db.tokens.deletionGraceUntil id none }
    details := Function.update db.details id { db.details id with
      firstName := "[deleted]"
      lastName := ""
      googleId := none
      profilePhotoUrl := none } }

/-- The accounts whose grace window is over. -/
def PersonDb.expired (now : ℤ) (db : PersonDb) : List ℕ :=
  (db.tokens.auth.users.select fun id u =>
    u.status = .pendingDeletion && (db.tokens.deletionGraceUntil id).any fun t => t < now).map
      Prod.fst

/-- `fn_delete_expired_accounts`. -/
def PersonDb.fnDeleteExpiredAccounts (now : ℤ) (db : PersonDb) : PersonDb :=
  (db.expired now).foldl (PersonDb.sweepAccount now) db

/-! ## Requests -/

/-- The requests on accounts whose every column is in `TokenDb`. -/
def AccountOp.inTokens : AccountOp → Bool
  | .register _ | .requestDeletion _ _ | .cancelDeletion _ _ | .finalizeDeletion _ _ => false
  | _ => true

inductive PersonOp
  | register (r : Registration)
  | account (op : { op : AccountOp // op.inTokens = true })
  | initiateEmailChange (now : ℤ) (token : SignedToken) (newEmail currentPassword : String)
  | confirmEmailChange (now : ℤ) (token : ChangeEmailToken)
  | getProfile (now : ℤ) (token : SignedToken)
  | updateProfile (now : ℤ) (token : SignedToken) (patch : CustomerProfileUpdate)
  | updateEmailPrefs (now : ℤ) (token : SignedToken) (prefs : EmailPrefs)
  | createWalkin (payload : AdminCustomerCreate) (actor : ℕ)
  | updateCustomer (customerId : ℕ) (patch : AdminCustomerPatch) (actor : ℕ)
  | softDeleteCustomerRow (now : ℤ) (customerId actor : ℕ)
  | requestDeletion (now : ℤ) (token : SignedToken)
  | cancelDeletion (now : ℤ) (token : SignedToken)
  | finalizeDeletion (now : ℤ) (userId : ℕ)
  | sweep (now : ℤ)

def PersonOp.service (env : PersonEnv) : PersonOp → PersonService Unit
  | .register r => registerUser env r
  | .account op => onTokens (op.val.service env.toTokenEnv)
  | .initiateEmailChange now token newEmail currentPassword =>
    TempleConsign.initiateEmailChange env now token newEmail currentPassword
  | .confirmEmailChange now token => TempleConsign.confirmEmailChange now token
  | .getProfile now token => TempleConsign.getProfile now token
  | .updateProfile now token patch => TempleConsign.updateProfile now token patch
  | .updateEmailPrefs now token prefs => TempleConsign.updateEmailPrefs now token prefs
  | .createWalkin payload actor => TempleConsign.createWalkin env payload actor
  | .updateCustomer customerId patch actor =>
    TempleConsign.updateCustomer env customerId patch actor
  | .softDeleteCustomerRow now customerId actor =>
    TempleConsign.softDeleteCustomerRow now customerId actor
  | .requestDeletion now token => requestAccountDeletion now token
  | .cancelDeletion now token => cancelAccountDeletion now token
  | .finalizeDeletion now userId => finalizeDeletionForUser now userId
  | .sweep now => modify (PersonDb.fnDeleteExpiredAccounts now)

/-- One request in its transaction. -/
def personStep (env : PersonEnv) (db : PersonDb) (op : PersonOp) : PersonDb :=
  (Svc.request (fun before _ => before) (op.service env) db).2

variable {env : PersonEnv} {db db' : PersonDb} {now : ℤ} {token : SignedToken} {u : Unit}

theorem personStep_of_returns {op : PersonOp} (h : Svc.Returns (op.service env) db u db') :
    personStep env db op = db' := by
  unfold personStep
  rw [Svc.request_of_returns h]

/-- A request either commits or leaves everything as it was. -/
theorem personStep_cases (env : PersonEnv) (db : PersonDb) (op : PersonOp) :
    (∃ u, Svc.Returns (op.service env) db u (personStep env db op)) ∨
      personStep env db op = db := by
  unfold personStep
  obtain ⟨u, db', hret, hreq⟩ | ⟨_, _, _, hreq⟩ :=
    Svc.request_cases (fun before _ => before) (op.service env) db
  · rw [hreq]
    exact .inl ⟨u, hret⟩
  · rw [hreq]
    exact .inr rfl

/-! ## The signed-in user -/

/-- What `get_current_user` checks. -/
structure SignedIn (db : TokenDb) (now : ℤ) (token : SignedToken) (user : Account) : Prop where
  decodes : db.decodeToken now token .access = some token
  account : db.account? token.sub = some user
  status : user.status = .active ∨ user.status = .pendingDeletion

theorem returns_getCurrentUser {db db' : TokenDb} {p : ℕ × Account} :
    Svc.Returns (getCurrentUser now token) db p db' ↔
      (∃ user, SignedIn db now token user ∧ p = (token.sub, user)) ∧ db = db' := by
  simp only [getCurrentUser, Svc.returns_get_bind, Svc.returns_expect_bind,
    Svc.returns_require_bind, Svc.returns_pure]
  constructor
  · rintro ⟨payload, hd, user, hu, hs, rfl, rfl⟩
    obtain ⟨-, rfl⟩ := decodeToken_eq_some.mp hd
    exact ⟨⟨user, ⟨hd, hu, hs⟩, rfl⟩, rfl⟩
  · rintro ⟨⟨user, h, rfl⟩, rfl⟩
    exact ⟨token, h.decodes, user, h.account, h.status, rfl, rfl⟩

theorem returns_getCurrentUser_bind {α : Type} {db db' : TokenDb} {f : ℕ × Account → TokenService α}
    {b : α} :
    Svc.Returns (getCurrentUser now token >>= f) db b db' ↔
      ∃ user, SignedIn db now token user ∧ Svc.Returns (f (token.sub, user)) db b db' := by
  rw [Svc.returns_bind_of_read fun _ _ => returns_getCurrentUser]
  constructor
  · rintro ⟨_, ⟨user, h, rfl⟩, hf⟩
    exact ⟨user, h, hf⟩
  · rintro ⟨user, h, hf⟩
    exact ⟨_, ⟨user, h, rfl⟩, hf⟩

theorem returns_onTokens {α : Type} {m : TokenService α} {a : α} :
    Svc.Returns (onTokens m) db a db' ↔
      ∃ t, Svc.Returns m db.tokens a t ∧ { db with tokens := t } = db' :=
  Svc.returns_zoom

theorem returns_onTokens_bind {α β : Type} {m : TokenService α} {f : α → PersonService β} {b : β} :
    Svc.Returns (onTokens m >>= f) db b db' ↔
      ∃ a t, Svc.Returns m db.tokens a t ∧ Svc.Returns (f a) { db with tokens := t } b db' := by
  rw [Svc.returns_bind]
  simp only [returns_onTokens]
  constructor
  · rintro ⟨a, _, ⟨t, hm, rfl⟩, hf⟩
    exact ⟨a, t, hm, hf⟩
  · rintro ⟨a, t, hm, hf⟩
    exact ⟨a, _, ⟨t, hm, rfl⟩, hf⟩

/-! ## One customer row per user -/

/-- `uq_customers_user_id_when_set` (migration 016). -/
def OneCustomerPerUser (db : PersonDb) : Prop :=
  ∀ k k' c c' id, db.customers.get? k = some c → db.customers.get? k' = some c' →
    c.userId = some id → c'.userId = some id → k = k'

theorem OneCustomerPerUser.scalar (h : OneCustomerPerUser db) (id : ℕ) :
    Store.scalarOneOrNone (db.customersOf id) ≠ none := by
  refine Store.scalar_select_ne_none_iff.mpr fun k k' c c' hk hc hk' hc' => ?_
  exact h k k' c c' id hk hk' (of_decide_eq_true hc) (of_decide_eq_true hc')

/-- Updates that leave `user_id` alone. -/
theorem OneCustomerPerUser.of_update (h : OneCustomerPerUser db)
    (hsame : ∀ k c', db'.customers.get? k = some c' →
      ∃ c, db.customers.get? k = some c ∧ c.userId = c'.userId) : OneCustomerPerUser db' := by
  intro k k' c c' id hk hk' hc hc'
  obtain ⟨a, ha, hau⟩ := hsame k c hk
  obtain ⟨b, hb, hbu⟩ := hsame k' c' hk'
  exact h k k' a b id ha hb (hau.trans hc) (hbu.trans hc')

theorem OneCustomerPerUser.create {c : CustomerRow} (h : OneCustomerPerUser db)
    (hnew : ∀ id, c.userId = some id → ∀ k a, db.customers.get? k = some a → a.userId ≠ some id) :
    OneCustomerPerUser { db with customers := db.customers.create c } := by
  intro k k' a b id ha hb hai hbi
  simp only [Store.get?_create] at ha hb
  split_ifs at ha hb with hk hk' hk'
  · exact hk.trans hk'.symm
  · cases ha
    exact absurd hbi (hnew id hai k' b hb)
  · cases hb
    exact absurd hai (hnew id hbi k a ha)
  · exact h k k' a b id ha hb hai hbi

theorem oneCustomer_onTokens {α : Type} (m : TokenService α) :
    Svc.Grows OneCustomerPerUser (onTokens m) := by
  intro db h
  unfold onTokens
  rw [Svc.exec_zoom]
  exact h

theorem oneCustomer_updateDetails (id : ℕ) (f : UserDetails → UserDetails) :
    Svc.Grows OneCustomerPerUser (updateDetails id f) :=
  fun _ h => h

theorem oneCustomer_updateCustomerRow (id : ℕ) {f : CustomerRow → CustomerRow}
    (hf : ∀ c, (f c).userId = c.userId) :
    Svc.Grows OneCustomerPerUser (updateCustomerRow id f) := by
  refine Svc.grows_modify fun db h => h.of_update fun k c' hk => ?_
  simp only [Store.get?_modify] at hk
  split_ifs at hk
  · obtain ⟨c, hc, rfl⟩ := Option.map_eq_some_iff.mp hk
    exact ⟨c, hc, (hf c).symm⟩
  · exact ⟨c', hk, rfl⟩

theorem oneCustomer_ensureProfileForUser (userId : ℕ) :
    Svc.Grows OneCustomerPerUser (ensureProfileForUser userId) := by
  intro db h
  unfold ensureProfileForUser
  rw [Svc.exec_bind, Svc.exec_get]
  dsimp only
  rw [Svc.exec_bind, Svc.exec_expect]
  cases hs : Store.scalarOneOrNone (db.customersOf userId) with
  | none => exact h
  | some customer =>
    cases customer with
    | some row => exact h
    | none =>
      refine h.create fun id hid k a hk ha => ?_
      obtain rfl := Option.some.inj hid
      have hnone := Store.scalar_select_none_iff.mp hs k a hk
      exact absurd ha (of_decide_eq_false hnone)

theorem sweepAccount_customers {id k : ℕ} {c' : CustomerRow}
    (h : (db.sweepAccount now id).customers.get? k = some c') :
    ∃ c, db.customers.get? k = some c ∧
      c' = if c.userId = some id then c.swept now else c := by
  simp only [PersonDb.sweepAccount, Store.get?_modifyWhere, Option.map_eq_some_iff] at h
  obtain ⟨c, hc, rfl⟩ := h
  refine ⟨c, hc, ?_⟩
  simp only [decide_eq_true_eq]

theorem oneCustomer_sweep (now : ℤ) :
    Svc.Grows OneCustomerPerUser (modify (PersonDb.fnDeleteExpiredAccounts now) :
      PersonService PUnit) := by
  refine Svc.grows_modify fun db h => ?_
  unfold PersonDb.fnDeleteExpiredAccounts
  generalize db.expired now = ids
  induction ids generalizing db with
  | nil => exact h
  | cons id ids ih =>
    refine ih (db.sweepAccount now id) (h.of_update fun k c' hk => ?_)
    obtain ⟨c, hc, rfl⟩ := sweepAccount_customers hk
    refine ⟨c, hc, ?_⟩
    split_ifs
    · rfl
    · rfl

/-- The proof follows the binds of each service. -/
theorem oneCustomer_service (env : PersonEnv) (op : PersonOp) :
    Svc.Grows OneCustomerPerUser (op.service env) := by
  cases op with
  | sweep now => exact oneCustomer_sweep now
  | createWalkin payload actor =>
    refine Svc.grows_bind (Svc.grows_require _ _) fun _ => Svc.grows_bind ?_ fun _ => ?_
    · exact Svc.grows_modify fun db h => h.create fun id hid => nomatch hid
    · exact oneCustomer_onTokens _
  | _ =>
    simp only [PersonOp.service, registerUser, TempleConsign.initiateEmailChange,
      TempleConsign.confirmEmailChange, TempleConsign.getProfile, TempleConsign.updateProfile,
      TempleConsign.updateEmailPrefs, TempleConsign.updateCustomer,
      TempleConsign.softDeleteCustomerRow, requestAccountDeletion, cancelAccountDeletion,
      finalizeDeletionForUser, currentUser, auditPerson]
    repeat' with_reducible first
      | exact Svc.grows_pure _
      | exact Svc.grows_get
      | exact Svc.grows_require _ _
      | exact Svc.grows_expect _ _
      | exact oneCustomer_onTokens _
      | exact oneCustomer_updateDetails _ _
      | exact oneCustomer_updateCustomerRow _ fun _ => rfl
      | exact oneCustomer_ensureProfileForUser _
      | exact Svc.grows_modify fun _ h => h
      | apply Svc.grows_bind
      | apply Svc.grows_onlyIf
      | split
      | intro _

theorem personStep_oneCustomer (op : PersonOp) (h : OneCustomerPerUser db) :
    OneCustomerPerUser (personStep env db op) := by
  obtain ⟨u, hret⟩ | heq := personStep_cases env db op
  · exact (oneCustomer_service env op).returns hret h
  · rw [heq]
    exact h

theorem oneCustomer_empty : OneCustomerPerUser PersonDb.empty := by
  intro k k' c c' id hk
  simp [PersonDb.empty] at hk

end TempleConsign
