import TempleConsign.RateLimit

/-!
# Login and account lockout

Model of `login` (`src/api/services/auth_service.py` line 345), of its endpoint
with the two limiters (`src/api/routers/auth.py` line 202) and of the password
reset. A request is one transaction: an exception, `HTTPException` included,
rolls it back (`get_db`, `src/api/database/base.py` line 42). A wrong password
raises after it was counted, so its count is rolled back.

Results:
* `returns_loginEndpoint`: what a login needs to return and what it writes.
* `authStep_neverLocked`: no request leaves a locked account.
* `lockout_effective_iff`: a run locks accounts as it should only where no
  request is due to be rejected.
-/

namespace TempleConsign

open ServiceLib

/-! ## Accounts -/

/-- `users.status`. -/
inductive AccountStatus
  | pendingVerification
  | active
  | locked
  | deactivated
  | pendingDeletion
  | deleted
  deriving DecidableEq

/-- The columns of `users` that logging in reads and writes. -/
structure Account where
  email : String
  passwordHash : Option String
  status : AccountStatus
  totpEnabled : Bool
  failedLoginCount : ℕ
  lockedUntil : Option ℤ
  deriving DecidableEq

/-- A row of `audit_logs` that `_audit` (line 153) adds. -/
structure AuthAudit where
  eventType : String
  actorId : ℕ
  ipAddress : Option String

structure AuthDb where
  users : Store Account
  counters : Counters
  auditLogs : List AuthAudit

def AuthDb.empty : AuthDb := ⟨Store.empty, fun _ => 0, []⟩

abbrev AuthService (α : Type) := Svc AuthDb HttpException α

/-- `bcrypt.checkpw` and `str.lower`. -/
structure AuthEnv where
  verifyPassword : String → String → Bool
  lower : String → String

/-- `not user.password_hash or not verify_password(…)`, negated (line 411). -/
def AuthEnv.accepts (env : AuthEnv) (user : Account) (password : String) : Bool :=
  match truthy user.passwordHash with
  | some hash => env.verifyPassword password hash
  | none => false

/-! ## Login -/

structure LoginRequest where
  now : ℤ
  email : String
  password : String
  ipAddress : String

/-- What `login` returns: a full session or a pending second factor. -/
inductive LoginResult
  | session (userId : ℕ)
  | requires2fa (userId : ℕ)
  deriving DecidableEq

def incorrectPassword : HttpException := ⟨401, "Incorrect email or password.", []⟩

def accountLocked : HttpException where
  statusCode := 423
  detail := "This account has been temporarily locked due to repeated failed login attempts. " ++
    "Try again in 30 minutes or reset your password."
  headers := []

def notVerified : HttpException :=
  ⟨403, "Please verify your email address before logging in.", []⟩

def notActive : HttpException := ⟨403, "Your account is not active. Contact support.", []⟩

def internalError : HttpException := ⟨500, "Internal Server Error", []⟩

def auditLogin (eventType : String) (userId : ℕ) (ipAddress : Option String) : AuthService Unit :=
  modify fun db => { db with auditLogs := db.auditLogs ++ [⟨eventType, userId, ipAddress⟩] }

/-- `_record_failed_attempt` (line 363). -/
def recordFailedAttempt (r : LoginRequest) (id : ℕ) (user : Account) : AuthService Unit := do
  auditLogin "user.login_failed" id (some r.ipAddress)
  Svc.onlyIf (5 ≤ user.failedLoginCount + 1)
    (auditLogin "user.account_locked" id (some r.ipAddress))
  modify fun db => { db with
    users := db.users.modify id fun u =>
      if 5 ≤ user.failedLoginCount + 1 then
        { u with lockedUntil := some (r.now + minutes 30), failedLoginCount := 0 }
      else { u with failedLoginCount := user.failedLoginCount + 1 } }

/-- `user.locked_until and user.locked_until > now` (line 392). -/
def Account.lockedAt (user : Account) (now : ℤ) : Bool :=
  match user.lockedUntil with
  | some t => now < t
  | none => false

/-- `login` (line 345). -/
def login (env : AuthEnv) (r : LoginRequest) : AuthService LoginResult := do
  let db ← get
  let found ← Svc.expect
    (Store.scalarOneOrNone (db.users.select fun _ u => u.email = env.lower r.email)) internalError
  let (id, user) ← Svc.expect found incorrectPassword
  Svc.require (user.lockedAt r.now = false) accountLocked
  Svc.require (user.status ≠ .pendingVerification) notVerified
  Svc.require (user.status = .active) notActive
  Svc.onlyIf (env.accepts user r.password = false) (do
    recordFailedAttempt r id user
    throw incorrectPassword)
  modify fun db => { db with
    users := db.users.modify id fun u => { u with failedLoginCount := 0, lockedUntil := none } }
  auditLogin "user.login" id (some r.ipAddress)
  pure (if user.totpEnabled then .requires2fa id else .session id)

/-- `login_ip_limiter` and `login_email_limiter` (`rate_limit.py` line 142). -/
def loginIpLimiter : Limiter := { limit := 10, windowSeconds := 60, scope := "login_ip" }

def loginEmailLimiter : Limiter := { limit := 10, windowSeconds := 900, scope := "login_email" }

/-- A limiter dependency: it shares the session of the request. -/
def limited (l : Limiter) (now : ℤ) (subject : String) : AuthService Unit :=
  Svc.zoom AuthDb.counters (fun c db => { db with counters := c }) (checkRateLimit l now subject)

/-- `POST /auth/login` (`src/api/routers/auth.py` line 202). -/
def loginEndpoint (env : AuthEnv) (r : LoginRequest) : AuthService LoginResult := do
  limited loginIpLimiter r.now r.ipAddress
  Svc.onlyIf (env.lower r.email ≠ "") (limited loginEmailLimiter r.now (env.lower r.email))
  login env r

/-! ## Other requests on accounts -/

/-- A new `users` row; the lockout columns have their defaults. -/
structure NewAccount where
  email : String
  passwordHash : Option String
  status : AccountStatus
  totpEnabled : Bool

def NewAccount.row (a : NewAccount) : Account where
  email := a.email
  passwordHash := a.passwordHash
  status := a.status
  totpEnabled := a.totpEnabled
  failedLoginCount := 0
  lockedUntil := none

/-- The insert of a registration or an invitation, under the unique constraint
    on `email`. -/
def createAccount (a : NewAccount) : AuthService Unit := do
  let db ← get
  Svc.require (db.users.exists? (fun _ u => u.email = a.email) = false) internalError
  modify fun db => { db with users := db.users.create a.row }

def resetLinkInvalid : HttpException :=
  ⟨400, "Password reset link is invalid or has expired.", []⟩

/-- `confirm_password_reset` (line 519): `subject` is the user of the token,
    `none` when it does not decode. -/
def confirmPasswordReset (subject : Option ℕ) (newHash : String) : AuthService Unit := do
  let id ← Svc.expect subject resetLinkInvalid
  let db ← get
  let _ ← Svc.expect (db.users.get? id) resetLinkInvalid
  modify fun db => { db with
    users := db.users.modify id fun u =>
      { u with
        passwordHash := some newHash
        failedLoginCount := 0
        lockedUntil := none
        status := match u.status with
          | .locked | .pendingVerification => .active
          | s => s } }
  auditLogin "user.password_reset_confirmed" id none

inductive AuthOp
  | createAccount (a : NewAccount)
  | login (r : LoginRequest)
  | confirmPasswordReset (subject : Option ℕ) (newHash : String)

def AuthOp.service (env : AuthEnv) : AuthOp → AuthService Unit
  | .createAccount a => TempleConsign.createAccount a
  | .login r => (fun _ => ()) <$> loginEndpoint env r
  | .confirmPasswordReset subject newHash => TempleConsign.confirmPasswordReset subject newHash

/-- One request in its transaction. -/
def authStep (env : AuthEnv) (db : AuthDb) (op : AuthOp) : AuthDb :=
  (Svc.request (fun before _ => before) (op.service env) db).2

/-- The answer to a login request. -/
def loginResponse (env : AuthEnv) (db : AuthDb) (r : LoginRequest) :
    Except HttpException LoginResult :=
  (Svc.request (fun before _ => before) (loginEndpoint env r) db).1

/-! ## What each request does -/

variable {env : AuthEnv} {db db' : AuthDb} {r : LoginRequest}

theorem raises_auditLogin {eventType : String} {id : ℕ} {ip : Option String} {e : HttpException} :
    ¬ Svc.Raises (auditLogin eventType id ip) db e := by
  simp [auditLogin]

/-- A limiter only counts. -/
theorem returns_limited {l : Limiter} {now : ℤ} {subject : String} {u : Unit}
    (h : Svc.Returns (limited l now subject) db u db') : db'.users = db.users := by
  obtain ⟨c, -, rfl⟩ := Svc.returns_zoom.mp h
  rfl

theorem raises_limited {l : Limiter} {now : ℤ} {subject : String} {e : HttpException}
    (h : Svc.Raises (limited l now subject) db e) : e.statusCode = 429 := by
  simp only [limited, Svc.raises_zoom, checkRateLimit, Svc.raises_bind, Svc.raises_modify,
    Svc.raises_get, Svc.raises_require, false_or] at h
  obtain ⟨_, _, -, _, _, -, -, rfl⟩ := h
  rfl

/-- The answer of a login to account `id`. -/
def Account.loginResult (id : ℕ) (user : Account) : LoginResult :=
  if user.totpEnabled then .requires2fa id else .session id

/-- A login that returns accepted the password of an account that is not locked,
    cleared its lockout columns and answers for this account. -/
theorem returns_login_answer {res : LoginResult} (h : Svc.Returns (login env r) db res db') :
    ∃ id user, db.users.get? id = some user ∧ user.email = env.lower r.email ∧
      user.lockedAt r.now = false ∧ user.status = .active ∧ env.accepts user r.password = true ∧
      db'.users =
        db.users.modify id (fun u => { u with failedLoginCount := 0, lockedUntil := none }) ∧
      user.loginResult id = res := by
  simp only [login, Svc.returns_get_bind, Svc.returns_expect_bind, Svc.returns_require_bind,
    Svc.returns_onlyIf_bind, Svc.returns_bind_throw, and_false, exists_false, false_and, false_or,
    Svc.returns_modify_bind, auditLogin, Svc.returns_pure, Bool.not_eq_false] at h
  obtain ⟨found, hfound, ⟨id, user⟩, rfl, hlock, -, hact, hpw, hres, rfl⟩ := h
  obtain ⟨⟨hget, hemail⟩, -⟩ := Store.scalar_select_some_iff.mp hfound
  exact ⟨id, user, hget, of_decide_eq_true hemail, hlock, hact, hpw, rfl, hres⟩

theorem returns_loginEndpoint_answer {res : LoginResult}
    (h : Svc.Returns (loginEndpoint env r) db res db') :
    ∃ id user, db.users.get? id = some user ∧ user.email = env.lower r.email ∧
      user.lockedAt r.now = false ∧ user.status = .active ∧ env.accepts user r.password = true ∧
      db'.users =
        db.users.modify id (fun u => { u with failedLoginCount := 0, lockedUntil := none }) ∧
      user.loginResult id = res := by
  simp only [loginEndpoint, Svc.returns_bind, Svc.returns_onlyIf] at h
  obtain ⟨_, db1, h1, _, db2, h2, h3⟩ := h
  have hu : db2.users = db.users := by
    rcases h2 with ⟨-, h2⟩ | ⟨-, rfl⟩
    · exact (returns_limited h2).trans (returns_limited h1)
    · exact returns_limited h1
  rw [← hu]
  exact returns_login_answer h3

theorem returns_loginEndpoint {res : LoginResult}
    (h : Svc.Returns (loginEndpoint env r) db res db') :
    ∃ id user, db.users.get? id = some user ∧ user.email = env.lower r.email ∧
      user.lockedAt r.now = false ∧ user.status = .active ∧ env.accepts user r.password = true ∧
      db'.users =
        db.users.modify id fun u => { u with failedLoginCount := 0, lockedUntil := none } := by
  obtain ⟨id, user, hget, hemail, hlock, hact, hpw, hu, -⟩ := returns_loginEndpoint_answer h
  exact ⟨id, user, hget, hemail, hlock, hact, hpw, hu⟩

/-- Only a lock answers 423. -/
theorem raises_login_locked {e : HttpException} (h : Svc.Raises (login env r) db e)
    (hcode : e.statusCode = 423) :
    ∃ id user, db.users.get? id = some user ∧ user.lockedAt r.now = true := by
  simp only [login, Svc.raises_bind, Svc.raises_get, Svc.raises_expect, Svc.raises_require,
    Svc.raises_onlyIf, Svc.raises_throw, Svc.raises_modify, raises_auditLogin, Svc.raises_pure,
    Svc.returns_get, Svc.returns_expect, Svc.returns_require, recordFailedAttempt, false_or,
    and_false, exists_false, or_false] at h
  obtain ⟨_, _, ⟨rfl, rfl⟩, h⟩ := h
  rcases h with ⟨-, rfl⟩ | ⟨found, _, ⟨hfound, rfl⟩, h⟩
  · cases hcode
  rcases h with ⟨-, rfl⟩ | ⟨⟨id, user⟩, _, ⟨rfl, rfl⟩, h⟩
  · cases hcode
  rcases h with ⟨hlock, -⟩ | ⟨_, _, ⟨-, rfl⟩, h⟩
  · exact ⟨id, user, (Store.scalar_select_some_iff.mp hfound).1.1, by simpa using hlock⟩
  rcases h with ⟨-, rfl⟩ | ⟨_, _, ⟨-, rfl⟩, h⟩
  · cases hcode
  rcases h with ⟨-, rfl⟩ | ⟨_, _, ⟨-, rfl⟩, -, _, _, -, rfl⟩
  · cases hcode
  · cases hcode

theorem raises_loginEndpoint_locked {e : HttpException}
    (h : Svc.Raises (loginEndpoint env r) db e) (hcode : e.statusCode = 423) :
    ∃ id user, db.users.get? id = some user ∧ user.lockedAt r.now = true := by
  simp only [loginEndpoint, Svc.raises_bind, Svc.raises_onlyIf, Svc.returns_onlyIf] at h
  rcases h with h | ⟨_, db1, h1, h | ⟨_, db2, h2, h⟩⟩
  · rw [raises_limited h] at hcode; cases hcode
  · rw [raises_limited h.2] at hcode; cases hcode
  · have hu : db2.users = db.users := by
      rcases h2 with ⟨-, h2⟩ | ⟨-, rfl⟩
      · exact (returns_limited h2).trans (returns_limited h1)
      · exact returns_limited h1
    rw [← hu]
    exact raises_login_locked h hcode

/-! ## No account is ever locked -/

/-- No stored account carries a lock. -/
def NeverLocked (db : AuthDb) : Prop := ∀ id u, db.users.get? id = some u → u.lockedUntil = none

theorem NeverLocked.modify (h : NeverLocked db) {id : ℕ} {f : Account → Account}
    (hf : ∀ u, (f u).lockedUntil = none) (hu : db'.users = db.users.modify id f) :
    NeverLocked db' := by
  intro id' u hget
  rw [hu, Store.get?_modify] at hget
  split_ifs at hget
  · obtain ⟨u0, -, rfl⟩ := Option.map_eq_some_iff.mp hget
    exact hf u0
  · exact h id' u hget

/-- Every request that commits leaves the locks cleared: the only writer of a
    lock raises after it. -/
theorem authStep_neverLocked (op : AuthOp) (h : NeverLocked db) :
    NeverLocked (authStep env db op) := by
  unfold authStep
  rcases Svc.request_cases (fun before _ => before) (op.service env) db with
    ⟨a, db', hret, hreq⟩ | ⟨e, db', -, hreq⟩
  · rw [hreq]
    cases op with
    | createAccount a =>
      simp only [AuthOp.service, createAccount, Svc.returns_get_bind, Svc.returns_require_bind,
        Svc.returns_modify] at hret
      obtain ⟨-, rfl⟩ := hret
      intro id u hget
      simp only [Store.get?_create] at hget
      split_ifs at hget
      · cases hget; rfl
      · exact h id u hget
    | login r =>
      obtain ⟨res, hret, -⟩ := Svc.returns_map.mp hret
      obtain ⟨id, user, -, -, -, -, -, hu⟩ := returns_loginEndpoint hret
      exact h.modify (fun _ => rfl) hu
    | confirmPasswordReset subject newHash =>
      simp only [AuthOp.service, confirmPasswordReset, Svc.returns_expect_bind,
        Svc.returns_get_bind, Svc.returns_modify_bind, auditLogin, Svc.returns_modify] at hret
      obtain ⟨id, -, u, -, rfl⟩ := hret
      exact h.modify (fun _ => rfl) rfl
  · rw [hreq]
    exact h

/-- A login request is rejected as locked. -/
def RejectedAsLocked (x : Except HttpException LoginResult) : Prop :=
  ∃ e, x = .error e ∧ e.statusCode = 423

theorem not_rejectedAsLocked (h : NeverLocked db) (r : LoginRequest) :
    ¬ RejectedAsLocked (loginResponse env db r) := by
  rintro ⟨e, he, hcode⟩
  obtain ⟨id, user, hget, hlock⟩ :=
    raises_loginEndpoint_locked (Svc.request_error_iff.mp he) hcode
  unfold Account.lockedAt at hlock
  rw [h id user hget] at hlock
  cases hlock

/-! ## The lockout -/

/-- The login request, when it names the account with this email. -/
def AuthOp.loginTo (env : AuthEnv) (email : String) : AuthOp → Option LoginRequest
  | .login r => if env.lower r.email = email then some r else none
  | _ => none

def AuthOp.resets (id : ℕ) : AuthOp → Bool
  | .confirmPasswordReset subject _ => subject = some id
  | _ => false

/-- In state `db`, `block` holds five login requests for the active account
    `id`, all with a wrong password, the last one at `last`; its password is not
    reset in between. -/
structure FiveFailures (env : AuthEnv) (db : AuthDb) (id : ℕ) (user : Account)
    (block : List AuthOp) (last : ℤ) : Prop where
  account : db.users.get? id = some user
  active : user.status = .active
  noReset : ∀ op ∈ block, op.resets id = false
  five : (block.filterMap (AuthOp.loginTo env user.email)).length = 5
  wrong : ∀ r ∈ block.filterMap (AuthOp.loginTo env user.email), env.accepts user r.password = false
  lastAt : ((block.filterMap (AuthOp.loginTo env user.email)).getLast?).map LoginRequest.now =
    some last

/-- In the run `ops`, the login request `r` that follows `before` is due to be
    rejected as locked: it comes within 30 minutes of five failures of its account,
    whose password was not reset since. -/
def LockDue (env : AuthEnv) (ops before : List AuthOp) (r : LoginRequest) : Prop :=
  ∃ pre block mid post id user last, before = pre ++ block ++ mid ∧
    ops = before ++ AuthOp.login r :: post ∧
    FiveFailures env (run (authStep env) AuthDb.empty pre) id user block last ∧
    (∀ op ∈ mid, op.resets id = false) ∧ env.lower r.email = user.email ∧
    last ≤ r.now ∧ r.now < last + minutes 30

/-- Every login request that is due to be rejected as locked is. -/
def LockoutEffective (env : AuthEnv) (ops : List AuthOp) : Prop :=
  ∀ before r, LockDue env ops before r →
    RejectedAsLocked (loginResponse env (run (authStep env) AuthDb.empty before) r)

/-- **No login request of any run is rejected as locked**, so a run locks
    accounts as it should only where no request is due to be rejected. -/
theorem lockout_effective_iff (env : AuthEnv) (ops : List AuthOp) :
    (∀ before r, ¬ RejectedAsLocked
      (loginResponse env (run (authStep env) AuthDb.empty before) r)) ∧
    (LockoutEffective env ops ↔ ¬ ∃ before r, LockDue env ops before r) := by
  have hnever : ∀ before r, ¬ RejectedAsLocked
      (loginResponse env (run (authStep env) AuthDb.empty before) r) := by
    intro before r
    have hinv : NeverLocked (run (authStep env) AuthDb.empty before) :=
      run_induction (fun _ op h => authStep_neverLocked op h)
        (fun id u h => by simp [AuthDb.empty] at h) before
    exact not_rejectedAsLocked hinv r
  refine ⟨hnever, fun heff => ?_, fun hnone before r hdue => ?_⟩
  · rintro ⟨before, r, hdue⟩
    exact hnever before r (heff before r hdue)
  · exact absurd ⟨before, r, hdue⟩ hnone

/-! ## Five failures that do not lock -/

/-- Passwords stored as they are. -/
def plainEnv : AuthEnv := ⟨fun plain hashed => plain = hashed, id⟩

/-- An active account and five logins with a wrong password, a second apart. -/
def fiveFailuresRun : List AuthOp :=
  .createAccount ⟨"ann@example.com", some "right", .active, false⟩ ::
    (List.range 5).map fun i => .login ⟨seconds i, "ann@example.com", "wrong", "203.0.113.7"⟩

/-- After five failures the right password still opens a session. -/
theorem five_failures_do_not_lock : ¬ ∀ env ops, LockoutEffective env ops := by
  intro h
  let r : LoginRequest := ⟨seconds 5, "ann@example.com", "right", "203.0.113.7"⟩
  have hdue : LockDue plainEnv (fiveFailuresRun ++ [.login r]) fiveFailuresRun r := by
    refine ⟨fiveFailuresRun.take 1, fiveFailuresRun.drop 1, [], [], 0,
      ⟨"ann@example.com", some "right", .active, false, 0, none⟩, seconds 4, rfl, rfl,
      ⟨by decide, rfl, by decide, by decide, by decide, by decide⟩, by simp, rfl, by decide,
      by decide⟩
  obtain ⟨e, he, -⟩ := h plainEnv _ fiveFailuresRun r hdue
  have hok : loginResponse plainEnv (run (authStep plainEnv) AuthDb.empty fiveFailuresRun) r =
      .ok (.session 0) := by decide +kernel
  rw [hok] at he
  cases he

end TempleConsign
