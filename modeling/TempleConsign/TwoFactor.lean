import TempleConsign.Login
import TempleConsign.Sessions

/-!
# Tokens and the second factor

Model of the services of `src/api/services/auth_service.py` that issue, check or
end tokens (`refresh_access_token`, `verify_2fa`, `recover_2fa`,
`_complete_2fa_login`, the 2FA set-up and the password reset), of
`get_current_user` (`src/api/middleware/auth.py` line 23) and of the requests
that disable an account (`account_deletion_service.py`,
`admin_user_service.deactivate_user`). A signed token decodes when it has been
signed with the key before; two tokens with one payload are one string. A token has the
exact instant of its end, where PyJWT keeps whole seconds.

Results:
* `returns_verify2fa`, `returns_recover2fa`: the checks of the second step of a
  login, and that it issues tokens when they pass.
* `returns_refreshAccessToken`, `returns_loginSession`: what a refresh and the
  first step of a login have checked.
-/

namespace TempleConsign

open ServiceLib

/-! ## State -/

/-- The `type` of a signed token. -/
inductive TokenType
  | access
  /-- Password accepted, second factor pending. -/
  | partialLogin
  | resetPassword
  | verifyEmail
  deriving DecidableEq

/-- The payload of a JWT. -/
structure SignedToken where
  sub : ℕ
  type : TokenType
  exp : ℤ
  deriving DecidableEq

/-- A row of `totp_recovery_codes` (`src/api/database/models.py` line 207). -/
structure TotpRecoveryCode where
  userId : ℕ
  codeHash : String
  usedAt : Option ℤ
  deriving DecidableEq

/-- A pair of an access and a refresh token, with the account as it stood when
    they were issued. -/
structure TokenIssue where
  userId : ℕ
  issuedAt : ℤ
  account : Option Account
  deriving DecidableEq

/-- `totpSecretEnc` and `deletionGraceUntil` are columns of `users`; `signed`
    are the tokens signed so far and `issued` the logins and refreshes. -/
structure TokenDb where
  auth : AuthDb
  totpSecretEnc : ℕ → Option String
  deletionGraceUntil : ℕ → Option ℤ
  recoveryCodes : Store TotpRecoveryCode
  sessions : Store UserSession
  signed : List SignedToken
  issued : List TokenIssue

def TokenDb.empty : TokenDb :=
  ⟨AuthDb.empty, fun _ => none, fun _ => none, Store.empty, Store.empty, [], []⟩

abbrev TokenService (α : Type) := Svc TokenDb HttpException α

/-- `pyotp.TOTP(secret).verify` after decryption, and the hash of a recovery
    code. -/
structure TokenEnv extends AuthEnv where
  totpVerifies : String → String → ℤ → Bool
  hashRecoveryCode : String → String

def TokenDb.account? (db : TokenDb) (id : ℕ) : Option Account := db.auth.users.get? id

def onAuth {α : Type} (m : AuthService α) : TokenService α :=
  Svc.zoom TokenDb.auth (fun a db => { db with auth := a }) m

def onSessions {α : Type} (m : SessionService α) : TokenService α :=
  Svc.zoom TokenDb.sessions (fun t db => { db with sessions := t }) m

def updateUser (id : ℕ) (f : Account → Account) : TokenService Unit :=
  onAuth (modify fun db => { db with users := db.users.modify id f })

def auditUser (eventType : String) (userId : ℕ) : TokenService Unit :=
  onAuth (auditLogin eventType userId none)

def signToken (t : SignedToken) : TokenService Unit :=
  modify fun db => { db with signed := t :: db.signed }

/-- `_decode_token` (line 88). -/
def TokenDb.decodeToken (db : TokenDb) (now : ℤ) (token : SignedToken) (expectedType : TokenType) :
    Option SignedToken :=
  if token ∈ db.signed ∧ now < token.exp ∧ token.type = expectedType then some token else none

/-! ## Issuing tokens -/

/-- `create_access_token`, noted in the log. -/
def createAccessToken (now : ℤ) (userId : ℕ) : TokenService Unit := do
  signToken ⟨userId, .access, now + accessTokenLifetime⟩
  modify fun db => { db with issued := db.issued ++ [⟨userId, now, db.account? userId⟩] }

/-- `_complete_2fa_login` (line 794), and the end of `login` (line 446). -/
def complete2faLogin (now : ℤ) (userId : ℕ) : TokenService Unit := do
  createAccessToken now userId
  let _ ← onSessions (issueRefreshToken now userId)

/-- `login` (line 345) behind its limiters, with the tokens it answers. -/
def loginSession (env : TokenEnv) (r : LoginRequest) : TokenService Unit := do
  let result ← onAuth (loginEndpoint env.toAuthEnv r)
  match result with
  | .requires2fa userId => signToken ⟨userId, .partialLogin, r.now + minutes 5⟩
  | .session userId => complete2faLogin r.now userId

def refreshTokenInvalid : HttpException := ⟨401, "Refresh token is invalid or expired.", []⟩

def sessionNoLongerValid : HttpException := ⟨401, "Session is no longer valid.", []⟩

/-- `refresh_access_token` (line 458). -/
def refreshAccessToken (now : ℤ) (rawRefreshToken : ℕ) : TokenService Unit := do
  let result ← onSessions (validateAndRotate now rawRefreshToken)
  let (userId, _) ← Svc.expect result refreshTokenInvalid
  let db ← get
  let user ← Svc.expect (db.account? userId) sessionNoLongerValid
  Svc.require (user.status = .active) sessionNoLongerValid
  createAccessToken now userId

def sessionExpired : HttpException := ⟨401, "Session expired. Please log in again.", []⟩

def invalid2faState : HttpException := ⟨401, "Invalid 2FA state.", []⟩

def invalidVerificationCode : HttpException := ⟨400, "Invalid verification code.", []⟩

/-- `verify_2fa` (line 712). -/
def verify2fa (env : TokenEnv) (now : ℤ) (partialToken : SignedToken) (totpCode : String) :
    TokenService Unit := do
  let db ← get
  let payload ← Svc.expect (db.decodeToken now partialToken .partialLogin) sessionExpired
  let user ← Svc.expect (db.account? payload.sub) invalid2faState
  Svc.require (user.totpEnabled = true) invalid2faState
  let secret ← Svc.expect (truthy (db.totpSecretEnc payload.sub)) invalid2faState
  Svc.require (env.totpVerifies secret totpCode now = true) invalidVerificationCode
  complete2faLogin now payload.sub

def recoveryCodeInvalid : HttpException := ⟨400, "Invalid or already-used recovery code.", []⟩

/-- The `WHERE` of `recover_2fa` (line 748). -/
def isUnusedCode (userId : ℕ) (codeHash : String) (_ : ℕ) (c : TotpRecoveryCode) : Bool :=
  c.userId = userId && c.codeHash = codeHash && c.usedAt.isNone

/-- `recover_2fa` (line 733); `recoveryCode` is stripped and in upper case. The
    warning email about the remaining codes is left out. -/
def recover2fa (env : TokenEnv) (now : ℤ) (partialToken : SignedToken) (recoveryCode : String) :
    TokenService Unit := do
  let db ← get
  let payload ← Svc.expect (db.decodeToken now partialToken .partialLogin) sessionExpired
  let found ← Svc.expect
    (Store.scalarOneOrNone
      (db.recoveryCodes.select (isUnusedCode payload.sub (env.hashRecoveryCode recoveryCode))))
    internalError
  let (recovery, _) ← Svc.expect found recoveryCodeInvalid
  modify fun db => { db with
    recoveryCodes := db.recoveryCodes.modify recovery fun c => { c with usedAt := some now } }
  auditUser "user.2fa_recovery_used" payload.sub
  let db ← get
  let _ ← Svc.expect (db.account? payload.sub) ⟨401, "User not found.", []⟩
  complete2faLogin now payload.sub

/-! ## Requests of a signed-in user -/

/-- `get_current_user` (`src/api/middleware/auth.py` line 23). -/
def getCurrentUser (now : ℤ) (token : SignedToken) : TokenService (ℕ × Account) := do
  let db ← get
  let payload ← Svc.expect (db.decodeToken now token .access)
    ⟨401, "Token is invalid or expired.", [("WWW-Authenticate", "Bearer")]⟩
  let user ← Svc.expect (db.account? payload.sub) ⟨401, "Account not found or inactive.", []⟩
  Svc.require (user.status = .active ∨ user.status = .pendingDeletion)
    ⟨401, "Account not found or inactive.", []⟩
  pure (payload.sub, user)

/-- `setup_2fa` (line 643); `secretEnc` is the new secret, encrypted. -/
def setup2fa (now : ℤ) (token : SignedToken) (secretEnc : String) : TokenService Unit := do
  let (userId, user) ← getCurrentUser now token
  Svc.require (user.totpEnabled = false)
    ⟨409, "Two-factor authentication is already enabled.", []⟩
  modify fun db => { db with
    totpSecretEnc := Function.update db.totpSecretEnc userId (some secretEnc) }
  auditUser "user.2fa_setup_initiated" userId

def passwordIncorrect : HttpException := ⟨401, "Current password is incorrect.", []⟩

/-- `confirm_2fa` (line 666); `rawCodes` are the new recovery codes. -/
def confirm2fa (env : TokenEnv) (now : ℤ) (token : SignedToken) (totpCode password : String)
    (rawCodes : List String) : TokenService Unit := do
  let (userId, user) ← getCurrentUser now token
  let db ← get
  let secret ← Svc.expect (truthy (db.totpSecretEnc userId))
    ⟨400, "2FA setup has not been initiated.", []⟩
  Svc.require (env.accepts user password = true) passwordIncorrect
  Svc.require (env.totpVerifies secret totpCode now = true) invalidVerificationCode
  updateUser userId fun u => { u with totpEnabled := true }
  modify fun db => { db with
    recoveryCodes := rawCodes.foldl
      (fun t code => t.create ⟨userId, env.hashRecoveryCode code, none⟩)
      (db.recoveryCodes.deleteWhere fun _ c => c.userId = userId) }
  auditUser "user.2fa_enabled" userId

/-- `disable_2fa` (line 801). -/
def disable2fa (env : TokenEnv) (now : ℤ) (token : SignedToken) (totpCode password : String) :
    TokenService Unit := do
  let (userId, user) ← getCurrentUser now token
  let db ← get
  Svc.require (user.totpEnabled = true) ⟨400, "Two-factor authentication is not enabled.", []⟩
  let secret ← Svc.expect (truthy (db.totpSecretEnc userId))
    ⟨400, "Two-factor authentication is not enabled.", []⟩
  Svc.require (env.accepts user password = true) passwordIncorrect
  Svc.require (env.totpVerifies secret totpCode now = true) invalidVerificationCode
  updateUser userId fun u => { u with totpEnabled := false }
  modify fun db => { db with
    totpSecretEnc := Function.update db.totpSecretEnc userId none
    recoveryCodes := db.recoveryCodes.deleteWhere fun _ c => c.userId = userId }
  auditUser "user.2fa_disabled" userId

/-- `request_deletion` (`account_deletion_service.py` line 43). -/
def requestDeletion (now : ℤ) (token : SignedToken) : TokenService Unit := do
  let (userId, user) ← getCurrentUser now token
  let db ← get
  Svc.require (user.status ≠ .deleted) ⟨410, "This account has already been deleted.", []⟩
  Svc.onlyIf (¬ (user.status = .pendingDeletion ∧ db.deletionGraceUntil userId ≠ none)) do
    updateUser userId fun u => { u with status := .pendingDeletion }
    modify fun db => { db with
      deletionGraceUntil := Function.update db.deletionGraceUntil userId (some (now + days 30)) }
    onSessions (revokeAllForUser now userId)

/-- `cancel_deletion` (line 97). -/
def cancelDeletion (now : ℤ) (token : SignedToken) : TokenService Unit := do
  let (userId, user) ← getCurrentUser now token
  Svc.require (user.status = .pendingDeletion)
    ⟨409, "This account is not pending deletion.", []⟩
  updateUser userId fun u => { u with status := .active }
  modify fun db => { db with
    deletionGraceUntil := Function.update db.deletionGraceUntil userId none }

def logout (now : ℤ) (rawRefreshToken : ℕ) : TokenService Unit :=
  onSessions (revokeToken now rawRefreshToken)

/-! ## Requests on other accounts -/

/-- `finalize_deletion_for_user` (line 132); the scrubbed address of the user is
    `scrubbed`. -/
def finalizeDeletion (userId : ℕ) (scrubbed : String) : TokenService Unit := do
  let db ← get
  let user ← Svc.expect (db.account? userId) internalError
  Svc.onlyIf (user.status ≠ .deleted) do
    updateUser userId fun u => { u with
      email := scrubbed, passwordHash := none, totpEnabled := false, status := .deleted }
    modify fun db => { db with
      totpSecretEnc := Function.update db.totpSecretEnc userId none
      deletionGraceUntil := Function.update db.deletionGraceUntil userId none }

/-- `deactivate_user` (`admin_user_service.py` line 32); `openWork` says that the
    user has open work and no reassignee is named. -/
def deactivateUser (actor userId : ℕ) (openWork : Bool) : TokenService Unit := do
  let db ← get
  let user ← Svc.expect (db.account? userId) ⟨404, "User not found.", []⟩
  Svc.require (userId ≠ actor)
    ⟨409, "Admins cannot deactivate their own account from this endpoint.", []⟩
  Svc.require (user.status ≠ .deactivated) ⟨409, "User is already deactivated.", []⟩
  Svc.require (openWork = false) ⟨409, "Pick a reassignment target.", []⟩
  updateUser userId fun u => { u with status := .deactivated }
  auditUser "user.admin_deactivated" actor

/-- `resend_verification` (line 317). -/
def resendVerification (env : TokenEnv) (now : ℤ) (email : String) : TokenService Unit := do
  let db ← get
  let found ← Svc.expect
    (Store.scalarOneOrNone (db.auth.users.select fun _ u => u.email = env.lower email))
    internalError
  match found with
  | some (userId, user) =>
    Svc.onlyIf (user.status = .pendingVerification)
      (signToken ⟨userId, .verifyEmail, now + days 1⟩)
  | none => pure ()

def verificationInvalid : HttpException :=
  ⟨400, "Verification link is invalid or has expired.", []⟩

/-- `verify_email` (line 297). -/
def verifyEmail (now : ℤ) (token : SignedToken) : TokenService Unit := do
  let db ← get
  let payload ← Svc.expect (db.decodeToken now token .verifyEmail) verificationInvalid
  let user ← Svc.expect (db.account? payload.sub) verificationInvalid
  Svc.require (user.status = .pendingVerification) verificationInvalid
  updateUser payload.sub fun u => { u with status := .active }
  auditUser "user.email_verified" payload.sub

/-- `request_password_reset` (line 490). -/
def requestPasswordReset (env : TokenEnv) (now : ℤ) (email : String) : TokenService Unit := do
  let db ← get
  let found ← Svc.expect
    (Store.scalarOneOrNone (db.auth.users.select fun _ u => u.email = env.lower email))
    internalError
  match found with
  | some (userId, user) =>
    Svc.onlyIf
      (user.status = .active ∨ user.status = .locked ∨ user.status = .pendingVerification) do
        signToken ⟨userId, .resetPassword, now + minutes 30⟩
        auditUser "user.password_reset_requested" userId
  | none => pure ()

/-- `confirm_password_reset` (line 523) on the token it is given. -/
def confirmReset (now : ℤ) (token : SignedToken) (newHash : String) : TokenService Unit := do
  let db ← get
  let payload ← Svc.expect (db.decodeToken now token .resetPassword) resetLinkInvalid
  onAuth (confirmPasswordReset (some payload.sub) newHash)
  onSessions (revokeAllForUser now payload.sub)

/-! ## What the issuing services check -/

variable {env : TokenEnv} {db db' : TokenDb} {now : ℤ} {token : SignedToken} {u : Unit}

theorem decodeToken_eq_some {expectedType : TokenType} {payload : SignedToken} :
    db.decodeToken now token expectedType = some payload ↔
      (token ∈ db.signed ∧ now < token.exp ∧ token.type = expectedType) ∧ token = payload := by
  unfold TokenDb.decodeToken
  split_ifs with h
  · simp [h]
  · simp [h]

/-- The database after a login of `userId` is completed. -/
def TokenDb.loggedIn (now : ℤ) (userId : ℕ) (db : TokenDb) : TokenDb :=
  { db with
    signed := ⟨userId, .access, now + accessTokenLifetime⟩ :: db.signed
    issued := db.issued ++ [⟨userId, now, db.account? userId⟩]
    sessions := db.sessions.create (newSession now userId) }

theorem exec_createAccessToken (now : ℤ) (userId : ℕ) (db : TokenDb) :
    Svc.exec (createAccessToken now userId) db =
      (.ok (), { db with
        signed := ⟨userId, .access, now + accessTokenLifetime⟩ :: db.signed
        issued := db.issued ++ [⟨userId, now, db.account? userId⟩] }) := by
  unfold createAccessToken signToken
  rw [Svc.exec_bind, Svc.exec_modify]
  rfl

theorem exec_complete2faLogin (now : ℤ) (userId : ℕ) (db : TokenDb) :
    Svc.exec (complete2faLogin now userId) db = (.ok (), db.loggedIn now userId) := by
  unfold complete2faLogin
  rw [Svc.exec_bind, exec_createAccessToken]
  rfl

@[simp] theorem returns_complete2faLogin {userId : ℕ} :
    Svc.Returns (complete2faLogin now userId) db u db' ↔ db.loggedIn now userId = db' := by
  unfold Svc.Returns
  rw [exec_complete2faLogin]
  simp

/-- The checks of `verify_2fa`. -/
structure CanVerify (env : TokenEnv) (db : TokenDb) (now : ℤ) (token : SignedToken)
    (totpCode : String) (user : Account) : Prop where
  decodes : db.decodeToken now token .partialLogin = some token
  account : db.account? token.sub = some user
  enabled : user.totpEnabled = true
  code : ∃ secret, truthy (db.totpSecretEnc token.sub) = some secret ∧
    env.totpVerifies secret totpCode now = true

theorem returns_verify2fa {totpCode : String} :
    Svc.Returns (verify2fa env now token totpCode) db u db' ↔
      (∃ user, CanVerify env db now token totpCode user) ∧
        db.loggedIn now token.sub = db' := by
  simp only [verify2fa, Svc.returns_get_bind, Svc.returns_expect_bind, Svc.returns_require_bind,
    returns_complete2faLogin]
  constructor
  · rintro ⟨payload, hd, user, hu, he, secret, hs, hv, rfl⟩
    obtain ⟨-, rfl⟩ := decodeToken_eq_some.mp hd
    exact ⟨⟨user, hd, hu, he, secret, hs, hv⟩, rfl⟩
  · rintro ⟨⟨user, hd, hu, he, secret, hs, hv⟩, rfl⟩
    exact ⟨token, hd, user, hu, he, secret, hs, hv, rfl⟩

/-- An audit row of the user, added. -/
def TokenDb.audited (eventType : String) (userId : ℕ) (db : TokenDb) : TokenDb :=
  { db with auth := { db.auth with
      auditLogs := db.auth.auditLogs ++ [⟨eventType, userId, none⟩] } }

@[simp] theorem returns_auditUser_bind {α : Type} {eventType : String} {userId : ℕ}
    {f : Unit → TokenService α} {b : α} :
    Svc.Returns (auditUser eventType userId >>= f) db b db' ↔
      Svc.Returns (f ()) (db.audited eventType userId) b db' :=
  Svc.returns_modify_bind

/-- The checks of `recover_2fa`; `recovery` is the row of the code. -/
structure CanRecover (env : TokenEnv) (db : TokenDb) (now : ℤ) (token : SignedToken)
    (recoveryCode : String) (recovery : ℕ) (user : Account) : Prop where
  decodes : db.decodeToken now token .partialLogin = some token
  code : ∃ c, Store.scalarOneOrNone (db.recoveryCodes.select
    (isUnusedCode token.sub (env.hashRecoveryCode recoveryCode))) = some (some (recovery, c))
  account : db.account? token.sub = some user

/-- The code is used up. -/
def TokenDb.consume (now : ℤ) (recovery userId : ℕ) (db : TokenDb) : TokenDb :=
  { db with
    recoveryCodes := db.recoveryCodes.modify recovery fun c => { c with usedAt := some now }
    }.audited "user.2fa_recovery_used" userId

theorem returns_recover2fa {recoveryCode : String} :
    Svc.Returns (recover2fa env now token recoveryCode) db u db' ↔
      ∃ recovery, (∃ user, CanRecover env db now token recoveryCode recovery user) ∧
        (db.consume now recovery token.sub).loggedIn now token.sub = db' := by
  simp only [recover2fa, Svc.returns_get_bind, Svc.returns_expect_bind, Svc.returns_modify_bind,
    returns_auditUser_bind, returns_complete2faLogin]
  constructor
  · rintro ⟨payload, hd, found, hf, ⟨recovery, c⟩, rfl, user, hu, rfl⟩
    obtain ⟨-, rfl⟩ := decodeToken_eq_some.mp hd
    exact ⟨recovery, ⟨user, hd, ⟨c, hf⟩, hu⟩, rfl⟩
  · rintro ⟨recovery, ⟨user, hd, ⟨c, hf⟩, hu⟩, rfl⟩
    exact ⟨token, hd, some (recovery, c), hf, (recovery, c), rfl, user, hu, rfl⟩

/-- A refresh that returns has issued its tokens to an active account. -/
theorem returns_refreshAccessToken {rawRefreshToken : ℕ}
    (h : Svc.Returns (refreshAccessToken now rawRefreshToken) db u db') :
    ∃ userId user, db.account? userId = some user ∧ user.status = .active ∧ db'.auth = db.auth ∧
      db'.issued = db.issued ++ [⟨userId, now, some user⟩] := by
  unfold refreshAccessToken at h
  rw [Svc.returns_bind] at h
  obtain ⟨result, db1, h1, h⟩ := h
  obtain ⟨t, -, rfl⟩ := Svc.returns_zoom.mp h1
  simp only [Svc.returns_expect_bind, Svc.returns_get_bind, Svc.returns_require_bind] at h
  obtain ⟨⟨userId, newToken⟩, rfl, user, hu, hact, h⟩ := h
  unfold Svc.Returns at h
  rw [exec_createAccessToken] at h
  cases h
  refine ⟨userId, user, hu, hact, rfl, ?_⟩
  show db.issued ++ [⟨userId, now, db.account? userId⟩] = _
  rw [show db.account? userId = some user from hu]

/-- The first step of a login clears the lockout columns of an active account,
    and leaves its second factor pending or completes the login. -/
theorem returns_loginSession {r : LoginRequest}
    (h : Svc.Returns (loginSession env r) db u db') :
    ∃ id user, db.account? id = some user ∧ user.status = .active ∧
      db'.auth.users =
        db.auth.users.modify id (fun u => { u with failedLoginCount := 0, lockedUntil := none }) ∧
      (db'.issued = db.issued ∨ db'.issued = db.issued ++
        [⟨id, r.now, some { user with failedLoginCount := 0, lockedUntil := none }⟩]) := by
  unfold loginSession at h
  rw [Svc.returns_bind] at h
  obtain ⟨result, db1, h1, h⟩ := h
  obtain ⟨auth, hlogin, rfl⟩ := Svc.returns_zoom.mp h1
  obtain ⟨id, user, hget, -, -, hact, -, hu, hres⟩ := returns_loginEndpoint_answer hlogin
  refine ⟨id, user, hget, hact, ?_⟩
  cases htotp : user.totpEnabled with
  | true =>
    obtain rfl : LoginResult.requires2fa id = result := by
      rw [← hres, Account.loginResult, htotp]
      rfl
    obtain rfl := Svc.returns_modify.mp h
    exact ⟨hu, .inl rfl⟩
  | false =>
    obtain rfl : LoginResult.session id = result := by
      rw [← hres, Account.loginResult, htotp]
      rfl
    obtain rfl := returns_complete2faLogin.mp h
    refine ⟨hu, .inr ?_⟩
    have hafter : auth.users.get? id =
        some { user with failedLoginCount := 0, lockedUntil := none } := by
      rw [hu, Store.get?_modify_self, show db.auth.users.get? id = some user from hget]
      rfl
    show db.issued ++ [⟨id, r.now, auth.users.get? id⟩] = _
    simp only [hafter, htotp]

end TempleConsign
