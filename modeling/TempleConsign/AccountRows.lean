import TempleConsign.AccountDeletion

/-!
# What requests do to the rows of users

One inversion of every request: which columns of which row of `users` it may
write and to whom it issues a session. The invariants of account deletion follow
from it without another look at the services.

Results:
* `user?_fnDeleteExpiredAccounts`: what the sweep does to a row.
* `tokenChange_of_returns`: the requests whose columns are in `TokenDb`.
* `sameUsers_of_returns`: the requests that touch no row of `users`.
* `personChange_of_returns`: every request.
-/

namespace TempleConsign

open ServiceLib

/-! ## Changes of a row -/

/-- The row of `users` that an account is part of. -/
def Account.row (a : Account) (totpSecretEnc : Option String) (deletionGraceUntil : Option ℤ)
    (d : UserDetails) : UserRow where
  email := a.email
  passwordHash := a.passwordHash
  status := a.status
  totpEnabled := a.totpEnabled
  totpSecretEnc := totpSecretEnc
  deletionGraceUntil := deletionGraceUntil
  details := d

def TokenDb.userRow (db : TokenDb) (d : UserDetails) (id : ℕ) : Option UserRow :=
  (db.account? id).map fun a => a.row (db.totpSecretEnc id) (db.deletionGraceUntil id) d

/-- The row after `finalize_deletion_for_user` or the sweep. -/
def UserRow.scrubbed (id : ℕ) (row : UserRow) : UserRow :=
  { row with
    email := scrubbedEmail id
    passwordHash := none
    status := .deleted
    totpEnabled := false
    totpSecretEnc := none
    deletionGraceUntil := none
    details := row.details.finalized }

/-- How a request changes the row of user `id`. -/
inductive RowChange (op : PersonOp) (id : ℕ) (row : UserRow) : UserRow → Prop
  /-- Nothing but the login counters. -/
  | same : RowChange op id row row
  | secondFactor (enabled : Bool) (secret : Option String)
      (signedIn : row.status = .active ∨ row.status = .pendingDeletion) :
      RowChange op id row { row with totpEnabled := enabled, totpSecretEnc := secret }
  | deactivated : RowChange op id row { row with status := .deactivated }
  | verified (unverified : row.status = .pendingVerification) :
      RowChange op id row { row with status := .active }
  /-- A reset of the password; it activates a locked or unverified account. -/
  | reset (now : ℤ) (token : SignedToken) (newHash : String) (status : AccountStatus)
      (byOp : op = .account ⟨.confirmReset now token newHash, rfl⟩) (sub : token.sub = id)
      (kept : status = row.status ∨
        status = .active ∧ (row.status = .locked ∨ row.status = .pendingVerification)) :
      RowChange op id row { row with passwordHash := some newHash, status := status }
  | emailChanged (now : ℤ) (token : ChangeEmailToken) (byOp : op = .confirmEmailChange now token)
      (sub : token.sub = id) : RowChange op id row { row with email := token.newEmail }
  | requested (now : ℤ) (signedIn : row.status = .active ∨ row.status = .pendingDeletion) :
      RowChange op id row { row with
        status := .pendingDeletion
        deletionGraceUntil := some (now + days 30)
        details := { row.details with deletionRequestedAt := some now } }
  | cancelled (pending : row.status = .pendingDeletion) :
      RowChange op id row { row with
        status := .active
        deletionGraceUntil := none
        details := { row.details with deletionRequestedAt := none } }
  | scrubbed : RowChange op id row (row.scrubbed id)

/-- To whom a request issues a session: to an active account, to one with a
    second factor, or on a recovery code. -/
def IssueAllowed (op : PersonOp) (db : TokenDb) (userId : ℕ) : Prop :=
  ∃ a, db.account? userId = some a ∧ (a.status = .active ∨ a.totpEnabled = true ∨
    ∃ now token code, op = .account ⟨.recover2fa now token code, rfl⟩ ∧ token.sub = userId)

/-- The sessions issued by a request: at most one. -/
def IssuesAllowed (op : PersonOp) (db db' : TokenDb) : Prop :=
  db'.issued = db.issued ∨
    ∃ t, db'.issued = db.issued ++ [t] ∧ IssueAllowed op db t.userId

/-- What a request on accounts may change. -/
structure TokenChange (op : PersonOp) (db db' : TokenDb) : Prop where
  rows : ∀ d id, Option.Rel (RowChange op id) (db.userRow d id) (db'.userRow d id)
  issued : IssuesAllowed op db db'

variable {env : TokenEnv} {op : PersonOp} {db db' : TokenDb} {u : Unit}

theorem rel_refl (id : ℕ) (row : Option UserRow) : Option.Rel (RowChange op id) row row := by
  cases row with
  | none => exact .none
  | some row => exact .some .same

/-- A change of the account under `k` and of its second factor. -/
theorem rows_of_get {k : ℕ} {f : Account → Account}
    (hget : ∀ id, db'.account? id = if id = k then (db.account? id).map f else db.account? id)
    (hs : ∀ id ≠ k, db'.totpSecretEnc id = db.totpSecretEnc id)
    (hg : db'.deletionGraceUntil = db.deletionGraceUntil)
    (hf : ∀ a d, db.account? k = some a →
      RowChange op k (a.row (db.totpSecretEnc k) (db.deletionGraceUntil k) d)
        ((f a).row (db'.totpSecretEnc k) (db.deletionGraceUntil k) d))
    (d : UserDetails) (id : ℕ) :
    Option.Rel (RowChange op id) (db.userRow d id) (db'.userRow d id) := by
  unfold TokenDb.userRow
  rw [hget, hg]
  by_cases hk : id = k
  · subst hk
    rw [if_pos rfl]
    cases ha : db.account? id with
    | none => exact .none
    | some a => exact .some (hf a d ha)
  · rw [if_neg hk, hs id hk]
    exact rel_refl id _

theorem rows_of_modify {k : ℕ} {f : Account → Account}
    (hu : db'.auth.users = db.auth.users.modify k f)
    (hs : ∀ id ≠ k, db'.totpSecretEnc id = db.totpSecretEnc id)
    (hg : db'.deletionGraceUntil = db.deletionGraceUntil)
    (hf : ∀ a d, db.account? k = some a →
      RowChange op k (a.row (db.totpSecretEnc k) (db.deletionGraceUntil k) d)
        ((f a).row (db'.totpSecretEnc k) (db.deletionGraceUntil k) d))
    (d : UserDetails) (id : ℕ) :
    Option.Rel (RowChange op id) (db.userRow d id) (db'.userRow d id) := by
  refine rows_of_get (fun id => ?_) hs hg hf d id
  unfold TokenDb.account?
  rw [hu, Store.get?_modify]

theorem userRow_congr (hu : db'.auth.users = db.auth.users)
    (hs : db'.totpSecretEnc = db.totpSecretEnc)
    (hg : db'.deletionGraceUntil = db.deletionGraceUntil) (d : UserDetails) (id : ℕ) :
    db'.userRow d id = db.userRow d id := by
  unfold TokenDb.userRow TokenDb.account?
  rw [hu, hs, hg]

theorem rows_of_same (hu : db'.auth.users = db.auth.users)
    (hs : db'.totpSecretEnc = db.totpSecretEnc)
    (hg : db'.deletionGraceUntil = db.deletionGraceUntil) (d : UserDetails) (id : ℕ) :
    Option.Rel (RowChange op id) (db.userRow d id) (db'.userRow d id) := by
  rw [userRow_congr hu hs hg]
  exact rel_refl id _

/-- Requests that only sign tokens or end sessions. -/
theorem TokenChange.of_same (hu : db'.auth.users = db.auth.users)
    (hs : db'.totpSecretEnc = db.totpSecretEnc)
    (hg : db'.deletionGraceUntil = db.deletionGraceUntil) (hi : db'.issued = db.issued) :
    TokenChange op db db' :=
  ⟨rows_of_same hu hs hg, .inl hi⟩

/-! ## The second factors and the grace windows -/

/-- The columns of `users` beside the accounts. -/
def ColumnsAre (s : ℕ → Option String) (g : ℕ → Option ℤ) (db : TokenDb) : Prop :=
  db.totpSecretEnc = s ∧ db.deletionGraceUntil = g

section
variable {s : ℕ → Option String} {g : ℕ → Option ℤ}

theorem columns_onAuth {α : Type} (m : AuthService α) :
    Svc.Grows (ColumnsAre s g) (onAuth m) := by
  intro db h
  unfold onAuth
  rw [Svc.exec_zoom]
  exact h

theorem columns_onSessions {α : Type} (m : SessionService α) :
    Svc.Grows (ColumnsAre s g) (onSessions m) := by
  intro db h
  unfold onSessions
  rw [Svc.exec_zoom]
  exact h

theorem columns_complete2faLogin (now : ℤ) (userId : ℕ) :
    Svc.Grows (ColumnsAre s g) (complete2faLogin now userId) := by
  intro db h
  rw [exec_complete2faLogin]
  exact h

theorem columns_createAccessToken (now : ℤ) (userId : ℕ) :
    Svc.Grows (ColumnsAre s g) (createAccessToken now userId) := by
  intro db h
  rw [exec_createAccessToken]
  exact h

theorem columns_signToken (t : SignedToken) : Svc.Grows (ColumnsAre s g) (signToken t) :=
  Svc.grows_modify fun _ h => h

theorem columns_loginSession (r : LoginRequest) :
    Svc.Grows (ColumnsAre s g) (loginSession env r) := by
  refine Svc.grows_bind (columns_onAuth _) fun result => ?_
  cases result with
  | session userId => exact columns_complete2faLogin _ _
  | requires2fa userId => exact columns_signToken _

theorem columns_refreshAccessToken (now : ℤ) (rawRefreshToken : ℕ) :
    Svc.Grows (ColumnsAre s g) (refreshAccessToken now rawRefreshToken) := by
  refine Svc.grows_bind (columns_onSessions _) fun result => ?_
  refine Svc.grows_bind (Svc.grows_expect _ _) fun row => ?_
  refine Svc.grows_bind Svc.grows_get fun db => ?_
  refine Svc.grows_bind (Svc.grows_expect _ _) fun user => ?_
  exact Svc.grows_bind (Svc.grows_require _ _) fun _ => columns_createAccessToken _ _

end

theorem columns_of_returns {m : TokenService Unit}
    (hm : Svc.Grows (ColumnsAre db.totpSecretEnc db.deletionGraceUntil) m)
    (h : Svc.Returns m db u db') :
    db'.totpSecretEnc = db.totpSecretEnc ∧ db'.deletionGraceUntil = db.deletionGraceUntil :=
  hm.returns h ⟨rfl, rfl⟩

/-! ## One request -/

theorem returns_auditUser {eventType : String} {userId : ℕ} :
    Svc.Returns (auditUser eventType userId) db u db' ↔ db.audited eventType userId = db' :=
  Svc.returns_modify

/-- The users table, updated. -/
def TokenDb.withUser (id : ℕ) (f : Account → Account) (db : TokenDb) : TokenDb :=
  { db with auth := { db.auth with users := db.auth.users.modify id f } }

theorem returns_updateUser_bind {α : Type} {id : ℕ} {f : Account → Account}
    {m : Unit → TokenService α} {b : α} :
    Svc.Returns (updateUser id f >>= m) db b db' ↔ Svc.Returns (m ()) (db.withUser id f) b db' :=
  Svc.returns_modify_bind

theorem returns_onSessions {α : Type} {m : SessionService α} {a : α} :
    Svc.Returns (onSessions m) db a db' ↔
      ∃ t, Svc.Returns m db.sessions a t ∧ { db with sessions := t } = db' :=
  Svc.returns_zoom

theorem change_login {r : LoginRequest} (h : Svc.Returns (loginSession env r) db u db') :
    TokenChange op db db' := by
  obtain ⟨hs, hg⟩ := columns_of_returns (columns_loginSession r) h
  obtain ⟨id, user, hget, hact, hu, hi⟩ := returns_loginSession h
  refine ⟨rows_of_modify hu (fun _ _ => by rw [hs]) hg fun a d _ => ?_, ?_⟩
  · rw [hs]
    exact .same
  · obtain hi | hi := hi
    · exact .inl hi
    · exact .inr ⟨_, hi, user, hget, .inl hact⟩

theorem change_refresh {now : ℤ} {rawRefreshToken : ℕ}
    (h : Svc.Returns (refreshAccessToken now rawRefreshToken) db u db') :
    TokenChange op db db' := by
  obtain ⟨hs, hg⟩ := columns_of_returns (columns_refreshAccessToken now rawRefreshToken) h
  obtain ⟨id, user, hget, hact, hauth, hi⟩ := returns_refreshAccessToken h
  exact ⟨rows_of_same (by rw [hauth]) hs hg, .inr ⟨_, hi, user, hget, .inl hact⟩⟩

theorem change_verify2fa {now : ℤ} {token : SignedToken} {totpCode : String}
    (h : Svc.Returns (verify2fa env now token totpCode) db u db') : TokenChange op db db' := by
  obtain ⟨⟨user, hcan⟩, rfl⟩ := returns_verify2fa.mp h
  exact ⟨rows_of_same rfl rfl rfl, .inr ⟨_, rfl, user, hcan.account, .inr (.inl hcan.enabled)⟩⟩

theorem change_recover2fa {now : ℤ} {token : SignedToken} {code : String}
    (h : Svc.Returns (recover2fa env now token code) db u db') :
    TokenChange (.account ⟨.recover2fa now token code, rfl⟩) db db' := by
  obtain ⟨recovery, ⟨user, hcan⟩, rfl⟩ := returns_recover2fa.mp h
  exact ⟨rows_of_same rfl rfl rfl,
    .inr ⟨_, rfl, user, hcan.account, .inr (.inr ⟨now, token, code, rfl, rfl⟩)⟩⟩

/-- The requests of a signed-in user on the second factor. -/
theorem change_secondFactor {now : ℤ} {token : SignedToken} {user : Account}
    (hs : SignedIn db now token user) (enabled : Account → Bool)
    (hget : ∀ id, db'.account? id = if id = token.sub then
      (db.account? id).map (fun a => { a with totpEnabled := enabled a }) else db.account? id)
    (hsecret : ∀ id ≠ token.sub, db'.totpSecretEnc id = db.totpSecretEnc id)
    (hg : db'.deletionGraceUntil = db.deletionGraceUntil) (hi : db'.issued = db.issued) :
    TokenChange op db db' := by
  refine ⟨rows_of_get hget hsecret hg fun a d ha => ?_, .inl hi⟩
  rw [hs.account] at ha
  cases ha
  exact .secondFactor _ _ hs.status

/-- What `confirm_password_reset` writes to an account. -/
def Account.withPassword (newHash : String) (user : Account) : Account :=
  { user with
    passwordHash := some newHash
    failedLoginCount := 0
    lockedUntil := none
    status := match user.status with
      | .locked | .pendingVerification => .active
      | s => s }

/-- The database after the password of `token.sub` is reset. -/
def TokenDb.passwordReset (now : ℤ) (token : SignedToken) (newHash : String) (db : TokenDb) :
    TokenDb :=
  { (db.withUser token.sub (Account.withPassword newHash)).audited
      "user.password_reset_confirmed" token.sub with
    sessions := db.sessions.modifyWhere (fun _ s => s.activeOf token.sub) (UserSession.revoke now) }

/-- A reset needs its token and the row, whatever the status. -/
theorem returns_confirmReset_iff {now : ℤ} {token : SignedToken} {newHash : String} :
    Svc.Returns (confirmReset now token newHash) db u db' ↔
      (db.decodeToken now token .resetPassword = some token ∧
        ∃ user, db.account? token.sub = some user) ∧
      db.passwordReset now token newHash = db' := by
  simp only [confirmReset, Svc.returns_get_bind, Svc.returns_expect_bind]
  constructor
  · rintro ⟨payload, hd, h⟩
    obtain ⟨-, rfl⟩ := decodeToken_eq_some.mp hd
    obtain ⟨_, db1, h1, h2⟩ := Svc.returns_bind.mp h
    obtain ⟨auth, hreset, rfl⟩ := Svc.returns_zoom.mp h1
    simp only [confirmPasswordReset, Svc.returns_expect_bind, Svc.returns_get_bind,
      Svc.returns_modify_bind, auditLogin, Svc.returns_modify] at hreset
    obtain ⟨id, hid, user, hget, rfl⟩ := hreset
    cases hid
    obtain ⟨t, hrevoke, rfl⟩ := returns_onSessions.mp h2
    cases hrevoke
    exact ⟨⟨hd, user, hget⟩, rfl⟩
  · rintro ⟨⟨hd, user, hget⟩, rfl⟩
    refine ⟨token, hd, Svc.returns_bind.mpr ⟨(), _, Svc.returns_zoom.mpr ⟨_, ?_, rfl⟩,
      returns_onSessions.mpr ⟨_, rfl, rfl⟩⟩⟩
    simp only [confirmPasswordReset, Svc.returns_expect_bind, Svc.returns_get_bind,
      Svc.returns_modify_bind, auditLogin, Svc.returns_modify]
    exact ⟨token.sub, rfl, user, hget, rfl⟩

theorem change_confirmReset {now : ℤ} {token : SignedToken} {newHash : String}
    (h : Svc.Returns (confirmReset now token newHash) db u db') :
    TokenChange (.account ⟨.confirmReset now token newHash, rfl⟩) db db' := by
  obtain ⟨-, rfl⟩ := returns_confirmReset_iff.mp h
  refine ⟨rows_of_modify rfl (fun _ _ => rfl) rfl fun a d _ => ?_, .inl rfl⟩
  refine .reset now token newHash (a.withPassword newHash).status rfl rfl ?_
  unfold Account.withPassword Account.row
  dsimp only
  cases a.status with
  | locked => exact .inr ⟨rfl, .inl rfl⟩
  | pendingVerification => exact .inr ⟨rfl, .inr rfl⟩
  | _ => exact .inl rfl

theorem change_logout {now : ℤ} {rawRefreshToken : ℕ}
    (h : Svc.Returns (logout now rawRefreshToken) db u db') : TokenChange op db db' := by
  obtain ⟨t, -, rfl⟩ := returns_onSessions.mp h
  exact .of_same rfl rfl rfl rfl

theorem change_setup2fa {now : ℤ} {token : SignedToken} {secretEnc : String}
    (h : Svc.Returns (setup2fa now token secretEnc) db u db') : TokenChange op db db' := by
  simp only [setup2fa, returns_getCurrentUser_bind, Svc.returns_require_bind,
    Svc.returns_modify_bind, returns_auditUser] at h
  obtain ⟨user, hs, -, rfl⟩ := h
  refine change_secondFactor hs Account.totpEnabled (fun id => ?_)
    (fun _ hne => Function.update_of_ne hne _ _) rfl rfl
  show db.account? id = if id = token.sub then (db.account? id).map fun a => a else db.account? id
  rw [Option.map_id', ite_self]

theorem change_confirm2fa {now : ℤ} {token : SignedToken} {totpCode password : String}
    {rawCodes : List String}
    (h : Svc.Returns (confirm2fa env now token totpCode password rawCodes) db u db') :
    TokenChange op db db' := by
  simp only [confirm2fa, returns_getCurrentUser_bind, Svc.returns_get_bind,
    Svc.returns_expect_bind, Svc.returns_require_bind, returns_updateUser_bind,
    Svc.returns_modify_bind, returns_auditUser] at h
  obtain ⟨user, hs, _, _, _, _, rfl⟩ := h
  exact change_secondFactor hs (fun _ => true) (Store.get?_modify _ _ _) (fun _ _ => rfl) rfl rfl

theorem change_disable2fa {now : ℤ} {token : SignedToken} {totpCode password : String}
    (h : Svc.Returns (disable2fa env now token totpCode password) db u db') :
    TokenChange op db db' := by
  simp only [disable2fa, returns_getCurrentUser_bind, Svc.returns_get_bind,
    Svc.returns_expect_bind, Svc.returns_require_bind, returns_updateUser_bind,
    Svc.returns_modify_bind, returns_auditUser] at h
  obtain ⟨user, hs, -, _, _, _, _, rfl⟩ := h
  exact change_secondFactor hs (fun _ => false) (Store.get?_modify _ _ _)
    (fun _ hne => Function.update_of_ne hne _ _) rfl rfl

theorem change_deactivate {actor userId : ℕ} {openWork : Bool}
    (h : Svc.Returns (deactivateUser actor userId openWork) db u db') :
    TokenChange op db db' := by
  simp only [deactivateUser, Svc.returns_get_bind, Svc.returns_expect_bind,
    Svc.returns_require_bind, returns_updateUser_bind, returns_auditUser] at h
  obtain ⟨user, -, -, -, -, rfl⟩ := h
  exact ⟨rows_of_modify rfl (fun _ _ => rfl) rfl fun _ _ _ => .deactivated, .inl rfl⟩

theorem change_verifyEmail {now : ℤ} {token : SignedToken}
    (h : Svc.Returns (verifyEmail now token) db u db') : TokenChange op db db' := by
  simp only [verifyEmail, Svc.returns_get_bind, Svc.returns_expect_bind,
    Svc.returns_require_bind, returns_updateUser_bind, returns_auditUser] at h
  obtain ⟨payload, -, user, hu, hst, rfl⟩ := h
  refine ⟨rows_of_modify rfl (fun _ _ => rfl) rfl fun a d ha => ?_, .inl rfl⟩
  rw [hu] at ha
  cases ha
  exact .verified hst

theorem change_resendVerification {now : ℤ} {email : String}
    (h : Svc.Returns (resendVerification env now email) db u db') : TokenChange op db db' := by
  simp only [resendVerification, Svc.returns_get_bind, Svc.returns_expect_bind] at h
  obtain ⟨found, -, h⟩ := h
  cases found with
  | none =>
    obtain ⟨-, rfl⟩ := Svc.returns_pure.mp h
    exact .of_same rfl rfl rfl rfl
  | some row =>
    obtain ⟨-, h⟩ | ⟨-, rfl⟩ := Svc.returns_onlyIf.mp h
    · obtain rfl := Svc.returns_modify.mp h
      exact .of_same rfl rfl rfl rfl
    · exact .of_same rfl rfl rfl rfl

theorem change_requestPasswordReset {now : ℤ} {email : String}
    (h : Svc.Returns (requestPasswordReset env now email) db u db') : TokenChange op db db' := by
  simp only [requestPasswordReset, Svc.returns_get_bind, Svc.returns_expect_bind] at h
  obtain ⟨found, -, h⟩ := h
  cases found with
  | none =>
    obtain ⟨-, rfl⟩ := Svc.returns_pure.mp h
    exact .of_same rfl rfl rfl rfl
  | some row =>
    obtain ⟨-, h⟩ | ⟨-, rfl⟩ := Svc.returns_onlyIf.mp h
    · obtain rfl := returns_auditUser.mp (Svc.returns_modify_bind.mp h)
      exact .of_same rfl rfl rfl rfl
    · exact .of_same rfl rfl rfl rfl

/-- What a request does that writes no column outside `TokenDb`. -/
theorem tokenChange_of_returns (op : { op : AccountOp // op.inTokens = true })
    (h : Svc.Returns (op.val.service env) db u db') : TokenChange (.account op) db db' := by
  obtain ⟨op, hin⟩ := op
  cases op with
  | register _ => cases hin
  | requestDeletion _ _ => cases hin
  | cancelDeletion _ _ => cases hin
  | finalizeDeletion _ _ => cases hin
  | login r => exact change_login h
  | refresh now rawRefreshToken => exact change_refresh h
  | verify2fa now token totpCode => exact change_verify2fa h
  | recover2fa now token code => exact change_recover2fa h
  | confirmReset now token newHash => exact change_confirmReset h
  | logout now rawRefreshToken => exact change_logout h
  | setup2fa now token secretEnc => exact change_setup2fa h
  | confirm2fa now token totpCode password rawCodes => exact change_confirm2fa h
  | disable2fa now token totpCode password => exact change_disable2fa h
  | deactivate actor userId openWork => exact change_deactivate h
  | verifyEmail now token => exact change_verifyEmail h
  | resendVerification now email => exact change_resendVerification h
  | requestPasswordReset now email => exact change_requestPasswordReset h

/-! ## Requests that touch no row of users -/

/-- The rows of users and the sessions issued are those of `before`. -/
structure SameUsers (before after : PersonDb) : Prop where
  users : after.tokens.auth.users = before.tokens.auth.users
  secrets : after.tokens.totpSecretEnc = before.tokens.totpSecretEnc
  graces : after.tokens.deletionGraceUntil = before.tokens.deletionGraceUntil
  issued : after.tokens.issued = before.tokens.issued
  details : after.details = before.details

theorem SameUsers.user? {before after : PersonDb} (h : SameUsers before after) (id : ℕ) :
    after.user? id = before.user? id := by
  show after.tokens.userRow (after.details id) id = _
  rw [userRow_congr h.users h.secrets h.graces, h.details]
  rfl

/-- The requests on emails to be confirmed and on customers. -/
def PersonOp.spareUsers : PersonOp → Bool
  | .initiateEmailChange .. | .getProfile .. | .updateProfile .. | .updateEmailPrefs ..
  | .createWalkin .. | .updateCustomer .. | .softDeleteCustomerRow .. => true
  | _ => false

section
variable {b : PersonDb}

theorem same_write {f : PersonDb → PersonDb} (ht : ∀ db, (f db).tokens = db.tokens)
    (hd : ∀ db, (f db).details = db.details) :
    Svc.Grows (SameUsers b) (modify f : PersonService PUnit) := by
  refine Svc.grows_modify fun db h => ?_
  refine ⟨?_, ?_, ?_, ?_, ?_⟩
  · rw [ht]; exact h.users
  · rw [ht]; exact h.secrets
  · rw [ht]; exact h.graces
  · rw [ht]; exact h.issued
  · rw [hd]; exact h.details

theorem same_currentUser (now : ℤ) (token : SignedToken) :
    Svc.Grows (SameUsers b) (currentUser now token) := by
  intro db h
  unfold currentUser onTokens
  rw [Svc.exec_zoom]
  have hread : Svc.Grows (fun t : TokenDb => t = db.tokens) (getCurrentUser now token) := by
    refine Svc.grows_bind Svc.grows_get fun _ => ?_
    refine Svc.grows_bind (Svc.grows_expect _ _) fun _ => ?_
    refine Svc.grows_bind (Svc.grows_expect _ _) fun _ => ?_
    exact Svc.grows_bind (Svc.grows_require _ _) fun _ => Svc.grows_pure _
  have heq : (Svc.exec (getCurrentUser now token) db.tokens).2 = db.tokens := hread db.tokens rfl
  rw [heq]
  exact h

theorem same_auditPerson (eventType : String) (actorId : ℕ) :
    Svc.Grows (SameUsers b) (auditPerson eventType actorId) :=
  fun _ h => ⟨h.users, h.secrets, h.graces, h.issued, h.details⟩

theorem same_ensureProfileForUser (userId : ℕ) :
    Svc.Grows (SameUsers b) (ensureProfileForUser userId) := by
  refine Svc.grows_bind Svc.grows_get fun db => ?_
  refine Svc.grows_bind (Svc.grows_expect _ _) fun customer => ?_
  cases customer with
  | some row => exact Svc.grows_pure _
  | none => exact Svc.grows_bind (same_write (fun _ => rfl) fun _ => rfl) fun _ => Svc.grows_pure _

end

theorem sameUsers_of_returns {env : PersonEnv} {op : PersonOp} {db db' : PersonDb} {u : Unit}
    (hspare : op.spareUsers = true) (h : Svc.Returns (op.service env) db u db') :
    SameUsers db db' := by
  have hgrows : Svc.Grows (SameUsers db) (op.service env) := by
    cases op with
    | register _ | account _ | confirmEmailChange _ _ => cases hspare
    | requestDeletion _ _ | cancelDeletion _ _ | finalizeDeletion _ _ | sweep _ => cases hspare
    | _ =>
      simp only [PersonOp.service, TempleConsign.initiateEmailChange, TempleConsign.getProfile,
        TempleConsign.updateProfile, TempleConsign.updateEmailPrefs, TempleConsign.createWalkin,
        TempleConsign.updateCustomer, TempleConsign.softDeleteCustomerRow, updateCustomerRow]
      repeat' with_reducible first
        | exact Svc.grows_pure _
        | exact Svc.grows_get
        | exact Svc.grows_require _ _
        | exact Svc.grows_expect _ _
        | exact same_currentUser _ _
        | exact same_auditPerson _ _
        | exact same_ensureProfileForUser _
        | exact same_write (fun _ => rfl) fun _ => rfl
        | apply Svc.grows_bind
        | apply Svc.grows_onlyIf
        | split
        | intro _
  exact hgrows.returns h ⟨rfl, rfl, rfl, rfl, rfl⟩

/-! ## Deletion requests -/

section
variable {db db' : PersonDb} {now : ℤ} {token : SignedToken}


/-- The account enters its grace window. -/
def TokenDb.requested (now : ℤ) (id : ℕ) (db : TokenDb) : TokenDb :=
  { db with
    auth := { db.auth with
      users := db.auth.users.modify id fun u => { u with status := .pendingDeletion } }
    deletionGraceUntil := Function.update db.deletionGraceUntil id (some (now + days 30))
    sessions := db.sessions.modifyWhere (fun _ s => s.activeOf id) (UserSession.revoke now) }

/-- The account is active again. -/
def TokenDb.cancelled (id : ℕ) (db : TokenDb) : TokenDb :=
  { db with
    auth := { db.auth with
      users := db.auth.users.modify id fun u => { u with status := .active } }
    deletionGraceUntil := Function.update db.deletionGraceUntil id none }

def PersonDb.requested (now : ℤ) (id : ℕ) (db : PersonDb) : PersonDb :=
  { db with
    tokens := db.tokens.requested now id
    details := Function.update db.details id
      { db.details id with deletionRequestedAt := some now } }

def PersonDb.cancelled (id : ℕ) (db : PersonDb) : PersonDb :=
  { db with
    tokens := db.tokens.cancelled id
    details := Function.update db.details id { db.details id with deletionRequestedAt := none } }

theorem graceRunning_iff {db : TokenDb} {id : ℕ} {user : Account}
    (h : db.account? id = some user) : db.graceRunning id = true ↔
      user.status = .pendingDeletion ∧ db.deletionGraceUntil id ≠ none := by
  simp [TokenDb.graceRunning, h, Option.isSome_iff_ne_none]

theorem returns_requestDeletion {db db' : TokenDb} :
    Svc.Returns (requestDeletion now token) db u db' ↔
      (∃ user, SignedIn db now token user) ∧
        db' = if db.graceRunning token.sub then db else db.requested now token.sub := by
  simp only [requestDeletion, returns_getCurrentUser_bind, Svc.returns_get_bind,
    Svc.returns_require_bind, Svc.returns_onlyIf]
  constructor
  · rintro ⟨user, hs, -, ⟨hno, h⟩ | ⟨hrun, rfl⟩⟩
    · rw [if_neg fun hr => hno ((graceRunning_iff hs.account).mp hr)]
      exact ⟨⟨user, hs⟩, (Svc.returns_modify.mp h).symm⟩
    · rw [if_pos ((graceRunning_iff hs.account).mpr (not_not.mp hrun))]
      exact ⟨⟨user, hs⟩, rfl⟩
  · rintro ⟨⟨user, hs⟩, rfl⟩
    have hdel : user.status ≠ .deleted := by
      rcases hs.status with h | h
      · rw [h]; decide
      · rw [h]; decide
    refine ⟨user, hs, hdel, ?_⟩
    by_cases hrun : db.graceRunning token.sub = true
    · rw [if_pos hrun]
      exact .inr ⟨not_not.mpr ((graceRunning_iff hs.account).mp hrun), rfl⟩
    · rw [if_neg hrun]
      exact .inl ⟨fun hr => hrun ((graceRunning_iff hs.account).mpr hr), rfl⟩

theorem returns_requestAccountDeletion :
    Svc.Returns (requestAccountDeletion now token) db u db' ↔
      (∃ user, SignedIn db.tokens now token user) ∧
        db' = if db.tokens.graceRunning token.sub then db else db.requested now token.sub := by
  simp only [requestAccountDeletion, Svc.returns_get_bind, returns_onTokens_bind,
    returns_requestDeletion, Svc.returns_onlyIf, updateDetails, Svc.returns_modify]
  by_cases hrun : db.tokens.graceRunning token.sub = true
  · simp only [hrun, if_true, Bool.true_eq_false, false_and, not_false_eq_true, true_and, false_or]
    constructor
    · rintro ⟨_, _, ⟨hs, rfl⟩, rfl⟩
      exact ⟨hs, rfl⟩
    · rintro ⟨hs, rfl⟩
      exact ⟨(), _, ⟨hs, rfl⟩, rfl⟩
  · simp only [Bool.not_eq_true] at hrun
    simp only [hrun, Bool.false_eq_true, if_false, not_true_eq_false, false_and, true_and,
      or_false]
    constructor
    · rintro ⟨_, _, ⟨hs, rfl⟩, rfl⟩
      exact ⟨hs, rfl⟩
    · rintro ⟨hs, rfl⟩
      exact ⟨(), _, ⟨hs, rfl⟩, rfl⟩

theorem returns_cancelAccountDeletion :
    Svc.Returns (cancelAccountDeletion now token) db u db' ↔
      (∃ user, SignedIn db.tokens now token user ∧ user.status = .pendingDeletion) ∧
        db' = db.cancelled token.sub := by
  simp only [cancelAccountDeletion, returns_onTokens_bind, cancelDeletion,
    returns_getCurrentUser_bind, Svc.returns_require_bind, updateDetails, Svc.returns_modify]
  constructor
  · rintro ⟨_, t, ⟨user, hs, hp, h⟩, rfl⟩
    cases h
    exact ⟨⟨user, hs, hp⟩, rfl⟩
  · rintro ⟨⟨user, hs, hp⟩, rfl⟩
    exact ⟨(), db.tokens.cancelled token.sub, ⟨user, hs, hp, rfl⟩, rfl⟩

end

/-! ## Erasure -/

section
variable {db db' : PersonDb} {now : ℤ} {id : ℕ}

/-- What the service writes to the row of a user. -/
def PersonDb.scrubUser (id : ℕ) (db : PersonDb) : PersonDb :=
  { db with
    tokens := { db.tokens with
      auth := { db.tokens.auth with
        users := db.tokens.auth.users.modify id fun u => { u with
          email := scrubbedEmail id, passwordHash := none, totpEnabled := false,
          status := .deleted } }
      totpSecretEnc := Function.update db.tokens.totpSecretEnc id none
      deletionGraceUntil := Function.update db.tokens.deletionGraceUntil id none }
    details := Function.update db.details id (db.details id).finalized }

theorem user?_scrubUser (db : PersonDb) (id k : ℕ) :
    (db.scrubUser id).user? k = if k = id then (db.user? k).map (UserRow.scrubbed k)
      else db.user? k := by
  simp only [PersonDb.user?, PersonDb.scrubUser, TokenDb.account?, Store.get?_modify]
  by_cases hk : k = id
  · subst hk
    simp only [if_true, Function.update_self, Option.map_map]
    rfl
  · simp only [if_neg hk, Function.update_of_ne hk]

/-- What the service writes to the customer row of the user. -/
def PersonDb.scrubCustomer (now : ℤ) (customer : Option (ℕ × CustomerRow)) (db : PersonDb) :
    PersonDb :=
  match customer with
  | some (k, _) => { db with customers := db.customers.modify k (CustomerRow.finalized now) }
  | none => db

@[simp] theorem scrubCustomer_tokens {customer : Option (ℕ × CustomerRow)} :
    (db.scrubCustomer now customer).tokens = db.tokens := by
  cases customer <;> rfl

@[simp] theorem scrubCustomer_user? {customer : Option (ℕ × CustomerRow)} (k : ℕ) :
    (db.scrubCustomer now customer).user? k = db.user? k := by
  cases customer <;> rfl

theorem returns_finalizeDeletion {t t' : TokenDb} {scrubbed : String} {user : Account}
    (hget : t.account? id = some user) (hst : user.status ≠ .deleted) :
    Svc.Returns (finalizeDeletion id scrubbed) t u t' ↔
      t' = { t with
        auth := { t.auth with
          users := t.auth.users.modify id fun u => { u with
            email := scrubbed, passwordHash := none, totpEnabled := false, status := .deleted } }
        totpSecretEnc := Function.update t.totpSecretEnc id none
        deletionGraceUntil := Function.update t.deletionGraceUntil id none } := by
  simp only [finalizeDeletion, Svc.returns_get_bind, Svc.returns_expect_bind, Svc.returns_onlyIf,
    returns_updateUser_bind, Svc.returns_modify, hget, Option.some.injEq, exists_eq_left', hst,
    ne_eq, not_false_eq_true, true_and, not_true_eq_false, false_and, or_false]
  exact eq_comm

/-- The two updates of `users`, when the account is not deleted yet. -/
theorem returns_scrubUser {user : Account} (hget : db.tokens.account? id = some user)
    (hst : user.status ≠ .deleted) :
    Svc.Returns (do
      onTokens (finalizeDeletion id (scrubbedEmail id))
      updateDetails id UserDetails.finalized) db u db' ↔ db.scrubUser id = db' := by
  simp only [returns_onTokens_bind, returns_finalizeDeletion hget hst, updateDetails,
    Svc.returns_modify]
  constructor
  · rintro ⟨_, _, rfl, rfl⟩
    rfl
  · rintro rfl
    exact ⟨(), _, rfl, rfl⟩

theorem returns_finalizeDeletionForUser :
    Svc.Returns (finalizeDeletionForUser now id) db u db' ↔
      ∃ user, db.tokens.account? id = some user ∧
        (user.status = .deleted ∧ db = db' ∨ user.status ≠ .deleted ∧
          ∃ customer, Store.scalarOneOrNone (db.customersOf id) = some customer ∧
            (db.scrubCustomer now customer).scrubUser id = db') := by
  simp only [finalizeDeletionForUser, Svc.returns_get_bind, Svc.returns_expect_bind,
    Svc.returns_onlyIf]
  refine exists_congr fun user => and_congr_right fun hget => ?_
  by_cases hst : user.status = .deleted
  · simp [hst]
  · simp only [hst, not_false_eq_true, ne_eq, true_and, not_true_eq_false, false_and, or_false,
      false_or]
    refine exists_congr fun customer => and_congr_right fun _ => ?_
    cases customer with
    | none => exact returns_scrubUser hget hst
    | some row => exact Svc.returns_modify_bind.trans (returns_scrubUser hget hst)

theorem sweepAccount_eq (now : ℤ) (db : PersonDb) (id : ℕ) :
    db.sweepAccount now id = { db with
      customers := db.customers.modifyWhere (fun _ c => c.userId = some id)
        (CustomerRow.swept now) }.scrubUser id :=
  rfl

theorem user?_sweepAccount (now : ℤ) (db : PersonDb) (id k : ℕ) :
    (db.sweepAccount now id).user? k = if k = id then (db.user? k).map (UserRow.scrubbed k)
      else db.user? k := by
  rw [sweepAccount_eq, user?_scrubUser]
  rfl

/-- The sweep scrubs the rows it selected and no other. -/
theorem user?_fnDeleteExpiredAccounts (now : ℤ) (db : PersonDb) (k : ℕ) :
    (db.fnDeleteExpiredAccounts now).user? k =
      if k ∈ db.expired now then (db.user? k).map (UserRow.scrubbed k) else db.user? k := by
  unfold PersonDb.fnDeleteExpiredAccounts
  generalize db.expired now = ids
  induction ids generalizing db with
  | nil => simp
  | cons id ids ih =>
    rw [List.foldl_cons, ih, user?_sweepAccount]
    by_cases hk : k = id
    · subst hk
      simp only [if_true, List.mem_cons, true_or, Option.map_map]
      split_ifs
      · rfl
      · rfl
    · simp only [List.mem_cons, hk, false_or, if_false]

theorem issued_fnDeleteExpiredAccounts (now : ℤ) (db : PersonDb) :
    (db.fnDeleteExpiredAccounts now).tokens.issued = db.tokens.issued := by
  unfold PersonDb.fnDeleteExpiredAccounts
  generalize db.expired now = ids
  induction ids generalizing db with
  | nil => rfl
  | cons id ids ih => exact ih (db.sweepAccount now id)

end

/-! ## Every request -/

section
variable {env : PersonEnv} {op : PersonOp} {db db' : PersonDb} {u : Unit}

/-- What a request may change; a new row is unverified. -/
structure PersonChange (op : PersonOp) (db db' : PersonDb) : Prop where
  rows : ∀ id, Option.Rel (RowChange op id) (db.user? id) (db'.user? id) ∨
    db.user? id = none ∧ ∃ row, db'.user? id = some row ∧ row.status = .pendingVerification
  issued : IssuesAllowed op db.tokens db'.tokens

theorem PersonChange.of_rows
    (hrows : ∀ id, Option.Rel (RowChange op id) (db.user? id) (db'.user? id))
    (hi : db'.tokens.issued = db.tokens.issued) : PersonChange op db db' :=
  ⟨fun id => .inl (hrows id), .inl hi⟩

/-- The row of `id` changes by `f`. -/
theorem PersonChange.of_user? (id : ℕ) (f : UserRow → UserRow)
    (hget : ∀ k, db'.user? k = if k = id then (db.user? k).map f else db.user? k)
    (hf : ∀ row, db.user? id = some row → RowChange op id row (f row))
    (hi : db'.tokens.issued = db.tokens.issued) : PersonChange op db db' := by
  refine .of_rows (fun k => ?_) hi
  rw [hget]
  by_cases hk : k = id
  · subst hk
    rw [if_pos rfl]
    cases hrow : db.user? k with
    | none => exact .none
    | some row => exact .some (hf row hrow)
  · rw [if_neg hk]
    exact rel_refl k _

theorem returns_auditPerson {eventType : String} {actorId : ℕ} :
    Svc.Returns (auditPerson eventType actorId) db u db' ↔
      { db with tokens := db.tokens.audited eventType actorId } = db' :=
  Svc.returns_modify

theorem personChange_register {r : Registration} (h : Svc.Returns (registerUser env r) db u db') :
    PersonChange op db db' := by
  simp only [registerUser, Svc.returns_get_bind, Svc.returns_expect_bind,
    Svc.returns_require_bind, returns_onTokens_bind, updateDetails, Svc.returns_modify_bind,
    returns_auditPerson] at h
  obtain ⟨existing, -, -, -, _, t1, hcreate, _, t2, hsign, rfl⟩ := h
  obtain ⟨auth, hauth, rfl⟩ := Svc.returns_zoom.mp hcreate
  simp only [createAccount, Svc.returns_get_bind, Svc.returns_require_bind,
    Svc.returns_modify] at hauth
  obtain ⟨-, rfl⟩ := hauth
  obtain rfl := Svc.returns_modify.mp hsign
  refine ⟨fun id => ?_, .inl rfl⟩
  simp only [PersonDb.user?, TokenDb.account?, TokenDb.audited, Store.get?_create]
  by_cases hid : id = db.tokens.auth.users.next
  · subst hid
    rw [if_pos rfl, Store.get?_next]
    exact .inr ⟨rfl, _, rfl, rfl⟩
  · rw [if_neg hid, Function.update_of_ne hid]
    exact .inl (rel_refl id _)

theorem personChange_confirmEmailChange {now : ℤ} {token : ChangeEmailToken}
    (h : Svc.Returns (confirmEmailChange now token) db u db') :
    PersonChange (.confirmEmailChange now token) db db' := by
  simp only [confirmEmailChange, Svc.returns_get_bind, Svc.returns_expect_bind,
    Svc.returns_require_bind, returns_onTokens_bind, returns_auditPerson] at h
  obtain ⟨-, _, -, -, _, -, -, _, t1, hmail, _, t2, hrevoke, rfl⟩ := h
  obtain rfl := Svc.returns_modify.mp hmail
  obtain ⟨t, -, rfl⟩ := returns_onSessions.mp hrevoke
  refine .of_user? token.sub (fun row => { row with email := token.newEmail })
    (fun k => ?_) (fun row _ => .emailChanged now token rfl rfl) rfl
  simp only [PersonDb.user?, TokenDb.account?, TokenDb.audited, Store.get?_modify]
  split_ifs
  · rw [Option.map_map, Option.map_map]
    rfl
  · rfl

theorem personChange_requested {now : ℤ} {token : SignedToken} {user : Account}
    (hs : SignedIn db.tokens now token user) :
    PersonChange op db (db.requested now token.sub) := by
  refine .of_user? token.sub (fun row => { row with
      status := .pendingDeletion
      deletionGraceUntil := some (now + days 30)
      details := { row.details with deletionRequestedAt := some now } })
    (fun k => ?_) (fun row hrow => .requested now ?_) rfl
  · simp only [PersonDb.user?, PersonDb.requested, TokenDb.requested, TokenDb.account?,
      Store.get?_modify]
    by_cases hk : k = token.sub
    · subst hk
      simp only [if_true, Function.update_self, Option.map_map]
      rfl
    · simp only [if_neg hk, Function.update_of_ne hk]
  · have hstatus := hs.status
    unfold PersonDb.user? at hrow
    rw [hs.account] at hrow
    cases hrow
    exact hstatus

theorem personChange_cancelled {now : ℤ} {token : SignedToken} {user : Account}
    (hs : SignedIn db.tokens now token user) (hp : user.status = .pendingDeletion) :
    PersonChange op db (db.cancelled token.sub) := by
  refine .of_user? token.sub (fun row => { row with
      status := .active
      deletionGraceUntil := none
      details := { row.details with deletionRequestedAt := none } })
    (fun k => ?_) (fun row hrow => .cancelled ?_) rfl
  · simp only [PersonDb.user?, PersonDb.cancelled, TokenDb.cancelled, TokenDb.account?,
      Store.get?_modify]
    by_cases hk : k = token.sub
    · subst hk
      simp only [if_true, Function.update_self, Option.map_map]
      rfl
    · simp only [if_neg hk, Function.update_of_ne hk]
  · unfold PersonDb.user? at hrow
    rw [hs.account] at hrow
    cases hrow
    exact hp

theorem personChange_refl (op : PersonOp) (db : PersonDb) : PersonChange op db db :=
  .of_rows (fun id => rel_refl id _) rfl

/-- What any request does to the rows of users. -/
theorem personChange_of_returns (h : Svc.Returns (op.service env) db u db') :
    PersonChange op db db' := by
  cases hspare : op.spareUsers with
  | true =>
    have hsame := sameUsers_of_returns hspare h
    refine .of_rows (fun id => ?_) hsame.issued
    rw [hsame.user?]
    exact rel_refl id _
  | false =>
    cases op with
    | register r => exact personChange_register h
    | account op =>
      obtain ⟨t, hret, rfl⟩ := returns_onTokens.mp h
      have hchange := tokenChange_of_returns op hret
      exact ⟨fun id => .inl (hchange.rows (db.details id) id), hchange.issued⟩
    | confirmEmailChange now token => exact personChange_confirmEmailChange h
    | requestDeletion now token =>
      obtain ⟨⟨user, hs⟩, rfl⟩ := returns_requestAccountDeletion.mp h
      split_ifs
      · exact personChange_refl _ db
      · exact personChange_requested hs
    | cancelDeletion now token =>
      obtain ⟨⟨user, hs, hp⟩, rfl⟩ := returns_cancelAccountDeletion.mp h
      exact personChange_cancelled hs hp
    | finalizeDeletion now id =>
      obtain ⟨user, hget, ⟨-, rfl⟩ | ⟨-, customer, -, rfl⟩⟩ :=
        returns_finalizeDeletionForUser.mp h
      · exact personChange_refl _ db
      · refine .of_user? id (UserRow.scrubbed id) (fun k => ?_)
          (fun _ _ => .scrubbed) ?_
        · rw [user?_scrubUser, scrubCustomer_user?]
          split_ifs with hk
          · rw [hk]
          · rfl
        · show (db.scrubCustomer now customer).tokens.issued = _
          rw [scrubCustomer_tokens]
    | sweep now =>
      obtain rfl := Svc.returns_modify.mp h
      refine .of_rows (fun k => ?_) (issued_fnDeleteExpiredAccounts now db)
      rw [user?_fnDeleteExpiredAccounts]
      split_ifs
      · cases db.user? k with
        | none => exact .none
        | some row => exact .some .scrubbed
      · exact rel_refl k _
    | _ => cases hspare

/-- What one step does: a request that is rolled back changes nothing. -/
theorem personStep_change (env : PersonEnv) (db : PersonDb) (op : PersonOp) :
    PersonChange op db (personStep env db op) := by
  obtain ⟨u, hret⟩ | heq := personStep_cases env db op
  · exact personChange_of_returns hret
  · rw [heq]
    exact personChange_refl op db

end

end TempleConsign
