import TempleConsign.DisabledAccounts
import TempleConsign.Lib.ReadCommitted

/-!
# One-time authenticators

`recover_2fa` and `confirm_password_reset` as transactions at READ COMMITTED,
among all other requests on accounts. A recovery reads its code without locking
it and then marks it used by primary key; a password reset checks the signature
and the expiry of its token and leaves no trace that the token was used.

Results:
* `recover_alone`, `reset_alone`: an undisturbed transaction is the service.
* `codes_service`: no request makes a used code usable again.
* `one_time_iff`: a run uses each recovery code and each reset token at most once
  exactly when no recovery commits after another one of its code since it read
  the code, and no reset token is confirmed a second time.
-/

namespace TempleConsign

open ServiceLib

/-! ## The transactions -/

/-- The database, with the recovery codes of the logins completed so far and the
    tokens of the password resets, in the order of their commits. -/
structure OneTimeDb where
  tokens : TokenDb
  recovered : List ℕ
  resets : List SignedToken

def OneTimeDb.empty : OneTimeDb := ⟨TokenDb.empty, [], []⟩

/-- A row lock. -/
inductive TokenRow
  | user (id : ℕ)
  | code (id : ℕ)
  | session (id : ℕ)
  deriving DecidableEq

inductive OneTimeCall
  | recover (now : ℤ) (partialToken : SignedToken) (recoveryCode : String)
  | reset (now : ℤ) (token : SignedToken) (newHash : String)
  /-- Any other request on accounts. -/
  | other (op : AccountOp)

inductive OneTimePoint
  | recover (now : ℤ) (partialToken : SignedToken) (recoveryCode : String)
  /-- The `SELECT` found the unused code `recovery`; `seen` counts the recoveries
      committed by then, which no code reads. -/
  | recovering (now : ℤ) (partialToken : SignedToken) (recovery seen : ℕ)
  | consumed (now : ℤ) (partialToken : SignedToken) (recovery seen : ℕ)
  | completed (recovery seen : ℕ)
  | reset (now : ℤ) (token : SignedToken) (newHash : String)
  | resetting (now : ℤ) (token : SignedToken) (newHash : String) (user : Account)
  | revoking (now : ℤ) (token : SignedToken)
  | changed (token : SignedToken)
  | other (op : AccountOp)
  | finished (op : AccountOp)

/-- The `UPDATE` of `confirm_password_reset`: the columns that differ from the
    row it loaded. -/
def Account.resetTo (newHash : String) (loaded current : Account) : Account :=
  { current with
    passwordHash := some newHash
    failedLoginCount := if loaded.failedLoginCount = 0 then current.failedLoginCount else 0
    lockedUntil := if loaded.lockedUntil = none then current.lockedUntil else none
    status := match loaded.status with
      | .locked | .pendingVerification => .active
      | _ => current.status }

def TokenDb.changePassword (userId : ℕ) (newHash : String) (loaded : Account) (db : TokenDb) :
    TokenDb :=
  { db with auth := { db.auth with
      users := db.auth.users.modify userId (loaded.resetTo newHash) } }.audited
    "user.password_reset_confirmed" userId

/-- The `UPDATE` of each session that `revoke_all_for_user` has found. -/
def TokenDb.revokeSessions (now : ℤ) (ids : List ℕ) (db : TokenDb) : TokenDb :=
  { db with sessions := ids.foldl (fun t id => t.modify id (UserSession.revoke now)) db.sessions }

/-- The sessions that `revoke_all_for_user` finds. -/
def TokenDb.activeSessions (userId : ℕ) (db : TokenDb) : List ℕ :=
  (db.sessions.select fun _ s => s.activeOf userId).map Prod.fst

/-- The recovery codes that a request deletes. -/
def AccountOp.deletes (db : TokenDb) : AccountOp → List ℕ
  | .confirm2fa _ token _ _ _ | .disable2fa _ token _ _ =>
    (db.recoveryCodes.select fun _ c => c.userId = token.sub).map Prod.fst
  | _ => []

/-- The requests that have a program of their own. -/
def AccountOp.isOneTime : AccountOp → Bool
  | .recover2fa _ _ _ | .confirmReset _ _ _ => true
  | _ => false

def oneTimeStmt (env : TokenEnv) : OneTimePoint → OneTimeDb → Stmt OneTimeDb TokenRow OneTimePoint
  | .recover now token recoveryCode, s =>
    match s.tokens.decodeToken now token .partialLogin with
    | none => .rollback
    | some payload =>
      match Store.scalarOneOrNone (s.tokens.recoveryCodes.select
        (isUnusedCode payload.sub (env.hashRecoveryCode recoveryCode))) with
      | some (some (recovery, _)) =>
        .goOn [] id (.recovering now payload recovery s.recovered.length)
      | _ => .rollback
  | .recovering now token recovery seen, s =>
    -- an `UPDATE` that finds its row deleted raises
    if (s.tokens.recoveryCodes.get? recovery).isSome then
      .goOn [.code recovery] (fun s => { s with tokens := s.tokens.consume now recovery token.sub })
        (.consumed now token recovery seen)
    else .rollback
  | .consumed now token recovery seen, s =>
    if (s.tokens.account? token.sub).isSome then
      .goOn [] (fun s =>
        { s with
          tokens := s.tokens.loggedIn now token.sub
          recovered := s.recovered ++ [recovery] })
        (.completed recovery seen)
    else .rollback
  | .completed _ _, _ => .commit
  | .reset now token newHash, s =>
    match s.tokens.decodeToken now token .resetPassword with
    | none => .rollback
    | some payload =>
      match s.tokens.account? payload.sub with
      | none => .rollback
      | some user => .goOn [] id (.resetting now payload newHash user)
  | .resetting now token newHash user, _ =>
    .goOn [.user token.sub]
      (fun s => { s with tokens := s.tokens.changePassword token.sub newHash user })
      (.revoking now token)
  | .revoking now token, s =>
    let ids := s.tokens.activeSessions token.sub
    .goOn (ids.map .session)
      (fun s => { s with tokens := s.tokens.revokeSessions now ids, resets := s.resets ++ [token] })
      (.changed token)
  | .changed _, _ => .commit
  | .other op, s =>
    if op.isOneTime then .rollback
    else .goOn ((op.deletes s.tokens).map .code)
      (fun s => { s with tokens := accountStep env s.tokens op }) (.finished op)
  | .finished _, _ => .commit

def oneTimeProgram (env : TokenEnv) : Program OneTimeDb TokenRow OneTimeCall OneTimePoint where
  entry
    | .recover now token recoveryCode => .recover now token recoveryCode
    | .reset now token newHash => .reset now token newHash
    | .other op => .other op
  stmt := oneTimeStmt env

abbrev OneTimeTxn := Txn OneTimeDb TokenRow OneTimePoint

/-- One event of the concurrent requests. -/
abbrev oneTimeStep (env : TokenEnv) := rcStep (oneTimeProgram env)

/-! ## A transaction alone -/

variable {env : TokenEnv}

/-- Undisturbed, the transaction of a recovery is `recover_2fa`. -/
theorem recover_alone {now : ℤ} {token : SignedToken} {recoveryCode : String} {db db' : TokenDb}
    {u : Unit} (h : Svc.Returns (recover2fa env now token recoveryCode) db u db') :
    (run (oneTimeStep env) (Rc.init ⟨db, [], []⟩)
      (.start (.recover now token recoveryCode) :: List.replicate 4 (.exec 0))).committed.tokens =
      db' := by
  obtain ⟨recovery, ⟨user, hcan⟩, rfl⟩ := returns_recover2fa.mp h
  obtain ⟨hd, ⟨c, hc⟩, hu⟩ := hcan
  have hget : db.recoveryCodes.get? recovery = some c :=
    (Store.scalar_select_some_iff.mp hc).1.1
  have h0 := alone_start (oneTimeProgram env) ⟨db, [], []⟩ (.recover now token recoveryCode)
  have s1 : oneTimeStmt env (.recover now token recoveryCode) ⟨db, [], []⟩ =
      .goOn [] id (.recovering now token recovery 0) := by
    simp only [oneTimeStmt, hd, hc]
    rfl
  have h1 := h0.goOn (p := oneTimeProgram env) s1
  have s2 : oneTimeStmt env (.recovering now token recovery 0) ⟨db, [], []⟩ =
      .goOn [.code recovery] (fun s => { s with tokens := s.tokens.consume now recovery token.sub })
        (.consumed now token recovery 0) := by
    simp only [oneTimeStmt, hget, Option.isSome_some, if_true]
  have h2 := h1.goOn (p := oneTimeProgram env) s2
  have hu' : (db.consume now recovery token.sub).account? token.sub = some user := hu
  have s3 : oneTimeStmt env (.consumed now token recovery 0)
      ⟨db.consume now recovery token.sub, [], []⟩ =
      .goOn [] (fun s =>
        { s with
          tokens := s.tokens.loggedIn now token.sub
          recovered := s.recovered ++ [recovery] })
        (.completed recovery 0) := by
    simp only [oneTimeStmt, hu', Option.isSome_some, if_true]
  have h3 := h2.goOn (p := oneTimeProgram env) s3
  simp only [run_cons, run_nil, List.replicate, oneTimeStep]
  rw [h3.commit (p := oneTimeProgram env) rfl]
  rfl

/-- On the row it loaded the `UPDATE` writes what the service assigned. -/
theorem resetTo_self (newHash : String) (user : Account) :
    user.resetTo newHash user = { user with
      passwordHash := some newHash
      failedLoginCount := 0
      lockedUntil := none
      status := match user.status with
        | .locked | .pendingVerification => .active
        | s => s } := by
  have hcount : (if user.failedLoginCount = 0 then user.failedLoginCount else 0) = 0 := by
    split_ifs with h
    · exact h
    · rfl
  have hlock : (if user.lockedUntil = none then user.lockedUntil else none) = none := by
    split_ifs with h
    · exact h
    · rfl
  unfold Account.resetTo
  rw [hcount, hlock]
  cases user.status <;> rfl

/-- What `confirm_password_reset` checks and writes. -/
theorem returns_confirmReset {now : ℤ} {token : SignedToken} {newHash : String} {db db' : TokenDb}
    {u : Unit} (h : Svc.Returns (confirmReset now token newHash) db u db') :
    ∃ user, db.decodeToken now token .resetPassword = some token ∧
      db.account? token.sub = some user ∧
      (db.changePassword token.sub newHash user).revokeSessions now (db.activeSessions token.sub) =
        db' := by
  simp only [confirmReset, Svc.returns_get_bind, Svc.returns_expect_bind] at h
  obtain ⟨payload, hd, h⟩ := h
  obtain ⟨-, rfl⟩ := decodeToken_eq_some.mp hd
  rw [Svc.returns_bind] at h
  obtain ⟨_, db1, h1, h2⟩ := h
  obtain ⟨auth, hauth, rfl⟩ := Svc.returns_zoom.mp h1
  obtain ⟨sessions, hs, rfl⟩ := Svc.returns_zoom.mp h2
  obtain rfl := Svc.returns_modify.mp hs
  simp only [confirmPasswordReset, Svc.returns_expect_bind, Svc.returns_get_bind,
    Svc.returns_modify_bind, auditLogin, Svc.returns_modify] at hauth
  obtain ⟨id, hid, user, hu, rfl⟩ := hauth
  cases hid
  refine ⟨user, hd, hu, ?_⟩
  have husers : db.auth.users.modify token.sub (user.resetTo newHash) =
      db.auth.users.modify token.sub fun u => { u with
        passwordHash := some newHash
        failedLoginCount := 0
        lockedUntil := none
        status := match u.status with
          | .locked | .pendingVerification => .active
          | s => s } := by
    apply Store.modify_congr
    intro r hr
    rw [hu] at hr
    cases hr
    exact resetTo_self newHash user
  have hsessions : (db.activeSessions token.sub).foldl
      (fun t id => t.modify id (UserSession.revoke now)) db.sessions =
      db.sessions.modifyWhere (fun _ s => s.activeOf token.sub) (UserSession.revoke now) := by
    unfold TokenDb.activeSessions Store.modifyWhere
    rw [List.foldl_map]
  unfold TokenDb.changePassword TokenDb.revokeSessions TokenDb.audited
  dsimp only
  rewrite [husers, hsessions]
  rfl

/-- Undisturbed, the transaction of a password reset is `confirm_password_reset`. -/
theorem reset_alone {now : ℤ} {token : SignedToken} {newHash : String} {db db' : TokenDb}
    {u : Unit} (h : Svc.Returns (confirmReset now token newHash) db u db') :
    (run (oneTimeStep env) (Rc.init ⟨db, [], []⟩)
      (.start (.reset now token newHash) :: List.replicate 4 (.exec 0))).committed.tokens =
        db' := by
  obtain ⟨user, hd, hu, rfl⟩ := returns_confirmReset h
  have h0 := alone_start (oneTimeProgram env) ⟨db, [], []⟩ (.reset now token newHash)
  have s1 : oneTimeStmt env (.reset now token newHash) ⟨db, [], []⟩ =
      .goOn [] id (.resetting now token newHash user) := by
    simp only [oneTimeStmt, hd, hu]
  have h1 := h0.goOn (p := oneTimeProgram env) s1
  have h2 := h1.goOn (p := oneTimeProgram env) rfl
  have h3 := h2.goOn (p := oneTimeProgram env) rfl
  simp only [run_cons, run_nil, List.replicate, oneTimeStep]
  rw [h3.commit (p := oneTimeProgram env) rfl]
  rfl

/-! ## Used codes stay used -/

/-- There have been `m` codes or more, and those in `l` exist no longer or are
    used. -/
def CodesKept (l : List ℕ) (m : ℕ) (t : Store TotpRecoveryCode) : Prop :=
  m ≤ t.next ∧ ∀ id ∈ l, id < t.next ∧ ∀ c, t.get? id = some c → c.usedAt ≠ none

/-- The same of the codes of a database. -/
def CodesKeptIn (l : List ℕ) (m : ℕ) (db : TokenDb) : Prop := CodesKept l m db.recoveryCodes

section
variable {l : List ℕ} {m : ℕ}

theorem CodesKept.of_rows {t t' : Store TotpRecoveryCode} (h : CodesKept l m t)
    (hnext : t.next ≤ t'.next)
    (hrow : ∀ id, id < t.next → ∀ c', t'.get? id = some c' →
      ∃ c, t.get? id = some c ∧ (c.usedAt ≠ none → c'.usedAt ≠ none)) : CodesKept l m t' := by
  refine ⟨le_trans h.1 hnext, fun id hid => ?_⟩
  obtain ⟨hlt, hused⟩ := h.2 id hid
  refine ⟨lt_of_lt_of_le hlt hnext, fun c' hc' => ?_⟩
  obtain ⟨c, hc, hkeep⟩ := hrow id hlt c' hc'
  exact hkeep (hused c hc)

theorem CodesKept.delete {t : Store TotpRecoveryCode} (h : CodesKept l m t)
    (p : ℕ → TotpRecoveryCode → Bool) : CodesKept l m (t.deleteWhere p) :=
  h.of_rows (le_refl _) fun _ _ c' hc' => ⟨c', (Store.get?_deleteWhere.mp hc').1, fun hu => hu⟩

theorem CodesKept.create {t : Store TotpRecoveryCode} (h : CodesKept l m t)
    (c : TotpRecoveryCode) : CodesKept l m (t.create c) := by
  apply h.of_rows
  · rw [Store.create_next]
    omega
  · intro id hid c' hc'
    rw [Store.get?_create, if_neg (by omega)] at hc'
    exact ⟨c', hc', fun hu => hu⟩

theorem CodesKept.createAll {α : Type} {t : Store TotpRecoveryCode} (h : CodesKept l m t)
    (f : α → TotpRecoveryCode) (rows : List α) :
    CodesKept l m (rows.foldl (fun t a => t.create (f a)) t) := by
  induction rows generalizing t with
  | nil => exact h
  | cons a rows ih => exact ih (h.create (f a))

theorem CodesKept.use {t : Store TotpRecoveryCode} (h : CodesKept l m t) (now : ℤ)
    (recovery : ℕ) : CodesKept l m (t.modify recovery fun c => { c with usedAt := some now }) := by
  apply h.of_rows
  · rw [Store.modify_next]
  · intro id _ c' hc'
    rw [Store.get?_modify] at hc'
    split_ifs at hc'
    · obtain ⟨c, hget, rfl⟩ := Option.map_eq_some_iff.mp hc'
      exact ⟨c, hget, fun _ => Option.some_ne_none now⟩
    · exact ⟨c', hc', fun hu => hu⟩

theorem codes_write {f : TokenDb → TokenDb}
    (hf : ∀ db, (f db).recoveryCodes = db.recoveryCodes) :
    Svc.Grows (CodesKeptIn l m) (modify f : TokenService PUnit) := by
  refine Svc.grows_modify fun db h => ?_
  unfold CodesKeptIn
  rw [hf]
  exact h

theorem codes_use (now : ℤ) (recovery : ℕ) :
    Svc.Grows (CodesKeptIn l m) (modify fun db => { db with
      recoveryCodes := db.recoveryCodes.modify recovery fun c => { c with usedAt := some now } } :
      TokenService PUnit) :=
  Svc.grows_modify fun _ h => CodesKept.use h now recovery

theorem codes_renew (userId : ℕ) (f : String → TotpRecoveryCode) (rawCodes : List String) :
    Svc.Grows (CodesKeptIn l m) (modify fun db => { db with
      recoveryCodes := rawCodes.foldl (fun t code => t.create (f code))
        (db.recoveryCodes.deleteWhere fun _ c => c.userId = userId) } : TokenService PUnit) :=
  Svc.grows_modify fun _ h => (CodesKept.delete h _).createAll f rawCodes

theorem codes_drop (userId : ℕ) :
    Svc.Grows (CodesKeptIn l m) (modify fun db => { db with
      totpSecretEnc := Function.update db.totpSecretEnc userId none
      recoveryCodes := db.recoveryCodes.deleteWhere fun _ c => c.userId = userId } :
      TokenService PUnit) :=
  Svc.grows_modify fun _ h => CodesKept.delete h _

theorem codes_signToken (t : SignedToken) : Svc.Grows (CodesKeptIn l m) (signToken t) :=
  codes_write fun _ => rfl

theorem codes_onAuth {α : Type} (n : AuthService α) : Svc.Grows (CodesKeptIn l m) (onAuth n) := by
  intro db h
  unfold onAuth
  rw [Svc.exec_zoom]
  exact h

theorem codes_onSessions {α : Type} (n : SessionService α) :
    Svc.Grows (CodesKeptIn l m) (onSessions n) := by
  intro db h
  unfold onSessions
  rw [Svc.exec_zoom]
  exact h

theorem codes_complete2faLogin (now : ℤ) (userId : ℕ) :
    Svc.Grows (CodesKeptIn l m) (complete2faLogin now userId) := by
  intro db h
  rw [exec_complete2faLogin]
  exact h

theorem codes_createAccessToken (now : ℤ) (userId : ℕ) :
    Svc.Grows (CodesKeptIn l m) (createAccessToken now userId) := by
  intro db h
  rw [exec_createAccessToken]
  exact h

theorem codes_getCurrentUser (now : ℤ) (token : SignedToken) :
    Svc.Grows (CodesKeptIn l m) (getCurrentUser now token) := by
  unfold getCurrentUser
  refine Svc.grows_bind Svc.grows_get fun db => ?_
  refine Svc.grows_bind (Svc.grows_expect _ _) fun payload => ?_
  refine Svc.grows_bind (Svc.grows_expect _ _) fun user => ?_
  exact Svc.grows_bind (Svc.grows_require _ _) fun _ => Svc.grows_pure _

/-- The proof follows the binds of each service. -/
theorem codes_service (env : TokenEnv) (op : AccountOp) :
    Svc.Grows (CodesKeptIn l m) (op.service env) := by
  cases op <;>
    simp only [AccountOp.service, loginSession, refreshAccessToken, TempleConsign.verify2fa,
      TempleConsign.recover2fa, TempleConsign.logout, TempleConsign.setup2fa,
      TempleConsign.confirm2fa, TempleConsign.disable2fa, TempleConsign.requestDeletion,
      TempleConsign.cancelDeletion, TempleConsign.finalizeDeletion, deactivateUser,
      TempleConsign.resendVerification, TempleConsign.verifyEmail,
      TempleConsign.requestPasswordReset, TempleConsign.confirmReset, updateUser, auditUser] <;>
    repeat' with_reducible first
      | exact Svc.grows_pure _
      | exact Svc.grows_get
      | exact Svc.grows_require _ _
      | exact Svc.grows_expect _ _
      | exact codes_getCurrentUser _ _
      | exact codes_complete2faLogin _ _
      | exact codes_createAccessToken _ _
      | exact codes_signToken _
      | exact codes_onAuth _
      | exact codes_onSessions _
      | exact codes_use _ _
      | exact codes_renew _ _ _
      | exact codes_drop _
      | exact codes_write fun _ => rfl
      | apply Svc.grows_bind
      | apply Svc.grows_onlyIf
      | split
      | intro _

/-- A request keeps the used codes used. -/
theorem accountStep_codes {db : TokenDb} (h : CodesKeptIn l m db) (env : TokenEnv)
    (op : AccountOp) : CodesKeptIn l m (accountStep env db op) := by
  obtain ⟨u, hret⟩ | heq := accountStep_cases env db op
  · exact (codes_service env op).returns hret h
  · rw [heq]
    exact h

end

/-! ## One use of each token -/

/-- No recovery code has completed two logins, and no reset token has changed
    the password twice. -/
def OneTime (s : OneTimeDb) : Prop := s.recovered.Nodup ∧ s.resets.Nodup

/-- When a recovery commits, no other recovery of its code has committed since it
    read the code; a reset commits with a token that no reset has used. -/
def NotReplayed (s : OneTimeDb) (a : OneTimeTxn) : Prop :=
  match a.point with
  | .completed recovery seen => recovery ∉ s.recovered.drop seen
  | .changed token => token ∉ s.resets
  | _ => True

/-! ## What a transaction knows -/

/-- The codes of completed logins are used up. -/
structure OneTimeInv (s : OneTimeDb) : Prop where
  once : OneTime s
  used : CodesKeptIn s.recovered 0 s.tokens

/-- `recovery` is a code, and the first `seen` recoveries did not use it. -/
def SeenUnused (s : OneTimeDb) (recovery seen : ℕ) : Prop :=
  recovery < s.tokens.recoveryCodes.next ∧ seen ≤ s.recovered.length ∧
    recovery ∉ s.recovered.take seen

/-- The writes of a password reset before its last statement. -/
structure ResetWrite (write : OneTimeDb → OneTimeDb) (resets : List SignedToken) : Prop where
  recovered : ∀ s, (write s).recovered = s.recovered
  codes : ∀ s, (write s).tokens.recoveryCodes = s.tokens.recoveryCodes
  resets : ∀ s, (write s).resets = s.resets ++ resets

/-- What each program point says about the writes so far. -/
def OneTimeOk (env : TokenEnv) (s : OneTimeDb) (a : OneTimeTxn) : Prop :=
  match a.point with
  | .recover _ _ _ | .reset _ _ _ | .resetting _ _ _ _ | .other _ => a.write = id
  | .recovering _ _ recovery seen => a.write = id ∧ SeenUnused s recovery seen
  | .consumed now token recovery seen =>
    (a.write = fun s => { s with tokens := s.tokens.consume now recovery token.sub }) ∧
      SeenUnused s recovery seen
  | .completed recovery seen =>
    (∃ now userId, a.write = fun s =>
      { s with
        tokens := (s.tokens.consume now recovery userId).loggedIn now userId
        recovered := s.recovered ++ [recovery] }) ∧ SeenUnused s recovery seen
  | .revoking _ _ => ResetWrite a.write []
  | .changed token => ResetWrite a.write [token]
  | .finished op => a.write = fun s => { s with tokens := accountStep env s.tokens op }

/-- The unused code that the `SELECT` finds has completed no login yet. -/
theorem seenUnused_of_select {s : OneTimeDb} (h : OneTimeInv s) {userId recovery : ℕ}
    {codeHash : String} {c : TotpRecoveryCode}
    (hc : Store.scalarOneOrNone (s.tokens.recoveryCodes.select (isUnusedCode userId codeHash)) =
      some (some (recovery, c))) : SeenUnused s recovery s.recovered.length := by
  obtain ⟨⟨hget, hcode⟩, -⟩ := Store.scalar_select_some_iff.mp hc
  refine ⟨Store.get?_lt hget, le_refl _, ?_⟩
  rw [List.take_length]
  intro hmem
  have hunused : c.usedAt = none := by
    simp only [isUnusedCode, Bool.and_eq_true, Option.isNone_iff_eq_none] at hcode
    exact hcode.2
  exact (h.used.2 recovery hmem).2 c hget hunused

theorem oneTimeOk_goOn {s : OneTimeDb} {a : OneTimeTxn} {locks : List TokenRow}
    {write : OneTimeDb → OneTimeDb} {next : OneTimePoint} (h : OneTimeInv s)
    (ha : OneTimeOk env s a) (hs : (oneTimeProgram env).next s a = .goOn locks write next) :
    OneTimeOk env s (a.goOn locks write next) := by
  obtain ⟨point, held, w⟩ := a
  simp only [Program.next, oneTimeProgram] at hs
  cases point with
  | recover now token recoveryCode =>
    obtain rfl : w = id := ha
    simp only [oneTimeStmt, id_eq] at hs
    split at hs
    · cases hs
    · split at hs
      · next hc =>
        cases hs
        exact ⟨rfl, seenUnused_of_select h hc⟩
      · cases hs
  | recovering now token recovery seen =>
    obtain ⟨hw, hseen⟩ := ha
    obtain rfl : w = id := hw
    simp only [oneTimeStmt] at hs
    split_ifs at hs
    cases hs
    exact ⟨rfl, hseen⟩
  | consumed now token recovery seen =>
    obtain ⟨hw, hseen⟩ := ha
    simp only [oneTimeStmt] at hs
    split_ifs at hs
    cases hs
    refine ⟨⟨now, token.sub, ?_⟩, hseen⟩
    obtain rfl : w = fun s => { s with tokens := s.tokens.consume now recovery token.sub } := hw
    rfl
  | reset now token newHash =>
    obtain rfl : w = id := ha
    simp only [oneTimeStmt] at hs
    split at hs
    · cases hs
    · split at hs
      · cases hs
      · cases hs
        rfl
  | resetting now token newHash user =>
    obtain rfl : w = id := ha
    cases hs
    exact ⟨fun _ => rfl, fun _ => rfl, fun _ => (List.append_nil _).symm⟩
  | revoking now token =>
    have hw : ResetWrite w [] := ha
    cases hs
    refine ⟨hw.recovered, hw.codes, fun s => ?_⟩
    show (w s).resets ++ [token] = s.resets ++ [token]
    rw [hw.resets, List.append_nil]
  | other op =>
    obtain rfl : w = id := ha
    simp only [oneTimeStmt] at hs
    split_ifs at hs
    cases hs
    rfl
  | completed _ _ => cases hs
  | changed _ => cases hs
  | finished _ => cases hs

/-- What a commit writes. -/
inductive OneTimeCommit (env : TokenEnv) (s : OneTimeDb) (a : OneTimeTxn) : Prop
  | recovery {now : ℤ} {userId recovery seen : ℕ} (hp : a.point = .completed recovery seen)
    (hseen : SeenUnused s recovery seen)
    (hw : a.write = fun s =>
      { s with
        tokens := (s.tokens.consume now recovery userId).loggedIn now userId
        recovered := s.recovered ++ [recovery] })
  | reset {token : SignedToken} (hp : a.point = .changed token) (hw : ResetWrite a.write [token])
  | other {op : AccountOp} (hp : a.point = .finished op)
    (hw : a.write = fun s => { s with tokens := accountStep env s.tokens op })

theorem oneTimeCommit {s : OneTimeDb} {a : OneTimeTxn} (ha : OneTimeOk env s a)
    (hs : (oneTimeProgram env).next s a = .commit) : OneTimeCommit env s a := by
  obtain ⟨point, held, w⟩ := a
  simp only [Program.next, oneTimeProgram] at hs
  cases point with
  | completed recovery seen =>
    obtain ⟨⟨now, userId, hw⟩, hseen⟩ := ha
    exact .recovery rfl hseen hw
  | changed token => exact .reset rfl ha
  | finished op => exact .other rfl ha
  | recover now token recoveryCode =>
    simp only [oneTimeStmt] at hs
    split at hs
    · cases hs
    · split at hs <;> cases hs
  | recovering now token recovery seen =>
    simp only [oneTimeStmt] at hs
    split_ifs at hs
  | consumed now token recovery seen =>
    simp only [oneTimeStmt] at hs
    split_ifs at hs
  | reset now token newHash =>
    simp only [oneTimeStmt] at hs
    split at hs
    · cases hs
    · split at hs <;> cases hs
  | other op =>
    simp only [oneTimeStmt] at hs
    split_ifs at hs
  | resetting _ _ _ _ => cases hs
  | revoking _ _ => cases hs

/-- A commit keeps the codes, and adds to the recoveries at their end. -/
theorem OneTimeCommit.keeps {s : OneTimeDb} {a : OneTimeTxn} (h : OneTimeCommit env s a) :
    s.recovered <+: (a.write s).recovered ∧
      ∀ l m, CodesKeptIn l m s.tokens → CodesKeptIn l m (a.write s).tokens := by
  cases h with
  | recovery _ _ hw =>
    rw [hw]
    exact ⟨List.prefix_append _ _, fun l m hl => CodesKept.use hl _ _⟩
  | reset _ hw =>
    refine ⟨?_, fun l m hl => ?_⟩
    · rewrite [hw.recovered]
      exact List.prefix_refl _
    · unfold CodesKeptIn
      rw [hw.codes]
      exact hl
  | other _ hw =>
    rw [hw]
    exact ⟨List.prefix_refl _, fun l m hl => accountStep_codes hl env _⟩

theorem SeenUnused.frame {s : OneTimeDb} {a : OneTimeTxn} {recovery seen : ℕ}
    (h : SeenUnused s recovery seen) (hc : OneTimeCommit env s a) :
    SeenUnused (a.write s) recovery seen := by
  obtain ⟨hlt, hle, hnot⟩ := h
  obtain ⟨hpre, hcodes⟩ := hc.keeps
  have hnext := (hcodes [] (recovery + 1) ⟨hlt, by simp⟩).1
  obtain ⟨rest, hrest⟩ := hpre
  refine ⟨hnext, ?_, ?_⟩
  · rw [← hrest, List.length_append]
    omega
  · rw [← hrest, List.take_append_of_le_length hle]
    exact hnot

/-- A commit keeps the authenticators one-time exactly when it replays none. -/
theorem commit_oneTime_iff {s : OneTimeDb} {a : OneTimeTxn} (h : OneTime s)
    (hc : OneTimeCommit env s a) : OneTime (a.write s) ↔ NotReplayed s a := by
  cases hc with
  | @recovery _ _ recovery seen hp hseen hw =>
    have hmem : recovery ∈ s.recovered ↔ recovery ∈ s.recovered.drop seen := by
      conv_lhs => rw [← List.take_append_drop seen s.recovered, List.mem_append]
      exact or_iff_right hseen.2.2
    rw [hw]
    unfold OneTime NotReplayed
    rw [hp]
    show (s.recovered ++ [recovery]).Nodup ∧ s.resets.Nodup ↔ recovery ∉ s.recovered.drop seen
    rw [nodup_append_one, hmem]
    exact ⟨fun hn => hn.1.2, fun hn => ⟨⟨h.1, hn⟩, h.2⟩⟩
  | @reset token hp hw =>
    unfold OneTime NotReplayed
    rw [hp, hw.recovered, hw.resets, nodup_append_one]
    exact ⟨fun hn => hn.2.2, fun hn => ⟨h.1, h.2, hn⟩⟩
  | other hp hw =>
    rw [hw]
    unfold NotReplayed
    rw [hp]
    exact ⟨fun _ => trivial, fun _ => h⟩

/-! ## Runs -/

theorem oneTimeRule (env : TokenEnv) :
    TxnRule (oneTimeProgram env) OneTimeInv (OneTimeOk env) NotReplayed where
  start := by
    intro s call _
    cases call <;> rfl
  goOn := fun _ _ _ _ _ h ha hs => oneTimeOk_goOn h ha hs
  commit := by
    intro s a h ha hs hk
    have hc := oneTimeCommit ha hs
    refine ⟨(commit_oneTime_iff h.once hc).mpr hk, ?_⟩
    have hcodes := hc.keeps.2 _ _ h.used
    cases hc with
    | @recovery now userId recovery seen hp hseen hw =>
      rw [hw] at hcodes ⊢
      refine ⟨Nat.zero_le _, fun id hid => ?_⟩
      obtain hid | hid := List.mem_append.mp hid
      · exact hcodes.2 id hid
      · obtain rfl := List.mem_singleton.mp hid
        show id < (s.tokens.recoveryCodes.modify id _).next ∧
          ∀ c, (s.tokens.recoveryCodes.modify id _).get? id = some c → c.usedAt ≠ none
        rw [Store.modify_next, Store.get?_modify_self]
        refine ⟨hseen.1, fun c hget => ?_⟩
        obtain ⟨_, _, rfl⟩ := Option.map_eq_some_iff.mp hget
        exact Option.some_ne_none now
    | reset _ hw =>
      rw [hw.recovered]
      exact hcodes
    | other _ hw =>
      rw [hw] at hcodes ⊢
      exact hcodes
  frame := by
    intro s a b _ ha hs _ hb _
    have hc := oneTimeCommit ha hs
    obtain ⟨point, held, w⟩ := b
    cases point with
    | recovering now token recovery seen => exact ⟨hb.1, hb.2.frame hc⟩
    | consumed now token recovery seen => exact ⟨hb.1, hb.2.frame hc⟩
    | completed recovery seen => exact ⟨hb.1, hb.2.frame hc⟩
    | _ => exact hb

/-- Every recovery code completes one login at most and every reset token
    changes the password once at most, in every state of a run, exactly when no
    recovery of the run commits after another one of its code since it read the
    code and no reset commits with a token that a reset has used. -/
theorem one_time_iff (env : TokenEnv) (ops : List (RcOp OneTimeCall)) :
    AllStates (oneTimeStep env) (fun x => OneTime x.committed) (Rc.init OneTimeDb.empty) ops ↔
      AllSteps (oneTimeStep env) (AtCommit (oneTimeProgram env) NotReplayed)
        (Rc.init OneTimeDb.empty) ops :=
  committed_iff (oneTimeRule env) (fun _ h => h.once)
    (fun _ _ h ha hs hp => (commit_oneTime_iff h.once (oneTimeCommit ha hs)).mp hp)
    ⟨⟨List.nodup_nil, List.nodup_nil⟩, Nat.zero_le 0, fun _ h => absurd h List.not_mem_nil⟩ ops

/-- One request after the other: each runs to its end. -/
def requestsInTurn (calls : List OneTimeCall) : List (RcOp OneTimeCall) :=
  calls.zipIdx.flatMap fun c => .start c.1 :: List.replicate 4 (.exec c.2)

/-- Ann has a second factor with one recovery code and has entered her password;
    her partial token runs until 5 min 3 s. -/
def annLogsIn : List OneTimeCall :=
  [.other (.register ⟨"ann@example.com", some "right", .active, false⟩),
    .other (.login ⟨seconds 0, "ann@example.com", "right", "203.0.113.7"⟩),
    .other (.setup2fa (seconds 1) ⟨0, .access, minutes 15⟩ "totp"),
    .other (.confirm2fa (seconds 2) ⟨0, .access, minutes 15⟩ "totp" "right" ["recovery"]),
    .other (.login ⟨seconds 3, "ann@example.com", "right", "203.0.113.7"⟩)]

/-- Two requests with the one recovery code at the same time. -/
def doubleRecovery : List (RcOp OneTimeCall) :=
  let call := OneTimeCall.recover (seconds 4) ⟨0, .partialLogin, seconds 3 + minutes 5⟩ "recovery"
  requestsInTurn annLogsIn ++
    [.start call, .start call, .exec 5, .exec 6] ++
    [.exec 5, .exec 5, .exec 5, .exec 6, .exec 6, .exec 6]

/-- One reset token confirmed twice, one request after the other. -/
def doubleReset : List (RcOp OneTimeCall) :=
  requestsInTurn
    [.other (.register ⟨"ann@example.com", some "right", .active, false⟩),
      .other (.requestPasswordReset (seconds 0) "ann@example.com"),
      .reset (minutes 1) ⟨0, .resetPassword, minutes 30⟩ "first",
      .reset (minutes 2) ⟨0, .resetPassword, minutes 30⟩ "second"]

/-- The recovery code completes two logins, and the reset token changes the
    password twice. -/
theorem authenticators_used_twice :
    ¬ AllStates (oneTimeStep plainTokenEnv) (fun x => OneTime x.committed)
        (Rc.init OneTimeDb.empty) doubleRecovery ∧
      ¬ AllStates (oneTimeStep plainTokenEnv) (fun x => OneTime x.committed)
        (Rc.init OneTimeDb.empty) doubleReset := by
  have hrecovered : (run (oneTimeStep plainTokenEnv) (Rc.init OneTimeDb.empty)
      doubleRecovery).committed.recovered = [0, 0] := by
    decide +kernel
  have hresets : (run (oneTimeStep plainTokenEnv) (Rc.init OneTimeDb.empty)
      doubleReset).committed.resets =
      [⟨0, .resetPassword, minutes 30⟩, ⟨0, .resetPassword, minutes 30⟩] := by
    decide +kernel
  constructor
  · intro h
    have hn := h.last.1
    rw [hrecovered] at hn
    simp at hn
  · intro h
    have hn := h.last.2
    rw [hresets] at hn
    simp at hn

end TempleConsign
