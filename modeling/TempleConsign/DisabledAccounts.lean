import TempleConsign.TwoFactor

/-!
# Tokens of disabled accounts

Every order of logins, second factors, refreshes, lockouts, deactivations and
deletion requests, each request one transaction. A login and a refresh check
that the account is active; `verify_2fa` and `recover_2fa` check the partial
token and the code only, and the account may have been disabled in the meantime.
No check of `locked_until` ever matters: no committed account is locked.

Results:
* `quiet_service`: the requests that issue no tokens, and that they lock nobody.
* `secondFactorActive_of_step`: what a request that completes a second factor needs to
  issue its tokens to an active account.
* `tokens_only_to_enabled_iff`: a run issues tokens only to active accounts that
  are not locked exactly when every second factor that it completes is of an
  active account.
-/

namespace TempleConsign

open ServiceLib

/-! ## Requests -/

inductive AccountOp
  | register (a : NewAccount)
  | login (r : LoginRequest)
  | refresh (now : ℤ) (rawRefreshToken : ℕ)
  | verify2fa (now : ℤ) (partialToken : SignedToken) (totpCode : String)
  | recover2fa (now : ℤ) (partialToken : SignedToken) (recoveryCode : String)
  | logout (now : ℤ) (rawRefreshToken : ℕ)
  | setup2fa (now : ℤ) (token : SignedToken) (secretEnc : String)
  | confirm2fa (now : ℤ) (token : SignedToken) (totpCode password : String)
    (rawCodes : List String)
  | disable2fa (now : ℤ) (token : SignedToken) (totpCode password : String)
  | requestDeletion (now : ℤ) (token : SignedToken)
  | cancelDeletion (now : ℤ) (token : SignedToken)
  | finalizeDeletion (userId : ℕ) (scrubbed : String)
  | deactivate (actor userId : ℕ) (openWork : Bool)
  | resendVerification (now : ℤ) (email : String)
  | verifyEmail (now : ℤ) (token : SignedToken)
  | requestPasswordReset (now : ℤ) (email : String)
  | confirmReset (now : ℤ) (token : SignedToken) (newHash : String)

def AccountOp.service (env : TokenEnv) : AccountOp → TokenService Unit
  | .register a => onAuth (createAccount a)
  | .login r => loginSession env r
  | .refresh now rawRefreshToken => refreshAccessToken now rawRefreshToken
  | .verify2fa now partialToken totpCode => TempleConsign.verify2fa env now partialToken totpCode
  | .recover2fa now partialToken recoveryCode =>
    TempleConsign.recover2fa env now partialToken recoveryCode
  | .logout now rawRefreshToken => TempleConsign.logout now rawRefreshToken
  | .setup2fa now token secretEnc => TempleConsign.setup2fa now token secretEnc
  | .confirm2fa now token totpCode password rawCodes =>
    TempleConsign.confirm2fa env now token totpCode password rawCodes
  | .disable2fa now token totpCode password =>
    TempleConsign.disable2fa env now token totpCode password
  | .requestDeletion now token => TempleConsign.requestDeletion now token
  | .cancelDeletion now token => TempleConsign.cancelDeletion now token
  | .finalizeDeletion userId scrubbed => TempleConsign.finalizeDeletion userId scrubbed
  | .deactivate actor userId openWork => deactivateUser actor userId openWork
  | .resendVerification now email => TempleConsign.resendVerification env now email
  | .verifyEmail now token => TempleConsign.verifyEmail now token
  | .requestPasswordReset now email => TempleConsign.requestPasswordReset env now email
  | .confirmReset now token newHash => TempleConsign.confirmReset now token newHash

/-- The requests that issue access and refresh tokens. -/
def AccountOp.issues : AccountOp → Bool
  | .login _ | .refresh _ _ | .verify2fa _ _ _ | .recover2fa _ _ _ => true
  | _ => false

/-- One request in its transaction. -/
def accountStep (env : TokenEnv) (db : TokenDb) (op : AccountOp) : TokenDb :=
  (Svc.request (fun before _ => before) (op.service env) db).2

/-! ## Tokens of enabled accounts -/

/-- When the tokens were issued the account was active and not locked. -/
def TokenIssue.Allowed (t : TokenIssue) : Prop :=
  ∃ account, t.account = some account ∧ account.status = .active ∧
    account.lockedAt t.issuedAt = false

def OnlyToEnabled (db : TokenDb) : Prop := ∀ t ∈ db.issued, t.Allowed

/-- A second factor that passes its own checks is of an active account. -/
def SecondFactorActive (env : TokenEnv) (db : TokenDb) : AccountOp → Prop
  | .verify2fa now partialToken totpCode =>
    ∀ user, CanVerify env db now partialToken totpCode user → user.status = .active
  | .recover2fa now partialToken recoveryCode =>
    ∀ recovery user, CanRecover env db now partialToken recoveryCode recovery user →
      user.status = .active
  | _ => True

/-! ## Requests that issue nothing -/

/-- No account is locked and `l` are the tokens issued. -/
def Quiet (l : List TokenIssue) (db : TokenDb) : Prop := NeverLocked db.auth ∧ db.issued = l

section
variable {l : List TokenIssue}

theorem quiet_write {f : TokenDb → TokenDb} (ha : ∀ db, (f db).auth = db.auth)
    (hi : ∀ db, (f db).issued = db.issued) :
    Svc.Grows (Quiet l) (modify f : TokenService PUnit) := by
  refine Svc.grows_modify fun db h => ?_
  unfold Quiet
  rw [ha, hi]
  exact h

theorem quiet_signToken (t : SignedToken) : Svc.Grows (Quiet l) (signToken t) :=
  quiet_write (fun _ => rfl) fun _ => rfl

theorem quiet_onSessions {α : Type} (m : SessionService α) :
    Svc.Grows (Quiet l) (onSessions m) := by
  intro db h
  unfold onSessions
  rw [Svc.exec_zoom]
  exact h

theorem quiet_updateUser (id : ℕ) {f : Account → Account}
    (hf : ∀ u, u.lockedUntil = none → (f u).lockedUntil = none) :
    Svc.Grows (Quiet l) (updateUser id f) := by
  rintro db ⟨hn, hi⟩
  refine ⟨?_, hi⟩
  intro k u hk
  have hk' : (db.auth.users.modify id f).get? k = some u := hk
  rw [Store.get?_modify] at hk'
  split_ifs at hk'
  · obtain ⟨u0, hu0, rfl⟩ := Option.map_eq_some_iff.mp hk'
    exact hf u0 (hn k u0 hu0)
  · exact hn k u hk'

theorem quiet_auditUser (eventType : String) (userId : ℕ) :
    Svc.Grows (Quiet l) (auditUser eventType userId) :=
  fun _ h => h

theorem quiet_getCurrentUser (now : ℤ) (token : SignedToken) :
    Svc.Grows (Quiet l) (getCurrentUser now token) := by
  unfold getCurrentUser
  refine Svc.grows_bind Svc.grows_get fun db => ?_
  refine Svc.grows_bind (Svc.grows_expect _ _) fun payload => ?_
  refine Svc.grows_bind (Svc.grows_expect _ _) fun user => ?_
  exact Svc.grows_bind (Svc.grows_require _ _) fun _ => Svc.grows_pure _

/-- Registration and the password reset, as requests of `authStep`. -/
theorem quiet_onAuth {m : AuthService Unit}
    (hm : ∀ db u db', Svc.Returns m db u db' → NeverLocked db → NeverLocked db')
    {db db' : TokenDb} {u : Unit} (h : Svc.Returns (onAuth m) db u db') (hq : Quiet l db) :
    Quiet l db' := by
  obtain ⟨auth, hret, rfl⟩ := Svc.returns_zoom.mp h
  exact ⟨hm _ _ _ hret hq.1, hq.2⟩

theorem createAccount_neverLocked {a : NewAccount} {db db' : AuthDb} {u : Unit}
    (h : Svc.Returns (createAccount a) db u db') (hn : NeverLocked db) : NeverLocked db' := by
  simp only [createAccount, Svc.returns_get_bind, Svc.returns_require_bind,
    Svc.returns_modify] at h
  obtain ⟨-, rfl⟩ := h
  intro id u hget
  simp only [Store.get?_create] at hget
  split_ifs at hget
  · cases hget; rfl
  · exact hn id u hget

theorem confirmPasswordReset_neverLocked {subject : Option ℕ} {newHash : String}
    {db db' : AuthDb} {u : Unit} (h : Svc.Returns (confirmPasswordReset subject newHash) db u db')
    (hn : NeverLocked db) : NeverLocked db' := by
  simp only [confirmPasswordReset, Svc.returns_expect_bind, Svc.returns_get_bind,
    Svc.returns_modify_bind, auditLogin, Svc.returns_modify] at h
  obtain ⟨id, -, u, -, rfl⟩ := h
  exact hn.modify (fun _ => rfl) rfl

/-- The proof follows the binds of each service. -/
theorem quiet_service {env : TokenEnv} {op : AccountOp} (h : op.issues = false) {db db' : TokenDb}
    {u : Unit} (hret : Svc.Returns (op.service env) db u db') (hq : Quiet l db) : Quiet l db' := by
  cases op with
  | login _ => cases h
  | refresh _ _ => cases h
  | verify2fa _ _ _ => cases h
  | recover2fa _ _ _ => cases h
  | register a => exact quiet_onAuth (fun _ _ _ => createAccount_neverLocked) hret hq
  | confirmReset now token newHash =>
    unfold AccountOp.service TempleConsign.confirmReset at hret
    simp only [Svc.returns_get_bind, Svc.returns_expect_bind] at hret
    obtain ⟨payload, -, hret⟩ := hret
    rw [Svc.returns_bind] at hret
    obtain ⟨_, db1, h1, h2⟩ := hret
    have hq1 := quiet_onAuth (fun _ _ _ => confirmPasswordReset_neverLocked) h1 hq
    obtain ⟨t, -, rfl⟩ := Svc.returns_zoom.mp h2
    exact hq1
  | _ =>
    refine Svc.Grows.returns (f := Quiet l) ?_ hret hq
    simp only [AccountOp.service, TempleConsign.logout, TempleConsign.setup2fa,
      TempleConsign.confirm2fa, TempleConsign.disable2fa, TempleConsign.requestDeletion,
      TempleConsign.cancelDeletion, TempleConsign.finalizeDeletion, deactivateUser,
      TempleConsign.resendVerification, TempleConsign.verifyEmail,
      TempleConsign.requestPasswordReset]
    repeat' with_reducible first
      | exact Svc.grows_pure _
      | exact Svc.grows_get
      | exact Svc.grows_require _ _
      | exact Svc.grows_expect _ _
      | exact quiet_getCurrentUser _ _
      | exact quiet_signToken _
      | exact quiet_onSessions _
      | exact quiet_auditUser _ _
      | exact quiet_updateUser _ fun _ hu => hu
      | exact quiet_write (fun _ => rfl) fun _ => rfl
      | apply Svc.grows_bind
      | apply Svc.grows_onlyIf
      | split
      | intro _

end

/-! ## Requests that issue tokens -/

variable {env : TokenEnv} {db : TokenDb} {op : AccountOp}

theorem accountStep_of_returns {db' : TokenDb} {u : Unit}
    (h : Svc.Returns (op.service env) db u db') : accountStep env db op = db' := by
  unfold accountStep
  rw [Svc.request_of_returns h]

/-- A request either commits or leaves everything as it was. -/
theorem accountStep_cases (env : TokenEnv) (db : TokenDb) (op : AccountOp) :
    (∃ u, Svc.Returns (op.service env) db u (accountStep env db op)) ∨
      accountStep env db op = db := by
  unfold accountStep
  obtain ⟨u, db', hret, hreq⟩ | ⟨_, _, _, hreq⟩ :=
    Svc.request_cases (fun before _ => before) (op.service env) db
  · rw [hreq]
    exact .inl ⟨u, hret⟩
  · rw [hreq]
    exact .inr rfl

theorem Account.not_lockedAt {user : Account} (h : user.lockedUntil = none) (now : ℤ) :
    user.lockedAt now = false := by
  unfold Account.lockedAt
  rw [h]

/-- What a request that commits issues, and to which account: the first step of
    a login to an active account, a refresh to one, and a second factor to
    whatever account its token names. -/
theorem issued_of_returns {u : Unit} {db' : TokenDb}
    (h : Svc.Returns (op.service env) db u db') (hn : NeverLocked db.auth) :
    NeverLocked db'.auth ∧ (db'.issued = db.issued ∨
      ∃ now user id, db'.issued = db.issued ++ [⟨id, now, some user⟩] ∧
        user.lockedUntil = none ∧ (SecondFactorActive env db op → user.status = .active)) := by
  cases hop : op.issues with
  | false =>
    have hq : Quiet db.issued db := ⟨hn, rfl⟩
    obtain ⟨hn', hi⟩ := quiet_service hop h hq
    exact ⟨hn', .inl hi⟩
  | true =>
    cases op with
    | login r =>
      obtain ⟨id, user, hget, hact, hu, hi⟩ := returns_loginSession h
      refine ⟨hn.modify (fun _ => rfl) hu, ?_⟩
      obtain hi | hi := hi
      · exact .inl hi
      · exact .inr ⟨r.now, _, id, hi, rfl, fun _ => hact⟩
    | refresh now rawRefreshToken =>
      obtain ⟨id, user, hget, hact, hauth, hi⟩ := returns_refreshAccessToken h
      rw [hauth]
      exact ⟨hn, .inr ⟨now, user, id, hi, hn id user hget, fun _ => hact⟩⟩
    | verify2fa now token totpCode =>
      obtain ⟨⟨user, hcan⟩, rfl⟩ := returns_verify2fa.mp h
      refine ⟨hn, .inr ⟨now, user, token.sub, ?_, hn _ user hcan.account, fun hc => hc user hcan⟩⟩
      show db.issued ++ [⟨token.sub, now, db.account? token.sub⟩] = _
      rw [hcan.account]
    | recover2fa now token recoveryCode =>
      obtain ⟨recovery, ⟨user, hcan⟩, rfl⟩ := returns_recover2fa.mp h
      refine ⟨hn, .inr ⟨now, user, token.sub, ?_, hn _ user hcan.account,
        fun hc => hc recovery user hcan⟩⟩
      show db.issued ++ [⟨token.sub, now, db.account? token.sub⟩] = _
      rw [hcan.account]
    | _ => cases hop

theorem accountStep_inv (env : TokenEnv) (db : TokenDb) (op : AccountOp)
    (h : NeverLocked db.auth ∧ OnlyToEnabled db) (hc : SecondFactorActive env db op) :
    NeverLocked (accountStep env db op).auth ∧ OnlyToEnabled (accountStep env db op) := by
  obtain ⟨hn, hp⟩ := h
  obtain ⟨u, hret⟩ | heq := accountStep_cases env db op
  · obtain ⟨hn', hi⟩ := issued_of_returns hret hn
    refine ⟨hn', ?_⟩
    intro t ht
    obtain hi | ⟨now, user, id, hi, hl, hact⟩ := hi
    · rw [hi] at ht
      exact hp t ht
    · rw [hi, List.mem_append, List.mem_singleton] at ht
      obtain ht | rfl := ht
      · exact hp t ht
      · exact ⟨user, rfl, hact hc, Account.not_lockedAt hl now⟩
  · rw [heq]
    exact ⟨hn, hp⟩

/-- Tokens issued to `userId` only while its account is active. -/
theorem active_of_loggedIn {now : ℤ} {userId : ℕ} {user : Account}
    (h : OnlyToEnabled (db.loggedIn now userId)) (hget : db.account? userId = some user) :
    user.status = .active := by
  have hmem : (⟨userId, now, db.account? userId⟩ : TokenIssue) ∈ (db.loggedIn now userId).issued :=
    List.mem_append_right _ (List.mem_singleton_self _)
  obtain ⟨account, hacc, hact, _⟩ := h _ hmem
  have heq : db.account? userId = some account := hacc
  rw [hget] at heq
  cases heq
  exact hact

/-- A request that issues tokens to enabled accounts only has a second factor
    of an active account, if any. -/
theorem secondFactorActive_of_step (h : OnlyToEnabled (accountStep env db op)) :
    SecondFactorActive env db op := by
  cases op with
  | verify2fa now token totpCode =>
    intro user hcan
    have hret : Svc.Returns ((AccountOp.verify2fa now token totpCode).service env) db () _ :=
      returns_verify2fa.mpr ⟨⟨user, hcan⟩, rfl⟩
    rw [accountStep_of_returns hret] at h
    exact active_of_loggedIn h hcan.account
  | recover2fa now token recoveryCode =>
    intro recovery user hcan
    have hret : Svc.Returns ((AccountOp.recover2fa now token recoveryCode).service env) db () _ :=
      returns_recover2fa.mpr ⟨recovery, ⟨user, hcan⟩, rfl⟩
    rw [accountStep_of_returns hret] at h
    exact active_of_loggedIn h hcan.account
  | _ => trivial

theorem neverLocked_empty : NeverLocked TokenDb.empty.auth := by
  intro id u h
  simp [TokenDb.empty, AuthDb.empty] at h

/-- In every run no account is ever locked, and tokens are issued only to active
    accounts that are not locked exactly when each second factor that passes its
    checks is of an active account. -/
theorem tokens_only_to_enabled_iff (env : TokenEnv) (ops : List AccountOp) :
    AllStates (accountStep env) (fun db => NeverLocked db.auth) TokenDb.empty ops ∧
      (AllStates (accountStep env) OnlyToEnabled TokenDb.empty ops ↔
        AllSteps (accountStep env) (SecondFactorActive env) TokenDb.empty ops) := by
  constructor
  · refine allStates_of_step (P := fun db : TokenDb => NeverLocked db.auth) (fun db op hn => ?_)
      neverLocked_empty ops
    obtain ⟨u, hret⟩ | heq := accountStep_cases env db op
    · exact (issued_of_returns hret hn).1
    · rw [heq]
      exact hn
  · exact allStates_iff_of_inv (accountStep_inv env) (fun _ h => h.2)
      (fun _ _ _ h => secondFactorActive_of_step h) ⟨neverLocked_empty, nofun⟩ ops

/-- Codes compared as they are. -/
def plainTokenEnv : TokenEnv where
  toAuthEnv := plainEnv
  totpVerifies := fun secret code _ => secret = code
  hashRecoveryCode := id

/-- Ann sets up her second factor and logs in with her password; the admin
    deactivates her account, and then she enters the code. -/
def deactivatedRun : List AccountOp :=
  [.register ⟨"ann@example.com", some "right", .active, false⟩,
    .login ⟨seconds 0, "ann@example.com", "right", "203.0.113.7"⟩,
    .setup2fa (seconds 1) ⟨0, .access, minutes 15⟩ "totp",
    .confirm2fa (seconds 2) ⟨0, .access, minutes 15⟩ "totp" "right" ["recovery"],
    .login ⟨seconds 3, "ann@example.com", "right", "203.0.113.7"⟩,
    .deactivate 1 0 false,
    .verify2fa (seconds 5) ⟨0, .partialLogin, seconds 3 + minutes 5⟩ "totp"]

/-- The second factor opens a session for the deactivated account. -/
theorem deactivated_account_logs_in :
    ¬ AllStates (accountStep plainTokenEnv) OnlyToEnabled TokenDb.empty deactivatedRun := by
  intro h
  have hmem : (⟨0, seconds 5, some ⟨"ann@example.com", some "right", .deactivated, true, 0, none⟩⟩ :
      TokenIssue) ∈ (run (accountStep plainTokenEnv) TokenDb.empty deactivatedRun).issued := by
    decide +kernel
  obtain ⟨account, hacc, hact, _⟩ := h.last _ hmem
  cases hacc
  cases hact

end TempleConsign
