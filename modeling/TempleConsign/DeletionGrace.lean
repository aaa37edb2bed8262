import TempleConsign.AccountRows

/-!
# The grace window of a deletion

`request_deletion` revokes the sessions of the user, who is told to log in again
to cancel (`src/api/services/account_deletion_service.py` line 12). `login`
(`src/api/services/auth_service.py` line 409) refuses every account that is not
active, so the way back is closed: only an access token from before the request
cancels.

Results:
* `restored_cancelled_requested`: a request and its cancellation undo each other.
* `personStep_pendingHasGrace`: an account that is pending deletion has an end of
  its window.
* `not_returns_loginSession`: an account that is not active cannot log in.
* `grace_window_closed`: in every run, so with accounts pending deletion; another
  request does not move the end, and a cancellation restores the row.
-/

namespace TempleConsign

open ServiceLib

variable {env : PersonEnv} {db db' : PersonDb} {now : ℤ} {token : SignedToken} {u : Unit}

/-! ## They undo each other -/

/-- The account is active without a window, and every other column is the same. -/
def Restored (id : ℕ) (before after : PersonDb) : Prop :=
  after.customers = before.customers ∧ (∀ k ≠ id, after.user? k = before.user? k) ∧
    ∀ row, before.user? id = some row → after.user? id = some { row with
      status := .active
      deletionGraceUntil := none
      details := { row.details with deletionRequestedAt := none } }

theorem restored_cancelled (id : ℕ) (db : PersonDb) : Restored id db (db.cancelled id) := by
  refine ⟨rfl, fun k hk => ?_, fun row hrow => ?_⟩
  · simp [PersonDb.user?, PersonDb.cancelled, TokenDb.cancelled, TokenDb.account?,
      Store.get?_modify_ne _ _ hk, hk]
  · simp only [PersonDb.user?, PersonDb.cancelled, TokenDb.cancelled, TokenDb.account?,
      Store.get?_modify_self, Option.map_map] at hrow ⊢
    obtain ⟨a, ha, rfl⟩ := Option.map_eq_some_iff.mp hrow
    simp [ha]

/-- A request and its cancellation leave the rows as they were. -/
theorem restored_cancelled_requested (id : ℕ) (now : ℤ) (db : PersonDb) :
    Restored id db ((db.requested now id).cancelled id) := by
  refine ⟨rfl, fun k hk => ?_, fun row hrow => ?_⟩
  · simp [PersonDb.user?, PersonDb.cancelled, TokenDb.cancelled, PersonDb.requested,
      TokenDb.requested, TokenDb.account?, Store.get?_modify_ne _ _ hk, hk]
  · simp only [PersonDb.user?, PersonDb.cancelled, TokenDb.cancelled, PersonDb.requested,
      TokenDb.requested, TokenDb.account?, Store.get?_modify_self, Option.map_map] at hrow ⊢
    obtain ⟨a, ha, rfl⟩ := Option.map_eq_some_iff.mp hrow
    simp [ha]

/-! ## The end of the window -/

def PendingHasGrace (db : PersonDb) : Prop :=
  ∀ id row, db.user? id = some row → row.status = .pendingDeletion →
    row.deletionGraceUntil ≠ none

theorem RowChange.pendingHasGrace {op : PersonOp} {id : ℕ} {row row' : UserRow}
    (h : RowChange op id row row')
    (hrow : row.status = .pendingDeletion → row.deletionGraceUntil ≠ none) :
    row'.status = .pendingDeletion → row'.deletionGraceUntil ≠ none := by
  cases h with
  | same => exact hrow
  | secondFactor enabled secret signedIn => exact hrow
  | deactivated => exact nofun
  | verified unverified => exact nofun
  | reset now token newHash status byOp sub kept =>
    intro hst
    obtain hkept | ⟨hact, -⟩ := kept
    · exact hrow (hkept ▸ hst)
    · exact absurd (hact.symm.trans hst) nofun
  | emailChanged now token byOp sub => exact hrow
  | requested now signedIn => exact fun _ => nofun
  | cancelled pending => exact nofun
  | scrubbed => exact nofun

theorem personStep_pendingHasGrace (op : PersonOp) (h : PendingHasGrace db) :
    PendingHasGrace (personStep env db op) := by
  intro id row' hrow' hst
  obtain hrel | ⟨-, row, hnew, hpv⟩ := (personStep_change env db op).rows id
  · rw [hrow'] at hrel
    cases hold : db.user? id with
    | none =>
      rw [hold] at hrel
      cases hrel
    | some row =>
      rw [hold] at hrel
      cases hrel with
      | some hchange => exact hchange.pendingHasGrace (h id row hold) hst
  · rw [hrow'] at hnew
    cases hnew
    exact absurd (hpv.symm.trans hst) nofun

theorem pendingHasGrace_empty : PendingHasGrace PersonDb.empty := by
  intro id row h
  simp [PersonDb.empty, PersonDb.user?, TokenDb.empty, TokenDb.account?, AuthDb.empty] at h

/-! ## The login -/

/-- A login that returns found the only account with its email, and it is active. -/
theorem returns_login_unique {env : AuthEnv} {db db' : AuthDb} {r : LoginRequest}
    {res : LoginResult} (h : Svc.Returns (login env r) db res db') {id : ℕ} {user : Account}
    (hget : db.users.get? id = some user) (hemail : user.email = env.lower r.email) :
    user.status = .active := by
  simp only [login, Svc.returns_get_bind, Svc.returns_expect_bind, Svc.returns_require_bind] at h
  obtain ⟨found, hfound, ⟨k, a⟩, rfl, -, -, hact, -⟩ := h
  obtain ⟨⟨hk, -⟩, honly⟩ := Store.scalar_select_some_iff.mp hfound
  obtain rfl : id = k := honly id user hget (decide_eq_true hemail)
  rw [hget] at hk
  cases hk
  exact hact

theorem not_returns_loginSession {env : TokenEnv} {db db' : TokenDb} {r : LoginRequest} {id : ℕ}
    {user : Account} (hget : db.account? id = some user) (hemail : user.email = env.lower r.email)
    (hst : user.status ≠ .active) : ¬ Svc.Returns (loginSession env r) db u db' := by
  intro h
  unfold loginSession at h
  rw [Svc.returns_bind] at h
  obtain ⟨result, db1, h1, -⟩ := h
  obtain ⟨auth, hlogin, -⟩ := Svc.returns_zoom.mp h1
  simp only [loginEndpoint, Svc.returns_bind, Svc.returns_onlyIf] at hlogin
  obtain ⟨_, a1, hip, _, a2, hmail, hlogin⟩ := hlogin
  have hu : a2.users = db.auth.users := by
    rcases hmail with ⟨-, hmail⟩ | ⟨-, rfl⟩
    · exact (returns_limited hmail).trans (returns_limited hip)
    · exact returns_limited hip
  have hget' : a2.users.get? id = some user := by
    rw [hu]
    exact hget
  exact hst (returns_login_unique hlogin hget' hemail)

/-! ## The way back -/

/-- The second factor of the login, where the account has one. -/
def SecondFactorPassed (env : PersonEnv) (now : ℤ) (id : ℕ) (db db' : PersonDb) : Prop :=
  db' = db ∨ ∃ totpCode, Svc.Returns
    (onTokens (verify2fa env.toTokenEnv now ⟨id, .partialLogin, now + minutes 5⟩ totpCode)) db ()
    db'

/-- The login `r` and a cancellation with its access token restore the account. -/
def ReturnsFromGrace (env : PersonEnv) (db : PersonDb) (id : ℕ) (r : LoginRequest) : Prop :=
  ∃ db1 db2 db3, Svc.Returns (onTokens (loginSession env.toTokenEnv r)) db () db1 ∧
    SecondFactorPassed env r.now id db1 db2 ∧
    Svc.Returns (cancelAccountDeletion r.now ⟨id, .access, r.now + accessTokenLifetime⟩) db2 ()
      db3 ∧
    Restored id db db3

/-- The row of an account. -/
theorem user?_eq_some {id : ℕ} {row : UserRow} (h : db.user? id = some row) :
    ∃ user, db.tokens.account? id = some user ∧
      user.row (db.tokens.totpSecretEnc id) (db.tokens.deletionGraceUntil id) (db.details id) =
        row :=
  Option.map_eq_some_iff.mp h

theorem not_returnsFromGrace {id : ℕ} {row : UserRow} {r : LoginRequest}
    (hrow : db.user? id = some row) (hst : row.status ≠ .active)
    (hemail : env.lower r.email = row.email) : ¬ ReturnsFromGrace env db id r := by
  rintro ⟨db1, _, _, hlogin, -⟩
  obtain ⟨user, hget, rfl⟩ := user?_eq_some hrow
  obtain ⟨t, hret, -⟩ := returns_onTokens.mp hlogin
  exact not_returns_loginSession hget hemail.symm hst hret

/-- A request while a window runs changes nothing. -/
theorem personStep_requestAgain {row : UserRow} (h : PendingHasGrace db)
    (hrow : db.user? token.sub = some row) (hst : row.status = .pendingDeletion) :
    personStep env db (.requestDeletion now token) = db := by
  obtain ⟨u, hret⟩ | heq := personStep_cases env db (.requestDeletion now token)
  · obtain ⟨-, heq⟩ := returns_requestAccountDeletion.mp hret
    have hgrace := h token.sub row hrow hst
    obtain ⟨user, hget, rfl⟩ := user?_eq_some hrow
    rw [heq, if_pos ((graceRunning_iff hget).mpr ⟨hst, hgrace⟩)]
  · exact heq

theorem restored_cancelDeletion {user : Account} (hs : SignedIn db.tokens now token user)
    (hst : user.status = .pendingDeletion) :
    Restored token.sub db (personStep env db (.cancelDeletion now token)) := by
  have hret : Svc.Returns ((PersonOp.cancelDeletion now token).service env) db ()
      (db.cancelled token.sub) := returns_cancelAccountDeletion.mpr ⟨⟨user, hs, hst⟩, rfl⟩
  rw [personStep_of_returns hret]
  exact restored_cancelled token.sub db

/-- **In every run, an account that is pending deletion cannot log in to cancel.**
    Another request leaves everything as it is, the end of the window included,
    and a cancellation with an access token that is still valid restores the
    account and nothing else. -/
theorem grace_window_closed (env : PersonEnv) (ops : List PersonOp) (id : ℕ) (row : UserRow)
    (hrow : (run (personStep env) PersonDb.empty ops).user? id = some row)
    (hst : row.status = .pendingDeletion) :
    (∀ r : LoginRequest, env.lower r.email = row.email →
      ¬ ReturnsFromGrace env (run (personStep env) PersonDb.empty ops) id r) ∧
    (∀ now token, token.sub = id →
      personStep env (run (personStep env) PersonDb.empty ops) (.requestDeletion now token) =
        run (personStep env) PersonDb.empty ops) ∧
    ∀ now token user, token.sub = id →
      SignedIn (run (personStep env) PersonDb.empty ops).tokens now token user →
      Restored id (run (personStep env) PersonDb.empty ops)
        (personStep env (run (personStep env) PersonDb.empty ops) (.cancelDeletion now token)) := by
  have hgrace : PendingHasGrace (run (personStep env) PersonDb.empty ops) :=
    run_induction (fun _ op h => personStep_pendingHasGrace op h) pendingHasGrace_empty ops
  refine ⟨fun r hemail => ?_, fun now token htoken => ?_, fun now token user htoken hs => ?_⟩
  · refine not_returnsFromGrace hrow ?_ hemail
    rw [hst]
    nofun
  · subst htoken
    exact personStep_requestAgain hgrace hrow hst
  · subst htoken
    refine restored_cancelDeletion hs ?_
    obtain ⟨user', hget, rfl⟩ := user?_eq_some hrow
    have hsame := hs.account
    rw [hget] at hsame
    cases hsame
    exact hst

/-! ## A user who wants to come back -/

/-- Passwords, codes and letters as they are. -/
def plainPersonEnv : PersonEnv where
  toTokenEnv := plainTokenEnv
  upper := id
  matchesEmail := fun s => s.toList.contains '@'

/-- Ann registers, confirms her email, logs in and asks for deletion. -/
def deletionRun : List PersonOp :=
  [.register ⟨0, "ann@example.com", "right", "Ann", "Lee", true⟩,
    .account ⟨.verifyEmail (seconds 1) ⟨0, .verifyEmail, days 1⟩, rfl⟩,
    .account ⟨.login ⟨seconds 2, "ann@example.com", "right", "203.0.113.7"⟩, rfl⟩,
    .requestDeletion (seconds 3) ⟨0, .access, seconds 2 + minutes 15⟩]

/-- Her row then. -/
def pendingRow : UserRow :=
  ⟨"ann@example.com", some "right", .pendingDeletion, false, none, some (seconds 3 + days 30),
    ⟨"Ann", "Lee", none, none, some (seconds 3)⟩⟩

theorem pendingRow_reached :
    (run (personStep plainPersonEnv) PersonDb.empty deletionRun).user? 0 = some pendingRow := by
  decide +kernel

/-- With the right password, a day later, she cannot come back. -/
theorem grace_window_closed_for_ann :
    ¬ ReturnsFromGrace plainPersonEnv
      (run (personStep plainPersonEnv) PersonDb.empty deletionRun) 0
      ⟨days 1, "ann@example.com", "right", "203.0.113.7"⟩ :=
  (grace_window_closed plainPersonEnv deletionRun 0 pendingRow pendingRow_reached rfl).1 _ rfl

/-- So it is not so that the right password opens a way back at every moment of
    the window. -/
theorem grace_window_not_open : ¬ ∀ (env : PersonEnv) (ops : List PersonOp) (id : ℕ)
    (row : UserRow) (hash : String) (grace : ℤ) (r : LoginRequest),
    (run (personStep env) PersonDb.empty ops).user? id = some row →
    row.status = .pendingDeletion → row.deletionGraceUntil = some grace → r.now < grace →
    env.lower r.email = row.email → truthy row.passwordHash = some hash →
    env.verifyPassword r.password hash = true →
    ReturnsFromGrace env (run (personStep env) PersonDb.empty ops) id r := by
  intro h
  have hback := h plainPersonEnv deletionRun 0 pendingRow "right" (seconds 3 + days 30)
    ⟨days 1, "ann@example.com", "right", "203.0.113.7"⟩ pendingRow_reached rfl rfl (by decide) rfl
    rfl rfl
  exact not_returnsFromGrace pendingRow_reached nofun rfl hback

end TempleConsign
