import TempleConsign.RateLimit

/-!
# Refresh tokens

Model of `src/api/services/session_service.py`. A raw token is 64 random bytes
and its row holds its hash, which is unique, so a token is named by the key of
its row.

Results:
* `exec_validateAndRotate`: a rotation succeeds on the unrevoked, unexpired row
  of the token, revokes it and issues the next key.
* `rotateToken_get?`: the rows after it.
-/

namespace TempleConsign

open ServiceLib

/-- A row of `user_sessions` (`src/api/database/models.py` line 185). -/
structure UserSession where
  userId : ℕ
  expiresAt : ℤ
  revokedAt : Option ℤ
  deriving DecidableEq

abbrev SessionService (α : Type) := Svc (Store UserSession) HttpException α

/-- `timedelta(minutes=settings.access_token_expire_minutes)`. -/
def accessTokenLifetime : ℤ := minutes 15

/-- `timedelta(days=settings.refresh_token_expire_days)`. -/
def refreshTokenLifetime : ℤ := days 7

/-- The row that `issue_refresh_token` adds (line 30). -/
def newSession (now : ℤ) (userId : ℕ) : UserSession where
  userId := userId
  expiresAt := now + refreshTokenLifetime
  revokedAt := none

/-- `issue_refresh_token` (line 21). -/
def issueRefreshToken (now : ℤ) (userId : ℕ) : SessionService ℕ := do
  let db ← get
  modify fun db => db.create (newSession now userId)
  pure db.next

/-- The condition of the `SELECT` in `validate_and_rotate`: neither revoked nor
    expired. -/
def UserSession.liveAt (now : ℤ) (s : UserSession) : Bool :=
  s.revokedAt = none ∧ now < s.expiresAt

/-- `session.revoked_at = now`. -/
def UserSession.revoke (now : ℤ) (s : UserSession) : UserSession :=
  { s with revokedAt := some now }

/-- `validate_and_rotate` (line 42). -/
def validateAndRotate (now : ℤ) (rawToken : ℕ) : SessionService (Option (ℕ × ℕ)) := do
  let db ← get
  match (db.get? rawToken).filter (UserSession.liveAt now) with
  | none => pure none
  | some session =>
    modify fun db => db.modify rawToken (UserSession.revoke now)
    let newToken ← issueRefreshToken now session.userId
    pure (some (session.userId, newToken))

/-- `revoke_token` (line 75). -/
def revokeToken (now : ℤ) (rawToken : ℕ) : SessionService Unit :=
  modify fun db => db.modify rawToken fun s => if s.revokedAt = none then s.revoke now else s

/-- The condition of the `SELECT` in `revoke_all_for_user`. -/
def UserSession.activeOf (userId : ℕ) (s : UserSession) : Bool :=
  s.userId = userId ∧ s.revokedAt = none

/-- `revoke_all_for_user` (line 90). -/
def revokeAllForUser (now : ℤ) (userId : ℕ) : SessionService Unit :=
  modify fun db => db.modifyWhere (fun _ s => s.activeOf userId) (UserSession.revoke now)

/-- What a rotation of `token` for `userId` writes. -/
def rotateToken (now : ℤ) (token userId : ℕ) (db : Store UserSession) : Store UserSession :=
  (db.modify token (UserSession.revoke now)).create (newSession now userId)

@[simp] theorem newSession_userId (now : ℤ) (userId : ℕ) :
    (newSession now userId).userId = userId := rfl

@[simp] theorem newSession_revokedAt (now : ℤ) (userId : ℕ) :
    (newSession now userId).revokedAt = none := rfl

@[simp] theorem UserSession.revoke_userId (now : ℤ) (s : UserSession) :
    (s.revoke now).userId = s.userId := rfl

@[simp] theorem UserSession.revoke_revokedAt (now : ℤ) (s : UserSession) :
    (s.revoke now).revokedAt = some now := rfl

theorem UserSession.liveAt_iff {now : ℤ} {s : UserSession} :
    s.liveAt now = true ↔ s.revokedAt = none ∧ now < s.expiresAt := by
  simp [UserSession.liveAt]

/-- A new token is live when it is issued. -/
theorem newSession_liveAt (now : ℤ) (userId : ℕ) : (newSession now userId).liveAt now = true := by
  rw [UserSession.liveAt_iff]
  have hpos : 0 < refreshTokenLifetime := by decide
  exact ⟨rfl, by unfold newSession; dsimp only; omega⟩

theorem exec_validateAndRotate (now : ℤ) (rawToken : ℕ) (db : Store UserSession) :
    Svc.exec (validateAndRotate now rawToken) db =
      match (db.get? rawToken).filter (UserSession.liveAt now) with
      | none => (.ok none, db)
      | some s => (.ok (some (s.userId, db.next)), rotateToken now rawToken s.userId db) := by
  unfold validateAndRotate
  rw [Svc.exec_bind, Svc.exec_get]
  dsimp only
  cases h : (db.get? rawToken).filter (UserSession.liveAt now) with
  | none => rfl
  | some s =>
    simp only [issueRefreshToken, Svc.exec_bind, Svc.exec_modify, Svc.exec_get, Svc.exec_pure,
      Store.modify_next, rotateToken]

theorem rotateToken_get? (now : ℤ) (token userId : ℕ) (db : Store UserSession) (k : ℕ) :
    (rotateToken now token userId db).get? k =
      if k = db.next then some (newSession now userId)
      else if k = token then (db.get? k).map (UserSession.revoke now) else db.get? k := by
  unfold rotateToken
  rw [Store.get?_create, Store.modify_next, Store.get?_modify]

end TempleConsign
