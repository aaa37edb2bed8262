import Mathlib.Logic.Function.Basic
import TempleConsign.Lib.ReadCommitted
import TempleConsign.Sessions

/-!
# Rotating refresh tokens concurrently

The functions of `session_service.py` as transactions at READ COMMITTED. A
rotation reads the session of its token without locking it, then updates the
row by its primary key (which locks it, and goes through when another
transaction has updated the row in the meantime) and inserts the new session.
The check of the user's status in `refresh_access_token` comes after both and
rolls them back.

Results:
* `rotate_alone`: an undisturbed rotation is `validate_and_rotate`.
* `sessionRule`: what a transaction knows at each point, and how a commit keeps
  the chains.
* `linear_iff`: a run keeps the tokens of each login a chain exactly when no
  rotation commits after another rotation of its token.
-/

namespace TempleConsign

open ServiceLib

/-- The sessions, with two columns that no code reads: `parent` is the token
    that a token was rotated from and `login` the first token of its chain. -/
structure SessionDb where
  sessions : Store UserSession
  parent : ℕ → Option ℕ
  login : ℕ → ℕ

def SessionDb.empty : SessionDb := ⟨Store.empty, fun _ => none, id⟩

inductive SessionCall
  /-- `issue_refresh_token` at a login. -/
  | issue (now : ℤ) (userId : ℕ)
  /-- `validate_and_rotate`. -/
  | rotate (now : ℤ) (rawToken : ℕ)
  | revoke (now : ℤ) (rawToken : ℕ)
  | revokeAll (now : ℤ) (userId : ℕ)

/-- Where a transaction stands, with what it has read. -/
inductive SessionPoint
  | issue (now : ℤ) (userId : ℕ)
  | issued (now : ℤ) (userId : ℕ)
  | rotate (now : ℤ) (rawToken : ℕ)
  /-- The `SELECT` found the token's session unrevoked; `seen` is the next key at
      that time, which no code reads. -/
  | rotating (now : ℤ) (rawToken : ℕ) (session : UserSession) (seen : ℕ)
  /-- The old session is revoked and the new one inserted. -/
  | rotated (now : ℤ) (rawToken : ℕ) (session : UserSession) (seen : ℕ)
  | revoke (now : ℤ) (rawToken : ℕ)
  | revokeAll (now : ℤ) (userId : ℕ)
  /-- The sessions found by the `SELECT` that are still to be updated. -/
  | revoking (now : ℤ) (tokens : List ℕ)

/-- What a login writes. -/
def SessionDb.issue (now : ℤ) (userId : ℕ) (db : SessionDb) : SessionDb where
  sessions := db.sessions.create (newSession now userId)
  parent := db.parent
  login := Function.update db.login db.sessions.next db.sessions.next

/-- What a rotation writes. -/
def SessionDb.rotate (now : ℤ) (token userId : ℕ) (db : SessionDb) : SessionDb where
  sessions := rotateToken now token userId db.sessions
  parent := Function.update db.parent db.sessions.next (some token)
  login := Function.update db.login db.sessions.next (db.login token)

/-- `UPDATE user_sessions SET revoked_at = now WHERE id = token`. -/
def SessionDb.revoke (now : ℤ) (token : ℕ) (db : SessionDb) : SessionDb :=
  { db with sessions := db.sessions.modify token (UserSession.revoke now) }

/-- The statements of each function; a lock is named by the session's key. -/
def sessionStmt : SessionPoint → SessionDb → Stmt SessionDb ℕ SessionPoint
  | .issue now userId, _ => .goOn [] (SessionDb.issue now userId) (.issued now userId)
  | .issued _ _, _ => .commit
  | .rotate now rawToken, db =>
    match (db.sessions.get? rawToken).filter (UserSession.liveAt now) with
    -- 401, "Refresh token is invalid or expired."
    | none => .rollback
    | some session => .goOn [] id (.rotating now rawToken session db.sessions.next)
  | .rotating now rawToken session seen, _ =>
    .goOn [rawToken] (SessionDb.rotate now rawToken session.userId)
      (.rotated now rawToken session seen)
  | .rotated _ _ _ _, _ => .commit
  | .revoke now rawToken, db =>
    match (db.sessions.get? rawToken).filter fun s => s.revokedAt = none with
    | none => .commit
    | some _ => .goOn [] id (.revoking now [rawToken])
  | .revokeAll now userId, db =>
    .goOn [] id (.revoking now ((db.sessions.select fun _ s => s.activeOf userId).map Prod.fst))
  | .revoking _ [], _ => .commit
  | .revoking now (token :: tokens), _ =>
    .goOn [token] (SessionDb.revoke now token) (.revoking now tokens)

def sessionProgram : Program SessionDb ℕ SessionCall SessionPoint where
  entry
    | .issue now userId => .issue now userId
    | .rotate now rawToken => .rotate now rawToken
    | .revoke now rawToken => .revoke now rawToken
    | .revokeAll now userId => .revokeAll now userId
  stmt := sessionStmt

/-- One event of the concurrent sessions. -/
abbrev sessionStep := rcStep sessionProgram

/-- The start of every run. -/
def noSessions : Rc SessionDb ℕ SessionPoint := Rc.init SessionDb.empty

/-- Undisturbed, the transaction of a rotation writes what `validate_and_rotate`
    writes; a refused token rolls it back. -/
theorem rotate_alone (now : ℤ) (token : ℕ) (db : SessionDb) :
    (run sessionStep (Rc.init db) [.start (.rotate now token), .exec 0, .exec 0, .exec 0]
        ).committed.sessions =
      (Svc.exec (validateAndRotate now token) db.sessions).2 := by
  have h0 := alone_start sessionProgram db (.rotate now token)
  simp only [run_cons, run_nil, sessionStep]
  rw [exec_validateAndRotate]
  cases hf : (db.sessions.get? token).filter (UserSession.liveAt now) with
  | none =>
    have hs : sessionProgram.next db (sessionProgram.begin (.rotate now token)) = .rollback := by
      simp only [Program.next, Program.begin, sessionProgram, sessionStmt, id_eq, hf]
    rw [h0.rollback hs, rcStep_ended, rcStep_ended]
  | some session =>
    have hs : sessionProgram.next db (sessionProgram.begin (.rotate now token)) =
        .goOn [] id (.rotating now token session db.sessions.next) := by
      simp only [Program.next, Program.begin, sessionProgram, sessionStmt, id_eq, hf]
    have h1 := h0.goOn hs
    have h2 := h1.goOn (p := sessionProgram) rfl
    rw [h2.commit (p := sessionProgram) rfl]
    rfl

/-! ## Linear chains -/

/-- Every token has at most one successor, and of the tokens of one login at most
    one is unrevoked. -/
structure LinearChains (db : SessionDb) : Prop where
  successor : ∀ j k p, db.parent j = some p → db.parent k = some p → j = k
  unrevoked : ∀ j k s r, db.login j = db.login k → db.sessions.get? j = some s →
    db.sessions.get? k = some r → s.revokedAt = none → r.revokedAt = none → j = k

/-- When a rotation commits, no successor of its token has been committed since
    it read the token. -/
def NotOvertaken (db : SessionDb) (a : Txn SessionDb ℕ SessionPoint) : Prop :=
  ∀ now token session seen, a.point = .rotated now token session seen →
    ∀ k, seen ≤ k → db.parent k ≠ some token

/-! ## What the transactions keep -/

/-- The token has not been rotated. -/
def SessionDb.IsLast (db : SessionDb) (k : ℕ) : Prop := ∀ j, db.parent j ≠ some k

/-- The chains of the tokens: a parent is older, revoked and of the same login;
    each token has one successor at most and each login one last token. -/
structure Chains (db : SessionDb) : Prop where
  rows : ∀ k, k < db.sessions.next → ∃ s, db.sessions.get? k = some s
  parent_lt : ∀ k p, db.parent k = some p → p < db.sessions.next ∧ k < db.sessions.next
  revoked : ∀ k p s, db.parent k = some p → db.sessions.get? p = some s → s.revokedAt ≠ none
  login_lt : ∀ k, k < db.sessions.next → db.login k < db.sessions.next
  successor : ∀ j k p, db.parent j = some p → db.parent k = some p → j = k
  last : ∀ j k, j < db.sessions.next → k < db.sessions.next → db.login j = db.login k →
    db.IsLast j → db.IsLast k → j = k

theorem Chains.linear {db : SessionDb} (h : Chains db) : LinearChains db where
  successor := h.successor
  unrevoked := by
    intro j k s r hl hj hk hs hr
    have last {i : ℕ} {u : UserSession} (hi : db.sessions.get? i = some u)
        (hu : u.revokedAt = none) : db.IsLast i :=
      fun j hj => h.revoked j i u hj hi hu
    exact h.last j k (Store.get?_lt hj) (Store.get?_lt hk) hl (last hj hs) (last hk hr)

/-- The writes of a revocation: no session comes or goes or is unrevoked. -/
structure OnlyRevokes (write : SessionDb → SessionDb) : Prop where
  parent : ∀ db, (write db).parent = db.parent
  login : ∀ db, (write db).login = db.login
  next : ∀ db, (write db).sessions.next = db.sessions.next
  row : ∀ db k, ∃ f : UserSession → UserSession,
    (write db).sessions.get? k = (db.sessions.get? k).map f ∧
      ∀ s, s.revokedAt ≠ none → (f s).revokedAt ≠ none

theorem onlyRevokes_id : OnlyRevokes id where
  parent := fun _ => rfl
  login := fun _ => rfl
  next := fun _ => rfl
  row := fun _ _ => ⟨id, by simp, fun _ hs => hs⟩

theorem OnlyRevokes.revoke {write : SessionDb → SessionDb} (h : OnlyRevokes write) (now : ℤ)
    (token : ℕ) : OnlyRevokes (SessionDb.revoke now token ∘ write) where
  parent := h.parent
  login := h.login
  next := by
    intro db
    show ((write db).sessions.modify token _).next = _
    rw [Store.modify_next, h.next]
  row := by
    intro db k
    obtain ⟨f, hf, hs⟩ := h.row db k
    show ∃ g, ((write db).sessions.modify token _).get? k = _ ∧ _
    rw [Store.get?_modify, hf]
    by_cases hk : k = token
    · refine ⟨UserSession.revoke now ∘ f, ?_, fun _ _ => Option.some_ne_none now⟩
      rw [if_pos hk, Option.map_map]
    · exact ⟨f, by rw [if_neg hk], hs⟩

theorem Chains.revoke {db : SessionDb} (h : Chains db) {write : SessionDb → SessionDb}
    (hw : OnlyRevokes write) : Chains (write db) where
  rows := by
    intro k hk
    rw [hw.next] at hk
    obtain ⟨f, hf, _⟩ := hw.row db k
    obtain ⟨s, hs⟩ := h.rows k hk
    exact ⟨f s, by rw [hf, hs]; rfl⟩
  parent_lt := by
    rw [hw.parent, hw.next]
    exact h.parent_lt
  revoked := by
    intro k p s hp hs
    rw [hw.parent] at hp
    obtain ⟨f, hf, hrev⟩ := hw.row db p
    rw [hf] at hs
    obtain ⟨s0, hs0, rfl⟩ := Option.map_eq_some_iff.mp hs
    exact hrev s0 (h.revoked k p s0 hp hs0)
  login_lt := by
    rw [hw.login, hw.next]
    exact h.login_lt
  successor := by
    rw [hw.parent]
    exact h.successor
  last := by
    unfold SessionDb.IsLast
    rw [hw.login, hw.next, hw.parent]
    exact h.last

theorem Chains.issue {db : SessionDb} (h : Chains db) (now : ℤ) (userId : ℕ) :
    Chains (db.issue now userId) := by
  have hnext : (db.issue now userId).sessions.next = db.sessions.next + 1 := rfl
  have hlogin (k : ℕ) : (db.issue now userId).login k =
      if k = db.sessions.next then db.sessions.next else db.login k := by
    simp [SessionDb.issue, Function.update_apply]
  -- the new token is the first of its login
  have hnew (k : ℕ) (hk : k < db.sessions.next) : db.login k ≠ db.sessions.next := by
    have := h.login_lt k hk
    omega
  constructor
  case rows =>
    intro k hk
    rw [hnext] at hk
    show ∃ s, (db.sessions.create _).get? k = some s
    rw [Store.get?_create]
    split_ifs with hkn
    · exact ⟨_, rfl⟩
    · exact h.rows k (by omega)
  case parent_lt =>
    intro k p hp
    obtain ⟨h1, h2⟩ := h.parent_lt k p hp
    rw [hnext]
    omega
  case revoked =>
    intro k p s hp hs
    have hlt := (h.parent_lt k p hp).1
    have hs' : (db.sessions.create (newSession now userId)).get? p = some s := hs
    rw [Store.get?_create, if_neg (by omega)] at hs'
    exact h.revoked k p s hp hs'
  case login_lt =>
    intro k hk
    rw [hnext] at hk ⊢
    rw [hlogin]
    split_ifs with hkn
    · omega
    · have := h.login_lt k (by omega)
      omega
  case successor => exact h.successor
  case last =>
    intro j k hj hk hl hjl hkl
    rw [hnext] at hj hk
    rw [hlogin, hlogin] at hl
    split_ifs at hl with hjn hkn hkn
    · omega
    · exact absurd hl.symm (hnew k (by omega))
    · exact absurd hl (hnew j (by omega))
    · exact h.last j k (by omega) (by omega) hl hjl hkl

/-- Rotating the last token of a chain makes the new one the last. -/
theorem Chains.rotate {db : SessionDb} (h : Chains db) (now : ℤ) {token : ℕ} (userId : ℕ)
    (ht : token < db.sessions.next) (hlast : db.IsLast token) :
    Chains (db.rotate now token userId) := by
  have hnext : (db.rotate now token userId).sessions.next = db.sessions.next + 1 := by
    show (Store.create _ _).next = _
    rw [Store.create_next, Store.modify_next]
  have hget (k : ℕ) : (db.rotate now token userId).sessions.get? k =
      if k = db.sessions.next then some (newSession now userId)
      else if k = token then (db.sessions.get? k).map (UserSession.revoke now)
      else db.sessions.get? k :=
    rotateToken_get? now token userId db.sessions k
  have hparent (k : ℕ) : (db.rotate now token userId).parent k =
      if k = db.sessions.next then some token else db.parent k := by
    simp [SessionDb.rotate, Function.update_apply]
  have hlogin (k : ℕ) : (db.rotate now token userId).login k =
      if k = db.sessions.next then db.login token else db.login k := by
    simp [SessionDb.rotate, Function.update_apply]
  constructor
  case rows =>
    intro k hk
    rw [hnext] at hk
    rw [hget]
    split_ifs with hkn hkt
    · exact ⟨_, rfl⟩
    · obtain ⟨s, hs⟩ := h.rows k (by omega)
      exact ⟨s.revoke now, by rw [hs]; rfl⟩
    · exact h.rows k (by omega)
  case parent_lt =>
    intro k p hp
    rw [hparent] at hp
    rw [hnext]
    split_ifs at hp with hkn
    · cases hp
      omega
    · have := h.parent_lt k p hp
      omega
  case revoked =>
    intro k p s hp hs
    rw [hparent] at hp
    rw [hget] at hs
    split_ifs at hp with hkn
    · cases hp
      rw [if_neg (by omega), if_pos rfl] at hs
      obtain ⟨s0, _, rfl⟩ := Option.map_eq_some_iff.mp hs
      exact Option.some_ne_none now
    · have hlt := (h.parent_lt k p hp).1
      rw [if_neg (by omega)] at hs
      split_ifs at hs with hpt
      · exact absurd (hpt ▸ hp) (hlast k)
      · exact h.revoked k p s hp hs
  case login_lt =>
    intro k hk
    rw [hnext] at hk ⊢
    rw [hlogin]
    split_ifs with hkn
    · have := h.login_lt token ht
      omega
    · have := h.login_lt k (by omega)
      omega
  case successor =>
    intro j k p hj hk
    rw [hparent] at hj hk
    split_ifs at hj hk with hjn hkn hkn
    · omega
    · cases hj
      exact absurd hk (hlast k)
    · cases hk
      exact absurd hj (hlast j)
    · exact h.successor j k p hj hk
  case last =>
    intro j k hj hk hl hjl hkl
    -- the rotated token now has a successor, so it is no longer a last one
    have hnot : ¬ (db.rotate now token userId).IsLast token := by
      intro hall
      exact hall db.sessions.next (by rw [hparent, if_pos rfl])
    have hold {i : ℕ} (hi : (db.rotate now token userId).IsLast i) : db.IsLast i := by
      intro m hm
      have hmlt := (h.parent_lt m i hm).2
      exact hi m (by rw [hparent, if_neg (by omega)]; exact hm)
    rw [hnext] at hj hk
    rw [hlogin, hlogin] at hl
    split_ifs at hl with hjn hkn hkn
    · omega
    · have hkt := h.last token k ht (by omega) hl hlast (hold hkl)
      exact absurd (hkt ▸ hkl) hnot
    · have hjt := h.last j token (by omega) ht hl (hold hjl) hlast
      exact absurd (hjt ▸ hjl) hnot
    · exact h.last j k (by omega) (by omega) hl (hold hjl) (hold hkl)

theorem chains_empty : Chains SessionDb.empty where
  rows := fun k hk => absurd hk (Nat.not_lt_zero k)
  parent_lt := nofun
  revoked := nofun
  login_lt := fun k hk => absurd hk (Nat.not_lt_zero k)
  successor := nofun
  last := fun j _ hj => absurd hj (Nat.not_lt_zero j)

/-! ## What a transaction knows -/

/-- The token has had no successor before the key `seen`. -/
def SessionDb.IsLastAt (db : SessionDb) (seen token : ℕ) : Prop :=
  token < seen ∧ seen ≤ db.sessions.next ∧ ∀ k, k < seen → db.parent k ≠ some token

/-- What each program point says about the writes so far and the committed
    sessions. -/
def SessionOk (db : SessionDb) (a : Txn SessionDb ℕ SessionPoint) : Prop :=
  match a.point with
  | .issue _ _ | .rotate _ _ | .revoke _ _ | .revokeAll _ _ => a.write = id
  | .issued now userId => a.write = SessionDb.issue now userId
  | .rotating _ token _ seen => a.write = id ∧ db.IsLastAt seen token
  | .rotated now token session seen =>
    a.write = SessionDb.rotate now token session.userId ∧ db.IsLastAt seen token
  | .revoking _ _ => OnlyRevokes a.write

theorem sessionOk_goOn {db : SessionDb} {a : Txn SessionDb ℕ SessionPoint} {locks : List ℕ}
    {write : SessionDb → SessionDb} {next : SessionPoint} (h : Chains db) (ha : SessionOk db a)
    (hs : sessionProgram.next db a = .goOn locks write next) :
    SessionOk db (a.goOn locks write next) := by
  obtain ⟨point, held, w⟩ := a
  unfold Program.next at hs
  cases point with
  | issue now userId =>
    obtain rfl : w = id := ha
    cases hs
    rfl
  | rotate now token =>
    obtain rfl : w = id := ha
    simp only [sessionProgram, sessionStmt, id_eq] at hs
    cases hf : (db.sessions.get? token).filter (UserSession.liveAt now) with
    | none => rw [hf] at hs; cases hs
    | some session =>
      rw [hf] at hs
      cases hs
      obtain ⟨hget, hlive⟩ := Option.filter_eq_some_iff.mp hf
      have hrev : session.revokedAt = none := (UserSession.liveAt_iff.mp hlive).1
      exact ⟨rfl, Store.get?_lt hget, le_refl _,
        fun k _ hk => h.revoked k token session hk hget hrev⟩
  | rotating now token session seen =>
    obtain ⟨hw, ht⟩ := ha
    obtain rfl : w = id := hw
    cases hs
    exact ⟨rfl, ht⟩
  | revoke now token =>
    obtain rfl : w = id := ha
    simp only [sessionProgram, sessionStmt, id_eq] at hs
    split at hs
    · cases hs
    · cases hs
      exact onlyRevokes_id
  | revokeAll now userId =>
    obtain rfl : w = id := ha
    cases hs
    exact onlyRevokes_id
  | revoking now tokens =>
    have hw : OnlyRevokes w := ha
    cases tokens with
    | nil => cases hs
    | cons token tokens =>
      cases hs
      exact hw.revoke now token
  | issued _ _ => cases hs
  | rotated _ _ _ _ => cases hs

/-- What a commit writes: nothing, a login's token, a rotation or revocations. -/
theorem commit_cases {db : SessionDb} {a : Txn SessionDb ℕ SessionPoint} (ha : SessionOk db a)
    (hs : sessionProgram.next db a = .commit) :
    OnlyRevokes a.write ∨
      (∃ now userId, a.point = .issued now userId ∧ a.write = SessionDb.issue now userId) ∨
      ∃ now token session seen, a.point = .rotated now token session seen ∧
        db.IsLastAt seen token ∧ a.write = SessionDb.rotate now token session.userId := by
  obtain ⟨point, held, w⟩ := a
  unfold Program.next at hs
  cases point with
  | issued now userId => exact .inr (.inl ⟨now, userId, rfl, ha⟩)
  | rotated now token session seen =>
    exact .inr (.inr ⟨now, token, session, seen, rfl, ha.2, ha.1⟩)
  | revoking now tokens => exact .inl ha
  | revoke now token =>
    obtain rfl : w = id := ha
    exact .inl onlyRevokes_id
  | rotate now token =>
    simp only [sessionProgram, sessionStmt] at hs
    split at hs <;> cases hs
  | issue _ _ => cases hs
  | rotating _ _ _ _ => cases hs
  | revokeAll _ _ => cases hs

/-- A commit keeps the sessions, and what it rotates gets a new key. -/
theorem commit_keeps {db : SessionDb} {a : Txn SessionDb ℕ SessionPoint} (ha : SessionOk db a)
    (hs : sessionProgram.next db a = .commit) :
    db.sessions.next ≤ (a.write db).sessions.next ∧
      ∀ k, k < db.sessions.next → (a.write db).parent k = db.parent k := by
  obtain hw | ⟨now, userId, _, hw⟩ | ⟨now, token, session, seen, _, _, hw⟩ := commit_cases ha hs
  · rw [hw.next, hw.parent]
    exact ⟨le_refl _, fun _ _ => rfl⟩
  · rw [hw]
    exact ⟨Nat.le_succ _, fun _ _ => rfl⟩
  · rw [hw]
    constructor
    · show _ ≤ (Store.create _ _).next
      rw [Store.create_next, Store.modify_next]
      omega
    · intro k hk
      show Function.update db.parent db.sessions.next (some token) k = db.parent k
      rw [Function.update_of_ne (by omega)]

theorem SessionDb.IsLastAt.frame {db : SessionDb} {a : Txn SessionDb ℕ SessionPoint}
    {seen token : ℕ} (h : db.IsLastAt seen token) (ha : SessionOk db a)
    (hs : sessionProgram.next db a = .commit) : (a.write db).IsLastAt seen token := by
  obtain ⟨ht, hle, hlast⟩ := h
  obtain ⟨hnext, hparent⟩ := commit_keeps ha hs
  refine ⟨ht, le_trans hle hnext, fun k hk => ?_⟩
  rw [hparent k (by omega)]
  exact hlast k hk

theorem sessionRule : TxnRule sessionProgram Chains SessionOk NotOvertaken where
  start := by
    intro db call _
    cases call <;> rfl
  goOn := fun _ _ _ _ _ h ha hs => sessionOk_goOn h ha hs
  commit := by
    intro db a h ha hs hk
    obtain hw | ⟨now, userId, _, hw⟩ | ⟨now, token, session, seen, hp, hlast, hw⟩ :=
      commit_cases ha hs
    · exact h.revoke hw
    · rw [hw]
      exact h.issue now userId
    · rw [hw]
      obtain ⟨ht, hle, hbefore⟩ := hlast
      refine h.rotate now session.userId (by omega) fun k => ?_
      by_cases hks : k < seen
      · exact hbefore k hks
      · exact hk now token session seen hp k (by omega)
  frame := by
    intro db a b _ ha hs _ hb _
    obtain ⟨point, held, w⟩ := b
    cases point with
    | rotating now token session seen => exact ⟨hb.1, hb.2.frame ha hs⟩
    | rotated now token session seen => exact ⟨hb.1, hb.2.frame ha hs⟩
    | _ => exact hb

/-- A rotation that commits after another one of its token gives the token a
    second successor. -/
theorem notOvertaken_of_linear {db : SessionDb} {a : Txn SessionDb ℕ SessionPoint}
    (h : Chains db) (ha : SessionOk db a) (hs : sessionProgram.next db a = .commit)
    (hl : LinearChains (a.write db)) : NotOvertaken db a := by
  intro now token session seen hp k _ hk
  obtain ⟨point, held, w⟩ := a
  obtain rfl : point = .rotated now token session seen := hp
  obtain ⟨hw, _⟩ := ha
  obtain rfl : w = SessionDb.rotate now token session.userId := hw
  have hlt := (h.parent_lt k token hk).2
  have hnew : (db.rotate now token session.userId).parent db.sessions.next = some token := by
    simp [SessionDb.rotate]
  have hold : (db.rotate now token session.userId).parent k = some token := by
    show Function.update db.parent db.sessions.next (some token) k = some token
    rw [Function.update_of_ne (by omega), hk]
  have := hl.successor k db.sessions.next token hold hnew
  omega

/-- The tokens of every login form a chain with at most one unrevoked token, in
    every state of a run, exactly when no rotation of the run commits after
    another rotation of the same token. -/
theorem linear_iff (ops : List (RcOp SessionCall)) :
    AllStates sessionStep (fun x => LinearChains x.committed) noSessions ops ↔
      AllSteps sessionStep (AtCommit sessionProgram NotOvertaken) noSessions ops :=
  committed_iff sessionRule (fun _ h => h.linear)
    (fun _ _ h ha hs hl => notOvertaken_of_linear h ha hs hl) chains_empty ops

/-- Two refresh requests with one token. -/
def doubleRefresh : List (RcOp SessionCall) :=
  [.start (.issue 0 0), .exec 0, .exec 0,
    .start (.rotate 1 0), .start (.rotate 1 0), .exec 1, .exec 2,
    .exec 1, .exec 2, .exec 1, .exec 2, .exec 2]

/-- The second rotation waits for the first one's row lock and then goes
    through: the token has two successors, both unrevoked. -/
theorem two_rotations_of_one_token :
    ¬ AllStates sessionStep (fun x => LinearChains x.committed) noSessions doubleRefresh := by
  intro h
  have hl := h.last.successor 1 2 0 (by decide +kernel) (by decide +kernel)
  omega

end TempleConsign
