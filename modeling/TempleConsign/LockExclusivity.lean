import TempleConsign.Lib.ReadCommitted
import TempleConsign.RecordLocks

/-!
# Exclusive record locks

The statements of `src/api/services/record_lock_service.py` in transactions at READ
COMMITTED, and the clock they read between the statements. `acquire` reads the row,
deletes it by its key if it was expired, and inserts its own; nothing checks that the
row is still expired when it is deleted. An UPDATE sets an expiry that was computed
before it waited.

`log` keeps the successful calls that have committed, and the locks that a release or
an override took away.

Deviations:
* The INSERT that meets a committed row of its record does not wait for another
  transaction that writes to that row. The runs are more than those of the database.
* The audit rows and the notification of an override are left out.

Results:
* `acquire_alone`, `heartbeat_alone`, `release_alone`, `override_alone`: undisturbed, the
  transactions are the services.
* `lock_exclusive_of_steps`: where no acquire deletes a row that is live by then, and no
  UPDATE sets an expiry back, an acquire returns success only when no other user's
  success is still running.
* `stale_reading_intrudes`: the two ways in which it goes wrong.
-/

namespace TempleConsign

open ServiceLib

/-! ## State -/

/-- The columns of the unique constraint of `record_locks`. -/
abbrev LockKey := ℕ × String

def RecordLock.key (r : RecordLock) : LockKey := (r.recordId, r.recordType)

def LockCall.key (c : LockCall) : LockKey := (c.recordId, c.recordType)

/-- What has been committed. `seen` is the length of the log when the call read or wrote
    the row of which it reports the expiry. -/
inductive LockEntry
  | succeeded (key : LockKey) (user : ℕ) (expiry : ℤ) (seen : ℕ)
  /-- A release or an override deleted the user's row. -/
  | ended (key : LockKey) (user : ℕ)
  deriving DecidableEq

structure LockDb where
  locks : Locks
  log : List LockEntry

def LockDb.delete (id : ℕ) (s : LockDb) : LockDb := { s with locks := s.locks.delete id }

def LockDb.insert (row : RecordLock) (s : LockDb) : LockDb :=
  { s with locks := s.locks.create row }

/-- `UPDATE record_locks SET expires_at = … WHERE id = …`. -/
def LockDb.setExpiry (id : ℕ) (expiry : ℤ) (s : LockDb) : LockDb :=
  { s with locks := s.locks.modify id fun r => { r with expiresAt := expiry } }

def LockDb.record (entry : LockEntry) (s : LockDb) : LockDb := { s with log := s.log ++ [entry] }

/-! ## The transactions -/

inductive LockRequest
  | acquire (user recordId : ℕ) (recordType : String)
  | heartbeat (user recordId : ℕ) (recordType : String)
  | release (user recordId : ℕ) (recordType : String)
  | override (recordId : ℕ) (recordType : String)

/-- What comes next. The `now` of the call is the time of its transaction; from the
    UPDATE of a heartbeat on, it is the `now` of its `WHERE`. -/
inductive LockPoint
  | acquire (c : LockCall)
  /-- `acquire` has read the row, and reads the clock. -/
  | found (c : LockCall) (id : ℕ) (row : RecordLock)
  | takeOver (c : LockCall) (id : ℕ) (row : RecordLock)
  | restamp (c : LockCall) (id : ℕ) (row : RecordLock)
  | refresh (c : LockCall) (id : ℕ) (row : RecordLock) (expiry : ℤ)
  | stamp (c : LockCall)
  | insert (c : LockCall) (expiry : ℤ)
  | conflicted (c : LockCall)
  /-- `acquire` has returned. -/
  | acquired (c : LockCall) (expiry : ℤ)
  | heartbeat (c : LockCall)
  | beatNow (c : LockCall) (expiry : ℤ)
  | beat (c : LockCall) (expiry : ℤ)
  | beatRow (c : LockCall) (expiry : ℤ) (id : ℕ)
  | expired
  | release (c : LockCall)
  | releaseRow (c : LockCall) (id : ℕ)
  | override (recordId : ℕ) (recordType : String)
  | overrideRow (id : ℕ)
  /-- Another call has returned. -/
  | done

abbrev LockStmt := Stmt LockDb LockKey LockPoint

abbrev LockTxn := Txn LockDb LockKey LockPoint

/-- Nothing is written. -/
def pass (next : LockPoint) : LockStmt := .goOn [] id next

/-- The answer of `_find` (line 219). -/
def findLock (recordId : ℕ) (recordType : String) (s : LockDb) :
    Option (Option (ℕ × RecordLock)) :=
  Store.scalarOneOrNone (s.locks.select (onRecord recordId recordType))

/-- The `WHERE` of `release` (line 186). -/
def isLockOf (c : LockCall) (_ : ℕ) (r : RecordLock) : Bool :=
  r.recordId = c.recordId && r.recordType = c.recordType && r.lockedBy = c.user

/-- The call returns success. -/
def LockCall.success (c : LockCall) (expiry : ℤ) (s : LockDb) : LockEntry :=
  .succeeded c.key c.user expiry s.log.length

/-- The row of the INSERT (line 113). -/
def LockCall.newRow (c : LockCall) (expiry : ℤ) : RecordLock := { c.row with expiresAt := expiry }

/-- `acquire` (line 91): the first `_find`. -/
def acquireStmt (c : LockCall) (s : LockDb) : LockStmt :=
  match findLock c.recordId c.recordType s with
  | some (some (rowId, row)) => pass (.found c rowId row)
  | some none => pass (.stamp c)
  | none => .rollback

/-- The decision about the row that was read. A `LockHeldError` becomes an answer of the
    router, and the session commits. -/
def foundStmt (now : ℤ) (c : LockCall) (rowId : ℕ) (row : RecordLock) : LockStmt :=
  if row.expiresAt ≤ now then pass (.takeOver c rowId row)
  else if row.lockedBy = c.user then pass (.restamp c rowId row)
  else .commit

/-- `DELETE … WHERE id = existing.id`. -/
def takeOverStmt (c : LockCall) (rowId : ℕ) (s : LockDb) : LockStmt :=
  match s.locks.get? rowId with
  | some row => .goOn [row.key] (.delete rowId) (.stamp c)
  | none => pass (.stamp c)

/-- The flush of `existing.expires_at`: no statement if it did not change, and a
    `StaleDataError` if the row is gone. -/
def refreshStmt (c : LockCall) (rowId : ℕ) (existing : RecordLock) (expiry : ℤ) (s : LockDb) :
    LockStmt :=
  if expiry = existing.expiresAt then
    .goOn [] (.record (c.success expiry s)) (.acquired c expiry)
  else
    match s.locks.get? rowId with
    | some row =>
      .goOn [row.key] (.record (c.success expiry s) ∘ .setExpiry rowId expiry) (.acquired c expiry)
    | none => .rollback

/-- The INSERT in its savepoint. -/
def insertStmt (c : LockCall) (expiry : ℤ) (s : LockDb) : LockStmt :=
  if s.locks.exists? (onRecord c.recordId c.recordType) then pass (.conflicted c)
  else .goOn [c.key] (.record (c.success expiry s) ∘ .insert (c.newRow expiry))
    (.acquired c expiry)

/-- `_find` after an `IntegrityError`. -/
def conflictStmt (c : LockCall) (s : LockDb) : LockStmt :=
  match findLock c.recordId c.recordType s with
  | some (some (_, row)) =>
    if row.lockedBy = c.user then
      .goOn [] (.record (c.success row.expiresAt s)) (.acquired c row.expiresAt)
    else .commit
  | _ => .rollback

/-- `heartbeat` (line 149): the row that the UPDATE finds. -/
def beatStmt (c : LockCall) (expiry : ℤ) (s : LockDb) : LockStmt :=
  match Store.scalarOneOrNone (s.locks.select (isLiveLockOf c)) with
  | some (some (rowId, _)) => pass (.beatRow c expiry rowId)
  | _ => .rollback

/-- The UPDATE of that row, which checks its `WHERE` again. -/
def beatRowStmt (c : LockCall) (expiry : ℤ) (rowId : ℕ) (s : LockDb) : LockStmt :=
  match s.locks.get? rowId with
  | some row =>
    if isLiveLockOf c rowId row then
      .goOn [row.key] (.record (c.success expiry s) ∘ .setExpiry rowId expiry) .done
    else .goOn [row.key] id .expired
  | none => .rollback

/-- `release` (line 177): the row that the DELETE finds. -/
def releaseStmt (c : LockCall) (s : LockDb) : LockStmt :=
  match Store.scalarOneOrNone (s.locks.select (isLockOf c)) with
  | some (some (rowId, _)) => pass (.releaseRow c rowId)
  | _ => .commit

/-- A DELETE that ends the lock of a row. -/
def endLock (rowId : ℕ) (row : RecordLock) : LockStmt :=
  .goOn [row.key] (.record (.ended row.key row.lockedBy) ∘ .delete rowId) .done

/-- The DELETE of that row, which checks its `WHERE` again. -/
def releaseRowStmt (c : LockCall) (rowId : ℕ) (s : LockDb) : LockStmt :=
  match s.locks.get? rowId with
  | some row => if isLockOf c rowId row then endLock rowId row else .goOn [row.key] id .done
  | none => .commit

/-- `override` (line 198): without a row the router answers 404. -/
def overrideStmt (recordId : ℕ) (recordType : String) (s : LockDb) : LockStmt :=
  match findLock recordId recordType s with
  | some (some (rowId, _)) => pass (.overrideRow rowId)
  | _ => .rollback

/-- `DELETE … WHERE id = existing.id`. -/
def overrideRowStmt (rowId : ℕ) (s : LockDb) : LockStmt :=
  match s.locks.get? rowId with
  | some row => endLock rowId row
  | none => pass .done

def lockStmt (now : ℤ) : LockPoint → LockDb → LockStmt
  | .acquire c, s => acquireStmt c s
  | .found c rowId row, _ => foundStmt now c rowId row
  | .takeOver c rowId _, s => takeOverStmt c rowId s
  | .restamp c rowId row, _ => pass (.refresh c rowId row (newExpiry now))
  | .refresh c rowId row expiry, s => refreshStmt c rowId row expiry s
  | .stamp c, _ => pass (.insert c (newExpiry now))
  | .insert c expiry, s => insertStmt c expiry s
  | .conflicted c, s => conflictStmt c s
  | .acquired .., _ => .commit
  | .heartbeat c, _ => pass (.beatNow c (newExpiry now))
  | .beatNow c expiry, _ => pass (.beat { c with now := now } expiry)
  | .beat c expiry, s => beatStmt c expiry s
  | .beatRow c expiry rowId, s => beatRowStmt c expiry rowId s
  | .expired, _ => .rollback
  | .release c, s => releaseStmt c s
  | .releaseRow c rowId, s => releaseRowStmt c rowId s
  | .override recordId recordType, s => overrideStmt recordId recordType s
  | .overrideRow rowId, s => overrideRowStmt rowId s
  | .done, _ => .commit

/-- The lock service when the clock shows `now`. -/
def lockProgram (now : ℤ) : Program LockDb LockKey LockRequest LockPoint where
  entry
    | .acquire user recordId recordType => .acquire ⟨now, user, recordId, recordType⟩
    | .heartbeat user recordId recordType => .heartbeat ⟨now, user, recordId, recordType⟩
    | .release user recordId recordType => .release ⟨now, user, recordId, recordType⟩
    | .override recordId recordType => .override recordId recordType
  stmt := lockStmt now

abbrev LockWorld := Clocked LockDb LockKey LockPoint

def locksStep : LockWorld → ClockedOp LockRequest → LockWorld := clockedStep lockProgram

/-! ## The property -/

/-- A success of the user with this expiry is committed, and his lock not ended since. -/
def HeldUntil (log : List LockEntry) (key : LockKey) (user : ℕ) (expiry : ℤ) : Prop :=
  ∃ seen, .succeeded key user expiry seen ∈ log ∧ .ended key user ∉ log.drop seen

/-- The acquire that returns success with the next statement of transaction `t`. -/
def acquireReturn (x : LockWorld) (t : ℕ) : Option LockCall :=
  match x.db.txns.get? t with
  | none => none
  | some a =>
    match (lockProgram x.now).next x.db.committed a with
    | .goOn locks _ (.acquired c _) => if x.db.blocked t locks then none else some c
    | _ => none

/-- An acquire returns success only when no success of another user is still running. -/
def ReturnsAlone (x : LockWorld) : ClockedOp LockRequest → Prop
  | .db (.exec t) => ∀ c ∈ acquireReturn x t, ∀ user expiry, user ≠ c.user →
      HeldUntil x.db.committed.log c.key user expiry → expiry ≤ x.now
  | _ => True

/-- A statement acts on what it has read: the row that an acquire deletes is still
    expired, and an UPDATE sets no expiry back. -/
def NoStaleWrite (now : ℤ) (s : LockDb) (a : LockTxn) : Prop :=
  match a.point with
  | .takeOver _ rowId _ => ∀ row, s.locks.get? rowId = some row → row.expiresAt ≤ now
  | .refresh _ rowId existing expiry => existing.expiresAt < expiry ∧
      ∀ row, s.locks.get? rowId = some row → row.expiresAt ≤ expiry
  | .beatRow _ expiry rowId => ∀ row, s.locks.get? rowId = some row → row.expiresAt ≤ expiry
  | _ => True

/-- A table that meets the unique constraint. -/
structure UniqueLocks where
  locks : Locks
  one : OneRowPerRecord locks

/-- The table at a time, without transactions. -/
def UniqueLocks.world (start : UniqueLocks) (now : ℤ) : LockWorld :=
  ⟨now, Rc.init ⟨start.locks, []⟩⟩

/-! ## Rows of one record -/

variable {now : ℤ} {s s' : LockDb} {a b : LockTxn} {c : LockCall} {rowId : ℕ} {row : RecordLock}

theorem onRecord_iff_key {recordId : ℕ} {recordType : String} :
    onRecord recordId recordType rowId row = true ↔ row.key = (recordId, recordType) := by
  rw [onRecord_iff, RecordLock.key, Prod.mk.injEq]

theorem isLockOf_iff : isLockOf c rowId row = true ↔ row.key = c.key ∧ row.lockedBy = c.user := by
  simp [isLockOf, RecordLock.key, LockCall.key]

theorem OneRowPerRecord.of_key {t : Locks} (h : OneRowPerRecord t) {i j : ℕ} {r r' : RecordLock}
    (hi : t.get? i = some r) (hj : t.get? j = some r') (hk : r.key = r'.key) : i = j ∧ r = r' := by
  obtain ⟨hid, htype⟩ := Prod.mk.inj hk
  exact h.eq hi hj hid htype

/-- Once the row of a record is deleted, the record has none. -/
theorem OneRowPerRecord.free_after_delete {t : Locks} (h : OneRowPerRecord t) {old : RecordLock}
    (hold : t.get? rowId = some old) {j : ℕ} {r : RecordLock}
    (hr : (t.delete rowId).get? j = some r) : r.key ≠ old.key := by
  rw [Store.get?_delete] at hr
  split_ifs at hr with hj
  intro hkey
  exact hj (h.of_key hr hold hkey).1

theorem findLock_eq_some {recordId : ℕ} {recordType : String}
    (h : findLock recordId recordType s = some (some (rowId, row))) :
    s.locks.get? rowId = some row ∧ row.key = (recordId, recordType) := by
  obtain ⟨⟨hrow, hon⟩, -⟩ := Store.scalar_select_some_iff.mp h
  exact ⟨hrow, onRecord_iff_key.mp hon⟩

/-! ## A transaction alone -/

theorem exists_onRecord_false {t : Locks} {recordId : ℕ} {recordType : String}
    (h : ∀ j r, t.get? j = some r → onRecord recordId recordType j r = false) :
    t.exists? (onRecord recordId recordType) = false := by
  rw [← Bool.not_eq_true, Store.exists?_iff]
  rintro ⟨j, r, hr, hon⟩
  rw [h j r hr] at hon
  cases hon

/-- The INSERT of a record without a row. -/
theorem insertStmt_free {expiry : ℤ}
    (h : ∀ j r, s.locks.get? j = some r → onRecord c.recordId c.recordType j r = false) :
    insertStmt c expiry s = .goOn [c.key]
      (.record (c.success expiry s) ∘ .insert (c.newRow expiry)) (.acquired c expiry) := by
  unfold insertStmt
  rw [exists_onRecord_false h]
  rfl

/-- The acquire of a transaction that runs alone on a table. -/
def acquireAlone (c : LockCall) (t : Locks) (l : List LockEntry) : LockDb :=
  (run (rcStep (lockProgram c.now)) (Rc.init ⟨t, l⟩)
    (.start (.acquire c.user c.recordId c.recordType) :: List.replicate 6 (.exec 0))).committed

theorem acquireAlone_free {t : Locks} (l : List LockEntry)
    (hfree : ∀ j r, t.get? j = some r → onRecord c.recordId c.recordType j r = false) :
    acquireAlone c t l = ⟨t.create c.row, l ++ [c.success (newExpiry c.now) ⟨t, l⟩]⟩ := by
  have h0 := alone_start (lockProgram c.now) ⟨t, l⟩ (.acquire c.user c.recordId c.recordType)
  have s1 : lockStmt c.now (.acquire c) ⟨t, l⟩ = pass (.stamp c) := by
    simp only [lockStmt, acquireStmt, findLock, Store.scalar_select_none_iff.mpr hfree]
  have h1 := h0.goOn (p := lockProgram c.now) s1
  have h2 := h1.goOn (p := lockProgram c.now) rfl
  have h3 := h2.goOn (p := lockProgram c.now) (insertStmt_free hfree)
  simp only [acquireAlone, run_cons, run_nil, List.replicate]
  rw [h3.commit (p := lockProgram c.now) rfl, rcStep_ended, rcStep_ended]
  rfl

variable {t : Locks} {j : ℕ} {r : RecordLock}

/-- After the SELECT that found a row. -/
theorem alone_found (l : List LockEntry)
    (hfind : Store.scalarOneOrNone (t.select (onRecord c.recordId c.recordType)) =
      some (some (j, r))) :
    Alone (rcStep (lockProgram c.now) (rcStep (lockProgram c.now) (Rc.init ⟨t, l⟩)
      (.start (.acquire c.user c.recordId c.recordType))) (.exec 0)) ⟨t, l⟩ 0
      ⟨.found c j r, [], id⟩ := by
  have s1 : lockStmt c.now (.acquire c) ⟨t, l⟩ = pass (.found c j r) := by
    simp only [lockStmt, acquireStmt, findLock, hfind]
  exact (alone_start (lockProgram c.now) ⟨t, l⟩
    (.acquire c.user c.recordId c.recordType)).goOn (p := lockProgram c.now) s1

theorem acquireAlone_expired (hu : OneRowPerRecord t) (l : List LockEntry)
    (hfind : Store.scalarOneOrNone (t.select (onRecord c.recordId c.recordType)) =
      some (some (j, r))) (hexp : r.expiresAt ≤ c.now) :
    acquireAlone c t l =
      ⟨(t.delete j).create c.row, l ++ [c.success (newExpiry c.now) ⟨t, l⟩]⟩ := by
  obtain ⟨hr, hkey⟩ : t.get? j = some r ∧ r.key = c.key := findLock_eq_some (s := ⟨t, l⟩) hfind
  have h1 := alone_found l hfind
  have s2 : lockStmt c.now (.found c j r) ⟨t, l⟩ = pass (.takeOver c j r) := by
    simp only [lockStmt, foundStmt, if_pos hexp]
  have h2 := h1.goOn (p := lockProgram c.now) s2
  have s3 : lockStmt c.now (.takeOver c j r) ⟨t, l⟩ = .goOn [r.key] (.delete j) (.stamp c) := by
    simp only [lockStmt, takeOverStmt, hr]
  have h3 := h2.goOn (p := lockProgram c.now) s3
  have h4 := h3.goOn (p := lockProgram c.now) rfl
  have hfree : ∀ i r', (t.delete j).get? i = some r' →
      onRecord c.recordId c.recordType i r' = false := by
    intro i r' hi
    have hne := hu.free_after_delete hr hi
    rw [← Bool.not_eq_true, onRecord_iff_key]
    exact fun hkey' => hne (hkey'.trans hkey.symm)
  have s5 : insertStmt c (newExpiry c.now) ⟨t.delete j, l⟩ = _ := insertStmt_free hfree
  have h5 := h4.goOn (p := lockProgram c.now) s5
  simp only [acquireAlone, run_cons, run_nil, List.replicate]
  rw [h5.commit (p := lockProgram c.now) rfl]
  rfl

theorem acquireAlone_own (l : List LockEntry)
    (hfind : Store.scalarOneOrNone (t.select (onRecord c.recordId c.recordType)) =
      some (some (j, r))) (hlive : c.now < r.expiresAt) (hown : r.lockedBy = c.user) :
    (∀ k, (acquireAlone c t l).locks.get? k =
      (t.modify j fun r => { r with expiresAt := newExpiry c.now }).get? k) ∧
      (acquireAlone c t l).log = l ++ [c.success (newExpiry c.now) ⟨t, l⟩] := by
  have hr : t.get? j = some r := (findLock_eq_some (s := ⟨t, l⟩) hfind).1
  have hnot : ¬r.expiresAt ≤ c.now := by omega
  have h1 := alone_found l hfind
  have s2 : lockStmt c.now (.found c j r) ⟨t, l⟩ = pass (.restamp c j r) := by
    simp only [lockStmt, foundStmt, if_neg hnot, if_pos hown]
  have h2 := h1.goOn (p := lockProgram c.now) s2
  have h3 := h2.goOn (p := lockProgram c.now) rfl
  by_cases hsame : newExpiry c.now = r.expiresAt
  · have s4 : lockStmt c.now (.refresh c j r (newExpiry c.now)) ⟨t, l⟩ =
        .goOn [] (.record (c.success (newExpiry c.now) ⟨t, l⟩))
          (.acquired c (newExpiry c.now)) := by
      simp only [lockStmt, refreshStmt, if_pos hsame]
    have h4 := h3.goOn (p := lockProgram c.now) s4
    have hend : acquireAlone c t l = ⟨t, l ++ [c.success (newExpiry c.now) ⟨t, l⟩]⟩ := by
      simp only [acquireAlone, run_cons, run_nil, List.replicate]
      rw [h4.commit (p := lockProgram c.now) rfl, rcStep_ended]
      rfl
    rw [hend]
    refine ⟨fun k => ?_, rfl⟩
    rw [Store.get?_modify]
    split_ifs with hk
    · rw [hk, hr, hsame]
      rfl
    · rfl
  · have s4 : lockStmt c.now (.refresh c j r (newExpiry c.now)) ⟨t, l⟩ =
        .goOn [r.key] (.record (c.success (newExpiry c.now) ⟨t, l⟩) ∘
          .setExpiry j (newExpiry c.now)) (.acquired c (newExpiry c.now)) := by
      simp only [lockStmt, refreshStmt, if_neg hsame, hr]
    have h4 := h3.goOn (p := lockProgram c.now) s4
    have hend : acquireAlone c t l = ⟨t.modify j fun r => { r with expiresAt := newExpiry c.now },
        l ++ [c.success (newExpiry c.now) ⟨t, l⟩]⟩ := by
      simp only [acquireAlone, run_cons, run_nil, List.replicate]
      rw [h4.commit (p := lockProgram c.now) rfl, rcStep_ended]
      rfl
    rw [hend]
    exact ⟨fun k => rfl, rfl⟩

/-- Undisturbed, the transaction of a successful acquire writes what the service writes. -/
theorem acquire_alone {t' : Locks} {info : RecordLock} (hu : OneRowPerRecord t)
    (l : List LockEntry) (h : Svc.Returns (acquire c) t info t') :
    (∀ k, (acquireAlone c t l).locks.get? k = t'.get? k) ∧
      (acquireAlone c t l).log = l ++ [c.success info.expiresAt ⟨t, l⟩] := by
  unfold Svc.Returns at h
  rcases acquire_cases hu c with ⟨hx, hfree⟩ | ⟨j, r, hfind, -, -, -, hcase⟩
  · obtain ⟨hinfo, rfl⟩ := Prod.mk.inj (h.symm.trans hx)
    obtain rfl := Except.ok.inj hinfo
    rw [acquireAlone_free l hfree]
    exact ⟨fun k => rfl, rfl⟩
  rcases hcase with ⟨hexp, hx⟩ | ⟨hlive, hown, hx⟩ | ⟨-, -, hx⟩
  · obtain ⟨hinfo, rfl⟩ := Prod.mk.inj (h.symm.trans hx)
    obtain rfl := Except.ok.inj hinfo
    rw [acquireAlone_expired hu l hfind hexp]
    exact ⟨fun k => rfl, rfl⟩
  · obtain ⟨hinfo, rfl⟩ := Prod.mk.inj (h.symm.trans hx)
    obtain rfl := Except.ok.inj hinfo
    exact acquireAlone_own l hfind hlive hown
  · cases h.symm.trans hx

/-- Undisturbed, the transaction of a successful heartbeat writes what the service writes. -/
theorem heartbeat_alone {t' : Locks} {info : RecordLock} (l : List LockEntry)
    (h : Svc.Returns (heartbeat c) t info t') :
    (run (rcStep (lockProgram c.now)) (Rc.init ⟨t, l⟩)
      (.start (.heartbeat c.user c.recordId c.recordType) ::
        List.replicate 5 (.exec 0))).committed =
      ⟨t', l ++ [c.success info.expiresAt ⟨t, l⟩]⟩ := by
  obtain ⟨j, r, hfind, rfl, rfl⟩ := returns_heartbeat.mp h
  obtain ⟨⟨hr, hlive⟩, -⟩ := Store.scalar_select_some_iff.mp hfind
  have h0 := alone_start (lockProgram c.now) ⟨t, l⟩ (.heartbeat c.user c.recordId c.recordType)
  have h1 := h0.goOn (p := lockProgram c.now) rfl
  have h2 := h1.goOn (p := lockProgram c.now) rfl
  have s3 : lockStmt c.now (.beat c (newExpiry c.now)) ⟨t, l⟩ =
      pass (.beatRow c (newExpiry c.now) j) := by
    simp only [lockStmt, beatStmt, hfind]
  have h3 := h2.goOn (p := lockProgram c.now) s3
  have s4 : lockStmt c.now (.beatRow c (newExpiry c.now) j) ⟨t, l⟩ =
      .goOn [r.key] (.record (c.success (newExpiry c.now) ⟨t, l⟩) ∘
        .setExpiry j (newExpiry c.now)) .done := by
    simp only [lockStmt, beatRowStmt, hr]
    rw [if_pos hlive]
  have h4 := h3.goOn (p := lockProgram c.now) s4
  simp only [run_cons, run_nil, List.replicate]
  rw [h4.commit (p := lockProgram c.now) rfl]
  rfl

/-- Undisturbed, the transaction of a release leaves the rows that the service leaves. -/
theorem release_alone {t' : Locks} {removed : Bool} (hu : OneRowPerRecord t)
    (l : List LockEntry) (h : Svc.Returns (release c) t removed t') (k : ℕ) :
    (run (rcStep (lockProgram c.now)) (Rc.init ⟨t, l⟩)
      (.start (.release c.user c.recordId c.recordType) ::
        List.replicate 3 (.exec 0))).committed.locks.get? k = t'.get? k := by
  have hleft := returns_release h
  have h0 := alone_start (lockProgram c.now) ⟨t, l⟩ (.release c.user c.recordId c.recordType)
  have hrecord : ∀ j r, isLockOf c j r = true →
      r.recordId = c.recordId ∧ r.recordType = c.recordType := by
    intro j r hr
    exact Prod.mk.inj (isLockOf_iff.mp hr).1
  have hown : ∀ j r, isLockOf c j r = true ↔
      r.recordId = c.recordId ∧ r.recordType = c.recordType ∧ r.lockedBy = c.user := by
    intro j r
    simp [isLockOf, and_assoc]
  simp only [run_cons, run_nil, List.replicate]
  apply Option.ext
  intro row
  rw [hleft k row]
  rcases hu.find hrecord with ⟨hfind, hnone⟩ | ⟨j, r, hfind, hr, hlock⟩
  · have s1 : lockStmt c.now (.release c) ⟨t, l⟩ = .commit := by
      simp only [lockStmt, releaseStmt, hfind]
    rw [h0.commit (p := lockProgram c.now) s1, rcStep_ended, rcStep_ended]
    refine (and_iff_left_of_imp fun hk hmine => ?_).symm
    rw [← hown k row, hnone k row hk] at hmine
    cases hmine
  · have s1 : lockStmt c.now (.release c) ⟨t, l⟩ = pass (.releaseRow c j) := by
      simp only [lockStmt, releaseStmt, hfind]
    have h1 := h0.goOn (p := lockProgram c.now) s1
    have s2 : lockStmt c.now (.releaseRow c j) ⟨t, l⟩ = endLock j r := by
      simp only [lockStmt, releaseRowStmt, hr]
      rw [if_pos hlock]
    have h2 := h1.goOn (p := lockProgram c.now) s2
    rw [h2.commit (p := lockProgram c.now) rfl]
    show (t.delete j).get? k = some row ↔ _
    rw [Store.get?_delete]
    split_ifs with hk
    · subst hk
      constructor
      · intro hnone
        cases hnone
      · rintro ⟨hrow, hnot⟩
        obtain rfl := Option.some.inj (hr.symm.trans hrow)
        exact absurd ((hown k r).mp hlock) hnot
    · refine (and_iff_left_of_imp fun hrow hmine => hk ?_).symm
      have hkey := (isLockOf_iff.mp ((hown k row).mpr hmine)).1
      exact (hu.of_key hrow hr (hkey.trans (isLockOf_iff.mp hlock).1.symm)).1

/-- Undisturbed, the transaction of an override deletes the row that the service deletes. -/
theorem override_alone {t' : Locks} {recordId : ℕ} {recordType : String} {prior : RecordLock}
    (now : ℤ) (l : List LockEntry)
    (h : Svc.Returns (override recordId recordType) t (some prior) t') :
    (run (rcStep (lockProgram now)) (Rc.init ⟨t, l⟩)
      (.start (.override recordId recordType) :: List.replicate 3 (.exec 0))).committed =
      ⟨t', l ++ [.ended prior.key prior.lockedBy]⟩ := by
  simp only [override, selectLock, Svc.returns_bind, Svc.returns_get, Svc.returns_expect] at h
  obtain ⟨o, t1, ⟨_, _, ⟨rfl, rfl⟩, hfind, rfl⟩, h⟩ := h
  cases o with
  | none => cases (Svc.returns_pure.mp h).1
  | some row =>
    obtain ⟨j, r⟩ := row
    simp only [Svc.returns_modify_bind, Svc.returns_pure] at h
    obtain ⟨hprior, rfl⟩ := h
    obtain rfl := Option.some.inj hprior
    have hr := (Store.scalar_select_some_iff.mp hfind).1.1
    have h0 := alone_start (lockProgram now) ⟨t, l⟩ (.override recordId recordType)
    have s1 : lockStmt now (.override recordId recordType) ⟨t, l⟩ = pass (.overrideRow j) := by
      simp only [lockStmt, overrideStmt, findLock, hfind]
    have h1 := h0.goOn (p := lockProgram now) s1
    have s2 : lockStmt now (.overrideRow j) ⟨t, l⟩ = endLock j r := by
      simp only [lockStmt, overrideRowStmt, hr]
    have h2 := h1.goOn (p := lockProgram now) s2
    simp only [run_cons, run_nil, List.replicate]
    rw [h2.commit (p := lockProgram now) rfl]
    rfl

/-! ## What the log promises -/

/-- A row of the user for the record, at least until this expiry. -/
def Covered (t : Locks) (key : LockKey) (user : ℕ) (expiry : ℤ) : Prop :=
  ∃ rowId row, t.get? rowId = some row ∧ row.key = key ∧ row.lockedBy = user ∧
    expiry ≤ row.expiresAt

/-- Since `seen` the user's lock has ended, or the expiry has come, or his row is there. -/
structure LockClaim (now : ℤ) (s : LockDb) (key : LockKey) (user : ℕ) (expiry : ℤ) (seen : ℕ) :
    Prop where
  bound : seen ≤ s.log.length
  covered : .ended key user ∈ s.log.drop seen ∨ expiry ≤ now ∨ Covered s.locks key user expiry

/-- One row for each record, and every success of the log a claim. -/
structure LockInv (now : ℤ) (s : LockDb) : Prop where
  one : OneRowPerRecord s.locks
  claims : ∀ key user expiry seen, .succeeded key user expiry seen ∈ s.log →
    LockClaim now s key user expiry seen

theorem LockInv.covered (h : LockInv now s) {key : LockKey} {user : ℕ} {expiry : ℤ}
    (hheld : HeldUntil s.log key user expiry) : expiry ≤ now ∨ Covered s.locks key user expiry := by
  obtain ⟨seen, hmem, hnot⟩ := hheld
  rcases (h.claims key user expiry seen hmem).covered with hended | hcovered
  · exact absurd hended hnot
  · exact hcovered

/-- While one user has the row, no success of another one is running. -/
theorem LockInv.alone (h : LockInv now s) (hrow : s.locks.get? rowId = some row) {user : ℕ}
    {expiry : ℤ} (hne : user ≠ row.lockedBy) (hheld : HeldUntil s.log row.key user expiry) :
    expiry ≤ now := by
  rcases h.covered hheld with hover | ⟨j, r, hr, hkey, huser, -⟩
  · exact hover
  · obtain ⟨-, rfl⟩ := h.one.of_key hr hrow hkey
    exact absurd huser.symm hne

theorem LockClaim.later {later : ℤ} (hle : now ≤ later) {key : LockKey} {user : ℕ} {expiry : ℤ}
    {seen : ℕ} (h : LockClaim now s key user expiry seen) :
    LockClaim later s key user expiry seen where
  bound := h.bound
  covered := by
    rcases h.covered with hended | hover | hcovered
    · exact .inl hended
    · have hover' : expiry ≤ later := by omega
      exact .inr (.inl hover')
    · exact .inr (.inr hcovered)

/-- A claim after the log has grown. -/
theorem LockClaim.extend {key : LockKey} {user : ℕ} {expiry : ℤ} {seen : ℕ} {l : List LockEntry}
    (h : LockClaim now s key user expiry seen) (hlog : s'.log = s.log ++ l)
    (hcovered : Covered s.locks key user expiry →
      .ended key user ∈ l ∨ expiry ≤ now ∨ Covered s'.locks key user expiry) :
    LockClaim now s' key user expiry seen where
  bound := by
    have := h.bound
    rw [hlog, List.length_append]
    omega
  covered := by
    rw [hlog, List.drop_append_of_le_length h.bound, List.mem_append]
    rcases h.covered with hended | hover | hcov
    · exact .inl (.inl hended)
    · exact .inr (.inl hover)
    · rcases hcovered hcov with hended | hrest
      · exact .inl (.inr hended)
      · exact .inr hrest

/-! ## What a transaction knows -/

/-- The row under the key is the one that was read, with another expiry perhaps, or gone. -/
def SameLock (s : LockDb) (rowId : ℕ) (row : RecordLock) : Prop :=
  rowId < s.locks.next ∧ ∀ current, s.locks.get? rowId = some current →
    current.key = row.key ∧ current.lockedBy = row.lockedBy

/-- What an acquire has written before its INSERT. -/
inductive Cleared (now : ℤ) (s : LockDb) (a : LockTxn) (key : LockKey) : Prop
  | untouched (hw : a.write = id)
  | deleted {rowId : ℕ} {old : RecordLock} (hw : a.write = .delete rowId) (hlock : key ∈ a.locks)
    (hold : s.locks.get? rowId = some old) (hkey : old.key = key) (hexp : old.expiresAt ≤ now)

/-- What a transaction has written when its call has returned. -/
inductive Written (now : ℤ) (s : LockDb) (a : LockTxn) : Prop
  | nothing (hw : a.write = id)
  | claimed {key : LockKey} {user : ℕ} {expiry : ℤ} {seen : ℕ}
    (hw : a.write = .record (.succeeded key user expiry seen))
    (hclaim : LockClaim now s key user expiry seen)
  | refreshed {rowId : ℕ} {old : RecordLock} {expiry : ℤ} {seen : ℕ}
    (hw : a.write =
      .record (.succeeded old.key old.lockedBy expiry seen) ∘ .setExpiry rowId expiry)
    (hseen : seen ≤ s.log.length) (hlock : old.key ∈ a.locks)
    (hold : s.locks.get? rowId = some old) (hexp : old.expiresAt ≤ expiry)
  | inserted {row : RecordLock} {seen : ℕ}
    (hw : a.write =
      .record (.succeeded row.key row.lockedBy row.expiresAt seen) ∘ .insert row)
    (hseen : seen ≤ s.log.length) (hlock : row.key ∈ a.locks)
    (hfree : ∀ j r, s.locks.get? j = some r → r.key ≠ row.key)
  | replaced {rowId : ℕ} {old row : RecordLock} {seen : ℕ}
    (hw : a.write =
      .record (.succeeded row.key row.lockedBy row.expiresAt seen) ∘ .insert row ∘ .delete rowId)
    (hseen : seen ≤ s.log.length) (hlock : row.key ∈ a.locks)
    (hold : s.locks.get? rowId = some old) (hkey : old.key = row.key) (hexp : old.expiresAt ≤ now)
  | ended {rowId : ℕ} {old : RecordLock}
    (hw : a.write = .record (.ended old.key old.lockedBy) ∘ .delete rowId)
    (hlock : old.key ∈ a.locks) (hold : s.locks.get? rowId = some old)

/-- What each program point knows about the committed state. -/
def LockKnows (now : ℤ) (s : LockDb) (a : LockTxn) : Prop :=
  match a.point with
  | .found c rowId row | .takeOver c rowId row =>
    a.write = id ∧ row.key = c.key ∧ SameLock s rowId row
  | .restamp c rowId row | .refresh c rowId row _ =>
    a.write = id ∧ row.key = c.key ∧ row.lockedBy = c.user ∧ SameLock s rowId row
  | .stamp c | .insert c _ | .conflicted c => Cleared now s a c.key
  | .acquired .. | .done => Written now s a
  | _ => a.write = id

/-! ## What a commit does -/

/-- Only rows of one record differ. -/
def WritesKey (key : LockKey) (t t' : Locks) : Prop :=
  ∀ j r, r.key ≠ key → (t'.get? j = some r ↔ t.get? j = some r)

theorem WritesKey.trans {key : LockKey} {t t' t'' : Locks} (h : WritesKey key t t')
    (h' : WritesKey key t' t'') : WritesKey key t t'' :=
  fun j r hr => (h' j r hr).trans (h j r hr)

theorem writesKey_modify {t : Locks} {old : RecordLock} (hold : t.get? rowId = some old)
    {f : RecordLock → RecordLock} (hf : (f old).key = old.key) :
    WritesKey old.key t (t.modify rowId f) := by
  intro j r hr
  rw [Store.get?_modify]
  split_ifs with hj
  · subst hj
    rw [hold]
    constructor
    · intro heq
      obtain rfl := Option.some.inj heq
      exact absurd hf hr
    · intro heq
      obtain rfl := Option.some.inj heq
      exact absurd rfl hr
  · exact Iff.rfl

theorem writesKey_create (t : Locks) (row : RecordLock) : WritesKey row.key t (t.create row) := by
  intro j r hr
  rw [Store.get?_create]
  split_ifs with hj
  · subst hj
    rw [Store.get?_next]
    constructor
    · intro heq
      obtain rfl := Option.some.inj heq
      exact absurd rfl hr
    · intro heq
      cases heq
  · exact Iff.rfl

theorem writesKey_delete {t : Locks} {old : RecordLock} (hold : t.get? rowId = some old) :
    WritesKey old.key t (t.delete rowId) := by
  intro j r hr
  rw [Store.get?_delete]
  split_ifs with hj
  · subst hj
    rw [hold]
    constructor
    · intro heq
      cases heq
    · intro heq
      obtain rfl := Option.some.inj heq
      exact absurd rfl hr
  · exact Iff.rfl

/-- The rows that were there have kept their record and their user. -/
structure KeepsOwners (t t' : Locks) : Prop where
  next : t.next ≤ t'.next
  owners : ∀ j r', j < t.next → t'.get? j = some r' →
    ∃ r, t.get? j = some r ∧ r'.key = r.key ∧ r'.lockedBy = r.lockedBy

theorem KeepsOwners.refl (t : Locks) : KeepsOwners t t :=
  ⟨le_refl _, fun _ r _ hr => ⟨r, hr, rfl, rfl⟩⟩

theorem KeepsOwners.trans {t t' t'' : Locks} (h : KeepsOwners t t') (h' : KeepsOwners t' t'') :
    KeepsOwners t t'' where
  next := h.next.trans h'.next
  owners := by
    intro j r'' hj hr''
    have hj' : j < t'.next := hj.trans_le h.next
    obtain ⟨r', hr', hkey', huser'⟩ := h'.owners j r'' hj' hr''
    obtain ⟨r, hr, hkey, huser⟩ := h.owners j r' hj hr'
    exact ⟨r, hr, hkey'.trans hkey, huser'.trans huser⟩

theorem keepsOwners_setExpiry (t : Locks) (rowId : ℕ) (expiry : ℤ) :
    KeepsOwners t (t.modify rowId fun r => { r with expiresAt := expiry }) where
  next := by
    rw [Store.modify_next]
  owners := by
    intro j r' _ hr'
    rw [Store.get?_modify] at hr'
    split_ifs at hr' with hj
    · obtain ⟨r, hr, rfl⟩ := Option.map_eq_some_iff.mp hr'
      exact ⟨r, hr, rfl, rfl⟩
    · exact ⟨r', hr', rfl, rfl⟩

theorem keepsOwners_create (t : Locks) (row : RecordLock) : KeepsOwners t (t.create row) where
  next := by
    rw [Store.create_next]
    omega
  owners := by
    intro j r' hj hr'
    have hne : j ≠ t.next := by omega
    rw [Store.get?_create, if_neg hne] at hr'
    exact ⟨r', hr', rfl, rfl⟩

theorem keepsOwners_delete (t : Locks) (rowId : ℕ) : KeepsOwners t (t.delete rowId) where
  next := le_refl _
  owners := by
    intro j r' _ hr'
    rw [Store.get?_delete] at hr'
    split_ifs at hr'
    exact ⟨r', hr', rfl, rfl⟩

theorem SameLock.keeps (h : SameLock s rowId row) (hk : KeepsOwners s.locks s'.locks) :
    SameLock s' rowId row := by
  refine ⟨h.1.trans_le hk.next, fun current hcurrent => ?_⟩
  obtain ⟨r, hr, hkey, huser⟩ := hk.owners rowId current h.1 hcurrent
  obtain ⟨hkey', huser'⟩ := h.2 r hr
  exact ⟨hkey.trans hkey', huser.trans huser'⟩

/-- A transaction writes to the rows of one record, which it has locked, or to none. -/
theorem Written.writesKey (h : Written now s a) :
    (a.write s).locks = s.locks ∨ ∃ key ∈ a.locks, WritesKey key s.locks (a.write s).locks := by
  cases h with
  | nothing hw =>
    rw [hw]
    exact .inl rfl
  | claimed hw hclaim =>
    rw [hw]
    exact .inl rfl
  | refreshed hw hseen hlock hold hexp =>
    rw [hw]
    exact .inr ⟨_, hlock, writesKey_modify hold rfl⟩
  | inserted hw hseen hlock hfree =>
    rw [hw]
    exact .inr ⟨_, hlock, writesKey_create _ _⟩
  | replaced hw hseen hlock hold hkey hexp =>
    rw [hw]
    have hdelete := writesKey_delete hold
    rw [hkey] at hdelete
    exact .inr ⟨_, hlock, hdelete.trans (writesKey_create _ _)⟩
  | ended hw hlock hold =>
    rw [hw]
    exact .inr ⟨_, hlock, writesKey_delete hold⟩

/-- The rows of a record that the transaction has not locked stay. -/
theorem Written.elsewhere (h : Written now s a) {r : RecordLock} (hr : r.key ∉ a.locks) {j : ℕ} :
    (a.write s).locks.get? j = some r ↔ s.locks.get? j = some r := by
  rcases h.writesKey with hsame | ⟨key, hlock, hkey⟩
  · rw [hsame]
  · have hne : r.key ≠ key := fun heq => hr (heq ▸ hlock)
    exact hkey j r hne

theorem Written.keepsOwners (h : Written now s a) : KeepsOwners s.locks (a.write s).locks := by
  cases h with
  | nothing hw =>
    rw [hw]
    exact .refl _
  | claimed hw hclaim =>
    rw [hw]
    exact .refl _
  | refreshed hw hseen hlock hold hexp =>
    rw [hw]
    exact keepsOwners_setExpiry _ _ _
  | inserted hw hseen hlock hfree =>
    rw [hw]
    exact keepsOwners_create _ _
  | replaced hw hseen hlock hold hkey hexp =>
    rw [hw]
    exact (keepsOwners_delete _ _).trans (keepsOwners_create _ _)
  | ended hw hlock hold =>
    rw [hw]
    exact keepsOwners_delete _ _

/-- The log grows. -/
theorem Written.log (h : Written now s a) : ∃ l, (a.write s).log = s.log ++ l := by
  cases h with
  | nothing hw =>
    rw [hw]
    exact ⟨[], (List.append_nil _).symm⟩
  | _ hw =>
    rw [hw]
    exact ⟨_, rfl⟩

theorem Written.log_le (h : Written now s a) : s.log.length ≤ (a.write s).log.length := by
  obtain ⟨l, hl⟩ := h.log
  rw [hl, List.length_append]
  omega

theorem OneRowPerRecord.insert {t : Locks} (h : OneRowPerRecord t)
    (hfree : ∀ j r, t.get? j = some r → r.key ≠ row.key) : OneRowPerRecord (t.create row) := by
  apply (Store.pairwise_create_iff oneRow_symm h).mpr
  rintro j r hr ⟨hid, htype⟩
  exact hfree j r hr (Prod.ext hid.symm htype.symm)

/-- A commit leaves one row for each record. -/
theorem Written.one (h : Written now s a) (hone : OneRowPerRecord s.locks) :
    OneRowPerRecord (a.write s).locks := by
  cases h with
  | nothing hw =>
    rw [hw]
    exact hone
  | claimed hw hclaim =>
    rw [hw]
    exact hone
  | refreshed hw hseen hlock hold hexp =>
    rw [hw]
    exact hone.modify oneRow_symm fun _ _ _ hd => hd
  | inserted hw hseen hlock hfree =>
    rw [hw]
    exact hone.insert hfree
  | replaced hw hseen hlock hold hkey hexp =>
    rw [hw]
    apply OneRowPerRecord.insert (hone.delete _)
    intro j r hr
    rw [← hkey]
    exact hone.free_after_delete hold hr
  | ended hw hlock hold =>
    rw [hw]
    exact hone.delete _

/-- A commit leaves a covering row, or it ended the lock, or the row was expired. -/
theorem Written.covered (h : Written now s a) (hone : OneRowPerRecord s.locks)
    (hrow : s.locks.get? rowId = some row) {expiry : ℤ} (hle : expiry ≤ row.expiresAt) :
    .ended row.key row.lockedBy ∈ (a.write s).log.drop s.log.length ∨ expiry ≤ now ∨
      Covered (a.write s).locks row.key row.lockedBy expiry := by
  have hstays : ∀ {key t}, WritesKey key s.locks t → row.key ≠ key →
      Covered t row.key row.lockedBy expiry :=
    fun hkey hne => ⟨rowId, row, (hkey rowId row hne).mpr hrow, rfl, rfl, hle⟩
  cases h with
  | nothing hw =>
    rw [hw]
    exact .inr (.inr ⟨rowId, row, hrow, rfl, rfl, hle⟩)
  | claimed hw hclaim =>
    rw [hw]
    exact .inr (.inr ⟨rowId, row, hrow, rfl, rfl, hle⟩)
  | @refreshed j old later seen hw hseen hlock hold hexp =>
    rw [hw]
    by_cases hkey : row.key = old.key
    · obtain ⟨rfl, rfl⟩ := hone.of_key hrow hold hkey
      have hset : (s.locks.modify rowId fun r => { r with expiresAt := later }).get? rowId =
          some { row with expiresAt := later } := by
        rw [Store.get?_modify_self, hrow]
        rfl
      have hle' : expiry ≤ later := by omega
      exact .inr (.inr ⟨rowId, _, hset, rfl, rfl, hle'⟩)
    · exact .inr (.inr (hstays (writesKey_modify hold rfl) hkey))
  | inserted hw hseen hlock hfree =>
    rw [hw]
    exact .inr (.inr (hstays (writesKey_create _ _) (hfree rowId row hrow)))
  | @replaced j old new seen hw hseen hlock hold hkey hexp =>
    rw [hw]
    by_cases hsame : row.key = old.key
    · obtain ⟨rfl, rfl⟩ := hone.of_key hrow hold hsame
      have hover : expiry ≤ now := by omega
      exact .inr (.inl hover)
    · have hdelete := (writesKey_delete hold).trans (hkey ▸ writesKey_create (s.locks.delete j) new)
      exact .inr (.inr (hstays hdelete hsame))
  | @ended j old hw hlock hold =>
    rw [hw]
    by_cases hsame : row.key = old.key
    · obtain ⟨rfl, rfl⟩ := hone.of_key hrow hold hsame
      refine .inl ?_
      show LockEntry.ended row.key row.lockedBy ∈ (s.log ++ [_]).drop s.log.length
      rw [List.drop_left]
      exact List.mem_singleton.mpr rfl
    · exact .inr (.inr (hstays (writesKey_delete hold) hsame))

/-- A commit leaves the claims true. -/
theorem LockClaim.commit {key : LockKey} {user : ℕ} {expiry : ℤ} {seen : ℕ}
    (h : LockClaim now s key user expiry seen) (hw : Written now s a)
    (hone : OneRowPerRecord s.locks) : LockClaim now (a.write s) key user expiry seen := by
  obtain ⟨l, hl⟩ := hw.log
  refine h.extend hl ?_
  rintro ⟨rowId, row, hrow, rfl, rfl, hle⟩
  have hcovered := hw.covered hone hrow hle
  rw [hl, List.drop_left] at hcovered
  exact hcovered

/-- A row in the table is a claim of its user. -/
theorem claim_of_row (hrow : s.locks.get? rowId = some row) {seen : ℕ}
    (hseen : seen ≤ s.log.length) : LockClaim now s row.key row.lockedBy row.expiresAt seen where
  bound := hseen
  covered := .inr (.inr ⟨rowId, row, hrow, rfl, rfl, Int.le_refl _⟩)

theorem mem_record {entry e : LockEntry} (h : e ∈ (s.record entry).log) :
    e ∈ s.log ∨ e = entry := by
  rcases List.mem_append.mp h with hold | hnew
  · exact .inl hold
  · exact .inr (List.mem_singleton.mp hnew)

/-- A success that is logged with its row is a claim. -/
theorem claim_of_recorded {new : RecordLock} {j seen' : ℕ} {key : LockKey} {user : ℕ}
    {expiry : ℤ} {seen : ℕ} (hrow : s'.locks.get? j = some new)
    (hlog : s'.log = s.log ++ [.succeeded new.key new.lockedBy new.expiresAt seen'])
    (hseen : seen' ≤ s'.log.length) (hmem : .succeeded key user expiry seen ∈ s'.log) :
    .succeeded key user expiry seen ∈ s.log ∨ LockClaim now s' key user expiry seen := by
  have hcases := hmem
  rw [hlog] at hcases
  rcases List.mem_append.mp hcases with hold | hnew
  · exact .inl hold
  · cases List.mem_singleton.mp hnew
    exact .inr (claim_of_row hrow hseen)

/-- A success that a commit adds to the log is a claim. -/
theorem Written.newClaim (h : Written now s a) (hone : OneRowPerRecord s.locks) {key : LockKey}
    {user : ℕ} {expiry : ℤ} {seen : ℕ}
    (hmem : .succeeded key user expiry seen ∈ (a.write s).log) :
    .succeeded key user expiry seen ∈ s.log ∨ LockClaim now (a.write s) key user expiry seen := by
  have hw := h
  have hgrows : s.log.length ≤ (a.write s).log.length := h.log_le
  cases h with
  | nothing hn =>
    rw [hn] at hmem
    exact .inl hmem
  | claimed hn hclaim =>
    rw [hn] at hmem
    rcases mem_record hmem with hin | hnew
    · exact .inl hin
    · cases hnew
      exact .inr (hclaim.commit hw hone)
  | @refreshed j old later seen' hn hseen hlock hold hexp =>
    have hrow : (a.write s).locks.get? j = some { old with expiresAt := later } := by
      rw [hn]
      show (s.locks.modify j _).get? j = _
      rw [Store.get?_modify_self, hold]
      rfl
    exact claim_of_recorded hrow (by rw [hn]; rfl) (hseen.trans hgrows) hmem
  | @inserted new seen' hn hseen hlock hfree =>
    have hrow : (a.write s).locks.get? s.locks.next = some new := by
      rw [hn]
      exact Store.get?_create_self _ _
    exact claim_of_recorded hrow (by rw [hn]; rfl) (hseen.trans hgrows) hmem
  | @replaced j old new seen' hn hseen hlock hold hkey hexp =>
    have hrow : (a.write s).locks.get? s.locks.next = some new := by
      rw [hn]
      exact Store.get?_create_self (s.locks.delete j) _
    exact claim_of_recorded hrow (by rw [hn]; rfl) (hseen.trans hgrows) hmem
  | ended hn hlock hold =>
    rw [hn] at hmem
    rcases mem_record hmem with hin | hnew
    · exact .inl hin
    · cases hnew

/-- A commit keeps the invariant. -/
theorem LockInv.commit (h : LockInv now s) (hw : Written now s a) : LockInv now (a.write s) where
  one := hw.one h.one
  claims := by
    intro key user expiry seen hmem
    rcases hw.newClaim h.one hmem with hold | hclaim
    · exact (h.claims key user expiry seen hold).commit hw h.one
    · exact hclaim

/-! ## What a statement learns -/

theorem sameLock_read (hrow : s.locks.get? rowId = some row) : SameLock s rowId row := by
  refine ⟨Store.get?_lt hrow, fun current hcurrent => ?_⟩
  obtain rfl := Option.some.inj (hrow.symm.trans hcurrent)
  exact ⟨rfl, rfl⟩

/-- After a takeover the record has no row in the transaction's view. -/
theorem Cleared.untouched_of_row (h : Cleared now s a c.key) (hone : OneRowPerRecord s.locks)
    {j : ℕ} {r : RecordLock} (hr : (a.write s).locks.get? j = some r) (hkey : r.key = c.key) :
    a.write = id := by
  cases h with
  | untouched hw => exact hw
  | deleted hw hlock hold hk hexp =>
    rw [hw] at hr
    exact absurd (hkey.trans hk.symm) (hone.free_after_delete hold hr)

variable {held : List LockKey} {w write : LockDb → LockDb} {locks : List LockKey}
  {next : LockPoint}

/-- What a read leaves: the point it goes on to. -/
theorem pass_eq_goOn {p : LockPoint} (h : pass p = .goOn locks write next) :
    locks = [] ∧ write = id ∧ next = p := by
  obtain ⟨rfl, rfl, rfl⟩ := Stmt.goOn.inj h
  exact ⟨rfl, rfl, rfl⟩

theorem acquireStmt_eq_goOn (h : acquireStmt c s = .goOn locks write next) :
    write = id ∧ (next = .stamp c ∨ ∃ rowId row, s.locks.get? rowId = some row ∧
      row.key = c.key ∧ next = .found c rowId row) := by
  unfold acquireStmt at h
  split at h
  · next rowId row hfind =>
    obtain ⟨-, rfl, rfl⟩ := pass_eq_goOn h
    obtain ⟨hrow, hkey⟩ := findLock_eq_some hfind
    exact ⟨rfl, .inr ⟨rowId, row, hrow, hkey, rfl⟩⟩
  · obtain ⟨-, rfl, rfl⟩ := pass_eq_goOn h
    exact ⟨rfl, .inl rfl⟩
  · cases h

theorem beatStmt_eq_goOn {expiry : ℤ} (h : beatStmt c expiry s = .goOn locks write next) :
    write = id ∧ ∃ rowId, next = .beatRow c expiry rowId := by
  unfold beatStmt at h
  split at h
  · obtain ⟨-, rfl, rfl⟩ := pass_eq_goOn h
    exact ⟨rfl, _, rfl⟩
  · cases h

theorem releaseStmt_eq_goOn (h : releaseStmt c s = .goOn locks write next) :
    write = id ∧ ∃ rowId, next = .releaseRow c rowId := by
  unfold releaseStmt at h
  split at h
  · obtain ⟨-, rfl, rfl⟩ := pass_eq_goOn h
    exact ⟨rfl, _, rfl⟩
  · cases h

theorem overrideStmt_eq_goOn {recordId : ℕ} {recordType : String}
    (h : overrideStmt recordId recordType s = .goOn locks write next) :
    write = id ∧ ∃ rowId, next = .overrideRow rowId := by
  unfold overrideStmt at h
  split at h
  · obtain ⟨-, rfl, rfl⟩ := pass_eq_goOn h
    exact ⟨rfl, _, rfl⟩
  · cases h

theorem foundStmt_eq_goOn (h : foundStmt now c rowId row = .goOn locks write next) :
    write = id ∧ ((row.expiresAt ≤ now ∧ next = .takeOver c rowId row) ∨
      (row.lockedBy = c.user ∧ next = .restamp c rowId row)) := by
  unfold foundStmt pass at h
  split_ifs at h with hexp hown
  · obtain ⟨-, rfl, rfl⟩ := Stmt.goOn.inj h
    exact ⟨rfl, .inl ⟨hexp, rfl⟩⟩
  · obtain ⟨-, rfl, rfl⟩ := Stmt.goOn.inj h
    exact ⟨rfl, .inr ⟨hown, rfl⟩⟩

theorem takeOverStmt_eq_goOn (h : takeOverStmt c rowId s = .goOn locks write next) :
    next = .stamp c ∧ (write = id ∨ ∃ old, s.locks.get? rowId = some old ∧ locks = [old.key] ∧
      write = .delete rowId) := by
  unfold takeOverStmt pass at h
  cases hrow : s.locks.get? rowId with
  | none =>
    rw [hrow] at h
    obtain ⟨-, rfl, rfl⟩ := Stmt.goOn.inj h
    exact ⟨rfl, .inl rfl⟩
  | some old =>
    rw [hrow] at h
    obtain ⟨rfl, rfl, rfl⟩ := Stmt.goOn.inj h
    exact ⟨rfl, .inr ⟨old, rfl, rfl, rfl⟩⟩

theorem refreshStmt_eq_goOn {expiry : ℤ} (hlater : row.expiresAt < expiry)
    (h : refreshStmt c rowId row expiry s = .goOn locks write next) :
    ∃ current, s.locks.get? rowId = some current ∧ locks = [current.key] ∧
      write = .record (c.success expiry s) ∘ .setExpiry rowId expiry ∧
      next = .acquired c expiry := by
  have hne : expiry ≠ row.expiresAt := by omega
  rw [refreshStmt, if_neg hne] at h
  cases hrow : s.locks.get? rowId with
  | none =>
    rw [hrow] at h
    cases h
  | some current =>
    rw [hrow] at h
    obtain ⟨rfl, rfl, rfl⟩ := Stmt.goOn.inj h
    exact ⟨current, rfl, rfl, rfl, rfl⟩

theorem insertStmt_eq_goOn {expiry : ℤ} (h : insertStmt c expiry s = .goOn locks write next) :
    (locks = [] ∧ write = id ∧ next = .conflicted c) ∨
      ((∀ j r, s.locks.get? j = some r → r.key ≠ c.key) ∧ locks = [c.key] ∧
        write = .record (c.success expiry s) ∘ .insert (c.newRow expiry) ∧
        next = .acquired c expiry) := by
  unfold insertStmt pass at h
  split_ifs at h with hex
  · obtain ⟨rfl, rfl, rfl⟩ := Stmt.goOn.inj h
    exact .inl ⟨rfl, rfl, rfl⟩
  · obtain ⟨rfl, rfl, rfl⟩ := Stmt.goOn.inj h
    refine .inr ⟨fun j r hr hkey => hex ?_, rfl, rfl, rfl⟩
    exact Store.exists?_iff.mpr ⟨j, r, hr, onRecord_iff_key.mpr hkey⟩

/-- The row that the second `_find` reads. -/
theorem conflictStmt_row (h : conflictStmt c s ≠ .rollback) :
    ∃ j r, s.locks.get? j = some r ∧ r.key = c.key ∧ conflictStmt c s =
      if r.lockedBy = c.user then
        .goOn [] (.record (c.success r.expiresAt s)) (.acquired c r.expiresAt)
      else .commit := by
  unfold conflictStmt at h ⊢
  match hfind : findLock c.recordId c.recordType s, h with
  | none, h => exact absurd rfl h
  | some none, h => exact absurd rfl h
  | some (some (j, r)), _ =>
    obtain ⟨hr, hkey⟩ := findLock_eq_some hfind
    exact ⟨j, r, hr, hkey, rfl⟩

theorem beatRowStmt_eq_goOn {expiry : ℤ}
    (h : beatRowStmt c expiry rowId s = .goOn locks write next) :
    (write = id ∧ next = .expired) ∨ ∃ current, s.locks.get? rowId = some current ∧
      current.key = c.key ∧ current.lockedBy = c.user ∧ locks = [current.key] ∧
      write = .record (c.success expiry s) ∘ .setExpiry rowId expiry ∧ next = .done := by
  unfold beatRowStmt at h
  cases hrow : s.locks.get? rowId with
  | none =>
    rw [hrow] at h
    cases h
  | some current =>
    rw [hrow] at h
    simp only at h
    split_ifs at h with hlive
    · obtain ⟨rfl, rfl, rfl⟩ := Stmt.goOn.inj h
      obtain ⟨hid, htype, huser, -⟩ := isLiveLockOf_iff.mp hlive
      exact .inr ⟨current, rfl, Prod.ext hid htype, huser, rfl, rfl, rfl⟩
    · obtain ⟨-, rfl, rfl⟩ := Stmt.goOn.inj h
      exact .inl ⟨rfl, rfl⟩

/-- A DELETE of a release or an override ends the lock of its row, or writes nothing. -/
def EndsLock (s : LockDb) (locks : List LockKey) (write : LockDb → LockDb) : Prop :=
  write = id ∨ ∃ rowId old, s.locks.get? rowId = some old ∧ locks = [old.key] ∧
    write = .record (.ended old.key old.lockedBy) ∘ .delete rowId

theorem releaseRowStmt_eq_goOn (h : releaseRowStmt c rowId s = .goOn locks write next) :
    EndsLock s locks write ∧ next = .done := by
  unfold releaseRowStmt endLock at h
  cases hrow : s.locks.get? rowId with
  | none =>
    rw [hrow] at h
    cases h
  | some old =>
    rw [hrow] at h
    simp only at h
    split_ifs at h with hown
    · obtain ⟨rfl, rfl, rfl⟩ := Stmt.goOn.inj h
      exact ⟨.inr ⟨rowId, old, hrow, rfl, rfl⟩, rfl⟩
    · obtain ⟨-, rfl, rfl⟩ := Stmt.goOn.inj h
      exact ⟨.inl rfl, rfl⟩

theorem overrideRowStmt_eq_goOn (h : overrideRowStmt rowId s = .goOn locks write next) :
    EndsLock s locks write ∧ next = .done := by
  unfold overrideRowStmt endLock pass at h
  cases hrow : s.locks.get? rowId with
  | none =>
    rw [hrow] at h
    obtain ⟨-, rfl, rfl⟩ := Stmt.goOn.inj h
    exact ⟨.inl rfl, rfl⟩
  | some old =>
    rw [hrow] at h
    obtain ⟨rfl, rfl, rfl⟩ := Stmt.goOn.inj h
    exact ⟨.inr ⟨rowId, old, hrow, rfl, rfl⟩, rfl⟩

theorem EndsLock.written (h : EndsLock s locks write) (next : LockPoint) :
    Written now s (Txn.goOn ⟨.done, held, id⟩ locks write next) := by
  rcases h with rfl | ⟨rowId, old, hold, rfl, rfl⟩
  · exact .nothing rfl
  · exact .ended rfl (List.mem_append_right _ (List.mem_singleton.mpr rfl)) hold

theorem written_refresh {current : RecordLock} {expiry : ℤ} (point : LockPoint)
    (hcurrent : s.locks.get? rowId = some current) (hkey : current.key = c.key)
    (huser : current.lockedBy = c.user) (hle : current.expiresAt ≤ expiry) (next : LockPoint) :
    Written now s (Txn.goOn ⟨point, held, id⟩ [current.key]
      (.record (c.success expiry s) ∘ .setExpiry rowId expiry) next) := by
  have hentry : c.success expiry s =
      .succeeded current.key current.lockedBy expiry s.log.length := by
    rw [hkey, huser]
    rfl
  rw [hentry]
  exact .refreshed rfl (Nat.le_refl _) (List.mem_append_right _ (List.mem_singleton.mpr rfl))
    hcurrent hle

theorem Cleared.pass {key : LockKey} (h : Cleared now s a key) (next : LockPoint) :
    Cleared now s (a.goOn [] id next) key := by
  cases h with
  | untouched hw => exact .untouched hw
  | deleted hw hlock hold hkey hexp =>
    exact .deleted hw (List.mem_append_left _ hlock) hold hkey hexp

/-- The INSERT of an acquire whose view has no row of the record. -/
theorem Cleared.written {expiry : ℤ} (h : Cleared now s a c.key)
    (hfree : ∀ j r, (a.write s).locks.get? j = some r → r.key ≠ c.key) (next : LockPoint) :
    Written now s (a.goOn [c.key]
      (.record (c.success expiry (a.write s)) ∘ .insert (c.newRow expiry)) next) := by
  have hlock : (c.newRow expiry).key ∈ (a.goOn [c.key]
      (.record (c.success expiry (a.write s)) ∘ .insert (c.newRow expiry)) next).locks :=
    List.mem_append_right _ (List.mem_singleton.mpr rfl)
  cases h with
  | untouched hw =>
    rw [hw] at hfree
    refine .inserted ?_ (Nat.le_refl s.log.length) hlock hfree
    simp only [Txn.goOn, hw]
    rfl
  | deleted hw _ hold hkey hexp =>
    refine .replaced ?_ (Nat.le_refl s.log.length) hlock hold hkey hexp
    simp only [Txn.goOn, hw]
    rfl

/-- A statement that meets `NoStaleWrite` leaves the transaction with what the next point
    knows. -/
theorem lockKnows_goOn (h : LockInv now s) (hk : LockKnows now s a)
    (hs : (lockProgram now).next s a = .goOn locks write next) (hstale : NoStaleWrite now s a) :
    LockKnows now s (a.goOn locks write next) := by
  obtain ⟨point, held, w⟩ := a
  simp only [Program.next, lockProgram] at hs
  cases point with
  | acquire c =>
    obtain rfl : w = id := hk
    obtain ⟨rfl, rfl | ⟨rowId, row, hrow, hkey, rfl⟩⟩ := acquireStmt_eq_goOn hs
    · exact .untouched rfl
    · exact ⟨rfl, hkey, sameLock_read hrow⟩
  | found c rowId row =>
    obtain ⟨hw, hkey, hsame⟩ := hk
    obtain rfl : w = id := hw
    obtain ⟨rfl, ⟨-, rfl⟩ | ⟨hown, rfl⟩⟩ := foundStmt_eq_goOn hs
    · exact ⟨rfl, hkey, hsame⟩
    · exact ⟨rfl, hkey, hown, hsame⟩
  | takeOver c rowId row =>
    obtain ⟨hw, hkey, hsame⟩ := hk
    obtain rfl : w = id := hw
    obtain ⟨rfl, rfl | ⟨old, hold, rfl, rfl⟩⟩ := takeOverStmt_eq_goOn hs
    · exact .untouched rfl
    · have hk : old.key = c.key := (hsame.2 old hold).1.trans hkey
      have hlock : c.key ∈ held ++ [old.key] := by simp [hk]
      exact .deleted rfl hlock hold hk (hstale old hold)
  | restamp c rowId row =>
    obtain ⟨hw, hkey, hown, hsame⟩ := hk
    obtain rfl : w = id := hw
    obtain ⟨-, rfl, rfl⟩ := pass_eq_goOn hs
    exact ⟨rfl, hkey, hown, hsame⟩
  | refresh c rowId row expiry =>
    obtain ⟨hw, hkey, hown, hsame⟩ := hk
    obtain rfl : w = id := hw
    obtain ⟨hlater, hnotBack⟩ := hstale
    obtain ⟨current, hcurrent, rfl, rfl, rfl⟩ := refreshStmt_eq_goOn hlater hs
    obtain ⟨hk, hu⟩ := hsame.2 current hcurrent
    exact written_refresh _ hcurrent (hk.trans hkey) (hu.trans hown)
      (hnotBack current hcurrent) _
  | stamp c =>
    obtain ⟨rfl, rfl, rfl⟩ := pass_eq_goOn hs
    exact Cleared.pass hk _
  | insert c expiry =>
    obtain ⟨rfl, rfl, rfl⟩ | ⟨hfree, rfl, rfl, rfl⟩ := insertStmt_eq_goOn hs
    · exact Cleared.pass hk _
    · exact Cleared.written hk hfree _
  | conflicted c =>
    have hgo : conflictStmt c (w s) = .goOn locks write next := hs
    obtain ⟨j, r, hr, hkey, hrow⟩ := conflictStmt_row (c := c) (s := w s) (by rw [hgo]; nofun)
    obtain rfl : w = id := Cleared.untouched_of_row hk h.one hr hkey
    rw [hgo] at hrow
    split_ifs at hrow with hown
    obtain ⟨rfl, rfl, rfl⟩ := Stmt.goOn.inj hrow
    have hclaim : LockClaim now s r.key r.lockedBy r.expiresAt s.log.length :=
      claim_of_row hr (Nat.le_refl _)
    rw [hkey, hown] at hclaim
    exact .claimed rfl hclaim
  | acquired c expiry => cases hs
  | heartbeat c =>
    obtain rfl : w = id := hk
    obtain ⟨-, rfl, rfl⟩ := pass_eq_goOn hs
    rfl
  | beatNow c expiry =>
    obtain rfl : w = id := hk
    obtain ⟨-, rfl, rfl⟩ := pass_eq_goOn hs
    rfl
  | beat c expiry =>
    obtain rfl : w = id := hk
    obtain ⟨rfl, rowId, rfl⟩ := beatStmt_eq_goOn hs
    rfl
  | beatRow c expiry rowId =>
    obtain rfl : w = id := hk
    obtain ⟨rfl, rfl⟩ | ⟨current, hcurrent, hkey, huser, rfl, rfl, rfl⟩ := beatRowStmt_eq_goOn hs
    · rfl
    · exact written_refresh _ hcurrent hkey huser (hstale current hcurrent) _
  | expired => cases hs
  | release c =>
    obtain rfl : w = id := hk
    obtain ⟨rfl, rowId, rfl⟩ := releaseStmt_eq_goOn hs
    rfl
  | releaseRow c rowId =>
    obtain rfl : w = id := hk
    obtain ⟨hends, rfl⟩ := releaseRowStmt_eq_goOn hs
    exact hends.written _
  | override recordId recordType =>
    obtain rfl : w = id := hk
    obtain ⟨rfl, rowId, rfl⟩ := overrideStmt_eq_goOn hs
    rfl
  | overrideRow rowId =>
    obtain rfl : w = id := hk
    obtain ⟨hends, rfl⟩ := overrideRowStmt_eq_goOn hs
    exact hends.written _
  | done => cases hs

/-- What a transaction that commits has written. -/
theorem written_of_commit (h : LockInv now s) (hk : LockKnows now s a)
    (hs : (lockProgram now).next s a = .commit) : Written now s a := by
  obtain ⟨point, held, w⟩ := a
  simp only [Program.next, lockProgram] at hs
  cases point with
  | found c rowId row => exact .nothing hk.1
  | conflicted c =>
    have hgo : conflictStmt c (w s) = .commit := hs
    obtain ⟨j, r, hr, hkey, -⟩ := conflictStmt_row (c := c) (s := w s) (by rw [hgo]; nofun)
    exact .nothing (Cleared.untouched_of_row hk h.one hr hkey)
  | acquired c expiry => exact hk
  | done => exact hk
  | release c => exact .nothing hk
  | releaseRow c rowId => exact .nothing hk
  | acquire c =>
    simp only [lockStmt, acquireStmt, pass] at hs
    split at hs <;> cases hs
  | takeOver c rowId row =>
    simp only [lockStmt, takeOverStmt, pass] at hs
    split at hs <;> cases hs
  | refresh c rowId row expiry =>
    simp only [lockStmt, refreshStmt] at hs
    split_ifs at hs
    split at hs <;> cases hs
  | insert c expiry =>
    simp only [lockStmt, insertStmt, pass] at hs
    split_ifs at hs
  | beat c expiry =>
    simp only [lockStmt, beatStmt, pass] at hs
    split at hs <;> cases hs
  | beatRow c expiry rowId =>
    simp only [lockStmt, beatRowStmt] at hs
    split at hs
    · split_ifs at hs
    · cases hs
  | override recordId recordType =>
    simp only [lockStmt, overrideStmt, pass] at hs
    split at hs <;> cases hs
  | overrideRow rowId =>
    simp only [lockStmt, overrideRowStmt, endLock, pass] at hs
    split at hs <;> cases hs
  | restamp c rowId row => cases hs
  | stamp c => cases hs
  | heartbeat c => cases hs
  | beatNow c expiry => cases hs
  | expired => cases hs

/-! ## What a commit leaves to the others -/

theorem Cleared.frame {key : LockKey} (h : Cleared now s b key) (hw : Written now s a)
    (hd : ∀ k ∈ a.locks, k ∉ b.locks) : Cleared now (a.write s) b key := by
  cases h with
  | untouched hn => exact .untouched hn
  | @deleted rowId old hn hlock hold hkey hexp =>
    have hfree : old.key ∉ a.locks := by
      rw [hkey]
      exact fun hmem => hd key hmem hlock
    exact .deleted hn hlock ((hw.elsewhere hfree).mpr hold) hkey hexp

theorem Written.frame (h : Written now s b) (hw : Written now s a)
    (hone : OneRowPerRecord s.locks) (hd : ∀ k ∈ a.locks, k ∉ b.locks) :
    Written now (a.write s) b := by
  have hgrows : s.log.length ≤ (a.write s).log.length := hw.log_le
  have hstays : ∀ {j : ℕ} {r : RecordLock}, r.key ∈ b.locks → s.locks.get? j = some r →
      (a.write s).locks.get? j = some r := by
    intro j r hr hget
    exact (hw.elsewhere fun hmem => hd _ hmem hr).mpr hget
  cases h with
  | nothing hn => exact .nothing hn
  | claimed hn hclaim => exact .claimed hn (hclaim.commit hw hone)
  | refreshed hn hseen hlock hold hexp =>
    exact .refreshed hn (hseen.trans hgrows) hlock (hstays hlock hold) hexp
  | @inserted row seen hn hseen hlock hfree =>
    refine .inserted hn (hseen.trans hgrows) hlock fun j r hr hkey => ?_
    have hnot : r.key ∉ a.locks := by
      rw [hkey]
      exact fun hmem => hd _ hmem hlock
    exact hfree j r ((hw.elsewhere hnot).mp hr) hkey
  | replaced hn hseen hlock hold hkey hexp =>
    exact .replaced hn (hseen.trans hgrows) hlock (hstays (hkey ▸ hlock) hold) hkey hexp
  | ended hn hlock hold => exact .ended hn hlock (hstays hlock hold)

/-- A commit leaves what the other transactions know. -/
theorem lockKnows_frame (h : LockInv now s) (hw : Written now s a) (hk : LockKnows now s b)
    (hd : ∀ k ∈ a.locks, k ∉ b.locks) : LockKnows now (a.write s) b := by
  have hkeeps := hw.keepsOwners
  obtain ⟨point, held, w⟩ := b
  cases point with
  | found c rowId row => exact ⟨hk.1, hk.2.1, hk.2.2.keeps hkeeps⟩
  | takeOver c rowId row => exact ⟨hk.1, hk.2.1, hk.2.2.keeps hkeeps⟩
  | restamp c rowId row => exact ⟨hk.1, hk.2.1, hk.2.2.1, hk.2.2.2.keeps hkeeps⟩
  | refresh c rowId row expiry => exact ⟨hk.1, hk.2.1, hk.2.2.1, hk.2.2.2.keeps hkeeps⟩
  | stamp c => exact Cleared.frame hk hw hd
  | insert c expiry => exact Cleared.frame hk hw hd
  | conflicted c => exact Cleared.frame hk hw hd
  | acquired c expiry => exact Written.frame hk hw h.one hd
  | done => exact Written.frame hk hw h.one hd
  | _ => exact hk

/-! ## Time passes -/

variable {now' : ℤ}

theorem Cleared.later {key : LockKey} (hle : now ≤ now') (h : Cleared now s a key) :
    Cleared now' s a key := by
  cases h with
  | untouched hw => exact .untouched hw
  | deleted hw hlock hold hkey hexp =>
    exact .deleted hw hlock hold hkey (by omega)

theorem Written.later (hle : now ≤ now') (h : Written now s a) : Written now' s a := by
  cases h with
  | nothing hw => exact .nothing hw
  | claimed hw hclaim => exact .claimed hw (hclaim.later hle)
  | refreshed hw hseen hlock hold hexp => exact .refreshed hw hseen hlock hold hexp
  | inserted hw hseen hlock hfree => exact .inserted hw hseen hlock hfree
  | replaced hw hseen hlock hold hkey hexp =>
    exact .replaced hw hseen hlock hold hkey (by omega)
  | ended hw hlock hold => exact .ended hw hlock hold

theorem lockKnows_later (hle : now ≤ now') (h : LockKnows now s a) : LockKnows now' s a := by
  obtain ⟨point, held, w⟩ := a
  cases point with
  | stamp c => exact Cleared.later hle h
  | insert c expiry => exact Cleared.later hle h
  | conflicted c => exact Cleared.later hle h
  | acquired c expiry => exact Written.later hle h
  | done => exact Written.later hle h
  | _ => exact h

theorem lockRule : ClockedRule lockProgram LockInv LockKnows NoStaleWrite where
  stmt := fun now =>
    { start := by
        intro s call _
        cases call <;> rfl
      goOn := fun s a locks write next h hk hs hstale => lockKnows_goOn h hk hs hstale
      commit := fun s a h hk hs _ => h.commit (written_of_commit h hk hs)
      frame := fun s a b h hk hs _ hb hd =>
        lockKnows_frame h (written_of_commit h hk hs) hb hd }
  later := fun now now' s hle h =>
    ⟨h.one, fun key user expiry seen hmem => (h.claims key user expiry seen hmem).later hle⟩
  knowsLater := fun now now' s a hle hk => lockKnows_later hle hk

/-! ## Runs -/

/-- The statement that returns an acquire's success, and the row it rests on. -/
theorem acquireReturn_eq_some {x : LockWorld} {t : ℕ} (h : acquireReturn x t = some c) :
    ∃ a locks write expiry, x.db.txns.get? t = some a ∧
      (lockProgram x.now).next x.db.committed a = .goOn locks write (.acquired c expiry) ∧
      x.db.blocked t locks = false := by
  unfold acquireReturn at h
  cases ha : x.db.txns.get? t with
  | none =>
    rw [ha] at h
    cases h
  | some a =>
    rw [ha] at h
    simp only at h
    split at h
    · next locks write c' expiry hs =>
      split_ifs at h with hb
      obtain rfl := Option.some.inj h
      exact ⟨a, locks, write, expiry, rfl, hs, Bool.eq_false_iff.mpr hb⟩
    · cases h

/-- The points whose statement returns an acquire's success. -/
theorem acquired_point {point : LockPoint} {expiry : ℤ}
    (hs : lockStmt now point s = .goOn locks write (.acquired c expiry)) :
    (∃ rowId row, point = .refresh c rowId row expiry) ∨ point = .insert c expiry ∨
      point = .conflicted c := by
  cases point with
  | refresh c' rowId row expiry' =>
    simp only [lockStmt, refreshStmt] at hs
    split_ifs at hs
    · obtain ⟨-, -, hnext⟩ := Stmt.goOn.inj hs
      obtain ⟨rfl, rfl⟩ := LockPoint.acquired.inj hnext
      exact .inl ⟨rowId, row, rfl⟩
    · split at hs
      · obtain ⟨-, -, hnext⟩ := Stmt.goOn.inj hs
        obtain ⟨rfl, rfl⟩ := LockPoint.acquired.inj hnext
        exact .inl ⟨rowId, row, rfl⟩
      · cases hs
  | insert c' expiry' =>
    obtain ⟨-, -, hnext⟩ | ⟨-, -, -, hnext⟩ := insertStmt_eq_goOn hs
    · cases hnext
    · obtain ⟨rfl, rfl⟩ := LockPoint.acquired.inj hnext
      exact .inr (.inl rfl)
  | conflicted c' =>
    have hgo : conflictStmt c' s = .goOn locks write (.acquired c expiry) := hs
    obtain ⟨j, r, -, -, hrow⟩ := conflictStmt_row (c := c') (s := s) (by rw [hgo]; nofun)
    rw [hgo] at hrow
    split_ifs at hrow with hown
    obtain ⟨-, -, hnext⟩ := Stmt.goOn.inj hrow
    obtain ⟨rfl, -⟩ := LockPoint.acquired.inj hnext
    exact .inr (.inr rfl)
  | acquire c' =>
    obtain ⟨-, hnext | ⟨rowId, row, -, -, hnext⟩⟩ := acquireStmt_eq_goOn hs
    · cases hnext
    · cases hnext
  | found c' rowId row =>
    obtain ⟨-, ⟨-, hnext⟩ | ⟨-, hnext⟩⟩ := foundStmt_eq_goOn hs
    · cases hnext
    · cases hnext
  | takeOver c' rowId row => cases (takeOverStmt_eq_goOn hs).1
  | beat c' expiry' =>
    obtain ⟨-, rowId, hnext⟩ := beatStmt_eq_goOn hs
    cases hnext
  | beatRow c' expiry' rowId =>
    obtain ⟨-, hnext⟩ | ⟨-, -, -, -, -, -, hnext⟩ := beatRowStmt_eq_goOn hs
    · cases hnext
    · cases hnext
  | release c' =>
    obtain ⟨-, rowId, hnext⟩ := releaseStmt_eq_goOn hs
    cases hnext
  | releaseRow c' rowId => cases (releaseRowStmt_eq_goOn hs).2
  | override recordId recordType =>
    obtain ⟨-, rowId, hnext⟩ := overrideStmt_eq_goOn hs
    cases hnext
  | overrideRow rowId => cases (overrideRowStmt_eq_goOn hs).2
  | _ => cases hs

/-- When an acquire returns success, no other user's success is running. -/
theorem alone_of_acquired (h : LockInv now s) (hk : LockKnows now s a) {expiry : ℤ}
    (hs : (lockProgram now).next s a = .goOn locks write (.acquired c expiry))
    (hstale : NoStaleWrite now s a) {user : ℕ} {running : ℤ} (hne : user ≠ c.user)
    (hheld : HeldUntil s.log c.key user running) : running ≤ now := by
  obtain ⟨point, held, w⟩ := a
  simp only [Program.next, lockProgram] at hs
  have halone : ∀ {j r}, s.locks.get? j = some r → r.key = c.key → r.lockedBy = c.user →
      running ≤ now := by
    intro j r hr hkey hown
    have hne' : user ≠ r.lockedBy := by
      rw [hown]
      exact hne
    exact h.alone hr hne' (hkey ▸ hheld)
  obtain ⟨rowId, row, rfl⟩ | rfl | rfl := acquired_point hs
  · obtain ⟨hw, hkey, hown, hsame⟩ := hk
    obtain rfl : w = id := hw
    obtain ⟨current, hcurrent, -, -, -⟩ := refreshStmt_eq_goOn hstale.1 hs
    obtain ⟨hk, hu⟩ := hsame.2 current hcurrent
    exact halone hcurrent (hk.trans hkey) (hu.trans hown)
  · obtain ⟨-, -, hnext⟩ | ⟨hfree, -, -, -⟩ := insertStmt_eq_goOn hs
    · cases hnext
    rcases h.covered hheld with hover | ⟨j, r, hr, hkey, -, hle⟩
    · exact hover
    -- the only row that the INSERT does not see is the expired one
    have hclear : Cleared now s ⟨.insert c expiry, held, w⟩ c.key := hk
    cases hclear with
    | untouched hw =>
      obtain rfl : w = id := hw
      exact absurd hkey (hfree j r hr)
    | deleted hw hlock hold hk' hexp =>
      obtain ⟨-, rfl⟩ := h.one.of_key hr hold (hkey.trans hk'.symm)
      omega
  · have hgo : conflictStmt c (w s) = .goOn locks write (.acquired c expiry) := hs
    obtain ⟨j, r, hr, hkey, hrow⟩ := conflictStmt_row (c := c) (s := w s) (by rw [hgo]; nofun)
    obtain rfl : w = id := Cleared.untouched_of_row hk h.one hr hkey
    rw [hgo] at hrow
    split_ifs at hrow with hown
    exact halone hr hkey hown

theorem returnsAlone_of_inv {x : LockWorld} {op : ClockedOp LockRequest}
    (h : ClockedInv LockInv LockKnows x) (hk : ClockedAtStmt lockProgram NoStaleWrite x op) :
    ReturnsAlone x op := by
  match op with
  | .tick elapsed => trivial
  | .db (.start call) => trivial
  | .db (.abort t) => trivial
  | .db (.exec t) =>
    intro c hc user expiry hne hheld
    obtain ⟨a, locks, write, e, ha, hs, hfree⟩ := acquireReturn_eq_some hc
    have hstale : NoStaleWrite x.now x.db.committed a := by
      apply hk a ha
      intro locks' write' next' hs'
      obtain ⟨rfl, -, -⟩ := Stmt.goOn.inj (hs.symm.trans hs')
      exact hfree
    exact alone_of_acquired h.committed (h.knows t a ha) hs hstale hne hheld

theorem lockInv_start (start : UniqueLocks) (now : ℤ) :
    ClockedInv LockInv LockKnows (start.world now) := by
  apply rcInv_init
  refine ⟨start.one, fun key user expiry seen hmem => ?_⟩
  cases hmem

/-- If in a run every acquire that deletes an expired row finds it still expired, and no
    UPDATE sets an expiry back, then no acquire returns success before the committed
    success of another user has run out, been released or overridden. -/
theorem lock_exclusive_of_steps (start : UniqueLocks) (now : ℤ)
    (ops : List (ClockedOp LockRequest))
    (h : AllSteps locksStep (ClockedAtStmt lockProgram NoStaleWrite) (start.world now) ops) :
    AllSteps locksStep ReturnsAlone (start.world now) ops :=
  h.of_inv (clockedStep_inv lockRule) (fun _ _ hi hk => returnsAlone_of_inv hi hk)
    (lockInv_start start now)

/-! ## Two users and one record -/

theorem atStmt_here {x : LockWorld} {t : ℕ} (ha : x.db.txns.get? t = some a)
    (hk : NoStaleWrite x.now x.db.committed a) :
    ClockedAtStmt lockProgram NoStaleWrite x (.db (.exec t)) := by
  intro a' ha' _
  obtain rfl := Option.some.inj (ha.symm.trans ha')
  exact hk

/-- An empty table. -/
def noLocks : UniqueLocks := ⟨Store.empty, Store.pairwise_empty⟩

def startAcquire (user : ℕ) : ClockedOp LockRequest :=
  .db (.start (.acquire user 0 "equipment_record"))

def startHeartbeat (user : ℕ) : ClockedOp LockRequest :=
  .db (.start (.heartbeat user 0 "equipment_record"))

/-- The next statements of transaction `t`. -/
def execs (t count : ℕ) : List (ClockedOp LockRequest) := List.replicate count (.db (.exec t))

/-- User 2 acquires the record when the lock of user 1 has run out. -/
theorem lock_exclusive_expired :
    AllSteps locksStep ReturnsAlone (noLocks.world 0)
      (startAcquire 1 :: execs 0 4 ++ [.tick 900000000, startAcquire 2] ++ execs 1 6) := by
  apply lock_exclusive_of_steps
  refine ⟨trivial, atStmt_here rfl trivial, atStmt_here rfl trivial, atStmt_here rfl trivial,
    atStmt_here rfl trivial, trivial, trivial, atStmt_here rfl trivial, atStmt_here rfl trivial,
    atStmt_here rfl ?_, atStmt_here rfl trivial, atStmt_here rfl trivial, atStmt_here rfl trivial,
    trivial⟩
  intro row hrow
  obtain rfl := Option.some.inj hrow
  decide

/-- An acquire returns while a success of another user is running. -/
theorem not_returnsAlone {x : LockWorld} {t : ℕ} {key : LockKey} {user : ℕ} {expiry : ℤ} {seen : ℕ}
    (hreturn : (acquireReturn x t).any (fun c => c.key = key && c.user ≠ user) = true)
    (hmem : .succeeded key user expiry seen ∈ x.db.committed.log)
    (hnot : .ended key user ∉ x.db.committed.log.drop seen) (hnow : x.now < expiry) :
    ¬ReturnsAlone x (.db (.exec t)) := by
  intro h
  obtain ⟨c, hc, hkey⟩ := (Option.any_eq_true _ _).mp hreturn
  simp only [Bool.and_eq_true, decide_eq_true_eq] at hkey
  obtain ⟨rfl, hne⟩ := hkey
  have := h c hc user expiry (Ne.symm hne) ⟨seen, hmem, hnot⟩
  omega

/-- User 1's heartbeat starts in the last microsecond of his lock. User 2 reads the row
    after it has expired, and deletes it after the heartbeat has committed. -/
def lateTakeover : List (ClockedOp LockRequest) :=
  startAcquire 1 :: execs 0 4 ++ [.tick 899999999, startHeartbeat 1] ++ execs 1 3 ++
    [.tick 1, startAcquire 2] ++ execs 2 2 ++ execs 1 2 ++ execs 2 2

/-- Two heartbeats of user 1. The first one computes its expiry 90 seconds before the
    other, and sets it after the other has committed. User 2 comes when it has run out. -/
def heartbeatSetBack : List (ClockedOp LockRequest) :=
  startAcquire 1 :: execs 0 4 ++ [.tick 10000000, startHeartbeat 1] ++ execs 1 3 ++
    [.tick 90000000, startHeartbeat 1] ++ execs 2 5 ++ execs 1 2 ++
    [.tick 850000000, startAcquire 2] ++ execs 3 4

/-- In both runs the acquire of user 2 returns success with its next statement, while a
    committed success of user 1 is running. -/
theorem stale_reading_intrudes :
    ¬AllSteps locksStep ReturnsAlone (noLocks.world 0) (lateTakeover ++ execs 2 1) ∧
    ¬AllSteps locksStep ReturnsAlone (noLocks.world 0) (heartbeatSetBack ++ execs 3 1) := by
  constructor
  · intro h
    have hlast : ReturnsAlone (run locksStep (noLocks.world 0) lateTakeover) (.db (.exec 2)) :=
      h.last
    have hmem : LockEntry.succeeded (0, "equipment_record") 1 1799999999 1 ∈
        (run locksStep (noLocks.world 0) lateTakeover).db.committed.log := by decide +kernel
    exact not_returnsAlone (by decide +kernel) hmem (by decide +kernel) (by decide +kernel) hlast
  · intro h
    have hlast : ReturnsAlone (run locksStep (noLocks.world 0) heartbeatSetBack) (.db (.exec 3)) :=
      h.last
    have hmem : LockEntry.succeeded (0, "equipment_record") 1 1000000000 1 ∈
        (run locksStep (noLocks.world 0) heartbeatSetBack).db.committed.log := by decide +kernel
    exact not_returnsAlone (by decide +kernel) hmem (by decide +kernel) (by decide +kernel) hlast

end TempleConsign
