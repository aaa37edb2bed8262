import TempleConsign.Database
import TempleConsign.Lib.Run

/-!
# Record locks

Model of `src/api/services/record_lock_service.py` and of `ensure_lock_held`
(`src/api/services/sales_service.py` line 132): one row per locked record, with
an owner and an expiry. Each call is one transaction that reads one clock
value; the clock values of a run are arbitrary.

Results:
* `exec_acquire_*`, `returns_heartbeat`, `returns_release`, `returns_override`:
  what each call does to the table.
* `lockStep_oneRow`: no call leaves two rows for a record.
* `lock_safety`: who can acquire, refresh and write, after any calls.
-/

namespace TempleConsign

open ServiceLib

/-- `RecordLock` (`src/api/database/models.py` line 1023), also the `LockInfo`
    the calls return. -/
structure RecordLock where
  recordId : ℕ
  recordType : String
  lockedBy : ℕ
  lockedAt : ℤ
  expiresAt : ℤ
  deriving DecidableEq

/-- The exceptions of the lock service; `lockNotHeld` is the 409 of
    `ensure_lock_held`. -/
inductive LockError
  | lockHeld (info : RecordLock)
  | lockExpired
  | lockNotHeld
  | integrityError
  | multipleResultsFound

/-- The table `record_locks`. -/
abbrev Locks := Store RecordLock

abbrev LockService (α : Type) := Svc Locks LockError α

/-- `LOCK_TTL_SECONDS` (line 44). -/
def lockTtlSeconds : ℤ := 900

/-- `_new_expiry` (line 76). -/
def newExpiry (now : ℤ) : ℤ := now + seconds lockTtlSeconds

/-- Who calls, when, and for which record. -/
structure LockCall where
  now : ℤ
  user : ℕ
  recordId : ℕ
  recordType : String

/-- The `WHERE` of `_find` (line 219). -/
def onRecord (recordId : ℕ) (recordType : String) (_ : ℕ) (r : RecordLock) : Bool :=
  r.recordId = recordId && r.recordType = recordType

/-- `scalar_one_or_none()` on the lock rows that satisfy `p`. -/
def selectLock (p : ℕ → RecordLock → Bool) : LockService (Option (ℕ × RecordLock)) := do
  let t ← get
  Svc.expect (Store.scalarOneOrNone (t.select p)) .multipleResultsFound

/-- The row `acquire` inserts (line 113). -/
def LockCall.row (c : LockCall) : RecordLock where
  recordId := c.recordId
  recordType := c.recordType
  lockedBy := c.user
  lockedAt := c.now
  expiresAt := newExpiry c.now

/-- The insert in its savepoint, and what `acquire` does when the unique
    constraint refuses it (lines 113-145). -/
def insertLock (c : LockCall) : LockService RecordLock :=
  tryCatch
    (do
      let t ← get
      Svc.require (t.exists? (onRecord c.recordId c.recordType) = false) .integrityError
      modify fun t => t.create c.row
      pure c.row)
    fun e => match e with
      | .integrityError => do
        let conflict ← selectLock (onRecord c.recordId c.recordType)
        let (_, row) ← Svc.expect conflict .integrityError
        Svc.require (row.lockedBy = c.user) (.lockHeld row)
        pure row
      | e => throw e

/-- `acquire` (line 91). -/
def acquire (c : LockCall) : LockService RecordLock := do
  let existing ← selectLock (onRecord c.recordId c.recordType)
  match existing with
  | none => insertLock c
  | some (id, row) =>
    if row.expiresAt ≤ c.now then do
      modify fun t => t.delete id
      insertLock c
    else if row.lockedBy = c.user then do
      modify fun t => t.modify id fun r => { r with expiresAt := newExpiry c.now }
      pure { row with expiresAt := newExpiry c.now }
    else throw (.lockHeld row)

/-- The `WHERE` of `heartbeat` (line 160) and of `ensure_lock_held`. -/
def isLiveLockOf (c : LockCall) (_ : ℕ) (r : RecordLock) : Bool :=
  r.recordId = c.recordId && r.recordType = c.recordType && r.lockedBy = c.user &&
    c.now < r.expiresAt

/-- `heartbeat` (line 149). -/
def heartbeat (c : LockCall) : LockService RecordLock := do
  let row ← selectLock (isLiveLockOf c)
  let (id, row) ← Svc.expect row .lockExpired
  modify fun t => t.modify id fun r => { r with expiresAt := newExpiry c.now }
  pure { row with expiresAt := newExpiry c.now }

/-- `release` (line 177): whether a row was deleted. -/
def release (c : LockCall) : LockService Bool := do
  let t ← get
  let own := fun (_ : ℕ) (r : RecordLock) =>
    r.recordId = c.recordId && r.recordType = c.recordType && decide (r.lockedBy = c.user)
  modify fun t => t.deleteWhere own
  pure (t.exists? own)

/-- `override` (line 198): the lock that was taken away. -/
def override (recordId : ℕ) (recordType : String) : LockService (Option RecordLock) := do
  let existing ← selectLock (onRecord recordId recordType)
  match existing with
  | none => pure none
  | some (id, row) => do
    modify fun t => t.delete id
    pure (some row)

/-- `ensure_lock_held` (`sales_service.py` line 132). -/
def ensureLockHeld (now : ℤ) (recordId userId : ℕ) : LockService Unit := do
  let row ← selectLock (isLiveLockOf ⟨now, userId, recordId, "equipment_record"⟩)
  Svc.require (row ≠ none) .lockNotHeld

/-- A call of the lock API. -/
inductive LockOp
  | acquire (c : LockCall)
  | heartbeat (c : LockCall)
  | release (c : LockCall)
  | override (recordId : ℕ) (recordType : String)

def LockOp.service : LockOp → LockService Unit
  | .acquire c => (fun _ => ()) <$> TempleConsign.acquire c
  | .heartbeat c => (fun _ => ()) <$> TempleConsign.heartbeat c
  | .release c => (fun _ => ()) <$> TempleConsign.release c
  | .override recordId recordType => (fun _ => ()) <$> TempleConsign.override recordId recordType

/-- The caller's data of an acquire, heartbeat or release. -/
def LockOp.call : LockOp → Option LockCall
  | .acquire c | .heartbeat c | .release c => some c
  | .override .. => none

/-- One call in its transaction. -/
def lockStep (t : Locks) (op : LockOp) : Locks :=
  (Svc.request (fun before _ => before) op.service t).2

/-! ## One row for each record -/

/-- The unique constraint on `(record_id, record_type)`. -/
def OneRowPerRecord (t : Locks) : Prop :=
  t.Pairwise fun a b => ¬ (a.recordId = b.recordId ∧ a.recordType = b.recordType)

theorem oneRow_symm (a b : RecordLock)
    (h : ¬ (a.recordId = b.recordId ∧ a.recordType = b.recordType)) :
    ¬ (b.recordId = a.recordId ∧ b.recordType = a.recordType) :=
  fun hb => h ⟨hb.1.symm, hb.2.symm⟩

theorem OneRowPerRecord.eq {t : Locks} (h : OneRowPerRecord t) {i j : ℕ} {a b : RecordLock}
    (ha : t.get? i = some a) (hb : t.get? j = some b) (hk : a.recordId = b.recordId)
    (ht : a.recordType = b.recordType) : i = j ∧ a = b := by
  by_cases hij : i = j
  · subst hij
    rw [ha] at hb
    exact ⟨rfl, Option.some.inj hb⟩
  · exact absurd ⟨hk, ht⟩ (h i j a b hij ha hb)

theorem onRecord_iff {recordId id : ℕ} {recordType : String} {r : RecordLock} :
    onRecord recordId recordType id r = true ↔
      r.recordId = recordId ∧ r.recordType = recordType := by
  simp [onRecord]

theorem isLiveLockOf_iff {c : LockCall} {id : ℕ} {r : RecordLock} :
    isLiveLockOf c id r = true ↔
      r.recordId = c.recordId ∧ r.recordType = c.recordType ∧ r.lockedBy = c.user ∧
        c.now < r.expiresAt := by
  simp [isLiveLockOf, and_assoc]

/-- With one row for each record, a query on one record never sees two. -/
theorem OneRowPerRecord.find {t : Locks} (h : OneRowPerRecord t) {recordId : ℕ}
    {recordType : String} {p : ℕ → RecordLock → Bool}
    (hp : ∀ id r, p id r = true → r.recordId = recordId ∧ r.recordType = recordType) :
    (Store.scalarOneOrNone (t.select p) = some none ∧
        ∀ id r, t.get? id = some r → p id r = false) ∨
    ∃ id r, Store.scalarOneOrNone (t.select p) = some (some (id, r)) ∧ t.get? id = some r ∧
      p id r = true := by
  have hne : Store.scalarOneOrNone (t.select p) ≠ none := by
    rw [Store.scalar_select_ne_none_iff]
    intro k k' r r' hk hpk hk' hpk'
    have h1 := hp k r hpk
    have h2 := hp k' r' hpk'
    exact (h.eq hk hk' (h1.1.trans h2.1.symm) (h1.2.trans h2.2.symm)).1
  cases hs : Store.scalarOneOrNone (t.select p) with
  | none => exact absurd hs hne
  | some o =>
    cases o with
    | none => exact Or.inl ⟨rfl, Store.scalar_select_none_iff.mp hs⟩
    | some a =>
      obtain ⟨⟨ha, hpa⟩, -⟩ := Store.scalar_select_some_iff.mp hs
      exact Or.inr ⟨a.1, a.2, rfl, ha, hpa⟩

/-! ## What each call does -/

theorem exec_selectLock (p : ℕ → RecordLock → Bool) (t : Locks) :
    Svc.exec (selectLock p) t = match Store.scalarOneOrNone (t.select p) with
      | some o => (.ok o, t)
      | none => (.error .multipleResultsFound, t) := by
  simp only [selectLock, Svc.exec_bind, Svc.exec_get, Svc.exec_expect]
  cases Store.scalarOneOrNone (t.select p) <;> rfl

/-- The insert goes through when the record has no row. -/
theorem exec_insertLock {c : LockCall} {t : Locks}
    (h : ∀ id r, t.get? id = some r → onRecord c.recordId c.recordType id r = false) :
    Svc.exec (insertLock c) t = (.ok c.row, t.create c.row) := by
  have hex : t.exists? (onRecord c.recordId c.recordType) = false := by
    rw [← Bool.not_eq_true, Store.exists?_iff]
    rintro ⟨id, r, hr, hp⟩
    rw [h id r hr] at hp
    cases hp
  simp only [insertLock, Svc.exec_tryCatch, Svc.exec_bind, Svc.exec_get, Svc.exec_require, hex,
    if_pos, Svc.exec_modify, Svc.exec_pure]

/-- Without a row `acquire` inserts one. -/
theorem exec_acquire_free {c : LockCall} {t : Locks}
    (h : ∀ id r, t.get? id = some r → onRecord c.recordId c.recordType id r = false) :
    Svc.exec (acquire c) t = (.ok c.row, t.create c.row) := by
  simp only [acquire, Svc.exec_bind, exec_selectLock, Store.scalar_select_none_iff.mpr h,
    exec_insertLock h]

variable {c : LockCall} {t : Locks} {id : ℕ} {r : RecordLock}

/-- An expired row is deleted first. -/
theorem exec_acquire_expired
    (hs : Store.scalarOneOrNone (t.select (onRecord c.recordId c.recordType)) = some (some (id, r)))
    (hexp : r.expiresAt ≤ c.now) :
    Svc.exec (acquire c) t = (.ok c.row, (t.delete id).create c.row) := by
  obtain ⟨⟨hr, hp⟩, huniq⟩ := Store.scalar_select_some_iff.mp hs
  have hfree : ∀ j r', (t.delete id).get? j = some r' →
      onRecord c.recordId c.recordType j r' = false := by
    intro j r' hj
    rw [Store.get?_delete] at hj
    split_ifs at hj with hne
    cases hpj : onRecord c.recordId c.recordType j r' with
    | false => rfl
    | true => exact absurd (huniq j r' hj hpj) hne
  simp only [acquire, Svc.exec_bind, exec_selectLock, hs, if_pos hexp, Svc.exec_modify,
    exec_insertLock hfree]

/-- The owner's live row is refreshed. -/
theorem exec_acquire_own
    (hs : Store.scalarOneOrNone (t.select (onRecord c.recordId c.recordType)) = some (some (id, r)))
    (hlive : c.now < r.expiresAt) (hown : r.lockedBy = c.user) :
    Svc.exec (acquire c) t = (.ok { r with expiresAt := newExpiry c.now },
      t.modify id fun r => { r with expiresAt := newExpiry c.now }) := by
  simp only [acquire, Svc.exec_bind, exec_selectLock, hs, if_neg (Int.not_le.mpr hlive),
    if_pos hown, Svc.exec_modify, Svc.exec_pure]

/-- Another user's live row is respected. -/
theorem exec_acquire_held
    (hs : Store.scalarOneOrNone (t.select (onRecord c.recordId c.recordType)) = some (some (id, r)))
    (hlive : c.now < r.expiresAt) (hother : r.lockedBy ≠ c.user) :
    Svc.exec (acquire c) t = (.error (.lockHeld r), t) := by
  simp only [acquire, Svc.exec_bind, exec_selectLock, hs, if_neg (Int.not_le.mpr hlive),
    if_neg hother, Svc.exec_throw]

theorem returns_heartbeat {t' : Locks} {info : RecordLock} :
    Svc.Returns (heartbeat c) t info t' ↔
      ∃ id r, Store.scalarOneOrNone (t.select (isLiveLockOf c)) = some (some (id, r)) ∧
        (t.modify id fun r => { r with expiresAt := newExpiry c.now }) = t' ∧
        { r with expiresAt := newExpiry c.now } = info := by
  simp [heartbeat, selectLock]

theorem returns_release {t' : Locks} {b : Bool} (h : Svc.Returns (release c) t b t') :
    ∀ id r, t'.get? id = some r ↔ t.get? id = some r ∧
      ¬ (r.recordId = c.recordId ∧ r.recordType = c.recordType ∧ r.lockedBy = c.user) := by
  simp only [release, Svc.returns_get_bind, Svc.returns_modify_bind, Svc.returns_pure] at h
  obtain ⟨-, rfl⟩ := h
  intro id r
  rw [Store.get?_deleteWhere]
  simp

theorem returns_override {recordId : ℕ} {recordType : String} {t' : Locks}
    {prior : Option RecordLock} (h : Svc.Returns (override recordId recordType) t prior t') :
    t = t' ∨ ∃ id, t.delete id = t' := by
  simp only [override, selectLock, Svc.returns_bind, Svc.returns_get, Svc.returns_expect] at h
  obtain ⟨o, t1, ⟨_, _, ⟨rfl, rfl⟩, -, rfl⟩, h⟩ := h
  cases o with
  | none => exact Or.inl (Svc.returns_pure.mp h).2
  | some a =>
    simp only [Svc.returns_modify_bind, Svc.returns_pure] at h
    exact Or.inr ⟨a.1, h.2⟩

theorem returns_ensureLockHeld {now : ℤ} {recordId userId : ℕ} {t' : Locks} {u : Unit} :
    Svc.Returns (ensureLockHeld now recordId userId) t u t' ↔
      (∃ id r, Store.scalarOneOrNone
        (t.select (isLiveLockOf ⟨now, userId, recordId, "equipment_record"⟩)) =
          some (some (id, r))) ∧ t = t' := by
  simp only [ensureLockHeld, selectLock, Svc.returns_bind, Svc.returns_get, Svc.returns_expect,
    Svc.returns_require]
  constructor
  · rintro ⟨o, _, ⟨_, _, ⟨rfl, rfl⟩, hs, rfl⟩, hne, rfl⟩
    cases o with
    | none => exact absurd rfl hne
    | some a => exact ⟨⟨a.1, a.2, hs⟩, rfl⟩
  · rintro ⟨⟨id, r, hs⟩, rfl⟩
    exact ⟨_, _, ⟨_, _, ⟨rfl, rfl⟩, hs, rfl⟩, Option.some_ne_none _, rfl⟩

/-- What `acquire` leaves: a new row of the caller in the place of no row or of
    an expired one, the caller's row refreshed, or the table as it was. -/
theorem acquire_cases (hu : OneRowPerRecord t) (c : LockCall) :
    (Svc.exec (acquire c) t = (.ok c.row, t.create c.row) ∧
      ∀ id r, t.get? id = some r → onRecord c.recordId c.recordType id r = false) ∨
    ∃ id r, Store.scalarOneOrNone (t.select (onRecord c.recordId c.recordType)) =
        some (some (id, r)) ∧ t.get? id = some r ∧
      r.recordId = c.recordId ∧ r.recordType = c.recordType ∧
      ((r.expiresAt ≤ c.now ∧ Svc.exec (acquire c) t = (.ok c.row, (t.delete id).create c.row)) ∨
       (c.now < r.expiresAt ∧ r.lockedBy = c.user ∧
          Svc.exec (acquire c) t = (.ok { r with expiresAt := newExpiry c.now },
            t.modify id fun r => { r with expiresAt := newExpiry c.now })) ∨
       (c.now < r.expiresAt ∧ r.lockedBy ≠ c.user ∧
          Svc.exec (acquire c) t = (.error (.lockHeld r), t))) := by
  rcases hu.find (p := onRecord c.recordId c.recordType) fun id r h => onRecord_iff.mp h with
    ⟨-, hnone⟩ | ⟨id, r, hs, hr, hp⟩
  · exact Or.inl ⟨exec_acquire_free hnone, hnone⟩
  · obtain ⟨hrec, htyp⟩ := onRecord_iff.mp hp
    refine Or.inr ⟨id, r, hs, hr, hrec, htyp, ?_⟩
    by_cases hexp : r.expiresAt ≤ c.now
    · exact Or.inl ⟨hexp, exec_acquire_expired hs hexp⟩
    · have hlive : c.now < r.expiresAt := by omega
      by_cases hown : r.lockedBy = c.user
      · exact Or.inr (Or.inl ⟨hlive, hown, exec_acquire_own hs hlive hown⟩)
      · exact Or.inr (Or.inr ⟨hlive, hown, exec_acquire_held hs hlive hown⟩)

/-! ## Runs of calls -/

/-- No call leaves two rows for a record. -/
theorem lockStep_oneRow (op : LockOp) (hu : OneRowPerRecord t) :
    OneRowPerRecord (lockStep t op) := by
  have hnew : ∀ (t : Locks) (c : LockCall), OneRowPerRecord t →
      (∀ id r, t.get? id = some r → onRecord c.recordId c.recordType id r = false) →
      OneRowPerRecord (t.create c.row) := by
    intro t c hu hfree
    refine (Store.pairwise_create_iff oneRow_symm hu).mpr fun j b hb hk => ?_
    have := hfree j b hb
    rw [← Bool.not_eq_true, onRecord_iff] at this
    exact this ⟨hk.1.symm, hk.2.symm⟩
  have hrefresh : ∀ (id : ℕ) (e : ℤ),
      OneRowPerRecord (t.modify id fun r => { r with expiresAt := e }) :=
    fun id e => hu.modify oneRow_symm fun _ _ _ h => h
  cases op with
  | acquire c =>
    simp only [lockStep, LockOp.service, Svc.request_map_snd]
    rcases acquire_cases hu c with ⟨h, hnone⟩ | ⟨id, r, hs, -, -, -, hcase⟩
    · rw [h]; exact hnew t c hu hnone
    · rcases hcase with ⟨-, h⟩ | ⟨-, -, h⟩ | ⟨-, -, h⟩
      · rw [h]
        refine hnew _ c (hu.delete id) fun j r' hj => ?_
        rw [Store.get?_delete] at hj
        split_ifs at hj with hne
        have huniq := (Store.scalar_select_some_iff.mp hs).2 j r' hj
        cases hp : onRecord c.recordId c.recordType j r' with
        | false => rfl
        | true => exact absurd (huniq hp) hne
      · rw [h]; exact hrefresh id _
      · rw [h]; exact hu
  | heartbeat c =>
    simp only [lockStep, LockOp.service, Svc.request_map_snd]
    match h : Svc.exec (heartbeat c) t with
    | (.ok info, t') =>
      obtain ⟨id, r, -, rfl, -⟩ := returns_heartbeat.mp h
      exact hrefresh id _
    | (.error e, t') => exact hu
  | release c =>
    simp only [lockStep, LockOp.service, Svc.request_map_snd]
    match h : Svc.exec (release c) t with
    | (.ok b, t') => exact hu.of_subset fun id r hr => ((returns_release h id r).mp hr).1
    | (.error e, t') => exact hu
  | override recordId recordType =>
    simp only [lockStep, LockOp.service, Svc.request_map_snd]
    match h : Svc.exec (override recordId recordType) t with
    | (.ok prior, t') =>
      rcases returns_override h with rfl | ⟨id, rfl⟩
      · exact hu
      · exact hu.delete id
    | (.error e, t') => exact hu

/-- An acquire, heartbeat or release leaves other users' live rows alone. -/
theorem lockStep_keeps_others {op : LockOp} (hu : OneRowPerRecord t) (hop : op.call = some c)
    (hr : t.get? id = some r) (hother : r.lockedBy ≠ c.user) (hlive : c.now < r.expiresAt) :
    (lockStep t op).get? id = some r := by
  cases op with
  | acquire c' =>
    cases hop
    simp only [lockStep, LockOp.service, Svc.request_map_snd]
    rcases acquire_cases hu c with ⟨h, -⟩ | ⟨j, r', -, hj, -, -, hcase⟩
    · rw [h]; exact Store.get?_create_of_some hr
    · rcases hcase with ⟨hexp, h⟩ | ⟨-, hown, h⟩ | ⟨-, -, h⟩
      · rw [h]
        have hne : id ≠ j := by
          rintro rfl
          rw [hr] at hj
          cases hj
          omega
        exact Store.get?_create_of_some (by rw [Store.get?_delete, if_neg hne, hr])
      · rw [h]
        have hne : id ≠ j := by
          rintro rfl
          rw [hr] at hj
          cases hj
          exact hother hown
        exact (Store.get?_modify_ne t _ hne).trans hr
      · rw [h]; exact hr
  | heartbeat c' =>
    cases hop
    simp only [lockStep, LockOp.service, Svc.request_map_snd]
    match h : Svc.exec (heartbeat c) t with
    | (.ok info, t') =>
      obtain ⟨j, r', hs, rfl, -⟩ := returns_heartbeat.mp h
      obtain ⟨⟨hj, hp⟩, -⟩ := Store.scalar_select_some_iff.mp hs
      have hne : id ≠ j := by
        rintro rfl
        rw [hr] at hj
        cases hj
        exact hother (isLiveLockOf_iff.mp hp).2.2.1
      exact (Store.get?_modify_ne t _ hne).trans hr
    | (.error e, t') => exact hr
  | release c' =>
    cases hop
    simp only [lockStep, LockOp.service, Svc.request_map_snd]
    match h : Svc.exec (release c) t with
    | (.ok b, t') => exact (returns_release h id r).mpr ⟨hr, fun hk => hother hk.2.2⟩
    | (.error e, t') => exact hr
  | override recordId recordType => cases hop

/-- A service call returns. -/
def Succeeds {α : Type} (m : LockService α) (t : Locks) : Prop := ∃ a t', Svc.Returns m t a t'

/-- Row `id` locks the record of `c`. -/
def Locks.HeldFor (t : Locks) (c : LockCall) (id : ℕ) (r : RecordLock) : Prop :=
  t.get? id = some r ∧ r.recordId = c.recordId ∧ r.recordType = c.recordType

/-- What the lock API guarantees in a state. -/
structure LockSafe (t : Locks) : Prop where
  /-- At most one row for a record. -/
  one_row : OneRowPerRecord t
  /-- `acquire` succeeds iff no other user holds an unexpired lock. -/
  acquire_iff : ∀ c, Succeeds (acquire c) t ↔
    ¬ ∃ id r, t.HeldFor c id r ∧ r.lockedBy ≠ c.user ∧ c.now < r.expiresAt
  /-- `heartbeat` succeeds iff the caller holds an unexpired lock. -/
  heartbeat_iff : ∀ c, Succeeds (heartbeat c) t ↔
    ∃ id r, t.HeldFor c id r ∧ r.lockedBy = c.user ∧ c.now < r.expiresAt
  /-- No acquire, heartbeat or release touches another user's live lock. -/
  others_kept : ∀ op c id r, op.call = some c → t.get? id = some r → r.lockedBy ≠ c.user →
    c.now < r.expiresAt → (lockStep t op).get? id = some r
  /-- A successful acquire leaves the caller's lock with one full TTL. -/
  acquire_expiry : ∀ c info t', Svc.Returns (acquire c) t info t' →
    ∃ id, t'.HeldFor c id info ∧ info.lockedBy = c.user ∧
      info.expiresAt = c.now + seconds lockTtlSeconds
  /-- So does a successful heartbeat. -/
  heartbeat_expiry : ∀ c info t', Svc.Returns (heartbeat c) t info t' →
    ∃ id, t'.HeldFor c id info ∧ info.lockedBy = c.user ∧
      info.expiresAt = c.now + seconds lockTtlSeconds
  /-- At one instant the sales paths let at most one user write. -/
  one_writer : ∀ now recordId u u', Succeeds (ensureLockHeld now recordId u) t →
    Succeeds (ensureLockHeld now recordId u') t → u = u'

theorem acquire_succeeds_iff (hu : OneRowPerRecord t) (c : LockCall) :
    Succeeds (acquire c) t ↔
      ¬ ∃ id r, t.HeldFor c id r ∧ r.lockedBy ≠ c.user ∧ c.now < r.expiresAt := by
  rcases acquire_cases hu c with ⟨h, hnone⟩ | ⟨id, r, -, hr, hrec, htyp, hcase⟩
  · refine ⟨fun _ => ?_, fun _ => ⟨_, _, h⟩⟩
    rintro ⟨id, r, ⟨hr, hk⟩, -, -⟩
    have := hnone id r hr
    rw [← Bool.not_eq_true, onRecord_iff] at this
    exact this hk
  · -- any row for the record is `r`
    have hall : ∀ id' r', t.HeldFor c id' r' → r' = r := fun id' r' h' =>
      (hu.eq h'.1 hr (h'.2.1.trans hrec.symm) (h'.2.2.trans htyp.symm)).2
    rcases hcase with ⟨hexp, h⟩ | ⟨hlive, hown, h⟩ | ⟨hlive, hother, h⟩
    · refine ⟨fun _ => ?_, fun _ => ⟨_, _, h⟩⟩
      rintro ⟨id', r', h', -, hl⟩
      rw [hall id' r' h'] at hl
      omega
    · refine ⟨fun _ => ?_, fun _ => ⟨_, _, h⟩⟩
      rintro ⟨id', r', h', hne, -⟩
      rw [hall id' r' h'] at hne
      exact hne hown
    · constructor
      · rintro ⟨a, t', ha⟩
        unfold Svc.Returns at ha
        rw [h] at ha
        cases ha
      · exact fun hno => absurd ⟨id, r, ⟨hr, hrec, htyp⟩, hother, hlive⟩ hno

theorem liveLock_iff (hu : OneRowPerRecord t) (c : LockCall) :
    (∃ id r, Store.scalarOneOrNone (t.select (isLiveLockOf c)) = some (some (id, r))) ↔
      ∃ id r, t.HeldFor c id r ∧ r.lockedBy = c.user ∧ c.now < r.expiresAt := by
  have hp : ∀ id r, isLiveLockOf c id r = true →
      r.recordId = c.recordId ∧ r.recordType = c.recordType := fun id r h =>
    ⟨(isLiveLockOf_iff.mp h).1, (isLiveLockOf_iff.mp h).2.1⟩
  constructor
  · rintro ⟨id, r, hs⟩
    obtain ⟨⟨hr, hk⟩, -⟩ := Store.scalar_select_some_iff.mp hs
    obtain ⟨h1, h2, h3, h4⟩ := isLiveLockOf_iff.mp hk
    exact ⟨id, r, ⟨hr, h1, h2⟩, h3, h4⟩
  · rintro ⟨id, r, ⟨hr, h1, h2⟩, h3, h4⟩
    rcases hu.find hp with ⟨-, hnone⟩ | ⟨id', r', hs, -, -⟩
    · have := hnone id r hr
      rw [isLiveLockOf_iff.mpr ⟨h1, h2, h3, h4⟩] at this
      cases this
    · exact ⟨id', r', hs⟩

theorem heartbeat_expiry {t' : Locks} {info : RecordLock}
    (h : Svc.Returns (heartbeat c) t info t') :
    ∃ id, t'.HeldFor c id info ∧ info.lockedBy = c.user ∧
      info.expiresAt = c.now + seconds lockTtlSeconds := by
  obtain ⟨id, r, hs, rfl, rfl⟩ := returns_heartbeat.mp h
  obtain ⟨⟨hr, hk⟩, -⟩ := Store.scalar_select_some_iff.mp hs
  obtain ⟨h1, h2, h3, -⟩ := isLiveLockOf_iff.mp hk
  refine ⟨id, ⟨?_, h1, h2⟩, h3, rfl⟩
  rw [Store.get?_modify_self, hr]
  rfl

theorem acquire_expiry {t' : Locks} {info : RecordLock} (hu : OneRowPerRecord t)
    (h : Svc.Returns (acquire c) t info t') :
    ∃ id, t'.HeldFor c id info ∧ info.lockedBy = c.user ∧
      info.expiresAt = c.now + seconds lockTtlSeconds := by
  unfold Svc.Returns at h
  rcases acquire_cases hu c with ⟨he, -⟩ | ⟨id, r, -, hr, hrec, htyp, hcase⟩
  · rw [he] at h
    cases h
    exact ⟨t.next, ⟨Store.get?_create_self t _, rfl, rfl⟩, rfl, rfl⟩
  · rcases hcase with ⟨-, he⟩ | ⟨-, hown, he⟩ | ⟨-, -, he⟩
    · rw [he] at h
      cases h
      exact ⟨_, ⟨Store.get?_create_self (t.delete id) _, rfl, rfl⟩, rfl, rfl⟩
    · rw [he] at h
      cases h
      refine ⟨id, ⟨?_, hrec, htyp⟩, hown, rfl⟩
      rw [Store.get?_modify_self, hr]
      rfl
    · rw [he] at h
      cases h

/-- **The lock API is safe after any calls**: whatever users called acquire,
    heartbeat, release and override, on whatever records and at whatever times. -/
theorem lock_safety (ops : List LockOp) : LockSafe (run lockStep Store.empty ops) := by
  have hu : OneRowPerRecord (run lockStep Store.empty ops) :=
    run_induction (fun _ op h => lockStep_oneRow op h) Store.pairwise_empty ops
  generalize run lockStep Store.empty ops = t at hu
  refine ⟨hu, acquire_succeeds_iff hu, fun c => ?_, fun op c id r hop hr ho hl =>
    lockStep_keeps_others hu hop hr ho hl, fun c info t' h => acquire_expiry hu h,
    fun c info t' h => heartbeat_expiry h, fun now recordId u u' h h' => ?_⟩
  · rw [← liveLock_iff hu c]
    constructor
    · rintro ⟨_, _, h⟩
      obtain ⟨id, r, hs, -, -⟩ := returns_heartbeat.mp h
      exact ⟨id, r, hs⟩
    · rintro ⟨id, r, hs⟩
      exact ⟨_, _, returns_heartbeat.mpr ⟨id, r, hs, rfl, rfl⟩⟩
  · obtain ⟨_, _, h⟩ := h
    obtain ⟨_, _, h'⟩ := h'
    obtain ⟨id, r, ⟨hr, h1, h2⟩, hby, -⟩ := (liveLock_iff hu _).mp (returns_ensureLockHeld.mp h).1
    obtain ⟨id', r', ⟨hr', h1', h2'⟩, hby', -⟩ :=
      (liveLock_iff hu _).mp (returns_ensureLockHeld.mp h').1
    have hrow : r = r' := (hu.eq hr hr' (h1.trans h1'.symm) (h2.trans h2'.symm)).2
    subst hrow
    exact hby.symm.trans hby'

end TempleConsign
