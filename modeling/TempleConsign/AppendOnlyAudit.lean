import TempleConsign.Database
import TempleConsign.Lib.Grown
import TempleConsign.Lib.Run
import TempleConsign.Lib.Savepoints

/-!
# The append-only audit log

Model of `prevent_audit_log_modification` and `fn_scrub_audit_pii`
(`src/api/alembic/versions/008_phase2_account_deletion_and_audit_scrub.py` lines 89–140) with
the trigger of migration 003: row statements on `audit_logs` and calls of the scrubber, in
any number of sessions at READ COMMITTED, in transactions with savepoints. The trigger reads
the setting `templehe.pii_scrub`, which the scrubber sets until the end of the transaction.

Deviations: intervals of days are of 24 hours. A statement that waits for a row of another
session is not run. Statements that fail for other reasons, among them a scrub cancelled half
way, are the steps `fail`. `data` are the columns that no function here names.

Results:
* `levelOk_statement`: every statement leaves the setting off, and writes inserts and scrubs.
* `auditLog_appendOnly`: the committed rows stay, but for addresses and agents that become
  null after 30 days.
* `modification_refused`: in every run, an update or a delete of a row that it sees fails.
-/

namespace TempleConsign.AppendOnlyAudit

open ServiceLib

variable {δ : Type}

/-! ## Rows and writes -/

/-- A row of `audit_logs`. -/
structure AuditRow (δ : Type) where
  id : ℕ
  createdAt : ℤ
  ipAddress : Option String
  userAgent : Option String
  data : δ

/-- The primary key. -/
def AuditRow.key (r : AuditRow δ) : ℕ × ℤ := (r.id, r.createdAt)

/-- The `SET` of `fn_scrub_audit_pii`. -/
def AuditRow.scrubbed (r : AuditRow δ) : AuditRow δ :=
  { r with ipAddress := none, userAgent := none }

/-- A row version that a statement wrote. -/
inductive AuditWrite (δ : Type)
  | insert (row : AuditRow δ)
  | update (key : ℕ × ℤ) (set : AuditRow δ → AuditRow δ)
  | delete (key : ℕ × ℤ)

def AuditWrite.key : AuditWrite δ → ℕ × ℤ
  | .insert row => row.key
  | .update key _ => key
  | .delete key => key

def AuditWrite.apply (rows : List (AuditRow δ)) : AuditWrite δ → List (AuditRow δ)
  | .insert row => rows ++ [row]
  | .update key set => rows.map fun r => if r.key = key then set r else r
  | .delete key => rows.filter fun r => r.key ≠ key

/-- What a transaction has done: its value of `templehe.pii_scrub` and its writes. -/
structure AuditLevel (δ : Type) where
  setting : Option String
  writes : List (AuditWrite δ)

/-- The rows it sees. -/
def AuditLevel.visible (l : AuditLevel δ) (committed : List (AuditRow δ)) : List (AuditRow δ) :=
  l.writes.foldl AuditWrite.apply committed

def AuditLevel.write (l : AuditLevel δ) (w : AuditWrite δ) : AuditLevel δ :=
  { l with writes := l.writes ++ [w] }

/-! ## Statements -/

inductive AuditError
  | appendOnly
  | retentionDays
  | uniqueViolation

def AuditError.text : AuditError → String
  | .appendOnly => "audit_logs is append-only; UPDATE and DELETE are not permitted"
  | .retentionDays => "retention_days must be between 30 and 120"
  | .uniqueViolation => "duplicate key value violates unique constraint"

abbrev AuditService (δ : Type) (α : Type) := Svc (AuditLevel δ) AuditError α

/-- `TG_OP` of the trigger. -/
inductive TriggerOp
  | update
  | delete
  deriving DecidableEq

/-- `prevent_audit_log_modification`: it raises or lets the new row pass. -/
def preventAuditLogModification (op : TriggerOp) : AuditService δ Unit := do
  let l ← get
  Svc.require (op = .update ∧ l.setting = some "on") .appendOnly

/-- `set_config('templehe.pii_scrub', value, true)`. -/
def setConfig (value : String) : AuditService δ Unit :=
  modify fun l => { l with setting := some value }

def insertRow (committed : List (AuditRow δ)) (row : AuditRow δ) : AuditService δ Unit := do
  let l ← get
  Svc.require (row.key ∉ (l.visible committed).map AuditRow.key) .uniqueViolation
  modify fun l => l.write (.insert row)

def updateRow (committed : List (AuditRow δ)) (set : AuditRow δ → AuditRow δ) (r : AuditRow δ) :
    AuditService δ Unit := do
  preventAuditLogModification .update
  let l ← get
  Svc.require ((set r).key = r.key ∨ (set r).key ∉ (l.visible committed).map AuditRow.key)
    .uniqueViolation
  modify fun l => l.write (.update r.key set)

def deleteRow (r : AuditRow δ) : AuditService δ Unit := do
  preventAuditLogModification .delete
  modify fun l => l.write (.delete r.key)

/-- The rows of a `WHERE`, one by one, and their number. -/
def forRows (committed : List (AuditRow δ)) (matching : AuditRow δ → Bool)
    (change : AuditRow δ → AuditService δ Unit) : AuditService δ ℕ := do
  let l ← get
  forM ((l.visible committed).filter matching) change
  return ((l.visible committed).filter matching).length

/-- `UPDATE audit_logs SET … WHERE …`. -/
def updateRows (committed : List (AuditRow δ)) (matching : AuditRow δ → Bool)
    (set : AuditRow δ → AuditRow δ) : AuditService δ ℕ :=
  forRows committed matching (updateRow committed set)

/-- `DELETE FROM audit_logs WHERE …`. -/
def deleteRows (committed : List (AuditRow δ)) (matching : AuditRow δ → Bool) :
    AuditService δ ℕ :=
  forRows committed matching deleteRow

/-- The `WHERE` of `fn_scrub_audit_pii`; with null days it is null. -/
def scrubs (now : ℤ) (retentionDays : Option ℤ) (r : AuditRow δ) : Bool :=
  retentionDays.any (fun n => r.createdAt < now - days n) &&
    (r.ipAddress.isSome || r.userAgent.isSome)

/-- `fn_scrub_audit_pii`; `NOW()` is the start of the transaction. -/
def fnScrubAuditPii (committed : List (AuditRow δ)) (now : ℤ) (retentionDays : Option ℤ) :
    AuditService δ ℕ := do
  Svc.require (retentionDays.all fun n => !(n < 30 || 120 < n)) .retentionDays
  setConfig "on"
  let rowsScrubbed ← updateRows committed (scrubs now retentionDays) AuditRow.scrubbed
  setConfig "off"
  return rowsScrubbed

/-- A statement of a client. -/
inductive AuditStmt (δ : Type)
  | insert (row : AuditRow δ)
  | update (matching : AuditRow δ → Bool) (set : AuditRow δ → AuditRow δ)
  | delete (matching : AuditRow δ → Bool)
  | scrub (retentionDays : Option ℤ)

def AuditStmt.service (committed : List (AuditRow δ)) (now : ℤ) : AuditStmt δ → AuditService δ Unit
  | .insert row => insertRow committed row
  | .update matching set => Svc.void (updateRows committed matching set)
  | .delete matching => Svc.void (deleteRows committed matching)
  | .scrub retentionDays => Svc.void (fnScrubAuditPii committed now retentionDays)

/-! ## Sessions -/

structure AuditTxn (δ : Type) where
  startedAt : ℤ
  levels : Nested (AuditLevel δ)

/-- `setting` is the session's value of `templehe.pii_scrub`, to which a transaction's value
    reverts. -/
structure AuditSession (δ : Type) where
  setting : Option String
  txn : Option (AuditTxn δ)

structure AuditWorld (δ : Type) where
  now : ℤ
  committed : List (AuditRow δ)
  sessions : Store (AuditSession δ)

inductive AuditOp (δ : Type)
  | tick (elapsed : ℕ)
  | connect
  | begin (session : ℕ)
  | exec (session : ℕ) (stmt : AuditStmt δ)
  | control (session : ℕ) (op : SavepointOp)
  | commit (session : ℕ)
  | rollback (session : ℕ)

def AuditTxn.exec (t : AuditTxn δ) (committed : List (AuditRow δ)) (stmt : AuditStmt δ) :
    AuditTxn δ :=
  { t with
    levels := t.levels.run fun l =>
      match Svc.exec (stmt.service committed t.startedAt) l with
      | (.ok _, l') => some l'
      | (.error _, _) => none }

/-- The rows that the transaction has written. -/
def AuditTxn.locked (t : AuditTxn δ) : List (ℕ × ℤ) :=
  t.levels.held.elim [] fun l => l.writes.map AuditWrite.key

def AuditWorld.txn? (x : AuditWorld δ) (session : ℕ) : Option (AuditTxn δ) :=
  (x.sessions.get? session).bind AuditSession.txn

def AuditWorld.setTxn (x : AuditWorld δ) (session : ℕ) (t : Option (AuditTxn δ)) : AuditWorld δ :=
  { x with sessions := x.sessions.modify session fun c => { c with txn := t } }

/-- A row that it writes is written by the transaction of another session. -/
def AuditWorld.waits (x : AuditWorld δ) (session : ℕ) (t : AuditTxn δ) : Bool :=
  !(x.sessions.select fun other c => other ≠ session &&
    c.txn.any fun t' => t'.locked.any fun key => key ∈ t.locked).isEmpty

/-- In the transaction of the session, if it has one. -/
def AuditWorld.within (x : AuditWorld δ) (session : ℕ) (f : AuditTxn δ → AuditWorld δ) :
    AuditWorld δ :=
  (x.txn? session).elim x f

/-- A statement; one that has to wait is not run. -/
def AuditWorld.exec (x : AuditWorld δ) (session : ℕ) (stmt : AuditStmt δ) (t : AuditTxn δ) :
    AuditWorld δ :=
  if x.waits session (t.exec x.committed stmt) then x
  else x.setTxn session (some (t.exec x.committed stmt))

def AuditWorld.commit (x : AuditWorld δ) (session : ℕ) (t : AuditTxn δ) : AuditWorld δ :=
  { x.setTxn session none with
    committed := t.levels.result.elim x.committed fun l => l.visible x.committed }

def auditStep (x : AuditWorld δ) : AuditOp δ → AuditWorld δ
  | .tick elapsed => { x with now := x.now + elapsed }
  | .connect => { x with sessions := x.sessions.create ⟨none, none⟩ }
  | .begin session => { x with
      sessions := x.sessions.modify session fun c =>
        { c with txn := some (c.txn.getD ⟨x.now, .start ⟨c.setting, []⟩⟩) } }
  | .exec session stmt => x.within session (x.exec session stmt)
  | .control session op => x.within session fun t =>
      x.setTxn session (some { t with levels := t.levels.control op })
  | .commit session => x.within session (x.commit session)
  | .rollback session => x.setTxn session none

/-- A database with the rows of earlier times and no session. -/
def start (now : ℤ) (rows : List (AuditRow δ)) : AuditWorld δ := ⟨now, rows, Store.empty⟩

/-! ## What may become of a row -/

/-- A column is as it was, or it is null where the row is `old`. -/
def Nulled (old : Prop) (a b : Option String) : Prop := b = a ∨ (b = none ∧ old)

theorem Nulled.refl (old : Prop) (a : Option String) : Nulled old a a := Or.inl rfl

theorem Nulled.trans {old old' : Prop} {a b c : Option String} (hold : old → old')
    (h : Nulled old a b) (h' : Nulled old' b c) : Nulled old' a c := by
  cases h' with
  | inl hcb =>
    rw [hcb]
    exact h.imp_right fun hb => ⟨hb.1, hold hb.2⟩
  | inr hc => exact Or.inr hc

/-- What a committed row may be at `now`. -/
structure Kept (now : ℤ) (r r' : AuditRow δ) : Prop where
  id : r'.id = r.id
  createdAt : r'.createdAt = r.createdAt
  data : r'.data = r.data
  ipAddress : Nulled (r.createdAt < now - days 30) r.ipAddress r'.ipAddress
  userAgent : Nulled (r.createdAt < now - days 30) r.userAgent r'.userAgent

variable {now now' : ℤ}

theorem Kept.refl (now : ℤ) (r : AuditRow δ) : Kept now r r :=
  ⟨rfl, rfl, rfl, Nulled.refl _ _, Nulled.refl _ _⟩

theorem Kept.trans {r r' r'' : AuditRow δ} (hle : now ≤ now') (h : Kept now r r')
    (h' : Kept now' r' r'') : Kept now' r r'' := by
  have hold : r.createdAt < now - days 30 → r.createdAt < now' - days 30 := by omega
  have hip := h'.ipAddress
  have hagent := h'.userAgent
  rw [h.createdAt] at hip hagent
  exact ⟨h'.id.trans h.id, h'.createdAt.trans h.createdAt, h'.data.trans h.data,
    h.ipAddress.trans hold hip, h.userAgent.trans hold hagent⟩

theorem Kept.mono {r r' : AuditRow δ} (hle : now ≤ now') (h : Kept now r r') : Kept now' r r' :=
  h.trans hle (Kept.refl now' r')

theorem kept_scrubbed {r : AuditRow δ} (h : r.createdAt < now - days 30) :
    Kept now r r.scrubbed :=
  ⟨rfl, rfl, rfl, Or.inr ⟨rfl, h⟩, Or.inr ⟨rfl, h⟩⟩

/-! ## What a transaction may write -/

/-- Inserts, and scrubs of rows older than 30 days. -/
def AuditWrite.Ok (now : ℤ) : AuditWrite δ → Prop
  | .insert _ => True
  | .update key set => set = AuditRow.scrubbed ∧ key.2 < now - days 30
  | .delete _ => False

theorem AuditWrite.Ok.grown {w : AuditWrite δ} (h : w.Ok now) (rows : List (AuditRow δ)) :
    Grown (Kept now) rows (w.apply rows) := by
  cases w with
  | insert row => exact grown_append (Kept.refl now) rows [row]
  | update key set =>
    obtain ⟨hset, hold⟩ := h
    apply grown_map
    intro r _
    split_ifs with hkey
    · have hcreated : r.createdAt = key.2 := congrArg Prod.snd hkey
      rw [hset]
      exact kept_scrubbed (hcreated ▸ hold)
    · exact Kept.refl now r
  | delete key => exact h.elim

/-- The writes of a transaction that started at `now`. -/
def AuditLevel.WritesOk (now : ℤ) (l : AuditLevel δ) : Prop := ∀ w ∈ l.writes, w.Ok now

/-- Between its statements the setting is not on. -/
structure AuditLevel.Ok (now : ℤ) (l : AuditLevel δ) : Prop where
  setting : l.setting ≠ some "on"
  writes : l.WritesOk now

theorem AuditLevel.WritesOk.write {l : AuditLevel δ} {w : AuditWrite δ} (h : l.WritesOk now)
    (hw : w.Ok now) : (l.write w).WritesOk now := by
  intro v hv
  obtain hv | hv := List.mem_append.mp hv
  · exact h v hv
  · rw [List.mem_singleton.mp hv]
    exact hw

theorem AuditLevel.WritesOk.grown {l : AuditLevel δ} (h : l.WritesOk now)
    (committed : List (AuditRow δ)) : Grown (Kept now) committed (l.visible committed) :=
  grown_foldl (Kept.refl now) (fun _ _ _ => Kept.trans (Int.le_refl now))
    (fun w hw => (h w hw).grown) committed

/-! ## Statements -/

variable {committed : List (AuditRow δ)} {l l' : AuditLevel δ}

/-- The trigger lets an update of a scrub pass, and no delete. -/
theorem returns_preventAuditLogModification {op : TriggerOp} {u : Unit} :
    Svc.Returns (preventAuditLogModification op) l u l' ↔
      (op = .update ∧ l.setting = some "on") ∧ l = l' := by
  simp [preventAuditLogModification]

theorem returns_updateRow {set : AuditRow δ → AuditRow δ} {r : AuditRow δ} {u : Unit}
    (h : Svc.Returns (updateRow committed set r) l u l') :
    l.setting = some "on" ∧ l' = l.write (.update r.key set) := by
  unfold updateRow at h
  obtain ⟨_, t, htrigger, hrest⟩ := Svc.returns_bind.mp h
  obtain ⟨⟨-, hon⟩, rfl⟩ := returns_preventAuditLogModification.mp htrigger
  simp only [Svc.returns_get_bind, Svc.returns_require_bind, Svc.returns_modify] at hrest
  exact ⟨hon, hrest.2.symm⟩

/-- No delete of a row returns, whatever the setting. -/
theorem not_returns_deleteRow (r : AuditRow δ) (u : Unit) :
    ¬ Svc.Returns (deleteRow r) l u l' := by
  intro h
  unfold deleteRow at h
  obtain ⟨_, t, htrigger, -⟩ := Svc.returns_bind.mp h
  cases (returns_preventAuditLogModification.mp htrigger).1.1

theorem returns_forRows {matching : AuditRow δ → Bool} {change : AuditRow δ → AuditService δ Unit}
    {n : ℕ} (h : Svc.Returns (forRows committed matching change) l n l') :
    Svc.Returns (forM ((l.visible committed).filter matching) change) l ⟨⟩ l' := by
  unfold forRows at h
  rw [Svc.returns_get_bind] at h
  obtain ⟨_, t, hloop, hret⟩ := Svc.returns_bind.mp h
  rw [(Svc.returns_pure.mp hret).2] at hloop
  exact hloop

/-- With the setting off an update that returns has updated nothing. -/
theorem updateRows_off {matching : AuditRow δ → Bool} {set : AuditRow δ → AuditRow δ} {n : ℕ}
    (hoff : l.setting ≠ some "on")
    (h : Svc.Returns (updateRows committed matching set) l n l') :
    (l.visible committed).filter matching = [] ∧ l' = l :=
  (returns_forRows h).forM_refused fun _ _ _ hr => hoff (returns_updateRow hr).1

theorem deleteRows_nothing {matching : AuditRow δ → Bool} {n : ℕ}
    (h : Svc.Returns (deleteRows committed matching) l n l') :
    (l.visible committed).filter matching = [] ∧ l' = l :=
  (returns_forRows h).forM_refused fun r _ _ => not_returns_deleteRow r ⟨⟩

/-- The scrubber's update runs with the setting on, and leaves it off. -/
theorem returns_fnScrubAuditPii {retentionDays : Option ℤ} {n : ℕ}
    (h : Svc.Returns (fnScrubAuditPii committed now retentionDays) l n l') :
    retentionDays.all (fun d => !(d < 30 || 120 < d)) = true ∧
      ∃ t, Svc.Returns (updateRows committed (scrubs now retentionDays) AuditRow.scrubbed)
        { l with setting := some "on" } n t ∧ l' = { t with setting := some "off" } := by
  unfold fnScrubAuditPii setConfig at h
  rw [Svc.returns_require_bind] at h
  obtain ⟨hdays, h⟩ := h
  rw [Svc.returns_modify_bind] at h
  obtain ⟨m, t, hrows, h⟩ := Svc.returns_bind.mp h
  rw [Svc.returns_modify_bind] at h
  obtain ⟨rfl, rfl⟩ := Svc.returns_pure.mp h
  exact ⟨hdays, t, hrows, rfl⟩

/-- A row that a scrub takes is older than 30 days. -/
theorem old_of_scrubs {retentionDays : Option ℤ} {r : AuditRow δ}
    (hdays : retentionDays.all (fun d => !(d < 30 || 120 < d)) = true)
    (h : scrubs now retentionDays r = true) : r.createdAt < now - days 30 := by
  cases retentionDays with
  | none => cases h
  | some d =>
    simp only [scrubs, Option.any_some, Bool.and_eq_true, decide_eq_true_eq] at h
    simp only [Option.all_some, Bool.not_eq_true', Bool.or_eq_false_iff, decide_eq_false_iff_not]
      at hdays
    have hle : days 30 ≤ days d := by
      unfold days minutes seconds
      omega
    omega

/-- The rows of a scrub are written one by one. -/
theorem writesOk_scrub {retentionDays : Option ℤ} {n : ℕ}
    (hdays : retentionDays.all (fun d => !(d < 30 || 120 < d)) = true) (hl : l.WritesOk now)
    (h : Svc.Returns (updateRows committed (scrubs now retentionDays) AuditRow.scrubbed) l n l') :
    l'.WritesOk now := by
  refine (returns_forRows h).forM_induction (P := AuditLevel.WritesOk now) ?_ hl
  intro r hr t t' ht hrow
  obtain ⟨-, rfl⟩ := returns_updateRow hrow
  have hscrubs : scrubs now retentionDays r = true := (List.mem_filter.mp hr).2
  exact ht.write ⟨rfl, old_of_scrubs hdays hscrubs⟩

/-- A statement that returns leaves the setting off and has only inserted or scrubbed. -/
theorem levelOk_statement {stmt : AuditStmt δ} (hl : l.Ok now)
    (h : Svc.Returns (stmt.service committed now) l () l') : l'.Ok now := by
  cases stmt with
  | insert row =>
    simp only [AuditStmt.service, insertRow, Svc.returns_get_bind, Svc.returns_require_bind,
      Svc.returns_modify] at h
    rw [← h.2]
    exact ⟨hl.setting, hl.writes.write trivial⟩
  | update matching set =>
    obtain ⟨n, hn⟩ := Svc.returns_void.mp h
    rw [(updateRows_off hl.setting hn).2]
    exact hl
  | delete matching =>
    obtain ⟨n, hn⟩ := Svc.returns_void.mp h
    rw [(deleteRows_nothing hn).2]
    exact hl
  | scrub retentionDays =>
    obtain ⟨n, hn⟩ := Svc.returns_void.mp h
    obtain ⟨hdays, t, hrows, rfl⟩ := returns_fnScrubAuditPii hn
    have hon : AuditLevel.WritesOk now { l with setting := some "on" } := hl.writes
    have ht : t.WritesOk now := writesOk_scrub hdays hon hrows
    refine ⟨?_, ht⟩
    show some "off" ≠ some "on"
    decide

/-! ## Runs -/

/-- A transaction in progress at `now`. -/
structure AuditTxn.Ok (now : ℤ) (t : AuditTxn δ) : Prop where
  startedAt : t.startedAt ≤ now
  levels : t.levels.All (AuditLevel.Ok t.startedAt)

structure AuditSession.Ok (now : ℤ) (c : AuditSession δ) : Prop where
  setting : c.setting ≠ some "on"
  txn : ∀ t, c.txn = some t → t.Ok now

def AuditWorld.Ok (x : AuditWorld δ) : Prop := ∀ k c, x.sessions.get? k = some c → c.Ok x.now

variable {x : AuditWorld δ} {t : AuditTxn δ} {session : ℕ}

theorem AuditTxn.Ok.mono (hle : now ≤ now') (h : t.Ok now) : t.Ok now' :=
  ⟨Int.le_trans h.startedAt hle, h.levels⟩

theorem AuditSession.Ok.mono {c : AuditSession δ} (hle : now ≤ now') (h : c.Ok now) : c.Ok now' :=
  ⟨h.setting, fun t ht => (h.txn t ht).mono hle⟩

theorem AuditTxn.Ok.exec (h : t.Ok now) (committed : List (AuditRow δ)) (stmt : AuditStmt δ) :
    (t.exec committed stmt).Ok now := by
  refine ⟨h.startedAt, h.levels.run ?_⟩
  intro l l' hl hrun
  cases hstmt : Svc.exec (stmt.service committed t.startedAt) l with
  | mk result l₁ =>
    rw [hstmt] at hrun
    cases result with
    | ok u =>
      rw [← Option.some.inj hrun]
      exact levelOk_statement hl hstmt
    | error e => cases hrun

theorem AuditTxn.Ok.control (h : t.Ok now) (o : SavepointOp) :
    AuditTxn.Ok now { t with levels := t.levels.control o } :=
  ⟨h.startedAt, h.levels.control o⟩

/-- What `COMMIT` makes of the rows. -/
theorem AuditTxn.Ok.grown (h : t.Ok now) (committed : List (AuditRow δ)) :
    Grown (Kept now) committed (t.levels.result.elim committed fun l => l.visible committed) := by
  cases hresult : t.levels.result with
  | none => exact Grown.refl (Kept.refl now) committed
  | some l =>
    have hl : l.Ok t.startedAt := h.levels.result hresult
    exact (hl.writes.grown committed).mono fun _ _ => Kept.mono h.startedAt

theorem txnOk_of_txn? (h : x.Ok) (ht : x.txn? session = some t) : t.Ok x.now := by
  obtain ⟨c, hc, htxn⟩ := Option.bind_eq_some_iff.mp ht
  exact (h session c hc).txn t htxn

/-- What holds when there is no transaction, and after what each allowed one does. -/
theorem within_induction {P : AuditWorld δ → Prop} {f : AuditTxn δ → AuditWorld δ} (h : x.Ok)
    (hx : P x) (hf : ∀ t, t.Ok x.now → P (f t)) : P (x.within session f) := by
  unfold AuditWorld.within
  cases ht : x.txn? session with
  | none => exact hx
  | some t => exact hf t (txnOk_of_txn? h ht)

theorem worldOk_modify {f : AuditSession δ → AuditSession δ} (h : x.Ok)
    (hf : ∀ c, c.Ok x.now → (f c).Ok x.now) :
    AuditWorld.Ok { x with sessions := x.sessions.modify session f } := by
  intro k c hc
  simp only [Store.get?_modify] at hc
  split_ifs at hc
  · obtain ⟨c', hc', rfl⟩ := Option.map_eq_some_iff.mp hc
    exact hf c' (h k c' hc')
  · exact h k c hc

theorem worldOk_setTxn (h : x.Ok) (ht : t.Ok x.now) : (x.setTxn session (some t)).Ok :=
  worldOk_modify h fun _ hc => ⟨hc.setting, fun _ ht' => Option.some.inj ht' ▸ ht⟩

theorem worldOk_endTxn (h : x.Ok) : (x.setTxn session none).Ok :=
  worldOk_modify h fun _ hc => ⟨hc.setting, nofun⟩

/-- What every step preserves. -/
theorem worldOk_step (h : x.Ok) (op : AuditOp δ) : (auditStep x op).Ok := by
  cases op with
  | tick elapsed =>
    have hle : x.now ≤ x.now + elapsed := by omega
    exact fun k c hc => (h k c hc).mono hle
  | connect =>
    intro k c hc
    simp only [auditStep, Store.get?_create] at hc
    split_ifs at hc
    · rw [← Option.some.inj hc]
      exact ⟨nofun, nofun⟩
    · exact h k c hc
  | begin session =>
    apply worldOk_modify h
    intro c hc
    refine ⟨hc.setting, fun t ht => ?_⟩
    rw [← Option.some.inj ht]
    cases htxn : c.txn with
    | none => exact ⟨Int.le_refl x.now, Nested.all_start ⟨hc.setting, nofun⟩⟩
    | some t' => exact hc.txn t' htxn
  | exec session stmt =>
    apply within_induction h h
    intro t ht
    unfold AuditWorld.exec
    split_ifs
    · exact h
    · exact worldOk_setTxn h (ht.exec x.committed stmt)
  | control session o => exact within_induction h h fun t ht => worldOk_setTxn h (ht.control o)
  | commit session =>
    apply within_induction h h
    intro _ _
    have hend : (x.setTxn session none).Ok := worldOk_endTxn h
    exact hend
  | rollback session => exact worldOk_endTxn h

/-- `y` may come after `x`. -/
structure Extends (x y : AuditWorld δ) : Prop where
  now : x.now ≤ y.now
  committed : Grown (Kept y.now) x.committed y.committed

theorem Extends.of_eq {y : AuditWorld δ} (hnow : x.now ≤ y.now)
    (hrows : y.committed = x.committed) : Extends x y := by
  refine ⟨hnow, ?_⟩
  rw [hrows]
  exact Grown.refl (Kept.refl y.now) x.committed

theorem Extends.refl (x : AuditWorld δ) : Extends x x := Extends.of_eq (Int.le_refl x.now) rfl

theorem Extends.trans {y z : AuditWorld δ} (h : Extends x y) (h' : Extends y z) : Extends x z := by
  refine ⟨Int.le_trans h.now h'.now, h.committed.trans ?_ h'.committed⟩
  intro _ _ _ hr hr'
  exact hr.trans h'.now hr'

theorem extends_step (h : x.Ok) (op : AuditOp δ) : Extends x (auditStep x op) := by
  have hsessions : ∀ t session, Extends x (x.setTxn session t) :=
    fun _ _ => Extends.of_eq (Int.le_refl x.now) rfl
  cases op with
  | tick elapsed =>
    have hle : x.now ≤ x.now + elapsed := by omega
    exact Extends.of_eq hle rfl
  | connect => exact Extends.of_eq (Int.le_refl x.now) rfl
  | begin session => exact Extends.of_eq (Int.le_refl x.now) rfl
  | exec session stmt =>
    apply within_induction h (Extends.refl x)
    intro t _
    unfold AuditWorld.exec
    split_ifs
    · exact Extends.refl x
    · exact hsessions _ session
  | control session o => exact within_induction h (Extends.refl x) fun _ _ => hsessions _ session
  | commit session =>
    apply within_induction h (Extends.refl x)
    intro t ht
    exact ⟨Int.le_refl x.now, ht.grown x.committed⟩
  | rollback session => exact hsessions none session

theorem worldOk_start (now : ℤ) (rows : List (AuditRow δ)) : (start now rows).Ok := by
  intro k c hc
  rw [start, Store.get?_empty] at hc
  cases hc

theorem worldOk_run (h : x.Ok) (ops : List (AuditOp δ)) : (run auditStep x ops).Ok :=
  run_induction (P := AuditWorld.Ok) (fun _ op hx => worldOk_step hx op) h ops

theorem extends_run (h : x.Ok) (ops : List (AuditOp δ)) : Extends x (run auditStep x ops) := by
  have hrun : (run auditStep x ops).Ok ∧ Extends x (run auditStep x ops) :=
    run_induction (P := fun y => y.Ok ∧ Extends x y)
      (fun y op hy => ⟨worldOk_step hy.1 op, hy.2.trans (extends_step hy.1 op)⟩)
      ⟨h, Extends.refl x⟩ ops
  exact hrun.2

/-- A row that is committed after `ops` is there after any more steps, unchanged but for an
    address and an agent that are null if it is then older than 30 days. -/
theorem auditLog_appendOnly (now : ℤ) (rows : List (AuditRow δ)) (ops ops' : List (AuditOp δ)) :
    Grown (Kept (run auditStep (start now rows) (ops ++ ops')).now)
      (run auditStep (start now rows) ops).committed
      (run auditStep (start now rows) (ops ++ ops')).committed := by
  have hok : (run auditStep (start now rows) ops).Ok := worldOk_run (worldOk_start now rows) ops
  rw [run_append]
  exact (extends_run hok ops').committed

/-- A scrub takes the address of the row that is old, and of no other. -/
example :
    let rows := [⟨1, 0, some "10.0.0.1", none, ()⟩, ⟨2, days 35, some "10.0.0.2", none, ()⟩]
    let ops := [.connect, .begin 0, .exec 0 (.scrub (some 30)), .commit 0]
    (run auditStep (start (days 40) rows) ops).committed.map AuditRow.ipAddress =
      [none, some "10.0.0.2"] := by
  decide

/-! ## Refused statements -/

/-- An update or a delete whose `WHERE` takes the row. -/
def AuditStmt.Takes (r : AuditRow δ) : AuditStmt δ → Prop
  | .update matching _ => matching r = true
  | .delete matching => matching r = true
  | .insert _ => False
  | .scrub _ => False

theorem not_returns_takes {stmt : AuditStmt δ} {r : AuditRow δ} (hl : l.Ok now)
    (hr : r ∈ l.visible committed) (hstmt : stmt.Takes r) :
    ¬ Svc.Returns (stmt.service committed now) l () l' := by
  intro h
  cases stmt with
  | update matching set =>
    obtain ⟨n, hn⟩ := Svc.returns_void.mp h
    have hnone := (updateRows_off hl.setting hn).1
    exact List.filter_eq_nil_iff.mp hnone r hr hstmt
  | delete matching =>
    obtain ⟨n, hn⟩ := Svc.returns_void.mp h
    have hnone := (deleteRows_nothing hn).1
    exact List.filter_eq_nil_iff.mp hnone r hr hstmt
  | insert row => exact hstmt
  | scrub retentionDays => exact hstmt

/-- In every run, an update or a delete of a row that it sees leaves a failed transaction. -/
theorem modification_refused (now : ℤ) (rows : List (AuditRow δ)) (ops : List (AuditOp δ))
    {session : ℕ} {t : AuditTxn δ} {stmt : AuditStmt δ} {r : AuditRow δ}
    (ht : (run auditStep (start now rows) ops).txn? session = some t)
    (hr : r ∈ t.levels.current.visible (run auditStep (start now rows) ops).committed)
    (hstmt : stmt.Takes r) :
    (t.exec (run auditStep (start now rows) ops).committed stmt).levels.failed = true := by
  have hok := txnOk_of_txn? (worldOk_run (worldOk_start now rows) ops) ht
  unfold AuditTxn.exec Nested.run
  simp only
  split_ifs with hfailed
  · exact hfailed
  · cases hexec : Svc.exec (stmt.service (run auditStep (start now rows) ops).committed t.startedAt)
        t.levels.current with
    | mk result l₁ =>
      cases result with
      | ok u => exact absurd hexec (not_returns_takes hok.levels.1 hr hstmt)
      | error e => rfl

end TempleConsign.AppendOnlyAudit
