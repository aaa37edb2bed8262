import TempleConsign.Lib.ReadCommitted
import TempleConsign.Lib.Run
import TempleConsign.Outbox
import TempleConsign.RedFlags
import TempleConsign.VersionedRows

/-!
# The snapshot of a submission

`submit` (`src/api/services/appraisal_submission_service.py` line 179) locks the row of
the submission and then reads the versioned tables with three statements, each of which
sees what is committed at its time: the current prompts, the current rules, and in
`red_flag_service.evaluate` the current active rules. Its docstring says that the
snapshot reflects the versions that were current when the lock was acquired.

`history` keeps the category tables before every commit of an admin, so that a
transaction can remember which ones it read.

Deviations:
* An admin's transaction is any sequence of edits of the two versioned tables
  (`step_edits`), so that admins interleave with each other as well.
* The writes of `submit` are one statement, and the record is locked by it.
* The order of the rules without `ORDER BY`, `str` of a value that is no text and what a
  text column takes are parameters (`SubmitEnv`). A missing reference number is given
  as the text of `None`.

Results:
* `snapshots_evaluated_iff`: in which runs every submission stores what it evaluated.
* `tornRun_fails`: an admin's commit between the first two statements.
* `oneInstant_iff`: two readings are those of one instant exactly when no commit
  inserts a rule at or after one that inserts a prompt.
-/

namespace TempleConsign.SubmitSnapshot

open ServiceLib

/-! ## Tables -/

/-- The columns of a submission that `submit` reads beside `AppraisalSubmission`. -/
structure SubmissionDetails where
  runningStatus : Option String
  titleStatus : Option String
  hoursCondition : Option String
  serialNumber : Option String
  redFlags : List PyValue

/-- `category_version`, `prompt_version_set` and `rule_version_set`. -/
structure VersionSets where
  categoryVersion : Option ℕ
  promptVersionSet : List (ℕ × ℕ)
  ruleVersionSet : List (ℕ × ℕ)
  deriving DecidableEq

/-- `capturedLabels` are the slots of the photos of a submission. -/
structure SubmitDb where
  db : Db
  outbox : Outbox
  details : ℕ → SubmissionDetails
  capturedLabels : ℕ → List String
  versionSets : ℕ → Option VersionSets
  tables : CategoryDb
  history : List CategoryDb

/-- The category tables after the first `k` commits of admins. -/
def SubmitDb.tablesAt (s : SubmitDb) (k : ℕ) : Option CategoryDb := (s.history ++ [s.tables])[k]?

/-- A database before any of these commits. -/
def SubmitDb.start (s : SubmitDb) : SubmitDb := { s with history := [] }

/-- What a query or a flush answers where the language leaves it open. -/
structure SubmitEnv where
  deployment : Deployment
  str : PyValue → String
  takesText : String → Bool
  order : List (ℕ × RuleColumns) → List (ℕ × RuleColumns)
  order_perm : ∀ rules, (order rules).Perm rules

/-! ## What a submission reads and writes -/

/-- The arguments of `submit`. -/
structure Submit where
  now : ℤ
  appraiser : ℕ
  submissionId : ℕ

/-- `{str(p.id): p.version for p in …}`. -/
def versionsOf {κ : Type} (t : Store (VersionedPart κ)) (categoryId : ℕ) : List (ℕ × ℕ) :=
  (unreplacedOf t categoryId).map fun e => (e.1, e.2.version)

/-- Model of `_extract_fields` (`red_flag_service.py` line 244). -/
def extractFields (row : AppraisalSubmission) (d : SubmissionDetails) : Fields :=
  [("running_status", d.runningStatus), ("title_status", d.titleStatus),
    ("hours_condition", d.hoursCondition), ("marketability_rating", row.marketabilityRating),
    ("serial_number", d.serialNumber)]

/-- The rules that `evaluate` (line 188) loads. -/
def activeRules (tables : CategoryDb) : Option ℕ → List (ℕ × RuleColumns)
  | none => []
  | some categoryId =>
    (currentOf tables.redFlagRules categoryId).map fun e => (e.1, e.2.columns)

/-- The first statement of `_validate_required_photos` (line 350). -/
def requiredLabels (tables : CategoryDb) (categoryId : ℕ) : List String :=
  ((partsOf tables.photoSlots categoryId).filter fun e =>
    e.2.columns.required && e.2.active).map fun e => e.2.columns.label

/-- What the flush writes to a text column. -/
def SubmitEnv.flushText (env : SubmitEnv) (limit : Option ℕ) : PyValue → Option (Option String)
  | .none => some none
  | .str s =>
    if env.takesText s then
      match limit with
      | some n => (varchar n s).map some
      | none => some (some s)
    else none
  | _ => none

/-- The flags as the columns store them. -/
def SubmitEnv.flags (env : SubmitEnv) (e : Evaluation) : Option RedFlagResult := do
  let rating ← env.flushText (some 20) e.marketabilityRating
  let notes ← env.flushText none e.reviewNotes
  some ⟨e.managementReviewRequired, e.holdForTitleReview, rating, notes⟩

namespace SubmitDb

/-- The user of the record's customer (lines 224–227). -/
def customerUser (s : SubmitDb) (record : EquipmentRecord) : Option Recipient := do
  let customer ← s.db.customers.get? record.customerId
  let userId ← customer.userId
  s.outbox.tables.users userId

/-- The active sales managers (lines 438–450). -/
def managers (s : SubmitDb) : List Recipient :=
  ((s.db.users.select fun _ _ => true).filterMap fun e => s.outbox.tables.users e.1).filter
    fun u => u.role = .salesManager && u.active

/-- `red_flag_summary` (lines 433–436). -/
def redFlagSummary (env : SubmitEnv) (s : SubmitDb) (submissionId : ℕ) : String :=
  let text := "; ".intercalate ((s.details submissionId).redFlags.map (PyValue.text env.str))
  if text = "" then "See management approval queue for details" else text

/-- The notices of one producer. -/
def enqueue (env : SubmitEnv) (now : ℤ) (o : Operation) (x : Outbox) : Option Outbox :=
  (o.run env.deployment x.tables now).map fun r => ⟨r.1, enqueueAll now r.2 x.queue⟩

/-- The notices of `record_transition` and of `_notify_managers_review_required`. -/
def notify (env : SubmitEnv) (c : Submit) (row : AppraisalSubmission) (flags : RedFlagResult)
    (s : SubmitDb) : Option Outbox := do
  let record := s.db.records.get? row.recordId
  let moved ← match record with
    | none => some s.outbox
    | some record => enqueue env c.now (.recordTransition row.recordId .appraisalComplete none
        (s.customerUser record) none) s.outbox
  if flags.managementReviewRequired then
    enqueue env c.now (.managementReview c.submissionId s.managers
      ((record.map fun r => pyStr r.referenceNumber).getD row.recordId.repr)
      (s.redFlagSummary env c.submissionId) row.make row.model) moved
  else some moved

end SubmitDb

/-- What `_snapshot_versions` has read: `begun`, `promptsAt` and `rulesAt` count the
    admin commits before the first statement, the prompts and the rules. -/
structure Taken where
  categoryId : ℕ
  begun : ℕ
  promptsAt : ℕ
  rulesAt : ℕ
  sets : VersionSets
  deriving DecidableEq

/-- The writes of `submit`. -/
def SubmitDb.store (env : SubmitEnv) (c : Submit) (row : AppraisalSubmission)
    (taken : Option Taken) (flags : RedFlagResult) (s : SubmitDb) : SubmitDb :=
  { s with
    db := (Svc.exec (submit c.now c.appraiser c.submissionId flags []) s.db).2
    outbox := (s.notify env c row flags).getD s.outbox
    versionSets := fun id =>
      if id = c.submissionId then (taken.map Taken.sets).or (s.versionSets id)
      else s.versionSets id }

/-- An admin begins to write. -/
def SubmitDb.record (s : SubmitDb) : SubmitDb := { s with history := s.history ++ [s.tables] }

def SubmitDb.edit (s : SubmitDb) (e : CategoryEdit) : SubmitDb :=
  { s with tables := e.apply s.tables }

/-! ## The transactions -/

inductive Call
  | submit (c : Submit)
  | admin (edits : List CategoryEdit)

/-- What a transaction locks. -/
inductive LockedRow
  | submission (id : ℕ)
  | record (id : ℕ)
  | prompt (id : ℕ)
  | rule (id : ℕ)
  deriving DecidableEq

/-- The row that an edit updates. -/
def rowsOf {κ : Type} : RowEdit κ → List ℕ
  | .add _ _ _ => []
  | .supersede id _ _ _ _ => [id]
  | .setActive id _ => [id]

def editLocks : CategoryEdit → List LockedRow
  | .prompt e => (rowsOf e).map .prompt
  | .rule e => (rowsOf e).map .rule

/-- A submission before its commit; `evaluatedAt` counts the admin commits before the
    rules were loaded for `evaluate`. -/
structure Finished where
  call : Submit
  taken : Option Taken
  evaluatedAt : ℕ
  fields : Fields
  evaluation : Evaluation

/-- What comes next in a transaction. -/
inductive Point
  | lock (c : Submit)
  | checkAccess (c : Submit) (begun : ℕ) (row : AppraisalSubmission)
  | category (c : Submit) (begun : ℕ) (row : AppraisalSubmission) (categoryId : ℕ)
  | prompts (c : Submit) (begun : ℕ) (row : AppraisalSubmission) (categoryId : ℕ)
      (version : Option ℕ)
  | rules (c : Submit) (begun : ℕ) (row : AppraisalSubmission) (categoryId : ℕ)
      (version : Option ℕ) (promptsAt : ℕ) (promptVersionSet : List (ℕ × ℕ))
  | slots (c : Submit) (row : AppraisalSubmission) (taken : Taken)
  | photos (c : Submit) (row : AppraisalSubmission) (taken : Taken) (labels : List String)
  | evaluate (c : Submit) (row : AppraisalSubmission) (taken : Option Taken)
  | finished (f : Finished)
  | begin (edits : List CategoryEdit)
  | edits (rest : List CategoryEdit)

/-- The transaction is one of `submit`. -/
def Point.ofSubmit : Point → Bool
  | .begin _ | .edits _ => false
  | _ => true

abbrev SubmitStmt := Stmt SubmitDb LockedRow Point

/-- Lines 208–246: the flags, the status, the record and the notices. -/
def finishStmt (env : SubmitEnv) (c : Submit) (row : AppraisalSubmission) (taken : Option Taken)
    (s : SubmitDb) : SubmitStmt :=
  let fields := extractFields row (s.details c.submissionId)
  let evaluation := evaluateRules env.str (env.order (activeRules s.tables row.categoryId)) fields
    row.marketabilityRating row.reviewNotes
  match env.flags evaluation with
  | none => .rollback
  | some flags =>
    match (Svc.exec (submit c.now c.appraiser c.submissionId flags []) s.db).1,
        s.notify env c row flags with
    | .ok _, some _ => .goOn [.record row.recordId] (SubmitDb.store env c row taken flags)
        (.finished ⟨c, taken, s.history.length, fields, evaluation⟩)
    | _, _ => .rollback

/-- Model of `submit`, a statement at a time, and of an admin's transaction. -/
def submitStmt (env : SubmitEnv) : Point → SubmitDb → SubmitStmt
  | .lock c, s =>
    match s.db.submissions.get? c.submissionId with
    | some row =>
      if row.deletedAt = none then
        .goOn [.submission c.submissionId] id (.checkAccess c s.history.length row)
      else .rollback
    | none => .rollback
  | .checkAccess c begun row, s =>
    match (Svc.exec (checkAccess c.appraiser row) s.db).1 with
    | .ok _ =>
      if row.status = .draft then
        match row.categoryId with
        | some categoryId => .goOn [] id (.category c begun row categoryId)
        | none => .goOn [] id (.evaluate c row none)
      else .rollback
    | .error _ => .rollback
  | .category c begun row categoryId, s =>
    .goOn [] id (.prompts c begun row categoryId
      ((s.tables.categories.get? categoryId).map EquipmentCategory.version))
  | .prompts c begun row categoryId version, s =>
    .goOn [] id (.rules c begun row categoryId version s.history.length
      (versionsOf s.tables.inspectionPrompts categoryId))
  | .rules c begun row categoryId version promptsAt promptVersionSet, s =>
    .goOn [] id (.slots c row ⟨categoryId, begun, promptsAt, s.history.length,
      ⟨version, promptVersionSet, versionsOf s.tables.redFlagRules categoryId⟩⟩)
  | .slots c row taken, s =>
    .goOn [] id (.photos c row taken (requiredLabels s.tables taken.categoryId))
  | .photos c row taken labels, s =>
    if labels.all fun label => label ∈ s.capturedLabels c.submissionId then
      .goOn [] id (.evaluate c row (some taken))
    else .rollback
  | .evaluate c row taken, s => finishStmt env c row taken s
  | .finished _, _ => .commit
  | .begin edits, _ => .goOn [] SubmitDb.record (.edits edits)
  | .edits (e :: rest), _ => .goOn (editLocks e) (fun s => s.edit e) (.edits rest)
  | .edits [], _ => .commit

def submitProgram (env : SubmitEnv) : Program SubmitDb LockedRow Call Point where
  entry
    | .submit c => .lock c
    | .admin edits => .begin edits
  stmt := submitStmt env

abbrev SubmitTxn := Txn SubmitDb LockedRow Point

/-! ## The property -/

/-- The sets are those of the prompts and the rules that are current in `tables`. -/
structure CurrentSets (tables : CategoryDb) (categoryId : ℕ) (v : VersionSets) : Prop where
  prompts : ∀ id version, (id, version) ∈ v.promptVersionSet ↔
    CurrentVersion tables.inspectionPrompts categoryId id version
  rules : ∀ id version, (id, version) ∈ v.ruleVersionSet ↔
    CurrentVersion tables.redFlagRules categoryId id version

/-- The sets `v` are those of an instant since the first statement, and every rule that
    fired is among them. -/
structure SnapshotOf (s : SubmitDb) (t : Taken) (evaluation : Evaluation) (v : VersionSets) :
    Prop where
  oneInstant : ∃ k tables, t.begun ≤ k ∧ s.tablesAt k = some tables ∧
    CurrentSets tables t.categoryId v
  fired : ∀ id ∈ evaluation.triggeredRules, ∃ version, (id, version) ∈ v.ruleVersionSet

def Point.result : Point → Option Finished
  | .finished f => some f
  | _ => none

/-- The commit stores what was evaluated. -/
def StoresSnapshot (s : SubmitDb) (a : SubmitTxn) : Prop :=
  ∀ f, a.point.result = some f →
    (f.taken = none → f.evaluation.triggeredRules = []) ∧
    ∀ t, f.taken = some t → ∃ v, (a.write s).versionSets f.call.submissionId = some v ∧
      SnapshotOf (a.write s) t f.evaluation v

/-- A submission that ends in any other way than by its commit changes nothing. -/
def FailureKeeps (env : SubmitEnv) (x : Rc SubmitDb LockedRow Point) (o : RcOp Call) : Prop :=
  ∀ t a, x.txns.get? t = some a → a.point.ofSubmit = true →
    o = .abort t ∨ (o = .exec t ∧ (submitProgram env).next x.committed a ≠ .commit) →
    (rcStep (submitProgram env) x o).committed = x.committed

/-- The property of a run. -/
structure SnapshotsEvaluated (env : SubmitEnv) (s : SubmitDb) (ops : List (RcOp Call)) :
    Prop where
  stored : AllSteps (rcStep (submitProgram env))
    (AtCommit (submitProgram env) StoresSnapshot) (Rc.init s.start) ops
  failed : AllSteps (rcStep (submitProgram env)) (FailureKeeps env) (Rc.init s.start) ops

variable {κ : Type}

/-- Commit number `n` inserts a row into the category. -/
def InsertsAt (s : SubmitDb) (table : CategoryDb → Store (VersionedPart κ)) (categoryId n : ℕ) :
    Prop :=
  ∃ T T', s.tablesAt n = some T ∧ s.tablesAt (n + 1) = some T' ∧
    Inserted (table T) (table T') categoryId

/-- No commit between the first two statements inserts a rule at or after one that
    inserts a prompt. -/
def NotTorn (s : SubmitDb) (t : Taken) : Prop :=
  ∀ p r, t.promptsAt ≤ p → p ≤ r → r < t.rulesAt →
    InsertsAt s CategoryDb.inspectionPrompts t.categoryId p →
    ¬ InsertsAt s CategoryDb.redFlagRules t.categoryId r

/-- No rule inserted between the last two statements is current, active and fires. -/
def NoLateRule (s : SubmitDb) (t : Taken) (f : Finished) : Prop :=
  ∀ T T', s.tablesAt t.rulesAt = some T → s.tablesAt f.evaluatedAt = some T' →
    ∀ id rule, T'.redFlagRules.get? id = some rule → T.redFlagRules.next ≤ id →
      rule.categoryId = t.categoryId → rule.replacedAt = none → rule.active = true →
      conditionMatches f.fields rule.columns = false

def Undisturbed (s : SubmitDb) (a : SubmitTxn) : Prop :=
  ∀ f, a.point.result = some f → ∀ t, f.taken = some t → NotTorn s t ∧ NoLateRule s t f

/-! ## The history -/

/-- `s'` knows what `s` knows of the past. -/
structure Extends (s s' : SubmitDb) : Prop where
  length : s.history.length ≤ s'.history.length
  past : ∀ k T, s.tablesAt k = some T → s'.tablesAt k = some T

/-- The tables of the history become one another. -/
def Chained (s : SubmitDb) : Prop :=
  ∀ i j, i ≤ j → ∀ T T', s.tablesAt i = some T → s.tablesAt j = some T' → VersionsEvolve T T'

variable {s s' : SubmitDb}

theorem tablesAt_last (s : SubmitDb) : s.tablesAt s.history.length = some s.tables := by
  simp [SubmitDb.tablesAt]

theorem tablesAt_isSome {k : ℕ} (h : k ≤ s.history.length) : ∃ T, s.tablesAt k = some T := by
  unfold SubmitDb.tablesAt
  have hlt : k < (s.history ++ [s.tables]).length := by simp; omega
  exact ⟨_, List.getElem?_eq_getElem hlt⟩

theorem tablesAt_le {k : ℕ} {T : CategoryDb} (h : s.tablesAt k = some T) :
    k ≤ s.history.length := by
  unfold SubmitDb.tablesAt at h
  obtain ⟨hlt, -⟩ := List.getElem?_eq_some_iff.mp h
  simp at hlt
  omega

theorem Extends.of_eq (hh : s'.history = s.history) (ht : s'.tables = s.tables) : Extends s s' := by
  refine ⟨by rw [hh], fun k T h => ?_⟩
  unfold SubmitDb.tablesAt at h ⊢
  rw [hh, ht]
  exact h

theorem chained_start (s : SubmitDb) : Chained s.start := by
  intro i j hij T T' hT hT'
  have hi := tablesAt_le hT
  have hj := tablesAt_le hT'
  simp only [SubmitDb.start, List.length_nil, Nat.le_zero] at hi hj
  subst hi hj
  cases hT.symm.trans hT'
  exact VersionsEvolve.refl T

/-! ## Insertions -/

section
variable {table : CategoryDb → Store (VersionedPart κ)} {categoryId : ℕ}

/-- An insertion between two commits is one of a commit between them. -/
theorem insertsAt_of_inserted (hc : Chained s)
    (ht : ∀ T T', VersionsEvolve T T' → Evolves (table T) (table T')) (i n : ℕ)
    {T T' : CategoryDb} (hT : s.tablesAt i = some T) (hT' : s.tablesAt (i + n) = some T')
    (h : Inserted (table T) (table T') categoryId) :
    ∃ k, i ≤ k ∧ k < i + n ∧ InsertsAt s table categoryId k := by
  induction n generalizing T' with
  | zero =>
    cases hT.symm.trans hT'
    exact absurd h not_inserted_self
  | succ n ih =>
    have hle := tablesAt_le hT'
    obtain ⟨U, hU⟩ := tablesAt_isSome (s := s) (k := i + n) (by omega)
    rcases h.split (ht U T' (hc _ _ (by omega) U T' hU hT')) with hfirst | hlast
    · obtain ⟨k, hik, hkn, hk⟩ := ih hU hfirst
      exact ⟨k, hik, by omega, hk⟩
    · exact ⟨i + n, by omega, by omega, U, T', hU, hT', hlast⟩

theorem inserted_of_insertsAt (hc : Chained s)
    (ht : ∀ T T', VersionsEvolve T T' → Evolves (table T) (table T')) {i j k : ℕ}
    {T T' : CategoryDb} (hT : s.tablesAt i = some T) (hT' : s.tablesAt j = some T')
    (hik : i ≤ k) (hkj : k < j) (h : InsertsAt s table categoryId k) :
    Inserted (table T) (table T') categoryId := by
  obtain ⟨U, U', hU, hU', hins⟩ := h
  have hbefore := ht T U (hc _ _ hik T U hT hU)
  have hafter := ht U' T' (hc _ _ (by omega) U' T' hU' hT')
  exact (hins.before hafter).after hbefore

/-- The current versions at two instants are the same exactly when no commit between
    them inserts a row. -/
theorem current_iff_between (hc : Chained s)
    (ht : ∀ T T', VersionsEvolve T T' → Evolves (table T) (table T')) {i j : ℕ} (hij : i ≤ j)
    {T T' : CategoryDb} (hT : s.tablesAt i = some T) (hT' : s.tablesAt j = some T') :
    (∀ id version, CurrentVersion (table T') categoryId id version ↔
      CurrentVersion (table T) categoryId id version) ↔
      ∀ k, i ≤ k → k < j → ¬ InsertsAt s table categoryId k := by
  rw [(ht T T' (hc i j hij T T' hT hT')).current_iff]
  constructor
  · intro h k hik hkj hins
    exact h (inserted_of_insertsAt hc ht hT hT' hik hkj hins)
  · intro h hins
    obtain ⟨n, rfl⟩ := Nat.exists_eq_add_of_le hij
    obtain ⟨k, hik, hkj, hk⟩ := insertsAt_of_inserted hc ht i n hT hT' hins
    exact h k hik hkj hk

end

/-- What the transaction has read. -/
structure TakenOk (s : SubmitDb) (t : Taken) : Prop where
  begun : t.begun ≤ t.promptsAt
  ordered : t.promptsAt ≤ t.rulesAt
  past : t.rulesAt ≤ s.history.length
  prompts : ∃ T, s.tablesAt t.promptsAt = some T ∧
    t.sets.promptVersionSet = versionsOf T.inspectionPrompts t.categoryId
  rules : ∃ T, s.tablesAt t.rulesAt = some T ∧
    t.sets.ruleVersionSet = versionsOf T.redFlagRules t.categoryId

/-- The two readings are those of one instant exactly when no commit between them
    inserts a rule at or after one that inserts a prompt. -/
theorem oneInstant_iff (hc : Chained s) {t : Taken} (ht : TakenOk s t) :
    (∃ k tables, t.begun ≤ k ∧ s.tablesAt k = some tables ∧
      CurrentSets tables t.categoryId t.sets) ↔ NotTorn s t := by
  obtain ⟨P, hP, hprompts⟩ := ht.prompts
  obtain ⟨R, hR, hrules⟩ := ht.rules
  have hbegun := ht.begun
  have hordered := ht.ordered
  have hsets : ∀ T, CurrentSets T t.categoryId t.sets ↔
      (∀ id version, CurrentVersion T.inspectionPrompts t.categoryId id version ↔
        CurrentVersion P.inspectionPrompts t.categoryId id version) ∧
      ∀ id version, CurrentVersion R.redFlagRules t.categoryId id version ↔
        CurrentVersion T.redFlagRules t.categoryId id version := by
    intro T
    have hp : ∀ id version, (id, version) ∈ t.sets.promptVersionSet ↔
        CurrentVersion P.inspectionPrompts t.categoryId id version := by
      intro id version
      rw [hprompts]
      exact mem_unreplacedOf
    have hr : ∀ id version, (id, version) ∈ t.sets.ruleVersionSet ↔
        CurrentVersion R.redFlagRules t.categoryId id version := by
      intro id version
      rw [hrules]
      exact mem_unreplacedOf
    constructor
    · intro h
      exact ⟨fun id v => ((h.prompts id v).symm.trans (hp id v)),
        fun id v => ((hr id v).symm.trans (h.rules id v))⟩
    · rintro ⟨h, h'⟩
      exact ⟨fun id v => (hp id v).trans (h id v).symm, fun id v => (hr id v).trans (h' id v)⟩
  constructor
  · rintro ⟨k, T, -, hT, hcurrent⟩ p r hp hpr hr hinsP hinsR
    obtain ⟨hsameP, hsameR⟩ := (hsets T).mp hcurrent
    -- the rules of the instant are those of the second statement, so it is after `r`
    by_cases hkr : k ≤ r
    · have hnone := (current_iff_between hc (fun _ _ h => h.redFlagRules) (by omega) hT
        hR).mp hsameR
      exact hnone r hkr hr hinsR
    · have hnone := (current_iff_between hc (fun _ _ h => h.inspectionPrompts) (by omega) hP
        hT).mp hsameP
      exact hnone p hp (by omega) hinsP
  · intro h
    by_cases hany : ∃ p, t.promptsAt ≤ p ∧ p < t.rulesAt ∧
        InsertsAt s CategoryDb.inspectionPrompts t.categoryId p
    · -- the instant before the first commit that inserts a prompt
      classical
      obtain ⟨⟨hp, hpr, hins⟩, hleast⟩ := And.intro (Nat.find_spec hany)
        (fun m => Nat.find_min hany (m := m))
      generalize Nat.find hany = p at hp hpr hins hleast
      obtain ⟨T, T', hT, -, -⟩ := id hins
      refine ⟨p, T, by omega, hT, (hsets T).mpr ⟨?_, ?_⟩⟩
      · refine (current_iff_between hc (fun _ _ h => h.inspectionPrompts) hp hP hT).mpr ?_
        exact fun k hk hkp hinsK => hleast k hkp ⟨hk, by omega, hinsK⟩
      · refine (current_iff_between hc (fun _ _ h => h.redFlagRules) hpr.le hT hR).mpr ?_
        exact fun k hk hkr => h p k hp hk hkr hins
    · refine ⟨t.rulesAt, R, by omega, hR, (hsets R).mpr ⟨?_, fun _ _ => Iff.rfl⟩⟩
      refine (current_iff_between hc (fun _ _ h => h.inspectionPrompts) hordered hP hR).mpr ?_
      exact fun k hk hkr hins => hany ⟨k, hk, hkr, hins⟩

/-! ## The rules that fire -/

theorem mem_activeRules {tables : CategoryDb} {categoryId id : ℕ} {columns : RuleColumns} :
    (id, columns) ∈ activeRules tables (some categoryId) ↔
      ∃ rule, tables.redFlagRules.get? id = some rule ∧ rule.categoryId = categoryId ∧
        rule.replacedAt = none ∧ rule.active = true ∧ rule.columns = columns := by
  simp only [activeRules, List.mem_map, currentOf, unreplacedOf, List.mem_filter, Prod.exists,
    Store.mem_select, Bool.and_eq_true, decide_eq_true_eq, Option.isNone_iff_eq_none,
    Prod.mk.injEq]
  constructor
  · rintro ⟨k, rule, ⟨⟨hget, hcat, hopen⟩, hactive⟩, rfl, hcolumns⟩
    exact ⟨rule, hget, hcat, hopen, hactive, hcolumns⟩
  · rintro ⟨rule, hget, hcat, hopen, hactive, hcolumns⟩
    exact ⟨id, rule, ⟨⟨hget, hcat, hopen⟩, hactive⟩, rfl, hcolumns⟩

/-- What the submission that is about to commit has read and evaluated. -/
structure FinishedOk (s : SubmitDb) (f : Finished) : Prop where
  taken : ∀ t, f.taken = some t → TakenOk s t ∧ t.rulesAt ≤ f.evaluatedAt
  triggered : ∃ T, s.tablesAt f.evaluatedAt = some T ∧ ∀ id,
    id ∈ f.evaluation.triggeredRules ↔ ∃ columns,
      (id, columns) ∈ activeRules T (f.taken.map Taken.categoryId) ∧
        conditionMatches f.fields columns = true

/-- Every rule that fired is in the set exactly when no rule inserted since fires. -/
theorem fired_iff (hc : Chained s) {f : Finished} (hf : FinishedOk s f) {t : Taken}
    (ht : f.taken = some t) :
    (∀ id ∈ f.evaluation.triggeredRules, ∃ version, (id, version) ∈ t.sets.ruleVersionSet) ↔
      NoLateRule s t f := by
  obtain ⟨hok, hlater⟩ := hf.taken t ht
  obtain ⟨R, hR, hrules⟩ := hok.rules
  obtain ⟨E, hE, htriggered⟩ := hf.triggered
  rw [ht, Option.map_some] at htriggered
  have hset : ∀ id version, (id, version) ∈ t.sets.ruleVersionSet ↔
      CurrentVersion R.redFlagRules t.categoryId id version := by
    intro id version
    rw [hrules]
    exact mem_unreplacedOf
  constructor
  · intro h T T' hT hT' id rule hget hnew hcat hopen hactive
    cases hT.symm.trans hR
    cases hT'.symm.trans hE
    by_contra hmatch
    rw [Bool.not_eq_false] at hmatch
    have hmem : (id, rule.columns) ∈ activeRules E (some t.categoryId) :=
      mem_activeRules.mpr ⟨rule, hget, hcat, hopen, hactive, rfl⟩
    obtain ⟨version, hversion⟩ := h id ((htriggered id).mpr ⟨rule.columns, hmem, hmatch⟩)
    obtain ⟨p, hp, -⟩ := (hset id version).mp hversion
    have := Store.get?_lt hp
    omega
  · intro h id hid
    obtain ⟨columns, hmem, hmatch⟩ := (htriggered id).mp hid
    obtain ⟨rule, hget, hcat, hopen, hactive, rfl⟩ := mem_activeRules.mp hmem
    have hold : id < R.redFlagRules.next := by
      by_contra hnew
      have hnone := h R E hR hE id rule hget (by omega) hcat hopen hactive
      rw [hnone] at hmatch
      cases hmatch
    have hevolves := (hc _ _ hlater R E hR hE).redFlagRules
    obtain ⟨p, hp⟩ := hevolves.old id rule hget hold
    obtain ⟨rule', hget', hcat', -, -, hopen'⟩ := hevolves.kept id p hp
    cases hget.symm.trans hget'
    exact ⟨p.version, (hset id _).mpr ⟨p, hp, hcat'.symm.trans hcat, hopen' hopen, rfl⟩⟩

/-! ## What a transaction knows -/

/-- The writes of a transaction so far and what it has read. -/
def SubmitOk (env : SubmitEnv) (s : SubmitDb) (a : SubmitTxn) : Prop :=
  match a.point with
  | .lock _ | .begin _ => a.write = id
  | .checkAccess _ begun _ => a.write = id ∧ begun ≤ s.history.length
  | .category _ begun row categoryId | .prompts _ begun row categoryId _ =>
    a.write = id ∧ begun ≤ s.history.length ∧ row.categoryId = some categoryId
  | .rules _ begun row categoryId _ promptsAt promptVersionSet =>
    a.write = id ∧ begun ≤ promptsAt ∧ promptsAt ≤ s.history.length ∧
      (∃ T, s.tablesAt promptsAt = some T ∧
        promptVersionSet = versionsOf T.inspectionPrompts categoryId) ∧
      row.categoryId = some categoryId
  | .slots _ row taken | .photos _ row taken _ =>
    a.write = id ∧ TakenOk s taken ∧ row.categoryId = some taken.categoryId
  | .evaluate _ row taken =>
    a.write = id ∧ (∀ t, taken = some t → TakenOk s t) ∧
      taken.map Taken.categoryId = row.categoryId
  | .finished f =>
    FinishedOk s f ∧ ∃ row flags, a.write = SubmitDb.store env f.call row f.taken flags
  | .edits _ => ∃ made : List CategoryEdit, a.write = fun s => made.foldl SubmitDb.edit s.record

theorem TakenOk.extends {t : Taken} (h : TakenOk s t) (he : Extends s s') : TakenOk s' t where
  begun := h.begun
  ordered := h.ordered
  past := h.past.trans he.length
  prompts := by
    obtain ⟨T, hT, hset⟩ := h.prompts
    exact ⟨T, he.past _ _ hT, hset⟩
  rules := by
    obtain ⟨T, hT, hset⟩ := h.rules
    exact ⟨T, he.past _ _ hT, hset⟩

theorem FinishedOk.extends {f : Finished} (h : FinishedOk s f) (he : Extends s s') :
    FinishedOk s' f where
  taken t ht := ⟨(h.taken t ht).1.extends he, (h.taken t ht).2⟩
  triggered := by
    obtain ⟨T, hT, htriggered⟩ := h.triggered
    exact ⟨T, he.past _ _ hT, htriggered⟩

variable {env : SubmitEnv} {a b : SubmitTxn}

/-- What is known stays true while the history grows. -/
theorem SubmitOk.extends (h : SubmitOk env s a) (he : Extends s s') : SubmitOk env s' a := by
  have hlength := he.length
  unfold SubmitOk at h ⊢
  cases hp : a.point with
  | lock c => rw [hp] at h; exact h
  | begin edits => rw [hp] at h; exact h
  | edits rest => rw [hp] at h; exact h
  | checkAccess c begun row =>
    rw [hp] at h
    exact ⟨h.1, h.2.trans hlength⟩
  | category c begun row categoryId =>
    rw [hp] at h
    exact ⟨h.1, h.2.1.trans hlength, h.2.2⟩
  | prompts c begun row categoryId version =>
    rw [hp] at h
    exact ⟨h.1, h.2.1.trans hlength, h.2.2⟩
  | rules c begun row categoryId version promptsAt promptVersionSet =>
    rw [hp] at h
    obtain ⟨hw, hbegun, hat, ⟨T, hT, hset⟩, hrow⟩ := h
    exact ⟨hw, hbegun, hat.trans hlength, ⟨T, he.past _ _ hT, hset⟩, hrow⟩
  | slots c row taken =>
    rw [hp] at h
    exact ⟨h.1, h.2.1.extends he, h.2.2⟩
  | photos c row taken labels =>
    rw [hp] at h
    exact ⟨h.1, h.2.1.extends he, h.2.2⟩
  | evaluate c row taken =>
    rw [hp] at h
    exact ⟨h.1, fun t ht => (h.2.1 t ht).extends he, h.2.2⟩
  | finished f =>
    rw [hp] at h
    exact ⟨h.1.extends he, h.2⟩

/-- What the last statement learns. -/
theorem finishedOk_finishStmt {c : Submit} {row : AppraisalSubmission} {taken : Option Taken}
    {locks : List LockedRow} {write : SubmitDb → SubmitDb} {next : Point}
    (ht : ∀ t, taken = some t → TakenOk s t) (hrow : taken.map Taken.categoryId = row.categoryId)
    (h : finishStmt env c row taken s = .goOn locks write next) :
    ∃ f flags, next = .finished f ∧ FinishedOk s f ∧
      write = SubmitDb.store env f.call row f.taken flags := by
  simp only [finishStmt] at h
  split at h
  · cases h
  · next flags hflags =>
    split at h
    · cases h
      refine ⟨_, flags, rfl, ⟨fun t htaken => ⟨ht t htaken, (ht t htaken).past⟩, s.tables,
        tablesAt_last s, fun id => ?_⟩, rfl⟩
      simp only [triggered_evaluateRules, hrow, List.mem_map, List.mem_filter, Prod.exists,
        (env.order_perm _).mem_iff, exists_and_right, exists_eq_right]
    · cases h

theorem submitOk_goOn {locks : List LockedRow} {write : SubmitDb → SubmitDb} {next : Point}
    (ha : SubmitOk env s a) (hs : (submitProgram env).next s a = .goOn locks write next) :
    SubmitOk env s (a.goOn locks write next) := by
  obtain ⟨point, held, w⟩ := a
  simp only [Program.next, submitProgram] at hs
  cases point with
  | lock c =>
    obtain rfl : w = id := ha
    simp only [submitStmt] at hs
    split at hs
    · split_ifs at hs
      cases hs
      exact ⟨rfl, le_refl _⟩
    · cases hs
  | checkAccess c begun row =>
    obtain ⟨rfl, hbegun⟩ : w = id ∧ _ := ha
    simp only [submitStmt] at hs
    split at hs
    · split_ifs at hs
      split at hs
      · next categoryId hrow =>
        cases hs
        exact ⟨rfl, hbegun, hrow⟩
      · next hrow =>
        cases hs
        exact ⟨rfl, fun t ht => absurd ht (by simp), hrow.symm⟩
    · cases hs
  | category c begun row categoryId =>
    obtain ⟨rfl, hbegun, hrow⟩ : w = id ∧ _ := ha
    cases hs
    exact ⟨rfl, hbegun, hrow⟩
  | prompts c begun row categoryId version =>
    obtain ⟨rfl, hbegun, hrow⟩ : w = id ∧ _ := ha
    cases hs
    exact ⟨rfl, hbegun, le_refl _, ⟨s.tables, tablesAt_last s, rfl⟩, hrow⟩
  | rules c begun row categoryId version promptsAt promptVersionSet =>
    obtain ⟨rfl, hbegun, hat, hprompts, hrow⟩ : w = id ∧ _ := ha
    cases hs
    exact ⟨rfl, ⟨hbegun, hat, le_refl _, hprompts, s.tables, tablesAt_last s, rfl⟩, hrow⟩
  | slots c row taken =>
    obtain ⟨rfl, htaken, hrow⟩ : w = id ∧ _ := ha
    cases hs
    exact ⟨rfl, htaken, hrow⟩
  | photos c row taken labels =>
    obtain ⟨rfl, htaken, hrow⟩ : w = id ∧ _ := ha
    simp only [submitStmt] at hs
    split_ifs at hs
    cases hs
    refine ⟨rfl, fun t ht => ?_, hrow.symm⟩
    cases ht
    exact htaken
  | evaluate c row taken =>
    obtain ⟨rfl, htaken, hrow⟩ : w = id ∧ _ := ha
    obtain ⟨f, flags, rfl, hf, rfl⟩ := finishedOk_finishStmt htaken hrow hs
    exact ⟨hf, row, flags, rfl⟩
  | finished f => cases hs
  | begin edits =>
    obtain rfl : w = id := ha
    cases hs
    exact ⟨[], rfl⟩
  | edits rest =>
    obtain ⟨made, hw⟩ : ∃ made : List CategoryEdit, w = _ := ha
    cases rest with
    | nil => cases hs
    | cons e rest =>
      cases hs
      refine ⟨made ++ [e], ?_⟩
      rw [Txn.goOn, hw]
      funext s
      simp

/-! ## Commits -/

theorem edits_history (made : List CategoryEdit) (s : SubmitDb) :
    (made.foldl SubmitDb.edit s).history = s.history := by
  induction made generalizing s with
  | nil => rfl
  | cons e made ih => rw [List.foldl_cons, ih, SubmitDb.edit]

theorem edits_evolve (made : List CategoryEdit) (s : SubmitDb) :
    VersionsEvolve s.tables (made.foldl SubmitDb.edit s).tables := by
  induction made generalizing s with
  | nil => exact VersionsEvolve.refl _
  | cons e made ih => exact (versionsEvolve_edit s.tables e).trans (ih (s.edit e))

/-- An admin's commit appends the tables that it leaves. -/
theorem tablesAt_edits (made : List CategoryEdit) (s : SubmitDb) (k : ℕ) :
    (made.foldl SubmitDb.edit s.record).tablesAt k =
      if k ≤ s.history.length then s.tablesAt k
      else if k = s.history.length + 1 then some (made.foldl SubmitDb.edit s.record).tables
      else none := by
  unfold SubmitDb.tablesAt
  rw [edits_history, SubmitDb.record]
  split_ifs with h h'
  · rw [List.getElem?_append_left (by simp; omega)]
  · subst h'
    simp
  · rw [List.getElem?_eq_none_iff.mpr]
    simp
    omega

theorem extends_edits (made : List CategoryEdit) (s : SubmitDb) :
    Extends s (made.foldl SubmitDb.edit s.record) where
  length := by simp [edits_history, SubmitDb.record]
  past k T hT := by
    rw [tablesAt_edits, if_pos (tablesAt_le hT)]
    exact hT

theorem chained_edits (hc : Chained s) (made : List CategoryEdit) :
    Chained (made.foldl SubmitDb.edit s.record) := by
  intro i j hij T T' hT hT'
  rw [tablesAt_edits] at hT hT'
  split_ifs at hT' with hj hj'
  · rw [if_pos (by omega)] at hT
    exact hc i j hij T T' hT hT'
  · cases hT'
    split_ifs at hT with hi hi'
    · exact (hc i _ hi T s.tables hT (tablesAt_last s)).trans (edits_evolve made s.record)
    · cases hT
      exact VersionsEvolve.refl _

/-- What a commit writes: a submission, or the edits of an admin. -/
theorem commit_spec (ha : SubmitOk env s a) (hs : (submitProgram env).next s a = .commit) :
    (∃ f row flags, a.point = .finished f ∧ FinishedOk s f ∧
      a.write s = s.store env f.call row f.taken flags) ∨
    ∃ made : List CategoryEdit, a.point = .edits [] ∧
      a.write s = made.foldl SubmitDb.edit s.record := by
  obtain ⟨point, held, w⟩ := a
  simp only [Program.next, submitProgram] at hs
  cases point with
  | finished f =>
    obtain ⟨hf, row, flags, hw⟩ := ha
    exact .inl ⟨f, row, flags, rfl, hf, congrFun hw s⟩
  | edits rest =>
    obtain ⟨made, hw⟩ := ha
    cases rest with
    | nil => exact .inr ⟨made, rfl, congrFun hw s⟩
    | cons e rest => cases hs
  | lock c =>
    simp only [submitStmt] at hs
    split at hs
    · split_ifs at hs
    · cases hs
  | checkAccess c begun row =>
    simp only [submitStmt] at hs
    split at hs
    · split_ifs at hs
      split at hs <;> cases hs
    · cases hs
  | photos c row taken labels =>
    simp only [submitStmt] at hs
    split_ifs at hs
  | evaluate c row taken =>
    simp only [submitStmt, finishStmt] at hs
    split at hs
    · cases hs
    · split at hs <;> cases hs
  | category c begun row categoryId => cases hs
  | prompts c begun row categoryId version => cases hs
  | rules c begun row categoryId version promptsAt promptVersionSet => cases hs
  | slots c row taken => cases hs
  | begin edits => cases hs

theorem extends_commit (ha : SubmitOk env s a) (hs : (submitProgram env).next s a = .commit) :
    Extends s (a.write s) := by
  rcases commit_spec ha hs with ⟨f, row, flags, -, -, hw⟩ | ⟨made, -, hw⟩
  · rw [hw]
    exact Extends.of_eq rfl rfl
  · rw [hw]
    exact extends_edits made s

theorem chained_commit (hc : Chained s) (ha : SubmitOk env s a)
    (hs : (submitProgram env).next s a = .commit) : Chained (a.write s) := by
  rcases commit_spec ha hs with ⟨f, row, flags, -, -, hw⟩ | ⟨made, -, hw⟩
  · rw [hw]
    exact hc
  · rw [hw]
    exact chained_edits hc made

theorem submitRule :
    TxnRule (submitProgram env) Chained (SubmitOk env) fun _ _ => True where
  start s call _ := by
    cases call with
    | submit c => rfl
    | admin edits => rfl
  goOn _ _ _ _ _ _ ha hs := submitOk_goOn ha hs
  commit _ _ hc ha hs _ := chained_commit hc ha hs
  frame _ _ _ _ ha hs _ hb _ := hb.extends (extends_commit ha hs)

/-- A commit stores what was evaluated exactly when no admin got in between. -/
theorem storesSnapshot_iff (hc : Chained s) (ha : SubmitOk env s a)
    (hs : (submitProgram env).next s a = .commit) : StoresSnapshot s a ↔ Undisturbed s a := by
  rcases commit_spec ha hs with ⟨f, row, flags, hp, hf, hw⟩ | ⟨made, hp, hw⟩
  · have hresult : a.point.result = some f := by rw [hp]; rfl
    have hnone : f.taken = none → f.evaluation.triggeredRules = [] := by
      intro htaken
      obtain ⟨T, -, htriggered⟩ := hf.triggered
      refine List.eq_nil_iff_forall_not_mem.mpr fun id hid => ?_
      obtain ⟨columns, hmem, -⟩ := (htriggered id).mp hid
      rw [htaken] at hmem
      cases hmem
    have hset : ∀ t, f.taken = some t →
        (a.write s).versionSets f.call.submissionId = some t.sets := by
      intro t ht
      rw [hw, SubmitDb.store, ht]
      simp
    have hsnap : ∀ t, f.taken = some t → (SnapshotOf (a.write s) t f.evaluation t.sets ↔
        NotTorn s t ∧ NoLateRule s t f) := by
      intro t ht
      rw [← oneInstant_iff hc (hf.taken t ht).1, ← fired_iff hc hf ht, hw]
      constructor
      · intro h
        exact ⟨h.oneInstant, h.fired⟩
      · intro h
        exact ⟨h.1, h.2⟩
    constructor
    · intro h f' hf' t ht
      cases hresult.symm.trans hf'
      obtain ⟨v, hv, hv'⟩ := (h f hresult).2 t ht
      cases hv.symm.trans (hset t ht)
      exact (hsnap t ht).mp hv'
    · intro h f' hf'
      cases hresult.symm.trans hf'
      exact ⟨hnone, fun t ht => ⟨t.sets, hset t ht, (hsnap t ht).mpr (h f hresult t ht)⟩⟩
  · constructor
    · intro _ f hf
      rw [hp] at hf
      cases hf
    · intro _ f hf
      rw [hp] at hf
      cases hf

/-! ## Runs -/

/-- What every transaction of a run knows. -/
def SubmitInv (env : SubmitEnv) (x : Rc SubmitDb LockedRow Point) : Prop :=
  RcInv Chained (SubmitOk env) x

theorem submitInv_step (x : Rc SubmitDb LockedRow Point) (o : RcOp Call)
    (h : SubmitInv env x) : SubmitInv env (rcStep (submitProgram env) x o) := by
  refine rcStep_inv submitRule x o h ?_
  cases o <;> simp [AtCommit]

/-- Only a commit writes. -/
theorem failureKeeps (x : Rc SubmitDb LockedRow Point) (o : RcOp Call) :
    FailureKeeps env x o := by
  rintro t a ha - (rfl | ⟨rfl, hnot⟩)
  · rfl
  · have hm := rcStep_cases (submitProgram env) x (.exec t)
    generalize rcStep (submitProgram env) x (.exec t) = x' at hm
    cases hm with
    | stop t => rfl
    | wait => rfl
    | goOn ha hs hfree => rfl
    | commit ha' hs =>
      cases ha.symm.trans ha'
      exact absurd hs hnot

theorem stored_iff (env : SubmitEnv) (s : SubmitDb) (ops : List (RcOp Call)) :
    AllSteps (rcStep (submitProgram env)) (AtCommit (submitProgram env) StoresSnapshot)
        (Rc.init s.start) ops ↔
      AllSteps (rcStep (submitProgram env)) (AtCommit (submitProgram env) Undisturbed)
        (Rc.init s.start) ops := by
  refine allSteps_congr (fun x o => submitInv_step x o) (fun x o hx => ?_)
    (rcInv_init (chained_start s)) ops
  cases o with
  | start call => exact Iff.rfl
  | abort t => exact Iff.rfl
  | exec t =>
    constructor
    · intro h a ha hn
      exact (storesSnapshot_iff hx.committed (hx.knows t a ha) hn).mp (h a ha hn)
    · intro h a ha hn
      exact (storesSnapshot_iff hx.committed (hx.knows t a ha) hn).mpr (h a ha hn)

/-- A run stores with every submission what was evaluated exactly when no admin's
    commit tears the two readings of a submission apart and no rule that is inserted
    between the last two fires. A submission that fails changes nothing in every run. -/
theorem snapshots_evaluated_iff (env : SubmitEnv) (s : SubmitDb) (ops : List (RcOp Call)) :
    SnapshotsEvaluated env s ops ↔
      AllSteps (rcStep (submitProgram env)) (AtCommit (submitProgram env) Undisturbed)
        (Rc.init s.start) ops := by
  constructor
  · intro h
    exact (stored_iff env s ops).mp h.stored
  · intro h
    refine ⟨(stored_iff env s ops).mpr h, ?_⟩
    exact allSteps_of_step (fun x o => submitInv_step x o) (fun x o _ => failureKeeps x o)
      (rcInv_init (chained_start s)) ops

/-! ## A torn snapshot -/

def sampleEnv : SubmitEnv where
  deployment := ⟨fun _ _ _ => none, "", false⟩
  str := fun _ => ""
  takesText := fun _ => true
  order := id
  order_perm := fun rules => List.Perm.refl rules

/-- One category with a prompt and a rule. -/
def sampleTables : CategoryDb where
  categories := Store.empty.create
    { name := "Loaders", slug := "loaders", status := .active, displayOrder := 0,
      createdBy := none, version := 1, replacedAt := none, deletedAt := none }
  components := .empty
  inspectionPrompts := Store.empty.create ⟨⟨0, ⟨"Leaks", .yesNoNa, true, 0⟩, true⟩, 1, none⟩
  attachments := .empty
  photoSlots := .empty
  redFlagRules := Store.empty.create
    ⟨⟨0, ⟨"running_status", .equals, some "broken", [], "Broken"⟩, true⟩, 1, none⟩
  current := id

/-- A draft of appraiser 0 for a record of that category. -/
def sampleDraft : SubmitDb where
  db :=
    { Db.init (Store.empty.create ⟨"ann@example.com", "Ann", "Lee", .appraiser, [.appraiser]⟩)
        .empty with
      records := Store.empty.create ⟨0, .appraisalScheduled, none, none, none, none, none⟩
      submissions := Store.empty.create { newDraft 0 0 with categoryId := some 0 } }
  outbox := Outbox.start
    { records := Store.empty.create ⟨.appraisalScheduled, none, none, none, none⟩
      users := fun _ => none
      preferences := fun _ => none
      watchers := fun _ => []
      iosTokens := fun _ => []
      overrides := fun _ => none }
  details := fun _ => ⟨some "running", none, none, none, []⟩
  capturedLabels := fun _ => []
  versionSets := fun _ => none
  tables := sampleTables
  history := []

/-- An admin edits a prompt and a rule in one import, after `submit` has read the prompts
    and before it reads the rules. -/
def tornRun : List (RcOp Call) :=
  [.start (.submit ⟨0, 0, 0⟩), .exec 0, .exec 0, .exec 0, .exec 0,
    .start (.admin [.prompt (.supersede 0 0 ⟨"Any leaks", .yesNoNa, true, 0⟩ true 2),
      .rule (.supersede 0 0 ⟨"running_status", .isFalse, none, [], "Broken"⟩ true 2)]),
    .exec 1, .exec 1, .exec 1, .exec 1, .exec 0, .exec 0, .exec 0, .exec 0]

/-- The set of rules is that of the commit, the set of prompts is not. -/
theorem tornRun_fails :
    ¬ ∀ (env : SubmitEnv) (s : SubmitDb) (ops : List (RcOp Call)),
      SnapshotsEvaluated env s ops := by
  intro h
  have hrun := ((stored_iff sampleEnv sampleDraft _).mp
    (h sampleEnv sampleDraft (tornRun ++ [.exec 0])).stored).last
  generalize hx : run (rcStep (submitProgram sampleEnv)) (Rc.init sampleDraft.start) tornRun = x
    at hrun
  have hread : ((x.txns.get? 0).bind fun a => a.point.result.bind fun f =>
      f.taken.map fun t => (t.categoryId, t.promptsAt, t.rulesAt)) = some (0, 0, 1) := by
    rw [← hx]
    decide +kernel
  have hbefore : (x.committed.tablesAt 0).map (fun T =>
      (T.inspectionPrompts.next, T.redFlagRules.next)) = some (1, 1) := by
    rw [← hx]
    decide +kernel
  have hafter : (x.committed.tablesAt 1).map (fun T =>
      ((T.inspectionPrompts.get? 1).map fun p => p.categoryId,
        (T.redFlagRules.get? 1).map fun p => p.categoryId)) = some (some 0, some 0) := by
    rw [← hx]
    decide +kernel
  obtain ⟨a, ha, hread⟩ := Option.bind_eq_some_iff.mp hread
  obtain ⟨f, hf, hread⟩ := Option.bind_eq_some_iff.mp hread
  obtain ⟨t, ht, hread⟩ := Option.map_eq_some_iff.mp hread
  obtain ⟨T, hT, hnext⟩ := Option.map_eq_some_iff.mp hbefore
  obtain ⟨T', hT', hrows⟩ := Option.map_eq_some_iff.mp hafter
  simp only [Prod.mk.injEq, Option.map_eq_some_iff] at hread hnext hrows
  obtain ⟨hcat, hp, hr⟩ := hread
  obtain ⟨⟨prompt, hprompt, hpcat⟩, rule, hrule, hrcat⟩ := hrows
  have hcommit : (submitProgram sampleEnv).next x.committed a = .commit := by
    obtain ⟨point, held, w⟩ := a
    cases point <;> first | rfl | cases hf
  have htorn := (hrun a ha hcommit f hf t ht).1 0 0 (by omega) (le_refl _) (by omega)
  rw [hcat] at htorn
  exact htorn ⟨T, T', hT, hT', 1, prompt, by omega, hprompt, hpcat⟩
    ⟨T, T', hT, hT', 1, rule, by omega, hrule, hrcat⟩

end TempleConsign.SubmitSnapshot
