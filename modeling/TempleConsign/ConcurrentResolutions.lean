import TempleConsign.Lifecycle
import TempleConsign.Lib.ReadCommitted

/-!
# Concurrent resolutions of a change request

`resolve_change_request` reads the request without a lock and updates it by its
key; `approve_price_change` reads it with `SELECT … FOR UPDATE`. Their statements
run in transactions at READ COMMITTED, and `resolved` keeps the requests that a
committed call took out of `pending`, one entry for each call.

Deviations: the two UPDATEs of a flush that follow each other without a read
between are one statement; the notifications and audit rows are left out.

Results:
* `resolve_alone`, `approvePriceChange_alone`: undisturbed, the transactions are
  the services.
* `resolved_once_iff`: no request is resolved twice exactly when no
  `resolve_change_request` commits after another resolution of its request has
  committed since it read it; every other call has no effect.
-/

namespace TempleConsign

open ServiceLib

/-! ## The transactions -/

/-- The lifecycle's tables with the request of every committed resolution. -/
structure ResolutionDb where
  db : Db
  resolved : List ℕ

/-- The rows that the two services lock. -/
inductive ResolutionRow
  | record (id : ℕ)
  | change (id : ℕ)
  | submission (id : ℕ)
  deriving DecidableEq

inductive ResolutionCall
  | resolve (now : ℤ) (resolver changeRequestId : ℕ) (newStatus : String)
      (resolutionNotes : Option String)
  | reapprove (now : ℤ) (approvingUser changeRequestId : ℕ)

/-- The arguments of a `resolve_change_request` whose `new_status` is legal. -/
structure Resolution where
  now : ℤ
  resolver : ℕ
  changeRequestId : ℕ
  target : ChangeStatus
  resolutionNotes : Option String

/-- The request is a withdrawal that is resolved (line 229). -/
def Resolution.withdraws (r : Resolution) (change : ChangeRequest) : Bool :=
  r.target = .resolved && change.requestType = .withdraw

/-- The columns of the UPDATE: those that differ from the row that was loaded. -/
def Resolution.columns (r : Resolution) (loaded c : ChangeRequest) : ChangeRequest :=
  { c with
    status := r.target
    resolutionNotes :=
      if r.resolutionNotes = loaded.resolutionNotes then c.resolutionNotes else r.resolutionNotes
    resolvedAt := some r.now
    resolvedBy := some r.resolver }

/-- What comes next; `seen` is the number of resolutions that had committed when
    the request was read. -/
inductive ResolutionPoint
  | resolve (now : ℤ) (resolver changeRequestId : ℕ) (newStatus : String)
      (resolutionNotes : Option String)
  | loadRecord (r : Resolution) (change : ChangeRequest) (seen : ℕ)
  | moveRecord (r : Resolution) (change : ChangeRequest) (record : EquipmentRecord) (seen : ℕ)
  | update (r : Resolution) (change : ChangeRequest) (seen : ℕ)
  | resolved (changeRequestId seen : ℕ)
  | reapprove (now : ℤ) (approvingUser changeRequestId : ℕ)
  | findSubmission (now : ℤ) (approvingUser changeRequestId : ℕ) (change : ChangeRequest)
  | reprice (now : ℤ) (approvingUser changeRequestId : ℕ) (change : ChangeRequest)
      (submission : Option (ℕ × AppraisalSubmission))
  | reapproved (changeRequestId : ℕ)

/-- The move of the record to `withdrawn` (line 230), with the status that was
    loaded. -/
def Resolution.withdrawRecord (r : Resolution) (change : ChangeRequest) (record : EquipmentRecord)
    (s : ResolutionDb) : ResolutionDb :=
  let note := some (withdrawNote r.resolutionNotes)
  { s with db := s.db.transition change.recordId record.status .withdrawn (some r.resolver) note }

/-- `UPDATE change_requests … WHERE id = …`. -/
def Resolution.updateRequest (r : Resolution) (change : ChangeRequest) (s : ResolutionDb) :
    ResolutionDb where
  db := { s.db with
    changeRequests := s.db.changeRequests.modify r.changeRequestId (r.columns change) }
  resolved := s.resolved ++ [r.changeRequestId]

/-- The flush of `approve_price_change` (`approval_service.py` line 361). -/
def repriced (now : ℤ) (approvingUser changeRequestId : ℕ) (change : ChangeRequest)
    (submission : Option (ℕ × AppraisalSubmission)) (s : ResolutionDb) : ResolutionDb where
  db := { s.db.setPrice submission change.proposedConsignmentPrice with
    changeRequests := s.db.changeRequests.modify changeRequestId (reapprovedRow now approvingUser) }
  resolved := s.resolved ++ [changeRequestId]

abbrev ResolutionStmt := Stmt ResolutionDb ResolutionRow ResolutionPoint

/-- The `SELECT` of `resolve_change_request` (line 196) and its checks. -/
def readRequest (r : Resolution) (s : ResolutionDb) : ResolutionStmt :=
  match s.db.changeRequests.get? r.changeRequestId with
  | none => .rollback
  | some change =>
    if change.status = .pending then .goOn [] id (.loadRecord r change s.resolved.length)
    else .rollback

/-- The `selectinload`s of the record, its customer and its user (line 200). -/
def loadRecord (r : Resolution) (change : ChangeRequest) (seen : ℕ) (s : ResolutionDb) :
    ResolutionStmt :=
  match s.db.records.get? change.recordId with
  | none => .rollback
  | some record =>
    if (customerUser s.db record).isNone then .rollback
    else if r.withdraws change then
      if record.status = .withdrawn then .rollback
      else .goOn [] id (.moveRecord r change record seen)
    else .goOn [] id (.update r change seen)

/-- The `SELECT … FOR UPDATE` of `approve_price_change` (line 326) and its
    checks. -/
def lockRequest (now : ℤ) (approvingUser changeRequestId : ℕ) (s : ResolutionDb) :
    ResolutionStmt :=
  match s.db.changeRequests.get? changeRequestId with
  | none => .rollback
  | some change =>
    if change.status = .pending ∧ change.requiresManagerReapproval = true then
      .goOn [.change changeRequestId] id (.findSubmission now approvingUser changeRequestId change)
    else .rollback

def resolutionStmt : ResolutionPoint → ResolutionDb → ResolutionStmt
  | .resolve now resolver changeRequestId newStatus resolutionNotes, s =>
    match resolution? newStatus with
    | none => .rollback
    | some target => readRequest ⟨now, resolver, changeRequestId, target, resolutionNotes⟩ s
  | .loadRecord r change seen, s => loadRecord r change seen s
  | .moveRecord r change record seen, _ =>
    .goOn [.record change.recordId] (r.withdrawRecord change record) (.update r change seen)
  | .update r change seen, _ =>
    .goOn [.change r.changeRequestId] (r.updateRequest change) (.resolved r.changeRequestId seen)
  | .resolved _ _, _ => .commit
  | .reapprove now approvingUser changeRequestId, s =>
    lockRequest now approvingUser changeRequestId s
  | .findSubmission now approvingUser changeRequestId change, s =>
    match Store.scalarOneOrNone (s.db.submissions.select (isLiveApprovedFor change.recordId)) with
    | none => .rollback
    | some submission =>
      .goOn [] id (.reprice now approvingUser changeRequestId change submission)
  | .reprice now approvingUser changeRequestId change submission, _ =>
    .goOn (submission.toList.map fun s => .submission s.1)
      (repriced now approvingUser changeRequestId change submission) (.reapproved changeRequestId)
  | .reapproved _, _ => .commit

def ResolutionCall.entry : ResolutionCall → ResolutionPoint
  | resolve now resolver changeRequestId newStatus resolutionNotes =>
    .resolve now resolver changeRequestId newStatus resolutionNotes
  | reapprove now approvingUser changeRequestId => .reapprove now approvingUser changeRequestId

def resolutionProgram : Program ResolutionDb ResolutionRow ResolutionCall ResolutionPoint where
  entry := ResolutionCall.entry
  stmt := resolutionStmt

abbrev ResolutionTxn := Txn ResolutionDb ResolutionRow ResolutionPoint

def resolutionStep : Rc ResolutionDb ResolutionRow ResolutionPoint → RcOp ResolutionCall →
    Rc ResolutionDb ResolutionRow ResolutionPoint :=
  rcStep resolutionProgram

/-! ## Undisturbed transactions -/

/-- With the row it has loaded the UPDATE writes all four columns. -/
theorem columns_self (r : Resolution) (change : ChangeRequest) :
    r.columns change change = resolvedRow r.now r.resolver r.target r.resolutionNotes change := by
  unfold Resolution.columns resolvedRow
  split_ifs with h
  · rw [h]
  · rfl

/-- Undisturbed, the transaction of a resolution writes what
    `resolve_change_request` writes. -/
theorem resolve_alone {now : ℤ} {resolver changeRequestId : ℕ} {newStatus : String}
    {resolutionNotes : Option String} {db db' : Db} (l : List ℕ)
    (h : Svc.Returns (resolveChangeRequest now resolver changeRequestId newStatus resolutionNotes)
      db () db') :
    (run resolutionStep (Rc.init ⟨db, l⟩)
      (.start (.resolve now resolver changeRequestId newStatus resolutionNotes) ::
        List.replicate 5 (.exec 0))).committed = ⟨db', l ++ [changeRequestId]⟩ := by
  obtain ⟨target, htarget, change, hc, hpending, record, hr, hu, hcase⟩ :=
    returns_resolveChangeRequest.mp h
  let r : Resolution := ⟨now, resolver, changeRequestId, target, resolutionNotes⟩
  have hcolumns : ∀ t : Store ChangeRequest, t.get? changeRequestId = some change →
      t.modify changeRequestId (r.columns change) =
        t.modify changeRequestId (resolvedRow now resolver target resolutionNotes) := by
    intro t ht
    refine Store.modify_congr fun c hc => ?_
    rw [ht] at hc
    cases hc
    exact columns_self r change
  have h0 := alone_start resolutionProgram ⟨db, l⟩
    (.resolve now resolver changeRequestId newStatus resolutionNotes)
  have s1 : resolutionStmt (.resolve now resolver changeRequestId newStatus resolutionNotes)
      ⟨db, l⟩ = .goOn [] id (.loadRecord r change l.length) := by
    simp only [resolutionStmt, htarget, readRequest, hc, hpending, if_true]
    rfl
  have h1 := h0.goOn (p := resolutionProgram) s1
  have huser : (customerUser db record).isNone = false := by
    rw [← Option.not_isSome, hu]
    rfl
  simp only [run_cons, run_nil, List.replicate, resolutionStep]
  obtain ⟨ht, hw, hne, rfl⟩ | ⟨hno, rfl⟩ := hcase
  · have hwithdraws : r.withdraws change = true := by
      show (decide (target = .resolved) && decide (change.requestType = .withdraw)) = true
      simp [ht, hw]
    have s2 : resolutionStmt (.loadRecord r change l.length) ⟨db, l⟩ =
        .goOn [] id (.moveRecord r change record l.length) := by
      simp only [resolutionStmt, loadRecord, hr, huser, hwithdraws, hne, if_true, if_false,
        Bool.false_eq_true]
    have h2 := h1.goOn (p := resolutionProgram) s2
    have h3 := h2.goOn (p := resolutionProgram) rfl
    have h4 := h3.goOn (p := resolutionProgram) rfl
    rw [h4.commit (p := resolutionProgram) rfl, ← hcolumns db.changeRequests hc]
    rfl
  · have hwithdraws : r.withdraws change = false := by
      show (decide (target = .resolved) && decide (change.requestType = .withdraw)) = false
      simpa using hno
    have s2 : resolutionStmt (.loadRecord r change l.length) ⟨db, l⟩ =
        .goOn [] id (.update r change l.length) := by
      simp only [resolutionStmt, loadRecord, hr, huser, hwithdraws, if_false, Bool.false_eq_true]
    have h2 := h1.goOn (p := resolutionProgram) s2
    have h3 := h2.goOn (p := resolutionProgram) rfl
    rw [h3.commit (p := resolutionProgram) rfl, rcStep_ended, ← hcolumns db.changeRequests hc]
    rfl

/-- Undisturbed, the transaction of a re-approval writes what
    `approve_price_change` writes. -/
theorem approvePriceChange_alone {now : ℤ} {approvingUser changeRequestId : ℕ} {db db' : Db}
    (l : List ℕ)
    (h : Svc.Returns (approvePriceChange now approvingUser changeRequestId) db () db') :
    (run resolutionStep (Rc.init ⟨db, l⟩)
      (.start (.reapprove now approvingUser changeRequestId) ::
        List.replicate 4 (.exec 0))).committed = ⟨db', l ++ [changeRequestId]⟩ := by
  obtain ⟨change, hc, hpending, hflag, submission, hs, rfl⟩ := returns_approvePriceChange.mp h
  have h0 := alone_start resolutionProgram ⟨db, l⟩ (.reapprove now approvingUser changeRequestId)
  have s1 : resolutionStmt (.reapprove now approvingUser changeRequestId) ⟨db, l⟩ =
      .goOn [.change changeRequestId] id
        (.findSubmission now approvingUser changeRequestId change) := by
    simp only [resolutionStmt, lockRequest, hc, hpending, hflag, and_self, if_true]
  have h1 := h0.goOn (p := resolutionProgram) s1
  have s2 : resolutionStmt (.findSubmission now approvingUser changeRequestId change) ⟨db, l⟩ =
      .goOn [] id (.reprice now approvingUser changeRequestId change submission) := by
    simp only [resolutionStmt, hs]
  have h2 := h1.goOn (p := resolutionProgram) s2
  have h3 := h2.goOn (p := resolutionProgram) rfl
  simp only [run_cons, run_nil, List.replicate, resolutionStep]
  rw [h3.commit (p := resolutionProgram) rfl]
  rfl

/-! ## What a transaction has written -/

/-- Writes that leave the requests and the committed resolutions alone. -/
def KeepsRequests (write : ResolutionDb → ResolutionDb) : Prop :=
  ∀ s, (write s).resolved = s.resolved ∧ (write s).db.changeRequests = s.db.changeRequests

/-- The writes of a resolution of `changeRequestId`. -/
def Closes (write : ResolutionDb → ResolutionDb) (changeRequestId : ℕ) : Prop :=
  ∀ s, (write s).resolved = s.resolved ++ [changeRequestId] ∧
    ∃ f : ChangeRequest → ChangeRequest, (∀ c, (f c).status ≠ .pending) ∧
      (write s).db.changeRequests = s.db.changeRequests.modify changeRequestId f

/-- A transaction that is about to commit resolves one request, whose row it has
    locked; before its UPDATE it has written no request. -/
def ResolutionShape (a : ResolutionTxn) : Prop :=
  match a.point with
  | .resolve _ _ _ _ _ | .reapprove _ _ _ => a.write = id
  | .loadRecord r _ _ | .moveRecord r _ _ _ => a.write = id ∧ r.target ≠ .pending
  | .update r _ _ => KeepsRequests a.write ∧ r.target ≠ .pending
  | .findSubmission _ _ changeRequestId _ | .reprice _ _ changeRequestId _ _ =>
    a.write = id ∧ .change changeRequestId ∈ a.locks
  | .resolved changeRequestId _ | .reapproved changeRequestId =>
    Closes a.write changeRequestId ∧ .change changeRequestId ∈ a.locks

theorem resolution?_ne_pending {newStatus : String} {target : ChangeStatus}
    (h : resolution? newStatus = some target) : target ≠ .pending := by
  unfold resolution? at h
  split_ifs at h
  · cases h
    exact nofun
  · cases h
    exact nofun

theorem readRequest_eq_goOn {r : Resolution} {s : ResolutionDb} {locks : List ResolutionRow}
    {write : ResolutionDb → ResolutionDb} {next : ResolutionPoint}
    (h : readRequest r s = .goOn locks write next) :
    ∃ change, s.db.changeRequests.get? r.changeRequestId = some change ∧
      change.status = .pending ∧ locks = [] ∧ write = id ∧
      next = .loadRecord r change s.resolved.length := by
  unfold readRequest at h
  split at h
  · cases h
  · next change hc =>
    split_ifs at h with hp
    cases h
    exact ⟨change, hc, hp, rfl, rfl, rfl⟩

theorem loadRecord_eq_goOn {r : Resolution} {change : ChangeRequest} {seen : ℕ} {s : ResolutionDb}
    {locks : List ResolutionRow} {write : ResolutionDb → ResolutionDb} {next : ResolutionPoint}
    (h : loadRecord r change seen s = .goOn locks write next) :
    locks = [] ∧ write = id ∧
      ((∃ record, next = .moveRecord r change record seen) ∨ next = .update r change seen) := by
  unfold loadRecord at h
  split at h
  · cases h
  · next record hr =>
    split_ifs at h
    · cases h
      exact ⟨rfl, rfl, Or.inl ⟨record, rfl⟩⟩
    · cases h
      exact ⟨rfl, rfl, Or.inr rfl⟩

theorem lockRequest_eq_goOn {now : ℤ} {approvingUser changeRequestId : ℕ} {s : ResolutionDb}
    {locks : List ResolutionRow} {write : ResolutionDb → ResolutionDb} {next : ResolutionPoint}
    (h : lockRequest now approvingUser changeRequestId s = .goOn locks write next) :
    ∃ change, s.db.changeRequests.get? changeRequestId = some change ∧ change.status = .pending ∧
      locks = [.change changeRequestId] ∧ write = id ∧
      next = .findSubmission now approvingUser changeRequestId change := by
  unfold lockRequest at h
  split at h
  · cases h
  · next change hc =>
    split_ifs at h with hp
    cases h
    exact ⟨change, hc, hp.1, rfl, rfl, rfl⟩

theorem closes_updateRequest {r : Resolution} (hr : r.target ≠ .pending) (change : ChangeRequest)
    {write : ResolutionDb → ResolutionDb} (hw : KeepsRequests write) :
    Closes (r.updateRequest change ∘ write) r.changeRequestId := by
  intro s
  obtain ⟨hresolved, hrequests⟩ := hw s
  refine ⟨?_, r.columns change, fun _ => hr, ?_⟩
  · show (write s).resolved ++ [r.changeRequestId] = s.resolved ++ [r.changeRequestId]
    rw [hresolved]
  · show (write s).db.changeRequests.modify r.changeRequestId (r.columns change) = _
    rw [hrequests]

theorem closes_repriced (now : ℤ) (approvingUser changeRequestId : ℕ) (change : ChangeRequest)
    (submission : Option (ℕ × AppraisalSubmission)) :
    Closes (repriced now approvingUser changeRequestId change submission) changeRequestId :=
  fun _ => ⟨rfl, reapprovedRow now approvingUser, fun _ => nofun, rfl⟩

theorem resolutionShape_goOn {s : ResolutionDb} {a : ResolutionTxn} {locks : List ResolutionRow}
    {write : ResolutionDb → ResolutionDb} {next : ResolutionPoint} (ha : ResolutionShape a)
    (hs : resolutionProgram.next s a = .goOn locks write next) :
    ResolutionShape (a.goOn locks write next) := by
  obtain ⟨point, held, w⟩ := a
  simp only [Program.next, resolutionProgram] at hs
  cases point with
  | resolve now resolver changeRequestId newStatus resolutionNotes =>
    obtain rfl : w = id := ha
    simp only [resolutionStmt] at hs
    split at hs
    · cases hs
    · next target htarget =>
      obtain ⟨change, -, -, rfl, rfl, rfl⟩ := readRequest_eq_goOn hs
      exact ⟨rfl, resolution?_ne_pending htarget⟩
  | loadRecord r change seen =>
    obtain ⟨hw, hr⟩ := ha
    obtain rfl : w = id := hw
    obtain ⟨rfl, rfl, ⟨record, rfl⟩ | rfl⟩ := loadRecord_eq_goOn hs
    · exact ⟨rfl, hr⟩
    · exact ⟨fun s => ⟨rfl, rfl⟩, hr⟩
  | moveRecord r change record seen =>
    obtain ⟨hw, hr⟩ := ha
    obtain rfl : w = id := hw
    cases hs
    exact ⟨fun s => ⟨rfl, rfl⟩, hr⟩
  | update r change seen =>
    obtain ⟨hw, hr⟩ := ha
    cases hs
    exact ⟨closes_updateRequest hr change hw, List.mem_append_right _ (List.mem_singleton.mpr rfl)⟩
  | reapprove now approvingUser changeRequestId =>
    obtain rfl : w = id := ha
    obtain ⟨change, -, -, rfl, rfl, rfl⟩ := lockRequest_eq_goOn hs
    exact ⟨rfl, List.mem_append_right _ (List.mem_singleton.mpr rfl)⟩
  | findSubmission now approvingUser changeRequestId change =>
    obtain ⟨hw, hlock⟩ := ha
    obtain rfl : w = id := hw
    simp only [resolutionStmt] at hs
    split at hs
    · cases hs
    · cases hs
      exact ⟨rfl, List.mem_append_left _ hlock⟩
  | reprice now approvingUser changeRequestId change submission =>
    obtain ⟨hw, hlock⟩ := ha
    obtain rfl : w = id := hw
    cases hs
    exact ⟨closes_repriced now approvingUser changeRequestId change submission,
      List.mem_append_left _ hlock⟩
  | resolved changeRequestId seen => cases hs
  | reapproved changeRequestId => cases hs

/-- What a commit does. -/
inductive ResolutionCommit (a : ResolutionTxn) : Prop
  | resolved {changeRequestId seen : ℕ} (hp : a.point = .resolved changeRequestId seen)
      (hw : Closes a.write changeRequestId) (hlock : .change changeRequestId ∈ a.locks)
  | reapproved {changeRequestId : ℕ} (hp : a.point = .reapproved changeRequestId)
      (hw : Closes a.write changeRequestId) (hlock : .change changeRequestId ∈ a.locks)

theorem resolutionCommit {s : ResolutionDb} {a : ResolutionTxn} (ha : ResolutionShape a)
    (hs : resolutionProgram.next s a = .commit) : ResolutionCommit a := by
  obtain ⟨point, held, w⟩ := a
  simp only [Program.next, resolutionProgram] at hs
  cases point with
  | resolved changeRequestId seen => exact .resolved rfl ha.1 ha.2
  | reapproved changeRequestId => exact .reapproved rfl ha.1 ha.2
  | resolve now resolver changeRequestId newStatus resolutionNotes =>
    simp only [resolutionStmt, readRequest] at hs
    split at hs
    · cases hs
    · split at hs
      · cases hs
      · split_ifs at hs
  | loadRecord r change seen =>
    simp only [resolutionStmt, loadRecord] at hs
    split at hs
    · cases hs
    · split_ifs at hs
  | reapprove now approvingUser changeRequestId =>
    simp only [resolutionStmt, lockRequest] at hs
    split at hs
    · cases hs
    · split_ifs at hs
  | findSubmission now approvingUser changeRequestId change =>
    simp only [resolutionStmt] at hs
    split at hs <;> cases hs
  | moveRecord r change record seen => cases hs
  | update r change seen => cases hs
  | reprice now approvingUser changeRequestId change submission => cases hs

theorem ResolutionCommit.closes {a : ResolutionTxn} (h : ResolutionCommit a) :
    ∃ changeRequestId, Closes a.write changeRequestId ∧ .change changeRequestId ∈ a.locks := by
  cases h with
  | resolved hp hw hlock => exact ⟨_, hw, hlock⟩
  | reapproved hp hw hlock => exact ⟨_, hw, hlock⟩

/-! ## What a transaction knows -/

/-- No resolution of a run is a second one of its request. -/
def ResolvedOnce (s : ResolutionDb) : Prop := s.resolved.Nodup

/-- When a `resolve_change_request` commits, no other resolution of its request
    has committed since it read the request. -/
def StillPending (s : ResolutionDb) (a : ResolutionTxn) : Prop :=
  match a.point with
  | .resolved changeRequestId seen => changeRequestId ∉ s.resolved.drop seen
  | _ => True

/-- Resolved requests are no longer pending. -/
structure ResolutionInv (s : ResolutionDb) : Prop where
  once : ResolvedOnce s
  closed : ∀ id ∈ s.resolved, ∀ c, s.db.changeRequests.get? id = some c → c.status ≠ .pending

/-- The first `seen` resolutions are of other requests. -/
def SeenPending (s : ResolutionDb) (changeRequestId seen : ℕ) : Prop :=
  seen ≤ s.resolved.length ∧ changeRequestId ∉ s.resolved.take seen

/-- What each program point knows about the committed state. -/
def ResolutionKnows (s : ResolutionDb) (a : ResolutionTxn) : Prop :=
  match a.point with
  | .loadRecord r _ seen | .moveRecord r _ _ seen | .update r _ seen =>
    SeenPending s r.changeRequestId seen
  | .resolved changeRequestId seen => SeenPending s changeRequestId seen
  | .findSubmission _ _ changeRequestId _ | .reprice _ _ changeRequestId _ _
  | .reapproved changeRequestId => changeRequestId ∉ s.resolved
  | _ => True

theorem ResolutionInv.notMem_of_pending {s : ResolutionDb} (h : ResolutionInv s) {id : ℕ}
    {c : ChangeRequest} (hc : s.db.changeRequests.get? id = some c) (hp : c.status = .pending) :
    id ∉ s.resolved :=
  fun hmem => h.closed id hmem c hc hp

theorem resolutionKnows_goOn {s : ResolutionDb} {a : ResolutionTxn} {locks : List ResolutionRow}
    {write : ResolutionDb → ResolutionDb} {next : ResolutionPoint} (h : ResolutionInv s)
    (ha : ResolutionShape a) (hk : ResolutionKnows s a)
    (hs : resolutionProgram.next s a = .goOn locks write next) :
    ResolutionKnows s (a.goOn locks write next) := by
  obtain ⟨point, held, w⟩ := a
  simp only [Program.next, resolutionProgram] at hs
  cases point with
  | resolve now resolver changeRequestId newStatus resolutionNotes =>
    obtain rfl : w = id := ha
    simp only [resolutionStmt] at hs
    split at hs
    · cases hs
    · obtain ⟨change, hc, hp, rfl, rfl, rfl⟩ := readRequest_eq_goOn hs
      refine ⟨le_refl _, ?_⟩
      show changeRequestId ∉ s.resolved.take s.resolved.length
      rw [List.take_length]
      exact h.notMem_of_pending hc hp
  | loadRecord r change seen =>
    obtain ⟨rfl, rfl, ⟨record, rfl⟩ | rfl⟩ := loadRecord_eq_goOn hs
    · exact hk
    · exact hk
  | moveRecord r change record seen =>
    cases hs
    exact hk
  | update r change seen =>
    cases hs
    exact hk
  | reapprove now approvingUser changeRequestId =>
    obtain rfl : w = id := ha
    obtain ⟨change, hc, hp, rfl, rfl, rfl⟩ := lockRequest_eq_goOn hs
    exact h.notMem_of_pending hc hp
  | findSubmission now approvingUser changeRequestId change =>
    simp only [resolutionStmt] at hs
    split at hs
    · cases hs
    · cases hs
      exact hk
  | reprice now approvingUser changeRequestId change submission =>
    cases hs
    exact hk
  | resolved changeRequestId seen => cases hs
  | reapproved changeRequestId => cases hs

/-- A commit resolves its request for the first time exactly when the request is
    still pending. -/
theorem commit_resolvedOnce_iff {s : ResolutionDb} {a : ResolutionTxn} (h : ResolvedOnce s)
    (hk : ResolutionKnows s a) (hc : ResolutionCommit a) :
    ResolvedOnce (a.write s) ↔ StillPending s a := by
  unfold ResolvedOnce StillPending
  cases hc with
  | @resolved changeRequestId seen hp hw hlock =>
    have hseen : SeenPending s changeRequestId seen := by
      unfold ResolutionKnows at hk
      rw [hp] at hk
      exact hk
    have hmem : changeRequestId ∈ s.resolved ↔ changeRequestId ∈ s.resolved.drop seen := by
      conv_lhs => rw [← List.take_append_drop seen s.resolved, List.mem_append]
      exact or_iff_right hseen.2
    rw [hp, (hw s).1, nodup_append_one, hmem]
    exact ⟨fun hn => hn.2, fun hn => ⟨h, hn⟩⟩
  | @reapproved changeRequestId hp hw hlock =>
    have hfree : changeRequestId ∉ s.resolved := by
      unfold ResolutionKnows at hk
      rw [hp] at hk
      exact hk
    rw [hp, (hw s).1, nodup_append_one]
    exact ⟨fun _ => trivial, fun _ => ⟨h, hfree⟩⟩

/-! ## Runs -/

theorem resolutionRule :
    TxnRule resolutionProgram ResolutionInv (fun s a => ResolutionShape a ∧ ResolutionKnows s a)
      StillPending where
  start := by
    intro s call _
    cases call <;> exact ⟨rfl, trivial⟩
  goOn := fun _ _ _ _ _ h ha hs =>
    ⟨resolutionShape_goOn ha.1 hs, resolutionKnows_goOn h ha.1 ha.2 hs⟩
  commit := by
    intro s a h ha hs hk
    have hc := resolutionCommit ha.1 hs
    refine ⟨(commit_resolvedOnce_iff h.once ha.2 hc).mpr hk, ?_⟩
    obtain ⟨changeRequestId, hw, -⟩ := hc.closes
    obtain ⟨hlog, f, hf, hrequests⟩ := hw s
    intro id hid c hget
    rw [hrequests, Store.get?_modify] at hget
    split_ifs at hget with heq
    · obtain ⟨c0, -, rfl⟩ := Option.map_eq_some_iff.mp hget
      exact hf c0
    · rw [hlog, List.mem_append, List.mem_singleton] at hid
      exact h.closed id (hid.resolve_right heq) c hget
  frame := by
    intro s a b _ ha hs _ hb hapart
    obtain ⟨changeRequestId, hw, hlock⟩ := (resolutionCommit ha.1 hs).closes
    have hlog := (hw s).1
    have hseen : ∀ {id seen : ℕ}, SeenPending s id seen → SeenPending (a.write s) id seen := by
      rintro id seen ⟨hle, hnot⟩
      rw [SeenPending, hlog, List.length_append, List.take_append_of_le_length hle]
      exact ⟨by omega, hnot⟩
    -- a request whose row `b` holds is not the one that `a` resolves
    have hfree : ∀ {id : ℕ}, .change id ∈ b.locks → id ∉ s.resolved →
        id ∉ (a.write s).resolved := by
      intro id hid hnot hmem
      rw [hlog, List.mem_append, List.mem_singleton] at hmem
      obtain hmem | rfl := hmem
      · exact hnot hmem
      · exact hapart _ hlock hid
    obtain ⟨hshape, hknows⟩ := hb
    refine ⟨hshape, ?_⟩
    obtain ⟨point, held, w⟩ := b
    cases point with
    | loadRecord r change seen => exact hseen hknows
    | moveRecord r change record seen => exact hseen hknows
    | update r change seen => exact hseen hknows
    | resolved id seen => exact hseen hknows
    | findSubmission now approvingUser id change => exact hfree hshape.2 hknows
    | reprice now approvingUser id change submission => exact hfree hshape.2 hknows
    | reapproved id => exact hfree hshape.2 hknows
    | _ => trivial

/-- What a transaction has written does not depend on the others. -/
theorem resolutionShapeRule :
    TxnRule resolutionProgram (fun _ => True) (fun _ a => ResolutionShape a) fun _ _ => True where
  start := by
    intro s call _
    cases call <;> rfl
  goOn := fun _ _ _ _ _ _ ha hs => resolutionShape_goOn ha hs
  commit := fun _ _ _ _ _ _ => trivial
  frame := fun _ _ _ _ _ _ _ hb _ => hb

/-- An event is the commit of one resolution, or leaves the committed state as it
    is. -/
theorem resolutionStep_committed (db : Db) (ops : List (RcOp ResolutionCall))
    (op : RcOp ResolutionCall) :
    let x := run resolutionStep (Rc.init ⟨db, []⟩) ops
    (resolutionStep x op).committed = x.committed ∨
      ∃ changeRequestId,
        (resolutionStep x op).committed.resolved = x.committed.resolved ++ [changeRequestId] := by
  intro x
  have hinv : RcInv (fun _ => True) (fun _ a => ResolutionShape a) x := by
    refine run_induction (fun x o hx => rcStep_inv resolutionShapeRule x o hx ?_)
      (rcInv_init trivial) ops
    cases o with
    | exec t => exact fun _ _ _ => trivial
    | _ => trivial
  have hm := rcStep_cases resolutionProgram x op
  unfold resolutionStep
  generalize rcStep resolutionProgram x op = x' at hm
  cases hm with
  | @commit t a ha hs =>
    obtain ⟨changeRequestId, hw, -⟩ := (resolutionCommit (hinv.knows t a ha) hs).closes
    exact Or.inr ⟨changeRequestId, (hw x.committed).1⟩
  | _ => exact Or.inl rfl

/-- **Every request is resolved once at most, in every state of a run, exactly when
    no `resolve_change_request` of the run commits after another resolution of its
    request has committed since it read the request**; what is not the commit of a
    resolution changes nothing. -/
theorem resolved_once_iff (db : Db) (ops : List (RcOp ResolutionCall)) :
    (AllStates resolutionStep (fun x => ResolvedOnce x.committed) (Rc.init ⟨db, []⟩) ops ↔
      AllSteps resolutionStep (AtCommit resolutionProgram StillPending) (Rc.init ⟨db, []⟩) ops) ∧
    ∀ op, (resolutionStep (run resolutionStep (Rc.init ⟨db, []⟩) ops) op).committed =
        (run resolutionStep (Rc.init ⟨db, []⟩) ops).committed ∨
      ∃ changeRequestId,
        (resolutionStep (run resolutionStep (Rc.init ⟨db, []⟩) ops) op).committed.resolved =
          (run resolutionStep (Rc.init ⟨db, []⟩) ops).committed.resolved ++ [changeRequestId] := by
  have hinit : ResolutionInv ⟨db, []⟩ := ⟨List.nodup_nil, fun _ h => absurd h List.not_mem_nil⟩
  refine ⟨?_, fun op => resolutionStep_committed db ops op⟩
  refine committed_iff resolutionRule (fun _ h => h.once) (fun s a h ha hs hp => ?_) hinit ops
  exact (commit_resolvedOnce_iff h.once ha.2 (resolutionCommit ha.1 hs)).mp hp

/-- A customer asks to withdraw a record. -/
def withdrawalRun : List Op :=
  [.submitIntake { customerId := 0 }, .submitChangeRequest 2 0 "withdraw" none none]

/-- One rep resolves the request while another one rejects it: both read it before
    either commits. -/
def doubleResolution : List (RcOp ResolutionCall) :=
  [.start (.resolve 10 1 0 "resolved" none), .start (.resolve 11 0 0 "rejected" none),
    .exec 0, .exec 1, .exec 0, .exec 0, .exec 0, .exec 0, .exec 1, .exec 1, .exec 1]

/-- Both resolutions commit: the record is withdrawn and its request rejected. -/
theorem change_request_resolved_twice :
    ¬ ∀ (db : Db) (ops : List (RcOp ResolutionCall)),
      AllStates resolutionStep (fun x => ResolvedOnce x.committed) (Rc.init ⟨db, []⟩) ops := by
  intro h
  have hall := h (run (step sampleEnv) (Db.init sampleUsers sampleCustomers) withdrawalRun)
    doubleResolution
  have hlog : (run resolutionStep
      (Rc.init ⟨run (step sampleEnv) (Db.init sampleUsers sampleCustomers) withdrawalRun, []⟩)
      doubleResolution).committed.resolved = [0, 0] := by decide +kernel
  have hn : ([0, 0] : List ℕ).Nodup := hlog ▸ hall.last
  simp at hn

end TempleConsign
