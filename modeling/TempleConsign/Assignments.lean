import TempleConsign.Deactivation
import TempleConsign.Lib.Journal

/-!
# The trail of the assignments

Model of the writers of `equipment_records.assigned_sales_rep_id` and
`assigned_appraiser_id`: the routing at intake (`src/api/services/equipment_service.py`
line 156), `apply_assignment` and `cascade_assignment` (`src/api/services/sales_service.py` lines
160 and 232) and `deactivate_user` (`src/api/services/admin_user_service.py`). Each enters its
change in `audit_logs`. They run at READ COMMITTED: a request loads the records, and what other
requests commit before its flush it does not see. The flush updates the columns that the request
changed on what it had loaded.

Deviations: the reads of a request are one step and its flush with the commit another. Of an
audit row there is what it says about the two columns. The trail lists the rows in the order of
their commits, which `audit_logs` itself does not keep: its ids are random and its `created_at`
is the start of the transaction. Notifications are left out, and `ensure_lock_held` is a flag of
the request.

Results:
* `returns_readDeactivation`, `commit_deactivation`: a deactivation whose reads and flush
  are not separated is `deactivateUser`.
* `trail_exact_iff`: over a run with any interleaving of these requests and of all other
  services, every audit row is right about the assignment before it and the trail replays to the
  current assignments, exactly when each request commits on the assignments that it loaded.
* `trail_exact_serial`: one request at a time, the trail is always exact.
-/

namespace TempleConsign.Assignments

open ServiceLib ServiceLib.Journal

/-! ## State -/

/-- The two columns of a record. -/
structure Assignment where
  salesRep : Option ℕ
  appraiser : Option ℕ
  deriving DecidableEq

/-- `AssignmentPatch` and `CascadePatch` (`src/api/schemas/sales.py` lines 94 and 107); `none` is
    a field that is not in `model_fields_set`. -/
structure AssignmentPatch where
  assignedSalesRepId : Option (Option ℕ)
  assignedAppraiserId : Option (Option ℕ)

/-- The rows of `audit_logs` about assignments. In the after state of a cascade, `none` is JSON
    null and `some none` the text "None". -/
inductive AuditEntry
  | routed (recordId : ℕ) (assignedSalesRepId : Option ℕ)
  | assignmentChanged (recordId : ℕ) (before after : Assignment)
  | cascadeAssignment (customerId : ℕ) (after : AssignmentPatch) (updated skipped : List ℕ)
  | deactivationReassigned (recordId : ℕ) (before after : Assignment) (triggerUserId : ℕ)

/-- What a request has loaded and found in order. -/
inductive Loaded
  | assignment (recordId : ℕ) (loaded : Assignment) (body : AssignmentPatch)
  | cascade (customerId : ℕ) (body : AssignmentPatch) (rows : List (ℕ × Assignment))
      (skipped : List ℕ)
  | departure (leaving : ℕ)
  | handover (leaving joining : ℕ) (rows : List (ℕ × Assignment))
      (events : List (ℕ × CalendarEvent))

structure Desk where
  roster : Roster
  customerDeletedAt : ℕ → Option ℤ
  audit : List AuditEntry
  requests : ℕ → Option Loaded

def assignmentOf (s : Roster) (id : ℕ) : Assignment :=
  ⟨s.assignedSalesRepId id, s.assignedAppraiserId id⟩

def setAssignments (s : Roster) (v : ℕ → Assignment) : Roster :=
  { s with
    assignedSalesRepId := fun id => (v id).salesRep
    assignedAppraiserId := fun id => (v id).appraiser }

/-! ## What the requests read -/

/-- The fields of the body over an assignment. -/
def AssignmentPatch.apply (body : AssignmentPatch) (a : Assignment) : Assignment :=
  ⟨body.assignedSalesRepId.getD a.salesRep, body.assignedAppraiserId.getD a.appraiser⟩

/-- `repr` of a list of role slugs. -/
def pyList (slugs : List RoleSlug) : String :=
  "[" ++ ", ".intercalate (slugs.map fun slug => "'" ++ slug.value ++ "'") ++ "]"

/-- `_require_user_has_role` (line 396). -/
def requireUserHasRole (userId : ℕ) (allowed : List RoleSlug) : RosterService Unit := do
  let s ← get
  let user ← Svc.expect (s.db.users.get? userId)
    ⟨422, s!"assigned user {userId} not found", none⟩
  Svc.require (user.role ∈ allowed)
    ⟨422, s!"user {userId} has role '{user.role.value}', expected one of " ++ pyList allowed, none⟩

/-- The check of a field that names a user. -/
def requireNamed (field : Option (Option ℕ)) (allowed : List RoleSlug) : RosterService Unit :=
  match field with
  | some (some userId) => requireUserHasRole userId allowed
  | _ => pure ()

/-- `set_sales_rep or set_appraiser`. -/
def AssignmentPatch.setsField (body : AssignmentPatch) : Bool :=
  body.assignedSalesRepId.isSome || body.assignedAppraiserId.isSome

/-- The checks of both fields, in the order of the services. -/
def requireRoles (body : AssignmentPatch) : RosterService Unit := do
  requireNamed body.assignedSalesRepId salesRoles
  requireNamed body.assignedAppraiserId [.appraiser]

/-- `update_assignment` (`src/api/routers/sales.py` line 190) up to the flush. -/
def readAssignment (lockHeld : Bool) (recordId : ℕ) (body : AssignmentPatch) :
    RosterService Loaded := do
  Svc.require (lockHeld = true)
    ⟨409, "You must acquire the record lock before making changes.", none⟩
  let s ← get
  let _ ← Svc.expect ((s.db.records.get? recordId).filter (·.deletedAt.isNone))
    ⟨404, "record not found", none⟩
  Svc.require (body.setsField = true) ⟨422, "no fields to update", none⟩
  requireRoles body
  pure (.assignment recordId (assignmentOf s recordId) body)

/-- The live records of a customer. -/
def isLiveRecordOf (customerId : ℕ) (_ : ℕ) (r : EquipmentRecord) : Bool :=
  r.customerId = customerId && r.deletedAt.isNone

/-- `_CASCADE_ASSIGNABLE_STATUSES` (line 39). -/
def isAssignable (r : EquipmentRecord) : Bool := r.status = .newRequest

/-- `cascade_customer_assignments` (`src/api/routers/sales.py` line 230) up to the flush. -/
def readCascade (customerDeletedAt : ℕ → Option ℤ) (customerId : ℕ) (body : AssignmentPatch) :
    RosterService Loaded := do
  Svc.require (body.setsField = true) ⟨422, "no fields to cascade", none⟩
  let s ← get
  Svc.require ((s.db.customers.get? customerId).isSome = true ∧ customerDeletedAt customerId = none)
    ⟨404, "customer not found", none⟩
  requireRoles body
  let records := s.db.records.select (isLiveRecordOf customerId)
  pure (.cascade customerId body
    ((records.filter fun r => isAssignable r.2).map fun r => (r.1, assignmentOf s r.1))
    ((records.filter fun r => !isAssignable r.2).map Prod.fst))

/-- `deactivate_user` up to its first flush. -/
def readDeactivation (now : ℤ) (actor userId : ℕ) (reassignToId : Option ℕ) :
    RosterService Loaded := do
  let s ← get
  let target ← Svc.expect (s.db.users.get? userId) ⟨404, "User not found.", none⟩
  Svc.require (userId ≠ actor)
    ⟨409, "Admins cannot deactivate their own account from this endpoint.", none⟩
  Svc.require (s.userStatus userId ≠ .deactivated) ⟨409, "User is already deactivated.", none⟩
  let openRecords := s.db.records.select (s.isOpenRecordOf userId)
  let futureEvents := s.db.calendarEvents.select (isFutureEventOf now userId)
  Svc.require (reassignToId ≠ none ∨ (openRecords = [] ∧ futureEvents = []))
    ⟨409, (s!"User has {openRecords.length} open record(s) and " ++
        s!"{futureEvents.length} upcoming calendar event(s). " ++ "Pick a reassignment target."),
      some (openRecords.length, futureEvents.length)⟩
  match reassignToId with
  | none => pure (.departure userId)
  | some joining => do
    resolveReassignee joining userId target
    pure (.handover userId joining (openRecords.map fun r => (r.1, assignmentOf s r.1))
      futureEvents)

inductive Request
  | updateAssignment (lockHeld : Bool) (recordId : ℕ) (body : AssignmentPatch)
  | cascadeAssignments (customerId : ℕ) (body : AssignmentPatch)
  | deactivateUser (now : ℤ) (actor userId : ℕ) (reassignToId : Option ℕ)

def Request.read (customerDeletedAt : ℕ → Option ℤ) : Request → RosterService Loaded
  | updateAssignment lockHeld recordId body => readAssignment lockHeld recordId body
  | cascadeAssignments customerId body => readCascade customerDeletedAt customerId body
  | deactivateUser now actor userId reassignToId => readDeactivation now actor userId reassignToId

/-! ## What they write -/

/-- The columns that differ from what was loaded are updated. -/
def flush (loaded new current : Assignment) : Assignment where
  salesRep := if new.salesRep = loaded.salesRep then current.salesRep else new.salesRep
  appraiser := if new.appraiser = loaded.appraiser then current.appraiser else new.appraiser

/-- The columns of a record that `leaving` hands to `joining`. -/
def Assignment.handOver (leaving joining : ℕ) (a : Assignment) : Assignment :=
  ⟨TempleConsign.handOver leaving joining a.salesRep,
    TempleConsign.handOver leaving joining a.appraiser⟩

/-- The records that a request changes. -/
def Loaded.edits : Loaded → List (Edit ℕ Assignment)
  | assignment recordId loaded body => [⟨recordId, loaded, body.apply loaded⟩]
  | cascade _ body rows _ => rows.map fun row => ⟨row.1, row.2, body.apply row.2⟩
  | departure _ => []
  | handover leaving joining rows _ =>
    rows.map fun row => ⟨row.1, row.2, row.2.handOver leaving joining⟩

/-- The audit rows that it adds. -/
def Loaded.entries : Loaded → List AuditEntry
  | assignment recordId loaded body => [.assignmentChanged recordId loaded (body.apply loaded)]
  | cascade customerId body rows skipped =>
    [.cascadeAssignment customerId body (rows.map Prod.fst) skipped]
  | departure _ => []
  | handover leaving joining rows _ =>
    rows.map fun row => .deactivationReassigned row.1 row.2 (row.2.handOver leaving joining) leaving

/-- What a deactivation writes beside the records. -/
def Loaded.writeUsers : Loaded → Roster → Roster
  | departure leaving, s =>
    { s with userStatus := Function.update s.userStatus leaving .deactivated }
  | handover leaving joining _ events, s =>
    { events.foldl (Roster.reassignEvent joining) s with
      userStatus := Function.update s.userStatus leaving .deactivated }
  | _, s => s

def Loaded.write (l : Loaded) (s : Roster) : Roster :=
  l.writeUsers (setAssignments s (l.edits.foldl (Edit.write flush) (assignmentOf s)))

/-! ## Runs -/

inductive Op
  /-- `submit_intake`, and what its routing decided; `none` is a routing that raised. -/
  | intake (payload : Intake) (routed : Option (Option ℕ))
  /-- Any other service of the lifecycle. -/
  | service (op : TempleConsign.Op)
  /-- `soft_delete_customer` (`src/api/services/admin_customer_service.py` line 168). -/
  | softDeleteCustomer (now : ℤ) (customerId : ℕ)
  /-- The other writers of `users.status`. -/
  | account (userId : ℕ) (status : AccountStatus)
  | read (i : ℕ) (request : Request)
  | commit (i : ℕ)
  /-- The request ends without a commit. -/
  | rollback (i : ℕ)

/-- The new row, with the rep that `_route_and_assign` (line 156) gave it. -/
def Desk.intake (d : Desk) (payload : Intake) (routed : Option (Option ℕ)) : Desk :=
  match Svc.exec (submitIntake payload) d.roster.db with
  | (.ok id, db) =>
    { d with
      roster := setAssignments { d.roster with db }
        (Function.update (assignmentOf d.roster) id ⟨routed.getD none, none⟩)
      audit := d.audit ++ (routed.map (AuditEntry.routed id)).toList }
  | (.error _, _) => d

def Desk.softDeleteCustomer (d : Desk) (now : ℤ) (customerId : ℕ) : Desk :=
  if (d.roster.db.customers.get? customerId).isSome ∧ d.customerDeletedAt customerId = none then
    { d with
      customerDeletedAt := Function.update d.customerDeletedAt customerId (some now)
      roster := { d.roster with db := { d.roster.db with
        records := d.roster.db.records.modifyWhere (isLiveRecordOf customerId) fun r =>
          { r with deletedAt := some now } } } }
  else d

/-- The reads of a request; one that raises is over. -/
def Desk.read (d : Desk) (i : ℕ) (request : Request) : Desk :=
  let result := (Svc.exec (request.read d.customerDeletedAt) d.roster).1
  { d with requests := Function.update d.requests i result.toOption }

/-- The flush of a request and its commit. -/
def Desk.commit (d : Desk) (i : ℕ) : Desk :=
  match d.requests i with
  | some l =>
    { d with
      roster := l.write d.roster
      audit := d.audit ++ l.entries
      requests := Function.update d.requests i none }
  | none => d

def step (env : Env) (d : Desk) : Op → Desk
  | .intake payload routed => d.intake payload routed
  | .service op =>
    { d with roster := { d.roster with db := TempleConsign.step env d.roster.db op } }
  | .softDeleteCustomer now customerId => d.softDeleteCustomer now customerId
  | .account userId status =>
    { d with roster := { d.roster with
      userStatus := Function.update d.roster.userStatus userId status } }
  | .read i request => d.read i request
  | .commit i => d.commit i
  | .rollback i => { d with requests := Function.update d.requests i none }

/-- A new installation. -/
def Desk.init (users : Store User) (customers : Store Customer) (status : ℕ → AccountStatus) :
    Desk where
  roster := ⟨Db.init users customers, status, fun _ => none, fun _ => none⟩
  customerDeletedAt := fun _ => none
  audit := []
  requests := fun _ => none

/-! ## The trail -/

/-- How an audit row is read. -/
def AuditEntry.entry : AuditEntry → Journal.Entry ℕ Assignment
  | routed recordId salesRep =>
    { before := fun _ => none
      effect := fun id a => if id = recordId then { a with salesRep } else a }
  | assignmentChanged recordId before after => Edit.entry ⟨recordId, before, after⟩
  | cascadeAssignment _ after updated _ =>
    { before := fun _ => none
      effect := fun id a => if id ∈ updated then after.apply a else a }
  | deactivationReassigned recordId before after _ => Edit.entry ⟨recordId, before, after⟩

/-- Every audit row is right about the assignment before it, and replaying the rows from the
    start gives the assignments of the records. -/
def Desk.TrailExact (d : Desk) : Prop :=
  Exact (fun _ => ⟨none, none⟩) (d.audit.map AuditEntry.entry) (assignmentOf d.roster)

/-- A field that the body sets to what was loaded is still so. -/
def FieldCurrent (field : Option (Option ℕ)) (loaded current : Option ℕ) : Prop :=
  ∀ u ∈ field, u = loaded → u = current

/-- The request flushes over the assignments that it loaded. A cascade enters only what it
    set, so a column may have changed that it does not set, or sets to another value. -/
def Loaded.Current (v : ℕ → Assignment) : Loaded → Prop
  | assignment recordId loaded _ => loaded = v recordId
  | cascade _ body rows _ => ∀ row ∈ rows,
    FieldCurrent body.assignedSalesRepId row.2.salesRep (v row.1).salesRep ∧
      FieldCurrent body.assignedAppraiserId row.2.appraiser (v row.1).appraiser
  | departure _ => True
  | handover _ _ rows _ => ∀ row ∈ rows, row.2 = v row.1

/-- A commit is of a request whose loaded assignments are current. -/
def Undisturbed (d : Desk) : Op → Prop
  | .commit i => ∀ l ∈ d.requests i, l.Current (assignmentOf d.roster)
  | _ => True

/-! ## The columns after a commit -/

@[simp] theorem assignmentOf_setAssignments (s : Roster) (v : ℕ → Assignment) :
    assignmentOf (setAssignments s v) = v := rfl

@[simp] theorem assignmentOf_writeUsers (l : Loaded) (s : Roster) :
    assignmentOf (l.writeUsers s) = assignmentOf s := by
  cases l with
  | handover leaving joining rows events =>
    simp only [Loaded.writeUsers, foldl_reassignEvent]
    rfl
  | _ => rfl

@[simp] theorem writeUsers_records (l : Loaded) (s : Roster) :
    (l.writeUsers s).db.records = s.db.records := by
  cases l with
  | handover leaving joining rows events =>
    simp only [Loaded.writeUsers, foldl_reassignEvent]
  | _ => rfl

theorem assignmentOf_write (l : Loaded) (s : Roster) :
    assignmentOf (l.write s) = l.edits.foldl (Edit.write flush) (assignmentOf s) := by
  rw [Loaded.write, assignmentOf_writeUsers, assignmentOf_setAssignments]

theorem write_records (l : Loaded) (s : Roster) : (l.write s).db.records = s.db.records := by
  rw [Loaded.write, writeUsers_records]
  rfl

/-- Over what it loaded, a flush leaves the new assignment. -/
theorem flush_loaded (loaded new : Assignment) : flush loaded new loaded = new := by
  unfold flush
  congr 1 <;> split_ifs with h <;> first | exact h.symm | rfl

theorem field_current_iff {field : Option (Option ℕ)} {loaded current : Option ℕ} :
    field.getD current = (if field.getD loaded = loaded then current else field.getD loaded) ↔
      FieldCurrent field loaded current := by
  cases field with
  | none => simp [FieldCurrent]
  | some u =>
    simp only [Option.getD_some, FieldCurrent, Option.mem_def, Option.some.injEq, forall_eq']
    split_ifs with h <;> simp [h]

/-- Where a cascade enters what it leaves in the record. -/
theorem apply_eq_flush_iff {body : AssignmentPatch} {loaded current : Assignment} :
    body.apply current = flush loaded (body.apply loaded) current ↔
      FieldCurrent body.assignedSalesRepId loaded.salesRep current.salesRep ∧
        FieldCurrent body.assignedAppraiserId loaded.appraiser current.appraiser := by
  simp only [AssignmentPatch.apply, flush, Assignment.mk.injEq]
  exact and_congr field_current_iff field_current_iff

theorem cascade_exact_iff {body : AssignmentPatch} {rows : List (ℕ × Assignment)}
    (hnd : (rows.map Prod.fst).Nodup) (v : ℕ → Assignment) :
    (fun id => if id ∈ rows.map Prod.fst then body.apply (v id) else v id) =
        (rows.map fun row => Edit.mk row.1 row.2 (body.apply row.2)).foldl (Edit.write flush) v ↔
      ∀ row ∈ rows, body.apply (v row.1) = flush row.2 (body.apply row.2) (v row.1) := by
  have hkeys : (rows.map fun row => Edit.mk row.1 row.2 (body.apply row.2)).map Edit.key =
      rows.map Prod.fst := by
    rw [List.map_map]
    rfl
  have hwrite : ∀ row ∈ rows,
      (rows.map fun row => Edit.mk row.1 row.2 (body.apply row.2)).foldl (Edit.write flush) v
        row.1 = flush row.2 (body.apply row.2) (v row.1) := by
    intro row hrow
    have hmem : Edit.mk row.1 row.2 (body.apply row.2) ∈
        rows.map fun row => Edit.mk row.1 row.2 (body.apply row.2) :=
      List.mem_map.mpr ⟨row, hrow, rfl⟩
    exact writes_of_mem (by rwa [hkeys]) hmem v
  constructor
  · intro h row hrow
    have hid := congrFun h row.1
    rw [if_pos (List.mem_map_of_mem hrow), hwrite row hrow] at hid
    exact hid
  · intro h
    funext id
    split_ifs with hid
    · obtain ⟨row, hrow, rfl⟩ := List.mem_map.mp hid
      rw [hwrite row hrow]
      exact h row hrow
    · exact (writes_of_notMem (by rwa [hkeys]) v).symm

/-- The audit rows of a request and its writes belong together exactly when it flushes over
    what it loaded. -/
theorem commit_exact_iff {l : Loaded} (hnd : (l.edits.map Edit.key).Nodup) (v : ℕ → Assignment) :
    Exact v (l.entries.map AuditEntry.entry) (l.edits.foldl (Edit.write flush) v) ↔
      l.Current v := by
  cases l with
  | assignment recordId loaded body =>
    rw [show (Loaded.assignment recordId loaded body).entries.map AuditEntry.entry =
      (Loaded.assignment recordId loaded body).edits.map Edit.entry from rfl,
      exact_edits_iff flush_loaded hnd]
    simp [Loaded.edits, Loaded.Current]
  | departure leaving => simp [Loaded.entries, Loaded.edits, Loaded.Current]
  | handover leaving joining rows events =>
    have hentries : (Loaded.handover leaving joining rows events).entries.map AuditEntry.entry =
        (Loaded.handover leaving joining rows events).edits.map Edit.entry := by
      simp only [Loaded.entries, Loaded.edits, List.map_map]
      rfl
    rw [hentries, exact_edits_iff flush_loaded hnd]
    simp only [Loaded.edits, Loaded.Current, List.forall_mem_map]
  | cascade customerId body rows skipped =>
    have hrows : (rows.map Prod.fst).Nodup := by
      rw [Loaded.edits, List.map_map] at hnd
      exact hnd
    simp only [Loaded.entries, Loaded.edits, Loaded.Current, List.map_cons, List.map_nil,
      AuditEntry.entry, exact_cons_iff, exact_nil_iff, cascade_exact_iff hrows,
      apply_eq_flush_iff]
    simp

/-! ## What the reads find -/

theorem returns_readDeactivation {now : ℤ} {actor userId : ℕ} {reassignToId : Option ℕ}
    {s s' : Roster} {l : Loaded} :
    Svc.Returns (readDeactivation now actor userId reassignToId) s l s' ↔
      (s.CanDeactivate now actor userId reassignToId ∧
        l = match reassignToId with
          | none => .departure userId
          | some joining => .handover userId joining
            ((s.db.records.select (s.isOpenRecordOf userId)).map fun r =>
              (r.1, assignmentOf s r.1))
            (s.db.calendarEvents.select (isFutureEventOf now userId))) ∧ s = s' := by
  simp only [readDeactivation, Svc.returns_get_bind, Svc.returns_expect_bind,
    Svc.returns_require_bind, Roster.CanDeactivate]
  cases reassignToId with
  | none =>
    simp only [Svc.returns_pure]
    constructor
    · rintro ⟨target, ht, hactor, hstatus, hwork, rfl, rfl⟩
      exact ⟨⟨⟨target, ht, hactor, hstatus, hwork,
        fun _ hj => absurd hj (Option.not_mem_none _)⟩, rfl⟩, rfl⟩
    · rintro ⟨⟨⟨target, ht, hactor, hstatus, hwork, -⟩, rfl⟩, rfl⟩
      exact ⟨target, ht, hactor, hstatus, hwork, rfl, rfl⟩
  | some joining =>
    simp only [Svc.returns_bind_of_write fun _ _ => returns_resolveReassignee, Svc.returns_pure]
    constructor
    · rintro ⟨target, ht, hactor, hstatus, hwork, hjoin, rfl, rfl⟩
      refine ⟨⟨⟨target, ht, hactor, hstatus, hwork, fun j hj => ?_⟩, rfl⟩, rfl⟩
      cases hj
      exact hjoin
    · rintro ⟨⟨⟨target, ht, hactor, hstatus, hwork, hjoin⟩, rfl⟩, rfl⟩
      exact ⟨target, ht, hactor, hstatus, hwork, hjoin joining rfl, rfl, rfl⟩

/-- The records of a request are different ones, and each was there. -/
structure Loaded.Found (l : Loaded) (s : Roster) : Prop where
  distinct : (l.edits.map Edit.key).Nodup
  known : ∀ id ∈ l.edits.map Edit.key, s.db.records.get? id ≠ none

theorem found_of_keys {l : Loaded} {s : Roster} {ids : List ℕ}
    {p : ℕ → EquipmentRecord → Bool} (hkeys : l.edits.map Edit.key = ids)
    (hsub : ids.Sublist ((s.db.records.select p).map Prod.fst)) : l.Found s := by
  subst hkeys
  refine ⟨hsub.nodup (Store.select_nodup _ _), fun id hid hnone => ?_⟩
  obtain ⟨⟨_, r⟩, hrow, rfl⟩ := List.mem_map.mp (hsub.subset hid)
  rw [(Store.mem_select.mp hrow).1] at hnone
  cases hnone

/-- Records with their assignments. -/
def loadedRows (s : Roster) (records : List (ℕ × EquipmentRecord)) : List (ℕ × Assignment) :=
  records.map fun r => (r.1, assignmentOf s r.1)

/-- What a request that is in order has loaded. -/
theorem read_cases {customerDeletedAt : ℕ → Option ℤ} {request : Request} {s s' : Roster}
    {l : Loaded} (h : Svc.Returns (request.read customerDeletedAt) s l s') :
    (∃ recordId body, s.db.records.get? recordId ≠ none ∧
      l = .assignment recordId (assignmentOf s recordId) body) ∨
    (∃ customerId body skipped, l = .cascade customerId body
      (loadedRows s ((s.db.records.select (isLiveRecordOf customerId)).filter
        fun r => isAssignable r.2)) skipped) ∨
    (∃ userId, l = .departure userId) ∨
    ∃ userId joining events, l = .handover userId joining
      (loadedRows s (s.db.records.select (s.isOpenRecordOf userId))) events := by
  cases request with
  | updateAssignment lockHeld recordId body =>
    simp only [Request.read, readAssignment, Svc.returns_require_bind, Svc.returns_get_bind,
      Svc.returns_expect_bind] at h
    obtain ⟨-, record, hrecord, -, hrest⟩ := h
    obtain ⟨_, _, -, hpure⟩ := Svc.returns_bind.mp hrest
    obtain ⟨rfl, -⟩ := Svc.returns_pure.mp hpure
    have hget := (Option.filter_eq_some_iff.mp hrecord).1
    exact .inl ⟨recordId, body, by simp [hget], rfl⟩
  | cascadeAssignments customerId body =>
    simp only [Request.read, readCascade, Svc.returns_require_bind, Svc.returns_get_bind] at h
    obtain ⟨-, -, hrest⟩ := h
    obtain ⟨_, _, -, hpure⟩ := Svc.returns_bind.mp hrest
    obtain ⟨rfl, -⟩ := Svc.returns_pure.mp hpure
    exact .inr (.inl ⟨customerId, body, _, rfl⟩)
  | deactivateUser now actor userId reassignToId =>
    obtain ⟨⟨-, rfl⟩, -⟩ := returns_readDeactivation.mp h
    cases reassignToId with
    | none => exact .inr (.inr (.inl ⟨userId, rfl⟩))
    | some joining => exact .inr (.inr (.inr ⟨userId, joining, _, rfl⟩))

theorem found_of_read {customerDeletedAt : ℕ → Option ℤ} {request : Request} {s s' : Roster}
    {l : Loaded} (h : Svc.Returns (request.read customerDeletedAt) s l s') : l.Found s := by
  rcases read_cases h with ⟨recordId, body, hrecord, rfl⟩ | ⟨customerId, body, skipped, rfl⟩ |
    ⟨userId, rfl⟩ | ⟨userId, joining, events, rfl⟩
  · exact ⟨List.nodup_singleton _, by simpa [Loaded.edits] using hrecord⟩
  · refine found_of_keys (p := isLiveRecordOf customerId) ?_
      ((List.filter_sublist (p := fun r => isAssignable r.2)).map Prod.fst)
    simp only [Loaded.edits, loadedRows, List.map_map]
    rfl
  · exact ⟨List.nodup_nil, by simp [Loaded.edits]⟩
  · refine found_of_keys (p := s.isOpenRecordOf userId) ?_ (List.Sublist.refl _)
    simp only [Loaded.edits, loadedRows, List.map_map]
    rfl

theorem current_of_read {customerDeletedAt : ℕ → Option ℤ} {request : Request} {s s' : Roster}
    {l : Loaded} (h : Svc.Returns (request.read customerDeletedAt) s l s') :
    l.Current (assignmentOf s) := by
  have hrows : ∀ {records} {row : ℕ × Assignment}, row ∈ loadedRows s records →
      row.2 = assignmentOf s row.1 := by
    intro records row hrow
    obtain ⟨r, -, rfl⟩ := List.mem_map.mp hrow
    rfl
  rcases read_cases h with ⟨recordId, body, -, rfl⟩ | ⟨customerId, body, skipped, rfl⟩ |
    ⟨userId, rfl⟩ | ⟨userId, joining, events, rfl⟩
  · rfl
  · intro row hrow
    rw [← hrows hrow]
    exact ⟨fun _ _ h => h, fun _ _ h => h⟩
  · exact trivial
  · exact fun row hrow => hrows hrow

/-- Over the rows it loaded, a deactivation changes the columns as its loop does. -/
theorem setAssignments_handOver (s : Roster) (leaving joining : ℕ)
    {records : List (ℕ × EquipmentRecord)} (hnd : (records.map Prod.fst).Nodup) :
    setAssignments s ((records.map fun r => Edit.mk r.1 (assignmentOf s r.1)
        ((assignmentOf s r.1).handOver leaving joining)).foldl (Edit.write flush)
          (assignmentOf s)) =
      records.foldl (Roster.reassignRecord leaving joining) s := by
  set edits := records.map fun r => Edit.mk r.1 (assignmentOf s r.1)
    ((assignmentOf s r.1).handOver leaving joining) with hedits
  have hkeys : edits.map Edit.key = records.map Prod.fst := by
    rw [hedits, List.map_map]
    rfl
  have hv : edits.foldl (Edit.write flush) (assignmentOf s) = fun id =>
      if id ∈ records.map Prod.fst then (assignmentOf s id).handOver leaving joining
      else assignmentOf s id := by
    funext id
    split_ifs with hid
    · obtain ⟨r, hr, rfl⟩ := List.mem_map.mp hid
      have hmem : Edit.mk r.1 (assignmentOf s r.1)
          ((assignmentOf s r.1).handOver leaving joining) ∈ edits := List.mem_map.mpr ⟨r, hr, rfl⟩
      exact (writes_of_mem (by rwa [hkeys]) hmem _).trans (flush_loaded _ _)
    · exact writes_of_notMem (by rwa [hkeys]) _
  rw [hv, foldl_reassignRecord leaving joining hnd]
  simp only [setAssignments, apply_ite Assignment.salesRep, apply_ite Assignment.appraiser]
  rfl

/-- Without a commit of another request between its reads and its own, a deactivation is
    `deactivateUser`. -/
theorem commit_deactivation {now : ℤ} {actor userId : ℕ} {reassignToId : Option ℕ}
    {s t s' : Roster} {l : Loaded}
    (h : Svc.Returns (readDeactivation now actor userId reassignToId) s l t) :
    l.write t = s' ↔
      ∃ res, Svc.Returns (Roster.deactivateUser now actor userId reassignToId) s res s' := by
  obtain ⟨⟨hcan, rfl⟩, rfl⟩ := returns_readDeactivation.mp h
  rw [returns_deactivateUser, and_iff_right hcan]
  cases reassignToId with
  | none => exact Iff.rfl
  | some joining =>
    simp only [Loaded.write, Loaded.writeUsers, Loaded.edits, List.map_map, Function.comp_def,
      setAssignments_handOver s userId joining (Store.select_nodup _ _), foldl_handedOver]
    rw [foldl_reassignRecord userId joining (Store.select_nodup _ _)]
    exact Iff.rfl

/-! ## Runs -/

/-- Between the steps: a record that is not there has no assignment, and what the open
    requests loaded are different records that are there. -/
structure Inv (d : Desk) : Prop where
  absent : ∀ id, d.roster.db.records.get? id = none → assignmentOf d.roster id = ⟨none, none⟩
  found : ∀ i l, d.requests i = some l → l.Found d.roster

/-- The records that are there stay. -/
def KeepsRecords (s s' : Roster) : Prop :=
  ∀ id, s.db.records.get? id ≠ none → s'.db.records.get? id ≠ none

theorem Loaded.Found.later {l : Loaded} {s s' : Roster} (h : l.Found s) (hk : KeepsRecords s s') :
    l.Found s' :=
  ⟨h.distinct, fun id hid => hk id (h.known id hid)⟩

theorem Inv.later {d d' : Desk} (h : Inv d) (hk : KeepsRecords d.roster d'.roster)
    (hcols : assignmentOf d'.roster = assignmentOf d.roster) (hreq : d'.requests = d.requests) :
    Inv d' where
  absent id hid := by
    rw [hcols]
    exact h.absent id (not_not.mp fun hne => hk id hne hid)
  found i l hl := (h.found i l (hreq ▸ hl)).later hk

theorem inv_init (users : Store User) (customers : Store Customer) (status : ℕ → AccountStatus) :
    Inv (Desk.init users customers status) :=
  ⟨fun _ _ => rfl, fun _ _ hl => absurd hl.symm (Option.some_ne_none _)⟩

theorem inv_intake {d : Desk} (h : Inv d) (payload : Intake) (routed : Option (Option ℕ)) :
    Inv (d.intake payload routed) := by
  unfold Desk.intake
  split
  · next id db hexec =>
    obtain ⟨-, rfl, rfl⟩ := returns_submitIntake.mp hexec
    have hkeep : ∀ id, d.roster.db.records.get? id ≠ none →
        (d.roster.db.records.create payload.record).get? id ≠ none := by
      intro id hid
      obtain ⟨r, hr⟩ := Option.ne_none_iff_exists'.mp hid
      rw [Store.get?_create_of_some hr]
      exact Option.some_ne_none r
    refine ⟨fun id hid => ?_, fun i l hl => (h.found i l hl).later hkeep⟩
    have hold : d.roster.db.records.get? id = none := not_not.mp fun hne => hkeep id hne hid
    have hne : id ≠ d.roster.db.records.next := by
      rintro rfl
      exact absurd hid (by simp [setAssignments])
    rw [assignmentOf_setAssignments, Function.update_of_ne hne]
    exact h.absent id hold
  · exact h

theorem inv_softDeleteCustomer {d : Desk} (h : Inv d) (now : ℤ) (customerId : ℕ) :
    Inv (d.softDeleteCustomer now customerId) := by
  unfold Desk.softDeleteCustomer
  split
  · refine h.later (fun id hid => ?_) rfl rfl
    obtain ⟨r, hr⟩ := Option.ne_none_iff_exists'.mp hid
    dsimp only
    rw [Store.get?_modifyWhere, hr]
    exact Option.some_ne_none _
  · exact h

theorem inv_commit {d : Desk} (h : Inv d) (i : ℕ) : Inv (d.commit i) := by
  unfold Desk.commit
  split
  · next l hl =>
    have hfound := h.found i l hl
    have hrecords := write_records l d.roster
    refine ⟨fun id hid => ?_, fun j l' hl' => ?_⟩
    · rw [hrecords] at hid
      have hnot : id ∉ l.edits.map Edit.key := fun hmem => hfound.known id hmem hid
      rw [assignmentOf_write, writes_of_notMem hnot]
      exact h.absent id hid
    · dsimp only at hl'
      rw [Function.update_apply] at hl'
      split_ifs at hl'
      have hlater := h.found j l' hl'
      exact ⟨hlater.distinct, fun id hid => by rw [hrecords]; exact hlater.known id hid⟩
  · exact h

theorem inv_step (env : Env) (d : Desk) (o : Op) (h : Inv d) : Inv (step env d o) := by
  cases o with
  | intake payload routed => exact inv_intake h payload routed
  | service op =>
    refine h.later (fun id hid => ?_) rfl rfl
    obtain ⟨r, hr⟩ := Option.ne_none_iff_exists'.mp hid
    obtain ⟨r', hr', -⟩ := (step_status env d.roster.db op).kept id r hr
    simp only [step]
    rw [hr']
    exact Option.some_ne_none r'
  | softDeleteCustomer now customerId => exact inv_softDeleteCustomer h now customerId
  | account userId status => exact h.later (fun _ hid => hid) rfl rfl
  | read i request =>
    refine ⟨h.absent, fun j l hl => ?_⟩
    simp only [step, Desk.read] at hl
    rw [Function.update_apply] at hl
    split_ifs at hl
    · rcases hexec : Svc.exec (request.read d.customerDeletedAt) d.roster with ⟨_ | l', s'⟩
      · rw [hexec] at hl
        cases hl
      · rw [hexec] at hl
        cases hl
        exact found_of_read hexec
    · exact h.found j l hl
  | commit i => exact inv_commit h i
  | rollback i =>
    refine ⟨h.absent, fun j l hl => ?_⟩
    simp only [step] at hl
    rw [Function.update_apply] at hl
    split_ifs at hl
    exact h.found j l hl

/-- The row of an intake says what the routing did to the new record. -/
theorem trail_intake {d : Desk} (h : Inv d) (hexact : d.TrailExact) (payload : Intake)
    (routed : Option (Option ℕ)) : (d.intake payload routed).TrailExact := by
  unfold Desk.intake
  split
  · next id db hexec =>
    obtain ⟨-, rfl, -⟩ := returns_submitIntake.mp hexec
    have hnew := h.absent _ (Store.get?_next d.roster.db.records)
    unfold Desk.TrailExact
    rw [List.map_append, hexact.append_iff, assignmentOf_setAssignments]
    cases routed with
    | none =>
      rw [Option.map_none, Option.toList_none, List.map_nil, exact_nil_iff]
      exact (Function.update_eq_self_iff.mpr hnew.symm).symm
    | some rep =>
      rw [Option.map_some, Option.toList_some, List.map_singleton, exact_cons_iff, exact_nil_iff]
      refine ⟨fun _ _ ha => absurd ha (Option.not_mem_none _), ?_⟩
      funext id
      simp only [AuditEntry.entry, Function.update_apply]
      split_ifs with hid
      · rw [hid, hnew]
        rfl
      · rfl
  · exact hexact

theorem trail_step {env : Env} {d : Desk} {o : Op} (h : Inv d) (hexact : d.TrailExact) :
    (step env d o).TrailExact ↔ Undisturbed d o := by
  cases o with
  | intake payload routed => exact iff_of_true (trail_intake h hexact payload routed) trivial
  | commit i =>
    simp only [step, Desk.commit, Undisturbed]
    cases hl : d.requests i with
    | none => simpa using hexact
    | some l =>
      unfold Desk.TrailExact
      simp only [List.map_append, hexact.append_iff, assignmentOf_write,
        commit_exact_iff (h.found i l hl).distinct, Option.mem_def, Option.some.injEq, forall_eq']
  | softDeleteCustomer now customerId =>
    refine iff_of_true ?_ trivial
    simp only [step, Desk.softDeleteCustomer]
    split <;> exact hexact
  | _ => exact iff_of_true hexact trivial

/-- **Over any run of a new installation, with its requests interleaved in any way: in every
    state the audit rows are right about the assignments before them and replay to the current
    ones, exactly when no request commits over an assignment that changed since it loaded it.** -/
theorem trail_exact_iff (env : Env) (users : Store User) (customers : Store Customer)
    (status : ℕ → AccountStatus) (ops : List Op) :
    AllStates (step env) Desk.TrailExact (Desk.init users customers status) ops ↔
      AllSteps (step env) Undisturbed (Desk.init users customers status) ops :=
  allStates_iff_allSteps (fun d o h _ => inv_step env d o h)
    (fun _ _ h hexact => trail_step h hexact) (inv_init users customers status)
    (exact_nil _) ops

/-- Requests one at a time: only its own reads come right before a commit. -/
inductive Serial : List Op → Prop
  | nil : Serial []
  | serve (i : ℕ) (request : Request) {ops : List Op} (h : Serial ops) :
    Serial (.read i request :: .commit i :: ops)
  | other {o : Op} {ops : List Op} (ho : ∀ i, o ≠ .commit i) (h : Serial ops) : Serial (o :: ops)

theorem undisturbed_after_read {env : Env} (d : Desk) (i : ℕ) (request : Request) :
    Undisturbed (step env d (.read i request)) (.commit i) := by
  intro l hl
  simp only [step, Desk.read, Function.update_self, Option.mem_def] at hl
  rcases hexec : Svc.exec (request.read d.customerDeletedAt) d.roster with ⟨_ | l', s'⟩
  · rw [hexec] at hl
    cases hl
  · rw [hexec] at hl
    cases hl
    exact current_of_read hexec

theorem undisturbed_serial (env : Env) {ops : List Op} (h : Serial ops) (d : Desk) :
    AllSteps (step env) Undisturbed d ops := by
  induction h generalizing d with
  | nil => trivial
  | serve i request _ ih => exact ⟨trivial, undisturbed_after_read d i request, ih _⟩
  | @other o ops ho _ ih =>
    refine ⟨?_, ih _⟩
    cases o with
    | commit i => exact absurd rfl (ho i)
    | _ => trivial

/-- **One request at a time, the trail is exact in every state.** -/
theorem trail_exact_serial (env : Env) (users : Store User) (customers : Store Customer)
    (status : ℕ → AccountStatus) (ops : List Op) (h : Serial ops) :
    AllStates (step env) Desk.TrailExact (Desk.init users customers status) ops :=
  allStates_of_allSteps (P := fun d => Inv d ∧ d.TrailExact)
    (fun d o hd hc => ⟨inv_step env d o hd.1, (trail_step hd.1 hd.2).mpr hc⟩)
    ⟨inv_init users customers status, exact_nil _⟩ (undisturbed_serial env h _) |>.mono
    fun _ hd => hd.2

/-- A new record goes to Ann (user 0), who leaves it to Bob (user 1). -/
theorem handover_exact :
    AllStates (step sampleEnv) Desk.TrailExact
      (Desk.init officeUsers sampleCustomers fun _ => .active)
      [.intake { customerId := 0 } (some none),
        .read 0 (.updateAssignment true 0 ⟨none, some (some 0)⟩), .commit 0,
        .read 1 (.deactivateUser 0 2 0 (some 1)), .commit 1] :=
  trail_exact_serial sampleEnv officeUsers sampleCustomers (fun _ => .active) _
    (.other (fun _ h => by cases h) (.serve 0 _ (.serve 1 _ .nil)))

end TempleConsign.Assignments
