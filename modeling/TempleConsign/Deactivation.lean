import TempleConsign.Login
import TempleConsign.NoDoubleBooking

/-!
# Deactivating a user

Model of `src/api/services/admin_user_service.py`: `deactivate_user` hands the
open records and the future events of the leaving user to another active user
with a work role in common. It does not look at the roles that the work itself
needs, nor at the other user's calendar.

Deviations: the notifications and audit rows are left out.

Results:
* `returns_deactivateUser`: what a deactivation checks and writes.
* `deactivated_unowned`: nothing open or upcoming stays with the leaving user.
* `deactivation_preserves_iff`: a deactivation keeps calendars disjoint and work
  with its roles exactly when the moved events fit into the other calendar and
  the other user has the roles that the moved work needs.
-/

namespace TempleConsign

open ServiceLib

/-! ## State -/

/-- The tables of the lifecycle with `users.status` and the two assignment columns
    of `equipment_records`, by the key of their row. -/
structure Roster where
  db : Db
  userStatus : ℕ → AccountStatus
  assignedSalesRepId : ℕ → Option ℕ
  assignedAppraiserId : ℕ → Option ℕ

/-- The error a deactivation answers with; `openWork` are the two counts of
    `DeactivateUserOpenWork` (`src/api/schemas/admin.py` line 168). -/
structure DeactivateError where
  statusCode : ℕ
  detail : String
  openWork : Option (ℕ × ℕ) := none

/-- `DeactivateUserResponse` (`src/api/schemas/admin.py` line 179). -/
structure DeactivateUserResponse where
  userId : ℕ
  reassignedRecords : List ℕ
  reassignedEvents : List ℕ
  newStatus : AccountStatus

abbrev RosterService (α : Type) := Svc Roster DeactivateError α

/-! ## The service -/

/-- A record that is neither deleted nor in `_OPEN_STATUSES_EXCLUDED`. -/
def EquipmentRecord.isOpen (r : EquipmentRecord) : Bool :=
  r.deletedAt.isNone && r.status ∉ [Status.sold, .declined, .withdrawn]

/-- The `WHERE` of `_open_records_assigned_to` (line 113). -/
def Roster.isOpenRecordOf (s : Roster) (userId id : ℕ) (r : EquipmentRecord) : Bool :=
  (s.assignedSalesRepId id = some userId || s.assignedAppraiserId id = some userId) && r.isOpen

/-- The `WHERE` of `_future_events_for_appraiser` (line 136). -/
def isFutureEventOf (now : ℤ) (userId : ℕ) (_ : ℕ) (e : CalendarEvent) : Bool :=
  e.appraiserId = userId && now ≤ e.scheduledAt && e.cancelledAt.isNone

/-- `_WORK_ROLES` (line 29). -/
def workRoles : List RoleSlug := [.sales, .salesManager, .admin, .appraiser]

/-- `target_work & new_work` is not empty (line 178). -/
def sharesWorkRole (target reassignee : User) : Bool :=
  workRoles.any fun slug => slug ∈ target.roles && slug ∈ reassignee.roles

/-- `_resolve_reassignee` (line 156). -/
def resolveReassignee (reassignToId targetId : ℕ) (target : User) : RosterService Unit := do
  let s ← get
  let reassignee ← Svc.expect (s.db.users.get? reassignToId)
    ⟨422, "Reassignment target not found.", none⟩
  Svc.require (s.userStatus reassignToId = .active)
    ⟨422, "Reassignment target is not active.", none⟩
  Svc.require (reassignToId ≠ targetId)
    ⟨422, "Cannot reassign to the user being deactivated.", none⟩
  Svc.require (sharesWorkRole target reassignee = true)
    ⟨422, "Reassignment target does not share a work role with the leaving " ++
      "user. Pick a teammate who can take on this work.", none⟩

/-- `if owner == leaving.id: owner = joining.id`. -/
def handOver (leaving joining : ℕ) (owner : Option ℕ) : Option ℕ :=
  if owner = some leaving then some joining else owner

/-- The loop body of `_reassign_records` (line 202). -/
def Roster.reassignRecord (leaving joining : ℕ) (s : Roster) (rec : ℕ × EquipmentRecord) :
    Roster :=
  { s with
    assignedSalesRepId := Function.update s.assignedSalesRepId rec.1
      (handOver leaving joining (s.assignedSalesRepId rec.1))
    assignedAppraiserId := Function.update s.assignedAppraiserId rec.1
      (handOver leaving joining (s.assignedAppraiserId rec.1)) }

/-- The loop body of `_reassign_events` (line 255). -/
def Roster.reassignEvent (joining : ℕ) (s : Roster) (ev : ℕ × CalendarEvent) : Roster :=
  { s with db := { s.db with
      calendarEvents := s.db.calendarEvents.modify ev.1 fun e =>
        { e with appraiserId := joining } } }

/-- `_reassign_records` (line 188) and `_reassign_events` (line 246). -/
def reassignWork (leaving joining : ℕ) (records : List (ℕ × EquipmentRecord))
    (events : List (ℕ × CalendarEvent)) : RosterService Unit := do
  modify fun s => records.foldl (Roster.reassignRecord leaving joining) s
  modify fun s => events.foldl (Roster.reassignEvent joining) s

/-- `deactivate_user` (line 32) from the choice of the reassignee on. -/
def reassignAndDeactivate (userId : ℕ) (target : User) (records : List (ℕ × EquipmentRecord))
    (events : List (ℕ × CalendarEvent)) : Option ℕ → RosterService DeactivateUserResponse
  | none => do
    modify fun s => { s with userStatus := Function.update s.userStatus userId .deactivated }
    pure ⟨userId, [], [], .deactivated⟩
  | some joining => do
    resolveReassignee joining userId target
    reassignWork userId joining records events
    modify fun s => { s with userStatus := Function.update s.userStatus userId .deactivated }
    pure ⟨userId, records.map Prod.fst, events.map Prod.fst, .deactivated⟩

/-- `deactivate_user` (line 32). -/
def Roster.deactivateUser (now : ℤ) (actor userId : ℕ) (reassignToId : Option ℕ) :
    RosterService DeactivateUserResponse := do
  let s ← get
  let target ← Svc.expect (s.db.users.get? userId) ⟨404, "User not found.", none⟩
  Svc.require (userId ≠ actor)
    ⟨409, "Admins cannot deactivate their own account from this endpoint.", none⟩
  Svc.require (s.userStatus userId ≠ .deactivated) ⟨409, "User is already deactivated.", none⟩
  let openRecords := s.db.records.select (s.isOpenRecordOf userId)
  let futureEvents := s.db.calendarEvents.select (isFutureEventOf now userId)
  Svc.require (reassignToId ≠ none ∨ (openRecords = [] ∧ futureEvents = []))
    ⟨409, (s!"User has {openRecords.length} open record(s) and " ++
        s!"{futureEvents.length} upcoming calendar event(s). " ++ "Pick a reassignment target."),
      some (openRecords.length, futureEvents.length)⟩
  reassignAndDeactivate userId target openRecords futureEvents reassignToId

/-! ## What it checks and writes -/

/-- The checks of `deactivate_user`. -/
def Roster.CanDeactivate (s : Roster) (now : ℤ) (actor userId : ℕ) (reassignToId : Option ℕ) :
    Prop :=
  ∃ target, s.db.users.get? userId = some target ∧ userId ≠ actor ∧
    s.userStatus userId ≠ .deactivated ∧
    (reassignToId ≠ none ∨ (s.db.records.select (s.isOpenRecordOf userId) = [] ∧
      s.db.calendarEvents.select (isFutureEventOf now userId) = [])) ∧
    ∀ joining ∈ reassignToId, ∃ reassignee, s.db.users.get? joining = some reassignee ∧
      s.userStatus joining = .active ∧ joining ≠ userId ∧ sharesWorkRole target reassignee = true

/-- Record `id` is there and open. -/
def Roster.hasOpenRecord (s : Roster) (id : ℕ) : Bool := (s.db.records.get? id).any (·.isOpen)

/-- The roster with the open work of `leaving` handed to `joining`. -/
def Roster.handedOver (s : Roster) (now : ℤ) (leaving joining : ℕ) : Roster :=
  { s with
    db := { s.db with
      calendarEvents := s.db.calendarEvents.modifyWhere (isFutureEventOf now leaving) fun e =>
        { e with appraiserId := joining } }
    assignedSalesRepId := fun id =>
      if s.hasOpenRecord id then handOver leaving joining (s.assignedSalesRepId id)
      else s.assignedSalesRepId id
    assignedAppraiserId := fun id =>
      if s.hasOpenRecord id then handOver leaving joining (s.assignedAppraiserId id)
      else s.assignedAppraiserId id }

/-- The roster after a deactivation. -/
def Roster.deactivated (s : Roster) (now : ℤ) (userId : ℕ) : Option ℕ → Roster
  | none => { s with userStatus := Function.update s.userStatus userId .deactivated }
  | some joining =>
    { s.handedOver now userId joining with
      userStatus := Function.update s.userStatus userId .deactivated }

theorem foldl_reassignRecord (leaving joining : ℕ) {l : List (ℕ × EquipmentRecord)}
    (hnd : (l.map Prod.fst).Nodup) (s : Roster) :
    l.foldl (Roster.reassignRecord leaving joining) s =
      { s with
        assignedSalesRepId := fun id =>
          if id ∈ l.map Prod.fst then handOver leaving joining (s.assignedSalesRepId id)
          else s.assignedSalesRepId id
        assignedAppraiserId := fun id =>
          if id ∈ l.map Prod.fst then handOver leaving joining (s.assignedAppraiserId id)
          else s.assignedAppraiserId id } := by
  induction l generalizing s with
  | nil => simp
  | cons rec l ih =>
    rw [List.map_cons, List.nodup_cons] at hnd
    have hcol : ∀ f : ℕ → Option ℕ, (fun id => if id ∈ l.map Prod.fst then
        handOver leaving joining (Function.update f rec.1 (handOver leaving joining (f rec.1)) id)
        else Function.update f rec.1 (handOver leaving joining (f rec.1)) id) =
        fun id => if id ∈ (rec :: l).map Prod.fst then handOver leaving joining (f id)
          else f id := by
      intro f
      funext id
      simp only [List.map_cons, List.mem_cons]
      by_cases hid : id = rec.1
      · subst hid
        rw [if_neg hnd.1, if_pos (Or.inl rfl), Function.update_self]
      · rw [Function.update_of_ne hid]
        exact if_congr (or_iff_right hid).symm rfl rfl
    rw [List.foldl_cons, ih hnd.2]
    simp only [Roster.reassignRecord, hcol]

theorem foldl_reassignEvent (joining : ℕ) (l : List (ℕ × CalendarEvent)) (s : Roster) :
    l.foldl (Roster.reassignEvent joining) s =
      { s with db := { s.db with
          calendarEvents := l.foldl
            (fun t ev => t.modify ev.1 fun e => { e with appraiserId := joining })
            s.db.calendarEvents } } := by
  induction l generalizing s with
  | nil => rfl
  | cons ev l ih =>
    rw [List.foldl_cons, ih]
    rfl

/-- Whether a record of the leaving user is among those handed over does not
    matter to the columns of the others. -/
theorem handOver_mem_iff {s : Roster} {leaving joining id : ℕ} {owner : Option ℕ}
    (h : owner = some leaving →
      (s.assignedSalesRepId id = some leaving ∨ s.assignedAppraiserId id = some leaving)) :
    (if id ∈ (s.db.records.select (s.isOpenRecordOf leaving)).map Prod.fst then
        handOver leaving joining owner else owner) =
      if s.hasOpenRecord id then handOver leaving joining owner else owner := by
  by_cases howner : owner = some leaving
  · have hmem : id ∈ (s.db.records.select (s.isOpenRecordOf leaving)).map Prod.fst ↔
        s.hasOpenRecord id = true := by
      simp only [List.mem_map, Prod.exists, Store.mem_select, Roster.isOpenRecordOf,
        Roster.hasOpenRecord, Option.any_eq_true, Bool.and_eq_true, Bool.or_eq_true,
        decide_eq_true_eq]
      constructor
      · rintro ⟨_, r, ⟨hr, -, hopen⟩, rfl⟩
        exact ⟨r, hr, hopen⟩
      · rintro ⟨r, hr, hopen⟩
        exact ⟨id, r, ⟨hr, h howner, hopen⟩, rfl⟩
    simp only [hmem]
  · simp [handOver, howner]

theorem foldl_handedOver (s : Roster) (now : ℤ) (leaving joining : ℕ) :
    (s.db.calendarEvents.select (isFutureEventOf now leaving)).foldl (Roster.reassignEvent joining)
        ((s.db.records.select (s.isOpenRecordOf leaving)).foldl
          (Roster.reassignRecord leaving joining) s) =
      s.handedOver now leaving joining := by
  rw [foldl_reassignRecord leaving joining (Store.select_nodup _ _), foldl_reassignEvent]
  have hrep : (fun id => if id ∈ (s.db.records.select (s.isOpenRecordOf leaving)).map Prod.fst then
      handOver leaving joining (s.assignedSalesRepId id) else s.assignedSalesRepId id) = fun id =>
      if s.hasOpenRecord id then handOver leaving joining (s.assignedSalesRepId id)
      else s.assignedSalesRepId id :=
    funext fun id => handOver_mem_iff Or.inl
  have happ : (fun id => if id ∈ (s.db.records.select (s.isOpenRecordOf leaving)).map Prod.fst then
      handOver leaving joining (s.assignedAppraiserId id) else s.assignedAppraiserId id) = fun id =>
      if s.hasOpenRecord id then handOver leaving joining (s.assignedAppraiserId id)
      else s.assignedAppraiserId id :=
    funext fun id => handOver_mem_iff Or.inr
  rw [hrep, happ]
  rfl

theorem returns_resolveReassignee {reassignToId targetId : ℕ} {target : User} {s s' : Roster}
    {u : Unit} :
    Svc.Returns (resolveReassignee reassignToId targetId target) s u s' ↔
      (∃ reassignee, s.db.users.get? reassignToId = some reassignee ∧
        s.userStatus reassignToId = .active ∧ reassignToId ≠ targetId ∧
        sharesWorkRole target reassignee = true) ∧ s = s' := by
  simp only [resolveReassignee, Svc.returns_get_bind, Svc.returns_expect_bind,
    Svc.returns_require_bind, Svc.returns_require, ← and_assoc, exists_and_right]

theorem returns_reassignWork {leaving joining : ℕ} {records : List (ℕ × EquipmentRecord)}
    {events : List (ℕ × CalendarEvent)} {s s' : Roster} {u : Unit} :
    Svc.Returns (reassignWork leaving joining records events) s u s' ↔
      True ∧ events.foldl (Roster.reassignEvent joining)
        (records.foldl (Roster.reassignRecord leaving joining) s) = s' := by
  simp only [reassignWork, Svc.returns_modify_bind, Svc.returns_modify, true_and]

/-- A deactivation returns exactly when it passes its checks; it hands the open
    work over and marks the user. -/
theorem returns_deactivateUser {now : ℤ} {actor userId : ℕ} {reassignToId : Option ℕ}
    {s s' : Roster} :
    (∃ res, Svc.Returns (Roster.deactivateUser now actor userId reassignToId) s res s') ↔
      s.CanDeactivate now actor userId reassignToId ∧
        s.deactivated now userId reassignToId = s' := by
  simp only [Roster.deactivateUser, Svc.returns_get_bind, Svc.returns_expect_bind,
    Svc.returns_require_bind, Roster.CanDeactivate]
  cases reassignToId with
  | none =>
    simp only [reassignAndDeactivate, Svc.returns_modify_bind, Svc.returns_pure]
    constructor
    · rintro ⟨res, target, ht, hactor, hstatus, hwork, -, h⟩
      have hnone : ∀ joining ∈ (none : Option ℕ), ∃ reassignee, s.db.users.get? joining =
          some reassignee ∧ s.userStatus joining = .active ∧ joining ≠ userId ∧
            sharesWorkRole target reassignee = true :=
        fun _ hj => absurd hj (Option.not_mem_none _)
      exact ⟨⟨target, ht, hactor, hstatus, hwork, hnone⟩, h⟩
    · rintro ⟨⟨target, ht, hactor, hstatus, hwork, -⟩, h⟩
      exact ⟨_, target, ht, hactor, hstatus, hwork, rfl, h⟩
  | some joining =>
    simp only [reassignAndDeactivate, Svc.returns_modify_bind, Svc.returns_pure,
      Svc.returns_bind_of_write fun _ _ => returns_resolveReassignee,
      Svc.returns_bind_of_write fun _ _ => returns_reassignWork, foldl_handedOver]
    constructor
    · rintro ⟨res, target, ht, hactor, hstatus, hwork, hjoin, -, -, h⟩
      refine ⟨⟨target, ht, hactor, hstatus, hwork, fun j hj => ?_⟩, h⟩
      cases hj
      exact hjoin
    · rintro ⟨⟨target, ht, hactor, hstatus, hwork, hjoin⟩, h⟩
      exact ⟨_, target, ht, hactor, hstatus, hwork, hjoin joining rfl, trivial, rfl, h⟩

/-! ## What a deactivation should keep -/

/-- The two ways the code reads the roles of a user: `_require_appraiser`
    (`calendar_service.py` line 483) and `_require_user_has_role`
    (`sales_service.py` line 396) look at the primary role, `require_roles` at the
    join table. -/
inductive RoleReading
  | primary
  | granted

def RoleReading.holds : RoleReading → User → RoleSlug → Bool
  | primary, user, slug => user.role = slug
  | granted, user, slug => slug ∈ user.roles

/-- The user exists and has one of the roles. -/
def Roster.HasRole (s : Roster) (reading : RoleReading) (slugs : List RoleSlug) (userId : ℕ) :
    Prop :=
  ∃ user, s.db.users.get? userId = some user ∧ ∃ slug ∈ slugs, reading.holds user slug = true

/-- The roles a sales rep may have (`sales_service.py` line 188). -/
def salesRoles : List RoleSlug := [.sales, .salesManager, .admin]

/-- No two uncancelled events of one appraiser overlap. -/
def Roster.NoOverlap (s : Roster) : Prop := s.db.calendarEvents.Pairwise DisjointTimes

/-- The upcoming events and the open records are with users of the right roles. -/
structure Roster.Staffed (s : Roster) (reading : RoleReading) (now : ℤ) : Prop where
  events : ∀ k e, s.db.calendarEvents.get? k = some e → e.cancelledAt = none →
    now ≤ e.scheduledAt → s.HasRole reading [.appraiser] e.appraiserId
  appraisers : ∀ id, s.hasOpenRecord id = true → ∀ a ∈ s.assignedAppraiserId id,
    s.HasRole reading [.appraiser] a
  reps : ∀ id, s.hasOpenRecord id = true → ∀ a ∈ s.assignedSalesRepId id,
    s.HasRole reading salesRoles a

/-- No upcoming event and no open record is with the user. -/
structure Roster.Unowned (s : Roster) (now : ℤ) (userId : ℕ) : Prop where
  events : ∀ k e, s.db.calendarEvents.get? k = some e → e.cancelledAt = none →
    now ≤ e.scheduledAt → e.appraiserId ≠ userId
  records : ∀ id, s.hasOpenRecord id = true →
    s.assignedSalesRepId id ≠ some userId ∧ s.assignedAppraiserId id ≠ some userId

/-- The property: what a deactivation that succeeds keeps and achieves. -/
def Roster.DeactivationPreserves (s : Roster) (reading : RoleReading) (now : ℤ)
    (actor userId : ℕ) (reassignToId : Option ℕ) : Prop :=
  ∀ res s', Svc.Returns (Roster.deactivateUser now actor userId reassignToId) s res s' →
    (s.NoOverlap → s'.NoOverlap) ∧ (s.Staffed reading now → s'.Staffed reading now) ∧
      s'.Unowned now userId

/-- The upcoming events of `leaving` fit between the events of `joining`. -/
def Roster.EventsFit (s : Roster) (now : ℤ) (leaving joining : ℕ) : Prop :=
  ∀ k e, s.db.calendarEvents.get? k = some e → isFutureEventOf now leaving k e = true →
    ∀ j f, s.db.calendarEvents.get? j = some f → f.cancelledAt = none →
      f.appraiserId = joining → e.slot.stop ≤ f.slot.start ∨ f.slot.stop ≤ e.slot.start

/-- `joining` has the roles that the work of `leaving` needs. -/
structure Roster.RolesCover (s : Roster) (reading : RoleReading) (now : ℤ)
    (leaving joining : ℕ) : Prop where
  events : (∃ k e, s.db.calendarEvents.get? k = some e ∧ isFutureEventOf now leaving k e = true) →
    s.HasRole reading [.appraiser] joining
  appraisers : (∃ id, s.hasOpenRecord id = true ∧ s.assignedAppraiserId id = some leaving) →
    s.HasRole reading [.appraiser] joining
  reps : (∃ id, s.hasOpenRecord id = true ∧ s.assignedSalesRepId id = some leaving) →
    s.HasRole reading salesRoles joining

/-! ## The roster after the hand-over -/

theorem isFutureEventOf_iff {now : ℤ} {userId k : ℕ} {e : CalendarEvent} :
    isFutureEventOf now userId k e = true ↔
      e.appraiserId = userId ∧ now ≤ e.scheduledAt ∧ e.cancelledAt = none := by
  simp only [isFutureEventOf, Bool.and_eq_true, decide_eq_true_eq, Option.isNone_iff_eq_none,
    and_assoc]

/-- An event of the leaving user that is to come changes hands, every other event
    stays as it is. -/
theorem handedOver_event (s : Roster) (now : ℤ) (leaving joining k : ℕ) :
    (s.handedOver now leaving joining).db.calendarEvents.get? k =
      (s.db.calendarEvents.get? k).map fun e =>
        if isFutureEventOf now leaving k e then { e with appraiserId := joining } else e :=
  Store.get?_modifyWhere _ _ _ _

theorem handOver_ne {leaving joining : ℕ} (hne : joining ≠ leaving) (owner : Option ℕ) :
    handOver leaving joining owner ≠ some leaving := by
  unfold handOver
  split_ifs with h
  · simpa using hne
  · exact h

/-- Nothing open stays with the leaving user. -/
theorem handedOver_unowned (s : Roster) (now : ℤ) {leaving joining : ℕ}
    (hne : joining ≠ leaving) : (s.handedOver now leaving joining).Unowned now leaving where
  events k e he hopen hnow := by
    rw [handedOver_event, Option.map_eq_some_iff] at he
    obtain ⟨e0, -, rfl⟩ := he
    split_ifs at hopen hnow ⊢ with hf
    · exact hne
    · exact fun hown => hf (isFutureEventOf_iff.mpr ⟨hown, hnow, hopen⟩)
  records id hopen := by
    have hrec : s.hasOpenRecord id = true := hopen
    simp only [Roster.handedOver, hrec, if_true]
    exact ⟨handOver_ne hne _, handOver_ne hne _⟩

theorem handedOver_noOverlap_iff {s : Roster} {now : ℤ} {leaving joining : ℕ}
    (hne : joining ≠ leaving) (hd : s.NoOverlap) :
    (s.handedOver now leaving joining).NoOverlap ↔ s.EventsFit now leaving joining := by
  constructor
  · intro h k e he hf j f hj hopen hown
    have hfe := isFutureEventOf_iff.mp hf
    have hkj : k ≠ j := by
      rintro rfl
      rw [he] at hj
      cases hj
      exact hne (hown.symm.trans hfe.1)
    have hek : (s.handedOver now leaving joining).db.calendarEvents.get? k =
        some { e with appraiserId := joining } := by
      rw [handedOver_event, he, Option.map_some, if_pos hf]
    have hstays : isFutureEventOf now leaving j f = false := by
      rw [← Bool.not_eq_true, isFutureEventOf_iff, hown]
      exact fun h => hne h.1
    have hfj : (s.handedOver now leaving joining).db.calendarEvents.get? j = some f := by
      rw [handedOver_event, hj, Option.map_some, hstays]
      rfl
    have hdisjoint : DisjointTimes { e with appraiserId := joining } f := h k j _ f hkj hek hfj
    exact hdisjoint hfe.2.2 hopen hown.symm
  · intro h i j a b hij ha hb hca hcb hab
    rw [handedOver_event, Option.map_eq_some_iff] at ha hb
    obtain ⟨a, ha, rfl⟩ := ha
    obtain ⟨b, hb, rfl⟩ := hb
    split_ifs at hca hcb hab ⊢ with hfa hfb hfb
    · -- both were events of the leaving user
      have hown := (isFutureEventOf_iff.mp hfa).1.trans (isFutureEventOf_iff.mp hfb).1.symm
      exact hd i j a b hij ha hb hca hcb hown
    · exact h i a ha hfa j b hb hcb hab.symm
    · exact (h j b hb hfb i a ha hca hab).symm
    · exact hd i j a b hij ha hb hca hcb hab

theorem handedOver_staffed_iff {s : Roster} {reading : RoleReading} {now : ℤ}
    {leaving joining : ℕ} (hs : s.Staffed reading now) :
    (s.handedOver now leaving joining).Staffed reading now ↔
      s.RolesCover reading now leaving joining := by
  constructor
  · intro h
    refine ⟨?_, ?_, ?_⟩
    · rintro ⟨k, e, he, hf⟩
      have hfe := isFutureEventOf_iff.mp hf
      have hek : (s.handedOver now leaving joining).db.calendarEvents.get? k =
          some { e with appraiserId := joining } := by
        rw [handedOver_event, he, Option.map_some, if_pos hf]
      exact h.events k _ hek hfe.2.2 hfe.2.1
    · rintro ⟨id, hopen, hown⟩
      refine h.appraisers id hopen joining ?_
      simp [Roster.handedOver, hopen, handOver, hown]
    · rintro ⟨id, hopen, hown⟩
      refine h.reps id hopen joining ?_
      simp [Roster.handedOver, hopen, handOver, hown]
  · intro h
    refine ⟨fun k e he hc hnow => ?_, fun id hopen a ha => ?_, fun id hopen a ha => ?_⟩
    · rw [handedOver_event, Option.map_eq_some_iff] at he
      obtain ⟨e, he, rfl⟩ := he
      split_ifs at hc hnow ⊢ with hf
      · exact h.events ⟨k, e, he, hf⟩
      · exact hs.events k e he hc hnow
    · have hrec : s.hasOpenRecord id = true := hopen
      simp only [Roster.handedOver, hrec, if_true, handOver] at ha
      split_ifs at ha with hown
      · cases ha
        exact h.appraisers ⟨id, hrec, hown⟩
      · exact hs.appraisers id hrec a ha
    · have hrec : s.hasOpenRecord id = true := hopen
      simp only [Roster.handedOver, hrec, if_true, handOver] at ha
      split_ifs at ha with hown
      · cases ha
        exact h.reps ⟨id, hrec, hown⟩
      · exact hs.reps id hrec a ha

/-- Nothing open or upcoming stays with a user that was deactivated. -/
theorem deactivated_unowned {s : Roster} {now : ℤ} {actor userId : ℕ} {reassignToId : Option ℕ}
    (h : s.CanDeactivate now actor userId reassignToId) :
    (s.deactivated now userId reassignToId).Unowned now userId := by
  obtain ⟨target, -, -, -, hwork, hjoin⟩ := h
  cases reassignToId with
  | some joining =>
    obtain ⟨_, -, -, hne, -⟩ := hjoin joining rfl
    have hun := handedOver_unowned s now hne
    exact ⟨hun.events, hun.records⟩
  | none =>
    obtain ⟨hrecords, hevents⟩ := hwork.resolve_left fun h => h rfl
    refine ⟨fun k e he hopen hnow hown => ?_, fun id hopen => ?_⟩
    · have hmem : (k, e) ∈ s.db.calendarEvents.select (isFutureEventOf now userId) :=
        Store.mem_select.mpr ⟨he, isFutureEventOf_iff.mpr ⟨hown, hnow, hopen⟩⟩
      rw [hevents] at hmem
      cases hmem
    · obtain ⟨r, hr, hropen⟩ := (Option.any_eq_true _ _).mp hopen
      have hnone : ¬ (s.assignedSalesRepId id = some userId ∨
          s.assignedAppraiserId id = some userId) := by
        intro hown
        have hmem : (id, r) ∈ s.db.records.select (s.isOpenRecordOf userId) :=
          Store.mem_select.mpr ⟨hr, by simpa [Roster.isOpenRecordOf, hropen] using hown⟩
        rw [hrecords] at hmem
        cases hmem
      exact not_or.mp hnone

/-- **A deactivation keeps calendars disjoint, keeps work with users of the right
    roles and leaves nothing with the leaving user exactly when, where calendars were
    disjoint, the moved events fit between the reassignee's and, where work was with
    the right users, the reassignee has the roles of the moved work.** -/
theorem deactivation_preserves_iff (s : Roster) (reading : RoleReading) (now : ℤ)
    (actor userId : ℕ) (reassignToId : Option ℕ) :
    s.DeactivationPreserves reading now actor userId reassignToId ↔
      (s.CanDeactivate now actor userId reassignToId → ∀ joining ∈ reassignToId,
        (s.NoOverlap → s.EventsFit now userId joining) ∧
          (s.Staffed reading now → s.RolesCover reading now userId joining)) := by
  constructor
  · intro h hcan joining hj
    cases hj
    obtain ⟨_, hret⟩ := returns_deactivateUser.mpr ⟨hcan, rfl⟩
    obtain ⟨hover, hstaff, -⟩ := h _ _ hret
    obtain ⟨_, -, -, -, -, hjoin⟩ := hcan
    obtain ⟨_, -, -, hne, -⟩ := hjoin joining rfl
    refine ⟨fun hd => (handedOver_noOverlap_iff hne hd).mp (hover hd), fun hs => ?_⟩
    have hs' := hstaff hs
    exact (handedOver_staffed_iff hs).mp ⟨hs'.events, hs'.appraisers, hs'.reps⟩
  · intro h res s' hret
    obtain ⟨hcan, rfl⟩ := returns_deactivateUser.mp ⟨res, hret⟩
    refine ⟨?_, ?_, deactivated_unowned hcan⟩
    · intro hd
      cases reassignToId with
      | none => exact hd
      | some joining =>
        obtain ⟨_, -, -, -, -, hjoin⟩ := id hcan
        obtain ⟨_, -, -, hne, -⟩ := hjoin joining rfl
        exact (handedOver_noOverlap_iff hne hd).mpr ((h hcan joining rfl).1 hd)
    · intro hs
      cases reassignToId with
      | none => exact ⟨hs.events, hs.appraisers, hs.reps⟩
      | some joining =>
        have hs' := (handedOver_staffed_iff hs).mpr ((h hcan joining rfl).2 hs)
        exact ⟨hs'.events, hs'.appraisers, hs'.reps⟩

/-- Two appraisers (users 0 and 1) and the customer whose profile is customer 0. -/
def officeUsers : Store User :=
  ((Store.empty.create ⟨"ann@example.com", "Ann", "A", .appraiser, [.appraiser]⟩).create
    ⟨"bob@example.com", "Bob", "B", .appraiser, [.appraiser]⟩).create
    ⟨"cus@example.com", "Cus", "C", .customer, [.customer]⟩

/-- One appointment of each appraiser, at the same time. -/
def sameHourRun : List Op :=
  [.submitIntake { customerId := 0 }, .submitIntake { customerId := 0 },
    .createEvent 3 (booking 0 (minutes 60) "Fresno"),
    .createEvent 3 { booking 1 (minutes 60) "Fresno" with appraiserId := 1 }]

def officeRoster : Roster where
  db := run (step sampleEnv) (Db.init officeUsers sampleCustomers) sameHourRun
  userStatus := fun _ => .active
  assignedSalesRepId := fun _ => none
  assignedAppraiserId := fun _ => none

/-- Handing the appointment of user 0 to user 1 books user 1 twice. -/
theorem deactivation_double_books :
    ¬ ∀ (env : Env) (users : Store User) (customers : Store Customer) (ops : List Op)
      (userStatus : ℕ → AccountStatus) (rep appraiser : ℕ → Option ℕ) (reading : RoleReading)
      (now : ℤ) (actor userId : ℕ) (reassignToId : Option ℕ),
      (Roster.mk (run (step env) (Db.init users customers) ops) userStatus rep
        appraiser).DeactivationPreserves reading now actor userId reassignToId := by
  intro h
  have hpreserves : officeRoster.DeactivationPreserves .primary 0 3 0 (some 1) :=
    h sampleEnv officeUsers sampleCustomers sameHourRun _ _ _ .primary 0 3 0 (some 1)
  have hcan : officeRoster.CanDeactivate 0 3 0 (some 1) := by
    refine ⟨_, rfl, by decide, by decide, Or.inl nofun, fun joining hj => ?_⟩
    cases hj
    exact ⟨_, rfl, rfl, by decide, by decide⟩
  obtain ⟨_, hret⟩ := returns_deactivateUser.mpr ⟨hcan, rfl⟩
  have hbefore : officeRoster.NoOverlap :=
    (appointments_disjoint sampleEnv officeUsers sampleCustomers sameHourRun).last
  have hafter : (officeRoster.handedOver 0 0 1).NoOverlap := (hpreserves _ _ hret).1 hbefore
  have hfit := (handedOver_noOverlap_iff (by decide) hbefore).mp hafter
  have hfirst : officeRoster.db.calendarEvents.get? 0 =
      some ⟨0, 0, minutes 60, 60, some "Fresno", none⟩ := by decide
  have hsecond : officeRoster.db.calendarEvents.get? 1 =
      some ⟨1, 1, minutes 60, 60, some "Fresno", none⟩ := by decide
  have happart := hfit 0 _ hfirst (by decide) 1 _ hsecond rfl rfl
  revert happart
  decide

end TempleConsign
