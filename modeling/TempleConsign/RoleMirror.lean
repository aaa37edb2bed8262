import TempleConsign.Database
import TempleConsign.Lib.KeyedRows
import TempleConsign.Lib.Loop

/-!
# The primary role and the join table

Model of `src/api/services/user_roles_service.py` and of the flush listener
`_mirror_user_role_id_changes` (`src/api/database/models.py` line 1182). A user's
primary role is `users.role_id`; the roles it holds are its rows in `user_roles`.

A query flushes the session first (autoflush). So `set_primary_role` has its
change mirrored by the listener before `grant` inserts the same row.

Deviations:
* Each call is one request. Calls that share a request are the run of the calls
  when none raises, and nothing when one does.
* A flush changes `users.role_id` by assignments to that attribute. Nothing under
  `src/` assigns the relationship `User.role`.
* `granted_at` is left out, and so are new users: the listener skips a user that
  has no id.

Results:
* `role_mirror`: the primary role stays in the join table, the table has no
  duplicate pair and holds exactly what was acquired and not revoked since; the
  primary role cannot be revoked.
* `holds_step_iff`, `RoleDb.Mirrored.step`: what one call does.
-/

namespace TempleConsign.RoleMirror

open ServiceLib

/-! ## Tables -/

/-- `Role` (line 34). -/
structure Role where
  slug : String

/-- `User` (line 79). -/
structure User where
  roleId : ℕ

/-- `UserRole` (line 44). -/
structure UserRole where
  userId : ℕ
  roleId : ℕ
  grantedBy : Option ℕ

/-- The primary key of `user_roles`. -/
def UserRole.key (g : UserRole) : ℕ × ℕ := (g.userId, g.roleId)

/-- `user_roles` under its primary key. -/
abbrev UserRoles := KeyedRows UserRole.key

structure RoleDb where
  roles : Store Role
  users : Store User
  userRoles : UserRoles

/-- An unflushed assignment to `user.role_id`. `loaded` says that the attribute
    had its value when it was assigned, so that the history knows the old one. -/
structure Assignment where
  userId : ℕ
  roleId : Option ℕ
  loaded : Bool

/-- The database and the session's unflushed assignments. -/
structure Session where
  db : RoleDb
  dirty : List Assignment

/-- `user.role_id = role_id`. An earlier unflushed value is overwritten. -/
def Session.assign (s : Session) (a : Assignment) : Session :=
  { s with dirty := s.dirty.filter (fun b => b.userId ≠ a.userId) ++ [a] }

/-! ## The flush -/

/-- The statement of `grant` and of the listener, under the foreign keys of the
    table. -/
def RoleDb.insertUserRole (db : RoleDb) (g : UserRole) : Except Exn RoleDb :=
  if db.userRoles.Taken g.key then .ok db
  else if (db.users.get? g.userId).isSome ∧ (db.roles.get? g.roleId).isSome ∧
      g.grantedBy.all (fun a => (db.users.get? a).isSome) then
    .ok { db with userRoles := db.userRoles.insertIfAbsent g }
  else .error .integrityError

/-- `db.delete(grant_row)`. -/
def RoleDb.deleteUserRole (db : RoleDb) (key : ℕ × ℕ) : RoleDb :=
  { db with userRoles := db.userRoles.delete key }

/-- `history.has_changes()` of `role_id`. -/
def RoleDb.hasChanges (db : RoleDb) (a : Assignment) : Bool :=
  !a.loaded || (db.users.get? a.userId).map User.roleId ≠ a.roleId

/-- The `pending` list of the listener (lines 1183–1196). -/
def RoleDb.pending (db : RoleDb) (dirty : List Assignment) : List UserRole :=
  dirty.filterMap fun a =>
    if db.hasChanges a then a.roleId.map fun roleId => ⟨a.userId, roleId, none⟩ else none

/-- Model of `_mirror_user_role_id_changes` (line 1182). -/
def RoleDb.mirrorUserRoleIdChanges (db : RoleDb) (dirty : List Assignment) : Except Exn RoleDb :=
  (db.pending dirty).foldlM RoleDb.insertUserRole db

/-- `UPDATE users SET role_id`: not null, and the id of a role. -/
def RoleDb.writeRoleId (db : RoleDb) (a : Assignment) : Except Exn RoleDb :=
  match a.roleId with
  | none => .error .integrityError
  | some roleId =>
    if (db.roles.get? roleId).isSome then
      .ok { db with users := db.users.modify a.userId fun user => { user with roleId } }
    else .error .integrityError

/-- A flush: the listener, then the rows. -/
def RoleDb.flush (db : RoleDb) (dirty : List Assignment) : Except Exn RoleDb := do
  let db ← db.mirrorUserRoleIdChanges dirty
  dirty.foldlM RoleDb.writeRoleId db

/-! ## The service -/

abbrev RoleService (α : Type) := Svc Session Exn α

/-- `session.flush()`. -/
def flushSession : RoleService Unit := do
  let s ← get
  let db ← Svc.lift (s.db.flush s.dirty)
  modify fun _ => ⟨db, []⟩

/-- The query of `_resolve_role_id`. -/
def RoleDb.roleIdOf (db : RoleDb) (slug : String) : Option (Option ℕ) :=
  (Store.scalarOneOrNone (db.roles.select fun _ role => role.slug = slug)).map (Option.map Prod.fst)

/-- Model of `_resolve_role_id` (line 57). -/
def resolveRoleId (slug : String) : RoleService ℕ := do
  flushSession
  let s ← get
  let found ← Svc.expect (s.db.roleIdOf slug) .multipleResultsFound
  Svc.expect found (.httpException 404 s!"Unknown role slug: {slug}")

/-- Model of `grant` (line 64). -/
def grant (userId : ℕ) (roleSlug : String) (grantedBy : Option ℕ) : RoleService Unit := do
  let roleId ← resolveRoleId roleSlug
  let s ← get
  let db ← Svc.lift (s.db.insertUserRole { userId, roleId, grantedBy })
  modify fun s => { s with db }
  flushSession

/-- The answer to a revoke of the primary role (lines 89–95). -/
def primaryRoleError (roleSlug : String) : Exn :=
  .httpException 409 (s!"Cannot revoke '{roleSlug}' — it is the user's primary role. " ++
    "Change the primary role first.")

/-- Model of `revoke` (line 83). The query has flushed, so `user.role_id` is the
    stored value. -/
def revoke (userId : ℕ) (roleSlug : String) : RoleService Unit := do
  let roleId ← resolveRoleId roleSlug
  let s ← get
  Svc.require ((s.db.users.get? userId).map User.roleId ≠ some roleId) (primaryRoleError roleSlug)
  -- a missing row (`grant_row is None`) deletes nothing
  modify fun s => { s with db := s.db.deleteUserRole (userId, roleId) }
  flushSession

/-- Model of `set_primary_role` (line 107). -/
def setPrimaryRole (userId : ℕ) (roleSlug : String) (grantedBy : Option ℕ) :
    RoleService Unit := do
  let roleId ← resolveRoleId roleSlug
  modify fun s => s.assign { userId, roleId := some roleId, loaded := true }
  grant userId roleSlug grantedBy

/-- The calls. `assign` is code that assigns primary roles and flushes. -/
inductive RoleOp
  | grant (userId : ℕ) (roleSlug : String) (grantedBy : Option ℕ)
  | revoke (userId : ℕ) (roleSlug : String)
  | setPrimaryRole (userId : ℕ) (roleSlug : String) (grantedBy : Option ℕ)
  | assign (changes : List Assignment)

def RoleOp.service : RoleOp → RoleService Unit
  | grant userId roleSlug grantedBy => RoleMirror.grant userId roleSlug grantedBy
  | revoke userId roleSlug => RoleMirror.revoke userId roleSlug
  | setPrimaryRole userId roleSlug grantedBy =>
    RoleMirror.setPrimaryRole userId roleSlug grantedBy
  | assign changes => do
    modify fun s => changes.foldl Session.assign s
    flushSession

/-- One call in a session of its own: the answer and the database it leaves. -/
def RoleDb.request (db : RoleDb) (op : RoleOp) : Except Exn Unit × RoleDb :=
  ((Svc.request (fun before _ => before) op.service ⟨db, []⟩).1,
    (Svc.request (fun before _ => before) op.service ⟨db, []⟩).2.db)

def RoleDb.step (db : RoleDb) (op : RoleOp) : RoleDb := (db.request op).2

/-! ## The property -/

/-- `users.role_id`. -/
def RoleDb.primary (db : RoleDb) (userId : ℕ) : Option ℕ := (db.users.get? userId).map User.roleId

/-- The join table has the role of the user. -/
def RoleDb.Holds (db : RoleDb) (userId roleId : ℕ) : Prop :=
  (userId, roleId) ∈ db.userRoles.rows.map UserRole.key

/-- The user exists and its primary role is in the join table. -/
def RoleDb.Mirrored (db : RoleDb) (userId : ℕ) : Prop :=
  ∃ roleId, db.primary userId = some roleId ∧ db.Holds userId roleId

/-- `slug` is the slug of the role. -/
def RoleDb.Names (db : RoleDb) (slug : String) (roleId : ℕ) : Prop :=
  db.roleIdOf slug = some (some roleId)

/-- The call grants the role, or leaves it the primary role. -/
def Acquires (userId roleId : ℕ) (db : RoleDb) (op : RoleOp) : Prop :=
  (∃ slug grantedBy, op = .grant userId slug grantedBy ∧ db.Names slug roleId ∧
    (db.request op).1 = .ok ()) ∨
  (db.step op).primary userId = some roleId

/-- The call is a revoke of the role that goes through. -/
def Revokes (userId roleId : ℕ) (db : RoleDb) (op : RoleOp) : Prop :=
  ∃ slug, op = .revoke userId slug ∧ db.Names slug roleId ∧ (db.request op).1 = .ok ()

/-- The role was held at the start, granted or made primary, and not revoked since. -/
def HeldSince (db : RoleDb) (ops : List RoleOp) (userId roleId : ℕ) : Prop :=
  (db.Holds userId roleId ∧
      AllSteps RoleDb.step (fun db op => ¬ Revokes userId roleId db op) db ops) ∨
    Since RoleDb.step (Acquires userId roleId) (Revokes userId roleId) db ops

/-! ## What a flush does -/

variable {db db' : RoleDb} {userId roleId : ℕ}

/-- An insert adds its pair and nothing else. -/
theorem insertUserRole_ok {g : UserRole} (h : db.insertUserRole g = .ok db') :
    db'.roles = db.roles ∧ db'.users = db.users ∧
      ∀ u r, db'.Holds u r ↔ db.Holds u r ∨ (u, r) = g.key := by
  unfold RoleDb.insertUserRole at h
  split_ifs at h with hmem hfk
  · cases h
    refine ⟨rfl, rfl, fun u r => ?_⟩
    constructor
    · exact .inl
    · rintro (hold | heq)
      · exact hold
      · rw [RoleDb.Holds, heq]
        exact hmem
  · cases h
    exact ⟨rfl, rfl, fun u r => KeyedRows.taken_insertIfAbsent⟩

theorem insertAll_ok {rows : List UserRole} (h : rows.foldlM RoleDb.insertUserRole db = .ok db') :
    db'.roles = db.roles ∧ db'.users = db.users ∧
      ∀ u r, db'.Holds u r ↔ db.Holds u r ∨ ∃ g ∈ rows, (u, r) = g.key := by
  induction rows generalizing db with
  | nil =>
    cases h
    simp
  | cons g rows ih =>
    obtain ⟨db₁, hone, hrest⟩ := foldlM_cons_eq_ok.mp h
    obtain ⟨hroles, husers, hholds⟩ := insertUserRole_ok hone
    obtain ⟨hroles', husers', hholds'⟩ := ih hrest
    refine ⟨hroles'.trans hroles, husers'.trans husers, fun u r => ?_⟩
    rw [hholds', hholds, List.exists_mem_cons_iff, or_assoc]

/-- An update writes a role. -/
theorem writeRoleId_ok {a : Assignment} (h : db.writeRoleId a = .ok db') :
    db'.roles = db.roles ∧ db'.userRoles = db.userRoles ∧
      ∃ r, a.roleId = some r ∧
        ∀ u, db'.primary u = if u = a.userId then (db.primary u).map fun _ => r
          else db.primary u := by
  unfold RoleDb.writeRoleId at h
  cases hr : a.roleId with
  | none => simp [hr] at h
  | some r =>
    simp only [hr] at h
    split_ifs at h with hrole
    cases h
    refine ⟨rfl, rfl, r, rfl, fun u => ?_⟩
    simp only [RoleDb.primary, Store.get?_modify]
    split_ifs with hu
    · subst hu
      cases db.users.get? a.userId <;> rfl
    · rfl

/-- The updates of a flush: the last assignment of a user counts. -/
theorem writeAll_ok {dirty : List Assignment} (hnd : (dirty.map Assignment.userId).Nodup)
    (h : dirty.foldlM RoleDb.writeRoleId db = .ok db') :
    db'.roles = db.roles ∧ db'.userRoles = db.userRoles ∧
      (∀ a ∈ dirty, ∃ r, a.roleId = some r ∧
        db'.primary a.userId = (db.primary a.userId).map fun _ => r) ∧
      ∀ u, (∀ a ∈ dirty, a.userId ≠ u) → db'.primary u = db.primary u := by
  induction dirty generalizing db with
  | nil =>
    cases h
    simp
  | cons a dirty ih =>
    rw [List.map_cons, List.nodup_cons] at hnd
    obtain ⟨db₁, hone, hrest⟩ := foldlM_cons_eq_ok.mp h
    obtain ⟨hroles, hrows, r, hr, hprimary⟩ := writeRoleId_ok hone
    obtain ⟨hroles', hrows', hwritten, hkept⟩ := ih hnd.2 hrest
    have hnotin : ∀ b ∈ dirty, b.userId ≠ a.userId := fun b hb heq =>
      hnd.1 (heq ▸ List.mem_map_of_mem hb)
    refine ⟨hroles'.trans hroles, hrows'.trans hrows, ?_, fun u hu => ?_⟩
    · intro b hb
      rcases List.mem_cons.mp hb with rfl | hb
      · exact ⟨r, hr, by rw [hkept _ hnotin, hprimary, if_pos rfl]⟩
      · obtain ⟨r', hr', hb'⟩ := hwritten b hb
        exact ⟨r', hr', by rw [hb', hprimary, if_neg (hnotin b hb)]⟩
    · have hua : u ≠ a.userId := fun heq => hu a List.mem_cons_self heq.symm
      rw [hkept u fun b hb => hu b (List.mem_cons_of_mem a hb), hprimary, if_neg hua]

theorem mem_pending {dirty : List Assignment} {g : UserRole} :
    g ∈ db.pending dirty ↔ ∃ a ∈ dirty, db.hasChanges a = true ∧ a.roleId = some g.roleId ∧
      a.userId = g.userId ∧ g.grantedBy = none := by
  unfold RoleDb.pending
  rw [List.mem_filterMap]
  refine exists_congr fun a => and_congr_right fun _ => ?_
  constructor
  · intro h
    split_ifs at h with hc
    obtain ⟨r, hr, rfl⟩ := Option.map_eq_some_iff.mp h
    exact ⟨hc, hr, rfl, rfl⟩
  · rintro ⟨hc, hr, hu, hby⟩
    rw [if_pos hc, hr, hu, ← hby]
    rfl

/-- After a flush the user's primary role is the one assigned, and the user holds what
    it held and that role. -/
theorem flush_ok {dirty : List Assignment} (hnd : (dirty.map Assignment.userId).Nodup)
    (hm : db.Mirrored userId) (h : db.flush dirty = .ok db') :
    db'.roles = db.roles ∧ ∃ r, db'.primary userId = some r ∧
      (∀ a ∈ dirty, a.userId = userId → a.roleId = some r) ∧
      ∀ roleId, db'.Holds userId roleId ↔ db.Holds userId roleId ∨ roleId = r := by
  obtain ⟨r₀, hr₀, hheld⟩ := hm
  unfold RoleDb.flush RoleDb.mirrorUserRoleIdChanges at h
  obtain ⟨db₁, hins, hwrite⟩ := except_bind_eq_ok.mp h
  obtain ⟨hroles, husers, hholds⟩ := insertAll_ok hins
  obtain ⟨hroles', hrows, hwritten, hkept⟩ := writeAll_ok hnd hwrite
  have hsame : ∀ u, db₁.primary u = db.primary u := fun u => by
    unfold RoleDb.primary
    rw [husers]
  have hholds' : ∀ roleId, db'.Holds userId roleId ↔ db.Holds userId roleId ∨
      ∃ g ∈ db.pending dirty, (userId, roleId) = g.key := fun roleId => by
    rw [← hholds]
    unfold RoleDb.Holds
    rw [hrows]
  refine ⟨hroles'.trans hroles, ?_⟩
  by_cases hd : ∃ a ∈ dirty, a.userId = userId
  · obtain ⟨a, ha, rfl⟩ := hd
    obtain ⟨r, hr, hp⟩ := hwritten a ha
    rw [hsame, hr₀] at hp
    have honly : ∀ b ∈ dirty, b.userId = a.userId → b = a := fun b hb hu =>
      List.inj_on_of_nodup_map hnd hb ha hu
    refine ⟨r, hp, fun b hb hu => honly b hb hu ▸ hr, fun roleId => ?_⟩
    rw [hholds']
    constructor
    · rintro (hold | ⟨g, hg, hkey⟩)
      · exact .inl hold
      · obtain ⟨b, hb, -, hbr, hbu, -⟩ := mem_pending.mp hg
        obtain ⟨hu, hrole⟩ := Prod.mk.inj hkey
        obtain rfl := honly b hb (hbu.trans hu.symm)
        exact .inr (hrole.trans (Option.some.inj (hbr.symm.trans hr)))
    · rintro (hold | rfl)
      · exact .inl hold
      · by_cases hc : db.hasChanges a = true
        · exact .inr ⟨⟨a.userId, roleId, none⟩, mem_pending.mpr ⟨a, ha, hc, hr, rfl, rfl⟩, rfl⟩
        · -- assigned to what it was
          have hunchanged : db.primary a.userId = a.roleId := by
            have hc' : db.hasChanges a = false := by simpa using hc
            unfold RoleDb.hasChanges at hc'
            unfold RoleDb.primary
            simpa using (Bool.or_eq_false_iff.mp hc').2
          have heq : r₀ = roleId := by
            rw [hr₀, hr] at hunchanged
            exact Option.some.inj hunchanged
          exact .inl (heq ▸ hheld)
  · have hclean : ∀ a ∈ dirty, a.userId ≠ userId := fun a ha heq => hd ⟨a, ha, heq⟩
    refine ⟨r₀, by rw [hkept userId hclean, hsame, hr₀],
      fun a ha heq => absurd heq (hclean a ha), fun roleId => ?_⟩
    rw [hholds']
    constructor
    · rintro (hold | ⟨g, hg, hkey⟩)
      · exact .inl hold
      · obtain ⟨b, hb, -, -, hbu, -⟩ := mem_pending.mp hg
        exact absurd (hbu.trans (Prod.mk.inj hkey).1.symm) (hclean b hb)
    · rintro (hold | rfl)
      · exact .inl hold
      · exact .inl hheld

@[simp] theorem flush_nil (db : RoleDb) : db.flush [] = .ok db := rfl

/-- The session has one assignment a user. -/
theorem nodup_assign {s : Session} (h : (s.dirty.map Assignment.userId).Nodup) (a : Assignment) :
    ((s.assign a).dirty.map Assignment.userId).Nodup := by
  unfold Session.assign
  rw [List.map_append]
  refine nodup_append_one.mpr ⟨h.sublist (List.filter_sublist.map _), ?_⟩
  simp

theorem nodup_assignAll (changes : List Assignment) {s : Session}
    (h : (s.dirty.map Assignment.userId).Nodup) :
    ((changes.foldl Session.assign s).dirty.map Assignment.userId).Nodup := by
  induction changes generalizing s with
  | nil => exact h
  | cons a changes ih => exact ih (nodup_assign h a)

theorem assignAll_db (changes : List Assignment) (s : Session) :
    (changes.foldl Session.assign s).db = s.db := by
  induction changes generalizing s with
  | nil => rfl
  | cons a changes ih => exact ih (s.assign a)

/-! ## What a call does -/

theorem returns_flushSession {s s' : Session} {u : Unit} :
    Svc.Returns flushSession s u s' ↔ ∃ db, s.db.flush s.dirty = .ok db ∧ s' = ⟨db, []⟩ := by
  simp only [flushSession, Svc.returns_bind, Svc.returns_get, Svc.returns_lift,
    Svc.returns_modify]
  constructor
  · rintro ⟨_, _, ⟨rfl, rfl⟩, db, _, ⟨h, rfl⟩, rfl⟩
    exact ⟨db, h, rfl⟩
  · rintro ⟨db, h, rfl⟩
    exact ⟨s, s, ⟨rfl, rfl⟩, db, s, ⟨h, rfl⟩, rfl⟩

theorem returns_resolveRoleId {slug : String} {s s' : Session} :
    Svc.Returns (resolveRoleId slug) s roleId s' ↔
      ∃ db, s.db.flush s.dirty = .ok db ∧ db.Names slug roleId ∧ s' = ⟨db, []⟩ := by
  simp only [resolveRoleId, Svc.returns_bind (m := flushSession), returns_flushSession,
    Svc.returns_get_bind, Svc.returns_expect_bind, Svc.returns_expect]
  constructor
  · rintro ⟨_, _, ⟨db, hf, rfl⟩, _, hn, rfl, rfl⟩
    exact ⟨db, hf, hn, rfl⟩
  · rintro ⟨db, hf, hn, rfl⟩
    exact ⟨(), _, ⟨db, hf, rfl⟩, _, hn, rfl, rfl⟩

theorem returns_grant {slug : String} {grantedBy : Option ℕ} {s s' : Session} {u : Unit} :
    Svc.Returns (grant userId slug grantedBy) s u s' ↔
      ∃ db roleId db', s.db.flush s.dirty = .ok db ∧ db.Names slug roleId ∧
        db.insertUserRole ⟨userId, roleId, grantedBy⟩ = .ok db' ∧ s' = ⟨db', []⟩ := by
  simp only [grant, Svc.returns_bind, Svc.returns_get, returns_resolveRoleId, Svc.returns_lift,
    Svc.returns_modify, returns_flushSession]
  constructor
  · rintro ⟨roleId, _, ⟨db, hf, hn, rfl⟩, _, _, ⟨rfl, rfl⟩, db', _, ⟨hi, rfl⟩, _, _, rfl, _, hf',
      rfl⟩
    cases hf'
    exact ⟨db, roleId, db', hf, hn, hi, rfl⟩
  · rintro ⟨db, roleId, db', hf, hn, hi, rfl⟩
    exact ⟨roleId, _, ⟨db, hf, hn, rfl⟩, _, _, ⟨rfl, rfl⟩, db', _, ⟨hi, rfl⟩, ⟨⟩, _, rfl, db', rfl,
      rfl⟩

theorem returns_revoke {slug : String} {u : Unit} {s' : Session} :
    Svc.Returns (revoke userId slug) ⟨db, []⟩ u s' ↔
      ∃ roleId, db.Names slug roleId ∧ db.primary userId ≠ some roleId ∧
        s' = ⟨db.deleteUserRole (userId, roleId), []⟩ := by
  simp only [revoke, Svc.returns_bind, Svc.returns_get, returns_resolveRoleId, Svc.returns_require,
    Svc.returns_modify, returns_flushSession]
  constructor
  · rintro ⟨roleId, _, ⟨_, hf, hn, rfl⟩, _, _, ⟨rfl, rfl⟩, _, _, ⟨hne, rfl⟩, _, _, rfl, _, hf', rfl⟩
    cases hf
    cases hf'
    exact ⟨roleId, hn, hne, rfl⟩
  · rintro ⟨roleId, hn, hne, rfl⟩
    exact ⟨roleId, _, ⟨db, rfl, hn, rfl⟩, _, _, ⟨rfl, rfl⟩, (), _, ⟨hne, rfl⟩, ⟨⟩, _, rfl, _, rfl,
      rfl⟩

theorem returns_setPrimaryRole {slug : String} {grantedBy : Option ℕ} {u : Unit} {s' : Session} :
    Svc.Returns (setPrimaryRole userId slug grantedBy) ⟨db, []⟩ u s' ↔
      ∃ roleId, db.Names slug roleId ∧
        Svc.Returns (grant userId slug grantedBy) ⟨db, [⟨userId, some roleId, true⟩]⟩ u s' := by
  simp only [setPrimaryRole, Svc.returns_bind (m := resolveRoleId slug), returns_resolveRoleId,
    Svc.returns_modify_bind]
  constructor
  · rintro ⟨roleId, _, ⟨_, hf, hn, rfl⟩, hg⟩
    cases hf
    exact ⟨roleId, hn, hg⟩
  · rintro ⟨roleId, hn, hg⟩
    exact ⟨roleId, _, ⟨db, rfl, hn, rfl⟩, hg⟩

theorem returns_assign {changes : List Assignment} {u : Unit} {s' : Session} :
    Svc.Returns (RoleOp.assign changes).service ⟨db, []⟩ u s' ↔
      ∃ db', db.flush (changes.foldl Session.assign ⟨db, []⟩).dirty = .ok db' ∧
        s' = ⟨db', []⟩ := by
  simp only [RoleOp.service, Svc.returns_modify_bind, returns_flushSession, assignAll_db]

/-- A call returns, or it raises and leaves the database. -/
theorem request_cases (db : RoleDb) (op : RoleOp) :
    (∃ s', Svc.Returns op.service ⟨db, []⟩ () s' ∧ db.request op = (.ok (), s'.db)) ∨
      ∃ e, db.request op = (.error e, db) := by
  rcases Svc.request_cases (fun before _ => before) op.service ⟨db, []⟩ with
    ⟨⟨⟩, s', hret, heq⟩ | ⟨e, s', -, heq⟩
  · exact .inl ⟨s', hret, by simp [RoleDb.request, heq]⟩
  · exact .inr ⟨e, by simp [RoleDb.request, heq]⟩

section Calls

variable {u : ℕ} {slug : String} {grantedBy : Option ℕ} {s' : Session}

/-- A grant adds its pair. -/
theorem grant_holds (h : Svc.Returns (grant u slug grantedBy) ⟨db, []⟩ () s') :
    s'.db.primary userId = db.primary userId ∧ ∃ r, db.Names slug r ∧
      ∀ roleId, s'.db.Holds userId roleId ↔ db.Holds userId roleId ∨ (userId, roleId) = (u, r) := by
  obtain ⟨db₁, r, db₂, hf, hn, hi, rfl⟩ := returns_grant.mp h
  cases hf
  obtain ⟨-, husers, hholds⟩ := insertUserRole_ok hi
  refine ⟨?_, r, hn, fun roleId => hholds userId roleId⟩
  rw [RoleDb.primary, husers]
  rfl

/-- A revocation deletes its pair, which is not that of the primary role. -/
theorem revoke_holds (h : Svc.Returns (revoke u slug) ⟨db, []⟩ () s') :
    s'.db.primary userId = db.primary userId ∧ ∃ r, db.Names slug r ∧ db.primary u ≠ some r ∧
      ∀ roleId, s'.db.Holds userId roleId ↔ db.Holds userId roleId ∧ (userId, roleId) ≠ (u, r) := by
  obtain ⟨r, hn, hne, rfl⟩ := returns_revoke.mp h
  exact ⟨rfl, r, hn, hne, fun roleId => KeyedRows.taken_delete⟩

/-- After a change of a primary role the user holds what it held and its primary role: the
    row that `grant` inserts is the one of the listener. -/
theorem setPrimaryRole_holds (hm : db.Mirrored userId)
    (h : Svc.Returns (setPrimaryRole u slug grantedBy) ⟨db, []⟩ () s') :
    ∃ p, s'.db.primary userId = some p ∧
      ∀ roleId, s'.db.Holds userId roleId ↔ db.Holds userId roleId ∨ roleId = p := by
  obtain ⟨r, hn, hg⟩ := returns_setPrimaryRole.mp h
  obtain ⟨db₁, r', db₂, hf, hn', hi, rfl⟩ := returns_grant.mp hg
  obtain ⟨hroles, p, hp, hassigned, hholds₁⟩ := flush_ok (by simp) hm hf
  obtain ⟨-, husers, hholds⟩ := insertUserRole_ok hi
  have hrr : r' = r := by
    unfold RoleDb.Names RoleDb.roleIdOf at hn hn'
    rw [hroles, hn] at hn'
    simpa using hn'.symm
  subst hrr
  refine ⟨p, by simpa [RoleDb.primary, husers] using hp, fun roleId => ?_⟩
  have hagain : (userId, roleId) = (u, r') → roleId = p := by
    intro heq
    obtain ⟨rfl, rfl⟩ := Prod.mk.inj heq
    exact Option.some.inj (hassigned _ List.mem_cons_self rfl)
  rw [hholds, hholds₁]
  exact or_iff_left_of_imp fun heq => .inr (hagain heq)

/-- A flush of assignments. -/
theorem assign_holds {changes : List Assignment} (hm : db.Mirrored userId)
    (h : Svc.Returns (RoleOp.assign changes).service ⟨db, []⟩ () s') :
    ∃ p, s'.db.primary userId = some p ∧
      ∀ roleId, s'.db.Holds userId roleId ↔ db.Holds userId roleId ∨ roleId = p := by
  obtain ⟨db₁, hf, rfl⟩ := returns_assign.mp h
  have hnd := nodup_assignAll changes (s := ⟨db, []⟩) List.nodup_nil
  obtain ⟨-, p, hp, -, hholds⟩ := flush_ok hnd hm hf
  exact ⟨p, hp, hholds⟩

/-- What the user holds after a call that returns, and its primary role. -/
theorem returns_holds {op : RoleOp} (hm : db.Mirrored userId)
    (h : Svc.Returns op.service ⟨db, []⟩ () s') :
    ∃ p, s'.db.primary userId = some p ∧ ∀ roleId, s'.db.Holds userId roleId ↔
      ((∃ slug grantedBy, op = .grant userId slug grantedBy ∧ db.Names slug roleId) ∨
          roleId = p) ∨
        (db.Holds userId roleId ∧ ¬ ∃ slug, op = .revoke userId slug ∧ db.Names slug roleId) := by
  obtain ⟨p, hp, hheld⟩ := id hm
  cases op with
  | grant u slug grantedBy =>
    obtain ⟨hprimary, r, hn, hholds⟩ := grant_holds h
    refine ⟨p, hprimary.trans hp, fun roleId => ?_⟩
    rw [hholds]
    constructor
    · rintro (hold | heq)
      · exact .inr ⟨hold, by simp⟩
      · obtain ⟨rfl, rfl⟩ := Prod.mk.inj heq
        exact .inl (.inl ⟨slug, grantedBy, rfl, hn⟩)
    · rintro ((⟨_, _, heq, hn'⟩ | rfl) | ⟨hold, -⟩)
      · cases heq
        rw [RoleDb.Names] at hn hn'
        cases hn.symm.trans hn'
        exact .inr rfl
      · exact .inl hheld
      · exact .inl hold
  | revoke u slug =>
    obtain ⟨hprimary, r, hn, hne, hholds⟩ := revoke_holds h
    refine ⟨p, hprimary.trans hp, fun roleId => ?_⟩
    rw [hholds]
    constructor
    · rintro ⟨hold, hkey⟩
      refine .inr ⟨hold, ?_⟩
      rintro ⟨_, heq, hn'⟩
      cases heq
      cases hn.symm.trans hn'
      exact hkey rfl
    · rintro ((⟨_, _, heq, -⟩ | rfl) | ⟨hold, hrev⟩)
      · cases heq
      · refine ⟨hheld, fun hkey => ?_⟩
        obtain ⟨rfl, rfl⟩ := Prod.mk.inj hkey
        exact hne hp
      · refine ⟨hold, fun hkey => ?_⟩
        obtain ⟨rfl, rfl⟩ := Prod.mk.inj hkey
        exact hrev ⟨slug, rfl, hn⟩
  | setPrimaryRole u slug grantedBy =>
    obtain ⟨p', hp', hholds⟩ := setPrimaryRole_holds hm h
    refine ⟨p', hp', fun roleId => ?_⟩
    rw [hholds]
    simp [or_comm]
  | assign changes =>
    obtain ⟨p', hp', hholds⟩ := assign_holds hm h
    refine ⟨p', hp', fun roleId => ?_⟩
    rw [hholds]
    simp [or_comm]

end Calls

/-- A mirrored user stays mirrored, and holds what the call acquires and what it held
    and the call does not revoke. -/
theorem step_spec (op : RoleOp) (hm : db.Mirrored userId) :
    (db.step op).Mirrored userId ∧ ∀ roleId, (db.step op).Holds userId roleId ↔
      Acquires userId roleId db op ∨ (db.Holds userId roleId ∧ ¬ Revokes userId roleId db op) := by
  rcases request_cases db op with ⟨s', hret, heq⟩ | ⟨e, heq⟩
  · obtain ⟨p, hp, hholds⟩ := returns_holds hm hret
    have hstep : db.step op = s'.db := by rw [RoleDb.step, heq]
    refine ⟨⟨p, by rw [hstep, hp], ?_⟩, fun roleId => ?_⟩
    · rw [hstep]
      exact (hholds p).mpr (.inl (.inr rfl))
    · simp [Acquires, Revokes, hstep, hholds, heq, hp, eq_comm]
  · have hstep : db.step op = db := by rw [RoleDb.step, heq]
    rw [hstep]
    refine ⟨hm, fun roleId => ?_⟩
    obtain ⟨p, hp, hheld⟩ := hm
    have hnoRevoke : ¬ Revokes userId roleId db op := by simp [Revokes, heq]
    have hacquires : Acquires userId roleId db op ↔ roleId = p := by
      simp [Acquires, heq, hstep, hp, eq_comm]
    rw [hacquires]
    constructor
    · exact fun hold => .inr ⟨hold, hnoRevoke⟩
    · rintro (rfl | ⟨hold, -⟩)
      · exact hheld
      · exact hold

theorem RoleDb.Mirrored.step (op : RoleOp) (hm : db.Mirrored userId) :
    (db.step op).Mirrored userId :=
  (step_spec op hm).1

theorem holds_step_iff (op : RoleOp) (hm : db.Mirrored userId) :
    (db.step op).Holds userId roleId ↔
      Acquires userId roleId db op ∨ (db.Holds userId roleId ∧ ¬ Revokes userId roleId db op) :=
  (step_spec op hm).2 roleId

/-- A revoke of the primary role is refused and writes nothing. -/
theorem request_revoke_primary {slug : String} (hp : db.primary userId = some roleId)
    (hn : db.Names slug roleId) :
    db.request (.revoke userId slug) = (.error (primaryRoleError slug), db) := by
  have hraises : Svc.Raises (revoke userId slug) ⟨db, []⟩ (primaryRoleError slug) := by
    have hresolve := returns_resolveRoleId (s := ⟨db, []⟩).mpr ⟨db, flush_nil db, hn, rfl⟩
    simp only [revoke, Svc.raises_bind, Svc.raises_require]
    refine .inr ⟨roleId, _, hresolve, .inr ⟨_, _, Svc.returns_get.mpr ⟨rfl, rfl⟩, .inl
      ⟨?_, trivial⟩⟩⟩
    exact not_not.mpr hp
  have herr : (db.request (.revoke userId slug)).1 = .error (primaryRoleError slug) :=
    Svc.request_error_iff.mpr hraises
  rcases request_cases db (.revoke userId slug) with ⟨s', -, heq⟩ | ⟨e, heq⟩
  · rw [heq] at herr
    cases herr
  · rw [heq] at herr ⊢
    cases herr
    rfl

/-! ## Runs -/

theorem role_mirror (db : RoleDb) (userId : ℕ) (hm : db.Mirrored userId) (ops : List RoleOp) :
    (run RoleDb.step db ops).Mirrored userId ∧
    ((run RoleDb.step db ops).userRoles.rows.map UserRole.key).Nodup ∧
    (∀ roleId, (run RoleDb.step db ops).Holds userId roleId ↔ HeldSince db ops userId roleId) ∧
    ∀ slug roleId, (run RoleDb.step db ops).primary userId = some roleId →
      (run RoleDb.step db ops).Names slug roleId →
      (run RoleDb.step db ops).request (.revoke userId slug) =
        (.error (primaryRoleError slug), run RoleDb.step db ops) := by
  refine ⟨?_, KeyedRows.nodup _, fun roleId => ?_, fun slug roleId => request_revoke_primary⟩
  · exact run_induction (P := fun db : RoleDb => db.Mirrored userId)
      (fun db op h => h.step op) hm ops
  · exact run_iff_since (I := fun db : RoleDb => db.Mirrored userId)
      (H := fun db : RoleDb => db.Holds userId roleId) (fun db op h => h.step op)
      (fun db op h => holds_step_iff op h) hm ops

/-- A customer is made a sales rep, loses the customer role and cannot lose the new
    one. -/
theorem role_mirror_customer :
    let db : RoleDb :=
      { roles := (Store.empty.create ⟨"customer"⟩).create ⟨"sales"⟩
        users := Store.empty.create ⟨0⟩
        userRoles := ⟨[⟨0, 0, none⟩], by decide⟩ }
    let ops : List RoleOp := [.setPrimaryRole 0 "sales" none, .revoke 0 "customer"]
    (run RoleDb.step db ops).Mirrored 0 ∧ (run RoleDb.step db ops).primary 0 = some 1 ∧
      (run RoleDb.step db ops).request (.revoke 0 "sales") =
        (.error (primaryRoleError "sales"), run RoleDb.step db ops) := by
  intro db ops
  have hm : db.Mirrored 0 := ⟨0, rfl, List.mem_cons_self⟩
  have hp : (run RoleDb.step db ops).primary 0 = some 1 := by decide +kernel
  have hn : (run RoleDb.step db ops).Names "sales" 1 := by
    unfold RoleDb.Names
    decide +kernel
  obtain ⟨hmirrored, -, -, hrefused⟩ := role_mirror db 0 hm ops
  exact ⟨hmirrored, hp, hrefused "sales" 1 hp hn⟩

end TempleConsign.RoleMirror
