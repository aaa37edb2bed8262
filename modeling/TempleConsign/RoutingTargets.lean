import TempleConsign.RoutingOrder
import TempleConsign.RoutingPriorities

/-!
# Who routing assigns to

A routing rule names its user in a column, a round-robin rule its reps in a list, and
`app_config` the default rep. The role of the column's user is checked when the rule is
written; the status is not checked, and neither are the reps and the default rep. A
deactivation (`src/api/services/admin_user_service.py`) leaves rules and config as they
are, and the waterfall takes the users as they are named.

Runs contain the writes to rules, the config, the accounts and the intakes. Records and
calendars only matter to whether a deactivation succeeds; `work` replaces them.

Results:
* `routed_named`: the waterfall assigns only to users that a live enabled rule or the
  config names.
* `routed_able_of_steps`: where every step names only users who can work and none who is
  named is disabled, every intake in every state goes to a user who can work.
* `deactivated_rep_gets_lead`: a rule's user is deactivated and gets the next lead.
-/

namespace TempleConsign.LeadRouting

open ServiceLib

/-! ## The config key -/

/-- `_validate_uuid_or_none` (`src/api/services/app_config_registry.py` line 176). -/
def validUuidOrNone (env : RoutingEnv) : Json → Bool
  | .null => true
  | .str s => (env.uuidOf s).isSome
  | _ => false

/-- `set_typed` (line 120) for `default_sales_rep_id`. -/
def setDefaultSalesRep (env : RoutingEnv) (typedValue : Json) : RoutingService Unit := do
  Svc.require (validUuidOrNone env typedValue = true) .valueError
  modify fun db => { db with defaultSalesRepId := some (.obj [("user_id", typedValue)]) }

/-! ## Runs -/

/-- A new account. -/
def register (s : Roster) (user : User) (status : AccountStatus) : Roster :=
  { s with
    db := { s.db with users := s.db.users.create user }
    userStatus := Function.update s.userStatus s.db.users.next status }

/-- A write to an account: its roles, or its status. -/
def setAccount (s : Roster) (userId : ℕ) (user : User) (status : AccountStatus) : Roster :=
  { s with
    db := { s.db with users := s.db.users.modify userId fun _ => user }
    userStatus := Function.update s.userStatus userId status }

/-- Writes to records and calendars. -/
def setWork (s : Roster) (tables : Db)
    (assignedSalesRepId assignedAppraiserId : ℕ → Option ℕ) : Roster where
  db := { tables with users := s.db.users }
  userStatus := s.userStatus
  assignedSalesRepId := assignedSalesRepId
  assignedAppraiserId := assignedAppraiserId

/-- What can happen between two intakes, and an intake with the order in which the database
    returns the rules. -/
inductive RoutingOp
  | createRule (creator : ℕ) (body : RoutingRuleCreate)
  | updateRule (emit : Emission) (ruleId : ℕ) (patch : RoutingRulePatch)
  | softDeleteRule (emit : Emission) (now : ℤ) (ruleId : ℕ)
  | reorderPriorities (emit : Emission) (ruleType : String) (orderedIds : List ℕ)
  | setDefaultSalesRep (typedValue : Json)
  | deactivateUser (now : ℤ) (actor userId : ℕ) (reassignToId : Option ℕ)
  | register (user : User) (status : AccountStatus)
  | setAccount (userId : ℕ) (user : User) (status : AccountStatus)
  | work (tables : Db) (assignedSalesRepId assignedAppraiserId : ℕ → Option ℕ)
  | intake (order : Emission) (customer : RoutedCustomer)

/-- The live enabled rules in some order. -/
def loadActiveRules (order : Emission) (db : RoutingDb) : List (ℕ × LeadRoutingRule) :=
  order.order (db.rules.select fun _ rule => rule.isLiveEnabled)

/-- One transaction: what it commits, or nothing. -/
def committed {α : Type} (m : RoutingService α) (db : RoutingDb) : RoutingDb :=
  (Svc.request (fun before _ => before) m db).2

/-- `_route_and_assign` (`src/api/services/equipment_service.py` line 156) logs what the
    waterfall raises. -/
def routingStep (env : RoutingSchema) (db : RoutingDb) : RoutingOp → RoutingDb
  | .createRule creator body => committed (createRule env creator body) db
  | .updateRule emit ruleId patch => committed (updateRule env emit ruleId patch) db
  | .softDeleteRule emit now ruleId => committed (softDeleteRule emit now ruleId) db
  | .reorderPriorities emit ruleType orderedIds =>
    committed (reorderPriorities env emit ruleType orderedIds) db
  | .setDefaultSalesRep typedValue =>
    committed (setDefaultSalesRep env.toRoutingEnv typedValue) db
  | .deactivateUser now actor userId reassignToId =>
    { db with roster := (Svc.request (fun before _ => before)
        (Roster.deactivateUser now actor userId reassignToId) db.roster).2 }
  | .register user status => { db with roster := register db.roster user status }
  | .setAccount userId user status => { db with roster := setAccount db.roster userId user status }
  | .work tables assignedSalesRepId assignedAppraiserId =>
    { db with roster := setWork db.roster tables assignedSalesRepId assignedAppraiserId }
  | .intake order customer =>
    committed (Svc.attempt (routeForRecord env.toRoutingEnv (loadActiveRules order db) customer)) db

/-! ## The property -/

/-- The user exists, is active and has a role of `_require_sales_role`. -/
def RoutingDb.Able (db : RoutingDb) (reading : RoleReading) (userId : ℕ) : Prop :=
  db.roster.userStatus userId = .active ∧ db.roster.HasRole reading salesRoles userId

/-- Whatever order the rules come in and whoever submits, the assigned user can work. -/
def RoutesToAble (reading : RoleReading) (env : RoutingEnv) (db : RoutingDb) : Prop :=
  ∀ rows, LoadsActiveRules db rows → ∀ customer decision db',
    Svc.Returns (routeForRecord env rows customer) db decision db' →
    ∀ userId ∈ decision.assignedUserId, db.Able reading userId

/-! ## The condition -/

/-- The users that a rule names: its reps, or its assignee. -/
def LeadRoutingRule.namedUsers (env : RoutingEnv) (rule : LeadRoutingRule) : List ℕ :=
  match rule.ruleType with
  | .roundRobin => roundRobinRepIds env rule
  | _ => rule.assignedUserId.toList

/-- A live enabled rule or the config names the user. -/
def RoutingDb.Names (env : RoutingEnv) (db : RoutingDb) (userId : ℕ) : Prop :=
  (∃ k rule, db.HasRule k rule ∧ userId ∈ rule.namedUsers env) ∨
    readDefaultSalesRep env db = some userId

/-- The row that a patch asks for. -/
def LeadRoutingRule.patched (rule : LeadRoutingRule) (patch : RoutingRulePatch) :
    LeadRoutingRule :=
  { rule with
    priority := (patch.priority.join.map Subtype.val).getD rule.priority
    conditions := patch.conditions.getD rule.conditions
    assignedUserId := patch.assignedUserId.getD rule.assignedUserId
    isActive := patch.isActive.join.getD rule.isActive }

/-- The operation names only users who can work, and takes status or role from no user
    who is named. -/
def NamesOnlyAble (reading : RoleReading) (env : RoutingSchema) (db : RoutingDb) :
    RoutingOp → Prop
  | .createRule creator body => body.isActive = true →
    ∀ ruleType, RuleType.ofValue? body.ruleType = some ruleType →
      ∀ u ∈ (newRule creator ruleType body).namedUsers env.toRoutingEnv, db.Able reading u
  | .updateRule _ ruleId patch => ∀ rule, db.rules.get? ruleId = some rule →
    (rule.patched patch).isLiveEnabled = true →
      ∀ u ∈ (rule.patched patch).namedUsers env.toRoutingEnv, db.Able reading u
  | .setDefaultSalesRep typedValue => ∀ u, env.uuidOf (env.str typedValue) = some u →
    db.Able reading u
  | .deactivateUser _ _ userId _ => ¬db.Names env.toRoutingEnv userId
  | .setAccount userId user status => db.Names env.toRoutingEnv userId →
    status = .active ∧ ∃ slug ∈ salesRoles, reading.holds user slug = true
  | _ => True

/-- Every named user can work. -/
def NamedAble (reading : RoleReading) (env : RoutingEnv) (db : RoutingDb) : Prop :=
  ∀ u, db.Names env u → db.Able reading u

/-- Rules, config and accounts where every named user can work. -/
structure AbleRouting (reading : RoleReading) (env : RoutingEnv) where
  db : RoutingDb
  able : NamedAble reading env db

/-! ## Whom the waterfall can assign -/

variable {reading : RoleReading} {env : RoutingSchema} {db db' : RoutingDb}

theorem mem_namedUsers {env : RoutingEnv} {rule : LeadRoutingRule} {u : ℕ} :
    u ∈ rule.namedUsers env ↔ (rule.ruleType = .roundRobin ∧ u ∈ roundRobinRepIds env rule) ∨
      (rule.ruleType ≠ .roundRobin ∧ rule.assignedUserId = some u) := by
  unfold LeadRoutingRule.namedUsers
  cases rule.ruleType with
  | adHoc => simp
  | geographic => simp
  | roundRobin => simp

/-- The waterfall assigns only to named users. -/
theorem routed_named {env : RoutingEnv} {rows : List (ℕ × LeadRoutingRule)}
    {customer : RoutedCustomer} {decision : RoutingDecision} (hrows : LoadsActiveRules db rows)
    (h : Svc.Returns (routeForRecord env rows customer) db decision db') {u : ℕ}
    (hu : decision.assignedUserId = some u) : db.Names env u := by
  have hassignee : ∀ {t k rule}, t ≠ .roundRobin → db.HasRule k rule → rule.ruleType = t →
      decideRule t k rule.assignedUserId = some decision → db.Names env u := by
    intro t k rule hne hrule ht hd
    obtain ⟨v, hv, rfl⟩ := decideRule_eq_some.mp hd
    obtain rfl := Option.some.inj hu
    have hnot : rule.ruleType ≠ .roundRobin := by
      rw [ht]
      exact hne
    exact .inl ⟨k, rule, hrule, mem_namedUsers.mpr (.inr ⟨hnot, hv⟩)⟩
  rcases routed_cases hrows h with hA | ⟨-, hG⟩ | hR | hF
  · obtain ⟨⟨k, rule⟩, hmem, hd⟩ := List.exists_of_findSome?_eq_some hA
    obtain ⟨hrule, ht⟩ := (mem_bucket_iff hrows).mp hmem
    exact hassignee (by simp) hrule ht (adHocStep_eq_some.mp hd).2
  · rw [findSomeM?_except] at hG
    cases hf : (byPriority (bucket .geographic rows)).find?
        fun row => stops (geographicStep env customer row) with
    | none =>
      rw [hf] at hG
      simp at hG
    | some row =>
      obtain ⟨k, rule⟩ := row
      rw [hf] at hG
      obtain ⟨hrule, ht⟩ :=
        (mem_bucket_iff hrows).mp (mem_byPriority.mp (List.mem_of_find?_eq_some hf))
      exact hassignee (by simp) hrule ht (geographicStep_eq_some.mp hG).2
  · rcases roundRobinPass_cases hrows hR with ⟨hnone, -⟩ | ⟨k, rule, v, hv, -, hrule, ht, hd, -⟩
    · cases hnone
    · obtain rfl := Option.some.inj hd
      obtain rfl := Option.some.inj hu
      exact .inl ⟨k, rule, hrule, mem_namedUsers.mpr (.inl ⟨ht, hv⟩)⟩
  · rw [(returns_fallback hF).1] at hu
    exact .inr hu

theorem assignedUser_eq_ok {env : RoutingEnv} {rows : List (ℕ × LeadRoutingRule)}
    {customer : RoutedCustomer} {o : Option ℕ} :
    assignedUser env db rows customer = .ok o ↔ ∃ decision db',
      Svc.Returns (routeForRecord env rows customer) db decision db' ∧
        decision.assignedUserId = o := by
  unfold assignedUser Svc.Returns
  match Svc.exec (routeForRecord env rows customer) db with
  | (.ok decision, db') => simp [Except.map]
  | (.error e, db') => simp [Except.map]

/-! ## What the operations write -/

/-- A transaction commits what it returned with, or nothing. -/
theorem committed_cases {α : Type} (m : RoutingService α) (db : RoutingDb) :
    committed m db = db ∨ ∃ a, Svc.Returns m db a (committed m db) := by
  unfold committed
  rcases Svc.request_cases (fun before _ => before) m db with ⟨a, s', h, hr⟩ | ⟨e, s', -, hr⟩
  · rw [hr]
    exact .inr ⟨a, h⟩
  · rw [hr]
    exact .inl rfl

/-- Nothing is written beside the row at the key. -/
structure SameBeside (k : ℕ) (db db' : RoutingDb) : Prop where
  roster : db'.roster = db.roster
  config : db'.defaultSalesRepId = db.defaultSalesRepId
  rows : ∀ j, j ≠ k → db'.rules.get? j = db.rules.get? j

theorem SameBeside.refl (k : ℕ) (db : RoutingDb) : SameBeside k db db :=
  ⟨rfl, rfl, fun _ _ => rfl⟩

theorem SameBeside.trans {k : ℕ} {db₁ db₂ db₃ : RoutingDb} (h : SameBeside k db₁ db₂)
    (h' : SameBeside k db₂ db₃) : SameBeside k db₁ db₃ where
  roster := h'.roster.trans h.roster
  config := h'.config.trans h.config
  rows := fun j hj => (h'.rows j hj).trans (h.rows j hj)

theorem sameBeside_write (k : ℕ) (f : LeadRoutingRule → LeadRoutingRule) (db : RoutingDb) :
    SameBeside k db { db with rules := db.rules.modify k f } :=
  ⟨rfl, rfl, fun _ hj => Store.get?_modify_ne _ _ hj⟩

/-- The lookup of the new user writes the row of the update at most. -/
theorem sameBeside_patchAssignedUser {emit : Emission} {k : ℕ} {rule rule' : LeadRoutingRule}
    {a : Option (Option ℕ)} (h : Svc.Returns (patchAssignedUser env emit k rule a) db rule' db') :
    SameBeside k db db' := by
  rcases (returns_patchAssignedUser h).1 with rfl | rfl
  · exact .refl k _
  · exact sameBeside_write k _ db

/-- The row at the key is the new one, nothing else is written. -/
structure WritesRow (k : ℕ) (rule : LeadRoutingRule) (db db' : RoutingDb) : Prop
    extends SameBeside k db db' where
  row : ∀ r, db'.rules.get? k = some r → r = rule

theorem writesRow_flush {emit : Emission} {k : ℕ} {rule : LeadRoutingRule} {x : Unit}
    (h : Svc.Returns (flushRows emit [(k, rule)]) db x db') : WritesRow k rule db db' := by
  obtain ⟨-, rfl⟩ := returns_flushOne.mp h
  refine ⟨sameBeside_write k _ db, fun r hr => ?_⟩
  rw [Store.get?_modify_self] at hr
  obtain ⟨a, -, rfl⟩ := Option.map_eq_some_iff.mp hr
  rfl

/-- An update writes the row that the patch asks for. -/
theorem writesRow_updateRule {emit : Emission} {k : ℕ} {patch : RoutingRulePatch}
    {rule : LeadRoutingRule} (h : Svc.Returns (updateRule env emit k patch) db rule db') :
    ∃ stored, db.rules.get? k = some stored ∧ WritesRow k (stored.patched patch) db db' := by
  obtain ⟨stored, db₁, h1, h⟩ := Svc.returns_bind.mp h
  obtain ⟨⟨hk, -⟩, rfl⟩ := returns_getRule.mp h1
  obtain ⟨renumbered, db₂, h2, h⟩ := Svc.returns_bind.mp h
  obtain ⟨rfl, rfl, -⟩ := returns_patchPriority h2
  obtain ⟨conditioned, db₃, h3, h⟩ := Svc.returns_bind.mp h
  obtain ⟨rfl, rfl⟩ := returns_patchConditions h3
  obtain ⟨assigned, db₄, h4, h⟩ := Svc.returns_bind.mp h
  have hbeside := sameBeside_patchAssignedUser h4
  obtain ⟨-, rfl⟩ := returns_patchAssignedUser h4
  obtain ⟨x, db₅, h5, h⟩ := Svc.returns_bind.mp h
  obtain ⟨-, rfl⟩ := Svc.returns_pure.mp h
  have hlast := writesRow_flush h5
  rw [patchIsActive_eq] at hlast
  exact ⟨stored, hk, hbeside.trans hlast.toSameBeside, hlast.row⟩

/-- A deletion writes a row that is not live. -/
theorem writesRow_softDelete {emit : Emission} {now : ℤ} {k : ℕ} {rule : LeadRoutingRule}
    (h : Svc.Returns (softDeleteRule emit now k) db rule db') :
    ∃ r, r.isLiveEnabled = false ∧ WritesRow k r db db' := by
  obtain ⟨stored, db₁, h1, h⟩ := Svc.returns_bind.mp h
  obtain ⟨-, rfl⟩ := returns_getRule.mp h1
  obtain ⟨x, db₂, h2, h⟩ := Svc.returns_bind.mp h
  obtain ⟨-, rfl⟩ := Svc.returns_pure.mp h
  exact ⟨_, rfl, writesRow_flush h2⟩

/-- Only priorities and counters of rules differ. -/
structure SameNames (env : RoutingEnv) (db db' : RoutingDb) : Prop where
  roster : db'.roster = db.roster
  config : db'.defaultSalesRepId = db.defaultSalesRepId
  rows : ∀ k r, db'.HasRule k r → ∃ r₀, db.HasRule k r₀ ∧ r.namedUsers env = r₀.namedUsers env

theorem SameNames.refl (env : RoutingEnv) (db : RoutingDb) : SameNames env db db :=
  ⟨rfl, rfl, fun _ r hr => ⟨r, hr, rfl⟩⟩

theorem SameNames.trans {env : RoutingEnv} {db₁ db₂ db₃ : RoutingDb} (h : SameNames env db₁ db₂)
    (h' : SameNames env db₂ db₃) : SameNames env db₁ db₃ where
  roster := h'.roster.trans h.roster
  config := h'.config.trans h.config
  rows := by
    intro k r hr
    obtain ⟨r₁, hr₁, h1⟩ := h'.rows k r hr
    obtain ⟨r₀, hr₀, h0⟩ := h.rows k r₁ hr₁
    exact ⟨r₀, hr₀, h1.trans h0⟩

/-- One phase of a reordering writes priorities only. -/
theorem sameNames_phase {env : RoutingEnv} {emit : Emission} {f : ℕ → ℤ} {ids : List ℕ} {x : Unit}
    (h : Svc.Returns (flushRows emit (renumbered db.rules f ids)) db x db') :
    SameNames env db db' := by
  simp only [flushRows, Svc.returns_get_bind, Svc.returns_expect_bind, Svc.returns_modify] at h
  obtain ⟨t, hall, rfl⟩ := h
  refine ⟨rfl, rfl, fun k r hr => ?_⟩
  rcases Store.get?_writeAll hall hr.1 with hold | hnew
  · exact ⟨r, ⟨hold, hr.2⟩, rfl⟩
  · obtain ⟨i, r₀, -, hr₀, hpatch⟩ := mem_renumbered.mp ((emit.perm _).mem_iff.mp hnew)
    have hlive := hr.2
    simp only at hpatch
    rw [hpatch] at hlive ⊢
    exact ⟨r₀, ⟨hr₀, hlive⟩, rfl⟩

theorem sameNames_reorder {emit : Emission} {ruleType : String} {ids res : List ℕ}
    (h : Svc.Returns (reorderPriorities env emit ruleType ids) db res db') :
    SameNames env.toRoutingEnv db db' := by
  obtain ⟨t, db₁, ht, h⟩ := Svc.returns_bind.mp h
  obtain ⟨-, rfl⟩ := Svc.returns_expect.mp ht
  split_ifs at h with hne
  · obtain ⟨-, rfl⟩ := Svc.returns_pure.mp h
    exact .refl _ _
  · simp only [Svc.returns_require_bind, Svc.returns_get_bind] at h
    obtain ⟨-, -, h⟩ := h
    obtain ⟨x, db₂, hfirst, h⟩ := Svc.returns_bind.mp (Svc.returns_get_bind.mp h)
    obtain ⟨y, db₃, hsecond, h⟩ := Svc.returns_bind.mp (Svc.returns_get_bind.mp h)
    obtain ⟨-, rfl⟩ := Svc.returns_pure.mp h
    exact (sameNames_phase hfirst).trans (sameNames_phase hsecond)

theorem sameNames_claim (env : RoutingEnv) (db : RoutingDb) (k : ℕ) :
    SameNames env db { db with rules := db.rules.modify k .claimed } := by
  refine ⟨rfl, rfl, fun j r hr => ?_⟩
  obtain ⟨hget, hlive⟩ := hr
  rw [Store.get?_modify] at hget
  split_ifs at hget with hj
  · obtain ⟨r₀, hr₀, rfl⟩ := Option.map_eq_some_iff.mp hget
    exact ⟨r₀, ⟨hr₀, hlive⟩, rfl⟩
  · exact ⟨r, ⟨hget, hlive⟩, rfl⟩

/-- The round-robin loop writes one counter at most. -/
theorem sameNames_roundRobinPass (env : RoutingEnv) {rows : List (ℕ × LeadRoutingRule)}
    (hrows : LoadsActiveRules db rows) :
    SameNames env db (Svc.exec ((byPriority (bucket .roundRobin rows)).findSomeM?
      (roundRobinStep env)) db).2 := by
  have hl : ∀ row ∈ byPriority (bucket .roundRobin rows), db.rules.get? row.1 = some row.2 :=
    fun row hrow => ((mem_bucket_iff hrows).mp (mem_byPriority.mp hrow)).1.1
  rw [exec_roundRobinPass _ hl]
  cases hf : (byPriority (bucket .roundRobin rows)).find?
      fun row => roundRobinRepIds env row.2 ≠ [] with
  | none => exact .refl _ _
  | some row =>
    have hreps : roundRobinRepIds env row.2 ≠ [] := by simpa using List.find?_some hf
    rw [Option.elim_some, roundRobinStep, Svc.exec_bind,
      exec_claim (hl row (List.mem_of_find?_eq_some hf)) hreps]
    split_ifs with hmax
    · exact sameNames_claim env db row.1
    · exact .refl _ _

/-- An intake writes one counter at most. -/
theorem sameNames_route {env : RoutingEnv} {rows : List (ℕ × LeadRoutingRule)}
    (hrows : LoadsActiveRules db rows) (customer : RoutedCustomer) :
    SameNames env db (Svc.exec (routeForRecord env rows customer) db).2 := by
  have hfallback : ∀ db₁, (Svc.exec (fallback env) db₁).2 = db₁ := by
    intro db₁
    simp only [fallback, Svc.exec_bind, Svc.exec_get]
    cases readDefaultSalesRep env db₁ <;> rfl
  have hpass := sameNames_roundRobinPass env hrows
  unfold routeForRecord
  rw [exec_orNext, Svc.exec_pure]
  cases (bucket .adHoc rows).findSome? (adHocStep env customer) with
  | some decision => exact .refl _ _
  | none =>
    show SameNames env db (Svc.exec (orNext _ _) db).2
    rw [exec_orNext, Svc.exec_lift]
    match (byPriority (bucket .geographic rows)).findSomeM? (geographicStep env customer) with
    | .ok (some decision) => exact .refl _ _
    | .error e => exact .refl _ _
    | .ok none =>
      show SameNames env db (Svc.exec (orNext _ _) db).2
      rw [exec_orNext]
      match hx : Svc.exec ((byPriority (bucket .roundRobin rows)).findSomeM?
          (roundRobinStep env)) db with
      | (.ok (some decision), db₁) =>
        rw [hx] at hpass
        exact hpass
      | (.error e, db₁) =>
        rw [hx] at hpass
        exact hpass
      | (.ok none, db₁) =>
        rw [hx] at hpass
        simp only [hfallback]
        exact hpass

/-! ## Named users can work -/

theorem SameNames.names {env : RoutingEnv} (h : SameNames env db db') {u : ℕ}
    (hu : db'.Names env u) : db.Names env u := by
  rcases hu with ⟨k, r, hr, hmem⟩ | hdefault
  · obtain ⟨r₀, hr₀, hnames⟩ := h.rows k r hr
    exact .inl ⟨k, r₀, hr₀, hnames ▸ hmem⟩
  · refine .inr ?_
    unfold readDefaultSalesRep RoutingDb.defaultRep at hdefault ⊢
    rw [h.config] at hdefault
    exact hdefault

theorem able_of_roster {u : ℕ} (h : db'.roster = db.roster) (ha : db.Able reading u) :
    db'.Able reading u := by
  unfold RoutingDb.Able at ha ⊢
  rw [h]
  exact ha

/-- New names of users who can work, and nobody disabled. -/
theorem NamedAble.mono {env : RoutingEnv} (h : NamedAble reading env db)
    (hnames : ∀ u, db'.Names env u → db.Names env u ∨ db'.Able reading u)
    (hkeep : ∀ u, db.Names env u → db.Able reading u → db'.Able reading u) :
    NamedAble reading env db' := by
  intro u hu
  rcases hnames u hu with hold | hnew
  · exact hkeep u hold (h u hold)
  · exact hnew

theorem NamedAble.sameNames {env : RoutingEnv} (h : NamedAble reading env db)
    (hs : SameNames env db db') : NamedAble reading env db' :=
  h.mono (fun _ hu => .inl (hs.names hu)) fun _ _ ha => able_of_roster hs.roster ha

/-- Writing one row whose users can work. -/
theorem NamedAble.writesRow {env : RoutingEnv} (h : NamedAble reading env db) {k : ℕ}
    {rule : LeadRoutingRule} (hw : WritesRow k rule db db')
    (hrule : rule.isLiveEnabled = true → ∀ u ∈ rule.namedUsers env, db.Able reading u) :
    NamedAble reading env db' := by
  refine h.mono (fun u hu => ?_) fun _ _ ha => able_of_roster hw.roster ha
  rcases hu with ⟨j, r, hr, hmem⟩ | hdefault
  · by_cases hj : j = k
    · subst hj
      obtain rfl := hw.row r hr.1
      exact .inr (able_of_roster hw.roster (hrule hr.2 u hmem))
    · rw [RoutingDb.HasRule, hw.rows j hj] at hr
      exact .inl (.inl ⟨j, r, hr, hmem⟩)
  · refine .inl (.inr ?_)
    unfold readDefaultSalesRep RoutingDb.defaultRep at hdefault ⊢
    rw [hw.config] at hdefault
    exact hdefault

/-- A change to the accounts that leaves the named users able. -/
theorem NamedAble.withRoster {env : RoutingEnv} (h : NamedAble reading env db) (roster : Roster)
    (hkeep : ∀ u, db.Names env u → db.Able reading u →
      ({ db with roster := roster } : RoutingDb).Able reading u) :
    NamedAble reading env { db with roster := roster } :=
  h.mono (fun _ hu => .inl hu) hkeep

theorem NamedAble.createRule {creator : ℕ} {body : RoutingRuleCreate} {rule : LeadRoutingRule}
    (h : NamedAble reading env.toRoutingEnv db)
    (hok : NamesOnlyAble reading env db (.createRule creator body))
    (hr : Svc.Returns (createRule env creator body) db rule db') :
    NamedAble reading env.toRoutingEnv db' := by
  obtain ⟨⟨ruleType, htype, rfl⟩, rfl, -⟩ := createRule_checked hr
  refine h.mono (fun u hu => ?_) fun _ _ ha => able_of_roster rfl ha
  rcases hu with ⟨k, r, ⟨hget, hlive⟩, hmem⟩ | hdefault
  · rw [Store.get?_create] at hget
    split_ifs at hget with hk
    · obtain rfl := Option.some.inj hget
      have hactive : body.isActive = true := by
        simpa [LeadRoutingRule.isLiveEnabled, newRule] using hlive
      exact .inr (able_of_roster rfl (hok hactive ruleType htype u hmem))
    · exact .inl (.inl ⟨k, r, ⟨hget, hlive⟩, hmem⟩)
  · exact .inl (.inr hdefault)

theorem NamedAble.setDefaultSalesRep {typedValue : Json} {x : Unit}
    (h : NamedAble reading env.toRoutingEnv db)
    (hok : NamesOnlyAble reading env db (.setDefaultSalesRep typedValue))
    (hr : Svc.Returns (setDefaultSalesRep env.toRoutingEnv typedValue) db x db') :
    NamedAble reading env.toRoutingEnv db' := by
  obtain ⟨-, hr⟩ := Svc.returns_require_bind.mp hr
  obtain rfl := Svc.returns_modify.mp hr
  refine h.mono (fun u hu => ?_) fun _ _ ha => able_of_roster rfl ha
  rcases hu with hrule | hdefault
  · exact .inl (.inl hrule)
  · unfold readDefaultSalesRep at hdefault
    split_ifs at hdefault
    exact .inr (able_of_roster rfl (hok u hdefault))

/-- A deactivation writes the status of one user, and no user row. -/
theorem deactivated_users (s : Roster) (now : ℤ) (userId : ℕ) (reassignToId : Option ℕ) :
    (s.deactivated now userId reassignToId).db.users = s.db.users ∧
      ∀ u, u ≠ userId →
        (s.deactivated now userId reassignToId).userStatus u = s.userStatus u := by
  cases reassignToId with
  | none => exact ⟨rfl, fun u hu => Function.update_of_ne hu _ _⟩
  | some joining => exact ⟨rfl, fun u hu => Function.update_of_ne hu _ _⟩

theorem NamedAble.deactivateUser {now : ℤ} {actor userId : ℕ} {reassignToId : Option ℕ}
    (h : NamedAble reading env.toRoutingEnv db)
    (hok : NamesOnlyAble reading env db (.deactivateUser now actor userId reassignToId)) :
    NamedAble reading env.toRoutingEnv
      (routingStep env db (.deactivateUser now actor userId reassignToId)) := by
  unfold routingStep
  rcases Svc.request_cases (fun before _ => before)
      (Roster.deactivateUser now actor userId reassignToId) db.roster with
    ⟨res, s', hret, hr⟩ | ⟨e, s', -, hr⟩
  · simp only [hr]
    obtain ⟨-, rfl⟩ := returns_deactivateUser.mp ⟨res, hret⟩
    obtain ⟨husers, hstatus⟩ := deactivated_users db.roster now userId reassignToId
    apply h.withRoster
    rintro u hu ⟨hactive, user, hget, hrole⟩
    have hne : u ≠ userId := fun heq => hok (heq ▸ hu)
    refine ⟨(hstatus u hne).trans hactive, user, ?_, hrole⟩
    show (db.roster.deactivated now userId reassignToId).db.users.get? u = some user
    rw [husers]
    exact hget
  · simp only [hr]
    exact h

theorem NamedAble.register {user : User} {status : AccountStatus}
    (h : NamedAble reading env.toRoutingEnv db) :
    NamedAble reading env.toRoutingEnv (routingStep env db (.register user status)) := by
  apply h.withRoster
  rintro u - ⟨hactive, stored, hget, hrole⟩
  have hlt := Store.get?_lt hget
  have hne : u ≠ db.roster.db.users.next := by omega
  exact ⟨(Function.update_of_ne hne _ _).trans hactive, stored,
    Store.get?_create_of_some hget, hrole⟩

theorem NamedAble.setAccount {userId : ℕ} {user : User} {status : AccountStatus}
    (h : NamedAble reading env.toRoutingEnv db)
    (hok : NamesOnlyAble reading env db (.setAccount userId user status)) :
    NamedAble reading env.toRoutingEnv (routingStep env db (.setAccount userId user status)) := by
  apply h.withRoster
  rintro u hu ⟨hactive, stored, hget, hrole⟩
  by_cases heq : u = userId
  · subst heq
    obtain ⟨rfl, hrole'⟩ := hok hu
    refine ⟨Function.update_self _ _ _, user, ?_, hrole'⟩
    show (db.roster.db.users.modify u fun _ => user).get? u = some user
    rw [Store.get?_modify_self, hget]
    rfl
  · exact ⟨(Function.update_of_ne heq _ _).trans hactive, stored,
      (Store.get?_modify_ne _ _ heq).trans hget, hrole⟩

/-- A service keeps the invariant when what it returns with does. -/
theorem namedAble_committed {α : Type} {m : RoutingService α}
    (h : NamedAble reading env.toRoutingEnv db)
    (hm : ∀ a db', Svc.Returns m db a db' → NamedAble reading env.toRoutingEnv db') :
    NamedAble reading env.toRoutingEnv (committed m db) := by
  rcases committed_cases m db with heq | ⟨a, hret⟩
  · rw [heq]
    exact h
  · exact hm a _ hret

theorem NamedAble.intake {order : Emission} {customer : RoutedCustomer}
    (h : NamedAble reading env.toRoutingEnv db) :
    NamedAble reading env.toRoutingEnv (routingStep env db (.intake order customer)) := by
  have hrows : LoadsActiveRules db (loadActiveRules order db) := order.perm _
  refine namedAble_committed h fun _ db' hr => ?_
  rw [← Svc.returns_attempt.mp hr]
  exact h.sameNames (sameNames_route hrows customer)

/-- A step that names only users who can work keeps the invariant. -/
theorem routingStep_namedAble (op : RoutingOp) (h : NamedAble reading env.toRoutingEnv db)
    (hok : NamesOnlyAble reading env db op) :
    NamedAble reading env.toRoutingEnv (routingStep env db op) := by
  cases op with
  | createRule creator body => exact namedAble_committed h fun _ _ hr => h.createRule hok hr
  | updateRule emit ruleId patch =>
    refine namedAble_committed h fun rule db' hr => ?_
    obtain ⟨stored, hstored, hw⟩ := writesRow_updateRule hr
    exact h.writesRow hw (hok stored hstored)
  | softDeleteRule emit now ruleId =>
    refine namedAble_committed h fun rule db' hr => ?_
    obtain ⟨r, hdead, hw⟩ := writesRow_softDelete hr
    exact h.writesRow hw fun hlive => absurd (hlive.symm.trans hdead) Bool.true_eq_false_eq_False
  | reorderPriorities emit ruleType orderedIds =>
    exact namedAble_committed h fun _ _ hr => h.sameNames (sameNames_reorder hr)
  | setDefaultSalesRep typedValue =>
    exact namedAble_committed h fun _ _ hr => h.setDefaultSalesRep hok hr
  | deactivateUser now actor userId reassignToId => exact h.deactivateUser hok
  | register user status => exact h.register
  | setAccount userId user status => exact h.setAccount hok
  | work tables assignedSalesRepId assignedAppraiserId =>
    exact h.withRoster _ fun _ _ ha => ha
  | intake order customer => exact h.intake

/-- In a state where every named user can work, so can whoever gets a lead. -/
theorem NamedAble.routesToAble {env : RoutingEnv} (h : NamedAble reading env db) :
    RoutesToAble reading env db :=
  fun _ hrows _ _ _ hret u hu => h u (routed_named hrows hret hu)

/-- If in a run every step names only users who can work, and disables none who is
    named, then in every state every intake goes to a user who can work. -/
theorem routed_able_of_steps (reading : RoleReading) (env : RoutingSchema)
    (start : AbleRouting reading env.toRoutingEnv) (ops : List RoutingOp)
    (h : AllSteps (routingStep env) (NamesOnlyAble reading env) start.db ops) :
    AllStates (routingStep env) (RoutesToAble reading env.toRoutingEnv) start.db ops := by
  have hnamed : AllStates (routingStep env) (NamedAble reading env.toRoutingEnv) start.db ops :=
    allStates_of_allSteps (fun _ op hn hok => routingStep_namedAble op hn hok) start.able h
  exact hnamed.mono fun _ hn => hn.routesToAble

/-! ## A rep who leaves -/

def staff (role : RoleSlug) : User where
  email := ""
  firstName := ""
  lastName := ""
  role := role
  roles := [role]

/-- An administrator and two reps, of whom a rule for `acme.com` names the first. -/
def acmeOffice : RoutingDb where
  rules := Store.empty.create (acmeRule 0 1)
  roster := { emptyRoster with db := { emptyRoster.db with
    users := ((Store.empty.create (staff .admin)).create (staff .sales)).create (staff .sales) } }
  defaultSalesRepId := none

theorem acmeOffice_names {u : ℕ} (h : acmeOffice.Names asciiEnv u) : u = 1 := by
  rcases h with ⟨k, rule, hrule, hmem⟩ | hdefault
  · obtain ⟨rfl, rfl⟩ := Store.get?_create_empty.mp hrule.1
    exact List.mem_singleton.mp hmem
  · cases hdefault

theorem acmeOffice_able (reading : RoleReading) (u : ℕ) (hu : u = 1 ∨ u = 2) :
    acmeOffice.Able reading u := by
  refine ⟨rfl, staff .sales, ?_, .sales, by decide, ?_⟩
  · rcases hu with rfl | rfl <;> rfl
  · cases reading <;> decide

/-- When the rep whom no rule names leaves, every intake before and after goes to a user
    who can work. -/
theorem routed_able_spare_rep :
    AllStates (routingStep asciiSchema) (RoutesToAble .primary asciiEnv) acmeOffice
      [.deactivateUser 0 0 2 none, .intake inSetOrder acmeCustomer] := by
  have hable : NamedAble .primary asciiEnv acmeOffice :=
    fun u hu => acmeOffice_able .primary u (.inl (acmeOffice_names hu))
  have hspare : ¬acmeOffice.Names asciiEnv 2 := by
    intro h
    have := acmeOffice_names h
    omega
  exact routed_able_of_steps .primary asciiSchema ⟨acmeOffice, hable⟩ _
    ⟨hspare, trivial, trivial⟩

/-- A rule for `acme.com` that assigns the first rep. -/
def acmeBody : RoutingRuleCreate where
  ruleType := "ad_hoc"
  priority := ⟨0, by decide⟩
  conditions := (acmeRule 0 1).conditions
  assignedUserId := some 1
  isActive := true

/-- Tables without users and rules. -/
def noOffice : RoutingDb where
  rules := Store.empty
  roster := emptyRoster
  defaultSalesRepId := none

/-- Two accounts, a rule for the second, and its deactivation by the first. -/
def leavingRep : List RoutingOp :=
  [.register (staff .admin) .active, .register (staff .sales) .active, .createRule 0 acmeBody,
    .deactivateUser 0 0 1 none]

/-- The user of a rule is deactivated, and gets the next lead that matches it. -/
theorem deactivated_rep_gets_lead :
    (run (routingStep asciiSchema) noOffice leavingRep).roster.userStatus 1 = .deactivated ∧
    assignedUser asciiEnv (run (routingStep asciiSchema) noOffice leavingRep)
      (loadActiveRules inSetOrder (run (routingStep asciiSchema) noOffice leavingRep))
      acmeCustomer = .ok (some 1) ∧
    ∀ reading, ¬AllStates (routingStep asciiSchema) (RoutesToAble reading asciiEnv) noOffice
      leavingRep := by
  have hstatus : (run (routingStep asciiSchema) noOffice leavingRep).roster.userStatus 1 =
      .deactivated := by decide +kernel
  have hlead : assignedUser asciiEnv (run (routingStep asciiSchema) noOffice leavingRep)
      (loadActiveRules inSetOrder (run (routingStep asciiSchema) noOffice leavingRep))
      acmeCustomer = .ok (some 1) := by decide +kernel
  refine ⟨hstatus, hlead, fun reading h => ?_⟩
  obtain ⟨decision, db', hret, hu⟩ := assignedUser_eq_ok.mp hlead
  have hable := h.last _ (inSetOrder.perm _) acmeCustomer decision db' hret 1 hu
  have hactive := hable.1
  rw [hstatus] at hactive
  cases hactive

end TempleConsign.LeadRouting
