import TempleConsign.Lib.Run
import TempleConsign.RoutingRules

/-!
# Priorities of routing rules

Runs of `create_rule`, `update_rule`, `soft_delete_rule` and `reorder_priorities`, each
call in one transaction. The invariant is `RuleOrder`: live rules of one type have
different priorities, and none is negative. The second half is what makes the
negative scratch priorities of a reordering free.

Results:
* `returns_flushRenumbered`: one phase of a reordering goes through in any order of
  its rows.
* `reorder_returns_iff`: when a reordering succeeds, and what it leaves.
* `ruleStep_order`: every call keeps the invariant.
* `priorities_strictly_ordered`: no call ever meets the index.
-/

namespace TempleConsign.LeadRouting

open ServiceLib

/-! ## Runs -/

/-- The calls. `elsewhere` is what other services write to the other tables. -/
inductive RuleOp
  | create (creator : ℕ) (body : RoutingRuleCreate)
  | update (emit : Emission) (ruleId : ℕ) (patch : RoutingRulePatch)
  | softDelete (emit : Emission) (now : ℤ) (ruleId : ℕ)
  | reorder (emit : Emission) (ruleType : String) (orderedIds : List ℕ)
  | elsewhere (roster : Roster) (defaultSalesRepId : Option Json)

def RuleOp.service (env : RoutingSchema) : RuleOp → RoutingService Unit
  | create creator body => Svc.void (createRule env creator body)
  | update emit ruleId patch => Svc.void (updateRule env emit ruleId patch)
  | softDelete emit now ruleId => Svc.void (softDeleteRule emit now ruleId)
  | reorder emit ruleType orderedIds => Svc.void (reorderPriorities env emit ruleType orderedIds)
  | elsewhere roster defaultSalesRepId =>
    modify fun db => { db with roster := roster, defaultSalesRepId := defaultSalesRepId }

/-- One call in one transaction. -/
def ruleStep (env : RoutingSchema) (db : RoutingDb) (op : RuleOp) : RoutingDb :=
  (Svc.request (fun before _ => before) (op.service env) db).2

/-- Live rules of one type have different priorities, none of them negative. -/
structure RuleOrder (db : RoutingDb) : Prop where
  unique : db.UniquePriorities
  nonneg : ∀ k rule, db.rules.get? k = some rule → rule.deletedAt = none → 0 ≤ rule.priority

/-- A table of rules in order. -/
structure OrderedRules where
  db : RoutingDb
  order : RuleOrder db

/-- The ids are those of the live rules of the type, each once. -/
structure Enumerates (db : RoutingDb) (ruleType : String) (orderedIds : List ℕ) : Prop where
  nodup : orderedIds.Nodup
  mem_iff : ∀ k, k ∈ orderedIds ↔
    ∃ rule, db.rules.get? k = some rule ∧ rule.ruleType.value = ruleType ∧ rule.deletedAt = none

/-- What holds of every call. -/
structure CallSound (env : RoutingSchema) (db : RoutingDb) (op : RuleOp) : Prop where
  noViolation : ∀ index, ¬Svc.Raises (op.service env) db (.integrityError index)
  rejected : ∀ e, Svc.Raises (op.service env) db e → ruleStep env db op = db
  reorder : ∀ emit ruleType orderedIds, op = .reorder emit ruleType orderedIds →
    orderedIds ≠ [] →
    ((∃ u db', Svc.Returns (op.service env) db u db') ↔ Enumerates db ruleType orderedIds) ∧
    ((∃ u db', Svc.Returns (op.service env) db u db') → ∀ (i k : ℕ), orderedIds[i]? = some k →
      ∃ rule, (ruleStep env db op).rules.get? k = some rule ∧ rule.priority = i)

/-! ## The index -/

variable {env : RoutingSchema} {emit : Emission} {db db' : RoutingDb}

theorem clashes_comm (a b : LeadRoutingRule) : clashes a b = clashes b a := by
  unfold clashes
  rw [Bool.eq_iff_iff]
  simp only [Bool.and_eq_true, decide_eq_true_eq]
  constructor
  · rintro ⟨⟨⟨ha, hb⟩, ht⟩, hp⟩
    exact ⟨⟨⟨hb, ha⟩, ht.symm⟩, hp.symm⟩
  · rintro ⟨⟨⟨hb, ha⟩, ht⟩, hp⟩
    exact ⟨⟨⟨ha, hb⟩, ht.symm⟩, hp.symm⟩

theorem clashes_eq_false_iff {a b : LeadRoutingRule} : clashes a b = false ↔ SlotsDiffer a b := by
  unfold clashes SlotsDiffer
  rw [← Bool.not_eq_true]
  simp only [Bool.and_eq_true, decide_eq_true_eq, Option.isNone_iff_eq_none, not_and, and_imp]

theorem indexed_iff {t : Store LeadRoutingRule} :
    t.Indexed clashes ↔ t.Pairwise SlotsDiffer := by
  simp only [Store.Indexed, Store.Pairwise, clashes_eq_false_iff]

/-- The columns that the index reads. -/
def SameSlot (a b : LeadRoutingRule) : Prop :=
  a.ruleType = b.ruleType ∧ a.priority = b.priority ∧ a.deletedAt = b.deletedAt

theorem SameSlot.fits {t : Store LeadRoutingRule} {k : ℕ} {a b : LeadRoutingRule}
    (h : SameSlot a b) (hf : t.Fits clashes (k, a)) : t.Fits clashes (k, b) := by
  intro j c hj hc
  have hac := hf j c hj hc
  unfold clashes at hac ⊢
  rwa [← h.1, ← h.2.1, ← h.2.2]

/-! ## A flush of one row -/

theorem emitted_one (emit : Emission) (u : ℕ × LeadRoutingRule) : emit.order [u] = [u] :=
  List.perm_singleton.mp (emit.perm [u])

theorem writeAll_one {t : Store LeadRoutingRule} {u : ℕ × LeadRoutingRule} :
    Store.writeAll clashes t [u] = Store.writeChecked clashes t u := by
  rw [Store.writeAll_cons]
  exact Option.bind_fun_some _

theorem returns_flushOne {u : ℕ × LeadRoutingRule} {x : Unit} :
    Svc.Returns (flushRows emit [u]) db x db' ↔ db.rules.Fits clashes u ∧
      { db with rules := db.rules.modify u.1 fun _ => u.2 } = db' := by
  simp only [flushRows, emitted_one, writeAll_one, Svc.returns_get_bind,
    Svc.returns_expect_bind, Store.writeChecked_eq_some, Svc.returns_modify]
  constructor
  · rintro ⟨t, ⟨hf, rfl⟩, h⟩
    exact ⟨hf, h⟩
  · rintro ⟨hf, h⟩
    exact ⟨_, ⟨hf, rfl⟩, h⟩

theorem raises_flushRows {rows : List (ℕ × LeadRoutingRule)} {e : RoutingError}
    (h : Svc.Raises (flushRows emit rows) db e) :
    Store.writeAll clashes db.rules (emit.order rows) = none := by
  simp [flushRows] at h
  exact h.1

theorem not_raises_flushOne {u : ℕ × LeadRoutingRule} (hf : db.rules.Fits clashes u)
    (e : RoutingError) : ¬Svc.Raises (flushRows emit [u]) db e := by
  intro h
  have hnone := raises_flushRows h
  rw [emitted_one, writeAll_one, Store.writeChecked_eq_some.mpr ⟨hf, rfl⟩] at hnone
  cases hnone

/-! ## Creating, patching and deleting -/

theorem RuleOrder.fits_stored (h : RuleOrder db) {k : ℕ} {rule : LeadRoutingRule}
    (hk : db.rules.get? k = some rule) : db.rules.Fits clashes (k, rule) := by
  intro j b hj hb
  exact clashes_eq_false_iff.mpr (h.unique k j rule b (Ne.symm hj) hk hb)

/-- A free slot: no other live row has the type and the priority. -/
theorem fits_of_slotFree {ruleType : RuleType} {priority : ℤ} {excluding : Option ℕ}
    (hfree : Store.scalarOneOrNone (db.rules.select (takesSlot ruleType priority excluding)) =
      some none) {k : ℕ} (hk : excluding = none ∨ excluding = some k) {rule : LeadRoutingRule}
    (ht : rule.ruleType = ruleType) (hp : rule.priority = priority) {j : ℕ}
    {b : LeadRoutingRule} (hj : j ≠ k) (hb : db.rules.get? j = some b) :
    clashes rule b = false := by
  have hnot := Store.scalar_select_none_iff.mp hfree j b hb
  have hexcl : excluding ≠ some j := by
    rcases hk with rfl | rfl
    · simp
    · simpa using hj.symm
  rw [clashes_eq_false_iff]
  intro _ hlive htype hprio
  simp [takesSlot, hlive, ← htype, ht, ← hprio, hp, hexcl] at hnot

theorem returns_checkSlot {ruleType : RuleType} {priority : ℤ} {excluding : Option ℕ} {x : Unit} :
    Svc.Returns (checkPrioritySlotFree ruleType priority excluding) db x db' ↔
      Store.scalarOneOrNone (db.rules.select (takesSlot ruleType priority excluding)) =
        some none ∧ db = db' := by
  simp only [checkPrioritySlotFree, Svc.returns_get_bind, Svc.returns_expect_bind,
    Svc.returns_require]
  constructor
  · rintro ⟨o, ho, rfl, rfl⟩
    exact ⟨ho, rfl⟩
  · rintro ⟨ho, rfl⟩
    exact ⟨none, ho, rfl, rfl⟩

theorem not_raises_checkSlot {ruleType : RuleType} {priority : ℤ} {excluding : Option ℕ}
    {index : String} :
    ¬Svc.Raises (checkPrioritySlotFree ruleType priority excluding) db (.integrityError index) := by
  simp [checkPrioritySlotFree]

/-- The row can stand at the key: it clashes with no other, and its priority is not
    negative while it is live. -/
structure Placed (db : RoutingDb) (k : ℕ) (rule : LeadRoutingRule) : Prop where
  fits : db.rules.Fits clashes (k, rule)
  nonneg : rule.deletedAt = none → 0 ≤ rule.priority

theorem RuleOrder.placed (h : RuleOrder db) {k : ℕ} {rule : LeadRoutingRule}
    (hk : db.rules.get? k = some rule) : Placed db k rule where
  fits := h.fits_stored hk
  nonneg := h.nonneg k rule hk

theorem Placed.sameSlot {k : ℕ} {a b : LeadRoutingRule} (h : Placed db k a) (hab : SameSlot a b) :
    Placed db k b where
  fits := hab.fits h.fits
  nonneg := by
    intro hlive
    rw [← hab.2.1]
    exact h.nonneg (hab.2.2.trans hlive)

/-- Writing a placed row keeps the order. -/
theorem RuleOrder.write (h : RuleOrder db) {k : ℕ} {rule : LeadRoutingRule}
    (hp : Placed db k rule) :
    RuleOrder { db with rules := db.rules.modify k fun _ => rule } where
  unique := by
    apply indexed_iff.mp
    exact (indexed_iff.mpr h.unique).writeChecked clashes_comm
      (Store.writeChecked_eq_some.mpr ⟨hp.fits, rfl⟩)
  nonneg := by
    intro j b hb hlive
    rw [Store.get?_modify] at hb
    split_ifs at hb with hj
    · obtain ⟨a, -, rfl⟩ := Option.map_eq_some_iff.mp hb
      exact hp.nonneg hlive
    · exact h.nonneg j b hb hlive

/-- What is placed stays placed when the row at its key is written. -/
theorem Placed.after_write {k : ℕ} {a b : LeadRoutingRule} (h : Placed db k b) :
    Placed { db with rules := db.rules.modify k fun _ => a } k b where
  fits := by
    intro j c hj hc
    rw [Store.get?_modify_ne _ _ hj] at hc
    exact h.fits j c hj hc
  nonneg := h.nonneg

theorem returns_patchPriority {k : ℕ} {stored rule : LeadRoutingRule}
    {p : Option (Option Priority)} (hr : Svc.Returns (patchPriority k stored p) db rule db') :
    db = db' ∧ rule = { stored with priority := (p.join.map Subtype.val).getD stored.priority } ∧
      ∀ priority ∈ p.join, priority.1 ≠ stored.priority →
        Store.scalarOneOrNone (db.rules.select (takesSlot stored.ruleType priority (some k))) =
          some none := by
  cases p with
  | none =>
    obtain ⟨rfl, rfl⟩ := Svc.returns_pure.mp hr
    exact ⟨rfl, rfl, fun _ hp => absurd hp (Option.not_mem_none _)⟩
  | some o =>
    cases o with
    | none =>
      obtain ⟨rfl, rfl⟩ := Svc.returns_pure.mp hr
      exact ⟨rfl, rfl, fun _ hp => absurd hp (Option.not_mem_none _)⟩
    | some priority =>
      obtain ⟨x, db₁, hcheck, hpure⟩ := Svc.returns_bind.mp hr
      obtain ⟨hfree, rfl⟩ := (Svc.returns_onlyIf_check fun _ _ => returns_checkSlot).mp hcheck
      obtain ⟨rfl, rfl⟩ := Svc.returns_pure.mp hpure
      refine ⟨rfl, rfl, fun priority' hp hne => ?_⟩
      obtain rfl := Option.some.inj hp
      exact hfree hne

/-- The row with the new priority can stand where the stored one does. -/
theorem patchPriority_placed (h : RuleOrder db) {k : ℕ} {stored rule : LeadRoutingRule}
    (hk : db.rules.get? k = some stored) {p : Option (Option Priority)}
    (hr : Svc.Returns (patchPriority k stored p) db rule db') : Placed db k rule := by
  obtain ⟨-, rfl, hfree⟩ := returns_patchPriority hr
  cases hp : p.join with
  | none => exact h.placed hk
  | some priority =>
    refine ⟨?_, fun _ => priority.2.1⟩
    by_cases hsame : priority.1 = stored.priority
    · have hslot : SameSlot stored { stored with priority := priority.1 } :=
        ⟨rfl, hsame.symm, rfl⟩
      exact hslot.fits (h.fits_stored hk)
    · intro j b hj hb
      refine fits_of_slotFree (hfree priority hp hsame) (.inr rfl) ?_ ?_ hj hb
      · rfl
      · rfl

theorem returns_patchConditions {rule rule' : LeadRoutingRule} {c : Option (Option Dict)}
    (hr : Svc.Returns (patchConditions env rule c) db rule' db') :
    db = db' ∧ rule' = { rule with conditions := c.getD rule.conditions } := by
  cases c with
  | none =>
    obtain ⟨rfl, rfl⟩ := Svc.returns_pure.mp hr
    exact ⟨rfl, rfl⟩
  | some conditions =>
    simp only [patchConditions, validateConditions, Svc.returns_require_bind] at hr
    obtain ⟨rfl, rfl⟩ := Svc.returns_pure.mp hr.2
    exact ⟨rfl, rfl⟩

theorem returns_requireSalesRole {userId : ℕ} {x : Unit} :
    Svc.Returns (requireSalesRole env userId) db x db' ↔
      (∃ user, db.roster.db.users.get? userId = some user ∧ user.role ∈ salesRoles) ∧
        db = db' := by
  simp only [requireSalesRole, Svc.returns_get_bind, Svc.returns_expect_bind,
    Svc.returns_require, exists_and_right, ← and_assoc]

theorem returns_checkAssignedUser {a : Option ℕ} {x : Unit} :
    Svc.Returns (checkAssignedUser env a) db x db' ↔
      (∀ userId ∈ a, ∃ user, db.roster.db.users.get? userId = some user ∧
        user.role ∈ salesRoles) ∧ db = db' := by
  cases a with
  | none => simp [checkAssignedUser]
  | some userId =>
    rw [checkAssignedUser, returns_requireSalesRole]
    simp

/-- The lookup of the new user may have flushed the row. -/
theorem returns_patchAssignedUser {k : ℕ} {rule rule' : LeadRoutingRule}
    {a : Option (Option ℕ)}
    (hr : Svc.Returns (patchAssignedUser env emit k rule a) db rule' db') :
    (db' = db ∨ db' = { db with rules := db.rules.modify k fun _ => rule }) ∧
      rule' = { rule with assignedUserId := a.getD rule.assignedUserId } := by
  match a, hr with
  | none, hr =>
    obtain ⟨rfl, rfl⟩ := Svc.returns_pure.mp hr
    exact ⟨.inl rfl, rfl⟩
  | some none, hr =>
    obtain ⟨rfl, rfl⟩ := Svc.returns_pure.mp hr
    exact ⟨.inl rfl, rfl⟩
  | some (some userId), hr =>
    obtain ⟨x, db₁, hflush, hr⟩ := Svc.returns_bind.mp hr
    obtain ⟨-, rfl⟩ := returns_flushOne.mp hflush
    obtain ⟨y, db₂, hrole, hpure⟩ := Svc.returns_bind.mp hr
    obtain ⟨-, rfl⟩ := returns_requireSalesRole.mp hrole
    obtain ⟨rfl, rfl⟩ := Svc.returns_pure.mp hpure
    exact ⟨.inr rfl, rfl⟩

theorem patchIsActive_eq (rule : LeadRoutingRule) (p : Option (Option Bool)) :
    patchIsActive rule p = { rule with isActive := p.join.getD rule.isActive } := by
  match p with
  | none => rfl
  | some none => rfl
  | some (some isActive) => rfl

/-- The state before the last flush of an update: in order, with the row placed. -/
theorem update_before_flush (h : RuleOrder db) {k : ℕ} {patch : RoutingRulePatch}
    {stored renumbered conditioned assigned : LeadRoutingRule} {db₁ db₂ db₃ db₄ : RoutingDb}
    (h1 : Svc.Returns (getRule k) db stored db₁)
    (h2 : Svc.Returns (patchPriority k stored patch.priority) db₁ renumbered db₂)
    (h3 : Svc.Returns (patchConditions env renumbered patch.conditions) db₂ conditioned db₃)
    (h4 : Svc.Returns (patchAssignedUser env emit k conditioned patch.assignedUserId) db₃
      assigned db₄) :
    RuleOrder db₄ ∧ Placed db₄ k (patchIsActive assigned patch.isActive) := by
  obtain ⟨⟨hk, -⟩, rfl⟩ := returns_getRule.mp h1
  have hplaced := patchPriority_placed h hk h2
  obtain ⟨rfl, -, -⟩ := returns_patchPriority h2
  obtain ⟨rfl, hconditioned⟩ := returns_patchConditions h3
  obtain ⟨hdb, hassigned⟩ := returns_patchAssignedUser h4
  have hc : Placed db k conditioned := by
    rw [hconditioned]
    exact hplaced.sameSlot ⟨rfl, rfl, rfl⟩
  have hfinal : Placed db k (patchIsActive assigned patch.isActive) := by
    rw [patchIsActive_eq, hassigned]
    exact hc.sameSlot ⟨rfl, rfl, rfl⟩
  rcases hdb with rfl | rfl
  · exact ⟨h, hfinal⟩
  · exact ⟨h.write hc, hfinal.after_write⟩

theorem updateRule_order (h : RuleOrder db) {k : ℕ} {patch : RoutingRulePatch}
    {rule : LeadRoutingRule} (hr : Svc.Returns (updateRule env emit k patch) db rule db') :
    RuleOrder db' := by
  obtain ⟨stored, db₁, h1, hr⟩ := Svc.returns_bind.mp hr
  obtain ⟨renumbered, db₂, h2, hr⟩ := Svc.returns_bind.mp hr
  obtain ⟨conditioned, db₃, h3, hr⟩ := Svc.returns_bind.mp hr
  obtain ⟨assigned, db₄, h4, hr⟩ := Svc.returns_bind.mp hr
  obtain ⟨x, db₅, h5, hr⟩ := Svc.returns_bind.mp hr
  obtain ⟨ho, hp⟩ := update_before_flush h h1 h2 h3 h4
  obtain ⟨-, rfl⟩ := returns_flushOne.mp h5
  obtain ⟨-, rfl⟩ := Svc.returns_pure.mp hr
  exact ho.write hp

theorem not_raises_patchAssignedUser {k : ℕ} {rule : LeadRoutingRule} {a : Option (Option ℕ)}
    (hp : Placed db k rule) {index : String} :
    ¬Svc.Raises (patchAssignedUser env emit k rule a) db (.integrityError index) := by
  match a with
  | none => exact Svc.raises_pure
  | some none => exact Svc.raises_pure
  | some (some userId) =>
    intro h
    rcases Svc.raises_bind.mp h with hflush | ⟨x, db₁, -, hrest⟩
    · exact not_raises_flushOne hp.fits _ hflush
    · simp [requireSalesRole] at hrest

theorem not_raises_patchPriority {k : ℕ} {rule : LeadRoutingRule} {p : Option (Option Priority)}
    {index : String} : ¬Svc.Raises (patchPriority k rule p) db (.integrityError index) := by
  cases p with
  | none => simp [patchPriority]
  | some o =>
    cases o with
    | none => simp [patchPriority]
    | some priority => simp [patchPriority, checkPrioritySlotFree]

theorem updateRule_noViolation (h : RuleOrder db) {k : ℕ} {patch : RoutingRulePatch}
    {index : String} : ¬Svc.Raises (updateRule env emit k patch) db (.integrityError index) := by
  intro hraise
  rcases Svc.raises_bind.mp hraise with h1 | ⟨stored, db₁, h1, hraise⟩
  · simp [getRule] at h1
  rcases Svc.raises_bind.mp hraise with h2 | ⟨renumbered, db₂, h2, hraise⟩
  · exact not_raises_patchPriority h2
  rcases Svc.raises_bind.mp hraise with h3 | ⟨conditioned, db₃, h3, hraise⟩
  · cases hc : patch.conditions <;> simp [hc, patchConditions, validateConditions] at h3
  rcases Svc.raises_bind.mp hraise with h4 | ⟨assigned, db₄, h4, hraise⟩
  · obtain ⟨⟨hk, -⟩, rfl⟩ := returns_getRule.mp h1
    have hplaced := patchPriority_placed h hk h2
    obtain ⟨rfl, -, -⟩ := returns_patchPriority h2
    obtain ⟨rfl, hconditioned⟩ := returns_patchConditions h3
    have hc : Placed db k conditioned := by
      rw [hconditioned]
      exact hplaced.sameSlot ⟨rfl, rfl, rfl⟩
    exact not_raises_patchAssignedUser hc h4
  obtain ⟨-, hp⟩ := update_before_flush h h1 h2 h3 h4
  rcases Svc.raises_bind.mp hraise with h5 | ⟨x, db₅, -, hraise⟩
  · exact not_raises_flushOne hp.fits _ h5
  · exact Svc.raises_pure hraise

theorem softDeleteRule_order (h : RuleOrder db) {now : ℤ} {k : ℕ} {rule : LeadRoutingRule}
    (hr : Svc.Returns (softDeleteRule emit now k) db rule db') : RuleOrder db' := by
  obtain ⟨stored, db₁, h1, hr⟩ := Svc.returns_bind.mp hr
  obtain ⟨-, rfl⟩ := returns_getRule.mp h1
  obtain ⟨x, db₂, h2, hr⟩ := Svc.returns_bind.mp hr
  obtain ⟨hfits, rfl⟩ := returns_flushOne.mp h2
  obtain ⟨-, rfl⟩ := Svc.returns_pure.mp hr
  exact h.write ⟨hfits, fun hlive => by cases hlive⟩

theorem softDeleteRule_noViolation {now : ℤ} {k : ℕ} {index : String} :
    ¬Svc.Raises (softDeleteRule emit now k) db (.integrityError index) := by
  intro hraise
  rcases Svc.raises_bind.mp hraise with h1 | ⟨stored, db₁, -, hraise⟩
  · simp [getRule] at h1
  rcases Svc.raises_bind.mp hraise with h2 | ⟨x, db₂, -, hraise⟩
  · -- a deleted row clashes with none
    exact not_raises_flushOne (fun j b _ _ => by simp [clashes]) _ h2
  · exact Svc.raises_pure hraise

/-- What a creation has checked when it comes to its insert. -/
theorem createRule_checked {creator : ℕ} {body : RoutingRuleCreate} {rule : LeadRoutingRule}
    (hr : Svc.Returns (createRule env creator body) db rule db') :
    (∃ ruleType, RuleType.ofValue? body.ruleType = some ruleType ∧
      rule = newRule creator ruleType body) ∧
      db' = { db with rules := db.rules.create rule } ∧
      ∀ j b, db.rules.get? j = some b → clashes rule b = false := by
  simp only [createRule, allowedRuleType, validateConditions, insertRule,
    Svc.returns_expect_bind, Svc.returns_require_bind] at hr
  obtain ⟨ruleType, htype, -, hr⟩ := hr
  obtain ⟨x, db₁, huser, hr⟩ := Svc.returns_bind.mp hr
  obtain ⟨-, rfl⟩ := returns_checkAssignedUser.mp huser
  obtain ⟨y, db₂, hcheck, hr⟩ := Svc.returns_bind.mp hr
  obtain ⟨hfree, rfl⟩ := returns_checkSlot.mp hcheck
  simp only [Svc.returns_bind, Svc.returns_get, Svc.returns_require, Svc.returns_modify,
    Svc.returns_pure] at hr
  obtain ⟨z, db₃, ⟨s, s', ⟨rfl, rfl⟩, w, t, ⟨-, rfl⟩, rfl⟩, rfl, rfl⟩ := hr
  refine ⟨⟨ruleType, htype, rfl⟩, rfl, fun j b hb => ?_⟩
  have hlt := Store.get?_lt hb
  refine fits_of_slotFree hfree (k := db.rules.next) (.inl rfl) ?_ ?_ (by omega) hb
  · rfl
  · rfl

theorem createRule_order (h : RuleOrder db) {creator : ℕ} {body : RoutingRuleCreate}
    {rule : LeadRoutingRule} (hr : Svc.Returns (createRule env creator body) db rule db') :
    RuleOrder db' := by
  obtain ⟨⟨ruleType, -, rfl⟩, rfl, hfree⟩ := createRule_checked hr
  constructor
  · apply (Store.pairwise_create_iff SlotsDiffer.symm h.unique).mpr
    intro j b hb
    exact clashes_eq_false_iff.mp (hfree j b hb)
  · intro k other hk hlive
    rw [Store.get?_create] at hk
    split_ifs at hk with hnew
    · obtain rfl := Option.some.inj hk
      exact body.priority.2.1
    · exact h.nonneg k other hk hlive

theorem createRule_noViolation {creator : ℕ} {body : RoutingRuleCreate} {index : String} :
    ¬Svc.Raises (createRule env creator body) db (.integrityError index) := by
  intro hraise
  rcases Svc.raises_bind.mp hraise with h1 | ⟨ruleType, db₁, -, hraise⟩
  · simp [allowedRuleType] at h1
  rcases Svc.raises_bind.mp hraise with h2 | ⟨x, db₂, -, hraise⟩
  · simp [validateConditions] at h2
  rcases Svc.raises_bind.mp hraise with h3 | ⟨y, db₃, -, hraise⟩
  · cases hu : body.assignedUserId <;> simp [hu, checkAssignedUser, requireSalesRole] at h3
  rcases Svc.raises_bind.mp hraise with h4 | ⟨z, db₄, hcheck, hraise⟩
  · exact not_raises_checkSlot h4
  obtain ⟨hfree, rfl⟩ := returns_checkSlot.mp hcheck
  simp only [insertRule, Svc.raises_bind, Svc.raises_get, Svc.raises_require, Svc.raises_modify,
    Svc.raises_pure, Svc.returns_get, false_or, or_false, and_false, exists_false] at hraise
  obtain ⟨s, s', ⟨rfl, rfl⟩, hclash, -⟩ := hraise
  rw [Bool.not_eq_false, Store.exists?_iff] at hclash
  obtain ⟨j, b, hb, hcl⟩ := hclash
  have hlt := Store.get?_lt hb
  refine absurd hcl (Bool.eq_false_iff.mp ?_)
  refine fits_of_slotFree hfree (k := db₃.rules.next) (.inl rfl) ?_ ?_ (by omega) hb
  · rfl
  · rfl

/-! ## Reordering -/

theorem ofValue?_eq_some {v : String} {t : RuleType} :
    RuleType.ofValue? v = some t ↔ t.value = v := by
  constructor
  · intro h
    simpa using List.find?_some h
  · rintro rfl
    cases t <;> decide

theorem mem_renumbered {rules : Store LeadRoutingRule} {f : ℕ → ℤ} {ids : List ℕ}
    {u : ℕ × LeadRoutingRule} :
    u ∈ renumbered rules f ids ↔
      ∃ i rule, ids[i]? = some u.1 ∧ rules.get? u.1 = some rule ∧
        u.2 = { rule with priority := f i } := by
  obtain ⟨k, r⟩ := u
  simp only [renumbered, List.mem_filterMap, Prod.exists, List.mem_zipIdx_iff_getElem?,
    Option.map_eq_some_iff, Prod.mk.injEq]
  constructor
  · rintro ⟨k', i, hi, rule, hrule, rfl, rfl⟩
    exact ⟨i, rule, hi, hrule, rfl⟩
  · rintro ⟨i, rule, hi, hrule, rfl⟩
    exact ⟨k, i, hi, rule, hrule, rfl, rfl⟩

/-- The keys of a phase are the ids, in their order. -/
theorem renumbered_keys {rules : Store LeadRoutingRule} {f : ℕ → ℤ} {ids : List ℕ}
    (hstored : ∀ k ∈ ids, rules.get? k ≠ none) : (renumbered rules f ids).map Prod.fst = ids := by
  have hkeys : ∀ p ∈ ids.zipIdx, ((rules.get? p.1).map fun rule =>
      (p.1, ({ rule with priority := f p.2 } : LeadRoutingRule))).map Prod.fst = some p.1 := by
    intro p hp
    obtain ⟨rule, hrule⟩ :=
      Option.ne_none_iff_exists'.mp (hstored p.1 (List.fst_mem_of_mem_zipIdx hp))
    simp [hrule]
  unfold renumbered
  rw [List.map_filterMap, List.filterMap_congr hkeys]
  simp

/-- What a phase leaves. -/
structure Renumbered (f : ℕ → ℤ) (ids : List ℕ) (db db' : RoutingDb) : Prop where
  listed : ∀ (i k : ℕ) (rule : LeadRoutingRule), ids[i]? = some k → db.rules.get? k = some rule →
    db'.rules.get? k = some { rule with priority := f i }
  others : ∀ k, k ∉ ids → db'.rules.get? k = db.rules.get? k

/-- The ids name live rules of one type, each once. -/
structure Listed (db : RoutingDb) (ruleType : RuleType) (ids : List ℕ) : Prop where
  nodup : ids.Nodup
  stored : ∀ k ∈ ids, ∃ rule, db.rules.get? k = some rule ∧ rule.ruleType = ruleType ∧
    rule.deletedAt = none

/-- The updates of a phase whose priorities no live rule of the type has. -/
theorem apart_renumbered {ruleType : RuleType} {ids : List ℕ} {f : ℕ → ℤ}
    (hids : Listed db ruleType ids) (hf : Function.Injective f)
    (hfresh : ∀ j b, db.rules.get? j = some b → b.ruleType = ruleType → b.deletedAt = none →
      ∀ i, b.priority ≠ f i) :
    Store.Apart clashes db.rules (renumbered db.rules f ids) where
  keys := by
    rw [renumbered_keys fun k hk => ?_]
    · exact hids.nodup
    · obtain ⟨rule, hrule, -⟩ := hids.stored k hk
      simp [hrule]
  stored := by
    intro u hu
    obtain ⟨i, rule, -, hrule, -⟩ := mem_renumbered.mp hu
    simp [hrule]
  old := by
    intro u hu j b hj hb
    obtain ⟨i, rule, hi, hrule, hnew⟩ := mem_renumbered.mp hu
    obtain ⟨rule', hrule', htype, -⟩ := hids.stored u.1 (List.mem_of_getElem? hi)
    obtain rfl := Option.some.inj (hrule.symm.trans hrule')
    rw [clashes_eq_false_iff, hnew]
    intro _ hlive ht hp
    exact hfresh j b hb (ht.symm.trans htype) hlive i hp.symm
  new := by
    have hkeys : (renumbered db.rules f ids).Pairwise fun u v => u.1 ≠ v.1 := by
      apply List.pairwise_map.mp
      rw [renumbered_keys fun k hk => ?_]
      · exact hids.nodup
      · obtain ⟨rule, hrule, -⟩ := hids.stored k hk
        simp [hrule]
    refine hkeys.imp_of_mem fun {u v} hu hv hne => ?_
    obtain ⟨i, rule, hi, -, hnew⟩ := mem_renumbered.mp hu
    obtain ⟨j, rule', hj, -, hnew'⟩ := mem_renumbered.mp hv
    rw [clashes_eq_false_iff, hnew, hnew']
    intro _ _ _ hp
    have hij : i = j := hf hp
    subst hij
    exact hne (Option.some.inj (hi.symm.trans hj))

/-- A phase whose priorities no live rule of the type has goes through in any order. -/
theorem returns_flushRenumbered (emit : Emission) {ruleType : RuleType} {ids : List ℕ} {f : ℕ → ℤ}
    (hids : Listed db ruleType ids) (hf : Function.Injective f)
    (hfresh : ∀ j b, db.rules.get? j = some b → b.ruleType = ruleType → b.deletedAt = none →
      ∀ i, b.priority ≠ f i) :
    ∃ db', Svc.Returns (flushRows emit (renumbered db.rules f ids)) db () db' ∧
      Renumbered f ids db db' := by
  have hapart := (apart_renumbered hids hf hfresh).perm clashes_comm (emit.perm _)
  obtain ⟨t, hall, hnew, hold⟩ := Store.writeAll_of_apart clashes_comm hapart
  have hstored : ∀ k ∈ ids, db.rules.get? k ≠ none := by
    intro k hk
    obtain ⟨rule, hrule, -⟩ := hids.stored k hk
    simp [hrule]
  refine ⟨{ db with rules := t }, ?_, fun i k rule hi hk => ?_, fun k hk => ?_⟩
  · simp [flushRows, hall]
  · have hmem : (k, ({ rule with priority := f i } : LeadRoutingRule)) ∈
        renumbered db.rules f ids := mem_renumbered.mpr ⟨i, rule, hi, hk, rfl⟩
    exact hnew _ ((emit.perm _).mem_iff.mpr hmem)
  · apply hold k
    rw [((emit.perm _).map Prod.fst).mem_iff, renumbered_keys hstored]
    exact hk

theorem Enumerates.listed {ruleType : RuleType} {ids : List ℕ}
    (h : Enumerates db ruleType.value ids) : Listed db ruleType ids where
  nodup := h.nodup
  stored := by
    intro k hk
    obtain ⟨rule, hrule, ht, hlive⟩ := (h.mem_iff k).mp hk
    exact ⟨rule, hrule, RuleType.value_injective ht, hlive⟩

/-- The scratch priorities are free before, and gone after the second phase. -/
theorem returns_renumber (ho : RuleOrder db) (emit : Emission) {ruleType : RuleType}
    {ids : List ℕ} (h : Enumerates db ruleType.value ids) :
    ∃ db', Svc.Returns (renumber emit ids) db ids db' ∧
      Renumbered (fun i => (i : ℤ)) ids db db' := by
  have hscratch : Function.Injective fun i : ℕ => (-1 - (i : ℤ)) := by
    intro i j hij
    simp only at hij
    omega
  obtain ⟨db₁, hfirst, hr₁⟩ := returns_flushRenumbered emit h.listed hscratch
    fun j b hb _ hlive i => by
      have := ho.nonneg j b hb hlive
      omega
  have hmoved : ∀ k rule, db.rules.get? k = some rule → k ∈ ids → ∃ i : ℕ, ids[i]? = some k ∧
      db₁.rules.get? k = some { rule with priority := -1 - (i : ℤ) } := by
    intro k rule hk hmem
    obtain ⟨i, hi⟩ := List.mem_iff_getElem?.mp hmem
    exact ⟨i, hi, hr₁.listed i k rule hi hk⟩
  have hids₁ : Listed db₁ ruleType ids := by
    refine ⟨h.nodup, fun k hk => ?_⟩
    obtain ⟨rule, hrule, ht, hlive⟩ := h.listed.stored k hk
    obtain ⟨i, -, hget⟩ := hmoved k rule hrule hk
    exact ⟨_, hget, ht, hlive⟩
  have hnat : Function.Injective fun i : ℕ => (i : ℤ) := by
    intro i j hij
    simp only at hij
    omega
  obtain ⟨db₂, hsecond, hr₂⟩ := returns_flushRenumbered emit hids₁ hnat
    fun j b hb ht hlive i => by
      by_cases hj : j ∈ ids
      · obtain ⟨rule, hrule, -⟩ := h.listed.stored j hj
        obtain ⟨i', -, hget⟩ := hmoved j rule hrule hj
        rw [hget] at hb
        obtain rfl := Option.some.inj hb
        show (-1 - (i' : ℤ)) ≠ i
        omega
      · rw [hr₁.others j hj] at hb
        exact absurd ((h.mem_iff j).mpr ⟨b, hb, by rw [ht], hlive⟩) hj
  refine ⟨db₂, ?_, fun i k rule hi hk => ?_, fun k hk => ?_⟩
  · apply Svc.returns_get_bind.mpr
    refine Svc.returns_bind.mpr ⟨(), db₁, hfirst, ?_⟩
    apply Svc.returns_get_bind.mpr
    exact Svc.returns_bind.mpr ⟨(), db₂, hsecond, Svc.returns_pure.mpr ⟨rfl, rfl⟩⟩
  · have hone := hr₁.listed i k rule hi hk
    rw [hr₂.listed i k _ hi hone]
  · rw [hr₂.others k hk, hr₁.others k hk]

/-- The two lists of the error are empty when the ids are those of the bucket. -/
theorem bucket_matches_iff {ruleType : RuleType} {ids : List ℕ} (hnd : ids.Nodup) :
    (((db.rules.select (isLiveOf ruleType)).map Prod.fst).filter (fun i => i ∉ ids) = [] ∧
      ids.filter (fun i => i ∉ (db.rules.select (isLiveOf ruleType)).map Prod.fst) = []) ↔
      Enumerates db ruleType.value ids := by
  have hlocked : ∀ k, k ∈ (db.rules.select (isLiveOf ruleType)).map Prod.fst ↔
      ∃ rule, db.rules.get? k = some rule ∧ rule.ruleType.value = ruleType.value ∧
        rule.deletedAt = none := by
    intro k
    simp only [List.mem_map, Prod.exists, exists_and_right, exists_eq_right, Store.mem_select,
      isLiveOf, Bool.and_eq_true, decide_eq_true_eq, Option.isNone_iff_eq_none,
      RuleType.value_injective.eq_iff]
  simp only [List.filter_eq_nil_iff, decide_not, Bool.not_eq_true', decide_eq_false_iff_not,
    not_not]
  constructor
  · rintro ⟨hmissing, hunknown⟩
    refine ⟨hnd, fun k => ?_⟩
    rw [← hlocked]
    exact ⟨hunknown k, hmissing k⟩
  · intro h
    exact ⟨fun k hk => (h.mem_iff k).mpr ((hlocked k).mp hk),
      fun k hk => (hlocked k).mpr ((h.mem_iff k).mp hk)⟩

/-- When a reordering of a type succeeds. -/
theorem reorder_returns_iff (ho : RuleOrder db) {ruleType : String} {ids : List ℕ}
    (hne : ids ≠ []) :
    (∃ res db', Svc.Returns (reorderPriorities env emit ruleType ids) db res db') ↔
      Enumerates db ruleType ids := by
  simp only [reorderPriorities, allowedRuleType, Svc.returns_expect_bind, if_neg hne,
    Svc.returns_require_bind, Svc.returns_get_bind, ofValue?_eq_some]
  constructor
  · rintro ⟨res, db', t, rfl, hnd, hmatch, -⟩
    exact (bucket_matches_iff hnd).mp hmatch
  · intro h
    obtain ⟨k, hk⟩ := List.exists_mem_of_ne_nil ids hne
    obtain ⟨rule, -, ht, -⟩ := (h.mem_iff k).mp hk
    subst ht
    obtain ⟨db', hret, -⟩ := returns_renumber ho emit h
    exact ⟨ids, db', rule.ruleType, rfl, h.nodup, (bucket_matches_iff h.nodup).mpr h, hret⟩

/-- What a reordering leaves. -/
theorem reorder_leaves (ho : RuleOrder db) {ruleType : String} {ids res : List ℕ}
    (hne : ids ≠ []) (hr : Svc.Returns (reorderPriorities env emit ruleType ids) db res db') :
    Enumerates db ruleType ids ∧ Renumbered (fun i => (i : ℤ)) ids db db' := by
  have h : Enumerates db ruleType ids := (reorder_returns_iff ho hne).mp ⟨res, db', hr⟩
  simp only [reorderPriorities, allowedRuleType, Svc.returns_expect_bind, if_neg hne,
    Svc.returns_require_bind, Svc.returns_get_bind, ofValue?_eq_some] at hr
  obtain ⟨t, rfl, -, -, hr⟩ := hr
  obtain ⟨db₁, hret, hnumbers⟩ := returns_renumber ho emit h
  have hdb : db₁ = db' := (hret.unique hr).2
  exact ⟨h, hdb ▸ hnumbers⟩

theorem flushRows_unique {rows : List (ℕ × LeadRoutingRule)} {x : Unit}
    (hu : db.UniquePriorities) (hr : Svc.Returns (flushRows emit rows) db x db') :
    db'.UniquePriorities := by
  simp only [flushRows, Svc.returns_get_bind, Svc.returns_expect_bind, Svc.returns_modify] at hr
  obtain ⟨t, hall, rfl⟩ := hr
  exact indexed_iff.mp ((indexed_iff.mpr hu).writeAll clashes_comm hall)

theorem renumber_unique {ids res : List ℕ} (hu : db.UniquePriorities)
    (hr : Svc.Returns (renumber emit ids) db res db') : db'.UniquePriorities := by
  obtain ⟨x, db₁, hfirst, hr⟩ := Svc.returns_bind.mp (Svc.returns_get_bind.mp hr)
  obtain ⟨y, db₂, hsecond, hr⟩ := Svc.returns_bind.mp (Svc.returns_get_bind.mp hr)
  obtain ⟨-, rfl⟩ := Svc.returns_pure.mp hr
  exact flushRows_unique (flushRows_unique hu hfirst) hsecond

theorem reorder_order (ho : RuleOrder db) {ruleType : String} {ids res : List ℕ}
    (hr : Svc.Returns (reorderPriorities env emit ruleType ids) db res db') : RuleOrder db' := by
  by_cases hne : ids = []
  · subst hne
    simp only [reorderPriorities, allowedRuleType, Svc.returns_expect_bind, if_pos,
      Svc.returns_pure] at hr
    obtain ⟨t, -, -, rfl⟩ := hr
    exact ho
  obtain ⟨h, hnumbers⟩ := reorder_leaves ho hne hr
  simp only [reorderPriorities, allowedRuleType, Svc.returns_expect_bind, if_neg hne,
    Svc.returns_require_bind, Svc.returns_get_bind] at hr
  obtain ⟨t, -, -, -, hr⟩ := hr
  refine ⟨renumber_unique ho.unique hr, fun k rule hk hlive => ?_⟩
  by_cases hmem : k ∈ ids
  · obtain ⟨i, hi⟩ := List.mem_iff_getElem?.mp hmem
    obtain ⟨stored, hstored, -⟩ := (h.mem_iff k).mp hmem
    rw [hnumbers.listed i k stored hi hstored] at hk
    obtain rfl := Option.some.inj hk
    exact Int.natCast_nonneg i
  · rw [hnumbers.others k hmem] at hk
    exact ho.nonneg k rule hk hlive

theorem reorder_noViolation (ho : RuleOrder db) {ruleType : String} {ids : List ℕ}
    {index : String} :
    ¬Svc.Raises (reorderPriorities env emit ruleType ids) db (.integrityError index) := by
  by_cases hne : ids = []
  · subst hne
    simp [reorderPriorities, allowedRuleType]
  intro hraise
  simp only [reorderPriorities, allowedRuleType, if_neg hne, Svc.raises_bind, Svc.raises_expect,
    Svc.raises_require, Svc.raises_get, Svc.returns_expect, Svc.returns_require, Svc.returns_get,
    reduceCtorEq, and_false, false_or, ofValue?_eq_some] at hraise
  obtain ⟨t, db₁, ⟨rfl, rfl⟩, u, db₂, ⟨hnd, rfl⟩, s, db₃, ⟨rfl, rfl⟩, v, db₄, ⟨hmatch, rfl⟩, hr⟩ :=
    hraise
  obtain ⟨db', hret, -⟩ := returns_renumber ho emit ((bucket_matches_iff hnd).mp hmatch)
  unfold Svc.Raises at hr
  unfold Svc.Returns at hret
  rw [hret] at hr
  cases hr

/-! ## Runs in order -/

theorem ruleOp_returns_order {op : RuleOp} (ho : RuleOrder db) {u : Unit}
    (hr : Svc.Returns (op.service env) db u db') : RuleOrder db' := by
  cases op with
  | create creator body =>
    obtain ⟨rule, hret⟩ := Svc.returns_void.mp hr
    exact createRule_order ho hret
  | update emit ruleId patch =>
    obtain ⟨rule, hret⟩ := Svc.returns_void.mp hr
    exact updateRule_order ho hret
  | softDelete emit now ruleId =>
    obtain ⟨rule, hret⟩ := Svc.returns_void.mp hr
    exact softDeleteRule_order ho hret
  | reorder emit ruleType orderedIds =>
    obtain ⟨res, hret⟩ := Svc.returns_void.mp hr
    exact reorder_order ho hret
  | elsewhere roster defaultSalesRepId =>
    obtain rfl := Svc.returns_modify.mp hr
    exact ⟨ho.unique, ho.nonneg⟩

/-- Every call keeps the order, returned or rolled back. -/
theorem ruleStep_order (op : RuleOp) (ho : RuleOrder db) : RuleOrder (ruleStep env db op) := by
  unfold ruleStep
  rcases Svc.request_cases (fun before _ => before) (op.service env) db with
    ⟨u, db', hret, h⟩ | ⟨e, db', -, h⟩
  · rw [h]
    exact ruleOp_returns_order ho hret
  · rw [h]
    exact ho

theorem ruleOp_noViolation (op : RuleOp) (ho : RuleOrder db) (index : String) :
    ¬Svc.Raises (op.service env) db (.integrityError index) := by
  intro hraise
  cases op with
  | create creator body => exact createRule_noViolation (Svc.raises_void.mp hraise)
  | update emit ruleId patch => exact updateRule_noViolation ho (Svc.raises_void.mp hraise)
  | softDelete emit now ruleId => exact softDeleteRule_noViolation (Svc.raises_void.mp hraise)
  | reorder emit ruleType orderedIds => exact reorder_noViolation ho (Svc.raises_void.mp hraise)
  | elsewhere roster defaultSalesRepId => exact Svc.raises_modify hraise

theorem ruleStep_rejected {op : RuleOp} {e : RoutingError}
    (h : Svc.Raises (op.service env) db e) : ruleStep env db op = db := by
  unfold ruleStep Svc.request
  match hx : Svc.exec (op.service env) db with
  | (.ok u, db') =>
    unfold Svc.Raises at h
    rw [hx] at h
    cases h
  | (.error e', db') => rfl

theorem ruleOp_sound (op : RuleOp) (ho : RuleOrder db) : CallSound env db op where
  noViolation := ruleOp_noViolation op ho
  rejected := fun e h => ruleStep_rejected h
  reorder := by
    rintro emit ruleType ids rfl hne
    have hservice :
        (∃ u db', Svc.Returns ((RuleOp.reorder emit ruleType ids).service env) db u db') ↔
          ∃ res db', Svc.Returns (reorderPriorities env emit ruleType ids) db res db' := by
      constructor
      · rintro ⟨u, db', hr⟩
        obtain ⟨res, hret⟩ := Svc.returns_void.mp hr
        exact ⟨res, db', hret⟩
      · rintro ⟨res, db', hret⟩
        exact ⟨(), db', Svc.returns_void.mpr ⟨res, hret⟩⟩
    refine ⟨hservice.trans (reorder_returns_iff ho hne), fun hok i k hi => ?_⟩
    obtain ⟨u, db', hr⟩ := hok
    obtain ⟨res, hret⟩ := Svc.returns_void.mp hr
    obtain ⟨h, hnumbers⟩ := reorder_leaves ho hne hret
    have hstep : ruleStep env db (.reorder emit ruleType ids) = db' := by
      unfold ruleStep
      rw [Svc.request_of_returns hr]
    obtain ⟨rule, hrule, -⟩ := (h.mem_iff k).mp (List.mem_of_getElem? hi)
    exact ⟨_, by rw [hstep]; exact hnumbers.listed i k rule hi hrule, rfl⟩

/-- In every run of the calls live rules of one type keep different priorities, no flush
    meets the index in any order of its rows, a reordering succeeds exactly for an
    enumeration of its bucket and then leaves the priorities 0, 1, …, and a rejected call
    changes nothing. -/
theorem priorities_strictly_ordered (env : RoutingSchema) (start : OrderedRules)
    (ops : List RuleOp) :
    AllStates (ruleStep env) RuleOrder start.db ops ∧
      AllSteps (ruleStep env) (CallSound env) start.db ops := by
  constructor
  · exact allStates_of_step (fun db op ho => ruleStep_order op ho) start.order ops
  · exact allSteps_of_step (fun db op ho => ruleStep_order op ho)
      (fun db op ho => ruleOp_sound op ho) start.order ops

/-! ## A reordering -/

/-- Two rules of users 1 and 2 that rotate, the second after the first. -/
def rotationRules : RoutingDb where
  rules := (Store.empty.create (rotation 0)).create { rotation 0 with priority := 1 }
  roster := emptyRoster
  defaultSalesRepId := none

def orderedRotations : OrderedRules where
  db := rotationRules
  order := by
    constructor
    · refine Store.pairwise_create_two SlotsDiffer.symm fun _ _ _ => ?_
      decide
    · have hrows : ∀ row ∈ rotationRules.rules.select fun _ _ => true, 0 ≤ row.2.priority := by
        decide +kernel
      intro k rule hrule _
      exact hrows (k, rule) (Store.mem_select.mpr ⟨hrule, rfl⟩)

/-- The two rules swapped. -/
def swapRotations : RuleOp := .reorder inSetOrder "round_robin" [1, 0]

theorem orderedRotations_swapped :
    ((ruleStep asciiSchema rotationRules swapRotations).rules.select fun _ _ => true).map
        (fun row => row.2.priority) = [1, 0] ∧
      RuleOrder (ruleStep asciiSchema rotationRules swapRotations) ∧
      CallSound asciiSchema rotationRules swapRotations := by
  obtain ⟨hstates, hcalls⟩ :=
    priorities_strictly_ordered asciiSchema orderedRotations [swapRotations]
  exact ⟨by decide +kernel, hstates.last, hcalls.1⟩

end TempleConsign.LeadRouting
