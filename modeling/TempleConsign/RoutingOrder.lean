import TempleConsign.LeadRouting

/-!
# The order of routing rules

The database returns the rules in any order. The geographic and the round-robin
rules are sorted by priority before they are tried. The ad hoc rules are tried as
they come, although the comment above the query speaks of rules "ordered by type
bucket and priority".

A rule may match without a user to assign; the waterfall passes over it.
`MatchReading` has both readings of "the matching rule of lowest priority value".

Results:
* `routing_wellDefined_iff`: the user does not depend on the order and the assigned
  rule is the first of its type exactly when at most one ad hoc rule can assign.
* `adHoc_order_decides`: two orders of the same two rules, two users.
-/

namespace TempleConsign.LeadRouting

open ServiceLib

/-! ## The property -/

/-- The conditions of the rule hold for the customer. -/
def Matches (env : RoutingEnv) (customer : RoutedCustomer) (rule : LeadRoutingRule) : Prop :=
  match rule.ruleType with
  | .adHoc => adHocMatches env rule (some customer.id) customer.email = true
  | .geographic => geographicMatches env customer rule = .ok true
  | .roundRobin => roundRobinRepIds env rule ≠ []

/-- The rule names the user it assigns; a round-robin rule does by its reps. -/
def LeadRoutingRule.NamesUser (rule : LeadRoutingRule) : Prop :=
  rule.ruleType = .roundRobin ∨ rule.assignedUserId ≠ none

/-- The rule can assign the customer's record. -/
def CanAssign (env : RoutingEnv) (customer : RoutedCustomer) (rule : LeadRoutingRule) : Prop :=
  Matches env customer rule ∧ rule.NamesUser

/-- The ZIP list of the rule raises for this customer. -/
def Fails (env : RoutingEnv) (customer : RoutedCustomer) (rule : LeadRoutingRule) : Prop :=
  rule.ruleType = .geographic ∧ ∃ e, geographicMatches env customer rule = .error e

/-- Which rules count as matching: those that can assign, or all whose conditions
    hold. -/
inductive MatchReading
  | assigning
  | literal

def MatchReading.Counts (reading : MatchReading) (env : RoutingEnv) (customer : RoutedCustomer)
    (rule : LeadRoutingRule) : Prop :=
  Matches env customer rule ∧ (reading = assigning → rule.NamesUser)

/-- A live enabled rule. -/
def RoutingDb.HasRule (db : RoutingDb) (k : ℕ) (rule : LeadRoutingRule) : Prop :=
  db.rules.get? k = some rule ∧ rule.isLiveEnabled = true

/-- The user the waterfall assigns, or what it raises. -/
def assignedUser (env : RoutingEnv) (db : RoutingDb) (rows : List (ℕ × LeadRoutingRule))
    (customer : RoutedCustomer) : Except RoutingError (Option ℕ) :=
  (Svc.exec (routeForRecord env rows customer) db).1.map RoutingDecision.assignedUserId

/-- The property: no order of the rows matters, and within its type the assigned
    rule has the lowest priority value of those that match. -/
structure WellDefined (reading : MatchReading) (env : RoutingEnv) (db : RoutingDb)
    (customer : RoutedCustomer) : Prop where
  orderFree : ∀ rows rows', LoadsActiveRules db rows → LoadsActiveRules db rows' →
    assignedUser env db rows customer = assignedUser env db rows' customer
  lowest : ∀ rows, LoadsActiveRules db rows → ∀ decision db',
    Svc.Returns (routeForRecord env rows customer) db decision db' →
    ∀ k, decision.ruleId = some k → ∀ rule, db.HasRule k rule →
    ∀ k' rule', db.HasRule k' rule' → rule'.ruleType = rule.ruleType →
      reading.Counts env customer rule' → rule.priority ≤ rule'.priority

/-- A table of rules under its unique index. -/
structure IndexedRules where
  db : RoutingDb
  uniquePriorities : db.UniquePriorities

/-! ## The condition -/

/-- At most one ad hoc rule can assign. -/
def AdHocUnique (env : RoutingEnv) (db : RoutingDb) (customer : RoutedCustomer) : Prop :=
  ∀ k rule k' rule', db.HasRule k rule → db.HasRule k' rule' → rule.ruleType = .adHoc →
    rule'.ruleType = .adHoc → CanAssign env customer rule → CanAssign env customer rule' → k = k'

/-- The waterfall does not come to the rule: an ad hoc rule assigns before the
    geographic ones are tried, or a rule of the same type with a lower priority value
    assigns or fails. -/
def Blocked (env : RoutingEnv) (db : RoutingDb) (customer : RoutedCustomer)
    (rule : LeadRoutingRule) : Prop :=
  (rule.ruleType = .geographic ∧
    ∃ k r, db.HasRule k r ∧ r.ruleType = .adHoc ∧ CanAssign env customer r) ∨
  ∃ k r, db.HasRule k r ∧ r.ruleType = rule.ruleType ∧ r.priority < rule.priority ∧
    (CanAssign env customer r ∨ Fails env customer r)

/-- No rule that matches without a user comes before a rule of its type that
    assigns. -/
def NoVacantAhead (env : RoutingEnv) (db : RoutingDb) (customer : RoutedCustomer) : Prop :=
  ∀ k rule k' rule', db.HasRule k rule → db.HasRule k' rule' → rule'.ruleType = rule.ruleType →
    CanAssign env customer rule → Matches env customer rule' → ¬rule'.NamesUser →
    rule'.priority < rule.priority → Blocked env db customer rule

/-! ## The steps -/

variable {env : RoutingEnv} {customer : RoutedCustomer} {db : RoutingDb}
  {rows rows' : List (ℕ × LeadRoutingRule)}

theorem CanAssign.counts {rule : LeadRoutingRule} (h : CanAssign env customer rule)
    (reading : MatchReading) : reading.Counts env customer rule := ⟨h.1, fun _ => h.2⟩

theorem canAssign_adHoc_iff {rule : LeadRoutingRule} (ht : rule.ruleType = .adHoc) :
    CanAssign env customer rule ↔
      adHocMatches env rule (some customer.id) customer.email = true ∧
        rule.assignedUserId ≠ none := by
  simp [CanAssign, Matches, LeadRoutingRule.NamesUser, ht]

theorem canAssign_geographic_iff {rule : LeadRoutingRule} (ht : rule.ruleType = .geographic) :
    CanAssign env customer rule ↔
      geographicMatches env customer rule = .ok true ∧ rule.assignedUserId ≠ none := by
  simp [CanAssign, Matches, LeadRoutingRule.NamesUser, ht]

/-- An ad hoc rule gives a decision exactly when it can assign. -/
theorem adHocStep_ne_none_iff (row : ℕ × LeadRoutingRule) (ht : row.2.ruleType = .adHoc) :
    adHocStep env customer row ≠ none ↔ CanAssign env customer row.2 := by
  rw [canAssign_adHoc_iff ht]
  unfold adHocStep
  split_ifs with h
  · simp [h, decideRule]
  · simp [h]

/-- The geographic loop stops at a rule that can assign or fails. -/
theorem stops_geographicStep_iff (row : ℕ × LeadRoutingRule)
    (ht : row.2.ruleType = .geographic) :
    stops (geographicStep env customer row) = true ↔
      CanAssign env customer row.2 ∨ Fails env customer row.2 := by
  rw [canAssign_geographic_iff ht, geographicStep_eq]
  unfold Fails
  match h : geographicMatches env customer row.2 with
  | .ok true => cases row.2.assignedUserId <;> simp [decideRule, stops]
  | .ok false => simp [stops]
  | .error e => simp [stops, ht]

/-! ## The ad hoc loop -/

theorem hasRule_iff (hrows : LoadsActiveRules db rows) {row : ℕ × LeadRoutingRule} :
    row ∈ rows ↔ db.HasRule row.1 row.2 := hrows.mem_iff

theorem mem_bucket_iff (hrows : LoadsActiveRules db rows) {ruleType : RuleType}
    {row : ℕ × LeadRoutingRule} :
    row ∈ bucket ruleType rows ↔ db.HasRule row.1 row.2 ∧ row.2.ruleType = ruleType := by
  rw [mem_bucket, hasRule_iff hrows]

theorem RoutingDb.HasRule.eq {k : ℕ} {rule rule' : LeadRoutingRule} (h : db.HasRule k rule)
    (h' : db.HasRule k rule') : rule = rule' := by
  have hsome : some rule = some rule' := h.1.symm.trans h'.1
  exact Option.some.inj hsome

/-- Where at most one ad hoc rule can assign, the loop finds it in any order. -/
theorem adHocPass_iff (hu : AdHocUnique env db customer) (hrows : LoadsActiveRules db rows)
    {decision : RoutingDecision} :
    (bucket .adHoc rows).findSome? (adHocStep env customer) = some decision ↔
      ∃ k rule, db.HasRule k rule ∧ rule.ruleType = .adHoc ∧
        adHocStep env customer (k, rule) = some decision := by
  rw [findSome?_iff_of_unique]
  · constructor
    · rintro ⟨⟨k, rule⟩, hmem, hd⟩
      obtain ⟨hrule, ht⟩ := (mem_bucket_iff hrows).mp hmem
      exact ⟨k, rule, hrule, ht, hd⟩
    · rintro ⟨k, rule, hrule, ht, hd⟩
      exact ⟨(k, rule), (mem_bucket_iff hrows).mpr ⟨hrule, ht⟩, hd⟩
  · rintro ⟨k, rule⟩ hmem ⟨k', rule'⟩ hmem' hd hd'
    obtain ⟨hrule, ht⟩ := (mem_bucket_iff hrows).mp hmem
    obtain ⟨hrule', ht'⟩ := (mem_bucket_iff hrows).mp hmem'
    have hk : k = k' := hu k rule k' rule' hrule hrule' ht ht'
      ((adHocStep_ne_none_iff _ ht).mp hd) ((adHocStep_ne_none_iff _ ht').mp hd')
    subst hk
    have hr : rule = rule' := hrule.eq hrule'
    rw [hr]

theorem adHocPass_none_iff (hrows : LoadsActiveRules db rows) :
    (bucket .adHoc rows).findSome? (adHocStep env customer) = none ↔
      ∀ k rule, db.HasRule k rule → rule.ruleType = .adHoc → ¬CanAssign env customer rule := by
  rw [List.findSome?_eq_none_iff]
  constructor
  · intro h k rule hrule ht hc
    exact (adHocStep_ne_none_iff (k, rule) ht).mpr hc
      (h (k, rule) ((mem_bucket_iff hrows).mpr ⟨hrule, ht⟩))
  · rintro h ⟨k, rule⟩ hmem
    obtain ⟨hrule, ht⟩ := (mem_bucket_iff hrows).mp hmem
    by_contra hne
    exact h k rule hrule ht ((adHocStep_ne_none_iff _ ht).mp hne)

/-! ## The sorted loops -/

theorem decideRule_ruleId {ruleType : RuleType} {k : ℕ} {userId : Option ℕ}
    {decision : RoutingDecision} (h : decideRule ruleType k userId = some decision) :
    decision.ruleId = some k := by
  obtain ⟨u, -, rfl⟩ := decideRule_eq_some.mp h
  rfl

/-- The geographic loop ends at the rule of lowest priority value among those that can
    assign or fail. -/
theorem geographicPass_iff (hidx : db.UniquePriorities) (hrows : LoadsActiveRules db rows)
    {decision : RoutingDecision} :
    (byPriority (bucket .geographic rows)).findSomeM? (geographicStep env customer) =
        .ok (some decision) ↔
      ∃ k rule, db.HasRule k rule ∧ rule.ruleType = .geographic ∧
        geographicStep env customer (k, rule) = .ok (some decision) ∧
        ∀ k' r, db.HasRule k' r → r.ruleType = .geographic →
          CanAssign env customer r ∨ Fails env customer r → rule.priority ≤ r.priority := by
  have hfind := fun row => find?_sortedBy_iff (hrows.keysDiffer hidx .geographic)
    (p := fun row => stops (geographicStep env customer row)) (a := row)
  rw [findSomeM?_except]
  constructor
  · intro h
    cases hf : (byPriority (bucket .geographic rows)).find?
        fun row => stops (geographicStep env customer row) with
    | none => simp [hf] at h
    | some row =>
      obtain ⟨k, rule⟩ := row
      obtain ⟨hmem, -, hleast⟩ := (hfind (k, rule)).mp hf
      obtain ⟨hrule, ht⟩ := (mem_bucket_iff hrows).mp hmem
      refine ⟨k, rule, hrule, ht, by simpa [hf] using h, fun k' r hr htr hstop => ?_⟩
      exact hleast (k', r) ((mem_bucket_iff hrows).mpr ⟨hr, htr⟩)
        ((stops_geographicStep_iff (k', r) htr).mpr hstop)
  · rintro ⟨k, rule, hrule, ht, hd, hleast⟩
    have hf : (byPriority (bucket .geographic rows)).find?
        (fun row => stops (geographicStep env customer row)) = some (k, rule) := by
      refine (hfind (k, rule)).mpr ⟨(mem_bucket_iff hrows).mpr ⟨hrule, ht⟩, by simp [hd, stops], ?_⟩
      rintro ⟨k', r⟩ hmem hstop
      obtain ⟨hr, htr⟩ := (mem_bucket_iff hrows).mp hmem
      exact hleast k' r hr htr ((stops_geographicStep_iff _ htr).mp hstop)
    rw [hf]
    exact hd

/-- The round-robin loop leaves the tables as they are, or claims a turn of the first
    rule with reps. -/
theorem roundRobinPass_cases (hrows : LoadsActiveRules db rows) {o : Option RoutingDecision}
    {db' : RoutingDb}
    (h : Svc.Returns ((byPriority (bucket .roundRobin rows)).findSomeM? (roundRobinStep env)) db
      o db') :
    (o = none ∧ db = db') ∨ ∃ k rule, ∃ u ∈ roundRobinRepIds env rule,
      (byPriority (bucket .roundRobin rows)).find? (fun row => roundRobinRepIds env row.2 ≠ []) =
        some (k, rule) ∧
      db.HasRule k rule ∧ rule.ruleType = .roundRobin ∧
      o = decideRule .roundRobin k (some u) ∧
      db' = { db with rules := db.rules.modify k .claimed } := by
  have hl : ∀ row ∈ byPriority (bucket .roundRobin rows), db.HasRule row.1 row.2 ∧
      row.2.ruleType = .roundRobin :=
    fun row hrow => (mem_bucket_iff hrows).mp (mem_byPriority.mp hrow)
  unfold Svc.Returns at h
  rw [exec_roundRobinPass _ fun row hrow => (hl row hrow).1.1] at h
  cases hf : (byPriority (bucket .roundRobin rows)).find?
      fun row => roundRobinRepIds env row.2 ≠ [] with
  | none =>
    rw [hf] at h
    obtain ⟨ho, hdb⟩ := Prod.mk.inj h
    exact .inl ⟨(Except.ok.inj ho).symm, hdb⟩
  | some row =>
    obtain ⟨k, rule⟩ := row
    obtain ⟨hrule, ht⟩ := hl (k, rule) (List.mem_of_find?_eq_some hf)
    have hreps : roundRobinRepIds env rule ≠ [] := by simpa using List.find?_some hf
    obtain ⟨u, hu, hrep⟩ := repAt_mem hreps rule.claimed.roundRobinIndex
    rw [hf, Option.elim_some, roundRobinStep, Svc.exec_bind, exec_claim hrule.1 hreps] at h
    split_ifs at h with hmax
    · obtain ⟨ho, rfl⟩ := Prod.mk.inj h
      rw [hrep] at ho
      exact .inr ⟨k, rule, u, hu, rfl, hrule, ht, (Except.ok.inj ho).symm, rfl⟩
    · simp at h

/-- The round-robin loop ends at the rule of lowest priority value among those with
    reps. -/
theorem roundRobinPass_returns (hidx : db.UniquePriorities) (hrows : LoadsActiveRules db rows)
    {decision : RoutingDecision} {db' : RoutingDb}
    (h : Svc.Returns ((byPriority (bucket .roundRobin rows)).findSomeM? (roundRobinStep env)) db
      (some decision) db') :
    ∃ k rule, db.HasRule k rule ∧ rule.ruleType = .roundRobin ∧ decision.ruleId = some k ∧
      ∀ k' r, db.HasRule k' r → r.ruleType = .roundRobin → roundRobinRepIds env r ≠ [] →
        rule.priority ≤ r.priority := by
  rcases roundRobinPass_cases hrows h with ⟨hnone, -⟩ | ⟨k, rule, u, -, hf, hrule, ht, hd, -⟩
  · cases hnone
  obtain ⟨-, -, hleast⟩ := (find?_sortedBy_iff (hrows.keysDiffer hidx .roundRobin)).mp hf
  refine ⟨k, rule, hrule, ht, decideRule_ruleId hd.symm, fun k' r hr htr hreps => ?_⟩
  exact hleast (k', r) ((mem_bucket_iff hrows).mpr ⟨hr, htr⟩) (by simpa using hreps)

/-! ## The decision of the waterfall -/

theorem returns_fallback {decision : RoutingDecision} {db' : RoutingDb}
    (h : Svc.Returns (fallback env) db decision db') :
    decision.assignedUserId = readDefaultSalesRep env db ∧ decision.ruleId = none := by
  have hfall := Svc.returns_get_bind.mp h
  cases hr : readDefaultSalesRep env db with
  | none =>
    rw [hr] at hfall
    rw [← (Svc.returns_pure.mp hfall).1]
    exact ⟨rfl, rfl⟩
  | some u =>
    rw [hr] at hfall
    rw [← (Svc.returns_pure.mp hfall).1]
    exact ⟨rfl, rfl⟩

/-- Which step a decision comes from. -/
theorem routed_cases {decision : RoutingDecision} {db' : RoutingDb}
    (hrows : LoadsActiveRules db rows)
    (h : Svc.Returns (routeForRecord env rows customer) db decision db') :
    (bucket .adHoc rows).findSome? (adHocStep env customer) = some decision ∨
    ((bucket .adHoc rows).findSome? (adHocStep env customer) = none ∧
      (byPriority (bucket .geographic rows)).findSomeM? (geographicStep env customer) =
        .ok (some decision)) ∨
    Svc.Returns ((byPriority (bucket .roundRobin rows)).findSomeM? (roundRobinStep env)) db
      (some decision) db' ∨
    Svc.Returns (fallback env) db decision db' := by
  rcases returns_orNext.mp h with hA | ⟨db₁, hA, h⟩
  · exact .inl (Svc.returns_pure.mp hA).1
  obtain ⟨hnone, rfl⟩ := Svc.returns_pure.mp hA
  rcases returns_orNext.mp h with hG | ⟨db₂, hG, h⟩
  · exact .inr (.inl ⟨hnone, (Svc.returns_lift.mp hG).1⟩)
  obtain ⟨-, rfl⟩ := Svc.returns_lift.mp hG
  rcases returns_orNext.mp h with hR | ⟨db₃, hR, h⟩
  · exact .inr (.inr (.inl hR))
  · have hdb : db = db₃ := by
      rcases roundRobinPass_cases hrows hR with ⟨-, hdb⟩ | ⟨k, rule, u, -, -, -, -, hd, -⟩
      · exact hdb
      · cases hd
    rw [hdb]
    exact .inr (.inr (.inr (hdb ▸ h)))

/-- An ad hoc decision whose step is in the loaded rows is returned. -/
theorem returns_of_adHoc {decision : RoutingDecision}
    (h : (bucket .adHoc rows).findSome? (adHocStep env customer) = some decision) :
    Svc.Returns (routeForRecord env rows customer) db decision db :=
  returns_orNext.mpr (.inl (Svc.returns_pure.mpr ⟨h, rfl⟩))

theorem returns_of_geographic {decision : RoutingDecision}
    (hnone : (bucket .adHoc rows).findSome? (adHocStep env customer) = none)
    (h : (byPriority (bucket .geographic rows)).findSomeM? (geographicStep env customer) =
      .ok (some decision)) :
    Svc.Returns (routeForRecord env rows customer) db decision db := by
  refine returns_orNext.mpr (.inr ⟨db, Svc.returns_pure.mpr ⟨hnone, rfl⟩, ?_⟩)
  exact returns_orNext.mpr (.inl (Svc.returns_lift.mpr ⟨h, rfl⟩))

/-! ## Necessity -/

/-- A rule that can assign decides if its row comes first. -/
theorem exists_order {k : ℕ} {rule : LeadRoutingRule} (hrule : db.HasRule k rule)
    (ht : rule.ruleType = .adHoc) (hc : CanAssign env customer rule) :
    ∃ rows, LoadsActiveRules db rows ∧ ∃ decision, decision.ruleId = some k ∧
      Svc.Returns (routeForRecord env rows customer) db decision db := by
  have hmem : (k, rule) ∈ db.rules.select fun _ r => r.isLiveEnabled := Store.mem_select.mpr hrule
  obtain ⟨before, after, hsplit⟩ := List.append_of_mem hmem
  obtain ⟨decision, hd⟩ :=
    Option.ne_none_iff_exists'.mp ((adHocStep_ne_none_iff (k, rule) ht).mpr hc)
  refine ⟨(k, rule) :: (before ++ after), ?_, decision,
    decideRule_ruleId (adHocStep_eq_some.mp hd).2, returns_of_adHoc ?_⟩
  · unfold LoadsActiveRules
    rw [hsplit]
    exact List.perm_middle.symm
  · simp [bucket, ht, hd]

theorem WellDefined.adHocUnique {reading : MatchReading} (hidx : db.UniquePriorities)
    (h : WellDefined reading env db customer) : AdHocUnique env db customer := by
  intro k rule k' rule' hrule hrule' ht ht' hc hc'
  obtain ⟨rows, hrows, decision, hk, hret⟩ := exists_order hrule ht hc
  obtain ⟨rows', hrows', decision', hk', hret'⟩ := exists_order hrule' ht' hc'
  have hle : rule.priority ≤ rule'.priority :=
    h.lowest rows hrows decision db hret k hk rule hrule k' rule' hrule' (ht'.trans ht.symm)
      (hc'.counts reading)
  have hge : rule'.priority ≤ rule.priority :=
    h.lowest rows' hrows' decision' db hret' k' hk' rule' hrule' k rule hrule (ht.trans ht'.symm)
      (hc.counts reading)
  by_contra hne
  exact hidx k k' rule rule' hne hrule.1 hrule'.1
    (LeadRoutingRule.live_of_isLiveEnabled hrule.2)
    (LeadRoutingRule.live_of_isLiveEnabled hrule'.2) (ht.trans ht'.symm) (le_antisymm hle hge)

/-- A rule that can assign and is not blocked decides. -/
theorem returns_of_not_blocked (hidx : db.UniquePriorities) (hu : AdHocUnique env db customer)
    (hrows : LoadsActiveRules db rows) {k : ℕ} {rule : LeadRoutingRule}
    (hrule : db.HasRule k rule) (hc : CanAssign env customer rule)
    (ht : rule.ruleType ≠ .roundRobin) (hb : ¬Blocked env db customer rule) :
    ∃ decision, decision.ruleId = some k ∧
      Svc.Returns (routeForRecord env rows customer) db decision db := by
  cases htype : rule.ruleType with
  | adHoc =>
    obtain ⟨decision, hd⟩ :=
      Option.ne_none_iff_exists'.mp ((adHocStep_ne_none_iff (k, rule) htype).mpr hc)
    exact ⟨decision, decideRule_ruleId (adHocStep_eq_some.mp hd).2,
      returns_of_adHoc ((adHocPass_iff hu hrows).mpr ⟨k, rule, hrule, htype, hd⟩)⟩
  | geographic =>
    obtain ⟨hmatch, huser⟩ := (canAssign_geographic_iff htype).mp hc
    obtain ⟨u, hassigned⟩ := Option.ne_none_iff_exists'.mp huser
    have hstep : geographicStep env customer (k, rule) =
        .ok (some ⟨some u, some k, some .geographic, "lead_routing"⟩) := by
      simp [geographicStep_eq, hmatch, hassigned, decideRule]
    refine ⟨_, rfl, returns_of_geographic ?_ ((geographicPass_iff hidx hrows).mpr
      ⟨k, rule, hrule, htype, hstep, fun k' r hr htr hstop => ?_⟩)⟩
    · refine (adHocPass_none_iff hrows).mpr fun k' r hr htr hcr => ?_
      exact hb (.inl ⟨htype, k', r, hr, htr, hcr⟩)
    · by_contra hlt
      exact hb (.inr ⟨k', r, hr, htr.trans htype.symm, lt_of_not_ge hlt, hstop⟩)
  | roundRobin => exact absurd htype ht

theorem WellDefined.noVacantAhead (hidx : db.UniquePriorities)
    (h : WellDefined .literal env db customer) : NoVacantAhead env db customer := by
  intro k rule k' rule' hrule hrule' ht hc hmatch hvacant hlt
  have hrows : LoadsActiveRules db (db.rules.select fun _ r => r.isLiveEnabled) := List.Perm.refl _
  have hnotRr : rule.ruleType ≠ .roundRobin := fun hrr => hvacant (.inl (ht.trans hrr))
  by_contra hb
  obtain ⟨decision, hk, hret⟩ :=
    returns_of_not_blocked hidx (h.adHocUnique hidx) hrows hrule hc hnotRr hb
  have hle := h.lowest _ hrows decision db hret k hk rule hrule k' rule' hrule' ht
    ⟨hmatch, fun hr => by cases hr⟩
  omega

/-! ## Sufficiency -/

/-- Nothing that counts comes before a rule that decides, where no rule that can assign
    does and none that fails. -/
theorem le_of_counts {reading : MatchReading}
    (hv : reading = .literal → NoVacantAhead env db customer) {k : ℕ} {rule : LeadRoutingRule}
    (hrule : db.HasRule k rule) (hc : CanAssign env customer rule)
    (hearlier : rule.ruleType = .geographic →
      ∀ k r, db.HasRule k r → r.ruleType = .adHoc → ¬CanAssign env customer r)
    (hleast : ∀ k' r, db.HasRule k' r → r.ruleType = rule.ruleType →
      CanAssign env customer r ∨ Fails env customer r → rule.priority ≤ r.priority)
    {k' : ℕ} {rule' : LeadRoutingRule} (hrule' : db.HasRule k' rule')
    (ht : rule'.ruleType = rule.ruleType) (hcounts : reading.Counts env customer rule') :
    rule.priority ≤ rule'.priority := by
  by_cases hnames : rule'.NamesUser
  · exact hleast k' rule' hrule' ht (.inl ⟨hcounts.1, hnames⟩)
  by_contra hlt
  have hliteral : reading = .literal := by
    cases reading with
    | assigning => exact absurd (hcounts.2 rfl) hnames
    | literal => rfl
  rcases hv hliteral k rule k' rule' hrule hrule' ht hc hcounts.1 hnames (lt_of_not_ge hlt) with
    ⟨hgeo, j, r, hr, htr, hcr⟩ | ⟨j, r, hr, htr, hlow, hstop⟩
  · exact hearlier hgeo j r hr htr hcr
  · have := hleast j r hr htr hstop
    omega

theorem wellDefined_of_unique {reading : MatchReading} (hidx : db.UniquePriorities)
    (hu : AdHocUnique env db customer)
    (hv : reading = .literal → NoVacantAhead env db customer) :
    WellDefined reading env db customer where
  orderFree := by
    intro rows rows' hrows hrows'
    have hadHoc : (bucket .adHoc rows).findSome? (adHocStep env customer) =
        (bucket .adHoc rows').findSome? (adHocStep env customer) := by
      apply Option.ext
      intro decision
      rw [adHocPass_iff hu hrows, adHocPass_iff hu hrows']
    have hsorted : ∀ t, byPriority (bucket t rows) = byPriority (bucket t rows') := by
      intro t
      have hperm : rows.Perm rows' := List.Perm.trans hrows (List.Perm.symm hrows')
      exact sortedBy_eq_of_perm (hrows.keysDiffer hidx t) (hperm.filter _)
    unfold assignedUser routeForRecord
    rw [hadHoc, hsorted .geographic, hsorted .roundRobin]
  lowest := by
    intro rows hrows decision db' hret k hk rule hrule k' rule' hrule' ht hcounts
    have hfails : ∀ r, r.ruleType ≠ .geographic → ¬Fails env customer r := fun r hr hf => hr hf.1
    rcases routed_cases hrows hret with hA | ⟨hnone, hG⟩ | hR | hF
    · obtain ⟨j, r, hr, htr, hstep⟩ := (adHocPass_iff hu hrows).mp hA
      have hd := (adHocStep_eq_some.mp hstep).2
      have hj : j = k := Option.some.inj ((decideRule_ruleId hd).symm.trans hk)
      subst hj
      have hrr : rule = r := hrule.eq hr
      subst hrr
      have hc : CanAssign env customer rule :=
        (adHocStep_ne_none_iff (j, rule) htr).mp (by simp [hstep])
      refine le_of_counts hv hrule hc (fun hgeo => by simp [htr] at hgeo) ?_ hrule' ht hcounts
      intro i x hx htx hstop
      have hcx : CanAssign env customer x := hstop.resolve_right (hfails x (by simp [htx, htr]))
      have hij : i = j := hu i x j rule hx hrule (htx.trans htr) htr hcx hc
      subst hij
      rw [hx.eq hrule]
    · obtain ⟨j, r, hr, htr, hstep, hleast⟩ := (geographicPass_iff hidx hrows).mp hG
      obtain ⟨hmatch, hd⟩ := geographicStep_eq_some.mp hstep
      obtain ⟨u, huser, -⟩ := decideRule_eq_some.mp hd
      have hcr : CanAssign env customer r :=
        (canAssign_geographic_iff htr).mpr ⟨hmatch, Option.ne_none_iff_exists'.mpr ⟨u, huser⟩⟩
      have hj : j = k := Option.some.inj ((decideRule_ruleId hd).symm.trans hk)
      subst hj
      have hrr : rule = r := hrule.eq hr
      subst hrr
      refine le_of_counts hv hrule hcr (fun _ => (adHocPass_none_iff hrows).mp hnone) ?_ hrule' ht
        hcounts
      intro i x hx htx hstop
      exact hleast i x hx (htx.trans htr) hstop
    · obtain ⟨j, r, hr, htr, hj, hleast⟩ := roundRobinPass_returns hidx hrows hR
      have hjk : j = k := Option.some.inj (hj.symm.trans hk)
      subst hjk
      have hrr : rule = r := hrule.eq hr
      subst hrr
      have hmatch := hcounts.1
      unfold Matches at hmatch
      rw [ht.trans htr] at hmatch
      exact hleast k' rule' hrule' (ht.trans htr) hmatch
    · rw [(returns_fallback hF).2] at hk
      cases hk

/-! ## Main theorem -/

/-- Routing is well defined for a customer exactly when at most one live enabled ad hoc
    rule can assign the record and, where rules without a user count as matching, none of
    these comes before the rule that assigns. -/
theorem routing_wellDefined_iff (reading : MatchReading) (env : RoutingEnv) (t : IndexedRules)
    (customer : RoutedCustomer) :
    WellDefined reading env t.db customer ↔
      AdHocUnique env t.db customer ∧
        (reading = .literal → NoVacantAhead env t.db customer) := by
  constructor
  · intro h
    refine ⟨h.adHocUnique t.uniquePriorities, fun hr => ?_⟩
    subst hr
    exact h.noVacantAhead t.uniquePriorities
  · rintro ⟨hu, hv⟩
    exact wellDefined_of_unique t.uniquePriorities hu hv

/-! ## Two ad hoc rules for one customer -/

/-- An ad hoc rule for the customers of `acme.com`. -/
def acmeRule (priority : ℤ) (userId : ℕ) : LeadRoutingRule where
  ruleType := .adHoc
  priority := priority
  conditions := some [("condition_type", .str "email_domain"), ("value", .str "@acme.com")]
  assignedUserId := some userId
  roundRobinIndex := 0
  isActive := true
  createdBy := none
  deletedAt := none

def acmeCustomer : RoutedCustomer where
  id := 7
  email := some "jo@acme.com"
  addressStreet := none
  addressCity := none
  addressState := none
  addressZip := none

def acmeRules : RoutingDb where
  rules := (Store.empty.create (acmeRule 0 1)).create (acmeRule 1 2)
  roster := emptyRoster
  defaultSalesRepId := none

theorem acmeRules_unique : acmeRules.UniquePriorities := by
  refine Store.pairwise_create_two SlotsDiffer.symm fun _ _ _ => ?_
  decide

/-- The rule of priority 0 assigns user 1 if its row comes first, the rule of priority
    1 assigns user 2 if its row does. -/
theorem adHoc_order_decides :
    acmeRules.UniquePriorities ∧
    LoadsActiveRules acmeRules [(0, acmeRule 0 1), (1, acmeRule 1 2)] ∧
    LoadsActiveRules acmeRules [(1, acmeRule 1 2), (0, acmeRule 0 1)] ∧
    assignedUser asciiEnv acmeRules [(0, acmeRule 0 1), (1, acmeRule 1 2)] acmeCustomer =
      .ok (some 1) ∧
    assignedUser asciiEnv acmeRules [(1, acmeRule 1 2), (0, acmeRule 0 1)] acmeCustomer =
      .ok (some 2) := by
  exact ⟨acmeRules_unique, List.Perm.swap _ _ _, List.Perm.refl _, by decide +kernel,
    by decide +kernel⟩

/-- The table of the two rules. -/
def acmeIndexed : IndexedRules := ⟨acmeRules, acmeRules_unique⟩

/-- A customer of another domain. -/
def westCustomer : RoutedCustomer := { acmeCustomer with id := 8, email := some "al@west.com" }

theorem acmeRule_assigns {priority : ℤ} {userId : ℕ}
    (h : adHocMatches asciiEnv (acmeRule priority userId) (some acmeCustomer.id)
      acmeCustomer.email = true) : CanAssign asciiEnv acmeCustomer (acmeRule priority userId) :=
  ⟨h, .inr (Option.some_ne_none userId)⟩

theorem westCustomer_unmatched {k : ℕ} {rule : LeadRoutingRule} (h : acmeRules.HasRule k rule) :
    ¬Matches asciiEnv westCustomer rule := by
  have hrows : ∀ row ∈ acmeRules.rules.select fun _ r => r.isLiveEnabled,
      row.2.ruleType = .adHoc ∧
        adHocMatches asciiEnv row.2 (some westCustomer.id) westCustomer.email = false := by
    decide +kernel
  obtain ⟨htype, hno⟩ := hrows (k, rule) (Store.mem_select.mpr h)
  unfold Matches
  simp only at htype hno
  simp [htype, hno]

/-- Routing over the two rules is well defined for the customer of another domain and is
    not for one of theirs. -/
theorem acmeIndexed_routing :
    WellDefined .literal asciiEnv acmeIndexed.db westCustomer ∧
      ¬WellDefined .assigning asciiEnv acmeIndexed.db acmeCustomer := by
  constructor
  · refine (routing_wellDefined_iff .literal asciiEnv acmeIndexed westCustomer).mpr
      ⟨?_, fun _ => ?_⟩
    · intro k rule k' rule' hrule _ _ _ hc _
      exact absurd hc.1 (westCustomer_unmatched hrule)
    · intro k rule k' rule' hrule _ _ hc _ _ _
      exact absurd hc.1 (westCustomer_unmatched hrule)
  · intro h
    have hunique :=
      ((routing_wellDefined_iff .assigning asciiEnv acmeIndexed acmeCustomer).mp h).1
    have hsame := hunique 0 (acmeRule 0 1) 1 (acmeRule 1 2) ⟨rfl, rfl⟩ ⟨rfl, rfl⟩ rfl rfl
      (acmeRule_assigns (by decide +kernel)) (acmeRule_assigns (by decide +kernel))
    exact absurd hsame (by decide)

end TempleConsign.LeadRouting
