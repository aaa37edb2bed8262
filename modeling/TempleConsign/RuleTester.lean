import TempleConsign.Lib.Run
import TempleConsign.RoutingOrder
import TempleConsign.RoutingRules

/-!
# The rule tester

`test_rule` and `route_for_record` are written separately: the one predicts the user of
a rule, the other assigns it and counts the assignment. Where the rule is the only live
enabled one they name the same user, and the test leaves the tables as they are.

Where the round-robin counter has reached the end of its column the waterfall raises and
the tester still predicts a user.

Results:
* `metroMatches_eq`: the two metro checks agree on a rule that `parse_conditions` accepts.
* `tester_agrees`: the two functions agree for every type of rule.
* `tester_misses_counter_end`: a prediction that the waterfall does not fulfil.
-/

namespace TempleConsign.LeadRouting

open ServiceLib

/-! ## The property -/

/-- The user assigned with `trigger="lead_routing"`. -/
def RoutingDecision.leadUser (decision : RoutingDecision) : Option ℕ :=
  if decision.trigger = "lead_routing" then decision.assignedUserId else none

/-- The customer's attributes as the tester's arguments, the geocoded coordinates as
    `customer_lat` and `customer_lng`. -/
def testInput (env : RoutingEnv) (customer : RoutedCustomer) : TestRuleInput where
  customerId := some customer.id
  customerEmail := customer.email
  customerState := customer.addressState
  customerZip := customer.addressZip
  customerLat := (coordinates env customer).map Prod.fst
  customerLng := (coordinates env customer).map Prod.snd

/-- A rule that `parse_conditions` accepts, the only live enabled one. -/
structure SoleRule (env : RoutingSchema) where
  db : RoutingDb
  ruleId : ℕ
  rule : LeadRoutingRule
  stored : db.HasRule ruleId rule
  only : ∀ k r, db.HasRule k r → k = ruleId
  accepted : parseConditions env rule.ruleType rule.conditions = true

/-- What the tester predicts. -/
def predictedUser (env : RoutingEnv) (db : RoutingDb) (ruleId : ℕ) (input : TestRuleInput) :
    Except RoutingError (Option ℕ) :=
  (Svc.exec (testRule env ruleId input) db).1.map TestRuleResult.wouldAssignTo

/-- The user that the waterfall assigns through a rule. -/
def routedUser (env : RoutingEnv) (db : RoutingDb) (rows : List (ℕ × LeadRoutingRule))
    (customer : RoutedCustomer) : Except RoutingError (Option ℕ) :=
  (Svc.exec (routeForRecord env rows customer) db).1.map RoutingDecision.leadUser

/-- One call of the tester. -/
def testStep (env : RoutingEnv) (db : RoutingDb) (probe : ℕ × TestRuleInput) : RoutingDb :=
  (Svc.exec (testRule env probe.1 probe.2) db).2

/-! ## What `parse_conditions` guarantees -/

theorem acceptsFloat_bounds {env : RoutingSchema} {inBounds : ℚ → Bool} {value : Json} {q : ℚ}
    (h : acceptsFloat env inBounds value = true) (hq : env.float value = some q) :
    inBounds q = true := by
  cases value with
  | str s =>
    simp only [acceptsFloat] at h
    have hs : env.floatOf s = some q := hq
    match ht : env.floatText s, h with
    | some (some q'), h =>
      have heq := env.floatText_eq s (some q') ht
      rw [hs] at heq
      rw [Option.some.inj heq]
      exact h
    | some none, h =>
      have heq := env.floatText_eq s none ht
      rw [hs] at heq
      cases heq
  | _ => simpa [acceptsFloat, hq] using h

theorem metroArea_eq_some {env : RoutingEnv} {rule : LeadRoutingRule} {center : ℚ × ℚ}
    {radius : ℚ} (h : metroArea env rule = some (center, radius)) :
    ∃ metro, rule.cond.get "metro_area" = .obj metro ∧
      env.float (Dict.get metro "radius_miles") = some radius := by
  unfold metroArea at h
  match hm : rule.cond.get "metro_area", h with
  | .obj metro, h =>
    refine ⟨metro, rfl, ?_⟩
    simp only [Option.bind_eq_bind, Option.bind_eq_some_iff, Option.pure_def,
      Option.some.injEq, Prod.mk.injEq] at h
    obtain ⟨lat, -, lon, -, r, hr, -, rfl⟩ := h
    exact hr

/-- An accepted metro area has a positive radius. -/
theorem radius_pos {env : RoutingSchema} {rule : LeadRoutingRule} {center : ℚ × ℚ} {radius : ℚ}
    (h : parseConditions env .geographic rule.conditions = true)
    (hm : metroArea env.toRoutingEnv rule = some (center, radius)) : 0 < radius := by
  obtain ⟨metro, hmetro, hr⟩ := metroArea_eq_some hm
  have haccepts : acceptsMetroArea env metro = true := by
    have hcond : (rule.conditions.getD []).get "metro_area" = .obj metro := hmetro
    simp only [parseConditions, acceptsGeographic, hcond, Bool.and_eq_true] at h
    obtain ⟨-, h⟩ := h
    match optionalTexts ((rule.conditions.getD []).get "state_list"),
        optionalTexts ((rule.conditions.getD []).get "zip_list"), h with
    | some states, some zips, h =>
      simp only [Bool.and_eq_true] at h
      exact h.1.1
  simp only [acceptsMetroArea, Bool.and_eq_true] at haccepts
  have hbounds := acceptsFloat_bounds haccepts.1.2 hr
  simp only [Bool.and_eq_true, decide_eq_true_eq] at hbounds
  exact hbounds.1

/-! ## The two paths -/

variable {env : RoutingSchema} {customer : RoutedCustomer}

/-- The metro check of the waterfall is the tester's on the geocoded coordinates. -/
theorem metroMatches_eq {rule : LeadRoutingRule}
    (h : parseConditions env .geographic rule.conditions = true) :
    metroMatches env.toRoutingEnv rule customer =
      testMetro env.toRoutingEnv rule (testInput env.toRoutingEnv customer) := by
  cases hc : coordinates env.toRoutingEnv customer with
  | none =>
    cases hm : metroArea env.toRoutingEnv rule with
    | none => simp [metroMatches, testMetro, testInput, hc, hm]
    | some area =>
      obtain ⟨center, radius⟩ := area
      simp [metroMatches, testMetro, testInput, hc, hm]
  | some coords =>
    cases hm : metroArea env.toRoutingEnv rule with
    | none => simp [metroMatches, testMetro, testInput, metroMatchesSynthetic, hc, hm]
    | some area =>
      obtain ⟨center, radius⟩ := area
      have hpos := radius_pos h hm
      simp only [metroMatches, testMetro, testInput, metroMatchesSynthetic, hc, hm,
        Option.map_some, if_neg (not_le.mpr hpos)]
      rw [env.haversineMiles_comm]

/-- The geographic branch of the tester matches when the waterfall does. -/
theorem testGeographic_user {ruleId : ℕ} {rule : LeadRoutingRule}
    (h : parseConditions env .geographic rule.conditions = true) :
    (testGeographic env.toRoutingEnv ruleId rule (testInput env.toRoutingEnv customer)).map
        TestRuleResult.wouldAssignTo =
      (geographicMatches env.toRoutingEnv customer rule).map fun matched =>
        if matched then rule.assignedUserId else none := by
  have hmetro : metroMatches env.toRoutingEnv rule customer =
      testMetro env.toRoutingEnv rule (testInput env.toRoutingEnv customer) := metroMatches_eq h
  unfold testGeographic geographicMatches
  show (Except.bind (geoMatches env.toRoutingEnv rule customer.addressState customer.addressZip)
    _).map _ = (Except.bind (geoMatches env.toRoutingEnv rule customer.addressState
      customer.addressZip) _).map _
  match geoMatches env.toRoutingEnv rule customer.addressState customer.addressZip with
  | .ok true => rfl
  | .ok false =>
    simp only [Except.bind, hmetro]
    rfl
  | .error e => rfl

/-! ## The waterfall on one rule -/

/-- The query returns the one rule. -/
theorem SoleRule.rows_eq (t : SoleRule env) {rows : List (ℕ × LeadRoutingRule)}
    (hrows : LoadsActiveRules t.db rows) : rows = [(t.ruleId, t.rule)] := by
  have hsel : t.db.rules.select (fun _ r => r.isLiveEnabled) = [(t.ruleId, t.rule)] :=
    Store.select_eq_singleton t.stored fun k r hk hp => t.only k r ⟨hk, hp⟩
  unfold LoadsActiveRules at hrows
  rw [hsel] at hrows
  exact List.perm_singleton.mp hrows

theorem bucket_one (ruleType : RuleType) (row : ℕ × LeadRoutingRule) :
    bucket ruleType [row] = if row.2.ruleType = ruleType then [row] else [] := by
  simp [bucket, List.filter_cons]

/-- The fallback assigns nobody through a rule. -/
theorem fallback_leadUser (env : RoutingEnv) (db : RoutingDb) :
    (Svc.exec (fallback env) db).1.map RoutingDecision.leadUser = .ok none := by
  simp only [fallback, Svc.exec_bind, Svc.exec_get]
  cases readDefaultSalesRep env db with
  | none => rfl
  | some u => rfl

/-- The user of a step, or none when the waterfall goes on to the fallback. -/
theorem orNext_leadUser {step : RoutingService (Option RoutingDecision)}
    {next : RoutingService RoutingDecision} {db : RoutingDb}
    (hnext : ∀ db', (Svc.exec next db').1.map RoutingDecision.leadUser = .ok none) :
    (Svc.exec (orNext step next) db).1.map RoutingDecision.leadUser =
      (Svc.exec step db).1.map fun o => o.bind RoutingDecision.leadUser := by
  rw [exec_orNext]
  match Svc.exec step db with
  | (.ok (some decision), db') => rfl
  | (.ok none, db') => exact hnext db'
  | (.error e, db') => rfl

/-- A step without rules to try goes on. -/
theorem orNext_none (next : RoutingService RoutingDecision) (db : RoutingDb) :
    Svc.exec (orNext (pure none) next) db = Svc.exec next db := by
  rw [exec_orNext]
  rfl

theorem decideRule_bind (ruleType : RuleType) (ruleId : ℕ) (userId : Option ℕ) :
    (decideRule ruleType ruleId userId).bind RoutingDecision.leadUser = userId := by
  cases userId with
  | none => rfl
  | some u => rfl

theorem findSomeM?_one {α β : Type} {m : Type → Type} [Monad m] [LawfulMonad m]
    (f : α → m (Option β)) (a : α) : [a].findSomeM? f = f a := by
  rw [List.findSomeM?_cons]
  conv_rhs => rw [← bind_pure (f a)]
  congr
  funext o
  cases o <;> rfl

/-- The loops of the other types have nothing to try. -/
theorem exec_loops {rows : List (ℕ × LeadRoutingRule)} {db : RoutingDb}
    (hgeo : bucket .geographic rows = []) (hrr : bucket .roundRobin rows = []) :
    (Svc.exec (orNext (Svc.lift ((byPriority (bucket .geographic rows)).findSomeM?
        (geographicStep env.toRoutingEnv customer))) <|
      orNext ((byPriority (bucket .roundRobin rows)).findSomeM?
        (roundRobinStep env.toRoutingEnv)) <|
      fallback env.toRoutingEnv) db).1.map RoutingDecision.leadUser = .ok none := by
  rw [hgeo, hrr]
  show (Svc.exec (orNext (pure none) (orNext (pure none) (fallback env.toRoutingEnv))) db).1.map
    _ = _
  rw [orNext_none, orNext_none]
  exact fallback_leadUser env.toRoutingEnv db

theorem routedUser_adHoc (t : SoleRule env) (ht : t.rule.ruleType = .adHoc) :
    routedUser env.toRoutingEnv t.db [(t.ruleId, t.rule)] customer =
      .ok (if adHocMatches env.toRoutingEnv t.rule (some customer.id) customer.email then
        t.rule.assignedUserId else none) := by
  have hgeo : bucket .geographic [(t.ruleId, t.rule)] = [] := by simp [bucket_one, ht]
  have hrr : bucket .roundRobin [(t.ruleId, t.rule)] = [] := by simp [bucket_one, ht]
  have hadHoc : bucket .adHoc [(t.ruleId, t.rule)] = [(t.ruleId, t.rule)] := by
    simp [bucket_one, ht]
  unfold routedUser routeForRecord
  rw [orNext_leadUser fun db' => exec_loops hgeo hrr, hadHoc]
  simp only [Svc.exec_pure, List.findSome?_cons, List.findSome?_nil]
  unfold adHocStep
  split_ifs with h
  · cases t.rule.assignedUserId with
    | none => rfl
    | some u => rfl
  · rfl

theorem routedUser_geographic (t : SoleRule env) (ht : t.rule.ruleType = .geographic) :
    routedUser env.toRoutingEnv t.db [(t.ruleId, t.rule)] customer =
      (geographicMatches env.toRoutingEnv customer t.rule).map fun matched =>
        if matched then t.rule.assignedUserId else none := by
  have hadHoc : bucket .adHoc [(t.ruleId, t.rule)] = [] := by simp [bucket_one, ht]
  have hrr : bucket .roundRobin [(t.ruleId, t.rule)] = [] := by simp [bucket_one, ht]
  have hgeo : byPriority (bucket .geographic [(t.ruleId, t.rule)]) = [(t.ruleId, t.rule)] := by
    simp [bucket_one, ht, byPriority, sortedBy]
  have hrest : ∀ db', (Svc.exec (orNext ((byPriority (bucket .roundRobin
      [(t.ruleId, t.rule)])).findSomeM? (roundRobinStep env.toRoutingEnv))
      (fallback env.toRoutingEnv)) db').1.map RoutingDecision.leadUser = .ok none := by
    intro db'
    rw [hrr]
    show (Svc.exec (orNext (pure none) _) db').1.map _ = _
    rw [orNext_none]
    exact fallback_leadUser env.toRoutingEnv db'
  unfold routedUser routeForRecord
  rw [hadHoc]
  show (Svc.exec (orNext (pure none) _) t.db).1.map _ = _
  rw [orNext_none, orNext_leadUser hrest, hgeo, findSomeM?_one, Svc.exec_lift, geographicStep_eq]
  match geographicMatches env.toRoutingEnv customer t.rule with
  | .ok true => exact congrArg Except.ok (decideRule_bind _ _ _)
  | .ok false => rfl
  | .error e => rfl

theorem routedUser_roundRobin (t : SoleRule env) (ht : t.rule.ruleType = .roundRobin)
    (hindex : t.rule.roundRobinIndex < maxInteger) :
    routedUser env.toRoutingEnv t.db [(t.ruleId, t.rule)] customer =
      .ok (repAt (roundRobinRepIds env.toRoutingEnv t.rule) t.rule.claimed.roundRobinIndex) := by
  have hadHoc : bucket .adHoc [(t.ruleId, t.rule)] = [] := by simp [bucket_one, ht]
  have hgeo : bucket .geographic [(t.ruleId, t.rule)] = [] := by simp [bucket_one, ht]
  have hrr : byPriority (bucket .roundRobin [(t.ruleId, t.rule)]) = [(t.ruleId, t.rule)] := by
    simp [bucket_one, ht, byPriority, sortedBy]
  unfold routedUser routeForRecord
  rw [hadHoc, hgeo]
  show (Svc.exec (orNext (pure none) (orNext (pure none) _)) t.db).1.map _ = _
  rw [orNext_none, orNext_none, orNext_leadUser fun db' => fallback_leadUser env.toRoutingEnv db',
    hrr, findSomeM?_one, roundRobinStep, Svc.exec_bind]
  by_cases hreps : roundRobinRepIds env.toRoutingEnv t.rule = []
  · simp only [hreps, claimNextRoundRobin, if_pos, Svc.exec_pure]
    rfl
  · rw [exec_claim t.stored.1 hreps, if_pos hindex]
    exact congrArg Except.ok (decideRule_bind _ _ _)

/-! ## Main theorem -/

theorem testStep_eq (env : RoutingEnv) (db : RoutingDb) (probe : ℕ × TestRuleInput) :
    testStep env db probe = db := by
  obtain ⟨ruleId, input⟩ := probe
  unfold testStep testRule
  rw [Svc.exec_bind]
  simp only [getRule, Svc.exec_bind, Svc.exec_get, Svc.exec_expect]
  cases hr : (db.rules.get? ruleId).filter fun rule => rule.deletedAt.isNone with
  | none => rfl
  | some rule => cases ht : rule.ruleType <;> simp [ht]

theorem predictedUser_eq (t : SoleRule env) (input : TestRuleInput) :
    predictedUser env.toRoutingEnv t.db t.ruleId input = match t.rule.ruleType with
      | .adHoc => .ok (testAdHoc env.toRoutingEnv t.ruleId t.rule input).wouldAssignTo
      | .geographic => (testGeographic env.toRoutingEnv t.ruleId t.rule input).map
          TestRuleResult.wouldAssignTo
      | .roundRobin => .ok (testRoundRobin env.toRoutingEnv t.ruleId t.rule).wouldAssignTo := by
  have hget : Svc.exec (getRule t.ruleId) t.db = (.ok t.rule, t.db) :=
    returns_getRule.mpr ⟨⟨t.stored.1, LeadRoutingRule.live_of_isLiveEnabled t.stored.2⟩, rfl⟩
  unfold predictedUser testRule
  rw [Svc.exec_bind, hget]
  cases ht : t.rule.ruleType with
  | adHoc => simp only [ht, Svc.exec_pure, Except.map]
  | geographic => simp only [ht, Svc.exec_lift]
  | roundRobin => simp only [ht, Svc.exec_pure, Except.map]

/-- On a customer's attributes and geocoded coordinates the tester predicts what the
    waterfall assigns through the rule, while the counter has not reached its end; and
    no number of tests, of any rules, changes the tables. -/
theorem tester_agrees (env : RoutingSchema) (t : SoleRule env) (customer : RoutedCustomer)
    (rows : List (ℕ × LeadRoutingRule)) (hrows : LoadsActiveRules t.db rows)
    (hindex : t.rule.ruleType = .roundRobin → t.rule.roundRobinIndex < maxInteger) :
    predictedUser env.toRoutingEnv t.db t.ruleId (testInput env.toRoutingEnv customer) =
        routedUser env.toRoutingEnv t.db rows customer ∧
      ∀ probes, run (testStep env.toRoutingEnv) t.db probes = t.db := by
  refine ⟨?_, fun probes => ?_⟩
  · rw [t.rows_eq hrows, predictedUser_eq]
    cases ht : t.rule.ruleType with
    | adHoc => exact (routedUser_adHoc t ht).symm
    | geographic =>
      have haccepted := t.accepted
      rw [ht] at haccepted
      rw [routedUser_geographic t ht]
      exact testGeographic_user haccepted
    | roundRobin =>
      rw [routedUser_roundRobin t ht (hindex ht)]
      unfold testRoundRobin repAt LeadRoutingRule.claimed
      by_cases hreps : roundRobinRepIds env.toRoutingEnv t.rule = []
      · simp [hreps]
      · simp [hreps]
  · induction probes with
    | nil => rfl
    | cons probe probes ih => rw [run_cons, testStep_eq, ih]

/-! ## A rotation of two users -/

/-- A table with one rule. -/
def oneRule (rule : LeadRoutingRule) : RoutingDb where
  rules := Store.empty.create rule
  roster := emptyRoster
  defaultSalesRepId := none

def soleRotation (index : ℤ) : SoleRule asciiSchema where
  db := oneRule (rotation index)
  ruleId := 0
  rule := rotation index
  stored := ⟨rfl, rfl⟩
  only := by
    intro k r hr
    have hk := Store.get?_lt hr.1
    exact Nat.lt_one_iff.mp hk
  accepted := by rfl

theorem tester_agrees_rotation :
    predictedUser asciiEnv (oneRule (rotation 4)) 0 (testInput asciiEnv acmeCustomer) =
        .ok (some 1) ∧
      predictedUser asciiEnv (oneRule (rotation 4)) 0 (testInput asciiEnv acmeCustomer) =
        routedUser asciiEnv (oneRule (rotation 4)) [(0, rotation 4)] acmeCustomer ∧
      ∀ probes, run (testStep asciiEnv) (oneRule (rotation 4)) probes = oneRule (rotation 4) :=
  ⟨by decide +kernel, tester_agrees asciiSchema (soleRotation 4) acmeCustomer [(0, rotation 4)]
    (List.Perm.refl _) fun _ => by decide⟩

/-- At the end of the counter the tester predicts user 2, and the waterfall raises. -/
theorem tester_misses_counter_end :
    ∃ t : SoleRule asciiSchema, ∃ rows, LoadsActiveRules t.db rows ∧
      predictedUser asciiEnv t.db t.ruleId (testInput asciiEnv acmeCustomer) = .ok (some 2) ∧
      routedUser asciiEnv t.db rows acmeCustomer = .error .dataError :=
  ⟨soleRotation maxInteger, [(0, rotation maxInteger)], List.Perm.refl _, by decide +kernel,
    by decide +kernel⟩

end TempleConsign.LeadRouting
