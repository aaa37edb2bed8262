import TempleConsign.Deactivation
import TempleConsign.Lib.PrioritySearch

/-!
# Lead routing

Model of the waterfall in `src/api/services/lead_routing_service.py` that picks
the user of a new record: ad hoc rules, geographic rules, round-robin rules, and
the `default_sales_rep_id` of `app_config`. `test_rule` is the dry run of one
rule.

`_load_active_rules` has no `ORDER BY`, so the rows are an argument of the
waterfall: `LoadsActiveRules` says that they are the live enabled rules in some
order.

Deviations:
* The built-in functions of Python that depend on Unicode tables or on number
  formats, the geocoder and the great-circle distance are parameters
  (`RoutingEnv`).
* Coordinates and miles are rationals. The texts `"nan"` and `"inf"` are
  not numbers here: no rule with `"nan"` matches, and the schema refuses `"inf"`.
* The rows that the geocoder caches are left out.
-/

namespace TempleConsign.LeadRouting

open ServiceLib

/-! ## JSON values -/

/-- A value of a `JSONB` column, as `json.loads` reads it. -/
inductive Json
  | null
  | bool (b : Bool)
  | int (n : ℤ)
  | float (q : ℚ)
  | str (s : String)
  | arr (items : List Json)
  | obj (fields : List (String × Json))

/-- `bool(value)`. -/
def Json.truthy : Json → Bool
  | null => false
  | bool b => b
  | int n => n ≠ 0
  | float q => q ≠ 0
  | str s => s ≠ ""
  | arr items => items.isEmpty = false
  | obj fields => fields.isEmpty = false

/-- A `dict` with string keys. -/
abbrev Dict := List (String × Json)

/-- `d.get(key)`. -/
def Dict.get (d : Dict) (key : String) : Json := (d.lookup key).getD .null

/-! ## The environment -/

/-- Python's functions on text; `none` stands for a `ValueError`. `strOf` is
    `str` of a value that is not a string. -/
structure Builtins where
  strOf : Json → String
  lower : String → String
  upper : String → String
  isDigit : String → Bool
  intOf : String → Option ℕ
  floatOf : String → Option ℚ
  uuidOf : String → Option ℕ

/-- `str(value)`. -/
def Builtins.str (b : Builtins) : Json → String
  | .str s => s
  | value => b.strOf value

/-- `float(value)`; `none` also stands for a `TypeError`. -/
def Builtins.float (b : Builtins) : Json → Option ℚ
  | .bool true => some 1
  | .bool false => some 0
  | .int n => some n
  | .float q => some q
  | .str s => b.floatOf s
  | _ => none

/-- What routing calls: `geocode` (`src/api/services/google_maps_service.py` line
    202) and `_haversine_miles` (`lead_routing_service.py` line 305). -/
structure RoutingEnv extends Builtins where
  geocode : String → Option (ℚ × ℚ)
  haversineMiles : ℚ × ℚ → ℚ × ℚ → ℚ
  haversineMiles_comm : ∀ p q, haversineMiles p q = haversineMiles q p

/-! ## Rows -/

/-- The values of `lead_routing_rules.rule_type`. -/
inductive RuleType
  | adHoc
  | geographic
  | roundRobin
  deriving DecidableEq, Repr

namespace RuleType

def value : RuleType → String
  | adHoc => "ad_hoc"
  | geographic => "geographic"
  | roundRobin => "round_robin"

theorem value_injective : Function.Injective value := by
  intro s t h
  cases s <;> cases t <;> first | rfl | simp [value] at h

/-- The member of `_ALLOWED_RULE_TYPES` (line 62) with this value. -/
def ofValue? (v : String) : Option RuleType :=
  [adHoc, geographic, roundRobin].find? fun t => t.value = v

end RuleType

/-- `LeadRoutingRule` (`src/api/database/models.py` line 933). -/
structure LeadRoutingRule where
  ruleType : RuleType
  priority : ℤ
  conditions : Option Dict
  assignedUserId : Option ℕ
  roundRobinIndex : ℤ
  isActive : Bool
  createdBy : Option ℕ
  deletedAt : Option ℤ

/-- `rule.conditions or {}`. -/
def LeadRoutingRule.cond (rule : LeadRoutingRule) : Dict := rule.conditions.getD []

/-- The columns of `customers` that routing reads, with the address of the user
    behind `user_id`. -/
structure RoutedCustomer where
  id : ℕ
  email : Option String
  addressStreet : Option String
  addressCity : Option String
  addressState : Option String
  addressZip : Option String

/-- The tables routing reads. `defaultSalesRepId` is the `value` of the
    `app_config` row of that name. -/
structure RoutingDb where
  rules : Store LeadRoutingRule
  roster : Roster
  defaultSalesRepId : Option Json

/-- The exceptions that leave the service. `dataError` is the database's
    answer to an `INTEGER` out of range. -/
inductive RoutingError
  | httpException (statusCode : ℕ) (detail : String)
  | valueError
  | dataError
  | multipleResultsFound
  | integrityError (index : String)
  deriving DecidableEq

abbrev RoutingService (α : Type) := Svc RoutingDb RoutingError α

/-- `RoutingDecision` (line 66). -/
structure RoutingDecision where
  assignedUserId : Option ℕ
  ruleId : Option ℕ
  ruleType : Option RuleType
  trigger : String
  deriving DecidableEq

/-! ## Matchers -/

/-- `int(text)`. -/
def Builtins.int (b : Builtins) (text : String) : Except RoutingError ℕ :=
  match b.intOf text with
  | some n => .ok n
  | none => .error .valueError

/-- `domain = str(value).strip().lower()` with a leading `@`. -/
def emailDomain (env : RoutingEnv) (value : Json) : String :=
  let domain := env.lower (strip (env.str value))
  if "@".toList.isPrefixOf domain.toList then domain else "@" ++ domain

/-- `_ad_hoc_matches` (line 187). -/
def adHocMatches (env : RoutingEnv) (rule : LeadRoutingRule) (customerId : Option ℕ)
    (customerEmail : Option String) : Bool :=
  let value := rule.cond.get "value"
  if value.truthy = false then false else
    match rule.cond.get "condition_type" with
    | .str "customer_id" =>
      match env.uuidOf (env.str value) with
      | some id => customerId = some id
      | none => false
    | .str "email_domain" =>
      match truthy customerEmail with
      | some email => (emailDomain env value).toList.isSuffixOf (env.lower email).toList
      | none => false
    | _ => false

/-- `_normalize_zip` (line 316). -/
def normalizeZip (env : RoutingEnv) (raw : String) : Except RoutingError (Option ℕ) :=
  let head := strip (String.ofList (raw.toList.takeWhile (· ≠ '-')))
  let first := String.ofList (head.toList.take 5)
  if head.length < 5 || !env.isDigit first then .ok none else some <$> env.int first

/-- `_zip_entry_matches` (line 324). The comparison is chained: the upper end is
    converted only when the lower one lets the ZIP through. -/
def zipEntryMatches (env : RoutingEnv) (entry : String) (customerZip : ℕ) :
    Except RoutingError Bool :=
  let cleaned := strip entry
  if '-' ∈ cleaned.toList then
    let lo := strip (String.ofList (cleaned.toList.takeWhile (· ≠ '-')))
    let hi := strip (String.ofList ((cleaned.toList.dropWhile (· ≠ '-')).drop 1))
    if env.isDigit lo && env.isDigit hi then do
      let low ← env.int lo
      if low ≤ customerZip then do
        let high ← env.int hi
        pure (decide (customerZip ≤ high))
      else pure false
    else pure false
  else if env.isDigit cleaned then do
    let zip ← env.int cleaned
    pure (decide (zip = customerZip))
  else pure false

/-- The `state_list` half of `_geo_matches`. -/
def stateMatches (env : RoutingEnv) (rule : LeadRoutingRule) (state : Option String) : Bool :=
  match truthy state, rule.cond.get "state_list" with
  | some state, .arr stateList =>
    let normState := env.upper (strip state)
    stateList.any fun
      | .str s => env.upper (strip s) = normState
      | _ => false
  | _, _ => false

/-- The `zip_list` half of `_geo_matches`. -/
def zipMatches (env : RoutingEnv) (rule : LeadRoutingRule) (zipCode : Option String) :
    Except RoutingError Bool :=
  match truthy zipCode, rule.cond.get "zip_list" with
  | some zipCode, .arr zipList => do
    match ← normalizeZip env zipCode with
    | some normZip =>
      zipList.anyM fun
        | .str entry => zipEntryMatches env entry normZip
        | _ => pure false
    | none => pure false
  | _, _ => pure false

/-- `_geo_matches` (line 217). -/
def geoMatches (env : RoutingEnv) (rule : LeadRoutingRule) (state zipCode : Option String) :
    Except RoutingError Bool :=
  if stateMatches env rule state then pure true else zipMatches env rule zipCode

/-- The `metro_area` of a rule: its centre and its radius, when all three are
    numbers. -/
def metroArea (env : RoutingEnv) (rule : LeadRoutingRule) : Option ((ℚ × ℚ) × ℚ) :=
  match rule.cond.get "metro_area" with
  | .obj metro => do
    let centerLat ← env.float (Dict.get metro "center_lat")
    let centerLon ← env.float (Dict.get metro "center_lon")
    let radiusMiles ← env.float (Dict.get metro "radius_miles")
    pure ((centerLat, centerLon), radiusMiles)
  | _ => none

/-- `_format_customer_address` (line 288). -/
def formatCustomerAddress (customer : RoutedCustomer) : Option String :=
  let parts := [customer.addressStreet, customer.addressCity, customer.addressState,
    customer.addressZip]
  let cleaned := parts.filterMap fun p => truthy (p.map strip)
  if cleaned = [] then none else some (", ".intercalate cleaned)

/-- The coordinates the geocoder has for the address of the customer. -/
def coordinates (env : RoutingEnv) (customer : RoutedCustomer) : Option (ℚ × ℚ) := do
  let address ← formatCustomerAddress customer
  env.geocode address

/-- `_metro_matches` (line 249). -/
def metroMatches (env : RoutingEnv) (rule : LeadRoutingRule) (customer : RoutedCustomer) : Bool :=
  match metroArea env rule with
  | some (center, radiusMiles) =>
    if radiusMiles ≤ 0 then false else
      match coordinates env customer with
      | some coords => env.haversineMiles center coords ≤ radiusMiles
      | none => false
  | none => false

/-- `_metro_matches_synthetic` (line 732). -/
def metroMatchesSynthetic (env : RoutingEnv) (rule : LeadRoutingRule) (coords : ℚ × ℚ) : Bool :=
  match metroArea env rule with
  | some (center, radius) => env.haversineMiles coords center ≤ radius
  | none => false

/-- `_round_robin_rep_ids` (line 340). -/
def roundRobinRepIds (env : RoutingEnv) (rule : LeadRoutingRule) : List ℕ :=
  match rule.cond.get "rep_ids" with
  | .arr raw => raw.filterMap fun item => env.uuidOf (env.str item)
  | _ => []

/-! ## The waterfall -/

/-- The `WHERE` of `_load_active_rules` (line 171). -/
def LeadRoutingRule.isLiveEnabled (rule : LeadRoutingRule) : Bool :=
  rule.deletedAt.isNone && rule.isActive

/-- A result of `_load_active_rules`: the live enabled rules, in any order. -/
def LoadsActiveRules (db : RoutingDb) (rows : List (ℕ × LeadRoutingRule)) : Prop :=
  rows.Perm (db.rules.select fun _ rule => rule.isLiveEnabled)

/-- Two rules that the index `uq_lead_routing_rules_type_priority` admits together. -/
def SlotsDiffer (a b : LeadRoutingRule) : Prop :=
  a.deletedAt = none → b.deletedAt = none → a.ruleType = b.ruleType → a.priority ≠ b.priority

theorem SlotsDiffer.symm (a b : LeadRoutingRule) (h : SlotsDiffer a b) : SlotsDiffer b a :=
  fun hb ha ht hp => h ha hb ht.symm hp.symm

/-- The partial unique index on live `(rule_type, priority)`
    (`src/api/alembic/versions/017_phase4_routing_priority_unique.py` line 80). -/
def RoutingDb.UniquePriorities (db : RoutingDb) : Prop := db.rules.Pairwise SlotsDiffer

/-- The rules of one type. -/
def bucket (ruleType : RuleType) (rows : List (ℕ × LeadRoutingRule)) :
    List (ℕ × LeadRoutingRule) :=
  rows.filter fun row => row.2.ruleType = ruleType

/-- `sorted(rules, key=lambda r: r.priority)`. -/
def byPriority (rows : List (ℕ × LeadRoutingRule)) : List (ℕ × LeadRoutingRule) :=
  sortedBy (fun row => row.2.priority) rows

/-- The decision for a user of a rule, if there is one. -/
def decideRule (ruleType : RuleType) (ruleId : ℕ) (userId : Option ℕ) : Option RoutingDecision :=
  userId.map fun userId => ⟨some userId, some ruleId, some ruleType, "lead_routing"⟩

/-- The body of the ad hoc loop. -/
def adHocStep (env : RoutingEnv) (customer : RoutedCustomer) (row : ℕ × LeadRoutingRule) :
    Option RoutingDecision :=
  if adHocMatches env row.2 (some customer.id) customer.email then
    decideRule .adHoc row.1 row.2.assignedUserId
  else none

/-- Whether a geographic rule matches: by state or ZIP, else by metro area. -/
def geographicMatches (env : RoutingEnv) (customer : RoutedCustomer) (rule : LeadRoutingRule) :
    Except RoutingError Bool := do
  if ← geoMatches env rule customer.addressState customer.addressZip then pure true
  else pure (metroMatches env rule customer)

/-- The body of the geographic loop. -/
def geographicStep (env : RoutingEnv) (customer : RoutedCustomer) (row : ℕ × LeadRoutingRule) :
    Except RoutingError (Option RoutingDecision) := do
  if ← geographicMatches env customer row.2 then
    pure (decideRule .geographic row.1 row.2.assignedUserId)
  else pure none

/-- The largest `INTEGER`. -/
def maxInteger : ℤ := 2147483647

/-- The row after the `UPDATE` of `_claim_next_round_robin`. -/
def LeadRoutingRule.claimed (rule : LeadRoutingRule) : LeadRoutingRule :=
  { rule with roundRobinIndex := rule.roundRobinIndex + 1 }

/-- The rep that the returned index stands for. -/
def repAt (repIds : List ℕ) (nextIndex : ℤ) : Option ℕ :=
  repIds[((nextIndex - 1) % repIds.length).toNat]?

/-- `_claim_next_round_robin` (line 355). -/
def claimNextRoundRobin (ruleId : ℕ) (repIds : List ℕ) : RoutingService (Option ℕ) := do
  if repIds = [] then pure none else
    let db ← get
    match db.rules.get? ruleId with
    | none => pure none
    | some rule =>
      Svc.require (rule.roundRobinIndex < maxInteger) .dataError
      modify fun db => { db with rules := db.rules.modify ruleId .claimed }
      pure (repAt repIds rule.claimed.roundRobinIndex)

/-- The body of the round-robin loop. -/
def roundRobinStep (env : RoutingEnv) (row : ℕ × LeadRoutingRule) :
    RoutingService (Option RoutingDecision) := do
  let nextUserId ← claimNextRoundRobin row.1 (roundRobinRepIds env row.2)
  pure (decideRule .roundRobin row.1 nextUserId)

/-- The typed value of `default_sales_rep_id`: the parser of its key
    (`src/api/services/app_config_registry.py` line 155) on the stored one. -/
def RoutingDb.defaultRep (db : RoutingDb) : Json :=
  match db.defaultSalesRepId with
  | some (.obj fields) => Dict.get fields "user_id"
  | _ => .null

/-- `_read_default_sales_rep` (line 388). -/
def readDefaultSalesRep (env : RoutingEnv) (db : RoutingDb) : Option ℕ :=
  if db.defaultRep.truthy then env.uuidOf (env.str db.defaultRep) else none

/-- Step 4 of the waterfall. -/
def fallback (env : RoutingEnv) : RoutingService RoutingDecision := do
  let db ← get
  match readDefaultSalesRep env db with
  | some defaultRepId => pure ⟨some defaultRepId, none, none, "default_sales_rep"⟩
  | none => pure ⟨none, none, none, "unassigned"⟩

/-- The first decision of a step, or what the steps after it decide. -/
def orNext (step : RoutingService (Option RoutingDecision))
    (next : RoutingService RoutingDecision) : RoutingService RoutingDecision := do
  match ← step with
  | some decision => pure decision
  | none => next

/-- `route_for_record` (line 86) on the rows that the query returned. -/
def routeForRecord (env : RoutingEnv) (rows : List (ℕ × LeadRoutingRule))
    (customer : RoutedCustomer) : RoutingService RoutingDecision :=
  orNext (pure ((bucket .adHoc rows).findSome? (adHocStep env customer))) <|
  orNext (Svc.lift ((byPriority (bucket .geographic rows)).findSomeM?
    (geographicStep env customer))) <|
  orNext ((byPriority (bucket .roundRobin rows)).findSomeM? (roundRobinStep env)) <|
  fallback env

/-! ## What the waterfall decides -/

theorem exec_orNext (step : RoutingService (Option RoutingDecision))
    (next : RoutingService RoutingDecision) (db : RoutingDb) :
    Svc.exec (orNext step next) db = match Svc.exec step db with
      | (.ok (some decision), db') => (.ok decision, db')
      | (.ok none, db') => Svc.exec next db'
      | (.error e, db') => (.error e, db') := by
  rw [orNext, Svc.exec_bind]
  match Svc.exec step db with
  | (.ok (some decision), db') => rfl
  | (.ok none, db') => rfl
  | (.error e, db') => rfl

theorem returns_orNext {step : RoutingService (Option RoutingDecision)}
    {next : RoutingService RoutingDecision} {db db' : RoutingDb} {decision : RoutingDecision} :
    Svc.Returns (orNext step next) db decision db' ↔
      Svc.Returns step db (some decision) db' ∨
        ∃ db₁, Svc.Returns step db none db₁ ∧ Svc.Returns next db₁ decision db' := by
  unfold Svc.Returns
  rw [exec_orNext]
  match Svc.exec step db with
  | (.ok (some d), db₁) => simp
  | (.ok none, db₁) => simp
  | (.error e, db₁) => simp

theorem decideRule_eq_some {ruleType : RuleType} {ruleId : ℕ} {userId : Option ℕ}
    {decision : RoutingDecision} :
    decideRule ruleType ruleId userId = some decision ↔
      ∃ u, userId = some u ∧
        decision = ⟨some u, some ruleId, some ruleType, "lead_routing"⟩ := by
  unfold decideRule
  cases userId with
  | none => simp
  | some u => simp [eq_comm]

theorem adHocStep_eq_some {env : RoutingEnv} {customer : RoutedCustomer}
    {row : ℕ × LeadRoutingRule} {decision : RoutingDecision} :
    adHocStep env customer row = some decision ↔
      adHocMatches env row.2 (some customer.id) customer.email = true ∧
        decideRule .adHoc row.1 row.2.assignedUserId = some decision := by
  unfold adHocStep
  split_ifs with h
  · simp [h]
  · simp [h]

theorem geographicStep_eq (env : RoutingEnv) (customer : RoutedCustomer)
    (row : ℕ × LeadRoutingRule) :
    geographicStep env customer row = match geographicMatches env customer row.2 with
      | .ok true => .ok (decideRule .geographic row.1 row.2.assignedUserId)
      | .ok false => .ok none
      | .error e => .error e := by
  unfold geographicStep
  match geographicMatches env customer row.2 with
  | .ok true => rfl
  | .ok false => rfl
  | .error e => rfl

theorem geographicStep_eq_some {env : RoutingEnv} {customer : RoutedCustomer}
    {row : ℕ × LeadRoutingRule} {decision : RoutingDecision} :
    geographicStep env customer row = .ok (some decision) ↔
      geographicMatches env customer row.2 = .ok true ∧
        decideRule .geographic row.1 row.2.assignedUserId = some decision := by
  rw [geographicStep_eq]
  match geographicMatches env customer row.2 with
  | .ok true => simp
  | .ok false => simp
  | .error e => simp

/-- A claim of a stored rule with reps: the counter moves on, or is at the end of
    its column. -/
theorem exec_claim {db : RoutingDb} {ruleId : ℕ} {rule : LeadRoutingRule} {repIds : List ℕ}
    (hrule : db.rules.get? ruleId = some rule) (hreps : repIds ≠ []) :
    Svc.exec (claimNextRoundRobin ruleId repIds) db =
      if rule.roundRobinIndex < maxInteger then
        (.ok (repAt repIds rule.claimed.roundRobinIndex),
          { db with rules := db.rules.modify ruleId .claimed })
      else (.error .dataError, db) := by
  simp only [claimNextRoundRobin, if_neg hreps, Svc.exec_bind, Svc.exec_get, hrule,
    Svc.exec_require]
  split_ifs with h
  · rfl
  · rfl

/-- Some rep is in turn whatever the counter. -/
theorem repAt_mem {repIds : List ℕ} (h : repIds ≠ []) (nextIndex : ℤ) :
    ∃ u ∈ repIds, repAt repIds nextIndex = some u := by
  have hpos : (0 : ℤ) < repIds.length := by
    have := List.length_pos_of_ne_nil h
    omega
  have hlow := Int.emod_nonneg (nextIndex - 1) hpos.ne'
  have hhigh := Int.emod_lt_of_pos (nextIndex - 1) hpos
  have hlt : ((nextIndex - 1) % repIds.length).toNat < repIds.length := by omega
  exact ⟨_, List.getElem_mem hlt, by rw [repAt, List.getElem?_eq_getElem hlt]⟩

theorem mem_bucket {ruleType : RuleType} {rows : List (ℕ × LeadRoutingRule)}
    {row : ℕ × LeadRoutingRule} :
    row ∈ bucket ruleType rows ↔ row ∈ rows ∧ row.2.ruleType = ruleType := by
  simp [bucket]

theorem mem_byPriority {rows : List (ℕ × LeadRoutingRule)} {row : ℕ × LeadRoutingRule} :
    row ∈ byPriority rows ↔ row ∈ rows := mem_sortedBy

/-- The loaded rows are the live enabled rules. -/
theorem LoadsActiveRules.mem_iff {db : RoutingDb} {rows : List (ℕ × LeadRoutingRule)}
    (h : LoadsActiveRules db rows) {k : ℕ} {rule : LeadRoutingRule} :
    (k, rule) ∈ rows ↔ db.rules.get? k = some rule ∧ rule.isLiveEnabled = true := by
  rw [List.Perm.mem_iff h, Store.mem_select]

theorem LeadRoutingRule.live_of_isLiveEnabled {rule : LeadRoutingRule}
    (h : rule.isLiveEnabled = true) : rule.deletedAt = none := by
  simp only [isLiveEnabled, Bool.and_eq_true, Option.isNone_iff_eq_none] at h
  exact h.1

/-- Within a type the loaded rules have different priorities. -/
theorem LoadsActiveRules.keysDiffer {db : RoutingDb} {rows : List (ℕ × LeadRoutingRule)}
    (h : LoadsActiveRules db rows) (hu : db.UniquePriorities) (ruleType : RuleType) :
    KeysDiffer (fun row => row.2.priority) (bucket ruleType rows) := by
  rintro ⟨k, rule⟩ hrow ⟨k', rule'⟩ hrow' hprio
  obtain ⟨hmem, ht⟩ := mem_bucket.mp hrow
  obtain ⟨hmem', ht'⟩ := mem_bucket.mp hrow'
  obtain ⟨hget, hlive⟩ := h.mem_iff.mp hmem
  obtain ⟨hget', hlive'⟩ := h.mem_iff.mp hmem'
  by_cases hk : k = k'
  · subst hk
    rw [hget] at hget'
    rw [Option.some.inj hget']
  · exact absurd hprio (hu k k' rule rule' hk hget hget'
      (LeadRoutingRule.live_of_isLiveEnabled hlive)
      (LeadRoutingRule.live_of_isLiveEnabled hlive') (ht.trans ht'.symm))

/-- The round-robin loop claims the first rule that has reps. -/
theorem exec_roundRobinPass {env : RoutingEnv} {db : RoutingDb}
    (l : List (ℕ × LeadRoutingRule))
    (hl : ∀ row ∈ l, db.rules.get? row.1 = some row.2) :
    Svc.exec (l.findSomeM? (roundRobinStep env)) db =
      (l.find? fun row => roundRobinRepIds env row.2 ≠ []).elim (.ok none, db) fun row =>
        Svc.exec (roundRobinStep env row) db := by
  apply Svc.exec_findSomeM?
  · intro row _ hreps
    have hnil : roundRobinRepIds env row.2 = [] := by simpa using hreps
    simp [roundRobinStep, claimNextRoundRobin, hnil, decideRule]
  · intro row hrow hreps
    have hne : roundRobinRepIds env row.2 ≠ [] := by simpa using hreps
    obtain ⟨u, -, hu⟩ := repAt_mem hne row.2.claimed.roundRobinIndex
    rw [roundRobinStep, Svc.exec_bind, exec_claim (hl row hrow) hne]
    split_ifs with h
    · simp [hu, decideRule, stops]
    · simp [stops]

/-! ## Concrete values -/

/-- The digit that a character of a hexadecimal number stands for. -/
def hexDigit (c : Char) : Option ℕ :=
  if c.isDigit then some (c.toNat - '0'.toNat)
  else if 'a' ≤ c ∧ c ≤ 'f' then some (c.toNat - 'a'.toNat + 10)
  else none

/-- The number with these digits. -/
def ofDigits (base : ℕ) (digits : List ℕ) : ℕ := digits.foldl (fun n d => base * n + d) 0

/-- Python's functions on ASCII texts and lower-case UUIDs, without a geocoder. -/
def asciiEnv : RoutingEnv where
  strOf := fun _ => ""
  lower := fun s => String.ofList (s.toList.map Char.toLower)
  upper := fun s => String.ofList (s.toList.map Char.toUpper)
  isDigit := fun s => s ≠ "" && s.toList.all Char.isDigit
  intOf := fun s => some (ofDigits 10 (s.toList.filterMap hexDigit))
  floatOf := fun _ => none
  uuidOf := fun s =>
    let digits := s.toList.filter (· ≠ '-')
    if digits.length = 32 then (digits.mapM hexDigit).map (ofDigits 16) else none
  geocode := fun _ => none
  haversineMiles := fun _ _ => 0
  haversineMiles_comm := fun _ _ => rfl

/-- A roster without users. -/
def emptyRoster : Roster where
  db := Db.init Store.empty Store.empty
  userStatus := fun _ => .active
  assignedSalesRepId := fun _ => none
  assignedAppraiserId := fun _ => none

/-- A round-robin rule over the users 1 and 2. -/
def rotation (index : ℤ) : LeadRoutingRule where
  ruleType := .roundRobin
  priority := 0
  conditions := some [("rep_ids", .arr [.str "00000000-0000-0000-0000-000000000001",
    .str "00000000-0000-0000-0000-000000000002"])]
  assignedUserId := none
  roundRobinIndex := index
  isActive := true
  createdBy := none
  deletedAt := none

/-! ## The rule tester -/

/-- `get_rule` (line 418). -/
def getRule (ruleId : ℕ) : RoutingService LeadRoutingRule := do
  let db ← get
  Svc.expect ((db.rules.get? ruleId).filter fun rule => rule.deletedAt.isNone)
    (.httpException 404 "routing rule not found")

theorem returns_getRule {db db' : RoutingDb} {k : ℕ} {rule : LeadRoutingRule} :
    Svc.Returns (getRule k) db rule db' ↔
      (db.rules.get? k = some rule ∧ rule.deletedAt = none) ∧ db = db' := by
  simp [getRule, Option.filter_eq_some_iff, and_assoc]

/-- `TestRuleResult` (line 645). -/
structure TestRuleResult where
  ruleId : ℕ
  ruleType : RuleType
  matched : Bool
  wouldAssignTo : Option ℕ
  reason : String
  deriving DecidableEq

/-- The arguments of `test_rule` beside the rule. -/
structure TestRuleInput where
  customerId : Option ℕ
  customerEmail : Option String
  customerState : Option String
  customerZip : Option String
  customerLat : Option ℚ
  customerLng : Option ℚ

/-- The ad hoc branch of `test_rule`. -/
def testAdHoc (env : RoutingEnv) (ruleId : ℕ) (rule : LeadRoutingRule) (input : TestRuleInput) :
    TestRuleResult :=
  let matched := adHocMatches env rule input.customerId input.customerEmail
  { ruleId := ruleId
    ruleType := rule.ruleType
    matched := matched
    wouldAssignTo := if matched then rule.assignedUserId else none
    reason := if matched then "ad_hoc matched on the supplied customer_id/email_domain"
      else "ad_hoc conditions did not match the supplied input" }

/-- The metro half of the geographic branch. -/
def testMetro (env : RoutingEnv) (rule : LeadRoutingRule) (input : TestRuleInput) : Bool :=
  match input.customerLat, input.customerLng with
  | some lat, some lng => metroMatchesSynthetic env rule (lat, lng)
  | _, _ => false

/-- The geographic branch of `test_rule`. -/
def testGeographic (env : RoutingEnv) (ruleId : ℕ) (rule : LeadRoutingRule)
    (input : TestRuleInput) : Except RoutingError TestRuleResult := do
  let matchedStateZip ← geoMatches env rule input.customerState input.customerZip
  let matchedMetro := !matchedStateZip && testMetro env rule input
  let matched := matchedStateZip || matchedMetro
  let reasonParts :=
    (if matchedStateZip then ["state/zip matched"] else []) ++
    (if matchedMetro then ["metro radius matched"] else []) ++
    (if matched then [] else ["no condition matched the supplied input"])
  pure
    { ruleId := ruleId
      ruleType := rule.ruleType
      matched := matched
      wouldAssignTo := if matched then rule.assignedUserId else none
      reason := "; ".intercalate reasonParts }

/-- The round-robin branch of `test_rule`. -/
def testRoundRobin (env : RoutingEnv) (ruleId : ℕ) (rule : LeadRoutingRule) : TestRuleResult :=
  let repIds := roundRobinRepIds env rule
  if repIds = [] then
    { ruleId := ruleId
      ruleType := rule.ruleType
      matched := false
      wouldAssignTo := none
      reason := "round_robin rule has no eligible reps" }
  else
    let nextIdx := rule.roundRobinIndex % repIds.length
    { ruleId := ruleId
      ruleType := rule.ruleType
      matched := true
      wouldAssignTo := repIds[nextIdx.toNat]?
      reason := s!"round_robin would pick rep at index {nextIdx} (no claim)" }

/-- `test_rule` (line 659). -/
def testRule (env : RoutingEnv) (ruleId : ℕ) (input : TestRuleInput) :
    RoutingService TestRuleResult := do
  let rule ← getRule ruleId
  match rule.ruleType with
  | .adHoc => pure (testAdHoc env ruleId rule input)
  | .geographic => Svc.lift (testGeographic env ruleId rule input)
  | .roundRobin => pure (testRoundRobin env ruleId rule)

end TempleConsign.LeadRouting
