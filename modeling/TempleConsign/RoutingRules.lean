import Mathlib.Data.String.Basic
import TempleConsign.LeadRouting
import TempleConsign.Lib.UniqueIndex

/-!
# Editing routing rules

Model of `parse_conditions` (`src/api/schemas/routing.py`) and of the functions of
`src/api/services/lead_routing_service.py` that write rules: `create_rule`,
`update_rule`, `soft_delete_rule` and `reorder_priorities`.

A flush sends its rows one after the other, in an order that the ORM chooses
(`Emission`), and the index on live `(rule_type, priority)` is checked at each row.
`update_rule` flushes twice when it looks up the new user: the query flushes what
was set before it.

Deviations:
* What Pydantic accepts as a number or as a UUID, and the text of its errors, are
  parameters (`RoutingSchema`).
-/

namespace TempleConsign.LeadRouting

open ServiceLib

/-! ## `parse_conditions` -/

/-- The parts of Pydantic that the condition models use. `floatText` is the number a
    text is accepted as; `some none` is `nan`, which no bound refuses. -/
structure RoutingSchema extends RoutingEnv where
  floatText : String → Option (Option ℚ)
  floatText_eq : ∀ s q, floatText s = some q → floatOf s = q
  acceptsUuid : String → Bool
  describeError : RuleType → Dict → String
  strUuid : ℕ → String

/-- `extra="forbid"`. -/
def Dict.within (d : Dict) (fields : List String) : Bool := d.all fun f => f.1 ∈ fields

/-- `AdHocConditions` (line 17). -/
def acceptsAdHoc (d : Dict) : Bool :=
  d.within ["condition_type", "value"] &&
  (match d.get "condition_type" with
    | .str t => t ∈ ["customer_id", "email_domain"]
    | _ => false) &&
  (match d.get "value" with
    | .str v => 1 ≤ v.length && v.length ≤ 255
    | _ => false)

/-- A `float` field with these bounds. -/
def acceptsFloat (env : RoutingSchema) (inBounds : ℚ → Bool) : Json → Bool
  | .str s =>
    match env.floatText s with
    | some (some q) => inBounds q
    | some none => true
    | none => false
  | value => (env.float value).any inBounds

/-- `MetroArea` (line 29). -/
def acceptsMetroArea (env : RoutingSchema) (d : Dict) : Bool :=
  d.within ["center_lat", "center_lon", "radius_miles", "name"] &&
  acceptsFloat env (fun q => -90 ≤ q && q ≤ 90) (d.get "center_lat") &&
  acceptsFloat env (fun q => -180 ≤ q && q ≤ 180) (d.get "center_lon") &&
  acceptsFloat env (fun q => 0 < q && q ≤ 500) (d.get "radius_miles") &&
  (match d.get "name" with
    | .null => true
    | .str name => name.length ≤ 100
    | _ => false)

/-- A field of type `list[str] | None`, absent or `None` as the empty list. -/
def optionalTexts : Json → Option (List String)
  | .null => some []
  | .arr items => items.mapM fun
    | .str s => some s
    | _ => none
  | _ => none

/-- `GeographicConditions` (line 40) with `at_least_one_condition`. -/
def acceptsGeographic (env : RoutingSchema) (d : Dict) : Bool :=
  d.within ["state_list", "zip_list", "metro_area"] &&
  match optionalTexts (d.get "state_list"), optionalTexts (d.get "zip_list"),
      d.get "metro_area" with
  | some states, some zips, .null =>
    (states ≠ [] || zips ≠ []) && states.all (fun s => (strip s).length = 2) &&
      zips.all fun z => strip z ≠ ""
  | some states, some zips, .obj metro =>
    acceptsMetroArea env metro && states.all (fun s => (strip s).length = 2) &&
      zips.all fun z => strip z ≠ ""
  | _, _, _ => false

/-- `RoundRobinConditions` (line 68). -/
def acceptsRoundRobin (env : RoutingSchema) (d : Dict) : Bool :=
  d.within ["rep_ids"] &&
  match d.get "rep_ids" with
  | .arr reps => reps ≠ [] && reps.all fun
    | .str s => env.acceptsUuid s
    | _ => false
  | _ => false

/-- `parse_conditions` (line 89): whether it accepts. -/
def parseConditions (env : RoutingSchema) (ruleType : RuleType) (raw : Option Dict) : Bool :=
  match ruleType with
  | .adHoc => acceptsAdHoc (raw.getD [])
  | .geographic => acceptsGeographic env (raw.getD [])
  | .roundRobin => acceptsRoundRobin env (raw.getD [])

/-! ## Checks -/

/-- `_validate_conditions` (line 537). -/
def validateConditions (env : RoutingSchema) (ruleType : RuleType) (conditions : Option Dict) :
    RoutingService Unit :=
  Svc.require (parseConditions env ruleType conditions = true)
    (.httpException 422 (env.describeError ruleType (conditions.getD [])))

/-- `_require_sales_role` (line 549). -/
def requireSalesRole (env : RoutingSchema) (userId : ℕ) : RoutingService Unit := do
  let db ← get
  let user ← Svc.expect (db.roster.db.users.get? userId)
    (.httpException 422 s!"user {env.strUuid userId} not found")
  Svc.require (user.role ∈ salesRoles)
    (.httpException 422 (s!"user {env.strUuid userId} has role '{user.role.value}', " ++
      "expected sales/sales_manager/admin"))

/-- `if assigned_user_id is not None: await _require_sales_role(...)`. -/
def checkAssignedUser (env : RoutingSchema) : Option ℕ → RoutingService Unit
  | some userId => requireSalesRole env userId
  | none => pure ()

/-- `sorted(_ALLOWED_RULE_TYPES)` in the text of the error. -/
def allowedRuleType (ruleType : String) : RoutingService RuleType :=
  Svc.expect (RuleType.ofValue? ruleType) (.httpException 422
    "rule_type must be one of: ['ad_hoc', 'geographic', 'round_robin']")

/-- The `WHERE` of `_check_priority_slot_free` (line 465). -/
def takesSlot (ruleType : RuleType) (priority : ℤ) (excluding : Option ℕ) (k : ℕ)
    (rule : LeadRoutingRule) : Bool :=
  rule.ruleType = ruleType && rule.priority = priority && rule.deletedAt.isNone &&
    excluding ≠ some k

/-- `_check_priority_slot_free` (line 465). -/
def checkPrioritySlotFree (ruleType : RuleType) (priority : ℤ) (excluding : Option ℕ) :
    RoutingService Unit := do
  let db ← get
  let taken ← Svc.expect
    (Store.scalarOneOrNone (db.rules.select (takesSlot ruleType priority excluding)))
    .multipleResultsFound
  Svc.require (taken = none) (.httpException 409
    (s!"priority {priority} is already taken in the {ruleType.value} bucket; " ++
      "use the reorder endpoint to renumber"))

/-! ## Flushes -/

/-- Two rows that the index does not admit together. -/
def clashes (a b : LeadRoutingRule) : Bool :=
  a.deletedAt.isNone && b.deletedAt.isNone && a.ruleType = b.ruleType && a.priority = b.priority

/-- The order in which the ORM sends the rows of a flush. -/
structure Emission where
  order : List (ℕ × LeadRoutingRule) → List (ℕ × LeadRoutingRule)
  perm : ∀ rows, (order rows).Perm rows

def indexName : String := "uq_lead_routing_rules_type_priority"

/-- `db.flush()` of changed rows. -/
def flushRows (emit : Emission) (rows : List (ℕ × LeadRoutingRule)) : RoutingService Unit := do
  let db ← get
  let rules ← Svc.expect (Store.writeAll clashes db.rules (emit.order rows))
    (.integrityError indexName)
  modify fun db => { db with rules := rules }

/-- `db.flush()` of a new row. -/
def insertRule (rule : LeadRoutingRule) : RoutingService Unit := do
  let db ← get
  Svc.require (db.rules.exists? (fun _ other => clashes rule other) = false)
    (.integrityError indexName)
  modify fun db => { db with rules := db.rules.create rule }

/-! ## The operations -/

/-- The range of `priority` in the request bodies (`src/api/schemas/routing.py` lines
    114 and 128). -/
abbrev Priority := { p : ℤ // 0 ≤ p ∧ p ≤ 10000 }

/-- `RoutingRuleCreate` (`src/api/schemas/routing.py` line 103). -/
structure RoutingRuleCreate where
  ruleType : String
  priority : Priority
  conditions : Option Dict
  assignedUserId : Option ℕ
  isActive : Bool

/-- `RoutingRulePatch` (line 120). The outer option is the membership in
    `model_fields_set`. -/
structure RoutingRulePatch where
  priority : Option (Option Priority)
  conditions : Option (Option Dict)
  assignedUserId : Option (Option ℕ)
  isActive : Option (Option Bool)

/-- The row that `create_rule` adds. -/
def newRule (creator : ℕ) (ruleType : RuleType) (body : RoutingRuleCreate) : LeadRoutingRule where
  ruleType := ruleType
  priority := body.priority
  conditions := body.conditions
  assignedUserId := body.assignedUserId
  roundRobinIndex := 0
  isActive := body.isActive
  createdBy := some creator
  deletedAt := none

/-- `create_rule` (line 426). -/
def createRule (env : RoutingSchema) (creator : ℕ) (body : RoutingRuleCreate) :
    RoutingService LeadRoutingRule := do
  let ruleType ← allowedRuleType body.ruleType
  validateConditions env ruleType body.conditions
  checkAssignedUser env body.assignedUserId
  checkPrioritySlotFree ruleType body.priority none
  insertRule (newRule creator ruleType body)
  pure (newRule creator ruleType body)

/-- The `set_priority` block of `update_rule`. -/
def patchPriority (ruleId : ℕ) (rule : LeadRoutingRule) :
    Option (Option Priority) → RoutingService LeadRoutingRule
  | some (some priority) => do
    Svc.onlyIf (priority.1 ≠ rule.priority)
      (checkPrioritySlotFree rule.ruleType priority (some ruleId))
    pure { rule with priority := priority }
  | _ => pure rule

/-- The `set_conditions` block of `update_rule`. -/
def patchConditions (env : RoutingSchema) (rule : LeadRoutingRule) :
    Option (Option Dict) → RoutingService LeadRoutingRule
  | some conditions => do
    validateConditions env rule.ruleType conditions
    pure { rule with conditions := conditions }
  | none => pure rule

/-- The `set_assigned_user` block of `update_rule`. The query for the user flushes what
    the blocks before it set. -/
def patchAssignedUser (env : RoutingSchema) (emit : Emission) (ruleId : ℕ)
    (rule : LeadRoutingRule) : Option (Option ℕ) → RoutingService LeadRoutingRule
  | some (some userId) => do
    flushRows emit [(ruleId, rule)]
    requireSalesRole env userId
    pure { rule with assignedUserId := some userId }
  | some none => pure { rule with assignedUserId := none }
  | none => pure rule

/-- The `set_is_active` block of `update_rule`. -/
def patchIsActive (rule : LeadRoutingRule) : Option (Option Bool) → LeadRoutingRule
  | some (some isActive) => { rule with isActive := isActive }
  | _ => rule

/-- `update_rule` (line 491). -/
def updateRule (env : RoutingSchema) (emit : Emission) (ruleId : ℕ) (patch : RoutingRulePatch) :
    RoutingService LeadRoutingRule := do
  let stored ← getRule ruleId
  let renumbered ← patchPriority ruleId stored patch.priority
  let conditioned ← patchConditions env renumbered patch.conditions
  let assigned ← patchAssignedUser env emit ruleId conditioned patch.assignedUserId
  let rule := patchIsActive assigned patch.isActive
  flushRows emit [(ruleId, rule)]
  pure rule

/-- `soft_delete_rule` (line 528). -/
def softDeleteRule (emit : Emission) (now : ℤ) (ruleId : ℕ) : RoutingService LeadRoutingRule := do
  let stored ← getRule ruleId
  let rule := { stored with deletedAt := some now, isActive := false }
  flushRows emit [(ruleId, rule)]
  pure rule

/-! ## Reordering -/

/-- The rows that `reorder_priorities` locks. -/
def isLiveOf (ruleType : RuleType) (_ : ℕ) (rule : LeadRoutingRule) : Bool :=
  rule.ruleType = ruleType && rule.deletedAt.isNone

/-- `sorted(str(i) for i in ids)` in an error. -/
def sortedTexts (env : RoutingSchema) (ids : List ℕ) : String :=
  "[" ++ ", ".intercalate ((sortedBy id (ids.map env.strUuid)).map fun s => "'" ++ s ++ "'") ++ "]"

/-- The loop of one phase: the rules in the requested order with new priorities. -/
def renumbered (rules : Store LeadRoutingRule) (priorityAt : ℕ → ℤ) (orderedIds : List ℕ) :
    List (ℕ × LeadRoutingRule) :=
  orderedIds.zipIdx.filterMap fun (ruleId, idx) =>
    (rules.get? ruleId).map fun rule => (ruleId, { rule with priority := priorityAt idx })

/-- The two phases. -/
def renumber (emit : Emission) (orderedIds : List ℕ) : RoutingService (List ℕ) := do
  let db ← get
  flushRows emit (renumbered db.rules (fun idx => -1 - (idx : ℤ)) orderedIds)
  let scratch ← get
  flushRows emit (renumbered scratch.rules (fun idx => (idx : ℤ)) orderedIds)
  pure orderedIds

/-- `reorder_priorities` (line 569); returns the ids of the rules it returns. -/
def reorderPriorities (env : RoutingSchema) (emit : Emission) (ruleType : String)
    (orderedIds : List ℕ) : RoutingService (List ℕ) := do
  let ruleType ← allowedRuleType ruleType
  if orderedIds = [] then pure [] else do
    Svc.require orderedIds.Nodup (.httpException 422 "ordered_ids contains duplicates")
    let db ← get
    let lockedIds := (db.rules.select (isLiveOf ruleType)).map Prod.fst
    let missing := lockedIds.filter fun i => i ∉ orderedIds
    let unknown := orderedIds.filter fun i => i ∉ lockedIds
    Svc.require (missing = [] ∧ unknown = []) (.httpException 422
      (s!"ordered_ids does not match the set of active rules in this bucket " ++
        s!"(missing: {sortedTexts env missing}, unknown: {sortedTexts env unknown})"))
    renumber emit orderedIds

/-! ## Concrete values -/

/-- The schema over `asciiEnv`: no text is a number. -/
def asciiSchema : RoutingSchema where
  toRoutingEnv := asciiEnv
  floatText := fun _ => none
  floatText_eq := fun _ _ h => nomatch h
  acceptsUuid := fun s => (asciiEnv.uuidOf s).isSome
  describeError := fun _ _ => ""
  strUuid := fun _ => ""

/-- The rows in the order in which they are set. -/
def inSetOrder : Emission where
  order := id
  perm := List.Perm.refl

end TempleConsign.LeadRouting
