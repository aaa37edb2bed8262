import TempleConsign.Catalog
import TempleConsign.Lib.Loop
import TempleConsign.Lib.Run

/-!
# Export and import of a category

Model of `export_to_payload` and `import_from_payload`
(`src/api/services/admin_category_service.py` lines 767 to 1019). The lists of a payload
hold any dicts: the schema does not look into them.

Deviations:
* The order in which a relationship is loaded is a parameter (`LoadOrder`), which ranks
  the ids of a table.
* An assigned weight is flushed at once. A weight that is not finite is refused.
* Any exception rolls the import back, so they are not told apart.

Results:
* `returns_importFromPayload`, `importLists_eq_some`: what an import wrote when it returned.
* `importComponent_cases`, `addMissing_cases`, `syncOne_cases`: what one entry of a payload
  does.
* `step_move`: what a request does; `step_categoryMove`: what it does to the categories.
-/

namespace TempleConsign.Catalog

open ServiceLib

/-! ## Payloads -/

/-- A dict of a payload. -/
abbrev Entry := List (String × PyValue)

/-- `e.get(key, default)`. -/
def Entry.getD (e : Entry) (key : String) (default : PyValue) : PyValue :=
  (e.lookup key).getD default

/-- `e.get(key)`. -/
def Entry.get (e : Entry) (key : String) : PyValue := e.getD key .none

/-- `e[key]`. -/
def Entry.item (e : Entry) (key : String) : Option PyValue := e.lookup key

/-- `label.strip().lower()`. -/
def CatalogEnv.keyOf (env : CatalogEnv) (label : String) : String := env.lower (strip label)

/-- `(e.get(field) or "").strip().lower()`. -/
def Entry.key (env : CatalogEnv) (field : String) (e : Entry) : Option String :=
  if (e.get field).truthy then
    match e.get field with
    | .str s => some (env.keyOf s)
    | _ => none
  else some ""

/-- `CategoryExportPayload` (`src/api/schemas/admin.py` line 449). -/
structure CategoryExportPayload where
  name : String
  slug : String
  status : String
  displayOrder : ℤ
  version : ℕ
  replacedAt : Option ℤ
  components : List Entry
  inspectionPrompts : List Entry
  attachments : List Entry
  photoSlots : List Entry
  redFlagRules : List Entry

/-- The place of a row in a loaded relationship. -/
structure LoadOrder where
  components : ℕ → ℕ
  prompts : ℕ → ℕ
  attachments : ℕ → ℕ
  photoSlots : ℕ → ℕ
  rules : ℕ → ℕ

def loaded {ρ : Type} (rank : ℕ → ℕ) (rows : List (ℕ × ρ)) : List (ℕ × ρ) :=
  sortedBy (fun e => rank e.1) rows

/-- `{key(row): row for row in rows}`: the last row of a key. -/
def lastOf {ρ : Type} (key : ρ → String) (rows : List (ℕ × ρ)) (k : String) : Option (ℕ × ρ) :=
  (rows.filter fun e => key e.2 = k).getLast?

/-! ## Components, attachments and photo slots -/

/-- The components while the import goes through the payload; `session` has the weights
    that it has assigned. -/
structure ImportedComponents where
  rows : Store (Part ComponentRow)
  session : ℕ → Option ℚ
  added : List ℕ

/-- One round of lines 863–883. -/
def importComponent (env : CatalogEnv) (categoryId : ℕ)
    (byName : String → Option (ℕ × Part ComponentRow)) (acc : ImportedComponents) (e : Entry) :
    Option ImportedComponents := do
  let key ← e.key env "name"
  if key = "" then some acc
  else
    let weight ← (e.item "weight_pct").bind env.decimal
    match byName key with
    | some (id, comp) =>
      if (acc.session id).getD comp.columns.weightPct.toRat = weight then some acc
      else do
        let stored ← Numeric64.store weight
        some { acc with
          rows := acc.rows.modify id fun p =>
            { p with columns := { p.columns with weightPct := stored } }
          session := fun k => if k = id then some weight else acc.session k }
    | none => do
      let name ← (e.item "name").bind (PyValue.storeText 100)
      let stored ← Numeric64.store weight
      let displayOrder ← ((e.getD "display_order" (.int 0)).toInt env.parseInt).bind Int4.store
      some { acc with
        rows := acc.rows.create
          ⟨categoryId, ⟨name, stored, displayOrder⟩, (e.getD "active" (.bool true)).truthy⟩
        added := acc.added ++ [acc.rows.next] }

def componentKey (env : CatalogEnv) (p : Part ComponentRow) : String :=
  env.keyOf p.columns.name.text

def importComponents (env : CatalogEnv) (rank : ℕ → ℕ) (categoryId : ℕ) (entries : List Entry)
    (t : Store (Part ComponentRow)) : Option ImportedComponents :=
  entries.foldlM
    (importComponent env categoryId
      (lastOf (componentKey env) (loaded rank (partsOf t categoryId))))
    ⟨t, fun _ => none, []⟩

/-- One round for a table that is only added to (lines 928–966). -/
def addMissing {κ : Type} (env : CatalogEnv) (fresh : Entry → Option κ) (categoryId : ℕ)
    (byLabel : String → Option (ℕ × Part κ)) (acc : Store (Part κ) × List ℕ) (e : Entry) :
    Option (Store (Part κ) × List ℕ) := do
  let key ← e.key env "label"
  if key = "" ∨ (byLabel key).isSome = true then some acc
  else
    let columns ← fresh e
    some (acc.1.create ⟨categoryId, columns, (e.getD "active" (.bool true)).truthy⟩,
      acc.2 ++ [acc.1.next])

def addAllMissing {κ : Type} (env : CatalogEnv) (fresh : Entry → Option κ)
    (label : κ → Varchar 255) (rank : ℕ → ℕ) (categoryId : ℕ) (entries : List Entry)
    (t : Store (Part κ)) : Option (Store (Part κ) × List ℕ) :=
  entries.foldlM
    (addMissing env fresh categoryId
      (lastOf (fun p => env.keyOf (label p.columns).text) (loaded rank (partsOf t categoryId))))
    (t, [])

/-- The columns of a new attachment (lines 935–941). -/
def freshAttachment (env : CatalogEnv) (e : Entry) : Option AttachmentRow := do
  let label ← (e.item "label").bind (PyValue.storeText 255)
  let description ← (e.get "description").nullable PyValue.storePgText
  let displayOrder ← ((e.getD "display_order" (.int 0)).toInt env.parseInt).bind Int4.store
  some ⟨label, description, displayOrder⟩

/-- The columns of a new photo slot (lines 953–960). -/
def freshPhotoSlot (env : CatalogEnv) (e : Entry) : Option PhotoSlotRow := do
  let label ← (e.item "label").bind (PyValue.storeText 255)
  let helperText ← (e.get "helper_text").nullable PyValue.storePgText
  let displayOrder ← ((e.getD "display_order" (.int 0)).toInt env.parseInt).bind Int4.store
  some ⟨label, helperText, (e.getD "required" (.bool true)).truthy, displayOrder⟩

/-! ## Prompts and rules -/

variable {β : Type}

/-- What the import does with the columns of a table with versions: `differs` is
    `changed`, `successor` what a superseding row gets and `fresh` what a new row gets. -/
structure Collection (β : Type) where
  differs : β → Entry → Option Bool
  successor : β → Entry → Option β
  fresh : Entry → Option β

/-- `new if new is not None else old`. -/
def inherit {α : Type} (store : PyValue → Option α) (old : α) : PyValue → Option α
  | .none => some old
  | v => store v

/-- Lines 891–925. -/
def promptCollection (env : CatalogEnv) : Collection PromptBody where
  differs curr e := some (!((PyValue.str curr.responseType.text).eq (e.get "response_type") &&
    (PyValue.bool curr.required).eq (e.get "required") &&
    (PyValue.int curr.displayOrder.value).eq (e.get "display_order")))
  successor curr e := do
    let responseType ← inherit (PyValue.storeText 20) curr.responseType (e.get "response_type")
    let required ← inherit PyValue.storeBool curr.required (e.get "required")
    let displayOrder ← inherit PyValue.storeInt curr.displayOrder (e.get "display_order")
    some ⟨responseType, required, displayOrder⟩
  fresh e := do
    let responseType ← (e.item "response_type").bind (PyValue.storeText 20)
    let displayOrder ← ((e.getD "display_order" (.int 0)).toInt env.parseInt).bind Int4.store
    some ⟨responseType, (e.getD "required" (.bool true)).truthy, displayOrder⟩

/-- A nullable text as a Python value. -/
def nullableText {n : ℕ} : Option (Varchar n) → PyValue
  | none => .none
  | some v => .str v.text

/-- The three texts of a rule are those of the entry. -/
def sameTexts (curr : RuleBody) (e : Entry) : Bool :=
  (PyValue.str curr.conditionField.text).eq (e.get "condition_field") &&
    (PyValue.str curr.conditionOperator.text).eq (e.get "condition_operator") &&
    (nullableText curr.conditionValue).eq (e.get "condition_value")

/-- Lines 969–1003; `dict` raises where the documents are compared. -/
def ruleCollection (env : CatalogEnv) : Collection RuleBody where
  differs curr e :=
    if sameTexts curr e then do
      let ours ← env.asDict curr.actions
      let theirs ← env.asDict (e.get "actions")
      some (!eqEntries ours theirs)
    else some true
  successor curr e := do
    let conditionField ←
      inherit (PyValue.storeText 100) curr.conditionField (e.get "condition_field")
    let conditionOperator ←
      inherit (PyValue.storeText 20) curr.conditionOperator (e.get "condition_operator")
    let conditionValue ← inherit (fun v => (v.storeText 255).map some) curr.conditionValue
      (e.get "condition_value")
    let actions ← inherit env.jsonb curr.actions (e.get "actions")
    some ⟨conditionField, conditionOperator, conditionValue, actions⟩
  fresh e := do
    let conditionField ← (e.item "condition_field").bind (PyValue.storeText 100)
    let conditionOperator ← (e.item "condition_operator").bind (PyValue.storeText 20)
    let conditionValue ← (e.get "condition_value").nullable (PyValue.storeText 255)
    let actions ← env.jsonb (if (e.get "actions").truthy then e.get "actions" else .dict [])
    some ⟨conditionField, conditionOperator, conditionValue, actions⟩

/-- A table with versions while the import goes through the payload. -/
structure Synced (β : Type) where
  chain : Chain β
  superseded : List ℕ
  added : List ℕ

/-- One round for an entry: the index still has the rows from before the loop. -/
def syncOne (env : CatalogEnv) (C : Collection β) (now : ℤ) (categoryId : ℕ)
    (byLabel : String → Option (ℕ × VersionedRow β)) (acc : Synced β) (e : Entry) :
    Option (Synced β) := do
  let key ← e.key env "label"
  if key = "" then some acc
  else match byLabel key with
    | some (id, curr) => do
      let changed ← C.differs curr.columns.body e
      if changed then
        let body ← C.successor curr.columns.body e
        some
          { chain := acc.chain.supersede now id curr ⟨curr.columns.label, body⟩ curr.active
            superseded := acc.superseded ++ [id]
            added := acc.added ++ [acc.chain.rows.next] }
      else some acc
    | none => do
      let label ← (e.item "label").bind (PyValue.storeText 255)
      let body ← C.fresh e
      some { acc with
        chain := acc.chain.add categoryId ⟨label, body⟩ (e.getD "active" (.bool true)).truthy
        added := acc.added ++ [acc.chain.rows.next] }

def rowKey (env : CatalogEnv) (p : VersionedRow β) : String := env.keyOf p.columns.label.text

/-- `by_prompt_label` and `by_rule_label`. -/
def byLabel (env : CatalogEnv) (rank : ℕ → ℕ) (categoryId : ℕ) (t : Store (VersionedRow β)) :
    String → Option (ℕ × VersionedRow β) :=
  lastOf (rowKey env) (loaded rank (unreplacedOf t categoryId))

def syncAll (env : CatalogEnv) (C : Collection β) (now : ℤ) (rank : ℕ → ℕ) (categoryId : ℕ)
    (entries : List Entry) (c : Chain β) : Option (Synced β) :=
  entries.foldlM (syncOne env C now categoryId (byLabel env rank categoryId c.rows)) ⟨c, [], []⟩

/-! ## The import -/

/-- `CategoryImportResult` (line 470). -/
structure CategoryImportResult where
  categoryId : ℕ
  created : Bool
  supersededPromptIds : List ℕ
  supersededRuleIds : List ℕ
  addedComponentIds : List ℕ
  addedPromptIds : List ℕ
  addedAttachmentIds : List ℕ
  addedPhotoSlotIds : List ℕ
  addedRuleIds : List ℕ

/-- The row of a category that the payload creates. -/
def CategoryExportPayload.row (payload : CategoryExportPayload) (actor : ℕ) :
    Option CategoryRow := do
  let name ← Varchar.store 100 payload.name
  let slug ← Varchar.store 100 payload.slug
  let status ← Varchar.store 20 payload.status
  let displayOrder ← Int4.store payload.displayOrder
  some ⟨name, slug, status, displayOrder, some actor, 1, none, none⟩

def importFails : Exn := .valueError "the import was refused"

/-- The category of the payload, created if there is none (lines 842–855). -/
def findOrCreate (actor : ℕ) (payload : CategoryExportPayload) : CatalogService (ℕ × Bool) := do
  let existing ← currentCategoryBySlug payload.slug
  match existing with
  | some e => pure (e.1, false)
  | none => do
    let row ← Svc.expect (payload.row actor) importFails
    let id ← insertCategory row
    pure (id, true)

/-- The five lists of the payload. -/
structure Imported where
  components : ImportedComponents
  prompts : Synced PromptBody
  attachments : Store (Part AttachmentRow) × List ℕ
  photoSlots : Store (Part PhotoSlotRow) × List ℕ
  rules : Synced RuleBody

/-- Lines 861–1003. -/
def importLists (env : CatalogEnv) (order : LoadOrder) (now : ℤ) (categoryId : ℕ)
    (payload : CategoryExportPayload) (db : CatalogDb) : Option Imported := do
  let components ←
    importComponents env order.components categoryId payload.components db.components
  let prompts ← syncAll env (promptCollection env) now order.prompts categoryId
    payload.inspectionPrompts db.prompts
  let attachments ← addAllMissing env (freshAttachment env) AttachmentRow.label order.attachments
    categoryId payload.attachments db.attachments
  let photoSlots ← addAllMissing env (freshPhotoSlot env) PhotoSlotRow.label order.photoSlots
    categoryId payload.photoSlots db.photoSlots
  let rules ← syncAll env (ruleCollection env) now order.rules categoryId payload.redFlagRules
    db.rules
  some ⟨components, prompts, attachments, photoSlots, rules⟩

def CatalogDb.withLists (db : CatalogDb) (i : Imported) : CatalogDb :=
  { db with
    components := i.components.rows
    prompts := i.prompts.chain
    attachments := i.attachments.1
    photoSlots := i.photoSlots.1
    rules := i.rules.chain }

def Imported.result (i : Imported) (categoryId : ℕ) (created : Bool) : CategoryImportResult where
  categoryId := categoryId
  created := created
  supersededPromptIds := i.prompts.superseded
  supersededRuleIds := i.rules.superseded
  addedComponentIds := i.components.added
  addedPromptIds := i.prompts.added
  addedAttachmentIds := i.attachments.2
  addedPhotoSlotIds := i.photoSlots.2
  addedRuleIds := i.rules.added

/-- `import_from_payload` (line 834). -/
def importFromPayload (env : CatalogEnv) (order : LoadOrder) (now : ℤ) (actor : ℕ)
    (payload : CategoryExportPayload) : CatalogService CategoryImportResult := do
  let target ← findOrCreate actor payload
  let db ← get
  let lists ← Svc.expect (importLists env order now target.1 payload db) importFails
  modify fun db => db.withLists lists
  pure (lists.result target.1 target.2)

/-- `import_category` (`src/api/routers/admin_categories.py` line 298). -/
def importCategory (env : CatalogEnv) (order : LoadOrder) (now : ℤ) (actor : ℕ)
    (payload : CategoryExportPayload) : CatalogService CategoryImportResult := do
  Svc.require (payload.slug ≠ "") (.httpException 422 "Import payload requires a slug.")
  importFromPayload env order now actor payload

/-! ## The export -/

def componentEntry (env : CatalogEnv) (p : Part ComponentRow) : Entry :=
  [("name", .str p.columns.name.text), ("weight_pct", .str (env.decimalText p.columns.weightPct)),
    ("display_order", .int p.columns.displayOrder.value), ("active", .bool p.active)]

def promptEntry (p : VersionedRow PromptBody) : Entry :=
  [("label", .str p.columns.label.text),
    ("response_type", .str p.columns.body.responseType.text),
    ("required", .bool p.columns.body.required),
    ("display_order", .int p.columns.body.displayOrder.value), ("active", .bool p.active),
    ("version", .int p.version), ("replaced_at", .none)]

/-- A nullable `TEXT` as a Python value. -/
def nullablePgText : Option PgText → PyValue
  | none => .none
  | some v => .str v.text

def attachmentEntry (p : Part AttachmentRow) : Entry :=
  [("label", .str p.columns.label.text), ("description", nullablePgText p.columns.description),
    ("display_order", .int p.columns.displayOrder.value), ("active", .bool p.active)]

def photoSlotEntry (p : Part PhotoSlotRow) : Entry :=
  [("label", .str p.columns.label.text), ("helper_text", nullablePgText p.columns.helperText),
    ("required", .bool p.columns.required),
    ("display_order", .int p.columns.displayOrder.value), ("active", .bool p.active)]

def ruleEntry (env : CatalogEnv) (p : VersionedRow RuleBody) : Option Entry := do
  let actions ← env.asDict p.columns.body.actions
  some [("label", .str p.columns.label.text),
    ("condition_field", .str p.columns.body.conditionField.text),
    ("condition_operator", .str p.columns.body.conditionOperator.text),
    ("condition_value", nullableText p.columns.body.conditionValue), ("actions", .dict actions),
    ("active", .bool p.active), ("version", .int p.version), ("replaced_at", .none)]

/-- `export_to_payload` (line 767). -/
def exportToPayload (env : CatalogEnv) (order : LoadOrder) (categoryId : ℕ) :
    CatalogService CategoryExportPayload := do
  let cat ← loadDetail categoryId
  let db ← get
  let rules ← Svc.expect
    ((loaded order.rules (unreplacedOf db.rules.rows categoryId)).mapM fun e => ruleEntry env e.2)
    importFails
  pure
    { name := cat.name.text
      slug := cat.slug.text
      status := cat.status.text
      displayOrder := cat.displayOrder.value
      version := cat.version
      replacedAt := cat.replacedAt
      components := (loaded order.components (partsOf db.components categoryId)).map
        fun e => componentEntry env e.2
      inspectionPrompts := (loaded order.prompts (unreplacedOf db.prompts.rows categoryId)).map
        fun e => promptEntry e.2
      attachments := (loaded order.attachments (partsOf db.attachments categoryId)).map
        fun e => attachmentEntry e.2
      photoSlots := (loaded order.photoSlots (partsOf db.photoSlots categoryId)).map
        fun e => photoSlotEntry e.2
      redFlagRules := rules }

/-! ## Runs -/

inductive CatalogOp
  | createCategory (actor : ℕ) (payload : CategoryCreate)
  | updateCategory (now : ℤ) (categoryId : ℕ) (patch : CategoryPatch)
  | deactivateCategory (now : ℤ) (categoryId : ℕ)
  | softDeleteCategory (now : ℤ) (categoryId : ℕ)
  | addInspectionPrompt (categoryId : ℕ) (payload : Labeled PromptBody)
  | updateInspectionPrompt (now : ℤ) (categoryId promptId : ℕ) (patch : InspectionPromptPatch)
  | addRedFlagRule (categoryId : ℕ) (payload : Labeled RuleBody)
  | updateRedFlagRule (now : ℤ) (categoryId ruleId : ℕ) (patch : RedFlagRulePatch)
  | importCategory (order : LoadOrder) (now : ℤ) (actor : ℕ) (payload : CategoryExportPayload)
  | submitIntake (categoryId : Option ℕ)
  | deleteRecord (now : ℤ) (recordId : ℕ)

def CatalogOp.service (env : CatalogEnv) : CatalogOp → CatalogService Unit
  | .createCategory actor payload => Catalog.createCategory env actor payload
  | .updateCategory now c patch => Catalog.updateCategory env now c patch
  | .deactivateCategory now c => Catalog.deactivateCategory env now c
  | .softDeleteCategory now c => Catalog.softDeleteCategory now c
  | .addInspectionPrompt c payload => Catalog.addInspectionPrompt env c payload
  | .updateInspectionPrompt now c p patch => Catalog.updateInspectionPrompt env now c p patch
  | .addRedFlagRule c payload => Catalog.addRedFlagRule env c payload
  | .updateRedFlagRule now c p patch => Catalog.updateRedFlagRule env now c p patch
  | .importCategory order now actor payload =>
    Svc.void (Catalog.importCategory env order now actor payload)
  | .submitIntake categoryId => Catalog.submitIntake categoryId
  | .deleteRecord now recordId => Catalog.deleteRecord now recordId

/-- A request in its transaction: an exception changes nothing. -/
def CatalogDb.step (env : CatalogEnv) (db : CatalogDb) (op : CatalogOp) : CatalogDb :=
  (Svc.request (fun before _ => before) (op.service env) db).2

/-- A category of the example runs. -/
def excavators : CategoryCreate where
  name := ⟨"Excavators", by decide, by decide⟩
  slug := ⟨"excavators", by decide, by decide⟩
  displayOrder := ⟨0, by decide⟩

/-- Its renaming. -/
def renameToDiggers : CategoryPatch where
  name := some (some ⟨"Diggers", by decide, by decide⟩)

variable {env : CatalogEnv} {db db' : CatalogDb}

theorem CatalogDb.step_of_returns {op : CatalogOp} {u : Unit}
    (h : Svc.Returns (op.service env) db u db') : db.step env op = db' := by
  rw [CatalogDb.step, Svc.request_of_returns h]

theorem CatalogDb.step_cases (env : CatalogEnv) (db : CatalogDb) (op : CatalogOp) :
    Svc.Returns (op.service env) db () (db.step env op) ∨
      (∀ u db', ¬ Svc.Returns (op.service env) db u db') ∧ db.step env op = db := by
  by_cases h : ∃ db', Svc.Returns (op.service env) db () db'
  · obtain ⟨db', hret⟩ := h
    exact .inl (by rwa [CatalogDb.step_of_returns hret])
  · have hno : ∀ u db', ¬ Svc.Returns (op.service env) db u db' := fun _ db' hret => h ⟨db', hret⟩
    rcases Svc.request_cases (fun before _ => before) (op.service env) db with
      ⟨u, db', hret, -⟩ | ⟨e, db', -, hreq⟩
    · exact absurd hret (hno u db')
    · exact .inr ⟨hno, by rw [CatalogDb.step, hreq]⟩

/-! ## What an import did when it returned -/

/-- The category of the payload was found, or its slug was free and it was created. -/
theorem returns_findOrCreate {actor : ℕ} {payload : CategoryExportPayload} {target : ℕ × Bool} :
    Svc.Returns (findOrCreate actor payload) db target db' ↔
      (∃ cat, Store.scalarOneOrNone (db.categories.select (isCurrentOf payload.slug)) =
          some (some (target.1, cat)) ∧ target.2 = false ∧ db = db') ∨
        (Store.scalarOneOrNone (db.categories.select (isCurrentOf payload.slug)) = some none ∧
          ∃ row, payload.row actor = some row ∧
            (∀ k c, db.categories.get? k = some c → isCurrentOf row.slug.text k c = false) ∧
            target = (db.categories.next, true) ∧
            { db with categories := db.categories.create row } = db') := by
  rw [findOrCreate, Svc.returns_bind_of_read fun _ _ => returns_currentCategoryBySlug]
  constructor
  · rintro ⟨_ | e, hfound, h⟩
    · simp only [Svc.returns_expect_bind] at h
      obtain ⟨row, hrow, h⟩ := h
      obtain ⟨id, db₁, hinsert, h⟩ := Svc.returns_bind.mp h
      obtain ⟨hfree, rfl, rfl⟩ := returns_insertCategory.mp hinsert
      obtain ⟨rfl, rfl⟩ := Svc.returns_pure.mp h
      exact .inr ⟨hfound, row, hrow, hfree, rfl, rfl⟩
    · obtain ⟨rfl, rfl⟩ := Svc.returns_pure.mp h
      exact .inl ⟨e.2, hfound, rfl, rfl⟩
  · rintro (⟨cat, hfound, hnew, rfl⟩ | ⟨hnone, row, hrow, hfree, rfl, rfl⟩)
    · refine ⟨some (target.1, cat), hfound, Svc.returns_pure.mpr ⟨?_, rfl⟩⟩
      rw [← hnew]
    · refine ⟨none, hnone, ?_⟩
      simp only [Svc.returns_expect_bind]
      exact ⟨row, hrow, Svc.returns_bind.mpr ⟨_, _, returns_insertCategory.mpr ⟨hfree, rfl, rfl⟩,
        Svc.returns_pure.mpr ⟨rfl, rfl⟩⟩⟩

theorem returns_importFromPayload {order : LoadOrder} {now : ℤ} {actor : ℕ}
    {payload : CategoryExportPayload} {r : CategoryImportResult} :
    Svc.Returns (importFromPayload env order now actor payload) db r db' ↔
      ∃ target db₁ lists, Svc.Returns (findOrCreate actor payload) db target db₁ ∧
        importLists env order now target.1 payload db₁ = some lists ∧
        lists.result target.1 target.2 = r ∧ db₁.withLists lists = db' := by
  rw [importFromPayload, Svc.returns_bind]
  simp only [Svc.returns_get_bind, Svc.returns_expect_bind, Svc.returns_modify_bind,
    Svc.returns_pure]
  constructor
  · rintro ⟨target, db₁, htarget, lists, hlists, hr, rfl⟩
    exact ⟨target, db₁, lists, htarget, hlists, hr, rfl⟩
  · rintro ⟨target, db₁, lists, htarget, hlists, hr, rfl⟩
    exact ⟨target, db₁, htarget, lists, hlists, hr, rfl⟩

theorem returns_importCategory {order : LoadOrder} {now : ℤ} {actor : ℕ}
    {payload : CategoryExportPayload} {r : CategoryImportResult} :
    Svc.Returns (importCategory env order now actor payload) db r db' ↔
      payload.slug ≠ "" ∧ Svc.Returns (importFromPayload env order now actor payload) db r db' := by
  rw [importCategory, Svc.returns_require_bind]

theorem importLists_eq_some {order : LoadOrder} {now : ℤ} {categoryId : ℕ}
    {payload : CategoryExportPayload} {i : Imported} :
    importLists env order now categoryId payload db = some i ↔
      importComponents env order.components categoryId payload.components db.components =
          some i.components ∧
        syncAll env (promptCollection env) now order.prompts categoryId payload.inspectionPrompts
          db.prompts = some i.prompts ∧
        addAllMissing env (freshAttachment env) AttachmentRow.label order.attachments categoryId
          payload.attachments db.attachments = some i.attachments ∧
        addAllMissing env (freshPhotoSlot env) PhotoSlotRow.label order.photoSlots categoryId
          payload.photoSlots db.photoSlots = some i.photoSlots ∧
        syncAll env (ruleCollection env) now order.rules categoryId payload.redFlagRules
          db.rules = some i.rules := by
  simp only [importLists, bind, Option.bind_eq_some_iff, Option.some.injEq]
  constructor
  · rintro ⟨c, hc, p, hp, a, ha, s, hs, r, hr, rfl⟩
    exact ⟨hc, hp, ha, hs, hr⟩
  · rintro ⟨hc, hp, ha, hs, hr⟩
    exact ⟨_, hc, _, hp, _, ha, _, hs, _, hr, rfl⟩

/-! ## What one entry of a payload does -/

theorem lastOf_eq_some {ρ : Type} {key : ρ → String} {rows : List (ℕ × ρ)} {k : String}
    {e : ℕ × ρ} (h : lastOf key rows k = some e) : e ∈ rows ∧ key e.2 = k := by
  have hmem := List.mem_filter.mp (List.mem_of_getLast? h)
  exact ⟨hmem.1, of_decide_eq_true hmem.2⟩

theorem lastOf_eq_none {ρ : Type} {key : ρ → String} {rows : List (ℕ × ρ)} {k : String} :
    lastOf key rows k = none ↔ ∀ e ∈ rows, key e.2 ≠ k := by
  simp [lastOf]

@[simp] theorem mem_loaded {ρ : Type} {rank : ℕ → ℕ} {rows : List (ℕ × ρ)} {e : ℕ × ρ} :
    e ∈ loaded rank rows ↔ e ∈ rows := mem_sortedBy

@[simp] theorem mem_partsOf {κ : Type} {t : Store (Part κ)} {categoryId id : ℕ} {p : Part κ} :
    (id, p) ∈ partsOf t categoryId ↔ t.get? id = some p ∧ p.categoryId = categoryId := by
  simp [partsOf]

@[simp] theorem mem_unreplacedOf {κ : Type} {t : Store (VersionedPart κ)} {categoryId id : ℕ}
    {p : VersionedPart κ} :
    (id, p) ∈ unreplacedOf t categoryId ↔
      t.get? id = some p ∧ p.categoryId = categoryId ∧ p.replacedAt = none := by
  simp [unreplacedOf]

/-- A row of the index is current in the category. -/
theorem byLabel_eq_some {rank : ℕ → ℕ} {categoryId id : ℕ} {t : Store (VersionedRow β)}
    {k : String} {curr : VersionedRow β} (h : byLabel env rank categoryId t k = some (id, curr)) :
    t.get? id = some curr ∧ curr.categoryId = categoryId ∧ curr.replacedAt = none ∧
      rowKey env curr = k := by
  obtain ⟨hmem, hkey⟩ := lastOf_eq_some h
  obtain ⟨hget, hcat, hopen⟩ := mem_unreplacedOf.mp (mem_loaded.mp hmem)
  exact ⟨hget, hcat, hopen, hkey⟩

/-- What an entry does to a table with versions. -/
inductive SyncMove (env : CatalogEnv) (C : Collection β) (now : ℤ) (categoryId : ℕ)
    (index : String → Option (ℕ × VersionedRow β)) (e : Entry) (acc acc' : Synced β) : Prop
  | blank (hkey : e.key env "label" = some "") (hacc : acc' = acc)
  | kept (k : String) (id : ℕ) (curr : VersionedRow β) (hkey : e.key env "label" = some k)
    (hne : k ≠ "") (hfound : index k = some (id, curr))
    (hsame : C.differs curr.columns.body e = some false) (hacc : acc' = acc)
  | superseded (k : String) (id : ℕ) (curr : VersionedRow β) (body : β)
    (hkey : e.key env "label" = some k) (hne : k ≠ "") (hfound : index k = some (id, curr))
    (hdiffers : C.differs curr.columns.body e = some true)
    (hbody : C.successor curr.columns.body e = some body)
    (hacc : acc' =
      { chain := acc.chain.supersede now id curr ⟨curr.columns.label, body⟩ curr.active
        superseded := acc.superseded ++ [id]
        added := acc.added ++ [acc.chain.rows.next] })
  | added (k : String) (label : Varchar 255) (body : β) (hkey : e.key env "label" = some k)
    (hne : k ≠ "") (hmissing : index k = none)
    (hlabel : (e.item "label").bind (PyValue.storeText 255) = some label)
    (hbody : C.fresh e = some body)
    (hacc : acc' = { acc with
      chain := acc.chain.add categoryId ⟨label, body⟩ (e.getD "active" (.bool true)).truthy
      added := acc.added ++ [acc.chain.rows.next] })

theorem syncOne_cases {C : Collection β} {now : ℤ} {categoryId : ℕ}
    {index : String → Option (ℕ × VersionedRow β)} {e : Entry} {acc acc' : Synced β}
    (h : syncOne env C now categoryId index acc e = some acc') :
    SyncMove env C now categoryId index e acc acc' := by
  rw [syncOne, Option.bind_eq_bind, Option.bind_eq_some_iff] at h
  obtain ⟨k, hkey, h⟩ := h
  by_cases hk : k = ""
  · rw [if_pos hk] at h
    exact .blank (hk ▸ hkey) (Option.some.inj h).symm
  rw [if_neg hk] at h
  cases hidx : index k with
  | some found =>
    obtain ⟨id, curr⟩ := found
    simp only [hidx, Option.bind_eq_bind, Option.bind_eq_some_iff] at h
    obtain ⟨changed, hchanged, h⟩ := h
    cases changed with
    | true =>
      simp only [if_true, Option.bind_eq_some_iff, Option.some.injEq] at h
      obtain ⟨body, hbody, hacc⟩ := h
      exact .superseded k id curr body hkey hk hidx hchanged hbody hacc.symm
    | false =>
      simp only [Bool.false_eq_true, if_false, Option.some.injEq] at h
      exact .kept k id curr hkey hk hidx hchanged h.symm
  | none =>
    simp only [hidx, Option.bind_eq_bind, Option.bind_eq_some_iff, Option.some.injEq] at h
    obtain ⟨label, hlabel, body, hbody, hacc⟩ := h
    exact .added k label body hkey hk hidx (Option.bind_eq_some_iff.mpr hlabel) hbody hacc.symm

/-- What an entry does to the components. -/
inductive ComponentMove (env : CatalogEnv) (categoryId : ℕ)
    (byName : String → Option (ℕ × Part ComponentRow)) (e : Entry)
    (acc acc' : ImportedComponents) : Prop
  | blank (hkey : e.key env "name" = some "") (hacc : acc' = acc)
  | kept (k : String) (weight : ℚ) (id : ℕ) (comp : Part ComponentRow)
    (hkey : e.key env "name" = some k) (hne : k ≠ "")
    (hweight : (e.item "weight_pct").bind env.decimal = some weight)
    (hfound : byName k = some (id, comp))
    (hsame : (acc.session id).getD comp.columns.weightPct.toRat = weight) (hacc : acc' = acc)
  | assigned (k : String) (weight : ℚ) (id : ℕ) (comp : Part ComponentRow) (stored : Numeric64)
    (hkey : e.key env "name" = some k) (hne : k ≠ "")
    (hweight : (e.item "weight_pct").bind env.decimal = some weight)
    (hfound : byName k = some (id, comp))
    (hdiffers : (acc.session id).getD comp.columns.weightPct.toRat ≠ weight)
    (hstored : Numeric64.store weight = some stored)
    (hacc : acc' = { acc with
      rows := acc.rows.modify id fun p =>
        { p with columns := { p.columns with weightPct := stored } }
      session := fun k => if k = id then some weight else acc.session k })
  | added (k : String) (weight : ℚ) (name : Varchar 100) (stored : Numeric64)
    (displayOrder : Int4) (hkey : e.key env "name" = some k) (hne : k ≠ "")
    (hweight : (e.item "weight_pct").bind env.decimal = some weight) (hmissing : byName k = none)
    (hname : (e.item "name").bind (PyValue.storeText 100) = some name)
    (hstored : Numeric64.store weight = some stored)
    (horder : ((e.getD "display_order" (.int 0)).toInt env.parseInt).bind Int4.store =
      some displayOrder)
    (hacc : acc' = { acc with
      rows := acc.rows.create
        ⟨categoryId, ⟨name, stored, displayOrder⟩, (e.getD "active" (.bool true)).truthy⟩
      added := acc.added ++ [acc.rows.next] })

theorem importComponent_cases {categoryId : ℕ} {byName : String → Option (ℕ × Part ComponentRow)}
    {e : Entry} {acc acc' : ImportedComponents}
    (h : importComponent env categoryId byName acc e = some acc') :
    ComponentMove env categoryId byName e acc acc' := by
  rw [importComponent, Option.bind_eq_bind, Option.bind_eq_some_iff] at h
  obtain ⟨k, hkey, h⟩ := h
  by_cases hk : k = ""
  · rw [if_pos hk] at h
    exact .blank (hk ▸ hkey) (Option.some.inj h).symm
  rw [if_neg hk, Option.bind_eq_bind, Option.bind_eq_some_iff] at h
  obtain ⟨weight, hweight, h⟩ := h
  cases hidx : byName k with
  | some found =>
    obtain ⟨id, comp⟩ := found
    simp only [hidx] at h
    by_cases hsame : (acc.session id).getD comp.columns.weightPct.toRat = weight
    · rw [if_pos hsame] at h
      exact .kept k weight id comp hkey hk hweight hidx hsame (Option.some.inj h).symm
    · rw [if_neg hsame, Option.bind_eq_bind, Option.bind_eq_some_iff] at h
      obtain ⟨stored, hstored, h⟩ := h
      exact .assigned k weight id comp stored hkey hk hweight hidx hsame hstored
        (Option.some.inj h).symm
  | none =>
    simp only [hidx, Option.bind_eq_bind, Option.bind_eq_some_iff, Option.some.injEq] at h
    obtain ⟨name, hname, stored, hstored, displayOrder, horder, hacc⟩ := h
    exact .added k weight name stored displayOrder hkey hk hweight hidx
      (Option.bind_eq_some_iff.mpr hname) hstored (Option.bind_eq_some_iff.mpr horder) hacc.symm

/-- An entry of a table that is only added to. -/
theorem addMissing_cases {κ : Type} {fresh : Entry → Option κ} {categoryId : ℕ}
    {index : String → Option (ℕ × Part κ)} {e : Entry} {acc acc' : Store (Part κ) × List ℕ}
    (h : addMissing env fresh categoryId index acc e = some acc') :
    (∃ k, e.key env "label" = some k ∧ (k = "" ∨ (index k).isSome = true) ∧ acc' = acc) ∨
      ∃ k columns, e.key env "label" = some k ∧ k ≠ "" ∧ index k = none ∧
        fresh e = some columns ∧
        acc' = (acc.1.create ⟨categoryId, columns, (e.getD "active" (.bool true)).truthy⟩,
          acc.2 ++ [acc.1.next]) := by
  rw [addMissing, Option.bind_eq_bind, Option.bind_eq_some_iff] at h
  obtain ⟨k, hkey, h⟩ := h
  by_cases hk : k = "" ∨ (index k).isSome = true
  · rw [if_pos hk] at h
    exact .inl ⟨k, hkey, hk, (Option.some.inj h).symm⟩
  · rw [if_neg hk, Option.bind_eq_bind, Option.bind_eq_some_iff] at h
    obtain ⟨columns, hcolumns, h⟩ := h
    rw [not_or, Option.not_isSome_iff_eq_none] at hk
    exact .inr ⟨k, columns, hkey, hk.1, hk.2, hcolumns, (Option.some.inj h).symm⟩

/-! ## What a request does -/

/-- The category that a request edits, and the patch. -/
def CatalogOp.edit : CatalogOp → Option (ℕ × CategoryPatch)
  | .updateCategory _ id patch => some (id, patch)
  | .deactivateCategory _ id => some (id, { status := some (some inactiveStatus) })
  | _ => none

/-- What an edit does to a table with versions. -/
inductive ChainMove (categories : Store CategoryRow) (c c' : Chain β) : Prop
  | same (hc : c' = c)
  | added (categoryId : ℕ) (columns : Labeled β) (active : Bool)
    (hcat : ∃ cat, categories.get? categoryId = some cat)
    (hc : c' = c.add categoryId columns active)
  | superseded (now : ℤ) (id : ℕ) (existing : VersionedRow β) (columns : Labeled β)
    (active : Bool) (hget : c.rows.get? id = some existing) (hopen : existing.replacedAt = none)
    (hc : c' = c.supersede now id existing columns active)
  | toggled (id : ℕ) (existing : VersionedRow β) (active : Bool)
    (hget : c.rows.get? id = some existing) (hopen : existing.replacedAt = none)
    (hc : c' = c.setActive id active)

/-- A request is refused or has no effect, or makes one of these changes. -/
inductive CatalogMove (env : CatalogEnv) (op : CatalogOp) (db db' : CatalogDb) : Prop
  | same (hdb : db' = db)
  | created (row : CategoryRow) (hlive : row.live = true)
    (hfree : ∀ k c, db.categories.get? k = some c → isCurrentOf row.slug.text k c = false)
    (hdb : db' = { db with categories := db.categories.create row })
  | superseded (now : ℤ) (id : ℕ) (cat : CategoryRow) (patch : CategoryPatch)
    (hop : op.edit = some (id, patch)) (hmay : db.MayUpdate id cat patch) (hpatch : patch ≠ {})
    (hdb : db' = db.supersede now id cat patch)
  | deleted (now : ℤ) (id : ℕ) (cat : CategoryRow) (hop : op = .softDeleteCategory now id)
    (hfound : db.categories.get? id = some cat) (hopen : cat.deletedAt = none)
    (hunused : db.inUse id = 0)
    (hdb : db' = { db with
      categories := db.categories.modify id fun c => { c with deletedAt := some now } })
  | prompts (c : Chain PromptBody) (hmove : ChainMove db.categories db.prompts c)
    (hdb : db' = { db with prompts := c })
  | rules (c : Chain RuleBody) (hmove : ChainMove db.categories db.rules c)
    (hdb : db' = { db with rules := c })
  | imported (order : LoadOrder) (now : ℤ) (actor : ℕ) (payload : CategoryExportPayload)
    (r : CategoryImportResult) (hop : op = .importCategory order now actor payload)
    (hret : Svc.Returns (importCategory env order now actor payload) db r db')
  | intake (categoryId : Option ℕ) (hactive : ∀ id, categoryId = some id →
      ∃ c, db.categories.get? id = some c ∧ c.exposed = true)
    (hdb : db' = { db with records := db.records.create ⟨categoryId, none⟩ })
  | recordDeleted (now : ℤ) (recordId : ℕ)
    (hdb : db' = { db with
      records := db.records.modify recordId fun r => { r with deletedAt := some now } })

/-- An update of a prompt or of a rule. -/
theorem chainMove_updateVersioned {T : ChainTable β} {title : String} {now : ℤ}
    {categoryId partId : ℕ} {columnsSet : Bool} {columns : Labeled β → Labeled β}
    {active : Option (Option Bool)} {u : Unit}
    (h : Svc.Returns
      (updateVersioned env T title now categoryId partId columnsSet columns active) db u db') :
    ∃ c, ChainMove db.categories (T.chain db) c ∧ db' = T.put c db := by
  obtain ⟨existing, hget, hopen, ⟨row, value, hdb⟩ | ⟨value, hdb⟩⟩ := returns_updateVersioned h
  · exact ⟨_, .superseded now partId existing row value hget hopen rfl, hdb⟩
  · exact ⟨_, .toggled partId existing value hget hopen rfl, hdb⟩

theorem step_move (env : CatalogEnv) (db : CatalogDb) (op : CatalogOp) :
    CatalogMove env op db (db.step env op) := by
  rcases db.step_cases env op with hret | ⟨-, hsame⟩
  · generalize db.step env op = db' at hret
    cases op with
    | createCategory actor payload =>
      obtain ⟨row, hlive, -, hfree, hdb⟩ := returns_createCategory hret
      exact .created row hlive hfree hdb
    | updateCategory now c patch =>
      obtain ⟨cat, hmay, hpatch, hdb⟩ := returns_updateCategory hret
      exact .superseded now c cat patch rfl hmay hpatch hdb
    | deactivateCategory now c =>
      rcases returns_deactivateCategory hret with hdb | hret
      · exact .same hdb.symm
      · obtain ⟨cat, hmay, hpatch, hdb⟩ := returns_updateCategory hret
        exact .superseded now c cat _ rfl hmay hpatch hdb
    | softDeleteCategory now c =>
      obtain ⟨cat, hfound, ⟨hopen, hunused, hdb⟩ | ⟨-, hdb⟩⟩ :=
        returns_softDeleteCategory.mp hret
      · exact .deleted now c cat rfl hfound hopen hunused hdb.symm
      · exact .same hdb.symm
    | addInspectionPrompt c payload =>
      obtain ⟨hcat, hdb⟩ := returns_addVersioned hret
      exact .prompts _ (.added c payload true hcat rfl) hdb
    | addRedFlagRule c payload =>
      obtain ⟨hcat, hdb⟩ := returns_addVersioned hret
      exact .rules _ (.added c payload true hcat rfl) hdb
    | updateInspectionPrompt now c p patch =>
      obtain ⟨c, hmove, hdb⟩ := chainMove_updateVersioned hret
      exact .prompts c hmove hdb
    | updateRedFlagRule now c p patch =>
      obtain ⟨c, hmove, hdb⟩ := chainMove_updateVersioned hret
      exact .rules c hmove hdb
    | importCategory order now actor payload =>
      obtain ⟨r, hret⟩ := Svc.returns_void.mp hret
      exact .imported order now actor payload r rfl hret
    | submitIntake categoryId =>
      obtain ⟨hactive, hdb⟩ := returns_submitIntake.mp hret
      exact .intake categoryId hactive hdb.symm
    | deleteRecord now recordId =>
      exact .recordDeleted now recordId (Svc.returns_modify.mp hret).symm
  · exact .same hsame

/-- The categories and their links stay, a category is inserted under a free slug, the
    current row of one is superseded, or a row that no live record is on is deleted. -/
inductive CategoryMove (op : CatalogOp) (db db' : CatalogDb) : Prop
  | same (hc : db'.categories = db.categories) (hl : db'.links = db.links)
  | inserted (row : CategoryRow) (hlive : row.live = true)
    (hfree : ∀ k c, db.categories.get? k = some c → isCurrentOf row.slug.text k c = false)
    (hc : db'.categories = db.categories.create row) (hl : db'.links = db.links)
  | superseded (now : ℤ) (id : ℕ) (cat : CategoryRow) (patch : CategoryPatch)
    (hop : op.edit = some (id, patch)) (hmay : db.MayUpdate id cat patch) (hpatch : patch ≠ {})
    (hdb : db' = db.supersede now id cat patch)
  | deleted (now : ℤ) (id : ℕ) (cat : CategoryRow) (hop : op = .softDeleteCategory now id)
    (hfound : db.categories.get? id = some cat) (hopen : cat.deletedAt = none)
    (hunused : db.inUse id = 0)
    (hdb : db' = { db with
      categories := db.categories.modify id fun c => { c with deletedAt := some now } })

theorem row_live {actor : ℕ} {payload : CategoryExportPayload} {row : CategoryRow}
    (h : payload.row actor = some row) : row.live = true := by
  simp only [CategoryExportPayload.row, bind, Option.bind_eq_some_iff, Option.some.injEq] at h
  obtain ⟨_, -, _, -, _, -, _, -, rfl⟩ := h
  rfl

/-- What a request does to the categories. -/
theorem step_categoryMove (env : CatalogEnv) (db : CatalogDb) (op : CatalogOp) :
    CategoryMove op db (db.step env op) := by
  cases step_move env db op with
  | created row hlive hfree hdb =>
    rw [hdb]
    exact .inserted row hlive hfree rfl rfl
  | superseded now id cat patch hop hmay hpatch hdb =>
    exact .superseded now id cat patch hop hmay hpatch hdb
  | deleted now id cat hop hfound hopen hunused hdb =>
    exact .deleted now id cat hop hfound hopen hunused hdb
  | imported order now actor payload r hop hret =>
    obtain ⟨target, db₁, lists, htarget, -, -, hdb⟩ :=
      returns_importFromPayload.mp (returns_importCategory.mp hret).2
    rw [← hdb]
    rcases returns_findOrCreate.mp htarget with ⟨cat, -, -, rfl⟩ | ⟨-, row, hrow, hfree, -, rfl⟩
    · exact .same rfl rfl
    · exact .inserted row (row_live hrow) hfree rfl rfl
  | same hdb | prompts _ _ hdb | rules _ _ hdb | intake _ _ hdb | recordDeleted _ _ hdb =>
    rw [hdb]
    exact .same rfl rfl

end TempleConsign.Catalog
