import Mathlib.Data.String.Basic
import TempleConsign.Columns
import TempleConsign.VersionedRows

/-!
# The category catalog

Model of the category service (`src/api/services/admin_category_service.py`) over the
columns as the database types them: an import may write any text where the edit schemas
of `Categories` allow three values. Beside the edits there are the three readers of the
category table: the iOS config (`src/api/routers/ios_config.py` line 89), the customer's
list (`src/api/routers/equipment.py` line 81) and the check of an intake
(`src/api/services/equipment_service.py` line 78).

`links` are logs that the code does not keep: which row superseded which.

Deviations: a request whose values the schemas or the columns refuse is left out. The
components, the attachments and the photo slots are written by imports only. The names
order as texts and the ids as numbers. The audit rows are left out.

Results:
* `returns_createCategory`, `returns_updateCategory`, `returns_softDeleteCategory`: what
  an edit of a category checked and wrote when it returned.
* `returns_updateVersioned`: the same for an edit of a prompt or a rule.
-/

namespace TempleConsign.Catalog

open ServiceLib

/-! ## Rows -/

/-- `EquipmentCategory` (`src/api/database/models.py` line 559). -/
structure CategoryRow where
  name : Varchar 100
  slug : Varchar 100
  status : Varchar 20
  displayOrder : Int4
  createdBy : Option ℕ
  version : ℕ
  replacedAt : Option ℤ
  deletedAt : Option ℤ

/-- The version is current and not deleted. -/
def CategoryRow.live (c : CategoryRow) : Bool := c.replacedAt.isNone && c.deletedAt.isNone

/-- What an active category is filtered by. -/
def CategoryRow.exposed (c : CategoryRow) : Bool := c.status.text = "active" && c.deletedAt.isNone

/-- `CategoryComponent` (line 603). -/
structure ComponentRow where
  name : Varchar 100
  weightPct : Numeric64
  displayOrder : Int4
  deriving DecidableEq

/-- The columns of `CategoryInspectionPrompt` (line 623) that a new version may change. -/
structure PromptBody where
  responseType : Varchar 20
  required : Bool
  displayOrder : Int4
  deriving DecidableEq

/-- The columns of `CategoryRedFlagRule` (line 683) that a new version may change. -/
structure RuleBody where
  conditionField : Varchar 100
  conditionOperator : Varchar 20
  conditionValue : Option (Varchar 255)
  actions : PyValue

/-- `CategoryAttachment` (line 648). -/
structure AttachmentRow where
  label : Varchar 255
  description : Option PgText
  displayOrder : Int4
  deriving DecidableEq

/-- `CategoryPhotoSlot` (line 665). -/
structure PhotoSlotRow where
  label : Varchar 255
  helperText : Option PgText
  required : Bool
  displayOrder : Int4
  deriving DecidableEq

structure Labeled (β : Type) where
  label : Varchar 255
  body : β

abbrev VersionedRow (β : Type) := VersionedPart (Labeled β)

/-- A table with versions; a link goes from a row to the row that superseded it. -/
structure Chain (β : Type) where
  rows : Store (VersionedRow β)
  links : List (ℕ × ℕ)

/-- `EquipmentRecord` as far as it refers to a category. -/
structure RecordRow where
  categoryId : Option ℕ
  deletedAt : Option ℤ

structure CatalogDb where
  categories : Store CategoryRow
  links : List (ℕ × ℕ)
  components : Store (Part ComponentRow)
  prompts : Chain PromptBody
  attachments : Store (Part AttachmentRow)
  photoSlots : Store (Part PhotoSlotRow)
  rules : Chain RuleBody
  records : Store RecordRow

def CatalogDb.empty : CatalogDb :=
  ⟨.empty, [], .empty, ⟨.empty, []⟩, .empty, .empty, ⟨.empty, []⟩, .empty⟩

/-- The functions of Python and PostgreSQL on texts and documents: `str.lower`, `int`
    of a text, `Decimal(str(v))` and its inverse, `dict` of a list and the value that
    JSONB gives back. -/
structure CatalogEnv where
  lower : String → String
  lower_ne : ∀ s, s ≠ "" → lower s ≠ ""
  parseInt : String → Option ℤ
  decimal : PyValue → Option ℚ
  decimalText : Numeric64 → String
  decimal_text : ∀ w, decimal (.str (decimalText w)) = some w.toRat
  dictOf : List PyValue → Option (List (String × PyValue))
  jsonb : PyValue → Option PyValue

/-- `dict(v or {})`. -/
def CatalogEnv.asDict (env : CatalogEnv) (v : PyValue) : Option (List (String × PyValue)) :=
  if v.truthy then
    match v with
    | .dict entries => some entries
    | .list items => env.dictOf items
    | _ => none
  else some []

/-- The functions on texts of ASCII characters and on documents without floats. -/
def CatalogEnv.plain : CatalogEnv where
  lower s := String.ofList (s.toList.map Char.toLower)
  lower_ne s hs h := hs (by simpa using congrArg String.toList h)
  parseInt s :=
    if s.toList ≠ [] ∧ s.toList.all Char.isDigit = true then
      some (Nat.ofDigitChars 10 s.toList 0 : ℕ)
    else none
  decimal
    | .int n => some n
    | .str s => readDecimal s
    | _ => none
  decimalText := Numeric64.text
  decimal_text := readDecimal_text
  dictOf items := items.mapM fun
    | .list [.str k, v] => some (k, v)
    | _ => none
  jsonb := some

abbrev CatalogService (α : Type) := Svc CatalogDb Exn α

/-! ## Reading -/

/-- `_fetch_categories` of the iOS config (line 89). -/
def iosCategories (db : CatalogDb) : List (ℕ × CategoryRow) :=
  sortedBy (fun e => e.2.displayOrder.value)
    (sortedBy Prod.fst (db.categories.select fun _ c => c.exposed))

/-- `list_categories` of the customer (line 81). -/
def customerCategories (db : CatalogDb) : List (ℕ × CategoryRow) :=
  sortedBy (fun e => e.2.displayOrder.value)
    (sortedBy (fun e => e.2.name.text) (db.categories.select fun _ c => c.exposed))

/-- `_validate_category` (line 78). -/
def validateCategory : Option ℕ → CatalogService Unit
  | none => pure ()
  | some categoryId => do
    let db ← get
    Svc.require ((db.categories.get? categoryId).any CategoryRow.exposed = true)
      (.httpException 422 "Unknown or inactive equipment category.")

/-- `_load_detail` (line 154). -/
def loadDetail (categoryId : ℕ) : CatalogService CategoryRow := do
  let db ← get
  Svc.expect (db.categories.get? categoryId) (.httpException 404 "Category not found.")

/-- `dict(r.actions or {})` of every current rule, as `_serialize_detail` (line 72) makes
    it. -/
def CatalogDb.serializes (env : CatalogEnv) (db : CatalogDb) (categoryId : ℕ) : Bool :=
  (unreplacedOf db.rules.rows categoryId).all fun e =>
    (env.asDict e.2.columns.body.actions).isSome

/-- `get_category` (line 208). -/
def getCategory (env : CatalogEnv) (categoryId : ℕ) : CatalogService Unit := do
  let _ ← loadDetail categoryId
  let db ← get
  Svc.require (db.serializes env categoryId = true) (.valueError "actions is not a dict")

/-- The rows that `current_category_by_slug` looks for. -/
def isCurrentOf (slug : String) (_ : ℕ) (c : CategoryRow) : Bool := c.slug.text = slug && c.live

/-- `current_category_by_slug` (`category_versioning_service.py` line 210). -/
def currentCategoryBySlug (slug : String) : CatalogService (Option (ℕ × CategoryRow)) := do
  let db ← get
  Svc.expect (Store.scalarOneOrNone (db.categories.select (isCurrentOf slug)))
    .multipleResultsFound

/-! ## Edits of a category -/

/-- The `INSERT`, which the index `uq_equipment_categories_slug_current` may refuse. -/
def insertCategory (row : CategoryRow) : CatalogService ℕ := do
  let db ← get
  Svc.require (db.categories.exists? (isCurrentOf row.slug.text) = false) .integrityError
  modify fun db => { db with categories := db.categories.create row }
  pure db.categories.next

def slugInUse (slug : String) : Exn :=
  .httpException 409 ("Slug '" ++ slug ++ "' is already in use.")

/-- `CategoryCreate` (`src/api/schemas/admin.py` line 356). -/
structure CategoryCreate where
  name : Varchar 100
  slug : Varchar 100
  displayOrder : Int4

def activeStatus : Varchar 20 := ⟨"active", by decide, by decide⟩

def inactiveStatus : Varchar 20 := ⟨"inactive", by decide, by decide⟩

/-- `create_category` (line 213). -/
def createCategory (env : CatalogEnv) (actor : ℕ) (payload : CategoryCreate) :
    CatalogService Unit := do
  let existing ← currentCategoryBySlug payload.slug.text
  Svc.require (existing.isNone = true) (slugInUse payload.slug.text)
  let id ← insertCategory
    { name := payload.name, slug := payload.slug, status := activeStatus
      displayOrder := payload.displayOrder, createdBy := some actor, version := 1
      replacedAt := none, deletedAt := none }
  getCategory env id

/-- `CategoryPatch` (line 362): an absent field is `none`, a `null` is `some none`. -/
structure CategoryPatch where
  name : Option (Option (Varchar 100)) := none
  slug : Option (Option (Varchar 100)) := none
  displayOrder : Option (Option Int4) := none
  status : Option (Option (Varchar 20)) := none
  deriving DecidableEq

/-- The row that `supersede_category` (`category_versioning_service.py` line 227) inserts. -/
def CategoryRow.successor (existing : CategoryRow) (fields : CategoryPatch) : CategoryRow where
  name := (fields.name.getD none).getD existing.name
  slug := (fields.slug.getD none).getD existing.slug
  status := (fields.status.getD none).getD existing.status
  displayOrder := (fields.displayOrder.getD none).getD existing.displayOrder
  createdBy := existing.createdBy
  version := existing.version + 1
  replacedAt := none
  deletedAt := none

/-- `existing.replaced_at = now`. -/
def CatalogDb.markReplaced (now : ℤ) (id : ℕ) (db : CatalogDb) : CatalogDb :=
  { db with categories := db.categories.modify id fun c => { c with replacedAt := some now } }

def CatalogDb.linkCategory (id successor : ℕ) (db : CatalogDb) : CatalogDb :=
  { db with links := db.links ++ [(id, successor)] }

/-- `supersede_category` (line 227). -/
def supersedeCategory (now : ℤ) (id : ℕ) (existing : CategoryRow) (fields : CategoryPatch) :
    CatalogService ℕ := do
  modify (CatalogDb.markReplaced now id)
  let successor ← insertCategory (existing.successor fields)
  modify (CatalogDb.linkCategory id successor)
  pure successor

def nothingToUpdate : Exn := .httpException 400 "No fields to update."

/-- The search for the new slug (line 258); no slug is `null`. -/
def checkSlug (categoryId : ℕ) (cat : CategoryRow) : Option (Option (Varchar 100)) →
    CatalogService Unit
  | some (some slug) => Svc.onlyIf (slug ≠ cat.slug) do
    let clash ← currentCategoryBySlug slug.text
    Svc.require (clash.all (fun e => e.1 = categoryId) = true) (slugInUse slug.text)
  | _ => pure ()

/-- `update_category` (line 244). -/
def updateCategory (env : CatalogEnv) (now : ℤ) (categoryId : ℕ) (patch : CategoryPatch) :
    CatalogService Unit := do
  let cat ← loadDetail categoryId
  Svc.require (cat.live = true) (.httpException 409 "Category is no longer current.")
  Svc.require (patch ≠ {}) nothingToUpdate
  checkSlug categoryId cat patch.slug
  let successor ← supersedeCategory now categoryId cat patch
  getCategory env successor

/-- `deactivate_category` (line 288). -/
def deactivateCategory (env : CatalogEnv) (now : ℤ) (categoryId : ℕ) : CatalogService Unit := do
  let cat ← loadDetail categoryId
  let db ← get
  if cat.status = inactiveStatus then
    Svc.require (db.serializes env categoryId = true) (.valueError "actions is not a dict")
  else updateCategory env now categoryId { status := some (some inactiveStatus) }

/-- The records that `soft_delete_category` counts. -/
def CatalogDb.inUse (db : CatalogDb) (categoryId : ℕ) : ℕ :=
  (db.records.select fun _ r => r.categoryId = some categoryId && r.deletedAt.isNone).length

/-- `soft_delete_category` (line 304). -/
def softDeleteCategory (now : ℤ) (categoryId : ℕ) : CatalogService Unit := do
  let cat ← loadDetail categoryId
  Svc.onlyIf (cat.deletedAt = none) do
    let db ← get
    Svc.require (db.inUse categoryId = 0) (.httpException 409
      ((db.inUse categoryId).repr ++ " equipment record(s) still reference this category. " ++
        "Deactivate it instead, or reassign the records first."))
    modify fun db => { db with
      categories := db.categories.modify categoryId fun c => { c with deletedAt := some now } }

/-! ## Records -/

/-- `submit_intake` (`equipment_service.py` line 106), as far as it refers to a category. -/
def submitIntake (categoryId : Option ℕ) : CatalogService Unit := do
  validateCategory categoryId
  modify fun db => { db with records := db.records.create ⟨categoryId, none⟩ }

/-- The deletion of a record. -/
def deleteRecord (now : ℤ) (recordId : ℕ) : CatalogService Unit :=
  modify fun db => { db with
    records := db.records.modify recordId fun r => { r with deletedAt := some now } }

/-! ## Edits of the prompts and the rules -/

variable {β : Type}

/-- One of the two tables with versions. -/
structure ChainTable (β : Type) where
  chain : CatalogDb → Chain β
  put : Chain β → CatalogDb → CatalogDb

def promptChain : ChainTable PromptBody where
  chain db := db.prompts
  put c db := { db with prompts := c }

def ruleChain : ChainTable RuleBody where
  chain db := db.rules
  put c db := { db with rules := c }

/-- The `INSERT` of a first version. -/
def Chain.add (c : Chain β) (categoryId : ℕ) (columns : Labeled β) (active : Bool) : Chain β :=
  { c with rows := c.rows.create ⟨⟨categoryId, columns, active⟩, 1, none⟩ }

/-- The writes of `supersede_inspection_prompt` and `supersede_red_flag_rule`
    (`category_versioning_service.py` lines 129 and 168). -/
def Chain.supersede (c : Chain β) (now : ℤ) (id : ℕ) (existing : VersionedRow β)
    (columns : Labeled β) (active : Bool) : Chain β where
  rows := (c.rows.modify id fun p => { p with replacedAt := some now }).create
    ⟨⟨existing.categoryId, columns, active⟩, existing.version + 1, none⟩
  links := c.links ++ [(id, c.rows.next)]

def Chain.setActive (c : Chain β) (id : ℕ) (active : Bool) : Chain β :=
  { c with rows := c.rows.modify id fun p => { p with active := active } }

/-- `add_inspection_prompt` and `add_red_flag_rule`. -/
def addVersioned (env : CatalogEnv) (T : ChainTable β) (categoryId : ℕ) (columns : Labeled β) :
    CatalogService Unit := do
  let _ ← loadDetail categoryId
  modify fun db => T.put ((T.chain db).add categoryId columns true) db
  getCategory env categoryId

/-- `update_inspection_prompt` and `update_red_flag_rule`: a patch of `active` alone is an
    UPDATE, any other one supersedes the row. -/
def updateVersioned (env : CatalogEnv) (T : ChainTable β) (title : String) (now : ℤ)
    (categoryId partId : ℕ) (columnsSet : Bool) (columns : Labeled β → Labeled β)
    (active : Option (Option Bool)) : CatalogService Unit := do
  let db ← get
  let existing ← Svc.expect
    (((T.chain db).rows.get? partId).filter fun p => p.categoryId = categoryId)
    (.httpException 404 (title ++ " not found."))
  Svc.require (existing.replacedAt = none)
    (.httpException 409 (title ++ " is already superseded."))
  Svc.require (columnsSet = true ∨ active ≠ none) nothingToUpdate
  if columnsSet then
    modify fun db => T.put ((T.chain db).supersede now partId existing (columns existing.columns)
      ((active.getD none).getD existing.active)) db
  else do
    let value ← Svc.expect (active.getD none) .integrityError
    modify fun db => T.put ((T.chain db).setActive partId value) db
  getCategory env categoryId

/-- `add_inspection_prompt` (line 424). -/
def addInspectionPrompt (env : CatalogEnv) (categoryId : ℕ) (payload : Labeled PromptBody) :
    CatalogService Unit :=
  addVersioned env promptChain categoryId payload

structure InspectionPromptPatch where
  label : Option (Option (Varchar 255)) := none
  responseType : Option (Option (Varchar 20)) := none
  required : Option (Option Bool) := none
  displayOrder : Option (Option Int4) := none
  active : Option (Option Bool) := none
  deriving DecidableEq

def InspectionPromptPatch.columns (patch : InspectionPromptPatch) (c : Labeled PromptBody) :
    Labeled PromptBody where
  label := (patch.label.getD none).getD c.label
  body :=
    { responseType := (patch.responseType.getD none).getD c.body.responseType
      required := (patch.required.getD none).getD c.body.required
      displayOrder := (patch.displayOrder.getD none).getD c.body.displayOrder }

/-- `update_inspection_prompt` (line 456). -/
def updateInspectionPrompt (env : CatalogEnv) (now : ℤ) (categoryId promptId : ℕ)
    (patch : InspectionPromptPatch) : CatalogService Unit :=
  updateVersioned env promptChain "Inspection prompt" now categoryId promptId
    ({ patch with active := none } ≠ ({} : InspectionPromptPatch)) patch.columns patch.active

/-- `add_red_flag_rule` (line 526); `actions` is as JSONB gives it back. -/
def addRedFlagRule (env : CatalogEnv) (categoryId : ℕ) (payload : Labeled RuleBody) :
    CatalogService Unit :=
  addVersioned env ruleChain categoryId payload

structure RedFlagRulePatch where
  label : Option (Option (Varchar 255)) := none
  conditionField : Option (Option (Varchar 100)) := none
  conditionOperator : Option (Option (Varchar 20)) := none
  conditionValue : Option (Option (Varchar 255)) := none
  actions : Option (Option PyValue) := none
  active : Option (Option Bool) := none

/-- A field other than `active` is set. -/
def RedFlagRulePatch.columnsSet (patch : RedFlagRulePatch) : Bool :=
  patch.label.isSome || patch.conditionField.isSome || patch.conditionOperator.isSome ||
    patch.conditionValue.isSome || patch.actions.isSome

def RedFlagRulePatch.columns (patch : RedFlagRulePatch) (c : Labeled RuleBody) :
    Labeled RuleBody where
  label := (patch.label.getD none).getD c.label
  body :=
    { conditionField := (patch.conditionField.getD none).getD c.body.conditionField
      conditionOperator := (patch.conditionOperator.getD none).getD c.body.conditionOperator
      conditionValue := (patch.conditionValue.getD none).or c.body.conditionValue
      actions := (patch.actions.getD none).getD c.body.actions }

/-- `update_red_flag_rule` (line 559). -/
def updateRedFlagRule (env : CatalogEnv) (now : ℤ) (categoryId ruleId : ℕ)
    (patch : RedFlagRulePatch) : CatalogService Unit :=
  updateVersioned env ruleChain "Red-flag rule" now categoryId ruleId patch.columnsSet
    patch.columns patch.active

/-! ## What an edit did when it returned -/

variable {env : CatalogEnv} {db db' : CatalogDb} {u : Unit}

theorem returns_loadDetail {id : ℕ} {cat : CategoryRow} :
    Svc.Returns (loadDetail id) db cat db' ↔ db.categories.get? id = some cat ∧ db = db' := by
  simp [loadDetail]

theorem returns_getCategory {id : ℕ} :
    Svc.Returns (getCategory env id) db u db' ↔
      ((∃ cat, db.categories.get? id = some cat) ∧ db.serializes env id = true) ∧ db = db' := by
  rw [getCategory, Svc.returns_bind_of_read fun _ _ => returns_loadDetail]
  simp only [Svc.returns_get_bind, Svc.returns_require]
  constructor
  · rintro ⟨cat, hcat, hser, rfl⟩
    exact ⟨⟨⟨cat, hcat⟩, hser⟩, rfl⟩
  · rintro ⟨⟨⟨cat, hcat⟩, hser⟩, rfl⟩
    exact ⟨cat, hcat, hser, rfl⟩

theorem returns_currentCategoryBySlug {slug : String} {o : Option (ℕ × CategoryRow)} :
    Svc.Returns (currentCategoryBySlug slug) db o db' ↔
      Store.scalarOneOrNone (db.categories.select (isCurrentOf slug)) = some o ∧ db = db' := by
  simp [currentCategoryBySlug]

theorem returns_insertCategory {row : CategoryRow} {id : ℕ} :
    Svc.Returns (insertCategory row) db id db' ↔
      (∀ k c, db.categories.get? k = some c → isCurrentOf row.slug.text k c = false) ∧
        id = db.categories.next ∧
        { db with categories := db.categories.create row } = db' := by
  simp only [insertCategory, Svc.returns_get_bind, Svc.returns_require_bind,
    Svc.returns_modify_bind, Svc.returns_pure, ← Bool.not_eq_true, Store.exists?_iff]
  constructor
  · rintro ⟨hfree, rfl, rfl⟩
    exact ⟨fun k c hk h => hfree ⟨k, c, hk, h⟩, rfl, rfl⟩
  · rintro ⟨hfree, rfl, rfl⟩
    refine ⟨?_, rfl, rfl⟩
    rintro ⟨k, c, hk, h⟩
    exact hfree k c hk h

/-- A created category is active and its slug was free. -/
theorem returns_createCategory {actor : ℕ} {payload : CategoryCreate}
    (h : Svc.Returns (createCategory env actor payload) db u db') :
    ∃ row : CategoryRow, row.live = true ∧ row.slug = payload.slug ∧
      (∀ k c, db.categories.get? k = some c → isCurrentOf row.slug.text k c = false) ∧
      db' = { db with categories := db.categories.create row } := by
  rw [createCategory, Svc.returns_bind_of_read fun _ _ => returns_currentCategoryBySlug] at h
  obtain ⟨existing, -, h⟩ := h
  rw [Svc.returns_require_bind, Svc.returns_bind] at h
  obtain ⟨-, id, db₁, hinsert, hget⟩ := h
  obtain ⟨hfree, -, rfl⟩ := returns_insertCategory.mp hinsert
  obtain ⟨-, rfl⟩ := returns_getCategory.mp hget
  exact ⟨_, rfl, rfl, hfree, rfl⟩

/-- The tables after `supersede_category`. -/
def CatalogDb.supersede (db : CatalogDb) (now : ℤ) (id : ℕ) (existing : CategoryRow)
    (fields : CategoryPatch) : CatalogDb :=
  { db with
    categories := (db.categories.modify id fun c => { c with replacedAt := some now }).create
      (existing.successor fields)
    links := db.links ++ [(id, db.categories.next)] }

/-- The guards of `update_category` and of the index. -/
structure CatalogDb.MayUpdate (db : CatalogDb) (id : ℕ) (cat : CategoryRow)
    (patch : CategoryPatch) : Prop where
  found : db.categories.get? id = some cat
  live : cat.live = true
  free : ∀ k c, k ≠ id → db.categories.get? k = some c →
    isCurrentOf (cat.successor patch).slug.text k c = false

theorem returns_supersedeCategory {now : ℤ} {id next : ℕ} {cat : CategoryRow}
    {fields : CategoryPatch} :
    Svc.Returns (supersedeCategory now id cat fields) db next db' ↔
      (∀ k c, k ≠ id → db.categories.get? k = some c →
        isCurrentOf (cat.successor fields).slug.text k c = false) ∧
      next = db.categories.next ∧ db.supersede now id cat fields = db' := by
  have hfree : (∀ k c, (db.markReplaced now id).categories.get? k = some c →
        isCurrentOf (cat.successor fields).slug.text k c = false) ↔
      ∀ k c, k ≠ id → db.categories.get? k = some c →
        isCurrentOf (cat.successor fields).slug.text k c = false := by
    constructor
    · intro h k c hk hget
      refine h k c ?_
      rwa [CatalogDb.markReplaced, Store.get?_modify_ne _ _ hk]
    · intro h k c hget
      rw [CatalogDb.markReplaced, Store.get?_modify] at hget
      split at hget
      · obtain ⟨c₀, -, rfl⟩ := Option.map_eq_some_iff.mp hget
        simp [isCurrentOf, CategoryRow.live]
      · next hk => exact h k c hk hget
  rw [supersedeCategory, Svc.returns_modify_bind, Svc.returns_bind]
  simp only [returns_insertCategory, hfree, Svc.returns_modify_bind, Svc.returns_pure]
  constructor
  · rintro ⟨_, _, ⟨hfree, rfl, rfl⟩, rfl, rfl⟩
    exact ⟨hfree, by simp [CatalogDb.markReplaced],
      by simp [CatalogDb.supersede, CatalogDb.linkCategory, CatalogDb.markReplaced]⟩
  · rintro ⟨hfree, rfl, rfl⟩
    exact ⟨_, _, ⟨hfree, rfl, rfl⟩, by simp [CatalogDb.markReplaced],
      by simp [CatalogDb.supersede, CatalogDb.linkCategory, CatalogDb.markReplaced]⟩

theorem returns_checkSlug {id : ℕ} {cat : CategoryRow} {slug : Option (Option (Varchar 100))}
    (h : Svc.Returns (checkSlug id cat slug) db u db') : db = db' := by
  rcases slug with _ | _ | slug
  · exact (Svc.returns_pure.mp h).2
  · exact (Svc.returns_pure.mp h).2
  · rcases Svc.returns_onlyIf.mp h with ⟨-, h⟩ | ⟨-, h⟩
    · rw [Svc.returns_bind_of_read fun _ _ => returns_currentCategoryBySlug] at h
      obtain ⟨clash, -, h⟩ := h
      exact (Svc.returns_require.mp h).2
    · exact h

/-- An update supersedes the current row of the category. -/
theorem returns_updateCategory {now : ℤ} {id : ℕ} {patch : CategoryPatch}
    (h : Svc.Returns (updateCategory env now id patch) db u db') :
    ∃ cat, db.MayUpdate id cat patch ∧ patch ≠ {} ∧ db' = db.supersede now id cat patch := by
  rw [updateCategory, Svc.returns_bind_of_read fun _ _ => returns_loadDetail] at h
  obtain ⟨cat, hfound, h⟩ := h
  rw [Svc.returns_require_bind, Svc.returns_require_bind, Svc.returns_bind] at h
  obtain ⟨hlive, hpatch, _, db₁, hslug, h⟩ := h
  obtain rfl := returns_checkSlug hslug
  rw [Svc.returns_bind] at h
  obtain ⟨next, db₂, hsup, hget⟩ := h
  obtain ⟨hfree, rfl, rfl⟩ := returns_supersedeCategory.mp hsup
  obtain ⟨-, rfl⟩ := returns_getCategory.mp hget
  exact ⟨cat, ⟨hfound, hlive, hfree⟩, hpatch, rfl⟩

/-- A deactivation leaves an inactive category alone and updates any other one. -/
theorem returns_deactivateCategory {now : ℤ} {id : ℕ}
    (h : Svc.Returns (deactivateCategory env now id) db u db') :
    db = db' ∨ Svc.Returns (updateCategory env now id { status := some (some inactiveStatus) })
      db u db' := by
  rw [deactivateCategory, Svc.returns_bind_of_read fun _ _ => returns_loadDetail] at h
  obtain ⟨cat, -, h⟩ := h
  rw [Svc.returns_get_bind, Svc.returns_ite] at h
  rcases h with ⟨-, h⟩ | ⟨-, h⟩
  · exact .inl (Svc.returns_require.mp h).2
  · exact .inr h

/-- A deletion that has an effect finds no live record on the row. -/
theorem returns_softDeleteCategory {now : ℤ} {id : ℕ} :
    Svc.Returns (softDeleteCategory now id) db u db' ↔
      ∃ cat, db.categories.get? id = some cat ∧
        ((cat.deletedAt = none ∧ db.inUse id = 0 ∧
          { db with categories :=
              db.categories.modify id fun c => { c with deletedAt := some now } } = db') ∨
        cat.deletedAt ≠ none ∧ db = db') := by
  rw [softDeleteCategory, Svc.returns_bind_of_read fun _ _ => returns_loadDetail]
  simp only [Svc.returns_onlyIf, Svc.returns_get_bind, Svc.returns_require_bind,
    Svc.returns_modify, ne_eq]

theorem inUse_eq_zero_iff {id : ℕ} :
    db.inUse id = 0 ↔
      ∀ k r, db.records.get? k = some r → r.categoryId = some id → r.deletedAt ≠ none := by
  rw [CatalogDb.inUse, List.length_eq_zero_iff, List.eq_nil_iff_forall_not_mem]
  constructor
  · intro h k r hk hcat hopen
    exact h (k, r) (Store.mem_select.mpr ⟨hk, by simp [hcat, hopen]⟩)
  · rintro h ⟨k, r⟩ hmem
    obtain ⟨hk, hp⟩ := Store.mem_select.mp hmem
    simp only [Bool.and_eq_true, decide_eq_true_eq, Option.isNone_iff_eq_none] at hp
    exact h k r hk hp.1 hp.2

theorem returns_validateCategory {categoryId : Option ℕ} :
    Svc.Returns (validateCategory categoryId) db u db' ↔
      (∀ id, categoryId = some id →
        ∃ c, db.categories.get? id = some c ∧ c.exposed = true) ∧ db = db' := by
  cases categoryId with
  | none => simp [validateCategory]
  | some id =>
    cases hget : db.categories.get? id <;> simp [validateCategory, hget]

theorem returns_submitIntake {categoryId : Option ℕ} :
    Svc.Returns (submitIntake categoryId) db u db' ↔
      (∀ id, categoryId = some id →
        ∃ c, db.categories.get? id = some c ∧ c.exposed = true) ∧
        { db with records := db.records.create ⟨categoryId, none⟩ } = db' := by
  rw [submitIntake, Svc.returns_bind_of_write fun _ _ => returns_validateCategory]
  simp

theorem returns_addVersioned {T : ChainTable β} {categoryId : ℕ} {columns : Labeled β}
    (h : Svc.Returns (addVersioned env T categoryId columns) db u db') :
    (∃ cat, db.categories.get? categoryId = some cat) ∧
      db' = T.put ((T.chain db).add categoryId columns true) db := by
  rw [addVersioned, Svc.returns_bind_of_read fun _ _ => returns_loadDetail] at h
  obtain ⟨cat, hcat, h⟩ := h
  rw [Svc.returns_modify_bind] at h
  exact ⟨⟨cat, hcat⟩, (returns_getCategory.mp h).2.symm⟩

/-- An update finds a current row and supersedes it, or sets `active`. -/
theorem returns_updateVersioned {T : ChainTable β} {title : String} {now : ℤ}
    {categoryId partId : ℕ} {columnsSet : Bool} {columns : Labeled β → Labeled β}
    {active : Option (Option Bool)}
    (h : Svc.Returns
      (updateVersioned env T title now categoryId partId columnsSet columns active) db u db') :
    ∃ existing, (T.chain db).rows.get? partId = some existing ∧ existing.replacedAt = none ∧
      ((∃ row value, db' = T.put ((T.chain db).supersede now partId existing row value) db) ∨
        ∃ value, db' = T.put ((T.chain db).setActive partId value) db) := by
  simp only [updateVersioned, Svc.returns_get_bind, Svc.returns_expect_bind,
    Svc.returns_require_bind] at h
  obtain ⟨existing, hfound, hopen, -, h⟩ := h
  refine ⟨existing, (Option.filter_eq_some_iff.mp hfound).1, hopen, ?_⟩
  cases columnsSet with
  | true =>
    simp only [if_true, Svc.returns_modify_bind] at h
    exact .inl ⟨_, _, (returns_getCategory.mp h).2.symm⟩
  | false =>
    simp only [Bool.false_eq_true, if_false, Svc.returns_expect_bind,
      Svc.returns_modify_bind] at h
    obtain ⟨value, -, h⟩ := h
    exact .inr ⟨value, (returns_getCategory.mp h).2.symm⟩

end TempleConsign.Catalog
