import TempleConsign.Lib.PrioritySearch
import TempleConsign.SubmissionDrafts

/-!
# Categories and their parts

Model of the edits of a category and of its parts
(`src/api/services/admin_category_service.py` lines 244 to 301 and 351 to 761) over
the rows of `category_versioning_service.py`.

Deviations: the five tables of parts share `Part`, whose argument has the columns of
a table apart from the ids, `active` and the version. The ids order as numbers. A
weight is the decimal that its float prints as. The index on current slugs is not
modelled, since `update_category` looks for the slug first. An import is not modelled:
its writes are those of the functions here. `current` is a log that the code does not
keep.

Results:
* `returns_updateCategory`, `updateCategory_returns`: when an update of a category
  returns, and what it writes.
* `inv_addPart`, `inv_updatePart`, `inv_updateVersionedPart`: every part belongs to a
  category.
-/

namespace TempleConsign

open ServiceLib

/-! ## Rows -/

/-- `active | inactive`. -/
inductive CategoryStatus
  | active
  | inactive
  deriving DecidableEq

/-- The columns of `equipment_categories`. -/
structure EquipmentCategory where
  name : String
  slug : String
  status : CategoryStatus
  displayOrder : ℤ
  createdBy : Option ℕ
  version : ℕ
  replacedAt : Option ℤ
  deletedAt : Option ℤ

/-- A row of a table of parts. -/
structure Part (κ : Type) where
  categoryId : ℕ
  columns : κ
  active : Bool

/-- A row with `version` and `replaced_at`. -/
structure VersionedPart (κ : Type) extends Part κ where
  version : ℕ
  replacedAt : Option ℤ

/-- `CategoryComponent`. -/
structure ComponentColumns where
  name : String
  weightPct : ℚ
  displayOrder : ℤ

inductive ResponseType
  | yesNoNa
  | text
  | scale15
  deriving DecidableEq

/-- `CategoryInspectionPrompt`. -/
structure PromptColumns where
  label : String
  responseType : ResponseType
  required : Bool
  displayOrder : ℤ

/-- `CategoryAttachment`. -/
structure AttachmentColumns where
  label : String
  description : Option String
  displayOrder : ℤ

/-- `CategoryPhotoSlot`. -/
structure PhotoSlotColumns where
  label : String
  helperText : Option String
  required : Bool
  displayOrder : ℤ

inductive ConditionOperator
  | equals
  | isTrue
  | isFalse
  deriving DecidableEq

/-- `CategoryRedFlagRule`. -/
structure RuleColumns where
  conditionField : String
  conditionOperator : ConditionOperator
  conditionValue : Option String
  actions : List (String × PyValue)
  label : String

/-- The tables. `current` gives the version that is reached from a category. -/
structure CategoryDb where
  categories : Store EquipmentCategory
  components : Store (Part ComponentColumns)
  inspectionPrompts : Store (VersionedPart PromptColumns)
  attachments : Store (Part AttachmentColumns)
  photoSlots : Store (Part PhotoSlotColumns)
  redFlagRules : Store (VersionedPart RuleColumns)
  current : ℕ → ℕ

abbrev CategoryService (α : Type) := Svc CategoryDb Exn α

/-! ## What is read -/

variable {κ : Type}

/-- The rows of a category. -/
def partsOf (t : Store (Part κ)) (categoryId : ℕ) : List (ℕ × Part κ) :=
  t.select fun _ p => p.categoryId = categoryId

/-- The rows of a category that are not replaced. -/
def unreplacedOf (t : Store (VersionedPart κ)) (categoryId : ℕ) : List (ℕ × VersionedPart κ) :=
  t.select fun _ p => p.categoryId = categoryId && p.replacedAt.isNone

/-- The rows of a category that are current and active. -/
def currentOf (t : Store (VersionedPart κ)) (categoryId : ℕ) : List (ℕ × VersionedPart κ) :=
  (unreplacedOf t categoryId).filter fun e => e.2.active

def inIdOrder {ρ : Type} (rows : List (ℕ × ρ)) : List (ℕ × ρ) := sortedBy Prod.fst rows

/-- By `display_order`, then by id. -/
def inDisplayOrder {ρ : Type} (order : ρ → ℤ) (rows : List (ℕ × ρ)) : List (ℕ × ρ) :=
  sortedBy (fun e => order e.2) (inIdOrder rows)

/-- `current_inspection_prompts` (`category_versioning_service.py` line 51). -/
def currentInspectionPrompts (db : CategoryDb) (categoryId : ℕ) :
    List (ℕ × VersionedPart PromptColumns) :=
  inDisplayOrder (·.columns.displayOrder) (currentOf db.inspectionPrompts categoryId)

/-- `current_red_flag_rules` (line 74). -/
def currentRedFlagRules (db : CategoryDb) (categoryId : ℕ) :
    List (ℕ × VersionedPart RuleColumns) :=
  inIdOrder (currentOf db.redFlagRules categoryId)

/-- `CategoryDetail` (`src/api/schemas/admin.py`). -/
structure CategoryDetail where
  id : ℕ
  category : EquipmentCategory
  components : List (ℕ × Part ComponentColumns)
  inspectionPrompts : List (ℕ × VersionedPart PromptColumns)
  attachments : List (ℕ × Part AttachmentColumns)
  photoSlots : List (ℕ × Part PhotoSlotColumns)
  redFlagRules : List (ℕ × VersionedPart RuleColumns)
  weightTotal : ℚ
  weightWarning : Bool

def weightTarget : ℚ := 100

def weightWarningTolerance : ℚ := 1 / 2

/-- `_serialize_detail` (line 72). -/
def serializeDetail (db : CategoryDb) (id : ℕ) (cat : EquipmentCategory) : CategoryDetail :=
  let components := inDisplayOrder (·.columns.displayOrder) (partsOf db.components id)
  let activeComponents := components.filter fun e => e.2.active
  let weightTotal := (activeComponents.map fun e => e.2.columns.weightPct).sum
  { id := id
    category := cat
    components := components
    inspectionPrompts :=
      inDisplayOrder (·.columns.displayOrder) (unreplacedOf db.inspectionPrompts id)
    attachments := inDisplayOrder (·.columns.displayOrder) (partsOf db.attachments id)
    photoSlots := inDisplayOrder (·.columns.displayOrder) (partsOf db.photoSlots id)
    redFlagRules := unreplacedOf db.redFlagRules id
    weightTotal := weightTotal
    weightWarning := 0 < activeComponents.length &&
      weightWarningTolerance < |weightTotal - weightTarget| }

/-- `_load_detail` (line 154). -/
def loadDetail (categoryId : ℕ) : CategoryService EquipmentCategory := do
  let db ← get
  Svc.expect (db.categories.get? categoryId) (.httpException 404 "Category not found.")

/-- `get_category` (line 208). -/
def getCategory (categoryId : ℕ) : CategoryService CategoryDetail := do
  let cat ← loadDetail categoryId
  let db ← get
  pure (serializeDetail db categoryId cat)

/-! ## Edits of a category -/

/-- `CategoryPatch`: an absent field is `none`, a `null` is `some none`. -/
structure CategoryPatch where
  name : Option (Option String) := none
  slug : Option (Option String) := none
  displayOrder : Option (Option ℤ) := none
  status : Option (Option CategoryStatus) := none
  deriving DecidableEq

def nothingToUpdate : Exn := .httpException 400 "No fields to update."

/-- `current_category_by_slug` (`category_versioning_service.py` line 210). -/
def currentCategoryBySlug (slug : Option String) :
    CategoryService (Option (ℕ × EquipmentCategory)) := do
  let db ← get
  Svc.expect (Store.scalarOneOrNone (db.categories.select fun _ c =>
    some c.slug = slug && c.replacedAt.isNone && c.deletedAt.isNone)) .multipleResultsFound

/-- The row that `supersede_category` inserts. -/
def EquipmentCategory.successor (existing : EquipmentCategory) (fields : CategoryPatch) :
    EquipmentCategory where
  name := (fields.name.getD none).getD existing.name
  slug := (fields.slug.getD none).getD existing.slug
  status := (fields.status.getD none).getD existing.status
  displayOrder := (fields.displayOrder.getD none).getD existing.displayOrder
  createdBy := existing.createdBy
  version := existing.version + 1
  replacedAt := none
  deletedAt := none

/-- The writes of `supersede_category` (`category_versioning_service.py` line 227). -/
def CategoryDb.supersede (db : CategoryDb) (now : ℤ) (id : ℕ) (existing : EquipmentCategory)
    (fields : CategoryPatch) : CategoryDb :=
  { db with
    categories := (db.categories.modify id fun c => { c with replacedAt := some now }).create
      (existing.successor fields)
    current := fun c => if db.current c = id then db.categories.next else db.current c }

/-- The search for the new slug (line 258). -/
def checkSlug (categoryId : ℕ) (cat : EquipmentCategory) :
    Option (Option String) → CategoryService Unit
  | none => pure ()
  | some slug => Svc.onlyIf (slug ≠ some cat.slug) do
    let clash ← currentCategoryBySlug slug
    Svc.require (clash.all (fun e => e.1 = categoryId) = true)
      (.httpException 409 ("Slug '" ++ slug.getD "None" ++ "' is already in use."))

/-- `update_category` (line 244). -/
def updateCategory (now : ℤ) (categoryId : ℕ) (patch : CategoryPatch) :
    CategoryService CategoryDetail := do
  let cat ← loadDetail categoryId
  Svc.require (cat.replacedAt = none ∧ cat.deletedAt = none)
    (.httpException 409 "Category is no longer current.")
  Svc.require (patch ≠ {}) nothingToUpdate
  checkSlug categoryId cat patch.slug
  let db ← get
  modify fun db => db.supersede now categoryId cat patch
  getCategory db.categories.next

/-- `deactivate_category` (line 288). -/
def deactivateCategory (now : ℤ) (categoryId : ℕ) : CategoryService CategoryDetail := do
  let cat ← loadDetail categoryId
  let db ← get
  if cat.status = .inactive then pure (serializeDetail db categoryId cat)
  else updateCategory now categoryId { status := some (some .inactive) }

/-! ## Tables of parts -/

/-- Every part belongs to a category. -/
structure CategoryDb.Inv (db : CategoryDb) : Prop where
  components : ∀ k p, db.components.get? k = some p → p.categoryId < db.categories.next
  inspectionPrompts : ∀ k p, db.inspectionPrompts.get? k = some p →
    p.categoryId < db.categories.next
  attachments : ∀ k p, db.attachments.get? k = some p → p.categoryId < db.categories.next
  photoSlots : ∀ k p, db.photoSlots.get? k = some p → p.categoryId < db.categories.next
  redFlagRules : ∀ k p, db.redFlagRules.get? k = some p → p.categoryId < db.categories.next

/-- One of the five tables. -/
structure PartTable (ρ : Type) where
  rows : CategoryDb → Store ρ
  put : Store ρ → CategoryDb → CategoryDb
  categoryId : ρ → ℕ
  inv_rows : ∀ {db : CategoryDb}, db.Inv → ∀ k p, (rows db).get? k = some p →
    categoryId p < db.categories.next
  inv_put : ∀ {db : CategoryDb} {t : Store ρ}, db.Inv →
    (∀ k p, t.get? k = some p → categoryId p < db.categories.next) → (put t db).Inv

def componentTable : PartTable (Part ComponentColumns) where
  rows db := db.components
  put t db := { db with components := t }
  categoryId p := p.categoryId
  inv_rows h := h.components
  inv_put h ht := { h with components := ht }

def promptTable : PartTable (VersionedPart PromptColumns) where
  rows db := db.inspectionPrompts
  put t db := { db with inspectionPrompts := t }
  categoryId p := p.categoryId
  inv_rows h := h.inspectionPrompts
  inv_put h ht := { h with inspectionPrompts := ht }

def attachmentTable : PartTable (Part AttachmentColumns) where
  rows db := db.attachments
  put t db := { db with attachments := t }
  categoryId p := p.categoryId
  inv_rows h := h.attachments
  inv_put h ht := { h with attachments := ht }

def photoSlotTable : PartTable (Part PhotoSlotColumns) where
  rows db := db.photoSlots
  put t db := { db with photoSlots := t }
  categoryId p := p.categoryId
  inv_rows h := h.photoSlots
  inv_put h ht := { h with photoSlots := ht }

def ruleTable : PartTable (VersionedPart RuleColumns) where
  rows db := db.redFlagRules
  put t db := { db with redFlagRules := t }
  categoryId p := p.categoryId
  inv_rows h := h.redFlagRules
  inv_put h ht := { h with redFlagRules := ht }

/-! ## Edits of the parts -/

/-- The row under this id, when it is of the category. -/
def PartTable.find {ρ : Type} (T : PartTable ρ) (categoryId partId : ℕ) (db : CategoryDb) :
    Option ρ :=
  ((T.rows db).get? partId).filter fun p => T.categoryId p = categoryId

def PartTable.modifyRows {ρ : Type} (T : PartTable ρ) (f : Store ρ → Store ρ) :
    CategoryService Unit :=
  modify fun db => T.put (f (T.rows db)) db

/-- The `add_` functions: a new row of the category. -/
def addPart {ρ : Type} (T : PartTable ρ) (categoryId : ℕ) (row : ρ) :
    CategoryService CategoryDetail := do
  let _ ← loadDetail categoryId
  T.modifyRows (·.create row)
  getCategory categoryId

/-- `setattr` of a column that is not null: the flush refuses a null. -/
def setNotNull {α : Type} : Option (Option α) → α → Option α
  | none, old => some old
  | some value, _ => value

def Part.patch (columns : κ → Option κ) (active : Option (Option Bool)) (p : Part κ) :
    Option (Part κ) :=
  match columns p.columns, setNotNull active p.active with
  | some columns, some active => some { p with columns := columns, active := active }
  | _, _ => none

/-- The `update_` functions of the tables without versions. -/
def updatePart (T : PartTable (Part κ)) (title : String) (categoryId partId : ℕ) (isEmpty : Bool)
    (patch : Part κ → Option (Part κ)) : CategoryService CategoryDetail := do
  let db ← get
  let part ← Svc.expect (T.find categoryId partId db) (.httpException 404 s!"{title} not found.")
  Svc.require (isEmpty = false) nothingToUpdate
  let row ← Svc.expect (patch part) .integrityError
  T.modifyRows (·.modify partId fun _ => row)
  getCategory categoryId

/-- The successor of a versioned row. -/
def VersionedPart.successor (existing : VersionedPart κ) (columns : κ → κ)
    (active : Option (Option Bool)) : VersionedPart κ where
  categoryId := existing.categoryId
  columns := columns existing.columns
  active := (active.getD none).getD existing.active
  version := existing.version + 1
  replacedAt := none

/-- The `update_` functions of the tables with versions: a patch of `active` alone is an
    UPDATE, any other one supersedes the row. -/
def updateVersionedPart (T : PartTable (VersionedPart κ)) (title : String) (now : ℤ)
    (categoryId partId : ℕ) (columnsSet : Bool) (columns : κ → κ)
    (active : Option (Option Bool)) : CategoryService CategoryDetail := do
  let db ← get
  let existing ← Svc.expect (T.find categoryId partId db)
    (.httpException 404 s!"{title} not found.")
  Svc.require (existing.replacedAt = none) (.httpException 409 s!"{title} is already superseded.")
  Svc.require (columnsSet = true ∨ active ≠ none) nothingToUpdate
  if columnsSet then
    T.modifyRows fun t =>
      (t.modify partId fun p => { p with replacedAt := some now }).create
        (existing.successor columns active)
  else do
    let value ← Svc.expect (active.getD none) .integrityError
    T.modifyRows (·.modify partId fun p => { p with active := value })
  getCategory categoryId

/-- `add_component` (line 351); the payload has the columns. -/
def addComponent (categoryId : ℕ) (payload : ComponentColumns) : CategoryService CategoryDetail :=
  addPart componentTable categoryId ⟨categoryId, payload, true⟩

structure ComponentPatch where
  name : Option (Option String) := none
  weightPct : Option (Option ℚ) := none
  displayOrder : Option (Option ℤ) := none
  active : Option (Option Bool) := none
  deriving DecidableEq

def ComponentPatch.columns (patch : ComponentPatch) (c : ComponentColumns) :
    Option ComponentColumns := do
  let name ← setNotNull patch.name c.name
  let weightPct ← setNotNull patch.weightPct c.weightPct
  let displayOrder ← setNotNull patch.displayOrder c.displayOrder
  pure { name := name, weightPct := weightPct, displayOrder := displayOrder }

/-- `update_component` (line 380). -/
def updateComponent (categoryId componentId : ℕ) (patch : ComponentPatch) :
    CategoryService CategoryDetail :=
  updatePart componentTable "Component" categoryId componentId (patch = {})
    (Part.patch patch.columns patch.active)

/-- `add_inspection_prompt` (line 424). -/
def addInspectionPrompt (categoryId : ℕ) (payload : PromptColumns) :
    CategoryService CategoryDetail :=
  addPart promptTable categoryId ⟨⟨categoryId, payload, true⟩, 1, none⟩

structure InspectionPromptPatch where
  label : Option (Option String) := none
  responseType : Option (Option ResponseType) := none
  required : Option (Option Bool) := none
  displayOrder : Option (Option ℤ) := none
  active : Option (Option Bool) := none
  deriving DecidableEq

/-- `supersede_inspection_prompt` (`category_versioning_service.py` line 129). -/
def InspectionPromptPatch.columns (patch : InspectionPromptPatch) (c : PromptColumns) :
    PromptColumns where
  label := (patch.label.getD none).getD c.label
  responseType := (patch.responseType.getD none).getD c.responseType
  required := (patch.required.getD none).getD c.required
  displayOrder := (patch.displayOrder.getD none).getD c.displayOrder

/-- `update_inspection_prompt` (line 456). -/
def updateInspectionPrompt (now : ℤ) (categoryId promptId : ℕ) (patch : InspectionPromptPatch) :
    CategoryService CategoryDetail :=
  updateVersionedPart promptTable "Inspection prompt" now categoryId promptId
    ({ patch with active := none } ≠ ({} : InspectionPromptPatch)) patch.columns patch.active

/-- `add_red_flag_rule` (line 526). -/
def addRedFlagRule (categoryId : ℕ) (payload : RuleColumns) : CategoryService CategoryDetail :=
  addPart ruleTable categoryId ⟨⟨categoryId, payload, true⟩, 1, none⟩

structure RedFlagRulePatch where
  label : Option (Option String) := none
  conditionField : Option (Option String) := none
  conditionOperator : Option (Option ConditionOperator) := none
  conditionValue : Option (Option String) := none
  actions : Option (Option (List (String × PyValue))) := none
  active : Option (Option Bool) := none

/-- A field other than `active` is set. -/
def RedFlagRulePatch.columnsSet (patch : RedFlagRulePatch) : Bool :=
  patch.label.isSome || patch.conditionField.isSome || patch.conditionOperator.isSome ||
    patch.conditionValue.isSome || patch.actions.isSome

/-- `supersede_red_flag_rule` (`category_versioning_service.py` line 168). -/
def RedFlagRulePatch.columns (patch : RedFlagRulePatch) (c : RuleColumns) : RuleColumns where
  conditionField := (patch.conditionField.getD none).getD c.conditionField
  conditionOperator := (patch.conditionOperator.getD none).getD c.conditionOperator
  conditionValue := (patch.conditionValue.getD none).or c.conditionValue
  actions := (patch.actions.getD none).getD c.actions
  label := (patch.label.getD none).getD c.label

/-- `update_red_flag_rule` (line 559). -/
def updateRedFlagRule (now : ℤ) (categoryId ruleId : ℕ) (patch : RedFlagRulePatch) :
    CategoryService CategoryDetail :=
  updateVersionedPart ruleTable "Red-flag rule" now categoryId ruleId patch.columnsSet
    patch.columns patch.active

/-- `add_attachment` (line 627). -/
def addAttachment (categoryId : ℕ) (payload : AttachmentColumns) :
    CategoryService CategoryDetail :=
  addPart attachmentTable categoryId ⟨categoryId, payload, true⟩

structure AttachmentPatch where
  label : Option (Option String) := none
  description : Option (Option String) := none
  displayOrder : Option (Option ℤ) := none
  active : Option (Option Bool) := none
  deriving DecidableEq

def AttachmentPatch.columns (patch : AttachmentPatch) (c : AttachmentColumns) :
    Option AttachmentColumns := do
  let label ← setNotNull patch.label c.label
  let displayOrder ← setNotNull patch.displayOrder c.displayOrder
  pure { label := label, description := patch.description.getD c.description
         displayOrder := displayOrder }

/-- `update_attachment` (line 656). -/
def updateAttachment (categoryId attachmentId : ℕ) (patch : AttachmentPatch) :
    CategoryService CategoryDetail :=
  updatePart attachmentTable "Attachment" categoryId attachmentId (patch = {})
    (Part.patch patch.columns patch.active)

/-- `add_photo_slot` (line 695). -/
def addPhotoSlot (categoryId : ℕ) (payload : PhotoSlotColumns) : CategoryService CategoryDetail :=
  addPart photoSlotTable categoryId ⟨categoryId, payload, true⟩

structure PhotoSlotPatch where
  label : Option (Option String) := none
  helperText : Option (Option String) := none
  required : Option (Option Bool) := none
  displayOrder : Option (Option ℤ) := none
  active : Option (Option Bool) := none
  deriving DecidableEq

def PhotoSlotPatch.columns (patch : PhotoSlotPatch) (c : PhotoSlotColumns) :
    Option PhotoSlotColumns := do
  let label ← setNotNull patch.label c.label
  let required ← setNotNull patch.required c.required
  let displayOrder ← setNotNull patch.displayOrder c.displayOrder
  pure { label := label, helperText := patch.helperText.getD c.helperText
         required := required, displayOrder := displayOrder }

/-- `update_photo_slot` (line 725). -/
def updatePhotoSlot (categoryId photoSlotId : ℕ) (patch : PhotoSlotPatch) :
    CategoryService CategoryDetail :=
  updatePart photoSlotTable "Photo slot" categoryId photoSlotId (patch = {})
    (Part.patch patch.columns patch.active)

/-! ## Runs -/

inductive CategoryOp
  | updateCategory (now : ℤ) (categoryId : ℕ) (patch : CategoryPatch)
  | deactivateCategory (now : ℤ) (categoryId : ℕ)
  | addComponent (categoryId : ℕ) (payload : ComponentColumns)
  | updateComponent (categoryId componentId : ℕ) (patch : ComponentPatch)
  | addInspectionPrompt (categoryId : ℕ) (payload : PromptColumns)
  | updateInspectionPrompt (now : ℤ) (categoryId promptId : ℕ) (patch : InspectionPromptPatch)
  | addRedFlagRule (categoryId : ℕ) (payload : RuleColumns)
  | updateRedFlagRule (now : ℤ) (categoryId ruleId : ℕ) (patch : RedFlagRulePatch)
  | addAttachment (categoryId : ℕ) (payload : AttachmentColumns)
  | updateAttachment (categoryId attachmentId : ℕ) (patch : AttachmentPatch)
  | addPhotoSlot (categoryId : ℕ) (payload : PhotoSlotColumns)
  | updatePhotoSlot (categoryId photoSlotId : ℕ) (patch : PhotoSlotPatch)

def CategoryOp.service : CategoryOp → CategoryService CategoryDetail
  | .updateCategory now c patch => TempleConsign.updateCategory now c patch
  | .deactivateCategory now c => TempleConsign.deactivateCategory now c
  | .addComponent c payload => TempleConsign.addComponent c payload
  | .updateComponent c p patch => TempleConsign.updateComponent c p patch
  | .addInspectionPrompt c payload => TempleConsign.addInspectionPrompt c payload
  | .updateInspectionPrompt now c p patch => TempleConsign.updateInspectionPrompt now c p patch
  | .addRedFlagRule c payload => TempleConsign.addRedFlagRule c payload
  | .updateRedFlagRule now c p patch => TempleConsign.updateRedFlagRule now c p patch
  | .addAttachment c payload => TempleConsign.addAttachment c payload
  | .updateAttachment c p patch => TempleConsign.updateAttachment c p patch
  | .addPhotoSlot c payload => TempleConsign.addPhotoSlot c payload
  | .updatePhotoSlot c p patch => TempleConsign.updatePhotoSlot c p patch

/-- A request (`get_db`, `src/api/database/base.py` line 42): an error changes nothing. -/
def CategoryDb.step (db : CategoryDb) (op : CategoryOp) : CategoryDb :=
  (Svc.request (fun before _ => before) op.service db).2

/-! ## When an edit of a category returns -/

/-- What `checkSlug` asks. -/
def CategoryDb.SlugFree (db : CategoryDb) (id : ℕ) (cat : EquipmentCategory) :
    Option (Option String) → Prop
  | none => True
  | some slug => slug ≠ some cat.slug → ∃ clash,
    Store.scalarOneOrNone (db.categories.select fun _ c =>
      some c.slug = slug && c.replacedAt.isNone && c.deletedAt.isNone) = some clash ∧
      clash.all (fun e => e.1 = id) = true

/-- The guards of `update_category`. -/
structure CategoryDb.MayUpdate (db : CategoryDb) (id : ℕ) (cat : EquipmentCategory)
    (patch : CategoryPatch) : Prop where
  found : db.categories.get? id = some cat
  current : cat.replacedAt = none ∧ cat.deletedAt = none
  fields : patch ≠ {}
  slug : db.SlugFree id cat patch.slug

variable {db db' : CategoryDb}

theorem returns_checkSlug {id : ℕ} {cat : EquipmentCategory} {slug : Option (Option String)}
    {u : Unit} :
    Svc.Returns (checkSlug id cat slug) db u db' ↔ db.SlugFree id cat slug ∧ db = db' := by
  cases slug with
  | none => simp [checkSlug, CategoryDb.SlugFree]
  | some slug =>
    refine Svc.returns_onlyIf_check fun u t => ?_
    simp only [currentCategoryBySlug, Svc.returns_bind, Svc.returns_get, Svc.returns_expect,
      Svc.returns_require]
    constructor
    · rintro ⟨clash, _, ⟨_, _, ⟨rfl, rfl⟩, hfound, rfl⟩, hclash, rfl⟩
      exact ⟨⟨clash, hfound, hclash⟩, rfl⟩
    · rintro ⟨⟨clash, hfound, hclash⟩, rfl⟩
      exact ⟨clash, db, ⟨db, db, ⟨rfl, rfl⟩, hfound, rfl⟩, hclash, rfl⟩

theorem returns_loadDetail {id : ℕ} {cat : EquipmentCategory} :
    Svc.Returns (loadDetail id) db cat db' ↔ db.categories.get? id = some cat ∧ db = db' := by
  simp [loadDetail]

theorem returns_getCategory {id : ℕ} {d : CategoryDetail} :
    Svc.Returns (getCategory id) db d db' ↔
      ∃ cat, db.categories.get? id = some cat ∧ serializeDetail db id cat = d ∧ db = db' := by
  rw [getCategory, Svc.returns_bind_of_read fun _ _ => returns_loadDetail]
  simp [and_comm]

theorem get?_supersede (now : ℤ) (id : ℕ) (cat : EquipmentCategory) (fields : CategoryPatch) :
    (db.supersede now id cat fields).categories.get? db.categories.next =
      some (cat.successor fields) := by
  have h := Store.get?_create_self
    (db.categories.modify id fun c => { c with replacedAt := some now }) (cat.successor fields)
  rwa [Store.modify_next] at h

/-- An update passes its guards and supersedes the row. -/
theorem returns_updateCategory {now : ℤ} {id : ℕ} {patch : CategoryPatch} {d : CategoryDetail}
    (h : Svc.Returns (updateCategory now id patch) db d db') :
    ∃ cat, db.MayUpdate id cat patch ∧ db' = db.supersede now id cat patch := by
  rw [updateCategory, Svc.returns_bind_of_read fun _ _ => returns_loadDetail] at h
  obtain ⟨cat, hfound, h⟩ := h
  rw [Svc.returns_require_bind, Svc.returns_require_bind] at h
  obtain ⟨hcurrent, hfields, h⟩ := h
  rw [Svc.returns_bind_of_write fun _ _ => returns_checkSlug, Svc.returns_get_bind,
    Svc.returns_modify_bind, returns_getCategory] at h
  obtain ⟨hslug, _, _, _, rfl⟩ := h
  exact ⟨cat, ⟨hfound, hcurrent, hfields, hslug⟩, rfl⟩

/-- An update whose guards hold returns. -/
theorem updateCategory_returns (now : ℤ) {id : ℕ} {cat : EquipmentCategory}
    {patch : CategoryPatch} (h : db.MayUpdate id cat patch) :
    ∃ d, Svc.Returns (updateCategory now id patch) db d (db.supersede now id cat patch) := by
  refine ⟨serializeDetail (db.supersede now id cat patch) db.categories.next
    (cat.successor patch), ?_⟩
  rw [updateCategory, Svc.returns_bind_of_read fun _ _ => returns_loadDetail]
  refine ⟨cat, h.found, ?_⟩
  rw [Svc.returns_require_bind, Svc.returns_require_bind,
    Svc.returns_bind_of_write fun _ _ => returns_checkSlug, Svc.returns_get_bind,
    Svc.returns_modify_bind, returns_getCategory]
  exact ⟨h.current, h.fields, h.slug, _, get?_supersede now id cat patch, rfl, rfl⟩

/-- A deactivation leaves an inactive category alone and updates an active one. -/
theorem returns_deactivateCategory {now : ℤ} {id : ℕ} {d : CategoryDetail} :
    Svc.Returns (deactivateCategory now id) db d db' ↔
      ∃ cat, db.categories.get? id = some cat ∧
        (cat.status = .inactive ∧ serializeDetail db id cat = d ∧ db = db' ∨
          cat.status ≠ .inactive ∧
            Svc.Returns (updateCategory now id { status := some (some .inactive) }) db d db') := by
  rw [deactivateCategory, Svc.returns_bind_of_read fun _ _ => returns_loadDetail]
  simp only [Svc.returns_get_bind, Svc.returns_ite, Svc.returns_pure]

/-! ## Every part belongs to a category -/

theorem inv_supersede (h : db.Inv) (now : ℤ) (id : ℕ) (cat : EquipmentCategory)
    (fields : CategoryPatch) : (db.supersede now id cat fields).Inv := by
  have hgrows : db.categories.next < (db.supersede now id cat fields).categories.next := by
    simp [CategoryDb.supersede]
  exact ⟨fun k p hp => (h.components k p hp).trans hgrows,
    fun k p hp => (h.inspectionPrompts k p hp).trans hgrows,
    fun k p hp => (h.attachments k p hp).trans hgrows,
    fun k p hp => (h.photoSlots k p hp).trans hgrows,
    fun k p hp => (h.redFlagRules k p hp).trans hgrows⟩

variable {ρ : Type} {T : PartTable ρ}

/-- Every row of `t` belongs to a category. -/
def PartTable.Owned (T : PartTable ρ) (db : CategoryDb) (t : Store ρ) : Prop :=
  ∀ k p, t.get? k = some p → T.categoryId p < db.categories.next

theorem PartTable.owned_rows (h : db.Inv) : T.Owned db (T.rows db) := T.inv_rows h

variable {t : Store ρ}

theorem PartTable.Owned.create (ht : T.Owned db t) {row : ρ}
    (hrow : T.categoryId row < db.categories.next) : T.Owned db (t.create row) := by
  intro k p hp
  rw [Store.get?_create] at hp
  split_ifs at hp
  · cases hp
    exact hrow
  · exact ht k p hp

/-- A change of a row that leaves it with its category. -/
theorem PartTable.Owned.modify (ht : T.Owned db t) {partId : ℕ} {f : ρ → ρ}
    (hf : ∀ p, t.get? partId = some p → T.categoryId (f p) = T.categoryId p) :
    T.Owned db (t.modify partId f) := by
  intro k p hp
  rw [Store.get?_modify] at hp
  split_ifs at hp with hk
  · subst hk
    obtain ⟨old, hold, rfl⟩ := Option.map_eq_some_iff.mp hp
    rw [hf old hold]
    exact ht _ old hold
  · exact ht k p hp

theorem PartTable.find_get? {categoryId partId : ℕ} {p : ρ}
    (h : T.find categoryId partId db = some p) : (T.rows db).get? partId = some p :=
  (Option.filter_eq_some_iff.mp h).1

@[simp] theorem PartTable.returns_modifyRows_bind {f : Store ρ → Store ρ} {α : Type}
    {k : Unit → CategoryService α} {a : α} :
    Svc.Returns (T.modifyRows f >>= k) db a db' ↔
      Svc.Returns (k ()) (T.put (f (T.rows db)) db) a db' :=
  Svc.returns_modify_bind

/-- What every edit of the parts ends with. -/
theorem returns_getCategory_eq {id : ℕ} {d : CategoryDetail}
    (h : Svc.Returns (getCategory id) db d db') : db = db' := by
  obtain ⟨_, _, _, rfl⟩ := returns_getCategory.mp h
  rfl

theorem inv_addPart (h : db.Inv) {categoryId : ℕ} {row : ρ} {d : CategoryDetail}
    (hrow : T.categoryId row = categoryId)
    (hret : Svc.Returns (addPart T categoryId row) db d db') : db'.Inv := by
  rw [addPart, Svc.returns_bind_of_read fun _ _ => returns_loadDetail] at hret
  obtain ⟨cat, hfound, hret⟩ := hret
  rw [PartTable.returns_modifyRows_bind] at hret
  obtain rfl := returns_getCategory_eq hret
  refine T.inv_put h ((PartTable.owned_rows h).create ?_)
  rw [hrow]
  exact Store.get?_lt hfound

theorem Part.patch_categoryId {columns : κ → Option κ} {active : Option (Option Bool)}
    {p p' : Part κ} (h : p.patch columns active = some p') : p'.categoryId = p.categoryId := by
  unfold Part.patch at h
  split at h
  · cases h
    rfl
  · cases h

theorem inv_updatePart {T : PartTable (Part κ)} (hT : ∀ p, T.categoryId p = p.categoryId)
    (h : db.Inv) {title : String} {categoryId partId : ℕ} {isEmpty : Bool}
    {columns : κ → Option κ} {active : Option (Option Bool)} {d : CategoryDetail}
    (hret : Svc.Returns (updatePart T title categoryId partId isEmpty (Part.patch columns active))
      db d db') : db'.Inv := by
  simp only [updatePart, Svc.returns_get_bind, Svc.returns_expect_bind, Svc.returns_require_bind,
    PartTable.returns_modifyRows_bind] at hret
  obtain ⟨part, hfound, _, row, hpatch, hret⟩ := hret
  obtain rfl := returns_getCategory_eq hret
  refine T.inv_put h ((PartTable.owned_rows h).modify fun p hp => ?_)
  obtain rfl : part = p := Option.some_inj.mp ((PartTable.find_get? hfound).symm.trans hp)
  rw [hT, hT]
  exact Part.patch_categoryId hpatch

theorem inv_updateVersionedPart {T : PartTable (VersionedPart κ)}
    (hT : ∀ p, T.categoryId p = p.categoryId) (h : db.Inv) {title : String} {now : ℤ}
    {categoryId partId : ℕ} {columnsSet : Bool} {columns : κ → κ} {active : Option (Option Bool)}
    {d : CategoryDetail}
    (hret : Svc.Returns
      (updateVersionedPart T title now categoryId partId columnsSet columns active) db d db') :
    db'.Inv := by
  simp only [updateVersionedPart, Svc.returns_get_bind, Svc.returns_expect_bind,
    Svc.returns_require_bind] at hret
  obtain ⟨existing, hfound, _, _, hret⟩ := hret
  cases columnsSet with
  | true =>
    simp only [if_true, PartTable.returns_modifyRows_bind] at hret
    obtain rfl := returns_getCategory_eq hret
    have howned : T.categoryId existing < db.categories.next :=
      T.inv_rows h _ _ (PartTable.find_get? hfound)
    refine T.inv_put h (((PartTable.owned_rows h).modify fun p _ => ?_).create ?_)
    · rw [hT, hT]
    · rw [hT] at howned ⊢
      exact howned
  | false =>
    simp only [Bool.false_eq_true, if_false, Svc.returns_expect_bind,
      PartTable.returns_modifyRows_bind] at hret
    obtain ⟨value, _, hret⟩ := hret
    obtain rfl := returns_getCategory_eq hret
    refine T.inv_put h ((PartTable.owned_rows h).modify fun p _ => ?_)
    rw [hT, hT]

end TempleConsign
