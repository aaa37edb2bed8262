import Mathlib.Data.Multiset.MapFold
import TempleConsign.CatalogConstraints

/-!
# Export and import of a category tree

`export_to_payload` writes each of the five lists of a category into dicts, and
`import_from_payload` reads them back. In a database that has no current category with
the slug every label is new to the five indexes, which are not updated in the loops, so
that every entry becomes a row, repeated labels included.

Results:
* `importComponents_export`, `addAllMissing_export`, `syncAll_export`: an import of what
  was exported, list by list.
* `import_export`: the imported category has the columns and the rows of the exported one.
-/

namespace TempleConsign.Catalog

open ServiceLib

variable {env : CatalogEnv} {db db' : CatalogDb} {β κ : Type}

/-! ## Statement -/

/-- A category up to ids, versions and timestamps; every row comes with `active`. -/
@[ext]
structure CategoryTree where
  name : Varchar 100
  slug : Varchar 100
  status : Varchar 20
  displayOrder : Int4
  components : Multiset (ComponentRow × Bool)
  prompts : Multiset (Labeled PromptBody × Bool)
  attachments : Multiset (AttachmentRow × Bool)
  photoSlots : Multiset (PhotoSlotRow × Bool)
  rules : Multiset (Labeled RuleBody × Bool)

/-- The rows of a category. -/
def contents (rows : List (ℕ × Part κ)) : List (κ × Bool) :=
  rows.map fun e => (e.2.columns, e.2.active)

def versionedContents (rows : List (ℕ × VersionedRow β)) : List (Labeled β × Bool) :=
  rows.map fun e => (e.2.columns, e.2.active)

def CatalogDb.tree (db : CatalogDb) (id : ℕ) (c : CategoryRow) : CategoryTree where
  name := c.name
  slug := c.slug
  status := c.status
  displayOrder := c.displayOrder
  components := contents (partsOf db.components id)
  prompts := versionedContents (unreplacedOf db.prompts.rows id)
  attachments := contents (partsOf db.attachments id)
  photoSlots := contents (partsOf db.photoSlots id)
  rules := versionedContents (unreplacedOf db.rules.rows id)

/-- The actions as `dict(r.actions or {})`; a JSON object stays as it is. -/
def RuleBody.read (env : CatalogEnv) (b : RuleBody) : RuleBody :=
  { b with actions := ((env.asDict b.actions).map PyValue.dict).getD b.actions }

def CategoryTree.readActions (env : CatalogEnv) (t : CategoryTree) : CategoryTree :=
  { t with rules := Multiset.map (fun r => (⟨r.1.label, r.1.body.read env⟩, r.2)) t.rules }

/-- No name or label is blank, and the actions of the rules are documents, which JSONB
    gives back. -/
structure Exportable (env : CatalogEnv) (db : CatalogDb) (id : ℕ) : Prop where
  components : ∀ e ∈ partsOf db.components id, strip e.2.columns.name.text ≠ ""
  prompts : ∀ e ∈ unreplacedOf db.prompts.rows id, strip e.2.columns.label.text ≠ ""
  attachments : ∀ e ∈ partsOf db.attachments id, strip e.2.columns.label.text ≠ ""
  photoSlots : ∀ e ∈ partsOf db.photoSlots id, strip e.2.columns.label.text ≠ ""
  rules : ∀ e ∈ unreplacedOf db.rules.rows id, strip e.2.columns.label.text ≠ ""
  documents : ∀ e ∈ unreplacedOf db.rules.rows id, ∃ d,
    env.asDict e.2.columns.body.actions = some d ∧ env.jsonb (.dict d) = some (.dict d)

/-! ## One entry -/

theorem key_of_str (env : CatalogEnv) (e : Entry) (field : String) {s : String}
    (hget : e.get field = .str s) (hs : strip s ≠ "") :
    e.key env field = some (env.keyOf s) ∧ env.keyOf s ≠ "" := by
  have hne : s ≠ "" := by
    rintro rfl
    exact hs rfl
  refine ⟨?_, env.lower_ne _ hs⟩
  rw [Entry.key, hget, if_pos (by simp [PyValue.truthy, hne])]

theorem toInt_int (n : ℤ) : (PyValue.int n).toInt env.parseInt = some n := rfl

theorem nullable_pgText (v : Option PgText) :
    (nullablePgText v).nullable PyValue.storePgText = some v := by
  cases v with
  | none => rfl
  | some v => simp [nullablePgText, PyValue.nullable, PyValue.storePgText]

theorem nullable_text {n : ℕ} (v : Option (Varchar n)) :
    (nullableText v).nullable (PyValue.storeText n) = some v := by
  cases v with
  | none => rfl
  | some v => simp [nullableText, PyValue.nullable, PyValue.storeText]

theorem importComponent_export {id : ℕ} {p : Part ComponentRow}
    (hname : strip p.columns.name.text ≠ "") (acc : ImportedComponents) :
    importComponent env id (fun _ => none) acc (componentEntry env p) =
      some { acc with
        rows := acc.rows.create ⟨id, p.columns, p.active⟩
        added := acc.added ++ [acc.rows.next] } := by
  obtain ⟨hkey, hne⟩ := key_of_str env (componentEntry env p) "name" rfl hname
  rw [importComponent, hkey]
  simp [componentEntry, Entry.item, Entry.getD, List.lookup_cons, env.decimal_text,
    PyValue.storeText, toInt_int, PyValue.truthy, hne]

/-- The entry of a row that only gets added. -/
theorem addMissing_export {fresh : Entry → Option κ} {id : ℕ} {columns : κ} {active : Bool}
    {e : Entry} {label : String} (hget : e.get "label" = .str label) (hlabel : strip label ≠ "")
    (hfresh : fresh e = some columns) (hactive : e.getD "active" (.bool true) = .bool active)
    (acc : Store (Part κ) × List ℕ) :
    addMissing env fresh id (fun _ => none) acc e =
      some (acc.1.create ⟨id, columns, active⟩, acc.2 ++ [acc.1.next]) := by
  obtain ⟨hkey, hne⟩ := key_of_str env e "label" hget hlabel
  rw [addMissing, hkey]
  simp [hne, hfresh, hactive, PyValue.truthy]

theorem freshAttachment_export (p : Part AttachmentRow) :
    freshAttachment env (attachmentEntry p) = some p.columns := by
  simp [freshAttachment, attachmentEntry, Entry.item, Entry.get, Entry.getD, List.lookup_cons,
    PyValue.storeText, nullable_pgText, toInt_int]

theorem freshPhotoSlot_export (p : Part PhotoSlotRow) :
    freshPhotoSlot env (photoSlotEntry p) = some p.columns := by
  simp [freshPhotoSlot, photoSlotEntry, Entry.item, Entry.get, Entry.getD, List.lookup_cons,
    PyValue.storeText, nullable_pgText, toInt_int, PyValue.truthy]

/-- The entry of a row with versions whose label is new. -/
theorem syncOne_export {C : Collection β} {now : ℤ} {id : ℕ} {label : Varchar 255} {body : β}
    {active : Bool} {e : Entry} (hget : e.get "label" = .str label.text)
    (hitem : e.item "label" = some (.str label.text)) (hlabel : strip label.text ≠ "")
    (hfresh : C.fresh e = some body) (hactive : e.getD "active" (.bool true) = .bool active)
    (acc : Synced β) :
    syncOne env C now id (fun _ => none) acc e =
      some { acc with
        chain := acc.chain.add id ⟨label, body⟩ active
        added := acc.added ++ [acc.chain.rows.next] } := by
  obtain ⟨hkey, hne⟩ := key_of_str env e "label" hget hlabel
  rw [syncOne, hkey]
  simp [hne, hitem, hfresh, hactive, PyValue.storeText, PyValue.truthy]

theorem promptFresh_export (p : VersionedRow PromptBody) :
    (promptCollection env).fresh (promptEntry p) = some p.columns.body := by
  simp [promptCollection, promptEntry, Entry.item, Entry.getD, List.lookup_cons, PyValue.storeText,
    toInt_int, PyValue.truthy]

theorem ruleFresh_export {p : VersionedRow RuleBody} {d : List (String × PyValue)} {e : Entry}
    (hread : env.asDict p.columns.body.actions = some d)
    (hjsonb : env.jsonb (.dict d) = some (.dict d)) (he : ruleEntry env p = some e) :
    (ruleCollection env).fresh e = some (p.columns.body.read env) := by
  rw [ruleEntry, hread] at he
  obtain rfl := Option.some.inj he
  have hactions : (if (PyValue.dict d).truthy = true then .dict d else .dict []) =
      PyValue.dict d := by
    cases d with
    | nil => simp
    | cons a d => simp [PyValue.truthy]
  rw [ruleCollection]
  refine Option.bind_eq_some_iff.mpr ⟨p.columns.body.conditionField, ?_, ?_⟩
  · exact Varchar.store_text _
  refine Option.bind_eq_some_iff.mpr ⟨p.columns.body.conditionOperator, ?_, ?_⟩
  · exact Varchar.store_text _
  refine Option.bind_eq_some_iff.mpr ⟨p.columns.body.conditionValue, nullable_text _, ?_⟩
  refine Option.bind_eq_some_iff.mpr ⟨.dict d, ?_, ?_⟩
  · exact (congrArg env.jsonb hactions).trans hjsonb
  · rw [RuleBody.read, hread]
    rfl

/-! ## The lists -/

theorem contents_create (t : Store (Part κ)) (id : ℕ) (columns : κ) (active : Bool) :
    contents (partsOf (t.create ⟨id, columns, active⟩) id) =
      (columns, active) :: contents (partsOf t id) := by
  rw [partsOf, Store.select_create, if_pos (by simp)]
  rfl

theorem contents_add (c : Chain β) (id : ℕ) (columns : Labeled β) (active : Bool) :
    versionedContents (unreplacedOf (c.add id columns active).rows id) =
      (columns, active) :: versionedContents (unreplacedOf c.rows id) := by
  rw [Chain.add, unreplacedOf, Store.select_create, if_pos (by simp)]
  rfl

theorem importComponents_export {rank : ℕ → ℕ} {id : ℕ} {t : Store (Part ComponentRow)}
    (hnew : partsOf t id = []) {rows : List (ℕ × Part ComponentRow)}
    (hnames : ∀ e ∈ rows, strip e.2.columns.name.text ≠ "") :
    ∃ acc, importComponents env rank id (rows.map fun e => componentEntry env e.2) t = some acc ∧
      (contents (partsOf acc.rows id)).Perm (contents rows) := by
  rw [importComponents, lastOf_of_nil hnew]
  refine foldlM_collects _ (fun acc : ImportedComponents => contents (partsOf acc.rows id)) _
    (by rw [hnew]; rfl) fun e he acc => ?_
  exact ⟨_, importComponent_export (hnames e he) acc, contents_create ..⟩

theorem addAllMissing_export {fresh : Entry → Option κ} {label : κ → Varchar 255}
    {rank : ℕ → ℕ} {id : ℕ} {t : Store (Part κ)} (hnew : partsOf t id = [])
    {rows : List (ℕ × Part κ)} {entry : Part κ → Entry}
    (hlabels : ∀ e ∈ rows, strip (label e.2.columns).text ≠ "")
    (hget : ∀ p, (entry p).get "label" = .str (label p.columns).text)
    (hfresh : ∀ p, fresh (entry p) = some p.columns)
    (hactive : ∀ p, (entry p).getD "active" (.bool true) = .bool p.active) :
    ∃ acc, addAllMissing env fresh label rank id (rows.map fun e => entry e.2) t = some acc ∧
      (contents (partsOf acc.1 id)).Perm (contents rows) := by
  rw [addAllMissing, lastOf_of_nil hnew]
  refine foldlM_collects _ (fun acc : Store (Part κ) × List ℕ => contents (partsOf acc.1 id)) _
    (by rw [hnew]; rfl) fun e he acc => ?_
  exact ⟨_, addMissing_export (hget e.2) (hlabels e he) (hfresh e.2) (hactive e.2) acc,
    contents_create ..⟩

theorem syncAll_export {C : Collection β} {now : ℤ} {rank : ℕ → ℕ} {id : ℕ} {c : Chain β}
    (read : β → β) (hnew : unreplacedOf c.rows id = []) {rows : List (ℕ × VersionedRow β)}
    {entry : ℕ × VersionedRow β → Entry}
    (hlabels : ∀ e ∈ rows, strip e.2.columns.label.text ≠ "")
    (hget : ∀ e ∈ rows, (entry e).get "label" = .str e.2.columns.label.text)
    (hitem : ∀ e ∈ rows, (entry e).item "label" = some (.str e.2.columns.label.text))
    (hfresh : ∀ e ∈ rows, C.fresh (entry e) = some (read e.2.columns.body))
    (hactive : ∀ e ∈ rows, (entry e).getD "active" (.bool true) = .bool e.2.active) :
    ∃ acc, syncAll env C now rank id (rows.map entry) c = some acc ∧
      (versionedContents (unreplacedOf acc.chain.rows id)).Perm
        (rows.map fun e => (⟨e.2.columns.label, read e.2.columns.body⟩, e.2.active)) := by
  rw [syncAll, byLabel, lastOf_of_nil hnew]
  refine foldlM_collects _
    (fun acc : Synced β => versionedContents (unreplacedOf acc.chain.rows id)) _
    (by rw [hnew]; rfl) fun e he acc => ?_
  exact ⟨_, syncOne_export (hget e he) (hitem e he) (hlabels e he) (hfresh e he) (hactive e he) acc,
    contents_add ..⟩

/-! ## The round trip -/

/-- The entry of a rule whose actions are a document. -/
def ruleEntryD (env : CatalogEnv) (e : ℕ × VersionedRow RuleBody) : Entry :=
  (ruleEntry env e.2).getD []

theorem ruleEntryD_spec {e : ℕ × VersionedRow RuleBody} {d : List (String × PyValue)}
    (hread : env.asDict e.2.columns.body.actions = some d) :
    ruleEntry env e.2 = some (ruleEntryD env e) ∧
      (ruleEntryD env e).get "label" = .str e.2.columns.label.text ∧
      (ruleEntryD env e).item "label" = some (.str e.2.columns.label.text) ∧
      (ruleEntryD env e).getD "active" (.bool true) = .bool e.2.active := by
  rw [ruleEntryD, ruleEntry, hread]
  exact ⟨rfl, rfl, rfl, rfl⟩

/-- What an export of a category returns. -/
def exported (env : CatalogEnv) (order : LoadOrder) (db : CatalogDb) (id : ℕ) (cat : CategoryRow) :
    CategoryExportPayload where
  name := cat.name.text
  slug := cat.slug.text
  status := cat.status.text
  displayOrder := cat.displayOrder.value
  version := cat.version
  replacedAt := cat.replacedAt
  components := (loaded order.components (partsOf db.components id)).map
    fun e => componentEntry env e.2
  inspectionPrompts := (loaded order.prompts (unreplacedOf db.prompts.rows id)).map
    fun e => promptEntry e.2
  attachments := (loaded order.attachments (partsOf db.attachments id)).map
    fun e => attachmentEntry e.2
  photoSlots := (loaded order.photoSlots (partsOf db.photoSlots id)).map
    fun e => photoSlotEntry e.2
  redFlagRules := (loaded order.rules (unreplacedOf db.rules.rows id)).map (ruleEntryD env)

theorem export_returns (order : LoadOrder) {id : ℕ} {cat : CategoryRow}
    (hcat : db.categories.get? id = some cat) (h : Exportable env db id) :
    Svc.Returns (exportToPayload env order id) db (exported env order db id cat) db := by
  rw [exportToPayload, Svc.returns_bind_of_read fun _ _ => returns_loadDetail]
  refine ⟨cat, hcat, ?_⟩
  simp only [Svc.returns_get_bind, Svc.returns_expect_bind, Svc.returns_pure]
  refine ⟨_, mapM_returns [] fun e he => ?_, rfl, trivial⟩
  obtain ⟨d, hread, -⟩ := h.documents e (mem_loaded.mp he)
  exact ⟨_, (ruleEntryD_spec hread).1⟩

/-- The import of an exported category into its five lists. -/
theorem importLists_export (orderE orderI : LoadOrder) (now : ℤ) (cat : CategoryRow)
    {id new : ℕ} {db₂ : CatalogDb} (h : Exportable env db id) (h₂ : db₂.Constraints)
    (hnew : db₂.categories.get? new = none) :
    ∃ i, importLists env orderI now new (exported env orderE db id cat) db₂ = some i ∧
      (contents (partsOf i.components.rows new)).Perm (contents (partsOf db.components id)) ∧
      (versionedContents (unreplacedOf i.prompts.chain.rows new)).Perm
        (versionedContents (unreplacedOf db.prompts.rows id)) ∧
      (contents (partsOf i.attachments.1 new)).Perm (contents (partsOf db.attachments id)) ∧
      (contents (partsOf i.photoSlots.1 new)).Perm (contents (partsOf db.photoSlots id)) ∧
      (versionedContents (unreplacedOf i.rules.chain.rows new)).Perm
        ((unreplacedOf db.rules.rows id).map fun e =>
          (⟨e.2.columns.label, e.2.columns.body.read env⟩, e.2.active)) := by
  have hcomponents : ∃ acc, importComponents env orderI.components new
      (exported env orderE db id cat).components db₂.components = some acc ∧
        (contents (partsOf acc.rows new)).Perm
          (contents (loaded orderE.components (partsOf db.components id))) :=
    importComponents_export (partsOf_of_new h₂.components hnew) fun e he =>
      h.components e (mem_loaded.mp he)
  have hprompts : ∃ acc, syncAll env (promptCollection env) now orderI.prompts new
      (exported env orderE db id cat).inspectionPrompts db₂.prompts = some acc ∧
        (versionedContents (unreplacedOf acc.chain.rows new)).Perm
          (versionedContents (loaded orderE.prompts (unreplacedOf db.prompts.rows id))) :=
    syncAll_export (fun b => b) (unreplacedOf_of_new h₂.prompts hnew)
      (fun e he => h.prompts e (mem_loaded.mp he)) (fun _ _ => rfl) (fun _ _ => rfl)
      (fun e _ => promptFresh_export e.2) fun _ _ => rfl
  have hattachments : ∃ acc, addAllMissing env (freshAttachment env) AttachmentRow.label
      orderI.attachments new (exported env orderE db id cat).attachments db₂.attachments =
        some acc ∧ (contents (partsOf acc.1 new)).Perm
          (contents (loaded orderE.attachments (partsOf db.attachments id))) :=
    addAllMissing_export (partsOf_of_new h₂.attachments hnew)
      (fun e he => h.attachments e (mem_loaded.mp he)) (fun _ => rfl) freshAttachment_export
      fun _ => rfl
  have hphotoSlots : ∃ acc, addAllMissing env (freshPhotoSlot env) PhotoSlotRow.label
      orderI.photoSlots new (exported env orderE db id cat).photoSlots db₂.photoSlots =
        some acc ∧ (contents (partsOf acc.1 new)).Perm
          (contents (loaded orderE.photoSlots (partsOf db.photoSlots id))) :=
    addAllMissing_export (partsOf_of_new h₂.photoSlots hnew)
      (fun e he => h.photoSlots e (mem_loaded.mp he)) (fun _ => rfl) freshPhotoSlot_export
      fun _ => rfl
  have hrules : ∃ acc, syncAll env (ruleCollection env) now orderI.rules new
      (exported env orderE db id cat).redFlagRules db₂.rules = some acc ∧
        (versionedContents (unreplacedOf acc.chain.rows new)).Perm
          ((loaded orderE.rules (unreplacedOf db.rules.rows id)).map fun e =>
            (⟨e.2.columns.label, e.2.columns.body.read env⟩, e.2.active)) := by
    refine syncAll_export (fun b => b.read env) (unreplacedOf_of_new h₂.rules hnew)
      (fun e he => h.rules e (mem_loaded.mp he)) ?_ ?_ ?_ ?_
    all_goals
      intro e he
      obtain ⟨d, hread, hjsonb⟩ := h.documents e (mem_loaded.mp he)
      obtain ⟨hentry, hget, hitem, hactive⟩ := ruleEntryD_spec hread
    · exact hget
    · exact hitem
    · exact ruleFresh_export hread hjsonb hentry
    · exact hactive
  obtain ⟨components, hcomponents, hc⟩ := hcomponents
  obtain ⟨prompts, hprompts, hp⟩ := hprompts
  obtain ⟨attachments, hattachments, ha⟩ := hattachments
  obtain ⟨photoSlots, hphotoSlots, hs⟩ := hphotoSlots
  obtain ⟨rules, hrules, hr⟩ := hrules
  have hperm : ∀ {ρ : Type} (rank : ℕ → ℕ) (rows : List (ℕ × ρ)), (loaded rank rows).Perm rows :=
    fun _ _ => sortedBy_perm _ _
  exact ⟨⟨components, prompts, attachments, photoSlots, rules⟩,
    importLists_eq_some.mpr ⟨hcomponents, hprompts, hattachments, hphotoSlots, hrules⟩,
    hc.trans ((hperm _ _).map _), hp.trans ((hperm _ _).map _), ha.trans ((hperm _ _).map _),
    hs.trans ((hperm _ _).map _), hr.trans ((hperm _ _).map _)⟩

/-- The row that an import inserts for an exported category. -/
def CategoryRow.copy (c : CategoryRow) (actor : ℕ) : CategoryRow :=
  ⟨c.name, c.slug, c.status, c.displayOrder, some actor, 1, none, none⟩

theorem row_exported {order : LoadOrder} {id actor : ℕ} {cat : CategoryRow} :
    (exported env order db id cat).row actor = some (cat.copy actor) := by
  simp [CategoryExportPayload.row, exported, CategoryRow.copy]

theorem read_of_dict {b : RuleBody} {d : List (String × PyValue)} (h : b.actions = .dict d) :
    b.read env = b := by
  have hread : env.asDict b.actions = some d := by
    rw [h]
    cases d with
    | nil => rfl
    | cons a d => rfl
  rw [RuleBody.read, hread, Option.map_some, Option.getD_some, ← h]

theorem readActions_of_dict {id : ℕ} {cat : CategoryRow}
    (h : ∀ e ∈ unreplacedOf db.rules.rows id, ∃ d, e.2.columns.body.actions = .dict d) :
    (db.tree id cat).readActions env = db.tree id cat := by
  have hrules : ∀ r ∈ (db.tree id cat).rules,
      ((⟨r.1.label, r.1.body.read env⟩, r.2) : Labeled RuleBody × Bool) = r := by
    intro r hr
    obtain ⟨e, he, rfl⟩ := List.mem_map.mp (Multiset.mem_coe.mp hr)
    obtain ⟨d, hd⟩ := h e he
    rw [read_of_dict hd]
  rw [CategoryTree.readActions, Multiset.map_congr rfl hrules, Multiset.map_id']

/-- An exported category, imported where no current category has its slug, is created with
    the same columns and the same rows, the actions of a rule as the export reads them. -/
theorem import_export (orderE orderI : LoadOrder) (now : ℤ) (actor : ℕ) {id : ℕ}
    {cat : CategoryRow} {db₂ : CatalogDb} (hcat : db.categories.get? id = some cat)
    (h : Exportable env db id) (h₂ : db₂.Constraints)
    (hfree : ∀ k c, db₂.categories.get? k = some c → isCurrentOf cat.slug.text k c = false) :
    ∃ payload r db', Svc.Returns (exportToPayload env orderE id) db payload db ∧
      Svc.Returns (importFromPayload env orderI now actor payload) db₂ r db' ∧
      r.created = true ∧ db₂.categories.get? r.categoryId = none ∧
      ∃ c', db'.categories.get? r.categoryId = some c' ∧ c'.live = true ∧
        db'.tree r.categoryId c' = (db.tree id cat).readActions env ∧
        ((∀ e ∈ unreplacedOf db.rules.rows id, ∃ d, e.2.columns.body.actions = .dict d) →
          db'.tree r.categoryId c' = db.tree id cat) := by
  have hnew : db₂.categories.get? db₂.categories.next = none := Store.get?_next _
  have hcreated : Svc.Returns (findOrCreate actor (exported env orderE db id cat)) db₂
      (db₂.categories.next, true)
      { db₂ with categories := db₂.categories.create (cat.copy actor) } :=
    returns_findOrCreate.mpr (.inr ⟨Store.scalar_select_none_iff.mpr hfree, _, row_exported, hfree,
      rfl, rfl⟩)
  obtain ⟨lists, hlists, hc, hp, ha, hs, hr⟩ :=
    importLists_export orderE orderI now cat h h₂ hnew
  have htree : (({ db₂ with categories := db₂.categories.create (cat.copy actor) } :
      CatalogDb).withLists lists).tree db₂.categories.next (cat.copy actor) =
      (db.tree id cat).readActions env := by
    refine CategoryTree.ext rfl rfl rfl rfl (Multiset.coe_eq_coe.mpr hc)
      (Multiset.coe_eq_coe.mpr hp) (Multiset.coe_eq_coe.mpr ha) (Multiset.coe_eq_coe.mpr hs) ?_
    refine (Multiset.coe_eq_coe.mpr hr).trans (Multiset.coe_eq_coe.mpr ?_)
    rw [versionedContents, List.map_map]
    rfl
  exact ⟨exported env orderE db id cat, lists.result db₂.categories.next true, _,
    export_returns orderE hcat h,
    returns_importFromPayload.mpr ⟨_, _, lists, hcreated, hlists, rfl, rfl⟩, rfl, hnew,
    cat.copy actor, Store.get?_create_self _ _, rfl, htree,
    fun hdict => htree.trans (readActions_of_dict hdict)⟩

/-- A category with a row in each list, and one prompt twice. -/
def diggersDb : CatalogDb :=
  run (CatalogDb.step .plain) .empty [.importCategory ⟨id, id, id, id, id⟩ 100 1
    { name := "Diggers", slug := "diggers", status := "active", displayOrder := 3
      version := 1, replacedAt := none
      components := [[("name", .str "Engine"), ("weight_pct", .str "25.5000")]]
      inspectionPrompts :=
        [[("label", .str "Oil leaks"), ("response_type", .str "yes_no_na")],
          [("label", .str "OIL LEAKS"), ("response_type", .str "scale_1_5")]]
      attachments := [[("label", .str "Bucket"), ("active", .bool false)]]
      photoSlots := [[("label", .str "Front")]]
      redFlagRules := [[("label", .str "Cracked boom"), ("condition_field", .str "boom"),
        ("condition_operator", .str "is_true"),
        ("actions", .dict [("management_review", .bool true)])]] }]

theorem exportable_diggers : Exportable .plain diggersDb 0 where
  components := by decide +kernel
  prompts := by decide +kernel
  attachments := by decide +kernel
  photoSlots := by decide +kernel
  rules := by decide +kernel
  documents e he := by
    have hall : ∀ e ∈ unreplacedOf diggersDb.rules.rows 0,
        (CatalogEnv.plain.asDict e.2.columns.body.actions).isSome = true := by
      decide +kernel
    obtain ⟨d, hd⟩ := Option.isSome_iff_exists.mp (hall e he)
    exact ⟨d, hd, rfl⟩

theorem import_export_diggers :
    ∃ cat payload r db', diggersDb.categories.get? 0 = some cat ∧
      Svc.Returns (exportToPayload .plain ⟨id, id, id, id, id⟩ 0) diggersDb payload diggersDb ∧
      Svc.Returns (importFromPayload .plain ⟨id, id, id, id, id⟩ 200 2 payload) .empty r db' ∧
      ∃ c', db'.categories.get? r.categoryId = some c' ∧
        db'.tree r.categoryId c' = (diggersDb.tree 0 cat).readActions .plain := by
  have hfound : (diggersDb.categories.get? 0).isSome = true := by decide +kernel
  obtain ⟨cat, hcat⟩ := Option.isSome_iff_exists.mp hfound
  obtain ⟨payload, r, db', hexport, himport, -, -, c', hget, -, htree, -⟩ :=
    import_export ⟨id, id, id, id, id⟩ ⟨id, id, id, id, id⟩ 200 2 hcat exportable_diggers
      constraints_empty fun k c hk => by simp [CatalogDb.empty] at hk
  exact ⟨cat, payload, r, db', hcat, hexport, himport, c', hget, htree⟩

end TempleConsign.Catalog
