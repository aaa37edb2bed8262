import TempleConsign.CatalogImport

/-!
# The constraints of the catalog

The database holds one live category per slug (the partial index
`uq_equipment_categories_slug_current`), and every row of the five tables of parts refers
to a category. Both hold in every state that the requests reach from the empty database.

Results:
* `step_constraints`: a request keeps them.
* `run_constraints`: they hold after every run.
-/

namespace TempleConsign.Catalog

open ServiceLib

/-- The category of every row exists. -/
def Owned {ρ : Type} (categories : Store CategoryRow) (owner : ρ → ℕ) (t : Store ρ) : Prop :=
  ∀ k p, t.get? k = some p → ∃ c, categories.get? (owner p) = some c

/-- One live row per slug. -/
def SlugIndex (categories : Store CategoryRow) : Prop :=
  ∀ k k' c c', categories.get? k = some c → categories.get? k' = some c' → c.live = true →
    c'.live = true → c.slug.text = c'.slug.text → k = k'

structure CatalogDb.Constraints (db : CatalogDb) : Prop where
  slugs : SlugIndex db.categories
  components : Owned db.categories Part.categoryId db.components
  prompts : Owned db.categories (fun p => p.categoryId) db.prompts.rows
  attachments : Owned db.categories Part.categoryId db.attachments
  photoSlots : Owned db.categories Part.categoryId db.photoSlots
  rules : Owned db.categories (fun p => p.categoryId) db.rules.rows

/-! ## References -/

section Owned

variable {ρ : Type} {categories categories' : Store CategoryRow} {owner : ρ → ℕ} {t : Store ρ}

/-- Every category that was there is there. -/
def Keeps (categories categories' : Store CategoryRow) : Prop :=
  ∀ id c, categories.get? id = some c → ∃ c', categories'.get? id = some c'

theorem keeps_create (row : CategoryRow) : Keeps categories (categories.create row) :=
  fun _ c hc => ⟨c, Store.get?_create_of_some hc⟩

theorem keeps_modify (id : ℕ) (f : CategoryRow → CategoryRow) :
    Keeps categories (categories.modify id f) := by
  intro k c hc
  rw [Store.get?_modify, hc]
  split
  · exact ⟨f c, rfl⟩
  · exact ⟨c, rfl⟩

theorem Keeps.trans {categories'' : Store CategoryRow} (h : Keeps categories categories')
    (h' : Keeps categories' categories'') : Keeps categories categories'' := by
  intro id c hc
  obtain ⟨c', hc'⟩ := h id c hc
  exact h' id c' hc'

theorem Owned.mono (h : Owned categories owner t) (hk : Keeps categories categories') :
    Owned categories' owner t := by
  intro k p hp
  obtain ⟨c, hc⟩ := h k p hp
  exact hk _ c hc

theorem Owned.create (h : Owned categories owner t) {row : ρ}
    (hrow : ∃ c, categories.get? (owner row) = some c) :
    Owned categories owner (t.create row) := by
  intro k p hp
  rw [Store.get?_create] at hp
  split at hp
  · obtain rfl := Option.some.inj hp
    exact hrow
  · exact h k p hp

theorem Owned.modify (h : Owned categories owner t) {id : ℕ} {f : ρ → ρ}
    (hf : ∀ p, owner (f p) = owner p) : Owned categories owner (t.modify id f) := by
  intro k p hp
  rw [Store.get?_modify] at hp
  split at hp
  · obtain ⟨q, hq, rfl⟩ := Option.map_eq_some_iff.mp hp
    rw [hf]
    exact h _ q hq
  · exact h k p hp

end Owned

variable {env : CatalogEnv} {db db' : CatalogDb} {op : CatalogOp} {β : Type}

section Chain

variable {categories : Store CategoryRow} {c : Chain β}

theorem Owned.supersede (h : Owned categories (fun p => p.categoryId) c.rows) {id : ℕ}
    {existing : VersionedRow β} (hcat : ∃ cat, categories.get? existing.categoryId = some cat)
    (now : ℤ) (columns : Labeled β) (active : Bool) :
    Owned categories (fun p => p.categoryId)
      (c.supersede now id existing columns active).rows := by
  refine Owned.create ?_ hcat
  exact h.modify fun _ => rfl

theorem Owned.chainMove {c' : Chain β} (h : Owned categories (fun p => p.categoryId) c.rows)
    (hmove : ChainMove categories c c') : Owned categories (fun p => p.categoryId) c'.rows := by
  cases hmove with
  | same hc => rwa [hc]
  | added categoryId columns active hcat hc =>
    rw [hc]
    exact h.create hcat
  | superseded now id existing columns active hget _ hc =>
    rw [hc]
    exact h.supersede (h id existing hget) now columns active
  | toggled id existing active _ _ hc =>
    rw [hc]
    exact h.modify fun _ => rfl

theorem owned_syncAll {C : Collection β} {now : ℤ} {rank : ℕ → ℕ} {categoryId : ℕ}
    {entries : List Entry} {acc : Synced β}
    (hcat : ∃ cat, categories.get? categoryId = some cat)
    (h : Owned categories (fun p => p.categoryId) c.rows)
    (hsync : syncAll env C now rank categoryId entries c = some acc) :
    Owned categories (fun p => p.categoryId) acc.chain.rows := by
  refine foldlM_induction
    (P := fun _ (acc : Synced β) => Owned categories (fun p => p.categoryId) acc.chain.rows)
    h ?_ hsync
  intro _ e acc acc' howned hone
  rcases syncOne_cases hone with ⟨-, rfl⟩ | ⟨k, id, curr, -, -, -, -, rfl⟩ |
    ⟨k, id, curr, body, -, -, hfound, -, -, rfl⟩ | ⟨k, label, body, -, -, -, -, -, rfl⟩
  · exact howned
  · exact howned
  · obtain ⟨-, hcurr, -⟩ := byLabel_eq_some hfound
    exact howned.supersede (hcurr ▸ hcat) now _ _
  · exact howned.create hcat

end Chain

theorem owned_importComponents {categories : Store CategoryRow} {rank : ℕ → ℕ} {categoryId : ℕ}
    {entries : List Entry} {t : Store (Part ComponentRow)} {acc : ImportedComponents}
    (hcat : ∃ cat, categories.get? categoryId = some cat)
    (h : Owned categories Part.categoryId t)
    (himport : importComponents env rank categoryId entries t = some acc) :
    Owned categories Part.categoryId acc.rows := by
  refine foldlM_induction
    (P := fun _ (acc : ImportedComponents) => Owned categories Part.categoryId acc.rows)
    h ?_ himport
  intro _ e acc acc' howned hone
  rcases importComponent_cases hone with ⟨-, rfl⟩ | ⟨k, weight, id, comp, -, -, -, -, -, rfl⟩ |
    ⟨k, weight, id, comp, stored, -, -, -, -, -, -, rfl⟩ |
    ⟨k, weight, name, stored, displayOrder, -, -, -, -, -, -, -, rfl⟩
  · exact howned
  · exact howned
  · exact howned.modify fun _ => rfl
  · exact howned.create hcat

theorem owned_addAllMissing {κ : Type} {categories : Store CategoryRow}
    {fresh : Entry → Option κ} {label : κ → Varchar 255} {rank : ℕ → ℕ} {categoryId : ℕ}
    {entries : List Entry} {t : Store (Part κ)} {acc : Store (Part κ) × List ℕ}
    (hcat : ∃ cat, categories.get? categoryId = some cat)
    (h : Owned categories Part.categoryId t)
    (hadd : addAllMissing env fresh label rank categoryId entries t = some acc) :
    Owned categories Part.categoryId acc.1 := by
  refine foldlM_induction
    (P := fun _ (acc : Store (Part κ) × List ℕ) => Owned categories Part.categoryId acc.1)
    h ?_ hadd
  intro _ e acc acc' howned hone
  rcases addMissing_cases hone with ⟨k, -, -, rfl⟩ | ⟨k, columns, -, -, -, -, rfl⟩
  · exact howned
  · exact howned.create hcat

/-- A category that is not there has no parts. -/
theorem partsOf_of_new {κ : Type} {categories : Store CategoryRow} {t : Store (Part κ)} {id : ℕ}
    (h : Owned categories Part.categoryId t) (hnew : categories.get? id = none) :
    partsOf t id = [] := by
  refine List.eq_nil_iff_forall_not_mem.mpr ?_
  rintro ⟨k, p⟩ hmem
  obtain ⟨hget, rfl⟩ := mem_partsOf.mp hmem
  obtain ⟨c, hc⟩ := h k p hget
  cases hnew.symm.trans hc

theorem unreplacedOf_of_new {κ : Type} {categories : Store CategoryRow}
    {t : Store (VersionedPart κ)} {id : ℕ} (h : Owned categories (fun p => p.categoryId) t)
    (hnew : categories.get? id = none) : unreplacedOf t id = [] := by
  refine List.eq_nil_iff_forall_not_mem.mpr ?_
  rintro ⟨k, p⟩ hmem
  obtain ⟨hget, rfl, -⟩ := mem_unreplacedOf.mp hmem
  obtain ⟨c, hc⟩ := h k p hget
  cases hnew.symm.trans hc

theorem lastOf_of_nil {ρ : Type} {key : ρ → String} {rank : ℕ → ℕ} {rows : List (ℕ × ρ)}
    (h : rows = []) : lastOf key (loaded rank rows) = fun _ => none := by
  funext k
  refine lastOf_eq_none.mpr fun e he => ?_
  rw [mem_loaded, h] at he
  cases he

/-! ## The index -/

theorem slugIndex_create {categories : Store CategoryRow} {row : CategoryRow}
    (h : SlugIndex categories)
    (hfree : ∀ k c, categories.get? k = some c → isCurrentOf row.slug.text k c = false) :
    SlugIndex (categories.create row) := by
  have hclash : ∀ k c, categories.get? k = some c → c.live = true →
      c.slug.text ≠ row.slug.text := by
    intro k c hc hlive hslug
    have := hfree k c hc
    simp [isCurrentOf, hslug, hlive] at this
  intro k k' c c' hc hc' hlive hlive' hslug
  rw [Store.get?_create] at hc hc'
  split at hc <;> split at hc'
  · omega
  · obtain rfl := Option.some.inj hc
    exact absurd hslug.symm (hclash k' c' hc' hlive')
  · obtain rfl := Option.some.inj hc'
    exact absurd hslug (hclash k c hc hlive)
  · exact h k k' c c' hc hc' hlive hlive' hslug

/-- A row that is replaced or deleted leaves the index. -/
theorem slugIndex_modify {categories : Store CategoryRow} {id : ℕ} {f : CategoryRow → CategoryRow}
    (h : SlugIndex categories) (hf : ∀ c, (f c).live = false) :
    SlugIndex (categories.modify id f) := by
  have hother : ∀ k c, (categories.modify id f).get? k = some c → c.live = true →
      categories.get? k = some c := by
    intro k c hc hlive
    rw [Store.get?_modify] at hc
    split at hc
    · obtain ⟨c₀, -, rfl⟩ := Option.map_eq_some_iff.mp hc
      rw [hf] at hlive
      exact absurd hlive Bool.false_ne_true
    · exact hc
  intro k k' c c' hc hc' hlive hlive' hslug
  exact h k k' c c' (hother k c hc hlive) (hother k' c' hc' hlive') hlive hlive' hslug

theorem CategoryMove.slugs (hmove : CategoryMove op db db') (h : SlugIndex db.categories) :
    SlugIndex db'.categories := by
  cases hmove with
  | same hc => rwa [hc]
  | inserted row _ hfree hc =>
    rw [hc]
    exact slugIndex_create h hfree
  | superseded now id cat patch _ hmay _ hdb =>
    subst hdb
    refine slugIndex_create (slugIndex_modify h fun c => by simp [CategoryRow.live]) ?_
    intro k c hc
    by_cases hk : k = id
    · subst hk
      rw [Store.get?_modify_self, Option.map_eq_some_iff] at hc
      obtain ⟨c₀, -, rfl⟩ := hc
      simp [isCurrentOf, CategoryRow.live]
    · rw [Store.get?_modify_ne _ _ hk] at hc
      exact hmay.free k c hk hc
  | deleted now id cat _ _ _ _ hdb =>
    subst hdb
    exact slugIndex_modify h fun c => by simp [CategoryRow.live]

theorem CategoryMove.keeps (hmove : CategoryMove op db db') :
    Keeps db.categories db'.categories := by
  cases hmove with
  | same hc =>
    rw [hc]
    exact fun id c hc => ⟨c, hc⟩
  | inserted row _ _ hc =>
    rw [hc]
    exact keeps_create row
  | superseded now id cat patch _ _ _ hdb =>
    subst hdb
    exact (keeps_modify id _).trans (keeps_create _)
  | deleted now id cat _ _ _ _ hdb =>
    subst hdb
    exact keeps_modify id _

/-! ## Requests -/

/-- An import writes parts of its own category. -/
theorem constraints_import {order : LoadOrder} {now : ℤ} {actor : ℕ}
    {payload : CategoryExportPayload} {r : CategoryImportResult}
    (hret : Svc.Returns (importFromPayload env order now actor payload) db r db')
    (h : db.Constraints) : db'.Constraints := by
  obtain ⟨target, db₁, lists, htarget, hlists, -, rfl⟩ := returns_importFromPayload.mp hret
  have h₁ : db₁.Constraints ∧ ∃ cat, db₁.categories.get? target.1 = some cat := by
    rcases returns_findOrCreate.mp htarget with
      ⟨cat, hfound, -, rfl⟩ | ⟨-, row, -, hfree, rfl, rfl⟩
    · exact ⟨h, cat, (Store.scalar_select_some_iff.mp hfound).1.1⟩
    · have hk : Keeps db.categories (db.categories.create row) := keeps_create row
      exact ⟨⟨slugIndex_create h.slugs hfree, h.components.mono hk, h.prompts.mono hk,
        h.attachments.mono hk, h.photoSlots.mono hk, h.rules.mono hk⟩,
        row, Store.get?_create_self _ _⟩
  obtain ⟨h₁, hcat⟩ := h₁
  obtain ⟨hcomponents, hprompts, hattachments, hphotoSlots, hrules⟩ :=
    importLists_eq_some.mp hlists
  exact ⟨h₁.slugs, owned_importComponents hcat h₁.components hcomponents,
    owned_syncAll hcat h₁.prompts hprompts, owned_addAllMissing hcat h₁.attachments hattachments,
    owned_addAllMissing hcat h₁.photoSlots hphotoSlots, owned_syncAll hcat h₁.rules hrules⟩

/-- Other categories, with the same slugs, and the same parts. -/
theorem CatalogDb.Constraints.of_categories (h : db.Constraints)
    (hmove : CategoryMove op db db') (hcomponents : db'.components = db.components)
    (hprompts : db'.prompts = db.prompts) (hattachments : db'.attachments = db.attachments)
    (hphotoSlots : db'.photoSlots = db.photoSlots) (hrules : db'.rules = db.rules) :
    db'.Constraints := by
  have hk := hmove.keeps
  exact ⟨hmove.slugs h.slugs, hcomponents ▸ h.components.mono hk, hprompts ▸ h.prompts.mono hk,
    hattachments ▸ h.attachments.mono hk, hphotoSlots ▸ h.photoSlots.mono hk,
    hrules ▸ h.rules.mono hk⟩

theorem step_constraints (env : CatalogEnv) (h : db.Constraints) (op : CatalogOp) :
    (db.step env op).Constraints := by
  have hcategories := step_categoryMove env db op
  have hmove := step_move env db op
  generalize db.step env op = db' at hcategories hmove
  cases hmove with
  | same hdb => rwa [hdb]
  | prompts c hmove hdb =>
    rw [hdb]
    exact { h with prompts := h.prompts.chainMove hmove }
  | rules c hmove hdb =>
    rw [hdb]
    exact { h with rules := h.rules.chainMove hmove }
  | imported order now actor payload r hop hret =>
    exact constraints_import (returns_importCategory.mp hret).2 h
  | created row _ _ hdb | superseded now id cat patch _ _ _ hdb
  | deleted now id cat _ _ _ _ hdb | intake categoryId _ hdb | recordDeleted now recordId hdb =>
    subst hdb
    exact h.of_categories hcategories rfl rfl rfl rfl rfl

theorem constraints_empty : CatalogDb.empty.Constraints := by
  constructor
  all_goals
    intro k
    simp [CatalogDb.empty]

theorem run_constraints (env : CatalogEnv) (ops : List CatalogOp) :
    (run (CatalogDb.step env) .empty ops).Constraints :=
  run_induction (P := fun db : CatalogDb => db.Constraints)
    (fun _ op h => step_constraints env h op) constraints_empty ops

end TempleConsign.Catalog
