import TempleConsign.CatalogConstraints

/-!
# The categories that are offered

The iOS config, the customer's list and the check of an intake filter the category table
by `status` and `deleted_at`; only `current_category_by_slug` asks for `replaced_at` as
well. `supersede_category` leaves the status of the row that it replaces, so that an edit
of an active category leaves both versions on offer.

Results:
* `updateCategory_returns`: when an update goes through.
* `offers_current_iff`: the readers offer only what `current_category_by_slug` returns, in
  every state of a run, exactly when the run supersedes no active category.
-/

namespace TempleConsign.Catalog

open ServiceLib

variable {env : CatalogEnv} {db : CatalogDb}

/-! ## Statement -/

/-- The row is neither replaced nor deleted, and the lookup of its slug returns it. -/
def IsCurrent (db : CatalogDb) (id : ℕ) (c : CategoryRow) : Prop :=
  c.replacedAt = none ∧ c.deletedAt = none ∧
    Svc.Returns (currentCategoryBySlug c.slug.text) db (some (id, c)) db

/-- A list has one category per slug, the current one. -/
def ListsCurrent (db : CatalogDb) (rows : List (ℕ × CategoryRow)) : Prop :=
  (rows.map fun e => e.2.slug.text).Nodup ∧ ∀ e ∈ rows, IsCurrent db e.1 e.2

/-- An intake for the category `id` is accepted. -/
def AcceptsIntake (db : CatalogDb) (id : ℕ) (c : CategoryRow) : Prop :=
  db.categories.get? id = some c ∧ ∃ db', Svc.Returns (submitIntake (some id)) db () db'

/-- The readers offer and accept one category per slug, the current one. -/
structure OffersCurrent (db : CatalogDb) : Prop where
  iosConfig : ListsCurrent db (iosCategories db)
  customerList : ListsCurrent db (customerCategories db)
  intake : ∀ id c, AcceptsIntake db id c → IsCurrent db id c
  intakeOne : ∀ id id' c c', AcceptsIntake db id c → AcceptsIntake db id' c' →
    c.slug.text = c'.slug.text → id = id'

/-- The request edits an active category that may be updated, and sets a field. -/
def SupersedesActive (db : CatalogDb) (op : CatalogOp) : Prop :=
  ∃ id patch cat, op.edit = some (id, patch) ∧ db.MayUpdate id cat patch ∧ patch ≠ {} ∧
    cat.exposed = true

/-! ## An update that goes through -/

theorem serializes_of_new (h : db.Constraints) {id : ℕ} (hnew : db.categories.get? id = none) :
    db.serializes env id = true := by
  rw [CatalogDb.serializes, unreplacedOf_of_new h.rules hnew]
  rfl

theorem checkSlug_returns {id : ℕ} {cat : CategoryRow} {patch : CategoryPatch}
    (hmay : db.MayUpdate id cat patch) :
    Svc.Returns (checkSlug id cat patch.slug) db () db := by
  unfold checkSlug
  split
  · next slug hslug =>
    rw [Svc.returns_onlyIf]
    by_cases hsame : slug = cat.slug
    · exact .inr ⟨fun hne => hne hsame, rfl⟩
    · refine .inl ⟨hsame, ?_⟩
      have hfree : ∀ k c, db.categories.get? k = some c → isCurrentOf slug.text k c = false := by
        intro k c hk
        by_cases hid : k = id
        · subst hid
          cases hmay.found.symm.trans hk
          have hne : cat.slug.text ≠ slug.text := fun heq => hsame (Varchar.ext heq.symm)
          simp [isCurrentOf, hne]
        · have hfree := hmay.free k c hid hk
          rwa [CategoryRow.successor, hslug] at hfree
      rw [Svc.returns_bind_of_read fun _ _ => returns_currentCategoryBySlug]
      exact ⟨none, Store.scalar_select_none_iff.mpr hfree, by simp⟩
  · exact Svc.returns_pure.mpr ⟨rfl, rfl⟩

/-- An update with its guards met goes through. -/
theorem updateCategory_returns (h : db.Constraints) {now : ℤ} {id : ℕ} {cat : CategoryRow}
    {patch : CategoryPatch} (hmay : db.MayUpdate id cat patch) (hpatch : patch ≠ {}) :
    Svc.Returns (updateCategory env now id patch) db () (db.supersede now id cat patch) := by
  rw [updateCategory, Svc.returns_bind_of_read fun _ _ => returns_loadDetail]
  refine ⟨cat, hmay.found, ?_⟩
  rw [Svc.returns_require_bind, Svc.returns_require_bind, Svc.returns_bind]
  refine ⟨hmay.live, hpatch, (), db, checkSlug_returns hmay, Svc.returns_bind.mpr ?_⟩
  refine ⟨_, _, returns_supersedeCategory.mpr ⟨hmay.free, rfl, rfl⟩, returns_getCategory.mpr ?_⟩
  have hnew : db.categories.get? db.categories.next = none := Store.get?_next _
  refine ⟨⟨⟨cat.successor patch, ?_⟩, serializes_of_new h hnew⟩, rfl⟩
  rw [CatalogDb.supersede, Store.get?_create, Store.modify_next, if_pos rfl]

/-- An edit of an active category supersedes it. -/
theorem step_edit (env : CatalogEnv) (h : db.Constraints) {op : CatalogOp} {id : ℕ}
    {cat : CategoryRow} {patch : CategoryPatch} (hop : op.edit = some (id, patch))
    (hmay : db.MayUpdate id cat patch)
    (hpatch : patch ≠ {}) (hactive : cat.exposed = true) :
    ∃ now, db.step env op = db.supersede now id cat patch := by
  unfold CatalogOp.edit at hop
  split at hop
  · next now _ _ =>
    cases hop
    exact ⟨now, CatalogDb.step_of_returns (updateCategory_returns h hmay hpatch)⟩
  · next now _ =>
    cases hop
    refine ⟨now, CatalogDb.step_of_returns (u := ()) ?_⟩
    have hstatus : cat.status ≠ inactiveStatus := by
      rintro hinactive
      rw [CategoryRow.exposed, hinactive] at hactive
      exact absurd hactive (by simp [inactiveStatus])
    rw [CatalogOp.service, deactivateCategory,
      Svc.returns_bind_of_read fun _ _ => returns_loadDetail]
    refine ⟨cat, hmay.found, ?_⟩
    rw [Svc.returns_get_bind, if_neg hstatus]
    exact updateCategory_returns h hmay hpatch
  · cases hop

/-! ## What the readers offer -/

/-- Every active category is current. -/
def ActiveLive (db : CatalogDb) : Prop :=
  ∀ id c, db.categories.get? id = some c → c.exposed = true → c.live = true

theorem mem_iosCategories {id : ℕ} {c : CategoryRow} :
    (id, c) ∈ iosCategories db ↔ db.categories.get? id = some c ∧ c.exposed = true := by
  simp [iosCategories]

theorem mem_customerCategories {id : ℕ} {c : CategoryRow} :
    (id, c) ∈ customerCategories db ↔ db.categories.get? id = some c ∧ c.exposed = true := by
  simp [customerCategories]

theorem acceptsIntake_iff {id : ℕ} {c : CategoryRow} :
    AcceptsIntake db id c ↔ db.categories.get? id = some c ∧ c.exposed = true := by
  simp only [AcceptsIntake, returns_submitIntake]
  constructor
  · rintro ⟨hget, _, hexposed, -⟩
    obtain ⟨c', hget', hc'⟩ := hexposed id rfl
    cases hget.symm.trans hget'
    exact ⟨hget, hc'⟩
  · rintro ⟨hget, hc⟩
    refine ⟨hget, _, ?_, rfl⟩
    rintro _ ⟨⟩
    exact ⟨c, hget, hc⟩

theorem isCurrent_of_live (h : SlugIndex db.categories) {id : ℕ} {c : CategoryRow}
    (hget : db.categories.get? id = some c) (hlive : c.live = true) : IsCurrent db id c := by
  have hopen := hlive
  rw [CategoryRow.live, Bool.and_eq_true, Option.isNone_iff_eq_none,
    Option.isNone_iff_eq_none] at hopen
  refine ⟨hopen.1, hopen.2, returns_currentCategoryBySlug.mpr ⟨?_, rfl⟩⟩
  refine Store.scalar_select_some_iff.mpr ⟨⟨hget, by simp [isCurrentOf, hlive]⟩, ?_⟩
  intro k' c' hget' hcurrent
  simp only [isCurrentOf, Bool.and_eq_true, decide_eq_true_eq] at hcurrent
  exact h k' id c' c hget' hget hcurrent.2 hlive hcurrent.1

theorem listsCurrent_of_activeLive (h : SlugIndex db.categories) (hlive : ActiveLive db)
    {rows : List (ℕ × CategoryRow)} (hnd : (rows.map Prod.fst).Nodup)
    (hrows : ∀ id c, (id, c) ∈ rows → db.categories.get? id = some c ∧ c.exposed = true) :
    ListsCurrent db rows := by
  constructor
  · refine List.Nodup.map_on ?_ hnd.of_map
    rintro ⟨id, c⟩ hmem ⟨id', c'⟩ hmem' hslug
    obtain ⟨hget, hexposed⟩ := hrows id c hmem
    obtain ⟨hget', hexposed'⟩ := hrows id' c' hmem'
    have hid := h id id' c c' hget hget' (hlive id c hget hexposed)
      (hlive id' c' hget' hexposed') hslug
    subst hid
    cases hget.symm.trans hget'
    rfl
  · rintro ⟨id, c⟩ hmem
    obtain ⟨hget, hexposed⟩ := hrows id c hmem
    exact isCurrent_of_live h hget (hlive id c hget hexposed)

theorem offersCurrent_iff (h : db.Constraints) : OffersCurrent db ↔ ActiveLive db := by
  constructor
  · intro hoffers id c hget hexposed
    obtain ⟨hreplaced, hdeleted, -⟩ := hoffers.intake id c (acceptsIntake_iff.mpr ⟨hget, hexposed⟩)
    simp [CategoryRow.live, hreplaced, hdeleted]
  · intro hlive
    have hnd : ∀ (p : ℕ → CategoryRow → Bool) (rows : List (ℕ × CategoryRow)),
        rows.Perm (db.categories.select p) → (rows.map Prod.fst).Nodup := fun p rows hperm =>
      (hperm.map Prod.fst).nodup_iff.mpr (Store.select_nodup _ p)
    have hone : ∀ id c, AcceptsIntake db id c → c.live = true := fun id c hc =>
      hlive id c (acceptsIntake_iff.mp hc).1 (acceptsIntake_iff.mp hc).2
    constructor
    · exact listsCurrent_of_activeLive h.slugs hlive
        (hnd _ _ ((sortedBy_perm _ _).trans (sortedBy_perm _ _))) fun _ _ => mem_iosCategories.mp
    · exact listsCurrent_of_activeLive h.slugs hlive
        (hnd _ _ ((sortedBy_perm _ _).trans (sortedBy_perm _ _)))
        fun _ _ => mem_customerCategories.mp
    · exact fun id c hc => isCurrent_of_live h.slugs (acceptsIntake_iff.mp hc).1 (hone id c hc)
    · exact fun id id' c c' hc hc' hslug => h.slugs id id' c c' (acceptsIntake_iff.mp hc).1
        (acceptsIntake_iff.mp hc').1 (hone id c hc) (hone id' c' hc') hslug

/-! ## Runs -/

/-- A replaced version that was active stays on offer. -/
theorem not_activeLive_of_supersede {now : ℤ} {id : ℕ} {cat : CategoryRow} {patch : CategoryPatch}
    (hmay : db.MayUpdate id cat patch) (hactive : cat.exposed = true) :
    ¬ ActiveLive (db.supersede now id cat patch) := by
  intro hlive
  have hget : (db.supersede now id cat patch).categories.get? id =
      some { cat with replacedAt := some now } := by
    refine Store.get?_create_of_some ?_
    rw [Store.get?_modify_self, hmay.found, Option.map_some]
  exact absurd (hlive id _ hget hactive) (by simp [CategoryRow.live])

theorem CategoryMove.activeLive {db' : CatalogDb} {op : CatalogOp}
    (hmove : CategoryMove op db db') (h : ActiveLive db) (hno : ¬ SupersedesActive db op) :
    ActiveLive db' := by
  cases hmove with
  | same hc => rwa [ActiveLive, hc]
  | inserted row hlive _ hc =>
    intro id c hget hexposed
    rw [hc, Store.get?_create] at hget
    split at hget
    · cases hget
      exact hlive
    · exact h id c hget hexposed
  | superseded now id cat patch hop hmay hpatch hdb =>
    subst hdb
    intro k c hget hexposed
    rw [CatalogDb.supersede, Store.get?_create, Store.get?_modify] at hget
    split_ifs at hget with hk hid
    · cases hget
      rfl
    · obtain ⟨c₀, hc₀, rfl⟩ := Option.map_eq_some_iff.mp hget
      rw [hid, hmay.found] at hc₀
      cases hc₀
      exact absurd ⟨id, patch, cat, hop, hmay, hpatch, hexposed⟩ hno
    · exact h k c hget hexposed
  | deleted now id cat _ _ _ _ hdb =>
    subst hdb
    intro k c hget hexposed
    rw [Store.get?_modify] at hget
    split_ifs at hget with hid
    · obtain ⟨c₀, -, rfl⟩ := Option.map_eq_some_iff.mp hget
      simp [CategoryRow.exposed] at hexposed
    · exact h k c hget hexposed

/-- In every state of a run the readers offer one category per slug, the current one,
    exactly when no request of the run supersedes an active category. -/
theorem offers_current_iff (env : CatalogEnv) (ops : List CatalogOp) :
    AllStates (CatalogDb.step env) OffersCurrent .empty ops ↔
      AllSteps (CatalogDb.step env) (fun db op => ¬ SupersedesActive db op) .empty ops := by
  have hempty : ActiveLive .empty := fun id c hget => by simp [CatalogDb.empty] at hget
  refine allStates_iff_allSteps (I := CatalogDb.Constraints)
    (fun db op h _ => step_constraints env h op) ?_
    constraints_empty ((offersCurrent_iff constraints_empty).mpr hempty) ops
  intro db op h hoffers
  rw [offersCurrent_iff (step_constraints env h op)]
  constructor
  · rintro hlive ⟨id, patch, cat, hop, hmay, hpatch, hactive⟩
    obtain ⟨now, hstep⟩ := step_edit env h hop hmay hpatch hactive
    rw [hstep] at hlive
    exact not_activeLive_of_supersede hmay hactive hlive
  · intro hno
    exact (step_categoryMove env db op).activeLive ((offersCurrent_iff h).mp hoffers) hno

/-- A category that was created and renamed. -/
def renamedRun : List CatalogOp :=
  [.createCategory 1 excavators, .updateCategory 100 0 renameToDiggers]

theorem renamed_category_offered_twice :
    ¬ AllStates (CatalogDb.step .plain) OffersCurrent .empty renamedRun := by
  intro h
  have hlast := h.last.iosConfig.1
  exact absurd hlast (by decide +kernel)

end TempleConsign.Catalog
