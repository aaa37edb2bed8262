import TempleConsign.CategoryVersions

/-!
# Edits of versioned rows

The writes of `supersede_inspection_prompt` and `supersede_red_flag_rule`
(`src/api/services/category_versioning_service.py` lines 129 to 207), of the `add_`
functions and of an activation toggle, as edits of a table. A successor takes its
category from the row and anything else from the transaction, so that the edits cover
every transaction that read the table at some earlier time.

Results:
* `evolves_edit`, `Evolves.trans`: what an edit and a sequence of edits do to a table.
* `Evolves.current_iff`: the versions that are current in a category stay the same
  exactly when no row is inserted into the category.
* `step_edits`: what a request of the category service does to its two tables of
  versioned rows.
-/

namespace TempleConsign

open ServiceLib

variable {κ : Type}

/-- A write to a table of versioned rows. -/
inductive RowEdit (κ : Type)
  | add (categoryId : ℕ) (columns : κ) (active : Bool)
  | supersede (id : ℕ) (now : ℤ) (columns : κ) (active : Bool) (version : ℕ)
  | setActive (id : ℕ) (value : Bool)

/-- The successor is inserted in the category of the row. -/
def RowEdit.apply (t : Store (VersionedPart κ)) : RowEdit κ → Store (VersionedPart κ)
  | .add categoryId columns active => t.create ⟨⟨categoryId, columns, active⟩, 1, none⟩
  | .supersede id now columns active version =>
    match t.get? id with
    | none => t
    | some existing => (t.modify id fun p => { p with replacedAt := some now }).create
        ⟨⟨existing.categoryId, columns, active⟩, version, none⟩
  | .setActive id value => t.modify id fun p => { p with active := value }

/-- The row `id` is the current version number `version` in the category. -/
def CurrentVersion (t : Store (VersionedPart κ)) (categoryId id version : ℕ) : Prop :=
  ∃ p, t.get? id = some p ∧ p.categoryId = categoryId ∧ p.replacedAt = none ∧ p.version = version

/-- `t'` has a row of the category that `t` had not. -/
def Inserted (t t' : Store (VersionedPart κ)) (categoryId : ℕ) : Prop :=
  ∃ id p, t.next ≤ id ∧ t'.get? id = some p ∧ p.categoryId = categoryId

/-- The table `t` has become `t'`. -/
structure Evolves (t t' : Store (VersionedPart κ)) : Prop where
  next : t.next ≤ t'.next
  /-- A row keeps its category, its columns and its version, and stays replaced. -/
  kept : ∀ id p, t.get? id = some p → ∃ p', t'.get? id = some p' ∧ p'.categoryId = p.categoryId ∧
    p'.columns = p.columns ∧ p'.version = p.version ∧ (p'.replacedAt = none → p.replacedAt = none)
  old : ∀ id p', t'.get? id = some p' → id < t.next → ∃ p, t.get? id = some p
  /-- A row is replaced by an inserted one. -/
  replaced : ∀ id p p', t.get? id = some p → p.replacedAt = none → t'.get? id = some p' →
    p'.replacedAt ≠ none → Inserted t t' p.categoryId
  /-- Of the inserted rows of a category one is current. -/
  newest : ∀ categoryId, Inserted t t' categoryId → ∃ id p, t.next ≤ id ∧ t'.get? id = some p ∧
    p.categoryId = categoryId ∧ p.replacedAt = none

variable {t t' t'' : Store (VersionedPart κ)} {categoryId : ℕ}

theorem not_inserted_self : ¬ Inserted t t categoryId := by
  rintro ⟨id, p, hid, hp, -⟩
  have := Store.get?_lt hp
  omega

theorem Evolves.refl (t : Store (VersionedPart κ)) : Evolves t t where
  next := le_refl _
  kept id p hp := ⟨p, hp, rfl, rfl, rfl, fun h => h⟩
  old id p hp _ := ⟨p, hp⟩
  replaced id p p' hp hopen hp' hreplaced := by
    cases hp.symm.trans hp'
    exact absurd hopen hreplaced
  newest categoryId h := absurd h not_inserted_self

/-- A row inserted on the way is there in the end. -/
theorem Inserted.before (h : Inserted t t' categoryId) (h' : Evolves t' t'') :
    Inserted t t'' categoryId := by
  obtain ⟨id, p, hid, hp, hcat⟩ := h
  obtain ⟨p', hp', hcat', -⟩ := h'.kept id p hp
  exact ⟨id, p', hid, hp', hcat'.trans hcat⟩

theorem Inserted.after (h : Evolves t t') (h' : Inserted t' t'' categoryId) :
    Inserted t t'' categoryId := by
  obtain ⟨id, p, hid, hp, hcat⟩ := h'
  exact ⟨id, p, h.next.trans hid, hp, hcat⟩

/-- An inserted row came on the first or on the second part of the way. -/
theorem Inserted.split (h : Inserted t t'' categoryId) (h' : Evolves t' t'') :
    Inserted t t' categoryId ∨ Inserted t' t'' categoryId := by
  obtain ⟨id, p, hid, hp, hcat⟩ := h
  by_cases hlt : id < t'.next
  · obtain ⟨q, hq⟩ := h'.old id p hp hlt
    obtain ⟨p', hp', hcat', -⟩ := h'.kept id q hq
    cases hp.symm.trans hp'
    exact .inl ⟨id, q, hid, hq, hcat'.symm.trans hcat⟩
  · exact .inr ⟨id, p, by omega, hp, hcat⟩

theorem Evolves.trans (h : Evolves t t') (h' : Evolves t' t'') : Evolves t t'' where
  next := h.next.trans h'.next
  kept id p hp := by
    obtain ⟨q, hq, hcat, hcols, hversion, hopen⟩ := h.kept id p hp
    obtain ⟨r, hr, hcat', hcols', hversion', hopen'⟩ := h'.kept id q hq
    exact ⟨r, hr, hcat'.trans hcat, hcols'.trans hcols, hversion'.trans hversion,
      fun hnone => hopen (hopen' hnone)⟩
  old id p' hp' hlt := by
    obtain ⟨q, hq⟩ := h'.old id p' hp' (lt_of_lt_of_le hlt h.next)
    exact h.old id q hq hlt
  replaced id p r hp hopen hr hreplaced := by
    obtain ⟨q, hq, hcat, -⟩ := h.kept id p hp
    by_cases hq' : q.replacedAt = none
    · have hins := h'.replaced id q r hq hq' hr hreplaced
      rw [hcat] at hins
      exact hins.after h
    · exact (h.replaced id p q hp hopen hq hq').before h'
  newest c hins := by
    by_cases hlater : Inserted t' t'' c
    · obtain ⟨id, p, hid, hp, hcat, hopen⟩ := h'.newest c hlater
      exact ⟨id, p, h.next.trans hid, hp, hcat, hopen⟩
    · obtain ⟨id, q, hid, hq, hcat, hopen⟩ := h.newest c ((hins.split h').resolve_right hlater)
      obtain ⟨r, hr, hcat', -⟩ := h'.kept id q hq
      refine ⟨id, r, hid, hr, hcat'.trans hcat, ?_⟩
      by_contra hreplaced
      exact hlater (hcat ▸ h'.replaced id q r hq hopen hr hreplaced)

/-! ## Edits -/

theorem evolves_add (t : Store (VersionedPart κ)) {row : VersionedPart κ}
    (hrow : row.replacedAt = none) : Evolves t (t.create row) where
  next := Nat.le_succ _
  kept id p hp := ⟨p, Store.get?_create_of_some hp, rfl, rfl, rfl, fun h => h⟩
  old id p hp hlt := by
    rw [Store.get?_create, if_neg (by omega)] at hp
    exact ⟨p, hp⟩
  replaced id p p' hp hopen hp' hreplaced := by
    cases (Store.get?_create_of_some hp).symm.trans hp'
    exact absurd hopen hreplaced
  newest c := by
    rintro ⟨id, p, hid, hp, hcat⟩
    have hlt := Store.get?_lt hp
    rw [Store.create_next] at hlt
    obtain rfl : id = t.next := by omega
    rw [Store.get?_create_self] at hp
    cases hp
    exact ⟨t.next, row, le_refl _, Store.get?_create_self t row, hcat, hrow⟩

theorem evolves_modify (t : Store (VersionedPart κ)) (id : ℕ)
    {f : VersionedPart κ → VersionedPart κ}
    (hf : ∀ p, (f p).categoryId = p.categoryId ∧ (f p).columns = p.columns ∧
      (f p).version = p.version ∧ (f p).replacedAt = p.replacedAt) : Evolves t (t.modify id f) where
  next := by rw [Store.modify_next]
  kept k p hp := by
    by_cases hk : k = id
    · subst hk
      obtain ⟨hcat, hcols, hversion, hopen⟩ := hf p
      exact ⟨f p, by rw [Store.get?_modify_self, hp]; rfl, hcat, hcols, hversion,
        fun h => hopen.symm.trans h⟩
    · exact ⟨p, by rw [Store.get?_modify_ne _ _ hk, hp], rfl, rfl, rfl, fun h => h⟩
  old k p' hp' _ := by
    by_cases hk : k = id
    · subst hk
      rw [Store.get?_modify_self] at hp'
      obtain ⟨p, hp, -⟩ := Option.map_eq_some_iff.mp hp'
      exact ⟨p, hp⟩
    · rw [Store.get?_modify_ne _ _ hk] at hp'
      exact ⟨p', hp'⟩
  replaced k p p' hp hopen hp' hreplaced := by
    by_cases hk : k = id
    · subst hk
      rw [Store.get?_modify_self, hp] at hp'
      cases hp'
      exact absurd ((hf p).2.2.2.trans hopen) hreplaced
    · rw [Store.get?_modify_ne _ _ hk, hp] at hp'
      cases hp'
      exact absurd hopen hreplaced
  newest c := by
    rintro ⟨k, p, hk, hp, -⟩
    have hlt := Store.get?_lt hp
    rw [Store.modify_next] at hlt
    omega

theorem evolves_supersede (t : Store (VersionedPart κ)) {id : ℕ} {existing : VersionedPart κ}
    (hid : t.get? id = some existing) (now : ℤ) {successor : VersionedPart κ}
    (hcat : successor.categoryId = existing.categoryId) (hopen : successor.replacedAt = none) :
    Evolves t ((t.modify id fun p => { p with replacedAt := some now }).create successor) := by
  have hget : ∀ k, ((t.modify id fun p => { p with replacedAt := some now }).create
      successor).get? k = if k = t.next then some successor else if k = id then
        some { existing with replacedAt := some now } else t.get? k := by
    intro k
    rw [Store.get?_create, Store.modify_next, Store.get?_modify]
    split_ifs with h h'
    · rfl
    · rw [h', hid]
      rfl
    · rfl
  have hlt := Store.get?_lt hid
  have hnew : ((t.modify id fun p => { p with replacedAt := some now }).create successor).get?
      t.next = some successor := by rw [hget, if_pos rfl]
  refine ⟨?_, ?_, ?_, ?_, ?_⟩
  · rw [Store.create_next, Store.modify_next]
    omega
  · intro k p hp
    have hk := Store.get?_lt hp
    rw [hget, if_neg (by omega)]
    by_cases hki : k = id
    · subst hki
      cases hid.symm.trans hp
      rw [if_pos rfl]
      exact ⟨_, rfl, rfl, rfl, rfl, fun h => absurd h (by simp)⟩
    · rw [if_neg hki]
      exact ⟨p, hp, rfl, rfl, rfl, fun h => h⟩
  · intro k p' hp' hk
    rw [hget, if_neg (by omega)] at hp'
    split_ifs at hp' with hki
    · subst hki
      exact ⟨existing, hid⟩
    · exact ⟨p', hp'⟩
  · intro k p p' hp hp_open hp' hreplaced
    have hk := Store.get?_lt hp
    rw [hget, if_neg (by omega)] at hp'
    split_ifs at hp' with hki
    · subst hki
      cases hid.symm.trans hp
      exact ⟨t.next, successor, le_refl _, hnew, hcat⟩
    · cases hp.symm.trans hp'
      exact absurd hp_open hreplaced
  · rintro c ⟨k, p, hk, hp, hc⟩
    rw [hget] at hp
    split_ifs at hp with hkn hki
    · cases hp
      exact ⟨t.next, successor, le_refl _, hnew, hc, hopen⟩
    · omega
    · have := Store.get?_lt hp
      omega

theorem evolves_edit (t : Store (VersionedPart κ)) (e : RowEdit κ) : Evolves t (e.apply t) := by
  cases e with
  | add categoryId columns active => exact evolves_add t rfl
  | setActive id value => exact evolves_modify t id fun p => ⟨rfl, rfl, rfl, rfl⟩
  | supersede id now columns active version =>
    cases hid : t.get? id with
    | none =>
      simp only [RowEdit.apply, hid]
      exact Evolves.refl t
    | some existing =>
      simp only [RowEdit.apply, hid]
      exact evolves_supersede t hid now rfl rfl

/-! ## Current versions -/

/-- The versions that are current in a category stay the same exactly when no row is
    inserted into it. -/
theorem Evolves.current_iff (h : Evolves t t') (categoryId : ℕ) :
    (∀ id version, CurrentVersion t' categoryId id version ↔
      CurrentVersion t categoryId id version) ↔ ¬ Inserted t t' categoryId := by
  constructor
  · intro hsame hins
    obtain ⟨id, p, hid, hp, hcat, hopen⟩ := h.newest categoryId hins
    obtain ⟨q, hq, -⟩ := (hsame id p.version).mp ⟨p, hp, hcat, hopen, rfl⟩
    have := Store.get?_lt hq
    omega
  · intro hnone id version
    constructor
    · rintro ⟨p', hp', hcat, hopen, hversion⟩
      have hlt : id < t.next := by
        by_contra hge
        exact hnone ⟨id, p', by omega, hp', hcat⟩
      obtain ⟨p, hp⟩ := h.old id p' hp' hlt
      obtain ⟨q, hq, hcat', -, hversion', hopen'⟩ := h.kept id p hp
      cases hp'.symm.trans hq
      exact ⟨p, hp, hcat'.symm.trans hcat, hopen' hopen, hversion'.symm.trans hversion⟩
    · rintro ⟨p, hp, hcat, hopen, hversion⟩
      obtain ⟨p', hp', hcat', -, hversion', -⟩ := h.kept id p hp
      refine ⟨p', hp', hcat'.trans hcat, ?_, hversion'.trans hversion⟩
      by_contra hreplaced
      exact hnone (hcat ▸ h.replaced id p p' hp hopen hp' hreplaced)

/-- `unreplacedOf` lists the current versions. -/
theorem mem_unreplacedOf {id version : ℕ} :
    (id, version) ∈ (unreplacedOf t categoryId).map (fun e => (e.1, e.2.version)) ↔
      CurrentVersion t categoryId id version := by
  simp only [List.mem_map, Prod.exists, unreplacedOf, Store.mem_select, Bool.and_eq_true,
    decide_eq_true_eq, Option.isNone_iff_eq_none, Prod.mk.injEq, CurrentVersion]
  constructor
  · rintro ⟨k, p, ⟨hp, hcat, hopen⟩, rfl, hversion⟩
    exact ⟨p, hp, hcat, hopen, hversion⟩
  · rintro ⟨p, hp, hcat, hopen, hversion⟩
    exact ⟨id, p, ⟨hp, hcat, hopen⟩, rfl, hversion⟩

/-! ## The requests of the category service -/

/-- An edit of one of the two tables of versioned rows. -/
inductive CategoryEdit
  | prompt (e : RowEdit PromptColumns)
  | rule (e : RowEdit RuleColumns)

def CategoryEdit.apply (db : CategoryDb) : CategoryEdit → CategoryDb
  | .prompt e => { db with inspectionPrompts := e.apply db.inspectionPrompts }
  | .rule e => { db with redFlagRules := e.apply db.redFlagRules }

/-- The two tables. -/
structure SameVersions (db db' : CategoryDb) : Prop where
  inspectionPrompts : db'.inspectionPrompts = db.inspectionPrompts
  redFlagRules : db'.redFlagRules = db.redFlagRules

/-- `db` has become `db'`. -/
structure VersionsEvolve (db db' : CategoryDb) : Prop where
  inspectionPrompts : Evolves db.inspectionPrompts db'.inspectionPrompts
  redFlagRules : Evolves db.redFlagRules db'.redFlagRules

variable {db db' db'' : CategoryDb}

theorem VersionsEvolve.refl (db : CategoryDb) : VersionsEvolve db db :=
  ⟨Evolves.refl _, Evolves.refl _⟩

theorem VersionsEvolve.trans (h : VersionsEvolve db db') (h' : VersionsEvolve db' db'') :
    VersionsEvolve db db'' :=
  ⟨h.inspectionPrompts.trans h'.inspectionPrompts, h.redFlagRules.trans h'.redFlagRules⟩

theorem versionsEvolve_edit (db : CategoryDb) (e : CategoryEdit) :
    VersionsEvolve db (e.apply db) := by
  cases e with
  | prompt e => exact ⟨evolves_edit _ e, Evolves.refl _⟩
  | rule e => exact ⟨Evolves.refl _, evolves_edit _ e⟩

variable {ρ : Type}

theorem returns_addPart {T : PartTable ρ} {row : ρ} {d : CategoryDetail}
    (h : Svc.Returns (addPart T categoryId row) db d db') :
    db' = T.put ((T.rows db).create row) db := by
  rw [addPart, Svc.returns_bind_of_read fun _ _ => returns_loadDetail] at h
  obtain ⟨cat, -, h⟩ := h
  rw [PartTable.returns_modifyRows_bind] at h
  exact (returns_getCategory_eq h).symm

theorem returns_updatePart {T : PartTable (Part κ)} {title : String} {partId : ℕ} {isEmpty : Bool}
    {patch : Part κ → Option (Part κ)} {d : CategoryDetail}
    (h : Svc.Returns (updatePart T title categoryId partId isEmpty patch) db d db') :
    ∃ row, db' = T.put ((T.rows db).modify partId fun _ => row) db := by
  simp only [updatePart, Svc.returns_get_bind, Svc.returns_expect_bind, Svc.returns_require_bind,
    PartTable.returns_modifyRows_bind] at h
  obtain ⟨part, -, -, row, -, h⟩ := h
  exact ⟨row, (returns_getCategory_eq h).symm⟩

/-- An update finds a current row of the category and supersedes it, or sets `active`. -/
theorem returns_updateVersionedPart {T : PartTable (VersionedPart κ)} {title : String} {now : ℤ}
    {partId : ℕ} {columnsSet : Bool} {columns : κ → κ} {active : Option (Option Bool)}
    {d : CategoryDetail}
    (h : Svc.Returns
      (updateVersionedPart T title now categoryId partId columnsSet columns active) db d db') :
    ∃ existing, (T.rows db).get? partId = some existing ∧ existing.replacedAt = none ∧
      ((columnsSet = true ∧ db' = T.put
          (((T.rows db).modify partId fun p => { p with replacedAt := some now }).create
            (existing.successor columns active)) db) ∨
        columnsSet = false ∧ ∃ value, db' = T.put
          ((T.rows db).modify partId fun p => { p with active := value }) db) := by
  simp only [updateVersionedPart, Svc.returns_get_bind, Svc.returns_expect_bind,
    Svc.returns_require_bind] at h
  obtain ⟨existing, hfound, hopen, -, h⟩ := h
  refine ⟨existing, PartTable.find_get? hfound, hopen, ?_⟩
  cases columnsSet with
  | true =>
    simp only [if_true, PartTable.returns_modifyRows_bind] at h
    exact .inl ⟨rfl, (returns_getCategory_eq h).symm⟩
  | false =>
    simp only [Bool.false_eq_true, if_false, Svc.returns_expect_bind,
      PartTable.returns_modifyRows_bind] at h
    obtain ⟨value, -, h⟩ := h
    exact .inr ⟨rfl, value, (returns_getCategory_eq h).symm⟩

/-- An update of a versioned row is an edit of its table. -/
theorem edit_of_updateVersionedPart {T : PartTable (VersionedPart κ)} {title : String} {now : ℤ}
    {partId : ℕ} {columnsSet : Bool} {columns : κ → κ} {active : Option (Option Bool)}
    {d : CategoryDetail}
    (h : Svc.Returns
      (updateVersionedPart T title now categoryId partId columnsSet columns active) db d db') :
    ∃ e : RowEdit κ, db' = T.put (e.apply (T.rows db)) db := by
  obtain ⟨existing, hget, -, ⟨-, rfl⟩ | ⟨-, value, rfl⟩⟩ := returns_updateVersionedPart h
  · refine ⟨.supersede partId now (columns existing.columns)
      ((active.getD none).getD existing.active) (existing.version + 1), ?_⟩
    simp only [RowEdit.apply, hget]
    rfl
  · exact ⟨.setActive partId value, rfl⟩

/-- What a request does to the two tables is a sequence of edits. -/
theorem step_edits (db : CategoryDb) (op : CategoryOp) :
    ∃ edits : List CategoryEdit, SameVersions (edits.foldl CategoryEdit.apply db) (db.step op) := by
  have hnone : ∀ {db' : CategoryDb}, SameVersions db db' →
      ∃ edits : List CategoryEdit, SameVersions (edits.foldl CategoryEdit.apply db) db' :=
    fun h => ⟨[], h⟩
  rcases db.step_cases op with ⟨d, hret⟩ | ⟨-, hsame⟩
  · generalize db.step op = db' at hret
    cases op with
    | updateCategory now categoryId patch =>
      obtain ⟨cat, -, rfl⟩ := returns_updateCategory hret
      exact hnone ⟨rfl, rfl⟩
    | deactivateCategory now categoryId =>
      obtain ⟨_, -, ⟨-, -, rfl⟩ | ⟨-, hret⟩⟩ := returns_deactivateCategory.mp hret
      · exact hnone ⟨rfl, rfl⟩
      · obtain ⟨cat, -, rfl⟩ := returns_updateCategory hret
        exact hnone ⟨rfl, rfl⟩
    | addComponent c payload | addAttachment c payload | addPhotoSlot c payload =>
      obtain rfl := returns_addPart hret
      exact hnone ⟨rfl, rfl⟩
    | updateComponent c p patch | updateAttachment c p patch | updatePhotoSlot c p patch =>
      obtain ⟨row, rfl⟩ := returns_updatePart hret
      exact hnone ⟨rfl, rfl⟩
    | addInspectionPrompt c payload =>
      obtain rfl := returns_addPart hret
      exact ⟨[.prompt (.add c payload true)], rfl, rfl⟩
    | addRedFlagRule c payload =>
      obtain rfl := returns_addPart hret
      exact ⟨[.rule (.add c payload true)], rfl, rfl⟩
    | updateInspectionPrompt now c p patch =>
      obtain ⟨e, rfl⟩ := edit_of_updateVersionedPart hret
      exact ⟨[.prompt e], rfl, rfl⟩
    | updateRedFlagRule now c p patch =>
      obtain ⟨e, rfl⟩ := edit_of_updateVersionedPart hret
      exact ⟨[.rule e], rfl, rfl⟩
  · rw [hsame]
    exact hnone ⟨rfl, rfl⟩

end TempleConsign
