import Mathlib.Logic.Relation
import TempleConsign.CatalogConstraints

/-!
# Deletion of a category in use

`soft_delete_category` counts the live records of the row that it deletes. A record
stays on the version that was current at its intake, and an edit of the category moves
the current row on, so that the records of the earlier versions are not counted.

Results:
* `step_recordsLive`: the category of a live record is not deleted.
* `deletion_unused_iff`: in a run every deletion that succeeds finds the whole chain
  unused, exactly when no deletion gets past the count of its row while an earlier version
  is in use.
-/

namespace TempleConsign.Catalog

open ServiceLib

variable {env : CatalogEnv} {db db' : CatalogDb}

/-! ## Statement -/

/-- A live record is on the row. -/
def CatalogDb.InUse (db : CatalogDb) (id : ℕ) : Prop :=
  ∃ k r, db.records.get? k = some r ∧ r.categoryId = some id ∧ r.deletedAt = none

/-- `b` superseded `a`. -/
def CatalogDb.SupersededBy (db : CatalogDb) (a b : ℕ) : Prop := (a, b) ∈ db.links

/-- If the request is a deletion that succeeds, then no version of the category up to the
    row is in use. -/
def DeletesUnused (db : CatalogDb) (op : CatalogOp) : Prop :=
  ∀ now id, op = .softDeleteCategory now id →
    (∃ db', Svc.Returns (softDeleteCategory now id) db () db') →
    ∀ v, Relation.ReflTransGen db.SupersededBy v id → ¬ db.InUse v

/-- If the request is a deletion of a row that no live record is on, then no earlier version
    is in use. -/
def EarlierUnused (db : CatalogDb) (op : CatalogOp) : Prop :=
  ∀ now id, op = .softDeleteCategory now id → (∃ cat, db.categories.get? id = some cat) →
    ¬ db.InUse id → ∀ v, Relation.TransGen db.SupersededBy v id → ¬ db.InUse v

/-! ## Records -/

/-- The category of a live record is not deleted. -/
def RecordsLive (db : CatalogDb) : Prop :=
  ∀ id, db.InUse id → ∃ cat, db.categories.get? id = some cat ∧ cat.deletedAt = none

theorem inUse_iff {id : ℕ} : db.inUse id = 0 ↔ ¬ db.InUse id := by
  rw [inUse_eq_zero_iff]
  constructor
  · rintro h ⟨k, r, hget, hcat, hopen⟩
    exact h k r hget hcat hopen
  · intro h k r hget hcat hopen
    exact h ⟨k, r, hget, hcat, hopen⟩

/-- A request leaves the records alone, or inserts one on an active category, or deletes
    one. -/
theorem step_inUse (env : CatalogEnv) (db : CatalogDb) (op : CatalogOp) {id : ℕ}
    (h : (db.step env op).InUse id) :
    db.InUse id ∨ db.categories = (db.step env op).categories ∧
      ∃ c, db.categories.get? id = some c ∧ c.exposed = true := by
  have hmove := step_move env db op
  generalize db.step env op = db' at hmove h
  cases hmove with
  | same hdb | created _ _ _ hdb | superseded _ _ _ _ _ _ _ hdb
  | deleted _ _ _ _ _ _ _ hdb | prompts _ _ hdb | rules _ _ hdb =>
    subst hdb
    exact .inl h
  | imported order now actor payload r hop hret =>
    obtain ⟨target, db₁, lists, htarget, -, -, rfl⟩ :=
      returns_importFromPayload.mp (returns_importCategory.mp hret).2
    rcases returns_findOrCreate.mp htarget with ⟨cat, -, -, rfl⟩ | ⟨-, row, -, -, -, rfl⟩
    · exact .inl h
    · exact .inl h
  | intake categoryId hactive hdb =>
    subst hdb
    obtain ⟨k, r, hget, hcat, hopen⟩ := h
    rw [Store.get?_create] at hget
    split at hget
    · cases hget
      exact .inr ⟨rfl, hactive id hcat⟩
    · exact .inl ⟨k, r, hget, hcat, hopen⟩
  | recordDeleted now recordId hdb =>
    subst hdb
    obtain ⟨k, r, hget, hcat, hopen⟩ := h
    rw [Store.get?_modify] at hget
    split at hget
    · obtain ⟨r₀, -, rfl⟩ := Option.map_eq_some_iff.mp hget
      cases hopen
    · exact .inl ⟨k, r, hget, hcat, hopen⟩

/-- A category that is in use is not deleted by a request. -/
theorem CategoryMove.keepsOpen {op : CatalogOp} (hmove : CategoryMove op db db') {id : ℕ}
    {cat : CategoryRow} (hget : db.categories.get? id = some cat) (hopen : cat.deletedAt = none)
    (hused : db.InUse id) : ∃ cat', db'.categories.get? id = some cat' ∧ cat'.deletedAt = none := by
  cases hmove with
  | same hc => exact ⟨cat, by rw [hc, hget], hopen⟩
  | inserted row _ _ hc =>
    rw [hc]
    exact ⟨cat, Store.get?_create_of_some hget, hopen⟩
  | superseded now id' cat' patch _ _ _ hdb =>
    subst hdb
    have hmodified : ∃ c, (db.categories.modify id' fun c =>
        { c with replacedAt := some now }).get? id = some c ∧ c.deletedAt = none := by
      rw [Store.get?_modify]
      split
      · exact ⟨{ cat with replacedAt := some now }, by rw [hget, Option.map_some], hopen⟩
      · exact ⟨cat, hget, hopen⟩
    obtain ⟨c, hc, hcopen⟩ := hmodified
    exact ⟨c, Store.get?_create_of_some hc, hcopen⟩
  | deleted now id' cat' _ _ _ hunused hdb =>
    subst hdb
    have hne : id ≠ id' := by
      rintro rfl
      exact inUse_iff.mp hunused hused
    exact ⟨cat, by rw [Store.get?_modify_ne _ _ hne, hget], hopen⟩

theorem step_recordsLive (h : RecordsLive db) (op : CatalogOp) :
    RecordsLive (db.step env op) := by
  intro id hused
  rcases step_inUse env db op hused with hbefore | ⟨hcategories, c, hget, hactive⟩
  · obtain ⟨cat, hget, hopen⟩ := h id hbefore
    exact (step_categoryMove env db op).keepsOpen hget hopen hbefore
  · rw [CategoryRow.exposed, Bool.and_eq_true, Option.isNone_iff_eq_none] at hactive
    exact ⟨c, by rw [← hcategories, hget], hactive.2⟩

/-! ## Deletions -/

/-- A deletion succeeds when the row exists and no live record is on it. -/
theorem softDelete_succeeds_iff (h : RecordsLive db) {now : ℤ} {id : ℕ} :
    (∃ db', Svc.Returns (softDeleteCategory now id) db () db') ↔
      (∃ cat, db.categories.get? id = some cat) ∧ ¬ db.InUse id := by
  simp only [returns_softDeleteCategory, inUse_iff]
  constructor
  · rintro ⟨_, cat, hget, ⟨-, hunused, -⟩ | ⟨hdeleted, -⟩⟩
    · exact ⟨⟨cat, hget⟩, hunused⟩
    · refine ⟨⟨cat, hget⟩, fun hused => ?_⟩
      obtain ⟨cat', hget', hopen⟩ := h id hused
      cases hget.symm.trans hget'
      exact hdeleted hopen
  · rintro ⟨⟨cat, hget⟩, hunused⟩
    by_cases hopen : cat.deletedAt = none
    · exact ⟨_, cat, hget, .inl ⟨hopen, hunused, rfl⟩⟩
    · exact ⟨_, cat, hget, .inr ⟨hopen, rfl⟩⟩

theorem deletesUnused_iff (h : RecordsLive db) (op : CatalogOp) :
    DeletesUnused db op ↔ EarlierUnused db op := by
  simp only [DeletesUnused, EarlierUnused, softDelete_succeeds_iff h]
  constructor
  · intro hdel now id hop hcat hunused v hv
    exact hdel now id hop ⟨hcat, hunused⟩ v hv.to_reflTransGen
  · rintro hdel now id hop ⟨hcat, hunused⟩ v hv
    rcases Relation.reflTransGen_iff_eq_or_transGen.mp hv with rfl | hv
    · exact hunused
    · exact hdel now id hop hcat hunused v hv

/-- A deletion succeeds only where no live record is on the category or on an earlier
    version of it, exactly when no deletion of a row that no live record is on is requested
    while an earlier version is in use. -/
theorem deletion_unused_iff (env : CatalogEnv) (ops : List CatalogOp) :
    AllSteps (CatalogDb.step env) DeletesUnused .empty ops ↔
      AllSteps (CatalogDb.step env) EarlierUnused .empty ops := by
  refine allSteps_congr (I := RecordsLive) (fun _ op h => step_recordsLive h op)
    (fun _ op h => deletesUnused_iff h op) ?_ ops
  rintro id ⟨k, r, hget, -⟩
  simp [CatalogDb.empty] at hget

/-- A category with an intake that was renamed. -/
def renamedInUseRun : List CatalogOp :=
  [.createCategory 1 excavators, .submitIntake (some 0),
    .updateCategory 100 0 renameToDiggers]

theorem renamed_category_deleted_in_use :
    ¬ AllSteps (CatalogDb.step .plain) DeletesUnused .empty
      (renamedInUseRun ++ [.softDeleteCategory 200 1]) := by
  intro h
  have hlast := h.last 200 1 rfl
  generalize hdb : run (CatalogDb.step .plain) CatalogDb.empty renamedInUseRun = db at hlast
  have hcat : (db.categories.get? 1).any (fun c => c.deletedAt.isNone) = true ∧ db.inUse 1 = 0 ∧
      (0, 1) ∈ db.links ∧ db.inUse 0 ≠ 0 := by
    rw [← hdb]
    decide +kernel
  obtain ⟨hopen, hunused, hlink, hused⟩ := hcat
  obtain ⟨cat, hget, hopen⟩ := (Option.any_eq_true _ _).mp hopen
  refine hused (inUse_iff.mpr (hlast ?_ 0 (.single hlink)))
  exact ⟨_, returns_softDeleteCategory.mpr
    ⟨cat, hget, .inl ⟨Option.isNone_iff_eq_none.mp hopen, hunused, rfl⟩⟩⟩

end TempleConsign.Catalog
