import Mathlib.Data.Multiset.ZeroCons
import TempleConsign.Categories
import TempleConsign.Lib.Run

/-!
# Versions of a category

What the edits of a category do to the parts that its current version shows.
`supersede_category` (`src/api/services/category_versioning_service.py` line 227)
inserts the successor under a new id and leaves the rows of the five tables of parts
with the id of its predecessor, so the current version has none of them.

Results:
* `Inv.step`: every part belongs to a category, along every run.
* `liveTree_supersede`: the tree of a successor is empty.
* `editing_keeps_tree_iff`: the edits of a category keep its live tree exactly when
  each of them finds it empty.
-/

namespace TempleConsign

open ServiceLib

/-! ## The live tree -/

/-- What a category shows of its parts, without ids and versions. -/
structure LiveTree where
  components : Multiset (ComponentColumns × Bool)
  inspectionPrompts : Multiset PromptColumns
  photoSlots : Multiset (PhotoSlotColumns × Bool)
  attachments : Multiset (AttachmentColumns × Bool)
  redFlagRules : Multiset RuleColumns

def LiveTree.empty : LiveTree := ⟨0, 0, 0, 0, 0⟩

def CategoryDb.liveTree (db : CategoryDb) (categoryId : ℕ) : LiveTree where
  components := ((partsOf db.components categoryId).map fun e => (e.2.columns, e.2.active) : List _)
  inspectionPrompts := ((currentInspectionPrompts db categoryId).map (·.2.columns) : List _)
  photoSlots := ((partsOf db.photoSlots categoryId).map fun e => (e.2.columns, e.2.active) : List _)
  attachments :=
    ((partsOf db.attachments categoryId).map fun e => (e.2.columns, e.2.active) : List _)
  redFlagRules := ((currentRedFlagRules db categoryId).map (·.2.columns) : List _)

def CategoryOp.editsCategory : CategoryOp → Bool
  | .updateCategory _ _ _ => true
  | .deactivateCategory _ _ => true
  | _ => false

/-- An edit leaves the current version of the category `c` with the tree it had. -/
def KeepsTree (c : ℕ) (db : CategoryDb) (op : CategoryOp) : Prop :=
  op.editsCategory = true → (db.step op).liveTree ((db.step op).current c) =
    db.liveTree (db.current c)

/-- The operation supersedes the category `id`. -/
def CategoryOp.Supersedes (db : CategoryDb) (id : ℕ) : CategoryOp → Prop
  | .updateCategory _ categoryId patch => categoryId = id ∧ ∃ cat, db.MayUpdate id cat patch
  | .deactivateCategory _ categoryId => categoryId = id ∧ ∃ cat,
    cat.status = .active ∧ db.MayUpdate id cat { status := some (some .inactive) }
  | _ => False

/-- The current version of `c` has no parts when it is superseded. -/
def EmptyWhenEdited (c : ℕ) (db : CategoryDb) (op : CategoryOp) : Prop :=
  op.Supersedes db (db.current c) → db.liveTree (db.current c) = .empty

/-! ## What a step does -/

variable {db : CategoryDb}

theorem CategoryDb.step_of_returns {op : CategoryOp} {d : CategoryDetail} {db' : CategoryDb}
    (h : Svc.Returns op.service db d db') : db.step op = db' := by
  rw [CategoryDb.step, Svc.request_of_returns h]

theorem CategoryDb.step_cases (db : CategoryDb) (op : CategoryOp) :
    (∃ d, Svc.Returns op.service db d (db.step op)) ∨
      (∀ d db', ¬ Svc.Returns op.service db d db') ∧ db.step op = db := by
  by_cases h : ∃ d db', Svc.Returns op.service db d db'
  · obtain ⟨d, db', hret⟩ := h
    exact Or.inl ⟨d, by rwa [CategoryDb.step_of_returns hret]⟩
  · have hno : ∀ d db', ¬ Svc.Returns op.service db d db' := fun d db' hret => h ⟨d, db', hret⟩
    rcases Svc.request_cases (fun before _ => before) op.service db with ⟨d, db', hret, _⟩ | hraise
    · exact absurd hret (hno d db')
    · obtain ⟨e, db', _, hreq⟩ := hraise
      exact Or.inr ⟨hno, by rw [CategoryDb.step, hreq]⟩

/-- A superseded category: the one edit that goes through. -/
theorem step_of_supersedes {op : CategoryOp} {id : ℕ} (h : op.Supersedes db id) :
    ∃ now cat fields, db.step op = db.supersede now id cat fields := by
  cases op with
  | updateCategory now categoryId patch =>
    obtain ⟨rfl, cat, hmay⟩ := h
    obtain ⟨d, hret⟩ := updateCategory_returns now hmay
    exact ⟨now, cat, patch, CategoryDb.step_of_returns hret⟩
  | deactivateCategory now categoryId =>
    obtain ⟨rfl, cat, hactive, hmay⟩ := h
    obtain ⟨d, hret⟩ := updateCategory_returns now hmay
    have hreturns := returns_deactivateCategory.mpr
      ⟨cat, hmay.found, Or.inr ⟨by simp [hactive], hret⟩⟩
    exact ⟨now, cat, _, CategoryDb.step_of_returns hreturns⟩
  | _ => exact h.elim

/-- An edit of a category supersedes it or changes nothing. -/
theorem step_of_editsCategory (db : CategoryDb) {op : CategoryOp}
    (hop : op.editsCategory = true) : (∃ id, op.Supersedes db id) ∨ db.step op = db := by
  rcases db.step_cases op with ⟨d, hret⟩ | ⟨_, hsame⟩
  · cases op with
    | updateCategory now categoryId patch =>
      obtain ⟨cat, hmay, _⟩ := returns_updateCategory hret
      exact Or.inl ⟨categoryId, rfl, cat, hmay⟩
    | deactivateCategory now categoryId =>
      obtain ⟨cat, hfound, ⟨_, _, hsame⟩ | ⟨hactive, hret⟩⟩ := returns_deactivateCategory.mp hret
      · exact Or.inr hsame.symm
      · obtain ⟨cat', hmay, _⟩ := returns_updateCategory hret
        obtain rfl := Option.some_inj.mp (hfound.symm.trans hmay.found)
        refine Or.inl ⟨categoryId, rfl, cat, ?_, hmay⟩
        cases hstatus : cat.status with
        | active => rfl
        | inactive => exact absurd hstatus hactive
    | _ => cases hop
  · exact Or.inr hsame

/-- Every part belongs to a category, along every run. -/
theorem CategoryDb.Inv.step (h : db.Inv) (op : CategoryOp) : (db.step op).Inv := by
  rcases db.step_cases op with ⟨d, hret⟩ | ⟨_, hsame⟩
  · cases op with
    | updateCategory now categoryId patch =>
      obtain ⟨cat, _, hstep⟩ := returns_updateCategory hret
      rw [hstep]
      exact inv_supersede h now categoryId cat patch
    | deactivateCategory now categoryId =>
      obtain ⟨_, _, ⟨_, _, hsame⟩ | ⟨_, hret⟩⟩ := returns_deactivateCategory.mp hret
      · rwa [← hsame]
      · obtain ⟨cat, _, hstep⟩ := returns_updateCategory hret
        rw [hstep]
        exact inv_supersede h now categoryId cat _
    | addComponent c payload => exact inv_addPart h rfl hret
    | updateComponent c p patch => exact inv_updatePart (fun _ => rfl) h hret
    | addInspectionPrompt c payload => exact inv_addPart h rfl hret
    | updateInspectionPrompt now c p patch =>
      exact inv_updateVersionedPart (fun _ => rfl) h hret
    | addRedFlagRule c payload => exact inv_addPart h rfl hret
    | updateRedFlagRule now c p patch => exact inv_updateVersionedPart (fun _ => rfl) h hret
    | addAttachment c payload => exact inv_addPart h rfl hret
    | updateAttachment c p patch => exact inv_updatePart (fun _ => rfl) h hret
    | addPhotoSlot c payload => exact inv_addPart h rfl hret
    | updatePhotoSlot c p patch => exact inv_updatePart (fun _ => rfl) h hret
  · rwa [hsame]

/-! ## The tree of a successor -/

/-- A table has no row of a category that does not exist yet. -/
theorem select_next_eq_nil {ρ : Type} {t : Store ρ} {categoryId : ρ → ℕ} {n : ℕ}
    {p : ℕ → ρ → Bool} (ht : ∀ k r, t.get? k = some r → categoryId r < n)
    (hp : ∀ k r, p k r = true → categoryId r = n) : t.select p = [] := by
  refine List.eq_nil_iff_forall_not_mem.mpr fun e he => ?_
  obtain ⟨hget, hsel⟩ := Store.mem_select.mp he
  have hlt := ht _ _ hget
  have heq := hp _ _ hsel
  omega

theorem liveTree_supersede (h : db.Inv) (now : ℤ) (id : ℕ) (cat : EquipmentCategory)
    (fields : CategoryPatch) :
    (db.supersede now id cat fields).liveTree db.categories.next = .empty := by
  have hparts : ∀ {κ : Type} {t : Store (Part κ)},
      (∀ k p, t.get? k = some p → p.categoryId < db.categories.next) →
      partsOf t db.categories.next = [] :=
    fun ht => select_next_eq_nil ht (by simp)
  have hcurrent : ∀ {κ : Type} {t : Store (VersionedPart κ)},
      (∀ k p, t.get? k = some p → p.categoryId < db.categories.next) →
      currentOf t db.categories.next = [] := by
    intro κ t ht
    have hnone : unreplacedOf t db.categories.next = [] := by
      refine select_next_eq_nil ht fun k p hp => ?_
      simp only [Bool.and_eq_true, decide_eq_true_eq] at hp
      exact hp.1
    rw [currentOf, hnone, List.filter_nil]
  simp only [CategoryDb.liveTree, CategoryDb.supersede, currentInspectionPrompts,
    currentRedFlagRules, hparts h.components, hparts h.photoSlots, hparts h.attachments,
    hcurrent h.inspectionPrompts, hcurrent h.redFlagRules]
  rfl

/-! ## When an edit keeps the tree -/

theorem CategoryOp.Supersedes.editsCategory {op : CategoryOp} {id : ℕ}
    (h : op.Supersedes db id) : op.editsCategory = true := by
  cases op with
  | updateCategory now categoryId patch => rfl
  | deactivateCategory now categoryId => rfl
  | _ => exact h.elim

/-- The version after the edit has no parts, so it keeps what the version before had
    when that had none. -/
theorem keepsTree_of_supersedes (h : db.Inv) {c : ℕ} {op : CategoryOp}
    (hop : op.Supersedes db (db.current c)) :
    KeepsTree c db op ↔ db.liveTree (db.current c) = .empty := by
  obtain ⟨now, cat, fields, hstep⟩ := step_of_supersedes hop
  have hcurrent : (db.step op).current c = db.categories.next := by
    rw [hstep]
    exact if_pos rfl
  have hempty : (db.step op).liveTree ((db.step op).current c) = .empty := by
    rw [hcurrent, hstep]
    exact liveTree_supersede h now _ cat fields
  rw [KeepsTree, hempty]
  exact ⟨fun hkeeps => (hkeeps hop.editsCategory).symm, fun hnone _ => hnone.symm⟩

/-- An edit that goes through elsewhere, or not at all, keeps the tree. -/
theorem keepsTree_of_not_supersedes {c : ℕ} {op : CategoryOp}
    (hop : ¬ op.Supersedes db (db.current c)) : KeepsTree c db op := by
  intro hedits
  rcases step_of_editsCategory db hedits with ⟨id, hsup⟩ | hsame
  · obtain ⟨now, cat, fields, hstep⟩ := step_of_supersedes hsup
    have hother : db.current c ≠ id := by
      rintro rfl
      exact hop hsup
    have hcurrent : (db.step op).current c = db.current c := by
      rw [hstep]
      exact if_neg hother
    rw [hcurrent, hstep]
    rfl
  · rw [hsame]

theorem keepsTree_iff (h : db.Inv) (c : ℕ) (op : CategoryOp) :
    KeepsTree c db op ↔ EmptyWhenEdited c db op := by
  by_cases hop : op.Supersedes db (db.current c)
  · rw [keepsTree_of_supersedes h hop]
    exact ⟨fun hnone _ => hnone, fun hnone => hnone hop⟩
  · exact iff_of_true (keepsTree_of_not_supersedes hop) fun h' => absurd h' hop

/-- **The edits of a category keep its live tree exactly when each finds it empty.** -/
theorem editing_keeps_tree_iff (h : db.Inv) (c : ℕ) (ops : List CategoryOp) :
    AllSteps CategoryDb.step (KeepsTree c) db ops ↔
      AllSteps CategoryDb.step (EmptyWhenEdited c) db ops :=
  allSteps_congr (fun (db : CategoryDb) op (hinv : db.Inv) => hinv.step op)
    (fun _ op hinv => keepsTree_iff hinv c op) h ops

/-! ## Two categories -/

/-- A category that was just created. -/
def newCategory (name slug : String) : EquipmentCategory where
  name := name
  slug := slug
  status := .active
  displayOrder := 0
  createdBy := some 0
  version := 1
  replacedAt := none
  deletedAt := none

/-- The tables with one category. -/
def oneCategory : CategoryDb where
  categories := Store.empty.create (newCategory "Dozers" "dozers")
  components := .empty
  inspectionPrompts := .empty
  attachments := .empty
  photoSlots := .empty
  redFlagRules := .empty
  current := id

theorem inv_oneCategory : oneCategory.Inv where
  components := by simp [oneCategory]
  inspectionPrompts := by simp [oneCategory]
  attachments := by simp [oneCategory]
  photoSlots := by simp [oneCategory]
  redFlagRules := by simp [oneCategory]

def rename (name : String) (categoryId : ℕ) : CategoryOp :=
  .updateCategory 0 categoryId { name := some (some name) }

/-- A rename before the first part. -/
theorem rename_bare_keeps_tree :
    AllSteps CategoryDb.step (KeepsTree 0) oneCategory
      [rename "Crawler dozers" 0, .addComponent 1 ⟨"Engine", 40, 0⟩] := by
  refine (editing_keeps_tree_iff inv_oneCategory 0 _).mpr ⟨fun _ => rfl, fun h => h.elim, trivial⟩

/-- A rename of a category with a component. -/
theorem rename_loses_component :
    ¬ AllSteps CategoryDb.step (KeepsTree 0) oneCategory
      [.addComponent 0 ⟨"Engine", 40, 0⟩, rename "Crawler dozers" 0] := by
  rintro ⟨_, hkeeps, _⟩
  have hcards := congrArg (fun t => t.components.card) (hkeeps rfl)
  revert hcards
  decide +kernel

end TempleConsign
