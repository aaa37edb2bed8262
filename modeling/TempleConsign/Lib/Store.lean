import Mathlib.Data.List.AList
import Mathlib.Tactic.SplitIfs

/-!
# Tables

A table of rows under generated keys. `create` gives a new row a key no row
ever had (`uuid4`), so a table carries the bound that makes its next key
fresh. Rows are read by key (`get?`) or by a condition (`select`), changed by
`modify` (`UPDATE … WHERE id = k`) or `modifyWhere` and removed by `delete`.
The order of `select` is unspecified, as in SQL without `ORDER BY`.

`scalarOneOrNone` is SQLAlchemy's: it raises when the query has two rows.

Results:
* `get?_create`, `get?_modify`, `get?_modifyWhere`, `get?_delete`: reading after
  writing.
* `scalar_select_some_iff`, `scalar_select_none_iff`, `scalar_select_ne_none_iff`:
  what `scalarOneOrNone` of a query answers.
* `inOrder_create`: a created row comes last in the order of creation.
* `pairwise_create_iff`, `pairwise_modify_iff`: what keeps a constraint between
  rows.
-/

namespace ServiceLib

/-- Rows under generated keys. -/
structure Store (ρ : Type) where
  rows : AList fun _ : ℕ => ρ
  next : ℕ
  fresh : ∀ k ∈ rows, k < next

namespace Store

variable {ρ : Type}

def empty : Store ρ := ⟨∅, 0, fun k h => absurd h (AList.notMem_empty k)⟩

/-- The row under key `k`. -/
def get? (t : Store ρ) (k : ℕ) : Option ρ := t.rows.lookup k

/-- `INSERT` under a new key. -/
def create (t : Store ρ) (r : ρ) : Store ρ where
  rows := t.rows.insert t.next r
  next := t.next + 1
  fresh := by
    intro k hk
    rcases (AList.mem_insert _).mp hk with rfl | hk
    · omega
    · have := t.fresh k hk; omega

/-- `UPDATE … WHERE id = k`. -/
def modify (t : Store ρ) (k : ℕ) (f : ρ → ρ) : Store ρ :=
  match h : t.rows.lookup k with
  | none => t
  | some r =>
    { rows := t.rows.insert k (f r)
      next := t.next
      fresh := by
        intro k' hk'
        rcases (AList.mem_insert _).mp hk' with rfl | hk'
        · exact t.fresh _ (AList.lookup_isSome.mp (by rw [h]; rfl))
        · exact t.fresh k' hk' }

/-- `DELETE … WHERE id = k`. -/
def delete (t : Store ρ) (k : ℕ) : Store ρ where
  rows := t.rows.erase k
  next := t.next
  fresh := fun k' hk' => t.fresh k' (AList.mem_erase.mp hk').2

/-- `DELETE … WHERE p`. -/
def deleteWhere (t : Store ρ) (p : ℕ → ρ → Bool) : Store ρ where
  rows := ⟨t.rows.entries.filter fun e => !p e.1 e.2,
    t.rows.nodupKeys.sublist List.filter_sublist⟩
  next := t.next
  fresh := by
    intro k hk
    refine t.fresh k ?_
    rw [AList.mem_keys, AList.keys] at hk ⊢
    exact (List.filter_sublist.map Sigma.fst).subset hk

/-- `SELECT … WHERE p`, with the keys of the rows. -/
def select (t : Store ρ) (p : ℕ → ρ → Bool) : List (ℕ × ρ) :=
  (t.rows.entries.map fun e => (e.1, e.2)).filter fun e => p e.1 e.2

/-- `UPDATE … WHERE p`. -/
def modifyWhere (t : Store ρ) (p : ℕ → ρ → Bool) (f : ρ → ρ) : Store ρ :=
  (t.select p).foldl (fun t e => t.modify e.1 f) t

/-- Only the row under `k` matters to an update of `k`. -/
theorem modify_congr {t : Store ρ} {k : ℕ} {f g : ρ → ρ}
    (h : ∀ r, t.get? k = some r → f r = g r) : t.modify k f = t.modify k g := by
  unfold modify
  split
  · rfl
  · next r hr => simp only [h r hr]

/-! ## Reading after writing -/

@[simp] theorem create_next (t : Store ρ) (r : ρ) : (t.create r).next = t.next + 1 := rfl

@[simp] theorem modify_next (t : Store ρ) (k : ℕ) (f : ρ → ρ) : (t.modify k f).next = t.next := by
  unfold modify
  split <;> rfl

theorem get?_lt {t : Store ρ} {k : ℕ} {r : ρ} (h : t.get? k = some r) : k < t.next :=
  t.fresh k (AList.lookup_isSome.mp (by unfold get? at h; rw [h]; rfl))

@[simp] theorem get?_empty (k : ℕ) : (empty : Store ρ).get? k = none := AList.lookup_empty k

theorem get?_next (t : Store ρ) : t.get? t.next = none := by
  cases h : t.get? t.next with
  | none => rfl
  | some r => exact absurd (get?_lt h) (lt_irrefl _)

theorem get?_create (t : Store ρ) (r : ρ) (k : ℕ) :
    (t.create r).get? k = if k = t.next then some r else t.get? k := by
  unfold get? create
  split_ifs with h
  · subst h; exact AList.lookup_insert _
  · exact AList.lookup_insert_ne h

@[simp] theorem get?_create_self (t : Store ρ) (r : ρ) : (t.create r).get? t.next = some r := by
  rw [get?_create]; simp

/-- The only row of a table with one row. -/
theorem get?_create_empty {a r : ρ} {k : ℕ} :
    ((empty : Store ρ).create a).get? k = some r ↔ k = 0 ∧ r = a := by
  have hnext : (empty : Store ρ).next = 0 := rfl
  rw [get?_create, hnext]
  split_ifs with hk
  · simp [hk, eq_comm]
  · simp [hk]

/-- A row that was there before a `create` is still there. -/
theorem get?_create_of_some {t : Store ρ} {r r' : ρ} {k : ℕ} (h : t.get? k = some r') :
    (t.create r).get? k = some r' := by
  have := get?_lt h
  rw [get?_create, if_neg (by omega), h]

theorem get?_modify (t : Store ρ) (k : ℕ) (f : ρ → ρ) (k' : ℕ) :
    (t.modify k f).get? k' = if k' = k then (t.get? k').map f else t.get? k' := by
  unfold get? modify
  split
  · next h =>
    split_ifs with hk
    · subst hk; rw [h]; rfl
    · rfl
  · next r h =>
    split_ifs with hk
    · subst hk; exact (AList.lookup_insert _).trans (by rw [h]; rfl)
    · exact AList.lookup_insert_ne hk

@[simp] theorem get?_modify_self (t : Store ρ) (k : ℕ) (f : ρ → ρ) :
    (t.modify k f).get? k = (t.get? k).map f := by
  rw [get?_modify]; simp

theorem get?_modify_ne (t : Store ρ) {k k' : ℕ} (f : ρ → ρ) (h : k' ≠ k) :
    (t.modify k f).get? k' = t.get? k' := by
  rw [get?_modify, if_neg h]

theorem get?_delete (t : Store ρ) (k k' : ℕ) :
    (t.delete k).get? k' = if k' = k then none else t.get? k' := by
  unfold get? delete
  split_ifs with h
  · subst h; exact AList.lookup_erase _ _
  · exact AList.lookup_erase_ne h

theorem get?_deleteWhere {t : Store ρ} {p : ℕ → ρ → Bool} {k : ℕ} {r : ρ} :
    (t.deleteWhere p).get? k = some r ↔ t.get? k = some r ∧ p k r = false := by
  have hl (t : Store ρ) : t.rows.lookup k = some r ↔
      (⟨k, r⟩ : Sigma fun _ : ℕ => ρ) ∈ t.rows.entries := AList.mem_lookup_iff
  unfold get?
  rw [hl, hl]
  simp only [deleteWhere, List.mem_filter, Bool.not_eq_true']

/-! ## Selecting -/

@[simp] theorem mem_select {t : Store ρ} {p : ℕ → ρ → Bool} {k : ℕ} {r : ρ} :
    (k, r) ∈ t.select p ↔ t.get? k = some r ∧ p k r = true := by
  have hl : t.rows.lookup k = some r ↔ (⟨k, r⟩ : Sigma fun _ : ℕ => ρ) ∈ t.rows.entries :=
    AList.mem_lookup_iff
  unfold select get?
  rw [hl, List.mem_filter, List.mem_map]
  constructor
  · rintro ⟨⟨⟨k', r'⟩, he, heq⟩, hp⟩
    cases heq
    exact ⟨he, hp⟩
  · rintro ⟨he, hp⟩
    exact ⟨⟨⟨k, r⟩, he, rfl⟩, hp⟩

/-- A second condition filters what the first one selects. -/
theorem select_and (t : Store ρ) (p q : ℕ → ρ → Bool) :
    t.select (fun k r => p k r && q k r) = (t.select p).filter fun e => q e.1 e.2 := by
  unfold select
  rw [List.filter_filter]
  congr 1
  funext e
  exact Bool.and_comm _ _

/-- A created row is selected first. -/
theorem select_create (t : Store ρ) (r : ρ) (p : ℕ → ρ → Bool) :
    (t.create r).select p =
      if p t.next r = true then (t.next, r) :: t.select p else t.select p := by
  have hnew : t.next ∉ t.rows := fun hmem => absurd (t.fresh _ hmem) (lt_irrefl _)
  rw [select, create, AList.entries_insert_of_notMem hnew, List.map_cons, List.filter_cons]
  rfl

theorem select_nodup (t : Store ρ) (p : ℕ → ρ → Bool) : ((t.select p).map Prod.fst).Nodup := by
  have h : (t.rows.entries.map Sigma.fst).Nodup := t.rows.nodupKeys
  have hm : (t.rows.entries.map fun e => (e.1, e.2)).map Prod.fst =
      t.rows.entries.map Sigma.fst := by
    rw [List.map_map]; rfl
  unfold select
  exact (hm ▸ h : ((t.rows.entries.map fun e => (e.1, e.2)).map Prod.fst).Nodup).sublist
    (List.filter_sublist.map _)

/-- Tables with the same rows answer a query with the same rows, in some order. -/
theorem select_perm {t t' : Store ρ} (h : ∀ k, t.get? k = t'.get? k) (p : ℕ → ρ → Bool) :
    (t.select p).Perm (t'.select p) := by
  have hnodup (t : Store ρ) : (t.select p).Nodup := (t.select_nodup p).of_map _
  rw [List.perm_ext_iff_of_nodup (hnodup t) (hnodup t')]
  rintro ⟨k, r⟩
  rw [mem_select, mem_select, h]

theorem get?_foldl_modify (f : ρ → ρ) {l : List (ℕ × ρ)} (hnd : (l.map Prod.fst).Nodup)
    (t : Store ρ) (k : ℕ) :
    (l.foldl (fun t e => t.modify e.1 f) t).get? k =
      if k ∈ l.map Prod.fst then (t.get? k).map f else t.get? k := by
  induction l generalizing t with
  | nil => rfl
  | cons e l ih =>
    rw [List.map_cons, List.nodup_cons] at hnd
    rw [List.foldl_cons, ih hnd.2, get?_modify, List.map_cons]
    by_cases hk : k = e.1
    · subst hk
      rw [if_neg hnd.1, if_pos rfl, if_pos List.mem_cons_self]
    · simp only [hk, if_false, List.mem_cons, false_or]

theorem get?_modifyWhere (t : Store ρ) (p : ℕ → ρ → Bool) (f : ρ → ρ) (k : ℕ) :
    (t.modifyWhere p f).get? k = (t.get? k).map fun r => if p k r then f r else r := by
  unfold modifyWhere
  rw [get?_foldl_modify f (select_nodup t p)]
  cases hr : t.get? k with
  | none => split_ifs <;> rfl
  | some r =>
    have hmem : k ∈ (t.select p).map Prod.fst ↔ p k r = true := by
      rw [List.mem_map]
      constructor
      · rintro ⟨⟨k', r'⟩, he, rfl⟩
        obtain ⟨hg, hp⟩ := mem_select.mp he
        rw [hr] at hg
        cases hg
        exact hp
      · exact fun hp => ⟨(k, r), mem_select.mpr ⟨hr, hp⟩, rfl⟩
    by_cases hp : p k r = true
    · simp [hmem, hp]
    · simp [hmem, hp]

/-- `SELECT EXISTS (… WHERE p)`. -/
def exists? (t : Store ρ) (p : ℕ → ρ → Bool) : Bool := (t.select p).isEmpty = false

@[simp] theorem exists?_iff {t : Store ρ} {p : ℕ → ρ → Bool} :
    t.exists? p = true ↔ ∃ k r, t.get? k = some r ∧ p k r = true := by
  unfold exists?
  rw [decide_eq_true_iff, ← Bool.not_eq_true, List.isEmpty_iff, ← ne_eq,
    List.ne_nil_iff_exists_cons]
  constructor
  · rintro ⟨⟨k, r⟩, l, h⟩
    exact ⟨k, r, mem_select.mp (h ▸ List.mem_cons_self)⟩
  · rintro ⟨k, r, h⟩
    cases hl : t.select p with
    | nil => have := mem_select.mpr h; rw [hl] at this; cases this
    | cons a l => exact ⟨a, l, rfl⟩

/-- `SELECT … WHERE p` in the order the rows were created; the keys count up. -/
def inOrder (t : Store ρ) (p : ρ → Bool) : List ρ := ((List.range t.next).filterMap t.get?).filter p

@[simp] theorem inOrder_empty (p : ρ → Bool) : (empty : Store ρ).inOrder p = [] := rfl

@[simp] theorem mem_inOrder {t : Store ρ} {p : ρ → Bool} {r : ρ} :
    r ∈ t.inOrder p ↔ (∃ k, t.get? k = some r) ∧ p r = true := by
  simp only [inOrder, List.mem_filter, List.mem_filterMap, List.mem_range]
  refine and_congr_left fun _ => exists_congr fun k => ?_
  exact ⟨fun h => h.2, fun h => ⟨get?_lt h, h⟩⟩

/-- A created row comes last. -/
theorem inOrder_create (t : Store ρ) (r : ρ) (p : ρ → Bool) :
    (t.create r).inOrder p = t.inOrder p ++ if p r then [r] else [] := by
  have hold : (List.range t.next).filterMap (t.create r).get? =
      (List.range t.next).filterMap t.get? := by
    refine List.filterMap_congr fun k hk => ?_
    have hlt := List.mem_range.mp hk
    rw [get?_create, if_neg (by omega)]
  unfold inOrder
  rw [create_next, List.range_succ, List.filterMap_append, hold, List.filter_append]
  simp [List.filter_cons]

/-- SQLAlchemy's `scalar_one_or_none`: `none` stands for the exception it
    raises when the result has more than one row. -/
def scalarOneOrNone {α : Type} : List α → Option (Option α)
  | [] => some none
  | [a] => some (some a)
  | _ :: _ :: _ => none

/-- The result is the one row that satisfies the condition. -/
theorem scalar_select_some_iff {t : Store ρ} {p : ℕ → ρ → Bool} {k : ℕ} {r : ρ} :
    scalarOneOrNone (t.select p) = some (some (k, r)) ↔
      (t.get? k = some r ∧ p k r = true) ∧
        ∀ k' r', t.get? k' = some r' → p k' r' = true → k' = k := by
  have hnd := select_nodup t p
  constructor
  · intro h
    match hs : t.select p with
    | [] => rw [hs] at h; cases h
    | [a] =>
      rw [hs] at h; cases h
      refine ⟨mem_select.mp (hs ▸ List.mem_cons_self), fun k' r' h1 h2 => ?_⟩
      have : (k', r') ∈ t.select p := mem_select.mpr ⟨h1, h2⟩
      rw [hs, List.mem_singleton] at this
      exact congrArg Prod.fst this
    | _ :: _ :: _ => rw [hs] at h; cases h
  · rintro ⟨hk, huniq⟩
    have hmem : (k, r) ∈ t.select p := mem_select.mpr hk
    match hs : t.select p with
    | [] => rw [hs] at hmem; cases hmem
    | [a] => rw [hs, List.mem_singleton] at hmem; rw [hmem]; rfl
    | (k1, r1) :: (k2, r2) :: l =>
      have h1 := mem_select.mp (show (k1, r1) ∈ t.select p by rw [hs]; simp)
      have h2 := mem_select.mp (show (k2, r2) ∈ t.select p by rw [hs]; simp)
      have e1 := huniq k1 r1 h1.1 h1.2
      have e2 := huniq k2 r2 h2.1 h2.2
      rw [hs] at hnd
      simp [e1, e2] at hnd

/-- One row satisfies the condition. -/
theorem select_eq_singleton {t : Store ρ} {p : ℕ → ρ → Bool} {k : ℕ} {r : ρ}
    (hk : t.get? k = some r ∧ p k r = true)
    (honly : ∀ k' r', t.get? k' = some r' → p k' r' = true → k' = k) : t.select p = [(k, r)] := by
  have h := scalar_select_some_iff.mpr ⟨hk, honly⟩
  match hs : t.select p with
  | [] => rw [hs] at h; cases h
  | [a] => rw [hs] at h; cases h; rfl
  | _ :: _ :: _ => rw [hs] at h; cases h

/-- The result is empty when no row satisfies the condition. -/
theorem scalar_select_none_iff {t : Store ρ} {p : ℕ → ρ → Bool} :
    scalarOneOrNone (t.select p) = some none ↔
      ∀ k r, t.get? k = some r → p k r = false := by
  constructor
  · intro h k r hk
    match hs : t.select p with
    | [] =>
      cases hp : p k r with
      | false => rfl
      | true => have := mem_select.mpr ⟨hk, hp⟩; rw [hs] at this; cases this
    | [a] => rw [hs] at h; cases h
    | _ :: _ :: _ => rw [hs] at h; cases h
  · intro h
    match hs : t.select p with
    | [] => rfl
    | (k, r) :: l =>
      have hm := mem_select.mp (show (k, r) ∈ t.select p by rw [hs]; simp)
      rw [h k r hm.1] at hm
      exact absurd hm.2 (by simp)

/-- The query raises exactly when two rows satisfy the condition. -/
theorem scalar_select_ne_none_iff {t : Store ρ} {p : ℕ → ρ → Bool} :
    scalarOneOrNone (t.select p) ≠ none ↔
      ∀ k k' r r', t.get? k = some r → p k r = true → t.get? k' = some r' → p k' r' = true →
        k = k' := by
  constructor
  · intro h k k' r r' hk hp hk' hp'
    cases hs : scalarOneOrNone (t.select p) with
    | none => exact absurd hs h
    | some o =>
      cases o with
      | none => rw [scalar_select_none_iff.mp hs k r hk] at hp; cases hp
      | some a =>
        have := (scalar_select_some_iff.mp hs).2
        rw [this k r hk hp, this k' r' hk' hp']
  · intro h
    by_cases he : ∃ k r, t.get? k = some r ∧ p k r = true
    · obtain ⟨k, r, hk, hp⟩ := he
      rw [scalar_select_some_iff.mpr ⟨⟨hk, hp⟩, fun k' r' hk' hp' => h k' k r' r hk' hp' hk hp⟩]
      exact Option.some_ne_none _
    · rw [scalar_select_none_iff.mpr fun k r hk => by
        cases hp : p k r with
        | false => rfl
        | true => exact absurd ⟨k, r, hk, hp⟩ he]
      exact Option.some_ne_none _

theorem scalarOneOrNone_ne_none_iff {α : Type} {l : List α} :
    scalarOneOrNone l ≠ none ↔ l.length ≤ 1 := by
  match l with
  | [] => simp [scalarOneOrNone]
  | [a] => simp [scalarOneOrNone]
  | a :: b :: l => simp [scalarOneOrNone]

/-! ## Views of a table -/

variable {ρ' : Type}

/-- Every row read through `f`. -/
def map (f : ρ → ρ') (t : Store ρ) : Store ρ' where
  rows := ⟨t.rows.entries.map fun e => ⟨e.1, f e.2⟩, by
    have hkeys : (t.rows.entries.map fun e => (⟨e.1, f e.2⟩ : Sigma fun _ : ℕ => ρ')).keys =
        t.rows.entries.keys := by simp [List.keys, Function.comp_def]
    rw [List.NodupKeys, hkeys]
    exact t.rows.nodupKeys⟩
  next := t.next
  fresh := by
    intro k hk
    refine t.fresh k ?_
    rw [AList.mem_keys, AList.keys] at hk ⊢
    simpa [List.keys, Function.comp_def] using hk

theorem get?_map (f : ρ → ρ') (t : Store ρ) (k : ℕ) : (t.map f).get? k = (t.get? k).map f := by
  unfold get? map AList.lookup
  dsimp only
  exact List.dlookup_map₂ (γ := fun _ => ρ) (δ := fun _ => ρ') (f := fun _ => f) k
/-! ## Constraints between rows

A constraint between any two rows of a table, such as a unique index or a
booking rule. -/

/-- Any two rows are related by `R`. -/
def Pairwise (R : ρ → ρ → Prop) (t : Store ρ) : Prop :=
  ∀ i j a b, i ≠ j → t.get? i = some a → t.get? j = some b → R a b

variable {R : ρ → ρ → Prop}

theorem pairwise_empty : (empty : Store ρ).Pairwise R := by
  intro i j a b _ h
  rw [get?_empty] at h
  cases h

/-- A table with one row meets every constraint between rows. -/
theorem pairwise_create_empty (a : ρ) : ((empty : Store ρ).create a).Pairwise R := by
  intro i j b c hij hb hc
  exact absurd ((get?_create_empty.mp hb).1.trans (get?_create_empty.mp hc).1.symm) hij

/-- Removing rows keeps every constraint. -/
theorem Pairwise.of_subset {t t' : Store ρ} (h : t.Pairwise R)
    (hsub : ∀ k r, t'.get? k = some r → t.get? k = some r) : t'.Pairwise R :=
  fun i j a b hij ha hb => h i j a b hij (hsub i a ha) (hsub j b hb)

theorem Pairwise.delete {t : Store ρ} (h : t.Pairwise R) (k : ℕ) : (t.delete k).Pairwise R := by
  refine h.of_subset fun j r hj => ?_
  rw [get?_delete] at hj
  split_ifs at hj
  exact hj

/-- Writing row `k` keeps a symmetric constraint exactly when the new row meets
    it against every other row. -/
theorem Pairwise.put_iff (hs : ∀ a b, R a b → R b a) {t t' : Store ρ} {k : ℕ} {a : ρ}
    (hput : ∀ j, t'.get? j = if j = k then some a else t.get? j) (h : t.Pairwise R) :
    t'.Pairwise R ↔ ∀ j b, j ≠ k → t.get? j = some b → R a b := by
  constructor
  · intro h' j b hj hb
    exact h' k j a b (Ne.symm hj) (by rw [hput, if_pos rfl]) (by rw [hput, if_neg hj, hb])
  · intro hk i j b c hij hb hc
    rw [hput] at hb hc
    split_ifs at hb hc with hi hj hj
    · exact absurd (hi.trans hj.symm) hij
    · cases hb; exact hk j c hj hc
    · cases hc; exact hs _ _ (hk i b hi hb)
    · exact h i j b c hij hb hc

theorem pairwise_create_iff (hs : ∀ a b, R a b → R b a) {t : Store ρ} {a : ρ}
    (h : t.Pairwise R) :
    (t.create a).Pairwise R ↔ ∀ j b, t.get? j = some b → R a b := by
  rw [h.put_iff hs fun j => get?_create t a j]
  constructor
  · intro hk j b hb
    have := get?_lt hb
    exact hk j b (by omega) hb
  · exact fun hk j b _ hb => hk j b hb

theorem pairwise_create_two (hs : ∀ a b, R a b → R b a) {a b : ρ} (h : R b a) :
    (((empty : Store ρ).create a).create b).Pairwise R := by
  refine (pairwise_create_iff hs (pairwise_create_empty a)).mpr fun j c hc => ?_
  rw [(get?_create_empty.mp hc).2]
  exact h

theorem pairwise_modify_iff (hs : ∀ a b, R a b → R b a) {t : Store ρ} {k : ℕ} {a : ρ}
    {f : ρ → ρ} (ha : t.get? k = some a) (h : t.Pairwise R) :
    (t.modify k f).Pairwise R ↔ ∀ j b, j ≠ k → t.get? j = some b → R (f a) b := by
  refine h.put_iff hs fun j => ?_
  rw [get?_modify]
  split_ifs with hj
  · rw [hj, ha]; rfl
  · rfl

/-- An update that only weakens what the constraint asks of the row. -/
theorem Pairwise.modify (hs : ∀ a b, R a b → R b a) {t : Store ρ} {k : ℕ} {f : ρ → ρ}
    (hf : ∀ a b, t.get? k = some a → R a b → R (f a) b) (h : t.Pairwise R) :
    (t.modify k f).Pairwise R := by
  cases ha : t.get? k with
  | none =>
    intro i j a b hij hi hj
    rw [get?_modify] at hi hj
    split_ifs at hi hj with hik hjk hjk
    · exact absurd (hik.trans hjk.symm) hij
    · rw [hik, ha] at hi; cases hi
    · rw [hjk, ha] at hj; cases hj
    · exact h i j a b hij hi hj
  | some a =>
    rw [pairwise_modify_iff hs ha h]
    exact fun j b hj hb => hf a b ha (h k j a b (Ne.symm hj) ha hb)

end Store

end ServiceLib
