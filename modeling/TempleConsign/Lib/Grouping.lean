import Mathlib.Algebra.BigOperators.Group.List.Basic
import Mathlib.Algebra.Order.Field.Rat
import Mathlib.Data.List.Dedup

/-!
# Grouping rows by a key

`GROUP BY` with sums and averages: a key that occurs has one group, the rows that
carry it. A sum over the groups of some keys is the sum over the rows with one of
these keys.

Results:
* `mem_groups`: which groups there are.
* `sum_groups`: sums over groups are sums over rows.
* `mem_iff_of_avg_eq`: which rows an average is taken over, from its values.
-/

namespace GroupLib

variable {α κ : Type*} [DecidableEq κ] {key : α → κ} {rows : List α}

/-- The rows of a key. -/
def groupOf (key : α → κ) (rows : List α) (k : κ) : List α := rows.filter fun x => key x = k

/-- The groups of all keys that occur. -/
def groups (key : α → κ) (rows : List α) : List (κ × List α) :=
  (rows.map key).dedup.map fun k => (k, groupOf key rows k)

theorem mem_groups {k : κ} {group : List α} :
    (k, group) ∈ groups key rows ↔ group = groupOf key rows k ∧ ∃ x ∈ rows, key x = k := by
  simp only [groups, List.mem_map, List.mem_dedup, Prod.mk.injEq]
  constructor
  · rintro ⟨k', hk', rfl, rfl⟩
    exact ⟨rfl, hk'⟩
  · rintro ⟨rfl, hk⟩
    exact ⟨k, hk, rfl, rfl⟩

/-- Every row of a key is in the key's group. -/
theorem exists_group {k : κ} (h : groupOf key rows k ≠ []) :
    (k, groupOf key rows k) ∈ groups key rows := by
  obtain ⟨x, hx⟩ := List.exists_mem_of_ne_nil _ h
  obtain ⟨hmem, hkey⟩ := List.mem_filter.mp hx
  exact mem_groups.mpr ⟨rfl, x, hmem, of_decide_eq_true hkey⟩

/-! ## Sums -/

section Sum

variable {M : Type*} [AddCommMonoid M]

/-- The share of one row in the sums of the keys `ks`. -/
theorem sum_share (k₀ : κ) (m : M) {ks : List κ} (hnd : ks.Nodup) :
    (ks.map fun k => if k₀ = k then m else 0).sum = if k₀ ∈ ks then m else 0 := by
  rw [List.sum_map_eq_nsmul_single k₀ _ fun k hne _ => if_neg fun h => hne h.symm, if_pos rfl]
  split_ifs with hmem
  · rw [List.count_eq_one_of_mem hnd hmem, one_nsmul]
  · rw [List.count_eq_zero_of_not_mem hmem, zero_nsmul]

/-- The sum over the rows with one of the keys `ks`, key by key. -/
theorem sum_groupOf (m : α → M) (rows : List α) {ks : List κ} (hnd : ks.Nodup) :
    (ks.map fun k => ((groupOf key rows k).map m).sum).sum =
      ((rows.filter fun x => key x ∈ ks).map m).sum := by
  induction rows with
  | nil => simp [groupOf]
  | cons x rows ih =>
    have hgroup : ∀ k, ((groupOf key (x :: rows) k).map m).sum =
        (if key x = k then m x else 0) + ((groupOf key rows k).map m).sum := by
      intro k
      by_cases hk : key x = k
      · simp [groupOf, hk]
      · simp [groupOf, hk]
    simp only [hgroup]
    rw [List.sum_map_add, ih, sum_share _ _ hnd]
    by_cases hmem : key x ∈ ks
    · simp [hmem]
    · simp [hmem]

/-- A sum over the groups of some keys. -/
theorem sum_groups (m : α → M) (p : κ → Bool) :
    (((groups key rows).filter fun g => p g.1).map fun g => (g.2.map m).sum).sum =
      ((rows.filter fun x => p (key x)).map m).sum := by
  have hkeys : (groups key rows).filter (fun g => p g.1) =
      ((rows.map key).dedup.filter p).map fun k => (k, groupOf key rows k) := by
    rw [groups, List.filter_map]
    rfl
  rw [hkeys, List.map_map]
  refine (sum_groupOf m rows ((List.nodup_dedup _).filter p)).trans ?_
  congr 2
  refine List.filter_congr fun x hx => ?_
  have hmem : key x ∈ (rows.map key).dedup := List.mem_dedup.mpr (List.mem_map_of_mem hx)
  simp [List.mem_filter, hmem]

omit [DecidableEq κ] in
/-- The sum over rows of two kinds. -/
theorem sum_filter_or (m : α → M) (rows : List α) {p q : α → Bool}
    (h : ∀ x ∈ rows, ¬ (p x = true ∧ q x = true)) :
    ((rows.filter fun x => p x || q x).map m).sum =
      ((rows.filter p).map m).sum + ((rows.filter q).map m).sum := by
  induction rows with
  | nil => simp
  | cons x rows ih =>
    obtain ⟨hx, hrows⟩ := List.forall_mem_cons.mp h
    have hrest := ih hrows
    by_cases hp : p x = true
    · have hq : q x = false := Bool.eq_false_iff.mpr fun hq => hx ⟨hp, hq⟩
      simp [hp, hq, hrest, add_assoc]
    · by_cases hq : q x = true
      · simp [hp, hq, hrest, add_left_comm]
      · simp [hp, hq, hrest]

end Sum

/-! ## Averages -/

/-- `avg`: null over no rows. -/
def avg (values : List ℚ) : Option ℚ :=
  if values = [] then none else some (values.sum / values.length)

theorem avg_eq_none_iff {values : List ℚ} : avg values = none ↔ values = [] := by
  unfold avg
  split_ifs with h
  · simp [h]
  · simp [h]

/-- With a value at `x` alone, an average is null unless `x` is among its rows. -/
theorem mem_iff_of_avg_eq [DecidableEq α] {l l' : List α} {x : α} {q : ℚ}
    (h : avg (l.filterMap fun y => if y = x then some q else none) =
      avg (l'.filterMap fun y => if y = x then some q else none)) : x ∈ l ↔ x ∈ l' := by
  have hnone : ∀ l : List α,
      avg (l.filterMap fun y => if y = x then some q else none) = none ↔ x ∉ l := by
    intro l
    rw [avg_eq_none_iff, List.filterMap_eq_nil_iff]
    constructor
    · intro hall hx
      have := hall x hx
      simp at this
    · intro hx y hy
      exact if_neg fun heq : y = x => hx (heq ▸ hy)
  rw [← not_iff_not, ← hnone, ← hnone, h]

end GroupLib
