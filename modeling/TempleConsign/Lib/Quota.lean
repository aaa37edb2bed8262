import Mathlib.Algebra.Order.Group.Nat
import Mathlib.Data.List.Count
import Mathlib.Logic.Function.Basic
import Mathlib.Tactic.SplitIfs

/-!
# Quotas

Requests that count at a row, whether they are admitted or not, and are admitted while
the count of their row is below their limit.

Results:
* `admitted_sublist`: admission keeps the order.
* `countP_admitted`: how many requests of a row are admitted, in any run and whatever
  the other rows do.
-/

namespace ServiceLib

/-- The row a request counts at, and its limit. -/
structure Quota (α ρ : Type) where
  row : α → ρ
  limit : α → ℕ

variable {α ρ : Type} [DecidableEq ρ]

namespace Quota

/-- The counts after a request. -/
def count (q : Quota α ρ) (counts : ρ → ℕ) (a : α) : ρ → ℕ :=
  Function.update counts (q.row a) (counts (q.row a) + 1)

/-- The admitted requests of a run. -/
def admitted (q : Quota α ρ) : (ρ → ℕ) → List α → List α
  | _, [] => []
  | counts, a :: l =>
    if counts (q.row a) < q.limit a then a :: q.admitted (q.count counts a) l
    else q.admitted (q.count counts a) l

variable {q : Quota α ρ}

theorem admitted_sublist (counts : ρ → ℕ) (l : List α) : (q.admitted counts l).Sublist l := by
  induction l generalizing counts with
  | nil => exact List.Sublist.slnil
  | cons a l ih =>
    rw [admitted]
    split_ifs
    · exact (ih _).cons_cons a
    · exact (ih _).cons a

/-- The first requests of a row are admitted, up to the limit. -/
theorem countP_admitted {r : ρ} {n : ℕ} {l : List α} (h : ∀ a ∈ l, q.row a = r → q.limit a = n)
    (counts : ρ → ℕ) : (q.admitted counts l).countP (fun a => q.row a = r) =
      min (n - counts r) (l.countP fun a => q.row a = r) := by
  induction l generalizing counts with
  | nil => simp [admitted]
  | cons a l ih =>
    have hrest := ih (fun b hb => h b (List.mem_cons_of_mem a hb)) (q.count counts a)
    rw [admitted]
    by_cases hrow : q.row a = r
    · have hlimit := h a List.mem_cons_self hrow
      have hcount : q.count counts a r = counts r + 1 := by
        rw [count, hrow, Function.update_self]
      rw [hcount] at hrest
      rw [hrow, hlimit, List.countP_cons_of_pos (by simpa using hrow)]
      split_ifs with hlt
      · rw [List.countP_cons_of_pos (by simpa using hrow), hrest]
        omega
      · rw [hrest]
        omega
    · have hcount : q.count counts a r = counts r := Function.update_of_ne (Ne.symm hrow) _ _
      rw [hcount] at hrest
      rw [List.countP_cons_of_neg (by simpa using hrow)]
      split_ifs
      · rw [List.countP_cons_of_neg (by simpa using hrow), hrest]
      · exact hrest

end Quota

end ServiceLib
