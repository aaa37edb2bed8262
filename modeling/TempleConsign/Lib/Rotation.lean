import Mathlib.Data.Int.CardIntervalMod
import Mathlib.Data.List.Nodup

/-!
# Rotations

Consecutive numbers modulo `n` go round the positions `0, …, n - 1`.

Results:
* `position_succ`: no position is skipped.
* `count_position_fair`: of `k` consecutive numbers every position gets `k / n`, rounded
  down or up.
-/

namespace ServiceLib

/-- The position of a number in a rotation of length `n`. -/
def position (n : ℕ) (i : ℤ) : ℕ := (i % n).toNat

/-- `m` consecutive numbers from `c` on. -/
def consecutive (c : ℤ) (m : ℕ) : List ℤ := (List.range m).map fun (t : ℕ) => c + t

variable {n : ℕ}

theorem natCast_position (hn : 0 < n) (i : ℤ) : (position n i : ℤ) = i % n :=
  Int.toNat_of_nonneg (Int.emod_nonneg i (Int.natCast_pos.mpr hn).ne')

/-- The next number has the next position. -/
theorem position_succ (hn : 0 < n) (i : ℤ) : position n (i + 1) = (position n i + 1) % n := by
  have h : ((position n (i + 1) : ℕ) : ℤ) = (((position n i + 1) % n : ℕ) : ℤ) := by
    rw [natCast_position hn, Int.natCast_mod, Nat.cast_add, natCast_position hn, Nat.cast_one,
      Int.emod_add_emod]
  exact_mod_cast h

theorem consecutive_succ (c : ℤ) (m : ℕ) : consecutive c (m + 1) = consecutive c m ++ [c + m] := by
  unfold consecutive
  rw [List.range_succ, List.map_append, List.map_singleton]

theorem consecutive_nodup (c : ℤ) (m : ℕ) : (consecutive c m).Nodup := by
  apply List.nodup_range.map
  intro s t h
  simp only at h
  omega

theorem getElem?_consecutive {c : ℤ} {m i : ℕ} (h : i < m) :
    (consecutive c m)[i]? = some (c + i) := by
  simp [consecutive, h]

/-- A window of consecutive numbers. -/
theorem window_consecutive (c : ℤ) {m i k : ℕ} (h : i + k ≤ m) :
    ((consecutive c m).drop i).take k = consecutive (c + i) k := by
  apply List.ext_getElem?
  intro j
  rw [List.getElem?_take, List.getElem?_drop]
  by_cases hj : j < k
  · rw [if_pos hj, getElem?_consecutive (by omega), getElem?_consecutive hj]
    push_cast
    rw [add_assoc]
  · rw [if_neg hj]
    symm
    apply List.getElem?_eq_none
    simp only [consecutive, List.length_map, List.length_range]
    omega

/-- A number has position `p` when it is `p` modulo `n`. -/
theorem position_eq_iff (hn : 0 < n) {i : ℤ} {p : ℕ} (hp : p < n) :
    position n i = p ↔ i ≡ p [ZMOD n] := by
  have hself : (p : ℤ) % n = p := Int.emod_eq_of_lt (Int.natCast_nonneg p) (by omega)
  unfold Int.ModEq
  rw [hself, ← natCast_position hn, Nat.cast_inj]

/-- The numbers with position `p` among `k` consecutive ones. -/
theorem count_position (hn : 0 < n) (c : ℤ) (k : ℕ) {p : ℕ} (hp : p < n) :
    (consecutive c k).countP (fun i => position n i = p) =
      k / n + if position n (p - c) % n < k % n then 1 else 0 := by
  have hiff : ∀ t : ℕ, position n (c + t) = p ↔ t ≡ position n (p - c) [MOD n] := by
    intro t
    have hsub : c + (t : ℤ) ≡ p [ZMOD n] ↔ (t : ℤ) ≡ p - c [ZMOD n] := by
      constructor
      · intro h
        have h' := h.sub_right c
        rwa [add_sub_cancel_left] at h'
      · intro h
        have h' := h.add_left c
        rwa [add_sub_cancel] at h'
    have hpos : (position n (p - c) : ℤ) ≡ p - c [ZMOD n] := by
      rw [natCast_position hn]
      exact Int.mod_modEq _ _
    rw [position_eq_iff hn hp, hsub, ← Int.natCast_modEq_iff]
    exact ⟨fun h => h.trans hpos.symm, fun h => h.trans hpos⟩
  rw [← Nat.count_modEq_card k hn, consecutive, List.countP_map]
  unfold Nat.count
  congr 1
  funext t
  exact decide_eq_decide.mpr (hiff t)

/-- Of `k` consecutive numbers every position gets `k / n`, rounded down or up. -/
theorem count_position_fair (hn : 0 < n) (c : ℤ) (k : ℕ) {p : ℕ} (hp : p < n) :
    (consecutive c k).countP (fun i => position n i = p) = k / n ∨
      (consecutive c k).countP (fun i => position n i = p) = (k + n - 1) / n := by
  rw [count_position hn c k hp]
  split_ifs with h
  · right
    have hup : (k + n - 1) / n = k / n + 1 := by
      have hk := Nat.div_add_mod k n
      rw [show k + n - 1 = (k % n - 1) + n * (k / n + 1) by rw [mul_add]; omega,
        Nat.add_mul_div_left _ _ hn, Nat.div_eq_of_lt (by have := Nat.mod_lt k hn; omega), zero_add]
    rw [hup]
  · left
    rw [add_zero]

end ServiceLib
