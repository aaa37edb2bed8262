import Mathlib.Data.Finset.Card
import Mathlib.Data.List.Nodup
import Mathlib.Order.Interval.Finset.Nat

/-!
# Ranks

The rank of an element of a list is the number of elements with a smaller key. It is
what `ROW_NUMBER() OVER (ORDER BY key) - 1` gives where keys do not repeat.

Results:
* `rank_lt_rank_iff`: ranks are ordered as the keys.
* `rank_lt_length`: they are below the length.
* `exists_rank`: where keys do not repeat, every number below the length is a rank.
-/

namespace ServiceLib

variable {α κ : Type} [LinearOrder κ] {f : α → κ} {l : List α} {a b : α}

def rank (f : α → κ) (l : List α) (a : α) : ℕ := l.countP fun b => f b < f a

theorem rank_le_rank (h : f a ≤ f b) : rank f l a ≤ rank f l b := by
  apply List.countP_mono_left
  intro c _ hc
  exact decide_eq_true (lt_of_lt_of_le (of_decide_eq_true hc) h)

theorem rank_lt_rank (ha : a ∈ l) (h : f a < f b) : rank f l a < rank f l b := by
  obtain ⟨before, after, rfl⟩ := List.append_of_mem ha
  have hbefore : rank f before a ≤ rank f before b := rank_le_rank h.le
  have hafter : rank f after a ≤ rank f after b := rank_le_rank h.le
  have hsplit : ∀ c, rank f (before ++ a :: after) c =
      rank f before c + (rank f after c + if f a < f c then 1 else 0) := by
    intro c
    rw [rank, List.countP_append, List.countP_cons]
    simp [rank]
  rw [hsplit a, hsplit b, if_neg (lt_irrefl _), if_pos h]
  omega

/-- Ranks are ordered as the keys. -/
theorem rank_lt_rank_iff (ha : a ∈ l) : rank f l a < rank f l b ↔ f a < f b := by
  constructor
  · intro h
    by_contra hle
    have hback : rank f l b ≤ rank f l a := rank_le_rank (not_lt.mp hle)
    omega
  · exact rank_lt_rank ha

theorem rank_lt_length (ha : a ∈ l) : rank f l a < l.length := by
  apply lt_of_le_of_ne List.countP_le_length
  intro h
  have hself := List.countP_eq_length.mp h a ha
  exact lt_irrefl _ (of_decide_eq_true hself)

/-- Equal ranks have equal keys. -/
theorem key_of_rank (ha : a ∈ l) (hb : b ∈ l) (h : rank f l a = rank f l b) : f a = f b := by
  apply le_antisymm
  · by_contra hlt
    have hrank := rank_lt_rank hb (not_le.mp hlt)
    omega
  · by_contra hlt
    have hrank := rank_lt_rank ha (not_le.mp hlt)
    omega

/-- Every number below the length is a rank. -/
theorem exists_rank (hl : (l.map f).Nodup) {k : ℕ} (hk : k < l.length) :
    ∃ a ∈ l, rank f l a = k := by
  have hnodup : (l.map (rank f l)).Nodup := by
    refine List.Nodup.map_on ?_ (List.Nodup.of_map f hl)
    intro a ha b hb h
    exact List.inj_on_of_nodup_map hl ha hb (key_of_rank ha hb h)
  have hsubset : (l.map (rank f l)).toFinset ⊆ Finset.range l.length := by
    intro n hn
    obtain ⟨a, ha, rfl⟩ := List.mem_map.mp (List.mem_toFinset.mp hn)
    exact Finset.mem_range.mpr (rank_lt_length ha)
  have hcard : (Finset.range l.length).card ≤ (l.map (rank f l)).toFinset.card := by
    rw [List.toFinset_card_of_nodup hnodup, List.length_map, Finset.card_range]
  have heq := Finset.eq_of_subset_of_card_le hsubset hcard
  have hmem : k ∈ (l.map (rank f l)).toFinset := heq ▸ Finset.mem_range.mpr hk
  obtain ⟨a, ha, hrank⟩ := List.mem_map.mp (List.mem_toFinset.mp hmem)
  exact ⟨a, ha, hrank⟩

end ServiceLib
