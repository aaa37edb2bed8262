import Mathlib.Data.List.Count
import Mathlib.Data.List.Perm.Basic
import Mathlib.Logic.Function.Iterate

/-!
# A register with absolute and relative updates

A list of elements updates a register one after the other: an element sets it to a value,
or changes it by a fixed function, or leaves it.

Results:
* `final_of_none`, `final_of_last`: the register after a list in closed form.
* `perm_invariant_iff`: when no order of the list shows in the register.
-/

namespace RegisterLib

variable {α σ τ : Type*} {set : α → Option σ} {change : α → Bool} {g : σ → σ}

/-- What an element does to the register. -/
def update (set : α → Option σ) (change : α → Bool) (g : σ → σ) (s : σ) (a : α) : σ :=
  (set a).getD (if change a then g s else s)

/-- The register after a list. -/
def final (set : α → Option σ) (change : α → Bool) (g : σ → σ) (s : σ) (l : List α) : σ :=
  l.foldl (update set change g) s

/-- The element changes the register and does not set it. -/
def shifts (set : α → Option σ) (change : α → Bool) (a : α) : Bool := (set a).isNone && change a

variable {s v : σ} {a : α} {l l' pre post : List α} {obs : σ → τ}

theorem update_of_none (h : set a = none) :
    update set change g s a = if change a then g s else s := by
  simp [update, h]

theorem update_of_some (h : set a = some v) : update set change g s a = v := by simp [update, h]

theorem final_append : final set change g s (pre ++ post) =
    final set change g (final set change g s pre) post :=
  List.foldl_append

theorem final_cons : final set change g s (a :: l) =
    final set change g (update set change g s a) l := rfl

/-- Where nothing sets the register, it is changed once for every element that changes
    it. -/
theorem final_of_none (h : ∀ a ∈ l, set a = none) :
    final set change g s l = g^[l.countP change] s := by
  induction l generalizing s with
  | nil => rfl
  | cons a l ih =>
    have htail := ih (s := update set change g s a) fun b hb => h b (List.mem_cons_of_mem a hb)
    rw [final_cons, htail, update_of_none (h a List.mem_cons_self)]
    by_cases hchange : change a = true
    · rw [if_pos hchange, List.countP_cons_of_pos hchange, Function.iterate_succ_apply]
    · rw [if_neg hchange, List.countP_cons_of_neg hchange]

/-- What counts is the last element that sets it and the changes after. -/
theorem final_of_last (ha : set a = some v) (hpost : ∀ b ∈ post, set b = none) :
    final set change g s (pre ++ a :: post) = g^[post.countP change] v := by
  rw [final_append, final_cons, update_of_some ha, final_of_none hpost]

theorem exists_last (h : ∃ a ∈ l, set a ≠ none) :
    ∃ pre a post v, l = pre ++ a :: post ∧ set a = some v ∧ ∀ b ∈ post, set b = none := by
  induction l with
  | nil => simp at h
  | cons b l ih =>
    by_cases htail : ∃ a ∈ l, set a ≠ none
    · obtain ⟨pre, a, post, v, rfl, ha, hpost⟩ := ih htail
      exact ⟨b :: pre, a, post, v, rfl, ha, hpost⟩
    · push Not at htail
      obtain ⟨a, ha, hset⟩ := h
      rcases List.mem_cons.mp ha with rfl | ha
      · obtain ⟨v, hv⟩ := Option.ne_none_iff_exists'.mp hset
        exact ⟨[], a, l, v, rfl, hv, htail⟩
      · exact absurd (htail a ha) hset

/-! ## Orders -/

/-- Nothing sets the register, or what is observed of it is the same after any element that
    sets it and any number of the changes. -/
def OrderFree (set : α → Option σ) (change : α → Bool) (g : σ → σ) (obs : σ → τ)
    (l : List α) : Prop :=
  (∀ a ∈ l, set a = none) ∨
    ∃ t, ∀ a ∈ l, ∀ v, set a = some v → ∀ k ≤ l.countP (shifts set change), obs (g^[k] v) = t

theorem countP_of_none (h : ∀ a ∈ l, set a = none) :
    l.countP change = l.countP (shifts set change) := by
  apply List.countP_congr
  intro a ha
  simp [shifts, h a ha]

/-- An order in which `k` of the changes come after the element `a`. -/
theorem exists_perm_last (ha : a ∈ l) (hset : set a = some v) {k : ℕ}
    (hk : k ≤ l.countP (shifts set change)) :
    ∃ pre post, l.Perm (pre ++ a :: post) ∧ (∀ b ∈ post, set b = none) ∧
      post.countP change = k := by
  obtain ⟨p, q, rfl⟩ := List.append_of_mem ha
  have hshift : shifts set change a = false := by simp [shifts, hset]
  -- the changes, of which the first `k` go to the end
  generalize hmoved : (p ++ q).filter (shifts set change) = moved
  generalize hrest : (p ++ q).filter (fun b => !shifts set change b) = rest
  have hsplit : (moved ++ rest).Perm (p ++ q) := by
    rw [← hmoved, ← hrest]
    exact List.filter_append_perm _ _
  have hlength : k ≤ moved.length := by
    rw [← hmoved, ← List.countP_eq_length_filter]
    simpa [List.countP_append, hshift] using hk
  have hshifts : ∀ b ∈ moved, set b = none ∧ change b = true := by
    intro b hb
    rw [← hmoved] at hb
    simpa [shifts] using (List.mem_filter.mp hb).2
  refine ⟨moved.drop k ++ rest, moved.take k, ?_, fun b hb => ?_, ?_⟩
  · have hmove : (a :: (moved ++ rest)).Perm (moved.drop k ++ rest ++ a :: moved.take k) := by
      have heq : a :: (moved ++ rest) = (a :: moved.take k) ++ (moved.drop k ++ rest) := by
        rw [List.cons_append, ← List.append_assoc, List.take_append_drop]
      rw [heq]
      exact List.perm_append_comm
    exact List.perm_middle.trans ((hsplit.symm.cons a).trans hmove)
  · exact (hshifts b (List.mem_of_mem_take hb)).1
  · have hall : ∀ b ∈ moved.take k, change b = true := fun b hb =>
      (hshifts b (List.mem_of_mem_take hb)).2
    rw [List.countP_eq_length.mpr hall, List.length_take, Nat.min_eq_left hlength]

/-- The value that is observed is the same for every order exactly when no order shows. -/
theorem perm_invariant_iff :
    (∀ l', l.Perm l' → obs (final set change g s l') = obs (final set change g s l)) ↔
      OrderFree set change g obs l := by
  constructor
  · intro h
    refine or_iff_not_imp_left.mpr fun _ => ⟨obs (final set change g s l), ?_⟩
    intro a ha v hv k hk
    obtain ⟨pre, post, hperm, hpost, hcount⟩ := exists_perm_last ha hv hk
    rw [← h _ hperm, final_of_last hv hpost, hcount]
  · rintro (hnone | ⟨t, ht⟩) l' hperm
    · have hnone' : ∀ a ∈ l', set a = none := fun a ha => hnone a (hperm.mem_iff.mpr ha)
      rw [final_of_none hnone, final_of_none hnone', hperm.countP_eq]
    · by_cases hset : ∃ a ∈ l, set a ≠ none
      · have hobs : ∀ m, l.Perm m → obs (final set change g s m) = t := by
          intro m hm
          obtain ⟨a, ha, hsome⟩ := hset
          obtain ⟨pre, b, post, v, rfl, hv, hpost⟩ :=
            exists_last ⟨a, hm.mem_iff.mp ha, hsome⟩
          have hcount : post.countP change ≤ l.countP (shifts set change) := by
            rw [countP_of_none hpost, hm.countP_eq]
            exact (((List.suffix_cons b post).trans (List.suffix_append pre _)).sublist).countP_le
          rw [final_of_last hv hpost]
          exact ht b (hm.mem_iff.mpr (by simp)) v hv _ hcount
        rw [hobs l' hperm, hobs l (List.Perm.refl l)]
      · push Not at hset
        have hset' : ∀ a ∈ l', set a = none := fun a ha => hset a (hperm.mem_iff.mpr ha)
        rw [final_of_none hset, final_of_none hset', hperm.countP_eq]

end RegisterLib
