import Mathlib.Data.List.Basic

/-!
# Logs that keep their entries

A log that is only appended to, or whose entries change in an allowed way: every entry of the
old log is still at its place, as `R` allows.

Results:
* `Grown.refl`, `Grown.trans`: along a run.
* `grown_append`, `grown_map`: by an append, and by a change of every entry.
* `grown_foldl`: by any number of steps.
-/

namespace ServiceLib

variable {α : Type} {R S T : α → α → Prop} {l l' l'' : List α}

/-- Every entry is at its place, changed as `R` says. -/
def Grown (R : α → α → Prop) (l l' : List α) : Prop :=
  ∀ (i : ℕ) a, l[i]? = some a → ∃ b, l'[i]? = some b ∧ R a b

theorem Grown.refl (hR : ∀ a, R a a) (l : List α) : Grown R l l := fun _ a ha => ⟨a, ha, hR a⟩

theorem Grown.mono (hRS : ∀ a b, R a b → S a b) (h : Grown R l l') : Grown S l l' := by
  intro i a ha
  obtain ⟨b, hb, hab⟩ := h i a ha
  exact ⟨b, hb, hRS a b hab⟩

theorem Grown.trans (hRST : ∀ a b c, R a b → S b c → T a c) (h : Grown R l l')
    (h' : Grown S l' l'') : Grown T l l'' := by
  intro i a ha
  obtain ⟨b, hb, hab⟩ := h i a ha
  obtain ⟨c, hc, hbc⟩ := h' i b hb
  exact ⟨c, hc, hRST a b c hab hbc⟩

theorem grown_append (hR : ∀ a, R a a) (l l' : List α) : Grown R l (l ++ l') := by
  intro i a ha
  refine ⟨a, ?_, hR a⟩
  rw [List.getElem?_append_left (List.getElem?_eq_some_iff.mp ha).1]
  exact ha

theorem grown_map {f : α → α} (hf : ∀ a ∈ l, R a (f a)) : Grown R l (l.map f) := by
  intro i a ha
  refine ⟨f a, ?_, hf a (List.mem_of_getElem? ha)⟩
  rw [List.getElem?_map, ha]
  rfl

/-- By steps that each keep the entries. -/
theorem grown_foldl {ω : Type} {f : List α → ω → List α} {ops : List ω} (hR : ∀ a, R a a)
    (htrans : ∀ a b c, R a b → R b c → R a c) (hf : ∀ o ∈ ops, ∀ l, Grown R l (f l o))
    (l : List α) : Grown R l (ops.foldl f l) := by
  induction ops generalizing l with
  | nil => exact Grown.refl hR l
  | cons o ops ih =>
    have hfirst : Grown R l (f l o) := hf o List.mem_cons_self l
    have hrest : Grown R (f l o) (ops.foldl f (f l o)) :=
      ih (fun o' ho' => hf o' (List.mem_cons_of_mem o ho')) (f l o)
    exact hfirst.trans htrans hrest

end ServiceLib
