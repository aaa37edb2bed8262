import Mathlib.Data.List.Induction

/-!
# Loops that may fail

A loop over a list is a `foldlM` in `Option`: a round gives the next state, or the whole
loop fails. An invariant of such a loop speaks about the part of the list that is done.

Results:
* `foldlM_induction`: what the rounds preserve holds when the loop has not failed.
* `foldlM_each`: every round of a loop that has not failed gave a state.
* `foldlM_returns`: a loop with an invariant under which no round fails does not fail.
* `foldlM_fixed`: a loop whose rounds all leave the state alone leaves it alone.
* `foldlM_collects`: a loop that adds one item a round has added them all.
* `foldlM_cons_eq_ok`: the first round of a loop that may raise.
* `mapM_returns`: a `mapM` none of whose items fails.
-/

namespace ServiceLib

variable {α β : Type} {f : β → α → Option β} {P : List α → β → Prop} {b b' : β} {l : List α}

theorem foldlM_append_one (f : β → α → Option β) (b : β) (l : List α) (a : α) :
    (l ++ [a]).foldlM f b = (l.foldlM f b).bind fun b₁ => f b₁ a := by
  rw [List.foldlM_append]
  refine congrArg (Option.bind _) (funext fun b₁ => ?_)
  simp

theorem foldlM_induction (hnil : P [] b)
    (hstep : ∀ done a b₁ b₂, P done b₁ → f b₁ a = some b₂ → P (done ++ [a]) b₂)
    (h : l.foldlM f b = some b') : P l b' := by
  induction l using List.reverseRecOn generalizing b' with
  | nil =>
    obtain rfl := Option.some.inj h
    exact hnil
  | append_singleton done a ih =>
    rw [foldlM_append_one, Option.bind_eq_some_iff] at h
    obtain ⟨b₁, hdone, hlast⟩ := h
    exact hstep done a b₁ b' (ih hdone) hlast

theorem foldlM_each (h : l.foldlM f b = some b') : ∀ a ∈ l, ∃ b₁ b₂, f b₁ a = some b₂ := by
  refine foldlM_induction (P := fun done _ => ∀ a ∈ done, ∃ b₁ b₂, f b₁ a = some b₂) ?_ ?_ h
  · exact fun a ha => absurd ha List.not_mem_nil
  · intro done a b₁ b₂ ih hone a' ha'
    rcases List.mem_append.mp ha' with ha' | ha'
    · exact ih a' ha'
    · rw [List.mem_singleton.mp ha']
      exact ⟨b₁, b₂, hone⟩

theorem foldlM_returns (hnil : P [] b)
    (hstep : ∀ done a b₁, done ++ [a] <+: l → P done b₁ →
      ∃ b₂, f b₁ a = some b₂ ∧ P (done ++ [a]) b₂) :
    ∃ b', l.foldlM f b = some b' ∧ P l b' := by
  induction l using List.reverseRecOn with
  | nil => exact ⟨b, rfl, hnil⟩
  | append_singleton done a ih =>
    obtain ⟨b₁, hdone, hP⟩ := ih fun done' a' b' hpre =>
      hstep done' a' b' (hpre.trans (List.prefix_append done [a]))
    obtain ⟨b₂, hlast, hP'⟩ := hstep done a b₁ (List.prefix_refl _) hP
    refine ⟨b₂, ?_, hP'⟩
    rw [foldlM_append_one, hdone]
    exact hlast

theorem foldlM_fixed (h : ∀ a ∈ l, f b a = some b) : l.foldlM f b = some b := by
  induction l with
  | nil => rfl
  | cons a l ih =>
    rw [List.foldlM_cons, h a (List.mem_cons_self ..)]
    exact ih fun a' ha' => h a' (List.mem_cons_of_mem a ha')

/-- Every round adds the content of its item. -/
theorem foldlM_collects {γ δ : Type} (g : γ → α) (contents : β → List δ) (content : γ → δ)
    {src : List γ} (hnil : contents b = [])
    (hstep : ∀ c ∈ src, ∀ b₁, ∃ b₂, f b₁ (g c) = some b₂ ∧
      contents b₂ = content c :: contents b₁) :
    ∃ b', (src.map g).foldlM f b = some b' ∧ (contents b').Perm (src.map content) := by
  rw [List.foldlM_map]
  refine foldlM_returns (P := fun done b₁ => (contents b₁).Perm (done.map content)) ?_ ?_
  · rw [hnil, List.map_nil]
  · intro done c b₁ hpre hperm
    have hc : c ∈ src := hpre.subset (List.mem_append_right done (List.mem_singleton_self c))
    obtain ⟨b₂, hb₂, hcontents⟩ := hstep c hc b₁
    refine ⟨b₂, hb₂, ?_⟩
    rw [hcontents, List.map_append, List.map_singleton]
    exact (hperm.cons _).trans (List.perm_append_singleton _ _).symm

/-! ## Loops that raise -/

theorem except_bind_eq_ok {ε γ : Type} {x : Except ε α} {g : α → Except ε γ} {c : γ} :
    (x >>= g) = .ok c ↔ ∃ a, x = .ok a ∧ g a = .ok c := by
  cases x with
  | error e => simp [bind, Except.bind]
  | ok a => simp [bind, Except.bind]

theorem foldlM_cons_eq_ok {ε : Type} {g : β → α → Except ε β} {a : α} :
    (a :: l).foldlM g b = .ok b' ↔ ∃ b₁, g b a = .ok b₁ ∧ l.foldlM g b₁ = .ok b' := by
  rw [List.foldlM_cons, except_bind_eq_ok]

/-! ## Maps that may fail -/

/-- The default `d` is never taken. -/
theorem mapM_returns {γ : Type} {g : α → Option γ} (d : γ) (h : ∀ a ∈ l, ∃ c, g a = some c) :
    l.mapM g = some (l.map fun a => (g a).getD d) := by
  induction l with
  | nil => rfl
  | cons a l ih =>
    obtain ⟨c, hc⟩ := h a (List.mem_cons_self ..)
    rw [List.mapM_cons, hc, ih fun a' ha' => h a' (List.mem_cons_of_mem a ha'), List.map_cons, hc]
    rfl

end ServiceLib
