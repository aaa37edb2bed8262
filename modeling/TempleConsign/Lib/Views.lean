import TempleConsign.Lib.Run
import TempleConsign.Lib.Service

/-!
# Views of a state

A view maps a state to what one observer can learn of it, itself a state. When the requests
that concern the observer do to the view what they do to the state, and the other requests
leave the view, the observer cannot tell a run from the one without the other requests. Some
requests of the observer may be disturbed: answered otherwise than on the view.

Results:
* `Observes.events_iff`: the run without the requests that do not concern the observer gives
  the same answers exactly when no request of the run is disturbed.
* `Observes.run`: it then leaves the same view.
* `commutes_bind` and the rules beside it: services that do to the view what they do to the
  state.
-/

namespace ServiceLib

/-! ## Runs without the requests of others -/

section Runs

variable {σ ω ε : Type}

/-- The requests of a run that concern an observer. -/
def purge (step : σ → ω → σ) (concerns : σ → ω → Prop) [∀ s o, Decidable (concerns s o)] :
    σ → List ω → List ω
  | _, [] => []
  | s, o :: ops =>
    if concerns s o then o :: purge step concerns (step s o) ops
    else purge step concerns (step s o) ops

/-- The view of an observer, in the steps that meet `C` from the states of `I`. A step that
    meets `D` is disturbed. -/
structure Observes (step : σ → ω → σ) (answer : σ → ω → Option ε) (concerns : σ → ω → Prop)
    (view : σ → σ) (I : σ → Prop) (C D : σ → ω → Prop) : Prop where
  kept : ∀ s o, I s → C s o → I (step s o)
  unseen : ∀ s o, I s → C s o → ¬ concerns s o →
    ¬ D s o ∧ view (step s o) = view s ∧ answer s o = none
  seen : ∀ s o, I s → C s o → concerns s o → ¬ D s o →
    view (step s o) = step (view s) o ∧ answer s o = answer (view s) o
  disturbed : ∀ s o, I s → C s o → D s o →
    ∃ a b, answer s o = some a ∧ answer (view s) o = some b ∧ a ≠ b

variable {step : σ → ω → σ} {answer : σ → ω → Option ε} {concerns : σ → ω → Prop}
  [∀ s o, Decidable (concerns s o)] {view : σ → σ} {I : σ → Prop} {C D : σ → ω → Prop}

/-- The requests of the others leave no trace in the view at the end. -/
theorem Observes.run (h : Observes step answer concerns view I C D) {s : σ} (hs : I s)
    {ops : List ω} (hops : AllSteps step C s ops)
    (hcalm : AllSteps step (fun s o => ¬ D s o) s ops) :
    view (run step s ops) = ServiceLib.run step (view s) (purge step concerns s ops) := by
  induction ops generalizing s with
  | nil => rfl
  | cons o ops ih =>
    obtain ⟨ho, hrest⟩ := hops
    obtain ⟨hd, hcalm⟩ := hcalm
    rw [run_cons, ih (h.kept s o hs ho) hrest hcalm, purge]
    split
    · next hc => rw [run_cons, (h.seen s o hs ho hc hd).1]
    · next hc => rw [(h.unseen s o hs ho hc).2.1]

/-- The observer's answers are those of the run without the requests of the others, exactly
    when none is disturbed. -/
theorem Observes.events_iff (h : Observes step answer concerns view I C D) {s : σ} (hs : I s)
    {ops : List ω} (hops : AllSteps step C s ops) :
    eventsOf step answer s ops = eventsOf step answer (view s) (purge step concerns s ops) ↔
      AllSteps step (fun s o => ¬ D s o) s ops := by
  induction ops generalizing s with
  | nil => exact iff_of_true rfl trivial
  | cons o ops ih =>
    obtain ⟨ho, hrest⟩ := hops
    have ih := ih (h.kept s o hs ho) hrest
    rw [eventsOf, purge, AllSteps]
    by_cases hc : concerns s o
    · rw [if_pos hc, eventsOf]
      by_cases hd : D s o
      · obtain ⟨a, b, ha, hb, hab⟩ := h.disturbed s o hs ho hd
        rw [ha, hb]
        exact iff_of_false (fun heq => hab (List.cons.inj heq).1) fun hcalm => hcalm.1 hd
      · obtain ⟨hview, hanswer⟩ := h.seen s o hs ho hc hd
        rw [← hanswer, ← hview, List.append_cancel_left_eq, ih]
        exact (and_iff_right hd).symm
    · obtain ⟨hd, hview, hanswer⟩ := h.unseen s o hs ho hc
      rw [if_neg hc, hanswer, ← hview]
      exact ih.trans (and_iff_right hd).symm

end Runs

/-! ## Services on a view -/

section Services

variable {σ ε α β : Type} {view : σ → σ} {P : σ → Prop}

/-- A query. -/
def Svc.read (f : σ → α) : Svc σ ε α := do
  let s ← get
  pure (f s)

theorem Svc.exec_read (f : σ → α) (s : σ) :
    Svc.exec (Svc.read f : Svc σ ε α) s = (.ok (f s), s) := rfl

@[simp] theorem Svc.returns_read {f : σ → α} {s s' : σ} {a : α} :
    Svc.Returns (Svc.read f : Svc σ ε α) s a s' ↔ f s = a ∧ s = s' := by
  simp [Svc.Returns, Svc.exec_read]

/-- From the states of `P`, the service answers on the view what it answers on the state, and
    leaves the view of what it leaves there. -/
def Commutes (view : σ → σ) (P : σ → Prop) (m : Svc σ ε α) : Prop :=
  ∀ s, P s → Svc.exec m (view s) = ((Svc.exec m s).1, view (Svc.exec m s).2)

theorem commutes_pure {a : α} : Commutes view P (pure a : Svc σ ε α) := fun _ _ => rfl

/-- A query that the view answers like the state. -/
theorem commutes_read {f : σ → α} (hf : ∀ s, P s → f (view s) = f s) :
    Commutes view P (Svc.read f : Svc σ ε α) := by
  intro s hs
  rw [Svc.exec_read, Svc.exec_read, hf s hs]

/-- `R` is what is known when the first service has returned. -/
theorem commutes_bind {m : Svc σ ε α} {f : α → Svc σ ε β} (R : α → σ → Prop)
    (hm : Commutes view P m) (hR : ∀ s a s', P s → Svc.Returns m s a s' → R a s')
    (hf : ∀ a, Commutes view (R a) (f a)) : Commutes view P (m >>= f) := by
  intro s hs
  rw [Svc.exec_bind, Svc.exec_bind, hm s hs]
  match hx : Svc.exec m s with
  | (.ok a, s') => exact hf a s' (hR s a s' hs hx)
  | (.error e, s') => rfl

/-- A query in front of a service. -/
theorem commutes_read_bind {g : σ → α} {f : α → Svc σ ε β} (hg : ∀ s, P s → g (view s) = g s)
    (hf : ∀ a, Commutes view (fun s => a = g s ∧ P s) (f a)) :
    Commutes view P (Svc.read g >>= f) := by
  refine commutes_bind (fun a s => a = g s ∧ P s) (commutes_read hg) ?_ hf
  intro s a s' hs h
  obtain ⟨rfl, rfl⟩ := Svc.returns_read.mp h
  exact ⟨rfl, hs⟩

theorem commutes_modify {f : σ → σ} (hf : ∀ s, P s → f (view s) = view (f s)) :
    Commutes view P (modify f : Svc σ ε PUnit) := by
  intro s hs
  rw [Svc.exec_modify, Svc.exec_modify, hf s hs]

theorem commutes_require {c : Prop} [Decidable c] {e : ε} :
    Commutes view P (Svc.require c e) := by
  intro s _
  rw [Svc.exec_require, Svc.exec_require]
  split <;> rfl

theorem commutes_require_bind {c : Prop} [Decidable c] {e : ε} {f : Unit → Svc σ ε β}
    (hf : c → Commutes view P (f ())) : Commutes view P (Svc.require c e >>= f) := by
  refine commutes_bind (fun _ s => c ∧ P s) commutes_require ?_ fun _ s hs => hf hs.1 s hs.2
  intro s a s' hs h
  obtain ⟨hc, rfl⟩ := Svc.returns_require.mp h
  exact ⟨hc, hs⟩

theorem commutes_expect {o : Option α} {e : ε} : Commutes view P (Svc.expect o e) := by
  intro s _
  rw [Svc.exec_expect, Svc.exec_expect]
  cases o <;> rfl

theorem commutes_expect_bind {o : Option α} {e : ε} {f : α → Svc σ ε β}
    (hf : ∀ a, o = some a → Commutes view P (f a)) : Commutes view P (Svc.expect o e >>= f) := by
  refine commutes_bind (fun a s => o = some a ∧ P s) commutes_expect ?_
    fun a s hs => hf a hs.1 s hs.2
  intro s a s' hs h
  obtain ⟨ho, rfl⟩ := Svc.returns_expect.mp h
  exact ⟨ho, hs⟩

theorem commutes_lift {x : Except ε α} : Commutes view P (Svc.lift x) := by
  intro s _
  rw [Svc.exec_lift, Svc.exec_lift]

theorem Commutes.imp {P' : σ → Prop} {m : Svc σ ε α} (h : Commutes view P m)
    (hP : ∀ s, P' s → P s) : Commutes view P' m := fun s hs => h s (hP s hs)

theorem Commutes.returns {m : Svc σ ε α} (h : Commutes view P m) {s s' : σ} {a : α} (hs : P s)
    (hr : Svc.Returns m s a s') : Svc.Returns m (view s) a (view s') := by
  unfold Svc.Returns at hr ⊢
  rw [h s hs, hr]

/-- A request in its transaction. -/
theorem Commutes.request {m : Svc σ ε α} (h : Commutes view P m) {s : σ} (hs : P s) :
    Svc.request (fun before _ => before) m (view s) =
      ((Svc.request (fun before _ => before) m s).1,
        view (Svc.request (fun before _ => before) m s).2) := by
  unfold Svc.request
  rw [h s hs]
  match Svc.exec m s with
  | (.ok a, s') => rfl
  | (.error e, s') => rfl

end Services

end ServiceLib
