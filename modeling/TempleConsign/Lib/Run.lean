import Mathlib.Data.List.Induction
import Mathlib.Data.List.Nodup
import Mathlib.Tactic.SplitIfs

/-!
# Runs of a step function

A service takes one request after another. A run is the list of its requests;
`AllStates P` says that `P` holds in every state the run goes through, and
`AllSteps C` that every request meets `C` in the state it finds.

Results:
* `run_induction`, `run_induction_mem`: what the steps preserve holds at the end
  of a run.
* `allStates_of_allSteps`: a property that the steps meeting `C` preserve.
* `allStates_iff_allSteps_mem`, `allStates_iff_allSteps`: when `C` is exactly what
  a step needs to preserve the property, a run keeps the property exactly when
  all its steps meet `C`.
* `allStates_iff_of_inv_along`, `allStates_iff_of_inv`: the same, with an invariant
  stronger than the property, in the runs of a domain or in all of them.
* `allSteps_congr`: conditions that agree under an invariant.
* `run_iff_since`: what some steps establish and others destroy holds at the end
  exactly when it was established and not destroyed since.
* `run_iff_had`: what is never destroyed holds exactly when it was established in
  some state.
* `allFresh_iff`: every event of a run finds its entry free exactly when no event
  repeats.
* `allSteps_of_not_doomed`: when a step that misses `C` dooms the run, a run
  that keeps the property and does not end doomed meets `C` in every step.
-/

namespace ServiceLib

variable {σ ω : Type}

/-- The state after the requests `ops`. -/
def run (step : σ → ω → σ) (s : σ) (ops : List ω) : σ := ops.foldl step s

@[simp] theorem run_nil (step : σ → ω → σ) (s : σ) : run step s [] = s := rfl

@[simp] theorem run_cons (step : σ → ω → σ) (s : σ) (o : ω) (ops : List ω) :
    run step s (o :: ops) = run step (step s o) ops := rfl

theorem run_append (step : σ → ω → σ) (s : σ) (ops ops' : List ω) :
    run step s (ops ++ ops') = run step (run step s ops) ops' := by
  simp [run]

/-- Every request of the run meets `C` in the state it finds. -/
def AllSteps (step : σ → ω → σ) (C : σ → ω → Prop) : σ → List ω → Prop
  | _, [] => True
  | s, o :: ops => C s o ∧ AllSteps step C (step s o) ops

/-- `P` holds in every state of the run, the first and the last included. -/
def AllStates (step : σ → ω → σ) (P : σ → Prop) : σ → List ω → Prop
  | s, [] => P s
  | s, o :: ops => P s ∧ AllStates step P (step s o) ops

variable {step : σ → ω → σ} {P I : σ → Prop} {C : σ → ω → Prop}

theorem AllStates.first {s : σ} {ops : List ω} (h : AllStates step P s ops) : P s := by
  cases ops with
  | nil => exact h
  | cons o ops => exact h.1

theorem AllStates.last {s : σ} {ops : List ω} (h : AllStates step P s ops) :
    P (run step s ops) := by
  induction ops generalizing s with
  | nil => exact h
  | cons o ops ih => exact ih h.2

theorem AllStates.mono {P' : σ → Prop} (hP : ∀ s, P s → P' s) {s : σ} {ops : List ω}
    (h : AllStates step P s ops) : AllStates step P' s ops := by
  induction ops generalizing s with
  | nil => exact hP s h
  | cons o ops ih => exact ⟨hP s h.1, ih h.2⟩

/-- What every step preserves holds at the end of a run. -/
theorem run_induction (hstep : ∀ s o, P s → P (step s o)) {s : σ} (hs : P s) (ops : List ω) :
    P (run step s ops) := by
  induction ops generalizing s with
  | nil => exact hs
  | cons o ops ih => exact ih (hstep s o hs)

/-- What the steps of a run preserve holds at its end. -/
theorem run_induction_mem {s : σ} {ops : List ω} (hstep : ∀ s, ∀ o ∈ ops, P s → P (step s o))
    (hs : P s) : P (run step s ops) := by
  induction ops generalizing s with
  | nil => exact hs
  | cons o ops ih =>
    exact ih (fun s o' ho => hstep s o' (List.mem_cons_of_mem o ho))
      (hstep s o List.mem_cons_self hs)

/-- What every step meeting `C` preserves holds in every state of a run whose
    steps all meet `C`. -/
theorem allStates_of_allSteps (hstep : ∀ s o, P s → C s o → P (step s o)) {s : σ} (hs : P s)
    {ops : List ω} (h : AllSteps step C s ops) : AllStates step P s ops := by
  induction ops generalizing s with
  | nil => exact hs
  | cons o ops ih => exact ⟨hs, ih (hstep s o hs h.1) h.2⟩

/-- What every step preserves holds in every state of a run. -/
theorem allStates_of_step (hstep : ∀ s o, P s → P (step s o)) {s : σ} (hs : P s)
    (ops : List ω) : AllStates step P s ops := by
  induction ops generalizing s with
  | nil => exact hs
  | cons o ops ih => exact ⟨hs, ih (hstep s o hs)⟩

/-- What holds of every step from a state of the invariant holds of every step of a run. -/
theorem allSteps_of_step (hstep : ∀ s o, P s → P (step s o)) (hC : ∀ s o, P s → C s o) {s : σ}
    (hs : P s) (ops : List ω) : AllSteps step C s ops := by
  induction ops generalizing s with
  | nil => exact trivial
  | cons o ops ih => exact ⟨hC s o hs, ih (hstep s o hs)⟩

/-- Under an invariant of the steps that meet `C`, what `C` gives of a step holds of every
    step of a run that meets it. -/
theorem AllSteps.of_inv {Q : σ → ω → Prop} (hI : ∀ s o, P s → C s o → P (step s o))
    (hQ : ∀ s o, P s → C s o → Q s o) {s : σ} (hs : P s) {ops : List ω}
    (h : AllSteps step C s ops) : AllSteps step Q s ops := by
  induction ops generalizing s with
  | nil => exact trivial
  | cons o ops ih => exact ⟨hQ s o hs h.1, ih (hI s o hs h.1) h.2⟩

theorem AllSteps.last {s : σ} {ops : List ω} {o : ω} (h : AllSteps step C s (ops ++ [o])) :
    C (run step s ops) o := by
  induction ops generalizing s with
  | nil => exact h.1
  | cons o' ops ih => exact ih h.2

/-- When, under an invariant `I` of the steps that keep `P`, the requests of a run
    keep `P` exactly if they meet `C`, the run keeps `P` exactly if all its steps
    meet `C`. -/
theorem allStates_iff_allSteps_mem {s : σ} {ops : List ω}
    (hI : ∀ s, ∀ o ∈ ops, I s → P s → I (step s o))
    (hstep : ∀ s, ∀ o ∈ ops, I s → P s → (P (step s o) ↔ C s o)) (hi : I s) (hs : P s) :
    AllStates step P s ops ↔ AllSteps step C s ops := by
  induction ops generalizing s with
  | nil => exact ⟨fun _ => trivial, fun _ => hs⟩
  | cons o ops ih =>
    have ho : o ∈ o :: ops := List.mem_cons_self
    have hrest : ∀ o' ∈ ops, o' ∈ o :: ops := fun o' h => List.mem_cons_of_mem o h
    have ih' := fun {s : σ} => ih (s := s) (fun s o' h => hI s o' (hrest o' h))
      (fun s o' h => hstep s o' (hrest o' h))
    constructor
    · rintro ⟨_, h⟩
      have hp := h.first
      exact ⟨(hstep s o ho hi hs).mp hp, (ih' (hI s o ho hi hs) hp).mp h⟩
    · rintro ⟨hc, h⟩
      have hp := (hstep s o ho hi hs).mpr hc
      exact ⟨hs, (ih' (hI s o ho hi hs) hp).mpr h⟩

/-- When this is so for every request. -/
theorem allStates_iff_allSteps (hI : ∀ s o, I s → P s → I (step s o))
    (hstep : ∀ s o, I s → P s → (P (step s o) ↔ C s o)) {s : σ} (hi : I s) (hs : P s)
    (ops : List ω) : AllStates step P s ops ↔ AllSteps step C s ops :=
  allStates_iff_allSteps_mem (fun s o _ => hI s o) (fun s o _ => hstep s o) hi hs

/-- In a run whose steps all meet `D`: when the steps meeting `C` keep the
    invariant `I`, which gives `P`, and a step into `P` meets `C`, the run keeps
    `P` exactly if all its steps meet `C`. -/
theorem allStates_iff_of_inv_along {D : σ → ω → Prop}
    (hI : ∀ s o, I s → D s o → C s o → I (step s o)) (hP : ∀ s, I s → P s)
    (hC : ∀ s o, I s → D s o → P (step s o) → C s o) {s : σ} (hi : I s) {ops : List ω}
    (hd : AllSteps step D s ops) : AllStates step P s ops ↔ AllSteps step C s ops := by
  induction ops generalizing s with
  | nil => exact ⟨fun _ => trivial, fun _ => hP s hi⟩
  | cons o ops ih =>
    obtain ⟨hdo, hd⟩ := hd
    constructor
    · rintro ⟨_, h⟩
      have hc := hC s o hi hdo h.first
      exact ⟨hc, (ih (hI s o hi hdo hc) hd).mp h⟩
    · rintro ⟨hc, h⟩
      exact ⟨hP s hi, (ih (hI s o hi hdo hc) hd).mpr h⟩

theorem allSteps_trivial (s : σ) (ops : List ω) : AllSteps step (fun _ _ => True) s ops := by
  induction ops generalizing s with
  | nil => trivial
  | cons o ops ih => exact ⟨trivial, ih (step s o)⟩

/-- The same for every run. -/
theorem allStates_iff_of_inv (hI : ∀ s o, I s → C s o → I (step s o)) (hP : ∀ s, I s → P s)
    (hC : ∀ s o, I s → P (step s o) → C s o) {s : σ} (hi : I s) (ops : List ω) :
    AllStates step P s ops ↔ AllSteps step C s ops :=
  allStates_iff_of_inv_along (fun s o h _ => hI s o h) hP (fun s o h _ => hC s o h) hi
    (allSteps_trivial s ops)

/-- What a step that misses `C` brings about and every later step that keeps `P`
    preserves cannot be escaped. -/
theorem allSteps_of_not_doomed {D : σ → Prop} (hI : ∀ s o, I s → C s o → I (step s o))
    (hmiss : ∀ s o, I s → ¬ C s o → P (step s o) → D (step s o))
    (hD : ∀ s o, D s → P (step s o) → D (step s o)) {s : σ} (hi : I s) {ops : List ω}
    (h : AllStates step P s ops) (hend : ¬ D (run step s ops)) : AllSteps step C s ops := by
  have doomed : ∀ (ops : List ω) (s : σ), D s → AllStates step P s ops → D (run step s ops) := by
    intro ops
    induction ops with
    | nil => exact fun s hd _ => hd
    | cons o ops ih => exact fun s hd hp => ih (step s o) (hD s o hd hp.2.first) hp.2
  induction ops generalizing s with
  | nil => trivial
  | cons o ops ih =>
    by_cases hc : C s o
    · exact ⟨hc, ih (hI s o hi hc) h.2 hend⟩
    · have hd := hmiss s o hi hc h.2.first
      exact absurd (doomed ops (step s o) hd h.2) hend

/-- Two conditions that agree in every state with the invariant `I` hold along
    the same runs. -/
theorem allSteps_congr {C' : σ → ω → Prop} (hI : ∀ s o, I s → I (step s o))
    (hC : ∀ s o, I s → (C s o ↔ C' s o)) {s : σ} (hi : I s) (ops : List ω) :
    AllSteps step C s ops ↔ AllSteps step C' s ops := by
  induction ops generalizing s with
  | nil => exact Iff.rfl
  | cons o ops ih => exact and_congr (hC s o hi) (ih (hI s o hi))

/-! ## What holds since a step -/

theorem allSteps_append {s : σ} {ops ops' : List ω} :
    AllSteps step C s (ops ++ ops') ↔
      AllSteps step C s ops ∧ AllSteps step C (run step s ops) ops' := by
  induction ops generalizing s with
  | nil => simp [AllSteps]
  | cons o ops ih => simp only [List.cons_append, AllSteps, ih, run_cons, and_assoc]

/-- Some step of the run meets `A`, and no step after it meets `R`. -/
def Since (step : σ → ω → σ) (A R : σ → ω → Prop) (s : σ) (ops : List ω) : Prop :=
  ∃ pre o post, ops = pre ++ o :: post ∧ A (run step s pre) o ∧
    AllSteps step (fun s o => ¬ R s o) (run step s (pre ++ [o])) post

variable {A R : σ → ω → Prop}

/-- The last step established it, or it did not destroy what was there. -/
theorem since_append_one {s : σ} {ops : List ω} {o : ω} :
    Since step A R s (ops ++ [o]) ↔
      A (run step s ops) o ∨ (Since step A R s ops ∧ ¬ R (run step s ops) o) := by
  constructor
  · rintro ⟨pre, a, post, heq, ha, hpost⟩
    rcases List.eq_nil_or_concat post with rfl | ⟨post', b, rfl⟩
    · obtain ⟨rfl, hab⟩ := List.append_inj' heq rfl
      cases hab
      exact .inl ha
    · rw [List.concat_eq_append] at heq hpost
      have hassoc : pre ++ a :: (post' ++ [b]) = (pre ++ a :: post') ++ [b] := by simp
      obtain ⟨rfl, hob⟩ := List.append_inj' (heq.trans hassoc) rfl
      cases hob
      obtain ⟨hrest, hlast⟩ := allSteps_append.mp hpost
      rw [← run_append, List.append_assoc] at hlast
      exact .inr ⟨⟨pre, a, post', rfl, ha, hrest⟩, hlast.1⟩
  · rintro (ha | ⟨⟨pre, a, post, rfl, ha, hpost⟩, hr⟩)
    · exact ⟨ops, o, [], rfl, ha, trivial⟩
    · refine ⟨pre, a, post ++ [o], by simp, ha, allSteps_append.mpr ⟨hpost, ?_, trivial⟩⟩
      rw [← run_append, List.append_assoc]
      exact hr

/-- When a step establishes `H` exactly if it meets `A`, and otherwise keeps it
    unless it meets `R`, then `H` holds at the end of a run of an invariant `I`
    exactly when it held at the start and no step met `R`, or since some step. -/
theorem run_iff_since {H : σ → Prop} (hI : ∀ s o, I s → I (step s o))
    (hH : ∀ s o, I s → (H (step s o) ↔ A s o ∨ (H s ∧ ¬ R s o))) {s : σ} (hs : I s)
    (ops : List ω) :
    H (run step s ops) ↔
      (H s ∧ AllSteps step (fun s o => ¬ R s o) s ops) ∨ Since step A R s ops := by
  induction ops using List.reverseRecOn with
  | nil => simp [AllSteps, Since]
  | append_singleton ops o ih =>
    have hi : I (run step s ops) := run_induction hI hs ops
    have hsnoc : AllSteps step (fun s o => ¬ R s o) s (ops ++ [o]) ↔
        AllSteps step (fun s o => ¬ R s o) s ops ∧ ¬ R (run step s ops) o := by
      rw [allSteps_append]
      simp [AllSteps]
    rw [run_append, run_cons, run_nil, hH _ _ hi, ih, since_append_one, hsnoc]
    tauto

/-- When a step establishes `H` exactly if it leaves `Q`, and never destroys it, then
    `H` holds at the end of a run of an invariant `I` exactly when `Q` held in some
    state of the run. -/
theorem run_iff_had {H Q : σ → Prop} (hI : ∀ s o, I s → I (step s o))
    (hH : ∀ s o, I s → (H (step s o) ↔ H s ∨ Q (step s o))) {s : σ} (hs : I s)
    (hstart : H s ↔ Q s) (ops : List ω) :
    H (run step s ops) ↔ ∃ pre, pre <+: ops ∧ Q (run step s pre) := by
  induction ops using List.reverseRecOn with
  | nil => simp [hstart]
  | append_singleton ops o ih =>
    have hi : I (run step s ops) := run_induction hI hs ops
    rw [run_append, run_cons, run_nil, hH _ _ hi, ih]
    constructor
    · rintro (⟨pre, hpre, hq⟩ | hq)
      · exact ⟨pre, hpre.trans (List.prefix_append ops [o]), hq⟩
      · refine ⟨ops ++ [o], List.prefix_rfl, ?_⟩
        rw [run_append]
        exact hq
    · rintro ⟨pre, hpre, hq⟩
      rcases List.prefix_concat_iff.mp hpre with rfl | hpre
      · rw [run_append] at hq
        exact .inr hq
      · exact .inl ⟨pre, hpre, hq⟩

/-! ## Events -/

variable {ε : Type}

/-- The events of a run, in order; a step has one or none. -/
def eventsOf (step : σ → ω → σ) (event : σ → ω → Option ε) : σ → List ω → List ε
  | _, [] => []
  | s, o :: ops => (event s o).toList ++ eventsOf step event (step s o) ops

theorem eventsOf_append_one {event : σ → ω → Option ε} (s : σ) (ops : List ω) (o : ω) :
    eventsOf step event s (ops ++ [o]) =
      eventsOf step event s ops ++ (event (run step s ops) o).toList := by
  induction ops generalizing s with
  | nil => simp [eventsOf]
  | cons o' ops ih => simp [eventsOf, ih]

/-- A log stays free of duplicates when it grows by a new entry. -/
theorem nodup_append_one {α : Type} {l : List α} {a : α} :
    (l ++ [a]).Nodup ↔ l.Nodup ∧ a ∉ l := by
  rw [List.nodup_append_comm]
  simp [and_comm]

/-- The step's event was not seen before. -/
def Fresh (event : σ → ω → Option ε) (S : σ → ε → Prop) (s : σ) (o : ω) : Prop :=
  ∀ e, event s o = some e → ¬ S s e

/-- Where the steps record their events and nothing else, every event is fresh
    exactly when none repeats and none was there at the start. -/
theorem allFresh_iff {event : σ → ω → Option ε} {S : σ → ε → Prop}
    (hseen : ∀ s o e, S (step s o) e ↔ S s e ∨ event s o = some e) (s : σ) (ops : List ω) :
    AllSteps step (Fresh event S) s ops ↔
      (eventsOf step event s ops).Nodup ∧ ∀ e ∈ eventsOf step event s ops, ¬ S s e := by
  induction ops generalizing s with
  | nil => simp [AllSteps, eventsOf]
  | cons o ops ih =>
    rw [AllSteps, ih, eventsOf]
    cases he : event s o with
    | none =>
      have hsame : ∀ e, S (step s o) e ↔ S s e := by
        intro e
        rw [hseen, he]
        simp
      simp [Fresh, he, hsame]
    | some e =>
      simp only [Fresh, he, Option.some.injEq, forall_eq', Option.toList_some,
        List.singleton_append, List.nodup_cons, List.forall_mem_cons, hseen, not_or]
      constructor
      · rintro ⟨hfresh, hnodup, hrest⟩
        have hnotMem : e ∉ eventsOf step event (step s o) ops := fun hmem => (hrest e hmem).2 rfl
        exact ⟨⟨hnotMem, hnodup⟩, hfresh, fun e' hmem => (hrest e' hmem).1⟩
      · rintro ⟨⟨hnotMem, hnodup⟩, hfresh, hrest⟩
        refine ⟨hfresh, hnodup, fun e' hmem => ⟨hrest e' hmem, ?_⟩⟩
        rintro rfl
        exact hnotMem hmem

end ServiceLib
