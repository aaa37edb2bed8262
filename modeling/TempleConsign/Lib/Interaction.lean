import Mathlib.Data.List.Induction

/-!
# Programs that receive and send

A program waits for a message, sends one, or stops. A trace is a finite history of what it
received and sent, so a program that never stops has traces too.

A wrapper runs a program inside and shows it a history of its own. When each event of the
wrapper moves the program inside along some events, and a relation between the two histories
is kept, the wrapper's traces are histories of the program.

Results:
* `Trace.induction`: what holds at the start and is kept by each event.
* `Trace.inside`: the history that the program inside a wrapper went through.
* `trace_append`: a trace part by part.
-/

namespace ServiceLib.Interaction

variable {ι ο σ τ : Type}

/-- What a program does next. -/
inductive Move (ι ο σ : Type)
  | stop
  | send (message : ο) (next : σ)
  | receive (next : ι → σ)

/-- An event of a history. -/
inductive Event (ι ο : Type)
  | received (message : ι)
  | sent (message : ο)

/-- The event `e` takes the program from `s` to `t`. -/
inductive Can (step : σ → Move ι ο σ) : σ → Event ι ο → σ → Prop
  | send {s t : σ} {message : ο} (h : step s = .send message t) : Can step s (.sent message) t
  | receive {s : σ} {k : ι → σ} (message : ι) (h : step s = .receive k) :
    Can step s (.received message) (k message)

/-- The history `tr` takes the program from `s` to `t`. -/
inductive Trace (step : σ → Move ι ο σ) (s : σ) : List (Event ι ο) → σ → Prop
  | nil : Trace step s [] s
  | snoc {tr : List (Event ι ο)} {t u : σ} {e : Event ι ο} (h : Trace step s tr t)
    (he : Can step t e u) : Trace step s (tr ++ [e]) u

variable {step : σ → Move ι ο σ} {wrapped : τ → Move ι ο τ}

theorem can_received {s t : σ} {message : ι} :
    Can step s (.received message) t ↔ ∃ k, step s = .receive k ∧ k message = t := by
  constructor
  · intro h
    cases h with
    | receive _ h => exact ⟨_, h, rfl⟩
  · rintro ⟨k, h, rfl⟩
    exact .receive message h

theorem trace_nil {s t : σ} : Trace step s [] t ↔ s = t := by
  constructor
  · intro h
    generalize hl : ([] : List (Event ι ο)) = tr at h
    cases h with
    | nil => rfl
    | snoc _ _ => exact absurd hl.symm (List.append_ne_nil_of_right_ne_nil _ (by simp))
  · rintro rfl
    exact .nil

theorem trace_snoc {s u : σ} {tr : List (Event ι ο)} {e : Event ι ο} :
    Trace step s (tr ++ [e]) u ↔ ∃ t, Trace step s tr t ∧ Can step t e u := by
  constructor
  · intro h
    generalize hl : tr ++ [e] = l at h
    cases h with
    | nil => exact absurd hl (List.append_ne_nil_of_right_ne_nil _ (by simp))
    | snoc h he =>
      obtain ⟨rfl, hee⟩ := List.append_inj' hl rfl
      cases hee
      exact ⟨_, h, he⟩
  · rintro ⟨t, h, he⟩
    exact h.snoc he

theorem trace_append {s u : σ} {tr tr' : List (Event ι ο)} :
    Trace step s (tr ++ tr') u ↔ ∃ t, Trace step s tr t ∧ Trace step t tr' u := by
  induction tr' using List.reverseRecOn generalizing u with
  | nil => simp [trace_nil]
  | append_singleton tr' e ih =>
    rw [← List.append_assoc, trace_snoc]
    constructor
    · rintro ⟨v, hv, he⟩
      obtain ⟨t, ht, ht'⟩ := ih.mp hv
      exact ⟨t, ht, ht'.snoc he⟩
    · rintro ⟨t, ht, ht'⟩
      obtain ⟨v, hv, he⟩ := trace_snoc.mp ht'
      exact ⟨v, ih.mpr ⟨t, ht, hv⟩, he⟩

/-- What the events of a program keep holds of each of its traces. -/
theorem Trace.induction {s : σ} {P : List (Event ι ο) → σ → Prop} (hs : P [] s)
    (hstep : ∀ tr t e u, P tr t → Can step t e u → P (tr ++ [e]) u) {tr : List (Event ι ο)} {t : σ}
    (h : Trace step s tr t) : P tr t := by
  induction h with
  | nil => exact hs
  | snoc _ he ih => exact hstep _ _ _ _ ih he

/-- A wrapper's trace is a history of the program inside, related to it by what each event of
    the wrapper keeps. -/
theorem Trace.inside {w : τ} (inner : τ → σ)
    {G : List (Event ι ο) → List (Event ι ο) → τ → Prop} (hw : G [] [] w)
    (hstep : ∀ tr seen x e y, G tr seen x → Can wrapped x e y →
      ∃ es, Trace step (inner x) es (inner y) ∧ G (tr ++ [e]) (seen ++ es) y)
    {tr : List (Event ι ο)} {x : τ} (h : Trace wrapped w tr x) :
    ∃ seen, Trace step (inner w) seen (inner x) ∧ G tr seen x := by
  induction h with
  | nil => exact ⟨[], .nil, hw⟩
  | snoc _ he ih =>
    obtain ⟨seen, hseen, hg⟩ := ih
    obtain ⟨es, hes, hg'⟩ := hstep _ _ _ _ _ hg he
    exact ⟨seen ++ es, trace_append.mpr ⟨_, hseen, hes⟩, hg'⟩

/-- One event is a trace. -/
theorem Can.trace {s t : σ} {e : Event ι ο} (h : Can step s e t) : Trace step s [e] t :=
  Trace.nil.snoc h

end ServiceLib.Interaction
