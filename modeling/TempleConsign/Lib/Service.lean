import Mathlib.Order.Defs.PartialOrder
import Mathlib.Tactic.SplitIfs

/-!
# Service code over a transactional state

A service function reads and writes a state `σ` and may raise an exception
`ε`. Writes made before the exception are visible to a handler (`tryCatch`),
so a service is `ExceptT ε (StateM σ)`. A request runs one service in one
transaction: it commits when the service returns and is rolled back when an
exception leaves it.

Results:
* `exec_*`: how each construct runs on a state.
* `returns_*`: what it means for a construct to return; with them `simp` turns
  "this service returned" into the list of guards it passed and the state it
  left.
* `raises_*`: which exceptions a construct raises.
* `grows_*`: what never decreases, on a return or a raise.
* `request_of_returns`, `request_cases`: commit and rollback.
-/

namespace ServiceLib

/-- A service: reads and writes `σ`, raises `ε`, returns `α`. -/
abbrev Svc (σ ε α : Type) := ExceptT ε (StateM σ) α

namespace Svc

variable {σ ε α β : Type}

/-- Run a service on a state. The state is the one at the return or at the
    raise. -/
def exec (m : Svc σ ε α) (s : σ) : Except ε α × σ := StateT.run (ExceptT.run m) s

/-- `if not c: raise e`. -/
def require (c : Prop) [Decidable c] (e : ε) : Svc σ ε Unit := if c then pure () else throw e

/-- `x = o; if x is None: raise e`. -/
def expect (o : Option α) (e : ε) : Svc σ ε α :=
  match o with
  | some a => pure a
  | none => throw e

/-- A pure computation that may raise. -/
def lift (x : Except ε α) : Svc σ ε α :=
  match x with
  | .ok a => pure a
  | .error e => throw e

/-- `if c: m`. -/
def onlyIf (c : Prop) [Decidable c] (m : Svc σ ε Unit) : Svc σ ε Unit := if c then m else pure ()

/-- `try: m` with a handler that only logs. -/
def attempt (m : Svc σ ε α) : Svc σ ε Unit :=
  tryCatch (do let _ ← m; pure ()) fun _ => pure ()

/-- `await m`, its value dropped. -/
def void (m : Svc σ ε α) : Svc σ ε Unit := (fun _ => ()) <$> m

/-- A service on a part of the state. -/
def zoom {τ : Type} (view : σ → τ) (put : τ → σ → σ) (m : Svc τ ε α) : Svc σ ε α :=
  fun s => match exec m (view s) with
    | (r, t) => (r, put t s)

/-! ## Running -/

@[simp] theorem exec_pure (a : α) (s : σ) : exec (pure a : Svc σ ε α) s = (.ok a, s) := rfl

@[simp] theorem exec_throw (e : ε) (s : σ) : exec (throw e : Svc σ ε α) s = (.error e, s) := rfl

@[simp] theorem exec_get (s : σ) : exec (get : Svc σ ε σ) s = (.ok s, s) := rfl

@[simp] theorem exec_modify (f : σ → σ) (s : σ) :
    exec (modify f : Svc σ ε PUnit) s = (.ok ⟨⟩, f s) := rfl

theorem exec_bind (m : Svc σ ε α) (f : α → Svc σ ε β) (s : σ) :
    exec (m >>= f) s = match exec m s with
      | (.ok a, s') => exec (f a) s'
      | (.error e, s') => (.error e, s') := by
  simp only [exec, bind, ExceptT.bind, ExceptT.mk, ExceptT.run, StateT.run, StateT.bind]
  cases h : m s with
  | mk r s' => cases r <;> rfl

theorem exec_tryCatch (m : Svc σ ε α) (h : ε → Svc σ ε α) (s : σ) :
    exec (tryCatch m h) s = match exec m s with
      | (.ok a, s') => (.ok a, s')
      | (.error e, s') => exec (h e) s' := by
  simp only [exec, tryCatch, tryCatchThe, MonadExceptOf.tryCatch, ExceptT.tryCatch, ExceptT.mk,
    ExceptT.run, StateT.run, bind, StateT.bind]
  cases hm : m s with
  | mk r s' => cases r <;> rfl

@[simp] theorem exec_require (c : Prop) [Decidable c] (e : ε) (s : σ) :
    exec (require c e) s = if c then (.ok (), s) else (.error e, s) := by
  unfold require
  split_ifs <;> rfl

@[simp] theorem exec_expect (o : Option α) (e : ε) (s : σ) :
    exec (expect o e) s = match o with
      | some a => (.ok a, s)
      | none => (.error e, s) := by
  cases o <;> rfl

@[simp] theorem exec_lift (x : Except ε α) (s : σ) :
    exec (lift x : Svc σ ε α) s = (x, s) := by
  cases x <;> rfl

theorem exec_map (m : Svc σ ε α) (f : α → β) (s : σ) :
    exec (f <$> m) s = match exec m s with
      | (.ok a, s') => (.ok (f a), s')
      | (.error e, s') => (.error e, s') := by
  rw [← bind_pure_comp, exec_bind]
  match exec m s with
  | (.ok a, s') => rfl
  | (.error e, s') => rfl

/-- A suppressed exception keeps the writes made before it. -/
@[simp] theorem exec_attempt (m : Svc σ ε α) (s : σ) :
    exec (attempt m) s = (.ok (), (exec m s).2) := by
  unfold attempt
  rw [exec_tryCatch, exec_bind]
  match exec m s with
  | (.ok a, s') => rfl
  | (.error e, s') => rfl

@[simp] theorem exec_zoom {τ : Type} (view : σ → τ) (put : τ → σ → σ) (m : Svc τ ε α) (s : σ) :
    exec (zoom view put m) s = ((exec m (view s)).1, put (exec m (view s)).2 s) := rfl

/-! ## Returning -/

/-- `m` run on `s` returns `a` and leaves `s'`. -/
def Returns (m : Svc σ ε α) (s : σ) (a : α) (s' : σ) : Prop := exec m s = (.ok a, s')

/-- The result and the state of a computation that does not raise. -/
theorem returns_of_accepted {m : Svc σ ε α} {s : σ} (h : (exec m s).1.toOption.isSome = true) :
    ∃ a, Returns m s a (exec m s).2 := by
  obtain ⟨a, ha⟩ := Option.isSome_iff_exists.mp h
  refine ⟨a, Prod.ext ?_ rfl⟩
  cases hr : (exec m s).1 with
  | ok b =>
    rw [hr] at ha
    exact congrArg Except.ok (Option.some.inj ha)
  | error e =>
    rw [hr] at ha
    cases ha

@[simp] theorem returns_pure {a b : α} {s s' : σ} :
    Returns (pure a : Svc σ ε α) s b s' ↔ a = b ∧ s = s' := by
  simp [Returns]

@[simp] theorem returns_throw {e : ε} {s s' : σ} {b : α} :
    Returns (throw e : Svc σ ε α) s b s' ↔ False := by
  simp [Returns]

@[simp] theorem returns_get {s s' t : σ} :
    Returns (get : Svc σ ε σ) s t s' ↔ s = t ∧ s = s' := by
  simp [Returns]

@[simp] theorem returns_modify {f : σ → σ} {s s' : σ} {u : PUnit} :
    Returns (modify f : Svc σ ε PUnit) s u s' ↔ f s = s' := by
  simp [Returns]

theorem returns_bind {m : Svc σ ε α} {f : α → Svc σ ε β} {s s'' : σ} {b : β} :
    Returns (m >>= f) s b s'' ↔ ∃ a s', Returns m s a s' ∧ Returns (f a) s' b s'' := by
  unfold Returns
  rw [exec_bind]
  constructor
  · intro h
    match hm : exec m s with
    | (.ok a, s') => rw [hm] at h; exact ⟨a, s', rfl, h⟩
    | (.error e, s') => rw [hm] at h; simp at h
  · rintro ⟨a, s', hm, hf⟩
    rw [hm]; exact hf

@[simp] theorem returns_require {c : Prop} [Decidable c] {e : ε} {s s' : σ} {u : Unit} :
    Returns (require c e) s u s' ↔ c ∧ s = s' := by
  unfold Returns
  rw [exec_require]
  split_ifs with h <;> simp [h]

@[simp] theorem returns_expect {o : Option α} {e : ε} {s s' : σ} {a : α} :
    Returns (expect o e) s a s' ↔ o = some a ∧ s = s' := by
  unfold Returns
  rw [exec_expect]
  cases o <;> simp

@[simp] theorem returns_lift {x : Except ε α} {s s' : σ} {a : α} :
    Returns (lift x : Svc σ ε α) s a s' ↔ x = .ok a ∧ s = s' := by
  simp [Returns]

theorem returns_ite {c : Prop} [Decidable c] {m n : Svc σ ε α} {s s' : σ} {a : α} :
    Returns (if c then m else n) s a s' ↔ (c ∧ Returns m s a s') ∨ (¬ c ∧ Returns n s a s') := by
  split_ifs with h <;> simp [h]

@[simp] theorem returns_onlyIf {c : Prop} [Decidable c] {m : Svc σ ε Unit} {s s' : σ} {u : Unit} :
    Returns (onlyIf c m) s u s' ↔ (c ∧ Returns m s u s') ∨ (¬ c ∧ s = s') := by
  unfold onlyIf
  split_ifs with h <;> simp [h]

@[simp] theorem returns_attempt {m : Svc σ ε α} {s s' : σ} {u : Unit} :
    Returns (attempt m) s u s' ↔ (exec m s).2 = s' := by
  simp [Returns]

/-! A step that only reads, or returns nothing, is passed without naming the
state between. -/

theorem returns_bind_of_read {m : Svc σ ε α} {f : α → Svc σ ε β} {P : α → Prop} {s s'' : σ} {b : β}
    (hm : ∀ a s', Returns m s a s' ↔ P a ∧ s = s') :
    Returns (m >>= f) s b s'' ↔ ∃ a, P a ∧ Returns (f a) s b s'' := by
  rw [returns_bind]
  constructor
  · rintro ⟨a, s', ha, hf⟩
    obtain ⟨hp, rfl⟩ := (hm a s').mp ha
    exact ⟨a, hp, hf⟩
  · rintro ⟨a, hp, hf⟩
    exact ⟨a, s, (hm a s).mpr ⟨hp, rfl⟩, hf⟩

theorem returns_bind_of_write {m : Svc σ ε Unit} {f : Unit → Svc σ ε β} {c : Prop} {t s s'' : σ}
    {b : β} (hm : ∀ u s', Returns m s u s' ↔ c ∧ t = s') :
    Returns (m >>= f) s b s'' ↔ c ∧ Returns (f ()) t b s'' := by
  rw [returns_bind]
  constructor
  · rintro ⟨a, s', ha, hf⟩
    obtain ⟨hc, rfl⟩ := (hm a s').mp ha
    exact ⟨hc, hf⟩
  · rintro ⟨hc, hf⟩
    exact ⟨(), t, (hm () t).mpr ⟨hc, rfl⟩, hf⟩

@[simp] theorem returns_get_bind {f : σ → Svc σ ε β} {s s' : σ} {b : β} :
    Returns (get >>= f) s b s' ↔ Returns (f s) s b s' := by
  rw [returns_bind_of_read fun _ _ => returns_get]; simp

@[simp] theorem returns_modify_bind {g : σ → σ} {f : PUnit → Svc σ ε β} {s s' : σ} {b : β} :
    Returns (modify g >>= f) s b s' ↔ Returns (f ⟨⟩) (g s) b s' := by
  rw [returns_bind_of_write (c := True) (t := g s) fun _ _ => by simp]; simp

@[simp] theorem returns_require_bind {c : Prop} [Decidable c] {e : ε} {f : Unit → Svc σ ε β}
    {s s' : σ} {b : β} :
    Returns (require c e >>= f) s b s' ↔ c ∧ Returns (f ()) s b s' :=
  returns_bind_of_write fun _ _ => returns_require

@[simp] theorem returns_expect_bind {o : Option α} {e : ε} {f : α → Svc σ ε β} {s s' : σ} {b : β} :
    Returns (expect o e >>= f) s b s' ↔ ∃ a, o = some a ∧ Returns (f a) s b s' :=
  returns_bind_of_read fun _ _ => returns_expect

/-- A conditional check. -/
theorem returns_onlyIf_check {c P : Prop} [Decidable c] {m : Svc σ ε Unit} {s s' : σ} {u : Unit}
    (hm : ∀ u s', Returns m s u s' ↔ P ∧ s = s') :
    Returns (onlyIf c m) s u s' ↔ (c → P) ∧ s = s' := by
  rw [returns_onlyIf, hm]
  by_cases hc : c <;> simp [hc]

@[simp] theorem returns_onlyIf_bind {c : Prop} [Decidable c] {m : Svc σ ε Unit}
    {f : Unit → Svc σ ε β} {s s'' : σ} {b : β} :
    Returns (onlyIf c m >>= f) s b s'' ↔
      (c ∧ ∃ s', Returns m s () s' ∧ Returns (f ()) s' b s'') ∨ (¬ c ∧ Returns (f ()) s b s'') := by
  rw [returns_bind]
  simp only [returns_onlyIf]
  constructor
  · rintro ⟨⟨⟩, s', (⟨hc, hm⟩ | ⟨hc, rfl⟩), hf⟩
    · exact Or.inl ⟨hc, s', hm, hf⟩
    · exact Or.inr ⟨hc, hf⟩
  · rintro (⟨hc, s', hm, hf⟩ | ⟨hc, hf⟩)
    · exact ⟨(), s', Or.inl ⟨hc, hm⟩, hf⟩
    · exact ⟨(), s, Or.inr ⟨hc, rfl⟩, hf⟩

@[simp] theorem returns_attempt_bind {m : Svc σ ε α} {f : Unit → Svc σ ε β} {s s' : σ} {b : β} :
    Returns (attempt m >>= f) s b s' ↔ Returns (f ()) (exec m s).2 b s' := by
  rw [returns_bind_of_write (c := True) (t := (exec m s).2) fun _ _ => by simp]; simp

@[simp] theorem returns_bind_throw {m : Svc σ ε α} {e : ε} {s s' : σ} {b : β} :
    Returns (m >>= fun _ => (throw e : Svc σ ε β)) s b s' ↔ False := by
  rw [returns_bind]
  simp

@[simp] theorem returns_map {m : Svc σ ε α} {f : α → β} {s s' : σ} {b : β} :
    Returns (f <$> m) s b s' ↔ ∃ a, Returns m s a s' ∧ f a = b := by
  have hm : f <$> m = m >>= fun a => pure (f a) := by
    rw [← bind_pure_comp]
  rw [hm, returns_bind]
  constructor
  · rintro ⟨a, s1, ha, hp⟩
    obtain ⟨rfl, rfl⟩ := returns_pure.mp hp
    exact ⟨a, ha, rfl⟩
  · rintro ⟨a, ha, rfl⟩
    exact ⟨a, s', ha, returns_pure.mpr ⟨rfl, rfl⟩⟩

theorem returns_zoom {τ : Type} {view : σ → τ} {put : τ → σ → σ} {m : Svc τ ε α} {s s' : σ}
    {a : α} :
    Returns (zoom view put m) s a s' ↔ ∃ t, Returns m (view s) a t ∧ put t s = s' := by
  unfold Returns
  rw [exec_zoom]
  match h : exec m (view s) with
  | (.ok b, t) =>
    simp only [Prod.mk.injEq, Except.ok.injEq]
    constructor
    · rintro ⟨rfl, rfl⟩
      exact ⟨t, ⟨rfl, rfl⟩, rfl⟩
    · rintro ⟨_, ⟨rfl, rfl⟩, rfl⟩
      exact ⟨rfl, rfl⟩
  | (.error e, t) => simp

@[simp] theorem returns_void {m : Svc σ ε α} {s s' : σ} {u : Unit} :
    Returns (void m) s u s' ↔ ∃ a, Returns m s a s' := by
  unfold Returns void
  rw [exec_map]
  match exec m s with
  | (.ok a, t) => simp
  | (.error e, t) => simp

/-- A handler that raises again returns nothing of its own. -/
theorem returns_tryCatch_reraise {m : Svc σ ε α} {h : ε → Svc σ ε α} {s s' : σ} {a : α}
    (hh : ∀ e t b t', ¬ Returns (h e) t b t') :
    Returns (tryCatch m h) s a s' ↔ Returns m s a s' := by
  unfold Returns at hh ⊢
  rw [exec_tryCatch]
  match exec m s with
  | (.ok b, t) => exact Iff.rfl
  | (.error e, t) =>
    exact ⟨fun hr => absurd hr (hh e t a s'), fun hr => nomatch congrArg Prod.fst hr⟩

/-- A service returns at most one value and leaves at most one state. -/
theorem Returns.unique {m : Svc σ ε α} {s s' s'' : σ} {a b : α} (h : Returns m s a s')
    (h' : Returns m s b s'') : a = b ∧ s' = s'' := by
  have heq : (Except.ok a, s') = ((Except.ok b, s'') : Except ε α × σ) := h.symm.trans h'
  simpa using heq

/-- A loop: its first round, then the others. -/
theorem returns_forM_cons {f : α → Svc σ ε PUnit} {a : α} {l : List α} {s s' : σ} {u : PUnit} :
    Returns (forM (a :: l) f) s u s' ↔
      ∃ t, Returns (f a) s ⟨⟩ t ∧ Returns (forM l f) t u s' := by
  rw [List.forM_cons, returns_bind]
  constructor
  · rintro ⟨_, t, hfirst, hrest⟩
    exact ⟨t, hfirst, hrest⟩
  · rintro ⟨t, hfirst, hrest⟩
    exact ⟨_, t, hfirst, hrest⟩

/-- What the rounds of a loop preserve. -/
theorem Returns.forM_induction {f : α → Svc σ ε PUnit} {P : σ → Prop} {l : List α}
    (hf : ∀ a ∈ l, ∀ s s', P s → Returns (f a) s ⟨⟩ s' → P s') {s s' : σ} {u : PUnit}
    (h : Returns (forM l f) s u s') (hs : P s) : P s' := by
  induction l generalizing s with
  | nil => exact (returns_pure.mp h).2 ▸ hs
  | cons a l ih =>
    obtain ⟨t, hfirst, hrest⟩ := returns_forM_cons.mp h
    exact ih (fun b hb => hf b (List.mem_cons_of_mem a hb)) hrest
      (hf a List.mem_cons_self s t hs hfirst)

/-- A loop whose rounds do not return has none. -/
theorem Returns.forM_refused {f : α → Svc σ ε PUnit} {l : List α} {s s' : σ} {u : PUnit}
    (h : Returns (forM l f) s u s') (hf : ∀ a ∈ l, ∀ t, ¬ Returns (f a) s ⟨⟩ t) :
    l = [] ∧ s' = s := by
  cases l with
  | nil => exact ⟨rfl, (returns_pure.mp h).2.symm⟩
  | cons a l =>
    obtain ⟨t, hfirst, -⟩ := returns_forM_cons.mp h
    exact absurd hfirst (hf a List.mem_cons_self t)

/-! ## Raising -/

/-- `m` run on `s` raises `e`. -/
def Raises (m : Svc σ ε α) (s : σ) (e : ε) : Prop := (exec m s).1 = .error e

@[simp] theorem raises_pure {a : α} {s : σ} {e : ε} : ¬ Raises (pure a : Svc σ ε α) s e := by
  simp [Raises]

@[simp] theorem raises_throw {e e' : ε} {s : σ} : Raises (throw e : Svc σ ε α) s e' ↔ e = e' := by
  simp [Raises]

@[simp] theorem raises_get {s : σ} {e : ε} : ¬ Raises (get : Svc σ ε σ) s e := by
  simp [Raises]

@[simp] theorem raises_modify {f : σ → σ} {s : σ} {e : ε} :
    ¬ Raises (modify f : Svc σ ε PUnit) s e := by
  simp [Raises]

@[simp] theorem raises_require {c : Prop} [Decidable c] {e e' : ε} {s : σ} :
    Raises (require c e) s e' ↔ ¬ c ∧ e = e' := by
  unfold Raises
  rw [exec_require]
  split_ifs with h <;> simp [h]

@[simp] theorem raises_expect {o : Option α} {e e' : ε} {s : σ} :
    Raises (expect o e) s e' ↔ o = none ∧ e = e' := by
  unfold Raises
  rw [exec_expect]
  cases o <;> simp

@[simp] theorem raises_onlyIf {c : Prop} [Decidable c] {m : Svc σ ε Unit} {s : σ} {e : ε} :
    Raises (onlyIf c m) s e ↔ c ∧ Raises m s e := by
  unfold onlyIf
  split_ifs with h <;> simp [h]

@[simp] theorem raises_zoom {τ : Type} {view : σ → τ} {put : τ → σ → σ} {m : Svc τ ε α} {s : σ}
    {e : ε} : Raises (zoom view put m) s e ↔ Raises m (view s) e :=
  Iff.rfl

/-- A sequence raises in its first part, or after it. -/
@[simp] theorem raises_bind {m : Svc σ ε α} {f : α → Svc σ ε β} {s : σ} {e : ε} :
    Raises (m >>= f) s e ↔ Raises m s e ∨ ∃ a s', Returns m s a s' ∧ Raises (f a) s' e := by
  unfold Raises Returns
  rw [exec_bind]
  match h : exec m s with
  | (.ok a, s') =>
    simp only [Prod.mk.injEq, Except.ok.injEq, reduceCtorEq, false_or]
    constructor
    · intro hf
      exact ⟨a, s', ⟨rfl, rfl⟩, hf⟩
    · rintro ⟨_, _, ⟨rfl, rfl⟩, hf⟩
      exact hf
  | (.error e', s') => simp

@[simp] theorem raises_map {m : Svc σ ε α} {f : α → β} {s : σ} {e : ε} :
    Raises (f <$> m) s e ↔ Raises m s e := by
  unfold Raises
  rw [exec_map]
  match exec m s with
  | (.ok a, s') => simp
  | (.error e', s') => simp

@[simp] theorem raises_void {m : Svc σ ε α} {s : σ} {e : ε} :
    Raises (void m) s e ↔ Raises m s e := raises_map

/-! ## What never decreases

A value of the state that no path of a service decreases, whether it returns or
raises: a generated key, a version, a clock. -/

/-- `m` never decreases `f`. -/
def Grows {τ : Type} [Preorder τ] (f : σ → τ) (m : Svc σ ε α) : Prop :=
  ∀ s, f s ≤ f (exec m s).2

section
variable {τ : Type} [Preorder τ] {f : σ → τ}

@[simp] theorem grows_pure (a : α) : Grows f (pure a : Svc σ ε α) := fun _ => le_refl _

@[simp] theorem grows_throw (e : ε) : Grows f (throw e : Svc σ ε α) := fun _ => le_refl _

@[simp] theorem grows_get : Grows f (get : Svc σ ε σ) := fun _ => le_refl _

theorem grows_modify {g : σ → σ} (h : ∀ s, f s ≤ f (g s)) :
    Grows f (modify g : Svc σ ε PUnit) := h

@[simp] theorem grows_require (c : Prop) [Decidable c] (e : ε) :
    Grows f (require c e : Svc σ ε Unit) := by
  intro s
  rw [exec_require]
  split_ifs <;> exact le_refl _

@[simp] theorem grows_expect (o : Option α) (e : ε) : Grows f (expect o e : Svc σ ε α) := by
  intro s
  rw [exec_expect]
  cases o <;> exact le_refl _

@[simp] theorem grows_bind {m : Svc σ ε α} {k : α → Svc σ ε β} (hm : Grows f m)
    (hk : ∀ a, Grows f (k a)) : Grows f (m >>= k) := by
  intro s
  have h1 := hm s
  rw [exec_bind]
  match h : exec m s with
  | (.ok a, s') =>
    rw [h] at h1
    exact le_trans h1 (hk a s')
  | (.error e, s') =>
    rw [h] at h1
    exact h1

@[simp] theorem grows_onlyIf {c : Prop} [Decidable c] {m : Svc σ ε Unit} (hm : Grows f m) :
    Grows f (onlyIf c m) := by
  unfold onlyIf
  split_ifs
  · exact hm
  · exact grows_pure ()

@[simp] theorem grows_attempt {m : Svc σ ε α} (hm : Grows f m) : Grows f (attempt m) := by
  intro s
  rw [exec_attempt]
  exact hm s

@[simp] theorem grows_map {m : Svc σ ε α} {g : α → β} (hm : Grows f m) : Grows f (g <$> m) := by
  rw [← bind_pure_comp]
  exact grows_bind hm fun a => grows_pure (g a)

end

/-! ## Requests -/

/-- One request in one transaction. When an exception leaves the service the
    state is `restore s s'`, where `s` is the state before the request and `s'`
    the one at the raise: `restore` puts back what the database rolls back and
    keeps what lives outside it. -/
def request (restore : σ → σ → σ) (m : Svc σ ε α) (s : σ) : Except ε α × σ :=
  match exec m s with
  | (.ok a, s') => (.ok a, s')
  | (.error e, s') => (.error e, restore s s')

theorem request_of_returns {restore : σ → σ → σ} {m : Svc σ ε α} {s s' : σ} {a : α}
    (h : Returns m s a s') : request restore m s = (.ok a, s') := by
  unfold request; rw [h]

/-- A request answers an error exactly when its service raises. -/
theorem request_error_iff {restore : σ → σ → σ} {m : Svc σ ε α} {s : σ} {e : ε} :
    (request restore m s).1 = .error e ↔ Raises m s e := by
  unfold request Raises
  match exec m s with
  | (.ok a, s') => simp
  | (.error e', s') => simp

/-- What a service that returns leaves is not less. -/
theorem Grows.returns {τ : Type} [Preorder τ] {f : σ → τ} {m : Svc σ ε α} (hm : Grows f m)
    {s s' : σ} {a : α} (h : Returns m s a s') : f s ≤ f s' := by
  have hs := hm s
  unfold Returns at h
  rw [h] at hs
  exact hs

/-- A value that the rollback keeps is not decreased by a request. -/
theorem Grows.request {τ : Type} [Preorder τ] {f : σ → τ} {restore : σ → σ → σ}
    (hres : ∀ s s', f (restore s s') = f s') {m : Svc σ ε α} (hm : Grows f m) (s : σ) :
    f s ≤ f (request restore m s).2 := by
  have h := hm s
  unfold Svc.request
  match he : exec m s with
  | (.ok a, s') =>
    rw [he] at h
    exact h
  | (.error e, s') =>
    rw [he] at h
    simp only [hres]
    exact h

/-- A request whose rollback restores the whole state. -/
theorem request_map_snd (m : Svc σ ε α) (f : α → β) (s : σ) :
    (request (fun before _ => before) (f <$> m) s).2 =
      match exec m s with
      | (.ok _, s') => s'
      | (.error _, _) => s := by
  unfold request
  rw [exec_map]
  match exec m s with
  | (.ok a, s') => rfl
  | (.error e, s') => rfl

/-- A request either commits what its service returned with, or leaves the
    restored state. -/
theorem request_cases (restore : σ → σ → σ) (m : Svc σ ε α) (s : σ) :
    (∃ a s', Returns m s a s' ∧ request restore m s = (.ok a, s')) ∨
    (∃ e s', exec m s = (.error e, s') ∧ request restore m s = (.error e, restore s s')) := by
  unfold request Returns
  match exec m s with
  | (.ok a, s') => exact Or.inl ⟨a, s', rfl, rfl⟩
  | (.error e, s') => exact Or.inr ⟨e, s', rfl, rfl⟩

end Svc

end ServiceLib
