import TempleConsign.Lib.Store

/-!
# Upserts

A table with a unique index on a key of its rows, and `INSERT … ON CONFLICT (key) DO UPDATE`.
Such a table is a partial function of the key: `rowOf`.

Results:
* `rowOf_eq_some`: the row of a key.
* `Keyed.upsert`, `Keyed.modifyWhere`: the writes keep the index.
* `rowOf_upsert`, `rowOf_modifyWhere`: the row of every key after a write.
-/

namespace ServiceLib.Store

variable {ρ κ : Type}

/-- The unique index: no two rows have one key. -/
def Keyed (key : ρ → κ) (t : Store ρ) : Prop := t.Pairwise fun a b => key a ≠ key b

variable [DecidableEq κ]

/-- The row of a key, with its id. -/
def rowOf (key : ρ → κ) (t : Store ρ) (k : κ) : Option (ℕ × ρ) :=
  (t.select fun _ r => key r = k).head?

/-- `INSERT … ON CONFLICT (key) DO UPDATE`. -/
def upsert (key : ρ → κ) (t : Store ρ) (a : ρ) (f : ρ → ρ) : Store ρ :=
  match rowOf key t (key a) with
  | none => t.create a
  | some (id, _) => t.modify id f

variable {key : ρ → κ} {t : Store ρ} {a r : ρ} {f : ρ → ρ} {k : κ} {id : ℕ}

omit [DecidableEq κ] in
theorem Keyed.eq (h : Keyed key t) {i j : ℕ} {a b : ρ} (ha : t.get? i = some a)
    (hb : t.get? j = some b) (hk : key a = key b) : i = j := by
  by_contra hij
  exact h i j a b hij ha hb hk

theorem rowOf_eq_some (h : Keyed key t) :
    rowOf key t k = some (id, r) ↔ t.get? id = some r ∧ key r = k := by
  unfold rowOf
  constructor
  · intro hr
    obtain ⟨hget, hk⟩ := mem_select.mp (List.mem_of_head? hr)
    exact ⟨hget, of_decide_eq_true hk⟩
  · rintro ⟨hget, hk⟩
    have hone : t.select (fun _ r => key r = k) = [(id, r)] := by
      refine select_eq_singleton ⟨hget, decide_eq_true hk⟩ fun j b hb hkb => ?_
      exact h.eq hb hget ((of_decide_eq_true hkb).trans hk.symm)
    rw [hone]
    rfl

theorem rowOf_eq_none (h : Keyed key t) :
    rowOf key t k = none ↔ ∀ id r, t.get? id = some r → key r ≠ k := by
  rw [Option.eq_none_iff_forall_ne_some]
  constructor
  · intro hnone id r hr hk
    exact hnone (id, r) ((rowOf_eq_some h).mpr ⟨hr, hk⟩)
  · rintro hfree ⟨id, r⟩ hr
    obtain ⟨hget, hk⟩ := (rowOf_eq_some h).mp hr
    exact hfree id r hget hk

omit [DecidableEq κ] in
theorem keyed_empty : Keyed key (empty : Store ρ) := pairwise_empty

@[simp] theorem rowOf_empty : rowOf key (empty : Store ρ) k = none := rfl

/-- Two tables of which one has, for every key, the row that `g` makes of the other's. -/
theorem rowOf_ext (h : Keyed key t) {o : Option (ℕ × ρ)}
    (ho : ∀ id r, t.get? id = some r ∧ key r = k ↔ o = some (id, r)) : rowOf key t k = o :=
  Option.ext fun e => (rowOf_eq_some h).trans (ho e.1 e.2)

/-! ## Creating -/

omit [DecidableEq κ] in
theorem Keyed.create (h : Keyed key t) (hfree : ∀ id r, t.get? id = some r → key r ≠ key a) :
    Keyed key (t.create a) :=
  (pairwise_create_iff (fun _ _ hab => Ne.symm hab) h).mpr fun j b hb => Ne.symm (hfree j b hb)

theorem rowOf_create (h : Keyed key t) (hfree : ∀ id r, t.get? id = some r → key r ≠ key a) :
    rowOf key (t.create a) k = if k = key a then some (t.next, a) else rowOf key t k := by
  refine rowOf_ext (h.create hfree) fun id r => ?_
  rw [get?_create]
  split_ifs with hid hk hk
  · subst hid
    subst hk
    simp only [Option.some.injEq, Prod.mk.injEq, true_and]
    exact ⟨And.left, fun heq => ⟨heq, heq ▸ rfl⟩⟩
  · subst hid
    rw [rowOf_eq_some h, get?_next]
    simp only [Option.some.injEq, reduceCtorEq, false_and, iff_false, not_and]
    rintro rfl
    exact Ne.symm hk
  · subst hk
    simp only [Option.some.injEq, Prod.mk.injEq]
    constructor
    · rintro ⟨hr, hk⟩
      exact absurd hk (hfree id r hr)
    · rintro ⟨heq, -⟩
      exact absurd heq.symm hid
  · exact (rowOf_eq_some h).symm

/-! ## Updating -/

omit [DecidableEq κ] in
theorem Keyed.modify (h : Keyed key t) (hf : ∀ r, key (f r) = key r) (id : ℕ) :
    Keyed key (t.modify id f) := by
  refine Pairwise.modify (fun _ _ hab => Ne.symm hab) (fun a b _ hab => ?_) h
  rw [hf]
  exact hab

theorem rowOf_modify (h : Keyed key t) (hf : ∀ r, key (f r) = key r) (id : ℕ) :
    rowOf key (t.modify id f) k =
      (rowOf key t k).map fun e => (e.1, if e.1 = id then f e.2 else e.2) := by
  refine rowOf_ext (h.modify hf id) fun j r => ?_
  rw [get?_modify, Option.map_eq_some_iff]
  constructor
  · rintro ⟨hr, rfl⟩
    split_ifs at hr with hj
    · obtain ⟨b, hb, rfl⟩ := Option.map_eq_some_iff.mp hr
      refine ⟨(j, b), (rowOf_eq_some h).mpr ⟨hb, (hf b).symm⟩, ?_⟩
      rw [if_pos hj]
    · refine ⟨(j, r), (rowOf_eq_some h).mpr ⟨hr, rfl⟩, ?_⟩
      rw [if_neg hj]
  · rintro ⟨⟨i, b⟩, hb, heq⟩
    obtain ⟨hget, rfl⟩ := (rowOf_eq_some h).mp hb
    obtain ⟨rfl, rfl⟩ := Prod.mk.inj heq
    dsimp only
    split_ifs with hi
    · exact ⟨by rw [hget]; rfl, hf b⟩
    · exact ⟨hget, rfl⟩

omit [DecidableEq κ] in
theorem Keyed.modifyWhere (h : Keyed key t) (hf : ∀ r, key (f r) = key r)
    (p : ℕ → ρ → Bool) : Keyed key (t.modifyWhere p f) := by
  have hkey : ∀ {i : ℕ} {a : ρ}, (t.modifyWhere p f).get? i = some a →
      ∃ b, t.get? i = some b ∧ key b = key a := by
    intro i a ha
    rw [get?_modifyWhere] at ha
    obtain ⟨b, hb, rfl⟩ := Option.map_eq_some_iff.mp ha
    refine ⟨b, hb, ?_⟩
    split_ifs
    · exact (hf b).symm
    · rfl
  intro i j a b hij ha hb
  obtain ⟨a', ha', hka⟩ := hkey ha
  obtain ⟨b', hb', hkb⟩ := hkey hb
  rw [← hka, ← hkb]
  exact h i j a' b' hij ha' hb'

theorem rowOf_modifyWhere (h : Keyed key t) (hf : ∀ r, key (f r) = key r)
    (p : ℕ → ρ → Bool) :
    rowOf key (t.modifyWhere p f) k =
      (rowOf key t k).map fun e => (e.1, if p e.1 e.2 then f e.2 else e.2) := by
  refine rowOf_ext (h.modifyWhere hf p) fun j r => ?_
  rw [get?_modifyWhere, Option.map_eq_some_iff, Option.map_eq_some_iff]
  have hkey : ∀ b, key (if p j b then f b else b) = key b := by
    intro b
    split_ifs
    · exact hf b
    · rfl
  constructor
  · rintro ⟨⟨b, hb, rfl⟩, rfl⟩
    exact ⟨(j, b), (rowOf_eq_some h).mpr ⟨hb, (hkey b).symm⟩, rfl⟩
  · rintro ⟨⟨i, b⟩, hb, heq⟩
    obtain ⟨hget, rfl⟩ := (rowOf_eq_some h).mp hb
    obtain ⟨rfl, rfl⟩ := Prod.mk.inj heq
    exact ⟨⟨b, hget, rfl⟩, hkey b⟩

/-! ## Upserting -/

theorem Keyed.upsert (h : Keyed key t) (hf : ∀ r, key (f r) = key r) (a : ρ) :
    Keyed key (t.upsert key a f) := by
  unfold Store.upsert
  cases hr : rowOf key t (key a) with
  | none => exact h.create ((rowOf_eq_none h).mp hr)
  | some e => exact h.modify hf e.1

/-- The row of the key is created or updated, the other rows stay. -/
theorem rowOf_upsert (h : Keyed key t) (hf : ∀ r, key (f r) = key r) :
    rowOf key (t.upsert key a f) k =
      if k = key a then
        some ((rowOf key t k).elim (t.next, a) fun e => (e.1, f e.2))
      else rowOf key t k := by
  unfold Store.upsert
  cases hr : rowOf key t (key a) with
  | none =>
    dsimp only
    rw [rowOf_create h ((rowOf_eq_none h).mp hr)]
    split_ifs with hk
    · subst hk
      rw [hr, Option.elim_none]
    · rfl
  | some e =>
    obtain ⟨id, r⟩ := e
    obtain ⟨hget, hkr⟩ := (rowOf_eq_some h).mp hr
    dsimp only
    rw [rowOf_modify h hf]
    split_ifs with hk
    · subst hk
      rw [hr, Option.map_some, if_pos rfl, Option.elim_some]
    · cases hr' : rowOf key t k with
      | none => rfl
      | some e' =>
        obtain ⟨hget', hk'⟩ := (rowOf_eq_some h).mp hr'
        have hne : e'.1 ≠ id := by
          intro heq
          have hsame : some e'.2 = some r := hget'.symm.trans (heq ▸ hget)
          exact hk ((hk'.symm.trans (congrArg key (Option.some.inj hsame))).trans hkr)
        rw [Option.map_some, if_neg hne]

end ServiceLib.Store
