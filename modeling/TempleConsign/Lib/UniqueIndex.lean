import TempleConsign.Lib.Store

/-!
# Writes under an index that is checked row by row

A table has an index that some pairs of rows violate (`clash`). A write of one row is
checked against the rows that are there; a flush writes several rows, one after the
other, in an order that is not known.

Results:
* `writeChecked_eq_some`: what one write checks and does.
* `Indexed.writeAll`, `get?_writeAll`: a flush that goes through keeps the index and every
  row that it does not write.
* `writeAll_of_apart`: where no new row clashes with another row, old or new, every
  order of the writes goes through and leaves the new rows.
-/

namespace ServiceLib

namespace Store

variable {ρ : Type} {clash : ρ → ρ → Bool}

/-- Any two rows are compatible. -/
def Indexed (clash : ρ → ρ → Bool) (t : Store ρ) : Prop := t.Pairwise fun a b => clash a b = false

/-- A checked `UPDATE` of the row with the key `u.1`. -/
def writeChecked (clash : ρ → ρ → Bool) (t : Store ρ) (u : ℕ × ρ) : Option (Store ρ) :=
  if t.exists? (fun j b => j ≠ u.1 && clash u.2 b) then none else some (t.modify u.1 fun _ => u.2)

/-- The writes of a flush, in this order. -/
def writeAll (clash : ρ → ρ → Bool) (t : Store ρ) (us : List (ℕ × ρ)) : Option (Store ρ) :=
  us.foldlM (writeChecked clash) t

/-- The new row clashes with no other row of the table. -/
def Fits (clash : ρ → ρ → Bool) (t : Store ρ) (u : ℕ × ρ) : Prop :=
  ∀ j b, j ≠ u.1 → t.get? j = some b → clash u.2 b = false

theorem writeChecked_eq_some {t t' : Store ρ} {u : ℕ × ρ} :
    writeChecked clash t u = some t' ↔ Fits clash t u ∧ t' = t.modify u.1 fun _ => u.2 := by
  have hfits : t.exists? (fun j b => j ≠ u.1 && clash u.2 b) = true ↔ ¬Fits clash t u := by
    simp [Fits, and_left_comm]
  unfold writeChecked
  split_ifs with h
  · simp [hfits.mp h]
  · have hf : Fits clash t u := not_not.mp fun hn => h (hfits.mpr hn)
    simp [hf, eq_comm]

/-- A checked write keeps the index. -/
theorem Indexed.writeChecked (hs : ∀ a b, clash a b = clash b a) {t t' : Store ρ} {u : ℕ × ρ}
    (h : Indexed clash t) (hw : writeChecked clash t u = some t') : Indexed clash t' := by
  obtain ⟨hf, rfl⟩ := writeChecked_eq_some.mp hw
  have hsym : ∀ a b, clash a b = false → clash b a = false := fun a b hab => hs a b ▸ hab
  cases ha : t.get? u.1 with
  | none => exact h.modify hsym fun a b hg => by rw [ha] at hg; cases hg
  | some a => exact (pairwise_modify_iff hsym ha h).mpr hf

theorem writeAll_cons (t : Store ρ) (u : ℕ × ρ) (us : List (ℕ × ρ)) :
    writeAll clash t (u :: us) = (writeChecked clash t u).bind fun t₁ => writeAll clash t₁ us := rfl

/-- A flush that goes through keeps the index. -/
theorem Indexed.writeAll (hs : ∀ a b, clash a b = clash b a) {us : List (ℕ × ρ)}
    {t t' : Store ρ} (h : Indexed clash t) (hw : writeAll clash t us = some t') :
    Indexed clash t' := by
  induction us generalizing t with
  | nil =>
    have ht : t = t' := Option.some.inj hw
    exact ht ▸ h
  | cons u us ih =>
    rw [writeAll_cons] at hw
    obtain ⟨t₁, hone, hrest⟩ := Option.bind_eq_some_iff.mp hw
    exact ih (h.writeChecked hs hone) hrest

/-- After a flush every row is as before, or one of the new ones. -/
theorem get?_writeAll {us : List (ℕ × ρ)} {t t' : Store ρ} (hw : writeAll clash t us = some t')
    {k : ℕ} {r : ρ} (hr : t'.get? k = some r) : t.get? k = some r ∨ (k, r) ∈ us := by
  induction us generalizing t with
  | nil =>
    have ht : t = t' := Option.some.inj hw
    exact .inl (ht ▸ hr)
  | cons u us ih =>
    rw [writeAll_cons] at hw
    obtain ⟨t₁, hone, hrest⟩ := Option.bind_eq_some_iff.mp hw
    obtain ⟨-, rfl⟩ := writeChecked_eq_some.mp hone
    rcases ih hrest with hold | hnew
    · rw [get?_modify] at hold
      split_ifs at hold with hk
      · obtain ⟨a, -, rfl⟩ := Option.map_eq_some_iff.mp hold
        exact .inr (List.mem_cons.mpr (.inl (by rw [hk])))
      · exact .inl hold
    · exact .inr (List.mem_cons_of_mem u hnew)

/-! ## Flushes that go through -/

/-- The updates of a flush: each key once, each of an existing row, each new row
    compatible with the other rows and with the other new ones. -/
structure Apart (clash : ρ → ρ → Bool) (t : Store ρ) (us : List (ℕ × ρ)) : Prop where
  keys : (us.map Prod.fst).Nodup
  stored : ∀ u ∈ us, t.get? u.1 ≠ none
  old : ∀ u ∈ us, Fits clash t u
  new : us.Pairwise fun u v => clash u.2 v.2 = false

theorem Apart.perm (hs : ∀ a b, clash a b = clash b a) {us vs : List (ℕ × ρ)} {t : Store ρ}
    (h : Apart clash t us) (hp : vs.Perm us) : Apart clash t vs where
  keys := (hp.map Prod.fst).nodup_iff.mpr h.keys
  stored := fun u hu => h.stored u (hp.mem_iff.mp hu)
  old := fun u hu => h.old u (hp.mem_iff.mp hu)
  new := (hp.symm.pairwise_iff fun {u v} huv => by rw [hs]; exact huv).mp h.new

/-- After the first write the other updates are as compatible as before. -/
theorem Apart.tail (hs : ∀ a b, clash a b = clash b a) {u : ℕ × ρ} {us : List (ℕ × ρ)}
    {t : Store ρ} (h : Apart clash t (u :: us)) :
    Apart clash (t.modify u.1 fun _ => u.2) us where
  keys := (List.nodup_cons.mp h.keys).2
  stored := by
    intro v hv
    rw [get?_modify]
    split_ifs with hk
    · have hu := h.stored u List.mem_cons_self
      obtain ⟨a, ha⟩ := Option.ne_none_iff_exists'.mp hu
      simp [hk, ha]
    · exact h.stored v (List.mem_cons_of_mem u hv)
  old := by
    intro v hv j b hj hb
    rw [get?_modify] at hb
    split_ifs at hb with hk
    · obtain ⟨a, -, rfl⟩ := Option.map_eq_some_iff.mp hb
      rw [hs]
      exact (List.pairwise_cons.mp h.new).1 v hv
    · exact h.old v (List.mem_cons_of_mem u hv) j b hj hb
  new := (List.pairwise_cons.mp h.new).2

/-- Where no new row clashes with another row, old or new, the flush goes through and
    leaves the new rows. -/
theorem writeAll_of_apart (hs : ∀ a b, clash a b = clash b a) {us : List (ℕ × ρ)} {t : Store ρ}
    (h : Apart clash t us) :
    ∃ t', writeAll clash t us = some t' ∧
      (∀ u ∈ us, t'.get? u.1 = some u.2) ∧
      ∀ k, k ∉ us.map Prod.fst → t'.get? k = t.get? k := by
  induction us generalizing t with
  | nil => exact ⟨t, rfl, fun u hu => by simp at hu, fun k _ => rfl⟩
  | cons u us ih =>
    have hone : writeChecked clash t u = some (t.modify u.1 fun _ => u.2) :=
      writeChecked_eq_some.mpr ⟨h.old u List.mem_cons_self, rfl⟩
    obtain ⟨t', hall, hnew, hold⟩ := ih (h.tail hs)
    have hnotin : u.1 ∉ us.map Prod.fst := (List.nodup_cons.mp h.keys).1
    obtain ⟨a, ha⟩ := Option.ne_none_iff_exists'.mp (h.stored u List.mem_cons_self)
    refine ⟨t', by rw [writeAll_cons, hone]; exact hall, fun v hv => ?_, fun k hk => ?_⟩
    · rcases List.mem_cons.mp hv with rfl | hv
      · rw [hold v.1 hnotin, get?_modify, if_pos rfl, ha]
        rfl
      · exact hnew v hv
    · rw [List.map_cons, List.mem_cons, not_or] at hk
      rw [hold k hk.2, get?_modify, if_neg hk.1]

end Store

end ServiceLib
