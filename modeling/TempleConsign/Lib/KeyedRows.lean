import TempleConsign.Lib.Run

/-!
# Tables under a primary key

The rows of a table in the order of their inserts, no two of them with the same key. An
insert of a row whose key is there does nothing or fails.

Results:
* `mem_insertIfAbsent`, `taken_insertIfAbsent`, `taken_delete`: the rows and the keys after a
  write.
* `mem_insertAll`: the rows after inserts of rows with different keys.
* `addAll_ok`: adding rows whose keys are free goes through.
* `filter_key`: the one row of a key.
-/

namespace ServiceLib

structure KeyedRows {ρ κ : Type} (key : ρ → κ) where
  rows : List ρ
  nodup : (rows.map key).Nodup

namespace KeyedRows

variable {ρ κ ε : Type} {key : ρ → κ} {t : KeyedRows key} {a b : ρ} {k : κ}

theorem key_ne {l : List ρ} (h : key a ∉ l.map key) (hb : b ∈ l) : key b ≠ key a :=
  fun heq => h (heq ▸ List.mem_map_of_mem hb)

variable [DecidableEq κ]

/-- The key has a row. -/
def Taken (t : KeyedRows key) (k : κ) : Prop := k ∈ t.rows.map key

instance (t : KeyedRows key) (k : κ) : Decidable (t.Taken k) := inferInstanceAs (Decidable (_ ∈ _))

/-- `INSERT … ON CONFLICT DO NOTHING`. -/
def insertIfAbsent (t : KeyedRows key) (a : ρ) : KeyedRows key :=
  if h : t.Taken (key a) then t
  else
    { rows := t.rows ++ [a]
      nodup := by
        rw [List.map_append]
        exact nodup_append_one.mpr ⟨t.nodup, h⟩ }

/-- An `INSERT` that fails with `e` if the key is there. -/
def add (e : ε) (t : KeyedRows key) (a : ρ) : Except ε (KeyedRows key) :=
  if t.Taken (key a) then .error e else .ok (t.insertIfAbsent a)

/-- `DELETE` of the row with this key. -/
def delete (t : KeyedRows key) (k : κ) : KeyedRows key where
  rows := t.rows.filter fun a => key a ≠ k
  nodup := t.nodup.sublist (List.filter_sublist.map _)

theorem mem_insertIfAbsent :
    b ∈ (t.insertIfAbsent a).rows ↔ b ∈ t.rows ∨ (b = a ∧ ¬ t.Taken (key a)) := by
  unfold insertIfAbsent
  split_ifs with h
  · simp [h]
  · simp [h]

theorem taken_insertIfAbsent : (t.insertIfAbsent a).Taken k ↔ t.Taken k ∨ k = key a := by
  unfold insertIfAbsent
  split_ifs with h
  · constructor
    · exact .inl
    · rintro (hk | rfl)
      · exact hk
      · exact h
  · simp [Taken, or_comm, eq_comm]

theorem taken_delete {k' : κ} : (t.delete k').Taken k ↔ t.Taken k ∧ k ≠ k' := by
  simp only [Taken, delete, List.mem_map, List.mem_filter, decide_eq_true_eq]
  constructor
  · rintro ⟨a, ⟨ha, hne⟩, rfl⟩
    exact ⟨⟨a, ha, rfl⟩, hne⟩
  · rintro ⟨⟨a, ha, rfl⟩, hne⟩
    exact ⟨a, ⟨ha, hne⟩, rfl⟩

/-- Inserts of rows with different keys. -/
theorem mem_insertAll {l : List ρ} (hnd : (l.map key).Nodup) (t : KeyedRows key) :
    b ∈ (l.foldl insertIfAbsent t).rows ↔ b ∈ t.rows ∨ b ∈ l ∧ ¬ t.Taken (key b) := by
  induction l generalizing t with
  | nil => simp
  | cons a l ih =>
    rw [List.map_cons, List.nodup_cons] at hnd
    rw [List.foldl_cons, ih hnd.2, mem_insertIfAbsent, taken_insertIfAbsent, or_assoc]
    refine or_congr_right ?_
    rw [List.mem_cons, or_and_right]
    refine or_congr (and_congr_right fun heq => by rw [heq]) (and_congr_right fun hb => ?_)
    rw [not_or]
    exact and_iff_left (key_ne hnd.1 hb)

/-- Adding rows whose keys are free goes through. -/
theorem addAll_ok {l : List ρ} (hnd : (l.map key).Nodup) (e : ε) (t : KeyedRows key)
    (hfree : ∀ a ∈ l, ¬ t.Taken (key a)) :
    l.foldlM (add e) t = .ok (l.foldl insertIfAbsent t) := by
  induction l generalizing t with
  | nil => rfl
  | cons a l ih =>
    rw [List.map_cons, List.nodup_cons] at hnd
    have hadd : add e t a = .ok (t.insertIfAbsent a) := if_neg (hfree a List.mem_cons_self)
    rw [List.foldlM_cons, hadd, List.foldl_cons]
    refine ih hnd.2 _ fun b hb => ?_
    rw [taken_insertIfAbsent, not_or]
    exact ⟨hfree b (List.mem_cons_of_mem a hb), key_ne hnd.1 hb⟩

/-- The one row of a key. -/
theorem filter_key (h : a ∈ t.rows) : t.rows.filter (fun b => key b = key a) = [a] := by
  have hkeys := t.nodup
  revert h hkeys
  induction t.rows with
  | nil => simp
  | cons b l ih =>
    intro h hnd
    rw [List.map_cons, List.nodup_cons] at hnd
    rcases List.mem_cons.mp h with rfl | h
    · have hrest : l.filter (fun b => key b = key a) = [] := by
        rw [List.filter_eq_nil_iff]
        intro b hb heq
        exact key_ne hnd.1 hb (of_decide_eq_true heq)
      have hself : decide (key a = key a) = true := decide_eq_true rfl
      rw [List.filter_cons, if_pos hself]
      exact congrArg (a :: ·) hrest
    · have hne : key b ≠ key a := (key_ne hnd.1 h).symm
      rw [List.filter_cons_of_neg (by simpa using hne)]
      exact ih h hnd.2

end KeyedRows

end ServiceLib
