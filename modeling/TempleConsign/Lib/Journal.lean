import Mathlib.Data.List.Nodup
import Mathlib.Logic.Function.Basic
import Mathlib.Tactic.SplitIfs

/-!
# Journals

A journal is a list of entries about the values under keys. An entry says what some values were
before it and what becomes of them. A journal is exact when every entry is right about the
values before it and the values that result from all of them are those that are there.

An edit is a value that was loaded, changed and flushed later, when the value under its key may
be another. A flush writes the parts that the edit changed.

Results:
* `Exact.append_iff`: what an exact journal needs of its next entries.
* `exact_edits_iff`: edits of different keys, each entered with the value before and after it,
  keep a journal exact exactly when each loaded the value that it flushes over.
-/

namespace ServiceLib.Journal

variable {κ α : Type}

structure Entry (κ α : Type) where
  /-- The values that the entry says were there. -/
  before : κ → Option α
  effect : κ → α → α

/-- The values after the entries of a journal. -/
def replay (v : κ → α) (log : List (Entry κ α)) : κ → α :=
  log.foldl (fun v e k => e.effect k (v k)) v

/-- Every entry is right about the values before it. -/
def Truthful : (κ → α) → List (Entry κ α) → Prop
  | _, [] => True
  | v, e :: log => (∀ k, ∀ a ∈ e.before k, a = v k) ∧ Truthful (fun k => e.effect k (v k)) log

/-- The journal of a store that began with `start` and now has `v`. -/
def Exact (start : κ → α) (log : List (Entry κ α)) (v : κ → α) : Prop :=
  Truthful start log ∧ replay start log = v

theorem replay_append (v : κ → α) (log log' : List (Entry κ α)) :
    replay v (log ++ log') = replay (replay v log) log' :=
  List.foldl_append

theorem truthful_append (v : κ → α) (log log' : List (Entry κ α)) :
    Truthful v (log ++ log') ↔ Truthful v log ∧ Truthful (replay v log) log' := by
  induction log generalizing v with
  | nil => exact (and_iff_right trivial).symm
  | cons e log ih =>
    simp only [List.cons_append, Truthful, ih, and_assoc]
    rfl

theorem exact_nil (v : κ → α) : Exact v [] v := ⟨trivial, rfl⟩

@[simp] theorem exact_nil_iff {v v' : κ → α} : Exact v [] v' ↔ v = v' := and_iff_right trivial

theorem Exact.append_iff {start v v' : κ → α} {log log' : List (Entry κ α)}
    (h : Exact start log v) : Exact start (log ++ log') v' ↔ Exact v log' v' := by
  obtain ⟨htruth, rfl⟩ := h
  unfold Exact
  rw [truthful_append, replay_append]
  exact and_congr_left' (and_iff_right htruth)

theorem exact_cons_iff {v v' : κ → α} {e : Entry κ α} {log : List (Entry κ α)} :
    Exact v (e :: log) v' ↔
      (∀ k, ∀ a ∈ e.before k, a = v k) ∧ Exact (fun k => e.effect k (v k)) log v' :=
  and_assoc

/-! ## Edits -/

structure Edit (κ α : Type) where
  key : κ
  loaded : α
  new : α

variable [DecidableEq κ]

/-- The entry with the value before and after the edit. -/
def Edit.entry (e : Edit κ α) : Entry κ α where
  before k := if k = e.key then some e.loaded else none
  effect k a := if k = e.key then e.new else a

/-- `flush loaded new current` is the value after the parts that differ between `loaded` and
    `new` are written to `current`. -/
def Edit.write (flush : α → α → α → α) (v : κ → α) (e : Edit κ α) : κ → α :=
  Function.update v e.key (flush e.loaded e.new (v e.key))

variable {flush : α → α → α → α}

theorem write_ne {v : κ → α} {e : Edit κ α} {k : κ} (h : k ≠ e.key) : e.write flush v k = v k :=
  Function.update_of_ne h _ _

theorem writes_of_notMem {edits : List (Edit κ α)} {k : κ} (h : k ∉ edits.map Edit.key)
    (v : κ → α) : edits.foldl (Edit.write flush) v k = v k := by
  induction edits generalizing v with
  | nil => rfl
  | cons e edits ih =>
    rw [List.map_cons, List.mem_cons, not_or] at h
    rw [List.foldl_cons, ih h.2, write_ne h.1]

/-- Edits of different keys do not meet. -/
theorem writes_of_mem {edits : List (Edit κ α)} (hnd : (edits.map Edit.key).Nodup) {e : Edit κ α}
    (he : e ∈ edits) (v : κ → α) :
    edits.foldl (Edit.write flush) v e.key = flush e.loaded e.new (v e.key) := by
  induction edits generalizing v with
  | nil => cases he
  | cons e' edits ih =>
    rw [List.map_cons, List.nodup_cons] at hnd
    rw [List.foldl_cons]
    rcases List.mem_cons.mp he with rfl | he
    · rw [writes_of_notMem hnd.1, Edit.write, Function.update_self]
    · have hne : e.key ≠ e'.key := fun heq => hnd.1 (heq ▸ List.mem_map_of_mem he)
      rw [ih hnd.2 he, write_ne hne]

theorem exact_edits_iff (hflush : ∀ a b, flush a b a = b) {edits : List (Edit κ α)}
    (hnd : (edits.map Edit.key).Nodup) (v : κ → α) :
    Exact v (edits.map Edit.entry) (edits.foldl (Edit.write flush) v) ↔
      ∀ e ∈ edits, e.loaded = v e.key := by
  induction edits generalizing v with
  | nil => simp
  | cons e edits ih =>
    rw [List.map_cons, List.nodup_cons] at hnd
    have hbefore : (∀ k, ∀ a ∈ e.entry.before k, a = v k) ↔ e.loaded = v e.key := by
      constructor
      · intro h
        exact h e.key e.loaded (by simp [Edit.entry])
      · intro h k a ha
        simp only [Edit.entry] at ha
        split_ifs at ha with hk
        · cases ha
          rw [h, hk]
        · cases ha
    rw [List.map_cons, exact_cons_iff, List.foldl_cons, hbefore, List.forall_mem_cons]
    refine and_congr_right fun hloaded => ?_
    have hwrite : e.write flush v = fun k => e.entry.effect k (v k) := by
      funext k
      simp only [Edit.write, Edit.entry, Function.update_apply, ← hloaded, hflush]
    rw [← hwrite, ih hnd.2]
    refine forall₂_congr fun e' he' => ?_
    have hne : e'.key ≠ e.key := fun heq => hnd.1 (heq ▸ List.mem_map_of_mem he')
    rw [write_ne hne]

end ServiceLib.Journal
