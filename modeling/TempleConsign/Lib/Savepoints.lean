import Mathlib.Data.List.Basic
import Mathlib.Tactic.SplitIfs

/-!
# Transactions with savepoints

What a transaction has done is a value; a savepoint keeps a copy of it. A statement that
fails leaves a transaction that does nothing more until it is rolled back, to a savepoint or
as a whole.

Results:
* `All.run`, `All.control`: what the statements preserve holds of the value and of every copy.
* `All.result`: so it does of what is committed.
-/

namespace ServiceLib

variable {σ : Type}

/-- `saved` are the copies, the innermost first; `current` is, when a statement `failed`, the
    value before it. -/
structure Nested (σ : Type) where
  current : σ
  failed : Bool
  saved : List σ

/-- `SAVEPOINT`, `ROLLBACK TO` and `RELEASE` of the `n`-th savepoint from within, and a
    statement that fails. -/
inductive SavepointOp
  | savepoint
  | rollbackTo (n : ℕ)
  | release (n : ℕ)
  | fail

namespace Nested

/-- `BEGIN`. -/
def start (s : σ) : Nested σ := ⟨s, false, []⟩

def fail (t : Nested σ) : Nested σ := { t with failed := true }

/-- A statement; `none` is a failure. -/
def run (m : σ → Option σ) (t : Nested σ) : Nested σ :=
  if t.failed then t
  else match m t.current with
    | some s => { t with current := s }
    | none => t.fail

def savepoint (t : Nested σ) : Nested σ :=
  if t.failed then t else { t with saved := t.current :: t.saved }

/-- A savepoint that is not there is an error. -/
def rollbackTo (t : Nested σ) (n : ℕ) : Nested σ :=
  match t.saved.drop n with
  | [] => t.fail
  | s :: rest => ⟨s, false, s :: rest⟩

def release (t : Nested σ) (n : ℕ) : Nested σ :=
  if t.failed then t
  else if n < t.saved.length then { t with saved := t.saved.drop (n + 1) }
  else t.fail

def control (t : Nested σ) : SavepointOp → Nested σ
  | .savepoint => t.savepoint
  | .rollbackTo n => t.rollbackTo n
  | .release n => t.release n
  | .fail => t.fail

/-- What `COMMIT` commits; a failed transaction is rolled back. -/
def result (t : Nested σ) : Option σ := if t.failed then none else some t.current

/-- What has an effect on others while the transaction runs. -/
def held (t : Nested σ) : Option σ := if t.failed then t.saved.head? else some t.current

/-- `P` holds of the value and of every copy. -/
def All (P : σ → Prop) (t : Nested σ) : Prop := P t.current ∧ ∀ s ∈ t.saved, P s

variable {P : σ → Prop} {t : Nested σ}

theorem all_start {s : σ} (h : P s) : (start s).All P := ⟨h, fun _ hs => nomatch hs⟩

theorem All.run {m : σ → Option σ} (h : t.All P) (hm : ∀ s s', P s → m s = some s' → P s') :
    (t.run m).All P := by
  unfold Nested.run
  split_ifs
  · exact h
  · cases hs : m t.current with
    | none => exact h
    | some s => exact ⟨hm t.current s h.1 hs, h.2⟩

theorem All.savepoint (h : t.All P) : t.savepoint.All P := by
  unfold Nested.savepoint
  split_ifs
  · exact h
  · exact ⟨h.1, List.forall_mem_cons.mpr h⟩

theorem All.rollbackTo (h : t.All P) (n : ℕ) : (t.rollbackTo n).All P := by
  have hdrop : ∀ s ∈ t.saved.drop n, P s := fun s hs => h.2 s (List.mem_of_mem_drop hs)
  unfold Nested.rollbackTo
  cases hs : t.saved.drop n with
  | nil => exact h
  | cons s rest =>
    rw [hs] at hdrop
    exact ⟨hdrop s List.mem_cons_self, hdrop⟩

theorem All.release (h : t.All P) (n : ℕ) : (t.release n).All P := by
  unfold Nested.release
  split_ifs
  · exact h
  · exact ⟨h.1, fun s hs => h.2 s (List.mem_of_mem_drop hs)⟩
  · exact h

theorem All.control (h : t.All P) (o : SavepointOp) : (t.control o).All P := by
  cases o with
  | savepoint => exact h.savepoint
  | rollbackTo n => exact h.rollbackTo n
  | release n => exact h.release n
  | fail => exact h

theorem All.result {s : σ} (h : t.All P) (hs : t.result = some s) : P s := by
  unfold Nested.result at hs
  split_ifs at hs
  exact Option.some.inj hs ▸ h.1

end Nested

end ServiceLib
