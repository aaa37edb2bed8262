import Mathlib.Data.List.Basic
import Mathlib.Tactic.SplitIfs

/-!
# Writers and readers of JSON

A writer turns values into JSON and a reader turns JSON into values of another
type; the two are declared apart. `Reads` says exactly which written values the
reader takes and what it makes of them. `J` is any type of JSON values.

Results:
* `Reads.list`: a list is taken when each of its items is.
-/

namespace CodecLib

variable {J α β : Type}

/-- The reader takes what was written of `a` exactly when `ok a`, and as `val a`. -/
def Reads (enc : α → J) (dec : J → Option β) (ok : α → Prop) (val : α → β) : Prop :=
  ∀ a b, dec (enc a) = some b ↔ ok a ∧ val a = b

variable {enc : α → J} {dec : J → Option β} {ok : α → Prop} {val : α → β}

/-- Every written value is taken. -/
theorem reads_of_eq (h : ∀ a, dec (enc a) = some (val a)) :
    Reads enc dec (fun _ => True) val := by
  intro a b
  rw [h, Option.some_inj, true_and]

/-- No written value is taken. -/
theorem reads_of_none (h : ∀ a, dec (enc a) = none) : Reads enc dec (fun _ => False) val := by
  intro a b
  rw [h]
  exact iff_of_false (by simp) (fun h => h.1)

/-! ## Lists and null -/

/-- A list is taken when each of its items is. -/
theorem Reads.list (h : Reads enc dec ok val) (l : List α) (bs : List β) :
    (l.map enc).mapM dec = some bs ↔ (∀ a ∈ l, ok a) ∧ l.map val = bs := by
  induction l generalizing bs with
  | nil => simp [eq_comm]
  | cons a l ih =>
    rw [List.map_cons, List.mapM_cons]
    constructor
    · intro hs
      obtain ⟨b, hb, hs⟩ := Option.bind_eq_some_iff.mp hs
      obtain ⟨bs', hbs, hs⟩ := Option.bind_eq_some_iff.mp hs
      obtain ⟨ha, rfl⟩ := (h a b).mp hb
      obtain ⟨hl, rfl⟩ := (ih bs').mp hbs
      cases hs
      exact ⟨List.forall_mem_cons.mpr ⟨ha, hl⟩, rfl⟩
    · rintro ⟨hall, rfl⟩
      obtain ⟨ha, hl⟩ := List.forall_mem_cons.mp hall
      rw [(h a _).mpr ⟨ha, rfl⟩, (ih _).mpr ⟨hl, rfl⟩]
      rfl

/-- `null` for no value. -/
def nullable (null : J) (enc : α → J) : Option α → J
  | none => null
  | some a => enc a

/-- A reader of a value that may be null. -/
def orNull (isNull : J → Bool) (dec : J → Option β) (j : J) : Option (Option β) :=
  if isNull j then some none else (dec j).map some

/-! ## Fields -/

/-- The value under a key. -/
def field (fields : List (String × J)) (key : String) : Option J :=
  (fields.find? fun e => e.1 = key).map Prod.snd

/-- A field that must be there. -/
def required (dec : J → Option β) (fields : List (String × J)) (key : String) : Option β :=
  (field fields key).bind dec

/-- A field that may be missing or null. -/
def optional (isNull : J → Bool) (dec : J → Option β) (fields : List (String × J))
    (key : String) : Option (Option β) :=
  match field fields key with
  | none => some none
  | some j => orNull isNull dec j

end CodecLib
