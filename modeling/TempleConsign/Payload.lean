import Mathlib.Data.Int.Notation

/-!
# Payloads

The `payload` column of `notification_jobs`: a dictionary of JSON values, whose
keys and values each service chooses for itself. A dispatcher reads it with
`payload.get(key)` and tests the value for truth.

Results:
* `Payload.get_cons`: reading a field.
* `Value.truthy_str`, `Value.truthy_optional`: a text counts as present unless it
  is empty.
-/

namespace TempleConsign

/-- The JSON values that occur below the top level of a payload. -/
inductive Scalar
  | null
  | str (s : String)
  | bool (b : Bool)
  | int (n : ℤ)
  deriving DecidableEq

/-- The JSON values of a payload's fields. -/
inductive Value
  | scalar (s : Scalar)
  | dict (entries : List (String × Scalar))
  deriving DecidableEq

namespace Value

def none : Value := .scalar .null

def str (s : String) : Value := .scalar (.str s)

def bool (b : Bool) : Value := .scalar (.bool b)

/-- `str | None`. -/
def optional : Option String → Value
  | some s => .str s
  | .none => .none

/-- `bool(value)`. -/
def truthy : Value → Bool
  | .scalar .null => false
  | .scalar (.str s) => s ≠ ""
  | .scalar (.bool b) => b
  | .scalar (.int n) => n ≠ 0
  | .dict entries => !entries.isEmpty

@[simp] theorem truthy_none : none.truthy = false := rfl

@[simp] theorem truthy_str (s : String) : (str s).truthy = true ↔ s ≠ "" := by
  simp [str, truthy]

@[simp] theorem truthy_optional (s : Option String) :
    (optional s).truthy = true ↔ s.getD "" ≠ "" := by
  cases s with
  | none => simp [optional]
  | some t => simp [optional]

end Value

/-- The dictionary, in the order its keys were written. -/
structure Payload where
  fields : List (String × Value)
  deriving DecidableEq

namespace Payload

/-- `payload.get(key)`. -/
def get (p : Payload) (key : String) : Value := (p.fields.lookup key).getD .none

/-- What a dispatcher asks of a field. -/
def has (p : Payload) (key : String) : Bool := (p.get key).truthy

@[simp] theorem get_nil (key : String) : get ⟨[]⟩ key = .none := rfl

@[simp] theorem get_cons (key key' : String) (v : Value) (fields : List (String × Value)) :
    get ⟨(key', v) :: fields⟩ key = if key = key' then v else get ⟨fields⟩ key := by
  unfold get
  by_cases h : key = key'
  · simp [h]
  · have hne : (key == key') = false := by simp [h]
    rw [List.lookup_cons, hne, if_neg h]

end Payload

end TempleConsign
