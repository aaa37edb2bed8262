import Mathlib.Algebra.Order.Floor.Ring
import Mathlib.Data.List.TakeWhile
import Mathlib.Data.Rat.Floor
import TempleConsign.RedFlags

/-!
# Columns

What the columns of the category tables hold, and how a value of a JSON body gets into
one: `VARCHAR(n)` and `TEXT`, `INTEGER`, `NUMERIC(6, 4)` and `BOOLEAN`
(`src/api/database/models.py` lines 559 to 704), and Python's `==`, `int` and `bool`.

Deviations: a dict is listed in the order in which JSONB gives it back. A float that is
not finite equals nothing. An `INTEGER` column refuses floats (`PyValue.storeInt`), which the
driver cuts off to whole numbers.

Results:
* `readDecimal_text`: a decimal and its text.
* `Varchar.store_text`, `storeBool_of_eq`, `storeInt_of_eq`: a value that equals what a column
  holds is stored as that.
* `strip_store`: a text column keeps a text up to blanks at its end.
-/

namespace TempleConsign

/-! ## Equality -/

/-- The number that a value is; `True` is 1. -/
def PyValue.number : PyValue → Option ℚ
  | .bool b => some (if b then 1 else 0)
  | .int n => some n
  | .float x => x
  | _ => Option.none

mutual
/-- Python's `==`. -/
def PyValue.eq : PyValue → PyValue → Bool
  | .none, w => match w with
    | .none => true
    | _ => false
  | .str s, w => match w with
    | .str t => s = t
    | _ => false
  | .uuid i, w => match w with
    | .uuid j => i = j
    | _ => false
  | .list l, w => match w with
    | .list m => eqAll l m
    | _ => false
  | .dict d, w => match w with
    | .dict e => eqEntries d e
    | _ => false
  | .bool b, w => w.number = some (if b then 1 else 0)
  | .int n, w => w.number = some (n : ℚ)
  | .float x, w => x.isSome && w.number = x

def eqAll : List PyValue → List PyValue → Bool
  | [], [] => true
  | v :: l, w :: m => v.eq w && eqAll l m
  | _, _ => false

def eqEntries : List (String × PyValue) → List (String × PyValue) → Bool
  | [], [] => true
  | (k, v) :: d, (j, w) :: e => k = j && v.eq w && eqEntries d e
  | _, _ => false
end

/-! ## Columns -/

/-- A text without a zero character, of at most `n` characters. -/
@[ext]
structure Varchar (n : ℕ) where
  text : String
  fits : text.length ≤ n
  noNul : text.toList.all (fun c => c.toNat ≠ 0) = true
  deriving DecidableEq

/-- A value of a `TEXT` column. -/
structure PgText where
  text : String
  noNul : text.toList.all (fun c => c.toNat ≠ 0) = true
  deriving DecidableEq

/-- `INTEGER`. -/
structure Int4 where
  value : ℤ
  range : -2147483648 ≤ value ∧ value < 2147483648
  deriving DecidableEq

/-- `NUMERIC(6, 4)`: a number of ten-thousandths. -/
structure Numeric64 where
  units : ℤ
  bound : -1000000 < units ∧ units < 1000000
  deriving DecidableEq

def Numeric64.toRat (w : Numeric64) : ℚ := w.units / 10000

def Varchar.store (n : ℕ) (s : String) : Option (Varchar n) :=
  if h : s.toList.all (fun c => c.toNat ≠ 0) = true then
    if hn : s.length ≤ n then some ⟨s, hn, h⟩
    else if (s.toList.drop n).all (· = ' ') then
      some ⟨String.ofList (s.toList.take n), by simp, by
        rw [String.toList_ofList]
        exact List.all_eq_true.mpr fun c hc => List.all_eq_true.mp h c (List.mem_of_mem_take hc)⟩
    else none
  else none

def PgText.store (s : String) : Option PgText :=
  if h : s.toList.all (fun c => c.toNat ≠ 0) = true then some ⟨s, h⟩ else none

def Int4.store (n : ℤ) : Option Int4 :=
  if h : -2147483648 ≤ n ∧ n < 2147483648 then some ⟨n, h⟩ else none

/-- Ten-thousandths, rounded half away from zero. -/
def tenThousandths (q : ℚ) : ℤ :=
  if 0 ≤ q then ⌊q * 10000 + 1 / 2⌋ else -⌊-q * 10000 + 1 / 2⌋

def Numeric64.store (q : ℚ) : Option Numeric64 :=
  if h : -1000000 < tenThousandths q ∧ tenThousandths q < 1000000 then
    some ⟨tenThousandths q, h⟩
  else none

/-! ## Values of a body -/

/-- A value for a text column that is not null. -/
def PyValue.storeText (n : ℕ) : PyValue → Option (Varchar n)
  | .str s => Varchar.store n s
  | _ => Option.none

/-- A value for a nullable column. -/
def PyValue.nullable {α : Type} (store : PyValue → Option α) : PyValue → Option (Option α)
  | .none => some Option.none
  | v => (store v).map some

def PyValue.storePgText : PyValue → Option PgText
  | .str s => PgText.store s
  | _ => Option.none

def PyValue.storeInt : PyValue → Option Int4
  | .int n => Int4.store n
  | .bool b => Int4.store (if b then 1 else 0)
  | _ => Option.none

/-- The column takes what equals `True` or `False`. -/
def PyValue.storeBool (v : PyValue) : Option Bool :=
  if v.number = some 1 then some true else if v.number = some 0 then some false else Option.none

/-- `int(v)`; `parse` is that of a text. -/
def PyValue.toInt (parse : String → Option ℤ) : PyValue → Option ℤ
  | .bool b => some (if b then 1 else 0)
  | .int n => some n
  | .float (some x) => some (if 0 ≤ x then ⌊x⌋ else ⌈x⌉)
  | .str s => parse s
  | _ => Option.none

/-! ## What a column holds is stored as it is -/

@[simp] theorem Varchar.store_text {n : ℕ} (v : Varchar n) : Varchar.store n v.text = some v := by
  unfold Varchar.store
  rw [dif_pos v.noNul, dif_pos v.fits]

@[simp] theorem PgText.store_text (v : PgText) : PgText.store v.text = some v := by
  unfold PgText.store
  rw [dif_pos v.noNul]

@[simp] theorem Int4.store_value (n : Int4) : Int4.store n.value = some n := by
  unfold Int4.store
  rw [dif_pos n.range]

theorem tenThousandths_toRat (w : Numeric64) : tenThousandths w.toRat = w.units := by
  have hfloor : ∀ n : ℤ, ⌊(n : ℚ) + 1 / 2⌋ = n := by
    intro n
    rw [Int.floor_intCast_add]
    norm_num
  unfold tenThousandths Numeric64.toRat
  split_ifs with h
  · rw [div_mul_cancel₀ _ (by norm_num), hfloor]
  · have hneg : -((w.units : ℚ) / 10000) * 10000 = ((-w.units : ℤ) : ℚ) := by
      push_cast
      ring
    rw [hneg, hfloor, neg_neg]

@[simp] theorem Numeric64.store_toRat (w : Numeric64) : Numeric64.store w.toRat = some w := by
  unfold Numeric64.store
  have h := tenThousandths_toRat w
  rw [dif_pos (by rw [h]; exact w.bound)]
  simp only [h]

/-! ## Decimals as texts -/

/-- The four decimals. -/
def fraction (m : ℕ) : List Char :=
  [(m / 1000 % 10).digitChar, (m / 100 % 10).digitChar, (m / 10 % 10).digitChar,
    (m % 10).digitChar]

/-- `str` of a `NUMERIC(6, 4)`. -/
def Numeric64.text (w : Numeric64) : String :=
  String.ofList ((if w.units < 0 then ['-'] else []) ++
    (Nat.toDigits 10 (w.units.natAbs / 10000) ++ '.' :: fraction (w.units.natAbs % 10000)))

/-- A text with four decimals, in ten-thousandths. -/
def readUnits (l : List Char) : Option ℕ :=
  match l.reverse with
  | d :: c :: b :: a :: '.' :: whole =>
    if (d :: c :: b :: a :: whole).all Char.isDigit = true then
      some (Nat.ofDigitChars 10 (whole.reverse ++ [a, b, c, d]) 0)
    else none
  | _ => none

/-- `Decimal` of a text with four decimals. -/
def readDecimal (s : String) : Option ℚ :=
  match s.toList with
  | '-' :: l => (readUnits l).map fun n : ℕ => -(n : ℚ) / 10000
  | l => (readUnits l).map fun n : ℕ => (n : ℚ) / 10000

theorem readUnits_digits (n : ℕ) :
    readUnits (Nat.toDigits 10 (n / 10000) ++ '.' :: fraction (n % 10000)) = some n := by
  have hlt : ∀ m, m % 10 < 10 := fun m => Nat.mod_lt m (by decide)
  have hwhole : (Nat.toDigits 10 (n / 10000)).all Char.isDigit = true :=
    List.all_eq_true.mpr fun c hc => Nat.isDigit_of_mem_toDigits (by decide) (by decide) hc
  simp only [readUnits, fraction, List.reverse_append, List.reverse_cons, List.reverse_nil,
    List.nil_append, List.cons_append, List.all_cons, Nat.isDigit_digitChar, hlt, decide_true,
    Bool.true_and, List.all_reverse, hwhole, if_true, List.reverse_reverse, Option.some.injEq]
  rw [Nat.ofDigitChars_append, Nat.ofDigitChars_ten_toDigits]
  simp only [Nat.ofDigitChars_cons_digitChar_of_lt_ten (hlt _), Nat.ofDigitChars_nil]
  omega

theorem readDecimal_text (w : Numeric64) : readDecimal w.text = some w.toRat := by
  unfold readDecimal Numeric64.text Numeric64.toRat
  rw [String.toList_ofList]
  split_ifs with h
  · simp only [List.cons_append, List.nil_append, readUnits_digits, Option.map_some]
    have habs : ((w.units.natAbs : ℤ) : ℚ) = -(w.units : ℚ) := by
      rw [Int.ofNat_natAbs_of_nonpos (by omega)]
      push_cast
      ring
    rw [← Int.cast_natCast, habs, neg_neg]
  · have habs : ((w.units.natAbs : ℤ) : ℚ) = (w.units : ℚ) := by
      rw [Int.natAbs_of_nonneg (by omega)]
    rw [List.nil_append]
    split
    · next l hl =>
      exfalso
      have hne := Nat.toDigits_ne_nil (n := w.units.natAbs / 10000) (b := 10)
      cases hd : Nat.toDigits 10 (w.units.natAbs / 10000) with
      | nil => exact hne hd
      | cons c cs =>
        rw [hd, List.cons_append, List.cons.injEq] at hl
        have hdigit := Nat.isDigit_of_mem_toDigits (b := 10) (by decide) (by decide)
          (hd ▸ List.mem_cons_self : c ∈ Nat.toDigits 10 (w.units.natAbs / 10000))
        rw [hl.1] at hdigit
        exact absurd hdigit (by decide)
    · rw [readUnits_digits, Option.map_some, ← Int.cast_natCast, habs]

/-! ## What equals a column is stored as that -/

theorem eq_str {s : String} {v : PyValue} (h : (PyValue.str s).eq v = true) : v = .str s := by
  cases v with
  | str t =>
    simp only [PyValue.eq, decide_eq_true_eq] at h
    rw [h]
  | _ => simp [PyValue.eq] at h

@[simp] theorem eq_str_self (s : String) : (PyValue.str s).eq (.str s) = true := by
  simp [PyValue.eq]

@[simp] theorem eq_int_self (n : ℤ) : (PyValue.int n).eq (.int n) = true := by
  simp [PyValue.eq, PyValue.number]

@[simp] theorem eq_bool_self (b : Bool) : (PyValue.bool b).eq (.bool b) = true := by
  simp [PyValue.eq, PyValue.number]

theorem storeText_of_eq {n : ℕ} {t : Varchar n} {v : PyValue}
    (h : (PyValue.str t.text).eq v = true) : v.storeText n = some t := by
  obtain rfl := eq_str h
  exact t.store_text

theorem number_of_eq_bool {b : Bool} {v : PyValue} (h : (PyValue.bool b).eq v = true) :
    v.number = some (if b then 1 else 0) := by
  simpa [PyValue.eq] using h

theorem number_of_eq_int {n : ℤ} {v : PyValue} (h : (PyValue.int n).eq v = true) :
    v.number = some (n : ℚ) := by
  simpa [PyValue.eq] using h

theorem storeBool_of_eq {b : Bool} {v : PyValue} (h : (PyValue.bool b).eq v = true) :
    v.storeBool = some b := by
  unfold PyValue.storeBool
  rw [number_of_eq_bool h]
  cases b <;> simp

theorem truthy_of_eq {b : Bool} {v : PyValue} (h : (PyValue.bool b).eq v = true) :
    v.truthy = b := by
  have hn := number_of_eq_bool h
  cases v with
  | bool c =>
    cases b <;> cases c <;> simp_all [PyValue.number, PyValue.truthy]
  | int n =>
    cases b <;> simp_all [PyValue.number, PyValue.truthy]
  | float x =>
    cases b <;> simp_all [PyValue.number, PyValue.truthy]
  | none => simp [PyValue.number] at hn
  | str s => simp [PyValue.number] at hn
  | uuid i => simp [PyValue.number] at hn
  | list l => simp [PyValue.number] at hn
  | dict d => simp [PyValue.number] at hn

theorem toInt_of_eq {n : ℤ} {v : PyValue} (parse : String → Option ℤ)
    (h : (PyValue.int n).eq v = true) : v.toInt parse = some n := by
  have hn := number_of_eq_int h
  cases v with
  | bool c =>
    cases c <;> simp_all [PyValue.number, PyValue.toInt] <;> exact_mod_cast hn
  | int m =>
    simp only [PyValue.number, Option.some.injEq, Int.cast_inj] at hn
    rw [PyValue.toInt, hn]
  | float x =>
    simp only [PyValue.number] at hn
    subst hn
    simp only [PyValue.toInt, Int.floor_intCast, Int.ceil_intCast, ite_self]
  | none => simp [PyValue.number] at hn
  | str s => simp [PyValue.number] at hn
  | uuid i => simp [PyValue.number] at hn
  | list l => simp [PyValue.number] at hn
  | dict d => simp [PyValue.number] at hn

theorem storeInt_of_eq {n m : Int4} {v : PyValue} (h : (PyValue.int n.value).eq v = true)
    (hm : v.storeInt = some m) : m = n := by
  have hn := number_of_eq_int h
  cases v with
  | bool c =>
    have hval : (if c = true then (1 : ℤ) else 0) = n.value := by
      cases c <;> simp_all [PyValue.number] <;> exact_mod_cast hn
    simp only [PyValue.storeInt, hval, Int4.store_value, Option.some.injEq] at hm
    exact hm.symm
  | int k =>
    simp only [PyValue.number, Option.some.injEq, Int.cast_inj] at hn
    simp only [PyValue.storeInt, hn, Int4.store_value, Option.some.injEq] at hm
    exact hm.symm
  | _ => simp [PyValue.storeInt] at hm

/-! ## Blanks -/

theorem dropWhile_append_of_all {p : Char → Bool} {l m : List Char} (hm : ∀ c ∈ m, p c = true) :
    ((l ++ m).dropWhile p).reverse.dropWhile p = (l.dropWhile p).reverse.dropWhile p := by
  have hnil : m.dropWhile p = [] := List.dropWhile_eq_nil_iff.mpr hm
  have hrev : m.reverse.dropWhile p = [] :=
    List.dropWhile_eq_nil_iff.mpr fun c hc => hm c (List.mem_reverse.mp hc)
  rw [List.dropWhile_append]
  split_ifs with h
  · rw [List.isEmpty_iff] at h
    rw [hnil, h]
  · rw [List.reverse_append, List.dropWhile_append, hrev]
    rfl

theorem strip_ofList_take {l : List Char} {n : ℕ} (h : (l.drop n).all (· = ' ') = true) :
    strip (String.ofList (l.take n)) = strip (String.ofList l) := by
  have hspace : ∀ c ∈ l.drop n, isSpace c = true := by
    intro c hc
    have heq := of_decide_eq_true (List.all_eq_true.mp h c hc)
    rw [heq]
    decide
  have hsame := dropWhile_append_of_all (l := l.take n) hspace
  rw [List.take_append_drop] at hsame
  simp only [strip, String.toList_ofList, hsame]

/-- A text column keeps a text up to blanks at its end. -/
theorem strip_store {n : ℕ} {s : String} {v : Varchar n} (h : Varchar.store n s = some v) :
    strip v.text = strip s := by
  unfold Varchar.store at h
  split_ifs at h with hnul hn hblank
  · cases h
    rfl
  · cases h
    rw [strip_ofList_take hblank, String.ofList_toList]

end TempleConsign
