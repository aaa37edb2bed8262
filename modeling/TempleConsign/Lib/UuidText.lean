import Mathlib.Data.List.DropRight
import Mathlib.Data.List.Infix
import Mathlib.Algebra.Order.Ring.Nat
import Mathlib.Tactic.NormNum.Pow

/-!
# UUIDs as texts

The canonical text of a 128-bit number, and a permissive reader: it drops `urn:` and
`uuid:` wherever they stand, braces at the ends and all dashes, and then takes any 32
characters that Python's `int(…, 16)` takes, among them white space at the ends, a
plus sign, the prefix `0x` and single underscores.

Characters outside ASCII are read through tables, which are parameters.

Results:
* `parse_text`: the canonical text is read as its number.
* `mem_readable_of_parse`: the ASCII characters a readable text may have.
* `text_injective`, `length_text`: texts of different numbers, of one length.
-/

namespace UuidText

/-! ## The canonical text -/

/-- A digit below 16. -/
def digitChar (d : ℕ) : Char := "0123456789abcdef".toList.getD d '0'

/-- The last `width` hexadecimal digits of a number. -/
def hexDigits : ℕ → ℕ → List Char
  | 0, _ => []
  | width + 1, n => hexDigits width (n / 16) ++ [digitChar (n % 16)]

/-- `8-4-4-4-12` digits. -/
def dashed (digits : List Char) : List Char :=
  digits.take 8 ++ '-' :: ((digits.drop 8).take 4 ++ '-' :: ((digits.drop 12).take 4 ++
    '-' :: ((digits.drop 16).take 4 ++ '-' :: digits.drop 20)))

def text (n : ℕ) : String := String.ofList (dashed (hexDigits 32 n))

/-! ## The reader -/

/-- The tables for characters outside ASCII. -/
structure Unicode where
  isSpace : Char → Bool
  decimal : Char → Option ℕ

/-- A character as `int` sees it: spaces and decimal digits become ASCII. -/
def toAscii (u : Unicode) (c : Char) : Char :=
  if c.toNat < 128 then c
  else if u.isSpace c then ' '
  else ((u.decimal c).map digitChar).getD '?'

def asciiSpace (c : Char) : Bool := c = ' ' || (9 ≤ c.toNat && c.toNat ≤ 13)

/-- The value of a hexadecimal digit. -/
def hexValue (c : Char) : Option ℕ :=
  if '0' ≤ c && c ≤ '9' then some (c.toNat - 48)
  else if 'a' ≤ c && c ≤ 'f' then some (c.toNat - 87)
  else if 'A' ≤ c && c ≤ 'F' then some (c.toNat - 55)
  else none

def dropPlus : List Char → List Char
  | '+' :: l => l
  | l => l

/-- The prefix `0x`, with one underscore after it. -/
def dropHexPrefix : List Char → List Char
  | '0' :: 'x' :: '_' :: l => l
  | '0' :: 'X' :: '_' :: l => l
  | '0' :: 'x' :: l => l
  | '0' :: 'X' :: l => l
  | l => l

/-- Digits with single underscores between them, as a number after `n`. -/
def readDigits (n : ℕ) : List Char → Option ℕ
  | [] => none
  | [c] => (hexValue c).map fun d => 16 * n + d
  | c :: '_' :: l => (hexValue c).bind fun d => readDigits (16 * n + d) l
  | c :: l => (hexValue c).bind fun d => readDigits (16 * n + d) l

/-- `int(hex, 16)` of a text without a minus sign. -/
def readInt (u : Unicode) (hex : List Char) : Option ℕ :=
  readDigits 0 ((dropHexPrefix (dropPlus ((hex.map (toAscii u)).dropWhile asciiSpace))).rdropWhile
    asciiSpace)

/-- `str.replace(sub, "")` from the place where `skip` more characters are dropped. -/
def removeFrom (sub : List Char) : ℕ → List Char → List Char
  | _, [] => []
  | skip + 1, _ :: l => removeFrom sub skip l
  | 0, c :: l =>
    if sub.isPrefixOf (c :: l) then removeFrom sub (sub.length - 1) l else c :: removeFrom sub 0 l

def remove (sub : String) (l : List Char) : List Char := removeFrom sub.toList 0 l

def isBrace (c : Char) : Bool := c = '\x7b' || c = '\x7d'

/-- What is left of the text before it is read as a number. -/
def bare (l : List Char) : List Char :=
  (((remove "uuid:" (remove "urn:" l)).dropWhile isBrace).rdropWhile isBrace).filter (· ≠ '-')

/-- `uuid.UUID(hex)`. -/
def parse (u : Unicode) (hex : String) : Option ℕ :=
  if (bare hex.toList).length = 32 then readInt u (bare hex.toList) else none

/-! ## Reading the canonical text -/

/-- The digits of a canonical text. -/
def lowerDigits : List Char := "0123456789abcdef".toList

theorem digitChar_mem (d : ℕ) : digitChar d ∈ lowerDigits := by
  unfold digitChar
  by_cases h : d < 16
  · have hall : ∀ d ∈ List.range 16, lowerDigits.getD d '0' ∈ lowerDigits := by decide
    exact hall d (List.mem_range.mpr h)
  · have hnone : lowerDigits[d]? = none := List.getElem?_eq_none (not_lt.mp h)
    show (lowerDigits[d]?).getD '0' ∈ lowerDigits
    rw [hnone]
    decide

theorem hexValue_digitChar {d : ℕ} (h : d < 16) : hexValue (digitChar d) = some d := by
  have hall : ∀ d ∈ List.range 16, hexValue (digitChar d) = some d := by decide
  exact hall d (List.mem_range.mpr h)

theorem mem_hexDigits {width n : ℕ} {c : Char} (h : c ∈ hexDigits width n) : c ∈ lowerDigits := by
  induction width generalizing n with
  | zero => cases h
  | succ width ih =>
    rcases List.mem_append.mp h with hfront | hlast
    · exact ih hfront
    · rw [List.mem_singleton.mp hlast]
      exact digitChar_mem _

@[simp] theorem length_hexDigits (width n : ℕ) : (hexDigits width n).length = width := by
  induction width generalizing n with
  | zero => rfl
  | succ width ih => rw [hexDigits, List.length_append, ih, List.length_singleton]

/-- Digits alone are read one after the other. -/
theorem readDigits_eq {l : List Char} {n : ℕ} (hne : l ≠ [])
    (hdigits : ∀ c ∈ l, c ∈ lowerDigits) :
    readDigits n l = some (l.foldl (fun n c => 16 * n + (hexValue c).getD 0) n) := by
  have hvalue : ∀ c ∈ lowerDigits, ∃ d, hexValue c = some d := by
    have hall : (lowerDigits.all fun c => (hexValue c).isSome) = true := by decide
    exact fun c hc => Option.isSome_iff_exists.mp (List.all_eq_true.mp hall c hc)
  induction l generalizing n with
  | nil => exact absurd rfl hne
  | cons c l ih =>
    obtain ⟨hc, hl⟩ := List.forall_mem_cons.mp hdigits
    obtain ⟨d, hd⟩ := hvalue c hc
    cases l with
    | nil => simp [readDigits, hd]
    | cons c' l =>
      have hc' : c' ≠ '_' := by
        rintro rfl
        exact absurd (hl '_' List.mem_cons_self) (by decide)
      have hrest := ih (n := 16 * n + d) (List.cons_ne_nil _ _) hl
      rw [readDigits, hd, Option.bind_some, hrest]
      · simp [hd]
      · exact List.cons_ne_nil _ _
      · intro l' heq
        exact hc' (List.cons.inj heq).1

/-- The digits of a number are read as the number. -/
theorem readDigits_hexDigits {width n : ℕ} (hpos : 0 < width) (h : n < 16 ^ width) :
    readDigits 0 (hexDigits width n) = some n := by
  have hfold : ∀ width n, n < 16 ^ width →
      (hexDigits width n).foldl (fun n c => 16 * n + (hexValue c).getD 0) 0 = n := by
    intro width
    induction width with
    | zero =>
      intro n hn
      rw [pow_zero] at hn
      exact (Nat.lt_one_iff.mp hn).symm
    | succ width ih =>
      intro n hn
      rw [pow_succ] at hn
      have hfront := ih (n / 16) (Nat.div_lt_of_lt_mul (by omega))
      rw [hexDigits, List.foldl_append, hfront, List.foldl_cons, List.foldl_nil,
        hexValue_digitChar (Nat.mod_lt _ (by decide)), Option.getD_some]
      omega
  have hne : hexDigits width n ≠ [] := List.ne_nil_of_length_pos (by rwa [length_hexDigits])
  rw [readDigits_eq hne fun c hc => mem_hexDigits hc, hfold width n h]

theorem dropWhile_eq_self {p : Char → Bool} {l : List Char} (h : ∀ c ∈ l, p c = false) :
    l.dropWhile p = l := by
  cases l with
  | nil => rfl
  | cons c l => rw [List.dropWhile_cons_of_neg (by simp [h c List.mem_cons_self])]

theorem rdropWhile_eq_self {p : Char → Bool} {l : List Char} (h : ∀ c ∈ l, p c = false) :
    l.rdropWhile p = l := by
  rw [List.rdropWhile, dropWhile_eq_self fun c hc => h c (List.mem_reverse.mp hc),
    List.reverse_reverse]

theorem dropPlus_eq_self {l : List Char} (h : '+' ∉ l) : dropPlus l = l := by
  unfold dropPlus
  split
  · exact absurd List.mem_cons_self h
  · rfl

theorem dropHexPrefix_eq_self {l : List Char} (h : 'x' ∉ l) (h' : 'X' ∉ l) :
    dropHexPrefix l = l := by
  unfold dropHexPrefix
  split
  · simp at h
  · simp at h'
  · simp at h
  · simp at h'
  · rfl

/-- Nothing is removed from a text without the first character of `sub`. -/
theorem removeFrom_eq_self {c : Char} (sub : List Char) {l : List Char} (h : c ∉ l) :
    removeFrom (c :: sub) 0 l = l := by
  induction l with
  | nil => rfl
  | cons d l ih =>
    obtain ⟨hd, hl⟩ := not_or.mp (mt List.mem_cons.mpr h)
    have hfirst : (c :: sub).isPrefixOf (d :: l) = false := by
      simp [List.isPrefixOf, hd]
    rw [removeFrom, if_neg (by simp [hfirst]), ih hl]

theorem mem_dashed {digits : List Char} {c : Char} (h : c ∈ dashed digits) :
    c ∈ digits ∨ c = '-' := by
  simp only [dashed, List.mem_append, List.mem_cons] at h
  rcases h with h | h | h | h | h | h | h | h | h
  · exact .inl (List.mem_of_mem_take h)
  · exact .inr h
  · exact .inl (List.mem_of_mem_drop (List.mem_of_mem_take h))
  · exact .inr h
  · exact .inl (List.mem_of_mem_drop (List.mem_of_mem_take h))
  · exact .inr h
  · exact .inl (List.mem_of_mem_drop (List.mem_of_mem_take h))
  · exact .inr h
  · exact .inl (List.mem_of_mem_drop h)

/-- Without the dashes the digits are left. -/
theorem filter_dashed {digits : List Char} (h : ∀ c ∈ digits, c ∈ lowerDigits) :
    (dashed digits).filter (· ≠ '-') = digits := by
  have hkept : ∀ l : List Char, (∀ c ∈ l, c ∈ digits) → l.filter (· ≠ '-') = l := by
    intro l hl
    refine List.filter_eq_self.mpr fun c hc => decide_eq_true ?_
    rintro rfl
    exact absurd (h '-' (hl '-' hc)) (by decide)
  have hdash : ∀ l : List Char, ('-' :: l).filter (· ≠ '-') = l.filter (· ≠ '-') :=
    fun _ => rfl
  have hgroups : digits.take 8 ++ ((digits.drop 8).take 4 ++ ((digits.drop 12).take 4 ++
      ((digits.drop 16).take 4 ++ digits.drop 20))) = digits := by
    have hnext : ∀ n k, (digits.drop n).take k ++ digits.drop (n + k) = digits.drop n := by
      intro n k
      rw [← List.drop_drop, List.take_append_drop]
    rw [hnext 16 4, hnext 12 4, hnext 8 4, List.take_append_drop]
  simp only [dashed, List.filter_append, hdash]
  rw [hkept _ fun c hc => List.mem_of_mem_take hc,
    hkept _ fun c hc => List.mem_of_mem_drop (List.mem_of_mem_take hc),
    hkept _ fun c hc => List.mem_of_mem_drop (List.mem_of_mem_take hc),
    hkept _ fun c hc => List.mem_of_mem_drop (List.mem_of_mem_take hc),
    hkept _ fun c hc => List.mem_of_mem_drop hc, hgroups]

/-- Nothing but the dashes goes before the canonical text is read. -/
theorem bare_dashed {digits : List Char} (h : ∀ c ∈ digits, c ∈ lowerDigits) :
    bare (dashed digits) = digits := by
  have hchars : ∀ c ∈ dashed digits, c ∈ lowerDigits ∨ c = '-' :=
    fun c hc => (mem_dashed hc).imp_left (h c)
  have hu : 'u' ∉ dashed digits := fun hu => (hchars 'u' hu).elim (by decide) (by decide)
  have hbrace : ∀ c ∈ dashed digits, isBrace c = false := by
    have hall : (lowerDigits.all fun c => isBrace c = false) = true := by decide
    intro c hc
    rcases hchars c hc with hdigit | rfl
    · exact of_decide_eq_true (List.all_eq_true.mp hall c hdigit)
    · rfl
  have hurn : remove "urn:" (dashed digits) = dashed digits :=
    removeFrom_eq_self ['r', 'n', ':'] hu
  have huuid : remove "uuid:" (dashed digits) = dashed digits :=
    removeFrom_eq_self ['u', 'i', 'd', ':'] hu
  rw [bare, hurn, huuid, dropWhile_eq_self hbrace, rdropWhile_eq_self hbrace, filter_dashed h]

/-- Digits alone are an integer. -/
theorem readInt_digits (u : Unicode) {l : List Char} (h : ∀ c ∈ l, c ∈ lowerDigits) :
    readInt u l = readDigits 0 l := by
  have hall : (lowerDigits.all fun c => c.toNat < 128 ∧ asciiSpace c = false) = true := by decide
  have hascii : ∀ c ∈ lowerDigits, c.toNat < 128 ∧ asciiSpace c = false :=
    fun c hc => of_decide_eq_true (List.all_eq_true.mp hall c hc)
  have hmap : l.map (toAscii u) = l := by
    conv_rhs => rw [← List.map_id l]
    exact List.map_congr_left fun c hc => if_pos (hascii c (h c hc)).1
  have hspace : ∀ c ∈ l, asciiSpace c = false := fun c hc => (hascii c (h c hc)).2
  have habsent : ∀ c, c ∉ lowerDigits → c ∉ l := fun c hc hmem => hc (h c hmem)
  rw [readInt, hmap, dropWhile_eq_self hspace, dropPlus_eq_self (habsent '+' (by decide)),
    dropHexPrefix_eq_self (habsent 'x' (by decide)) (habsent 'X' (by decide)),
    rdropWhile_eq_self hspace]

/-- The canonical text is read as its number. -/
theorem parse_text (u : Unicode) {n : ℕ} (h : n < 2 ^ 128) : parse u (text n) = some n := by
  have hdigits : ∀ c ∈ hexDigits 32 n, c ∈ lowerDigits := fun c hc => mem_hexDigits hc
  have hsize : n < 16 ^ 32 := by
    have hpow : (16 : ℕ) ^ 32 = 2 ^ 128 := by norm_num
    rwa [hpow]
  rw [parse, text, String.toList_ofList, bare_dashed hdigits, length_hexDigits, if_pos rfl,
    readInt_digits u hdigits, readDigits_hexDigits (by decide) hsize]

/-- Different numbers have different texts. -/
theorem text_injective {n m : ℕ} (hn : n < 2 ^ 128) (hm : m < 2 ^ 128) (h : text n = text m) :
    n = m := by
  have hread := parse_text ⟨fun _ => false, fun _ => none⟩ hn
  rw [h, parse_text _ hm] at hread
  exact (Option.some.inj hread).symm

/-- All texts have one length. -/
theorem length_text (n : ℕ) : (text n).toList.length = 36 := by
  simp [text, dashed]

/-! ## What a readable text may have -/

/-- The ASCII characters of readable texts. -/
def readable : List Char := "0123456789abcdefABCDEFxX_+-\x7b\x7durnid: \t\n\x0b\x0c\r".toList

/-- An ASCII character that is not readable is no digit, space or brace. -/
theorem class_of_not_readable {c : Char} (hascii : c.toNat < 128) (hc : c ∉ readable) :
    hexValue c = none ∧ asciiSpace c = false ∧ isBrace c = false := by
  have hall : ∀ n ∈ List.range 128, Char.ofNat n ∉ readable →
      hexValue (Char.ofNat n) = none ∧ asciiSpace (Char.ofNat n) = false ∧
        isBrace (Char.ofNat n) = false := by decide +kernel
  have hofNat := hall c.toNat (List.mem_range.mpr hascii)
  rw [Char.ofNat_toNat] at hofNat
  exact hofNat hc

theorem mem_dropWhile {p : Char → Bool} {c : Char} (hc : p c = false) {l : List Char}
    (h : c ∈ l) : c ∈ l.dropWhile p := by
  induction l with
  | nil => cases h
  | cons d l ih =>
    by_cases hd : p d = true
    · rw [List.dropWhile_cons_of_pos hd]
      refine ih ((List.mem_cons.mp h).resolve_left ?_)
      rintro rfl
      rw [hd] at hc
      cases hc
    · rwa [List.dropWhile_cons_of_neg hd]

theorem mem_rdropWhile {p : Char → Bool} {c : Char} (hc : p c = false) {l : List Char}
    (h : c ∈ l) : c ∈ l.rdropWhile p :=
  List.mem_reverse.mpr (mem_dropWhile hc (List.mem_reverse.mpr h))

/-- A character outside `sub` is not removed. -/
theorem mem_removeFrom {e : Char} {sub : List Char} {c : Char} (hsub : c ∉ e :: sub) {skip : ℕ}
    {l : List Char} (h : c ∈ l.drop skip) : c ∈ removeFrom (e :: sub) skip l := by
  induction l generalizing skip with
  | nil => simp at h
  | cons d l ih =>
    cases skip with
    | succ skip => exact ih h
    | zero =>
      rw [removeFrom]
      split_ifs with hfirst
      · obtain ⟨rest, hrest⟩ := List.isPrefixOf_iff_prefix.mp hfirst
        obtain ⟨rfl, rfl⟩ := List.cons.inj hrest
        obtain ⟨hne, hnotin⟩ := not_or.mp (mt List.mem_cons.mpr hsub)
        have hrest : c ∈ rest :=
          (List.mem_append.mp ((List.mem_cons.mp h).resolve_left hne)).resolve_left hnotin
        have hdrop : (sub ++ rest).drop sub.length = rest := List.drop_left
        exact ih (hdrop.symm ▸ hrest : c ∈ (sub ++ rest).drop sub.length)
      · rcases List.mem_cons.mp h with rfl | hl
        · exact List.mem_cons_self
        · exact List.mem_cons_of_mem _ (ih hl)

theorem mem_dropPlus {c : Char} (hc : c ≠ '+') {l : List Char} (h : c ∈ l) : c ∈ dropPlus l := by
  unfold dropPlus
  split
  · exact (List.mem_cons.mp h).resolve_left hc
  · exact h

theorem mem_dropHexPrefix {c : Char} (hc : c ∉ ['0', 'x', 'X', '_']) {l : List Char} (h : c ∈ l) :
    c ∈ dropHexPrefix l := by
  simp only [List.mem_cons, List.not_mem_nil, or_false, not_or] at hc
  unfold dropHexPrefix
  split
  · simpa [hc] using h
  · simpa [hc] using h
  · simpa [hc] using h
  · simpa [hc] using h
  · exact h

/-- What is no digit and no underscore is not read. -/
theorem readDigits_eq_none {c : Char} (hvalue : hexValue c = none) (hc : c ≠ '_') {l : List Char}
    {n : ℕ} (h : c ∈ l) : readDigits n l = none := by
  induction n, l using readDigits.induct with
  | case1 n => cases h
  | case2 n d =>
    rw [← List.mem_singleton.mp h, readDigits, hvalue]
    rfl
  | case3 n d l ih =>
    rw [readDigits]
    cases hd : hexValue d with
    | none => rfl
    | some value =>
      have hl : c ∈ l := by
        rcases List.mem_cons.mp h with rfl | h
        · rw [hvalue] at hd
          cases hd
        · exact (List.mem_cons.mp h).resolve_left hc
      exact ih value hl
  | case4 n d l hne hunder ih =>
    rw [readDigits]
    · cases hd : hexValue d with
      | none => rfl
      | some value =>
        have hl : c ∈ l := by
          rcases List.mem_cons.mp h with rfl | h
          · rw [hvalue] at hd
            cases hd
          · exact h
        exact ih value hl
    · exact hne
    · exact hunder

/-- The ASCII characters of a text that is read are readable. -/
theorem mem_readable_of_parse {u : Unicode} {hex : String} {n : ℕ} (h : parse u hex = some n)
    {c : Char} (hmem : c ∈ hex.toList) (hascii : c.toNat < 128) : c ∈ readable := by
  by_contra hc
  obtain ⟨hvalue, hspace, hbrace⟩ := class_of_not_readable hascii hc
  have hne : ∀ d ∈ readable, c ≠ d := fun d hd heq => hc (heq ▸ hd)
  have hbare : c ∈ bare hex.toList := by
    refine List.mem_filter.mpr ⟨mem_rdropWhile hbrace (mem_dropWhile hbrace
      (mem_removeFrom ?_ (mem_removeFrom ?_ hmem))), decide_eq_true (hne '-' (by decide))⟩
    · exact fun hsub => hc ((by decide : "uuid:".toList ⊆ readable) hsub)
    · exact fun hsub => hc ((by decide : "urn:".toList ⊆ readable) hsub)
  have hread : c ∈ (dropHexPrefix (dropPlus
      (((bare hex.toList).map (toAscii u)).dropWhile asciiSpace))).rdropWhile asciiSpace := by
    have hmap : c ∈ (bare hex.toList).map (toAscii u) :=
      List.mem_map.mpr ⟨c, hbare, if_pos hascii⟩
    refine mem_rdropWhile hspace (mem_dropHexPrefix ?_ (mem_dropPlus (hne '+' (by decide))
      (mem_dropWhile hspace hmap)))
    exact fun hsub => hc ((by decide : ['0', 'x', 'X', '_'] ⊆ readable) hsub)
  unfold parse at h
  split_ifs at h
  rw [readInt, readDigits_eq_none hvalue (hne '_' (by decide)) hread] at h
  cases h

end UuidText
