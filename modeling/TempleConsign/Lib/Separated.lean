import Mathlib.Data.List.TakeWhile

/-!
# Separated texts

A text made of parts with a separator between them, such as `a:b:c`. Where no
part contains the separator, the text determines its parts; the first part is
determined even when only it is free of the separator. Decimal numbers are such
parts.

Results:
* `first_part`: equal texts have equal first parts.
* `parts_injective`: equal texts have equal parts.
* `repr_injective`, `notMem_repr`: numbers as parts.
-/

namespace ServiceLib

/-- The separator does not occur in the part. -/
def Free (sep : Char) (part : String) : Prop := sep ∉ part.toList

instance (sep : Char) (part : String) : Decidable (Free sep part) :=
  inferInstanceAs (Decidable (sep ∉ part.toList))

/-- The parts, separated. -/
def separated (sep : Char) (parts : List String) : String :=
  (String.singleton sep).intercalate parts

theorem toList_separated (sep : Char) (parts : List String) :
    (separated sep parts).toList = [sep].intercalate (parts.map String.toList) := by
  rw [separated, String.toList_intercalate, String.toList_singleton]

/-- Up to the first separator a text is its first part. -/
theorem takeWhile_separated {sep : Char} {first : String} (h : Free sep first)
    (rest : List String) :
    (separated sep (first :: rest)).toList.takeWhile (· ≠ sep) = first.toList := by
  have hall : ∀ c ∈ first.toList, decide (c ≠ sep) = true := by
    intro c hc
    rw [decide_eq_true_eq]
    rintro rfl
    exact h hc
  rw [toList_separated, List.map_cons]
  cases rest with
  | nil =>
    rw [List.map_nil, List.intercalate_singleton]
    exact List.takeWhile_eq_self_iff.mpr hall
  | cons second rest =>
    rw [List.map_cons, List.intercalate_cons_cons, List.append_assoc,
      List.takeWhile_append_of_pos hall]
    simp

/-- Equal texts have equal first parts. -/
theorem first_part {sep : Char} {first first' : String} {rest rest' : List String}
    (hf : Free sep first) (hf' : Free sep first')
    (h : separated sep (first :: rest) = separated sep (first' :: rest')) : first = first' := by
  have hl := takeWhile_separated hf rest
  rw [h, takeWhile_separated hf' rest'] at hl
  exact (String.toList_inj.mp hl).symm

/-- Equal texts have equal parts. -/
theorem parts_injective {sep : Char} {parts parts' : List String} (hf : ∀ p ∈ parts, Free sep p)
    (hf' : ∀ p ∈ parts', Free sep p) (hne : parts ≠ []) (hne' : parts' ≠ [])
    (h : separated sep parts = separated sep parts') : parts = parts' := by
  have hsplit : ∀ {l : List String}, (∀ p ∈ l, Free sep p) → l ≠ [] →
      (separated sep l).toList.splitOn sep = l.map String.toList := by
    intro l hl hnil
    rw [toList_separated]
    refine List.splitOn_intercalate sep (fun part hpart => ?_) (by simpa using hnil)
    obtain ⟨p, hp, rfl⟩ := List.mem_map.mp hpart
    exact hl p hp
  have hmap : parts.map String.toList = parts'.map String.toList := by
    rw [← hsplit hf hne, ← hsplit hf' hne', h]
  exact (List.map_inj_right fun a b => String.toList_inj.mp).mp hmap

/-! ## Numbers -/

/-- A number in decimal has digits only. -/
theorem notMem_repr {sep : Char} (hsep : sep.isDigit = false) (n : ℕ) : sep ∉ n.repr.toList := by
  intro hmem
  rw [Nat.toList_repr] at hmem
  have := Nat.isDigit_of_mem_toDigits (by decide) (by decide) hmem
  rw [hsep] at this
  cases this

theorem repr_injective {m n : ℕ} (h : m.repr = n.repr) : m = n := by
  have hd : Nat.toDigits 10 m = Nat.toDigits 10 n := by
    rw [← Nat.toList_repr, h, Nat.toList_repr]
  rw [← Nat.ofDigitChars_toDigits (n := m) (b := 10) (by decide) (by decide), hd,
    Nat.ofDigitChars_toDigits (by decide) (by decide)]

end ServiceLib
