import Mathlib.Data.List.Sort
import TempleConsign.Lib.Service

/-!
# Searching in the order of a key

A list is sorted by a key and searched for the first element that a step
accepts. Where no two elements have the same key, the order in which the list was
given does not matter and the element found is the accepted one of least key.

Results:
* `sortedBy_eq_of_perm`: the sorted list does not depend on the given order.
* `find?_sortedBy_iff`: what a search finds.
* `le_of_getLast?_filter`: the last accepted element has the greatest key.
* `findSome?_iff_of_unique`: where at most one element has a value, no order matters.
* `exists_ok_anyM_iff`: when a test that may raise answers for a list.
* `findSomeM?_except`, `Svc.exec_findSomeM?`: a search by a step that may raise or
  write is a search by the test whether the step goes on to the next element.
-/

namespace ServiceLib

variable {α β κ ε : Type} [LinearOrder κ] {key : α → κ} {l l' : List α}

/-- `sorted(l, key=key)`. -/
def sortedBy (key : α → κ) (l : List α) : List α := l.insertionSort fun a b => key a ≤ key b

/-- No two elements have the same key. -/
def KeysDiffer (key : α → κ) (l : List α) : Prop := ∀ a ∈ l, ∀ b ∈ l, key a = key b → a = b

@[simp] theorem mem_sortedBy {a : α} : a ∈ sortedBy key l ↔ a ∈ l := List.mem_insertionSort _

theorem sortedBy_perm (key : α → κ) (l : List α) : (sortedBy key l).Perm l :=
  List.perm_insertionSort _ l

theorem pairwise_sortedBy (key : α → κ) (l : List α) :
    (sortedBy key l).Pairwise fun a b => key a ≤ key b := by
  have total : Std.Total fun a b : α => key a ≤ key b := ⟨fun a b => le_total (key a) (key b)⟩
  have trans : IsTrans α fun a b : α => key a ≤ key b := ⟨fun a b c => le_trans⟩
  exact List.pairwise_insertionSort _ l

/-- The sorted list does not depend on the given order. -/
theorem sortedBy_eq_of_perm (hkeys : KeysDiffer key l) (h : l.Perm l') :
    sortedBy key l = sortedBy key l' := by
  have hperm : (sortedBy key l).Perm (sortedBy key l') :=
    ((sortedBy_perm key l).trans h).trans (sortedBy_perm key l').symm
  apply hperm.eq_of_pairwise _ (pairwise_sortedBy key l) (pairwise_sortedBy key l')
  intro a b ha hb hab hba
  rw [mem_sortedBy] at ha hb
  exact hkeys a ha b (h.mem_iff.mpr hb) (le_antisymm hab hba)

/-- What a search finds has the least key of the accepted elements. -/
theorem find?_sortedBy_le {p : α → Bool} {a : α} (h : (sortedBy key l).find? p = some a) :
    ∀ x ∈ l, p x = true → key a ≤ key x := by
  obtain ⟨-, before, after, hl, hbefore⟩ := List.find?_eq_some_iff_append.mp h
  have hsorted : (before ++ a :: after).Pairwise fun a b => key a ≤ key b :=
    hl ▸ pairwise_sortedBy key l
  intro x hx hp
  have hx' : x ∈ before ++ a :: after := by rw [← hl]; exact mem_sortedBy.mpr hx
  rcases List.mem_append.mp hx' with hb | hb
  · have hnot := hbefore x hb
    simp [hp] at hnot
  · rcases List.mem_cons.mp hb with rfl | hafter
    · exact le_refl _
    · exact (List.pairwise_cons.mp (List.pairwise_append.mp hsorted).2.1).1 x hafter

/-- A search finds the accepted element of least key. -/
theorem find?_sortedBy_iff (hkeys : KeysDiffer key l) {p : α → Bool} {a : α} :
    (sortedBy key l).find? p = some a ↔
      a ∈ l ∧ p a = true ∧ ∀ x ∈ l, p x = true → key a ≤ key x := by
  constructor
  · intro h
    exact ⟨mem_sortedBy.mp (List.mem_of_find?_eq_some h), List.find?_some h, find?_sortedBy_le h⟩
  · rintro ⟨hmem, hp, hleast⟩
    cases hf : (sortedBy key l).find? p with
    | none => exact absurd hp (List.find?_eq_none.mp hf a (mem_sortedBy.mpr hmem))
    | some b =>
      have hb : b ∈ l := mem_sortedBy.mp (List.mem_of_find?_eq_some hf)
      have hba : key b ≤ key a := find?_sortedBy_le hf a hmem hp
      have hab : key a ≤ key b := hleast b hb (List.find?_some hf)
      rw [hkeys b hb a hmem (le_antisymm hba hab)]

theorem le_of_getLast?_filter {p : α → Bool} {a : α}
    (h : ((sortedBy key l).filter p).getLast? = some a) : ∀ x ∈ l, p x = true → key x ≤ key a := by
  obtain ⟨before, hl⟩ := List.getLast?_eq_some_iff.mp h
  have hsorted : (before ++ [a]).Pairwise fun a b => key a ≤ key b :=
    hl ▸ (pairwise_sortedBy key l).filter p
  intro x hx hp
  have hx' : x ∈ before ++ [a] := hl ▸ List.mem_filter.mpr ⟨mem_sortedBy.mpr hx, hp⟩
  rcases List.mem_append.mp hx' with hb | ha
  · exact (List.pairwise_append.mp hsorted).2.2 x hb a (List.mem_singleton_self a)
  · rw [List.mem_singleton.mp ha]

/-- Where at most one element has a value, the order does not matter to a search for
    the first value. -/
theorem findSome?_iff_of_unique {f : α → Option β}
    (h : ∀ a ∈ l, ∀ b ∈ l, f a ≠ none → f b ≠ none → a = b) {v : β} :
    l.findSome? f = some v ↔ ∃ a ∈ l, f a = some v := by
  constructor
  · intro hv
    exact List.exists_of_findSome?_eq_some hv
  · rintro ⟨a, ha, hv⟩
    cases hf : l.findSome? f with
    | none =>
      have hnone := List.findSome?_eq_none_iff.mp hf a ha
      rw [hv] at hnone
      cases hnone
    | some w =>
      obtain ⟨b, hb, hw⟩ := List.exists_of_findSome?_eq_some hf
      have hab : b = a := h b hb a ha (by simp [hw]) (by simp [hv])
      rw [← hw, hab, hv]

/-! ## Steps that may raise or write -/

/-- The step does not go on to the next element: it finds a value or raises. -/
def stops (r : Except ε (Option β)) : Bool :=
  match r with
  | .ok none => false
  | _ => true

/-- The first element at which the step stops gives the result. -/
theorem findSomeM?_except (f : α → Except ε (Option β)) (l : List α) :
    l.findSomeM? f = (l.find? fun a => stops (f a)).elim (.ok none) f := by
  induction l with
  | nil => rfl
  | cons a l ih =>
    rw [List.findSomeM?_cons, List.find?_cons]
    match h : f a with
    | .ok none =>
      simp only [stops] at ih ⊢
      exact ih
    | .ok (some b) =>
      simp only [stops, Option.elim_some, h]
      rfl
    | .error e =>
      simp only [stops, Option.elim_some, h]
      rfl

theorem exists_ok_anyM_cons {f : α → Except ε Bool} {a : α} :
    (∃ b, (a :: l).anyM f = .ok b) ↔
      ∃ b, f a = .ok b ∧ (b = false → ∃ b', l.anyM f = .ok b') := by
  rw [List.anyM_cons]
  cases f a with
  | error e => simp [bind, Except.bind]
  | ok b =>
    cases b with
    | true => simp [bind, Except.bind, pure, Except.pure]
    | false => simp [bind, Except.bind]

/-- A test of a list stops at the first element that passes or raises, so it answers
    when every element comes after one that passes, or can be tested. -/
theorem exists_ok_anyM_iff {f : α → Except ε Bool} {l : List α} :
    (∃ b, l.anyM f = .ok b) ↔
      ∀ before a after, l = before ++ a :: after → (∀ x ∈ before, f x ≠ .ok true) →
        ∃ b, f a = .ok b := by
  induction l with
  | nil =>
    refine iff_of_true ⟨false, rfl⟩ fun before a after hl => ?_
    simp at hl
  | cons a l ih =>
    rw [exists_ok_anyM_cons, ih]
    constructor
    · rintro ⟨b, hfirst, hrest⟩ before x after hl hbefore
      cases before with
      | nil =>
        obtain ⟨rfl, rfl⟩ := List.cons.inj hl
        exact ⟨b, hfirst⟩
      | cons y before =>
        obtain ⟨rfl, htail⟩ := List.cons.inj hl
        have hb : b = false := by
          cases b with
          | false => rfl
          | true => exact absurd hfirst (hbefore a List.mem_cons_self)
        exact hrest hb before x after htail fun z hz => hbefore z (List.mem_cons_of_mem _ hz)
    · intro hall
      obtain ⟨b, hb⟩ := hall [] a l rfl (by simp)
      refine ⟨b, hb, fun hfalse before x after hl hbefore => ?_⟩
      refine hall (a :: before) x after (by rw [hl, List.cons_append]) fun z hz => ?_
      rcases List.mem_cons.mp hz with rfl | hz
      · simp [hb, hfalse]
      · exact hbefore z hz

namespace Svc

variable {σ : Type}

/-- Where the step writes only when it stops, a search runs the step at the first
    such element. -/
theorem exec_findSomeM? {f : α → Svc σ ε (Option β)} {p : α → Bool} {s : σ} (l : List α)
    (hskip : ∀ a ∈ l, p a = false → exec (f a) s = (.ok none, s))
    (hstop : ∀ a ∈ l, p a = true → stops (exec (f a) s).1 = true) :
    exec (l.findSomeM? f) s = (l.find? p).elim (.ok none, s) fun a => exec (f a) s := by
  induction l with
  | nil => rfl
  | cons a l ih =>
    have ih' := ih (fun b hb => hskip b (List.mem_cons_of_mem a hb))
      (fun b hb => hstop b (List.mem_cons_of_mem a hb))
    rw [List.findSomeM?_cons, List.find?_cons, exec_bind]
    cases hp : p a with
    | false => simpa [hskip a List.mem_cons_self hp] using ih'
    | true =>
      have hst := hstop a List.mem_cons_self hp
      match h : exec (f a) s with
      | (.ok none, s') => simp [h, stops] at hst
      | (.ok (some b), s') => simp [h]
      | (.error e, s') => simp [h]

end Svc

end ServiceLib
