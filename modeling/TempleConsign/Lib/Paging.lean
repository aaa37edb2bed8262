import Mathlib.Data.List.Nodup
import Mathlib.Data.List.Perm.Basic
import Mathlib.Data.List.Sort

/-!
# Reading a sorted set page by page

A query with `ORDER BY` may answer with its rows in any order that respects the
keys: rows with equal keys come as they like, and another time otherwise. A
client that reads page after page gets each page from an answer of its own.

Results:
* `pages_const`: the pages of one answer make up the answer.
* `pages_sorted`: pages of different answers still come in order.
* `CutsClean.pages_perm`, `cutsClean_of_nodup`: no row is missing or comes twice,
  whatever the answers, exactly when no two rows of different pages have the same
  key.
* `faithful_iff`: the same for pages that are each shown in another order.
-/

namespace PagingLib

variable {α : Type*} {le : α → α → Prop} {rows l l' : List α} {k n : ℕ}

/-- What a query ordered by `le` may answer. -/
structure IsAnswer (le : α → α → Prop) (rows l : List α) : Prop where
  perm : l.Perm rows
  sorted : l.Pairwise le

/-- `OFFSET p * k LIMIT k`. -/
def page (k p : ℕ) (l : List α) : List α := (l.drop (p * k)).take k

/-- The first `n` pages one after the other, page `p` from the answer `answers p`. -/
def pages (k n : ℕ) (answers : ℕ → List α) : List α :=
  (List.range n).flatMap fun p => page k p (answers p)

/-- No key occurs on both sides of a page boundary. -/
def CutsClean (le : α → α → Prop) (k : ℕ) (l : List α) : Prop :=
  ∀ p, ∀ x ∈ l.take (p * k), ∀ y ∈ l.drop (p * k), ¬ le y x

/-- The rows before a page boundary come before those after it. -/
def PagesOrdered (before : α → α → Prop) (k : ℕ) (l : List α) : Prop :=
  ∀ p, ∀ x ∈ l.take (p * k), ∀ y ∈ l.drop (p * k), before x y

/-! ## One answer -/

theorem take_succ_page (p : ℕ) (l : List α) :
    l.take ((p + 1) * k) = l.take (p * k) ++ page k p l := by
  rw [Nat.add_mul, Nat.one_mul, List.take_add]
  rfl

/-- The first `n` pages of an answer are its first `n * k` rows. -/
theorem pages_const (n : ℕ) (l : List α) : pages k n (fun _ => l) = l.take (n * k) := by
  induction n with
  | zero => simp [pages]
  | succ n ih =>
    have hsplit : pages k (n + 1) (fun _ => l) = pages k n (fun _ => l) ++ page k n l := by
      simp [pages, List.range_succ, List.flatMap_append]
    rw [hsplit, ih, take_succ_page]

theorem mem_take_iff {p : ℕ} {x : α} : x ∈ l.take (p * k) ↔ ∃ i < p, x ∈ page k i l := by
  rw [← pages_const, pages, List.mem_flatMap]
  simp only [List.mem_range]

theorem page_sublist (p : ℕ) (l : List α) : (page k p l).Sublist l :=
  (List.take_sublist _ _).trans (List.drop_sublist _ _)

/-- A row of a page, by its place in the answer. -/
theorem mem_page_iff {p : ℕ} {x : α} :
    x ∈ page k p l ↔ ∃ i, p * k ≤ i ∧ i < (p + 1) * k ∧ l[i]? = some x := by
  rw [page, List.mem_iff_getElem?]
  simp only [List.getElem?_take, List.getElem?_drop]
  constructor
  · rintro ⟨i, hi⟩
    split_ifs at hi with hlt
    exact ⟨p * k + i, by omega, by rw [Nat.add_mul]; omega, hi⟩
  · rintro ⟨i, hlo, hhi, hx⟩
    rw [Nat.add_mul] at hhi
    refine ⟨i - p * k, ?_⟩
    rw [if_pos (by omega), Nat.add_sub_cancel' hlo]
    exact hx

/-- A page with a row on it is one of the first `n`. -/
theorem lt_of_mem_page (hn : l.length ≤ n * k) {p : ℕ} {x : α} (hx : x ∈ page k p l) : p < n := by
  obtain ⟨i, hi, -, hxi⟩ := mem_page_iff.mp hx
  obtain ⟨hlen, -⟩ := List.getElem?_eq_some_iff.mp hxi
  exact Nat.lt_of_mul_lt_mul_right (a := k) (by omega)

theorem mem_drop_iff (hk : 0 < k) {p : ℕ} {y : α} :
    y ∈ l.drop (p * k) ↔ ∃ j, p ≤ j ∧ y ∈ page k j l := by
  rw [List.mem_iff_getElem?]
  simp only [List.getElem?_drop, mem_page_iff]
  constructor
  · rintro ⟨i, hi⟩
    refine ⟨(p * k + i) / k, ?_, p * k + i, Nat.div_mul_le_self _ _, ?_, hi⟩
    · rw [Nat.le_div_iff_mul_le hk]
      omega
    · exact (Nat.lt_mul_div_succ _ hk).trans_eq (Nat.mul_comm _ _)
  · rintro ⟨j, hpj, i, hi, -, hy⟩
    have hle : p * k ≤ j * k := Nat.mul_le_mul_right k hpj
    refine ⟨i - p * k, ?_⟩
    rw [Nat.add_sub_cancel' (by omega)]
    exact hy

/-! ## Several answers -/

/-- A list in which the rows of `p` come first. -/
theorem filter_append_of_pairwise {p : α → Bool}
    (h : l.Pairwise fun x y => p y = true → p x = true) :
    l.filter p ++ l.filter (fun x => !p x) = l := by
  induction l with
  | nil => rfl
  | cons x l ih =>
    obtain ⟨hx, hl⟩ := List.pairwise_cons.mp h
    by_cases hp : p x = true
    · simpa [hp] using ih hl
    · have hnone : l.filter p = [] := List.filter_eq_nil_iff.mpr fun y hy hpy => hp (hx y hy hpy)
      have hrest := ih hl
      rw [hnone, List.nil_append] at hrest
      simp [hp, hnone, hrest]

section Preorder

variable [Std.Total le] [IsTrans α le]

omit [IsTrans α le] in
/-- In an answer, a row comes before the rows from its place on. -/
theorem IsAnswer.le_of_le (hl : IsAnswer le rows l) {i j : ℕ} (hij : i ≤ j) {x y : α}
    (hx : l[i]? = some x) (hy : l[j]? = some y) : le x y := by
  obtain ⟨hi, rfl⟩ := List.getElem?_eq_some_iff.mp hx
  obtain ⟨hj, rfl⟩ := List.getElem?_eq_some_iff.mp hy
  rcases hij.lt_or_eq with hlt | rfl
  · exact List.pairwise_iff_getElem.mp hl.sorted i j hi hj hlt
  · exact (Std.Total.total l[i] l[i]).elim id id

theorem exists_answer (le : α → α → Prop) [Std.Total le] [IsTrans α le] (rows : List α) :
    ∃ l, IsAnswer le rows l := by
  classical
  exact ⟨rows.mergeSort fun x y => decide (le x y), List.mergeSort_perm _ _,
    List.pairwise_mergeSort' le rows⟩

/-- A row of one answer comes before a row at a later place of another. -/
theorem IsAnswer.le_of_lt (hl : IsAnswer le rows l) (hl' : IsAnswer le rows l') {i j : ℕ}
    (hij : i < j) {x y : α} (hx : l[i]? = some x) (hy : l'[j]? = some y) : le x y := by
  classical
  by_contra hxy
  -- at most `i` rows of the first answer are up to `y`, at least `j + 1` of the second
  have hfew : l.countP (fun z => decide (le z y)) ≤ i := by
    have hlate : (l.drop i).countP (fun z => decide (le z y)) = 0 := by
      rw [List.countP_eq_zero]
      intro z hz hzy
      obtain ⟨m, hm⟩ := List.mem_iff_getElem?.mp hz
      rw [List.getElem?_drop] at hm
      exact hxy (IsTrans.trans x z y (hl.le_of_le (by omega) hx hm) (of_decide_eq_true hzy))
    have hearly : (l.take i).countP (fun z => decide (le z y)) ≤ i :=
      List.countP_le_length.trans (List.length_take_le i l)
    rw [← List.take_append_drop i l, List.countP_append]
    omega
  have hmany : j + 1 ≤ l'.countP (fun z => decide (le z y)) := by
    obtain ⟨hj, -⟩ := List.getElem?_eq_some_iff.mp hy
    have hall : (l'.take (j + 1)).countP (fun z => decide (le z y)) = (l'.take (j + 1)).length := by
      rw [List.countP_eq_length]
      intro z hz
      obtain ⟨m, hm⟩ := List.mem_iff_getElem?.mp hz
      rw [List.getElem?_take] at hm
      split_ifs at hm with hlt
      exact decide_eq_true (hl'.le_of_le (by omega) hm hy)
    have hlength : (l'.take (j + 1)).length = j + 1 := by
      rw [List.length_take]
      omega
    have hsub : (l'.take (j + 1)).countP (fun z => decide (le z y)) ≤
        l'.countP (fun z => decide (le z y)) := (List.take_sublist (j + 1) l').countP_le
    omega
  have hcount := (hl.perm.trans hl'.perm.symm).countP_eq fun z => decide (le z y)
  omega

/-- The pages come in order, whatever the answers. -/
theorem pages_sorted {answers : ℕ → List α} (h : ∀ p, IsAnswer le rows (answers p)) :
    (pages k n answers).Pairwise le := by
  rw [pages, List.pairwise_flatMap]
  refine ⟨fun p _ => (h p).sorted.sublist (page_sublist p _), ?_⟩
  refine (List.pairwise_lt_range (n := n)).imp ?_
  intro p q hpq x hx y hy
  obtain ⟨i, -, hi, hxi⟩ := mem_page_iff.mp hx
  obtain ⟨j, hj, -, hyj⟩ := mem_page_iff.mp hy
  have hpages : (p + 1) * k ≤ q * k := Nat.mul_le_mul_right k hpq
  exact (h p).le_of_lt (h q) (by omega) hxi hyj

/-- With clean cuts every answer has the same rows before a page boundary. -/
theorem CutsClean.take_perm (hclean : CutsClean le k l) (hl : IsAnswer le rows l)
    (hl' : IsAnswer le rows l') (p : ℕ) : (l'.take (p * k)).Perm (l.take (p * k)) := by
  classical
  -- the rows strictly below everything after the boundary
  let below : α → Bool := fun z => decide (∀ y ∈ l.drop (p * k), ¬ le y z)
  have hbelow : l.filter below = l.take (p * k) := by
    have htake : (l.take (p * k)).filter below = l.take (p * k) := by
      rw [List.filter_eq_self]
      exact fun x hx => decide_eq_true (hclean p x hx)
    have hdrop : (l.drop (p * k)).filter below = [] := by
      rw [List.filter_eq_nil_iff]
      intro y hy hlow
      exact of_decide_eq_true hlow y hy ((Std.Total.total y y).elim id id)
    conv_lhs => rw [← List.take_append_drop (p * k) l]
    rw [List.filter_append, htake, hdrop, List.append_nil]
  have hsplit : l'.filter below ++ l'.filter (fun z => !below z) = l' := by
    refine filter_append_of_pairwise (hl'.sorted.imp ?_)
    intro x z hxz hz
    exact decide_eq_true fun y hy hyx =>
      of_decide_eq_true hz y hy (IsTrans.trans y x z hyx hxz)
  have hperm : (l'.filter below).Perm (l.take (p * k)) := by
    rw [← hbelow]
    exact (hl'.perm.trans hl.perm.symm).filter below
  have hlength : (l'.filter below).length = min (p * k) l'.length := by
    rw [hperm.length_eq, List.length_take, (hl'.perm.trans hl.perm.symm).length_eq]
  have hprefix : l'.filter below <+: l' := ⟨_, hsplit⟩
  rw [List.take_eq_take_min, ← hlength, ← List.prefix_iff_eq_take.mp hprefix]
  exact hperm

/-- With clean cuts every answer has the same rows on a page. -/
theorem CutsClean.page_perm (hclean : CutsClean le k l) (hl : IsAnswer le rows l)
    (hl' : IsAnswer le rows l') (p : ℕ) : (page k p l').Perm (page k p l) := by
  have hnext := hclean.take_perm hl hl' (p + 1)
  rw [take_succ_page, take_succ_page] at hnext
  exact (List.perm_append_left_iff _).mp
    (((hclean.take_perm hl hl' p).symm.append_right _).trans hnext)

omit [Std.Total le] [IsTrans α le] in
/-- Two neighbours with the same key may change places. -/
theorem IsAnswer.swap {front back : List α} {x y : α}
    (h : IsAnswer le rows (front ++ x :: y :: back)) (hyx : le y x) :
    IsAnswer le rows (front ++ y :: x :: back) := by
  refine ⟨((List.Perm.swap x y back).append_left front).trans h.perm, ?_⟩
  have hsorted := h.sorted
  simp only [List.pairwise_append, List.pairwise_cons, List.mem_cons, forall_eq_or_imp] at hsorted ⊢
  obtain ⟨hfront, ⟨⟨hxy, hx⟩, hy, hback⟩, hcross⟩ := hsorted
  refine ⟨hfront, ⟨⟨hyx, hy⟩, hx, hback⟩, fun z hz => ?_⟩
  obtain ⟨hzx, hzy, hzback⟩ := hcross z hz
  exact ⟨hzy, hzx, hzback⟩

/-- Where a key occurs on both sides of a boundary, two answers put the same row
    on both. -/
theorem exists_row_twice (hk : 0 < k) (hl : IsAnswer le rows l) (h : ¬ CutsClean le k l) :
    ∃ p l' x, IsAnswer le rows l' ∧ x ∈ page k p l ∧ x ∈ page k (p + 1) l' := by
  unfold CutsClean at h
  push Not at h
  obtain ⟨p, x, hx, y, hy, hyx⟩ := h
  obtain ⟨i, hxi⟩ := List.mem_iff_getElem?.mp hx
  obtain ⟨j, hyj⟩ := List.mem_iff_getElem?.mp hy
  rw [List.getElem?_take] at hxi
  rw [List.getElem?_drop] at hyj
  split_ifs at hxi with hi
  obtain ⟨hlen, -⟩ := List.getElem?_eq_some_iff.mp hyj
  obtain ⟨m, rfl⟩ : ∃ m, p = m + 1 := Nat.exists_eq_succ_of_ne_zero fun hp => by
    rw [hp, Nat.zero_mul] at hi
    omega
  -- the rows on both sides of the boundary lie between `x` and `y`
  obtain ⟨c, hc⟩ : ∃ c, (m + 1) * k = c + 1 := Nat.exists_eq_succ_of_ne_zero (by
    rw [Nat.add_mul]
    omega)
  have hu : l[c]? = some l[c] := List.getElem?_eq_getElem (by omega)
  have hv : l[c + 1]? = some l[c + 1] := List.getElem?_eq_getElem (by omega)
  have hvu : le l[c + 1] l[c] :=
    IsTrans.trans _ y _ (hl.le_of_le (by omega) hv hyj)
      (IsTrans.trans y x _ hyx (hl.le_of_le (by omega) hxi hu))
  have hsplit : l.take c ++ l[c] :: l[c + 1] :: l.drop (c + 2) = l := by
    rw [← List.drop_eq_getElem_cons, ← List.drop_eq_getElem_cons, List.take_append_drop]
  rw [← hsplit] at hl
  refine ⟨m, _, l[c], hl.swap hvu, mem_page_iff.mpr ⟨c, ?_, by omega, hu⟩,
    mem_page_iff.mpr ⟨c + 1, by omega, ?_, ?_⟩⟩
  · rw [Nat.add_mul] at hc
    omega
  · rw [Nat.add_mul _ _ k]
    omega
  · have htake : (l.take c).length = c := by
      rw [List.length_take]
      omega
    rw [List.getElem?_append_right (by omega), htake]
    simp

/-- With clean cuts the pages make up the rows, whatever the answers. -/
theorem CutsClean.pages_perm (hclean : CutsClean le k l) (hl : IsAnswer le rows l)
    (hn : rows.length ≤ n * k) {answers : ℕ → List α} (h : ∀ p, IsAnswer le rows (answers p)) :
    (pages k n answers).Perm rows := by
  have hone : (pages k n answers).Perm (pages k n fun _ => l) :=
    List.Perm.flatMap_left _ fun p _ => hclean.page_perm hl (h p) p
  rw [pages_const, List.take_of_length_le (hl.perm.length_eq.trans_le hn)] at hone
  exact hone.trans hl.perm

/-- Where no row comes twice, whatever the answers, the cuts are clean. -/
theorem cutsClean_of_nodup (hk : 0 < k) (hn : rows.length ≤ n * k) (hl : IsAnswer le rows l)
    (h : ∀ answers : ℕ → List α, (∀ p, IsAnswer le rows (answers p)) →
      (pages k n answers).Nodup) : CutsClean le k l := by
  by_contra hclean
  obtain ⟨p, l', x, hl', hx, hx'⟩ := exists_row_twice hk hl hclean
  have hnodup := h (Function.update (fun _ => l) (p + 1) l') fun q => by
    by_cases hq : q = p + 1
    · rw [hq, Function.update_self]
      exact hl'
    · rw [Function.update_of_ne hq]
      exact hl
  obtain ⟨-, hdisjoint⟩ := List.nodup_flatMap.mp hnodup
  have hpn := lt_of_mem_page (hl'.perm.length_eq.trans_le hn) hx'
  have hapart := List.pairwise_iff_getElem.mp hdisjoint p (p + 1)
    (by rw [List.length_range]; omega) (by rw [List.length_range]; omega) (Nat.lt_succ_self p)
  simp only [List.getElem_range, Function.onFun] at hapart
  refine hapart ?_ ?_ (a := x)
  · rw [Function.update_of_ne (Nat.lt_succ_self p).ne]
    exact hx
  · rw [Function.update_self]
    exact hx'

omit [Std.Total le] [IsTrans α le] in
/-- An answer is in order across the page boundaries. -/
theorem IsAnswer.pagesOrdered (hl : IsAnswer le rows l) : PagesOrdered le k l := by
  intro p x hx y hy
  have hsorted := hl.sorted
  rw [← List.take_append_drop (p * k) l, List.pairwise_append] at hsorted
  exact hsorted.2.2 x hx y hy

/-! ## Pages shown in another order -/

/-- The first `n` pages one after the other, each shown by `present`. -/
def shownPages {β : Type*} (present : List α → List β) (k n : ℕ) (answers : ℕ → List α) : List β :=
  (List.range n).flatMap fun p => present (page k p (answers p))

/-- Pages ordered by `le`, each shown in the order `le'`, make up the rows in the
    order `le'`, whatever the answers, exactly when the cuts are clean and the
    pages are in the order `le'` among each other. -/
theorem faithful_iff {β : Type*} {build : α → β} {le' : β → β → Prop} {present : List α → List β}
    (hperm : ∀ m, (present m).Perm (m.map build))
    (hsorts : ∀ m, m.Pairwise le → (present m).Pairwise le') (hnodup : (rows.map build).Nodup)
    (hk : 0 < k) (hn : rows.length ≤ n * k) (hl : IsAnswer le rows l) :
    (∀ answers : ℕ → List α, (∀ p, IsAnswer le rows (answers p)) →
      (shownPages present k n answers).Perm (rows.map build) ∧
        (shownPages present k n answers).Pairwise le') ↔
      CutsClean le k l ∧ PagesOrdered (fun x y => le' (build x) (build y)) k l := by
  have hpages : ∀ answers : ℕ → List α,
      (shownPages present k n answers).Perm ((pages k n answers).map build) := by
    intro answers
    rw [pages, List.map_flatMap]
    exact List.Perm.flatMap_left _ fun p _ => hperm _
  constructor
  · intro h
    have hclean : CutsClean le k l := cutsClean_of_nodup hk hn hl fun answers hanswers =>
      ((((hpages answers).symm.trans (h answers hanswers).1).nodup_iff).mpr hnodup).of_map
    refine ⟨hclean, fun p x hx y hy => ?_⟩
    obtain ⟨-, hordered⟩ := List.pairwise_flatMap.mp (h (fun _ => l) fun _ => hl).2
    obtain ⟨i, hip, hxi⟩ := mem_take_iff.mp hx
    obtain ⟨j, hpj, hyj⟩ := (mem_drop_iff hk).mp hy
    have hjn := lt_of_mem_page (hl.perm.length_eq.trans_le hn) hyj
    have hcross := List.pairwise_iff_getElem.mp hordered i j
      (by rw [List.length_range]; omega) (by rw [List.length_range]; omega) (by omega)
    simp only [List.getElem_range] at hcross
    exact hcross _ ((hperm _).mem_iff.mpr (List.mem_map_of_mem hxi)) _
      ((hperm _).mem_iff.mpr (List.mem_map_of_mem hyj))
  · rintro ⟨hclean, hordered⟩ answers hanswers
    refine ⟨(hpages answers).trans ((hclean.pages_perm hl hn hanswers).map build), ?_⟩
    rw [shownPages, List.pairwise_flatMap]
    refine ⟨fun p _ => hsorts _ ((hanswers p).sorted.sublist (page_sublist p _)), ?_⟩
    refine (List.pairwise_lt_range (n := n)).imp ?_
    intro p q hpq x' hx' y' hy'
    obtain ⟨x, hx, rfl⟩ := List.mem_map.mp ((hperm _).mem_iff.mp hx')
    obtain ⟨y, hy, rfl⟩ := List.mem_map.mp ((hperm _).mem_iff.mp hy')
    have hxp := (hclean.page_perm hl (hanswers p) p).mem_iff.mp hx
    have hyq := (hclean.page_perm hl (hanswers q) q).mem_iff.mp hy
    exact hordered q x (mem_take_iff.mpr ⟨p, hpq, hxp⟩) y ((mem_drop_iff hk).mpr ⟨q, le_rfl, hyq⟩)

end Preorder

end PagingLib
