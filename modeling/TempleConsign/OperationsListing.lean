import Mathlib.Data.String.Basic
import TempleConsign.Operations

/-!
# The pages of the operations dashboard

Whether the pages of `list_records` (`src/api/services/admin_operations_service.py`
line 181) are a paging of one ordered set, all read at one clock value. Each page
is a query of its own. The sort keys are not unique, `days_in_status` is sorted
after the page was cut by `updated_at`, and the overdue test stands once in SQL
("for at least `overdue_threshold_days` days", with a strict comparison) and once
in the row builder.

Results:
* `listing_sorted`: every sort but `days_in_status` is kept across the pages.
* `listsAll_iff`: when the pages are the selected rows in the requested order.
* `faithfulPaging_iff`: when the overdue filter and flag agree with that as well.
-/

namespace TempleConsign.Operations

open ServiceLib PagingLib

variable {s : Snapshot} {q : Query}

/-! ## What a client reads -/

/-- The rows a request selects. -/
def Snapshot.matching (s : Snapshot) (q : Query) : List JoinedRow :=
  buildBaseQuery s.tables q (s.before q)

/-- The sort key of a row, by the requested field. -/
def requestedKeyLe (c : Collation) (sort : SortField) (a b : AdminOperationsRow) : Prop :=
  match sort with
  | .updatedAt => a.updatedAt ≤ b.updatedAt
  | .submittedAt => NullsLast a.submittedAt b.submittedAt
  | .status => c.le a.status b.status
  | .customerName => c.le a.customerName b.customerName
  | .daysInStatus => a.daysInStatus ≤ b.daysInStatus

/-- The requested order. -/
def requestedOrder (c : Collation) (q : Query) : AdminOperationsRow → AdminOperationsRow → Prop :=
  q.direction.apply (requestedKeyLe c q.sort)

/-- A client reads the first `n` pages, and these reach to the end. `answers p`
    is the order in which the database has the rows for page `p + 1`. -/
structure Reads (s : Snapshot) (q : Query) (n : ℕ) (answers : ℕ → List JoinedRow) : Prop where
  answered : ∀ p, IsAnswer (applySort s.collation q) (s.matching q) (answers p)
  enough : (s.matching q).length ≤ n * q.pageSize

/-- The pages sent, with their total. -/
def Sent (s : Snapshot) (q : Query) (answers : ℕ → List JoinedRow)
    (out : ℕ → List AdminOperationsRow) (total : ℕ) : Prop :=
  ∀ p : ℕ, listRecords s q (p + 1) (answers p) = .ok (out p, total)

/-- Every reading gives each selected record once, in the requested order, and
    the total is their number. -/
def ListsAll (s : Snapshot) (q : Query) : Prop :=
  ∀ n answers, Reads s q n answers → ∃ out, Sent s q answers out (s.matching q).length ∧
    ((List.range n).flatMap out).Perm ((s.matching q).map (s.row q)) ∧
    ((List.range n).flatMap out).Pairwise (requestedOrder s.collation q)

/-- The request with the overdue filter on or off. -/
def Query.filtered (q : Query) (overdueOnly : Bool) : Query := { q with overdueOnly := overdueOnly }

/-- The rows read with `overdue_only` are those flagged overdue without it. -/
def OverdueAgrees (s : Snapshot) (q : Query) : Prop :=
  ∀ n answers answers' out out' total total',
    Reads s (q.filtered false) n answers → Reads s (q.filtered true) n answers' →
    Sent s (q.filtered false) answers out total → Sent s (q.filtered true) answers' out' total' →
      ∀ row, row ∈ (List.range n).flatMap out' ↔
        row ∈ (List.range n).flatMap out ∧ row.isOverdue = true

/-- The pages are a faithful paging of one ordered set. -/
def FaithfulPaging (s : Snapshot) (q : Query) : Prop :=
  ListsAll s (q.filtered false) ∧ ListsAll s (q.filtered true) ∧ OverdueAgrees s q

/-! ## The order -/

section Order

variable {c : Collation}

instance : Std.Total (applySort c q) where
  total a b := by
    have hkeys : sqlKeyLe c q.sort a b ∨ sqlKeyLe c q.sort b a := by
      unfold sqlKeyLe
      cases q.sort with
      | status => exact c.total _ _
      | customerName => exact c.total _ _
      | updatedAt => exact le_total _ _
      | submittedAt => exact nullsLast_total _ _
      | daysInStatus => exact le_total _ _
    unfold applySort SortDirection.apply
    cases q.direction with
    | asc => exact hkeys
    | desc => exact hkeys.symm

theorem sqlKeyLe_trans {sort : SortField} {a b d : JoinedRow} (hab : sqlKeyLe c sort a b)
    (hbd : sqlKeyLe c sort b d) : sqlKeyLe c sort a d := by
  unfold sqlKeyLe at *
  cases sort with
  | status => exact c.trans _ _ _ hab hbd
  | customerName => exact c.trans _ _ _ hab hbd
  | updatedAt => exact le_trans hab hbd
  | submittedAt => exact NullsLast.trans hab hbd
  | daysInStatus => exact le_trans hab hbd

instance : IsTrans JoinedRow (applySort c q) where
  trans a b d hab hbd := by
    unfold applySort SortDirection.apply at *
    cases h : q.direction with
    | asc =>
      rw [h] at hab hbd
      exact sqlKeyLe_trans hab hbd
    | desc =>
      rw [h] at hab hbd
      exact sqlKeyLe_trans hbd hab

end Order

/-- Every sort but `days_in_status` is the database's. -/
theorem requestedOrder_row (hsort : q.sort ≠ .daysInStatus) (a b : JoinedRow) :
    requestedOrder s.collation q (s.row q a) (s.row q b) ↔ applySort s.collation q a b := by
  unfold requestedOrder applySort SortDirection.apply requestedKeyLe sqlKeyLe
  cases h : q.sort with
  | daysInStatus => exact absurd h hsort
  | updatedAt => cases q.direction <;> rfl
  | submittedAt => cases q.direction <;> rfl
  | status => cases q.direction <;> rfl
  | customerName => cases q.direction <;> rfl

theorem sortByDays_perm (d : SortDirection) (out : List AdminOperationsRow) :
    (sortByDays d out).Perm out := by
  cases d with
  | asc => exact List.mergeSort_perm _ _
  | desc => exact List.mergeSort_perm _ _

theorem sortByDays_sorted (d : SortDirection) (out : List AdminOperationsRow) :
    (sortByDays d out).Pairwise (d.apply fun a b => a.daysInStatus ≤ b.daysInStatus) := by
  cases d with
  | asc =>
    have hsorted := List.pairwise_mergeSort'
      (fun a b : AdminOperationsRow => a.daysInStatus ≤ b.daysInStatus) out
    exact hsorted
  | desc =>
    have hsorted := List.pairwise_mergeSort'
      (fun a b : AdminOperationsRow => b.daysInStatus ≤ a.daysInStatus) out
    exact hsorted

/-- A page shows the rows cut for it. -/
theorem present_perm (m : List JoinedRow) : (s.present q m).Perm (m.map (s.row q)) := by
  unfold Snapshot.present
  split_ifs with hsort
  · exact sortByDays_perm _ _
  · exact List.Perm.refl _

/-- A page comes in the requested order. -/
theorem present_sorted (m : List JoinedRow) (hm : m.Pairwise (applySort s.collation q)) :
    (s.present q m).Pairwise (requestedOrder s.collation q) := by
  unfold Snapshot.present
  split_ifs with hsort
  · have hdays := sortByDays_sorted q.direction (m.map (s.row q))
    unfold requestedOrder
    rw [hsort]
    exact hdays
  · rw [List.pairwise_map]
    exact hm.imp fun {a b} h => (requestedOrder_row hsort a b).mpr h

/-! ## The pages -/

theorem pageSize_pos (q : Query) : 0 < q.pageSize := by
  unfold Query.pageSize
  omega

/-- The cutoff of the request is a datetime. -/
def CutoffInRange (s : Snapshot) (q : Query) : Prop :=
  ∀ c ∈ s.before q, datetimeMin ≤ c ∧ c ≤ datetimeMax

/-- What a page answers: the rows of the page and the number of selected rows. -/
theorem listRecords_eq (hrange : CutoffInRange s q) (p : ℕ) (answer : List JoinedRow) :
    listRecords s q (p + 1) answer =
      .ok (s.present q (page q.pageSize p answer), (s.matching q).length) := by
  have hpage : (max 1 ((p : ℤ) + 1) - 1).toNat = p := by omega
  have hcutoff : ((s.before q).all fun c => datetimeMin ≤ c && c ≤ datetimeMax) = true := by
    rw [Option.all_eq_true]
    intro c hc
    simpa using hrange c hc
  rw [listRecords, if_pos hcutoff, hpage, countRecords_eq]
  rfl

/-- A page is answered only where the cutoff is a datetime. -/
theorem inRange_of_listed {p : ℤ} {answer : List JoinedRow} {out : List AdminOperationsRow × ℕ}
    (h : listRecords s q p answer = .ok out) : CutoffInRange s q := by
  unfold listRecords at h
  split_ifs at h with hcutoff
  rw [Option.all_eq_true] at hcutoff
  intro c hc
  simpa using hcutoff c hc

theorem inRange_of_sent {answers : ℕ → List JoinedRow} {out : ℕ → List AdminOperationsRow}
    {total : ℕ} (h : Sent s q answers out total) : CutoffInRange s q := inRange_of_listed (h 0)

/-- What was sent, in terms of the answers. -/
theorem Sent.out_eq {answers : ℕ → List JoinedRow} {out : ℕ → List AdminOperationsRow} {total : ℕ}
    (h : Sent s q answers out total) (p : ℕ) :
    out p = s.present q (page q.pageSize p (answers p)) := by
  have hp := h p
  rw [listRecords_eq (inRange_of_sent h), Except.ok.injEq, Prod.mk.injEq] at hp
  exact hp.1.symm

theorem Sent.flatMap_eq {answers : ℕ → List JoinedRow} {out : ℕ → List AdminOperationsRow}
    {total : ℕ} (h : Sent s q answers out total) (n : ℕ) :
    (List.range n).flatMap out = shownPages (s.present q) q.pageSize n answers := by
  unfold shownPages
  congr 1
  funext p
  exact h.out_eq p

/-- Whatever the answers, every sort but `days_in_status` is kept across pages. -/
theorem listing_sorted (hsort : q.sort ≠ .daysInStatus) {n : ℕ} {answers : ℕ → List JoinedRow}
    {out : ℕ → List AdminOperationsRow} {total : ℕ} (hreads : Reads s q n answers)
    (hsent : Sent s q answers out total) :
    ((List.range n).flatMap out).Pairwise (requestedOrder s.collation q) := by
  have hrow : ∀ m : List JoinedRow, s.present q m = m.map (s.row q) := fun m => if_neg hsort
  rw [hsent.flatMap_eq, shownPages]
  simp only [hrow]
  rw [← List.map_flatMap, List.pairwise_map]
  exact (pages_sorted hreads.answered).imp fun {a b} h => (requestedOrder_row hsort a b).mpr h

/-- The rows of different pages have different sort keys, and where the days in
    status are asked for, pages cut by `updated_at` are in their order. -/
def PagesSeparated (s : Snapshot) (q : Query) : Prop :=
  ∀ l, IsAnswer (applySort s.collation q) (s.matching q) l →
    CutsClean (applySort s.collation q) q.pageSize l ∧
    (q.sort = .daysInStatus →
      PagesOrdered (fun a b => requestedOrder s.collation q (s.row q a) (s.row q b)) q.pageSize l)

theorem rows_nodup : ((s.matching q).map (s.row q)).Nodup := by
  have hids : (((s.matching q).map (s.row q)).map AdminOperationsRow.id).Nodup := by
    rw [List.map_map]
    show ((buildBaseQuery s.tables q (s.before q)).map JoinedRow.id).Nodup
    rw [buildBaseQuery_ids]
    exact Store.select_nodup _ _
  exact hids.of_map

/-- The rows sent are the selected rows in the requested order, whatever the
    answers, exactly when the pages are separated. -/
theorem shown_iff {n : ℕ} (hn : (s.matching q).length ≤ n * q.pageSize) :
    (∀ answers, (∀ p, IsAnswer (applySort s.collation q) (s.matching q) (answers p)) →
      (shownPages (s.present q) q.pageSize n answers).Perm ((s.matching q).map (s.row q)) ∧
        (shownPages (s.present q) q.pageSize n answers).Pairwise (requestedOrder s.collation q)) ↔
      PagesSeparated s q := by
  have hfaithful := fun l (hl : IsAnswer (applySort s.collation q) (s.matching q) l) =>
    faithful_iff present_perm present_sorted rows_nodup (pageSize_pos q) hn hl
  constructor
  · intro h l hl
    obtain ⟨hclean, hordered⟩ := (hfaithful l hl).mp h
    exact ⟨hclean, fun _ => hordered⟩
  · intro h
    obtain ⟨l, hl⟩ := exists_answer (applySort s.collation q) (s.matching q)
    obtain ⟨hclean, hordered⟩ := h l hl
    refine (hfaithful l hl).mpr ⟨hclean, ?_⟩
    by_cases hsort : q.sort = .daysInStatus
    · exact hordered hsort
    · intro p a ha b hb
      exact (requestedOrder_row hsort a b).mpr (hl.pagesOrdered p a ha b hb)

/-- The listing gives the selected rows in the requested order exactly when the
    cutoff is a datetime and the pages are separated. -/
theorem listsAll_iff : ListsAll s q ↔ CutoffInRange s q ∧ PagesSeparated s q := by
  constructor
  · intro h
    have henough : (s.matching q).length ≤ (s.matching q).length * q.pageSize :=
      Nat.le_mul_of_pos_right _ (pageSize_pos q)
    have hrange : CutoffInRange s q := by
      obtain ⟨l, hl⟩ := exists_answer (applySort s.collation q) (s.matching q)
      obtain ⟨out, hsent, -⟩ := h _ (fun _ => l) ⟨fun _ => hl, henough⟩
      exact inRange_of_sent hsent
    refine ⟨hrange, (shown_iff henough).mp fun answers hanswers => ?_⟩
    obtain ⟨out, hsent, hperm, hsorted⟩ := h _ answers ⟨hanswers, henough⟩
    rw [hsent.flatMap_eq] at hperm hsorted
    exact ⟨hperm, hsorted⟩
  · rintro ⟨hrange, hseparated⟩ n answers ⟨hanswers, henough⟩
    exact ⟨fun p => s.present q (page q.pageSize p (answers p)),
      fun p => listRecords_eq hrange p (answers p),
      (shown_iff henough).mpr hseparated answers hanswers⟩

/-! ## The overdue filter -/

/-- When the record of a row entered its status. -/
def Snapshot.entered (s : Snapshot) (j : JoinedRow) : ℤ := enteredAt s.tables j.id j.record

/-- The cutoff of a request, whether or not it filters by it. -/
def Snapshot.cutoff (s : Snapshot) (q : Query) : ℤ :=
  Operations.cutoff s.now (s.thresholdDays q)

/-- The filter selects, of the rows it is applied to, those entered before the
    cutoff. -/
theorem mem_matching_filtered {j : JoinedRow} :
    j ∈ s.matching (q.filtered true) ↔
      j ∈ s.matching (q.filtered false) ∧ s.entered j < s.cutoff q := by
  have hclauses : baseClauses s.tables (q.filtered true) (some (s.cutoff q)) j.id j.record = true ↔
      baseClauses s.tables (q.filtered false) none j.id j.record = true ∧
        s.entered j < s.cutoff q := by
    simp only [baseClauses, Option.all_some, Option.all_none, Bool.and_true, Bool.and_eq_true,
      Snapshot.cutoff, overduePredicate_iff]
    rfl
  show j ∈ buildBaseQuery s.tables (q.filtered true) (some (s.cutoff q)) ↔
    j ∈ buildBaseQuery s.tables (q.filtered false) none ∧ _
  rw [mem_buildBaseQuery, mem_buildBaseQuery, hclauses]
  constructor
  · rintro ⟨hget, ⟨hbase, hentered⟩, hjoin⟩
    exact ⟨⟨hget, hbase, hjoin⟩, hentered⟩
  · rintro ⟨⟨hget, hbase, hjoin⟩, hentered⟩
    exact ⟨hget, ⟨hbase, hentered⟩, hjoin⟩

/-- Two selected rows of one record are the same. -/
theorem row_injective {a b : JoinedRow} (ha : a ∈ s.matching q) (hb : b ∈ s.matching q)
    (h : s.row q a = s.row q b) : a = b := by
  obtain ⟨hgeta, -, hjoina⟩ := mem_buildBaseQuery.mp ha
  obtain ⟨hgetb, -, hjoinb⟩ := mem_buildBaseQuery.mp hb
  have hid : a.id = b.id := congrArg AdminOperationsRow.id h
  rw [← hid] at hgetb hjoinb
  have hrecord := Option.some.inj (hgeta.symm.trans hgetb)
  rw [← hrecord] at hjoinb
  exact Option.some.inj (hjoina.symm.trans hjoinb)

/-- No listed record entered its status at the cutoff; with a threshold that is
    not positive, all did before. -/
def ClearOfCutoff (s : Snapshot) (q : Query) : Prop :=
  ∀ j ∈ s.matching (q.filtered false),
    s.entered j < s.cutoff q ∨ (0 < s.thresholdDays q ∧ s.cutoff q < s.entered j)

/-- The two overdue tests agree on a row exactly away from the cutoff. -/
theorem tests_agree_iff {entered threshold now : ℤ} :
    (entered < cutoff now threshold ↔ threshold ≤ 0 ∨ entered ≤ cutoff now threshold) ↔
      entered < cutoff now threshold ∨ (0 < threshold ∧ cutoff now threshold < entered) := by
  omega

/-- With both listings complete, the filter agrees with the flag exactly where
    the listed records are clear of the cutoff. -/
theorem overdueAgrees_iff (hplain : ListsAll s (q.filtered false))
    (hoverdue : ListsAll s (q.filtered true)) : OverdueAgrees s q ↔ ClearOfCutoff s q := by
  have hrows : ∀ b, ListsAll s (q.filtered b) → ∀ {n answers out total},
      Reads s (q.filtered b) n answers → Sent s (q.filtered b) answers out total → ∀ row,
        row ∈ (List.range n).flatMap out ↔ ∃ j ∈ s.matching (q.filtered b), s.row q j = row := by
    intro b hlists n answers out total hreads hsent row
    obtain ⟨out', hsent', hperm, -⟩ := hlists n answers hreads
    rw [hsent.flatMap_eq, ← hsent'.flatMap_eq, hperm.mem_iff, List.mem_map]
    rfl
  have hflag : ∀ j, (s.row q j).isOverdue = true ↔
      s.thresholdDays q ≤ 0 ∨ s.entered j ≤ s.cutoff q := fun j => isOverdue_iff
  constructor
  · intro h j hj
    obtain ⟨l, hl⟩ := exists_answer (applySort s.collation (q.filtered false))
      (s.matching (q.filtered false))
    obtain ⟨l', hl'⟩ := exists_answer (applySort s.collation (q.filtered true))
      (s.matching (q.filtered true))
    let n := (s.matching (q.filtered false)).length + (s.matching (q.filtered true)).length
    have hn : n ≤ n * q.pageSize := Nat.le_mul_of_pos_right _ (pageSize_pos q)
    have hreads : Reads s (q.filtered false) n fun _ => l :=
      ⟨fun _ => hl, (Nat.le_add_right _ _).trans hn⟩
    have hreads' : Reads s (q.filtered true) n fun _ => l' :=
      ⟨fun _ => hl', (Nat.le_add_left _ _).trans hn⟩
    obtain ⟨out, hsent, -⟩ := hplain n _ hreads
    obtain ⟨out', hsent', -⟩ := hoverdue n _ hreads'
    have hrow := h n _ _ out out' _ _ hreads hreads' hsent hsent' (s.row q j)
    rw [hrows true hoverdue hreads' hsent', hrows false hplain hreads hsent] at hrow
    refine tests_agree_iff.mp ⟨fun hentered => ?_, fun hlate => ?_⟩
    · have hover := hrow.mp ⟨j, mem_matching_filtered.mpr ⟨hj, hentered⟩, rfl⟩
      exact (hflag j).mp hover.2
    · obtain ⟨j', hj', heq⟩ := hrow.mpr ⟨⟨j, hj, rfl⟩, (hflag j).mpr hlate⟩
      obtain ⟨hmem, hentered⟩ := mem_matching_filtered.mp hj'
      obtain rfl : j' = j := row_injective hmem hj heq
      exact hentered
  · intro hclear n answers answers' out out' total total' hreads hreads' hsent hsent' row
    rw [hrows true hoverdue hreads' hsent', hrows false hplain hreads hsent]
    constructor
    · rintro ⟨j, hj, rfl⟩
      obtain ⟨hmem, hentered⟩ := mem_matching_filtered.mp hj
      exact ⟨⟨j, hmem, rfl⟩, (hflag j).mpr (Or.inr hentered.le)⟩
    · rintro ⟨⟨j, hj, rfl⟩, hover⟩
      have hagree := tests_agree_iff.mpr (hclear j hj)
      exact ⟨j, mem_matching_filtered.mpr ⟨hj, hagree.mpr ((hflag j).mp hover)⟩, rfl⟩

/-- When the pages are a faithful paging of one ordered set: with and without the
    overdue filter they are separated, the cutoff is a datetime, and no listed
    record is at the cutoff. -/
theorem faithfulPaging_iff (s : Snapshot) (q : Query) :
    FaithfulPaging s q ↔ PagesSeparated s (q.filtered false) ∧
      PagesSeparated s (q.filtered true) ∧ CutoffInRange s (q.filtered true) ∧
      ClearOfCutoff s q := by
  have hrange : CutoffInRange s (q.filtered false) := by
    intro c hc
    cases hc
  constructor
  · rintro ⟨hplain, hoverdue, hagrees⟩
    obtain ⟨hcutoff, hseparated⟩ := listsAll_iff.mp hoverdue
    exact ⟨(listsAll_iff.mp hplain).2, hseparated, hcutoff,
      (overdueAgrees_iff hplain hoverdue).mp hagrees⟩
  · rintro ⟨hseparated, hseparated', hcutoff, hclear⟩
    have hplain := listsAll_iff.mpr ⟨hrange, hseparated⟩
    have hoverdue := listsAll_iff.mpr ⟨hcutoff, hseparated'⟩
    exact ⟨hplain, hoverdue, (overdueAgrees_iff hplain hoverdue).mpr hclear⟩

/-- Texts by their code points. -/
def codePoints : Collation where
  le a b := a ≤ b
  total := le_total
  trans _ _ _ := le_trans

/-- A record without a status event, created at the epoch. -/
def untouchedRecord : RecordColumns :=
  ⟨0, .listed, none, none, none, none, none, none, none, 0, 0, none⟩

/-- One record that entered its status seven days ago, to the microsecond. -/
def weekOldRecord : Snapshot where
  tables :=
    { records := Store.empty.create untouchedRecord
      customers := Store.empty.create ⟨"Ann A", none, none⟩
      users := Store.empty
      statusEvents := Store.empty
      customerExists := by
        intro id r h
        rw [(Store.get?_create_empty.mp h).2]
        rfl }
  now := days 7
  configuredDays := none
  collation := codePoints

/-- It is flagged overdue, but the overdue filter leaves it out. -/
theorem flagged_not_selected : ¬ ∀ (s : Snapshot) (q : Query), FaithfulPaging s q := by
  intro h
  obtain ⟨hplain, hoverdue, hagrees⟩ := h weekOldRecord {}
  have hmem : ⟨0, untouchedRecord, ⟨"Ann A", none, none⟩, none, none⟩ ∈
      weekOldRecord.matching (Query.filtered {} false) :=
    mem_buildBaseQuery.mpr ⟨rfl, by decide +kernel, rfl⟩
  rcases (overdueAgrees_iff hplain hoverdue).mp hagrees _ hmem with hearly | ⟨-, hlate⟩
  · revert hearly
    decide +kernel
  · revert hlate
    decide +kernel

end TempleConsign.Operations
