import Mathlib.Algebra.Group.Prod
import TempleConsign.Reporting

/-!
# Date ranges of the sales reports

Whether the reports of `src/api/services/reporting_service.py` read a range of
dates as the approvals dated in it. A range ends at 23:59:59 of its last day,
inclusive, so adjacent ranges leave out what lies between that second and
midnight. The reports by type and by state build the tests of `approved_at` and
then query by the creation of the record.

Results:
* `totals_salesByPeriod`: the totals of a period are those of its joined rows.
* `periodAdditive_iff`: when adjacent ranges add up.
* `showsDated_iff`: when a report by a key shows the approvals dated in the range.
* `reportsExact_iff`: when all three reports do.
-/

namespace TempleConsign.Reporting

open ServiceLib CivilTime GroupLib

variable {t : Tables} {a b c d e : ℤ}

/-! ## Totals of a period -/

/-- The counts and totals of a row: approved, direct purchases, consignments,
    offers and consignment prices. -/
abbrev Totals := ℕ × ℕ × ℕ × ℚ × ℚ

def SalesByPeriodRow.totals (r : SalesByPeriodRow) : Totals :=
  (r.approvedCount, r.directPurchaseCount, r.consignmentCount, r.totalApprovedOffer,
    r.totalConsignmentPrice)

/-- The totals a response shows for a period. -/
def totalsOf (rows : List SalesByPeriodRow) (label : String) : Totals :=
  ((rows.filter fun r => r.periodLabel = label).map SalesByPeriodRow.totals).sum

/-- What one joined row adds. -/
def joinedTotals (amounts : ℕ → Amounts) (j : PeriodJoined) : Totals :=
  (1, ((amounts j.submissionId).approvedPurchaseOffer.map fun _ => 1).getD 0,
    ((amounts j.submissionId).suggestedConsignmentPrice.map fun _ => 1).getD 0,
    (amounts j.submissionId).approvedPurchaseOffer.getD 0,
    (amounts j.submissionId).suggestedConsignmentPrice.getD 0)

/-- The joined rows of a period. -/
def hasLabel (p : PeriodType) (label : String) (j : PeriodJoined) : Bool :=
  (j.approvedAt.map fun t => periodLabel p (periodTrunc p t)) = some label

theorem length_filterMap_cons {α : Type} (f : α → Option ℚ) (x : α) (l : List α) :
    ((x :: l).filterMap f).length = ((f x).map fun _ => 1).getD 0 + (l.filterMap f).length := by
  cases h : f x with
  | none => simp [h]
  | some q => simp [h, Nat.add_comm]

theorem sum_filterMap_cons {α : Type} (f : α → Option ℚ) (x : α) (l : List α) :
    ((x :: l).filterMap f).sum = (f x).getD 0 + (l.filterMap f).sum := by
  cases h : f x with
  | none => simp [h]
  | some q => simp [h]

/-- A row shows the sum over its group. -/
theorem totals_periodRow (amounts : ℕ → Amounts) (p : PeriodType) (k : ℤ)
    (group : List PeriodJoined) :
    (periodRow amounts p k group).totals = (group.map (joinedTotals amounts)).sum := by
  induction group with
  | nil => rfl
  | cons j group ih =>
    rw [List.map_cons, List.sum_cons, ← ih]
    unfold SalesByPeriodRow.totals periodRow joinedTotals
    simp only [length_filterMap_cons, sum_filterMap_cons, Prod.mk_add_mk, List.length_cons]
    rw [Nat.add_comm 1]

theorem totalsOf_perm {rows rows' : List SalesByPeriodRow} (h : rows.Perm rows') (label : String) :
    totalsOf rows label = totalsOf rows' label := ((h.filter _).map _).sum_eq

theorem totalsOf_cons (r : SalesByPeriodRow) (rows : List SalesByPeriodRow) (label : String) :
    totalsOf (r :: rows) label =
      (if r.periodLabel = label then r.totals else 0) + totalsOf rows label := by
  unfold totalsOf
  by_cases h : r.periodLabel = label
  · simp [h]
  · simp [h]

/-- The rows of the groups with a date, by label. -/
theorem totalsOf_filterMap (amounts : ℕ → Amounts) (p : PeriodType) (label : String)
    (l : List (Option ℤ × List PeriodJoined)) :
    totalsOf (l.filterMap fun g => g.1.map fun k => periodRow amounts p k g.2) label =
      ((l.filter fun g => g.1.map (periodLabel p) = some label).map fun g =>
        (g.2.map (joinedTotals amounts)).sum).sum := by
  induction l with
  | nil => rfl
  | cons g l ih =>
    obtain ⟨k, group⟩ := g
    cases k with
    | none => simpa using ih
    | some k =>
      have hrow : (periodRow amounts p k group).periodLabel = periodLabel p k := rfl
      simp only [List.filterMap_cons, Option.map_some]
      rw [totalsOf_cons, ih, hrow, totals_periodRow]
      by_cases hk : periodLabel p k = label
      · simp [hk]
      · simp [hk]

/-- The totals of a period are those of its joined rows. -/
theorem totals_salesByPeriod {amounts : ℕ → Amounts} {p : PeriodType} {startDate endDate : Option ℤ}
    {rows : List SalesByPeriodRow} (h : salesByPeriod t amounts p startDate endDate = .ok rows)
    (label : String) :
    totalsOf rows label = (((periodJoin t (dateBounds startDate endDate)).filter
      (hasLabel p label)).map (joinedTotals amounts)).sum := by
  unfold salesByPeriod at h
  dsimp only at h
  split_ifs at h
  have hsorted : (periodGroups t p (dateBounds startDate endDate)).Perm (groups
      (fun j => j.approvedAt.map (periodTrunc p)) (periodJoin t (dateBounds startDate endDate))) :=
    List.mergeSort_perm _ _
  rw [← Except.ok.inj h, totalsOf_perm (hsorted.filterMap _), totalsOf_filterMap]
  refine (sum_groups (joinedTotals amounts) fun k : Option ℤ =>
    k.map (periodLabel p) = some label).trans ?_
  simp only [Option.map_map]
  rfl

/-! ## Adjacent ranges -/

/-- The joined rows of one submission. -/
def joinedOf (t : Tables) (e : ℕ × SubmissionColumns) : List PeriodJoined :=
  (t.records.get? e.2.equipmentRecordId).toList.flatMap fun record =>
    (leftJoin (t.listings.select fun _ l => l.equipmentRecordId = e.2.equipmentRecordId)).map
      fun listing => ⟨e.1, e.2.approvedAt, record, listing.map Prod.snd⟩

theorem approvedAt_of_mem_joinedOf {e : ℕ × SubmissionColumns} {j : PeriodJoined}
    (h : j ∈ joinedOf t e) : j.approvedAt = e.2.approvedAt := by
  obtain ⟨record, -, hj⟩ := List.mem_flatMap.mp h
  obtain ⟨listing, -, rfl⟩ := List.mem_map.mp hj
  rfl

/-- Every submission has a joined row. -/
theorem joinedOf_ne_nil {e : ℕ × SubmissionColumns} (h : t.submissions.get? e.1 = some e.2) :
    joinedOf t e ≠ [] := by
  obtain ⟨record, hrecord⟩ := Option.isSome_iff_exists.mp (t.recordExists _ _ h)
  unfold joinedOf leftJoin
  rw [hrecord]
  split_ifs with hempty
  · simp
  · simpa using hempty

/-- The approved submissions that are not deleted. -/
def approvedRows (t : Tables) : List (ℕ × SubmissionColumns) :=
  t.submissions.select fun _ s => s.status = .approved && s.deletedAt.isNone

theorem periodJoin_eq (t : Tables) (bounds : Option ℤ × Option ℤ) :
    periodJoin t bounds = ((approvedRows t).flatMap (joinedOf t)).filter fun j =>
      withinNullable bounds j.approvedAt := by
  have hkept : ∀ e, (joinedOf t e).filter (fun j => withinNullable bounds j.approvedAt) =
      if withinNullable bounds e.2.approvedAt then joinedOf t e else [] := by
    intro e
    split_ifs with hwithin
    · exact List.filter_eq_self.mpr fun j hj => by rwa [approvedAt_of_mem_joinedOf hj]
    · exact List.filter_eq_nil_iff.mpr fun j hj => by rwa [approvedAt_of_mem_joinedOf hj]
  rw [periodJoin, Store.select_and t.submissions
    (fun _ s => s.status = .approved && s.deletedAt.isNone), flatMap_filter, List.filter_flatMap]
  simp only [hkept]
  rfl

/-- With a bound, no row is without a date. -/
theorem salesByPeriod_returns (t : Tables) (amounts : ℕ → Amounts) (p : PeriodType) (a c : ℤ) :
    ∃ rows, salesByPeriod t amounts p (some a) (some c) = .ok rows := by
  refine ⟨_, if_neg fun hany => ?_⟩
  obtain ⟨⟨k, group⟩, hmem, hk⟩ := List.any_eq_true.mp hany
  have hgroup := mem_groups.mp ((List.mergeSort_perm _ _).mem_iff.mp hmem)
  obtain ⟨-, j, hj, hkey⟩ := hgroup
  rw [periodJoin_eq] at hj
  have hwithin := (List.mem_filter.mp hj).2
  cases hdate : j.approvedAt with
  | none =>
    rw [hdate] at hwithin
    cases hwithin
  | some date =>
    rw [hdate] at hkey
    rw [← hkey] at hk
    cases hk

/-- The instants after the last second of a day that counts. -/
def InLastSecond (d t : ℤ) : Prop := dayStart d + seconds 86399 < t ∧ t < dayStart (d + 1)

instance (d t : ℤ) : Decidable (InLastSecond d t) := inferInstanceAs (Decidable (_ ∧ _))

/-- The counts and totals of the ranges `a` to `b` and `b + 1` to `c` add up to
    those of `a` to `c`. -/
def PeriodAdditive (t : Tables) (a b c : ℤ) : Prop :=
  ∀ amounts p, ∃ first second whole,
    salesByPeriod t amounts p (some a) (some b) = .ok first ∧
    salesByPeriod t amounts p (some (b + 1)) (some c) = .ok second ∧
    salesByPeriod t amounts p (some a) (some c) = .ok whole ∧
    ∀ label, totalsOf first label + totalsOf second label = totalsOf whole label

/-- No approval is dated in the last second of the day `b`. -/
def NoneInLastSecond (t : Tables) (b : ℤ) : Prop :=
  ∀ id s, t.submissions.get? id = some s → s.status = .approved → s.deletedAt = none →
    ∀ at' ∈ s.approvedAt, ¬ InLastSecond b at'

theorem dayStart_succ (d : ℤ) : dayStart (d + 1) = dayStart d + 86400000000 := by
  unfold dayStart microsPerDay
  omega

theorem dayStart_le {d d' : ℤ} (h : d ≤ d') : dayStart d ≤ dayStart d' := by
  unfold dayStart microsPerDay
  omega

/-- A bounded range, as two comparisons. -/
theorem within_iff {a c x : ℤ} : within (dateBounds (some a) (some c)) x = true ↔
    dayStart a ≤ x ∧ x ≤ dayStart c + seconds 86399 := by
  simp [within, dateBounds]

/-- The two ranges leave out the last second of the day between them. -/
theorem within_split (hab : a ≤ b) (hbc : b < c) (x : ℤ) :
    (within (dateBounds (some a) (some c)) x = true ↔
      within (dateBounds (some a) (some b)) x = true ∨
      within (dateBounds (some (b + 1)) (some c)) x = true ∨ InLastSecond b x) := by
  simp only [within_iff, InLastSecond]
  have hstart := dayStart_le hab
  have hnext := dayStart_le (Int.add_one_le_iff.mpr hbc)
  have hstep := dayStart_succ b
  unfold seconds
  omega

/-- The totals of the joined rows of a label whose date passes a test. -/
def totalsWhere (t : Tables) (amounts : ℕ → Amounts) (p : PeriodType) (label : String)
    (test : ℤ → Bool) : Totals :=
  ((((approvedRows t).flatMap (joinedOf t)).filter fun j =>
    j.approvedAt.any test && hasLabel p label j).map (joinedTotals amounts)).sum

theorem totalsOf_eq {amounts : ℕ → Amounts} {p : PeriodType} {rows : List SalesByPeriodRow}
    (h : salesByPeriod t amounts p (some a) (some c) = .ok rows) (label : String) :
    totalsOf rows label =
      totalsWhere t amounts p label (within (dateBounds (some a) (some c))) := by
  rw [totals_salesByPeriod h, periodJoin_eq, List.filter_filter, totalsWhere]
  congr 2
  refine List.filter_congr fun j _ => ?_
  rw [Bool.and_comm]
  congr 1
  cases j.approvedAt with
  | none => rfl
  | some x => rfl

theorem totalsWhere_or (amounts : ℕ → Amounts) (p : PeriodType) (label : String)
    {test test' : ℤ → Bool} (h : ∀ x, ¬ (test x = true ∧ test' x = true)) :
    totalsWhere t amounts p label (fun x => test x || test' x) =
      totalsWhere t amounts p label test + totalsWhere t amounts p label test' := by
  unfold totalsWhere
  rw [← sum_filter_or]
  · congr 2
    refine List.filter_congr fun j _ => ?_
    cases j.approvedAt with
    | none => rfl
    | some x => simp [Bool.and_or_distrib_right]
  · intro j _ hboth
    cases hdate : j.approvedAt with
    | none => simp [hdate] at hboth
    | some x =>
      simp only [hdate, Option.any_some, Bool.and_eq_true] at hboth
      exact h x ⟨hboth.1.1, hboth.2.1⟩

/-- The totals of a range are those of its two parts and of the last second of
    the day between them. -/
theorem totals_split (amounts : ℕ → Amounts) (p : PeriodType) (label : String) (hab : a ≤ b)
    (hbc : b < c) :
    totalsWhere t amounts p label (within (dateBounds (some a) (some c))) =
      totalsWhere t amounts p label (within (dateBounds (some a) (some b))) +
      (totalsWhere t amounts p label (within (dateBounds (some (b + 1)) (some c))) +
        totalsWhere t amounts p label fun x => InLastSecond b x) := by
  have hstep := dayStart_succ b
  have hsplit : within (dateBounds (some a) (some c)) = fun x =>
      within (dateBounds (some a) (some b)) x ||
        (within (dateBounds (some (b + 1)) (some c)) x || decide (InLastSecond b x)) := by
    funext x
    rw [Bool.eq_iff_iff, within_split hab hbc]
    simp only [Bool.or_eq_true, decide_eq_true_eq]
  rw [hsplit, totalsWhere_or, totalsWhere_or]
  · intro x hboth
    rw [within_iff, decide_eq_true_eq] at hboth
    unfold InLastSecond at hboth
    omega
  · intro x hboth
    rw [Bool.or_eq_true, within_iff, within_iff, decide_eq_true_eq] at hboth
    unfold InLastSecond seconds at hboth
    omega

/-- The first of the totals counts the joined rows. -/
theorem sum_joinedTotals_fst (amounts : ℕ → Amounts) (l : List PeriodJoined) :
    (l.map (joinedTotals amounts)).sum.1 = l.length := by
  induction l with
  | nil => rfl
  | cons j l ih =>
    rw [List.map_cons, List.sum_cons, Prod.fst_add, ih, List.length_cons, Nat.add_comm]
    rfl

/-- The totals are zero where there is no row. -/
theorem totalsWhere_eq_zero_iff {amounts : ℕ → Amounts} {p : PeriodType} {label : String}
    {test : ℤ → Bool} :
    totalsWhere t amounts p label test = 0 ↔ ∀ j ∈ (approvedRows t).flatMap (joinedOf t),
      ¬ (j.approvedAt.any test && hasLabel p label j) = true := by
  rw [← List.filter_eq_nil_iff]
  constructor
  · intro hzero
    have hlength := sum_joinedTotals_fst amounts (((approvedRows t).flatMap (joinedOf t)).filter
      fun j => j.approvedAt.any test && hasLabel p label j)
    rw [← totalsWhere, hzero] at hlength
    exact List.length_eq_zero_iff.mp hlength.symm
  · intro hempty
    rw [totalsWhere, hempty]
    rfl

/-- No approval in the last second of a day, as totals. -/
theorem noneInLastSecond_iff (amounts : ℕ → Amounts) (p : PeriodType) :
    NoneInLastSecond t b ↔
      ∀ label, totalsWhere t amounts p label (fun x => InLastSecond b x) = 0 := by
  simp only [totalsWhere_eq_zero_iff, List.mem_flatMap, approvedRows]
  constructor
  · rintro hnone label j ⟨⟨id, s⟩, he, hj⟩ hboth
    obtain ⟨hs, hclauses⟩ := Store.mem_select.mp he
    simp only [Bool.and_eq_true, decide_eq_true_eq, Option.isNone_iff_eq_none] at hclauses hboth
    rw [approvedAt_of_mem_joinedOf hj, Option.any_eq_true] at hboth
    obtain ⟨⟨x, hx, hlast⟩, -⟩ := hboth
    exact hnone id s hs hclauses.1 hclauses.2 x hx (of_decide_eq_true hlast)
  · intro hzero id s hs hstatus hlive x hx hlast
    obtain ⟨j, hj⟩ := List.exists_mem_of_ne_nil _ (joinedOf_ne_nil (t := t) (e := (id, s)) hs)
    have hdate := approvedAt_of_mem_joinedOf hj
    rw [Option.mem_def.mp hx] at hdate
    refine hzero (periodLabel p (periodTrunc p x)) j
      ⟨(id, s), Store.mem_select.mpr ⟨hs, ?_⟩, hj⟩ ?_
    · simp [hstatus, hlive]
    · simp [hasLabel, hdate, hlast]

/-- When adjacent ranges add up: no approval is dated in the last second of the
    day the first one ends on. -/
theorem periodAdditive_iff (t : Tables) (hab : a ≤ b) (hbc : b < c) :
    PeriodAdditive t a b c ↔ NoneInLastSecond t b := by
  have hlabel : ∀ {amounts p first second whole},
      salesByPeriod t amounts p (some a) (some b) = .ok first →
      salesByPeriod t amounts p (some (b + 1)) (some c) = .ok second →
      salesByPeriod t amounts p (some a) (some c) = .ok whole → ∀ label,
        (totalsOf first label + totalsOf second label = totalsOf whole label ↔
          totalsWhere t amounts p label (fun x => InLastSecond b x) = 0) := by
    intro amounts p first second whole hfirst hsecond hwhole label
    rw [totalsOf_eq hfirst, totalsOf_eq hsecond, totalsOf_eq hwhole,
      totals_split amounts p label hab hbc, ← add_assoc, left_eq_add]
  constructor
  · intro h
    obtain ⟨first, second, whole, hfirst, hsecond, hwhole, hadds⟩ := h (fun _ => {}) .month
    rw [noneInLastSecond_iff (fun _ => {}) .month]
    exact fun label => (hlabel hfirst hsecond hwhole label).mp (hadds label)
  · intro h amounts p
    obtain ⟨first, hfirst⟩ := salesByPeriod_returns t amounts p a b
    obtain ⟨second, hsecond⟩ := salesByPeriod_returns t amounts p (b + 1) c
    obtain ⟨whole, hwhole⟩ := salesByPeriod_returns t amounts p a c
    rw [noneInLastSecond_iff amounts p] at h
    exact ⟨first, second, whole, hfirst, hsecond, hwhole, fun label =>
      (hlabel hfirst hsecond hwhole label).mpr (h label)⟩

/-! ## Reports by a key -/

/-- The date of an approval is in the range. -/
def datedIn (d e : ℤ) (approvedAt : Option ℤ) : Bool :=
  approvedAt.any fun x => d ≤ dayOf x && dayOf x ≤ e

/-- The approvals of a key dated in the range. -/
def datedIds {κ : Type} [DecidableEq κ] (t : Tables) (key : RecordColumns → Option κ) (d e : ℤ)
    (k : κ) : List ℕ :=
  ((approvals t).filter fun a => datedIn d e a.submission.approvedAt && key a.record = some k).map
    Approval.id

/-- Whatever the amounts, every row shows the figures of the approvals of its key
    dated in the range, and every key with such an approval has a row. -/
def ShowsDated {κ ρ φ : Type} [DecidableEq κ] (t : Tables) (key : RecordColumns → Option κ)
    (rows : (ℕ → Amounts) → List (κ × ρ)) (shown : ρ → φ)
    (figures : (ℕ → Amounts) → List ℕ → φ) (d e : ℤ) : Prop :=
  ∀ amounts,
    (∀ k row, (k, row) ∈ rows amounts → shown row = figures amounts (datedIds t key d e k)) ∧
    ∀ k, datedIds t key d e k ≠ [] → ∃ row, (k, row) ∈ rows amounts

/-- The sales by type show the approvals dated in the range. -/
def TypeShowsDated (t : Tables) (d e : ℤ) : Prop :=
  ShowsDated t (categoryKey t) (fun amounts => typeRows t amounts (some d) (some e))
    SalesByTypeRow.toTypeFigures typeFigures d e

/-- The sales by state show the approvals dated in the range. -/
def StateShowsDated (t : Tables) (d e : ℤ) : Prop :=
  ShowsDated t (stateKey t) (fun amounts => stateRows t amounts (some d) (some e))
    SalesByStateRow.toStateFigures stateFigures d e

/-- The records of the approvals with a key were created within the bounds exactly
    where the approvals are dated in the range. -/
def CreatedAsApproved (t : Tables) (d e : ℤ) (hasKey : RecordColumns → Prop) : Prop :=
  ∀ a ∈ approvals t, hasKey a.record →
    (within (dateBounds (some d) (some e)) a.record.createdAt = true ↔
      datedIn d e a.submission.approvedAt = true)

section Shown

variable {κ ρ φ : Type} [DecidableEq κ] {key : RecordColumns → Option κ}

/-- The approvals whose amounts the row of a key shows. -/
def shownIds (t : Tables) (key : RecordColumns → Option κ) (d e : ℤ) (k : κ) : List ℕ :=
  approvedIds (groupOf Prod.fst (recordJoin t key (dateBounds (some d) (some e))) k)

/-- An approval is among the approvals of its key that pass a test exactly when it
    passes. -/
theorem id_mem_filter_iff (test : Approval → Bool) {a : Approval} {k : κ} (ha : a ∈ approvals t)
    (hk : key a.record = some k) :
    a.id ∈ ((approvals t).filter fun a => test a && key a.record = some k).map Approval.id ↔
      test a = true := by
  rw [List.mem_map]
  constructor
  · rintro ⟨a', ha', hid⟩
    obtain ⟨hmem, hboth⟩ := List.mem_filter.mp ha'
    rw [approval_eq hmem ha hid] at hboth
    exact (Bool.and_eq_true_iff.mp hboth).1
  · intro htest
    exact ⟨a, List.mem_filter.mpr ⟨ha, by simp [htest, hk]⟩, rfl⟩

theorem id_mem_shownIds_iff {a : Approval} {k : κ} (ha : a ∈ approvals t)
    (hk : key a.record = some k) : a.id ∈ shownIds t key d e k ↔
      within (dateBounds (some d) (some e)) a.record.createdAt = true := by
  rw [shownIds, approvedIds_groupOf]
  exact id_mem_filter_iff (fun a => within _ a.record.createdAt) ha hk

theorem id_mem_datedIds_iff {a : Approval} {k : κ} (ha : a ∈ approvals t)
    (hk : key a.record = some k) : a.id ∈ datedIds t key d e k ↔
      datedIn d e a.submission.approvedAt = true :=
  id_mem_filter_iff (fun a => datedIn d e a.submission.approvedAt) ha hk

/-- With the condition, a row shows the approvals dated in the range. -/
theorem shownIds_eq_datedIds
    (h : CreatedAsApproved t d e fun r => (key r).isSome = true) (k : κ) :
    shownIds t key d e k = datedIds t key d e k := by
  rw [shownIds, approvedIds_groupOf, datedIds]
  congr 1
  refine List.filter_congr fun a ha => ?_
  by_cases hk : key a.record = some k
  · have hkey : (key a.record).isSome = true := by rw [hk]; rfl
    rw [Bool.eq_iff_iff.mpr (h a ha hkey)]
  · simp [hk]

variable {rows : (ℕ → Amounts) → List (κ × ρ)} {shown : ρ → φ}
  {figures : (ℕ → Amounts) → List ℕ → φ}
  {mkRow : (ℕ → Amounts) → κ × List (κ × RecordJoined) → ρ}

/-- The row of a key shows the figures of its approvals. -/
theorem shown_row (hrows : ∀ amounts, rows amounts =
      (groups Prod.fst (recordJoin t key (dateBounds (some d) (some e)))).map fun g =>
        (g.1, mkRow amounts g))
    (hshown : ∀ amounts g, shown (mkRow amounts g) = figures amounts (approvedIds g.2))
    {amounts : ℕ → Amounts} {k : κ} {row : ρ} (hmem : (k, row) ∈ rows amounts) :
    shown row = figures amounts (shownIds t key d e k) := by
  rw [hrows] at hmem
  obtain ⟨⟨k', group⟩, hgroup, heq⟩ := List.mem_map.mp hmem
  obtain ⟨rfl, rfl⟩ := Prod.mk.inj heq
  rw [hshown, (mem_groups.mp hgroup).1, shownIds]

/-- A key with approvals has a row. -/
theorem exists_row (hrows : ∀ amounts, rows amounts =
      (groups Prod.fst (recordJoin t key (dateBounds (some d) (some e)))).map fun g =>
        (g.1, mkRow amounts g))
    (amounts : ℕ → Amounts) {k : κ} (hne : shownIds t key d e k ≠ []) :
    ∃ row, (k, row) ∈ rows amounts := by
  have hgroup := exists_group fun hempty => hne (by rw [shownIds, hempty]; rfl)
  rw [hrows]
  exact ⟨_, List.mem_map_of_mem hgroup⟩

/-- When a report by a key shows the approvals dated in the range, for figures
    that tell whose offers they show. -/
theorem showsDated_iff (hrows : ∀ amounts, rows amounts =
      (groups Prod.fst (recordJoin t key (dateBounds (some d) (some e)))).map fun g =>
        (g.1, mkRow amounts g))
    (hshown : ∀ amounts g, shown (mkRow amounts g) = figures amounts (approvedIds g.2))
    (hoffer : ∀ amounts ids ids', figures amounts ids = figures amounts ids' →
      avg (ids.filterMap fun id => (amounts id).approvedPurchaseOffer) =
        avg (ids'.filterMap fun id => (amounts id).approvedPurchaseOffer)) :
    ShowsDated t key rows shown figures d e ↔
      CreatedAsApproved t d e fun r => (key r).isSome = true := by
  constructor
  · intro h a ha hkey
    obtain ⟨k, hk⟩ := Option.isSome_iff_exists.mp hkey
    -- amounts that tell this approval from all others
    let amounts : ℕ → Amounts := fun id =>
      { approvedPurchaseOffer := if id = a.id then some 0 else none }
    have hsame : ∀ row, (k, row) ∈ rows amounts →
        (a.id ∈ shownIds t key d e k ↔ a.id ∈ datedIds t key d e k) := by
      intro row hmem
      have hfigures := (shown_row hrows hshown hmem).symm.trans ((h amounts).1 k row hmem)
      exact mem_iff_of_avg_eq (hoffer amounts _ _ hfigures)
    rw [← id_mem_shownIds_iff ha hk, ← id_mem_datedIds_iff ha hk]
    constructor
    · intro hmem
      obtain ⟨row, hrow⟩ := exists_row hrows amounts (List.ne_nil_of_mem hmem)
      exact (hsame row hrow).mp hmem
    · intro hmem
      obtain ⟨row, hrow⟩ := (h amounts).2 k (List.ne_nil_of_mem hmem)
      exact (hsame row hrow).mpr hmem
  · intro h amounts
    refine ⟨fun k row hmem => ?_, fun k hne => ?_⟩
    · rw [shown_row hrows hshown hmem, shownIds_eq_datedIds h]
    · rw [← shownIds_eq_datedIds h] at hne
      exact exists_row hrows amounts hne

end Shown

theorem typeShowsDated_iff :
    TypeShowsDated t d e ↔ CreatedAsApproved t d e fun r => (categoryKey t r).isSome = true :=
  showsDated_iff (fun _ => rfl) (fun _ _ => rfl) fun _ _ _ h =>
    congrArg TypeFigures.avgApprovedOffer h

theorem stateShowsDated_iff :
    StateShowsDated t d e ↔ CreatedAsApproved t d e fun r => (stateKey t r).isSome = true :=
  showsDated_iff (fun _ => rfl) (fun _ _ => rfl) fun _ _ _ h =>
    congrArg StateFigures.avgApprovedOffer h

/-! ## All three reports -/

/-- Adjacent ranges of the sales by period add up, and the two other reports show
    the approvals dated in a range. -/
def ReportsExact (t : Tables) (a b c d e : ℤ) : Prop :=
  PeriodAdditive t a b c ∧ TypeShowsDated t d e ∧ StateShowsDated t d e

/-- When the reports read ranges of dates exactly: no approval is dated in the last
    second of the day between two ranges, and the record of an approval was created
    in the range, up to the last second of its last day, exactly when the approval
    is dated in it. -/
theorem reportsExact_iff (t : Tables) {a b c : ℤ} (hab : a ≤ b) (hbc : b < c) (d e : ℤ) :
    ReportsExact t a b c d e ↔
      NoneInLastSecond t b ∧ CreatedAsApproved t d e fun _ => True := by
  have hstate : ∀ a ∈ approvals t, (stateKey t a.record).isSome = true := fun a ha =>
    t.customerExists _ _ (mem_approvals.mp ha).2.1
  rw [ReportsExact, periodAdditive_iff t hab hbc, typeShowsDated_iff, stateShowsDated_iff]
  constructor
  · rintro ⟨hnone, -, hcreated⟩
    exact ⟨hnone, fun a ha _ => hcreated a ha (hstate a ha)⟩
  · rintro ⟨hnone, hcreated⟩
    exact ⟨hnone, fun a ha _ => hcreated a ha trivial, fun a ha _ => hcreated a ha trivial⟩

/-- One record with one approved submission. -/
def oneApproval (createdAt approvedAt : ℤ) : Tables where
  records := Store.empty.create ⟨0, some 0, createdAt, none⟩
  submissions := Store.empty.create ⟨0, .approved, some approvedAt, none⟩
  listings := Store.empty
  categoryName := Store.empty.create "Excavators"
  addressState := Store.empty.create (some "TX")
  recordExists := by
    intro id s h
    rw [(Store.get?_create_empty.mp h).2]
    rfl
  customerExists := by
    intro id r h
    rw [(Store.get?_create_empty.mp h).2]
    rfl
  categoryExists := by
    intro id r h c hc
    rw [(Store.get?_create_empty.mp h).2] at hc
    cases hc
    rfl

/-- The approval of that table. -/
def theApproval (createdAt approvedAt : ℤ) : Approval :=
  ⟨0, ⟨0, .approved, some approvedAt, none⟩, ⟨0, some 0, createdAt, none⟩⟩

theorem mem_approvals_one {createdAt approvedAt : ℤ} {a : Approval} :
    a ∈ approvals (oneApproval createdAt approvedAt) ↔ a = theApproval createdAt approvedAt := by
  rw [mem_approvals]
  constructor
  · rintro ⟨hs, hr, -⟩
    obtain ⟨hid, hsub⟩ := Store.get?_create_empty.mp hs
    obtain ⟨-, hrec⟩ := Store.get?_create_empty.mp hr
    cases a
    simp_all [theApproval]
  · rintro rfl
    exact ⟨rfl, rfl, rfl, rfl, rfl⟩

/-- A record created and approved within one day is reported exactly. -/
theorem reportsExact_sameDay : ReportsExact (oneApproval 0 1) 0 0 1 0 1 := by
  refine (reportsExact_iff (oneApproval 0 1) le_rfl (by decide) 0 1).mpr ⟨?_, ?_⟩
  · intro id s hs _ _ x hx
    rw [(Store.get?_create_empty.mp hs).2] at hx
    cases hx
    decide
  · intro a ha _
    rw [mem_approvals_one.mp ha]
    decide

/-- An approval half a second before midnight, of a record created two days before. -/
theorem ranges_inexact : ¬ PeriodAdditive (oneApproval (-172800000000) 86399500000) 0 0 1 ∧
    ¬ TypeShowsDated (oneApproval (-172800000000) 86399500000) 0 1 ∧
    ¬ StateShowsDated (oneApproval (-172800000000) 86399500000) 0 1 := by
  have happroval := mem_approvals_one.mpr (rfl : theApproval (-172800000000) 86399500000 = _)
  refine ⟨fun h => ?_, fun h => ?_, fun h => ?_⟩
  · have hnone := (periodAdditive_iff _ le_rfl (by decide)).mp h
    exact hnone 0 _ rfl rfl rfl _ rfl (by decide)
  · exact absurd (typeShowsDated_iff.mp h _ happroval rfl) (by decide)
  · exact absurd (stateShowsDated_iff.mp h _ happroval rfl) (by decide)

end TempleConsign.Reporting
