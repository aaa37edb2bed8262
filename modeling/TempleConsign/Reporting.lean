import TempleConsign.Database
import TempleConsign.Lib.CivilTime
import TempleConsign.Lib.Grouping

/-!
# The sales reports

Model of `src/api/services/reporting_service.py`: the sales by period, by
equipment type and by state. A report is a query over the joined tables, grouped
by a period, a category or a state, with counts, sums and averages.

The two latter reports are one query with another key; what they take from a
submission are three nullable amounts, kept apart from the rows that decide which
submissions are taken.

Deviations: instants are UTC, as is the session of the database; averages are
exact; rows the `ORDER BY` leaves open keep the order of the table.

Results:
* `mem_salesByType`, `mem_salesByState`: the rows of those two reports.
* `approvedIds_groupOf`: whose amounts one of these rows shows.
-/

namespace TempleConsign.Reporting

open ServiceLib CivilTime GroupLib

/-! ## Tables -/

/-- The columns of `equipment_records` the reports read. -/
structure RecordColumns where
  customerId : ℕ
  categoryId : Option ℕ
  createdAt : ℤ
  deletedAt : Option ℤ

/-- The columns of `appraisal_submissions` that decide where a submission counts. -/
structure SubmissionColumns where
  equipmentRecordId : ℕ
  status : SubmissionStatus
  approvedAt : Option ℤ
  deletedAt : Option ℤ

/-- The amounts of a submission. -/
structure Amounts where
  overallScore : Option ℚ := none
  approvedPurchaseOffer : Option ℚ := none
  suggestedConsignmentPrice : Option ℚ := none

/-- The columns of `public_listings`. -/
structure ListingColumns where
  equipmentRecordId : ℕ
  publishedAt : Option ℤ

/-- The tables, with the foreign keys to records, customers and categories. -/
structure Tables where
  records : Store RecordColumns
  submissions : Store SubmissionColumns
  listings : Store ListingColumns
  categoryName : Store String
  addressState : Store (Option String)
  recordExists : ∀ id s, submissions.get? id = some s →
    (records.get? s.equipmentRecordId).isSome = true
  customerExists : ∀ id r, records.get? id = some r → (addressState.get? r.customerId).isSome = true
  categoryExists : ∀ id r, records.get? id = some r →
    ∀ c ∈ r.categoryId, (categoryName.get? c).isSome = true

/-! ## Date bounds -/

/-- The first instant of a day. -/
def dayStart (d : ℤ) : ℤ := d * microsPerDay

/-- `_date_bounds` (line 34). -/
def dateBounds (startDate endDate : Option ℤ) : Option ℤ × Option ℤ :=
  (startDate.map dayStart, endDate.map fun d => dayStart d + seconds 86399)

/-- The two comparisons with the bounds. -/
def within (bounds : Option ℤ × Option ℤ) (t : ℤ) : Bool :=
  bounds.1.all (fun start => start ≤ t) && bounds.2.all fun stop => t ≤ stop

/-- The tests of `approved_at`: with a bound, a null is not in it. -/
def withinNullable (bounds : Option ℤ × Option ℤ) : Option ℤ → Bool
  | some t => within bounds t
  | none => bounds.1.isNone && bounds.2.isNone

/-! ## Sales by period -/

/-- `period_type`. -/
inductive PeriodType
  | month
  | quarter
  | year
  deriving DecidableEq

/-- `date_trunc(period_type, approved_at)` (line 61), as the first month of the
    period. -/
def periodTrunc (p : PeriodType) (t : ℤ) : ℤ :=
  let k := monthOf (dayOf t)
  match p with
  | .month => k
  | .quarter => k / 3 * 3
  | .year => k / 12 * 12

/-- `_period_label` (line 51). -/
def periodLabel (p : PeriodType) (k : ℤ) : String :=
  match p with
  | .month => toString (k / 12) ++ "-" ++ pad 2 (k % 12 + 1)
  | .quarter => toString (k / 12) ++ " Q" ++ toString (k % 12 / 3 + 1)
  | .year => toString (k / 12)

/-- A row of the join behind the sales by period. -/
structure PeriodJoined where
  submissionId : ℕ
  approvedAt : Option ℤ
  record : RecordColumns
  listing : Option ListingColumns

/-- The outer join of the listings of a record. -/
def leftJoin {ρ : Type} (rows : List ρ) : List (Option ρ) :=
  if rows = [] then [none] else rows.map some

/-- The joined rows (line 118); `submission.status == "approved"` and not deleted. -/
def periodJoin (t : Tables) (bounds : Option ℤ × Option ℤ) : List PeriodJoined :=
  (t.submissions.select fun _ s =>
      s.status = .approved && s.deletedAt.isNone && withinNullable bounds s.approvedAt).flatMap
    fun e => (t.records.get? e.2.equipmentRecordId).toList.flatMap fun record =>
      (leftJoin (t.listings.select fun _ l => l.equipmentRecordId = e.2.equipmentRecordId)).map
        fun listing => ⟨e.1, e.2.approvedAt, record, listing.map Prod.snd⟩

/-- `SalesByPeriodRow` (`src/api/schemas/reporting.py`). -/
structure SalesByPeriodRow where
  periodLabel : String
  recordCount : ℕ
  approvedCount : ℕ
  directPurchaseCount : ℕ
  consignmentCount : ℕ
  totalApprovedOffer : ℚ
  totalConsignmentPrice : ℚ
  avgDaysToPublish : Option ℚ

/-- The days from the creation of a record to the publication of its listing. -/
def daysToPublish (j : PeriodJoined) : Option ℚ :=
  (j.listing.bind ListingColumns.publishedAt).map fun published =>
    (published - j.record.createdAt : ℚ) / 1000000 / 86400

/-- The selected columns of a group (line 96) as a row of the response. -/
def periodRow (amounts : ℕ → Amounts) (p : PeriodType) (k : ℤ) (group : List PeriodJoined) :
    SalesByPeriodRow :=
  let offers := group.filterMap fun j => (amounts j.submissionId).approvedPurchaseOffer
  let prices := group.filterMap fun j => (amounts j.submissionId).suggestedConsignmentPrice
  { periodLabel := periodLabel p k
    recordCount := group.length
    approvedCount := group.length
    directPurchaseCount := offers.length
    consignmentCount := prices.length
    totalApprovedOffer := offers.sum
    totalConsignmentPrice := prices.sum
    avgDaysToPublish := avg (group.filterMap daysToPublish) }

/-- `None.strftime`: a period without a date has no label. -/
inductive ReportError
  | attributeError
  deriving DecidableEq

/-- The order of the periods; null comes last. -/
def periodLe : Option ℤ → Option ℤ → Bool
  | _, none => true
  | none, some _ => false
  | some k, some k' => k ≤ k'

/-- The groups of line 121, in the order of line 122. -/
def periodGroups (t : Tables) (p : PeriodType) (bounds : Option ℤ × Option ℤ) :
    List (Option ℤ × List PeriodJoined) :=
  (groups (fun j => j.approvedAt.map (periodTrunc p)) (periodJoin t bounds)).mergeSort
    fun g g' => periodLe g.1 g'.1

/-- `sales_by_period` (line 70), the rows of the response. -/
def salesByPeriod (t : Tables) (amounts : ℕ → Amounts) (p : PeriodType)
    (startDate endDate : Option ℤ) : Except ReportError (List SalesByPeriodRow) :=
  let rowsRaw := periodGroups t p (dateBounds startDate endDate)
  if rowsRaw.any fun g => g.1.isNone then .error .attributeError
  else .ok (rowsRaw.filterMap fun g => g.1.map fun k => periodRow amounts p k g.2)

/-! ## Sales by type and by state -/

/-- A row of the join behind the two reports. -/
structure RecordJoined where
  recordId : ℕ
  submission : Option (ℕ × SubmissionColumns)

/-- The joined rows (lines 201 and 273); `key` is the inner join of the category
    or the customer, with the column it groups by. -/
def recordJoin {κ : Type} (t : Tables) (key : RecordColumns → Option κ)
    (bounds : Option ℤ × Option ℤ) : List (κ × RecordJoined) :=
  (t.records.select fun _ r => r.deletedAt.isNone && within bounds r.createdAt).flatMap fun e =>
    (key e.2).toList.flatMap fun k =>
      (leftJoin (t.submissions.select fun _ s =>
        s.equipmentRecordId = e.1 && s.deletedAt.isNone)).map fun s => (k, ⟨e.1, s⟩)

/-- `case((status == "approved", …))`: the submissions of a group whose amounts
    are shown. -/
def approvedIds {κ : Type} (group : List (κ × RecordJoined)) : List ℕ :=
  group.filterMap fun j => (j.2.submission.filter fun s => s.2.status = .approved).map Prod.fst

/-- `count(distinct(EquipmentRecord.id))`. -/
def recordCount {κ : Type} (group : List (κ × RecordJoined)) : ℕ :=
  (group.map fun j => j.2.recordId).dedup.length

/-- What a row shows of the approved submissions of its group. -/
structure TypeFigures where
  approvedCount : ℕ
  avgOverallScore : Option ℚ
  avgApprovedOffer : Option ℚ
  avgConsignmentPrice : Option ℚ

def typeFigures (amounts : ℕ → Amounts) (ids : List ℕ) : TypeFigures where
  approvedCount := ids.length
  avgOverallScore := avg (ids.filterMap fun id => (amounts id).overallScore)
  avgApprovedOffer := avg (ids.filterMap fun id => (amounts id).approvedPurchaseOffer)
  avgConsignmentPrice := avg (ids.filterMap fun id => (amounts id).suggestedConsignmentPrice)

/-- `SalesByTypeRow`. -/
structure SalesByTypeRow extends TypeFigures where
  categoryName : String
  recordCount : ℕ

/-- The category a record is joined with, by id and name. -/
def categoryKey (t : Tables) (r : RecordColumns) : Option (ℕ × String) :=
  r.categoryId.bind fun c => (t.categoryName.get? c).map fun name => (c, name)

/-- The rows of `sales_by_type` (line 157) with the category of each. -/
def typeRows (t : Tables) (amounts : ℕ → Amounts) (startDate endDate : Option ℤ) :
    List ((ℕ × String) × SalesByTypeRow) :=
  (groups Prod.fst (recordJoin t (categoryKey t) (dateBounds startDate endDate))).map fun g =>
    (g.1, { typeFigures amounts (approvedIds g.2) with
      categoryName := g.1.2
      recordCount := recordCount g.2 })

/-- `sales_by_type`, the rows of the response. -/
def salesByType (t : Tables) (amounts : ℕ → Amounts) (startDate endDate : Option ℤ) :
    List SalesByTypeRow :=
  ((typeRows t amounts startDate endDate).map Prod.snd).mergeSort fun a b =>
    b.recordCount ≤ a.recordCount

structure StateFigures where
  approvedCount : ℕ
  avgApprovedOffer : Option ℚ

def stateFigures (amounts : ℕ → Amounts) (ids : List ℕ) : StateFigures where
  approvedCount := ids.length
  avgApprovedOffer := avg (ids.filterMap fun id => (amounts id).approvedPurchaseOffer)

/-- `SalesByStateRow`. -/
structure SalesByStateRow extends StateFigures where
  state : Option String
  recordCount : ℕ

/-- The state of the customer a record is joined with. -/
def stateKey (t : Tables) (r : RecordColumns) : Option (Option String) :=
  t.addressState.get? r.customerId

/-- The rows of `sales_by_state` (line 249) with the state of each. -/
def stateRows (t : Tables) (amounts : ℕ → Amounts) (startDate endDate : Option ℤ) :
    List (Option String × SalesByStateRow) :=
  (groups Prod.fst (recordJoin t (stateKey t) (dateBounds startDate endDate))).map fun g =>
    (g.1, { stateFigures amounts (approvedIds g.2) with
      state := g.1
      recordCount := recordCount g.2 })

/-- `sales_by_state`, the rows of the response. -/
def salesByState (t : Tables) (amounts : ℕ → Amounts) (startDate endDate : Option ℤ) :
    List SalesByStateRow :=
  ((stateRows t amounts startDate endDate).map Prod.snd).mergeSort fun a b =>
    b.recordCount ≤ a.recordCount

/-- The response has these rows, in another order. -/
theorem mem_salesByType {t : Tables} {amounts : ℕ → Amounts} {startDate endDate : Option ℤ}
    {row : SalesByTypeRow} : row ∈ salesByType t amounts startDate endDate ↔
      ∃ category, (category, row) ∈ typeRows t amounts startDate endDate := by
  rw [salesByType, List.mem_mergeSort]
  simp

theorem mem_salesByState {t : Tables} {amounts : ℕ → Amounts} {startDate endDate : Option ℤ}
    {row : SalesByStateRow} : row ∈ salesByState t amounts startDate endDate ↔
      ∃ state, (state, row) ∈ stateRows t amounts startDate endDate := by
  rw [salesByState, List.mem_mergeSort]
  simp

/-! ## Whose amounts a row shows -/

/-- An approved submission of a record that is not deleted. -/
structure Approval where
  id : ℕ
  submission : SubmissionColumns
  record : RecordColumns

def approvals (t : Tables) : List Approval :=
  (t.records.select fun _ r => r.deletedAt.isNone).flatMap fun e =>
    (t.submissions.select fun _ s =>
      s.equipmentRecordId = e.1 && s.deletedAt.isNone && s.status = .approved).map
        fun s => ⟨s.1, s.2, e.2⟩

theorem mem_approvals {t : Tables} {a : Approval} :
    a ∈ approvals t ↔ t.submissions.get? a.id = some a.submission ∧
      t.records.get? a.submission.equipmentRecordId = some a.record ∧
      a.record.deletedAt = none ∧ a.submission.deletedAt = none ∧
      a.submission.status = .approved := by
  simp only [approvals, List.mem_flatMap, List.mem_map]
  constructor
  · rintro ⟨⟨rid, r⟩, hrec, ⟨sid, s⟩, hsub, rfl⟩
    obtain ⟨hr, hlive⟩ := Store.mem_select.mp hrec
    obtain ⟨hs, hclauses⟩ := Store.mem_select.mp hsub
    simp only [Bool.and_eq_true, decide_eq_true_eq, Option.isNone_iff_eq_none] at hlive hclauses
    obtain ⟨⟨rfl, hdel⟩, hstatus⟩ := hclauses
    exact ⟨hs, hr, hlive, hdel, hstatus⟩
  · rintro ⟨hs, hr, hlive, hdel, hstatus⟩
    refine ⟨(a.submission.equipmentRecordId, a.record), Store.mem_select.mpr ⟨hr, ?_⟩,
      (a.id, a.submission), Store.mem_select.mpr ⟨hs, ?_⟩, rfl⟩
    · simpa using hlive
    · simpa using ⟨hdel, hstatus⟩

/-- A submission is approved once. -/
theorem approval_eq {t : Tables} {a b : Approval} (ha : a ∈ approvals t) (hb : b ∈ approvals t)
    (h : a.id = b.id) : a = b := by
  obtain ⟨hsa, hra, -⟩ := mem_approvals.mp ha
  obtain ⟨hsb, hrb, -⟩ := mem_approvals.mp hb
  have hsub : a.submission = b.submission := Option.some.inj (by rw [← hsa, ← hsb, h])
  have hrec : a.record = b.record := Option.some.inj (by rw [← hra, ← hrb, hsub])
  cases a
  cases b
  simp_all

/-- The approved submissions in an outer join are those of the table. -/
theorem filterMap_leftJoin {ρ σ : Type} (rows : List ρ) (f : Option ρ → Option σ)
    (hnone : f none = none) : (leftJoin rows).filterMap f = rows.filterMap fun x => f (some x) := by
  unfold leftJoin
  split_ifs with hempty
  · simp [hempty, hnone]
  · rw [List.filterMap_map]
    rfl

theorem flatMap_filter {α β : Type} (l : List α) (p : α → Bool) (f : α → List β) :
    (l.filter p).flatMap f = l.flatMap fun x => if p x then f x else [] := by
  induction l with
  | nil => rfl
  | cons x l ih =>
    by_cases hx : p x = true
    · simp [hx, ih]
    · simp [hx, ih]

/-- The approved submissions of one record, under its key. -/
theorem approvedIds_record {κ : Type} [DecidableEq κ] (t : Tables) (k : κ) (key : Option κ)
    (id : ℕ) :
    approvedIds ((key.toList.flatMap fun k' =>
      (leftJoin (t.submissions.select fun _ s =>
        s.equipmentRecordId = id && s.deletedAt.isNone)).map fun s =>
          (k', (⟨id, s⟩ : RecordJoined))).filter fun j => j.1 = k) =
      if key = some k then
        (t.submissions.select fun _ s => s.equipmentRecordId = id && s.deletedAt.isNone &&
          s.status = .approved).map Prod.fst
      else [] := by
  cases key with
  | none => rfl
  | some k' =>
    by_cases hk : k' = k
    · subst hk
      have hkept : ∀ l : List (Option (ℕ × SubmissionColumns)),
          approvedIds ((l.map fun s => (k', (⟨id, s⟩ : RecordJoined))).filter fun j => j.1 = k') =
            l.filterMap fun s => (s.filter fun s => s.2.status = .approved).map Prod.fst := by
        intro l
        rw [List.filter_eq_self.mpr (by simp), approvedIds, List.filterMap_map]
        rfl
      rw [Store.select_and t.submissions
        (fun _ s => s.equipmentRecordId = id && s.deletedAt.isNone), if_pos rfl,
        Option.toList_some, List.flatMap_singleton, hkept, filterMap_leftJoin _ _ rfl,
        ← List.filterMap_eq_map, ← List.filterMap_eq_filter, List.filterMap_filterMap]
      congr 1
      funext s
      by_cases hs : s.2.status = .approved
      · simp [Option.filter, Option.guard, hs]
      · simp [Option.filter, Option.guard, hs]
    · simp [hk, approvedIds]

/-- A row shows the amounts of the approvals of its key whose record was created
    within the bounds. -/
theorem approvedIds_groupOf {κ : Type} [DecidableEq κ] (t : Tables)
    (key : RecordColumns → Option κ) (bounds : Option ℤ × Option ℤ) (k : κ) :
    approvedIds (groupOf Prod.fst (recordJoin t key bounds) k) =
      ((approvals t).filter fun a => within bounds a.record.createdAt && key a.record = some k).map
        Approval.id := by
  rw [recordJoin, Store.select_and, flatMap_filter, groupOf, List.filter_flatMap, approvedIds,
    List.filterMap_flatMap, approvals, List.filter_flatMap, List.map_flatMap]
  congr 1
  funext e
  have hrecord := approvedIds_record t k (key e.2) e.1
  unfold approvedIds at hrecord
  rw [List.filter_map, List.map_map]
  by_cases hwithin : within bounds e.2.createdAt = true
  · rw [if_pos hwithin, hrecord]
    by_cases hkey : key e.2 = some k
    · simp [hwithin, hkey, Function.comp_def]
    · simp [hwithin, hkey, Function.comp_def]
  · simp [hwithin, Function.comp_def]

end TempleConsign.Reporting
