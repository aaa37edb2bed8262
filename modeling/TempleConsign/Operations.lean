import Mathlib.Tactic.Ring
import TempleConsign.Database
import TempleConsign.Lib.Paging

/-!
# The operations dashboard

Model of `list_records` in `src/api/services/admin_operations_service.py`: the
filtered join behind the admin dashboard, its sort, its pages and the overdue
test, which stands once in SQL and once in the row builder.

An answer of the database is any order of the selected rows that respects
`ORDER BY`; a null submission date sorts as the largest value. The threshold is
an integer day count, from the caller or from the configuration.

Deviations: instants are UTC; those the tables hold are taken to be Python
datetimes, only the computed cutoff is checked.

Results:
* `buildBaseQuery_ids`: the selected rows are the selected records, one row each.
* `overduePredicate_iff`, `isOverdue_iff`: the two overdue tests.
-/

namespace TempleConsign.Operations

open ServiceLib PagingLib

/-! ## Tables -/

/-- The columns of `equipment_records` the dashboard reads. -/
structure RecordColumns where
  customerId : ℕ
  status : Status
  referenceNumber : Option String
  customerMake : Option String
  customerModel : Option String
  customerYear : Option ℤ
  customerSubmittedAt : Option ℤ
  assignedSalesRepId : Option ℕ
  assignedAppraiserId : Option ℕ
  createdAt : ℤ
  updatedAt : ℤ
  deletedAt : Option ℤ

/-- The columns of `customers`. -/
structure CustomerColumns where
  submitterName : String
  businessName : Option String
  addressState : Option String

/-- The columns of `users`. -/
structure UserColumns where
  firstName : String
  lastName : String

/-- The columns of `status_events`. -/
structure StatusEventColumns where
  equipmentRecordId : ℕ
  createdAt : ℤ

/-- The tables, with the foreign key from a record to its customer. -/
structure Tables where
  records : Store RecordColumns
  customers : Store CustomerColumns
  users : Store UserColumns
  statusEvents : Store StatusEventColumns
  customerExists : ∀ id r, records.get? id = some r → (customers.get? r.customerId).isSome = true

/-- A row of the join. -/
structure JoinedRow where
  id : ℕ
  record : RecordColumns
  customer : CustomerColumns
  salesRep : Option UserColumns
  appraiser : Option UserColumns

/-! ## Requests -/

/-- `SortField` (`src/api/schemas/admin.py` line 62). -/
inductive SortField
  | updatedAt
  | submittedAt
  | daysInStatus
  | customerName
  | status
  deriving DecidableEq

/-- `SortDirection`. -/
inductive SortDirection
  | asc
  | desc
  deriving DecidableEq

/-- The arguments of `list_records` besides the page number. -/
structure Query where
  status : Option String := none
  assigneeId : Option ℕ := none
  customerId : Option ℕ := none
  overdueOnly : Bool := false
  overdueThresholdDays : Option ℤ := none
  sort : SortField := .updatedAt
  direction : SortDirection := .desc
  perPage : ℤ := 50

/-- The order of texts the database sorts by. -/
structure Collation where
  le : String → String → Prop
  total : ∀ a b, le a b ∨ le b a
  trans : ∀ a b c, le a b → le b c → le a c

/-- What all pages of one listing see: the tables, the clock, the configured
    threshold when it is an integer, and the collation. -/
structure Snapshot where
  tables : Tables
  now : ℤ
  configuredDays : Option ℤ
  collation : Collation

/-! ## The query -/

/-- `_active_filter_clauses` (line 250). -/
def activeFilterClauses (q : Query) (r : RecordColumns) : Bool :=
  (truthy q.status).all (fun status => r.status.value = status) &&
    q.assigneeId.all (fun user =>
      r.assignedSalesRepId = some user || r.assignedAppraiserId = some user) &&
    q.customerId.all (fun customer => r.customerId = customer)

/-- When a record entered its status: its latest status event, else its creation
    (`_entered_current_status_at_map` line 36 and the `coalesce` of line 103). -/
def enteredAt (t : Tables) (id : ℕ) (r : RecordColumns) : ℤ :=
  ((t.statusEvents.select fun _ e => e.equipmentRecordId = id).map (·.2.createdAt)).max?.getD
    r.createdAt

/-- The cutoff of `_overdue_predicate` (line 90). -/
def cutoff (now thresholdDays : ℤ) : ℤ := now - days thresholdDays

/-- `_overdue_predicate`, of a record. -/
def overduePredicate (t : Tables) (before : ℤ) (id : ℕ) (r : RecordColumns) : Bool :=
  enteredAt t id r < before

/-- The `WHERE` of `_build_base_query` (line 57); `before` is the cutoff when
    only overdue records are asked for. -/
def baseClauses (t : Tables) (q : Query) (before : Option ℤ) (id : ℕ) (r : RecordColumns) : Bool :=
  r.deletedAt.isNone && activeFilterClauses q r && before.all fun c => overduePredicate t c id r

/-- The joins of `_build_base_query`. -/
def joinRow (t : Tables) (e : ℕ × RecordColumns) : Option JoinedRow :=
  (t.customers.get? e.2.customerId).map fun customer =>
    { id := e.1
      record := e.2
      customer := customer
      salesRep := e.2.assignedSalesRepId.bind t.users.get?
      appraiser := e.2.assignedAppraiserId.bind t.users.get? }

/-- `_build_base_query`. -/
def buildBaseQuery (t : Tables) (q : Query) (before : Option ℤ) : List JoinedRow :=
  (t.records.select (baseClauses t q before)).filterMap (joinRow t)

/-- The count of line 210. -/
def countRecords (t : Tables) (q : Query) (before : Option ℤ) : ℕ :=
  (t.records.select (baseClauses t q before)).length

/-- Nullable instants in order: null is the largest. -/
def NullsLast (a b : Option ℤ) : Prop := ∀ y ∈ b, ∃ x ∈ a, x ≤ y

theorem nullsLast_total (a b : Option ℤ) : NullsLast a b ∨ NullsLast b a := by
  cases a with
  | none => exact .inr nofun
  | some x =>
    cases b with
    | none => exact .inl nofun
    | some y => simpa [NullsLast] using le_total x y

theorem NullsLast.trans {a b c : Option ℤ} (hab : NullsLast a b) (hbc : NullsLast b c) :
    NullsLast a c := by
  intro z hz
  obtain ⟨y, hy, hyz⟩ := hbc z hz
  obtain ⟨x, hx, hxy⟩ := hab y hy
  exact ⟨x, hx, hxy.trans hyz⟩

/-- A relation in the requested direction. -/
def SortDirection.apply {α : Type} (d : SortDirection) (le : α → α → Prop) (a b : α) : Prop :=
  match d with
  | .asc => le a b
  | .desc => le b a

/-- The `ORDER BY` of `_apply_sort` (line 112). Days in status fall back to
    `updated_at`. -/
def sqlKeyLe (c : Collation) (sort : SortField) (a b : JoinedRow) : Prop :=
  match sort with
  | .updatedAt => a.record.updatedAt ≤ b.record.updatedAt
  | .submittedAt => NullsLast a.record.customerSubmittedAt b.record.customerSubmittedAt
  | .status => c.le a.record.status.value b.record.status.value
  | .customerName => c.le a.customer.submitterName b.customer.submitterName
  | .daysInStatus => a.record.updatedAt ≤ b.record.updatedAt

/-- `_apply_sort`. -/
def applySort (c : Collation) (q : Query) : JoinedRow → JoinedRow → Prop :=
  q.direction.apply (sqlKeyLe c q.sort)

/-! ## The rows -/

/-- `AdminOperationsRow` (`src/api/schemas/admin.py`). -/
structure AdminOperationsRow where
  id : ℕ
  referenceNumber : Option String
  status : String
  statusDisplay : String
  daysInStatus : ℤ
  customerId : ℕ
  customerName : String
  businessName : Option String
  state : Option String
  make : Option String
  model : Option String
  year : Option ℤ
  assignedSalesRepId : Option ℕ
  assignedSalesRepName : Option String
  assignedAppraiserId : Option ℕ
  assignedAppraiserName : Option String
  isOverdue : Bool
  submittedAt : Option ℤ
  updatedAt : ℤ

/-- `_full_name` (line 31). -/
def fullName (first last : String) : String :=
  match [first, last].filter (· ≠ "") with
  | [] => "(no name)"
  | parts => " ".intercalate parts

/-- `timedelta.days` of a difference. -/
def wholeDays (delta : ℤ) : ℤ := delta / days 1

/-- `_row_from_join` (line 127). -/
def rowFromJoin (now entered thresholdDays : ℤ) (j : JoinedRow) : AdminOperationsRow :=
  let daysInStatus := max 0 (wholeDays (now - entered))
  { id := j.id
    referenceNumber := j.record.referenceNumber
    status := j.record.status.value
    statusDisplay := (registry j.record.status).display
    daysInStatus := daysInStatus
    customerId := j.record.customerId
    customerName := j.customer.submitterName
    businessName := j.customer.businessName
    state := j.customer.addressState
    make := j.record.customerMake
    model := j.record.customerModel
    year := j.record.customerYear
    assignedSalesRepId := j.record.assignedSalesRepId
    assignedSalesRepName := j.salesRep.map fun u => fullName u.firstName u.lastName
    assignedAppraiserId := j.record.assignedAppraiserId
    assignedAppraiserName := j.appraiser.map fun u => fullName u.firstName u.lastName
    isOverdue := thresholdDays ≤ daysInStatus
    submittedAt := j.record.customerSubmittedAt
    updatedAt := j.record.updatedAt }

/-- `DEFAULT_OVERDUE_THRESHOLD_DAYS` (line 25). -/
def defaultOverdueThresholdDays : ℤ := 7

/-- `_resolve_overdue_threshold` (line 168). -/
def resolveOverdueThreshold (override configured : Option ℤ) : ℤ :=
  match override with
  | some value => value
  | none => (configured.filter fun value => 1 ≤ value).getD defaultOverdueThresholdDays

/-- `out.sort(key=days_in_status, reverse=...)` (line 245): stable in both
    directions. -/
def sortByDays (d : SortDirection) (out : List AdminOperationsRow) : List AdminOperationsRow :=
  match d with
  | .asc => out.mergeSort fun a b => a.daysInStatus ≤ b.daysInStatus
  | .desc => out.mergeSort fun a b => b.daysInStatus ≤ a.daysInStatus

/-! ## The listing -/

/-- `datetime.min` and `datetime.max` in UTC. -/
def datetimeMin : ℤ := seconds (-62135596800)

def datetimeMax : ℤ := seconds 253402300800 - 1

/-- What `datetime` arithmetic raises out of its range. -/
inductive ListingError
  | overflowError
  deriving DecidableEq

/-- The threshold of a request. -/
def Snapshot.thresholdDays (s : Snapshot) (q : Query) : ℤ :=
  resolveOverdueThreshold q.overdueThresholdDays s.configuredDays

/-- The cutoff of a request for overdue records. -/
def Snapshot.before (s : Snapshot) (q : Query) : Option ℤ :=
  if q.overdueOnly then some (cutoff s.now (s.thresholdDays q)) else none

/-- The row of a joined row. -/
def Snapshot.row (s : Snapshot) (q : Query) (j : JoinedRow) : AdminOperationsRow :=
  rowFromJoin s.now (enteredAt s.tables j.id j.record) (s.thresholdDays q) j

/-- The rows of a page, in the order they are sent (lines 229 to 246). -/
def Snapshot.present (s : Snapshot) (q : Query) (joinRows : List JoinedRow) :
    List AdminOperationsRow :=
  let out := joinRows.map (s.row q)
  if q.sort = .daysInStatus then sortByDays q.direction out else out

/-- The clamped page size (line 202). -/
def Query.pageSize (q : Query) : ℕ := (max 1 (min 200 q.perPage)).toNat

/-- `list_records` (line 181). `answer` is the order in which the database has
    the selected rows for this request. -/
def listRecords (s : Snapshot) (q : Query) (page : ℤ) (answer : List JoinedRow) :
    Except ListingError (List AdminOperationsRow × ℕ) :=
  if (s.before q).all fun c => datetimeMin ≤ c && c ≤ datetimeMax then
    .ok (s.present q (PagingLib.page q.pageSize (max 1 page - 1).toNat answer),
      countRecords s.tables q (s.before q))
  else .error .overflowError

/-! ## The selected rows -/

section Rows

variable {t : Tables} {q : Query} {before : Option ℤ}

theorem exists_joinRow {id : ℕ} {r : RecordColumns} (h : t.records.get? id = some r) :
    ∃ j, joinRow t (id, r) = some j := by
  obtain ⟨customer, hcustomer⟩ := Option.isSome_iff_exists.mp (t.customerExists id r h)
  exact ⟨_, Option.map_eq_some_iff.mpr ⟨customer, hcustomer, rfl⟩⟩

theorem joinRow_id {e : ℕ × RecordColumns} {j : JoinedRow} (h : joinRow t e = some j) :
    j.id = e.1 ∧ j.record = e.2 := by
  obtain ⟨customer, -, rfl⟩ := Option.map_eq_some_iff.mp h
  exact ⟨rfl, rfl⟩

/-- The join neither drops nor repeats a record. -/
theorem buildBaseQuery_ids (t : Tables) (q : Query) (before : Option ℤ) :
    (buildBaseQuery t q before).map JoinedRow.id =
      (t.records.select (baseClauses t q before)).map Prod.fst := by
  have hjoin : ∀ l : List (ℕ × RecordColumns), (∀ e ∈ l, t.records.get? e.1 = some e.2) →
      (l.filterMap (joinRow t)).map JoinedRow.id = l.map Prod.fst := by
    intro l hl
    induction l with
    | nil => rfl
    | cons e l ih =>
      obtain ⟨j, hj⟩ := exists_joinRow (hl e List.mem_cons_self)
      have hrest := ih fun e' he' => hl e' (List.mem_cons_of_mem _ he')
      rw [List.filterMap_cons_some hj, List.map_cons, List.map_cons, hrest, (joinRow_id hj).1]
  exact hjoin _ fun e he => (Store.mem_select.mp he).1

/-- The total is the number of the selected rows. -/
theorem countRecords_eq (t : Tables) (q : Query) (before : Option ℤ) :
    countRecords t q before = (buildBaseQuery t q before).length := by
  have hlength := congrArg List.length (buildBaseQuery_ids t q before)
  rw [List.length_map, List.length_map] at hlength
  exact hlength.symm

theorem mem_buildBaseQuery {j : JoinedRow} :
    j ∈ buildBaseQuery t q before ↔ t.records.get? j.id = some j.record ∧
      baseClauses t q before j.id j.record = true ∧ joinRow t (j.id, j.record) = some j := by
  rw [buildBaseQuery, List.mem_filterMap]
  constructor
  · rintro ⟨⟨id, r⟩, hsel, hj⟩
    obtain ⟨rfl, rfl⟩ := joinRow_id hj
    obtain ⟨hget, hclauses⟩ := Store.mem_select.mp hsel
    exact ⟨hget, hclauses, hj⟩
  · rintro ⟨hget, hclauses, hj⟩
    exact ⟨(j.id, j.record), Store.mem_select.mpr ⟨hget, hclauses⟩, hj⟩

end Rows

/-! ## The two overdue tests -/

theorem days_pos : 0 < days 1 := by decide

/-- The test of the query, in the words of the row builder. -/
theorem overduePredicate_iff {t : Tables} {now threshold : ℤ} {id : ℕ} {r : RecordColumns} :
    overduePredicate t (cutoff now threshold) id r = true ↔
      enteredAt t id r < cutoff now threshold := by
  rw [overduePredicate, decide_eq_true_eq]

/-- The flag of a row: set from the cutoff on, and always for a threshold that is
    not positive. -/
theorem isOverdue_iff {now entered threshold : ℤ} {j : JoinedRow} :
    (rowFromJoin now entered threshold j).isOverdue = true ↔
      threshold ≤ 0 ∨ entered ≤ cutoff now threshold := by
  have hscale : threshold * days 1 = days threshold := by
    simp only [days, minutes, seconds]
    ring
  show decide (threshold ≤ max 0 (wholeDays (now - entered))) = true ↔ _
  rw [decide_eq_true_eq, le_max_iff, wholeDays, Int.le_ediv_iff_mul_le days_pos, hscale, cutoff]
  exact or_congr_right (by omega)

end TempleConsign.Operations
