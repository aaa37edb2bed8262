import TempleConsign.OperationsListing
import TempleConsign.Lib.Csv
import TempleConsign.Lib.CivilTime

/-!
# The export of the operations dashboard

Model of `export_csv` in `src/api/services/admin_operations_service.py` (line 269):
the first page of `list_records`, asked for with 5000 rows, as comma separated
text. The export promises "the full filtered set … Capped at 5000 rows", but the
listing clamps every page to 200 rows.

Deviations: instants are UTC; a carriage return is quoted, as current versions of
`csv` do.

Results:
* `csvRows_csvText`: the lines of the text are the lines written.
* `exportComplete_iff`: the export is complete exactly when the cutoff is a datetime
  and at most 200 records are selected.
-/

namespace TempleConsign.Operations

open ServiceLib PagingLib CivilTime

/-! ## The text -/

/-- `csv.writer(buf, lineterminator="\\n")` over all rows. -/
def csvText (rows : List (List String)) : String :=
  String.ofList (CsvLib.writeRows (rows.map fun row => row.map String.toList))

/-- The lines of a text and the fields of each. -/
def csvRows (text : String) : List (List String) :=
  (CsvLib.readRows text.toList).map fun row => row.map String.ofList

theorem csvRows_csvText (rows : List (List String)) : csvRows (csvText rows) = rows := by
  have hfields : (fun row : List (List Char) => row.map String.ofList) ∘
      (fun row : List String => row.map String.toList) = id := by
    funext row
    simp
  rw [csvRows, csvText, String.toList_ofList, CsvLib.readRows_writeRows, List.map_map, hfields,
    List.map_id]

/-- The first line (line 298). -/
def exportHeader : List String :=
  ["reference_number", "status", "status_display", "days_in_status", "is_overdue",
    "customer_name", "business_name", "state", "make", "model", "year", "assigned_sales_rep",
    "assigned_appraiser", "submitted_at", "updated_at"]

/-- The line of a row (line 317). -/
def exportFields (r : AdminOperationsRow) : List String :=
  [r.referenceNumber.getD "", r.status, r.statusDisplay, toString r.daysInStatus,
    if r.isOverdue then "yes" else "no", r.customerName, r.businessName.getD "",
    r.state.getD "", r.make.getD "", r.model.getD "", (r.year.map toString).getD "",
    r.assignedSalesRepName.getD "", r.assignedAppraiserName.getD "",
    (r.submittedAt.map isoformat).getD "", isoformat r.updatedAt]

/-- The request `export_csv` makes: the page size is its own. -/
def Query.forExport (q : Query) : Query := { q with perPage := 5000 }

/-- `export_csv`. `answer` is the order in which the database has the selected
    rows. -/
def exportCsv (s : Snapshot) (q : Query) (answer : List JoinedRow) :
    Except ListingError String := do
  let (rows, _) ← listRecords s q.forExport 1 answer
  return csvText (exportHeader :: rows.map exportFields)

/-! ## Completeness -/

/-- The cap the export states. -/
def exportCap : ℕ := 5000

/-- The lines after the header are those of `rows`: selected rows, each once, in
    the requested order, all of them up to the cap. -/
structure Exported (s : Snapshot) (q : Query) (text : String) (rows : List AdminOperationsRow) :
    Prop where
  lines : csvRows text = exportHeader :: rows.map exportFields
  selected : rows.Subperm ((s.matching q).map (s.row q))
  length : rows.length = min exportCap (s.matching q).length
  sorted : rows.Pairwise (requestedOrder s.collation q)

/-- Whatever the answer, the text has a line for every selected record. -/
def ExportComplete (s : Snapshot) (q : Query) : Prop :=
  ∀ answer, IsAnswer (applySort s.collation q) (s.matching q) answer →
    ∃ text rows, exportCsv s q answer = .ok text ∧ Exported s q text rows

variable {s : Snapshot} {q : Query}

/-- The page the export asks for is clamped. -/
theorem pageSize_forExport (q : Query) : q.forExport.pageSize = 200 := rfl

/-- What the export writes: the first 200 rows of the answer. -/
theorem exportCsv_eq (hrange : CutoffInRange s q) (answer : List JoinedRow) :
    exportCsv s q answer =
      .ok (csvText (exportHeader :: (s.present q (answer.take 200)).map exportFields)) := by
  have hpage := listRecords_eq (q := q.forExport) hrange 0 answer
  rw [pageSize_forExport, page, Nat.zero_mul, List.drop_zero] at hpage
  exact congrArg (fun r => r >>= fun out : List AdminOperationsRow × ℕ =>
    (pure (csvText (exportHeader :: out.1.map exportFields)) : Except ListingError String)) hpage

theorem inRange_of_exported {answer : List JoinedRow} {text : String}
    (h : exportCsv s q answer = .ok text) : CutoffInRange s q := by
  cases hlisted : listRecords s q.forExport 1 answer with
  | error e =>
    rw [exportCsv, hlisted] at h
    cases h
  | ok out => exact inRange_of_listed (q := q.forExport) hlisted

/-- The lines of the export, whatever the answer. -/
theorem length_of_exported {answer : List JoinedRow} {text : String}
    {rows : List AdminOperationsRow}
    (hanswer : IsAnswer (applySort s.collation q) (s.matching q) answer)
    (htext : exportCsv s q answer = .ok text) (h : Exported s q text rows) :
    rows.length = min 200 (s.matching q).length := by
  have hlines := h.lines
  rw [exportCsv_eq (inRange_of_exported htext), Except.ok.injEq] at htext
  rw [← htext, csvRows_csvText, List.cons.injEq] at hlines
  have hlength := congrArg List.length hlines.2
  rw [List.length_map, List.length_map, (present_perm _).length_eq, List.length_map,
    List.length_take, hanswer.perm.length_eq] at hlength
  exact hlength.symm

theorem length_le_of_complete (h : ExportComplete s q) :
    CutoffInRange s q ∧ (s.matching q).length ≤ 200 := by
  obtain ⟨answer, hanswer⟩ := exists_answer (applySort s.collation q) (s.matching q)
  obtain ⟨text, rows, htext, hexported⟩ := h answer hanswer
  have hpage := length_of_exported hanswer htext hexported
  have hall := hexported.length
  unfold exportCap at hall
  exact ⟨inRange_of_exported htext, by omega⟩

/-- When the export is complete: the cutoff is a datetime and at most 200 records
    are selected. -/
theorem exportComplete_iff (s : Snapshot) (q : Query) :
    ExportComplete s q ↔ CutoffInRange s q ∧ (s.matching q).length ≤ 200 := by
  constructor
  · exact length_le_of_complete
  · rintro ⟨hrange, hfew⟩ answer hanswer
    have hlength : answer.length = (s.matching q).length := hanswer.perm.length_eq
    have hperm : (s.present q answer).Perm ((s.matching q).map (s.row q)) :=
      (present_perm answer).trans (hanswer.perm.map _)
    refine ⟨_, s.present q answer, exportCsv_eq hrange answer, ?_, hperm.subperm, ?_,
      present_sorted answer hanswer.sorted⟩
    · rw [csvRows_csvText, List.take_of_length_le (by omega)]
    · rw [hperm.length_eq, List.length_map, exportCap]
      omega

/-- `n` records of one customer, none with a status event. -/
def filledTable : ℕ → Store RecordColumns
  | 0 => Store.empty
  | n + 1 => (filledTable n).create untouchedRecord

theorem filledTable_get? {n id : ℕ} {r : RecordColumns} (h : (filledTable n).get? id = some r) :
    r = untouchedRecord := by
  induction n with
  | zero => cases h
  | succ n ih =>
    rw [filledTable, Store.get?_create] at h
    split_ifs at h with hid
    · exact (Option.some.inj h).symm
    · exact ih h

theorem length_select_filledTable {p : ℕ → RecordColumns → Bool}
    (hp : ∀ id, p id untouchedRecord = true) (n : ℕ) : ((filledTable n).select p).length = n := by
  induction n with
  | zero => rfl
  | succ n ih =>
    rw [filledTable, Store.select_create, if_pos (hp _), List.length_cons, ih]

/-- A dashboard of `n` records. -/
def crowded (n : ℕ) : Snapshot where
  tables :=
    { records := filledTable n
      customers := Store.empty.create ⟨"Ann A", none, none⟩
      users := Store.empty
      statusEvents := Store.empty
      customerExists := by
        intro id r h
        rw [filledTable_get? h]
        rfl }
  now := 0
  configuredDays := none
  collation := codePoints

/-- All records of it are selected. -/
theorem length_matching_crowded (n : ℕ) : ((crowded n).matching {}).length = n := by
  show (buildBaseQuery (crowded n).tables {} none).length = n
  rw [← countRecords_eq]
  exact length_select_filledTable (fun _ => rfl) n

/-- From 201 records on, records are missing from the export. -/
theorem export_incomplete : ¬ ∀ (s : Snapshot) (q : Query), ExportComplete s q := by
  intro h
  have hfew := (length_le_of_complete (h (crowded 201) {})).2
  rw [length_matching_crowded] at hfew
  omega

end TempleConsign.Operations
