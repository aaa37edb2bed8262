import Mathlib.Data.List.AList
import Mathlib.Data.List.Sort
import TempleConsign.SubmissionDrafts

/-!
# The draft on the phone

Model of `DraftSubmission` (`src/ios/TempleHEAppraiser/Form/DynamicFormView.swift`
line 9): how it is made from a response, how the form scores it and what a
`PATCH` sends of it.

Deviations: a UUID and its text are one value, and so are a `Double` and the
decimal that it prints as. The order of a Swift dictionary is the order of its
list; no key repeats. A response comes decoded (`WireFormat` is about its decoding).
The ids of the submission and of the equipment record, and the dirty flag, are left out.

Result:
* `swiftInt_swiftString`: a year that the schema accepts is read back from its
  text.
-/

namespace TempleConsign

open ServiceLib

/-! ## Swift integers -/

/-- `String(n)`. -/
def swiftString (n : ℤ) : String :=
  String.ofList (if 0 ≤ n then Nat.toDigits 10 n.toNat else '-' :: Nat.toDigits 10 (-n).toNat)

/-- One digit or more, in base ten. -/
def swiftDigits (s : List Char) : Option ℕ :=
  if s ≠ [] ∧ s.all (fun c => '0' ≤ c && c ≤ '9') then
    some (s.foldl (fun n c => n * 10 + (c.toNat - '0'.toNat)) 0)
  else none

/-- `Int(s)`: `nil` on a text that is no number, or one out of range. -/
def swiftInt (s : String) : Option ℤ :=
  let n : Option ℤ := match s.toList with
    | '-' :: s => (swiftDigits s).map fun n => -(n : ℤ)
    | '+' :: s => (swiftDigits s).map fun n => (n : ℤ)
    | s => (swiftDigits s).map fun n => (n : ℤ)
  n.filter fun n => -2 ^ 63 ≤ n && n < 2 ^ 63

/-- A year that the schema accepts is read back from its text. -/
theorem swiftInt_swiftString {n : ℤ} (h : 1900 ≤ n) (h' : n ≤ 2100) :
    swiftInt (swiftString n) = some n := by
  obtain ⟨k, rfl⟩ := Int.eq_ofNat_of_zero_le (by omega : 0 ≤ n)
  have hall : ∀ j : ℕ, j < 201 →
      (match Nat.toDigits 10 (1900 + j) with
        | '-' :: s => (swiftDigits s).map fun n => -(n : ℤ)
        | '+' :: s => (swiftDigits s).map fun n => (n : ℤ)
        | s => (swiftDigits s).map fun n => (n : ℤ)) = some ((1900 + j : ℕ) : ℤ) := by
    decide +kernel
  have hk := hall (k - 1900) (by omega)
  rw [Nat.add_sub_cancel' (by omega)] at hk
  unfold swiftInt swiftString
  rw [String.toList_ofList, if_pos (by omega), Int.toNat_natCast, hk]
  simp only [Option.filter_some]
  rw [if_pos]
  rw [Bool.and_eq_true, decide_eq_true_iff, decide_eq_true_iff]
  omega

/-! ## The draft -/

/-- `InspectionAnswerEntry` (line 123), under its prompt id. -/
structure InspectionAnswerEntry where
  promptId : ℕ
  version : ℤ
  value : Option String

/-- `DraftSubmission` (line 9). -/
structure DraftSubmission (F : Type) where
  status : SubmissionStatus
  categoryId : Option ℕ
  make : String
  model : String
  yearText : String
  serialNumber : String
  hoursCondition : Option String
  runningStatus : Option String
  titleStatus : Option String
  inspectionAnswers : AList fun _ : ℕ => InspectionAnswerEntry
  componentScores : AList fun _ : ℕ => ℚ
  marketabilityRating : Option String
  transportNotes : String
  listingNotes : String
  shown : ShownScore F

variable {F : Type}

/-- `init(equipmentRecordId:from:)` (line 46) on a response. The answers of the
    response are not read. -/
def DraftSubmission.ofServer (A : FloatArith F) (s : SubmissionView) : DraftSubmission F where
  status := s.row.status
  categoryId := s.row.categoryId
  make := (s.row.text .make).getD ""
  model := (s.row.text .model).getD ""
  yearText := (s.row.year.map swiftString).getD ""
  serialNumber := (s.row.text .serialNumber).getD ""
  hoursCondition := s.row.text .hoursCondition
  runningStatus := s.row.text .runningStatus
  titleStatus := s.row.text .titleStatus
  inspectionAnswers := ∅
  componentScores := s.componentScores.foldl
    (fun d e => d.insert e.2.componentId e.2.rawScore) ∅
  marketabilityRating := s.row.text .marketabilityRating
  transportNotes := (s.row.text .transportNotes).getD ""
  listingNotes := (s.row.text .listingNotes).getD ""
  shown :=
    { overallScore := (s.row.overallScore.map A.ofDecimal).getD (A.ofDecimal 0)
      scoreBand := s.row.scoreBand.getD "salvage"
      scoreWeightNormalized := false }

/-- `config.components(for:)` (`Endpoints.swift` line 190). -/
def componentsFor (config : List (ConfigComponent F)) (categoryId : ℕ) :
    List (ConfigComponent F) :=
  (config.filter fun c => c.categoryId = categoryId).insertionSort
    fun c c' => c.displayOrder ≤ c'.displayOrder

/-- `recalculateScore(config:)` (line 70). -/
def DraftSubmission.recalculated (A : FloatArith F) (config : List (ConfigComponent F))
    (d : DraftSubmission F) : DraftSubmission F :=
  { d with
    shown := recalculateScore A (d.categoryId.map (componentsFor config))
      (fun c => (d.componentScores.lookup c).map A.ofDecimal) d.shown }

def emptyToNil (s : String) : Option String := if s.isEmpty then none else some s

/-- The texts that `toUpdateRequest` sends. -/
def DraftSubmission.sent (d : DraftSubmission F) : TextColumn → Option String
  | .make => emptyToNil d.make
  | .model => emptyToNil d.model
  | .hoursCondition => d.hoursCondition
  | .runningStatus => d.runningStatus
  | .serialNumber => emptyToNil d.serialNumber
  | .titleStatus => d.titleStatus
  | .marketabilityRating => d.marketabilityRating
  | .transportNotes => emptyToNil d.transportNotes
  | .listingNotes => emptyToNil d.listingNotes

def InspectionAnswerEntry.request (e : InspectionAnswerEntry) : InspectionAnswerIn where
  promptId := e.promptId
  promptVersion := e.version
  value := match e.value with
    | none => .none
    | some s => .str s

/-- `toUpdateRequest` (line 91), as the server reads it. -/
def DraftSubmission.toUpdateRequest (d : DraftSubmission F) : SubmissionUpdateRequest where
  categoryId := d.categoryId
  year := swiftInt d.yearText
  text := d.sent
  fieldValues := some (d.inspectionAnswers.entries.map fun e => e.2.request)
  componentScores := some (d.componentScores.entries.map fun e => ⟨e.1, e.2, none⟩)
  comparableSalesData := none
  redFlags := none

end TempleConsign
