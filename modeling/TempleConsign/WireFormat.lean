import TempleConsign.Lib.Codec
import TempleConsign.LeadRouting

/-!
# The responses that the phone reads

The response schemas of `src/api/schemas/appraisal_submission.py` (line 55) and
`src/api/schemas/valuation.py` (line 12), as Pydantic writes them, and the
`Decodable` structures of `src/ios/TempleHEAppraiser/Networking/Endpoints.swift`
(lines 111 and 236), as `JSONDecoder` reads them. Pydantic writes a `Decimal` as a
string; the phone declares a `Double`, which no string is.

Deviations: the texts of a UUID, a date and a decimal are parameters. An
`INTEGER` column and the length of a list fit a Swift `Int`.

Results:
* `reads_submission`, `reads_comparableSale`: what the phone takes of a response,
  and as what.
* `wire_agrees_iff`: a response decodes to what was sent exactly when it carries
  no decimal.
-/

namespace TempleConsign

open CodecLib
open LeadRouting (Json)

/-! ## Pydantic -/

/-- The texts of a UUID, a date and a decimal. -/
structure Pydantic where
  uuid : ℕ → String
  datetime : ℤ → String
  decimal : ℚ → String

/-- A field of type `T | None`. -/
def optionalJson {α : Type} (enc : α → Json) : Option α → Json := nullable .null enc

namespace Server

/-- `ComponentScoreOut` (`appraisal_submission.py` line 55). -/
structure ComponentScoreOut where
  id : ℕ
  componentId : ℕ
  componentName : String
  rawScore : ℚ
  weightAtTimeOfScoring : ℚ
  notes : Option String

/-- `SubmissionOut` (line 66); `field_values`, `red_flags` and
    `comparable_sales_data` are documents. -/
structure SubmissionOut where
  id : ℕ
  equipmentRecordId : ℕ
  appraiserId : Option ℕ
  status : String
  categoryId : Option ℕ
  categoryVersion : Option ℤ
  make : Option String
  model : Option String
  year : Option ℤ
  hoursCondition : Option String
  runningStatus : Option String
  serialNumber : Option String
  titleStatus : Option String
  overallScore : Option ℚ
  scoreBand : Option String
  managementReviewRequired : Bool
  holdForTitleReview : Bool
  reviewNotes : Option String
  marketabilityRating : Option String
  transportNotes : Option String
  listingNotes : Option String
  approvedPurchaseOffer : Option ℚ
  suggestedConsignmentPrice : Option ℚ
  rejectionNotes : Option String
  approvedById : Option ℕ
  approvedAt : Option ℤ
  fieldValues : Json
  redFlags : Json
  comparableSalesData : Json
  componentScores : List ComponentScoreOut
  submittedAt : Option ℤ
  createdAt : ℤ
  updatedAt : ℤ

/-- `ComparableSaleOut` (`valuation.py` line 12). -/
structure ComparableSaleOut where
  id : ℕ
  make : Option String
  model : Option String
  year : Option ℤ
  hours : Option ℤ
  salePrice : Option ℚ
  saleDate : Option ℤ
  source : Option String
  sourceUrl : Option String
  notes : Option String
  categoryId : Option ℕ

/-- `ValuationSearchResponse` (line 36). -/
structure ValuationSearchResponse where
  results : List ComparableSaleOut
  usedSources : List String

variable (p : Pydantic)

def ComponentScoreOut.fields (s : ComponentScoreOut) : List (String × Json) :=
  [("id", .str (p.uuid s.id)),
    ("component_id", .str (p.uuid s.componentId)),
    ("component_name", .str s.componentName),
    ("raw_score", .str (p.decimal s.rawScore)),
    ("weight_at_time_of_scoring", .str (p.decimal s.weightAtTimeOfScoring)),
    ("notes", optionalJson .str s.notes)]

def ComponentScoreOut.json (s : ComponentScoreOut) : Json := .obj (s.fields p)

def SubmissionOut.fields (s : SubmissionOut) : List (String × Json) :=
  [("id", .str (p.uuid s.id)),
    ("equipment_record_id", .str (p.uuid s.equipmentRecordId)),
    ("appraiser_id", optionalJson (fun id => .str (p.uuid id)) s.appraiserId),
    ("status", .str s.status),
    ("category_id", optionalJson (fun id => .str (p.uuid id)) s.categoryId),
    ("category_version", optionalJson .int s.categoryVersion),
    ("make", optionalJson .str s.make),
    ("model", optionalJson .str s.model),
    ("year", optionalJson .int s.year),
    ("hours_condition", optionalJson .str s.hoursCondition),
    ("running_status", optionalJson .str s.runningStatus),
    ("serial_number", optionalJson .str s.serialNumber),
    ("title_status", optionalJson .str s.titleStatus),
    ("overall_score", optionalJson (fun q => .str (p.decimal q)) s.overallScore),
    ("score_band", optionalJson .str s.scoreBand),
    ("management_review_required", .bool s.managementReviewRequired),
    ("hold_for_title_review", .bool s.holdForTitleReview),
    ("review_notes", optionalJson .str s.reviewNotes),
    ("marketability_rating", optionalJson .str s.marketabilityRating),
    ("transport_notes", optionalJson .str s.transportNotes),
    ("listing_notes", optionalJson .str s.listingNotes),
    ("approved_purchase_offer",
      optionalJson (fun q => .str (p.decimal q)) s.approvedPurchaseOffer),
    ("suggested_consignment_price",
      optionalJson (fun q => .str (p.decimal q)) s.suggestedConsignmentPrice),
    ("rejection_notes", optionalJson .str s.rejectionNotes),
    ("approved_by_id", optionalJson (fun id => .str (p.uuid id)) s.approvedById),
    ("approved_at", optionalJson (fun t => .str (p.datetime t)) s.approvedAt),
    ("field_values", s.fieldValues),
    ("red_flags", s.redFlags),
    ("comparable_sales_data", s.comparableSalesData),
    ("component_scores", .arr (s.componentScores.map (ComponentScoreOut.json p))),
    ("submitted_at", optionalJson (fun t => .str (p.datetime t)) s.submittedAt),
    ("created_at", .str (p.datetime s.createdAt)),
    ("updated_at", .str (p.datetime s.updatedAt))]

def SubmissionOut.json (s : SubmissionOut) : Json := .obj (s.fields p)

/-- `SubmissionListResponse` (line 104); the total is that of the router. -/
def submissionListFields (l : List SubmissionOut) : List (String × Json) :=
  [("submissions", .arr (l.map (SubmissionOut.json p))), ("total", .int l.length)]

def ComparableSaleOut.fields (s : ComparableSaleOut) : List (String × Json) :=
  [("id", .str (p.uuid s.id)),
    ("make", optionalJson .str s.make),
    ("model", optionalJson .str s.model),
    ("year", optionalJson .int s.year),
    ("hours", optionalJson .int s.hours),
    ("sale_price", optionalJson (fun q => .str (p.decimal q)) s.salePrice),
    ("sale_date", optionalJson (fun t => .str (p.datetime t)) s.saleDate),
    ("source", optionalJson .str s.source),
    ("source_url", optionalJson .str s.sourceUrl),
    ("notes", optionalJson .str s.notes),
    ("category_id", optionalJson (fun id => .str (p.uuid id)) s.categoryId)]

def ComparableSaleOut.json (s : ComparableSaleOut) : Json := .obj (s.fields p)

def ValuationSearchResponse.fields (r : ValuationSearchResponse) : List (String × Json) :=
  [("results", .arr (r.results.map (ComparableSaleOut.json p))),
    ("used_sources", .arr (r.usedSources.map .str))]

end Server

/-! ## JSONDecoder -/

namespace Phone

/-- `String`. -/
def string : Json → Option String
  | .str s => some s
  | _ => none

/-- `Int`: a number without a fraction. -/
def int : Json → Option ℤ
  | .int n => some n
  | .float q => if q.den = 1 then some q.num else none
  | _ => none

/-- `Double`: a number. -/
def double : Json → Option ℚ
  | .int n => some n
  | .float q => some q
  | _ => none

def array {α : Type} (dec : Json → Option α) : Json → Option (List α)
  | .arr l => l.mapM dec
  | _ => none

def object {α : Type} (dec : List (String × Json) → Option α) : Json → Option α
  | .obj fields => dec fields
  | _ => none

def isNull : Json → Bool
  | .null => true
  | _ => false

/-- A field of type `T?`. -/
def ifPresent {α : Type} (dec : Json → Option α) : List (String × Json) → String →
    Option (Option α) :=
  CodecLib.optional isNull dec

/-- `ComponentScoreOut` (`Endpoints.swift` line 236). -/
structure ComponentScoreOut where
  id : String
  componentId : String
  componentName : String
  rawScore : ℚ
  weightAtTimeOfScoring : ℚ
  notes : Option String

/-- `SubmissionOut` (line 245). -/
structure SubmissionOut where
  id : String
  equipmentRecordId : String
  appraiserId : Option String
  status : String
  categoryId : Option String
  categoryVersion : Option ℤ
  make : Option String
  model : Option String
  year : Option ℤ
  hoursCondition : Option String
  runningStatus : Option String
  serialNumber : Option String
  titleStatus : Option String
  overallScore : Option ℚ
  scoreBand : Option String
  marketabilityRating : Option String
  transportNotes : Option String
  listingNotes : Option String
  componentScores : List ComponentScoreOut
  submittedAt : Option String
  createdAt : String
  updatedAt : String

/-- `SubmissionListResponse` (line 270). -/
structure SubmissionListResponse where
  submissions : List SubmissionOut
  total : ℤ

/-- `ComparableSaleOut` (line 111). -/
structure ComparableSaleOut where
  id : String
  make : Option String
  model : Option String
  year : Option ℤ
  hours : Option ℤ
  salePrice : Option ℚ
  saleDate : Option String
  source : Option String
  sourceUrl : Option String
  notes : Option String
  categoryId : Option String

/-- `ValuationSearchResponse` (line 139). -/
structure ValuationSearchResponse where
  results : List ComparableSaleOut
  usedSources : List String

def componentScore (o : List (String × Json)) : Option ComponentScoreOut := do
  pure
    { id := ← required string o "id"
      componentId := ← required string o "component_id"
      componentName := ← required string o "component_name"
      rawScore := ← required double o "raw_score"
      weightAtTimeOfScoring := ← required double o "weight_at_time_of_scoring"
      notes := ← ifPresent string o "notes" }

def submission (o : List (String × Json)) : Option SubmissionOut := do
  pure
    { id := ← required string o "id"
      equipmentRecordId := ← required string o "equipment_record_id"
      appraiserId := ← ifPresent string o "appraiser_id"
      status := ← required string o "status"
      categoryId := ← ifPresent string o "category_id"
      categoryVersion := ← ifPresent int o "category_version"
      make := ← ifPresent string o "make"
      model := ← ifPresent string o "model"
      year := ← ifPresent int o "year"
      hoursCondition := ← ifPresent string o "hours_condition"
      runningStatus := ← ifPresent string o "running_status"
      serialNumber := ← ifPresent string o "serial_number"
      titleStatus := ← ifPresent string o "title_status"
      overallScore := ← ifPresent double o "overall_score"
      scoreBand := ← ifPresent string o "score_band"
      marketabilityRating := ← ifPresent string o "marketability_rating"
      transportNotes := ← ifPresent string o "transport_notes"
      listingNotes := ← ifPresent string o "listing_notes"
      componentScores := ← required (array (object componentScore)) o "component_scores"
      submittedAt := ← ifPresent string o "submitted_at"
      createdAt := ← required string o "created_at"
      updatedAt := ← required string o "updated_at" }

def submissionList (o : List (String × Json)) : Option SubmissionListResponse := do
  pure
    { submissions := ← required (array (object submission)) o "submissions"
      total := ← required int o "total" }

def comparableSale (o : List (String × Json)) : Option ComparableSaleOut := do
  pure
    { id := ← required string o "id"
      make := ← ifPresent string o "make"
      model := ← ifPresent string o "model"
      year := ← ifPresent int o "year"
      hours := ← ifPresent int o "hours"
      salePrice := ← ifPresent double o "sale_price"
      saleDate := ← ifPresent string o "sale_date"
      source := ← ifPresent string o "source"
      sourceUrl := ← ifPresent string o "source_url"
      notes := ← ifPresent string o "notes"
      categoryId := ← ifPresent string o "category_id" }

def valuationSearch (o : List (String × Json)) : Option ValuationSearchResponse := do
  pure
    { results := ← required (array (object comparableSale)) o "results"
      usedSources := ← required (array string) o "used_sources" }

end Phone

/-! ## Fields -/

/-- A field under its key. -/
theorem field_cons (k key : String) (j : Json) (l : List (String × Json)) :
    field ((k, j) :: l) key = if k = key then some j else field l key := by
  unfold field
  by_cases h : k = key
  · rw [List.find?_cons_of_pos (by simpa using h), if_pos h]
    rfl
  · rw [List.find?_cons_of_neg (by simpa using h), if_neg h]

theorem object_obj {α : Type} (dec : List (String × Json) → Option α)
    (fields : List (String × Json)) : Phone.object dec (.obj fields) = dec fields := rfl

@[simp] theorem string_str (s : String) : Phone.string (.str s) = some s := rfl

@[simp] theorem double_str (s : String) : Phone.double (.str s) = none := rfl

@[simp] theorem int_int (n : ℤ) : Phone.int (.int n) = some n := rfl

/-- A text that may be null is taken. -/
@[simp] theorem orNull_text {α : Type} (text : α → String) (o : Option α) :
    orNull Phone.isNull Phone.string (optionalJson (fun a => .str (text a)) o) =
      some (o.map text) := by
  cases o with
  | none => rfl
  | some a => rfl

@[simp] theorem orNull_str (o : Option String) :
    orNull Phone.isNull Phone.string (optionalJson .str o) = some o := by
  cases o with
  | none => rfl
  | some s => rfl

@[simp] theorem orNull_int (o : Option ℤ) :
    orNull Phone.isNull Phone.int (optionalJson .int o) = some o := by
  cases o with
  | none => rfl
  | some n => rfl

/-- A decimal that may be null is taken when it is null. -/
@[simp] theorem orNull_decimal (text : ℚ → String) (o : Option ℚ) :
    orNull Phone.isNull Phone.double (optionalJson (fun q => .str (text q)) o) =
      if o = none then some none else none := by
  cases o with
  | none => rfl
  | some q => rfl

variable (p : Pydantic)

/-! ## Comparable sales -/

/-- The comparable sale as it was sent. -/
def Server.ComparableSaleOut.phone (s : Server.ComparableSaleOut) : Phone.ComparableSaleOut where
  id := p.uuid s.id
  make := s.make
  model := s.model
  year := s.year
  hours := s.hours
  salePrice := s.salePrice
  saleDate := s.saleDate.map p.datetime
  source := s.source
  sourceUrl := s.sourceUrl
  notes := s.notes
  categoryId := s.categoryId.map p.uuid

theorem reads_comparableSale :
    Reads (Server.ComparableSaleOut.json p) (Phone.object Phone.comparableSale)
      (fun s => s.salePrice = none) (Server.ComparableSaleOut.phone p) := by
  intro s r
  unfold Server.ComparableSaleOut.json
  rw [object_obj]
  unfold Phone.comparableSale Phone.ifPresent CodecLib.optional required
    Server.ComparableSaleOut.fields
  simp only [field_cons, String.reduceEq, if_true, if_false, Option.bind_some,
    Option.bind_eq_bind, string_str, orNull_str, orNull_int, orNull_text, orNull_decimal]
  unfold Server.ComparableSaleOut.phone
  cases s.salePrice with
  | none =>
    rw [if_pos rfl, and_iff_right rfl]
    exact Option.some_inj
  | some q =>
    rw [if_neg (Option.some_ne_none q)]
    exact iff_of_false (by simp) fun h => Option.some_ne_none q h.1

/-! ## Submissions -/

/-- The component score as it was sent. -/
def Server.ComponentScoreOut.phone (s : Server.ComponentScoreOut) : Phone.ComponentScoreOut where
  id := p.uuid s.id
  componentId := p.uuid s.componentId
  componentName := s.componentName
  rawScore := s.rawScore
  weightAtTimeOfScoring := s.weightAtTimeOfScoring
  notes := s.notes

/-- The submission as it was sent. -/
def Server.SubmissionOut.phone (s : Server.SubmissionOut) : Phone.SubmissionOut where
  id := p.uuid s.id
  equipmentRecordId := p.uuid s.equipmentRecordId
  appraiserId := s.appraiserId.map p.uuid
  status := s.status
  categoryId := s.categoryId.map p.uuid
  categoryVersion := s.categoryVersion
  make := s.make
  model := s.model
  year := s.year
  hoursCondition := s.hoursCondition
  runningStatus := s.runningStatus
  serialNumber := s.serialNumber
  titleStatus := s.titleStatus
  overallScore := s.overallScore
  scoreBand := s.scoreBand
  marketabilityRating := s.marketabilityRating
  transportNotes := s.transportNotes
  listingNotes := s.listingNotes
  componentScores := s.componentScores.map (Server.ComponentScoreOut.phone p)
  submittedAt := s.submittedAt.map p.datetime
  createdAt := p.datetime s.createdAt
  updatedAt := p.datetime s.updatedAt

/-- A score never decodes: its two decimals are not optional. -/
theorem reads_componentScore :
    Reads (Server.ComponentScoreOut.json p) (Phone.object Phone.componentScore) (fun _ => False)
      (Server.ComponentScoreOut.phone p) := by
  refine reads_of_none fun s => ?_
  unfold Server.ComponentScoreOut.json
  rw [object_obj]
  unfold Phone.componentScore Phone.ifPresent CodecLib.optional required
    Server.ComponentScoreOut.fields
  simp only [field_cons, String.reduceEq, if_true, if_false, Option.bind_some, Option.bind_none,
    Option.bind_eq_bind, string_str, double_str]

theorem componentScores_read (l : List Server.ComponentScoreOut) :
    Phone.array (Phone.object Phone.componentScore)
        (.arr (l.map (Server.ComponentScoreOut.json p))) = if l = [] then some [] else none := by
  show (l.map (Server.ComponentScoreOut.json p)).mapM _ = _
  cases l with
  | nil => rfl
  | cons s l =>
    rw [if_neg (List.cons_ne_nil s l)]
    refine Option.eq_none_iff_forall_ne_some.mpr fun bs hbs => ?_
    exact (((reads_componentScore p).list (s :: l) bs).mp hbs).1 s List.mem_cons_self

/-- The submission carries no decimal that the phone reads. -/
def Server.SubmissionOut.Unscored (s : Server.SubmissionOut) : Prop :=
  s.overallScore = none ∧ s.componentScores = []

/-- What the phone makes of a submission, with its two decimals left open. -/
theorem submission_read (s : Server.SubmissionOut) :
    Phone.submission (s.fields p) =
      (if s.overallScore = none then some none else none).bind fun overall =>
        (if s.componentScores = [] then some [] else none).bind fun scores =>
          some { s.phone p with overallScore := overall, componentScores := scores } := by
  unfold Phone.submission Phone.ifPresent CodecLib.optional required Server.SubmissionOut.fields
  simp only [field_cons, String.reduceEq, if_true, if_false, Option.bind_some,
    Option.bind_eq_bind, string_str, orNull_str, orNull_int, orNull_text, orNull_decimal,
    componentScores_read]
  rfl

theorem reads_submission :
    Reads (Server.SubmissionOut.json p) (Phone.object Phone.submission)
      Server.SubmissionOut.Unscored (Server.SubmissionOut.phone p) := by
  intro s r
  unfold Server.SubmissionOut.json
  rw [object_obj, submission_read]
  constructor
  · intro hr
    obtain ⟨overall, hoverall, hr⟩ := Option.bind_eq_some_iff.mp hr
    obtain ⟨scores, hscores, hr⟩ := Option.bind_eq_some_iff.mp hr
    split_ifs at hoverall with h1
    split_ifs at hscores with h2
    cases hoverall
    cases hscores
    cases hr
    refine ⟨⟨h1, h2⟩, ?_⟩
    unfold Server.SubmissionOut.phone
    rw [h1, h2]
    rfl
  · rintro ⟨⟨h1, h2⟩, rfl⟩
    rw [if_pos h1, if_pos h2, Option.bind_some, Option.bind_some]
    unfold Server.SubmissionOut.phone
    rw [h1, h2]
    rfl

/-! ## Agreement -/

/-- A list of submissions decodes when each of them does. -/
theorem submissionList_read (l : List Server.SubmissionOut) (r : Phone.SubmissionListResponse) :
    Phone.submissionList (Server.submissionListFields p l) = some r ↔
      (∀ s ∈ l, s.Unscored) ∧ ⟨l.map (Server.SubmissionOut.phone p), l.length⟩ = r := by
  have hlist := (reads_submission p).list l
  unfold Phone.submissionList required Server.submissionListFields
  simp only [field_cons, String.reduceEq, if_true, if_false, Option.bind_some,
    Option.bind_eq_bind, int_int, Phone.array]
  rw [Option.bind_eq_some_iff]
  constructor
  · rintro ⟨bs, hbs, hr⟩
    obtain ⟨hall, rfl⟩ := (hlist bs).mp hbs
    exact ⟨hall, Option.some_inj.mp hr⟩
  · rintro ⟨hall, rfl⟩
    exact ⟨_, (hlist _).mpr ⟨hall, rfl⟩, rfl⟩

/-- A search decodes when each of its results does. -/
theorem valuationSearch_read (s : Server.ValuationSearchResponse)
    (r : Phone.ValuationSearchResponse) :
    Phone.valuationSearch (s.fields p) = some r ↔
      (∀ c ∈ s.results, c.salePrice = none) ∧
        ⟨s.results.map (Server.ComparableSaleOut.phone p), s.usedSources⟩ = r := by
  have hlist := (reads_comparableSale p).list s.results
  have hsources : (s.usedSources.map Json.str).mapM Phone.string = some s.usedSources := by
    have hreads : Reads Json.str Phone.string (fun _ => True) id := reads_of_eq fun _ => rfl
    exact (hreads.list s.usedSources s.usedSources).mpr ⟨fun _ _ => trivial, List.map_id _⟩
  unfold Phone.valuationSearch required Server.ValuationSearchResponse.fields
  simp only [field_cons, String.reduceEq, if_true, if_false, Option.bind_some,
    Option.bind_eq_bind, Phone.array, hsources]
  rw [Option.bind_eq_some_iff]
  constructor
  · rintro ⟨bs, hbs, hr⟩
    obtain ⟨hall, rfl⟩ := (hlist bs).mp hbs
    exact ⟨hall, Option.some_inj.mp hr⟩
  · rintro ⟨hall, rfl⟩
    exact ⟨_, (hlist _).mpr ⟨hall, rfl⟩, rfl⟩

/-- **A response decodes to what was sent exactly when it carries no decimal** that
    the phone reads. -/
theorem wire_agrees_iff :
    (∀ s : Server.SubmissionOut,
        Phone.object Phone.submission (s.json p) = some (s.phone p) ↔ s.Unscored) ∧
      (∀ l : List Server.SubmissionOut,
        Phone.submissionList (Server.submissionListFields p l) =
            some ⟨l.map (Server.SubmissionOut.phone p), l.length⟩ ↔ ∀ s ∈ l, s.Unscored) ∧
      (∀ s : Server.ComparableSaleOut,
        Phone.object Phone.comparableSale (s.json p) = some (s.phone p) ↔ s.salePrice = none) ∧
      ∀ s : Server.ValuationSearchResponse,
        Phone.valuationSearch (s.fields p) =
            some ⟨s.results.map (Server.ComparableSaleOut.phone p), s.usedSources⟩ ↔
          ∀ c ∈ s.results, c.salePrice = none := by
  refine ⟨fun s => ?_, fun l => ?_, fun s => ?_, fun s => ?_⟩
  · rw [reads_submission p s (s.phone p), and_iff_left rfl]
  · rw [submissionList_read, and_iff_left rfl]
  · rw [reads_comparableSale p s (s.phone p), and_iff_left rfl]
  · rw [valuationSearch_read, and_iff_left rfl]

/-- A comparable sale with a price. -/
def pricedSale : Server.ComparableSaleOut where
  id := 4
  make := some "Case"
  model := none
  year := some 2015
  hours := none
  salePrice := some 41500
  saleDate := none
  source := none
  sourceUrl := none
  notes := none
  categoryId := none

def plainPydantic : Pydantic := ⟨toString, toString, toString⟩

/-- The phone refuses it. -/
theorem pricedSale_refused :
    Phone.object Phone.comparableSale (pricedSale.json plainPydantic) = none := by
  refine Option.eq_none_iff_forall_ne_some.mpr fun r hr => ?_
  have hprice := ((reads_comparableSale plainPydantic pricedSale r).mp hr).1
  cases hprice

end TempleConsign
