import Mathlib.Data.List.Induction
import TempleConsign.Lib.Run
import TempleConsign.Scoring

/-!
# Updates of a draft

Model of `update_draft` (`src/api/services/appraisal_submission_service.py`
line 99) with all columns it writes, the JSON columns and the table of component
scores. What PostgreSQL stores of a text or a JSON document is a parameter; the
encoder of the JSON columns is Python's, which knows no UUID.

Deviations: a dict is listed in the order in which JSONB gives it back, since
`==` on dicts does not see the order. A score is the decimal that its float
prints as. A value that cannot be stored fails at the flush, whatever its error.

Results:
* `Drafts.returns_updateDraft`: when an update returns, and with which rows.
* `loopSpec_foldl`: the score rows after the loop of `_upsert_component_scores`.
* `mem_flushScores`: the score rows that the flush stores.
-/

namespace TempleConsign

open ServiceLib

/-! ## Values -/

/-- A Python value of a request body; a float is `none` when it is not finite. -/
inductive PyValue
  | none
  | bool (b : Bool)
  | int (n : ℤ)
  | float (x : Option ℚ)
  | str (s : String)
  | uuid (id : ℕ)
  | list (items : List PyValue)
  | dict (entries : List (String × PyValue))

mutual
/-- `json.dumps` encodes the value: it raises `TypeError` on a UUID. -/
def PyValue.encodes : PyValue → Bool
  | .uuid _ => false
  | .list items => encodesAll items
  | .dict entries => encodesEntries entries
  | _ => true

def encodesAll : List PyValue → Bool
  | [] => true
  | v :: l => v.encodes && encodesAll l

def encodesEntries : List (String × PyValue) → Bool
  | [] => true
  | (_, v) :: l => v.encodes && encodesEntries l
end

/-- A dict of a JSON body: it holds no UUID. -/
structure JsonDict where
  entries : List (String × PyValue)
  plain : encodesEntries entries = true

def JsonDict.py (d : JsonDict) : PyValue := .dict d.entries

/-- `InspectionAnswerIn.value`. -/
inductive AnswerValue
  | none
  | bool (b : Bool)
  | int (n : ℤ)
  | float (x : Option ℚ)
  | str (s : String)

def AnswerValue.py : AnswerValue → PyValue
  | .none => .none
  | .bool b => .bool b
  | .int n => .int n
  | .float x => .float x
  | .str s => .str s

/-- `InspectionAnswerIn` (`src/api/schemas/appraisal_submission.py` line 20). -/
structure InspectionAnswerIn where
  promptId : ℕ
  promptVersion : ℤ
  value : AnswerValue

/-- `model_dump()`: the id stays a UUID. -/
def InspectionAnswerIn.modelDump (a : InspectionAnswerIn) : PyValue :=
  .dict [("prompt_id", .uuid a.promptId), ("prompt_version", .int a.promptVersion),
    ("value", a.value.py)]

/-! ## Rows -/

/-- The text columns that an update may write. -/
inductive TextColumn
  | make
  | model
  | hoursCondition
  | runningStatus
  | serialNumber
  | titleStatus
  | marketabilityRating
  | transportNotes
  | listingNotes
  deriving DecidableEq

def TextColumn.all : List TextColumn :=
  [.make, .model, .hoursCondition, .runningStatus, .serialNumber, .titleStatus,
    .marketabilityRating, .transportNotes, .listingNotes]

/-- `String(n)`; the notes are `Text`. -/
def TextColumn.limit : TextColumn → Option ℕ
  | .make | .model | .serialNumber => some 100
  | .hoursCondition | .runningStatus | .titleStatus => some 50
  | .marketabilityRating => some 20
  | .transportNotes | .listingNotes => none

/-- The JSONB columns that an update may write. -/
inductive JsonColumn
  | fieldValues
  | comparableSalesData
  | redFlags
  deriving DecidableEq

def JsonColumn.all : List JsonColumn := [.fieldValues, .comparableSalesData, .redFlags]

/-- The columns of `appraisal_submissions` that an update reads or writes. -/
structure SubmissionRow where
  appraiserId : Option ℕ
  status : SubmissionStatus
  categoryId : Option ℕ
  year : Option ℤ
  text : TextColumn → Option String
  json : JsonColumn → Option PyValue
  overallScore : Option ℚ
  scoreBand : Option String
  deletedAt : Option ℤ

/-- The draft that `create_draft` starts (line 62). -/
def SubmissionRow.started (appraiserId : ℕ) : SubmissionRow where
  appraiserId := some appraiserId
  status := .draft
  categoryId := none
  year := none
  text _ := none
  json _ := none
  overallScore := none
  scoreBand := none
  deletedAt := none

/-- A row of `component_scores`. -/
structure ComponentScore where
  submissionId : ℕ
  componentId : ℕ
  rawScore : ℚ
  weightAtTimeOfScoring : ℚ
  notes : Option String

/-- `categories` are the keys of `equipment_categories`; `components` gives the
    `weight_pct` of a row of `category_components`. -/
structure DraftDb where
  submissions : Store SubmissionRow
  scores : Store ComponentScore
  components : ℕ → Option ℚ
  categories : ℕ → Bool

/-- What PostgreSQL stores: whether it takes a text, and what it gives back of a
    JSON document; `uuidText` is `str` of a UUID. -/
structure DraftEnv (F : Type) where
  arith : FloatArith F
  uuidText : ℕ → String
  takesText : String → Bool
  jsonb : PyValue → Option PyValue

/-- An environment for concrete runs. -/
def plainDraftEnv : DraftEnv ℚ where
  arith := exactArith
  uuidText := toString
  takesText _ := true
  jsonb := some

/-! ## The request -/

/-- `ComponentScoreIn` (line 26). -/
structure ComponentScoreIn where
  componentId : ℕ
  score : ℚ
  notes : Option String

/-- `SubmissionUpdateRequest` (line 32). -/
structure SubmissionUpdateRequest where
  categoryId : Option ℕ
  year : Option ℤ
  text : TextColumn → Option String
  fieldValues : Option (List InspectionAnswerIn)
  componentScores : Option (List ComponentScoreIn)
  comparableSalesData : Option (List JsonDict)
  redFlags : Option (List JsonDict)

/-- The body `{}`: every field has the default `None`. -/
def SubmissionUpdateRequest.empty : SubmissionUpdateRequest where
  categoryId := none
  year := none
  text _ := none
  fieldValues := none
  componentScores := none
  comparableSalesData := none
  redFlags := none

/-- What the schema accepts. -/
def SubmissionUpdateRequest.accepted (body : SubmissionUpdateRequest) : Bool :=
  (body.year.all fun y => 1900 ≤ y && y ≤ 2100) &&
    (body.text .make).all (fun s => s.length ≤ 100) &&
    (body.text .model).all (fun s => s.length ≤ 100) &&
    (body.componentScores.getD []).all fun e => 0 ≤ e.score && e.score ≤ 5

/-- The value for a JSONB column. -/
def SubmissionUpdateRequest.json (body : SubmissionUpdateRequest) : JsonColumn → Option PyValue
  | .fieldValues => body.fieldValues.map fun l => .list (l.map InspectionAnswerIn.modelDump)
  | .comparableSalesData => body.comparableSalesData.map fun l => .list (l.map JsonDict.py)
  | .redFlags => body.redFlags.map fun l => .list (l.map JsonDict.py)

/-- The user of a request. -/
structure DraftUser where
  id : ℕ
  isAdmin : Bool

abbrev DraftService (α : Type) := Svc DraftDb Exn α

/-! ## What a column stores -/

/-- An assignment to `varchar(n)`: excess blanks are cut off. -/
def varchar (n : ℕ) (s : String) : Option String :=
  if s.length ≤ n then some s
  else if (s.toList.drop n).all (· = ' ') then some (String.ofList (s.toList.take n))
  else none

variable {F : Type}

def DraftEnv.storeText (env : DraftEnv F) (limit : Option ℕ) (s : String) : Option String :=
  if env.takesText s then
    match limit with
    | some n => varchar n s
    | none => some s
  else none

/-- The JSON serializer of the engine (`src/api/database/base.py` line 12), then
    JSONB. -/
def DraftEnv.storeJson (env : DraftEnv F) (v : PyValue) : Option PyValue :=
  if v.encodes then env.jsonb v else none

/-- `NUMERIC(3, 2)`, for a score in its range. -/
def numeric32 (q : ℚ) : ℚ := quantize q

/-- Every column that the body provides can be stored. -/
def SubmissionUpdateRequest.storable (env : DraftEnv F) (db : DraftDb)
    (body : SubmissionUpdateRequest) : Bool :=
  body.categoryId.all db.categories &&
    (TextColumn.all.all fun c => (body.text c).all fun s => (env.storeText c.limit s).isSome) &&
    JsonColumn.all.all fun c => (body.json c).all fun v => (env.storeJson v).isSome

/-- `_apply_scalar_fields` (line 258) and the answers (line 118), as stored. -/
def SubmissionUpdateRequest.apply (env : DraftEnv F) (body : SubmissionUpdateRequest)
    (s : SubmissionRow) : SubmissionRow :=
  { s with
    categoryId := body.categoryId.or s.categoryId
    year := body.year.or s.year
    text := fun c => ((body.text c).bind (env.storeText c.limit)).or (s.text c)
    json := fun c => ((body.json c).bind env.storeJson).or (s.json c) }

/-! ## Component scores -/

/-- `existing_by_component` (line 298): the last row of a component. -/
def existingByComponent (rows : List (ℕ × ComponentScore)) (c : ℕ) : Option ℕ :=
  ((rows.filter fun e => e.2.componentId = c).getLast?).map Prod.fst

def DraftDb.scoresOf (db : DraftDb) (submissionId : ℕ) : List (ℕ × ComponentScore) :=
  db.scores.select fun _ cs => cs.submissionId = submissionId

/-- One round of the loop of `_upsert_component_scores` (line 300). -/
def upsertOne (components : ℕ → Option ℚ) (existing : ℕ → Option ℕ) (submissionId : ℕ)
    (t : Store ComponentScore) (e : ComponentScoreIn) : Store ComponentScore :=
  match components e.componentId with
  | none => t
  | some weight =>
    match existing e.componentId with
    | some k => t.modify k fun cs => { cs with
        rawScore := e.score
        weightAtTimeOfScoring := weight
        notes := e.notes }
    | none => t.create
      { submissionId := submissionId
        componentId := e.componentId
        rawScore := e.score
        weightAtTimeOfScoring := weight
        notes := e.notes }

/-- The rows after the loop, as the session holds them. -/
def DraftDb.upsert (db : DraftDb) (submissionId : ℕ) (scores : List ComponentScoreIn) :
    Store ComponentScore :=
  scores.foldl
    (upsertOne db.components (existingByComponent (db.scoresOf submissionId)) submissionId)
    db.scores

/-- The loop has written the row `k`. -/
def DraftDb.upserted (db : DraftDb) (submissionId : ℕ) (scores : List ComponentScoreIn)
    (k : ℕ) : Bool :=
  db.scores.next ≤ k || scores.any fun e =>
    (db.components e.componentId).isSome &&
      existingByComponent (db.scoresOf submissionId) e.componentId = some k

/-- What the flush of the scores stores. -/
def DraftDb.flushScores (db : DraftDb) (submissionId : ℕ) (scores : List ComponentScoreIn) :
    Store ComponentScore :=
  (db.upsert submissionId scores).modifyWhere (fun k _ => db.upserted submissionId scores k)
    fun cs => { cs with rawScore := numeric32 cs.rawScore }

/-- The notes that the loop has written can be stored. -/
def DraftDb.notesStorable (db : DraftDb) (env : DraftEnv F) (submissionId : ℕ)
    (scores : List ComponentScoreIn) : Bool :=
  ((db.upsert submissionId scores).select fun k _ => db.upserted submissionId scores k).all
    fun e => e.2.notes.all env.takesText

/-- A dict comprehension: the last value of a key at its first place. -/
def dictOf {β : Type} (entries : List (ℕ × β)) : List (ℕ × β) :=
  entries.foldl (fun d e =>
    if d.any (fun x => x.1 = e.1) then d.map fun x => if x.1 = e.1 then e else x
    else d ++ [e]) []

/-- The argument of `calculate_overall` (line 127): the session holds the scores
    as the body gave them. -/
def scoringInput (A : FloatArith F) (rows : List (ℕ × ComponentScore)) : List (F × F) :=
  (dictOf (rows.map fun e => (e.2.componentId,
    (A.ofDecimal e.2.rawScore, A.ofDecimal e.2.weightAtTimeOfScoring)))).map Prod.snd

/-- The scoring of an update (line 121). -/
def DraftDb.scored (db : DraftDb) (env : DraftEnv F) (submissionId : ℕ)
    (scores : Option (List ComponentScoreIn)) (s : SubmissionRow) : SubmissionRow :=
  match scores with
  | none => s
  | some l =>
    let result := calculateOverall env.arith (scoringInput env.arith
      ((db.upsert submissionId l).select fun _ cs => cs.submissionId = submissionId))
    { s with overallScore := some result.overall, scoreBand := some result.band }

/-- The rows that an update leaves. -/
def DraftDb.updated (db : DraftDb) (env : DraftEnv F) (submissionId : ℕ)
    (body : SubmissionUpdateRequest) : DraftDb :=
  { db with
    submissions := db.submissions.modify submissionId fun s =>
      db.scored env submissionId body.componentScores (body.apply env s)
    scores := match body.componentScores with
      | none => db.scores
      | some l => db.flushScores submissionId l }

/-! ## The service -/

/-- An error of the flush, which no handler of the router catches. -/
def flushError : Exn := .integrityError

/-- `_get_for_write` (line 397). -/
def getForWrite (user : DraftUser) (submissionId : ℕ) : DraftService SubmissionRow := do
  let db ← get
  let submission ← Svc.expect
    ((db.submissions.get? submissionId).filter fun s => s.deletedAt.isNone)
    (.lookupError s!"Submission {submissionId} not found")
  Svc.require (user.isAdmin = true ∨ submission.appraiserId = some user.id)
    (.permissionError "Access denied to submission")
  pure submission

/-- `update_draft` (line 99), with the columns that its lifecycle does not read. -/
def Drafts.updateDraft (env : DraftEnv F) (user : DraftUser) (submissionId : ℕ)
    (body : SubmissionUpdateRequest) : DraftService Unit := do
  let submission ← getForWrite user submissionId
  Svc.require (submission.status = .draft)
    (.valueError s!"Only drafts can be updated; status is '{submission.status.value}'")
  let db ← get
  Svc.require (body.storable env db = true) flushError
  Svc.require (db.notesStorable env submissionId (body.componentScores.getD []) = true) flushError
  modify fun db => db.updated env submissionId body

/-- `PATCH` (`src/api/routers/appraisal_submissions.py` line 137). -/
def updateSubmission (env : DraftEnv F) (user : DraftUser) (submissionId : ℕ)
    (body : SubmissionUpdateRequest) : DraftService Unit := do
  Svc.require (body.accepted = true) (.httpException 422 "")
  Drafts.updateDraft env user submissionId body

/-- What a `GET` returns of a submission. -/
structure SubmissionView where
  row : SubmissionRow
  componentScores : List (ℕ × ComponentScore)

/-- `get` (line 142). -/
def getSubmission (user : DraftUser) (submissionId : ℕ) : DraftService SubmissionView := do
  let submission ← getForWrite user submissionId
  let db ← get
  pure { row := submission, componentScores := db.scoresOf submissionId }

/-- The transaction of a request (`get_db`, `src/api/database/base.py` line 42). -/
def draftRequest {α : Type} (m : DraftService α) (db : DraftDb) : Except Exn α × DraftDb :=
  Svc.request (fun before _ => before) m db

/-! ## When an update returns -/

variable {env : DraftEnv F} {db db' : DraftDb} {user : DraftUser} {submissionId : ℕ}
  {body : SubmissionUpdateRequest}

/-- The user may write the submission. -/
structure MayWrite (db : DraftDb) (user : DraftUser) (submissionId : ℕ) (s : SubmissionRow) :
    Prop where
  row : db.submissions.get? submissionId = some s
  kept : s.deletedAt = none
  access : user.isAdmin = true ∨ s.appraiserId = some user.id

theorem returns_getForWrite {s : SubmissionRow} :
    Svc.Returns (getForWrite user submissionId) db s db' ↔
      MayWrite db user submissionId s ∧ db = db' := by
  simp only [getForWrite, Svc.returns_get_bind, Svc.returns_expect_bind, Svc.returns_require_bind,
    Svc.returns_pure, Option.filter_eq_some_iff, Option.isNone_iff_eq_none]
  constructor
  · rintro ⟨_, ⟨hrow, hkept⟩, haccess, rfl, rfl⟩
    exact ⟨⟨hrow, hkept, haccess⟩, rfl⟩
  · rintro ⟨⟨hrow, hkept, haccess⟩, rfl⟩
    exact ⟨s, ⟨hrow, hkept⟩, haccess, rfl, rfl⟩

theorem Drafts.returns_updateDraft :
    Svc.Returns (Drafts.updateDraft env user submissionId body) db () db' ↔
      (∃ s, MayWrite db user submissionId s ∧ s.status = .draft) ∧
        body.storable env db = true ∧
        db.notesStorable env submissionId (body.componentScores.getD []) = true ∧
        db.updated env submissionId body = db' := by
  unfold Drafts.updateDraft
  rw [Svc.returns_bind_of_read fun _ _ => returns_getForWrite]
  simp only [Svc.returns_get_bind, Svc.returns_require_bind, Svc.returns_modify]
  constructor
  · rintro ⟨s, hmay, hdraft, hst, hnotes, h⟩
    exact ⟨⟨s, hmay, hdraft⟩, hst, hnotes, h⟩
  · rintro ⟨⟨s, hmay, hdraft⟩, hst, hnotes, h⟩
    exact ⟨s, hmay, hdraft, hst, hnotes, h⟩

theorem returns_getSubmission {view : SubmissionView} :
    Svc.Returns (getSubmission user submissionId) db view db' ↔
      MayWrite db user submissionId view.row ∧
        view.componentScores = db.scoresOf submissionId ∧ db = db' := by
  unfold getSubmission
  rw [Svc.returns_bind_of_read fun _ _ => returns_getForWrite]
  simp only [Svc.returns_get_bind, Svc.returns_pure]
  constructor
  · rintro ⟨s, hmay, rfl, rfl⟩
    exact ⟨hmay, rfl, rfl⟩
  · rintro ⟨hmay, hscores, rfl⟩
    refine ⟨view.row, hmay, ?_, rfl⟩
    rw [← hscores]

/-! ## The loop over the scores -/

section Loop

variable {components : ℕ → Option ℚ} {existing : ℕ → Option ℕ} {t : Store ComponentScore}

/-- The entries that the loop writes to the row `k`. -/
def overwrites (components : ℕ → Option ℚ) (existing : ℕ → Option ℕ) (k : ℕ)
    (l : List ComponentScoreIn) : List ComponentScoreIn :=
  l.filter fun e => (components e.componentId).isSome && existing e.componentId = some k

/-- The entries that the loop inserts. -/
def inserts (components : ℕ → Option ℚ) (existing : ℕ → Option ℕ) (l : List ComponentScoreIn) :
    List ComponentScoreIn :=
  l.filter fun e => (components e.componentId).isSome && (existing e.componentId).isNone

def ComponentScoreIn.onRow (e : ComponentScoreIn) (components : ℕ → Option ℚ)
    (cs : ComponentScore) : ComponentScore :=
  { cs with
    rawScore := e.score
    weightAtTimeOfScoring := (components e.componentId).getD 0
    notes := e.notes }

def ComponentScoreIn.newRow (e : ComponentScoreIn) (components : ℕ → Option ℚ)
    (submissionId : ℕ) : ComponentScore where
  submissionId := submissionId
  componentId := e.componentId
  rawScore := e.score
  weightAtTimeOfScoring := (components e.componentId).getD 0
  notes := e.notes

/-- The last entry is the one that stays. -/
def lastWritten (components : ℕ → Option ℚ) (l : List ComponentScoreIn) (cs : ComponentScore) :
    ComponentScore :=
  (l.getLast?.map fun e => e.onRow components cs).getD cs

theorem lastWritten_append (l : List ComponentScoreIn) (e : ComponentScoreIn)
    (cs : ComponentScore) :
    lastWritten components (l ++ [e]) cs = e.onRow components (lastWritten components l cs) := by
  unfold lastWritten
  rw [List.getLast?_concat]
  cases l.getLast? with
  | none => rfl
  | some e' => rfl

/-- What the loop has done after the entries `l`. -/
structure LoopSpec (components : ℕ → Option ℚ) (existing : ℕ → Option ℕ) (submissionId : ℕ)
    (t t' : Store ComponentScore) (l : List ComponentScoreIn) : Prop where
  next : t'.next = t.next + (inserts components existing l).length
  old : ∀ k < t.next, t'.get? k =
    (t.get? k).map (lastWritten components (overwrites components existing k l))
  new : ∀ i, t'.get? (t.next + i) =
    (inserts components existing l)[i]?.map fun e => e.newRow components submissionId

/-- One round writes one row, inserts one row or skips the entry. -/
theorem LoopSpec.step {t' : Store ComponentScore} {l : List ComponentScoreIn}
    (hex : ∀ c k, existing c = some k → k < t.next)
    (h : LoopSpec components existing submissionId t t' l) (e : ComponentScoreIn) :
    LoopSpec components existing submissionId t
      (upsertOne components existing submissionId t' e) (l ++ [e]) := by
  unfold upsertOne
  cases hc : components e.componentId with
  | none =>
    -- an unknown component is skipped
    have hins : inserts components existing (l ++ [e]) = inserts components existing l := by
      simp [inserts, hc]
    have hover (k : ℕ) :
        overwrites components existing k (l ++ [e]) = overwrites components existing k l := by
      simp [overwrites, hc]
    refine ⟨?_, fun k hk => ?_, fun i => ?_⟩
    · rw [hins]; exact h.next
    · rw [hover]; exact h.old k hk
    · rw [hins]; exact h.new i
  | some weight =>
    cases hx : existing e.componentId with
    | some k0 =>
      have hins : inserts components existing (l ++ [e]) = inserts components existing l := by
        simp [inserts, hc, hx]
      have hk0 := hex _ _ hx
      refine ⟨?_, fun k hk => ?_, fun i => ?_⟩
      · rw [hins, Store.modify_next]; exact h.next
      · rw [Store.get?_modify, h.old k hk]
        by_cases hkk : k = k0
        · subst hkk
          have hover : overwrites components existing k (l ++ [e]) =
              overwrites components existing k l ++ [e] := by
            simp [overwrites, hc, hx]
          rw [if_pos rfl, Option.map_map, hover]
          congr 1
          funext cs
          rw [lastWritten_append]
          simp [ComponentScoreIn.onRow, hc]
        · have hover : overwrites components existing k (l ++ [e]) =
              overwrites components existing k l := by
            simp [overwrites, hc, hx, Ne.symm hkk]
          rw [if_neg hkk, hover]
      · rw [Store.get?_modify_ne _ _ (by omega), hins]
        exact h.new i
    | none =>
      have hins : inserts components existing (l ++ [e]) =
          inserts components existing l ++ [e] := by
        simp [inserts, hc, hx]
      have hover (k : ℕ) :
          overwrites components existing k (l ++ [e]) = overwrites components existing k l := by
        simp [overwrites, hc, hx]
      have hnext := h.next
      refine ⟨?_, fun k hk => ?_, fun i => ?_⟩
      · rw [Store.create_next, hins, List.length_append, List.length_singleton, hnext]
        omega
      · rw [Store.get?_create, if_neg (by omega), hover]
        exact h.old k hk
      · rw [Store.get?_create, hins, h.new i, hnext]
        rcases Nat.lt_trichotomy i (inserts components existing l).length with hi | hi | hi
        · rw [if_neg (by omega), List.getElem?_append_left hi]
        · subst hi
          rw [if_pos rfl, List.getElem?_concat_length]
          simp [ComponentScoreIn.newRow, hc]
        · rw [if_neg (by omega), List.getElem?_eq_none (by omega),
            List.getElem?_eq_none (by rw [List.length_append, List.length_singleton]; omega)]

theorem loopSpec_foldl (hex : ∀ c k, existing c = some k → k < t.next)
    (l : List ComponentScoreIn) :
    LoopSpec components existing submissionId t
      (l.foldl (upsertOne components existing submissionId) t) l := by
  induction l using List.reverseRecOn with
  | nil =>
    refine ⟨rfl, fun k _ => ?_, fun i => ?_⟩
    · show t.get? k = (t.get? k).map _
      cases t.get? k with
      | none => rfl
      | some cs => rfl
    · show t.get? (t.next + i) = none
      cases hget : t.get? (t.next + i) with
      | none => rfl
      | some cs => exact absurd (Store.get?_lt hget) (by omega)
  | append_singleton l e ih =>
    rw [List.foldl_append]
    exact ih.step hex e

end Loop

/-! ## The stored scores -/

section Flush

variable {l : List ComponentScoreIn}

theorem existing_some {c k : ℕ}
    (h : existingByComponent (db.scoresOf submissionId) c = some k) :
    ∃ cs, (k, cs) ∈ db.scoresOf submissionId ∧ cs.componentId = c := by
  obtain ⟨⟨k', cs⟩, hlast, rfl⟩ := Option.map_eq_some_iff.mp h
  obtain ⟨hmem, hc⟩ := List.mem_filter.mp (List.mem_of_getLast? hlast)
  exact ⟨cs, hmem, of_decide_eq_true hc⟩

theorem existing_none_iff {c : ℕ} :
    existingByComponent (db.scoresOf submissionId) c = none ↔
      ∀ k cs, (k, cs) ∈ db.scoresOf submissionId → cs.componentId ≠ c := by
  unfold existingByComponent
  rw [Option.map_eq_none_iff, List.getLast?_eq_none_iff, List.filter_eq_nil_iff]
  simp

/-- What the flush stores of a row that the entries `l` have written. -/
def lastStored (components : ℕ → Option ℚ) (l : List ComponentScoreIn) (cs : ComponentScore) :
    ComponentScore :=
  (l.getLast?.map fun e =>
    { e.onRow components cs with rawScore := numeric32 e.score }).getD cs

/-- What the flush stores of an inserted row. -/
def ComponentScoreIn.storedRow (e : ComponentScoreIn) (components : ℕ → Option ℚ)
    (submissionId : ℕ) : ComponentScore :=
  { e.newRow components submissionId with rawScore := numeric32 e.score }

theorem lastStored_ids (components : ℕ → Option ℚ) (l : List ComponentScoreIn)
    (cs : ComponentScore) :
    (lastStored components l cs).submissionId = cs.submissionId ∧
      (lastStored components l cs).componentId = cs.componentId := by
  unfold lastStored
  cases l.getLast? with
  | none => exact ⟨rfl, rfl⟩
  | some e => exact ⟨rfl, rfl⟩

/-- The rows after the loop. -/
theorem loopSpec_upsert (db : DraftDb) (submissionId : ℕ) (l : List ComponentScoreIn) :
    LoopSpec db.components (existingByComponent (db.scoresOf submissionId)) submissionId db.scores
      (db.upsert submissionId l) l := by
  refine loopSpec_foldl (fun c k h => ?_) l
  obtain ⟨cs, hmem, -⟩ := existing_some h
  exact Store.get?_lt (Store.mem_select.mp hmem).1

theorem upserted_iff (db : DraftDb) (submissionId : ℕ) (l : List ComponentScoreIn) {k : ℕ}
    (hk : k < db.scores.next) :
    db.upserted submissionId l k = true ↔
      overwrites db.components (existingByComponent (db.scoresOf submissionId)) k l ≠ [] := by
  have hnot : ¬ db.scores.next ≤ k := by omega
  simp [DraftDb.upserted, overwrites, hnot]

theorem flushScores_old {k : ℕ} (hk : k < db.scores.next) :
    (db.flushScores submissionId l).get? k = (db.scores.get? k).map (lastStored db.components
      (overwrites db.components (existingByComponent (db.scoresOf submissionId)) k l)) := by
  unfold DraftDb.flushScores
  rw [Store.get?_modifyWhere, (loopSpec_upsert db submissionId l).old k hk, Option.map_map]
  congr 1
  funext cs
  have hup := upserted_iff db submissionId l hk
  simp only [Function.comp_apply, lastWritten, lastStored]
  cases hlast : (overwrites db.components
      (existingByComponent (db.scoresOf submissionId)) k l).getLast? with
  | none =>
    have hnil := List.getLast?_eq_none_iff.mp hlast
    rw [hnil] at hup
    simp [hup]
  | some e =>
    have hne : overwrites db.components (existingByComponent (db.scoresOf submissionId)) k l ≠
        [] := by
      intro hnil
      rw [hnil] at hlast
      cases hlast
    rw [if_pos (hup.mpr hne)]
    rfl

theorem flushScores_new (i : ℕ) :
    (db.flushScores submissionId l).get? (db.scores.next + i) =
      (inserts db.components (existingByComponent (db.scoresOf submissionId)) l)[i]?.map
        fun e => e.storedRow db.components submissionId := by
  unfold DraftDb.flushScores
  rw [Store.get?_modifyWhere, (loopSpec_upsert db submissionId l).new i, Option.map_map]
  congr 1
  funext e
  have hup : db.upserted submissionId l (db.scores.next + i) = true := by
    simp [DraftDb.upserted]
  simp only [Function.comp_apply, hup, if_true]
  rfl

/-- The scores of the submission after the flush. -/
theorem mem_flushScores {k : ℕ} {cs : ComponentScore} :
    (k, cs) ∈ (db.flushScores submissionId l).select (fun _ cs => cs.submissionId = submissionId) ↔
      (∃ cs0, (k, cs0) ∈ db.scoresOf submissionId ∧ cs = lastStored db.components
        (overwrites db.components (existingByComponent (db.scoresOf submissionId)) k l) cs0) ∨
      ∃ i e, (inserts db.components (existingByComponent (db.scoresOf submissionId)) l)[i]? =
        some e ∧ k = db.scores.next + i ∧ cs = e.storedRow db.components submissionId := by
  rw [Store.mem_select, decide_eq_true_iff]
  constructor
  · rintro ⟨hget, hsub⟩
    by_cases hk : k < db.scores.next
    · rw [flushScores_old hk] at hget
      obtain ⟨cs0, hget0, rfl⟩ := Option.map_eq_some_iff.mp hget
      rw [(lastStored_ids _ _ _).1] at hsub
      exact .inl ⟨cs0, Store.mem_select.mpr ⟨hget0, decide_eq_true hsub⟩, rfl⟩
    · obtain ⟨i, rfl⟩ := Nat.exists_eq_add_of_le (Nat.le_of_not_lt hk)
      rw [flushScores_new] at hget
      obtain ⟨e, he, rfl⟩ := Option.map_eq_some_iff.mp hget
      exact .inr ⟨i, e, he, rfl, rfl⟩
  · rintro (⟨cs0, hmem, rfl⟩ | ⟨i, e, he, rfl, rfl⟩)
    · obtain ⟨hget, hsub⟩ := Store.mem_select.mp hmem
      rw [flushScores_old (Store.get?_lt hget), hget, (lastStored_ids _ _ _).1]
      exact ⟨rfl, of_decide_eq_true hsub⟩
    · rw [flushScores_new, he]
      exact ⟨rfl, rfl⟩

end Flush

end TempleConsign
