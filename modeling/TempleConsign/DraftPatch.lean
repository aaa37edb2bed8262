import TempleConsign.SubmissionDrafts

/-!
# What a PATCH of a draft changes

A `PATCH` of a draft provides some fields; the rest stays. Repeated scores of a
component apply one after the other, and a note of an entry is provided when it
is not null. The overall score and the band follow the scores, and a score row
keeps the weight of its component.

Results:
* `scorePatched_iff`: the scores of a component are patched exactly when the
  component is known, the last score has two decimals and the rows are as the
  upsert expects.
* `updateSubmission_faithful_iff`: a `PATCH` is faithful exactly when the body is
  `Patchable`.
-/

namespace TempleConsign

open ServiceLib

/-! ## A patched submission -/

/-- A score row of the component. -/
def HasScore (rows : List (ℕ × ComponentScore)) (c k : ℕ) (cs : ComponentScore) : Prop :=
  (k, cs) ∈ rows ∧ cs.componentId = c

/-- The only one. -/
def OnlyScore (rows : List (ℕ × ComponentScore)) (c k : ℕ) (cs : ComponentScore) : Prop :=
  ∀ k' cs', HasScore rows c k' cs' ↔ k' = k ∧ cs' = cs

/-- The entries of a component. -/
def entriesOf (c : ℕ) (l : List ComponentScoreIn) : List ComponentScoreIn :=
  l.filter fun e => e.componentId = c

/-- The notes after the entries: a null note provides nothing. -/
def patchedNotes (old : Option String) (l : List ComponentScoreIn) : Option String :=
  l.foldl (fun notes e => e.notes.or notes) old

/-- The component has one row, with the last score and the provided note. -/
def ScorePatched (before after : List (ℕ × ComponentScore)) (c : ℕ)
    (l : List ComponentScoreIn) : Prop :=
  ∃ e k cs, l.getLast? = some e ∧ OnlyScore after c k cs ∧ cs.rawScore = e.score ∧
    ((∃ cs0, OnlyScore before c k cs0 ∧ cs.notes = patchedNotes cs0.notes l) ∨
      ((∀ k cs, ¬ HasScore before c k cs) ∧ cs.notes = patchedNotes none l))

variable {F : Type}

/-- An answer as JSON has it. -/
def InspectionAnswerIn.shown (env : DraftEnv F) (a : InspectionAnswerIn) : PyValue :=
  .dict [("prompt_id", .str (env.uuidText a.promptId)), ("prompt_version", .int a.promptVersion),
    ("value", a.value.py)]

/-- The documents that the body provides. -/
def SubmissionUpdateRequest.shown (env : DraftEnv F) (body : SubmissionUpdateRequest) :
    JsonColumn → Option PyValue
  | .fieldValues => body.fieldValues.map fun l => .list (l.map (InspectionAnswerIn.shown env))
  | .comparableSalesData => body.json .comparableSalesData
  | .redFlags => body.json .redFlags

/-- The provided fields have changed, and no other. -/
structure Patched (env : DraftEnv F) (body : SubmissionUpdateRequest)
    (before after : SubmissionView) : Prop where
  fixed : after.row.appraiserId = before.row.appraiserId ∧ after.row.status = before.row.status
  category : after.row.categoryId = body.categoryId.or before.row.categoryId
  year : after.row.year = body.year.or before.row.year
  text : ∀ c, after.row.text c = (body.text c).or (before.row.text c)
  json : ∀ c, after.row.json c = (body.shown env c).or (before.row.json c)
  overall : body.componentScores = none →
    after.row.overallScore = before.row.overallScore ∧ after.row.scoreBand = before.row.scoreBand
  provided : ∀ c, entriesOf c (body.componentScores.getD []) ≠ [] →
    ScorePatched before.componentScores after.componentScores c
      (entriesOf c (body.componentScores.getD []))
  others : ∀ c, entriesOf c (body.componentScores.getD []) = [] → ∀ k cs,
    HasScore after.componentScores c k cs ↔ HasScore before.componentScores c k cs

/-- The call succeeds and a later `GET` shows the patched submission; a call that
    fails changes nothing. -/
structure PatchFaithful (env : DraftEnv F) (db : DraftDb) (user : DraftUser) (submissionId : ℕ)
    (body : SubmissionUpdateRequest) : Prop where
  succeeds : ∃ db' before after,
    draftRequest (updateSubmission env user submissionId body) db = (.ok (), db') ∧
      Svc.Returns (getSubmission user submissionId) db before db ∧
      Svc.Returns (getSubmission user submissionId) db' after db' ∧
      Patched env body before after
  failsClean : ∀ e db',
    draftRequest (updateSubmission env user submissionId body) db = (.error e, db') → db' = db

/-! ## The condition -/

/-- The upsert leaves one row of the component, with the provided values. -/
structure Scorable (db : DraftDb) (submissionId c : ℕ) (l : List ComponentScoreIn)
    (e : ComponentScoreIn) : Prop where
  known : db.components c ≠ none
  decimals : numeric32 e.score = e.score
  row : (∃ k cs, OnlyScore (db.scoresOf submissionId) c k cs ∧ e.notes = patchedNotes cs.notes l) ∨
    ((∀ k cs, ¬ HasScore (db.scoresOf submissionId) c k cs) ∧ l.length = 1)

/-- A body that the columns can hold as it is: no answers, texts within their
    columns, and scores that the upsert takes as they are. -/
structure Patchable (env : DraftEnv F) (db : DraftDb) (submissionId : ℕ)
    (body : SubmissionUpdateRequest) : Prop where
  category : ∀ c, body.categoryId = some c → db.categories c = true
  text : ∀ c s, body.text c = some s →
    env.takesText s = true ∧ ∀ n, c.limit = some n → s.length ≤ n
  answers : body.fieldValues.getD [] = []
  json : ∀ c v, body.json c = some v → env.jsonb v = some v
  scores : ∀ c e, (entriesOf c (body.componentScores.getD [])).getLast? = some e →
    e.notes.all env.takesText = true ∧
      Scorable db submissionId c (entriesOf c (body.componentScores.getD [])) e

/-- The foreign key of `component_scores`. -/
def DraftDb.ScoresReference (db : DraftDb) : Prop :=
  ∀ k cs, db.scores.get? k = some cs → db.components cs.componentId ≠ none

/-! ## Lists -/

/-- One element satisfies `p`, at one index. -/
theorem length_filter_eq_one_iff {α : Type} {p : α → Bool} {l : List α} :
    (l.filter p).length = 1 ↔
      ∃ (i : ℕ) (a : α), l[i]? = some a ∧ p a = true ∧
        ∀ (j : ℕ) (b : α), l[j]? = some b → p b = true → j = i := by
  induction l with
  | nil => simp
  | cons a l ih =>
    by_cases ha : p a = true
    · rw [List.filter_cons_of_pos ha, List.length_cons, Nat.add_eq_right,
        List.length_eq_zero_iff, List.filter_eq_nil_iff]
      constructor
      · intro hnone
        refine ⟨0, a, rfl, ha, fun j b hj hb => ?_⟩
        cases j with
        | zero => rfl
        | succ j => exact absurd hb (hnone b (List.mem_of_getElem? hj))
      · rintro ⟨i, b, -, -, hone⟩ x hx hpx
        obtain ⟨j, hj⟩ := List.getElem?_of_mem hx
        have h0 := hone 0 a rfl ha
        have h1 := hone (j + 1) x hj hpx
        omega
    · rw [List.filter_cons_of_neg ha, ih]
      constructor
      · rintro ⟨i, b, hi, hb, hone⟩
        refine ⟨i + 1, b, hi, hb, fun j b' hj hb' => ?_⟩
        cases j with
        | zero =>
          cases hj
          exact absurd hb' ha
        | succ j => rw [hone j b' hj hb']
      · rintro ⟨i, b, hi, hb, hone⟩
        cases i with
        | zero =>
          cases hi
          exact absurd hb ha
        | succ i =>
          refine ⟨i, b, hi, hb, fun j b' hj hb' => ?_⟩
          have := hone (j + 1) b' hj hb'
          omega

/-! ## The scores of a component -/

section Scores

variable {db : DraftDb} {submissionId c k : ℕ} {cs : ComponentScore} {l : List ComponentScoreIn}

theorem OnlyScore.unique {rows : List (ℕ × ComponentScore)} {k' : ℕ} {cs' : ComponentScore}
    (h : OnlyScore rows c k cs) (h' : HasScore rows c k' cs') : k' = k ∧ cs' = cs :=
  (h k' cs').mp h'

theorem OnlyScore.has {rows : List (ℕ × ComponentScore)} (h : OnlyScore rows c k cs) :
    HasScore rows c k cs :=
  (h k cs).mpr ⟨rfl, rfl⟩

/-- The rows after the flush. -/
def DraftDb.flushed (db : DraftDb) (submissionId : ℕ) (l : List ComponentScoreIn) :
    List (ℕ × ComponentScore) :=
  (db.flushScores submissionId l).select fun _ cs => cs.submissionId = submissionId

/-- Only entries of its component write a row. -/
theorem component_of_existing (h : HasScore (db.scoresOf submissionId) c k cs) {c' : ℕ}
    (hx : existingByComponent (db.scoresOf submissionId) c' = some k) : c' = c := by
  obtain ⟨cs', hmem, hc'⟩ := existing_some hx
  have h1 := (Store.mem_select.mp hmem).1
  rw [(Store.mem_select.mp h.1).1] at h1
  cases h1
  rw [← hc', h.2]

theorem overwrites_hit (hknown : db.components c ≠ none)
    (hx : existingByComponent (db.scoresOf submissionId) c = some k)
    (h : HasScore (db.scoresOf submissionId) c k cs) :
    overwrites db.components (existingByComponent (db.scoresOf submissionId)) k l =
      entriesOf c l := by
  refine List.filter_congr fun e _ => Bool.eq_iff_iff.mpr ?_
  rw [Bool.and_eq_true, decide_eq_true_iff, decide_eq_true_iff]
  constructor
  · rintro ⟨-, hx'⟩
    exact component_of_existing h hx'
  · rintro rfl
    exact ⟨Option.isSome_iff_ne_none.mpr hknown, hx⟩

theorem overwrites_miss (h : HasScore (db.scoresOf submissionId) c k cs)
    (hmiss : entriesOf c l = [] ∨ db.components c = none ∨
      existingByComponent (db.scoresOf submissionId) c ≠ some k) :
    overwrites db.components (existingByComponent (db.scoresOf submissionId)) k l = [] := by
  refine List.filter_eq_nil_iff.mpr fun e hmem he => ?_
  rw [Bool.and_eq_true, decide_eq_true_iff] at he
  have hc := component_of_existing h he.2
  rcases hmiss with hnil | hnone | hx
  · exact List.filter_eq_nil_iff.mp hnil e hmem (decide_eq_true hc)
  · rw [hc, hnone] at he
    cases he.1
  · exact hx (hc ▸ he.2)

/-- The rows of a component after the flush. -/
theorem hasScore_flushed {k : ℕ} {cs : ComponentScore} :
    HasScore (db.flushed submissionId l) c k cs ↔
      (∃ cs0, HasScore (db.scoresOf submissionId) c k cs0 ∧ cs = lastStored db.components
        (overwrites db.components (existingByComponent (db.scoresOf submissionId)) k l) cs0) ∨
      ∃ i e, (inserts db.components (existingByComponent (db.scoresOf submissionId)) l)[i]? =
        some e ∧ e.componentId = c ∧ k = db.scores.next + i ∧
          cs = e.storedRow db.components submissionId := by
  unfold HasScore DraftDb.flushed
  rw [mem_flushScores]
  constructor
  · rintro ⟨⟨cs0, hmem, rfl⟩ | ⟨i, e, he, hk, rfl⟩, hc⟩
    · rw [(lastStored_ids _ _ _).2] at hc
      exact .inl ⟨cs0, ⟨hmem, hc⟩, rfl⟩
    · exact .inr ⟨i, e, he, hc, hk, rfl⟩
  · rintro (⟨cs0, ⟨hmem, hc⟩, rfl⟩ | ⟨i, e, he, hc, hk, rfl⟩)
    · exact ⟨.inl ⟨cs0, hmem, rfl⟩, (lastStored_ids _ _ _).2.trans hc⟩
    · exact ⟨.inr ⟨i, e, he, hk, rfl⟩, hc⟩

theorem inserts_component {e : ComponentScoreIn} {i : ℕ}
    (h : (inserts db.components (existingByComponent (db.scoresOf submissionId)) l)[i]? = some e) :
    e ∈ l ∧ db.components e.componentId ≠ none ∧
      existingByComponent (db.scoresOf submissionId) e.componentId = none := by
  obtain ⟨hmem, he⟩ := List.mem_filter.mp (List.mem_of_getElem? h)
  rw [Bool.and_eq_true, Option.isSome_iff_ne_none, Option.isNone_iff_eq_none] at he
  exact ⟨hmem, he⟩

/-- A component that no entry names, or that is unknown, keeps its rows. -/
theorem hasScore_flushed_kept (h : entriesOf c l = [] ∨ db.components c = none) {k : ℕ}
    {cs : ComponentScore} :
    HasScore (db.flushed submissionId l) c k cs ↔ HasScore (db.scoresOf submissionId) c k cs := by
  have hover {cs0 : ComponentScore} (h0 : HasScore (db.scoresOf submissionId) c k cs0) :
      overwrites db.components (existingByComponent (db.scoresOf submissionId)) k l = [] :=
    overwrites_miss h0 (h.imp_right .inl)
  rw [hasScore_flushed]
  constructor
  · rintro (⟨cs0, h0, rfl⟩ | ⟨i, e, he, hc, -⟩)
    · rw [hover h0]
      exact h0
    · obtain ⟨hmem, hknown, -⟩ := inserts_component he
      rw [hc] at hknown
      rcases h with h | h
      · exact absurd (decide_eq_true hc) (List.filter_eq_nil_iff.mp h e hmem)
      · exact absurd h hknown
  · intro h0
    refine .inl ⟨cs, h0, ?_⟩
    rw [hover h0]
    rfl

/-- A known component with a row: the upsert writes the row it found. -/
theorem hasScore_flushed_existing {k0 : ℕ} (hknown : db.components c ≠ none)
    (hx : existingByComponent (db.scoresOf submissionId) c = some k0) {k : ℕ}
    {cs : ComponentScore} :
    HasScore (db.flushed submissionId l) c k cs ↔
      ∃ cs0, HasScore (db.scoresOf submissionId) c k cs0 ∧
        cs = if k = k0 then lastStored db.components (entriesOf c l) cs0 else cs0 := by
  have hover {cs0 : ComponentScore} (h0 : HasScore (db.scoresOf submissionId) c k cs0) :
      lastStored db.components
          (overwrites db.components (existingByComponent (db.scoresOf submissionId)) k l) cs0 =
        if k = k0 then lastStored db.components (entriesOf c l) cs0 else cs0 := by
    split_ifs with hk
    · rw [overwrites_hit hknown (hk ▸ hx) h0]
    · rw [overwrites_miss h0 (.inr (.inr fun hx' => hk ?_))]
      · rfl
      · exact Option.some_inj.mp (hx'.symm.trans hx)
  rw [hasScore_flushed]
  constructor
  · rintro (⟨cs0, h0, rfl⟩ | ⟨i, e, he, hc, -⟩)
    · exact ⟨cs0, h0, hover h0⟩
    · have hnone := (inserts_component he).2.2
      rw [hc, hx] at hnone
      cases hnone
  · rintro ⟨cs0, h0, rfl⟩
    exact .inl ⟨cs0, h0, (hover h0).symm⟩

/-- A known component without a row: the upsert inserts one row an entry. -/
theorem hasScore_flushed_new (hx : existingByComponent (db.scoresOf submissionId) c = none)
    {k : ℕ} {cs : ComponentScore} :
    HasScore (db.flushed submissionId l) c k cs ↔
      ∃ i e, (inserts db.components (existingByComponent (db.scoresOf submissionId)) l)[i]? =
        some e ∧ e.componentId = c ∧ k = db.scores.next + i ∧
          cs = e.storedRow db.components submissionId := by
  rw [hasScore_flushed]
  constructor
  · rintro (⟨cs0, h0, -⟩ | h)
    · exact absurd h0.2 (existing_none_iff.mp hx k cs0 h0.1)
    · exact h
  · exact .inr

/-- The rows of a new component are its entries. -/
theorem filter_inserts (hknown : db.components c ≠ none)
    (hx : existingByComponent (db.scoresOf submissionId) c = none) :
    (inserts db.components (existingByComponent (db.scoresOf submissionId)) l).filter
      (fun e => e.componentId = c) = entriesOf c l := by
  unfold inserts entriesOf
  rw [List.filter_filter]
  refine List.filter_congr fun e _ => Bool.eq_iff_iff.mpr ?_
  rw [Bool.and_eq_true, decide_eq_true_iff]
  constructor
  · exact fun h => h.1
  · rintro rfl
    exact ⟨rfl, by rw [hx, Bool.and_eq_true]; exact ⟨Option.isSome_iff_ne_none.mpr hknown, rfl⟩⟩

theorem lastStored_of_getLast {e : ComponentScoreIn} (h : l.getLast? = some e)
    (cs : ComponentScore) :
    lastStored db.components l cs =
      { e.onRow db.components cs with rawScore := numeric32 e.score } := by
  unfold lastStored
  rw [h]
  rfl

/-- The rows of the component are known from the key that the upsert found. -/
theorem existing_of_only (h : OnlyScore (db.scoresOf submissionId) c k cs) :
    existingByComponent (db.scoresOf submissionId) c = some k := by
  cases hx : existingByComponent (db.scoresOf submissionId) c with
  | none => exact absurd h.has.2 (existing_none_iff.mp hx k cs h.has.1)
  | some k' =>
    obtain ⟨cs', hmem, hc⟩ := existing_some hx
    rw [(h.unique ⟨hmem, hc⟩).1]

theorem existing_of_none (h : ∀ k cs, ¬ HasScore (db.scoresOf submissionId) c k cs) :
    existingByComponent (db.scoresOf submissionId) c = none :=
  existing_none_iff.mpr fun k cs hmem hc => h k cs ⟨hmem, hc⟩

/-- An entry of a new component is inserted. -/
theorem exists_inserts {e : ComponentScoreIn} (hknown : db.components c ≠ none)
    (hx : existingByComponent (db.scoresOf submissionId) c = none)
    (he : (entriesOf c l).getLast? = some e) :
    ∃ i : ℕ, (inserts db.components (existingByComponent (db.scoresOf submissionId)) l)[i]? =
      some e ∧ e.componentId = c := by
  have hmem := List.mem_of_getLast? he
  rw [← filter_inserts hknown hx, List.mem_filter, decide_eq_true_iff] at hmem
  obtain ⟨i, hi⟩ := List.getElem?_of_mem hmem.1
  exact ⟨i, hi, hmem.2⟩

/-- **The scores of a component are patched exactly when they are scorable.** -/
theorem scorePatched_iff {e : ComponentScoreIn} (href : db.ScoresReference)
    (he : (entriesOf c l).getLast? = some e) :
    ScorePatched (db.scoresOf submissionId) (db.flushed submissionId l) c (entriesOf c l) ↔
      Scorable db submissionId c (entriesOf c l) e := by
  constructor
  · rintro ⟨e', k, cs, he', honly, hraw, hrow⟩
    rw [he] at he'
    cases he'
    have hknown : db.components c ≠ none := by
      intro hnone
      -- an unknown component has no row, before or after
      have h0 := (hasScore_flushed_kept (.inr hnone)).mp honly.has
      exact href k cs (Store.mem_select.mp h0.1).1 (h0.2 ▸ hnone)
    cases hx : existingByComponent (db.scoresOf submissionId) c with
    | some k0 =>
      obtain ⟨cs0, hmem, hc⟩ := existing_some hx
      have hafter := (hasScore_flushed_existing (l := l) hknown hx).mpr ⟨cs0, ⟨hmem, hc⟩, rfl⟩
      obtain ⟨rfl, rfl⟩ := honly.unique hafter
      rw [if_pos rfl, lastStored_of_getLast he] at hraw hrow
      refine ⟨hknown, hraw, ?_⟩
      rcases hrow with ⟨cs1, honly1, hnotes⟩ | ⟨hnone, -⟩
      · exact .inl ⟨k0, cs1, honly1, hnotes⟩
      · exact absurd ⟨hmem, hc⟩ (hnone k0 cs0)
    | none =>
      have hnone (k : ℕ) (cs : ComponentScore) : ¬ HasScore (db.scoresOf submissionId) c k cs :=
        fun h => existing_none_iff.mp hx k cs h.1 h.2
      obtain ⟨i, hi, hc⟩ := exists_inserts hknown hx he
      have hafter := (hasScore_flushed_new hx).mpr ⟨i, e, hi, hc, rfl, rfl⟩
      obtain ⟨rfl, rfl⟩ := honly.unique hafter
      refine ⟨hknown, hraw, .inr ⟨hnone, ?_⟩⟩
      rw [← filter_inserts hknown hx, length_filter_eq_one_iff]
      refine ⟨i, e, hi, decide_eq_true hc, fun j e' hj hc' => ?_⟩
      -- another entry would be another row
      have hother := (hasScore_flushed_new hx).mpr ⟨j, e', hj, of_decide_eq_true hc', rfl, rfl⟩
      have := (honly.unique hother).1
      omega
  · rintro ⟨hknown, hdec, ⟨k, cs0, honly, hnotes⟩ | ⟨hnone, hlen⟩⟩
    · have hx := existing_of_only honly
      refine ⟨e, k, lastStored db.components (entriesOf c l) cs0, he, fun k' cs' => ?_, ?_,
        .inl ⟨cs0, honly, ?_⟩⟩
      · rw [hasScore_flushed_existing hknown hx]
        constructor
        · rintro ⟨cs1, h1, rfl⟩
          obtain ⟨rfl, rfl⟩ := honly.unique h1
          exact ⟨rfl, if_pos rfl⟩
        · rintro ⟨rfl, rfl⟩
          exact ⟨cs0, honly.has, (if_pos rfl).symm⟩
      · rw [lastStored_of_getLast he]
        exact hdec
      · rw [lastStored_of_getLast he]
        exact hnotes
    · have hx := existing_of_none hnone
      obtain ⟨i, hi, hc⟩ := exists_inserts hknown hx he
      obtain ⟨i', e', hi', hc', hone⟩ :=
        length_filter_eq_one_iff.mp ((filter_inserts (l := l) hknown hx).symm ▸ hlen)
      obtain rfl := hone i e hi (decide_eq_true hc)
      refine ⟨e, db.scores.next + i, e.storedRow db.components submissionId, he,
        fun k' cs' => ?_, hdec, .inr ⟨hnone, ?_⟩⟩
      · rw [hasScore_flushed_new hx]
        constructor
        · rintro ⟨j, e2, hj, hc2, rfl, rfl⟩
          obtain rfl := hone j e2 hj (decide_eq_true hc2)
          rw [hi] at hj
          cases hj
          exact ⟨rfl, rfl⟩
        · rintro ⟨rfl, rfl⟩
          exact ⟨i, e, hi, hc, rfl, rfl⟩
      · obtain ⟨e2, hl⟩ := List.length_eq_one_iff.mp hlen
        rw [hl] at he ⊢
        obtain rfl := Option.some_inj.mp he
        exact Option.or_none.symm

/-! ## The notes -/

variable {env : DraftEnv F}

/-- The notes that the flush stores: the last of a row, and those of a new one. -/
theorem notesStorable_iff :
    db.notesStorable env submissionId l = true ↔
      (∀ k e, (overwrites db.components (existingByComponent (db.scoresOf submissionId)) k
          l).getLast? = some e → e.notes.all env.takesText = true) ∧
        ∀ e ∈ inserts db.components (existingByComponent (db.scoresOf submissionId)) l,
          e.notes.all env.takesText = true := by
  have hspec := loopSpec_upsert db submissionId l
  unfold DraftDb.notesStorable
  rw [List.all_eq_true]
  constructor
  · intro h
    constructor
    · intro k e he
      obtain ⟨-, hhit⟩ := List.mem_filter.mp (List.mem_of_getLast? he)
      rw [Bool.and_eq_true, decide_eq_true_iff] at hhit
      obtain ⟨cs, hmem, -⟩ := existing_some hhit.2
      have hget := (Store.mem_select.mp hmem).1
      have hk := Store.get?_lt hget
      have hup : db.upserted submissionId l k = true := by
        rw [upserted_iff db submissionId l hk]
        exact List.ne_nil_of_mem (List.mem_of_getLast? he)
      have hrow := hspec.old k hk
      rw [hget] at hrow
      have hall := h (k, _) (Store.mem_select.mpr ⟨hrow, hup⟩)
      rw [lastWritten, he] at hall
      exact hall
    · intro e he
      obtain ⟨i, hi⟩ := List.getElem?_of_mem he
      have hrow := hspec.new i
      rw [hi] at hrow
      exact h (db.scores.next + i, _) (Store.mem_select.mpr ⟨hrow, by simp [DraftDb.upserted]⟩)
  · rintro ⟨hold, hnew⟩ ⟨k, cs⟩ hmem
    obtain ⟨hget, hup⟩ := Store.mem_select.mp hmem
    by_cases hk : k < db.scores.next
    · rw [hspec.old k hk] at hget
      obtain ⟨cs0, -, rfl⟩ := Option.map_eq_some_iff.mp hget
      cases hlast : (overwrites db.components (existingByComponent (db.scoresOf submissionId)) k
          l).getLast? with
      | none =>
        have hne := (upserted_iff db submissionId l hk).mp hup
        exact absurd (List.getLast?_eq_none_iff.mp hlast) hne
      | some e =>
        rw [lastWritten, hlast]
        exact hold k e hlast
    · obtain ⟨i, rfl⟩ := Nat.exists_eq_add_of_le (Nat.le_of_not_lt hk)
      rw [hspec.new i] at hget
      obtain ⟨e, he, rfl⟩ := Option.map_eq_some_iff.mp hget
      exact hnew e (List.mem_of_getElem? he)

/-- The last entry of a known component is stored. -/
theorem notes_of_storable {e : ComponentScoreIn} (h : db.notesStorable env submissionId l = true)
    (hknown : db.components c ≠ none) (he : (entriesOf c l).getLast? = some e) :
    e.notes.all env.takesText = true := by
  obtain ⟨hold, hnew⟩ := notesStorable_iff.mp h
  cases hx : existingByComponent (db.scoresOf submissionId) c with
  | some k =>
    obtain ⟨cs, hmem, hc⟩ := existing_some hx
    refine hold k e ?_
    rw [overwrites_hit hknown hx ⟨hmem, hc⟩]
    exact he
  | none =>
    obtain ⟨i, hi, -⟩ := exists_inserts hknown hx he
    exact hnew e (List.mem_of_getElem? hi)

/-- Where every component is scorable, the last entries are all that is stored. -/
theorem storable_of_notes
    (h : ∀ c e, (entriesOf c l).getLast? = some e →
      e.notes.all env.takesText = true ∧ Scorable db submissionId c (entriesOf c l) e) :
    db.notesStorable env submissionId l = true := by
  refine notesStorable_iff.mpr ⟨fun k e he => ?_, fun e he => ?_⟩
  · obtain ⟨-, hhit⟩ := List.mem_filter.mp (List.mem_of_getLast? he)
    rw [Bool.and_eq_true, decide_eq_true_iff, Option.isSome_iff_ne_none] at hhit
    obtain ⟨cs, hmem, hc⟩ := existing_some hhit.2
    rw [overwrites_hit hhit.1 hhit.2 ⟨hmem, hc⟩] at he
    exact (h _ e he).1
  · obtain ⟨i, hi⟩ := List.getElem?_of_mem he
    obtain ⟨hmem, -, hx⟩ := inserts_component hi
    have hmem' : e ∈ entriesOf e.componentId l :=
      List.mem_filter.mpr ⟨hmem, decide_eq_true rfl⟩
    obtain ⟨e', he'⟩ := Option.isSome_iff_exists.mp
      (List.getLast?_isSome.mpr (List.ne_nil_of_mem hmem'))
    obtain ⟨hnotes, hscorable⟩ := h _ e' he'
    rcases hscorable.row with ⟨k, cs, honly, -⟩ | ⟨-, hlen⟩
    · rw [existing_of_only honly] at hx
      cases hx
    · obtain ⟨e2, hl⟩ := List.length_eq_one_iff.mp hlen
      rw [hl] at hmem' he'
      obtain rfl := List.mem_singleton.mp hmem'
      obtain rfl := Option.some_inj.mp he'
      exact hnotes

end Scores

/-! ## The columns -/

variable {env : DraftEnv F}

theorem varchar_self_iff {n : ℕ} {s : String} : varchar n s = some s ↔ s.length ≤ n := by
  unfold varchar
  split_ifs with h hblank
  · exact iff_of_true rfl h
  · refine iff_of_false (fun heq => h ?_) h
    have hlen := congrArg String.length (Option.some_inj.mp heq)
    rw [String.length_ofList, List.length_take] at hlen
    omega
  · exact iff_of_false (fun heq => by cases heq) h

theorem storeText_self_iff {limit : Option ℕ} {s : String} :
    env.storeText limit s = some s ↔
      env.takesText s = true ∧ ∀ n, limit = some n → s.length ≤ n := by
  unfold DraftEnv.storeText
  split_ifs with ht
  · cases limit with
    | none => simp [ht]
    | some n => simp [ht, varchar_self_iff]
  · simp [ht]

theorem storeJson_self_iff {v : PyValue} :
    env.storeJson v = some v ↔ v.encodes = true ∧ env.jsonb v = some v := by
  unfold DraftEnv.storeJson
  split_ifs with h
  · simp [h]
  · simp [h]

theorem encodesAll_iff {l : List PyValue} :
    encodesAll l = true ↔ ∀ v ∈ l, v.encodes = true := by
  induction l with
  | nil => simp [encodesAll]
  | cons v l ih => simp [encodesAll, ih]

/-- The dicts of a body are encoded. -/
theorem encodes_dicts (l : List JsonDict) : (PyValue.list (l.map JsonDict.py)).encodes = true := by
  rw [PyValue.encodes, encodesAll_iff]
  intro v hv
  obtain ⟨d, -, rfl⟩ := List.mem_map.mp hv
  exact d.plain

/-- An answer is not: its prompt id is a UUID. -/
theorem encodes_answers {l : List InspectionAnswerIn} :
    (PyValue.list (l.map InspectionAnswerIn.modelDump)).encodes = true ↔ l = [] := by
  cases l with
  | nil => exact iff_of_true rfl rfl
  | cons a l => exact iff_of_false (by simp [PyValue.encodes, encodesAll, encodesEntries,
      InspectionAnswerIn.modelDump]) (List.cons_ne_nil a l)

/-- What a column shows: the value that was provided, or the one before. -/
theorem bind_or_eq_iff {α : Type} {o p : Option α} {f : α → Option α}
    (h : ∀ a, o = some a → f a ≠ none) :
    (o.bind f).or p = o.or p ↔ ∀ a, o = some a → f a = some a := by
  cases o with
  | none => simp
  | some a =>
    have hne := h a rfl
    cases hf : f a with
    | none => exact absurd hf hne
    | some b => simp [hf]

theorem storable_iff {db : DraftDb} {body : SubmissionUpdateRequest} :
    body.storable env db = true ↔
      (∀ c, body.categoryId = some c → db.categories c = true) ∧
        (∀ c s, body.text c = some s → env.storeText c.limit s ≠ none) ∧
        ∀ c v, body.json c = some v → env.storeJson v ≠ none := by
  have htext (c : TextColumn) : c ∈ TextColumn.all := by cases c <;> decide
  have hjson (c : JsonColumn) : c ∈ JsonColumn.all := by cases c <;> decide
  simp only [SubmissionUpdateRequest.storable, Bool.and_eq_true, List.all_eq_true,
    Option.all_eq_true, Option.isSome_iff_ne_none, and_assoc]
  constructor
  · rintro ⟨hc, ht, hj⟩
    exact ⟨hc, fun c => ht c (htext c), fun c => hj c (hjson c)⟩
  · rintro ⟨hc, ht, hj⟩
    exact ⟨hc, fun c _ => ht c, fun c _ => hj c⟩

/-! ## The patch -/

section Patch

variable {db : DraftDb} {user : DraftUser} {submissionId : ℕ} {body : SubmissionUpdateRequest}
  {s : SubmissionRow}

theorem MayWrite.unique {s' : SubmissionRow} (h : MayWrite db user submissionId s)
    (h' : MayWrite db user submissionId s') : s' = s :=
  Option.some_inj.mp (h'.row.symm.trans h.row)

/-- The row that an update stores. -/
def DraftDb.newRow (db : DraftDb) (env : DraftEnv F) (submissionId : ℕ)
    (body : SubmissionUpdateRequest) (s : SubmissionRow) : SubmissionRow :=
  db.scored env submissionId body.componentScores (body.apply env s)

/-- The scoring writes the score and the band. -/
theorem scored_eq (db : DraftDb) (env : DraftEnv F) (submissionId : ℕ)
    (scores : Option (List ComponentScoreIn)) (s : SubmissionRow) :
    ∃ overall band, db.scored env submissionId scores s =
      { s with overallScore := overall, scoreBand := band } := by
  cases scores with
  | none => exact ⟨s.overallScore, s.scoreBand, rfl⟩
  | some l => exact ⟨_, _, rfl⟩

theorem MayWrite.updated (h : MayWrite db user submissionId s) :
    MayWrite (db.updated env submissionId body) user submissionId
      (db.newRow env submissionId body s) := by
  obtain ⟨overall, band, heq⟩ :=
    scored_eq db env submissionId body.componentScores (body.apply env s)
  refine ⟨?_, ?_, ?_⟩
  · show (db.submissions.modify submissionId _).get? submissionId = _
    rw [Store.get?_modify_self, h.row]
    rfl
  · rw [DraftDb.newRow, heq]
    exact h.kept
  · rw [DraftDb.newRow, heq]
    exact h.access

/-- A storable body provides no answers. -/
theorem answers_of_storable (h : body.storable env db = true) :
    body.fieldValues.getD [] = [] := by
  cases hf : body.fieldValues with
  | none => rfl
  | some l =>
    have hst := (storable_iff.mp h).2.2 .fieldValues
      (.list (l.map InspectionAnswerIn.modelDump)) (by simp [SubmissionUpdateRequest.json, hf])
    rw [Option.getD_some]
    by_contra hne
    refine hst ?_
    unfold DraftEnv.storeJson
    rw [if_neg (encodes_answers.not.mpr hne)]

theorem shown_of_answers (h : body.fieldValues.getD [] = []) (c : JsonColumn) :
    body.shown env c = body.json c := by
  cases c with
  | fieldValues =>
    cases hf : body.fieldValues with
    | none => simp [SubmissionUpdateRequest.shown, SubmissionUpdateRequest.json, hf]
    | some l =>
      rw [hf, Option.getD_some] at h
      simp [SubmissionUpdateRequest.shown, SubmissionUpdateRequest.json, hf, h]
  | comparableSalesData => rfl
  | redFlags => rfl

/-- The documents of a body without answers are encoded. -/
theorem json_encodes (h : body.fieldValues.getD [] = []) {c : JsonColumn} {v : PyValue}
    (hv : body.json c = some v) : v.encodes = true := by
  cases c with
  | fieldValues =>
    obtain ⟨l, hl, rfl⟩ := Option.map_eq_some_iff.mp hv
    rw [hl, Option.getD_some] at h
    exact encodes_answers.mpr h
  | comparableSalesData =>
    obtain ⟨l, -, rfl⟩ := Option.map_eq_some_iff.mp hv
    exact encodes_dicts l
  | redFlags =>
    obtain ⟨l, -, rfl⟩ := Option.map_eq_some_iff.mp hv
    exact encodes_dicts l

/-- The texts are those of the body, the documents too. -/
theorem columns_patched_iff (h : body.storable env db = true) :
    ((∀ c, (body.apply env s).text c = (body.text c).or (s.text c)) ∧
        ∀ c, (body.apply env s).json c = (body.shown env c).or (s.json c)) ↔
      (∀ c t, body.text c = some t →
          env.takesText t = true ∧ ∀ n, c.limit = some n → t.length ≤ n) ∧
        ∀ c v, body.json c = some v → env.jsonb v = some v := by
  obtain ⟨-, ht, hj⟩ := storable_iff.mp h
  have hans := answers_of_storable h
  refine and_congr (forall_congr' fun c => ?_) (forall_congr' fun c => ?_)
  · show ((body.text c).bind (env.storeText c.limit)).or (s.text c) = _ ↔ _
    rw [bind_or_eq_iff (ht c)]
    exact forall_congr' fun t => imp_congr_right fun _ => storeText_self_iff
  · show ((body.json c).bind env.storeJson).or (s.json c) = _ ↔ _
    rw [shown_of_answers hans, bind_or_eq_iff (hj c)]
    refine forall_congr' fun v => imp_congr_right fun hv => ?_
    rw [storeJson_self_iff]
    exact and_iff_right (json_encodes hans hv)

/-- What a `GET` shows before and after. -/
def DraftDb.view (db : DraftDb) (submissionId : ℕ) (s : SubmissionRow) : SubmissionView :=
  ⟨s, db.scoresOf submissionId⟩

/-- The scores are patched where each is scorable. -/
theorem scores_patched_iff (env : DraftEnv F) (submissionId : ℕ) (href : db.ScoresReference) :
    ((∀ c, entriesOf c (body.componentScores.getD []) ≠ [] →
        ScorePatched (db.scoresOf submissionId)
          ((db.updated env submissionId body).scoresOf submissionId) c
          (entriesOf c (body.componentScores.getD []))) ∧
      ∀ c, entriesOf c (body.componentScores.getD []) = [] → ∀ k cs,
        (HasScore ((db.updated env submissionId body).scoresOf submissionId) c k cs ↔
          HasScore (db.scoresOf submissionId) c k cs)) ↔
      ∀ c e, (entriesOf c (body.componentScores.getD [])).getLast? = some e →
        Scorable db submissionId c (entriesOf c (body.componentScores.getD [])) e := by
  cases hb : body.componentScores with
  | none =>
    have hsame : (db.updated env submissionId body).scoresOf submissionId =
        db.scoresOf submissionId := by
      simp only [DraftDb.scoresOf, DraftDb.updated, hb]
    rw [hsame]
    refine iff_of_true ⟨fun c h => absurd rfl h, fun c _ k cs => Iff.rfl⟩ fun c e he => ?_
    cases he
  | some l =>
    have hsame : (db.updated env submissionId body).scoresOf submissionId =
        db.flushed submissionId l := by
      simp only [DraftDb.scoresOf, DraftDb.updated, hb, DraftDb.flushed]
    rw [hsame, Option.getD_some]
    constructor
    · rintro ⟨hprovided, -⟩ c e he
      exact (scorePatched_iff href he).mp
        (hprovided c (List.ne_nil_of_mem (List.mem_of_getLast? he)))
    · intro h
      refine ⟨fun c hne => ?_, fun c hnil k cs => hasScore_flushed_kept (.inl hnil)⟩
      obtain ⟨e, he⟩ := Option.isSome_iff_exists.mp (List.getLast?_isSome.mpr hne)
      exact (scorePatched_iff href he).mpr (h c e he)

theorem patched_iff (href : db.ScoresReference) (h : body.storable env db = true) :
    Patched env body (db.view submissionId s)
        ((db.updated env submissionId body).view submissionId
          (db.newRow env submissionId body s)) ↔
      (∀ c t, body.text c = some t →
          env.takesText t = true ∧ ∀ n, c.limit = some n → t.length ≤ n) ∧
        (∀ c v, body.json c = some v → env.jsonb v = some v) ∧
        ∀ c e, (entriesOf c (body.componentScores.getD [])).getLast? = some e →
          Scorable db submissionId c (entriesOf c (body.componentScores.getD [])) e := by
  obtain ⟨overall, band, heq⟩ :=
    scored_eq db env submissionId body.componentScores (body.apply env s)
  rw [← and_assoc, ← columns_patched_iff (s := s) h,
    ← scores_patched_iff env submissionId href]
  unfold DraftDb.view DraftDb.newRow
  constructor
  · rintro ⟨-, -, -, htext, hjson, -, hprovided, hothers⟩
    rw [heq] at htext hjson
    exact ⟨⟨htext, hjson⟩, hprovided, hothers⟩
  · rintro ⟨⟨htext, hjson⟩, hprovided, hothers⟩
    refine ⟨?_, ?_, ?_, ?_, ?_, fun hnone => ?_, hprovided, hothers⟩
    · rw [heq]
      exact ⟨rfl, rfl⟩
    · rw [heq]
      rfl
    · rw [heq]
      rfl
    · rw [heq]
      exact htext
    · rw [heq]
      exact hjson
    · rw [hnone]
      exact ⟨rfl, rfl⟩

theorem draftRequest_ok {α : Type} {m : DraftService α} {db db' : DraftDb} {a : α}
    (h : draftRequest m db = (.ok a, db')) : Svc.Returns m db a db' := by
  unfold draftRequest at h
  rcases Svc.request_cases (fun before _ => before) m db with ⟨a', s', hret, heq⟩ | ⟨e, s', -, heq⟩
  · rw [heq] at h
    cases h
    exact hret
  · rw [heq] at h
    cases h

/-- A request that fails is rolled back. -/
theorem draftRequest_error {α : Type} {m : DraftService α} {db db' : DraftDb} {e : Exn}
    (h : draftRequest m db = (.error e, db')) : db' = db := by
  unfold draftRequest at h
  rcases Svc.request_cases (fun before _ => before) m db with ⟨a', s', -, heq⟩ | ⟨e', s', -, heq⟩
  · rw [heq] at h
    cases h
  · rw [heq] at h
    cases h
    rfl

/-- **A PATCH is faithful exactly when the body is patchable.** -/
theorem updateSubmission_faithful_iff (href : db.ScoresReference)
    (hmay : MayWrite db user submissionId s) (hdraft : s.status = .draft)
    (hacc : body.accepted = true) :
    (PatchFaithful env db user submissionId body ↔ Patchable env db submissionId body) ∧
      ∀ e db', draftRequest (updateSubmission env user submissionId body) db = (.error e, db') →
        db' = db := by
  have hreturns {db' : DraftDb} :
      Svc.Returns (updateSubmission env user submissionId body) db () db' ↔
        body.storable env db = true ∧
          db.notesStorable env submissionId (body.componentScores.getD []) = true ∧
          db.updated env submissionId body = db' := by
    unfold updateSubmission
    rw [Svc.returns_require_bind, Drafts.returns_updateDraft, and_iff_right hacc,
      and_iff_right ⟨s, hmay, hdraft⟩]
  refine ⟨⟨?_, fun h => ?_⟩, fun _ _ => draftRequest_error⟩
  · rintro ⟨⟨db', before, after, hreq, hbefore, hafter, hpatched⟩, -⟩
    obtain ⟨hst, hnotes, rfl⟩ := hreturns.mp (draftRequest_ok hreq)
    obtain ⟨hmayb, hscoresb, -⟩ := returns_getSubmission.mp hbefore
    obtain ⟨hmaya, hscoresa, -⟩ := returns_getSubmission.mp hafter
    have hb : before = db.view submissionId s := by
      rw [← hmay.unique hmayb]
      unfold DraftDb.view
      rw [← hscoresb]
    have ha : after = (db.updated env submissionId body).view submissionId
        (db.newRow env submissionId body s) := by
      rw [← hmay.updated.unique hmaya]
      unfold DraftDb.view
      rw [← hscoresa]
    rw [hb, ha, patched_iff href hst] at hpatched
    obtain ⟨htext, hjson, hscores⟩ := hpatched
    refine ⟨(storable_iff.mp hst).1, htext, answers_of_storable hst, hjson, fun c e he => ?_⟩
    exact ⟨notes_of_storable hnotes (hscores c e he).known he, hscores c e he⟩
  · have hst : body.storable env db = true := by
      refine storable_iff.mpr ⟨h.category, fun c t ht => ?_, fun c v hv => ?_⟩
      · rw [storeText_self_iff.mpr (h.text c t ht)]
        exact Option.some_ne_none t
      · rw [storeJson_self_iff.mpr ⟨json_encodes h.answers hv, h.json c v hv⟩]
        exact Option.some_ne_none v
    have hnotes := storable_of_notes h.scores
    have hret := hreturns.mpr ⟨hst, hnotes, rfl⟩
    have hreq : draftRequest (updateSubmission env user submissionId body) db =
        (.ok (), db.updated env submissionId body) :=
      Svc.request_of_returns hret
    exact ⟨⟨_, _, _, hreq, returns_getSubmission.mpr ⟨hmay, rfl, rfl⟩,
      returns_getSubmission.mpr ⟨hmay.updated, rfl, rfl⟩,
      (patched_iff href hst).mpr ⟨h.text, h.json, fun c e he => (h.scores c e he).2⟩⟩,
      fun _ _ => draftRequest_error⟩

end Patch

/-! ## Two bodies -/

/-- One draft of user 7. -/
def oneDraft : DraftDb where
  submissions := Store.empty.create (SubmissionRow.started 7)
  scores := Store.empty
  components _ := none
  categories _ := false

theorem oneDraft_mayWrite : MayWrite oneDraft ⟨7, false⟩ 0 (SubmissionRow.started 7) :=
  ⟨rfl, rfl, .inr rfl⟩

theorem oneDraft_references : oneDraft.ScoresReference := by
  intro k cs h
  rw [show oneDraft.scores = Store.empty from rfl, Store.get?_empty] at h
  cases h

/-- `{"make": "Case"}`. -/
def makeBody : SubmissionUpdateRequest :=
  { SubmissionUpdateRequest.empty with
    text := fun c => if c = .make then some "Case" else none }

theorem make_patched : PatchFaithful plainDraftEnv oneDraft ⟨7, false⟩ 0 makeBody := by
  refine (updateSubmission_faithful_iff oneDraft_references oneDraft_mayWrite rfl
    (by decide)).1.mpr ⟨?_, fun c s hs => ?_, rfl, ?_, ?_⟩
  · exact fun c h => absurd h (by simp [makeBody, SubmissionUpdateRequest.empty])
  · refine ⟨rfl, fun n hn => ?_⟩
    have hs' : (if c = .make then some "Case" else none) = some s := hs
    split_ifs at hs' with hc
    · subst hc
      cases hs'
      cases hn
      decide
  · intro c v h
    cases c
    all_goals cases h
  · intro c e h
    cases h

/-- One answer, with a prompt id. -/
def answerBody : SubmissionUpdateRequest :=
  { SubmissionUpdateRequest.empty with fieldValues := some [⟨3, 1, .bool true⟩] }

/-- A draft with an answer is not saved. -/
theorem answer_not_patched :
    oneDraft.ScoresReference ∧
      MayWrite oneDraft ⟨7, false⟩ 0 (SubmissionRow.started 7) ∧
      (SubmissionRow.started 7).status = .draft ∧ answerBody.accepted = true ∧
      ¬ PatchFaithful plainDraftEnv oneDraft ⟨7, false⟩ 0 answerBody := by
  refine ⟨oneDraft_references, oneDraft_mayWrite, rfl, by decide, fun h => ?_⟩
  obtain ⟨db', before, after, hreq, -⟩ := h.succeeds
  have hret := draftRequest_ok hreq
  unfold updateSubmission at hret
  rw [Svc.returns_require_bind, Drafts.returns_updateDraft] at hret
  have hanswers := answers_of_storable hret.2.2.1
  cases hanswers

end TempleConsign
