import TempleConsign.DraftPatch
import TempleConsign.PhoneDraft

/-!
# The round trip of a draft

The phone makes a draft from a response, lets the user edit it and sends all of it
in a `PATCH`. Three things do not come back: `init(from:)` reads neither the
answers nor the notes of a score, `toUpdateRequest` sends an empty text as `nil`,
and the server takes `null` as "leave unchanged". The decoding of the response in between
is left out.

The order in which a response lists the scores is unspecified, so a result about a
draft made from one holds for every order.

Results:
* `lookup_ofServer`: the score of a component on the phone is the last of the
  response.
* `noEdit_iff`: a draft that was not edited leaves the submission as it is exactly
  where there is nothing to lose.
* `saved_iff`: an edited draft is what a later `GET` gives exactly when no field
  was cleared, there are no answers and every value fits its column.
* `draft_roundTrip_iff`: both.
-/

namespace TempleConsign

open ServiceLib

/-! ## What comes back of a draft -/

variable {F : Type}

/-- What the server can hold: the values of a row come from its columns. -/
structure Held (env : DraftEnv F) (db : DraftDb) (submissionId : ℕ) (s : SubmissionRow) :
    Prop where
  category : ∀ c, s.categoryId = some c → db.categories c = true
  year : ∀ y, s.year = some y → 1900 ≤ y ∧ y ≤ 2100
  text : ∀ c t, s.text c = some t → env.storeText c.limit t = some t
  scores : ∀ k cs, (k, cs) ∈ db.scoresOf submissionId →
    (0 ≤ cs.rawScore ∧ cs.rawScore ≤ 5) ∧ numeric32 cs.rawScore = cs.rawScore
  references : db.ScoresReference

/-- The fields of the form and the scores are the same. -/
structure SameSubmission (before after : SubmissionView) : Prop where
  fixed : after.row.appraiserId = before.row.appraiserId ∧ after.row.status = before.row.status
  category : after.row.categoryId = before.row.categoryId
  year : after.row.year = before.row.year
  text : ∀ c, after.row.text c = before.row.text c
  json : ∀ c, after.row.json c = before.row.json c
  scores : ∀ k cs, (k, cs) ∈ after.componentScores ↔ (k, cs) ∈ before.componentScores

/-- Sending a draft back without an edit changes nothing. -/
def NoEditKeeps (env : DraftEnv F) (db : DraftDb) (user : DraftUser) (submissionId : ℕ)
    (s : SubmissionRow) : Prop :=
  ∀ rows, rows.Perm (db.scoresOf submissionId) → ∀ r db',
    draftRequest (updateSubmission env user submissionId
      (DraftSubmission.ofServer env.arith ⟨s, rows⟩).toUpdateRequest) db = (r, db') →
    ∃ s', db'.submissions.get? submissionId = some s' ∧
      SameSubmission ⟨s, db.scoresOf submissionId⟩ ⟨s', db'.scoresOf submissionId⟩

/-- Two drafts with the same form. -/
structure SameForm (d d' : DraftSubmission F) : Prop where
  category : d.categoryId = d'.categoryId
  make : d.make = d'.make
  model : d.model = d'.model
  yearText : d.yearText = d'.yearText
  serialNumber : d.serialNumber = d'.serialNumber
  hoursCondition : d.hoursCondition = d'.hoursCondition
  runningStatus : d.runningStatus = d'.runningStatus
  titleStatus : d.titleStatus = d'.titleStatus
  answers : ∀ p, d.inspectionAnswers.lookup p = d'.inspectionAnswers.lookup p
  scores : ∀ c, d.componentScores.lookup c = d'.componentScores.lookup c
  marketabilityRating : d.marketabilityRating = d'.marketabilityRating
  transportNotes : d.transportNotes = d'.transportNotes
  listingNotes : d.listingNotes = d'.listingNotes

/-- The flush of an edited draft succeeds, and a fresh `GET` gives the draft. -/
def Saved (env : DraftEnv F) (db : DraftDb) (user : DraftUser) (submissionId : ℕ)
    (d : DraftSubmission F) : Prop :=
  ∃ db' view, draftRequest (updateSubmission env user submissionId d.toUpdateRequest) db =
      (.ok (), db') ∧
    Svc.Returns (getSubmission user submissionId) db' view db' ∧
    ∀ rows, rows.Perm view.componentScores →
      SameForm (DraftSubmission.ofServer env.arith ⟨view.row, rows⟩) d

/-! ## The conditions -/

/-- There is nothing that the phone does not send back. The scores that are
    written have no notes and the weight of their component. -/
def NothingToLose (db : DraftDb) (submissionId : ℕ) (s : SubmissionRow) : Prop :=
  s.json .fieldValues = some (.list []) ∧
    ∀ c k cs, HasScore (db.scoresOf submissionId) c k cs →
      existingByComponent (db.scoresOf submissionId) c = some k →
      cs.notes = none ∧ db.components c = some cs.weightAtTimeOfScoring ∧
        ∀ k' cs', HasScore (db.scoresOf submissionId) c k' cs' → cs'.rawScore = cs.rawScore

/-- The column shows an empty field: the phone has a text for it, or a choice. -/
def TextColumn.Blank (c : TextColumn) (o : Option String) : Prop :=
  match c with
  | .hoursCondition | .runningStatus | .titleStatus | .marketabilityRating => o = none
  | _ => o.getD "" = ""

/-- Every value of the draft fits its column, and what it leaves empty is empty on
    the server. -/
structure Savable (env : DraftEnv F) (db : DraftDb) (submissionId : ℕ) (s : SubmissionRow)
    (d : DraftSubmission F) : Prop where
  draft : s.status = .draft
  category : (∃ c, d.categoryId = some c ∧ db.categories c = true) ∨
    (d.categoryId = none ∧ s.categoryId = none)
  year : (∃ n, 1900 ≤ n ∧ n ≤ 2100 ∧ d.yearText = swiftString n) ∨
    (d.yearText = "" ∧ s.year = none)
  text : ∀ c t, d.sent c = some t → env.takesText t = true ∧ ∀ n, c.limit = some n → t.length ≤ n
  cleared : ∀ c, d.sent c = none → c.Blank (s.text c)
  answers : ∀ p, d.inspectionAnswers.lookup p = none
  scores : ∀ c q, d.componentScores.lookup c = some q →
    db.components c ≠ none ∧ (0 ≤ q ∧ q ≤ 5) ∧ numeric32 q = q ∧
      ∀ k cs, HasScore (db.scoresOf submissionId) c k cs →
        existingByComponent (db.scoresOf submissionId) c ≠ some k → cs.rawScore = q
  unscored : ∀ c, d.componentScores.lookup c = none →
    ∀ k cs, ¬ HasScore (db.scoresOf submissionId) c k cs

/-! ## The dictionary of scores -/

section Scores

variable {rows : List (ℕ × ComponentScore)} {c k : ℕ} {cs : ComponentScore} {q : ℚ}

/-- The last score of a component. -/
def lastRaw (rows : List (ℕ × ComponentScore)) (c : ℕ) : Option ℚ :=
  ((rows.filter fun e => e.2.componentId = c).getLast?).map fun e => e.2.rawScore

/-- The loop of `init(from:)` keeps the last score of a component. -/
theorem lookup_ofServer (A : FloatArith F) (s : SubmissionRow)
    (rows : List (ℕ × ComponentScore)) (c : ℕ) :
    (DraftSubmission.ofServer A ⟨s, rows⟩).componentScores.lookup c = lastRaw rows c := by
  show (rows.foldl (fun (d : AList fun _ : ℕ => ℚ) e => d.insert e.2.componentId e.2.rawScore)
    ∅).lookup c = _
  induction rows using List.reverseRecOn with
  | nil => exact AList.lookup_empty c
  | append_singleton l e ih =>
    rw [List.foldl_append, List.foldl_cons, List.foldl_nil, lastRaw, List.filter_append]
    by_cases hc : e.2.componentId = c
    · subst hc
      rw [AList.lookup_insert, List.filter_cons_of_pos (by simp), List.filter_nil,
        List.getLast?_concat]
      rfl
    · rw [AList.lookup_insert_ne (Ne.symm hc), ih, List.filter_cons_of_neg (by simpa using hc),
        List.filter_nil, List.append_nil]
      rfl

theorem lastRaw_eq_none_iff : lastRaw rows c = none ↔ ∀ k cs, ¬ HasScore rows c k cs := by
  unfold lastRaw HasScore
  rw [Option.map_eq_none_iff, List.getLast?_eq_none_iff, List.filter_eq_nil_iff]
  simp

theorem lastRaw_eq_some (h : lastRaw rows c = some q) :
    ∃ k cs, HasScore rows c k cs ∧ cs.rawScore = q := by
  obtain ⟨⟨k, cs⟩, hlast, rfl⟩ := Option.map_eq_some_iff.mp h
  obtain ⟨hmem, hc⟩ := List.mem_filter.mp (List.mem_of_getLast? hlast)
  exact ⟨k, cs, ⟨hmem, of_decide_eq_true hc⟩, rfl⟩

/-- Some order lists a row last. -/
theorem exists_perm_last (h : HasScore rows c k cs) :
    ∃ rows', rows'.Perm rows ∧ lastRaw rows' c = some cs.rawScore := by
  obtain ⟨l, l', hl⟩ := List.append_of_mem h.1
  refine ⟨l ++ l' ++ [(k, cs)], ?_, ?_⟩
  · rw [hl, List.append_assoc]
    exact List.Perm.append_left l (List.perm_append_singleton _ _)
  · rw [lastRaw, List.filter_append, List.filter_cons_of_pos (by simpa using h.2),
      List.filter_nil, List.getLast?_concat]
    rfl

theorem hasScore_perm {rows' : List (ℕ × ComponentScore)} (h : rows'.Perm rows) :
    HasScore rows' c k cs ↔ HasScore rows c k cs :=
  and_congr_left fun _ => h.mem_iff

/-- In every order the last score is `q`. -/
theorem forall_perm_some_iff :
    (∀ rows', rows'.Perm rows → lastRaw rows' c = some q) ↔
      (∃ k cs, HasScore rows c k cs) ∧ ∀ k cs, HasScore rows c k cs → cs.rawScore = q := by
  constructor
  · intro h
    obtain ⟨k, cs, hhas, -⟩ := lastRaw_eq_some (h rows (List.Perm.refl rows))
    refine ⟨⟨k, cs, hhas⟩, fun k' cs' h' => ?_⟩
    obtain ⟨rows', hperm, hlast⟩ := exists_perm_last h'
    exact Option.some_inj.mp (hlast.symm.trans (h rows' hperm))
  · rintro ⟨⟨k, cs, hhas⟩, hall⟩ rows' hperm
    cases hlast : lastRaw rows' c with
    | none => exact absurd ((hasScore_perm hperm).mpr hhas) (lastRaw_eq_none_iff.mp hlast k cs)
    | some q' =>
      obtain ⟨k', cs', h', rfl⟩ := lastRaw_eq_some hlast
      rw [hall k' cs' ((hasScore_perm hperm).mp h')]

/-- In every order the component has no score. -/
theorem forall_perm_none_iff :
    (∀ rows', rows'.Perm rows → lastRaw rows' c = none) ↔ ∀ k cs, ¬ HasScore rows c k cs := by
  constructor
  · intro h
    exact lastRaw_eq_none_iff.mp (h rows (List.Perm.refl rows))
  · intro h rows' hperm
    exact lastRaw_eq_none_iff.mpr fun k cs h' => h k cs ((hasScore_perm hperm).mp h')

/-- The entries that the phone sends. -/
def DraftSubmission.scoreEntries (d : DraftSubmission F) : List ComponentScoreIn :=
  d.componentScores.entries.map fun e => ⟨e.1, e.2, none⟩

theorem scoreEntries_notes {d : DraftSubmission F} {e : ComponentScoreIn}
    (h : e ∈ d.scoreEntries) : e.notes = none := by
  obtain ⟨e', -, rfl⟩ := List.mem_map.mp h
  rfl

theorem mem_scoreEntries {d : DraftSubmission F} {e : ComponentScoreIn} :
    e ∈ d.scoreEntries ↔
      d.componentScores.lookup e.componentId = some e.score ∧ e.notes = none := by
  unfold DraftSubmission.scoreEntries
  rw [List.mem_map]
  constructor
  · rintro ⟨⟨c, q⟩, hmem, rfl⟩
    exact ⟨AList.mem_lookup_iff.mpr hmem, rfl⟩
  · obtain ⟨c, q, notes⟩ := e
    rintro ⟨hget, rfl⟩
    exact ⟨⟨c, q⟩, AList.mem_lookup_iff.mp hget, rfl⟩

/-- The entry of a key. -/
theorem filter_entries {l : List (Σ _ : ℕ, ℚ)} (h : l.NodupKeys) (c : ℕ) :
    (l.filter fun e => e.1 = c) = match l.dlookup c with
      | none => []
      | some q => [⟨c, q⟩] := by
  induction l with
  | nil => rfl
  | cons e l ih =>
    obtain ⟨a, b⟩ := e
    obtain ⟨hnot, hnd⟩ := List.nodupKeys_cons.mp h
    by_cases ha : a = c
    · subst ha
      rw [List.filter_cons_of_pos (by simp), List.dlookup_cons_eq, ih hnd,
        List.dlookup_eq_none.mpr hnot]
    · rw [List.filter_cons_of_neg (by simpa using ha), List.dlookup_cons_ne _ _ (Ne.symm ha),
        ih hnd]

/-- One entry for a scored component, none for another. -/
theorem entriesOf_scoreEntries (d : DraftSubmission F) (c : ℕ) :
    entriesOf c d.scoreEntries = match d.componentScores.lookup c with
      | none => []
      | some q => [⟨c, q, none⟩] := by
  unfold entriesOf DraftSubmission.scoreEntries
  rw [List.filter_map]
  show List.map _ (d.componentScores.entries.filter fun e => e.1 = c) = _
  rw [filter_entries d.componentScores.nodupKeys]
  unfold AList.lookup
  cases d.componentScores.entries.dlookup c with
  | none => rfl
  | some q => rfl

end Scores

/-! ## What a PATCH of the phone does -/

variable {env : DraftEnv F} {db db' : DraftDb} {user : DraftUser} {submissionId : ℕ}
  {s : SubmissionRow} {d : DraftSubmission F}

/-- What the schema accepts of a draft. -/
theorem accepted_toUpdateRequest_iff :
    d.toUpdateRequest.accepted = true ↔
      (∀ y, swiftInt d.yearText = some y → 1900 ≤ y ∧ y ≤ 2100) ∧
        (∀ t, d.sent .make = some t → t.length ≤ 100) ∧
        (∀ t, d.sent .model = some t → t.length ≤ 100) ∧
        ∀ c q, d.componentScores.lookup c = some q → 0 ≤ q ∧ q ≤ 5 := by
  have hscores : (∀ e ∈ d.scoreEntries, 0 ≤ e.score ∧ e.score ≤ 5) ↔
      ∀ c q, d.componentScores.lookup c = some q → 0 ≤ q ∧ q ≤ 5 := by
    constructor
    · intro h c q hget
      exact h ⟨c, q, none⟩ (mem_scoreEntries.mpr ⟨hget, rfl⟩)
    · intro h e he
      exact h e.componentId e.score (mem_scoreEntries.mp he).1
  have hlist : d.toUpdateRequest.componentScores.getD [] = d.scoreEntries := rfl
  have hyear : d.toUpdateRequest.year = swiftInt d.yearText := rfl
  have htext : d.toUpdateRequest.text = d.sent := rfl
  unfold SubmissionUpdateRequest.accepted
  rw [hlist, hyear, htext]
  simp only [Bool.and_eq_true, Option.all_eq_true, List.all_eq_true, decide_eq_true_iff, hscores,
    and_assoc]

/-- The notes of the phone's entries are null. -/
theorem notesStorable_scoreEntries :
    db.notesStorable env submissionId d.scoreEntries = true := by
  refine notesStorable_iff.mpr ⟨fun k e he => ?_, fun e he => ?_⟩
  · rw [scoreEntries_notes (List.mem_filter.mp (List.mem_of_getLast? he)).1]
    rfl
  · rw [scoreEntries_notes (List.mem_filter.mp he).1]
    rfl

/-- When a `PATCH` of the phone succeeds; PostgreSQL keeps an empty JSON list. -/
theorem returns_phone (henv : env.jsonb (.list []) = some (.list []))
    (hmay : MayWrite db user submissionId s) :
    Svc.Returns (updateSubmission env user submissionId d.toUpdateRequest) db () db' ↔
      s.status = .draft ∧ d.toUpdateRequest.accepted = true ∧
        (∀ c, d.categoryId = some c → db.categories c = true) ∧
        (∀ c t, d.sent c = some t → env.storeText c.limit t ≠ none) ∧
        d.inspectionAnswers.entries = [] ∧
        db.updated env submissionId d.toUpdateRequest = db' := by
  have hjson : (∀ c v, d.toUpdateRequest.json c = some v → env.storeJson v ≠ none) ↔
      d.inspectionAnswers.entries = [] := by
    constructor
    · intro h
      have hst := h .fieldValues _ rfl
      by_contra hne
      refine hst ?_
      unfold DraftEnv.storeJson
      rw [if_neg (encodes_answers.not.mpr fun hnil => hne (List.map_eq_nil_iff.mp hnil))]
    · intro hnil c v hv
      cases c with
      | fieldValues =>
        obtain rfl : v = .list [] := by
          have hv' : some (PyValue.list ((d.inspectionAnswers.entries.map fun e =>
              e.2.request).map InspectionAnswerIn.modelDump)) = some v := hv
          rw [hnil] at hv'
          exact (Option.some_inj.mp hv').symm
        rw [storeJson_self_iff.mpr ⟨rfl, henv⟩]
        exact Option.some_ne_none _
      | comparableSalesData => cases hv
      | redFlags => cases hv
  have hnotes : db.notesStorable env submissionId
      (d.toUpdateRequest.componentScores.getD []) = true := notesStorable_scoreEntries
  have hdraft : (∃ s, MayWrite db user submissionId s ∧ s.status = .draft) ↔ s.status = .draft := by
    constructor
    · rintro ⟨s', hmay', h⟩
      rwa [hmay.unique hmay'] at h
    · exact fun h => ⟨s, hmay, h⟩
  unfold updateSubmission
  rw [Svc.returns_require_bind, Drafts.returns_updateDraft, hdraft, storable_iff, hjson,
    and_iff_right hnotes]
  constructor
  · rintro ⟨hacc, hs, ⟨hc, ht, hj⟩, h⟩
    exact ⟨hs, hacc, hc, ht, hj, h⟩
  · rintro ⟨hs, hacc, hc, ht, hj, h⟩
    exact ⟨hacc, hs, ⟨hc, ht, hj⟩, h⟩

/-- The row after a `PATCH` of the phone without answers. -/
theorem phone_row (db : DraftDb) (submissionId : ℕ) (s : SubmissionRow)
    (henv : env.jsonb (.list []) = some (.list []))
    (hnil : d.inspectionAnswers.entries = []) :
    ∃ overall band, db.newRow env submissionId d.toUpdateRequest s =
      { s with
        categoryId := d.categoryId.or s.categoryId
        year := (swiftInt d.yearText).or s.year
        text := fun c => ((d.sent c).bind (env.storeText c.limit)).or (s.text c)
        json := fun c => if c = .fieldValues then some (.list []) else s.json c
        overallScore := overall
        scoreBand := band } := by
  obtain ⟨overall, band, heq⟩ := scored_eq db env submissionId d.toUpdateRequest.componentScores
    (d.toUpdateRequest.apply env s)
  refine ⟨overall, band, ?_⟩
  have hjson : (fun c => ((d.toUpdateRequest.json c).bind env.storeJson).or (s.json c)) =
      fun c => if c = .fieldValues then some (.list []) else s.json c := by
    funext c
    cases c with
    | fieldValues =>
      have hv : d.toUpdateRequest.json .fieldValues = some (.list []) := by
        show some (PyValue.list ((d.inspectionAnswers.entries.map fun e =>
          e.2.request).map InspectionAnswerIn.modelDump)) = _
        rw [hnil]
        rfl
      rw [hv, Option.bind_some, storeJson_self_iff.mpr ⟨rfl, henv⟩]
      rfl
    | comparableSalesData => rfl
    | redFlags => rfl
  rw [DraftDb.newRow, heq, ← hjson]
  rfl

/-- The scores after it. -/
theorem phone_scores :
    (db.updated env submissionId d.toUpdateRequest).scoresOf submissionId =
      db.flushed submissionId d.scoreEntries := rfl

theorem lastStored_entry_eq_iff {components : ℕ → Option ℚ} {c : ℕ} {q : ℚ}
    {cs : ComponentScore} :
    lastStored components [⟨c, q, none⟩] cs = cs ↔
      numeric32 q = cs.rawScore ∧ (components c).getD 0 = cs.weightAtTimeOfScoring ∧
        cs.notes = none := by
  obtain ⟨sub, comp, raw, weight, notes⟩ := cs
  simp [lastStored, ComponentScoreIn.onRow, eq_comm]

/-! ## Without an edit -/

/-- The texts of a response are sent back, or `nil` is. -/
theorem sent_ofServer {A : FloatArith F} {rows : List (ℕ × ComponentScore)} {c : TextColumn}
    {t : String} (h : (DraftSubmission.ofServer A ⟨s, rows⟩).sent c = some t) :
    s.text c = some t := by
  have hplain {o : Option String} (ho : emptyToNil (o.getD "") = some t) : o = some t := by
    cases o with
    | none => cases ho
    | some x =>
      unfold emptyToNil at ho
      split_ifs at ho
      exact ho
  cases c
  case hoursCondition => exact h
  case runningStatus => exact h
  case titleStatus => exact h
  case marketabilityRating => exact h
  all_goals exact hplain h

theorem year_ofServer {A : FloatArith F} {rows : List (ℕ × ComponentScore)}
    (h : ∀ y, s.year = some y → 1900 ≤ y ∧ y ≤ 2100) :
    swiftInt (DraftSubmission.ofServer A ⟨s, rows⟩).yearText = s.year := by
  show swiftInt ((s.year.map swiftString).getD "") = s.year
  cases hy : s.year with
  | none => decide +kernel
  | some y =>
    obtain ⟨h1, h2⟩ := h y hy
    exact swiftInt_swiftString h1 h2

/-- A score that the phone sends back is one of the component. -/
theorem scores_ofServer {A : FloatArith F} {rows : List (ℕ × ComponentScore)}
    (hperm : rows.Perm (db.scoresOf submissionId)) {c : ℕ} {q : ℚ}
    (h : (DraftSubmission.ofServer A ⟨s, rows⟩).componentScores.lookup c = some q) :
    ∃ k cs, HasScore (db.scoresOf submissionId) c k cs ∧ cs.rawScore = q := by
  rw [lookup_ofServer] at h
  obtain ⟨k, cs, hhas, hq⟩ := lastRaw_eq_some h
  exact ⟨k, cs, (hasScore_perm hperm).mp hhas, hq⟩

/-- A draft that was not edited is saved, where the submission is still a draft. -/
theorem returns_noEdit (henv : env.jsonb (.list []) = some (.list []))
    (hmay : MayWrite db user submissionId s) (held : Held env db submissionId s)
    {rows : List (ℕ × ComponentScore)} (hperm : rows.Perm (db.scoresOf submissionId)) :
    Svc.Returns (updateSubmission env user submissionId
        (DraftSubmission.ofServer env.arith ⟨s, rows⟩).toUpdateRequest) db () db' ↔
      s.status = .draft ∧ db.updated env submissionId
        (DraftSubmission.ofServer env.arith ⟨s, rows⟩).toUpdateRequest = db' := by
  have htext {c : TextColumn} {t : String}
      (h : (DraftSubmission.ofServer env.arith ⟨s, rows⟩).sent c = some t) :
      env.storeText c.limit t = some t := held.text c t (sent_ofServer h)
  have hacc : (DraftSubmission.ofServer env.arith ⟨s, rows⟩).toUpdateRequest.accepted = true := by
    refine accepted_toUpdateRequest_iff.mpr ⟨fun y hy => ?_, fun t ht => ?_, fun t ht => ?_,
      fun c q hq => ?_⟩
    · rw [year_ofServer held.year] at hy
      exact held.year y hy
    · exact (storeText_self_iff.mp (htext ht)).2 100 rfl
    · exact (storeText_self_iff.mp (htext ht)).2 100 rfl
    · obtain ⟨k, cs, hhas, rfl⟩ := scores_ofServer hperm hq
      exact (held.scores k cs hhas.1).1
  rw [returns_phone henv hmay]
  constructor
  · rintro ⟨hs, -, -, -, -, h⟩
    exact ⟨hs, h⟩
  · rintro ⟨hs, h⟩
    refine ⟨hs, hacc, held.category, fun c t ht => ?_, rfl, h⟩
    rw [htext ht]
    exact Option.some_ne_none t

/-- The columns of a draft that was not edited. -/
theorem noEdit_row (henv : env.jsonb (.list []) = some (.list []))
    (held : Held env db submissionId s) (rows : List (ℕ × ComponentScore)) :
    ∃ overall band, db.newRow env submissionId
        (DraftSubmission.ofServer env.arith ⟨s, rows⟩).toUpdateRequest s =
      { s with
        json := fun c => if c = .fieldValues then some (.list []) else s.json c
        overallScore := overall
        scoreBand := band } := by
  obtain ⟨overall, band, heq⟩ := phone_row db submissionId s
    (d := DraftSubmission.ofServer env.arith ⟨s, rows⟩) henv rfl
  have hcat : (DraftSubmission.ofServer env.arith ⟨s, rows⟩).categoryId.or s.categoryId =
      s.categoryId := Option.or_self
  have htext : (fun c => (((DraftSubmission.ofServer env.arith ⟨s, rows⟩).sent c).bind
      (env.storeText c.limit)).or (s.text c)) = s.text := by
    funext c
    cases hsent : (DraftSubmission.ofServer env.arith ⟨s, rows⟩).sent c with
    | none => rfl
    | some t =>
      have hc := sent_ofServer hsent
      rw [Option.bind_some, held.text c t hc, hc]
      rfl
  refine ⟨overall, band, ?_⟩
  rw [heq, hcat, htext, year_ofServer held.year, Option.or_self]

/-- The scores of a component with a row, after its one entry. -/
theorem hasScore_entry {c k0 : ℕ} {q : ℚ} (hknown : db.components c ≠ none)
    (hx : existingByComponent (db.scoresOf submissionId) c = some k0)
    (hq : d.componentScores.lookup c = some q) {k : ℕ} {cs : ComponentScore} :
    HasScore (db.flushed submissionId d.scoreEntries) c k cs ↔
      ∃ cs0, HasScore (db.scoresOf submissionId) c k cs0 ∧
        cs = if k = k0 then lastStored db.components [⟨c, q, none⟩] cs0 else cs0 := by
  have hentries : entriesOf c d.scoreEntries = [⟨c, q, none⟩] := by
    rw [entriesOf_scoreEntries, hq]
  rw [hasScore_flushed_existing hknown hx, hentries]

/-- A row is the only one under its key. -/
theorem hasScore_unique {c c' k : ℕ} {cs cs' : ComponentScore}
    (h : HasScore (db.scoresOf submissionId) c k cs)
    (h' : HasScore (db.scoresOf submissionId) c' k cs') : cs' = cs :=
  Option.some_inj.mp ((Store.mem_select.mp h'.1).1.symm.trans (Store.mem_select.mp h.1).1)

theorem existing_of_has {c k : ℕ} {cs : ComponentScore}
    (h : HasScore (db.scoresOf submissionId) c k cs) :
    ∃ k0 cs0, existingByComponent (db.scoresOf submissionId) c = some k0 ∧
      HasScore (db.scoresOf submissionId) c k0 cs0 := by
  cases hx : existingByComponent (db.scoresOf submissionId) c with
  | none => exact absurd h.2 (existing_none_iff.mp hx k cs h.1)
  | some k0 =>
    obtain ⟨cs0, hmem, hc⟩ := existing_some hx
    exact ⟨k0, cs0, rfl, hmem, hc⟩

/-- The scores stay where the rows that are written have nothing to lose. -/
theorem noEdit_scores (held : Held env db submissionId s) {rows : List (ℕ × ComponentScore)}
    (hperm : rows.Perm (db.scoresOf submissionId))
    (hrows : ∀ c k cs, HasScore (db.scoresOf submissionId) c k cs →
      existingByComponent (db.scoresOf submissionId) c = some k →
      cs.notes = none ∧ db.components c = some cs.weightAtTimeOfScoring ∧
        ∀ k' cs', HasScore (db.scoresOf submissionId) c k' cs' → cs'.rawScore = cs.rawScore)
    (c k : ℕ) (cs : ComponentScore) :
    HasScore (db.flushed submissionId
        (DraftSubmission.ofServer env.arith ⟨s, rows⟩).scoreEntries) c k cs ↔
      HasScore (db.scoresOf submissionId) c k cs := by
  cases hq : (DraftSubmission.ofServer env.arith ⟨s, rows⟩).componentScores.lookup c with
  | none =>
    refine hasScore_flushed_kept (.inl ?_)
    rw [entriesOf_scoreEntries, hq]
  | some q =>
    obtain ⟨k1, cs1, hhas1, rfl⟩ := scores_ofServer hperm hq
    obtain ⟨k0, cs0, hx, hhas0⟩ := existing_of_has hhas1
    obtain ⟨hnotes, hweight, hraw⟩ := hrows c k0 cs0 hhas0 hx
    have hknown : db.components c ≠ none := by
      rw [hweight]
      exact Option.some_ne_none _
    -- the row that is written gets the values it has
    have hsame : lastStored db.components [⟨c, cs1.rawScore, none⟩] cs0 = cs0 := by
      refine lastStored_entry_eq_iff.mpr ⟨?_, ?_, hnotes⟩
      · rw [(held.scores k1 cs1 hhas1.1).2, hraw k1 cs1 hhas1]
      · rw [hweight]
        rfl
    rw [hasScore_entry hknown hx hq]
    constructor
    · rintro ⟨cs2, hhas2, rfl⟩
      split_ifs with hk
      · subst hk
        rw [hasScore_unique hhas0 hhas2, hsame]
        exact hhas0
      · exact hhas2
    · intro hhas
      refine ⟨cs, hhas, ?_⟩
      split_ifs with hk
      · subst hk
        rw [hasScore_unique hhas0 hhas, hsame]
      · rfl

/-- **A draft that was not edited.** -/
theorem noEdit_iff (henv : env.jsonb (.list []) = some (.list []))
    (hmay : MayWrite db user submissionId s) (held : Held env db submissionId s) :
    NoEditKeeps env db user submissionId s ↔
      (s.status = .draft → NothingToLose db submissionId s) := by
  constructor
  · intro h hdraft
    -- what each order of the response leaves
    have hafter (rows : List (ℕ × ComponentScore)) (hperm : rows.Perm (db.scoresOf submissionId)) :
        SameSubmission ⟨s, db.scoresOf submissionId⟩
          ⟨db.newRow env submissionId
              (DraftSubmission.ofServer env.arith ⟨s, rows⟩).toUpdateRequest s,
            db.flushed submissionId
              (DraftSubmission.ofServer env.arith ⟨s, rows⟩).scoreEntries⟩ := by
      have hret := (returns_noEdit henv hmay held hperm).mpr ⟨hdraft, rfl⟩
      obtain ⟨s', hrow, hsame⟩ := h rows hperm _ _ (Svc.request_of_returns hret)
      rw [hmay.updated.row] at hrow
      cases hrow
      exact hsame
    constructor
    · have hjson := (hafter _ (List.Perm.refl _)).json .fieldValues
      obtain ⟨overall, band, heq⟩ := noEdit_row henv held (db.scoresOf submissionId)
      rw [heq] at hjson
      exact hjson.symm
    · intro c k cs hhas hx
      have hknown : db.components c ≠ none := by
        have href := held.references k cs (Store.mem_select.mp hhas.1).1
        rwa [hhas.2] at href
      -- the score that the phone sends may be that of any row of the component
      have hwritten (k' : ℕ) (cs' : ComponentScore)
          (hhas' : HasScore (db.scoresOf submissionId) c k' cs') :
          lastStored db.components [⟨c, cs'.rawScore, none⟩] cs = cs := by
        obtain ⟨rows, hperm, hlast⟩ := exists_perm_last hhas'
        have hq : (DraftSubmission.ofServer env.arith ⟨s, rows⟩).componentScores.lookup c =
            some cs'.rawScore := by
          rw [lookup_ofServer, hlast]
        have hrow := (hasScore_entry hknown hx hq).mpr ⟨cs, hhas, (if_pos rfl).symm⟩
        have hmem := ((hafter rows hperm).scores k _).mp hrow.1
        exact hasScore_unique hhas ⟨hmem, hrow.2⟩
      obtain ⟨-, hweight, hnotes⟩ := lastStored_entry_eq_iff.mp (hwritten k cs hhas)
      refine ⟨hnotes, ?_, fun k' cs' hhas' => ?_⟩
      · obtain ⟨w, hw⟩ := Option.ne_none_iff_exists'.mp hknown
        rw [hw] at hweight ⊢
        exact congrArg some hweight
      · obtain ⟨hraw, -, -⟩ := lastStored_entry_eq_iff.mp (hwritten k' cs' hhas')
        rw [← hraw, (held.scores k' cs' hhas'.1).2]
  · intro h rows hperm r db' hreq
    cases r with
    | error e =>
      rw [draftRequest_error hreq]
      exact ⟨s, hmay.row, ⟨rfl, rfl⟩, rfl, rfl, fun _ => rfl, fun _ => rfl, fun _ _ => Iff.rfl⟩
    | ok _ =>
      obtain ⟨hdraft, rfl⟩ := (returns_noEdit henv hmay held hperm).mp (draftRequest_ok hreq)
      obtain ⟨hanswers, hrows⟩ := h hdraft
      obtain ⟨overall, band, heq⟩ := noEdit_row henv held rows
      refine ⟨_, hmay.updated.row, ?_⟩
      rw [heq]
      refine ⟨⟨rfl, rfl⟩, rfl, rfl, fun _ => rfl, fun c => ?_, fun k cs => ?_⟩
      · show (if c = .fieldValues then some (.list []) else s.json c) = s.json c
        split_ifs with hc
        · rw [hc, hanswers]
        · rfl
      · have hiff := noEdit_scores held hperm hrows cs.componentId k cs
        unfold HasScore at hiff
        rwa [and_iff_left rfl, and_iff_left rfl] at hiff

/-! ## After an edit -/

/-- The field of a column in the form. -/
def DraftSubmission.Shows (d : DraftSubmission F) (c : TextColumn) (o : Option String) : Prop :=
  match c with
  | .make => o.getD "" = d.make
  | .model => o.getD "" = d.model
  | .hoursCondition => o = d.hoursCondition
  | .runningStatus => o = d.runningStatus
  | .serialNumber => o.getD "" = d.serialNumber
  | .titleStatus => o = d.titleStatus
  | .marketabilityRating => o = d.marketabilityRating
  | .transportNotes => o.getD "" = d.transportNotes
  | .listingNotes => o.getD "" = d.listingNotes

theorem sameForm_ofServer_iff {A : FloatArith F} {v : SubmissionView} :
    SameForm (DraftSubmission.ofServer A v) d ↔
      v.row.categoryId = d.categoryId ∧ (v.row.year.map swiftString).getD "" = d.yearText ∧
        (∀ c, d.Shows c (v.row.text c)) ∧ (∀ p, d.inspectionAnswers.lookup p = none) ∧
        ∀ c, lastRaw v.componentScores c = d.componentScores.lookup c := by
  have hanswers (p : ℕ) :
      (DraftSubmission.ofServer A v).inspectionAnswers.lookup p = none := AList.lookup_empty p
  constructor
  · rintro ⟨hcat, hmake, hmodel, hyear, hserial, hhours, hrunning, htitle, hans, hscores, hmarket,
      htransport, hlisting⟩
    refine ⟨hcat, hyear, fun c => ?_, fun p => (hans p).symm.trans (hanswers p), fun c => ?_⟩
    · cases c <;> assumption
    · rw [← lookup_ofServer A v.row]
      exact hscores c
  · rintro ⟨hcat, hyear, hshows, hans, hscores⟩
    exact ⟨hcat, hshows .make, hshows .model, hyear, hshows .serialNumber,
      hshows .hoursCondition, hshows .runningStatus, hshows .titleStatus,
      fun p => (hanswers p).trans (hans p).symm,
      fun c => (lookup_ofServer A v.row v.componentScores c).trans (hscores c),
      hshows .marketabilityRating, hshows .transportNotes, hshows .listingNotes⟩

/-- What a column holds after the `PATCH` is what the form shows. -/
theorem shows_iff {c : TextColumn} {f : String → Option String} {o : Option String}
    (hf : ∀ t, d.sent c = some t → f t ≠ none) :
    d.Shows c (((d.sent c).bind f).or o) ↔
      (∀ t, d.sent c = some t → f t = some t) ∧ (d.sent c = none → c.Blank o) := by
  have hchoice {x : Option String} (hf : ∀ t, x = some t → f t ≠ none) :
      (x.bind f).or o = x ↔ (∀ t, x = some t → f t = some t) ∧ (x = none → o = none) := by
    cases x with
    | none => simp
    | some t =>
      have hne := hf t rfl
      cases ht : f t with
      | none => exact absurd ht hne
      | some t' => simp [ht]
  have hplain {x : String} (hf : ∀ t, emptyToNil x = some t → f t ≠ none) :
      (((emptyToNil x).bind f).or o).getD "" = x ↔
        (∀ t, emptyToNil x = some t → f t = some t) ∧
          (emptyToNil x = none → o.getD "" = "") := by
    unfold emptyToNil at hf ⊢
    split_ifs at hf ⊢ with hempty
    · rw [String.isEmpty_iff] at hempty
      simp [hempty]
    · have hne := hf x rfl
      cases ht : f x with
      | none => exact absurd ht hne
      | some t' => simp [ht]
  cases c
  case hoursCondition => exact hchoice hf
  case runningStatus => exact hchoice hf
  case titleStatus => exact hchoice hf
  case marketabilityRating => exact hchoice hf
  all_goals exact hplain hf

/-- The year after the `PATCH` is what the form shows. -/
theorem year_shown_iff (held : ∀ y, s.year = some y → 1900 ≤ y ∧ y ≤ 2100) {yearText : String}
    (hacc : ∀ y, swiftInt yearText = some y → 1900 ≤ y ∧ y ≤ 2100) :
    (((swiftInt yearText).or s.year).map swiftString).getD "" = yearText ↔
      (∃ n, 1900 ≤ n ∧ n ≤ 2100 ∧ yearText = swiftString n) ∨ (yearText = "" ∧ s.year = none) := by
  have hempty : swiftInt "" = none := by decide +kernel
  cases hy : swiftInt yearText with
  | some y =>
    obtain ⟨h1, h2⟩ := hacc y hy
    constructor
    · intro h
      exact .inl ⟨y, h1, h2, h.symm⟩
    · rintro (⟨n, hn1, hn2, rfl⟩ | ⟨rfl, -⟩)
      · rw [swiftInt_swiftString hn1 hn2] at hy
        cases hy
        rfl
      · rw [hempty] at hy
        cases hy
  | none =>
    rw [Option.none_or]
    constructor
    · intro h
      cases hs : s.year with
      | none =>
        rw [hs] at h
        exact .inr ⟨h.symm, rfl⟩
      | some y =>
        -- the year of the server would have been read
        obtain ⟨h1, h2⟩ := held y hs
        rw [hs] at h
        have hread := swiftInt_swiftString h1 h2
        rw [show swiftString y = yearText from h, hy] at hread
        cases hread
    · rintro (⟨n, hn1, hn2, rfl⟩ | ⟨rfl, hs⟩)
      · rw [swiftInt_swiftString hn1 hn2] at hy
        cases hy
      · rw [hs]
        rfl

/-- The score of a component comes back. -/
theorem scores_saved_iff (href : db.ScoresReference) (c : ℕ) :
    (∀ rows, rows.Perm (db.flushed submissionId d.scoreEntries) →
        lastRaw rows c = d.componentScores.lookup c) ↔
      (∀ q, d.componentScores.lookup c = some q →
        db.components c ≠ none ∧ numeric32 q = q ∧
          ∀ k cs, HasScore (db.scoresOf submissionId) c k cs →
            existingByComponent (db.scoresOf submissionId) c ≠ some k → cs.rawScore = q) ∧
        (d.componentScores.lookup c = none →
          ∀ k cs, ¬ HasScore (db.scoresOf submissionId) c k cs) := by
  cases hq : d.componentScores.lookup c with
  | none =>
    have hkept {k : ℕ} {cs : ComponentScore} :
        HasScore (db.flushed submissionId d.scoreEntries) c k cs ↔
          HasScore (db.scoresOf submissionId) c k cs := by
      refine hasScore_flushed_kept (.inl ?_)
      rw [entriesOf_scoreEntries, hq]
    rw [forall_perm_none_iff]
    simp only [hkept]
    simp
  | some q =>
    simp only [Option.some.injEq, forall_eq', reduceCtorEq, false_imp_iff, and_true]
    rw [forall_perm_some_iff]
    by_cases hknown : db.components c = none
    · -- an unknown component has no row, before or after
      refine iff_of_false ?_ fun h => h.1 hknown
      rintro ⟨⟨k, cs, hhas⟩, -⟩
      have h0 := (hasScore_flushed_kept (.inr hknown)).mp hhas
      exact href k cs (Store.mem_select.mp h0.1).1 (h0.2 ▸ hknown)
    rw [and_iff_right hknown]
    cases hx : existingByComponent (db.scoresOf submissionId) c with
    | some k0 =>
      obtain ⟨cs0, hmem, hc⟩ := existing_some hx
      constructor
      · rintro ⟨-, hall⟩
        constructor
        · have h0 := (hasScore_entry hknown hx hq).mpr ⟨cs0, ⟨hmem, hc⟩, rfl⟩
          have hraw := hall _ _ h0
          rwa [if_pos rfl] at hraw
        · intro k cs hhas hk
          refine hall k cs ((hasScore_entry hknown hx hq).mpr ⟨cs, hhas, ?_⟩)
          rw [if_neg fun heq => hk (by rw [heq])]
      · rintro ⟨hdec, hothers⟩
        refine ⟨⟨_, _, (hasScore_entry hknown hx hq).mpr ⟨cs0, ⟨hmem, hc⟩, rfl⟩⟩, ?_⟩
        intro k cs hhas
        obtain ⟨cs1, hhas1, rfl⟩ := (hasScore_entry hknown hx hq).mp hhas
        split_ifs with hk
        · exact hdec
        · exact hothers k cs1 hhas1 fun heq => hk (Option.some_inj.mp heq).symm
    | none =>
      have hlast : (entriesOf c d.scoreEntries).getLast? = some ⟨c, q, none⟩ := by
        rw [entriesOf_scoreEntries, hq]
        rfl
      obtain ⟨i, hi, -⟩ := exists_inserts hknown hx hlast
      have hrow := (hasScore_flushed_new hx).mpr ⟨i, _, hi, rfl, rfl, rfl⟩
      constructor
      · rintro ⟨-, hall⟩
        refine ⟨hall _ _ hrow, fun k cs hhas _ => ?_⟩
        exact absurd hhas.2 (existing_none_iff.mp hx k cs hhas.1)
      · rintro ⟨hdec, -⟩
        refine ⟨⟨_, _, hrow⟩, fun k cs hhas => ?_⟩
        obtain ⟨j, e, he, rfl, rfl, rfl⟩ := (hasScore_flushed_new hx).mp hhas
        have hget := (mem_scoreEntries.mp (inserts_component he).1).1
        rw [hq] at hget
        cases hget
        exact hdec

theorem entries_nil_iff :
    d.inspectionAnswers.entries = [] ↔ ∀ p, d.inspectionAnswers.lookup p = none := by
  rw [List.eq_nil_iff_forall_not_mem]
  constructor
  · intro h p
    cases hp : d.inspectionAnswers.lookup p with
    | none => rfl
    | some e => exact absurd (AList.mem_lookup_iff.mp hp) (h _)
  · rintro h ⟨p, e⟩ hmem
    have hp := AList.mem_lookup_iff.mpr hmem
    rw [h p] at hp
    cases hp

/-- **An edited draft.** -/
theorem saved_iff (henv : env.jsonb (.list []) = some (.list []))
    (hmay : MayWrite db user submissionId s) (held : Held env db submissionId s) :
    Saved env db user submissionId d ↔ Savable env db submissionId s d := by
  constructor
  · rintro ⟨db', view, hreq, hview, hform⟩
    obtain ⟨hdraft, hacc, hcat, hstore, hnil, rfl⟩ :=
      (returns_phone henv hmay).mp (draftRequest_ok hreq)
    obtain ⟨hyears, -, -, hrange⟩ := accepted_toUpdateRequest_iff.mp hacc
    obtain ⟨hmay', hscores, -⟩ := returns_getSubmission.mp hview
    obtain ⟨overall, band, heq⟩ := phone_row db submissionId s henv hnil
    rw [hmay.updated.unique hmay', heq, hscores, phone_scores] at hform
    simp only [sameForm_ofServer_iff] at hform
    obtain ⟨hc, hy, hshows, hans, -⟩ := hform _ (List.Perm.refl _)
    have hsaved (c : ℕ) := (scores_saved_iff held.references c).mp
      fun rows hperm => (hform rows hperm).2.2.2.2 c
    refine ⟨hdraft, ?_, (year_shown_iff held.year hyears).mp hy, fun c t ht => ?_,
      fun c hnone => ?_, hans, fun c q hq => ?_, fun c hnone => (hsaved c).2 hnone⟩
    · cases hd : d.categoryId with
      | none =>
        rw [hd, Option.none_or] at hc
        exact .inr ⟨rfl, hc⟩
      | some c => exact .inl ⟨c, rfl, hcat c hd⟩
    · exact storeText_self_iff.mp (((shows_iff (hstore c)).mp (hshows c)).1 t ht)
    · exact ((shows_iff (hstore c)).mp (hshows c)).2 hnone
    · obtain ⟨hknown, hdec, hothers⟩ := (hsaved c).1 q hq
      exact ⟨hknown, hrange c q hq, hdec, hothers⟩
  · intro h
    have hstore (c : TextColumn) (t : String) (ht : d.sent c = some t) :
        env.storeText c.limit t = some t := storeText_self_iff.mpr (h.text c t ht)
    have hne (c : TextColumn) (t : String) (ht : d.sent c = some t) :
        env.storeText c.limit t ≠ none := by
      rw [hstore c t ht]
      exact Option.some_ne_none t
    have hyears (y : ℤ) (hy : swiftInt d.yearText = some y) : 1900 ≤ y ∧ y ≤ 2100 := by
      rcases h.year with ⟨n, hn1, hn2, hn⟩ | ⟨hempty, -⟩
      · rw [hn, swiftInt_swiftString hn1 hn2] at hy
        cases hy
        exact ⟨hn1, hn2⟩
      · rw [hempty, show swiftInt "" = none by decide +kernel] at hy
        cases hy
    have hacc : d.toUpdateRequest.accepted = true :=
      accepted_toUpdateRequest_iff.mpr ⟨hyears, fun t ht => (h.text .make t ht).2 100 rfl,
        fun t ht => (h.text .model t ht).2 100 rfl, fun c q hq => (h.scores c q hq).2.1⟩
    have hcat (c : ℕ) (hc : d.categoryId = some c) : db.categories c = true := by
      rcases h.category with ⟨c', hc', hcat⟩ | ⟨hnone, -⟩
      · rw [hc'] at hc
        cases hc
        exact hcat
      · rw [hnone] at hc
        cases hc
    have hnil := entries_nil_iff.mpr h.answers
    have hret : Svc.Returns (updateSubmission env user submissionId d.toUpdateRequest) db () _ :=
      (returns_phone henv hmay).mpr ⟨h.draft, hacc, hcat, hne, hnil, rfl⟩
    refine ⟨_, ⟨db.newRow env submissionId d.toUpdateRequest s,
      db.flushed submissionId d.scoreEntries⟩, Svc.request_of_returns hret,
      returns_getSubmission.mpr ⟨hmay.updated, rfl, rfl⟩, fun rows hperm => ?_⟩
    obtain ⟨overall, band, heq⟩ := phone_row db submissionId s henv hnil
    rw [sameForm_ofServer_iff, heq]
    refine ⟨?_, (year_shown_iff held.year hyears).mpr h.year,
      fun c => (shows_iff (hne c)).mpr ⟨hstore c, h.cleared c⟩, h.answers, fun c => ?_⟩
    · rcases h.category with ⟨c, hc, -⟩ | ⟨hnone, hs⟩
      · show d.categoryId.or s.categoryId = d.categoryId
        rw [hc]
        rfl
      · show d.categoryId.or s.categoryId = d.categoryId
        rw [hnone, hs]
        rfl
    · refine (scores_saved_iff held.references c).mpr ⟨fun q hq => ?_, h.unscored c⟩ rows hperm
      obtain ⟨hknown, -, hdec, hothers⟩ := h.scores c q hq
      exact ⟨hknown, hdec, hothers⟩

/-- **The round trip of a draft.** -/
theorem draft_roundTrip_iff (henv : env.jsonb (.list []) = some (.list []))
    (hmay : MayWrite db user submissionId s) (held : Held env db submissionId s) :
    (NoEditKeeps env db user submissionId s ↔
        (s.status = .draft → NothingToLose db submissionId s)) ∧
      ∀ d, Saved env db user submissionId d ↔ Savable env db submissionId s d :=
  ⟨noEdit_iff henv hmay held, fun _ => saved_iff henv hmay held⟩

/-! ## Two drafts -/

/-- A draft of user 7 with a score for the first of two components. -/
def scoredOnce : DraftDb where
  submissions := Store.empty.create (SubmissionRow.started 7)
  scores := Store.empty.create ⟨0, 0, 2, 50, none⟩
  components c := if c < 2 then some 50 else none
  categories c := c = 3

/-- Its draft on the phone, with a category, a make and two scores put in. -/
def typedDraft : DraftSubmission ℚ :=
  let shown := DraftSubmission.ofServer exactArith ⟨SubmissionRow.started 7, scoredOnce.scoresOf 0⟩
  { shown with
    categoryId := some 3
    make := "Case"
    componentScores := (shown.componentScores.insert 0 4).insert 1 (7 / 2) }

theorem scoredOnce_score {c k : ℕ} {cs : ComponentScore}
    (h : HasScore (scoredOnce.scoresOf 0) c k cs) :
    c = 0 ∧ k = 0 ∧ cs = ⟨0, 0, 2, 50, none⟩ := by
  obtain ⟨hk, rfl⟩ := Store.get?_create_empty.mp (Store.mem_select.mp h.1).1
  exact ⟨h.2.symm, hk, rfl⟩

theorem scoredOnce_held : Held plainDraftEnv scoredOnce 0 (SubmissionRow.started 7) := by
  refine ⟨fun c h => ?_, fun y h => ?_, fun c t h => ?_, fun k cs h => ?_, fun k cs h => ?_⟩
  · cases h
  · cases h
  · cases h
  · obtain ⟨-, -, rfl⟩ := scoredOnce_score ⟨h, rfl⟩
    exact ⟨by norm_num, by decide +kernel⟩
  · obtain ⟨-, rfl⟩ := Store.get?_create_empty.mp h
    exact Option.some_ne_none _

theorem typedDraft_lookup (c : ℕ) : typedDraft.componentScores.lookup c =
    if c = 1 then some (7 / 2) else if c = 0 then some 4 else none := by
  by_cases h1 : c = 1
  · rw [if_pos h1, h1]
    exact AList.lookup_insert _
  · rw [if_neg h1]
    refine (AList.lookup_insert_ne h1).trans ?_
    by_cases h0 : c = 0
    · rw [if_pos h0, h0]
      exact AList.lookup_insert _
    · rw [if_neg h0]
      refine (AList.lookup_insert_ne h0).trans ?_
      exact (AList.lookup_insert_ne h0).trans (AList.lookup_empty c)

theorem typedDraft_saved : Saved plainDraftEnv scoredOnce ⟨7, false⟩ 0 typedDraft := by
  refine ((draft_roundTrip_iff rfl ⟨rfl, rfl, .inr rfl⟩ scoredOnce_held).2 typedDraft).mpr
    ⟨rfl, .inl ⟨3, rfl, rfl⟩, .inr ⟨rfl, rfl⟩, fun c t ht => ?_, fun c _ => ?_,
      fun p => AList.lookup_empty p, fun c q hq => ?_, fun c hc k cs h => ?_⟩
  · cases c
    case make =>
      obtain rfl : "Case" = t := Option.some_inj.mp ht
      refine ⟨rfl, fun n hn => ?_⟩
      cases hn
      decide
    all_goals cases ht
  · cases c
    all_goals rfl
  · rw [typedDraft_lookup] at hq
    have hwritten : ∀ k cs, HasScore (scoredOnce.scoresOf 0) c k cs →
        existingByComponent (scoredOnce.scoresOf 0) c = some k := by
      intro k cs h
      obtain ⟨rfl, rfl, -⟩ := scoredOnce_score h
      decide +kernel
    split_ifs at hq with h1 h0
    · obtain rfl := Option.some.inj hq
      exact ⟨by subst h1; decide, by norm_num, by decide +kernel,
        fun k cs h hne => absurd (hwritten k cs h) hne⟩
    · obtain rfl := Option.some.inj hq
      exact ⟨by subst h0; decide, by norm_num, by decide +kernel,
        fun k cs h hne => absurd (hwritten k cs h) hne⟩
  · rw [typedDraft_lookup] at hc
    obtain ⟨rfl, -, -⟩ := scoredOnce_score h
    exact absurd hc (by decide)

/-- The draft on the server, with the make. -/
def caseRow : SubmissionRow :=
  { SubmissionRow.started 7 with text := fun c => if c = .make then some "Case" else none }

def caseDraft : DraftDb := { oneDraft with submissions := Store.empty.create caseRow }

theorem caseDraft_held : Held plainDraftEnv caseDraft 0 caseRow := by
  refine ⟨fun c h => ?_, fun y h => ?_, fun c t h => ?_, fun k cs h => ?_, oneDraft_references⟩
  · cases h
  · cases h
  · have ht : (if c = .make then some "Case" else none) = some t := h
    split_ifs at ht with hc
    subst hc
    cases ht
    decide +kernel
  · cases h

/-- The make is cleared on the form, and stays on the server. -/
def clearedDraft : DraftSubmission ℚ :=
  { DraftSubmission.ofServer exactArith ⟨caseRow, []⟩ with make := "" }

theorem clearedDraft_not_saved :
    MayWrite caseDraft ⟨7, false⟩ 0 caseRow ∧ Held plainDraftEnv caseDraft 0 caseRow ∧
      ¬ NoEditKeeps plainDraftEnv caseDraft ⟨7, false⟩ 0 caseRow ∧
      ¬ Saved plainDraftEnv caseDraft ⟨7, false⟩ 0 clearedDraft := by
  have hmay : MayWrite caseDraft ⟨7, false⟩ 0 caseRow := ⟨rfl, rfl, .inr rfl⟩
  refine ⟨hmay, caseDraft_held, fun h => ?_, fun h => ?_⟩
  · -- the answers were null and are now an empty list
    have hlose := (noEdit_iff rfl hmay caseDraft_held).mp h rfl
    cases hlose.1
  · have hblank : "Case" = "" := ((saved_iff rfl hmay caseDraft_held).mp h).cleared .make rfl
    exact absurd hblank (by decide)

end TempleConsign
