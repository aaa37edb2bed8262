import TempleConsign.PhoneDraft

/-!
# The score on the phone and on the server

The form shows the score that `recalculateScore` computes; a `PATCH` stores the
one of `calculate_overall`. The server took new labels and thresholds for its
bands, the phone kept the old ones. `toUpdateRequest` sends the scores in every
`PATCH`, so the server always stores a label of its own.

Results:
* `updateSubmission_band`: the label that a `PATCH` of the phone stores.
* `scores_never_agree`: for no draft does the phone show what the server stores,
  whatever it showed before.
-/

namespace TempleConsign

open ServiceLib

/-! ## Agreement of the scores -/

variable {F : Type}

/-- The phone shows the score and the band of the row. -/
structure ScoresAgree (A : FloatArith F) (shown : ShownScore F) (s : SubmissionRow) : Prop where
  overall : s.overallScore.map A.ofDecimal = some shown.overallScore
  band : s.scoreBand = some shown.scoreBand

/-- After a `PATCH` of the draft that left `db'`, the form shows what is stored,
    whatever it showed before it calculated. -/
def FormAgrees (A : FloatArith F) (config : List (ConfigComponent F)) (d : DraftSubmission F)
    (db' : DraftDb) (submissionId : ℕ) : Prop :=
  ∃ s, db'.submissions.get? submissionId = some s ∧
    ∀ before,
      ScoresAgree A (DraftSubmission.recalculated A config { d with shown := before }).shown s

/-! ## The stored band -/

variable {env : DraftEnv F} {db db' : DraftDb} {user : DraftUser} {submissionId : ℕ}
  {d : DraftSubmission F}

/-- A `PATCH` of the phone stores a label of the server. -/
theorem updateSubmission_band {s : SubmissionRow}
    (h : Svc.Returns (updateSubmission env user submissionId d.toUpdateRequest) db () db')
    (hrow : db'.submissions.get? submissionId = some s) :
    ∃ band ∈ scoreBands.map Prod.snd, s.scoreBand = some band := by
  unfold updateSubmission at h
  rw [Svc.returns_require_bind, Drafts.returns_updateDraft] at h
  obtain ⟨-, -, -, -, rfl⟩ := h
  have hget : (db.submissions.modify submissionId fun s =>
      db.scored env submissionId d.toUpdateRequest.componentScores
        (d.toUpdateRequest.apply env s)).get? submissionId = some s := hrow
  rw [Store.get?_modify_self] at hget
  obtain ⟨s0, -, rfl⟩ := Option.map_eq_some_iff.mp hget
  exact ⟨_, calculateOverall_band env.arith _, rfl⟩

/-- Where the phone agrees, it has not calculated. -/
theorem stops_of_agree {A : FloatArith F} {config : List (ConfigComponent F)} {s : SubmissionRow}
    (hband : ∃ band ∈ scoreBands.map Prod.snd, s.scoreBand = some band)
    (h : ScoresAgree A (d.recalculated A config).shown s) :
    StopsRecalculation A (d.categoryId.map (componentsFor config)) := by
  obtain ⟨band, hmem, hs⟩ := hband
  by_contra hstops
  have hphone := recalculateScore_band A
    (fun c => (d.componentScores.lookup c).map A.ofDecimal) d.shown hstops
  have hsame : band = (d.recalculated A config).shown.scoreBand :=
    Option.some_inj.mp (hs.symm.trans h.band)
  exact bands_disjoint hmem (hsame ▸ hphone)

/-- **The phone and the server never agree.** They calculate different bands for
    every draft; where the weights stop the phone it shows what it showed
    before. -/
theorem scores_never_agree (config : List (ConfigComponent F))
    (h : Svc.Returns (updateSubmission env user submissionId d.toUpdateRequest) db () db') :
    ¬ FormAgrees env.arith config d db' submissionId ∧
      ∀ s, db'.submissions.get? submissionId = some s →
        ScoresAgree env.arith (d.recalculated env.arith config).shown s →
        StopsRecalculation env.arith (d.categoryId.map (componentsFor config)) := by
  refine ⟨?_, fun s hrow => stops_of_agree (updateSubmission_band h hrow)⟩
  rintro ⟨s, hrow, hagree⟩
  have hband := updateSubmission_band h hrow
  -- what the form may have shown: its own label for a draft without a score
  have hfirst := hagree ⟨env.arith.ofDecimal 0, "salvage", false⟩
  have hstops := stops_of_agree hband hfirst
  obtain ⟨band, hmem, hs⟩ := hband
  have hshown := hfirst.band
  rw [DraftSubmission.recalculated, recalculateScore_of_stops env.arith hstops, hs] at hshown
  have hsalvage : band = "salvage" := Option.some_inj.mp hshown
  rw [hsalvage] at hmem
  exact bands_disjoint hmem (by decide)

/-! ## Two components -/

/-- Two components of a category, each with half of the weight. -/
def halves : List (ConfigComponent ℚ) := [⟨0, 3, 0, 50⟩, ⟨1, 3, 1, 50⟩]

/-- A draft of the category with both scored 4. -/
def scoredDraft : DraftSubmission ℚ :=
  { DraftSubmission.ofServer exactArith ⟨SubmissionRow.started 7, []⟩ with
    categoryId := some 3
    componentScores := ((∅ : AList fun _ : ℕ => ℚ).insert 0 4).insert 1 4 }

/-- The draft on the server before its first `PATCH`. -/
def halvesDb : DraftDb where
  submissions := Store.empty.create (SubmissionRow.started 7)
  scores := Store.empty
  components c := if c < 2 then some 50 else none
  categories c := c = 3

theorem scoredDraft_saved :
    Svc.Returns (updateSubmission plainDraftEnv ⟨7, false⟩ 0 scoredDraft.toUpdateRequest)
      halvesDb () (halvesDb.updated plainDraftEnv 0 scoredDraft.toUpdateRequest) := by
  unfold updateSubmission
  rw [Svc.returns_require_bind, Drafts.returns_updateDraft]
  exact ⟨by decide +kernel, ⟨_, ⟨rfl, rfl, .inr rfl⟩, rfl⟩, by decide +kernel,
    by decide +kernel, rfl⟩

theorem scoredDraft_disagrees :
    ¬ FormAgrees exactArith halves scoredDraft
      (halvesDb.updated plainDraftEnv 0 scoredDraft.toUpdateRequest) 0 :=
  (scores_never_agree halves scoredDraft_saved).1

/-- The server stores 4.00 with its own label; the phone shows 4.00 with another. -/
theorem scoredDraft_bands :
    Svc.Returns (updateSubmission plainDraftEnv ⟨7, false⟩ 0 scoredDraft.toUpdateRequest)
        halvesDb () (halvesDb.updated plainDraftEnv 0 scoredDraft.toUpdateRequest) ∧
      (((halvesDb.updated plainDraftEnv 0 scoredDraft.toUpdateRequest).submissions.get? 0).map
        fun s => (s.overallScore, s.scoreBand)) =
          some (some 4, some "Strong resale candidate") ∧
      (scoredDraft.recalculated exactArith halves).shown.overallScore = 4 ∧
      (scoredDraft.recalculated exactArith halves).shown.scoreBand = "good" := by
  exact ⟨scoredDraft_saved, by decide +kernel, by decide +kernel, by decide +kernel⟩

end TempleConsign
