import TempleConsign.Lifecycle

/-!
# One approved submission for each record

The price change and the contract dispatch read "the" approved submission of a
record with `scalar_one_or_none`. A record can get a new draft after every
submission, and `approve` looks only at the submission it is given.

Results:
* `step_submissions`: what a request does to the submissions.
* `step_oneApproved_iff`: what a request needs to keep approved submissions apart.
* `one_approved_iff`: a run keeps them apart exactly when every approval is for
  a record without another approved submission.
-/

namespace TempleConsign

open ServiceLib

/-! ## What requests do to the submissions -/

/-- An update that approves nothing. -/
def KeepsUnapproved (s s' : AppraisalSubmission) : Prop :=
  s'.recordId = s.recordId ∧ s'.deletedAt = s.deletedAt ∧
    (s'.status = .approved → s.status = .approved)

/-- The checks that `approve` makes on submission `id`. -/
def CanApprove (db : Db) (id : ℕ) (body : ApprovalDecision) (s : AppraisalSubmission) : Prop :=
  (db.submissions.get? id = some s ∧ s.deletedAt.isNone = true) ∧ s.status = .submitted ∧
    (s.holdForTitleReview = false ∨ body.titleReviewConfirmed = true) ∧
    ∃ record, db.records.get? s.recordId = some record ∧ record.status ≠ .approvedPendingEsign

/-- How the submissions of `db'` come from those of `db`: as they were, with a
    new draft, with an update that approves nothing, or with an approval. -/
inductive SubmissionsMove (op : Op) (db db' : Db) : Prop
  | same (h : db'.submissions = db.submissions)
  | drafted (recordId appraiser : ℕ)
      (h : db'.submissions = db.submissions.create (newDraft recordId appraiser))
  | updated (id : ℕ) (f : AppraisalSubmission → AppraisalSubmission)
      (hf : ∀ s, db.submissions.get? id = some s → KeepsUnapproved s (f s))
      (h : db'.submissions = db.submissions.modify id f)
  | approved (now : ℤ) (providerOk : Bool) (user id : ℕ) (body : ApprovalDecision)
      (s : AppraisalSubmission) (hop : op = .approve now providerOk user id body)
      (hs : CanApprove db id body s)
      (h : db'.submissions = db.submissions.modify id (approvedRow now user body))

theorem setPrice_move {op : Op} {db db' : Db} {submission : Option (ℕ × AppraisalSubmission)}
    {price : Option ℚ} (h : db'.submissions = (db.setPrice submission price).submissions) :
    SubmissionsMove op db db' := by
  match submission, price with
  | none, _ => exact .same h
  | some _, none => exact .same h
  | some (id, _), some p =>
    exact .updated id (fun s => { s with suggestedConsignmentPrice := some p })
      (fun _ _ => ⟨rfl, rfl, fun hs => hs⟩) h

theorem SubmissionsMove.of_accepted {env : Env} {db db' : Db} {op : Op}
    (h : Accepted env db op db') : SubmissionsMove op db db' := by
  cases hw : op.writesSubmissions with
  | false => exact .same ((effect_of_accepted h).1.submissions hw)
  | true =>
    unfold Accepted at h
    cases op with simp only [Op.service, Svc.returns_map] at h
    | createDraft appraiser recordId =>
      obtain ⟨_, h, -⟩ := h
      obtain ⟨-, -, -, rfl⟩ := returns_createDraft.mp h
      exact .drafted recordId appraiser rfl
    | updateDraft user id body =>
      obtain ⟨_, -, -, -, rfl⟩ := returns_updateDraft.mp h
      exact .updated id (applyScalarFields body) (fun _ _ => ⟨rfl, rfl, fun hs => hs⟩) rfl
    | submit now appraiser id flags missing =>
      obtain ⟨_, -, -, -, -, ⟨_, -, -, rfl⟩ | ⟨-, rfl⟩⟩ := returns_submit.mp h
      all_goals
        exact .updated id (submittedRow now flags)
          (fun _ _ => ⟨rfl, rfl, fun hs => by cases hs⟩) rfl
    | approve now providerOk user id body =>
      obtain ⟨_, h, -⟩ := h
      obtain ⟨s, hs, hsub, hhold, record, hr, hst, -, rfl⟩ := returns_approve.mp h
      refine .approved now providerOk user id body s rfl ⟨hs, hsub, hhold, record, hr, hst⟩ ?_
      rw [dispatch_submissions, Db.approved, transition_submissions]
    | reject user id notes sendBack =>
      obtain ⟨_, h, -⟩ := h
      obtain ⟨_, -, -, _, -, -, -, -, rfl⟩ := returns_reject.mp h
      exact .updated id (rejectedRow notes) (fun _ _ => ⟨rfl, rfl, fun hs => by cases hs⟩) rfl
    | approvePriceChange now user changeRequestId =>
      obtain ⟨change, -, -, -, submission, -, rfl⟩ := returns_approvePriceChange.mp h
      exact setPrice_move rfl
    | _ => cases hw

theorem step_submissions (env : Env) (db : Db) (op : Op) :
    SubmissionsMove op db (step env db op) := by
  rcases step_cases env db op with h | ⟨-, envelopes, h⟩
  · exact .of_accepted h
  · exact .same (by rw [h])

/-- An approval that passes its checks is written. -/
theorem step_approve {env : Env} {db : Db} {now : ℤ} {providerOk : Bool} {user id : ℕ}
    {body : ApprovalDecision} {s : AppraisalSubmission} (hs : CanApprove db id body s) :
    (step env db (.approve now providerOk user id body)).submissions =
      db.submissions.modify id (approvedRow now user body) := by
  obtain ⟨hlive, hsub, hhold, record, hr, hst⟩ := hs
  have hret : Svc.Returns (approve now providerOk user id body) db
      (approvedRow now user body s) _ :=
    returns_approve.mpr ⟨s, hlive, hsub, hhold, record, hr, hst, rfl, rfl⟩
  have hacc : Accepted env db (.approve now providerOk user id body) _ :=
    Svc.returns_map.mpr ⟨_, hret, rfl⟩
  rw [step_of_accepted hacc, dispatch_submissions, Db.approved, transition_submissions]

/-! ## At most one approved submission -/

def IsApproved (s : AppraisalSubmission) : Prop := s.deletedAt = none ∧ s.status = .approved

/-- Two submissions are not both approved for one record. -/
def ApprovedApart (a b : AppraisalSubmission) : Prop :=
  IsApproved a → IsApproved b → a.recordId ≠ b.recordId

theorem ApprovedApart.symm (a b : AppraisalSubmission) (h : ApprovedApart a b) :
    ApprovedApart b a :=
  fun hb ha => Ne.symm (h ha hb)

/-- Every record has at most one approved submission, and the readers that fetch
    it do not raise. -/
structure OneApproved (db : Db) : Prop where
  unique : db.submissions.Pairwise ApprovedApart
  readers : ∀ recordId,
    Store.scalarOneOrNone (db.submissions.select (isApprovedFor recordId)) ≠ none ∧
    Store.scalarOneOrNone (db.submissions.select (isLiveApprovedFor recordId)) ≠ none

/-- No request deletes a submission. -/
def NoneDeleted (db : Db) : Prop :=
  ∀ id s, db.submissions.get? id = some s → s.deletedAt = none

variable {db : Db}

theorem step_noneDeleted (env : Env) (op : Op) (h : NoneDeleted db) :
    NoneDeleted (step env db op) := by
  have hmod : ∀ id f, (∀ s, db.submissions.get? id = some s → (f s).deletedAt = s.deletedAt) →
      (step env db op).submissions = db.submissions.modify id f → NoneDeleted (step env db op) := by
    intro id f hf hsub k s hk
    rw [hsub, Store.get?_modify] at hk
    split_ifs at hk with hkid
    · obtain ⟨s0, hs0, rfl⟩ := Option.map_eq_some_iff.mp hk
      rw [hkid] at hs0
      rw [hf s0 hs0]
      exact h id s0 hs0
    · exact h k s hk
  cases step_submissions env db op with
  | same hs => intro k s hk; rw [hs] at hk; exact h k s hk
  | drafted recordId appraiser hs =>
    intro k s hk
    rw [hs, Store.get?_create] at hk
    split_ifs at hk
    · cases hk; rfl
    · exact h k s hk
  | updated id f hf hs => exact hmod id f (fun s hk => (hf s hk).2.1) hs
  | approved now ok user id body s hop hcan hs =>
    exact hmod id (approvedRow now user body) (fun _ _ => rfl) hs

/-- Without deleted submissions the two readers raise exactly when a record has
    two approved ones. -/
theorem oneApproved_iff (hd : NoneDeleted db) :
    OneApproved db ↔ db.submissions.Pairwise ApprovedApart := by
  refine ⟨fun h => h.unique, fun h => ⟨h, fun recordId => ?_⟩⟩
  have huniq : ∀ k k' r r', db.submissions.get? k = some r → db.submissions.get? k' = some r' →
      r.recordId = recordId → r.status = .approved → r'.recordId = recordId →
      r'.status = .approved → k = k' := by
    intro k k' r r' hk hk' h1 h2 h3 h4
    by_contra hne
    exact h k k' r r' hne hk hk' ⟨hd k r hk, h2⟩ ⟨hd k' r' hk', h4⟩ (h1.trans h3.symm)
  constructor
  · rw [Store.scalar_select_ne_none_iff]
    intro k k' r r' hk hp hk' hp'
    simp only [isApprovedFor, Bool.and_eq_true, decide_eq_true_eq] at hp hp'
    exact huniq k k' r r' hk hk' hp.1 hp.2 hp'.1 hp'.2
  · rw [Store.scalar_select_ne_none_iff]
    intro k k' r r' hk hp hk' hp'
    simp only [isLiveApprovedFor, Bool.and_eq_true, decide_eq_true_eq] at hp hp'
    exact huniq k k' r r' hk hk' hp.1.1 hp.1.2 hp'.1.1 hp'.1.2

/-- An approval that passes its checks is for a record without an approved
    submission. -/
def ApprovesAlone (db : Db) : Op → Prop
  | .approve _ _ _ id body => ∀ s, CanApprove db id body s →
      ∀ k s', db.submissions.get? k = some s' → IsApproved s' → s'.recordId ≠ s.recordId
  | _ => True

/-- What a request needs to keep approved submissions apart. -/
theorem step_oneApproved_iff (env : Env) (op : Op) (hd : NoneDeleted db) (h1 : OneApproved db) :
    OneApproved (step env db op) ↔ ApprovesAlone db op := by
  have hp := (oneApproved_iff hd).mp h1
  rw [oneApproved_iff (step_noneDeleted env op hd)]
  -- an approval that does not pass its checks changes nothing
  by_cases happ : ∃ now ok user id body s,
      op = .approve now ok user id body ∧ CanApprove db id body s
  · obtain ⟨now, ok, user, id, body, s, rfl, hcan⟩ := happ
    have ⟨⟨hs, hlive⟩, hsub, _, _⟩ := hcan
    rw [step_approve hcan, Store.pairwise_modify_iff ApprovedApart.symm hs hp]
    have happroved : IsApproved (approvedRow now user body s) :=
      ⟨Option.isNone_iff_eq_none.mp hlive, rfl⟩
    constructor
    · intro h s' hcan' k t hk ht heq
      obtain rfl : s = s' := Option.some.inj (hs.symm.trans hcan'.1.1)
      by_cases hkid : k = id
      · rw [hkid, hs] at hk
        cases hk
        have hst := ht.2
        rw [hsub] at hst
        cases hst
      · exact h k t hkid hk happroved ht heq.symm
    · intro h k t _ hk _ ht heq
      exact h s hcan k t hk ht heq.symm
  · have hnot : ApprovesAlone db op := by
      cases op with
      | approve now ok user id body =>
        exact fun s hcan => absurd ⟨now, ok, user, id, body, s, rfl, hcan⟩ happ
      | _ => trivial
    refine ⟨fun _ => hnot, fun _ => ?_⟩
    cases step_submissions env db op with
    | same hs => rw [hs]; exact hp
    | drafted recordId appraiser hs =>
      rw [hs, Store.pairwise_create_iff ApprovedApart.symm hp]
      intro k t _ ha
      cases ha.2
    | updated id f hf hs =>
      rw [hs]
      refine hp.modify ApprovedApart.symm fun a b ha hab hfa hb => ?_
      obtain ⟨hrec, hdel, happr⟩ := hf a ha
      rw [hrec]
      exact hab ⟨hdel ▸ hfa.1, happr hfa.2⟩ hb
    | approved now ok user id body s hop hcan hs =>
      exact absurd ⟨now, ok, user, id, body, s, hop, hcan⟩ happ

/-- **A run keeps at most one approved submission for each record exactly when
    every approval is for a record without one.** -/
theorem one_approved_iff (env : Env) (users : Store User) (customers : Store Customer)
    (ops : List Op) :
    AllStates (step env) OneApproved (Db.init users customers) ops ↔
      AllSteps (step env) ApprovesAlone (Db.init users customers) ops := by
  have hd : NoneDeleted (Db.init users customers) := fun id s h => by
    simp [Db.init] at h
  refine allStates_iff_allSteps (fun _ op hi _ => step_noneDeleted env op hi)
    (fun _ op hi hp => step_oneApproved_iff env op hi hp) hd ?_ ops
  exact (oneApproved_iff hd).mpr Store.pairwise_empty

/-! ## A second approval -/

/-- A record is appraised and approved, and then appraised and approved again. -/
def secondApprovalRun : List Op :=
  [.submitIntake { customerId := 0 }, .createDraft 0 0, .submit 0 0 0 {} [],
    .approve 0 true 1 0 { purchaseOffer := 1000, consignmentPrice := 1200 }, .createDraft 0 0,
    .submit 0 0 1 {} [], .approve 0 true 1 1 { purchaseOffer := 900, consignmentPrice := 1100 }]

/-- The readers of the approved submission raise after a second approval. -/
theorem second_approval_breaks_readers :
    ¬ ∀ (env : Env) (users : Store User) (customers : Store Customer) (ops : List Op),
      OneApproved (run (step env) (Db.init users customers) ops) := by
  intro h
  have hr := ((h sampleEnv sampleUsers sampleCustomers secondApprovalRun).readers 0).2
  revert hr
  decide

end TempleConsign
