import TempleConsign.ApprovedUnique

/-!
# Manager re-approval of a price change

`submit_change_request` flags a request whose proposed price is too far from the
approved one; `approve_price_change` is the manager's way to resolve a flagged
request. `resolve_change_request` does not look at the flag, and
`approve_price_change` does not look at the request's type.

Results:
* `returns_submitChangeRequest_flagged`: a flagged request has a price, and its
  record an approved submission.
* `reapprovalSafe_iff`: what a request needs to respect the manager's approval.
* `reapproval_iff`: a run respects it exactly when all its requests meet that.
-/

namespace TempleConsign

open ServiceLib

variable {env : Env} {db db' : Db} {op : Op}

/-! ## Flagged requests -/

theorem returns_evaluate_flagged {threshold : PriceThreshold} {change : ChangeRequest}
    (h : Svc.Returns (evaluate threshold change) db true db') :
    (∃ price, change.proposedConsignmentPrice = some price) ∧
      ∃ k s, db.submissions.get? k = some s ∧ s.recordId = change.recordId ∧
        s.status = .approved := by
  unfold evaluate at h
  split at h
  · have := (Svc.returns_pure.mp h).1
    cases this
  · next price hprice =>
    simp only [returns_selectOne_bind] at h
    obtain ⟨o, ho, h⟩ := h
    cases o with
    | none =>
      have := (Svc.returns_pure.mp h).1
      cases this
    | some ks =>
      obtain ⟨⟨hk, hp⟩, -⟩ := Store.scalar_select_some_iff.mp ho
      simp only [Bool.and_eq_true, decide_eq_true_eq] at hp
      exact ⟨⟨price, hprice⟩, ks.1, ks.2, hk, hp.1, hp.2⟩

/-- A request that comes in flagged proposes a price for a record with an
    approved submission. -/
theorem returns_submitChangeRequest_flagged {threshold : PriceThreshold} {customer recordId : ℕ}
    {requestType : String} {customerNotes : Option String} {price : Option ℚ} {u : Unit}
    (h : Svc.Returns
      (submitChangeRequest threshold customer recordId requestType customerNotes price)
      db u db') :
    ∃ change, change.status = .pending ∧
      { db with changeRequests := db.changeRequests.create change } = db' ∧
      (change.requiresManagerReapproval = true →
        (∃ p, change.proposedConsignmentPrice = some p) ∧
          ∃ k s, db.submissions.get? k = some s ∧ s.recordId = change.recordId ∧
            s.status = .approved) := by
  unfold submitChangeRequest at h
  obtain ⟨record, db1, h1, h⟩ := Svc.returns_bind.mp h
  obtain ⟨-, rfl⟩ := returns_getRecordForUser h1
  simp only [Svc.returns_expect_bind, Svc.returns_get_bind, Svc.returns_require_bind] at h
  obtain ⟨kind, -, -, h⟩ := h
  obtain ⟨flagged, db2, h2, h⟩ := Svc.returns_bind.mp h
  obtain rfl := returns_evaluate h2
  refine ⟨_, rfl, Svc.returns_modify.mp h, fun hflag => ?_⟩
  obtain rfl : flagged = true := hflag
  exact returns_evaluate_flagged h2

/-- A submission of record `k` is approved. -/
def HasApproved (db : Db) (recordId : ℕ) : Prop :=
  ∃ k s, db.submissions.get? k = some s ∧ s.recordId = recordId ∧ s.status = .approved

/-- `setPrice` changes a price only. -/
theorem setPrice_keeps (submission : Option (ℕ × AppraisalSubmission)) (price : Option ℚ) {k : ℕ}
    {s : AppraisalSubmission} (hk : db.submissions.get? k = some s) :
    ∃ s', (db.setPrice submission price).submissions.get? k = some s' ∧
      s'.recordId = s.recordId ∧ s'.status = s.status := by
  match submission, price with
  | none, _ => exact ⟨s, hk, rfl, rfl⟩
  | some _, none => exact ⟨s, hk, rfl, rfl⟩
  | some (id, _), some p =>
    simp only [Db.setPrice, Store.get?_modify, hk]
    split_ifs
    · exact ⟨_, rfl, rfl, rfl⟩
    · exact ⟨s, rfl, rfl, rfl⟩

/-- No request takes an approval back. -/
theorem accepted_hasApproved (h : Accepted env db op db') {recordId : ℕ}
    (ha : HasApproved db recordId) : HasApproved db' recordId := by
  obtain ⟨k, s, hk, hrec, hs⟩ := ha
  -- an update leaves the row of an approved submission approved
  have hmod : ∀ id f, db'.submissions = db.submissions.modify id f →
      (k = id → (f s).recordId = s.recordId ∧ (f s).status = .approved) →
      HasApproved db' recordId := by
    intro id f hsub hf
    by_cases hkid : k = id
    · obtain ⟨h1, h2⟩ := hf hkid
      refine ⟨k, f s, ?_, h1.trans hrec, h2⟩
      rw [hsub, hkid, Store.get?_modify_self, ← hkid, hk]
      rfl
    · exact ⟨k, s, by rw [hsub, Store.get?_modify_ne _ _ hkid]; exact hk, hrec, hs⟩
  -- an update of a row in another status is about another submission
  have hother : ∀ {id s'}, db.submissions.get? id = some s' → s'.status ≠ .approved → k ≠ id := by
    rintro id s' hid hne rfl
    rw [hk] at hid
    cases hid
    exact hne hs
  cases hw : op.writesSubmissions with
  | false =>
    have hsub := (effect_of_accepted h).1.submissions hw
    exact ⟨k, s, by rw [hsub]; exact hk, hrec, hs⟩
  | true =>
    unfold Accepted at h
    cases op with simp only [Op.service, Svc.returns_map] at h
    | createDraft appraiser recordId' =>
      obtain ⟨_, h, -⟩ := h
      obtain ⟨-, -, -, rfl⟩ := returns_createDraft.mp h
      exact ⟨k, s, Store.get?_create_of_some hk, hrec, hs⟩
    | updateDraft user id body =>
      obtain ⟨s', ⟨hid, -⟩, -, hd, rfl⟩ := returns_updateDraft.mp h
      exact hmod id _ rfl fun he => absurd he (hother hid (by rw [hd]; decide))
    | submit now appraiser id flags missing =>
      obtain ⟨s', ⟨hid, -⟩, -, hd, -, ⟨_, -, -, rfl⟩ | ⟨-, rfl⟩⟩ := returns_submit.mp h
      all_goals exact hmod id _ rfl fun he => absurd he (hother hid (by rw [hd]; decide))
    | approve now providerOk user id body =>
      obtain ⟨_, h, -⟩ := h
      obtain ⟨s', ⟨hid, -⟩, hsub, -, record, -, -, -, rfl⟩ := returns_approve.mp h
      refine hmod id (approvedRow now user body) ?_ fun he =>
        absurd he (hother hid (by rw [hsub]; decide))
      rw [dispatch_submissions, Db.approved, transition_submissions]
    | reject user id notes sendBack =>
      obtain ⟨_, h, -⟩ := h
      obtain ⟨s', ⟨hid, -⟩, hsub, _, -, -, -, -, rfl⟩ := returns_reject.mp h
      exact hmod id _ rfl fun he => absurd he (hother hid (by rw [hsub]; decide))
    | approvePriceChange now user changeRequestId =>
      obtain ⟨change, -, -, -, submission, -, rfl⟩ := returns_approvePriceChange.mp h
      obtain ⟨s', hk', hrec', hs'⟩ := setPrice_keeps submission change.proposedConsignmentPrice hk
      exact ⟨k, s', hk', hrec'.trans hrec, hs'.trans hs⟩
    | _ => cases hw

theorem resolution_ne_pending {newStatus : String} {target : ChangeStatus}
    (h : resolution? newStatus = some target) : target ≠ .pending := by
  unfold resolution? at h
  split_ifs at h
  all_goals
    cases h
    decide

/-- Every pending flagged request proposes a price for a record with an approved
    submission, and no submission is deleted. -/
structure FlaggedPriced (db : Db) : Prop where
  notDeleted : NoneDeleted db
  flagged : ∀ id c, db.changeRequests.get? id = some c → c.status = .pending →
    c.requiresManagerReapproval = true →
    (∃ price, c.proposedConsignmentPrice = some price) ∧ HasApproved db c.recordId

theorem step_flaggedPriced (env : Env) (op : Op) (hi : FlaggedPriced db) :
    FlaggedPriced (step env db op) := by
  refine ⟨step_noneDeleted env op hi.notDeleted, ?_⟩
  rcases step_cases env db op with hacc | ⟨-, envelopes, heq⟩
  · -- a request that was pending before keeps its price and its record
    have hkeep : ∀ {id c}, db.changeRequests.get? id = some c → c.status = .pending →
        c.requiresManagerReapproval = true →
        (∃ price, c.proposedConsignmentPrice = some price) ∧
          HasApproved (step env db op) c.recordId := by
      intro id c hc hp hf
      obtain ⟨hprice, happ⟩ := hi.flagged id c hc hp hf
      exact ⟨hprice, accepted_hasApproved hacc happ⟩
    -- and one that is closed is no longer pending
    have hclose : ∀ cid f, (∀ c : ChangeRequest, (f c).status ≠ .pending) →
        (step env db op).changeRequests = db.changeRequests.modify cid f →
        ∀ id c, (step env db op).changeRequests.get? id = some c → c.status = .pending →
        c.requiresManagerReapproval = true →
        (∃ price, c.proposedConsignmentPrice = some price) ∧
          HasApproved (step env db op) c.recordId := by
      intro cid f hf heq id c hc hp hflag
      rw [heq, Store.get?_modify] at hc
      split_ifs at hc
      · obtain ⟨c0, -, rfl⟩ := Option.map_eq_some_iff.mp hc
        exact absurd hp (hf c0)
      · exact hkeep hc hp hflag
    cases hw : op.writesChangeRequests with
    | false =>
      rw [(tableFrame_of_accepted hacc).changeRequests hw]
      exact fun id c hc hp hf => hkeep hc hp hf
    | true =>
      have hret := hacc
      unfold Accepted at hret
      cases op with simp only [Op.service] at hret
      | submitChangeRequest customer recordId requestType customerNotes price =>
        obtain ⟨change, -, hdb, hflag⟩ := returns_submitChangeRequest_flagged hret
        intro id c hc hp hf
        rw [← hdb, Store.get?_create] at hc
        split_ifs at hc
        · cases hc
          obtain ⟨hprice, happ⟩ := hflag hf
          exact ⟨hprice, accepted_hasApproved hacc happ⟩
        · exact hkeep hc hp hf
      | resolveChangeRequest now resolver cid newStatus notes =>
        obtain ⟨target, ht, c, -, -, _, -, -, h⟩ := returns_resolveChangeRequest.mp hret
        have htarget : target ≠ .pending := resolution_ne_pending ht
        refine hclose cid (resolvedRow now resolver target notes)
          (fun _ => htarget) ?_
        rcases h with ⟨-, -, -, hdb⟩ | ⟨-, hdb⟩
        · rw [← hdb, transition_changeRequests]
        · rw [← hdb]
      | approvePriceChange now user cid =>
        obtain ⟨change, -, -, -, submission, -, hdb⟩ := returns_approvePriceChange.mp hret
        refine hclose cid (reapprovedRow now user) (fun _ => ?_) (by rw [← hdb])
        show ChangeStatus.resolved ≠ .pending
        decide
      | _ => cases hw
  · rw [heq]
    exact hi.flagged

/-! ## The manager's approval -/

/-- The request `id` becomes resolved between `db` and `db'`. -/
def BecomesResolved (db db' : Db) (id : ℕ) (c : ChangeRequest) : Prop :=
  db.changeRequests.get? id = some c ∧ c.status ≠ .resolved ∧
    ∃ c', db'.changeRequests.get? id = some c' ∧ c'.status = .resolved

/-- What one request may do to change requests: a flagged one becomes resolved
    only through `approve_price_change`, which writes its price to the approved
    submission of the record, and a withdrawal that becomes resolved leaves the
    record withdrawn. -/
structure ReapprovalSafe (env : Env) (db : Db) (op : Op) : Prop where
  managerOnly : ∀ id c, BecomesResolved db (step env db op) id c →
    c.requiresManagerReapproval = true → ∃ now user, op = .approvePriceChange now user id
  priced : ∀ now user id c, op = .approvePriceChange now user id →
    BecomesResolved db (step env db op) id c →
    ∃ price k s, c.proposedConsignmentPrice = some price ∧
      (step env db op).submissions.get? k = some s ∧
      isLiveApprovedFor c.recordId k s = true ∧ s.suggestedConsignmentPrice = some price
  withdrawn : ∀ id c, BecomesResolved db (step env db op) id c → c.requestType = .withdraw →
    (step env db op).statusOf c.recordId = some .withdrawn

/-- `resolve_change_request` resolves request `id`. -/
def CanResolve (db : Db) (id : ℕ) (newStatus : String) (c : ChangeRequest) : Prop :=
  resolution? newStatus = some .resolved ∧ db.changeRequests.get? id = some c ∧
    c.status = .pending ∧ ∃ record, db.records.get? c.recordId = some record ∧
      (customerUser db record).isSome = true ∧
      (c.requestType = .withdraw → record.status ≠ .withdrawn)

/-- `approve_price_change` resolves request `id`. -/
def CanReapprove (db : Db) (id : ℕ) (c : ChangeRequest) : Prop :=
  db.changeRequests.get? id = some c ∧ c.status = .pending ∧
    c.requiresManagerReapproval = true ∧
    Store.scalarOneOrNone (db.submissions.select (isLiveApprovedFor c.recordId)) ≠ none

/-- The request respects the manager's approval: the sales team resolves no
    flagged request, and the manager no withdrawal of a record that is not
    withdrawn yet. -/
def RespectsApproval (db : Db) : Op → Prop
  | .resolveChangeRequest _ _ id newStatus _ => ∀ c, CanResolve db id newStatus c →
    c.requiresManagerReapproval = false
  | .approvePriceChange _ _ id => ∀ c, CanReapprove db id c → c.requestType = .withdraw →
    db.statusOf c.recordId = some .withdrawn
  | _ => True

theorem BecomesResolved.of_modify {id : ℕ} {c : ChangeRequest} {i : ℕ}
    {f : ChangeRequest → ChangeRequest} (h : BecomesResolved db db' id c)
    (heq : db'.changeRequests = db.changeRequests.modify i f) :
    id = i ∧ (f c).status = .resolved := by
  obtain ⟨hc, hne, c', hc', hs⟩ := h
  rw [heq, Store.get?_modify, hc] at hc'
  split_ifs at hc' with hid
  · cases hc'
    exact ⟨hid, hs⟩
  · cases hc'
    exact absurd hs hne

/-- A request that leaves the change requests alone resolves none. -/
theorem BecomesResolved.changed {id : ℕ} {c : ChangeRequest} (h : BecomesResolved db db' id c) :
    db'.changeRequests ≠ db.changeRequests := by
  intro heq
  obtain ⟨hc, hne, c', hc', hs⟩ := h
  rw [heq, hc] at hc'
  cases hc'
  exact hne hs

/-- A request becomes resolved through one of the two services only. -/
theorem becomesResolved_cases {id : ℕ} {c : ChangeRequest}
    (h : BecomesResolved db (step env db op) id c) :
    (∃ now resolver newStatus notes, op = .resolveChangeRequest now resolver id newStatus notes ∧
      CanResolve db id newStatus c ∧
      (c.requestType = .withdraw → (step env db op).statusOf c.recordId = some .withdrawn)) ∨
    (∃ now user, op = .approvePriceChange now user id ∧ CanReapprove db id c ∧
      (step env db op).statusOf c.recordId = db.statusOf c.recordId) := by
  have hc := h.1
  rcases step_cases env db op with hacc | ⟨-, envelopes, heq⟩
  swap
  · exact absurd (by rw [heq]) h.changed
  cases hw : op.writesChangeRequests with
  | false => exact absurd ((tableFrame_of_accepted hacc).changeRequests hw) h.changed
  | true =>
    unfold Accepted at hacc
    cases op with simp only [Op.service] at hacc
    | submitChangeRequest customer recordId requestType customerNotes price =>
      obtain ⟨change, -, -, hdb⟩ := returns_submitChangeRequest hacc
      obtain ⟨-, hne, c', hc', hs⟩ := h
      rw [← hdb, Store.get?_create_of_some hc] at hc'
      cases hc'
      exact absurd hs hne
    | resolveChangeRequest now resolver cid newStatus notes =>
      obtain ⟨target, ht, c', hc', hp, record, hr, hu, hdb⟩ := returns_resolveChangeRequest.mp hacc
      have heq :
          (step env db (.resolveChangeRequest now resolver cid newStatus notes)).changeRequests =
          db.changeRequests.modify cid (resolvedRow now resolver target notes) := by
        rcases hdb with ⟨-, -, -, hdb⟩ | ⟨-, hdb⟩
        · rw [← hdb, transition_changeRequests]
        · rw [← hdb]
      obtain ⟨rfl, htarget⟩ := h.of_modify heq
      obtain rfl : target = .resolved := htarget
      rw [hc] at hc'
      cases hc'
      refine Or.inl ⟨now, resolver, newStatus, notes, rfl, ⟨ht, hc, hp, record, hr, hu, ?_⟩, ?_⟩
      · intro hw
        rcases hdb with ⟨-, -, hne, -⟩ | ⟨hno, -⟩
        · exact hne
        · exact absurd ⟨rfl, hw⟩ hno
      · intro hw
        rcases hdb with ⟨-, -, -, hdb⟩ | ⟨hno, -⟩
        · rw [← hdb]
          unfold Db.statusOf
          rw [transition_records, if_pos rfl]
          simp only [hr, Option.map_some]
        · exact absurd ⟨rfl, hw⟩ hno
    | approvePriceChange now user cid =>
      obtain ⟨change, hc', hp, hflag, submission, hsub, hdb⟩ := returns_approvePriceChange.mp hacc
      obtain ⟨rfl, -⟩ := h.of_modify (i := cid) (f := reapprovedRow now user) (by rw [← hdb])
      rw [hc] at hc'
      cases hc'
      refine Or.inr ⟨now, user, rfl, ⟨hc, hp, hflag, by rw [hsub]; simp⟩, ?_⟩
      obtain ⟨submissions, hprice⟩ := setPrice_frame db submission c.proposedConsignmentPrice
      rw [← hdb, hprice]
      rfl
    | _ => cases hw

theorem becomesResolved_of_canResolve {now : ℤ} {resolver id : ℕ} {newStatus : String}
    {notes : Option String} {c : ChangeRequest} (h : CanResolve db id newStatus c) :
    BecomesResolved db (step env db (.resolveChangeRequest now resolver id newStatus notes))
      id c := by
  obtain ⟨ht, hc, hp, record, hr, hu, hw⟩ := h
  refine ⟨hc, by rw [hp]; decide, resolvedRow now resolver .resolved notes c, ?_, rfl⟩
  have hrow : ∀ t : Store ChangeRequest, t = db.changeRequests.modify id
      (resolvedRow now resolver .resolved notes) →
      t.get? id = some (resolvedRow now resolver .resolved notes c) := by
    rintro t rfl
    rw [Store.get?_modify_self, hc]
    rfl
  by_cases hwd : c.requestType = .withdraw
  · have hacc : Accepted env db (.resolveChangeRequest now resolver id newStatus notes) _ :=
      returns_resolveChangeRequest.mpr
        ⟨.resolved, ht, c, hc, hp, record, hr, hu, Or.inl ⟨rfl, hwd, hw hwd, rfl⟩⟩
    rw [step_of_accepted hacc]
    exact hrow _ (transition_changeRequests ..)
  · have hacc : Accepted env db (.resolveChangeRequest now resolver id newStatus notes) _ :=
      returns_resolveChangeRequest.mpr
        ⟨.resolved, ht, c, hc, hp, record, hr, hu, Or.inr ⟨fun h => hwd h.2, rfl⟩⟩
    rw [step_of_accepted hacc]
    exact hrow _ rfl

/-- A price change that can be re-approved is, and its price is written. -/
theorem reapproved_of_canReapprove (env : Env) (hi : FlaggedPriced db) (now : ℤ) (user : ℕ)
    {id : ℕ} {c : ChangeRequest} (h : CanReapprove db id c) :
    BecomesResolved db (step env db (.approvePriceChange now user id)) id c ∧
      ∃ price k s, c.proposedConsignmentPrice = some price ∧
        (step env db (.approvePriceChange now user id)).submissions.get? k = some s ∧
        isLiveApprovedFor c.recordId k s = true ∧ s.suggestedConsignmentPrice = some price := by
  obtain ⟨hc, hp, hflag, hone⟩ := h
  obtain ⟨⟨price, hprice⟩, k, s, hk, hrec, hs⟩ := hi.flagged id c hc hp hflag
  have hlive : isLiveApprovedFor c.recordId k s = true := by
    simp [isLiveApprovedFor, hrec, hs, hi.notDeleted k s hk]
  have hfound : Store.scalarOneOrNone (db.submissions.select (isLiveApprovedFor c.recordId)) =
      some (some (k, s)) := by
    rw [Store.scalar_select_some_iff]
    refine ⟨⟨hk, hlive⟩, fun k' s' hk' hl' => ?_⟩
    exact Store.scalar_select_ne_none_iff.mp hone k' k s' s hk' hl' hk hlive
  have hacc : Accepted env db (.approvePriceChange now user id) _ :=
    returns_approvePriceChange.mpr ⟨c, hc, hp, hflag, some (k, s), hfound, rfl⟩
  rw [step_of_accepted hacc, hprice]
  constructor
  · refine ⟨hc, by rw [hp]; decide, reapprovedRow now user c, ?_, rfl⟩
    simp only [Store.get?_modify_self, hc, Option.map_some]
  · refine ⟨price, k, { s with suggestedConsignmentPrice := some price }, rfl, ?_, hlive, rfl⟩
    simp only [Db.setPrice, Store.get?_modify_self, hk, Option.map_some]

/-- **A request respects the manager's approval in what it does exactly when it
    meets `RespectsApproval`.** -/
theorem reapprovalSafe_iff (env : Env) (hi : FlaggedPriced db) (op : Op) :
    ReapprovalSafe env db op ↔ RespectsApproval db op := by
  constructor
  · intro h
    cases op with
    | resolveChangeRequest now resolver id newStatus notes =>
      intro c hcan
      by_contra hflag
      obtain ⟨now', user, hop⟩ := h.managerOnly id c (becomesResolved_of_canResolve hcan)
        (by simpa using hflag)
      cases hop
    | approvePriceChange now user id =>
      intro c hcan hw
      obtain ⟨hres, -⟩ := reapproved_of_canReapprove env hi now user hcan
      rcases becomesResolved_cases hres with ⟨_, _, _, _, hop, -⟩ | ⟨_, _, -, -, hst⟩
      · cases hop
      · rw [← hst]
        exact h.withdrawn id c hres hw
    | _ => trivial
  · intro h
    constructor
    · intro id c hres hflag
      rcases becomesResolved_cases hres with ⟨_, _, _, _, rfl, hcan, -⟩ | ⟨now, user, hop, -, -⟩
      · rw [h c hcan] at hflag
        cases hflag
      · exact ⟨now, user, hop⟩
    · rintro now user id c rfl hres
      rcases becomesResolved_cases hres with ⟨_, _, _, _, hop, -⟩ | ⟨_, _, -, hcan, -⟩
      · cases hop
      · exact (reapproved_of_canReapprove env hi now user hcan).2
    · intro id c hres hw
      rcases becomesResolved_cases hres with ⟨_, _, _, _, -, -, hst⟩ | ⟨_, _, rfl, hcan, hst⟩
      · exact hst hw
      · rw [hst]
        exact h c hcan hw

/-- **In a run the manager's approval is respected by every request exactly when
    every request meets `RespectsApproval`.** -/
theorem reapproval_iff (env : Env) (users : Store User) (customers : Store Customer)
    (ops : List Op) :
    AllSteps (step env) (ReapprovalSafe env) (Db.init users customers) ops ↔
      AllSteps (step env) RespectsApproval (Db.init users customers) ops := by
  refine allSteps_congr (I := FlaggedPriced) (fun _ op hi => step_flaggedPriced env op hi)
    (fun _ op hi => reapprovalSafe_iff env hi op) ⟨?_, ?_⟩ ops
  · intro id s hs
    simp [Db.init] at hs
  · intro id c hc
    simp [Db.init] at hc

/-- The customer of an approved record asks for half the price, and the sales
    team resolves the flagged request. -/
def bypassRun : List Op :=
  [.submitIntake { customerId := 0 }, .createDraft 0 0, .submit 0 0 0 {} [],
    .approve 0 true 1 0 { purchaseOffer := 1000, consignmentPrice := 1200 },
    .submitChangeRequest 2 0 "update_consignment_price" none (some 600),
    .resolveChangeRequest 5 0 0 "resolved" none]

/-- A flagged request is resolved without the manager. -/
theorem flagged_request_bypasses_manager :
    ¬ ∀ (env : Env) (users : Store User) (customers : Store Customer) (ops : List Op),
      AllSteps (step env) (ReapprovalSafe env) (Db.init users customers) ops := by
  intro h
  let before := run (step sampleEnv) (Db.init sampleUsers sampleCustomers) (bypassRun.take 5)
  have hsafe : ReapprovalSafe sampleEnv before (.resolveChangeRequest 5 0 0 "resolved" none) :=
    (h sampleEnv sampleUsers sampleCustomers bypassRun).2.2.2.2.2.1
  have hflagged : (before.changeRequests.get? 0).map
      (fun c => (c.status, c.requiresManagerReapproval)) = some (.pending, true) := by
    decide +kernel
  have hresolved : ((step sampleEnv before (.resolveChangeRequest 5 0 0 "resolved" none)
      ).changeRequests.get? 0).map (fun c => c.status) = some .resolved := by
    decide +kernel
  obtain ⟨c, hc, hp⟩ := Option.map_eq_some_iff.mp hflagged
  obtain ⟨c', hc', hs⟩ := Option.map_eq_some_iff.mp hresolved
  obtain ⟨hpending, hflag⟩ := Prod.mk.inj hp
  obtain ⟨now, user, hop⟩ := hsafe.managerOnly 0 c
    ⟨hc, by rw [hpending]; decide, c', hc', hs⟩ hflag
  cases hop

end TempleConsign
