import TempleConsign.ApprovedUnique
import TempleConsign.Listings
import TempleConsign.Webhooks

/-!
# What the public can see

A listing has a status of its own. `publish_record` sets it to `active`, the
sales rep may change it, and no other request writes it: a record that is
withdrawn, sent back or deleted afterwards keeps its active listing.

Results:
* `takesOff_not_onMarket`, `accepted_keepsRecords`: which requests take a listed
  record off the market.
* `marketStep_active_iff`: what a request needs to leave every active listing on
  the market.
* `public_visibility_iff`: a run shows live listed records only, each once,
  exactly when all its requests meet that.
-/

namespace TempleConsign

open ServiceLib

variable {m : Market}

/-! ## Which requests take a record off the market -/

/-- The checks `submit` makes on submission `id`. -/
def CanSubmit (db : Db) (appraiser id : ℕ) (missing : List String) (s : AppraisalSubmission) :
    Prop :=
  (db.submissions.get? id = some s ∧ s.deletedAt.isNone = true) ∧ HasAccess db appraiser s ∧
    s.status = .draft ∧ (s.categoryId = none ∨ missing = [])

/-- The checks `reject` makes on submission `id`. -/
def CanReject (db : Db) (id : ℕ) (s : AppraisalSubmission) : Prop :=
  (db.submissions.get? id = some s ∧ s.deletedAt.isNone = true) ∧ s.status = .submitted

/-- The contract a webhook event finds, in a status other than the event's. -/
def FindsOther (db : Db) (envelopeId : ℕ) (status : ContractStatus)
    (c : ℕ × ConsignmentContract) : Prop :=
  Store.scalarOneOrNone (db.contracts.select fun _ c => c.envelopeId = some envelopeId) =
    some (some c) ∧ c.2.status ≠ status

/-- The pending withdrawal that `resolve_change_request` is about to resolve. -/
def Withdraws (db : Db) (changeRequestId : ℕ) (newStatus : String) (c : ChangeRequest) : Prop :=
  resolution? newStatus = some .resolved ∧ db.changeRequests.get? changeRequestId = some c ∧
    c.status = .pending ∧ c.requestType = .withdraw ∧
    ∃ r, db.records.get? c.recordId = some r ∧ (customerUser db r).isSome = true

/-- The request moves the listed record `recordId` to another status. -/
def TakesOff (db : Db) (op : Op) (recordId : ℕ) : Prop :=
  match op with
  | .submit _ appraiser id _ missing => ∃ s, CanSubmit db appraiser id missing s ∧
      s.recordId = recordId
  | .approve _ _ _ id body => ∃ s, CanApprove db id body s ∧ s.recordId = recordId
  | .reject _ id _ _ => ∃ s, CanReject db id s ∧ s.recordId = recordId
  | .envelopeCompleted _ envelopeId => ∃ c, FindsOther db envelopeId .completed c ∧
      c.2.recordId = recordId
  | .envelopeDeclined envelopeId => ∃ c, FindsOther db envelopeId .declined c ∧
      c.2.recordId = recordId
  | .resolveChangeRequest _ _ id newStatus _ => ∃ c, Withdraws db id newStatus c ∧
      c.recordId = recordId
  | .manualTransition _ id toStatus _ => id = recordId ∧
      ∃ target : Status, target.value = toStatus ∧ target ≠ .listed
  | _ => False

/-! ## What a lifecycle request does to the market -/

variable {env : Env} {db db' : Db} {op : Op} {k : ℕ}

theorem atMostOneApproved_iff :
    AtMostOneApproved db k ↔ ∀ i j s t, db.submissions.get? i = some s →
      isLiveApprovedFor k i s = true → db.submissions.get? j = some t →
      isLiveApprovedFor k j t = true → i = j := by
  unfold AtMostOneApproved
  rw [← Store.scalarOneOrNone_ne_none_iff]
  exact Store.scalar_select_ne_none_iff

/-- Every record stays with its deletion mark, and a listed one stays listed or
    is taken off. -/
def KeepsRecords (op : Op) (db db' : Db) : Prop :=
  ∀ k r, db.records.get? k = some r → ∃ r', db'.records.get? k = some r' ∧
    r'.deletedAt = r.deletedAt ∧ (r.status = .listed → r'.status = .listed ∨ TakesOff db op k)

theorem KeepsRecords.of_eq (h : db'.records = db.records) : KeepsRecords op db db' := by
  intro k r hr
  exact ⟨r, by rw [h]; exact hr, rfl, fun hs => Or.inl hs⟩

theorem KeepsRecords.of_modify {id : ℕ} {target : Status}
    (h : db'.records = db.records.modify id fun r => { r with status := target })
    (ht : ∀ r, db.records.get? id = some r → r.status = .listed →
      target = .listed ∨ TakesOff db op id) : KeepsRecords op db db' := by
  intro k r hr
  rw [h, Store.get?_modify]
  split_ifs with hk
  · subst hk
    exact ⟨{ r with status := target }, by rw [hr]; rfl, rfl, ht r hr⟩
  · exact ⟨r, hr, rfl, fun hs => Or.inl hs⟩

theorem accepted_keepsRecords (h : Accepted env db op db') : KeepsRecords op db db' := by
  cases hw : op.writesRecords with
  | false => exact .of_eq ((tableFrame_of_accepted h).records hw)
  | true =>
    unfold Accepted at h
    cases op with simp only [Op.service, Svc.returns_map] at h
    | submitIntake payload =>
      obtain ⟨_, h, -⟩ := h
      obtain ⟨-, -, rfl⟩ := returns_submitIntake.mp h
      exact fun k r hr => ⟨r, Store.get?_create_of_some hr, rfl, fun hs => Or.inl hs⟩
    | createEvent actor body =>
      obtain ⟨_, h, -⟩ := h
      obtain ⟨_, hr, hs, -, ⟨_, -, -, rfl⟩ | ⟨-, -, rfl⟩⟩ := returns_createEvent.mp h
      · exact .of_eq rfl
      · refine .of_modify rfl fun r hr' hl => ?_
        rw [hr] at hr'
        cases hr'
        rw [hs] at hl
        cases hl
    | cancelEvent now eventId =>
      obtain ⟨_, -, ⟨-, record, hr, rfl⟩ | ⟨-, rfl⟩⟩ := returns_cancelEvent.mp h
      · by_cases hs : record.status = .appraisalScheduled
        · refine .of_modify (if_pos hs) fun r hr' hl => ?_
          rw [hr] at hr'
          cases hr'
          rw [hs] at hl
          cases hl
        · exact .of_eq (if_neg hs)
      · exact .of_eq rfl
    | submit now appraiser submissionId flags missing =>
      obtain ⟨s, hs, ha, hd, hm, ⟨_, -, -, rfl⟩ | ⟨-, rfl⟩⟩ := returns_submit.mp h
      · exact .of_modify rfl fun _ _ _ => Or.inr ⟨s, ⟨hs, ha, hd, hm⟩, rfl⟩
      · exact .of_eq rfl
    | approve now providerOk approvingUser submissionId body =>
      obtain ⟨_, h, -⟩ := h
      obtain ⟨s, hs, hsub, hhold, record, hr, hst, -, hdb⟩ := returns_approve.mp h
      obtain ⟨contracts, envelopes, hd⟩ := dispatch_frame providerOk s.recordId record
        (db.approved now approvingUser submissionId body s.recordId record.status)
      obtain rfl := hd.symm.trans hdb
      exact .of_modify rfl fun _ _ _ => Or.inr ⟨s, ⟨hs, hsub, hhold, record, hr, hst⟩, rfl⟩
    | reject rejectingUser submissionId rejectionNotes sendBack =>
      obtain ⟨_, h, -⟩ := h
      obtain ⟨s, hs, hsub, _, -, -, -, -, rfl⟩ := returns_reject.mp h
      exact .of_modify rfl fun _ _ _ => Or.inr ⟨s, ⟨hs, hsub⟩, rfl⟩
    | envelopeCompleted now envelopeId =>
      obtain ⟨c, hc, ⟨-, rfl⟩ | ⟨-, -, rfl⟩ | ⟨hne, _, -, -, rfl⟩⟩ :=
        returns_handleEnvelopeCompleted.mp h
      · exact .of_eq rfl
      · exact .of_eq rfl
      · exact .of_modify rfl fun _ _ _ => Or.inr ⟨c, ⟨hc, hne⟩, rfl⟩
    | envelopeDeclined envelopeId =>
      obtain ⟨c, hc, ⟨-, rfl⟩ | ⟨-, -, rfl⟩ | ⟨hne, _, -, -, rfl⟩⟩ :=
        returns_handleEnvelopeDeclined.mp h
      · exact .of_eq rfl
      · exact .of_eq rfl
      · exact .of_modify rfl fun _ _ _ => Or.inr ⟨c, ⟨hc, hne⟩, rfl⟩
    | resolveChangeRequest now resolver changeRequestId newStatus resolutionNotes =>
      obtain ⟨target, ht, c, hc, hp, r, hr, hu, ⟨rfl, hwd, -, rfl⟩ | ⟨-, rfl⟩⟩ :=
        returns_resolveChangeRequest.mp h
      · exact .of_modify rfl fun _ _ _ => Or.inr ⟨c, ⟨ht, hc, hp, hwd, r, hr, hu⟩, rfl⟩
      · exact .of_eq rfl
    | publishRecord now actingUser recordId =>
      obtain ⟨_, -, -, -, -, rfl⟩ := returns_publishRecord.mp h
      exact .of_modify rfl fun _ _ _ => Or.inl rfl
    | manualTransition admin recordId toStatus reason =>
      obtain ⟨target, rfl, _, -, -, -, rfl⟩ := returns_manualTransition.mp h
      refine .of_modify rfl fun _ _ _ => ?_
      by_cases ht : target = .listed
      · exact Or.inl ht
      · exact Or.inr ⟨rfl, target, rfl, ht⟩
    | _ => cases hw

/-- A row that is live and approved for `k` after an update that approves nothing
    was so before. -/
theorem KeepsUnapproved.live {s s' : AppraisalSubmission} (h : KeepsUnapproved s s') {i j : ℕ}
    (hs : isLiveApprovedFor k i s' = true) : isLiveApprovedFor k j s = true := by
  obtain ⟨hrec, hdel, hst⟩ := h
  simp only [isLiveApprovedFor, Bool.and_eq_true, decide_eq_true_eq] at hs ⊢
  exact ⟨⟨hrec ▸ hs.1.1, hst hs.1.2⟩, hdel ▸ hs.2⟩

/-- A request that does not take record `k` off approves nothing for it. -/
theorem accepted_approved (h : Accepted env db op db') (hk : ¬ TakesOff db op k) {i : ℕ}
    {s' : AppraisalSubmission} (hs : db'.submissions.get? i = some s')
    (hl : isLiveApprovedFor k i s' = true) :
    ∃ s, db.submissions.get? i = some s ∧ isLiveApprovedFor k i s = true := by
  cases SubmissionsMove.of_accepted h with
  | same heq => exact ⟨s', by rw [← heq]; exact hs, hl⟩
  | drafted recordId appraiser heq =>
    rw [heq, Store.get?_create] at hs
    split_ifs at hs
    · cases hs
      simp [isLiveApprovedFor, newDraft] at hl
    · exact ⟨s', hs, hl⟩
  | updated id f hf heq =>
    rw [heq, Store.get?_modify] at hs
    split_ifs at hs with hi
    · obtain ⟨s, hget, rfl⟩ := Option.map_eq_some_iff.mp hs
      exact ⟨s, hget, (hf s (hi ▸ hget)).live hl⟩
    · exact ⟨s', hs, hl⟩
  | approved now providerOk user id body s hop hcan heq =>
    rw [heq, Store.get?_modify] at hs
    split_ifs at hs with hi
    · obtain ⟨s0, hget, rfl⟩ := Option.map_eq_some_iff.mp hs
      rw [hi, hcan.1.1] at hget
      cases hget
      have hrec : s.recordId = k := by
        simp only [isLiveApprovedFor, Bool.and_eq_true, decide_eq_true_eq] at hl
        exact hl.1.1
      refine absurd ?_ hk
      rw [hop]
      exact ⟨s, hcan, hrec⟩
    · exact ⟨s', hs, hl⟩

theorem accepted_atMostOneApproved (h : Accepted env db op db') (hk : ¬ TakesOff db op k)
    (h1 : AtMostOneApproved db k) : AtMostOneApproved db' k := by
  rw [atMostOneApproved_iff] at h1 ⊢
  intro i j s t hi hs hj ht
  obtain ⟨s0, hi0, hs0⟩ := accepted_approved h hk hi hs
  obtain ⟨t0, hj0, ht0⟩ := accepted_approved h hk hj ht
  exact h1 i j s0 t0 hi0 hs0 hj0 ht0

theorem not_onMarket_of_modify (target : Status)
    (h : db'.records = db.records.modify k fun r => { r with status := target })
    (ht : target ≠ .listed) : ¬ OnMarket db' k := by
  rintro ⟨r', hr', -, hs⟩
  rw [h, Store.get?_modify_self] at hr'
  obtain ⟨r, -, rfl⟩ := Option.map_eq_some_iff.mp hr'
  exact ht hs

/-- A request that takes a record off the market is accepted. -/
theorem takesOff_not_onMarket (env : Env) (hk : OnMarket db k) (h : TakesOff db op k) :
    ¬ OnMarket (step env db op) k := by
  obtain ⟨r, hr, hdel, hl⟩ := hk
  have hlive : r.deletedAt.isNone = true := by rw [hdel]; rfl
  cases op with try exact h.elim
  | submit now appraiser id flags missing =>
    obtain ⟨s, ⟨hs, ha, hd, hm⟩, rfl⟩ := h
    have hacc : Accepted env db (.submit now appraiser id flags missing) _ :=
      returns_submit.mpr ⟨s, hs, ha, hd, hm, Or.inl ⟨r, hr, by rw [hl]; decide, rfl⟩⟩
    rw [step_of_accepted hacc]
    exact not_onMarket_of_modify .appraisalComplete rfl (by decide)
  | approve now providerOk user id body =>
    obtain ⟨s, ⟨hs, hsub, hhold, r', hr', hst⟩, rfl⟩ := h
    have hret : Svc.Returns (approve now providerOk user id body) db
        (approvedRow now user body s) _ :=
      returns_approve.mpr ⟨s, hs, hsub, hhold, r', hr', hst, rfl, rfl⟩
    have hacc : Accepted env db (.approve now providerOk user id body) _ :=
      Svc.returns_map.mpr ⟨_, hret, rfl⟩
    obtain ⟨contracts, envelopes, hd⟩ := dispatch_frame providerOk s.recordId r'
      (db.approved now user id body s.recordId r'.status)
    rw [step_of_accepted hacc, hd]
    exact not_onMarket_of_modify .approvedPendingEsign rfl (by decide)
  | reject user id notes sendBack =>
    obtain ⟨s, ⟨hs, hsub⟩, rfl⟩ := h
    have hne : r.status ≠ rejectTarget sendBack := by
      rw [hl]
      cases sendBack <;> decide
    have hf : isForbiddenTransition r.status (rejectTarget sendBack) = false := by
      rw [hl]
      cases sendBack <;> decide
    have hret : Svc.Returns (reject user id notes sendBack) db (rejectedRow notes s) _ :=
      returns_reject.mpr ⟨s, hs, hsub, r, hr, hne, hf, rfl, rfl⟩
    have hacc : Accepted env db (.reject user id notes sendBack) _ :=
      Svc.returns_map.mpr ⟨_, hret, rfl⟩
    rw [step_of_accepted hacc]
    exact not_onMarket_of_modify (rejectTarget sendBack) rfl
      (by cases sendBack <;> decide)
  | envelopeCompleted now envelopeId =>
    obtain ⟨c, ⟨hc, hne⟩, rfl⟩ := h
    have hacc : Accepted env db (.envelopeCompleted now envelopeId) _ :=
      returns_handleEnvelopeCompleted.mpr
        ⟨c, hc, Or.inr (Or.inr ⟨hne, r, hr, by rw [hl]; decide, rfl⟩)⟩
    rw [step_of_accepted hacc]
    exact not_onMarket_of_modify .esignedPendingPublish rfl (by decide)
  | envelopeDeclined envelopeId =>
    obtain ⟨c, ⟨hc, hne⟩, rfl⟩ := h
    have hacc : Accepted env db (.envelopeDeclined envelopeId) _ :=
      returns_handleEnvelopeDeclined.mpr
        ⟨c, hc, Or.inr (Or.inr ⟨hne, r, hr, by rw [hl]; decide, rfl⟩)⟩
    rw [step_of_accepted hacc]
    exact not_onMarket_of_modify .approvedPendingEsign rfl (by decide)
  | resolveChangeRequest now resolver id newStatus notes =>
    obtain ⟨c, ⟨ht, hc, hp, hw, r', hr', hu⟩, rfl⟩ := h
    rw [hr] at hr'
    cases hr'
    have hacc : Accepted env db (.resolveChangeRequest now resolver id newStatus notes) _ :=
      returns_resolveChangeRequest.mpr ⟨.resolved, ht, c, hc, hp, r, hr, hu,
        Or.inl ⟨rfl, hw, by rw [hl]; decide, rfl⟩⟩
    rw [step_of_accepted hacc]
    exact not_onMarket_of_modify .withdrawn rfl (by decide)
  | manualTransition admin id toStatus reason =>
    obtain ⟨rfl, target, rfl, ht⟩ := h
    have hf : isForbiddenTransition r.status target = false := by
      rw [hl]
      cases target <;> decide
    have hacc : Accepted env db (.manualTransition admin id target.value reason) _ :=
      returns_manualTransition.mpr
        ⟨target, rfl, r, ⟨hr, hlive⟩, by rw [hl]; exact Ne.symm ht, hf, rfl⟩
    rw [step_of_accepted hacc]
    exact not_onMarket_of_modify target rfl ht

/-! ## Publication -/

/-- The checks of `publish_record`. -/
def CanPublish (db : Db) (id : ℕ) (record : EquipmentRecord) : Prop :=
  (db.records.get? id = some record ∧ record.deletedAt.isNone = true) ∧
    record.status = .esignedPendingPublish ∧ hasSignedContract db id = true ∧
    ∃ k r, db.reports.get? k = some r ∧ r.recordId = id

/-- `publish_record` refreshes the listing of the record or creates the first
    one. -/
theorem list_cases (db : Db) (now : ℤ) (id : ℕ) (record : EquipmentRecord) :
    (∃ j l, db.listings.get? j = some l ∧ l.recordId = id ∧
      (db.list now id record).listings = db.listings.modify j fun l =>
        { l with status := "active", publishedAt := some now }) ∨
    ((∀ j l, db.listings.get? j = some l → l.recordId ≠ id) ∧
      ∃ l, l.recordId = id ∧ l.status = "active" ∧
        (db.list now id record).listings = db.listings.create l) := by
  unfold Db.list
  cases hs : db.listings.select fun _ l => l.recordId = id with
  | nil =>
    refine Or.inr ⟨fun j l hl hid => ?_, _, rfl, rfl, rfl⟩
    have hmem : (j, l) ∈ db.listings.select fun _ l => l.recordId = id :=
      Store.mem_select.mpr ⟨hl, decide_eq_true hid⟩
    rw [hs] at hmem
    cases hmem
  | cons e es =>
    have hmem : (e.1, e.2) ∈ db.listings.select fun _ l => l.recordId = id := by
      rw [hs]; exact List.mem_cons_self
    obtain ⟨hl, hid⟩ := Store.mem_select.mp hmem
    exact Or.inl ⟨e.1, e.2, hl, of_decide_eq_true hid, rfl⟩

/-- Afterwards the record has an active listing, and every other listing is as
    it was. -/
theorem list_listings (db : Db) (now : ℤ) (id : ℕ) (record : EquipmentRecord) :
    (∃ j l, (db.list now id record).listings.get? j = some l ∧ l.recordId = id ∧
      l.status = "active") ∧
    ∀ j l, (db.list now id record).listings.get? j = some l →
      l.recordId = id ∨ db.listings.get? j = some l := by
  rcases list_cases db now id record with ⟨j, l, hl, hid, heq⟩ | ⟨-, l, hid, hact, heq⟩
  · rw [heq]
    refine ⟨⟨j, { l with status := "active", publishedAt := some now },
      by rw [Store.get?_modify_self, hl]; rfl, hid, rfl⟩, fun i a ha => ?_⟩
    rw [Store.get?_modify] at ha
    split_ifs at ha with hi
    · rw [hi, hl] at ha
      cases ha
      exact Or.inl hid
    · exact Or.inr ha
  · rw [heq]
    refine ⟨⟨_, l, Store.get?_create_self _ _, hid, hact⟩, fun i a ha => ?_⟩
    rw [Store.get?_create] at ha
    split_ifs at ha
    · cases ha
      exact Or.inl hid
    · exact Or.inr ha

theorem list_unique (h : db.listings.Pairwise fun a b => a.recordId ≠ b.recordId) (now : ℤ)
    (id : ℕ) (record : EquipmentRecord) :
    (db.list now id record).listings.Pairwise fun a b => a.recordId ≠ b.recordId := by
  rcases list_cases db now id record with ⟨j, l, -, -, heq⟩ | ⟨hno, l, hid, -, heq⟩
  · rw [heq]
    exact h.modify (fun _ _ => Ne.symm) fun _ _ _ hab => hab
  · rw [heq, Store.pairwise_create_iff (fun _ _ => Ne.symm) h]
    intro i a ha
    rw [hid]
    exact Ne.symm (hno i a ha)

/-! ## What a request needs to keep the catalogue right -/

/-- The request leaves every record with an active listing on the market: it
    takes none off it, deletes the customer of none, and lists only a record with
    at most one approved submission; `patch_listing` makes a listing active only
    when its record is on the market. -/
def KeepsOnMarket (m : Market) : MarketOp → Prop
  | .lifecycle (.publishRecord _ _ id) =>
    (∃ record, CanPublish m.db id record) → AtMostOneApproved m.db id
  | .lifecycle op => ∀ id l, m.db.listings.get? id = some l → l.status = "active" →
    ¬ TakesOff m.db op l.recordId
  | .columns _ => True
  | .patchListing _ recordId patch => patch.status = some "active" →
    (∃ id l, m.db.listings.get? id = some l ∧ l.recordId = recordId) →
      OnMarket m.db recordId ∧ AtMostOneApproved m.db recordId
  | .softDeleteCustomer _ customerId => m.db.customers.get? customerId ≠ none →
    (m.columns.customer customerId).deletedAt = none → ∀ id l r,
      m.db.listings.get? id = some l → l.status = "active" →
      m.db.records.get? l.recordId = some r → r.customerId ≠ customerId

/-- What a request that publishes nothing needs. -/
theorem step_active_iff (env : Env) (hop : op.writesListings = false)
    (h : ActiveOnMarket db) :
    ActiveOnMarket (step env db op) ↔
      ∀ id l, db.listings.get? id = some l → l.status = "active" → ¬ TakesOff db op l.recordId := by
  have hlist := (step_tableFrame env db op).listings hop
  constructor
  · intro h' id l hl hact htake
    exact takesOff_not_onMarket env (h id l hl hact).1 htake
      (h' id l (by rw [hlist]; exact hl) hact).1
  · intro hkeep id l hl hact
    rw [hlist] at hl
    obtain ⟨⟨r, hr, hdel, hs⟩, hone⟩ := h id l hl hact
    have hno := hkeep id l hl hact
    rcases step_cases env db op with hacc | ⟨-, envelopes, heq⟩
    · obtain ⟨r', hr', hdel', hs'⟩ := accepted_keepsRecords hacc _ r hr
      exact ⟨⟨r', hr', hdel'.trans hdel, (hs' hs).resolve_right hno⟩,
        accepted_atMostOneApproved hacc hno hone⟩
    · rw [heq]
      exact ⟨⟨r, hr, hdel, hs⟩, hone⟩

/-- `publish_record` returns exactly when its checks pass. -/
theorem accepted_publish_iff {now : ℤ} {user id : ℕ} :
    Accepted env db (.publishRecord now user id) db' ↔
      ∃ record, CanPublish db id record ∧
        (db.list now id record).transition id .esignedPendingPublish .listed (some user)
          (some "Listing published by sales rep.") = db' := by
  unfold Accepted CanPublish
  rw [Op.service, returns_publishRecord]
  simp only [and_assoc]

theorem publish_active_iff (env : Env) (now : ℤ) (user id : ℕ) (h : ActiveOnMarket db) :
    ActiveOnMarket (step env db (.publishRecord now user id)) ↔
      ((∃ record, CanPublish db id record) → AtMostOneApproved db id) := by
  by_cases hcan : ∃ record, CanPublish db id record
  · obtain ⟨record, hcan⟩ := hcan
    have hacc : Accepted env db (.publishRecord now user id) _ :=
      accepted_publish_iff.mpr ⟨record, hcan, rfl⟩
    have heff := accepted_keepsRecords hacc
    have hlist := list_listings db now id record
    have ⟨⟨hr, hdel⟩, _⟩ := hcan
    rw [step_of_accepted hacc]
    constructor
    · intro h' _
      obtain ⟨j, l, hl, hid, hact⟩ := hlist.1
      have hone := (h' j l hl hact).2
      rw [hid] at hone
      exact hone
    · intro hone j l hl hact
      rcases hlist.2 j l hl with hid | hl0
      · rw [hid]
        refine ⟨⟨{ record with status := .listed }, ?_, Option.isNone_iff_eq_none.mp hdel, rfl⟩,
          hone ⟨record, hcan⟩⟩
        rw [transition_records, if_pos rfl]
        show (db.records.get? id).map _ = _
        rw [hr]
        rfl
      · obtain ⟨⟨r, hr0, hdel0, hs0⟩, hone0⟩ := h j l hl0 hact
        obtain ⟨r', hr', hdel', hs'⟩ := heff _ r hr0
        exact ⟨⟨r', hr', hdel'.trans hdel0, (hs' hs0).resolve_right fun h => h⟩, hone0⟩
  · have hrej : ∀ db', ¬ Accepted env db (.publishRecord now user id) db' := by
      intro db' hacc
      obtain ⟨record, hc, -⟩ := accepted_publish_iff.mp hacc
      exact hcan ⟨record, hc⟩
    rcases step_cases env db (.publishRecord now user id) with hacc | ⟨-, envelopes, heq⟩
    · exact absurd hacc (hrej _)
    · rw [heq]
      exact ⟨fun _ hc => absurd hc hcan, fun _ => h⟩

theorem patch_active_iff (hI : ListingRows m.db) (h : ActiveOnMarket m.db) (env : Env) (now : ℤ)
    (recordId : ℕ) (patch : ListingPatch) :
    ActiveOnMarket (marketStep env m (.patchListing now recordId patch)).db ↔
      KeepsOnMarket m (.patchListing now recordId patch) := by
  simp only [marketStep, KeepsOnMarket]
  by_cases hex : ∃ id l, m.db.listings.get? id = some l ∧ l.recordId = recordId
  · obtain ⟨id, l, hl, rfl⟩ := hex
    obtain ⟨m', hret, hdb⟩ := patchListing_returns hI now patch hl
    rw [Svc.request_of_returns hret, hdb]
    constructor
    · intro h' hpat _
      exact h' id (patchedListing patch l) (by simp only [Store.get?_modify_self, hl]; rfl)
        (by simp [patchedListing, hpat])
    · intro hkeep j a ha hact
      simp only [Store.get?_modify] at ha
      split_ifs at ha with hj
      · rw [hj, hl] at ha
        cases ha
        cases hpat : patch.status with
        | none =>
          simp only [patchedListing, hpat, Option.getD_none] at hact
          exact h id l hl hact
        | some status =>
          simp only [patchedListing, hpat, Option.getD_some] at hact
          exact hkeep (by rw [hpat, hact]) ⟨id, l, hl, rfl⟩
      · exact h j a ha hact
  · have hsame :
        (Svc.request (fun before _ => before) (patchListing now recordId patch) m).2 = m := by
      rcases Svc.request_cases (fun before _ => before) (patchListing now recordId patch) m with
        ⟨_, m', hret, -⟩ | ⟨e, m', -, hreq⟩
      · obtain ⟨id, l, hl, hid, -⟩ := returns_patchListing hret
        exact absurd ⟨id, l, hl, hid⟩ hex
      · rw [hreq]
    rw [hsame]
    exact ⟨fun _ _ hc => absurd hc hex, fun _ => h⟩

theorem softDelete_active_iff (h : ActiveOnMarket m.db) (env : Env) (now : ℤ) (customerId : ℕ) :
    ActiveOnMarket (marketStep env m (.softDeleteCustomer now customerId)).db ↔
      KeepsOnMarket m (.softDeleteCustomer now customerId) := by
  rw [softDeleteCustomer_step]
  simp only [KeepsOnMarket]
  split_ifs with hdel
  · constructor
    · intro h' _ _ id l r hl hact hr hcust
      obtain ⟨⟨r', hr', hlive, -⟩, -⟩ := h' id l hl hact
      simp only [Store.get?_modifyWhere, hr, Option.map_some, Option.some.injEq] at hr'
      subst hr'
      split_ifs at hlive with hp
      exact hp (by simp [isLiveRecordOf, hcust, hlive])
    · intro hkeep id l hl hact
      obtain ⟨⟨r, hr, hlive, hs⟩, hone⟩ := h id l hl hact
      have hne := hkeep hdel.1 hdel.2 id l r hl hact hr
      refine ⟨⟨r, ?_, hlive, hs⟩, hone⟩
      rw [Store.get?_modifyWhere, hr, Option.map_some, if_neg]
      simp [isLiveRecordOf, hne]
  · exact ⟨fun _ hc hd => absurd ⟨hc, hd⟩ hdel, fun _ => h⟩

/-- **A request keeps every active listing on the market exactly when it meets
    `KeepsOnMarket`.** -/
theorem marketStep_active_iff (env : Env) (hI : ListingRows m.db) (h : ActiveOnMarket m.db)
    (op : MarketOp) : ActiveOnMarket (marketStep env m op).db ↔ KeepsOnMarket m op := by
  cases op with
  | lifecycle op =>
    cases op with
    | publishRecord now user id => exact publish_active_iff env now user id h
    | _ => exact step_active_iff env rfl h
  | columns columns => exact ⟨fun _ => trivial, fun _ => h⟩
  | patchListing now recordId patch => exact patch_active_iff hI h env now recordId patch
  | softDeleteCustomer now customerId => exact softDelete_active_iff h env now customerId

/-! ## One listing a record -/

theorem step_listingRows (env : Env) (hI : ListingRows db) (op : Op) :
    ListingRows (step env db op) := by
  rcases step_cases env db op with hacc | ⟨-, envelopes, heq⟩
  · have heff := accepted_keepsRecords hacc
    have howned : ∀ k, (∃ r, db.records.get? k = some r) →
        ∃ r, (step env db op).records.get? k = some r := by
      rintro k ⟨r, hr⟩
      obtain ⟨r', hr', -⟩ := heff k r hr
      exact ⟨r', hr'⟩
    cases hw : op.writesListings with
    | true =>
      cases op with
      | publishRecord now user id =>
        obtain ⟨record, hcan, hdb⟩ := accepted_publish_iff.mp hacc
        have hlist : (step env db (.publishRecord now user id)).listings =
            (db.list now id record).listings := by rw [← hdb]; rfl
        constructor
        · rw [hlist]
          exact list_unique hI.unique now id record
        · intro j l hl
          rw [hlist] at hl
          rcases (list_listings db now id record).2 j l hl with hid | hl0
          · exact howned _ ⟨record, by rw [hid]; exact hcan.1.1⟩
          · exact howned _ (hI.owned j l hl0)
      | _ => cases hw
    | false =>
      have hlist := (step_tableFrame env db op).listings hw
      constructor
      · rw [hlist]
        exact hI.unique
      · intro j l hl
        rw [hlist] at hl
        exact howned _ (hI.owned j l hl)
  · rw [heq]
    exact ⟨hI.unique, hI.owned⟩

theorem marketStep_listingRows (env : Env) (hI : ListingRows m.db) (op : MarketOp) :
    ListingRows (marketStep env m op).db := by
  cases op with
  | lifecycle op => exact step_listingRows env hI op
  | columns columns => exact hI
  | patchListing now recordId patch =>
    simp only [marketStep]
    rcases Svc.request_cases (fun before _ => before) (patchListing now recordId patch) m with
      ⟨_, m', hret, hreq⟩ | ⟨e, m', -, hreq⟩
    · obtain ⟨id, l, hl, -, hdb⟩ := returns_patchListing hret
      rw [hreq, hdb]
      constructor
      · exact hI.unique.modify (fun _ _ => Ne.symm) fun _ _ _ hab => hab
      · intro j a ha
        simp only [Store.get?_modify] at ha
        split_ifs at ha with hj
        · rw [hj, hl] at ha
          cases ha
          exact hI.owned id l hl
        · exact hI.owned j a ha
    · rw [hreq]
      exact hI
  | softDeleteCustomer now customerId =>
    rw [softDeleteCustomer_step]
    split_ifs
    · refine ⟨hI.unique, fun j l hl => ?_⟩
      obtain ⟨r, hr⟩ := hI.owned j l hl
      exact ⟨_, by simp only [Store.get?_modifyWhere, hr, Option.map_some]; rfl⟩
    · exact hI

theorem init_listingRows (users : Store User) (customers : Store Customer) :
    ListingRows (Db.init users customers) where
  unique := Store.pairwise_empty
  owned id l hl := by simp [Db.init] at hl

/-- **In a run every answer of the catalogue shows live listed records, each
    once, exactly when every request leaves the records with an active listing on
    the market.** -/
theorem public_visibility_iff (env : Env) (users : Store User) (customers : Store Customer)
    (columns : ListingColumns) (ops : List MarketOp) :
    AllStates (marketStep env) PublicVisibility (Market.init users customers columns) ops ↔
      AllSteps (marketStep env) KeepsOnMarket (Market.init users customers columns) ops := by
  refine allStates_iff_allSteps (I := fun m => ListingRows m.db)
    (fun m op hI _ => marketStep_listingRows env hI op) (fun m op hI hP => ?_)
    (init_listingRows users customers) ?_ ops
  · rw [publicVisibility_iff (marketStep_listingRows env hI op)]
    exact marketStep_active_iff env hI ((publicVisibility_iff hI).mp hP) op
  · rw [publicVisibility_iff (m := Market.init users customers columns)
      (init_listingRows users customers)]
    intro id l hl
    simp [Market.init, Db.init] at hl

/-- The record is listed and its customer withdraws it. -/
def withdrawnRun : List MarketOp :=
  (listedRun.map MarketOp.lifecycle) ++
    [.lifecycle (.submitChangeRequest 2 0 "withdraw" none none),
      .lifecycle (.resolveChangeRequest 9 1 0 "resolved" none)]

/-- A withdrawn record stays in the catalogue. -/
theorem withdrawn_record_shown :
    ¬ ∀ (env : Env) (users : Store User) (customers : Store Customer) (columns : ListingColumns)
      (ops : List MarketOp),
      AllStates (marketStep env) PublicVisibility (Market.init users customers columns) ops := by
  intro h
  have hlast := (h sampleEnv sampleUsers sampleCustomers {} withdrawnRun).last
  have hcards : ((run (marketStep sampleEnv) (Market.init sampleUsers sampleCustomers {})
      withdrawnRun).listPublicListings {}).1.map PublicListingCard.id = [0] := by decide +kernel
  have hrec : (run (marketStep sampleEnv) (Market.init sampleUsers sampleCustomers {})
      withdrawnRun).recordOf 0 = some 0 := by decide +kernel
  have hstatus : (run (marketStep sampleEnv) (Market.init sampleUsers sampleCustomers {})
      withdrawnRun).db.statusOf 0 = some .withdrawn := by decide +kernel
  obtain ⟨card, hcard, hid⟩ := List.mem_map.mp (hcards ▸ List.mem_singleton_self 0)
  obtain ⟨k, hk, r, hr, -, hs⟩ := hlast.listed {} card hcard
  rw [hid, hrec] at hk
  obtain rfl := Option.some.inj hk
  rw [Db.statusOf_eq_some.mpr ⟨r, hr, hs⟩] at hstatus
  cases hstatus

end TempleConsign
