import TempleConsign.ApprovedUnique
import TempleConsign.Contracts

/-!
# What contract an approval leaves

`approve` ends in a contract dispatch. The dispatch keeps a contract that is
sent or completed as it is, whatever was approved since. Otherwise it sends a
new envelope, when it finds one approved submission and the customer's account.

Results:
* `contract_kept`: an approval leaves a contract that is not declined alone.
* `contract_sent`: an approval sends the prices it approved.
* `contract_follows_approval`: both, in every state a run reaches.
-/

namespace TempleConsign

open ServiceLib

/-- A contract of the record is sent, and its envelope carries the prices of
    the decision `body`. -/
def FollowsApproval (db : Db) (recordId : ℕ) (body : ApprovalDecision) : Prop :=
  ∃ k c e envelope, db.contracts.get? k = some c ∧ c.recordId = recordId ∧ c.status = .sent ∧
    c.envelopeId = some e ∧ db.envelopes.get? e = some envelope ∧
    envelope.recordId = recordId ∧
    envelope.documentData.purchaseOffer = body.purchaseOffer ∧
    envelope.documentData.consignmentPrice = body.consignmentPrice

section

variable {db : Db} {recordId : ℕ}

/-- A record's contract is the one that a dispatch finds. -/
theorem ContractsInv.contractOf (hi : ContractsInv db) {k : ℕ} {c : ConsignmentContract}
    (hk : db.contracts.get? k = some c) (hrec : c.recordId = recordId) :
    Store.scalarOneOrNone (db.contracts.select (isContractOf recordId)) = some (some (k, c)) := by
  refine Store.scalar_select_some_iff.mpr ⟨⟨hk, decide_eq_true hrec⟩, fun k' c' hk' hp => ?_⟩
  by_contra hne
  have happart := (hi.apart k' k c' c hne hk' hk).1
  have hrec' : c'.recordId = recordId := of_decide_eq_true hp
  exact happart (hrec'.trans hrec.symm)

/-- When a record has at most a declined contract, a dispatch finds none or
    that one. -/
theorem ContractsInv.noneOrDeclined (hi : ContractsInv db)
    (hdec : ∀ k c, db.contracts.get? k = some c → c.recordId = recordId → c.status = .declined) :
    ∃ contract, Store.scalarOneOrNone (db.contracts.select (isContractOf recordId)) =
      some contract ∧ ∀ c ∈ contract, c.2.status = .declined := by
  by_cases hex : ∃ k c, db.contracts.get? k = some c ∧ c.recordId = recordId
  · obtain ⟨k, c, hk, hrec⟩ := hex
    refine ⟨some (k, c), hi.contractOf hk hrec, ?_⟩
    intro found hfound
    obtain rfl := Option.some.inj hfound
    exact hdec k c hk hrec
  · refine ⟨none, Store.scalar_select_none_iff.mpr fun k c hk => ?_, nofun⟩
    exact decide_eq_false fun hrec => hex ⟨k, c, hk, hrec⟩

/-- What an accepted approval of submission `id` checked and left. -/
theorem approve_of_accepted {env : Env} {db' : Db} {now : ℤ} {providerOk : Bool} {user id : ℕ}
    {body : ApprovalDecision} {s : AppraisalSubmission} (hs : db.submissions.get? id = some s)
    (h : Accepted env db (.approve now providerOk user id body) db') :
    CanApprove db id body s ∧ ∃ record, db.records.get? s.recordId = some record ∧
      db' = (Svc.exec (dispatchContract providerOk s.recordId record)
        (db.approved now user id body s.recordId record.status)).2 := by
  obtain ⟨_, hret, -⟩ := Svc.returns_map.mp h
  obtain ⟨s', hlive, hsub, hhold, record, hr, hst, -, hdb⟩ := returns_approve.mp hret
  obtain rfl : s = s' := Option.some.inj (hs.symm.trans hlive.1)
  exact ⟨⟨hlive, hsub, hhold, record, hr, hst⟩, record, hr, hdb.symm⟩

/-- An approval leaves a contract that is not declined alone. -/
theorem contract_kept (hi : ContractsInv db) {env : Env} {db' : Db} {now : ℤ} {providerOk : Bool}
    {user id : ℕ} {body : ApprovalDecision} {s : AppraisalSubmission}
    (hs : db.submissions.get? id = some s)
    (h : Accepted env db (.approve now providerOk user id body) db') {k : ℕ}
    {c : ConsignmentContract} (hk : db.contracts.get? k = some c) (hrec : c.recordId = s.recordId)
    (hst : c.status ≠ .declined) : db'.contracts = db.contracts ∧ db'.envelopes = db.envelopes := by
  obtain ⟨-, record, -, hdb⟩ := approve_of_accepted hs h
  have hfound := hi.contractOf hk hrec
  have hkeep : (Svc.exec (dispatchContract providerOk s.recordId record)
      (db.approved now user id body s.recordId record.status)).2 =
      db.approved now user id body s.recordId record.status := dispatch_keeps hfound hst
  rw [hdb, hkeep]
  exact ⟨rfl, rfl⟩

/-- After the approval the dispatch finds the submission just approved. -/
theorem approved_found (now : ℤ) (user : ℕ) {id : ℕ} (body : ApprovalDecision)
    {s : AppraisalSubmission} (source : Status) (hd : NoneDeleted db)
    (hs : db.submissions.get? id = some s)
    (halone : ∀ k t, db.submissions.get? k = some t → IsApproved t → t.recordId ≠ s.recordId) :
    Store.scalarOneOrNone ((db.approved now user id body s.recordId source).submissions.select
      (isApprovedFor s.recordId)) = some (some (id, approvedRow now user body s)) := by
  rw [Db.approved, transition_submissions, Store.scalar_select_some_iff]
  refine ⟨⟨?_, ?_⟩, fun k t hk hp => ?_⟩
  · rw [Store.get?_modify_self, hs]
    rfl
  · simp [isApprovedFor, approvedRow]
  · by_contra hne
    rw [Store.get?_modify_ne _ _ hne] at hk
    simp only [isApprovedFor, Bool.and_eq_true, decide_eq_true_eq] at hp
    exact halone k t hk ⟨hd k t hk, hp.2⟩ hp.1

/-- The contract that a dispatch sends, under its new envelope. -/
theorem sent_contract {contract : Option (ℕ × ConsignmentContract)} (envelope : Envelope)
    (hc : Store.scalarOneOrNone (db.contracts.select (isContractOf recordId)) = some contract)
    (hd : ∀ c ∈ contract, c.2.status = .declined) :
    (∃ k, (db.sent recordId contract envelope).contracts.get? k =
      some (sentContract recordId db.envelopes.next)) ∧
    (db.sent recordId contract envelope).envelopes.get? db.envelopes.next = some envelope := by
  have henv : (db.sent recordId contract envelope).envelopes = db.envelopes.create envelope := by
    cases contract <;> rfl
  have hcon : (db.sent recordId contract envelope).contracts =
      (db.storeContract recordId contract db.envelopes.next).contracts := by
    cases contract <;> rfl
  obtain ⟨k, hput, -, -⟩ := storeContract_put hc hd db.envelopes.next
  refine ⟨⟨k, ?_⟩, ?_⟩
  · rw [hcon, hput, if_pos rfl]
  · rw [henv, Store.get?_create_self]

/-- An approval sends the prices it approved, for a customer with an account
    and a record without another contract or approved submission. -/
theorem contract_sent (hi : ContractsInv db) (hd : NoneDeleted db) {env : Env} {db' : Db} {now : ℤ}
    {user id : ℕ} {body : ApprovalDecision} {s : AppraisalSubmission}
    (hs : db.submissions.get? id = some s)
    (h : Accepted env db (.approve now true user id body) db')
    {record : EquipmentRecord} {account : User} (hr : db.records.get? s.recordId = some record)
    (hu : customerUser db record = some account)
    (hdec : ∀ k c, db.contracts.get? k = some c → c.recordId = s.recordId → c.status = .declined)
    (halone : ∀ k t, db.submissions.get? k = some t → IsApproved t → t.recordId ≠ s.recordId) :
    FollowsApproval db' s.recordId body := by
  obtain ⟨-, record', hr', hdb⟩ := approve_of_accepted hs h
  obtain rfl : record = record' := Option.some.inj (hr.symm.trans hr')
  obtain ⟨contract, hc, hdeclined⟩ := hi.noneOrDeclined hdec
  generalize hafter : db.approved now user id body s.recordId record.status = after at hdb
  have hsub : Store.scalarOneOrNone (after.submissions.select (isApprovedFor s.recordId)) =
      some (some (id, approvedRow now user body s)) := by
    rw [← hafter]
    exact approved_found now user body record.status hd hs halone
  have hc : Store.scalarOneOrNone (after.contracts.select (isContractOf s.recordId)) =
      some contract := by
    rw [← hafter]
    exact hc
  have hu : customerUser after record = some account := by
    rw [← hafter]
    exact hu
  obtain ⟨⟨k, hk⟩, henv⟩ := sent_contract
    (envelopeFor s.recordId record (approvedRow now user body s) account) hc hdeclined
  rw [hdb, dispatch_sends ⟨hc, hdeclined, id, _, account, hsub, hu, rfl⟩]
  exact ⟨k, _, _, _, hk, rfl, rfl, rfl, henv, rfl, rfl, rfl⟩

end

/-! ## Runs -/

/-- The invariants that a dispatch relies on hold in every reachable state. -/
theorem run_dispatchInv (env : Env) (users : Store User) (customers : Store Customer)
    (ops : List Op) :
    ContractsInv (run (step env) (Db.init users customers) ops) ∧
      NoneDeleted (run (step env) (Db.init users customers) ops) := by
  refine run_induction (P := fun db => ContractsInv db ∧ NoneDeleted db)
    (fun _ op h => ⟨step_contractsInv env op h.1, step_noneDeleted env op h.2⟩)
    ⟨contractsInv_init users customers, fun id s h => ?_⟩ ops
  simp [Db.init] at h

/-- **An approval leaves a contract that is sent or completed alone; it sends
    the prices it approved when there is none and no other approved submission.** -/
theorem contract_follows_approval (env : Env) (users : Store User) (customers : Store Customer)
    (ops : List Op) {db db' : Db} (hdb : db = run (step env) (Db.init users customers) ops)
    {now : ℤ} {user id : ℕ} {body : ApprovalDecision} {s : AppraisalSubmission}
    (hs : db.submissions.get? id = some s)
    (h : Accepted env db (.approve now true user id body) db')
    {record : EquipmentRecord} {account : User} (hr : db.records.get? s.recordId = some record)
    (hu : customerUser db record = some account) :
    ((∃ k c, db.contracts.get? k = some c ∧ c.recordId = s.recordId ∧ c.status ≠ .declined) →
      db'.contracts = db.contracts ∧ db'.envelopes = db.envelopes) ∧
    ((∀ k c, db.contracts.get? k = some c → c.recordId = s.recordId → c.status = .declined) →
      (∀ k t, db.submissions.get? k = some t → IsApproved t → t.recordId ≠ s.recordId) →
      FollowsApproval db' s.recordId body) := by
  obtain ⟨hi, hd⟩ := run_dispatchInv env users customers ops
  rw [← hdb] at hi hd
  constructor
  · rintro ⟨k, c, hk, hrec, hst⟩
    exact contract_kept hi hs h hk hrec hst
  · intro hdec halone
    exact contract_sent hi hd hs h hr hu hdec halone

/-! ## A first and a second approval -/

/-- A record is appraised. -/
def appraisedRun : List Op :=
  [.submitIntake { customerId := 0 }, .createDraft 0 0, .submit 0 0 0 {} []]

/-- A first approval sends the prices it approved. -/
theorem contract_follows_first_approval :
    FollowsApproval (step sampleEnv
      (run (step sampleEnv) (Db.init sampleUsers sampleCustomers) appraisedRun)
      (.approve 0 true 1 0 { purchaseOffer := 1000, consignmentPrice := 1200 })) 0
      { purchaseOffer := 1000, consignmentPrice := 1200 } := by
  generalize hdb : run (step sampleEnv) (Db.init sampleUsers sampleCustomers) appraisedRun = db
  have hs : (db.submissions.get? 0).map (·.recordId) = some 0 := by subst hdb; decide
  have hu : ((db.records.get? 0).bind (customerUser db)).isSome = true := by subst hdb; decide
  have hnone : (db.contracts.exists? fun _ _ => true) = false := by subst hdb; decide
  have happ : (db.submissions.exists? fun _ s => s.status = .approved) = false := by
    subst hdb; decide
  have hacc : Accepted sampleEnv db (.approve 0 true 1 0
      { purchaseOffer := 1000, consignmentPrice := 1200 }) _ :=
    accepted_of_isOk (by subst hdb; decide)
  obtain ⟨s, hs, hrec⟩ := Option.map_eq_some_iff.mp hs
  obtain ⟨account, hu⟩ := Option.isSome_iff_exists.mp hu
  obtain ⟨record, hr, hu⟩ := Option.bind_eq_some_iff.mp hu
  rw [← hrec] at hr
  have hfollows := (contract_follows_approval sampleEnv sampleUsers sampleCustomers appraisedRun
    hdb.symm hs hacc hr hu).2
  rw [hrec] at hfollows
  refine hfollows (fun k c hk _ => ?_) (fun k t hk ht _ => ?_)
  · rw [Store.exists?_iff.mpr ⟨k, c, hk, rfl⟩] at hnone
    cases hnone
  · rw [Store.exists?_iff.mpr ⟨k, t, hk, decide_eq_true ht.2⟩] at happ
    cases happ

/-- After a second approval no envelope carries the prices it approved. -/
theorem second_approval_keeps_envelope :
    ¬ ∀ (env : Env) (users : Store User) (customers : Store Customer) (ops : List Op) (db db' : Db),
      db = run (step env) (Db.init users customers) ops →
      ∀ (now : ℤ) (user id : ℕ) (body : ApprovalDecision) (s : AppraisalSubmission)
        (record : EquipmentRecord) (account : User), db.submissions.get? id = some s →
      Accepted env db (.approve now true user id body) db' →
      db.records.get? s.recordId = some record → customerUser db record = some account →
      FollowsApproval db' s.recordId body := by
  intro h
  generalize hdb : run (step sampleEnv) (Db.init sampleUsers sampleCustomers)
    (secondApprovalRun.take 6) = db
  have hs : (db.submissions.get? 1).map (·.recordId) = some 0 := by subst hdb; decide
  have hu : ((db.records.get? 0).bind (customerUser db)).isSome = true := by subst hdb; decide
  have hacc : Accepted sampleEnv db (.approve 0 true 1 1
      { purchaseOffer := 900, consignmentPrice := 1100 }) _ :=
    accepted_of_isOk (by subst hdb; decide)
  have hold : ((step sampleEnv db (.approve 0 true 1 1
      { purchaseOffer := 900, consignmentPrice := 1100 })).envelopes.exists? fun _ e =>
        e.documentData.purchaseOffer = 900) = false := by subst hdb; decide
  obtain ⟨s, hs, hrec⟩ := Option.map_eq_some_iff.mp hs
  obtain ⟨account, hu⟩ := Option.isSome_iff_exists.mp hu
  obtain ⟨record, hr, hu⟩ := Option.bind_eq_some_iff.mp hu
  rw [← hrec] at hr
  obtain ⟨_, _, e, envelope, -, -, -, -, he, -, hprice, -⟩ :=
    h sampleEnv sampleUsers sampleCustomers _ db _ hdb.symm _ _ _ _ s record account hs hacc hr hu
  rw [Store.exists?_iff.mpr ⟨e, envelope, he, decide_eq_true hprice⟩] at hold
  cases hold

end TempleConsign
