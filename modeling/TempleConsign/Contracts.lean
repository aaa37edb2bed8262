import TempleConsign.Lifecycle

/-!
# The contracts of a run

What requests do to the consignment contracts: a dispatch sends one, the
webhooks complete or decline the one with their envelope, and nothing else
touches them.

Results:
* `step_envelopes`: an envelope that was created stays known to the provider.
* `step_contracts`: what a request does to the contracts.
* `step_contractsInv`: a record has one contract and an envelope belongs to one.
-/

namespace TempleConsign

open ServiceLib

/-! ## Envelopes -/

/-- How many envelopes the provider has created. -/
def envelopeCount (db : Db) : ℕ := db.envelopes.next

@[simp] theorem grows_selectOne {ρ : Type} (table : Db → Store ρ) (p : ℕ → ρ → Bool) :
    Svc.Grows envelopeCount (selectOne table p) :=
  Svc.grows_bind Svc.grows_get fun _ => Svc.grows_expect _ _

@[simp] theorem grows_fetch {ρ : Type} (table : Db → Store ρ) (k : ℕ) (p : ρ → Bool) (e : Exn) :
    Svc.Grows envelopeCount (fetch table k p e) :=
  Svc.grows_bind Svc.grows_get fun _ => Svc.grows_expect _ _

/-- A write to the tables leaves the envelopes alone. -/
theorem grows_write {g : Db → Db} (h : ∀ db, (g db).envelopes = db.envelopes) :
    Svc.Grows envelopeCount (modify g : Service PUnit) := by
  refine Svc.grows_modify fun db => ?_
  unfold envelopeCount
  rw [h]

@[simp] theorem grows_recordTransition (id : ℕ) (record : EquipmentRecord) (target : Status)
    (changedBy : Option ℕ) (note : Option String) :
    Svc.Grows envelopeCount (recordTransition id record target changedBy note) :=
  Svc.grows_bind (Svc.grows_require _ _) fun _ => Svc.grows_bind (Svc.grows_require _ _) fun _ =>
    grows_write fun _ => rfl

/-- A dispatch may create an envelope. -/
theorem grows_dispatchContract (providerOk : Bool) (recordId : ℕ) (record : EquipmentRecord) :
    Svc.Grows envelopeCount (dispatchContract providerOk recordId record) := by
  intro db
  rcases dispatch_cases providerOk recordId record db with h | ⟨contract, envelope, -, -, h⟩
  · rw [h]
  · rw [h]
    cases contract <;> exact Nat.le_succ _

theorem grows_setPrice (db : Db) (submission : Option (ℕ × AppraisalSubmission))
    (price : Option ℚ) : (db.setPrice submission price).envelopes = db.envelopes := by
  obtain ⟨submissions, h⟩ := setPrice_frame db submission price
  rw [h]

/-- No path of a service forgets an envelope: the proof follows its binds. -/
theorem grows_service (env : Env) (op : Op) : Svc.Grows envelopeCount (op.service env) := by
  cases op <;>
    simp only [Op.service, submitIntake, createEvent, updateEvent, cancelEvent, createDraft,
      updateDraft, submit, approve, reject, approvePriceChange, generateAndStore,
      handleEnvelopeCompleted, handleEnvelopeDeclined, submitChangeRequest, resolveChangeRequest,
      publishRecord, manualTransition, fetchSubmission, checkAccess, fetchContract,
      getRecordForUser, evaluate, requireAppraiser, loadRecordOr404, getEventOr404] <;>
    repeat' with_reducible first
      | exact Svc.grows_pure _
      | exact Svc.grows_get
      | exact Svc.grows_require _ _
      | exact Svc.grows_expect _ _
      | exact grows_selectOne _ _
      | exact grows_fetch _ _ _ _
      | exact grows_recordTransition _ _ _ _ _
      | exact grows_dispatchContract _ _ _
      | exact grows_write fun _ => rfl
      | exact grows_write fun db => grows_setPrice db _ _
      | apply Svc.grows_bind
      | apply Svc.grows_map
      | apply Svc.grows_onlyIf
      | apply Svc.grows_attempt
      | split
      | intro _

theorem step_envelopes (env : Env) (db : Db) (op : Op) :
    db.envelopes.next ≤ (step env db op).envelopes.next := by
  have hkept : ∀ before atRaise : Db,
      envelopeCount (Db.rollback before atRaise) = envelopeCount atRaise := fun _ _ => rfl
  exact Svc.Grows.request hkept (grows_service env op) db

/-! ## What requests do to the contracts -/

/-- The row that a dispatch stores. -/
def sentContract (recordId envelopeId : ℕ) : ConsignmentContract where
  recordId := recordId
  envelopeId := some envelopeId
  status := .sent
  signedAt := none

/-- The contract that a webhook looks up. -/
def FindsContract (db : Db) (envelopeId k : ℕ) (c : ConsignmentContract) : Prop :=
  Store.scalarOneOrNone (db.contracts.select fun _ c => c.envelopeId = some envelopeId) =
    some (some (k, c))

theorem FindsContract.row {db : Db} {envelopeId k : ℕ} {c : ConsignmentContract}
    (h : FindsContract db envelopeId k c) :
    db.contracts.get? k = some c ∧ c.envelopeId = some envelopeId := by
  obtain ⟨⟨hk, hp⟩, -⟩ := Store.scalar_select_some_iff.mp h
  exact ⟨hk, of_decide_eq_true hp⟩

/-- How the contracts of `db'` come from those of `db`: as they were, with one
    sent, or with one completed or declined by a webhook. Each case says what the
    request did to the record of that contract. -/
inductive ContractsMove (op : Op) (db db' : Db) : Prop
  | same (h : db'.contracts = db.contracts)
  | sent (recordId id : ℕ) (hop : op.nonAdmin = true ∧ op.writesContracts = true)
      (hput : ∀ k, db'.contracts.get? k =
        if k = id then some (sentContract recordId db.envelopes.next) else db.contracts.get? k)
      (hold : ∀ c, db.contracts.get? id = some c → c.recordId = recordId ∧ c.status = .declined)
      (hother : ∀ k c, k ≠ id → db.contracts.get? k = some c → c.recordId ≠ recordId)
      (hnext : db'.envelopes.next = db.envelopes.next + 1)
      (hrec : ∃ r, db'.records.get? recordId = some r ∧ r.status = .approvedPendingEsign)
  | completed (now : ℤ) (envelopeId k : ℕ) (c : ConsignmentContract)
      (hop : op = .envelopeCompleted now envelopeId) (hc : FindsContract db envelopeId k c)
      (hst : c.status ≠ .completed)
      (h : db'.contracts = db.contracts.modify k fun c =>
        { c with status := .completed, signedAt := some now })
      (hrec : db'.records = db.records ∨
        db'.records =
          db.records.modify c.recordId fun r => { r with status := .esignedPendingPublish })
  | declined (envelopeId k : ℕ) (c : ConsignmentContract) (hop : op = .envelopeDeclined envelopeId)
      (hc : FindsContract db envelopeId k c) (hst : c.status ≠ .declined)
      (h : db'.contracts = db.contracts.modify k fun c => { c with status := .declined })
      (hrec : ∀ r, db'.records.get? c.recordId = some r → r.status = .approvedPendingEsign)

/-- Storing the contract of a dispatch puts one row. -/
theorem storeContract_put {db : Db} {recordId : ℕ} {contract : Option (ℕ × ConsignmentContract)}
    (hc : Store.scalarOneOrNone (db.contracts.select (isContractOf recordId)) = some contract)
    (hd : ∀ c ∈ contract, c.2.status = .declined) (envelopeId : ℕ) :
    ∃ id,
      (∀ k, (db.storeContract recordId contract envelopeId).contracts.get? k =
        if k = id then some (sentContract recordId envelopeId) else db.contracts.get? k) ∧
      (∀ c, db.contracts.get? id = some c → c.recordId = recordId ∧ c.status = .declined) ∧
      (∀ k c, k ≠ id → db.contracts.get? k = some c → c.recordId ≠ recordId) := by
  cases contract with
  | none =>
    refine ⟨db.contracts.next, fun k => Store.get?_create _ _ k, fun c hk => ?_, fun k c _ hk => ?_⟩
    · rw [Store.get?_next] at hk
      cases hk
    · exact of_decide_eq_false (Store.scalar_select_none_iff.mp hc k c hk)
  | some idc =>
    obtain ⟨id, c⟩ := idc
    obtain ⟨⟨hget, hp⟩, huniq⟩ := Store.scalar_select_some_iff.mp hc
    have hrec : c.recordId = recordId := of_decide_eq_true hp
    refine ⟨id, fun k => ?_, fun c' hk => ?_, fun k c' hne hk heq => ?_⟩
    · show (db.contracts.modify id _).get? k = _
      rw [Store.get?_modify]
      split_ifs with hk
      · rw [hk, hget, ← hrec]
        rfl
      · rfl
    · rw [hget] at hk
      cases hk
      exact ⟨hrec, hd _ rfl⟩
    · exact hne (huniq k c' hk (decide_eq_true heq))

theorem ContractsMove.of_accepted {env : Env} {db db' : Db} {op : Op}
    (h : Accepted env db op db') : ContractsMove op db db' := by
  cases hw : op.writesContracts with
  | false => exact .same ((effect_of_accepted h).1.contracts hw)
  | true =>
    unfold Accepted at h
    cases op with simp only [Op.service, Svc.returns_map] at h
    | approve now providerOk user id body =>
      obtain ⟨_, h, -⟩ := h
      obtain ⟨s, -, -, -, record, hr, -, -, hdb⟩ := returns_approve.mp h
      rcases dispatch_cases providerOk s.recordId record
          (db.approved now user id body s.recordId record.status) with
        hsame | ⟨contract, envelope, ⟨hc, hd, -⟩, -, hsent⟩
      · rw [hsame] at hdb
        subst hdb
        exact .same rfl
      · rw [hsent] at hdb
        subst hdb
        obtain ⟨cid, hput, hold, hother⟩ := storeContract_put hc hd db.envelopes.next
        refine .sent s.recordId cid ⟨rfl, rfl⟩ ?_ hold hother ?_ ?_
        · intro k
          refine Eq.trans ?_ (hput k)
          cases contract <;> rfl
        · cases contract <;> rfl
        · refine ⟨{ record with status := .approvedPendingEsign }, ?_, rfl⟩
          have hrecs : ((db.approved now user id body s.recordId record.status).sent s.recordId
              contract envelope).records =
              (db.approved now user id body s.recordId record.status).records := by
            cases contract <;> rfl
          rw [hrecs, Db.approved, transition_records, if_pos rfl]
          show (db.records.get? s.recordId).map _ = _
          rw [hr]
          rfl
    | envelopeCompleted now envelopeId =>
      obtain ⟨⟨k, c⟩, hc, ⟨-, rfl⟩ | ⟨hst, -, rfl⟩ | ⟨hst, record, -, -, rfl⟩⟩ :=
        returns_handleEnvelopeCompleted.mp h
      · exact .same rfl
      · exact .completed now envelopeId k c rfl hc hst rfl (Or.inl rfl)
      · exact .completed now envelopeId k c rfl hc hst rfl (Or.inr rfl)
    | envelopeDeclined envelopeId =>
      obtain ⟨⟨k, c⟩, hc, ⟨-, rfl⟩ | ⟨hst, hrec, rfl⟩ | ⟨hst, record, -, -, rfl⟩⟩ :=
        returns_handleEnvelopeDeclined.mp h
      · exact .same rfl
      · exact .declined envelopeId k c rfl hc hst rfl hrec
      · refine .declined envelopeId k c rfl hc hst rfl fun r hr => ?_
        rw [transition_records, if_pos rfl] at hr
        obtain ⟨r0, -, rfl⟩ := Option.map_eq_some_iff.mp hr
        rfl
    | _ => cases hw

theorem step_contracts (env : Env) (db : Db) (op : Op) : ContractsMove op db (step env db op) := by
  rcases step_cases env db op with h | ⟨-, envelopes, h⟩
  · exact .of_accepted h
  · exact .same (by rw [h])

/-! ## One contract for each record, one envelope for each contract -/

/-- No two contracts are of one record or carry one envelope, and the provider
    knows every envelope a contract carries. -/
structure ContractsInv (db : Db) : Prop where
  apart : db.contracts.Pairwise fun a b =>
    a.recordId ≠ b.recordId ∧ ∀ e, ¬ (a.envelopeId = some e ∧ b.envelopeId = some e)
  known : ∀ k c e, db.contracts.get? k = some c → c.envelopeId = some e → e < db.envelopes.next

theorem contractsInv_init (users : Store User) (customers : Store Customer) :
    ContractsInv (Db.init users customers) where
  apart := Store.pairwise_empty
  known := fun k c e h => by simp [Db.init] at h

theorem contracts_apart_symm (a b : ConsignmentContract)
    (h : a.recordId ≠ b.recordId ∧ ∀ e, ¬ (a.envelopeId = some e ∧ b.envelopeId = some e)) :
    b.recordId ≠ a.recordId ∧ ∀ e, ¬ (b.envelopeId = some e ∧ a.envelopeId = some e) :=
  ⟨Ne.symm h.1, fun e he => h.2 e ⟨he.2, he.1⟩⟩

/-- A webhook finds any contract that carries its envelope. -/
theorem ContractsInv.finds {db : Db} (hi : ContractsInv db) {k e : ℕ} {c : ConsignmentContract}
    (hk : db.contracts.get? k = some c) (he : c.envelopeId = some e) : FindsContract db e k c := by
  refine Store.scalar_select_some_iff.mpr ⟨⟨hk, decide_eq_true he⟩, fun k' c' hk' hp => ?_⟩
  by_contra hne
  exact (hi.apart k' k c' c hne hk' hk).2 e ⟨of_decide_eq_true hp, he⟩

/-- A change of a contract's status keeps the invariant. -/
theorem ContractsInv.modify {db db' : Db} (hi : ContractsInv db) {k : ℕ}
    {f : ConsignmentContract → ConsignmentContract}
    (hf : ∀ c, (f c).recordId = c.recordId ∧ (f c).envelopeId = c.envelopeId)
    (h : db'.contracts = db.contracts.modify k f)
    (hnext : db.envelopes.next ≤ db'.envelopes.next) : ContractsInv db' := by
  refine ⟨?_, fun k' c e hk' he => ?_⟩
  · rw [h]
    refine hi.apart.modify contracts_apart_symm fun a b _ hab => ?_
    rw [(hf a).1, (hf a).2]
    exact hab
  · rw [h, Store.get?_modify] at hk'
    split_ifs at hk'
    · obtain ⟨c0, hc0, rfl⟩ := Option.map_eq_some_iff.mp hk'
      rw [(hf c0).2] at he
      have := hi.known k' c0 e hc0 he
      omega
    · have := hi.known k' c e hk' he
      omega

theorem step_contractsInv (env : Env) {db : Db} (op : Op) (hi : ContractsInv db) :
    ContractsInv (step env db op) := by
  have hnext := step_envelopes env db op
  cases step_contracts env db op with
  | same h =>
    refine ⟨by rw [h]; exact hi.apart, fun k c e hk he => ?_⟩
    rw [h] at hk
    have := hi.known k c e hk he
    omega
  | sent recordId id hop hput hold hother hnext' hrec =>
    refine ⟨(hi.apart.put_iff contracts_apart_symm hput).mpr fun k c hne hk => ?_,
      fun k c e hk he => ?_⟩
    · refine ⟨Ne.symm (hother k c hne hk), fun e he => ?_⟩
      -- the new envelope is one no contract carries
      have hlt := hi.known k c e hk he.2
      have heq : db.envelopes.next = e := Option.some.inj he.1
      omega
    · rw [hput] at hk
      split_ifs at hk
      · cases hk
        have heq : db.envelopes.next = e := Option.some.inj he
        omega
      · have := hi.known k c e hk he
        omega
  | completed now envelopeId k c hop hc hst h hrec =>
    exact hi.modify (f := fun c => { c with status := .completed, signedAt := some now })
      (fun _ => ⟨rfl, rfl⟩) h hnext
  | declined envelopeId k c hop hc hst h hrec =>
    exact hi.modify (f := fun c => { c with status := .declined }) (fun _ => ⟨rfl, rfl⟩) h hnext

end TempleConsign
