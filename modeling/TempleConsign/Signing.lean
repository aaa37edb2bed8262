import TempleConsign.Database

/-!
# Consignment contracts and eSign webhooks

Model of `src/api/services/esign_service.py` and of the webhook handlers of
`src/api/routers/esign.py`. Whether the signing provider's call succeeds is an
argument; the stub provider always does.

Results:
* `dispatch_cases`: what a dispatch, returned or raised, left in the database.
* `returns_handleEnvelopeCompleted`, `returns_handleEnvelopeDeclined`: what each
  handler checked and wrote when it returned.
-/

namespace TempleConsign

open ServiceLib

/-! ## Dispatch -/

/-- The rows `dispatch_contract` takes for the record's contract. -/
def isContractOf (recordId : ℕ) (_ : ℕ) (c : ConsignmentContract) : Bool := c.recordId = recordId

/-- The rows `dispatch_contract` takes for approved submissions (line 74). It
    does not look at `deleted_at`. -/
def isApprovedFor (recordId : ℕ) (_ : ℕ) (s : AppraisalSubmission) : Bool :=
  s.recordId = recordId && s.status = .approved

/-- The document of lines 103-110. -/
def documentData (recordId : ℕ) (record : EquipmentRecord) (submission : AppraisalSubmission) :
    DocumentData where
  make := submission.make.getD ""
  model := submission.model.getD ""
  year := submission.year.filter (· ≠ 0)
  referenceNumber := (truthy record.referenceNumber).getD (toString recordId)
  purchaseOffer := submission.approvedPurchaseOffer.getD 0
  consignmentPrice := submission.suggestedConsignmentPrice.getD 0

/-- The arguments of `create_envelope` (line 113). -/
def envelopeFor (recordId : ℕ) (record : EquipmentRecord) (submission : AppraisalSubmission)
    (customerUser : User) : Envelope where
  recordId := recordId
  customerEmail := customerUser.email
  customerName := strip (customerUser.firstName ++ " " ++ customerUser.lastName)
  documentData := documentData recordId record submission

/-- `svc.create_envelope(...)` (line 113). -/
def createEnvelope (providerOk : Bool) (envelope : Envelope) : Service ℕ := do
  Svc.require (providerOk = true) .signingFailed
  let db ← get
  modify fun db => { db with envelopes := db.envelopes.create envelope }
  pure db.envelopes.next

/-- The new or the reused contract row (lines 120-133). -/
def Db.storeContract (db : Db) (recordId : ℕ) (contract : Option (ℕ × ConsignmentContract))
    (envelopeId : ℕ) : Db :=
  match contract with
  | some (id, _) =>
    { db with contracts := db.contracts.modify id fun c =>
        { c with envelopeId := some envelopeId, status := .sent, signedAt := none } }
  | none =>
    { db with
      contracts := db.contracts.create
        { recordId, envelopeId := some envelopeId, status := .sent, signedAt := none } }

/-- `dispatch_contract` from the submission lookup on (line 74), for a record
    without a contract or with a declined one. -/
def sendEnvelope (providerOk : Bool) (recordId : ℕ) (record : EquipmentRecord)
    (contract : Option (ℕ × ConsignmentContract)) : Service Unit := do
  let found ← selectOne Db.submissions (isApprovedFor recordId)
  match found with
  | none => pure ()
  | some (_, submission) => do
    let db ← get
    match customerUser db record with
    | none => pure ()
    | some customerUser => do
      let envelopeId ← createEnvelope providerOk
        (envelopeFor recordId record submission customerUser)
      modify fun db => db.storeContract recordId contract envelopeId

/-- `dispatch_contract` (line 45). -/
def dispatchContract (providerOk : Bool) (recordId : ℕ) (record : EquipmentRecord) :
    Service Unit := do
  let existing ← selectOne Db.contracts (isContractOf recordId)
  Svc.onlyIf (∀ contract ∈ existing, contract.2.status = .declined)
    (sendEnvelope providerOk recordId record existing)

/-- What a dispatch that sends an envelope leaves. -/
def Db.sent (db : Db) (recordId : ℕ) (contract : Option (ℕ × ConsignmentContract))
    (envelope : Envelope) : Db :=
  ({ db with envelopes := db.envelopes.create envelope }).storeContract recordId contract
    db.envelopes.next

/-! ## Webhooks -/

/-- `_fetch_contract` (line 66). -/
def fetchContract (envelopeId : ℕ) : Service (ℕ × ConsignmentContract) := do
  let contract ← selectOne Db.contracts fun _ c => c.envelopeId = some envelopeId
  Svc.expect contract (.httpException 404 s!"Envelope {envelopeId} not found")

/-- `_handle_envelope_completed` (line 156). -/
def handleEnvelopeCompleted (now : ℤ) (envelopeId : ℕ) : Service Unit := do
  let (contractId, contract) ← fetchContract envelopeId
  Svc.onlyIf (contract.status ≠ .completed) do
    modify fun db => { db with contracts := db.contracts.modify contractId fun c =>
      { c with status := .completed, signedAt := some now } }
    let db ← get
    match db.records.get? contract.recordId with
    | none => pure ()
    | some record =>
      recordTransition contract.recordId record .esignedPendingPublish none
        (some "Customer signed consignment agreement.")

/-- `_handle_envelope_declined` (line 207). -/
def handleEnvelopeDeclined (envelopeId : ℕ) : Service Unit := do
  let (contractId, contract) ← fetchContract envelopeId
  Svc.onlyIf (contract.status ≠ .declined) do
    modify fun db => { db with contracts := db.contracts.modify contractId fun c =>
      { c with status := .declined } }
    let db ← get
    match db.records.get? contract.recordId with
    | none => pure ()
    | some record =>
      Svc.onlyIf (record.status ≠ .approvedPendingEsign)
        (recordTransition contract.recordId record .approvedPendingEsign none
          (some "Customer declined consignment agreement — ready to re-send."))

/-! ## What each service did -/

/-- `Sends db recordId record contract envelope`: the dispatch for `record`
    finds no contract or the declined `contract`, one approved submission and a
    customer with an account, and builds `envelope` from them. -/
def Sends (db : Db) (recordId : ℕ) (record : EquipmentRecord)
    (contract : Option (ℕ × ConsignmentContract)) (envelope : Envelope) : Prop :=
  Store.scalarOneOrNone (db.contracts.select (isContractOf recordId)) = some contract ∧
  (∀ c ∈ contract, c.2.status = .declined) ∧
  ∃ k s user, Store.scalarOneOrNone (db.submissions.select (isApprovedFor recordId)) =
      some (some (k, s)) ∧ customerUser db record = some user ∧
    envelope = envelopeFor recordId record s user

/-- A dispatch either writes nothing or sends an envelope. -/
theorem dispatch_cases (providerOk : Bool) (recordId : ℕ) (record : EquipmentRecord) (db : Db) :
    (Svc.exec (dispatchContract providerOk recordId record) db).2 = db ∨
    ∃ contract envelope, Sends db recordId record contract envelope ∧ providerOk = true ∧
      (Svc.exec (dispatchContract providerOk recordId record) db).2 =
        db.sent recordId contract envelope := by
  simp only [dispatchContract, Svc.exec_bind, exec_selectOne]
  cases hc : Store.scalarOneOrNone (db.contracts.select (isContractOf recordId)) with
  | none => exact Or.inl rfl
  | some contract =>
    simp only [Svc.onlyIf]
    split_ifs with hd
    · simp only [sendEnvelope, Svc.exec_bind, exec_selectOne]
      cases hs : Store.scalarOneOrNone (db.submissions.select (isApprovedFor recordId)) with
      | none => exact Or.inl rfl
      | some found =>
        cases found with
        | none => exact Or.inl rfl
        | some ks =>
          simp only [Svc.exec_bind, Svc.exec_get]
          cases hu : customerUser db record with
          | none => exact Or.inl rfl
          | some user =>
            cases providerOk with
            | false => exact Or.inl rfl
            | true => exact Or.inr ⟨contract, _, ⟨hc, hd, ks.1, ks.2, user, hs, hu, rfl⟩, rfl, rfl⟩
    · exact Or.inl rfl

/-- A contract that is not declined is kept as it is. -/
theorem dispatch_keeps {providerOk : Bool} {recordId : ℕ} {record : EquipmentRecord} {db : Db}
    {c : ℕ × ConsignmentContract}
    (hc : Store.scalarOneOrNone (db.contracts.select (isContractOf recordId)) = some (some c))
    (hd : c.2.status ≠ .declined) :
    (Svc.exec (dispatchContract providerOk recordId record) db).2 = db := by
  simp [dispatchContract, Svc.exec_bind, exec_selectOne, hc, Svc.onlyIf, hd]

/-- With the provider up, a dispatch that finds all it needs sends. -/
theorem dispatch_sends {recordId : ℕ} {record : EquipmentRecord} {db : Db}
    {contract : Option (ℕ × ConsignmentContract)} {envelope : Envelope}
    (h : Sends db recordId record contract envelope) :
    (Svc.exec (dispatchContract true recordId record) db).2 =
      db.sent recordId contract envelope := by
  obtain ⟨hc, hd, k, s, user, hs, hu, rfl⟩ := h
  simp only [dispatchContract, Svc.exec_bind, exec_selectOne, hc, Svc.onlyIf, if_pos hd,
    sendEnvelope, hs, Svc.exec_get, hu]
  rfl

theorem returns_fetchContract {envelopeId : ℕ} {db db' : Db} {c : ℕ × ConsignmentContract} :
    Svc.Returns (fetchContract envelopeId) db c db' ↔
      Store.scalarOneOrNone (db.contracts.select fun _ c => c.envelopeId = some envelopeId) =
        some (some c) ∧ db = db' := by
  simp [fetchContract]

/-- The completed handler skips a completed contract; else it signs the
    contract and moves the record to `esigned_pending_publish`. -/
theorem returns_handleEnvelopeCompleted {now : ℤ} {envelopeId : ℕ} {db db' : Db} {u : Unit} :
    Svc.Returns (handleEnvelopeCompleted now envelopeId) db u db' ↔
      ∃ c : ℕ × ConsignmentContract,
        Store.scalarOneOrNone (db.contracts.select fun _ c => c.envelopeId = some envelopeId) =
          some (some c) ∧
        ((c.2.status = .completed ∧ db = db') ∨
         (c.2.status ≠ .completed ∧ db.records.get? c.2.recordId = none ∧
            { db with contracts := db.contracts.modify c.1 fun r =>
                { r with status := .completed, signedAt := some now } } = db') ∨
         (c.2.status ≠ .completed ∧ ∃ record, db.records.get? c.2.recordId = some record ∧
            record.status ≠ .esignedPendingPublish ∧
            ({ db with contracts := db.contracts.modify c.1 fun r =>
                { r with status := .completed, signedAt := some now } }).transition
              c.2.recordId record.status .esignedPendingPublish none
              (some "Customer signed consignment agreement.") = db')) := by
  simp only [handleEnvelopeCompleted,
    Svc.returns_bind_of_read fun _ _ => returns_fetchContract, Svc.returns_onlyIf,
    Svc.returns_modify_bind, Svc.returns_get_bind]
  refine exists_congr fun c => and_congr_right fun _ => ?_
  have hforb (record : EquipmentRecord) :
      isForbiddenTransition record.status .esignedPendingPublish = false :=
    not_forbidden_into _ (by decide)
  by_cases hc : c.2.status = .completed
  · simp [hc]
  · cases db.records.get? c.2.recordId with
    | none => simp [hc]
    | some record => simp [hc, hforb]

/-- The declined handler skips a declined contract; else it declines the
    contract, leaving `signed_at`, and moves the record to
    `approved_pending_esign` unless it is there. -/
theorem returns_handleEnvelopeDeclined {envelopeId : ℕ} {db db' : Db} {u : Unit} :
    Svc.Returns (handleEnvelopeDeclined envelopeId) db u db' ↔
      ∃ c : ℕ × ConsignmentContract,
        Store.scalarOneOrNone (db.contracts.select fun _ c => c.envelopeId = some envelopeId) =
          some (some c) ∧
        ((c.2.status = .declined ∧ db = db') ∨
         (c.2.status ≠ .declined ∧
          (∀ record, db.records.get? c.2.recordId = some record →
            record.status = .approvedPendingEsign) ∧
            { db with contracts := db.contracts.modify c.1 fun r =>
                { r with status := .declined } } = db') ∨
         (c.2.status ≠ .declined ∧ ∃ record, db.records.get? c.2.recordId = some record ∧
            record.status ≠ .approvedPendingEsign ∧
            ({ db with contracts := db.contracts.modify c.1 fun r =>
                { r with status := .declined } }).transition
              c.2.recordId record.status .approvedPendingEsign none
              (some "Customer declined consignment agreement — ready to re-send.") = db')) := by
  simp only [handleEnvelopeDeclined,
    Svc.returns_bind_of_read fun _ _ => returns_fetchContract, Svc.returns_onlyIf,
    Svc.returns_modify_bind, Svc.returns_get_bind]
  refine exists_congr fun c => and_congr_right fun _ => ?_
  have hforb (record : EquipmentRecord) :
      isForbiddenTransition record.status .approvedPendingEsign = false :=
    not_forbidden_into _ (by decide)
  by_cases hc : c.2.status = .declined
  · simp [hc]
  · cases db.records.get? c.2.recordId with
    | none => simp [hc]
    | some record =>
      by_cases hr : record.status = .approvedPendingEsign
      · simp [hc, hr]
      · simp [hc, hr, hforb]

end TempleConsign
