import TempleConsign.ServiceNotices
import TempleConsign.WorkerLoop

/-!
# Producers, queue and dispatchers

The notification system as a whole: the operations that enqueue notices, the
queue with its workers, and the dispatchers of
`src/api/services/notification_service.py` (`_dispatch_email`, `_dispatch_sms`,
`_dispatch_apns`, `_dispatch_slack`) that read the payloads. What the other
services do to the tables between two operations is arbitrary.

Results:
* `missingField_iff`: when a dispatcher refuses a payload.
* `Operation.run_enqueues`: the notices of each operation.
* `queueStep_enqueue`: an `enqueue` call inserts its row unless the key is taken.
-/

namespace TempleConsign

open ServiceLib

/-! ## Dispatchers -/

/-- What the sending call of a channel answers: `failed` and `skipped` are the
    answers of `apns_dispatch_service.send` and the permanent errors of
    `slack_dispatch_service.send`. -/
inductive Sent
  | delivered
  | skipped
  | failed (detail : String)
  | raised (error : String)

/-- `_dispatch_email` (line 222); `send_email` returns whatever happens, or
    raises. -/
def dispatchEmail (payload : Payload) (sent : Sent) : Outcome :=
  if payload.has "to_email" && payload.has "subject" && payload.has "html_body" then
    match sent with
    | .raised error => .raised error
    | _ => .returned .delivered none
  else .returned .failed (some "email payload missing to_email/subject/html_body")

/-- `_dispatch_sms` (line 238). -/
def dispatchSms (d : Deployment) (payload : Payload) (sent : Sent) : Outcome :=
  if !d.twilioConfigured then .returned .skipped (some "sms_skipped_not_configured")
  else if payload.has "to_number" && payload.has "body" then
    match sent with
    | .raised error => .raised error
    | _ => .returned .delivered none
  else .returned .failed (some "sms payload missing to_number/body")

/-- `_dispatch_apns` (line 268). -/
def dispatchApns (payload : Payload) (sent : Sent) : Outcome :=
  if payload.has "token" then
    match sent with
    | .delivered => .returned .delivered none
    | .skipped => .returned .skipped (some "apns_skipped_not_configured")
    | .failed _ => .returned .failed none
    | .raised error => .raised error
  else .returned .failed (some "apns payload missing token")

/-- `_dispatch_slack` (line 318). -/
def dispatchSlack (payload : Payload) (sent : Sent) : Outcome :=
  if payload.has "text" || payload.has "body" then
    match sent with
    | .delivered => .returned .delivered none
    | .skipped => .returned .skipped (some "slack_skipped_not_configured")
    | .failed detail =>
      .returned .failed (some (String.ofList (("slack_permanent: " ++ detail).toList.take 1000)))
    | .raised error => .raised error
  else .returned .failed (some "slack payload missing text")

def dispatchOn (d : Deployment) (channel : Channel) (payload : Payload) (sent : Sent) : Outcome :=
  match channel with
  | .email => dispatchEmail payload sent
  | .sms => dispatchSms d payload sent
  | .slack => dispatchSlack payload sent
  | .apns => dispatchApns payload sent

/-- The channel with this value. -/
def Channel.ofValue? (v : String) : Option Channel :=
  [Channel.email, .sms, .slack, .apns].find? fun c => c.value = v

/-- The `try` of `process_job` (lines 163-181); the table admits no other
    channel. -/
def dispatchJob (d : Deployment) (sent : Sent) (job : Job) : Outcome :=
  match Channel.ofValue? job.channel with
  | some channel => dispatchOn d channel job.payload sent
  | none => .returned .failed none

/-- The fields that the channel's dispatcher requires. -/
def requiredFields (channel : Channel) (payload : Payload) : Bool :=
  match channel with
  | .email => payload.has "to_email" && payload.has "subject" && payload.has "html_body"
  | .sms => payload.has "to_number" && payload.has "body"
  | .slack => payload.has "text" || payload.has "body"
  | .apns => payload.has "token"

/-- What a dispatcher writes to `last_error` when it misses a field. -/
def missingFieldError : Channel → String
  | .email => "email payload missing to_email/subject/html_body"
  | .sms => "sms payload missing to_number/body"
  | .slack => "slack payload missing text"
  | .apns => "apns payload missing token"

/-- The job ends as failed because of a missing field. -/
def Outcome.missingField (o : Outcome) : Prop :=
  ∃ channel : Channel, o = .returned .failed (some (missingFieldError channel))

theorem Channel.ofValue?_value (c : Channel) : Channel.ofValue? c.value = some c := by
  cases c <;> decide

/-- The text of a permanent Slack error is not that of a missing field. -/
theorem slackPermanent_ne (detail : String) (channel : Channel) :
    String.ofList (("slack_permanent: " ++ detail).toList.take 1000) ≠
      missingFieldError channel := by
  intro h
  have h5 := congrArg (fun s => s.toList[5]?) h
  simp only [String.toList_ofList, String.toList_append] at h5
  rw [List.getElem?_take_of_lt (by omega), List.getElem?_append_left (by decide)] at h5
  revert h5
  cases channel <;> decide

@[simp] theorem not_missingField_raised (error : String) :
    ¬ (Outcome.raised error).missingField := by
  rintro ⟨channel, h⟩
  cases h

@[simp] theorem missingField_returned (status : Dispatched) (lastError : Option String) :
    (Outcome.returned status lastError).missingField ↔
      status = .failed ∧ ∃ channel : Channel, lastError = some (missingFieldError channel) := by
  constructor
  · rintro ⟨channel, h⟩
    cases h
    exact ⟨rfl, channel, rfl⟩
  · rintro ⟨rfl, channel, rfl⟩
    exact ⟨channel, rfl⟩

/-- **When a dispatch ends as failed because of a missing field**: exactly when
    a required field is missing, except that SMS is skipped while Twilio is not
    configured. -/
theorem missingField_iff (d : Deployment) (channel : Channel) (payload : Payload) (sent : Sent) :
    (dispatchOn d channel payload sent).missingField ↔
      requiredFields channel payload = false ∧ (channel = .sms → d.twilioConfigured = true) := by
  cases channel with
  | email =>
    cases hf : requiredFields .email payload <;> simp only [requiredFields] at hf <;>
      simp only [dispatchOn, dispatchEmail, hf]
    · simpa using ⟨Channel.email, rfl⟩
    · cases sent <;> simp
  | sms =>
    cases hf : requiredFields .sms payload <;> simp only [requiredFields] at hf <;>
      cases ht : d.twilioConfigured <;> simp only [dispatchOn, dispatchSms, hf, ht]
    · simp
    · simpa using ⟨Channel.sms, rfl⟩
    · simp
    · cases sent <;> simp
  | slack =>
    cases hf : requiredFields .slack payload <;> simp only [requiredFields] at hf <;>
      simp only [dispatchOn, dispatchSlack, hf]
    · simpa using ⟨Channel.slack, rfl⟩
    · cases sent with
      | failed detail => simpa using slackPermanent_ne detail
      | delivered => simp
      | skipped => simp
      | raised error => simp
  | apns =>
    cases hf : requiredFields .apns payload <;> simp only [requiredFields] at hf <;>
      simp only [dispatchOn, dispatchApns, hf]
    · simpa using ⟨Channel.apns, rfl⟩
    · cases sent <;> simp

/-! ## Operations -/

/-- The outcomes of `route_for_record` (`lead_routing_service.py` line 91): a
    rule's user, the default one or none. -/
inductive RoutingDecision
  | rule (userId : ℕ)
  | default (userId : ℕ)
  | unassigned

def RoutingDecision.assigned : RoutingDecision → Option (ℕ × AssignmentTrigger)
  | .rule userId => some (userId, .leadRouting)
  | .default userId => some (userId, .defaultSalesRep)
  | .unassigned => none

/-- The operations that enqueue notices, with what they read beside the tables.
    `record_transition` stands for every service that calls it. -/
inductive Operation
  | recordTransition (id : ℕ) (target : Status) (note : Option String)
      (customer : Option Recipient) (notifyOverride : Option Bool)
  | applyAssignment (id : ℕ) (salesRepId : Option ℕ)
  | submitIntake (user : Recipient) (referenceNumber make model : Option String)
      (decision : RoutingDecision)
  | reassignRecord (id leaving joining : ℕ)
  | reject (submission : ℕ) (appraiserId : Option ℕ) (id : ℕ) (make model : Option String)
      (rejectionNotes : String) (sendBack : Bool)
  | dispatchContract (envelopeId : String) (customerUser : Recipient) (id : ℕ)
      (make model : Option String)
  | priceChange (change : ℕ) (managers : List Recipient)
      (referenceNumber makeModel approvedPrice proposedPrice changePct : String)
  | managementReview (submission : ℕ) (managers : List Recipient)
      (referenceNumber redFlagSummary : String) (make model : Option String)
  | submitChangeRequest (change : ℕ) (requestType : RequestType) (customerNotes : Option String)
      (customerUser : Recipient) (id : ℕ)
  | resolveChangeRequest (change : ℕ) (newStatus : ChangeStatus) (requestType : RequestType)
      (notes : Option String) (customerUser : Recipient) (id : ℕ)
  | scheduleAppraisal (event : ℕ) (appraiser : Recipient) (id : ℕ) (scheduledAt : String)
      (siteAddress : Option String)
  | cancelAppraisal (event : ℕ) (appraiser : Recipient) (id : ℕ) (scheduledAt : String)
      (siteAddress : Option String)
  | cancelAppraisalCustomer (event : ℕ) (customerUser : Recipient) (id : ℕ) (scheduledAt : String)
  | healthAlert (row : ServiceHealth) (priorRed : Bool) (seed : String) (admins : List Recipient)
  | requestDeletion (user : Recipient) (today graceUntil graceUntilDate : String)
  | cancelDeletion (user : Recipient) (instant : String)
  | exportData (job : ℕ) (user : Recipient) (url : String)
  | confirmSync (submission : ℕ) (appraiserId : Option ℕ)
  | failSync (submission : ℕ) (appraiserId : Option ℕ) (reason : String)
  | overrideLock (id priorUserId : ℕ) (ref managerFirstName : String)

/-- The columns that a write changes. -/
def Tables.setRecord (T : Tables) (id : ℕ) (f : NotifiedRecord → NotifiedRecord) : Tables :=
  { T with records := T.records.modify id f }

/-- `_require_user_has_role` (`sales_service.py` line 396) for a sales rep. -/
def mayBeSalesRep (T : Tables) (userId : ℕ) : Bool :=
  (T.users userId).any fun user => user.role ∈ [RoleSlug.sales, .salesManager, .admin]

/-- The notices of `apply_assignment` (line 219): only a change to a user, and
    to another one, is notified. -/
def applyAssignmentNotices (T : Tables) (id : ℕ) (record : NotifiedRecord)
    (salesRepId : Option ℕ) : List Notice :=
  match salesRepId with
  | none => []
  | some rep =>
    if record.assignedSalesRepId = some rep then []
    else assignmentNotices T id record rep .manualOverride

/-- The new tables and the notices of an operation; `none` when it is refused or
    raises, which rolls it back. -/
def Operation.run (d : Deployment) (T : Tables) (now : ℤ) : Operation →
    Option (Tables × List Notice)
  | .recordTransition id target note customer notifyOverride => do
    let record ← T.records.get? id
    if record.status = target then none
    else if isForbiddenTransition record.status target then none
    else
      let notices ← transitionNotices d T id { record with status := target } target note customer
        notifyOverride
      some (T.setRecord id fun r => { r with status := target }, notices)
  | .applyAssignment id salesRepId => do
    let record ← T.records.get? id
    if salesRepId.any fun rep => !mayBeSalesRep T rep then none
    else
      some (T.setRecord id fun r => { r with assignedSalesRepId := salesRepId },
        applyAssignmentNotices T id record salesRepId)
  | .submitIntake user referenceNumber make model decision =>
    let record : NotifiedRecord :=
      ⟨.newRequest, referenceNumber, make, model, decision.assigned.map Prod.fst⟩
    let id := T.records.next
    some ({ T with records := T.records.create record },
      (match decision.assigned with
        | some (rep, trigger) => assignmentNotices T id record rep trigger
        | none => []) ++ [confirmationNotice id record user])
  | .reassignRecord id leaving joining => do
    let record ← T.records.get? id
    let reassign := fun r : NotifiedRecord =>
      { r with
        assignedSalesRepId :=
          if r.assignedSalesRepId = some leaving then some joining else r.assignedSalesRepId }
    some (T.setRecord id reassign,
      assignmentNotices T id (reassign record) joining .adminDeactivation)
  | .reject submission appraiserId id make model rejectionNotes sendBack => do
    let record ← T.records.get? id
    some (T, rejectNotices submission appraiserId id record make model rejectionNotes sendBack)
  | .dispatchContract envelopeId customerUser id make model => do
    let record ← T.records.get? id
    some (T, [contractNotice envelopeId customerUser id record make model])
  | .priceChange change managers referenceNumber makeModel approvedPrice proposedPrice changePct =>
    some (T, priceChangeNotices change managers referenceNumber makeModel approvedPrice
      proposedPrice changePct)
  | .managementReview submission managers referenceNumber redFlagSummary make model =>
    some (T, managementReviewNotices submission managers referenceNumber redFlagSummary make model)
  | .submitChangeRequest change requestType customerNotes customerUser id => do
    let record ← T.records.get? id
    some (T, changeRequestNotices d T change requestType customerNotes customerUser id record)
  | .resolveChangeRequest change newStatus requestType notes customerUser id => do
    let record ← T.records.get? id
    some (T, [changeResolutionNotice change newStatus requestType notes customerUser id record])
  | .scheduleAppraisal event appraiser id scheduledAt siteAddress => do
    let record ← T.records.get? id
    some (T, appraisalScheduledNotices event appraiser id record scheduledAt siteAddress)
  | .cancelAppraisal event appraiser id scheduledAt siteAddress => do
    let record ← T.records.get? id
    some (T, appraisalCancelledNotices event appraiser id record scheduledAt siteAddress)
  | .cancelAppraisalCustomer event customerUser id scheduledAt => do
    let record ← T.records.get? id
    some (T, customerCancellationNotices event customerUser id record scheduledAt)
  | .healthAlert row priorRed seed admins =>
    some (T, healthAlertNotices T row priorRed now seed admins)
  | .requestDeletion user today graceUntil graceUntilDate =>
    some (T, [deletionRequestedNotice user today graceUntil graceUntilDate])
  | .cancelDeletion user instant => some (T, [deletionCancelledNotice user instant])
  | .exportData job user url => some (T, [dataExportNotice job user url])
  | .confirmSync submission appraiserId =>
    some (T, syncConfirmationNotices T submission appraiserId)
  | .failSync submission appraiserId reason =>
    some (T, syncFailedNotices T submission appraiserId reason)
  | .overrideLock id priorUserId ref managerFirstName => do
    let notices ← lockOverriddenNotices d T id priorUserId ref managerFirstName
    some (T, notices)

/-- What an operation passes to `enqueue` when it succeeds. -/
def Operation.Enqueues (d : Deployment) (T : Tables) (now : ℤ) : Operation → List Notice → Prop
  | .recordTransition id target note customer notifyOverride, notices =>
    ∃ record, T.records.get? id = some record ∧
      transitionNotices d T id { record with status := target } target note customer
        notifyOverride = some notices
  | .applyAssignment id salesRepId, notices =>
    ∃ record, T.records.get? id = some record ∧
      notices = applyAssignmentNotices T id record salesRepId
  | .submitIntake user _ _ _ decision, notices =>
    ∃ record, notices =
      (match decision.assigned with
        | some (rep, trigger) => assignmentNotices T T.records.next record rep trigger
        | none => []) ++ [confirmationNotice T.records.next record user]
  | .reassignRecord id _ joining, notices =>
    ∃ record, notices = assignmentNotices T id record joining .adminDeactivation
  | .reject submission appraiserId id make model rejectionNotes sendBack, notices =>
    ∃ record, T.records.get? id = some record ∧
      notices = rejectNotices submission appraiserId id record make model rejectionNotes sendBack
  | .dispatchContract envelopeId customerUser id make model, notices =>
    ∃ record, notices = [contractNotice envelopeId customerUser id record make model]
  | .priceChange change managers referenceNumber makeModel approvedPrice proposedPrice changePct,
      notices =>
    notices = priceChangeNotices change managers referenceNumber makeModel approvedPrice
      proposedPrice changePct
  | .managementReview submission managers referenceNumber redFlagSummary make model, notices =>
    notices = managementReviewNotices submission managers referenceNumber redFlagSummary make model
  | .submitChangeRequest change requestType customerNotes customerUser id, notices =>
    ∃ record, notices = changeRequestNotices d T change requestType customerNotes customerUser id
      record
  | .resolveChangeRequest change newStatus requestType notes customerUser id, notices =>
    ∃ record, notices =
      [changeResolutionNotice change newStatus requestType notes customerUser id record]
  | .scheduleAppraisal event appraiser id scheduledAt siteAddress, notices =>
    ∃ record, notices = appraisalScheduledNotices event appraiser id record scheduledAt siteAddress
  | .cancelAppraisal event appraiser id scheduledAt siteAddress, notices =>
    ∃ record, notices = appraisalCancelledNotices event appraiser id record scheduledAt siteAddress
  | .cancelAppraisalCustomer event customerUser id scheduledAt, notices =>
    ∃ record, notices = customerCancellationNotices event customerUser id record scheduledAt
  | .healthAlert row priorRed seed admins, notices =>
    notices = healthAlertNotices T row priorRed now seed admins
  | .requestDeletion user today graceUntil graceUntilDate, notices =>
    notices = [deletionRequestedNotice user today graceUntil graceUntilDate]
  | .cancelDeletion user instant, notices => notices = [deletionCancelledNotice user instant]
  | .exportData job user url, notices => notices = [dataExportNotice job user url]
  | .confirmSync submission appraiserId, notices =>
    notices = syncConfirmationNotices T submission appraiserId
  | .failSync submission appraiserId reason, notices =>
    notices = syncFailedNotices T submission appraiserId reason
  | .overrideLock id priorUserId ref managerFirstName, notices =>
    lockOverriddenNotices d T id priorUserId ref managerFirstName = some notices

/-- The notices of an operation come from its producer. -/
theorem Operation.run_enqueues {d : Deployment} {T T' : Tables} {now : ℤ} {o : Operation}
    {notices : List Notice} (h : o.run d T now = some (T', notices)) :
    o.Enqueues d T now notices := by
  cases o with
  | recordTransition id target note customer notifyOverride =>
    simp only [Operation.run, Option.bind_eq_bind, Option.bind_eq_some_iff] at h
    obtain ⟨record, hrecord, h⟩ := h
    split_ifs at h
    obtain ⟨ns, hns, h⟩ := Option.bind_eq_some_iff.mp h
    cases h
    exact ⟨record, hrecord, hns⟩
  | applyAssignment id salesRepId =>
    simp only [Operation.run, Option.bind_eq_bind, Option.bind_eq_some_iff] at h
    obtain ⟨record, hrecord, h⟩ := h
    split_ifs at h
    cases h
    exact ⟨record, hrecord, rfl⟩
  | submitIntake user referenceNumber make model decision =>
    cases h
    exact ⟨_, rfl⟩
  | reject submission appraiserId id make model rejectionNotes sendBack =>
    obtain ⟨record, hrecord, h⟩ := Option.bind_eq_some_iff.mp h
    cases h
    exact ⟨record, hrecord, rfl⟩
  | overrideLock id priorUserId ref managerFirstName =>
    obtain ⟨ns, hns, h⟩ := Option.bind_eq_some_iff.mp h
    cases h
    exact hns
  | reassignRecord | dispatchContract | submitChangeRequest | resolveChangeRequest
  | scheduleAppraisal | cancelAppraisal | cancelAppraisalCustomer =>
    -- these read the record and go on
    obtain ⟨record, -, h⟩ := Option.bind_eq_some_iff.mp h
    cases h
    exact ⟨_, rfl⟩
  | priceChange | managementReview | healthAlert | requestDeletion | cancelDeletion | exportData
  | confirmSync | failSync =>
    cases h
    rfl

/-! ## Runs -/

/-- The steps of the workers, with the dispatchers in place. -/
inductive WorkerMove
  | select (now : ℤ) (limit : ℕ)
  | commit (claim : ℕ)
  | abort (claim : ℕ)
  | process (claim : ℕ) (now : ℤ) (sent : Sent)
  | claimLost (claim : ℕ)
  | outcomeRaised (claim : ℕ)
  | outcomeLost (claim : ℕ) (now : ℤ) (sent : Sent)

/-- The outcome of dispatching the next job of a claim. -/
def Queue.nextOutcome (d : Deployment) (q : Queue) (c : ℕ) (sent : Sent) : Outcome :=
  match q.claims.get? c with
  | some (.taken ((_, job) :: _)) => dispatchJob d sent job
  | _ => .raised ""

def WorkerMove.op (d : Deployment) (q : Queue) : WorkerMove → WorkerOp
  | .select now limit => .step (.select now limit)
  | .commit c => .step (.commit c)
  | .abort c => .step (.abort c)
  | .process c now sent => .step (.process c now (q.nextOutcome d c sent))
  | .claimLost c => .claimLost c
  | .outcomeRaised c => .outcomeRaised c
  | .outcomeLost c now sent => .outcomeLost c now (q.nextOutcome d c sent)

structure Outbox where
  tables : Tables
  queue : Queue

/-- The `enqueue` calls of an operation, in one transaction. -/
def enqueueAll (now : ℤ) (notices : List Notice) (q : Queue) : Queue :=
  notices.foldl (fun q n => queueStep q (.enqueue now n.request)) q

/-- The steps: an operation that enqueues, anything the other services do to
    the tables, and the workers. -/
inductive OutboxOp
  | operation (now : ℤ) (o : Operation)
  | edit (tables : Tables)
  | worker (move : WorkerMove)

def outboxStep (d : Deployment) (s : Outbox) : OutboxOp → Outbox
  | .operation now o =>
    match o.run d s.tables now with
    | some (tables, notices) => ⟨tables, enqueueAll now notices s.queue⟩
    | none => s
  | .edit tables => { s with tables := tables }
  | .worker move => { s with queue := workerStep s.queue (move.op d s.queue) }

/-- Nothing is enqueued yet. -/
def Outbox.start (T : Tables) : Outbox := ⟨T, Queue.empty⟩

/-! ## Enqueueing -/

variable {q : Queue}

theorem enqueueAll_cons (now : ℤ) (n : Notice) (rest : List Notice) (q : Queue) :
    enqueueAll now (n :: rest) q = enqueueAll now rest (queueStep q (.enqueue now n.request)) := rfl

/-- One call inserts the row, unless the key is taken. -/
theorem queueStep_enqueue (q : Queue) (now : ℤ) (n : Notice) :
    queueStep q (.enqueue now n.request) =
      if q.jobs.exists? (fun _ j => j.idempotencyKey = n.key.text) then q
      else { q with jobs := q.jobs.create (n.request.row now) } := by
  have hch : n.request.channel ∈ channels := by
    simp only [Notice.request]
    cases n.channel <;> decide
  by_cases hkey : q.jobs.exists? fun _ j => j.idempotencyKey = n.key.text
  · have hret : Svc.Returns (enqueue now n.request) q.jobs none q.jobs := by
      simp only [enqueue, Svc.returns_require_bind, Svc.returns_get_bind, Svc.returns_ite,
        Svc.returns_pure]
      exact ⟨hch, Or.inl ⟨hkey, trivial, trivial⟩⟩
    rw [if_pos hkey]
    simp only [queueStep, Svc.request_of_returns hret]
  · have hret : Svc.Returns (enqueue now n.request) q.jobs (some (n.request.row now))
        (q.jobs.create (n.request.row now)) := by
      simp only [enqueue, Svc.returns_require_bind, Svc.returns_get_bind, Svc.returns_ite,
        Svc.returns_modify_bind, Svc.returns_pure]
      exact ⟨hch, Or.inr ⟨hkey, trivial, trivial⟩⟩
    rw [if_neg hkey]
    simp only [queueStep, Svc.request_of_returns hret]

end TempleConsign
