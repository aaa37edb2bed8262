import TempleConsign.NotificationQueue
import TempleConsign.Templates

/-!
# Notices

What the services pass to `notification_service.enqueue`: the idempotency key,
the channel, the template's name and a payload that each service builds for
itself. Here are the rows they read, the channel a user is reached on
(`notification_preferences_service.resolve_channel`) and the notices of status
transitions and of assignments (`src/api/services/equipment_status_service.py`,
`src/api/services/equipment_service.py`); `ServiceNotices` has the others.

A producer returns `none` when it raises: an override may not render.
Instants and amounts come as the texts they are formatted to.

Results:
* `resolveChannel_destination`: a user is always reached somewhere.
-/

namespace TempleConsign

open ServiceLib

/-! ## Rows -/

/-- `User` (`models.py` line 79) as the notifications read it. Every way to
    write the address validates it as one (`EmailStr`) or writes a fixed text. -/
structure Recipient where
  id : ℕ
  email : String
  firstName : String
  role : RoleSlug
  /-- `status == "active"`. -/
  active : Bool
  email_ne : email ≠ ""

/-- The channels a user may prefer (`notification_preferences.channel`). -/
inductive PreferredChannel
  | email
  | sms
  | slack
  deriving DecidableEq

/-- `NotificationPreference`. -/
structure Preference where
  channel : PreferredChannel
  phoneNumber : Option String

/-- `DeviceToken` (line 243) of an iOS device; `register` refuses an empty one. -/
structure Device where
  id : ℕ
  token : String
  environment : String
  token_ne : token ≠ ""

/-- `EquipmentRecord` (line 418) as the notifications read it. -/
structure NotifiedRecord where
  status : Status
  referenceNumber : Option String
  customerMake : Option String
  customerModel : Option String
  assignedSalesRepId : Option ℕ

/-- The tables that the producers read. -/
structure Tables where
  records : Store NotifiedRecord
  users : ℕ → Option Recipient
  preferences : ℕ → Option Preference
  watchers : ℕ → List ℕ
  /-- `tokens_for_user(user_id, platform="ios")`. -/
  iosTokens : ℕ → List Device
  overrides : Overrides

/-- The template engine and the settings that the producers and dispatchers
    read. -/
structure Deployment where
  jinja : Jinja
  salesOpsEmail : String
  twilioConfigured : Bool

/-! ## Idempotency keys -/

/-- The triggers of an assignment notification. -/
inductive AssignmentTrigger
  | leadRouting
  | defaultSalesRep
  | manualOverride
  | adminDeactivation
  deriving DecidableEq

def AssignmentTrigger.value : AssignmentTrigger → String
  | leadRouting => "lead_routing"
  | defaultSalesRep => "default_sales_rep"
  | manualOverride => "manual_override"
  | adminDeactivation => "admin_deactivation"

/-- The idempotency keys of all producers. -/
inductive Key
  | statusUpdate (record : ℕ) (target : Status)
  | salesRepStatus (record : ℕ) (target : Status)
  | statusWatcher (record : ℕ) (target : Status) (watcher : ℕ)
  | recordAssigned (record user : ℕ) (trigger : AssignmentTrigger)
  | recordAssignedApns (record token : ℕ) (trigger : AssignmentTrigger)
  | intakeConfirmation (record : ℕ)
  | esignDispatch (envelopeId : String)
  | changeRequest (change : ℕ)
  | changeRequestResolution (change : ℕ) (status : ChangeStatus)
  | priceChangeReapproval (change manager : ℕ)
  | managementReview (submission manager : ℕ)
  | rejectionAppraiser (submission : ℕ)
  | rejectionSalesRep (submission : ℕ)
  | appraisalScheduled (event user : ℕ)
  | appraisalCancelled (event user : ℕ)
  | appraisalCancelledCustomer (event : ℕ)
  | healthAlert (service seed : String) (admin : ℕ)
  | deletionRequested (user : ℕ) (date : String)
  | deletionCancelled (user : ℕ) (instant : String)
  | syncConfirmation (submission token : ℕ)
  | syncFailed (submission token : ℕ)
  | dataExport (job : ℕ)
  | lockOverridden (record user : ℕ)
  deriving DecidableEq

/-- The parts of a key that colons separate. -/
def Key.parts : Key → List String
  | statusUpdate r target => ["status_update", r.repr, target.value]
  | salesRepStatus r target => ["sales_rep_status", r.repr, target.value]
  | statusWatcher r target w => ["status_watcher", r.repr, target.value, w.repr]
  | recordAssigned r u trigger => ["record_assigned", r.repr, u.repr, trigger.value]
  | recordAssignedApns r t trigger => ["record_assigned_apns", r.repr, t.repr, trigger.value]
  | intakeConfirmation r => ["intake_confirmation", r.repr]
  | esignDispatch envelopeId => ["esign_dispatch", envelopeId]
  | changeRequest c => ["change_request", c.repr]
  | changeRequestResolution c status => ["change_request_resolution", c.repr, status.value]
  | priceChangeReapproval c m => ["price_change_reapproval", c.repr, m.repr]
  | managementReview s m => ["mgmt-review-" ++ s.repr ++ "-" ++ m.repr]
  | rejectionAppraiser s => ["rejection-appraiser-" ++ s.repr]
  | rejectionSalesRep s => ["rejection-sales-rep-" ++ s.repr]
  | appraisalScheduled e u => ["appraisal_scheduled", e.repr, u.repr]
  | appraisalCancelled e u => ["appraisal_cancelled", e.repr, u.repr]
  | appraisalCancelledCustomer e => ["appraisal_cancelled_customer", e.repr]
  | healthAlert service seed admin => ["health_alert", service, seed, admin.repr]
  | deletionRequested u date => ["account_deletion_requested", u.repr, date]
  | deletionCancelled u instant => ["account_deletion_cancelled", u.repr, instant]
  | syncConfirmation s t => ["sync_confirmation", s.repr, t.repr]
  | syncFailed s t => ["sync_failed", s.repr, t.repr]
  | dataExport j => ["data_export", j.repr]
  | lockOverridden r u => ["lock_overridden", r.repr, u.repr]

/-- The key as it is stored. -/
def Key.text (k : Key) : String := ":".intercalate k.parts

/-! ## Notices -/

/-- The channels of `notification_jobs`. -/
inductive Channel
  | email
  | sms
  | slack
  | apns
  deriving DecidableEq

def Channel.value : Channel → String
  | email => "email"
  | sms => "sms"
  | slack => "slack"
  | apns => "apns"

/-- The arguments of one `enqueue` call. -/
structure Notice where
  key : Key
  userId : Option ℕ
  channel : Channel
  template : String
  payload : Payload

/-- The call: no service passes `scheduled_for`. -/
def Notice.request (n : Notice) : EnqueueRequest where
  idempotencyKey := n.key.text
  userId := n.userId
  channel := n.channel.value
  template := n.template
  payload := n.payload
  scheduledFor := none
  maxAttempts := defaultMaxAttempts
  maxAttempts_pos := defaultMaxAttempts_pos

/-! ## Channels -/

/-- `ResolvedChannel`: SMS or email, with the number or address. -/
structure ResolvedChannel where
  sms : Bool
  destination : String

/-- `resolve_channel` (`notification_preferences_service.py` line 111): a
    preference for Slack is answered by email. -/
def resolveChannel (T : Tables) (user : Recipient) : ResolvedChannel :=
  match T.preferences user.id with
  | none => ⟨false, user.email⟩
  | some pref =>
    if pref.channel = .sms then
      match truthy pref.phoneNumber with
      | none => ⟨false, user.email⟩
      | some phone => ⟨true, phone⟩
    else ⟨false, user.email⟩

theorem truthy_ne {s : Option String} {t : String} (h : truthy s = some t) : t ≠ "" := by
  have := (Option.filter_eq_some_iff.mp h).2
  exact of_decide_eq_true this

/-- No channel is resolved without a destination. -/
theorem resolveChannel_destination (T : Tables) (user : Recipient) :
    (resolveChannel T user).destination ≠ "" := by
  unfold resolveChannel
  split
  · exact user.email_ne
  · split_ifs
    · split
      · exact user.email_ne
      · next h => exact truthy_ne h
    · exact user.email_ne

/-! ## Status transitions -/

/-- `record.reference_number or str(record.id)`. -/
def NotifiedRecord.ref (record : NotifiedRecord) (id : ℕ) : String :=
  (truthy record.referenceNumber).getD id.repr

/-- The variables of `status_update` (lines 58-68 and 304-315). -/
def statusVariables (record : NotifiedRecord) (target : Status) (note : Option String)
    (firstName : String) : Variables :=
  [("first_name", firstName),
    ("reference_number", (truthy record.referenceNumber).getD "(no reference yet)"),
    ("to_status_display", (registry target).display),
    ("to_status", target.value),
    ("note_html", ((truthy note).map fun n => "<p>" ++ n ++ "</p>").getD "")]

/-- `_compose_email` (line 44). -/
def composeEmail (d : Deployment) (T : Tables) (user : Recipient) (record : NotifiedRecord)
    (target : Status) (note : Option String) : Option (String × String) := do
  let rendered ← renderWithOverrides d.jinja T.overrides statusUpdateTemplate
    (statusVariables record target note user.firstName)
  some (rendered.subject.getD "", rendered.body)

/-- The customer's part of `record_transition` (lines 132-149). -/
def notifyCustomer (d : Deployment) (T : Tables) (id : ℕ) (record : NotifiedRecord)
    (target : Status) (note : Option String) (customer : Recipient) : Option (List Notice) := do
  let (subject, body) ← composeEmail d T customer record target note
  some [{
    key := .statusUpdate id target
    userId := some customer.id
    channel := .email
    template := "status_" ++ target.value
    payload := ⟨[("to_email", .str customer.email), ("subject", .str subject),
      ("html_body", .str body), ("reference_number", .optional record.referenceNumber),
      ("to_status", .str target.value)]⟩ }]

/-- `_sales_rep_template_name` with `channel="email"` (line 190). -/
def salesRepEmailTemplate : Status → Template
  | .approvedPendingEsign => salesRepApprovedPendingEsign
  | .esignedPendingPublish => salesRepEsignedPendingPublish
  | _ => salesRepGenericStatus

/-- `_sales_rep_template_name` with `channel="sms"`. -/
def salesRepSmsTemplate : Status → Template
  | .approvedPendingEsign => salesRepApprovedPendingEsignSms
  | .esignedPendingPublish => salesRepEsignedPendingPublishSms
  | _ => salesRepGenericStatusSms

/-- `" ".join(part for part in (make, model) if part)`. -/
def makeModel (record : NotifiedRecord) : String :=
  " ".intercalate ([record.customerMake, record.customerModel].filterMap truthy)

/-- The variables of `_compose_sales_rep_email` (line 196). -/
def salesRepEmailVariables (rep : Recipient) (id : ℕ) (record : NotifiedRecord)
    (target : Status) : Variables :=
  [("first_name", (truthy (some rep.firstName)).getD "team"),
    ("reference_number", record.ref id),
    ("make_model", (truthy (some (makeModel record))).getD "your equipment record"),
    ("to_status", target.value)]

/-- The variables of `_compose_sales_rep_sms` (line 222). -/
def salesRepSmsVariables (id : ℕ) (record : NotifiedRecord) (target : Status) : Variables :=
  [("reference_number", record.ref id), ("to_status", target.value)]

/-- The SMS branch of `_notify_sales_rep` (lines 247-263). -/
def salesRepSms (d : Deployment) (T : Tables) (id : ℕ) (record : NotifiedRecord) (target : Status)
    (rep : Recipient) (destination : String) : Option (List Notice) := do
  let rendered ← renderWithOverrides d.jinja T.overrides (salesRepSmsTemplate target)
    (salesRepSmsVariables id record target)
  some [{
    key := .salesRepStatus id target
    userId := some rep.id
    channel := .sms
    template := "sales_rep_" ++ target.value
    payload := ⟨[("to_number", .str destination), ("body", .str rendered.body),
      ("reference_number", .optional record.referenceNumber), ("to_status", .str target.value)]⟩ }]

/-- The email branch of `_notify_sales_rep` (lines 275-290). -/
def salesRepEmail (d : Deployment) (T : Tables) (id : ℕ) (record : NotifiedRecord)
    (target : Status) (rep : Recipient) (destination : String) : Option (List Notice) := do
  let rendered ← renderWithOverrides d.jinja T.overrides (salesRepEmailTemplate target)
    (salesRepEmailVariables rep id record target)
  some [{
    key := .salesRepStatus id target
    userId := some rep.id
    channel := .email
    template := "sales_rep_" ++ target.value
    payload := ⟨[("to_email", .str destination), ("subject", .str (rendered.subject.getD "")),
      ("html_body", .str rendered.body), ("reference_number", .optional record.referenceNumber),
      ("to_status", .str target.value)]⟩ }]

/-- `_notify_sales_rep` (line 226). -/
def notifySalesRep (d : Deployment) (T : Tables) (id : ℕ) (record : NotifiedRecord)
    (target : Status) (repId : ℕ) : Option (List Notice) :=
  match T.users repId with
  | none => some []
  | some rep =>
    if !rep.active then some []
    else
      let resolved := resolveChannel T rep
      if resolved.sms && resolved.destination ≠ "" then
        salesRepSms d T id record target rep resolved.destination
      else if resolved.destination = "" then some []
      else salesRepEmail d T id record target rep resolved.destination

/-- One watcher of the loop of `_notify_watchers` (lines 316-341). -/
def watcherNotice (T : Tables) (id : ℕ) (record : NotifiedRecord) (target : Status)
    (rendered : Rendered) (watcherId : ℕ) : Option Notice :=
  match T.users watcherId with
  | none => none
  | some watcher =>
    if !watcher.active then none
    else
      let resolved := resolveChannel T watcher
      if resolved.destination = "" then none
      else some {
        key := .statusWatcher id target watcherId
        userId := some watcher.id
        channel := if resolved.sms then .sms else .email
        template := "status_update_watcher"
        payload := ⟨[
          ("to_email", if resolved.sms then .none else .str resolved.destination),
          ("to_number", if resolved.sms then .str resolved.destination else .none),
          ("subject", .optional rendered.subject), ("html_body", .str rendered.body),
          ("body", .str rendered.body), ("reference_number", .optional record.referenceNumber),
          ("to_status", .str target.value)]⟩ }

/-- `_notify_watchers` (line 294). -/
def notifyWatchers (d : Deployment) (T : Tables) (id : ℕ) (record : NotifiedRecord)
    (target : Status) (note : Option String) : Option (List Notice) :=
  if (T.watchers id).isEmpty then some []
  else do
    let rendered ← renderWithOverrides d.jinja T.overrides statusUpdateTemplate
      (statusVariables record target note "team")
    some ((T.watchers id).filterMap (watcherNotice T id record target rendered))

/-- `customer_should_notify` of `record_transition` (line 121). -/
def customerShouldNotify (target : Status) (notifyOverride : Option Bool) : Bool :=
  notifyOverride.getD (registry target).notifiesCustomer

/-- `sales_rep_should_notify` (line 126). -/
def salesRepShouldNotify (target : Status) (notifyOverride : Option Bool) : Bool :=
  notifyOverride.getD (registry target).notifiesSalesRep

/-- The customer's email, if one is to be notified (line 132). -/
def customerNotices (d : Deployment) (T : Tables) (id : ℕ) (record : NotifiedRecord)
    (target : Status) (note : Option String) (customer : Option Recipient)
    (notifyOverride : Option Bool) : Option (List Notice) :=
  match customer with
  | none => some []
  | some user =>
    if customerShouldNotify target notifyOverride then
      notifyCustomer d T id record target note user
    else some []

/-- The assigned sales rep's notice (line 151). -/
def salesRepNotices (d : Deployment) (T : Tables) (id : ℕ) (record : NotifiedRecord)
    (target : Status) (notifyOverride : Option Bool) : Option (List Notice) :=
  match record.assignedSalesRepId with
  | none => some []
  | some repId =>
    if salesRepShouldNotify target notifyOverride then notifySalesRep d T id record target repId
    else some []

/-- The watchers' notices (line 157). -/
def watcherNotices (d : Deployment) (T : Tables) (id : ℕ) (record : NotifiedRecord)
    (target : Status) (note : Option String) (notifyOverride : Option Bool) :
    Option (List Notice) :=
  if customerShouldNotify target notifyOverride then notifyWatchers d T id record target note
  else some []

/-- The notices of a transition that `record_transition` (line 72) accepts. -/
def transitionNotices (d : Deployment) (T : Tables) (id : ℕ) (record : NotifiedRecord)
    (target : Status) (note : Option String) (customer : Option Recipient)
    (notifyOverride : Option Bool) : Option (List Notice) := do
  let toCustomer ← customerNotices d T id record target note customer notifyOverride
  let toSalesRep ← salesRepNotices d T id record target notifyOverride
  let toWatchers ← watcherNotices d T id record target note notifyOverride
  some (toCustomer ++ toSalesRep ++ toWatchers)

/-! ## Assignments -/

/-- What the assignment email and push call the record (line 258). -/
def descriptor (record : NotifiedRecord) (id : ℕ) : String :=
  match truthy (some (strip (makeModel record))) with
  | some makeModel => makeModel ++ " (" ++ record.ref id ++ ")"
  | none => record.ref id

/-- `enqueue_assignment_notification` (`equipment_service.py` line 234). -/
def assignmentNotices (T : Tables) (id : ℕ) (record : NotifiedRecord) (userId : ℕ)
    (trigger : AssignmentTrigger) : List Notice :=
  match T.users userId with
  | none => []
  | some rep =>
    if !rep.active || rep.email = "" then []
    else
      { key := .recordAssigned id userId trigger
        userId := some userId
        channel := .email
        template := "record_assigned"
        payload := ⟨[("to_email", .str rep.email),
          ("subject", .str ("You've been assigned " ++ record.ref id)),
          ("html_body", .str ("<p>Hi " ++ (truthy (some rep.firstName)).getD "team" ++ ",</p>" ++
            "<p>You have been assigned equipment record <strong>" ++ descriptor record id ++
            "</strong>.</p>" ++ "<p>Trigger: <strong>" ++ trigger.value ++ "</strong></p>" ++
            "<p>Open the sales console to review and respond.</p>")),
          ("reference_number", .str (record.ref id)), ("trigger", .str trigger.value)]⟩ } ::
      (T.iosTokens userId).map fun device =>
        { key := .recordAssignedApns id device.id trigger
          userId := some userId
          channel := .apns
          template := "record_assigned_apns"
          payload := ⟨[("token", .str device.token), ("device_token_id", .str device.id.repr),
            ("device_environment", .str device.environment), ("title", .str "New Assignment"),
            ("body", .str ("You've been assigned " ++ descriptor record id ++ ".")),
            ("data", .dict [("type", .str "assignment"), ("record_id", .str id.repr),
              ("reference_number", .str (record.ref id))])]⟩ }

/-- `_enqueue_confirmation` (line 313); Python formats an absent number as
    `None`. -/
def confirmationNotice (id : ℕ) (record : NotifiedRecord) (user : Recipient) : Notice :=
  let reference := record.referenceNumber.getD "None"
  { key := .intakeConfirmation id
    userId := some user.id
    channel := .email
    template := "intake_confirmation"
    payload := ⟨[("to_email", .str user.email),
      ("subject", .str ("Your submission has been received — " ++ reference)),
      ("html_body", .str ("<p>Hi " ++ user.firstName ++ ",</p>" ++
        "<p>We received your equipment submission. Your reference number is <strong>" ++
        reference ++ "</strong>. A Temple Heavy Equipment sales representative will follow up " ++
        "shortly.</p>" ++ "<p>— The Temple Heavy Equipment team</p>")),
      ("reference_number", .optional record.referenceNumber)]⟩ }

end TempleConsign
