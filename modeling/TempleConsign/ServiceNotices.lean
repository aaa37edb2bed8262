import TempleConsign.Notices

/-!
# Notices of the other services

Every other `enqueue` call of `src/api`: contracts, change requests, price
changes, management review, rejections, the calendar, health alerts, account
deletion, sync results, data exports and lock overrides. Several of them store
the variables of a registered template instead of a text: no dispatcher renders
it.
-/

namespace TempleConsign

/-! ## Contracts and approvals -/

/-- `dispatch_contract` (`esign_service.py` line 138). -/
def contractNotice (envelopeId : String) (customerUser : Recipient) (id : ℕ)
    (record : NotifiedRecord) (make model : Option String) : Notice where
  key := .esignDispatch envelopeId
  userId := some customerUser.id
  channel := .email
  template := "customer_esign_ready"
  payload := ⟨[("to_email", .str customerUser.email), ("first_name", .str customerUser.firstName),
    ("reference_number", .str (record.ref id)),
    ("make_model", .str (strip ((truthy make).getD "" ++ " " ++ (truthy model).getD ""))),
    ("envelope_id", .str envelopeId)]⟩

/-- `_notify_managers` (`price_change_service.py` line 107), for the active
    managers. -/
def priceChangeNotices (change : ℕ) (managers : List Recipient)
    (referenceNumber makeModel approvedPrice proposedPrice changePct : String) : List Notice :=
  managers.map fun manager =>
    { key := .priceChangeReapproval change manager.id
      userId := some manager.id
      channel := .email
      template := "manager_price_change_reapproval"
      payload := ⟨[("to_email", .str manager.email), ("reference_number", .str referenceNumber),
        ("make_model", .str makeModel), ("approved_price", .str approvedPrice),
        ("proposed_price", .str proposedPrice), ("change_pct", .str changePct)]⟩ }

/-- `_notify_managers_review_required` (`appraisal_submission_service.py` line
    421), for the active managers. -/
def managementReviewNotices (submission : ℕ) (managers : List Recipient)
    (referenceNumber redFlagSummary : String) (make model : Option String) : List Notice :=
  managers.map fun manager =>
    { key := .managementReview submission manager.id
      userId := some manager.id
      channel := .email
      template := "management_review_flagged_email"
      payload := ⟨[("reference_number", .str referenceNumber),
        ("make", .str ((truthy make).getD "Unknown")),
        ("model", .str ((truthy model).getD "equipment")),
        ("red_flag_summary", .str redFlagSummary)]⟩ }

/-- The payload of both notices of `reject`. -/
def rejectionPayload (id : ℕ) (record : NotifiedRecord) (make model : Option String)
    (rejectionNotes : String) (sendBack : Bool) : Payload :=
  ⟨[("reference_number", .str (record.ref id)), ("make", .str ((truthy make).getD "Unknown")),
    ("model", .str ((truthy model).getD "equipment")), ("rejection_notes", .str rejectionNotes),
    ("send_back", .bool sendBack)]⟩

/-- The notices of `reject` (`approval_service.py` lines 249-278). -/
def rejectNotices (submission : ℕ) (appraiserId : Option ℕ) (id : ℕ) (record : NotifiedRecord)
    (make model : Option String) (rejectionNotes : String) (sendBack : Bool) : List Notice :=
  let payload := rejectionPayload id record make model rejectionNotes sendBack
  (match appraiserId with
    | some appraiser =>
      if sendBack then
        [{ key := .rejectionAppraiser submission
           userId := some appraiser
           channel := .email
           template := "appraisal_rejected_appraiser_email"
           payload := payload }]
      else []
    | none => []) ++
  match record.assignedSalesRepId with
  | some rep =>
    [{ key := .rejectionSalesRep submission
       userId := some rep
       channel := .email
       template := "appraisal_rejected_sales_rep_email"
       payload := payload }]
  | none => []

/-! ## Change requests -/

/-- The address of `_notify_sales` (`change_request_service.py` line 105): the
    assigned rep's if active, else the configured one. -/
def salesEmail (d : Deployment) (T : Tables) (record : NotifiedRecord) : Option String :=
  let fallback := truthy (some (strip d.salesOpsEmail))
  match record.assignedSalesRepId.bind T.users with
  | some rep => if rep.active then some rep.email else fallback
  | none => fallback

/-- `customer_notes` on one line, cut at 200 characters. -/
def snippet (customerNotes : Option String) : String :=
  String.ofList (((customerNotes.getD "").toList.map fun c => if c = '\n' then ' ' else c).take 200)

/-- `_notify_sales`. -/
def changeRequestNotices (d : Deployment) (T : Tables) (change : ℕ) (requestType : RequestType)
    (customerNotes : Option String) (customerUser : Recipient) (id : ℕ)
    (record : NotifiedRecord) : List Notice :=
  match salesEmail d T record with
  | none => []
  | some repEmail =>
    [{ key := .changeRequest change
       userId := record.assignedSalesRepId
       channel := .email
       template := "sales_change_request"
       payload := ⟨[("to_email", .str repEmail),
         ("subject", .str ("Change request on " ++ record.ref id ++ ": " ++ requestType.value)),
         ("html_body", .str ("<p>Customer " ++ customerUser.email ++
           " submitted a change request on equipment record <strong>" ++ record.ref id ++
           "</strong>.</p>" ++ "<p>Type: <strong>" ++ requestType.value ++ "</strong></p>" ++
           "<p>Notes: " ++ (truthy (some (snippet customerNotes))).getD "(none)" ++ "</p>" ++
           "<p>Open the sales console to review and respond.</p>")),
         ("change_request_id", .str change.repr), ("reference_number", .str (record.ref id))]⟩ }]

/-- `s.replace("\n", "<br>")`. -/
def breakLines (s : String) : String :=
  String.ofList (s.toList.flatMap fun c => if c = '\n' then "<br>".toList else [c])

/-- The resolution email of `resolve_change_request` (line 256). -/
def changeResolutionNotice (change : ℕ) (newStatus : ChangeStatus) (requestType : RequestType)
    (notes : Option String) (customerUser : Recipient) (id : ℕ) (record : NotifiedRecord) :
    Notice :=
  let verb := if newStatus = .resolved then "resolved" else "declined"
  { key := .changeRequestResolution change newStatus
    userId := some customerUser.id
    channel := .email
    template := "customer_change_request_resolution"
    payload := ⟨[("to_email", .str customerUser.email),
      ("subject", .str ("Your change request on " ++ record.ref id ++ " was " ++ verb)),
      ("html_body", .str ("<p>Hi " ++ customerUser.firstName ++ ",</p>" ++ "<p>Your <strong>" ++
        requestType.value ++ "</strong> request on equipment record <strong>" ++ record.ref id ++
        "</strong> has been <strong>" ++ verb ++ "</strong> by our sales team.</p>" ++
        ((truthy notes).map fun n =>
          "<p><strong>Notes:</strong><br>" ++ breakLines n ++ "</p>").getD "" ++
        "<p>— The Temple Heavy Equipment team</p>")),
      ("change_request_id", .str change.repr), ("reference_number", .str (record.ref id))]⟩ }

/-! ## The calendar -/

/-- `_enqueue_appraiser_email` (`calendar_service.py` line 511) with
    `kind="scheduled"`; `scheduledAt` is `isoformat()`. -/
def appraisalScheduledNotices (event : ℕ) (appraiser : Recipient) (id : ℕ)
    (record : NotifiedRecord) (scheduledAt : String) (siteAddress : Option String) :
    List Notice :=
  if appraiser.email = "" || !appraiser.active then []
  else
    [{ key := .appraisalScheduled event appraiser.id
       userId := some appraiser.id
       channel := .email
       template := "appraisal_scheduled_appraiser"
       payload := ⟨[("to_email", .str appraiser.email),
         ("subject", .str ("Appraisal scheduled — " ++ record.ref id)),
         ("html_body", .str ("<p>Hi " ++ (truthy (some appraiser.firstName)).getD "team" ++
           ",</p>" ++ "<p>You have been scheduled for an appraisal of <strong>" ++ record.ref id ++
           "</strong> at <strong>" ++ scheduledAt ++ "</strong>.</p>" ++ "<p>Site: " ++
           (truthy siteAddress).getD "(none provided)" ++ ".</p>")),
         ("reference_number", .str (record.ref id)), ("scheduled_at", .str scheduledAt),
         ("site_address", .optional siteAddress)]⟩ }]

/-- `_enqueue_appraiser_email` with `kind="cancelled"`. -/
def appraisalCancelledNotices (event : ℕ) (appraiser : Recipient) (id : ℕ)
    (record : NotifiedRecord) (scheduledAt : String) (siteAddress : Option String) :
    List Notice :=
  if appraiser.email = "" || !appraiser.active then []
  else
    [{ key := .appraisalCancelled event appraiser.id
       userId := some appraiser.id
       channel := .email
       template := "appraisal_cancelled_appraiser"
       payload := ⟨[("to_email", .str appraiser.email),
         ("subject", .str ("Appraisal cancelled — " ++ record.ref id)),
         ("html_body", .str ("<p>Hi " ++ (truthy (some appraiser.firstName)).getD "team" ++
           ",</p>" ++ "<p>Your appraisal for <strong>" ++ record.ref id ++
           "</strong> previously scheduled at <strong>" ++ scheduledAt ++
           "</strong> has been cancelled.</p>")),
         ("reference_number", .str (record.ref id)), ("scheduled_at", .str scheduledAt),
         ("site_address", .optional siteAddress)]⟩ }]

/-- `_enqueue_customer_cancellation_email` (line 561). -/
def customerCancellationNotices (event : ℕ) (customerUser : Recipient) (id : ℕ)
    (record : NotifiedRecord) (scheduledAt : String) : List Notice :=
  if customerUser.email = "" then []
  else
    [{ key := .appraisalCancelledCustomer event
       userId := some customerUser.id
       channel := .email
       template := "appraisal_cancelled_customer"
       payload := ⟨[("to_email", .str customerUser.email),
         ("subject", .str ("Your appraisal has been rescheduled — " ++ record.ref id)),
         ("html_body", .str ("<p>Hi " ++ customerUser.firstName ++ ",</p>" ++
           "<p>The appraisal for your equipment submission (<strong>" ++ record.ref id ++
           "</strong>) previously scheduled at <strong>" ++ scheduledAt ++
           "</strong> has been cancelled. A sales rep will follow up to find a new time.</p>")),
         ("reference_number", .str (record.ref id))]⟩ }]

/-! ## Health alerts -/

/-- `service_health_state` as the alert reads it. -/
structure ServiceHealth where
  serviceName : String
  red : Bool
  errorDetail : String
  checkedAt : String
  lastAlertedAt : Option ℤ

/-- One administrator of `_maybe_dispatch_alert` (`health_check_service.py`
    lines 269-316); `seed` is the check's time to the second. -/
def healthAlertNotice (row : ServiceHealth) (seed : String) (admin : Recipient)
    (prefs : Option Preference) : Option Notice :=
  let key := Key.healthAlert row.serviceName seed admin.id
  match (prefs.map Preference.channel).getD .email with
  | .email => some {
      key := key
      userId := some admin.id
      channel := .email
      template := "service_health_red_alert"
      payload := ⟨[("to_email", .str admin.email),
        ("variables", .dict [("service_name", .str row.serviceName),
          ("error_detail", .str row.errorDetail), ("checked_at", .str row.checkedAt)])]⟩ }
  | .sms =>
    match truthy (prefs.bind Preference.phoneNumber) with
    | none => none
    | some phone => some {
        key := key
        userId := some admin.id
        channel := .sms
        template := "service_health_red_alert_sms"
        payload := ⟨[("to_number", .str phone),
          ("variables", .dict [("service_name", .str row.serviceName),
            ("error_detail", .str row.errorDetail)])]⟩ }
  | .slack => some {
      key := key
      userId := some admin.id
      channel := .slack
      template := "service_health_red_alert_slack"
      payload := ⟨[("variables", .dict [("service_name", .str row.serviceName),
        ("error_detail", .str row.errorDetail), ("checked_at", .str row.checkedAt)])]⟩ }

/-- `_ALERT_COOLDOWN`. -/
def alertCooldown : ℤ := minutes 15

/-- `_maybe_dispatch_alert`: a service turned red, and was not alerted about in
    the last 15 minutes. -/
def healthAlertNotices (T : Tables) (row : ServiceHealth) (priorRed : Bool) (now : ℤ)
    (seed : String) (admins : List Recipient) : List Notice :=
  if !row.red || priorRed then []
  else if row.lastAlertedAt.any fun last => now - last < alertCooldown then []
  else admins.filterMap fun admin => healthAlertNotice row seed admin (T.preferences admin.id)

/-! ## Accounts -/

/-- `request_deletion` (`account_deletion_service.py` line 74). -/
def deletionRequestedNotice (user : Recipient) (today graceUntil graceUntilDate : String) :
    Notice where
  key := .deletionRequested user.id today
  userId := some user.id
  channel := .email
  template := "account_deletion_requested"
  payload := ⟨[("to_email", .str user.email),
    ("subject", .str "Your account deletion request was received"),
    ("html_body", .str ("<p>Hi " ++ user.firstName ++ ",</p>" ++
      "<p>We received your request to delete your Temple Heavy Equipment account.</p>" ++
      "<p>Your account is scheduled for deletion on <strong>" ++ graceUntilDate ++
      "</strong>. You can cancel this request from your portal any time before that date.</p>" ++
      "<p>If you did not request this, sign in and cancel — then change your password.</p>" ++
      "<p>— The Temple Heavy Equipment team</p>")),
    ("grace_until", .str graceUntil)]⟩

/-- `cancel_deletion` (line 111). -/
def deletionCancelledNotice (user : Recipient) (now : String) : Notice where
  key := .deletionCancelled user.id now
  userId := some user.id
  channel := .email
  template := "account_deletion_cancelled"
  payload := ⟨[("to_email", .str user.email), ("subject", .str "Account deletion cancelled"),
    ("html_body", .str ("<p>Hi " ++ user.firstName ++ ",</p>" ++
      "<p>Your pending account deletion has been cancelled. " ++
      "Your account is active and your data remains intact.</p>" ++
      "<p>— The Temple Heavy Equipment team</p>"))]⟩

/-- `data_export_service.py` line 348. -/
def dataExportNotice (job : ℕ) (user : Recipient) (url : String) : Notice where
  key := .dataExport job
  userId := some user.id
  channel := .email
  template := "data_export_ready"
  payload := ⟨[("to_email", .str user.email),
    ("subject", .str "Your Temple Heavy Equipment data export is ready"),
    ("html_body", .str ("<p>Hi " ++ user.firstName ++ ",</p>" ++
      "<p>Your data export is ready. The download link below is valid for 7 days:</p>" ++
      "<p><a href=\"" ++ url ++ "\">Download your data</a></p>" ++
      "<p>If you did not request this export, contact support immediately.</p>" ++
      "<p>— The Temple Heavy Equipment team</p>")),
    ("download_url", .str url)]⟩

/-! ## The app -/

/-- `enqueue_sync_confirmation` (`notification_service.py` line 347). -/
def syncConfirmationNotices (T : Tables) (submission : ℕ) (appraiserId : Option ℕ) :
    List Notice :=
  match appraiserId with
  | none => []
  | some appraiser =>
    (T.iosTokens appraiser).map fun token =>
      { key := .syncConfirmation submission token.id
        userId := some appraiser
        channel := .apns
        template := "sync_confirmation_apns"
        payload := ⟨[("token", .str token.token), ("device_environment", .str token.environment),
          ("device_token_id", .str token.id.repr), ("title", .str ""), ("body", .str ""),
          ("data", .dict [("content-available", .int 1),
            ("reference_number", .str submission.repr)])]⟩ }

/-- `enqueue_sync_failed` (line 385). -/
def syncFailedNotices (T : Tables) (submission : ℕ) (appraiserId : Option ℕ) (reason : String) :
    List Notice :=
  match appraiserId with
  | none => []
  | some appraiser =>
    (T.iosTokens appraiser).map fun token =>
      { key := .syncFailed submission token.id
        userId := some appraiser
        channel := .apns
        template := "sync_failed_apns"
        payload := ⟨[("token", .str token.token), ("device_environment", .str token.environment),
          ("device_token_id", .str token.id.repr), ("title", .str "Sync Failed"),
          ("body", .str ("Appraisal could not be synced: " ++ reason)),
          ("data", .dict [("reference_number", .str submission.repr),
            ("error_reason", .str reason)])]⟩ }

/-! ## Record locks -/

/-- The variables of `record_lock_overridden_sms` (`record_locks.py` line 213). -/
def lockSmsVariables (ref managerFirstName : String) : Variables :=
  [("reference", ref), ("manager_first_name", managerFirstName)]

/-- The variables of `record_lock_overridden` (line 239). -/
def lockEmailVariables (prior : Recipient) (ref managerFirstName : String) : Variables :=
  [("first_name", (truthy (some prior.firstName)).getD "team"), ("reference", ref),
    ("manager_first_name", managerFirstName)]

/-- The SMS branch of `_notify_prior_lock_holder` (lines 207-228). -/
def lockSms (d : Deployment) (T : Tables) (id : ℕ) (prior : Recipient)
    (destination ref managerFirstName : String) : Option (List Notice) := do
  let sms ← renderWithOverrides d.jinja T.overrides recordLockOverriddenSms
    (lockSmsVariables ref managerFirstName)
  some [{
    key := .lockOverridden id prior.id
    userId := some prior.id
    channel := .sms
    template := "record_lock_overridden_sms"
    payload := ⟨[("to_number", .str destination), ("body", .str sms.body),
      ("reference_number", .str ref)]⟩ }]

/-- The email branch (lines 234-256). -/
def lockEmail (d : Deployment) (T : Tables) (id : ℕ) (prior : Recipient)
    (destination ref managerFirstName : String) : Option (List Notice) := do
  let rendered ← renderWithOverrides d.jinja T.overrides recordLockOverridden
    (lockEmailVariables prior ref managerFirstName)
  some [{
    key := .lockOverridden id prior.id
    userId := some prior.id
    channel := .email
    template := "record_lock_overridden"
    payload := ⟨[("to_email", .str destination), ("subject", .optional rendered.subject),
      ("html_body", .str rendered.body), ("reference_number", .str ref)]⟩ }]

/-- `_notify_prior_lock_holder` (`record_locks.py` line 186). -/
def lockOverriddenNotices (d : Deployment) (T : Tables) (id priorUserId : ℕ)
    (ref managerFirstName : String) : Option (List Notice) :=
  match T.users priorUserId with
  | none => some []
  | some prior =>
    if !prior.active then some []
    else
      let resolved := resolveChannel T prior
      if resolved.sms && resolved.destination ≠ "" then
        lockSms d T id prior resolved.destination ref managerFirstName
      else if resolved.destination = "" then some []
      else lockEmail d T id prior resolved.destination ref managerFirstName

end TempleConsign
