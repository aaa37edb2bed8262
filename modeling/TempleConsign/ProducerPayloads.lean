import TempleConsign.Outbox

/-!
# The payloads of the producers

Each producer builds its payload by hand, and each dispatcher refuses one that
misses a field it reads. A notice whose text the service formats has every
field. A notice of a registered template has them unless an administrator's
override renders to nothing. A notice that stores the template's variables has
none of the text fields.

Results:
* `readable_iff`: a rendered text is blank only because of an override.
* `Operation.run_complete_iff`: when every payload of an operation is complete.
-/

namespace TempleConsign

open ServiceLib

variable {d : Deployment} {T : Tables}

/-! ## Contracts -/

/-- The payload has every field that the channel's dispatcher requires. -/
def Notice.Complete (n : Notice) : Prop := requiredFields n.channel n.payload = true

def AllComplete (notices : List Notice) : Prop := ∀ n ∈ notices, n.Complete

@[simp] theorem allComplete_nil : AllComplete [] := fun _ hn => absurd hn List.not_mem_nil

@[simp] theorem allComplete_cons {n : Notice} {notices : List Notice} :
    AllComplete (n :: notices) ↔ n.Complete ∧ AllComplete notices := List.forall_mem_cons

@[simp] theorem allComplete_append {notices notices' : List Notice} :
    AllComplete (notices ++ notices') ↔ AllComplete notices ∧ AllComplete notices' :=
  List.forall_mem_append

theorem allComplete_singleton {n : Notice} : AllComplete [n] ↔ n.Complete := by simp

theorem allComplete_map {α : Type} {f : α → Notice} {l : List α} :
    AllComplete (l.map f) ↔ ∀ a ∈ l, (f a).Complete := List.forall_mem_map

/-- Notices that are all incomplete must not be there. -/
theorem allComplete_map_iff_nil {α : Type} {f : α → Notice} {l : List α}
    (h : ∀ a ∈ l, ¬ (f a).Complete) : AllComplete (l.map f) ↔ l = [] := by
  rw [allComplete_map, List.eq_nil_iff_forall_not_mem]
  exact ⟨fun hc a ha => h a ha (hc a ha), fun hnil a ha => absurd ha (hnil a)⟩

/-! ## Texts -/

/-- No override in place renders to nothing; only an email has a subject. -/
def Readable (d : Deployment) (T : Tables) (t : Template) (vars : Variables) (email : Bool) :
    Prop :=
  ¬ BlankBody d.jinja T.overrides t vars ∧
    (email = true → ¬ BlankSubject d.jinja T.overrides t vars)

/-- The customer's email on a transition is readable. -/
def CustomerText (d : Deployment) (T : Tables) (record : NotifiedRecord) (target : Status)
    (note : Option String) (customer : Option Recipient) (notifyOverride : Option Bool) : Prop :=
  ∀ user, customer = some user → customerShouldNotify target notifyOverride = true →
    Readable d T statusUpdateTemplate (statusVariables record target note user.firstName) true

/-- The notice of an active sales rep is readable on the channel it is sent. -/
def SalesRepText (d : Deployment) (T : Tables) (id : ℕ) (record : NotifiedRecord)
    (target : Status) (notifyOverride : Option Bool) : Prop :=
  ∀ rep, record.assignedSalesRepId.bind T.users = some rep → rep.active = true →
    salesRepShouldNotify target notifyOverride = true →
    if (resolveChannel T rep).sms then
      Readable d T (salesRepSmsTemplate target) (salesRepSmsVariables id record target) false
    else
      Readable d T (salesRepEmailTemplate target) (salesRepEmailVariables rep id record target) true

/-- So are the notices of the active watchers. -/
def WatcherText (d : Deployment) (T : Tables) (id : ℕ) (record : NotifiedRecord)
    (target : Status) (note : Option String) (notifyOverride : Option Bool) : Prop :=
  customerShouldNotify target notifyOverride = true →
    ∀ watcherId ∈ T.watchers id, ∀ watcher, T.users watcherId = some watcher →
      watcher.active = true →
      Readable d T statusUpdateTemplate (statusVariables record target note "team")
        (!(resolveChannel T watcher).sms)

/-- And the notice to an active holder whose lock was overridden. -/
def LockText (d : Deployment) (T : Tables) (priorUserId : ℕ) (ref managerFirstName : String) :
    Prop :=
  ∀ prior, T.users priorUserId = some prior → prior.active = true →
    if (resolveChannel T prior).sms then
      Readable d T recordLockOverriddenSms (lockSmsVariables ref managerFirstName) false
    else
      Readable d T recordLockOverridden (lockEmailVariables prior ref managerFirstName) true

/-- An administrator whom a health alert cannot reach: one who prefers SMS and
    has no phone number. -/
def Unreachable (T : Tables) (admin : Recipient) : Prop :=
  ∃ pref, T.preferences admin.id = some pref ∧ pref.channel = .sms ∧
    truthy pref.phoneNumber = none

/-- When every notice of an operation has a text: the templates rendered are
    readable, and nobody is to be told of the events whose notices store a
    template's variables. -/
def Operation.HasTexts (d : Deployment) (T : Tables) (now : ℤ) : Operation → Prop
  | .recordTransition id target note customer notifyOverride =>
    ∀ record, T.records.get? id = some record →
      CustomerText d T { record with status := target } target note customer notifyOverride ∧
      SalesRepText d T id { record with status := target } target notifyOverride ∧
      WatcherText d T id { record with status := target } target note notifyOverride
  | .reject _ appraiserId id _ _ _ sendBack =>
    (sendBack = true → appraiserId = none) ∧
      ∀ record, T.records.get? id = some record → record.assignedSalesRepId = none
  | .dispatchContract _ _ _ _ _ => False
  | .priceChange _ managers _ _ _ _ _ => managers = []
  | .managementReview _ managers _ _ _ _ => managers = []
  | .healthAlert row priorRed _ admins =>
    row.red = true → priorRed = false →
      (∀ last, row.lastAlertedAt = some last → alertCooldown ≤ now - last) →
      ∀ admin ∈ admins, Unreachable T admin
  | .overrideLock _ priorUserId ref managerFirstName =>
    LockText d T priorUserId ref managerFirstName
  | _ => True

/-! ## Templates -/

/-- **A rendered text is blank only because of an override.** -/
theorem readable_iff {t : Template} {vars : Variables} {r : Rendered} (email : Bool)
    (htext : t.hasText = true) (hr : renderWithOverrides d.jinja T.overrides t vars = some r)
    (hch : email = true → t.channel = .email) :
    Readable d T t vars email ↔ r.body ≠ "" ∧ (email = true → r.subject.getD "" ≠ "") := by
  obtain ⟨hbody, hsubject⟩ := render_blank_iff htext hr
  unfold Readable
  refine and_congr (not_congr hbody.symm) (forall_congr' fun hemail => ?_)
  obtain ⟨subject, hs, hblank⟩ := hsubject (hch hemail)
  rw [hs]
  exact not_congr hblank.symm

theorem statusUpdateTemplate_hasText : statusUpdateTemplate.hasText = true :=
  renderedTemplates_hasText _ List.mem_cons_self

theorem salesRepEmailTemplate_email (target : Status) :
    (salesRepEmailTemplate target).hasText = true ∧
      (salesRepEmailTemplate target).channel = .email := by
  cases target <;> decide

theorem salesRepSmsTemplate_hasText (target : Status) :
    (salesRepSmsTemplate target).hasText = true := by
  cases target <;> decide

/-! ## Transitions -/

variable {id : ℕ} {record : NotifiedRecord} {target : Status} {note : Option String}
  {notifyOverride : Option Bool} {notices : List Notice}

theorem notifyCustomer_complete {customer : Recipient}
    (h : notifyCustomer d T id record target note customer = some notices) :
    AllComplete notices ↔
      Readable d T statusUpdateTemplate (statusVariables record target note customer.firstName)
        true := by
  simp only [notifyCustomer, composeEmail, Option.bind_eq_bind, Option.bind_eq_some_iff] at h
  obtain ⟨⟨subject, body⟩, ⟨r, hr, hcomp⟩, hn⟩ := h
  cases hcomp
  cases hn
  rw [readable_iff _ statusUpdateTemplate_hasText hr fun _ => rfl]
  simp [Notice.Complete, requiredFields, Payload.has, customer.email_ne, and_comm]

theorem customerNotices_complete {customer : Option Recipient}
    (h : customerNotices d T id record target note customer notifyOverride = some notices) :
    AllComplete notices ↔ CustomerText d T record target note customer notifyOverride := by
  unfold customerNotices at h
  unfold CustomerText
  split at h
  · cases h
    simp
  · next user =>
    split_ifs at h with hnotify
    · rw [notifyCustomer_complete h]
      simp [hnotify]
    · cases h
      simp [hnotify]

theorem salesRepSms_complete {rep : Recipient} {destination : String} (hdest : destination ≠ "")
    (h : salesRepSms d T id record target rep destination = some notices) :
    AllComplete notices ↔
      Readable d T (salesRepSmsTemplate target) (salesRepSmsVariables id record target) false := by
  simp only [salesRepSms, Option.bind_eq_bind, Option.bind_eq_some_iff] at h
  obtain ⟨r, hr, hn⟩ := h
  cases hn
  rw [readable_iff _ (salesRepSmsTemplate_hasText target) hr fun hemail => by cases hemail]
  simp [Notice.Complete, requiredFields, Payload.has, hdest]

theorem salesRepEmail_complete {rep : Recipient} {destination : String} (hdest : destination ≠ "")
    (h : salesRepEmail d T id record target rep destination = some notices) :
    AllComplete notices ↔
      Readable d T (salesRepEmailTemplate target) (salesRepEmailVariables rep id record target)
        true := by
  obtain ⟨htext, hch⟩ := salesRepEmailTemplate_email target
  simp only [salesRepEmail, Option.bind_eq_bind, Option.bind_eq_some_iff] at h
  obtain ⟨r, hr, hn⟩ := h
  cases hn
  rw [readable_iff _ htext hr fun _ => hch]
  simp [Notice.Complete, requiredFields, Payload.has, hdest, and_comm]

theorem salesRepNotices_complete
    (h : salesRepNotices d T id record target notifyOverride = some notices) :
    AllComplete notices ↔ SalesRepText d T id record target notifyOverride := by
  unfold salesRepNotices at h
  unfold SalesRepText
  split at h
  · next hrep =>
    cases h
    simp [hrep]
  · next repId hrep =>
    split_ifs at h with hnotify
    · unfold notifySalesRep at h
      split at h
      · next huser =>
        cases h
        simp [hrep, huser]
      · next rep huser =>
        have hdest := resolveChannel_destination T rep
        dsimp only at h
        split_ifs at h with hactive hsms
        · cases h
          have hinactive : rep.active = false := by simpa using hactive
          simp [hrep, huser, hinactive]
        · have hch : (resolveChannel T rep).sms = true := by
            simpa [hdest] using hsms
          rw [salesRepSms_complete hdest h]
          have hactive : rep.active = true := by simpa using hactive
          simp [hrep, huser, hnotify, hactive, hch]
        · have hch : (resolveChannel T rep).sms = false := by
            simpa [hdest] using hsms
          rw [salesRepEmail_complete hdest h]
          have hactive : rep.active = true := by simpa using hactive
          simp [hrep, huser, hnotify, hactive, hch]
    · cases h
      simp [hnotify]

/-- One watcher: there is no notice, or it is complete when it is readable. -/
theorem watcherNotice_complete {watcherId : ℕ} {r : Rendered}
    (hr : renderWithOverrides d.jinja T.overrides statusUpdateTemplate
      (statusVariables record target note "team") = some r) :
    (∀ n, watcherNotice T id record target r watcherId = some n → n.Complete) ↔
      ∀ watcher, T.users watcherId = some watcher → watcher.active = true →
        Readable d T statusUpdateTemplate (statusVariables record target note "team")
          (!(resolveChannel T watcher).sms) := by
  unfold watcherNotice
  split
  · next huser => simp [huser]
  · next watcher huser =>
    have hdest := resolveChannel_destination T watcher
    cases hactive : watcher.active
    · simp [huser, hactive]
    · rw [huser]
      simp only [Option.some.injEq, forall_eq', hactive, forall_const]
      rw [readable_iff _ statusUpdateTemplate_hasText hr fun _ => rfl]
      cases hsms : (resolveChannel T watcher).sms
      · simp [hdest, Notice.Complete, requiredFields, Payload.has, and_comm]
      · simp [hdest, Notice.Complete, requiredFields, Payload.has]

theorem watcherNotices_complete
    (h : watcherNotices d T id record target note notifyOverride = some notices) :
    AllComplete notices ↔ WatcherText d T id record target note notifyOverride := by
  unfold watcherNotices at h
  unfold WatcherText
  split_ifs at h with hnotify
  · unfold notifyWatchers at h
    split_ifs at h with hnone
    · cases h
      have hnil : T.watchers id = [] := List.isEmpty_iff.mp hnone
      simp [hnil]
    · simp only [Option.bind_eq_bind, Option.bind_eq_some_iff] at h
      obtain ⟨r, hr, hn⟩ := h
      cases hn
      constructor
      · intro hc _ watcherId hw
        apply (watcherNotice_complete hr).mp
        intro n hn
        exact hc n (List.mem_filterMap.mpr ⟨watcherId, hw, hn⟩)
      · intro hc n hn
        obtain ⟨watcherId, hw, hn⟩ := List.mem_filterMap.mp hn
        exact (watcherNotice_complete hr).mpr (hc hnotify watcherId hw) n hn
  · cases h
    simp [hnotify]

theorem transitionNotices_complete {customer : Option Recipient}
    (h : transitionNotices d T id record target note customer notifyOverride = some notices) :
    AllComplete notices ↔
      CustomerText d T record target note customer notifyOverride ∧
      SalesRepText d T id record target notifyOverride ∧
      WatcherText d T id record target note notifyOverride := by
  simp only [transitionNotices, Option.bind_eq_bind, Option.bind_eq_some_iff] at h
  obtain ⟨toCustomer, hcustomer, toSalesRep, hrep, toWatchers, hwatchers, hn⟩ := h
  cases hn
  rw [allComplete_append, allComplete_append, customerNotices_complete hcustomer,
    salesRepNotices_complete hrep, watcherNotices_complete hwatchers, and_assoc]

/-! ## The other producers -/

theorem assignmentNotices_complete {userId : ℕ} {trigger : AssignmentTrigger} :
    AllComplete (assignmentNotices T id record userId trigger) := by
  unfold assignmentNotices
  split
  · exact allComplete_nil
  · next rep _ =>
    split_ifs
    · exact allComplete_nil
    · refine allComplete_cons.mpr ⟨?_, allComplete_map.mpr fun device _ => ?_⟩
      · simp [Notice.Complete, requiredFields, Payload.has, rep.email_ne]
      · simp [Notice.Complete, requiredFields, Payload.has, device.token_ne]

theorem applyAssignmentNotices_complete {salesRepId : Option ℕ} :
    AllComplete (applyAssignmentNotices T id record salesRepId) := by
  unfold applyAssignmentNotices
  split
  · exact allComplete_nil
  · split_ifs
    · exact allComplete_nil
    · exact assignmentNotices_complete

/-- The notices of `reject` have neither an address nor a text. -/
theorem rejectNotices_complete {submission : ℕ} {appraiserId : Option ℕ}
    {make model : Option String} {rejectionNotes : String} {sendBack : Bool} :
    AllComplete (rejectNotices submission appraiserId id record make model rejectionNotes
        sendBack) ↔
      (sendBack = true → appraiserId = none) ∧ record.assignedSalesRepId = none := by
  have hmissing : requiredFields .email
      (rejectionPayload id record make model rejectionNotes sendBack) = false := by
    simp [requiredFields, rejectionPayload, Payload.has]
  unfold rejectNotices
  rw [allComplete_append]
  refine and_congr ?_ ?_
  · cases appraiserId with
    | none => simp
    | some appraiser => cases sendBack <;> simp [Notice.Complete, hmissing]
  · cases record.assignedSalesRepId <;> simp [Notice.Complete, hmissing]

theorem salesEmail_ne {address : String} (h : salesEmail d T record = some address) :
    address ≠ "" := by
  unfold salesEmail at h
  dsimp only at h
  split at h
  · next rep _ =>
    split_ifs at h
    · cases h
      exact rep.email_ne
    · exact truthy_ne h
  · exact truthy_ne h

/-- An alert is never complete: the text would have to come from the template. -/
theorem healthAlertNotice_complete {row : ServiceHealth} {seed : String} {admin : Recipient} :
    (∀ n, healthAlertNotice row seed admin (T.preferences admin.id) = some n → n.Complete) ↔
      Unreachable T admin := by
  unfold healthAlertNotice Unreachable
  cases T.preferences admin.id with
  | none => simp [Notice.Complete, requiredFields, Payload.has]
  | some pref =>
    cases hch : pref.channel with
    | email => simp [hch, Notice.Complete, requiredFields, Payload.has]
    | slack => simp [hch, Notice.Complete, requiredFields, Payload.has]
    | sms =>
      cases hphone : truthy pref.phoneNumber with
      | none => simp [hch, hphone]
      | some phone => simp [hch, hphone, Notice.Complete, requiredFields, Payload.has]

theorem healthAlertNotices_complete {row : ServiceHealth} {priorRed : Bool} {now : ℤ}
    {seed : String} {admins : List Recipient} :
    AllComplete (healthAlertNotices T row priorRed now seed admins) ↔
      (row.red = true → priorRed = false →
        (∀ last, row.lastAlertedAt = some last → alertCooldown ≤ now - last) →
        ∀ admin ∈ admins, Unreachable T admin) := by
  have hadmins : AllComplete (admins.filterMap fun admin =>
      healthAlertNotice row seed admin (T.preferences admin.id)) ↔
        ∀ admin ∈ admins, Unreachable T admin := by
    constructor
    · intro hc admin ha
      apply healthAlertNotice_complete.mp
      intro n hn
      exact hc n (List.mem_filterMap.mpr ⟨admin, ha, hn⟩)
    · intro hc n hn
      obtain ⟨admin, ha, hn⟩ := List.mem_filterMap.mp hn
      exact healthAlertNotice_complete.mpr (hc admin ha) n hn
  unfold healthAlertNotices
  split_ifs with hred hrecent
  · refine iff_of_true allComplete_nil fun h1 h2 => ?_
    simp [h1, h2] at hred
  · refine iff_of_true allComplete_nil fun _ _ hlast => ?_
    obtain ⟨last, hsome, hlt⟩ := (Option.any_eq_true _ _).mp hrecent
    have := hlast last hsome
    have := of_decide_eq_true hlt
    omega
  · rw [hadmins]
    rw [Bool.or_eq_true, not_or] at hred
    have h1 : row.red = true := by simpa using hred.1
    have h2 : priorRed = false := by simpa using hred.2
    have h3 : ∀ last, row.lastAlertedAt = some last → alertCooldown ≤ now - last := by
      intro last hlast
      rw [hlast] at hrecent
      simpa using hrecent
    exact ⟨fun h _ _ _ => h, fun h => h h1 h2 h3⟩

theorem lockOverriddenNotices_complete {priorUserId : ℕ} {ref managerFirstName : String}
    (h : lockOverriddenNotices d T id priorUserId ref managerFirstName = some notices) :
    AllComplete notices ↔ LockText d T priorUserId ref managerFirstName := by
  unfold lockOverriddenNotices at h
  unfold LockText
  split at h
  · next huser =>
    cases h
    simp [huser]
  · next prior huser =>
    have hdest := resolveChannel_destination T prior
    dsimp only at h
    split_ifs at h with hactive hsms
    · cases h
      have hinactive : prior.active = false := by simpa using hactive
      simp [huser, hinactive]
    · simp only [lockSms, Option.bind_eq_bind, Option.bind_eq_some_iff] at h
      obtain ⟨r, hr, hn⟩ := h
      cases hn
      have hactive : prior.active = true := by simpa using hactive
      have hch : (resolveChannel T prior).sms = true := by simpa [hdest] using hsms
      have hread := readable_iff (d := d) false (by decide) hr fun hemail => by
        cases hemail
      simp [huser, hactive, hch, hread, Notice.Complete, requiredFields, Payload.has, hdest]
    · simp only [lockEmail, Option.bind_eq_bind, Option.bind_eq_some_iff] at h
      obtain ⟨r, hr, hn⟩ := h
      cases hn
      have hactive : prior.active = true := by simpa using hactive
      have hch : (resolveChannel T prior).sms = false := by simpa [hdest] using hsms
      have hread := readable_iff (d := d) true (by decide) hr fun _ => rfl
      simp [huser, hactive, hch, hread, Notice.Complete, requiredFields, Payload.has, hdest,
        and_comm]

/-! ## Operations -/

/-- A notice that the service formats, alone. -/
theorem formatted_iff {n : Notice} (h : n.Complete) : AllComplete [n] ↔ True :=
  iff_true_intro (allComplete_singleton.mpr h)

/-- **Every producer**: the payloads of an operation are complete exactly when
    its notices have texts. -/
theorem Operation.run_complete_iff {now : ℤ} {o : Operation} {T' : Tables}
    (h : o.run d T now = some (T', notices)) : AllComplete notices ↔ o.HasTexts d T now := by
  have h := Operation.run_enqueues h
  cases o with
  | recordTransition id target note customer notifyOverride =>
    obtain ⟨record, hrecord, h⟩ := h
    simp only [Operation.HasTexts, hrecord, Option.some.injEq, forall_eq']
    exact transitionNotices_complete h
  | applyAssignment id salesRepId =>
    obtain ⟨record, -, rfl⟩ := h
    exact iff_true_intro applyAssignmentNotices_complete
  | submitIntake user referenceNumber make model decision =>
    obtain ⟨record, rfl⟩ := h
    refine iff_true_intro (allComplete_append.mpr ⟨?_, allComplete_singleton.mpr ?_⟩)
    · split
      · exact assignmentNotices_complete
      · exact allComplete_nil
    · simp [Notice.Complete, confirmationNotice, requiredFields, Payload.has, user.email_ne]
  | reassignRecord id leaving joining =>
    obtain ⟨record, rfl⟩ := h
    exact iff_true_intro assignmentNotices_complete
  | reject submission appraiserId id make model rejectionNotes sendBack =>
    obtain ⟨record, hrecord, rfl⟩ := h
    simp only [Operation.HasTexts, hrecord, Option.some.injEq, forall_eq']
    exact rejectNotices_complete
  | dispatchContract envelopeId customerUser id make model =>
    obtain ⟨record, rfl⟩ := h
    rw [allComplete_singleton]
    refine iff_of_false ?_ not_false
    simp [Notice.Complete, contractNotice, requiredFields, Payload.has]
  | priceChange change managers referenceNumber makeModel approvedPrice proposedPrice changePct =>
    cases h
    refine allComplete_map_iff_nil fun manager _ => ?_
    simp [Notice.Complete, requiredFields, Payload.has]
  | managementReview submission managers referenceNumber redFlagSummary make model =>
    cases h
    refine allComplete_map_iff_nil fun manager _ => ?_
    simp [Notice.Complete, requiredFields, Payload.has]
  | submitChangeRequest change requestType customerNotes customerUser id =>
    obtain ⟨record, rfl⟩ := h
    unfold changeRequestNotices
    split
    · exact iff_true_intro allComplete_nil
    · next address haddress =>
      refine formatted_iff ?_
      simp [Notice.Complete, requiredFields, Payload.has, salesEmail_ne haddress]
  | resolveChangeRequest change newStatus requestType notes customerUser id =>
    obtain ⟨record, rfl⟩ := h
    refine formatted_iff ?_
    simp [Notice.Complete, changeResolutionNotice, requiredFields, Payload.has,
      customerUser.email_ne]
  | scheduleAppraisal event appraiser id scheduledAt siteAddress =>
    obtain ⟨record, rfl⟩ := h
    unfold appraisalScheduledNotices
    split_ifs
    · exact iff_true_intro allComplete_nil
    · refine formatted_iff ?_
      simp [Notice.Complete, requiredFields, Payload.has, appraiser.email_ne]
  | cancelAppraisal event appraiser id scheduledAt siteAddress =>
    obtain ⟨record, rfl⟩ := h
    unfold appraisalCancelledNotices
    split_ifs
    · exact iff_true_intro allComplete_nil
    · refine formatted_iff ?_
      simp [Notice.Complete, requiredFields, Payload.has, appraiser.email_ne]
  | cancelAppraisalCustomer event customerUser id scheduledAt =>
    obtain ⟨record, rfl⟩ := h
    unfold customerCancellationNotices
    split_ifs
    · exact iff_true_intro allComplete_nil
    · refine formatted_iff ?_
      simp [Notice.Complete, requiredFields, Payload.has, customerUser.email_ne]
  | healthAlert row priorRed seed admins =>
    cases h
    exact healthAlertNotices_complete
  | requestDeletion user today graceUntil graceUntilDate =>
    cases h
    refine formatted_iff ?_
    simp [Notice.Complete, deletionRequestedNotice, requiredFields, Payload.has, user.email_ne]
  | cancelDeletion user instant =>
    cases h
    refine formatted_iff ?_
    simp [Notice.Complete, deletionCancelledNotice, requiredFields, Payload.has, user.email_ne]
  | exportData job user url =>
    cases h
    refine formatted_iff ?_
    simp [Notice.Complete, dataExportNotice, requiredFields, Payload.has, user.email_ne]
  | confirmSync submission appraiserId =>
    cases h
    unfold syncConfirmationNotices
    split
    · exact iff_true_intro allComplete_nil
    · refine iff_true_intro (allComplete_map.mpr fun token _ => ?_)
      simp [Notice.Complete, requiredFields, Payload.has, token.token_ne]
  | failSync submission appraiserId reason =>
    cases h
    unfold syncFailedNotices
    split
    · exact iff_true_intro allComplete_nil
    · refine iff_true_intro (allComplete_map.mpr fun token _ => ?_)
      simp [Notice.Complete, requiredFields, Payload.has, token.token_ne]
  | overrideLock id priorUserId ref managerFirstName =>
    exact lockOverriddenNotices_complete h

end TempleConsign
