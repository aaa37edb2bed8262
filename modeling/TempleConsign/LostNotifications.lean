import TempleConsign.IdempotencyKeys

/-!
# Lost notifications

A customer is told of each notifying status that the record enters, and a sales
rep of each record reassigned to them by hand. The table of jobs works as a
ledger of these events: a step takes the key of its own event and no other.
`enqueue` is silent about a taken key, so an event is lost exactly when it
occurred before: `record_transition` only refuses a record that is in the status
already, not one that was in it once.

Results:
* `Operation.run_event`: what an operation enqueues for its event.
* `notified_iff`: when a step notifies its event.
* `taken_step`: the table as a ledger.
* `no_notification_lost_iff`: exactly in which runs every event is notified.
-/

namespace TempleConsign

open ServiceLib

variable {d : Deployment}

/-! ## Events -/

/-- What a step announces: the event, if one occurs, and the user to tell. A
    transition with a customer counts when `record_transition` decides to notify
    one, an assignment when the new sales rep is another one and active. -/
def OutboxOp.announces (d : Deployment) (s : Outbox) : OutboxOp → Option (LogicalEvent × ℕ)
  | .operation now (.recordTransition id target note (some customer) notifyOverride) =>
    if customerShouldNotify target notifyOverride &&
        (Operation.run d s.tables now
          (.recordTransition id target note (some customer) notifyOverride)).isSome then
      some (.entered id target, customer.id)
    else none
  | .operation now (.applyAssignment id (some rep)) =>
    match s.tables.records.get? id, s.tables.users rep with
    | some record, some user =>
      if record.assignedSalesRepId ≠ some rep && user.active &&
          (Operation.run d s.tables now (.applyAssignment id (some rep))).isSome then
        some (.reassigned id rep, rep)
      else none
    | _, _ => none
  | _ => none

/-- A key of the form that events have. -/
def Key.isEvent : Key → Bool
  | .statusUpdate _ _ | .recordAssigned _ _ .manualOverride => true
  | _ => false

theorem LogicalEvent.key_isEvent (e : LogicalEvent) : e.key.isEvent = true := by
  cases e <;> rfl

/-- No notice of the batch has an event's key. -/
def EventFree (notices : List Notice) : Prop := ∀ n ∈ notices, n.key.isEvent = false

theorem eventFree_nil : EventFree [] := fun _ hn => absurd hn List.not_mem_nil

theorem eventFree_singleton {n : Notice} (h : n.key.isEvent = false) : EventFree [n] :=
  List.forall_mem_singleton.mpr h

/-- A notice that is left out in some cases. -/
theorem eventFree_unless {c : Prop} [Decidable c] {n : Notice} (h : n.key.isEvent = false) :
    EventFree (if c then [] else [n]) := by
  split_ifs
  · exact eventFree_nil
  · exact eventFree_singleton h

/-- One notice with a text that may fail to render. -/
theorem eventFree_rendered {α : Type} {o : Option α} {f : α → Notice} {notices : List Notice}
    (hf : ∀ a, (f a).key.isEvent = false) (h : (o.bind fun a => some [f a]) = some notices) :
    EventFree notices := by
  obtain ⟨a, -, ha⟩ := Option.bind_eq_some_iff.mp h
  cases ha
  exact eventFree_singleton (hf a)

theorem EventFree.append {notices notices' : List Notice} (h : EventFree notices)
    (h' : EventFree notices') : EventFree (notices ++ notices') :=
  List.forall_mem_append.mpr ⟨h, h'⟩

theorem eventFree_map {α : Type} {f : α → Notice} {l : List α}
    (h : ∀ a, (f a).key.isEvent = false) : EventFree (l.map f) :=
  List.forall_mem_map.mpr fun a _ => h a

theorem eventFree_filterMap {α : Type} {f : α → Option Notice} {l : List α}
    (h : ∀ a n, f a = some n → n.key.isEvent = false) : EventFree (l.filterMap f) := by
  intro n hn
  obtain ⟨a, -, ha⟩ := List.mem_filterMap.mp hn
  exact h a n ha

theorem assignmentNotices_eventFree {T : Tables} {id userId : ℕ} {record : NotifiedRecord}
    {trigger : AssignmentTrigger} (ht : trigger ≠ .manualOverride) :
    EventFree (assignmentNotices T id record userId trigger) := by
  have hkey : (Key.recordAssigned id userId trigger).isEvent = false := by
    cases trigger with
    | manualOverride => exact absurd rfl ht
    | leadRouting => rfl
    | defaultSalesRep => rfl
    | adminDeactivation => rfl
  unfold assignmentNotices
  split
  · exact eventFree_nil
  · split_ifs
    · exact eventFree_nil
    · exact List.forall_mem_cons.mpr ⟨hkey, eventFree_map fun _ => rfl⟩

theorem decision_trigger {decision : RoutingDecision} {rep : ℕ} {trigger : AssignmentTrigger}
    (h : decision.assigned = some (rep, trigger)) : trigger ≠ .manualOverride := by
  rintro rfl
  cases decision <;> cases h

theorem rejectNotices_eventFree {submission id : ℕ} {appraiserId : Option ℕ}
    {record : NotifiedRecord} {make model : Option String} {rejectionNotes : String}
    {sendBack : Bool} :
    EventFree (rejectNotices submission appraiserId id record make model rejectionNotes
      sendBack) := by
  refine EventFree.append ?_ ?_
  · split
    · split_ifs
      · exact eventFree_singleton rfl
      · exact eventFree_nil
    · exact eventFree_nil
  · split
    · exact eventFree_singleton rfl
    · exact eventFree_nil

theorem healthAlertNotice_eventFree {row : ServiceHealth} {seed : String} {admin : Recipient}
    {prefs : Option Preference} {n : Notice} (h : healthAlertNotice row seed admin prefs = some n) :
    n.key.isEvent = false := by
  unfold healthAlertNotice at h
  dsimp only at h
  split at h
  · cases h
    rfl
  · split at h
    · cases h
    · cases h
      rfl
  · cases h
    rfl

theorem lockOverriddenNotices_eventFree {T : Tables} {id priorUserId : ℕ}
    {ref managerFirstName : String} {notices : List Notice}
    (h : lockOverriddenNotices d T id priorUserId ref managerFirstName = some notices) :
    EventFree notices := by
  unfold lockOverriddenNotices at h
  split at h
  · cases h
    exact eventFree_nil
  · dsimp only at h
    split_ifs at h
    · cases h
      exact eventFree_nil
    · exact eventFree_rendered (fun _ => rfl) h
    · cases h
      exact eventFree_nil
    · exact eventFree_rendered (fun _ => rfl) h

/-- The other operations enqueue under keys of their own. -/
theorem Operation.run_eventFree {T T' : Tables} {now : ℤ} {o : Operation} {notices : List Notice}
    (h : o.run d T now = some (T', notices))
    (ht : ∀ id target note customer notifyOverride,
      o ≠ .recordTransition id target note customer notifyOverride)
    (ha : ∀ id salesRepId, o ≠ .applyAssignment id salesRepId) : EventFree notices := by
  have h := Operation.run_enqueues h
  cases o with
  | recordTransition id target note customer notifyOverride => exact absurd rfl (ht _ _ _ _ _)
  | applyAssignment id salesRepId => exact absurd rfl (ha _ _)
  | submitIntake user referenceNumber make model decision =>
    obtain ⟨record, rfl⟩ := h
    refine EventFree.append ?_ (eventFree_singleton rfl)
    split
    · next rep trigger hd => exact assignmentNotices_eventFree (decision_trigger hd)
    · exact eventFree_nil
  | reassignRecord id leaving joining =>
    obtain ⟨record, rfl⟩ := h
    exact assignmentNotices_eventFree (by decide)
  | reject submission appraiserId id make model rejectionNotes sendBack =>
    obtain ⟨record, -, rfl⟩ := h
    exact rejectNotices_eventFree
  | dispatchContract envelopeId customerUser id make model =>
    obtain ⟨record, rfl⟩ := h
    exact eventFree_singleton rfl
  | priceChange change managers referenceNumber makeModel approvedPrice proposedPrice changePct =>
    cases h
    exact eventFree_map fun _ => rfl
  | managementReview submission managers referenceNumber redFlagSummary make model =>
    cases h
    exact eventFree_map fun _ => rfl
  | submitChangeRequest change requestType customerNotes customerUser id =>
    obtain ⟨record, rfl⟩ := h
    unfold changeRequestNotices
    split
    · exact eventFree_nil
    · exact eventFree_singleton rfl
  | resolveChangeRequest change newStatus requestType notes customerUser id =>
    obtain ⟨record, rfl⟩ := h
    exact eventFree_singleton rfl
  | scheduleAppraisal event appraiser id scheduledAt siteAddress =>
    obtain ⟨record, rfl⟩ := h
    unfold appraisalScheduledNotices
    exact eventFree_unless rfl
  | cancelAppraisal event appraiser id scheduledAt siteAddress =>
    obtain ⟨record, rfl⟩ := h
    unfold appraisalCancelledNotices
    exact eventFree_unless rfl
  | cancelAppraisalCustomer event customerUser id scheduledAt =>
    obtain ⟨record, rfl⟩ := h
    unfold customerCancellationNotices
    exact eventFree_unless rfl
  | healthAlert row priorRed seed admins =>
    cases h
    unfold healthAlertNotices
    split_ifs
    · exact eventFree_nil
    · exact eventFree_nil
    · exact eventFree_filterMap fun _ _ => healthAlertNotice_eventFree
  | requestDeletion user today graceUntil graceUntilDate =>
    cases h
    exact eventFree_singleton rfl
  | cancelDeletion user instant =>
    cases h
    exact eventFree_singleton rfl
  | exportData job user url =>
    cases h
    exact eventFree_singleton rfl
  | confirmSync submission appraiserId =>
    cases h
    unfold syncConfirmationNotices
    split
    · exact eventFree_nil
    · exact eventFree_map fun _ => rfl
  | failSync submission appraiserId reason =>
    cases h
    unfold syncFailedNotices
    split
    · exact eventFree_nil
    · exact eventFree_map fun _ => rfl
  | overrideLock id priorUserId ref managerFirstName => exact lockOverriddenNotices_eventFree h

/-- What a batch of notices says of the event that its operation announces: the
    event's own key and user, on one of them, and no event's key otherwise. -/
def EventNotices (notices : List Notice) : Option (LogicalEvent × ℕ) → Prop
  | some (e, u) =>
    (∃ n ∈ notices, n.key = e.key) ∧
      ∀ n ∈ notices, n.key.isEvent = true → n.key = e.key ∧ n.userId = some u
  | none => EventFree notices

section Transitions

variable {T : Tables} {id : ℕ} {record : NotifiedRecord} {target : Status} {note : Option String}
  {notifyOverride : Option Bool} {notices : List Notice}

theorem salesRepNotices_eventFree
    (h : salesRepNotices d T id record target notifyOverride = some notices) :
    EventFree notices := by
  unfold salesRepNotices at h
  split at h
  · cases h
    exact eventFree_nil
  · split_ifs at h
    · unfold notifySalesRep at h
      split at h
      · cases h
        exact eventFree_nil
      · dsimp only at h
        split_ifs at h
        · cases h
          exact eventFree_nil
        · exact eventFree_rendered (fun _ => rfl) h
        · cases h
          exact eventFree_nil
        · exact eventFree_rendered (fun _ => rfl) h
    · cases h
      exact eventFree_nil

theorem watcherNotice_eventFree {r : Rendered} {watcherId : ℕ} {n : Notice}
    (h : watcherNotice T id record target r watcherId = some n) : n.key.isEvent = false := by
  unfold watcherNotice at h
  split at h
  · cases h
  · dsimp only at h
    split_ifs at h <;> cases h <;> rfl

theorem watcherNotices_eventFree
    (h : watcherNotices d T id record target note notifyOverride = some notices) :
    EventFree notices := by
  unfold watcherNotices at h
  split_ifs at h
  · unfold notifyWatchers at h
    split_ifs at h
    · cases h
      exact eventFree_nil
    · obtain ⟨r, -, h⟩ := Option.bind_eq_some_iff.mp h
      cases h
      exact eventFree_filterMap fun _ _ => watcherNotice_eventFree
  · cases h
    exact eventFree_nil

theorem customerNotices_event {customer : Recipient}
    (h : customerNotices d T id record target note (some customer) notifyOverride =
      some notices) :
    EventNotices notices
      (if customerShouldNotify target notifyOverride then
        some (.entered id target, customer.id) else none) := by
  simp only [customerNotices] at h
  split_ifs at h ⊢ with hnotify
  · simp only [notifyCustomer, Option.bind_eq_bind, Option.bind_eq_some_iff] at h
    obtain ⟨composed, -, h⟩ := h
    cases h
    refine ⟨⟨_, List.mem_singleton_self _, rfl⟩, fun n hn _ => ?_⟩
    rw [List.mem_singleton] at hn
    subst hn
    exact ⟨rfl, rfl⟩
  · cases h
    exact eventFree_nil

/-- Notices under other keys do not change what a batch says of an event. -/
theorem EventNotices.append {others : List Notice} {a : Option (LogicalEvent × ℕ)}
    (h : EventNotices notices a) (hq : EventFree others) :
    EventNotices (notices ++ others) a := by
  cases a with
  | none => exact EventFree.append h hq
  | some announced =>
    obtain ⟨e, u⟩ := announced
    obtain ⟨⟨n, hn, hkey⟩, hall⟩ := h
    refine ⟨⟨n, List.mem_append_left _ hn, hkey⟩, fun m hm hevent => ?_⟩
    rcases List.mem_append.mp hm with hm | hm
    · exact hall m hm hevent
    · have := hq m hm
      rw [hevent] at this
      cases this

theorem transitionNotices_event {customer : Option Recipient}
    (h : transitionNotices d T id record target note customer notifyOverride = some notices) :
    EventNotices notices (customer.bind fun user =>
      if customerShouldNotify target notifyOverride then some (.entered id target, user.id)
      else none) := by
  simp only [transitionNotices, Option.bind_eq_bind, Option.bind_eq_some_iff] at h
  obtain ⟨toCustomer, hcustomer, toSalesRep, hrep, toWatchers, hwatchers, h⟩ := h
  cases h
  refine EventNotices.append (EventNotices.append ?_ (salesRepNotices_eventFree hrep))
    (watcherNotices_eventFree hwatchers)
  cases customer with
  | none =>
    cases hcustomer
    exact eventFree_nil
  | some user => exact customerNotices_event hcustomer

end Transitions

/-- A manual assignment to an active user sends the email of its own key. -/
theorem assignmentNotices_event {T : Tables} {id rep : ℕ} {record : NotifiedRecord}
    {user : Recipient} (huser : T.users rep = some user) (hactive : user.active = true) :
    EventNotices (assignmentNotices T id record rep .manualOverride)
      (some (.reassigned id rep, rep)) := by
  unfold assignmentNotices
  rw [huser]
  dsimp only
  rw [if_neg (by simp [hactive, user.email_ne])]
  refine ⟨⟨_, List.mem_cons_self, rfl⟩, fun n hn hevent => ?_⟩
  rcases List.mem_cons.mp hn with rfl | hn
  · exact ⟨rfl, rfl⟩
  · obtain ⟨device, -, rfl⟩ := List.mem_map.mp hn
    cases hevent

/-- So does `apply_assignment`, when the sales rep is another one and active. -/
theorem applyAssignmentNotices_event {T : Tables} {id rep : ℕ} {record : NotifiedRecord} :
    EventNotices (applyAssignmentNotices T id record (some rep))
      ((T.users rep).bind fun user =>
        if record.assignedSalesRepId ≠ some rep && user.active then
          some (.reassigned id rep, rep)
        else none) := by
  simp only [applyAssignmentNotices]
  by_cases hsame : record.assignedSalesRepId = some rep
  · rw [if_pos hsame]
    cases huser : T.users rep with
    | none => exact eventFree_nil
    | some user =>
      rw [Option.bind_some, if_neg (by simp [hsame])]
      exact eventFree_nil
  · rw [if_neg hsame]
    cases huser : T.users rep with
    | none =>
      simp only [assignmentNotices, huser]
      exact eventFree_nil
    | some user =>
      cases hactive : user.active with
      | true =>
        rw [Option.bind_some, if_pos (by simp [hsame, hactive])]
        exact assignmentNotices_event huser hactive
      | false =>
        simp only [assignmentNotices, Option.bind_some, huser, hactive, Bool.and_false]
        exact eventFree_nil

/-- **What an operation enqueues for its event**, and that it enqueues nothing
    under another event's key. -/
theorem Operation.run_event {s : Outbox} {now : ℤ} {o : Operation} {T' : Tables}
    {notices : List Notice} (h : o.run d s.tables now = some (T', notices)) :
    EventNotices notices ((OutboxOp.operation now o).announces d s) := by
  have hsome : (o.run d s.tables now).isSome = true := by
    rw [h]
    rfl
  by_cases ht : ∃ id target note customer notifyOverride,
      o = .recordTransition id target note customer notifyOverride
  · obtain ⟨id, target, note, customer, notifyOverride, rfl⟩ := ht
    have hannounces : (OutboxOp.operation now
        (.recordTransition id target note customer notifyOverride)).announces d s =
          customer.bind fun user =>
            if customerShouldNotify target notifyOverride then some (.entered id target, user.id)
            else none := by
      cases customer with
      | none => rfl
      | some user => simp only [OutboxOp.announces, hsome, Bool.and_true, Option.bind_some]
    rw [hannounces]
    obtain ⟨record, -, h⟩ := Operation.run_enqueues h
    exact transitionNotices_event h
  · by_cases ha : ∃ id salesRepId, o = .applyAssignment id salesRepId
    · obtain ⟨id, salesRepId, rfl⟩ := ha
      obtain ⟨record, hrecord, rfl⟩ := Operation.run_enqueues h
      cases salesRepId with
      | none => exact eventFree_nil
      | some rep =>
        have hannounces : (OutboxOp.operation now (.applyAssignment id (some rep))).announces d s =
            (s.tables.users rep).bind fun user =>
              if record.assignedSalesRepId ≠ some rep && user.active then
                some (.reassigned id rep, rep)
              else none := by
          simp only [OutboxOp.announces, hrecord, hsome, Bool.and_true]
          cases s.tables.users rep <;> rfl
        rw [hannounces]
        exact applyAssignmentNotices_event
    · have hnone : (OutboxOp.operation now o).announces d s = none := by
        cases o with
        | recordTransition id target note customer notifyOverride =>
          exact absurd ⟨id, target, note, customer, notifyOverride, rfl⟩ ht
        | applyAssignment id salesRepId => exact absurd ⟨id, salesRepId, rfl⟩ ha
        | _ => rfl
      rw [hnone]
      refine Operation.run_eventFree h ?_ ?_
      · intro id target note customer notifyOverride ho
        exact ht ⟨id, target, note, customer, notifyOverride, ho⟩
      · intro id salesRepId ho
        exact ha ⟨id, salesRepId, ho⟩

/-! ## Steps -/

/-- The event of a step. -/
def OutboxOp.event (d : Deployment) (s : Outbox) (op : OutboxOp) : Option LogicalEvent :=
  (op.announces d s).map Prod.fst

/-- The step tells the user of its event: it inserts a pending job under the
    event's key. -/
def Notified (d : Deployment) (s : Outbox) (op : OutboxOp) : Prop :=
  ∀ e u, op.announces d s = some (e, u) →
    ∃ id j, s.queue.jobs.get? id = none ∧
      (outboxStep d s op).queue.jobs.get? id = some j ∧
      j.idempotencyKey = e.key.text ∧ j.userId = some u ∧ j.status = .pending

/-- An event is announced only by an operation that succeeds. -/
theorem announces_run {s : Outbox} {op : OutboxOp} {e : LogicalEvent} {u : ℕ}
    (h : op.announces d s = some (e, u)) :
    ∃ now o T' notices, op = .operation now o ∧ o.run d s.tables now = some (T', notices) := by
  unfold OutboxOp.announces at h
  split at h
  · next now id target note customer notifyOverride =>
    split_ifs at h with hc
    obtain ⟨⟨T', notices⟩, hrun⟩ := Option.isSome_iff_exists.mp (Bool.and_eq_true_iff.mp hc).2
    exact ⟨now, _, T', notices, rfl, hrun⟩
  · next now id rep =>
    split at h
    · split_ifs at h with hc
      obtain ⟨⟨T', notices⟩, hrun⟩ := Option.isSome_iff_exists.mp (Bool.and_eq_true_iff.mp hc).2
      exact ⟨now, _, T', notices, rfl, hrun⟩
    · cases h
  · cases h

/-- **When an event is notified**: exactly when its key was not taken. -/
theorem notified_iff (s : Outbox) (op : OutboxOp) :
    Notified d s op ↔ ∀ e, op.event d s = some e → ¬ s.queue.Taken e.key := by
  constructor
  · intro h e he
    obtain ⟨⟨e', u⟩, hann, rfl⟩ := Option.map_eq_some_iff.mp he
    obtain ⟨id, j, hnone, hj, hkey, -, -⟩ := h e' u hann
    obtain ⟨now, o, T', notices, rfl, hrun⟩ := announces_run hann
    simp only [outboxStep, hrun] at hj
    rcases enqueueAll_new hj with hold | ⟨-, n, -, rfl, hfree⟩
    · rw [hnone] at hold
      cases hold
    · rintro ⟨id', j', hj', hkey'⟩
      exact hfree ⟨id', j', hj', hkey'.trans hkey.symm⟩
  · intro h e u hann
    have hfree := h e (Option.map_eq_some_iff.mpr ⟨(e, u), hann, rfl⟩)
    obtain ⟨now, o, T', notices, rfl, hrun⟩ := announces_run hann
    have hevent := Operation.run_event hrun
    rw [hann] at hevent
    obtain ⟨⟨n, hn, hnkey⟩, hall⟩ := hevent
    have htaken : (enqueueAll now notices s.queue).Taken n.key := enqueueAll_taken hn
    obtain ⟨id, j, hj, hkey⟩ := htaken
    rw [hnkey] at hkey
    rcases enqueueAll_new hj with hold | ⟨hnone, m, hm, rfl, -⟩
    · exact absurd ⟨id, j, hold, hkey⟩ hfree
    · have hmkey : m.key = e.key := LogicalEvent.key_text_injective hkey
      have hmevent : m.key.isEvent = true := by
        rw [hmkey]
        exact e.key_isEvent
      refine ⟨id, _, hnone, ?_, hkey, (hall m hm hmevent).2, rfl⟩
      simp only [outboxStep, hrun]
      exact hj

/-- **The table is a ledger of the events**: a step takes the key of its own
    event and of no other. -/
theorem taken_step (s : Outbox) (op : OutboxOp) (e : LogicalEvent) :
    (outboxStep d s op).queue.Taken e.key ↔ s.queue.Taken e.key ∨ op.event d s = some e := by
  cases op with
  | operation now o =>
    cases hrun : o.run d s.tables now with
    | none =>
      have hnone : (OutboxOp.operation now o).event d s = none := by
        unfold OutboxOp.event
        cases hann : (OutboxOp.operation now o).announces d s with
        | none => rfl
        | some announced =>
          obtain ⟨now', o', T', notices, ho, hrun'⟩ := announces_run hann
          cases ho
          rw [hrun] at hrun'
          cases hrun'
      simp [outboxStep, hrun, hnone]
    | some result =>
      obtain ⟨T', notices⟩ := result
      have hevent := Operation.run_event hrun
      simp only [outboxStep, hrun, enqueueAll_taken_iff, OutboxOp.event]
      refine or_congr_right ?_
      cases hann : (OutboxOp.operation now o).announces d s with
      | none =>
        rw [hann] at hevent
        refine iff_of_false ?_ (by simp)
        rintro ⟨n, hn, hkey⟩
        have hquiet := hevent n hn
        rw [LogicalEvent.key_text_injective hkey, e.key_isEvent] at hquiet
        cases hquiet
      | some announced =>
        obtain ⟨e', u⟩ := announced
        rw [hann] at hevent
        obtain ⟨⟨n, hn, hnkey⟩, hall⟩ := hevent
        simp only [Option.map_some, Option.some.injEq]
        constructor
        · rintro ⟨m, hm, hkey⟩
          have hmkey := LogicalEvent.key_text_injective hkey
          have hmevent : m.key.isEvent = true := by
            rw [hmkey]
            exact e.key_isEvent
          have hkeys : e'.key = e.key := (hall m hm hmevent).1.symm.trans hmkey
          exact LogicalEvent.key_injective hkeys
        · rintro rfl
          exact ⟨n, hn, by rw [hnkey]⟩
  | edit tables => simp [outboxStep, OutboxOp.event, OutboxOp.announces]
  | worker move =>
    have hsame := (sameKeys_worker (d := d) s.queue move).taken_iff e.key
    simpa [outboxStep, OutboxOp.event, OutboxOp.announces] using hsame

/-! ## Runs -/

/-- The events of a run, in order. -/
def logicalEvents (d : Deployment) (T : Tables) (ops : List OutboxOp) : List LogicalEvent :=
  eventsOf (outboxStep d) (fun s op => op.event d s) (Outbox.start T) ops

/-- Every event of the run is notified, and the keys of its events are distinct. -/
def NoNotificationLost (d : Deployment) (T : Tables) (ops : List OutboxOp) : Prop :=
  AllSteps (outboxStep d) (Notified d) (Outbox.start T) ops ∧
    ((logicalEvents d T ops).map fun e => e.key.text).Nodup

theorem not_taken_empty (k : Key) : ¬ Queue.empty.Taken k := by
  rintro ⟨id, j, hj, -⟩
  simp [Queue.empty] at hj

/-- **When no notification is lost**: exactly in the runs where no record enters
    a status that its customer is told about twice, and none is reassigned to
    the same sales rep twice. -/
theorem no_notification_lost_iff (d : Deployment) (T : Tables) (ops : List OutboxOp) :
    NoNotificationLost d T ops ↔ (logicalEvents d T ops).Nodup := by
  have hfresh : AllSteps (outboxStep d) (Notified d) (Outbox.start T) ops ↔
      (logicalEvents d T ops).Nodup := by
    rw [allSteps_congr (I := fun _ => True) (fun _ _ _ => trivial)
      (fun s op _ => notified_iff s op) trivial ops]
    have hledger := allFresh_iff (S := fun (s : Outbox) (e : LogicalEvent) => s.queue.Taken e.key)
      (taken_step (d := d)) (Outbox.start T) ops
    exact hledger.trans (and_iff_left fun e _ => not_taken_empty e.key)
  have hkeys : ((logicalEvents d T ops).map fun e => e.key.text).Nodup ↔
      (logicalEvents d T ops).Nodup := by
    refine List.nodup_map_iff fun e e' h => ?_
    exact LogicalEvent.key_injective (LogicalEvent.key_text_injective h)
  unfold NoNotificationLost
  rw [hfresh, hkeys, and_self]

/-- A new record, two sales reps and no overrides. -/
def consignedRecord : Tables where
  records := Store.empty.create ⟨.newRequest, some "THE-00000001", some "CAT", some "320", none⟩
  users := fun u =>
    if u = 1 then some ⟨1, "bo@example.com", "Bo", .sales, true, by decide⟩
    else if u = 2 then some ⟨2, "cy@example.com", "Cy", .sales, true, by decide⟩
    else none
  preferences := fun _ => none
  watchers := fun _ => []
  iosTokens := fun _ => []
  overrides := fun _ => none

def bareDeployment : Deployment := ⟨fun _ _ _ => none, "", false⟩

def scheduled (now : ℤ) : OutboxOp :=
  .operation now (.recordTransition 0 .appraisalScheduled none
    (some ⟨0, "dee@example.com", "Dee", .customer, true, by decide⟩) none)

/-- The appraisal is scheduled, cancelled, which writes `new_request` back, and
    scheduled again. -/
def rescheduledRun : List OutboxOp := [scheduled 0, .edit consignedRecord, scheduled 1]

/-- The record goes from one sales rep to another and back. -/
def returnedRun : List OutboxOp :=
  [.operation 0 (.applyAssignment 0 (some 1)), .operation 1 (.applyAssignment 0 (some 2)),
    .operation 2 (.applyAssignment 0 (some 1))]

/-- The customer is not told of the new date, nor the first rep of the return:
    each run ends with one job fewer than it has events. -/
theorem second_notice_lost :
    logicalEvents bareDeployment consignedRecord rescheduledRun =
      [.entered 0 .appraisalScheduled, .entered 0 .appraisalScheduled] ∧
    (run (outboxStep bareDeployment) (Outbox.start consignedRecord)
      rescheduledRun).queue.jobs.next = 1 ∧
    ¬ NoNotificationLost bareDeployment consignedRecord rescheduledRun ∧
    logicalEvents bareDeployment consignedRecord returnedRun =
      [.reassigned 0 1, .reassigned 0 2, .reassigned 0 1] ∧
    (run (outboxStep bareDeployment) (Outbox.start consignedRecord)
      returnedRun).queue.jobs.next = 2 ∧
    ¬ NoNotificationLost bareDeployment consignedRecord returnedRun := by
  have hentered : logicalEvents bareDeployment consignedRecord rescheduledRun =
      [.entered 0 .appraisalScheduled, .entered 0 .appraisalScheduled] := by decide +kernel
  have hreturned : logicalEvents bareDeployment consignedRecord returnedRun =
      [.reassigned 0 1, .reassigned 0 2, .reassigned 0 1] := by decide +kernel
  refine ⟨hentered, by decide +kernel, ?_, hreturned, by decide +kernel, ?_⟩
  · rintro ⟨-, hnodup⟩
    rw [hentered] at hnodup
    simp at hnodup
  · rintro ⟨-, hnodup⟩
    rw [hreturned] at hnodup
    simp at hnodup

end TempleConsign
