import TempleConsign.NoDoubleBooking

/-!
# Appointments and the status of their record

`create_event` books a `new_request` record and makes it `appraisal_scheduled`,
`cancel_event` makes it `new_request` again. `reject` with `send_back` makes a
record `new_request` too and leaves the appointment of the appraisal it sends
back as it was; the next booking is then the record's second one.

Results:
* `schedule_agrees_iff`: statuses and appointments agree in all states of a run
  without admin overrides exactly when every send-back finds its record without
  an appointment.
-/

namespace TempleConsign

open ServiceLib

/-- Event `k` is an uncancelled event of record `id`. -/
def Booked (events : Store CalendarEvent) (id k : ℕ) : Prop :=
  ∃ e, events.get? k = some e ∧ e.recordId = id ∧ e.cancelledAt = none

/-- A scheduled record has exactly one of the `booked` events, a new request
    none. -/
structure Agrees (status : Status) (booked : ℕ → Prop) : Prop where
  scheduled : status = .appraisalScheduled → ∃! k, booked k
  unscheduled : status = .newRequest → ∀ k, ¬ booked k

/-- The status of every record agrees with its events. -/
def ScheduleAgrees (db : Db) : Prop :=
  ∀ id r, db.records.get? id = some r → Agrees r.status (Booked db.calendarEvents id)

/-- A submission that is sent back is one of a record without an uncancelled
    event. -/
def SendsBackUnbooked (db : Db) : Op → Prop
  | .reject _ submissionId _ true =>
    ∀ s, db.submissions.get? submissionId = some s → s.deletedAt = none → s.status = .submitted →
      ∀ record, db.records.get? s.recordId = some record → record.status ≠ .newRequest →
        isForbiddenTransition record.status .newRequest = false →
          ∀ k, ¬ Booked db.calendarEvents s.recordId k
  | _ => True

/-! ## What a request does to one record -/

/-- Status and uncancelled events of one record before and after a request. -/
inductive ScheduleStep (op : Op) (db : Db) (s : Status) (A : ℕ → Prop) (s' : Status)
    (A' : ℕ → Prop) : Prop
  | same (hs : s' = s) (hA : ∀ k, A' k ↔ A k)
  | away (hs : s' ≠ .appraisalScheduled) (hn : s' ≠ .newRequest)
  | book (k : ℕ) (hs : s = .newRequest) (hs' : s' = .appraisalScheduled)
      (hA : ∀ j, A' j ↔ A j ∨ j = k)
  | cancel (k : ℕ) (hk : A k) (hs' : s' = if s = .appraisalScheduled then .newRequest else s)
      (hA : ∀ j, A' j ↔ A j ∧ j ≠ k)
  | sendBack (hs' : s' = .newRequest) (hA : ∀ k, A' k ↔ A k)
      (hc : SendsBackUnbooked db op → ∀ k, ¬ A k)

theorem booked_create {events : Store CalendarEvent} {e : CalendarEvent}
    (he : e.cancelledAt = none) {id k : ℕ} :
    Booked (events.create e) id k ↔
      Booked events id k ∨ (k = events.next ∧ e.recordId = id) := by
  unfold Booked
  rw [Store.get?_create]
  split_ifs with hk
  · subst hk
    rw [Store.get?_next]
    simp [he]
  · simp [hk]

theorem booked_modify {events : Store CalendarEvent} {eventId : ℕ} {e : CalendarEvent}
    {f : CalendarEvent → CalendarEvent} (he : events.get? eventId = some e)
    (hid : (f e).recordId = e.recordId) {id k : ℕ} :
    Booked (events.modify eventId f) id k ↔
      if k = eventId then e.recordId = id ∧ (f e).cancelledAt = none else Booked events id k := by
  unfold Booked
  rw [Store.get?_modify]
  split_ifs with hk
  · subst hk
    rw [he]
    simp [hid]
  · rfl

theorem Booked.record {events : Store CalendarEvent} {id id' k : ℕ} (h : Booked events id k)
    (h' : Booked events id' k) : id = id' := by
  obtain ⟨e, he, rfl, -⟩ := h
  obtain ⟨e', he', rfl, -⟩ := h'
  rw [he] at he'
  cases he'
  rfl

/-- A request that writes no event and moves no record to `new_request` or
    `appraisal_scheduled`. -/
theorem step_schedule_of_moves (env : Env) {db : Db} {op : Op} (hev : op.writesEvents = false)
    (hm : ∀ s t, Moves op s t → t ≠ .appraisalScheduled ∧ t ≠ .newRequest) {id : ℕ}
    {r : EquipmentRecord} (hr : db.records.get? id = some r) :
    ∃ r', (step env db op).records.get? id = some r' ∧
      ScheduleStep op db r.status (Booked db.calendarEvents id) r'.status
        (Booked (step env db op).calendarEvents id) := by
  obtain ⟨r', hr', hsame | hmove⟩ := (step_status env db op).kept id r hr
  · rw [(step_frame env db op).events hev]
    exact ⟨r', hr', .same hsame fun _ => Iff.rfl⟩
  · obtain ⟨hs, hn⟩ := hm r.status r'.status hmove
    exact ⟨r', hr', .away hs hn⟩

theorem step_schedule_createEvent (env : Env) {db : Db} (actor : ℕ) (body : CalendarEventCreate)
    {id : ℕ} {r : EquipmentRecord} (hr : db.records.get? id = some r) :
    ∃ r', (step env db (.createEvent actor body)).records.get? id = some r' ∧
      ScheduleStep (.createEvent actor body) db r.status (Booked db.calendarEvents id) r'.status
        (Booked (step env db (.createEvent actor body)).calendarEvents id) := by
  rcases step_cases env db (.createEvent actor body) with h | ⟨-, envelopes, h⟩
  · obtain ⟨_, h, -⟩ := Svc.returns_map.mp h
    obtain ⟨record, hrec, hs, -, ⟨_, -, -, h⟩ | ⟨-, -, h⟩⟩ := returns_createEvent.mp h
    · rw [← h]
      exact ⟨r, hr, .same rfl fun _ => Iff.rfl⟩
    · rw [← h, transition_records, transition_calendarEvents]
      have hbooked : ∀ k, Booked (db.calendarEvents.create (body.event record)) id k ↔
          Booked db.calendarEvents id k ∨
            (k = db.calendarEvents.next ∧ (body.event record).recordId = id) :=
        fun _ => booked_create rfl
      by_cases hid : id = body.equipmentRecordId
      · subst hid
        rw [if_pos rfl, hr]
        rw [hr] at hrec
        cases hrec
        refine ⟨_, rfl, .book db.calendarEvents.next hs rfl fun k => ?_⟩
        rw [hbooked k]
        simp [CalendarEventCreate.event]
      · rw [if_neg hid]
        refine ⟨r, hr, .same rfl fun k => ?_⟩
        rw [hbooked k]
        simp [CalendarEventCreate.event, Ne.symm hid]
  · rw [h]
    exact ⟨r, hr, .same rfl fun _ => Iff.rfl⟩

theorem step_schedule_updateEvent (env : Env) {db : Db} (eventId : ℕ) (body : CalendarEventPatch)
    {id : ℕ} {r : EquipmentRecord} (hr : db.records.get? id = some r) :
    ∃ r', (step env db (.updateEvent eventId body)).records.get? id = some r' ∧
      ScheduleStep (.updateEvent eventId body) db r.status (Booked db.calendarEvents id) r'.status
        (Booked (step env db (.updateEvent eventId body)).calendarEvents id) := by
  rcases step_cases env db (.updateEvent eventId body) with h | ⟨-, envelopes, h⟩
  · obtain ⟨_, h, -⟩ := Svc.returns_map.mp h
    obtain ⟨event, he, hopen, -, ⟨_, -, -, h⟩ | ⟨-, -, h⟩⟩ := returns_updateEvent.mp h
    · rw [← h]
      exact ⟨r, hr, .same rfl fun _ => Iff.rfl⟩
    · rw [← h]
      refine ⟨r, hr, .same rfl fun k => ?_⟩
      -- a patch keeps the record of an event and the event open
      rw [booked_modify (e := event) he rfl]
      split_ifs with hk
      · subst hk
        have hopen' : (event.patched body).cancelledAt = none := hopen
        simp [Booked, he, hopen, hopen']
      · rfl
  · rw [h]
    exact ⟨r, hr, .same rfl fun _ => Iff.rfl⟩

theorem step_schedule_cancelEvent (env : Env) {db : Db} (now : ℤ) (eventId : ℕ) {id : ℕ}
    {r : EquipmentRecord} (hr : db.records.get? id = some r) :
    ∃ r', (step env db (.cancelEvent now eventId)).records.get? id = some r' ∧
      ScheduleStep (.cancelEvent now eventId) db r.status (Booked db.calendarEvents id) r'.status
        (Booked (step env db (.cancelEvent now eventId)).calendarEvents id) := by
  rcases step_cases env db (.cancelEvent now eventId) with h | ⟨-, envelopes, h⟩
  · obtain ⟨event, he, ⟨hopen, record, hrec, h⟩ | ⟨-, h⟩⟩ := returns_cancelEvent.mp h
    · rw [← h]
      have hbooked : ∀ k, Booked (db.calendarEvents.modify eventId fun e =>
          { e with cancelledAt := some now }) id k ↔
            Booked db.calendarEvents id k ∧ k ≠ eventId := by
        intro k
        rw [booked_modify (e := event) he rfl]
        split_ifs with hk
        · simp [hk]
        · simp [hk]
      by_cases hid : id = event.recordId
      · subst hid
        rw [hr] at hrec
        cases hrec
        have hk : Booked db.calendarEvents event.recordId eventId := ⟨event, he, rfl, hopen⟩
        split_ifs with hs
        · refine ⟨{ r with status := .newRequest }, ?_, .cancel eventId hk ?_ hbooked⟩
          · rw [Store.get?_modify_self, hr]
            rfl
          · rw [if_pos hs]
        · exact ⟨r, hr, .cancel eventId hk (by rw [if_neg hs]) hbooked⟩
      · have hother : ∀ k, Booked db.calendarEvents id k → k ≠ eventId := by
          rintro k hk rfl
          exact hid (hk.record ⟨event, he, rfl, hopen⟩)
        refine ⟨r, ?_, .same rfl fun k => ?_⟩
        · split_ifs with hs
          · rw [Store.get?_modify_ne _ _ hid, hr]
          · exact hr
        · rw [hbooked k]
          exact ⟨fun hk => hk.1, fun hk => ⟨hk, hother k hk⟩⟩
    · rw [← h]
      exact ⟨r, hr, .same rfl fun _ => Iff.rfl⟩
  · rw [h]
    exact ⟨r, hr, .same rfl fun _ => Iff.rfl⟩

theorem step_schedule_sendBack (env : Env) {db : Db} (rejectingUser submissionId : ℕ)
    (rejectionNotes : String) {id : ℕ} {r : EquipmentRecord}
    (hr : db.records.get? id = some r) :
    ∃ r', (step env db (.reject rejectingUser submissionId rejectionNotes true)).records.get? id =
        some r' ∧
      ScheduleStep (.reject rejectingUser submissionId rejectionNotes true) db r.status
        (Booked db.calendarEvents id) r'.status
        (Booked (step env db
          (.reject rejectingUser submissionId rejectionNotes true)).calendarEvents id) := by
  rw [(step_frame env db _).events rfl]
  rcases step_cases env db (.reject rejectingUser submissionId rejectionNotes true) with
    h | ⟨-, envelopes, h⟩
  · obtain ⟨_, h, -⟩ := Svc.returns_map.mp h
    obtain ⟨s, ⟨hs, hlive⟩, hsub, record, hrec, hne, hf, -, h⟩ := returns_reject.mp h
    rw [← h, transition_records]
    by_cases hid : id = s.recordId
    · subst hid
      rw [if_pos rfl, hr]
      refine ⟨_, rfl, .sendBack rfl (fun _ => Iff.rfl) fun hc => ?_⟩
      exact hc s hs (Option.isNone_iff_eq_none.mp hlive) hsub record hrec hne hf
    · rw [if_neg hid]
      exact ⟨r, hr, .same rfl fun _ => Iff.rfl⟩
  · rw [h]
    exact ⟨r, hr, .same rfl fun _ => Iff.rfl⟩

/-- What every request but the admin override does to a record. -/
theorem step_schedule (env : Env) {db : Db} {op : Op} (hn : op.nonAdmin = true) {id : ℕ}
    {r : EquipmentRecord} (hr : db.records.get? id = some r) :
    ∃ r', (step env db op).records.get? id = some r' ∧
      ScheduleStep op db r.status (Booked db.calendarEvents id) r'.status
        (Booked (step env db op).calendarEvents id) := by
  cases op with
  | createEvent actor body => exact step_schedule_createEvent env actor body hr
  | updateEvent eventId body => exact step_schedule_updateEvent env eventId body hr
  | cancelEvent now eventId => exact step_schedule_cancelEvent env now eventId hr
  | reject rejectingUser submissionId rejectionNotes sendBack =>
    cases sendBack with
    | true => exact step_schedule_sendBack env rejectingUser submissionId rejectionNotes hr
    | false =>
      refine step_schedule_of_moves env rfl (fun s t hm => ?_) hr
      rw [hm.1]
      exact ⟨nofun, nofun⟩
  | manualTransition admin recordId toStatus reason => cases hn
  | submit | approve | envelopeCompleted | envelopeDeclined | resolveChangeRequest =>
    refine step_schedule_of_moves env rfl (fun s t hm => ?_) hr
    rw [show t = _ from hm]
    exact ⟨nofun, nofun⟩
  | publishRecord now actingUser recordId =>
    refine step_schedule_of_moves env rfl (fun s t hm => ?_) hr
    rw [hm.2]
    exact ⟨nofun, nofun⟩
  | _ =>
    refine step_schedule_of_moves env rfl (fun s t hm => ?_) hr
    exact False.elim hm

/-! ## One step -/

/-- Every event belongs to a record. -/
def BookingsHaveRecords (db : Db) : Prop :=
  ∀ id k, Booked db.calendarEvents id k → db.records.get? id ≠ none

/-- No event of a missing record comes into being. -/
theorem booked_of_step (env : Env) {db : Db} (op : Op) {id k : ℕ}
    (hb : Booked (step env db op).calendarEvents id k) :
    Booked db.calendarEvents id k ∨ db.records.get? id ≠ none := by
  cases hev : op.writesEvents with
  | false =>
    rw [(step_frame env db op).events hev] at hb
    exact Or.inl hb
  | true =>
    rcases step_cases env db op with h | ⟨-, envelopes, h⟩
    · cases op with
      | createEvent actor body =>
        obtain ⟨_, h, -⟩ := Svc.returns_map.mp h
        obtain ⟨record, hrec, -, -, ⟨_, -, -, h⟩ | ⟨-, -, h⟩⟩ := returns_createEvent.mp h
        · rw [← h] at hb
          exact Or.inl hb
        · rw [← h, transition_calendarEvents, booked_create rfl] at hb
          rcases hb with hb | ⟨-, hid⟩
          · exact Or.inl hb
          · refine Or.inr ?_
            rw [← hid]
            exact (show db.records.get? body.equipmentRecordId ≠ none by simp [hrec])
      | updateEvent eventId body =>
        obtain ⟨_, h, -⟩ := Svc.returns_map.mp h
        obtain ⟨event, he, hopen, -, ⟨_, -, -, h⟩ | ⟨-, -, h⟩⟩ := returns_updateEvent.mp h
        · rw [← h] at hb
          exact Or.inl hb
        · rw [← h, booked_modify he rfl] at hb
          split_ifs at hb with hk
          · subst hk
            exact Or.inl ⟨event, he, hb.1, hopen⟩
          · exact Or.inl hb
      | cancelEvent now eventId =>
        obtain ⟨event, he, ⟨hopen, record, hrec, h⟩ | ⟨-, h⟩⟩ := returns_cancelEvent.mp h
        · rw [← h, booked_modify he rfl] at hb
          split_ifs at hb with hk
          · simp at hb
          · exact Or.inl hb
        · rw [← h] at hb
          exact Or.inl hb
      | _ => cases hev
    · rw [h] at hb
      exact Or.inl hb

theorem step_bookingsHaveRecords (env : Env) {db : Db} (op : Op) (hk : BookingsHaveRecords db) :
    BookingsHaveRecords (step env db op) := by
  intro id k hb
  have hid : db.records.get? id ≠ none := (booked_of_step env op hb).elim (hk id k) fun h => h
  obtain ⟨r, hr⟩ := Option.ne_none_iff_exists'.mp hid
  obtain ⟨r', hr', -⟩ := (step_status env db op).kept id r hr
  rw [hr']
  exact Option.some_ne_none r'

/-- What `ScheduleStep` leaves to show for a record that agreed with its
    events. -/
theorem ScheduleStep.agrees {op : Op} {db : Db} {s s' : Status} {A A' : ℕ → Prop}
    (h : ScheduleStep op db s A s' A') (hc : SendsBackUnbooked db op) (ha : Agrees s A) :
    Agrees s' A' := by
  cases h with
  | same hs hA =>
    rw [hs, show A' = A from funext fun k => propext (hA k)]
    exact ha
  | away hs hn => exact ⟨fun h => absurd h hs, fun h => absurd h hn⟩
  | book k hs hs' hA =>
    have hnone := ha.unscheduled hs
    refine ⟨fun _ => ⟨k, (hA k).mpr (Or.inr rfl), fun j hj => ?_⟩, fun h => ?_⟩
    · exact ((hA j).mp hj).resolve_left (hnone j)
    · rw [hs'] at h
      cases h
  | cancel k hk hs' hA =>
    by_cases hs : s = .appraisalScheduled
    · rw [if_pos hs] at hs'
      obtain ⟨k', -, huniq⟩ := ha.scheduled hs
      refine ⟨fun h => ?_, fun _ j hj => ?_⟩
      · rw [hs'] at h
        cases h
      · obtain ⟨hj, hne⟩ := (hA j).mp hj
        exact hne ((huniq j hj).trans (huniq k hk).symm)
    · rw [if_neg hs] at hs'
      refine ⟨fun h => absurd (hs'.symm.trans h) hs, fun h => ?_⟩
      exact absurd hk (ha.unscheduled (hs'.symm.trans h) k)
  | sendBack hs' hA hno =>
    refine ⟨fun h => ?_, fun _ k hk => hno hc k ((hA k).mp hk)⟩
    rw [hs'] at h
    cases h

theorem sendsBackUnbooked_of_agrees (env : Env) {db : Db} {op : Op}
    (hp : ScheduleAgrees (step env db op)) : SendsBackUnbooked db op := by
  cases op with
  | reject rejectingUser submissionId rejectionNotes sendBack =>
    cases sendBack with
    | false => trivial
    | true =>
      intro s hs hlive hsub record hrec hne hf k hk
      have hacc : Accepted env db (.reject rejectingUser submissionId rejectionNotes true) _ :=
        Svc.returns_map.mpr ⟨_, returns_reject.mpr ⟨s, ⟨hs, Option.isNone_iff_eq_none.mpr hlive⟩,
          hsub, record, hrec, hne, hf, rfl, rfl⟩, rfl⟩
      rw [step_of_accepted hacc] at hp
      have hagree := hp s.recordId { record with status := .newRequest } (by
        rw [transition_records, if_pos rfl, hrec]
        rfl)
      exact hagree.unscheduled rfl k hk
  | _ => trivial

theorem step_scheduleAgrees_iff (env : Env) {db : Db} {op : Op} (hn : op.nonAdmin = true)
    (hk : BookingsHaveRecords db) (hp : ScheduleAgrees db) :
    ScheduleAgrees (step env db op) ↔ SendsBackUnbooked db op := by
  refine ⟨sendsBackUnbooked_of_agrees env, fun hc id r' hr' => ?_⟩
  cases hr : db.records.get? id with
  | none =>
    have hnew := (step_status env db op).fresh id r' hr hr'
    refine ⟨fun h => ?_, fun _ k hb => ?_⟩
    · rw [hnew] at h
      cases h
    · exact (booked_of_step env op hb).elim (fun hb => hk id k hb hr) (fun h => h hr)
  | some r =>
    obtain ⟨r1, hr1, hstep⟩ := step_schedule env hn hr
    rw [hr'] at hr1
    cases hr1
    exact hstep.agrees hc (hp id r hr)

/-! ## Runs -/

/-- **Without admin overrides, statuses and appointments agree in every state of a
    run exactly when every submission sent back is one of a record without an
    uncancelled event.** -/
theorem schedule_agrees_iff (env : Env) (users : Store User) (customers : Store Customer)
    (ops : List Op) (hn : ∀ op ∈ ops, op.nonAdmin = true) :
    AllStates (step env) ScheduleAgrees (Db.init users customers) ops ↔
      AllSteps (step env) SendsBackUnbooked (Db.init users customers) ops := by
  refine allStates_iff_allSteps_mem (I := BookingsHaveRecords)
    (fun db op _ hk _ => step_bookingsHaveRecords env op hk)
    (fun db op hop hk hp => step_scheduleAgrees_iff env (hn op hop) hk hp) ?_ ?_
  · rintro id k ⟨e, he, -⟩
    rw [show (Db.init users customers).calendarEvents = .empty from rfl, Store.get?_empty] at he
    cases he
  · intro id r hr
    rw [show (Db.init users customers).records = .empty from rfl, Store.get?_empty] at hr
    cases hr

/-- A record whose appraisal is sent back, booked a second time; then the first
    appointment is cancelled. -/
def sentBackRun : List Op :=
  [.submitIntake { customerId := 0 }, .createEvent 1 (booking 0 0 "Fresno"), .createDraft 0 0,
    .submit 100 0 0 {} [], .reject 1 0 "Photos were blurry." true,
    .createEvent 1 (booking 0 (minutes 300) "Fresno"), .cancelEvent 200 0]

/-- A first appraisal that is rejected for good. -/
theorem schedule_agrees_declined :
    AllStates (step sampleEnv) ScheduleAgrees (Db.init sampleUsers sampleCustomers)
      (sentBackRun.take 4 ++ [.reject 1 0 "No market." false]) := by
  refine (schedule_agrees_iff sampleEnv sampleUsers sampleCustomers _ (by decide)).mpr ?_
  exact ⟨trivial, trivial, trivial, trivial, trivial, trivial⟩

/-- The cancellation of the first appointment makes the record a new request,
    while its second appointment stands. -/
theorem sentBack_schedule_disagrees :
    ¬ ∀ (env : Env) (users : Store User) (customers : Store Customer) (ops : List Op),
      (∀ op ∈ ops, op.nonAdmin = true) →
        ScheduleAgrees (run (step env) (Db.init users customers) ops) := by
  intro h
  have hstatus : (run (step sampleEnv) (Db.init sampleUsers sampleCustomers)
      sentBackRun).statusOf 0 = some .newRequest := by decide
  obtain ⟨r, hr, hs⟩ := Db.statusOf_eq_some.mp hstatus
  have hagree := h sampleEnv sampleUsers sampleCustomers sentBackRun (by decide) 0 r hr
  refine hagree.unscheduled hs 1 ⟨⟨0, 0, minutes 300, 60, some "Fresno", none⟩, ?_, rfl, rfl⟩
  decide

end TempleConsign
