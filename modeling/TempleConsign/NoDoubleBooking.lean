import TempleConsign.Lifecycle

/-!
# Appointments of one appraiser

Two kept appointments of an appraiser should leave the time to drive between
them. The conflict check compares a proposed slot with the appraiser's events
that start less than 24 h away, and `update_event` runs it only when the
appraiser or the time changes.

Results:
* `appointments_disjoint`: appointments never overlap in time.
* `no_double_booking_iff`: a run keeps every buffer exactly when no accepted
  request books within a buffer reaching past the 24 h window or changes an
  address into a longer drive.
* `short_drives_suffice`: buffers of at most 16 h and no address-only change.
-/

namespace TempleConsign

open ServiceLib

/-- The rule for two events: when both are kept and share the appraiser, one
    ends, and the buffer to the other passes, before the other starts. -/
def KeepsBuffer (cfg : TravelConfig) (e f : CalendarEvent) : Prop :=
  e.cancelledAt = none → f.cancelledAt = none → e.appraiserId = f.appraiserId →
    e.slot.Apart cfg f.slot

theorem KeepsBuffer.symm {cfg : TravelConfig} {e f : CalendarEvent} (h : KeepsBuffer cfg e f) :
    KeepsBuffer cfg f e :=
  fun hf he ha => (h he hf ha.symm).symm

/-- No two events of the calendar break the rule. -/
def NoDoubleBooking (cfg : TravelConfig) (db : Db) : Prop :=
  db.calendarEvents.Pairwise (KeepsBuffer cfg)

/-- Two kept events of one appraiser do not overlap. -/
def DisjointTimes (e f : CalendarEvent) : Prop :=
  e.cancelledAt = none → f.cancelledAt = none → e.appraiserId = f.appraiserId →
    e.slot.stop ≤ f.slot.start ∨ f.slot.stop ≤ e.slot.start

theorem DisjointTimes.symm {e f : CalendarEvent} (h : DisjointTimes e f) : DisjointTimes f e :=
  fun hf he ha => (h he hf ha.symm).symm

/-- Every stored duration is one the schemas admit. -/
def ValidDurations (db : Db) : Prop :=
  ∀ id e, db.calendarEvents.get? id = some e → ValidDuration e.durationMinutes

theorem slot_length {e : CalendarEvent} (h : ValidDuration e.durationMinutes) :
    e.slot.start < e.slot.stop ∧ e.slot.stop ≤ e.slot.start + minutes 480 := by
  obtain ⟨h1, h2⟩ := h
  simp only [CalendarEvent.slot, minutes, seconds]
  omega

theorem Slot.Apart.disjoint {cfg : TravelConfig} {a b : Slot} (h : a.Apart cfg b) :
    a.stop ≤ b.start ∨ b.stop ≤ a.start :=
  h.imp (fun h => h.1) (fun h => h.1)

/-- Slots of at most 8 h that start 24 h apart or more do not overlap, and lie
    16 h apart. -/
theorem outside_window {e f : CalendarEvent} (he : ValidDuration e.durationMinutes)
    (hf : ValidDuration f.durationMinutes)
    (hout : ¬ (e.scheduledAt - days 1 ≤ f.scheduledAt ∧ f.scheduledAt < e.scheduledAt + days 1)) :
    e.slot.stop + minutes 960 ≤ f.slot.start ∨ f.slot.stop + minutes 960 ≤ e.slot.start := by
  have h1 := slot_length he
  have h2 := slot_length hf
  simp only [CalendarEvent.slot, days, minutes, seconds] at *
  omega

/-! ## What the check covers -/

/-- `e`, about to be stored under `id`, keeps the buffers to the events of its
    appraiser that satisfy `among`. -/
def BuffersTo (cfg : TravelConfig) (db : Db) (id : ℕ) (e : CalendarEvent)
    (among : CalendarEvent → Prop) : Prop :=
  ∀ j f, j ≠ id → db.calendarEvents.get? j = some f → f.cancelledAt = none →
    f.appraiserId = e.appraiserId → among f → e.slot.Apart cfg f.slot

/-- `f` starts inside the window of `_check_conflict` around `e`. -/
def InWindow (e f : CalendarEvent) : Prop :=
  e.scheduledAt - days 1 ≤ f.scheduledAt ∧ f.scheduledAt < e.scheduledAt + days 1

/-- The buffers to every other event of the appraiser. -/
def BuffersToAll (cfg : TravelConfig) (db : Db) (id : ℕ) (e : CalendarEvent) : Prop :=
  BuffersTo cfg db id e fun _ => True

theorem buffersToAll_iff {cfg : TravelConfig} {db : Db} {id : ℕ} {e : CalendarEvent} :
    BuffersToAll cfg db id e ↔
      BuffersTo cfg db id e (InWindow e) ∧ BuffersTo cfg db id e fun f => ¬ InWindow e f := by
  constructor
  · exact fun h => ⟨fun j f hj hf hc ha _ => h j f hj hf hc ha trivial,
      fun j f hj hf hc ha _ => h j f hj hf hc ha trivial⟩
  · rintro ⟨hin, hout⟩ j f hj hf hc ha -
    by_cases hw : InWindow e f
    · exact hin j f hj hf hc ha hw
    · exact hout j f hj hf hc ha hw

/-- `_check_conflict` passes exactly when the buffers inside the window are
    kept. -/
theorem checkConflict_iff_buffers {cfg : TravelConfig} {db : Db} (id : ℕ) {e : CalendarEvent}
    {ignore : Option ℕ} (hv : ValidDurations db) (he : ValidDuration e.durationMinutes)
    (hig : ∀ j f, db.calendarEvents.get? j = some f → (ignore ≠ some j ↔ j ≠ id)) :
    checkConflict cfg db e.appraiserId e.slot ignore = none ↔
      BuffersTo cfg db id e (InWindow e) := by
  rw [checkConflict_eq_none_iff]
  have hcand : ∀ j f, isCandidate e.appraiserId e.slot.start ignore j f = true ↔
      f.appraiserId = e.appraiserId ∧ f.cancelledAt = none ∧ InWindow e f ∧ ignore ≠ some j := by
    intro j f
    simp only [isCandidate, InWindow, Bool.and_eq_true, decide_eq_true_eq,
      Option.isNone_iff_eq_none, and_assoc]
    rfl
  constructor
  · intro h j f hj hf hc ha hw
    have := h j f hf ((hcand j f).mpr ⟨ha, hc, hw, (hig j f hf).mpr hj⟩)
    exact (conflictWith_eq_none_iff (slot_length he).1 (slot_length (hv j f hf)).1).mp this
  · intro h j f hf hcd
    obtain ⟨ha, hc, hw, hj⟩ := (hcand j f).mp hcd
    rw [conflictWith_eq_none_iff (slot_length he).1 (slot_length (hv j f hf)).1]
    exact h j f ((hig j f hf).mp hj) hf hc ha hw

/-! ## The three requests -/

theorem create_valid {body : CalendarEventCreate} (record : EquipmentRecord) :
    ValidDuration (body.event record).durationMinutes := by
  have h := body.valid
  unfold CalendarEventCreate.event
  split_ifs with h0
  · show 15 ≤ 60 ∧ 60 ≤ 480
    omega
  · exact h

theorem patched_valid {e : CalendarEvent} (body : CalendarEventPatch)
    (he : ValidDuration e.durationMinutes) : ValidDuration (e.patched body).durationMinutes := by
  unfold CalendarEvent.patched
  cases hd : body.durationMinutes.filter (· ≠ 0) with
  | none => exact he
  | some d =>
    have hm : d ∈ body.durationMinutes := (Option.filter_eq_some_iff.mp hd).1
    exact body.valid d hm

/-- The condition on a request in the state it finds: an accepted booking does
    not come closer than a buffer to an event outside the 24 h window, and an
    accepted address change keeps the buffers to all events. -/
def BuffersCovered (cfg : TravelConfig) (db : Db) : Op → Prop
  | .createEvent _ body =>
    ∀ record, db.records.get? body.equipmentRecordId = some record →
      record.status = .newRequest →
      (∃ user, db.users.get? body.appraiserId = some user ∧ user.role = .appraiser) →
      BuffersTo cfg db db.calendarEvents.next (body.event record) (InWindow (body.event record)) →
        BuffersTo cfg db db.calendarEvents.next (body.event record) fun f =>
          ¬ InWindow (body.event record) f
  | .updateEvent eventId body =>
    ∀ event, db.calendarEvents.get? eventId = some event → event.cancelledAt = none →
      ((event.patched body).appraiserId ≠ event.appraiserId →
        ∃ user, db.users.get? (event.patched body).appraiserId = some user ∧
          user.role = .appraiser) →
      (scheduleChanged event body = true →
        BuffersTo cfg db eventId (event.patched body) (InWindow (event.patched body)) →
        BuffersTo cfg db eventId (event.patched body) fun f => ¬ InWindow (event.patched body) f) ∧
      (scheduleChanged event body = false → BuffersToAll cfg db eventId (event.patched body))
  | _ => True

/-- An event that keeps the buffers inside the window overlaps with no event. -/
theorem BuffersTo.disjoint {cfg : TravelConfig} {db : Db} {id : ℕ} {e : CalendarEvent}
    (h : BuffersTo cfg db id e (InWindow e)) (hv : ValidDurations db)
    (he : ValidDuration e.durationMinutes) :
    ∀ j f, j ≠ id → db.calendarEvents.get? j = some f → DisjointTimes e f := by
  intro j f hj hf _ hcf ha
  by_cases hw : InWindow e f
  · exact (h j f hj hf hcf ha.symm hw).disjoint
  · have hout := outside_window he (hv j f hf) hw
    simp only [minutes, seconds] at hout
    omega

/-- How a request changes the calendar. -/
inductive CalendarMove (cfg : TravelConfig) (db : Db) (op : Op) (t : Store CalendarEvent) : Prop
  | same (h : t = db.calendarEvents) (hc : BuffersCovered cfg db op)
  | write (id : ℕ) (e : CalendarEvent) (hv : ValidDuration e.durationMinutes)
      (hkept : e.cancelledAt = none)
      (hput : ∀ j, t.get? j = if j = id then some e else db.calendarEvents.get? j)
      (hd : db.calendarEvents.Pairwise DisjointTimes →
        ∀ j f, j ≠ id → db.calendarEvents.get? j = some f → DisjointTimes e f)
      (hc : BuffersCovered cfg db op ↔ BuffersToAll cfg db id e)
  | cancel (id : ℕ) (now : ℤ)
      (ht : t = db.calendarEvents.modify id fun e => { e with cancelledAt := some now })
      (hc : BuffersCovered cfg db op)

theorem move_createEvent (env : Env) (db : Db) (actor : ℕ) (body : CalendarEventCreate)
    (hv : ValidDurations db) :
    CalendarMove env.travel db (.createEvent actor body)
      (step env db (.createEvent actor body)).calendarEvents := by
  have hcheck : ∀ record,
      checkConflict env.travel db body.appraiserId (body.event record).slot none = none ↔
        BuffersTo env.travel db db.calendarEvents.next (body.event record)
          (InWindow (body.event record)) := fun record =>
    checkConflict_iff_buffers (e := body.event record) _ hv (create_valid record) fun j f hj =>
      ⟨fun _ => (Store.get?_lt hj).ne, fun _ => nofun⟩
  by_cases hok : ∃ record, db.records.get? body.equipmentRecordId = some record ∧
      record.status = .newRequest ∧
      (∃ user, db.users.get? body.appraiserId = some user ∧ user.role = .appraiser) ∧
      BuffersTo env.travel db db.calendarEvents.next (body.event record)
        (InWindow (body.event record))
  · obtain ⟨record, hr, hs, hu, hin⟩ := hok
    have hacc : Accepted env db (.createEvent actor body) _ :=
      Svc.returns_map.mpr ⟨_, returns_createEvent.mpr
        ⟨record, hr, hs, hu, Or.inr ⟨(hcheck record).mpr hin, rfl, rfl⟩⟩, rfl⟩
    rw [step_of_accepted hacc]
    refine .write db.calendarEvents.next (body.event record) (create_valid record) rfl
      (fun j => Store.get?_create _ _ _) (fun _ => hin.disjoint hv (create_valid record)) ?_
    rw [buffersToAll_iff]
    constructor
    · exact fun h => ⟨hin, h record hr hs hu hin⟩
    · rintro ⟨-, hout⟩ record' hr' - - -
      rw [hr] at hr'
      cases hr'
      exact hout
  · refine .same ?_ fun record hr hs hu hin => absurd ⟨record, hr, hs, hu, hin⟩ hok
    rcases step_cases env db (.createEvent actor body) with h | ⟨-, envelopes, h⟩
    · obtain ⟨_, h, -⟩ := Svc.returns_map.mp h
      obtain ⟨record, hr, hs, hu, ⟨_, -, -, h⟩ | ⟨hn, -, -⟩⟩ := returns_createEvent.mp h
      · rw [← h]
      · exact absurd ⟨record, hr, hs, hu, (hcheck record).mp hn⟩ hok
    · rw [h]

/-- `update_event` checks the buffers inside the window when the appraiser or
    the time changes. -/
theorem editConflict_iff_buffers (cfg : TravelConfig) {db : Db} {eventId : ℕ}
    {event : CalendarEvent} (body : CalendarEventPatch) (hv : ValidDurations db)
    (he : db.calendarEvents.get? eventId = some event) :
    editConflict cfg db eventId event body = none ↔
      (scheduleChanged event body = true →
        BuffersTo cfg db eventId (event.patched body) (InWindow (event.patched body))) := by
  have hvalid := patched_valid body (hv _ _ he)
  unfold editConflict
  split_ifs with hs
  · rw [checkConflict_iff_buffers eventId hv hvalid fun j f _ => by simp [eq_comm]]
    exact ⟨fun h _ => h, fun h => h hs⟩
  · exact ⟨fun _ h => absurd h hs, fun _ => rfl⟩

/-- An edit that leaves the appraiser and the times alone overlaps with what the
    row overlapped with. -/
theorem patched_disjoint {db : Db} {eventId : ℕ} {event : CalendarEvent}
    {body : CalendarEventPatch} (he : db.calendarEvents.get? eventId = some event)
    (hc : event.cancelledAt = none) (hs : scheduleChanged event body = false)
    (hd : db.calendarEvents.Pairwise DisjointTimes) :
    ∀ j f, j ≠ eventId → db.calendarEvents.get? j = some f →
      DisjointTimes (event.patched body) f := by
  simp only [scheduleChanged, Bool.or_eq_false_iff, decide_eq_false_iff_not, ne_eq, not_not] at hs
  intro j f hj hf _ hcf ha
  have hold := hd eventId j event f (Ne.symm hj) he hf hc hcf (hs.1.1 ▸ ha)
  simp only [CalendarEvent.slot] at hold ⊢
  rw [hs.1.2, hs.2]
  exact hold

theorem move_updateEvent (env : Env) (db : Db) (eventId : ℕ) (body : CalendarEventPatch)
    (hv : ValidDurations db) :
    CalendarMove env.travel db (.updateEvent eventId body)
      (step env db (.updateEvent eventId body)).calendarEvents := by
  by_cases hok : ∃ event, db.calendarEvents.get? eventId = some event ∧ event.cancelledAt = none ∧
      ((event.patched body).appraiserId ≠ event.appraiserId →
        ∃ user, db.users.get? (event.patched body).appraiserId = some user ∧
          user.role = .appraiser) ∧
      editConflict env.travel db eventId event body = none
  · obtain ⟨event, he, hc, hu, hn⟩ := hok
    have hvalid := patched_valid body (hv _ _ he)
    have hin := (editConflict_iff_buffers env.travel body hv he).mp hn
    have hacc : Accepted env db (.updateEvent eventId body) _ :=
      Svc.returns_map.mpr ⟨_, returns_updateEvent.mpr
        ⟨event, he, hc, hu, Or.inr ⟨hn, rfl, rfl⟩⟩, rfl⟩
    rw [step_of_accepted hacc]
    refine .write eventId (event.patched body) hvalid hc (fun j => ?_) (fun hd => ?_) ?_
    · rw [Store.get?_modify]
      split_ifs with hj
      · rw [hj, he]; rfl
      · rfl
    · cases hs : scheduleChanged event body with
      | true => exact (hin hs).disjoint hv hvalid
      | false => exact patched_disjoint he hc hs hd
    · constructor
      · intro h
        obtain ⟨h1, h2⟩ := h event he hc hu
        cases hs : scheduleChanged event body with
        | true => exact buffersToAll_iff.mpr ⟨hin hs, h1 hs (hin hs)⟩
        | false => exact h2 hs
      · intro h event' he' _ _
        rw [he] at he'
        cases he'
        exact ⟨fun _ _ => (buffersToAll_iff.mp h).2, fun _ => h⟩
  · refine .same ?_ fun event he hc hu => ⟨fun _ hin => ?_, fun hs => ?_⟩
    · rcases step_cases env db (.updateEvent eventId body) with h | ⟨-, envelopes, h⟩
      · obtain ⟨_, h, -⟩ := Svc.returns_map.mp h
        obtain ⟨event, he, hc, hu, ⟨_, -, -, h⟩ | ⟨hn, -, -⟩⟩ := returns_updateEvent.mp h
        · rw [← h]
        · exact absurd ⟨event, he, hc, hu, hn⟩ hok
      · rw [h]
    · have hn := (editConflict_iff_buffers env.travel body hv he).mpr fun _ => hin
      exact absurd ⟨event, he, hc, hu, hn⟩ hok
    · have hn := (editConflict_iff_buffers env.travel body hv he).mpr fun h => by
        rw [hs] at h
        cases h
      exact absurd ⟨event, he, hc, hu, hn⟩ hok

theorem move_cancelEvent (env : Env) (db : Db) (now : ℤ) (eventId : ℕ) :
    CalendarMove env.travel db (.cancelEvent now eventId)
      (step env db (.cancelEvent now eventId)).calendarEvents := by
  rcases step_cases env db (.cancelEvent now eventId) with h | ⟨-, envelopes, h⟩
  · obtain ⟨_, -, ⟨-, _, -, h⟩ | ⟨-, h⟩⟩ := returns_cancelEvent.mp h
    · rw [← h]; exact .cancel eventId now rfl trivial
    · rw [← h]; exact .same rfl trivial
  · rw [h]; exact .same rfl trivial

theorem step_calendar (env : Env) (db : Db) (op : Op) (hv : ValidDurations db) :
    CalendarMove env.travel db op (step env db op).calendarEvents := by
  cases op with
  | createEvent actor body => exact move_createEvent env db actor body hv
  | updateEvent eventId body => exact move_updateEvent env db eventId body hv
  | cancelEvent now eventId => exact move_cancelEvent env db now eventId
  | _ => exact .same ((step_frame env db _).events rfl) trivial

/-! ## Runs -/

theorem step_validDurations {env : Env} {db : Db} (op : Op) (hv : ValidDurations db) :
    ValidDurations (step env db op) := by
  intro j f hj
  rcases step_calendar env db op hv with ⟨h, -⟩ | ⟨id, e, he, -, hput, -, -⟩ | ⟨id, now, ht, -⟩
  · exact hv j f (h ▸ hj)
  · rw [hput] at hj
    split_ifs at hj
    · cases hj; exact he
    · exact hv j f hj
  · rw [ht, Store.get?_modify] at hj
    split_ifs at hj
    · obtain ⟨e, he, rfl⟩ := Option.map_eq_some_iff.mp hj
      exact hv j e he
    · exact hv j f hj

theorem validDurations_init (users : Store User) (customers : Store Customer) :
    ValidDurations (Db.init users customers) := by
  intro j f hf
  rw [Db.init, Store.get?_empty] at hf
  cases hf

/-- A request keeps the rule exactly when it meets `BuffersCovered`. -/
theorem step_noDoubleBooking_iff {env : Env} {db : Db} (op : Op) (hv : ValidDurations db)
    (hp : NoDoubleBooking env.travel db) :
    NoDoubleBooking env.travel (step env db op) ↔ BuffersCovered env.travel db op := by
  unfold NoDoubleBooking at *
  rcases step_calendar env db op hv with
    ⟨h, hc⟩ | ⟨id, e, -, hkept, hput, -, hc⟩ | ⟨id, now, ht, hc⟩
  · rw [h]
    exact ⟨fun _ => hc, fun _ => hp⟩
  · rw [Store.Pairwise.put_iff (fun _ _ => KeepsBuffer.symm) hput hp, hc]
    constructor
    · exact fun h j f hj hf hcf ha _ => h j f hj hf hkept hcf ha.symm
    · exact fun h j f hj hf _ hcf ha => h j f hj hf hcf ha.symm trivial
  · rw [ht]
    refine ⟨fun _ => hc, fun _ => hp.modify (fun _ _ => KeepsBuffer.symm) ?_⟩
    intro a b _ _ hcancel
    cases hcancel

/-- **Appointments of one appraiser never overlap.** -/
theorem step_disjoint (env : Env) {db : Db} (op : Op) (hv : ValidDurations db)
    (hp : db.calendarEvents.Pairwise DisjointTimes) :
    (step env db op).calendarEvents.Pairwise DisjointTimes := by
  rcases step_calendar env db op hv with ⟨h, -⟩ | ⟨id, e, -, -, hput, hd, -⟩ | ⟨id, now, ht, -⟩
  · rw [h]; exact hp
  · exact (Store.Pairwise.put_iff (fun _ _ => DisjointTimes.symm) hput hp).mpr (hd hp)
  · rw [ht]
    refine hp.modify (fun _ _ => DisjointTimes.symm) ?_
    intro a b _ _ hcancel
    cases hcancel

/-- Appointments of one appraiser never overlap in a run. -/
theorem appointments_disjoint (env : Env) (users : Store User) (customers : Store Customer)
    (ops : List Op) :
    AllStates (step env) (fun db => db.calendarEvents.Pairwise DisjointTimes)
      (Db.init users customers) ops := by
  have hall := allStates_of_step
    (P := fun db => ValidDurations db ∧ db.calendarEvents.Pairwise DisjointTimes)
    (fun db op h => ⟨step_validDurations op h.1, step_disjoint env op h.1 h.2⟩)
    ⟨validDurations_init users customers, Store.pairwise_empty⟩ ops
  exact hall.mono fun _ h => h.2

/-- **A run keeps every buffer exactly when all its requests are covered**;
    disjointness in time it always keeps. -/
theorem no_double_booking_iff (env : Env) (users : Store User) (customers : Store Customer)
    (ops : List Op) :
    AllStates (step env) (fun db => db.calendarEvents.Pairwise DisjointTimes)
      (Db.init users customers) ops ∧
    (AllStates (step env) (NoDoubleBooking env.travel) (Db.init users customers) ops ↔
      AllSteps (step env) (BuffersCovered env.travel) (Db.init users customers) ops) := by
  refine ⟨appointments_disjoint env users customers ops, ?_⟩
  exact allStates_iff_allSteps (fun _ op hi _ => step_validDurations op hi)
    (fun _ op hi hp => step_noDoubleBooking_iff op hi hp) (validDurations_init users customers)
    Store.pairwise_empty ops

/-! ## Where the rule holds and where it breaks -/

/-- With buffers of at most 16 h a booking is covered by the 24 h window. -/
theorem outside_buffers {cfg : TravelConfig} {db : Db} {id : ℕ} {e : CalendarEvent}
    (hcfg : ∀ o d, resolveBufferSeconds cfg o d ≤ 57600) (hv : ValidDurations db)
    (he : ValidDuration e.durationMinutes) : BuffersTo cfg db id e fun f => ¬ InWindow e f := by
  intro j f _ hf _ _ hout
  have h1 := hcfg e.slot.address f.slot.address
  have h2 := hcfg f.slot.address e.slot.address
  rcases outside_window he (hv j f hf) hout with h | h
  · refine Or.inl ?_
    simp only [Slot.Before, minutes, seconds] at *
    omega
  · refine Or.inr ?_
    simp only [Slot.Before, minutes, seconds] at *
    omega

/-- A patch that leaves the schedule leaves the address too. -/
def KeepsAddress (db : Db) : Op → Prop
  | .updateEvent eventId body =>
    ∀ event, db.calendarEvents.get? eventId = some event → scheduleChanged event body = false →
      (event.patched body).siteAddress = event.siteAddress
  | _ => True

theorem buffersCovered_of_short {cfg : TravelConfig} {db : Db} {op : Op}
    (hcfg : ∀ o d, resolveBufferSeconds cfg o d ≤ 57600) (hv : ValidDurations db)
    (hop : KeepsAddress db op) (hp : NoDoubleBooking cfg db) : BuffersCovered cfg db op := by
  cases op with
  | createEvent actor body =>
    exact fun record _ _ _ _ => outside_buffers hcfg hv (create_valid record)
  | updateEvent eventId body =>
    intro event he hc _
    refine ⟨fun _ _ => outside_buffers hcfg hv (patched_valid body (hv _ _ he)), fun hs => ?_⟩
    have haddr := hop event he hs
    simp only [scheduleChanged, Bool.or_eq_false_iff, decide_eq_false_iff_not, ne_eq,
      not_not] at hs
    have hslot : (event.patched body).slot = event.slot := by
      simp only [CalendarEvent.slot]
      rw [hs.1.2, hs.2, haddr]
    intro j f hj hf hcf ha _
    rw [hslot]
    exact hp eventId j event f (Ne.symm hj) he hf hc hcf (hs.1.1 ▸ ha.symm)
  | _ => trivial

/-- The two kinds of failing input are all there is: with buffers of at most
    16 h and no address-only change every buffer is kept. -/
theorem short_drives_suffice {env : Env} {users : Store User} {customers : Store Customer}
    {ops : List Op} (hcfg : ∀ o d, resolveBufferSeconds env.travel o d ≤ 57600)
    (h : AllSteps (step env) KeepsAddress (Db.init users customers) ops) :
    AllStates (step env) (NoDoubleBooking env.travel) (Db.init users customers) ops := by
  have hall := allStates_of_allSteps
    (P := fun db => ValidDurations db ∧ NoDoubleBooking env.travel db)
    (fun db op hi hc => ⟨step_validDurations op hi.1,
      (step_noDoubleBooking_iff op hi.1 hi.2).mpr (buffersCovered_of_short hcfg hi.1 hc hi.2)⟩)
    ⟨validDurations_init users customers, Store.pairwise_empty⟩ h
  exact hall.mono fun _ hi => hi.2

/-- Drives into Reno take 5 h, other drives half an hour. -/
def renoEnv : Env where
  travel :=
    { driveTimeSeconds := fun _ d => if d = "Reno" then some 18000 else some 1800
      fallbackMinutes := 30 }
  priceThreshold := tenPercent

/-- An appointment of one hour with appraiser 0. -/
def booking (recordId : ℕ) (scheduledAt : ℤ) (address : String) : CalendarEventCreate where
  equipmentRecordId := recordId
  appraiserId := 0
  scheduledAt := scheduledAt
  siteAddress := some address

/-- Two appointments three hours apart, then the second one is moved to Reno. -/
def addressChangeRun : List Op :=
  [.submitIntake { customerId := 0 }, .submitIntake { customerId := 0 },
    .createEvent 1 (booking 0 0 "Fresno"), .createEvent 1 (booking 1 (minutes 180) "Fresno"),
    .updateEvent 1 { siteAddress := some (some "Reno") }]

/-- Every drive takes 49 h. -/
def farEnv : Env where
  travel := { driveTimeSeconds := fun _ _ => some 176400, fallbackMinutes := 30 }
  priceThreshold := tenPercent

/-- Two appointments on consecutive days, 25 h apart. -/
def farDriveRun : List Op :=
  [.submitIntake { customerId := 0 }, .submitIntake { customerId := 0 },
    .createEvent 1 (booking 0 0 "Miami"), .createEvent 1 (booking 1 (minutes 1500) "Seattle")]

/-- Every run keeps every buffer. -/
def AlwaysBuffered : Prop :=
  ∀ (env : Env) (users : Store User) (customers : Store Customer) (ops : List Op),
    NoDoubleBooking env.travel (run (step env) (Db.init users customers) ops)

/-- Moving an appointment to a distant address is not checked at all. -/
theorem address_change_breaks_buffer : ¬ AlwaysBuffered := by
  intro h
  have hap := h renoEnv sampleUsers sampleCustomers addressChangeRun 0 1
    ⟨0, 0, 0, 60, some "Fresno", none⟩ ⟨1, 0, minutes 180, 60, some "Reno", none⟩
    (by decide) (by decide) (by decide) rfl rfl rfl
  revert hap
  decide

/-- A booking 25 h after another one is not compared with it. -/
theorem far_drive_breaks_buffer :
    ¬ NoDoubleBooking farEnv.travel
      (run (step farEnv) (Db.init sampleUsers sampleCustomers) farDriveRun) := by
  intro h
  have hap := h 0 1 ⟨0, 0, 0, 60, some "Miami", none⟩
    ⟨1, 0, minutes 1500, 60, some "Seattle", none⟩ (by decide) (by decide) (by decide) rfl rfl rfl
  revert hap
  decide

end TempleConsign
