import TempleConsign.Lib.ReadCommitted
import TempleConsign.NoDoubleBooking

/-!
# Concurrent schedulers

`create_event`, `update_event` and `cancel_event` as transactions at READ
COMMITTED. The `SELECT … FOR UPDATE` of `_check_conflict` takes its snapshot
first; it then locks the rows it found, waiting where another transaction holds
one, and reads the locked rows again. A row that is inserted or moved into the
window after the snapshot is neither seen nor locked. An update writes the
columns that differ from the row it loaded.

Results:
* `createEvent_alone`: an undisturbed transaction is `create_event`.
* `recheck_disjoint`, `outside_candidates`: what the check gives for the rows it
  locked and for the rows outside its window.
* `scheduleRule`: what a scheduler knows until it commits.
* `concurrent_scheduling_iff`: a run keeps the appointments of each appraiser
  disjoint exactly when no scheduler commits over an event that it has not seen.
-/

namespace TempleConsign

open ServiceLib

/-! ## Bookings -/

/-- What a scheduler is about to write, with the rows it has loaded. -/
inductive Booking
  | create (actor : ℕ) (body : CalendarEventCreate) (record : EquipmentRecord)
  | update (eventId : ℕ) (event : CalendarEvent) (body : CalendarEventPatch)

/-- The event that the conflict check is about. -/
def Booking.row : Booking → CalendarEvent
  | create _ body record => body.event record
  | update _ event body => event.patched body

/-- `ignore_event_id`. -/
def Booking.own : Booking → Option ℕ
  | create _ _ _ => none
  | update eventId _ _ => some eventId

/-- The `WHERE` of the conflict check. -/
def Booking.isCandidate (b : Booking) : ℕ → CalendarEvent → Bool :=
  TempleConsign.isCandidate b.row.appraiserId b.row.slot.start b.own

/-- The rows that the conflict check finds. -/
def Booking.candidates (b : Booking) (events : Store CalendarEvent) : List ℕ :=
  (events.select b.isCandidate).map Prod.fst

/-- The `UPDATE` of a loaded event: the columns that the patch changes. -/
def CalendarEvent.edited (loaded : CalendarEvent) (body : CalendarEventPatch)
    (current : CalendarEvent) : CalendarEvent :=
  let new := loaded.patched body
  { current with
    appraiserId := if new.appraiserId = loaded.appraiserId then current.appraiserId
      else new.appraiserId
    scheduledAt := if new.scheduledAt = loaded.scheduledAt then current.scheduledAt
      else new.scheduledAt
    durationMinutes := if new.durationMinutes = loaded.durationMinutes then current.durationMinutes
      else new.durationMinutes
    siteAddress := if new.siteAddress = loaded.siteAddress then current.siteAddress
      else new.siteAddress }

/-- The rows that `candidates` names and that still match, checked against the
    slot (line 373). -/
def recheck (cfg : TravelConfig) (db : Db) (b : Booking) (candidates : List ℕ) :
    Option CalendarConflict :=
  let sameDayEvents :=
    (db.calendarEvents.select fun id e => id ∈ candidates && b.isCandidate id e).insertionSort
      fun a b => a.2.scheduledAt ≤ b.2.scheduledAt
  sameDayEvents.findSome? fun e => conflictWith cfg b.row.slot e.1 e.2

/-! ## The transactions -/

/-- A row lock. -/
inductive RowLock
  | event (id : ℕ)
  | record (id : ℕ)
  deriving DecidableEq

inductive ScheduleCall
  | create (actor : ℕ) (body : CalendarEventCreate)
  | update (eventId : ℕ) (body : CalendarEventPatch)
  | cancel (now : ℤ) (eventId : ℕ)

inductive SchedulePoint
  | create (actor : ℕ) (body : CalendarEventCreate)
  | createAppraiser (actor : ℕ) (body : CalendarEventCreate) (record : EquipmentRecord)
  | update (eventId : ℕ) (body : CalendarEventPatch)
  | updateAppraiser (eventId : ℕ) (event : CalendarEvent) (body : CalendarEventPatch)
  /-- The `SELECT … FOR UPDATE` begins. -/
  | check (b : Booking)
  /-- Its snapshot is taken. -/
  | lock (b : Booking) (seen : Store CalendarEvent)
  | write (b : Booking) (seen : Store CalendarEvent)
  | moveRecord (actor : ℕ) (body : CalendarEventCreate) (record : EquipmentRecord)
    (seen : Store CalendarEvent)
  /-- A checked booking is ready to commit. -/
  | booked (b : Booking) (seen : Store CalendarEvent)
  /-- `update_event` without a change of the schedule. -/
  | edit (eventId : ℕ) (event : CalendarEvent) (body : CalendarEventPatch)
  | cancel (now : ℤ) (eventId : ℕ)
  | cancelWrite (now : ℤ) (eventId : ℕ) (event : CalendarEvent)
  | cancelRecord (recordId : ℕ)
  | revertRecord (recordId : ℕ)
  /-- The end of a transaction that books nothing. -/
  | finished

/-- `select(User, Role.slug)` of `_require_appraiser`. -/
def isAppraiser (db : Db) (userId : ℕ) : Bool :=
  match db.users.get? userId with
  | some user => user.role = .appraiser
  | none => false

def Booking.write : Booking → Db → Db
  | create _ body record, db =>
    { db with calendarEvents := db.calendarEvents.create (body.event record) }
  | update eventId event body, db =>
    { db with calendarEvents := db.calendarEvents.modify eventId (event.edited body) }

def scheduleStmt (cfg : TravelConfig) : SchedulePoint → Db → Stmt Db RowLock SchedulePoint
  | .create actor body, db =>
    match db.records.get? body.equipmentRecordId with
    | none => .rollback
    | some record =>
      if record.status = .newRequest then .goOn [] id (.createAppraiser actor body record)
      else .rollback
  | .createAppraiser actor body record, db =>
    if isAppraiser db body.appraiserId then .goOn [] id (.check (.create actor body record))
    else .rollback
  | .update eventId body, db =>
    match db.calendarEvents.get? eventId with
    | none => .rollback
    | some event =>
      if event.cancelledAt = none then .goOn [] id (.updateAppraiser eventId event body)
      else .rollback
  | .updateAppraiser eventId event body, db =>
    let updated := event.patched body
    if updated.appraiserId = event.appraiserId ∨ isAppraiser db updated.appraiserId then
      if scheduleChanged event body then .goOn [] id (.check (.update eventId event body))
      else .goOn [] id (.edit eventId event body)
    else .rollback
  | .check b, db => .goOn [] id (.lock b db.calendarEvents)
  | .lock b seen, db =>
    let candidates := b.candidates seen
    match recheck cfg db b candidates with
    -- the conflict is returned, not raised
    | some _ => .goOn (candidates.map .event) id .finished
    | none => .goOn (candidates.map .event) id (.write b seen)
  | .write (.create actor body record) seen, _ =>
    .goOn [] (Booking.create actor body record).write (.moveRecord actor body record seen)
  | .write (.update eventId event body) seen, _ =>
    .goOn [.event eventId] (Booking.update eventId event body).write
      (.booked (.update eventId event body) seen)
  | .moveRecord actor body record seen, _ =>
    .goOn [.record body.equipmentRecordId]
      (fun db => db.transition body.equipmentRecordId record.status .appraisalScheduled
        (some actor) none)
      (.booked (.create actor body record) seen)
  | .booked _ _, _ => .commit
  | .edit eventId event body, _ =>
    .goOn [.event eventId] (Booking.update eventId event body).write .finished
  | .cancel now eventId, db =>
    match db.calendarEvents.get? eventId with
    | none => .rollback
    | some event =>
      if event.cancelledAt = none then .goOn [] id (.cancelWrite now eventId event) else .commit
  | .cancelWrite now eventId event, _ =>
    .goOn [.event eventId]
      (fun db => { db with
        calendarEvents :=
          db.calendarEvents.modify eventId fun e => { e with cancelledAt := some now } })
      (.cancelRecord event.recordId)
  | .cancelRecord recordId, db =>
    match db.records.get? recordId with
    | none => .rollback
    | some record =>
      if record.status = .appraisalScheduled then .goOn [] id (.revertRecord recordId)
      else .commit
  | .revertRecord recordId, _ =>
    .goOn [.record recordId]
      (fun db => { db with
        records := db.records.modify recordId fun r => { r with status := .newRequest } })
      .finished
  | .finished, _ => .commit

def scheduleProgram (cfg : TravelConfig) : Program Db RowLock ScheduleCall SchedulePoint where
  entry
    | .create actor body => .create actor body
    | .update eventId body => .update eventId body
    | .cancel now eventId => .cancel now eventId
  stmt := scheduleStmt cfg

abbrev ScheduleTxn := Txn Db RowLock SchedulePoint

/-- One event of the concurrent schedulers. -/
abbrev scheduleStep (cfg : TravelConfig) := rcStep (scheduleProgram cfg)

/-- A calendar to start from: valid durations, and no two appointments of one
    appraiser overlap. -/
structure BookedCalendar where
  db : Db
  valid : ValidDurations db
  disjoint : db.calendarEvents.Pairwise DisjointTimes

/-! ## The condition -/

/-- The row that the commit of a booking stores. -/
def Booking.stored (b : Booking) (events : Store CalendarEvent) : Option CalendarEvent :=
  match b with
  | create _ body record => some (body.event record)
  | update eventId event body => (events.get? eventId).map (event.edited body)

/-- The event being updated is not the one that was loaded any more. -/
def Booking.ownChanged (b : Booking) (events : Store CalendarEvent) : Prop :=
  match b with
  | create _ _ _ => False
  | update eventId event _ => events.get? eventId ≠ some event

/-- A booking commits only beside events that its check has covered: one that
    another transaction inserted or changed after the snapshot, outside the
    locked rows, does not overlap; and none does when the booking's own event
    has been changed since it was loaded. -/
def NoUnseenOverlap (db : Db) (a : ScheduleTxn) : Prop :=
  ∀ b seen e, a.point = .booked b seen → b.stored db.calendarEvents = some e →
    ∀ j f, b.own ≠ some j → db.calendarEvents.get? j = some f →
      b.ownChanged db.calendarEvents ∨ (j ∉ b.candidates seen ∧ seen.get? j ≠ some f) →
      DisjointTimes e f

/-! ## What the check gives -/

theorem edited_self (event : CalendarEvent) (body : CalendarEventPatch) :
    event.edited body event = event.patched body := by
  unfold CalendarEvent.edited
  have pick {α : Type} [DecidableEq α] (a b : α) : (if b = a then a else b) = b := by
    split_ifs with h
    · exact h.symm
    · rfl
  simp only [pick]
  rfl

theorem edited_valid {event current : CalendarEvent} (body : CalendarEventPatch)
    (he : ValidDuration event.durationMinutes) (hc : ValidDuration current.durationMinutes) :
    ValidDuration (event.edited body current).durationMinutes := by
  have hp := patched_valid body he
  unfold CalendarEvent.edited
  dsimp only
  split_ifs
  · exact hc
  · exact hp

/-- The durations that the schemas admit. -/
def Booking.Valid : Booking → Prop
  | create _ _ _ => True
  | update _ event _ => ValidDuration event.durationMinutes

theorem Booking.Valid.row {b : Booking} (h : b.Valid) : ValidDuration b.row.durationMinutes := by
  cases b with
  | create actor body record => exact create_valid record
  | update eventId event body => exact patched_valid body h

/-- An event that is no candidate is out of reach of the booking. -/
theorem outside_candidates {b : Booking} (hb : b.Valid) {j : ℕ} {f : CalendarEvent}
    (hf : ValidDuration f.durationMinutes) (hj : b.own ≠ some j)
    (hout : b.isCandidate j f = false) : DisjointTimes b.row f := by
  intro _ hcf ha
  have hwin : ¬ InWindow b.row f := by
    rintro ⟨h1, h2⟩
    have : b.isCandidate j f = true := by
      simp only [Booking.isCandidate, isCandidate, Bool.and_eq_true, decide_eq_true_eq,
        Option.isNone_iff_eq_none]
      exact ⟨⟨⟨⟨ha.symm, hcf⟩, h1⟩, h2⟩, hj⟩
    rw [hout] at this
    cases this
  have hlen : (0 : ℤ) ≤ minutes 960 := by decide
  have h := outside_window hb.row hf hwin
  omega

/-- A passed check separates the booking from every row it has locked. -/
theorem recheck_disjoint {cfg : TravelConfig} {db : Db} {b : Booking} {candidates : List ℕ}
    (hb : b.Valid) (hv : ValidDurations db) (h : recheck cfg db b candidates = none) {j : ℕ}
    {f : CalendarEvent} (hj : b.own ≠ some j) (hmem : j ∈ candidates)
    (hf : db.calendarEvents.get? j = some f) : DisjointTimes b.row f := by
  cases hc : b.isCandidate j f with
  | false => exact outside_candidates hb (hv j f hf) hj hc
  | true =>
    simp only [recheck, List.findSome?_eq_none_iff, List.mem_insertionSort, Prod.forall,
      Store.mem_select, and_imp] at h
    have hnone := h j f hf (by simp [hmem, hc])
    have hapart := (conflictWith_eq_none_iff (slot_length hb.row).1
      (slot_length (hv j f hf)).1).mp hnone
    exact fun _ _ _ => hapart.disjoint

/-- With its own snapshot the check is `_check_conflict`. -/
theorem recheck_self (cfg : TravelConfig) (db : Db) (b : Booking) :
    recheck cfg db b (b.candidates db.calendarEvents) =
      checkConflict cfg db b.row.appraiserId b.row.slot b.own := by
  have hsel : (db.calendarEvents.select fun id e =>
      id ∈ b.candidates db.calendarEvents && b.isCandidate id e) =
      db.calendarEvents.select b.isCandidate := by
    unfold Store.select
    apply List.filter_congr
    rintro ⟨k, e⟩ hmem
    show (decide (k ∈ b.candidates db.calendarEvents) && b.isCandidate k e) = b.isCandidate k e
    cases hc : b.isCandidate k e with
    | false => rw [Bool.and_false]
    | true =>
      have hin : (k, e) ∈ db.calendarEvents.select b.isCandidate :=
        List.mem_filter.mpr ⟨hmem, hc⟩
      rw [Bool.and_true, decide_eq_true_iff]
      exact List.mem_map.mpr ⟨(k, e), hin, rfl⟩
  unfold recheck checkConflict
  rw [hsel]
  rfl

theorem mem_candidates {b : Booking} {events : Store CalendarEvent} {j : ℕ} :
    j ∈ b.candidates events ↔ ∃ f, events.get? j = some f ∧ b.isCandidate j f = true := by
  unfold Booking.candidates
  rw [List.mem_map]
  constructor
  · rintro ⟨⟨j', f⟩, hmem, rfl⟩
    exact ⟨f, Store.mem_select.mp hmem⟩
  · rintro ⟨f, hf⟩
    exact ⟨(j, f), Store.mem_select.mpr hf, rfl⟩

/-- Undisturbed, the transaction of a booking writes what `create_event`
    writes. -/
theorem createEvent_alone {cfg : TravelConfig} {actor : ℕ} {body : CalendarEventCreate}
    {db db' : Db} {res : Except CalendarConflict ℕ}
    (h : Svc.Returns (createEvent cfg actor body) db res db') :
    (run (scheduleStep cfg) (Rc.init db)
      (.start (.create actor body) :: List.replicate 7 (.exec 0))).committed = db' := by
  obtain ⟨record, hr, hs, ⟨user, hu, hrole⟩, hcase⟩ := returns_createEvent.mp h
  have h0 := alone_start (scheduleProgram cfg) db (.create actor body)
  have s1 : (scheduleProgram cfg).next db ((scheduleProgram cfg).begin (.create actor body)) =
      .goOn [] id (.createAppraiser actor body record) := by
    simp only [Program.next, Program.begin, scheduleProgram, scheduleStmt, id_eq, hr, hs, if_true]
  have h1 := h0.goOn s1
  have happ : isAppraiser db body.appraiserId = true := by
    simp only [isAppraiser, hu, hrole, decide_true]
  have s2 : (scheduleProgram cfg).next db
      (((scheduleProgram cfg).begin (.create actor body)).goOn [] id
        (.createAppraiser actor body record)) =
      .goOn [] id (.check (.create actor body record)) := by
    show scheduleStmt cfg (.createAppraiser actor body record) db = _
    simp only [scheduleStmt, happ, if_true]
  have h2 := h1.goOn s2
  have h3 := h2.goOn (p := scheduleProgram cfg) rfl
  have hself : recheck cfg db (.create actor body record)
      ((Booking.create actor body record).candidates db.calendarEvents) =
      checkConflict cfg db body.appraiserId (body.event record).slot none :=
    recheck_self cfg db (.create actor body record)
  simp only [run_cons, run_nil, List.replicate, scheduleStep]
  obtain ⟨conflict, hc, -, rfl⟩ | ⟨hc, -, rfl⟩ := hcase
  · have s4 : scheduleStmt cfg (.lock (.create actor body record) db.calendarEvents) db =
        .goOn (((Booking.create actor body record).candidates db.calendarEvents).map .event) id
          .finished := by
      simp only [scheduleStmt, hself, hc]
    have h4 := h3.goOn (p := scheduleProgram cfg) s4
    rw [h4.commit (p := scheduleProgram cfg) rfl, rcStep_ended, rcStep_ended]
    rfl
  · have s4 : scheduleStmt cfg (.lock (.create actor body record) db.calendarEvents) db =
        .goOn (((Booking.create actor body record).candidates db.calendarEvents).map .event) id
          (.write (.create actor body record) db.calendarEvents) := by
      simp only [scheduleStmt, hself, hc]
    have h4 := h3.goOn (p := scheduleProgram cfg) s4
    have h5 := h4.goOn (p := scheduleProgram cfg) rfl
    have h6 := h5.goOn (p := scheduleProgram cfg) rfl
    rw [h6.commit (p := scheduleProgram cfg) rfl, ← hs]
    rfl

/-! ## What a scheduler knows -/

/-- The calendar part of the writes. -/
def Writes (write : Db → Db) (g : Store CalendarEvent → Store CalendarEvent) : Prop :=
  ∀ db, (write db).calendarEvents = g db.calendarEvents

theorem Writes.comp {write : Db → Db} {g : Store CalendarEvent → Store CalendarEvent}
    (h : Writes write g) {write' : Db → Db}
    (hw : ∀ db, (write' db).calendarEvents = db.calendarEvents) : Writes (write' ∘ write) g :=
  fun db => (hw (write db)).trans (h db)

/-- A change of a row that books no time: the schedule stays, and a cancelled
    event stays cancelled. -/
structure BooksNothing (f : CalendarEvent → CalendarEvent) : Prop where
  appraiserId : ∀ e, (f e).appraiserId = e.appraiserId
  scheduledAt : ∀ e, (f e).scheduledAt = e.scheduledAt
  durationMinutes : ∀ e, (f e).durationMinutes = e.durationMinutes
  cancelled : ∀ e, (f e).cancelledAt = none → e.cancelledAt = none

/-- What a transaction that books nothing does to the calendar. -/
def Harmless (a : ScheduleTxn) : Prop :=
  Writes a.write id ∨
    ∃ id f, Writes a.write (fun t => t.modify id f) ∧ .event id ∈ a.locks ∧ BooksNothing f

/-- The check has passed: the rows it found are locked, and as they stand they
    do not overlap the booking. -/
structure Checked (db : Db) (locks : List RowLock) (b : Booking) (seen : Store CalendarEvent) :
    Prop where
  valid : b.Valid
  older : ∀ j ∈ b.candidates seen, j < db.calendarEvents.next
  locked : ∀ j ∈ b.candidates seen, .event j ∈ locks
  disjoint : ∀ j ∈ b.candidates seen, ∀ f, b.own ≠ some j →
    db.calendarEvents.get? j = some f → DisjointTimes b.row f

/-- What each program point says about the writes and locks of its transaction. -/
def ScheduleOk (db : Db) (a : ScheduleTxn) : Prop :=
  match a.point with
  | .create _ _ | .createAppraiser _ _ _ | .update _ _ | .cancel _ _ | .cancelWrite _ _ _ =>
    a.write = id
  | .updateAppraiser _ event _ => a.write = id ∧ ValidDuration event.durationMinutes
  | .check b => a.write = id ∧ b.Valid
  | .lock b seen => a.write = id ∧ b.Valid ∧ seen.next ≤ db.calendarEvents.next
  | .write b seen => a.write = id ∧ Checked db a.locks b seen
  | .moveRecord actor body record seen =>
    Writes a.write (fun t => t.create (body.event record)) ∧
      Checked db a.locks (.create actor body record) seen
  | .booked (.create actor body record) seen =>
    Writes a.write (fun t => t.create (body.event record)) ∧
      Checked db a.locks (.create actor body record) seen
  | .booked (.update eventId event body) seen =>
    (Writes a.write (fun t => t.modify eventId (event.edited body)) ∧ .event eventId ∈ a.locks) ∧
      Checked db a.locks (.update eventId event body) seen
  | .edit _ event body => a.write = id ∧ scheduleChanged event body = false
  | .cancelRecord _ | .revertRecord _ | .finished => Harmless a

theorem Checked.locks {db : Db} {locks : List RowLock} {b : Booking} {seen : Store CalendarEvent}
    (h : Checked db locks b seen) (locks' : List RowLock) : Checked db (locks ++ locks') b seen :=
  ⟨h.valid, h.older, fun j hj => List.mem_append_left _ (h.locked j hj), h.disjoint⟩

theorem edited_booksNothing {event : CalendarEvent} {body : CalendarEventPatch}
    (h : scheduleChanged event body = false) : BooksNothing (event.edited body) := by
  simp only [scheduleChanged, Bool.or_eq_false_iff, decide_eq_false_iff_not, ne_eq,
    not_not] at h
  obtain ⟨⟨ha, hs⟩, hd⟩ := h
  constructor <;> intro e <;> simp [CalendarEvent.edited, ha, hs, hd]

theorem harmless_of_id {a : ScheduleTxn} (h : a.write = id) : Harmless a :=
  .inl fun db => by rw [h]; rfl

theorem Harmless.goOn {a : ScheduleTxn} (h : Harmless a) (locks : List RowLock)
    {write : Db → Db} (hw : ∀ db, (write db).calendarEvents = db.calendarEvents)
    (next : SchedulePoint) : Harmless (a.goOn locks write next) := by
  obtain h | ⟨id, f, h, hl, hf⟩ := h
  · exact .inl (h.comp hw)
  · exact .inr ⟨id, f, h.comp hw, List.mem_append_left _ hl, hf⟩

/-- A recheck that finds no conflict, with the candidates' locks. -/
theorem checked_of_recheck {cfg : TravelConfig} {db : Db} {b : Booking}
    {seen : Store CalendarEvent} (hv : ValidDurations db) (hb : b.Valid)
    (hle : seen.next ≤ db.calendarEvents.next)
    (hc : recheck cfg db b (b.candidates seen) = none) (held : List RowLock) :
    Checked db (held ++ (b.candidates seen).map .event) b seen where
  valid := hb
  older := by
    intro j hj
    obtain ⟨f, hf, _⟩ := mem_candidates.mp hj
    exact lt_of_lt_of_le (Store.get?_lt hf) hle
  locked := by
    intro j hj
    exact List.mem_append_right _ (List.mem_map.mpr ⟨j, hj, rfl⟩)
  disjoint := by
    intro j hj f hown hf
    exact recheck_disjoint hb hv hc hown hj hf

/-- Every statement keeps what its program point says. -/
theorem scheduleOk_goOn {cfg : TravelConfig} {db : Db} {a : ScheduleTxn} {locks : List RowLock}
    {write : Db → Db} {next : SchedulePoint} (hv : ValidDurations db) (ha : ScheduleOk db a)
    (hs : (scheduleProgram cfg).next db a = .goOn locks write next) :
    ScheduleOk db (a.goOn locks write next) := by
  obtain ⟨point, held, w⟩ := a
  simp only [Program.next, scheduleProgram] at hs
  cases point with
  | create actor body =>
    obtain rfl : w = id := ha
    simp only [scheduleStmt] at hs
    split at hs
    · cases hs
    · split_ifs at hs
      cases hs
      rfl
  | createAppraiser actor body record =>
    obtain rfl : w = id := ha
    simp only [scheduleStmt] at hs
    split_ifs at hs
    cases hs
    exact ⟨rfl, trivial⟩
  | update eventId body =>
    obtain rfl : w = id := ha
    simp only [scheduleStmt] at hs
    split at hs
    · cases hs
    · next event he =>
      split_ifs at hs
      cases hs
      exact ⟨rfl, hv eventId event he⟩
  | updateAppraiser eventId event body =>
    obtain ⟨hw, hd⟩ := ha
    obtain rfl : w = id := hw
    simp only [scheduleStmt] at hs
    split_ifs at hs with _ hc
    · cases hs
      exact ⟨rfl, hd⟩
    · cases hs
      exact ⟨rfl, by simpa using hc⟩
  | check b =>
    obtain ⟨hw, hb⟩ := ha
    obtain rfl : w = id := hw
    cases hs
    exact ⟨rfl, hb, le_refl _⟩
  | lock b seen =>
    obtain ⟨hw, hb, hle⟩ := ha
    obtain rfl : w = id := hw
    simp only [scheduleStmt, id_eq] at hs
    cases hc : recheck cfg db b (b.candidates seen) with
    | some conflict =>
      rw [hc] at hs
      cases hs
      exact harmless_of_id rfl
    | none =>
      rw [hc] at hs
      cases hs
      exact ⟨rfl, checked_of_recheck hv hb hle hc held⟩
  | write b seen =>
    obtain ⟨hw, hc⟩ := ha
    obtain rfl : w = id := hw
    cases b with
    | create actor body record =>
      cases hs
      exact ⟨fun _ => rfl, hc.locks _⟩
    | update eventId event body =>
      cases hs
      exact ⟨⟨fun _ => rfl, List.mem_append_right _ (List.mem_singleton_self _)⟩, hc.locks _⟩
  | moveRecord actor body record seen =>
    obtain ⟨hw, hc⟩ := ha
    cases hs
    exact ⟨hw.comp fun _ => rfl, hc.locks _⟩
  | edit eventId event body =>
    obtain ⟨hw, hsch⟩ := ha
    obtain rfl : w = id := hw
    cases hs
    exact .inr ⟨eventId, event.edited body, fun _ => rfl,
      List.mem_append_right _ (List.mem_singleton_self _), edited_booksNothing hsch⟩
  | cancel now eventId =>
    obtain rfl : w = id := ha
    simp only [scheduleStmt] at hs
    split at hs
    · cases hs
    · split_ifs at hs
      cases hs
      rfl
  | cancelWrite now eventId event =>
    obtain rfl : w = id := ha
    cases hs
    refine .inr ⟨eventId, _, fun _ => rfl, List.mem_append_right _ (List.mem_singleton_self _), ?_⟩
    exact ⟨fun _ => rfl, fun _ => rfl, fun _ => rfl, fun _ h => nomatch h⟩
  | cancelRecord recordId =>
    have hh : Harmless _ := ha
    simp only [scheduleStmt] at hs
    split at hs
    · cases hs
    · split_ifs at hs
      cases hs
      exact hh.goOn _ (fun _ => rfl) _
  | revertRecord recordId =>
    have hh : Harmless _ := ha
    cases hs
    exact hh.goOn [.record recordId] (fun _ => rfl) .finished
  | booked _ _ => cases hs
  | finished => cases hs

/-- What a commit does to the calendar: it books nothing, inserts a checked
    event or updates one. -/
inductive CommitKind (db : Db) (a : ScheduleTxn) : Prop
  | harmless (h : Harmless a) (hp : ∀ b seen, a.point ≠ .booked b seen)
  | create {actor : ℕ} {body : CalendarEventCreate} {record : EquipmentRecord}
    {seen : Store CalendarEvent} (hp : a.point = .booked (.create actor body record) seen)
    (hw : Writes a.write fun t => t.create (body.event record))
    (hc : Checked db a.locks (.create actor body record) seen)
  | update {eventId : ℕ} {event : CalendarEvent} {body : CalendarEventPatch}
    {seen : Store CalendarEvent} (hp : a.point = .booked (.update eventId event body) seen)
    (hw : Writes a.write fun t => t.modify eventId (event.edited body))
    (hl : .event eventId ∈ a.locks)
    (hc : Checked db a.locks (.update eventId event body) seen)

theorem commitKind {cfg : TravelConfig} {db : Db} {a : ScheduleTxn} (ha : ScheduleOk db a)
    (hs : (scheduleProgram cfg).next db a = .commit) : CommitKind db a := by
  obtain ⟨point, held, w⟩ := a
  simp only [Program.next, scheduleProgram] at hs
  cases point with
  | booked b seen =>
    cases b with
    | create actor body record => exact .create rfl ha.1 ha.2
    | update eventId event body => exact .update rfl ha.1.1 ha.1.2 ha.2
  | finished => exact .harmless ha (fun _ _ h => by cases h)
  | cancelRecord recordId => exact .harmless ha (fun _ _ h => by cases h)
  | cancel now eventId => exact .harmless (harmless_of_id ha) (fun _ _ h => by cases h)
  | create actor body =>
    simp only [scheduleStmt] at hs
    split at hs
    · cases hs
    · split_ifs at hs
  | createAppraiser actor body record =>
    simp only [scheduleStmt] at hs
    split_ifs at hs
  | update eventId body =>
    simp only [scheduleStmt] at hs
    split at hs
    · cases hs
    · split_ifs at hs
  | updateAppraiser eventId event body =>
    simp only [scheduleStmt] at hs
    split_ifs at hs
  | lock b seen =>
    simp only [scheduleStmt] at hs
    split at hs <;> cases hs
  | write b seen => cases b <;> cases hs
  | check _ => cases hs
  | moveRecord _ _ _ _ => cases hs
  | edit _ _ _ => cases hs
  | cancelWrite _ _ _ => cases hs
  | revertRecord _ => cases hs

/-- A commit writes the events it has locked and new ones only. -/
theorem CommitKind.keeps {db : Db} {a : ScheduleTxn} (h : CommitKind db a) :
    db.calendarEvents.next ≤ (a.write db).calendarEvents.next ∧
      ∀ j, j < db.calendarEvents.next → .event j ∉ a.locks →
        (a.write db).calendarEvents.get? j = db.calendarEvents.get? j := by
  cases h with
  | harmless h _ =>
    obtain h | ⟨id, f, h, hl, _⟩ := h
    · rw [h db]
      exact ⟨le_refl _, fun _ _ _ => rfl⟩
    · rw [h db]
      refine ⟨by rw [Store.modify_next], fun j _ hj => Store.get?_modify_ne _ _ ?_⟩
      rintro rfl
      exact hj hl
  | create _ hw _ =>
    rw [hw db]
    refine ⟨by rw [Store.create_next]; omega, fun j hlt _ => ?_⟩
    rw [Store.get?_create, if_neg (by omega)]
  | update _ hw hl _ =>
    rw [hw db]
    refine ⟨by rw [Store.modify_next], fun j _ hj => Store.get?_modify_ne _ _ ?_⟩
    rintro rfl
    exact hj hl

theorem Checked.frame {db : Db} {a b : ScheduleTxn} {k : Booking} {seen : Store CalendarEvent}
    (h : Checked db b.locks k seen) (hk : CommitKind db a) (hd : ∀ l ∈ a.locks, l ∉ b.locks) :
    Checked (a.write db) b.locks k seen := by
  obtain ⟨hnext, hkeep⟩ := hk.keeps
  refine ⟨h.valid, fun j hj => lt_of_lt_of_le (h.older j hj) hnext, h.locked, ?_⟩
  intro j hj f hown hf
  have hfree : RowLock.event j ∉ a.locks := fun ha => hd _ ha (h.locked j hj)
  rw [hkeep j (h.older j hj) hfree] at hf
  exact h.disjoint j hj f hown hf

/-! ## Commits -/

theorem validDurations_commit {db : Db} {a : ScheduleTxn} (hv : ValidDurations db)
    (h : CommitKind db a) : ValidDurations (a.write db) := by
  intro j e he
  cases h with
  | harmless h _ =>
    obtain h | ⟨id, f, h, _, hf⟩ := h
    · rw [h db] at he
      exact hv j e he
    · rw [h db, Store.get?_modify] at he
      split_ifs at he
      · obtain ⟨e0, he0, rfl⟩ := Option.map_eq_some_iff.mp he
        rw [hf.durationMinutes]
        exact hv j e0 he0
      · exact hv j e he
  | create _ hw hc =>
    rw [hw db, Store.get?_create] at he
    split_ifs at he
    · cases he
      exact hc.valid.row
    · exact hv j e he
  | update _ hw _ hc =>
    rw [hw db, Store.get?_modify] at he
    split_ifs at he
    · obtain ⟨e0, he0, rfl⟩ := Option.map_eq_some_iff.mp he
      exact edited_valid _ hc.valid (hv j e0 he0)
    · exact hv j e he

theorem BooksNothing.disjoint {g : CalendarEvent → CalendarEvent} (hg : BooksNothing g)
    {e f : CalendarEvent} (h : DisjointTimes e f) : DisjointTimes (g e) f := by
  intro hce hcf ha
  have hslot : (g e).slot.start = e.slot.start ∧ (g e).slot.stop = e.slot.stop := by
    simp only [CalendarEvent.slot, hg.scheduledAt, hg.durationMinutes, and_self]
  rw [hslot.1, hslot.2]
  rw [hg.appraiserId] at ha
  exact h (hg.cancelled e hce) hcf ha

/-- What the check and the condition give for the row a booking stores. -/
theorem Checked.stored_disjoint {db : Db} {a : ScheduleTxn} {b : Booking}
    {seen : Store CalendarEvent} {e : CalendarEvent} (hv : ValidDurations db)
    (hc : Checked db a.locks b seen) (hp : a.point = .booked b seen)
    (he : b.stored db.calendarEvents = some e) (hk : NoUnseenOverlap db a) {j : ℕ}
    {f : CalendarEvent} (hj : b.own ≠ some j) (hf : db.calendarEvents.get? j = some f) :
    DisjointTimes e f := by
  by_cases hown : b.ownChanged db.calendarEvents
  · exact hk b seen e hp he j f hj hf (.inl hown)
  have hrow : e = b.row := by
    cases b with
    | create actor body record => exact (Option.some_injective _ he).symm
    | update eventId event body =>
      have hcur : db.calendarEvents.get? eventId = some event := not_not.mp hown
      simp only [Booking.stored, hcur, Option.map_some] at he
      cases he
      exact edited_self event body
  by_cases hmem : j ∈ b.candidates seen
  · rw [hrow]
    exact hc.disjoint j hmem f hj hf
  by_cases hseen : seen.get? j = some f
  · have hout : b.isCandidate j f = false := by
      cases hcand : b.isCandidate j f with
      | false => rfl
      | true => exact absurd (mem_candidates.mpr ⟨f, hseen, hcand⟩) hmem
    rw [hrow]
    exact outside_candidates hc.valid (hv j f hf) hj hout
  · exact hk b seen e hp he j f hj hf (.inr ⟨hmem, hseen⟩)

/-- A commit keeps the appointments disjoint exactly when it does not overlap an
    event that its check has missed. -/
theorem commit_disjoint_iff {db : Db} {a : ScheduleTxn} (hv : ValidDurations db)
    (hd : db.calendarEvents.Pairwise DisjointTimes) (h : CommitKind db a) :
    (a.write db).calendarEvents.Pairwise DisjointTimes ↔ NoUnseenOverlap db a := by
  cases h with
  | harmless h hp =>
    refine ⟨fun _ b seen _ hb => absurd hb (hp b seen), fun _ => ?_⟩
    obtain h | ⟨id, f, h, _, hf⟩ := h
    · rw [h db]
      exact hd
    · rw [h db]
      exact hd.modify (fun _ _ => DisjointTimes.symm) fun _ _ _ hab => hf.disjoint hab
  | @create actor body record seen hp hw hc =>
    rw [hw db, Store.pairwise_create_iff (fun _ _ => DisjointTimes.symm) hd]
    constructor
    · intro hall b seen' e hb he j f _ hf _
      rw [hp] at hb
      cases hb
      cases he
      exact hall j f hf
    · intro hk j f hf
      exact hc.stored_disjoint hv hp rfl hk (Option.some_ne_none j).symm hf
  | @update eventId event body seen hp hw _ hc =>
    rw [hw db]
    cases hcur : db.calendarEvents.get? eventId with
    | none =>
      constructor
      · intro _ b seen' e hb he
        rw [hp] at hb
        cases hb
        rw [Booking.stored, hcur] at he
        cases he
      · intro _
        refine hd.modify (fun _ _ => DisjointTimes.symm) fun e _ he => ?_
        rw [hcur] at he
        cases he
    | some current =>
      rw [Store.pairwise_modify_iff (fun _ _ => DisjointTimes.symm) hcur hd]
      constructor
      · intro hall b seen' e hb he j f hj hf _
        rw [hp] at hb
        cases hb
        rw [Booking.stored, hcur] at he
        cases he
        exact hall j f (fun heq => hj (by rw [heq]; rfl)) hf
      · intro hk j f hj hf
        refine hc.stored_disjoint hv hp (by rw [Booking.stored, hcur]; rfl) hk ?_ hf
        intro heq
        exact hj (Option.some_injective _ heq).symm

/-! ## Runs -/

theorem scheduleRule (cfg : TravelConfig) :
    TxnRule (scheduleProgram cfg)
      (fun db => ValidDurations db ∧ db.calendarEvents.Pairwise DisjointTimes) ScheduleOk
      NoUnseenOverlap where
  start := by
    intro db call _
    cases call <;> rfl
  goOn := fun _ _ _ _ _ h ha hs => scheduleOk_goOn h.1 ha hs
  commit := by
    intro db a h ha hs hk
    have hkind := commitKind ha hs
    exact ⟨validDurations_commit h.1 hkind, (commit_disjoint_iff h.1 h.2 hkind).mpr hk⟩
  frame := by
    intro db a b _ ha hs _ hb hd
    have hkind := commitKind ha hs
    obtain ⟨point, held, w⟩ := b
    cases point with
    | lock b seen => exact ⟨hb.1, hb.2.1, le_trans hb.2.2 hkind.keeps.1⟩
    | write b seen => exact ⟨hb.1, hb.2.frame hkind hd⟩
    | moveRecord actor body record seen => exact ⟨hb.1, hb.2.frame hkind hd⟩
    | booked b seen =>
      cases b with
      | create actor body record => exact ⟨hb.1, hb.2.frame hkind hd⟩
      | update eventId event body => exact ⟨hb.1, hb.2.frame hkind hd⟩
    | _ => exact hb

/-- The committed appointments of each appraiser never overlap in a run of
    concurrent schedulers exactly when every booking that commits keeps clear of
    the events that its check has missed. -/
theorem concurrent_scheduling_iff (cfg : TravelConfig) (c : BookedCalendar)
    (ops : List (RcOp ScheduleCall)) :
    AllStates (scheduleStep cfg) (fun x => x.committed.calendarEvents.Pairwise DisjointTimes)
        (Rc.init c.db) ops ↔
      AllSteps (scheduleStep cfg) (AtCommit (scheduleProgram cfg) NoUnseenOverlap)
        (Rc.init c.db) ops :=
  committed_iff (scheduleRule cfg) (fun _ h => h.2)
    (fun _ _ h ha hs hp => (commit_disjoint_iff h.1 h.2 (commitKind ha hs)).mp hp)
    ⟨c.valid, c.disjoint⟩ ops

/-- Two requests, no appointment yet. -/
def twoRequests : BookedCalendar where
  db := run (step renoEnv) (Db.init sampleUsers sampleCustomers)
    [.submitIntake { customerId := 0 }, .submitIntake { customerId := 0 }]
  valid := validDurations_init sampleUsers sampleCustomers
  disjoint := Store.pairwise_empty

/-- Two schedulers book appraiser 0 for the same hour, statement by statement. -/
def concurrentBookings : List (RcOp ScheduleCall) :=
  [.start (.create 1 (booking 0 0 "Fresno")), .start (.create 1 (booking 1 0 "Fresno"))] ++
    (List.replicate 7 [.exec 0, .exec 1]).flatten

/-- Neither check finds a row to lock, and both bookings commit. -/
theorem concurrent_bookings_overlap :
    ¬ AllStates (scheduleStep renoEnv.travel)
      (fun x => x.committed.calendarEvents.Pairwise DisjointTimes) (Rc.init twoRequests.db)
      concurrentBookings := by
  intro h
  have hd := h.last 0 1 ⟨0, 0, 0, 60, some "Fresno", none⟩ ⟨1, 0, 0, 60, some "Fresno", none⟩
    (by decide) (by decide +kernel) (by decide +kernel) rfl rfl rfl
  revert hd
  decide

end TempleConsign
