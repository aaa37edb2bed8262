import Mathlib.Data.List.Sort
import TempleConsign.Database

/-!
# The appraisal calendar

Model of `src/api/services/calendar_service.py`: creating, updating and
cancelling an appointment, the conflict check over the appraiser's events and
the drive-time buffer.

Results:
* `returns_createEvent`, `returns_updateEvent`, `returns_cancelEvent`: what each
  service checked and wrote when it returned.
* `checkConflict_eq_none_iff`: the check passes exactly when the slot keeps its
  distance from every candidate.
-/

namespace TempleConsign

open ServiceLib

/-! ## Slots and buffers -/

/-- What the buffer is computed from: the drive time `get_drive_time_seconds`
    finds between two addresses and the configured fallback. -/
structure TravelConfig where
  driveTimeSeconds : String → String → Option ℤ
  fallbackMinutes : ℤ

/-- `_resolve_buffer_seconds` (line 430). -/
def resolveBufferSeconds (cfg : TravelConfig) (origin destination : Option String) : ℤ :=
  match truthy origin, truthy destination with
  | some o, some d => (cfg.driveTimeSeconds o d).getD (cfg.fallbackMinutes * 60)
  | _, _ => cfg.fallbackMinutes * 60

/-- A stretch of an appraiser's time and where it is spent. -/
structure Slot where
  start : ℤ
  stop : ℤ
  address : Option String

/-- The slot of an event. -/
def CalendarEvent.slot (e : CalendarEvent) : Slot where
  start := e.scheduledAt
  stop := e.scheduledAt + minutes e.durationMinutes
  address := e.siteAddress

/-- `_ranges_overlap` (line 426). -/
def rangesOverlap (aStart aEnd bStart bEnd : ℤ) : Bool := aStart < bEnd && bStart < aEnd

/-- `a` ends, and the appraiser can drive from `a` to `b`, before `b` starts. -/
def Slot.Before (cfg : TravelConfig) (a b : Slot) : Prop :=
  a.stop ≤ b.start ∧ a.stop + seconds (resolveBufferSeconds cfg a.address b.address) ≤ b.start

instance (cfg : TravelConfig) (a b : Slot) : Decidable (a.Before cfg b) :=
  inferInstanceAs (Decidable (_ ∧ _))

/-- Two slots of one appraiser that can both be kept: one lies before the
    other, with the drive between. -/
def Slot.Apart (cfg : TravelConfig) (a b : Slot) : Prop := a.Before cfg b ∨ b.Before cfg a

instance (cfg : TravelConfig) (a b : Slot) : Decidable (a.Apart cfg b) :=
  inferInstanceAs (Decidable (_ ∨ _))

theorem Slot.Apart.symm {cfg : TravelConfig} {a b : Slot} (h : a.Apart cfg b) : b.Apart cfg a :=
  Or.symm h

/-! ## Conflicts -/

/-- The three messages of `_check_conflict`. -/
inductive ConflictMessage
  | alreadyScheduled (start stop : ℤ)
  | driveTimeFromPrior (earliestArrival : ℤ)
  | driveTimeToNext (nextStart : ℤ)
  deriving DecidableEq

/-- The text sent with the 409; `isoformat` is `datetime.isoformat`. -/
def ConflictMessage.text (isoformat : ℤ → String) : ConflictMessage → String
  | alreadyScheduled start stop =>
    "Appraiser is already scheduled " ++ isoformat start ++ "–" ++ isoformat stop ++ "."
  | driveTimeFromPrior earliestArrival =>
    "Drive time from the prior appointment would not allow arrival until " ++
      isoformat earliestArrival ++ "."
  | driveTimeToNext nextStart =>
    "This appointment would not leave enough drive time to reach the next stop at " ++
      isoformat nextStart ++ "."

/-- `CalendarConflict` (line 72). -/
structure CalendarConflict where
  message : ConflictMessage
  nextAvailableAt : Option ℤ
  conflictingEventId : Option ℕ
  deriving DecidableEq

/-- The loop body of `_check_conflict` (line 380): the proposed slot against
    one existing event. -/
def conflictWith (cfg : TravelConfig) (proposed : Slot) (id : ℕ) (existing : CalendarEvent) :
    Option CalendarConflict :=
  let existingEnd := existing.scheduledAt + minutes existing.durationMinutes
  if rangesOverlap proposed.start proposed.stop existing.scheduledAt existingEnd then
    some ⟨.alreadyScheduled existing.scheduledAt existingEnd, some existingEnd, some id⟩
  else if existingEnd ≤ proposed.start then
    let earliestArrival :=
      existingEnd + seconds (resolveBufferSeconds cfg existing.siteAddress proposed.address)
    if proposed.start < earliestArrival then
      some ⟨.driveTimeFromPrior earliestArrival, some earliestArrival, some id⟩
    else none
  else if proposed.stop ≤ existing.scheduledAt then
    let mustEndBy :=
      existing.scheduledAt -
        seconds (resolveBufferSeconds cfg proposed.address existing.siteAddress)
    if proposed.stop > mustEndBy then
      some ⟨.driveTimeToNext existing.scheduledAt, none, some id⟩
    else none
  else none

/-- The `WHERE` of `_check_conflict` (line 363). -/
def isCandidate (appraiserId : ℕ) (proposedStart : ℤ) (ignore : Option ℕ) (id : ℕ)
    (e : CalendarEvent) : Bool :=
  e.appraiserId = appraiserId && e.cancelledAt.isNone &&
    proposedStart - days 1 ≤ e.scheduledAt && e.scheduledAt < proposedStart + days 1 &&
    ignore ≠ some id

/-- `_check_conflict` (line 341). -/
def checkConflict (cfg : TravelConfig) (db : Db) (appraiserId : ℕ) (proposed : Slot)
    (ignore : Option ℕ) : Option CalendarConflict :=
  let sameDayEvents :=
    (db.calendarEvents.select (isCandidate appraiserId proposed.start ignore)).insertionSort
      fun a b => a.2.scheduledAt ≤ b.2.scheduledAt
  sameDayEvents.findSome? fun e => conflictWith cfg proposed e.1 e.2

/-- For two slots of positive length the loop body reports a conflict exactly
    when they are not apart. -/
theorem conflictWith_eq_none_iff {cfg : TravelConfig} {proposed : Slot} {id : ℕ}
    {e : CalendarEvent} (hp : proposed.start < proposed.stop) (he : e.slot.start < e.slot.stop) :
    conflictWith cfg proposed id e = none ↔ proposed.Apart cfg e.slot := by
  simp only [CalendarEvent.slot] at he
  simp only [conflictWith, rangesOverlap, Slot.Apart, Slot.Before, CalendarEvent.slot,
    Bool.and_eq_true, decide_eq_true_eq]
  split_ifs with h1 h2 h3 h4 h5
  all_goals simp only [false_iff, true_iff, not_or, not_and]
  · constructor <;> intro _ <;> omega
  · constructor <;> intro _ <;> omega
  · exact Or.inr ⟨h2, by omega⟩
  · constructor <;> intro _ <;> omega
  · exact Or.inl ⟨h4, by omega⟩
  · omega

/-- The check passes exactly when no candidate conflicts. -/
theorem checkConflict_eq_none_iff {cfg : TravelConfig} {db : Db} {appraiserId : ℕ}
    {proposed : Slot} {ignore : Option ℕ} :
    checkConflict cfg db appraiserId proposed ignore = none ↔
      ∀ id e, db.calendarEvents.get? id = some e →
        isCandidate appraiserId proposed.start ignore id e = true →
          conflictWith cfg proposed id e = none := by
  simp only [checkConflict, List.findSome?_eq_none_iff, List.mem_insertionSort, Prod.forall,
    Store.mem_select, and_imp]

/-! ## The services -/

/-- `_require_appraiser` (line 483). -/
def requireAppraiser (userId : ℕ) : Service Unit := do
  let user ← fetch Db.users userId (fun _ => true)
    (.httpException 422 s!"appraiser {userId} not found")
  Svc.require (user.role = .appraiser)
    (.httpException 422 s!"user {userId} has role '{user.role.value}', expected 'appraiser'")

/-- `_load_record_or_404` (line 454). -/
def loadRecordOr404 (recordId : ℕ) : Service EquipmentRecord :=
  fetch Db.records recordId (fun _ => true) (.httpException 404 "equipment record not found")

/-- `_get_event_or_404` (line 468). -/
def getEventOr404 (eventId : ℕ) : Service CalendarEvent :=
  fetch Db.calendarEvents eventId (fun _ => true) (.httpException 404 "calendar event not found")

/-- `_DEFAULT_DURATION_MINUTES` (line 67). -/
def defaultDurationMinutes : ℕ := 60

/-- The duration bounds of `src/api/schemas/calendar.py`. -/
def ValidDuration (d : ℕ) : Prop := 15 ≤ d ∧ d ≤ 480

/-- `CalendarEventCreate` (`src/api/schemas/calendar.py` line 11). -/
structure CalendarEventCreate where
  equipmentRecordId : ℕ
  appraiserId : ℕ
  scheduledAt : ℤ
  durationMinutes : ℕ := 60
  siteAddress : Option String := none
  valid : ValidDuration durationMinutes := by unfold ValidDuration; decide

/-- `CalendarEventPatch` (line 21). The outer option of `siteAddress` says
    whether the field was sent (`set_site_address`). -/
structure CalendarEventPatch where
  appraiserId : Option ℕ := none
  scheduledAt : Option ℤ := none
  durationMinutes : Option ℕ := none
  siteAddress : Option (Option String) := none
  valid : ∀ d ∈ durationMinutes, ValidDuration d := by unfold ValidDuration; decide

/-- The address `create_event` stores (line 148). -/
def eventAddress (siteAddress customerLocationText : Option String) : Option String :=
  truthy (some (strip
    (((truthy siteAddress).or (truthy customerLocationText)).getD "")))

/-- The row `create_event` checks and inserts (lines 137, 148 and 161). -/
def CalendarEventCreate.event (body : CalendarEventCreate) (record : EquipmentRecord) :
    CalendarEvent where
  recordId := body.equipmentRecordId
  appraiserId := body.appraiserId
  scheduledAt := body.scheduledAt
  durationMinutes :=
    if body.durationMinutes = 0 then defaultDurationMinutes else body.durationMinutes
  siteAddress := eventAddress body.siteAddress record.customerLocationText
  cancelledAt := none

/-- `create_event` (line 121). -/
def createEvent (cfg : TravelConfig) (actor : ℕ) (body : CalendarEventCreate) :
    Service (Except CalendarConflict ℕ) := do
  let record ← loadRecordOr404 body.equipmentRecordId
  Svc.require (record.status = .newRequest)
    (.httpException 422 (s!"Cannot schedule from status '{record.status.value}'. " ++
      "Only new_request records may be scheduled."))
  requireAppraiser body.appraiserId
  let db ← get
  match checkConflict cfg db body.appraiserId (body.event record).slot none with
  | some conflict => pure (.error conflict)
  | none => do
    modify fun db => { db with calendarEvents := db.calendarEvents.create (body.event record) }
    recordTransition body.equipmentRecordId record .appraisalScheduled (some actor) none
    pure (.ok db.calendarEvents.next)

/-- The row `update_event` writes: each field of the patch that was given. -/
def CalendarEvent.patched (e : CalendarEvent) (body : CalendarEventPatch) : CalendarEvent :=
  { e with
    appraiserId := body.appraiserId.getD e.appraiserId
    scheduledAt := body.scheduledAt.getD e.scheduledAt
    durationMinutes := (body.durationMinutes.filter (· ≠ 0)).getD e.durationMinutes
    siteAddress := body.siteAddress.getD e.siteAddress }

/-- `schedule_changed` (line 234). -/
def scheduleChanged (e : CalendarEvent) (body : CalendarEventPatch) : Bool :=
  (e.patched body).appraiserId ≠ e.appraiserId || (e.patched body).scheduledAt ≠ e.scheduledAt ||
    (e.patched body).durationMinutes ≠ e.durationMinutes

/-- The check of `update_event` (line 239): made when the appraiser or the time
    changes. -/
def editConflict (cfg : TravelConfig) (db : Db) (eventId : ℕ) (event : CalendarEvent)
    (body : CalendarEventPatch) : Option CalendarConflict :=
  if scheduleChanged event body then
    checkConflict cfg db (event.patched body).appraiserId (event.patched body).slot (some eventId)
  else none

/-- `update_event` (line 205). -/
def updateEvent (cfg : TravelConfig) (eventId : ℕ) (body : CalendarEventPatch) :
    Service (Except CalendarConflict ℕ) := do
  let event ← getEventOr404 eventId
  Svc.require (event.cancelledAt = none)
    (.httpException 409 "Cannot edit a cancelled appointment.")
  let updated := event.patched body
  Svc.onlyIf (updated.appraiserId ≠ event.appraiserId) (requireAppraiser updated.appraiserId)
  let db ← get
  match editConflict cfg db eventId event body with
  | some conflict => pure (.error conflict)
  | none => do
    modify fun db => { db with calendarEvents := db.calendarEvents.modify eventId fun _ => updated }
    pure (.ok eventId)

/-- `cancel_event` (line 283). -/
def cancelEvent (now : ℤ) (eventId : ℕ) : Service Unit := do
  let event ← getEventOr404 eventId
  Svc.onlyIf (event.cancelledAt = none) do
    modify fun db => { db with
      calendarEvents :=
        db.calendarEvents.modify eventId fun e => { e with cancelledAt := some now } }
    let record ← loadRecordOr404 event.recordId
    Svc.onlyIf (record.status = .appraisalScheduled) do
      modify fun db => { db with
        records := db.records.modify event.recordId fun r => { r with status := .newRequest } }

/-! ## What each service did when it returned -/

theorem returns_requireAppraiser {userId : ℕ} {db db' : Db} {u : Unit} :
    Svc.Returns (requireAppraiser userId) db u db' ↔
      (∃ user, db.users.get? userId = some user ∧ user.role = .appraiser) ∧ db = db' := by
  simp only [requireAppraiser, returns_fetch_bind, Svc.returns_require, and_true, ← and_assoc,
    exists_and_right]

/-- `create_event` either answers with a conflict or inserts the event and
    moves its record to `appraisal_scheduled`. -/
theorem returns_createEvent {cfg : TravelConfig} {actor : ℕ} {body : CalendarEventCreate}
    {db db' : Db} {res : Except CalendarConflict ℕ} :
    Svc.Returns (createEvent cfg actor body) db res db' ↔
      ∃ record, db.records.get? body.equipmentRecordId = some record ∧
        record.status = .newRequest ∧
        (∃ user, db.users.get? body.appraiserId = some user ∧ user.role = .appraiser) ∧
        ((∃ conflict,
            checkConflict cfg db body.appraiserId (body.event record).slot none = some conflict ∧
            .error conflict = res ∧ db = db') ∨
         (checkConflict cfg db body.appraiserId (body.event record).slot none = none ∧
            .ok db.calendarEvents.next = res ∧
            ({ db with calendarEvents := db.calendarEvents.create (body.event record) }).transition
              body.equipmentRecordId .newRequest .appraisalScheduled (some actor) none = db')) := by
  simp only [createEvent, loadRecordOr404, returns_fetch_bind, Svc.returns_require_bind,
    Svc.returns_bind_of_write fun _ _ => returns_requireAppraiser, Svc.returns_get_bind, and_true]
  refine exists_congr fun record => and_congr_right fun _ => and_congr_right fun hs =>
    and_congr_right fun _ => ?_
  cases hc : checkConflict cfg db body.appraiserId (body.event record).slot none with
  | some conflict => simp
  | none => simp [hs, isForbiddenTransition, forbiddenTransitions, and_comm]

/-- `update_event` either answers with a conflict or writes the patched row. -/
theorem returns_updateEvent {cfg : TravelConfig} {eventId : ℕ} {body : CalendarEventPatch}
    {db db' : Db} {res : Except CalendarConflict ℕ} :
    Svc.Returns (updateEvent cfg eventId body) db res db' ↔
      ∃ event, db.calendarEvents.get? eventId = some event ∧ event.cancelledAt = none ∧
        ((event.patched body).appraiserId ≠ event.appraiserId →
          ∃ user, db.users.get? (event.patched body).appraiserId = some user ∧
            user.role = .appraiser) ∧
        ((∃ conflict, editConflict cfg db eventId event body = some conflict ∧
            .error conflict = res ∧ db = db') ∨
         (editConflict cfg db eventId event body = none ∧ .ok eventId = res ∧
            { db with calendarEvents :=
                db.calendarEvents.modify eventId fun _ => event.patched body } = db')) := by
  simp only [updateEvent, getEventOr404, returns_fetch_bind, Svc.returns_require_bind,
    Svc.returns_bind_of_write fun _ _ => Svc.returns_onlyIf_check fun _ _ =>
      returns_requireAppraiser, Svc.returns_get_bind, and_true]
  refine exists_congr fun event => and_congr_right fun _ => and_congr_right fun _ =>
    and_congr_right fun _ => ?_
  cases editConflict cfg db eventId event body with
  | some conflict => simp
  | none => simp [and_comm]

/-- `cancel_event` stamps the event and puts a scheduled record back to
    `new_request`; a cancelled event is left as it is. -/
theorem returns_cancelEvent {now : ℤ} {eventId : ℕ} {db db' : Db} {u : Unit} :
    Svc.Returns (cancelEvent now eventId) db u db' ↔
      ∃ event, db.calendarEvents.get? eventId = some event ∧
        ((event.cancelledAt = none ∧ ∃ record, db.records.get? event.recordId = some record ∧
            { db with
              calendarEvents := db.calendarEvents.modify eventId fun e =>
                { e with cancelledAt := some now }
              records := if record.status = .appraisalScheduled
                then db.records.modify event.recordId fun r => { r with status := .newRequest }
                else db.records } = db') ∨
         (event.cancelledAt ≠ none ∧ db = db')) := by
  simp only [cancelEvent, getEventOr404, loadRecordOr404, returns_fetch_bind, Svc.returns_onlyIf,
    Svc.returns_modify_bind, Svc.returns_modify, and_true]
  refine exists_congr fun event => and_congr_right fun _ => or_congr_left ?_
  refine and_congr_right fun _ => exists_congr fun record => and_congr_right fun _ => ?_
  split_ifs with h <;> simp [h]

end TempleConsign
