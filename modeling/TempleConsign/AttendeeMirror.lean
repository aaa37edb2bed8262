import TempleConsign.Deactivation
import TempleConsign.Lib.KeyedRows

/-!
# The appraiser of an event and its attendees

Model of the flush listener `_mirror_calendar_event_appraiser`
(`src/api/database/models.py` lines 1352–1390), which copies
`calendar_events.appraiser_id` into `calendar_event_attendees`. The calendar services,
the other requests of the lifecycle and the deactivation of users run above it.

The listener inserts a row for a new event, and inserts one if absent for an event
with a new appraiser. It never touches the row of the old appraiser.

Deviations:
* The flushes of one request are taken together: none of these requests writes an
  event twice.
* `added_at` is left out. Nothing under `src/` writes a row with another role.

Results:
* `attendees_are_appraisers`: an event has exactly one row for each appraiser it has
  had, with role primary, and no other row.
* `two_primaries`: after one change of the appraiser an event has two primaries.
* `mirror_spec`: the rows after the listener.
-/

namespace TempleConsign.AttendeeMirror

open ServiceLib

/-! ## The table -/

/-- The values of `calendar_event_attendees.role`. -/
inductive AttendeeRole
  | primary
  | attendee
  deriving DecidableEq

/-- `CalendarEventAttendee` (line 1244). -/
structure CalendarEventAttendee where
  eventId : ℕ
  userId : ℕ
  role : AttendeeRole
  deriving DecidableEq

/-- The primary key. -/
def CalendarEventAttendee.key (a : CalendarEventAttendee) : ℕ × ℕ := (a.eventId, a.userId)

theorem CalendarEventAttendee.eq_of_key {a b : CalendarEventAttendee} (hkey : a.key = b.key)
    (hrole : a.role = b.role) : a = b := by
  obtain ⟨heventId, huserId⟩ := Prod.mk.inj hkey
  cases a
  cases b
  simp_all

/-- `calendar_event_attendees` under its primary key. -/
abbrev Attendees := KeyedRows CalendarEventAttendee.key

/-- `session.add`. -/
def Attendees.add (t : Attendees) (a : CalendarEventAttendee) : Except Exn Attendees :=
  KeyedRows.add .integrityError t a

/-- The rows of the event and the user. -/
def Attendees.rowsOf (t : Attendees) (eventId userId : ℕ) : List CalendarEventAttendee :=
  t.rows.filter fun a => a.key = (eventId, userId)

/-! ## The listener -/

/-- The row that the listener writes for an event. -/
def primaryRow (ev : ℕ × CalendarEvent) : CalendarEventAttendee where
  eventId := ev.1
  userId := ev.2.appraiserId
  role := .primary

/-- `new_pending` (lines 1359–1362). -/
def newPending (before after : Store CalendarEvent) : List (ℕ × CalendarEvent) :=
  after.select fun k _ => (before.get? k).isNone

/-- `dirty_pending` (lines 1364–1373): the events whose appraiser changed. -/
def dirtyPending (before after : Store CalendarEvent) : List (ℕ × CalendarEvent) :=
  after.select fun k e => (before.get? k).any fun b => b.appraiserId ≠ e.appraiserId

/-- Model of `_mirror_calendar_event_appraiser` (line 1353). -/
def mirrorCalendarEventAppraiser (before after : Store CalendarEvent) (t : Attendees) :
    Except Exn Attendees := do
  let t ← (newPending before after).foldlM (fun t ev => t.add (primaryRow ev)) t
  pure ((dirtyPending before after).foldl (fun t ev => t.insertIfAbsent (primaryRow ev)) t)

/-! ## The requests -/

/-- The tables with the attendees of the events. -/
structure CalendarState where
  roster : Roster
  attendees : Attendees

/-- A request of the lifecycle, or a deactivation. -/
inductive CalendarOp
  | lifecycle (op : Op)
  | deactivateUser (now : ℤ) (actor userId : ℕ) (reassignToId : Option ℕ)

/-- What the request leaves in the other tables. -/
def CalendarOp.serve (env : Env) (r : Roster) : CalendarOp → Roster
  | lifecycle op => { r with db := step env r.db op }
  | deactivateUser now actor userId reassignToId =>
    (Svc.request (fun before _ => before) (Roster.deactivateUser now actor userId reassignToId)
      r).2

/-- One request with its listener; what the listener raises rolls the request back. -/
def CalendarState.step (env : Env) (s : CalendarState) (op : CalendarOp) : CalendarState :=
  let r := op.serve env s.roster
  match mirrorCalendarEventAppraiser s.roster.db.calendarEvents r.db.calendarEvents s.attendees with
  | .ok attendees => ⟨r, attendees⟩
  | .error _ => s

/-! ## The property -/

/-- The appraiser of the event. -/
def CalendarState.appraiser (s : CalendarState) (eventId : ℕ) : Option ℕ :=
  (s.roster.db.calendarEvents.get? eventId).map CalendarEvent.appraiserId

/-- The property: every event has exactly one primary, its appraiser. -/
def CalendarState.OnePrimary (s : CalendarState) : Prop :=
  ∀ k u, s.appraiser k = some u →
    (s.attendees.rows.filter fun a => a.eventId = k ∧ a.role = .primary).map
      CalendarEventAttendee.userId = [u]

/-- The rows of the backfill: one primary for each event, its appraiser. -/
def CalendarState.Backfilled (s : CalendarState) : Prop :=
  ∀ a, a ∈ s.attendees.rows ↔ a.role = .primary ∧ s.appraiser a.eventId = some a.userId

/-- The user was the event's appraiser in some state of the run. -/
def WasAppraiser (env : Env) (s : CalendarState) (ops : List CalendarOp) (k u : ℕ) : Prop :=
  ∃ pre, pre <+: ops ∧ (run (CalendarState.step env) s pre).appraiser k = some u

/-! ## The rows after the listener -/

theorem primaryRow_keys {l : List (ℕ × CalendarEvent)} (hnd : (l.map Prod.fst).Nodup) :
    ((l.map primaryRow).map CalendarEventAttendee.key).Nodup := by
  refine List.Nodup.of_map Prod.fst ?_
  rw [List.map_map, List.map_map]
  exact hnd

/-- The listener's inserts. -/
theorem Attendees.mem_insertAll {l : List (ℕ × CalendarEvent)} (hnd : (l.map Prod.fst).Nodup)
    (t : Attendees) (b : CalendarEventAttendee) :
    b ∈ (l.foldl (fun t ev => t.insertIfAbsent (primaryRow ev)) t).rows ↔
      b ∈ t.rows ∨ ∃ ev ∈ l, b = primaryRow ev ∧ ¬ t.Taken (primaryRow ev).key := by
  rw [← List.foldl_map (g := KeyedRows.insertIfAbsent),
    KeyedRows.mem_insertAll (primaryRow_keys hnd)]
  refine or_congr_right ?_
  rw [List.mem_map]
  constructor
  · rintro ⟨⟨ev, hev, rfl⟩, hfree⟩
    exact ⟨ev, hev, rfl, hfree⟩
  · rintro ⟨ev, hev, rfl, hfree⟩
    exact ⟨⟨ev, hev, rfl⟩, hfree⟩

theorem Attendees.addAll_ok {l : List (ℕ × CalendarEvent)} (hnd : (l.map Prod.fst).Nodup)
    (t : Attendees) (hfree : ∀ ev ∈ l, ¬ t.Taken (primaryRow ev).key) :
    l.foldlM (fun t ev => t.add (primaryRow ev)) t =
      .ok (l.foldl (fun t ev => t.insertIfAbsent (primaryRow ev)) t) := by
  have hadded := KeyedRows.addAll_ok (primaryRow_keys hnd) Exn.integrityError t
    (List.forall_mem_map.mpr hfree)
  rwa [List.foldlM_map, List.foldl_map] at hadded

/-- The one row of a key. -/
theorem Attendees.rowsOf_of_mem {t : Attendees} {a : CalendarEventAttendee} (h : a ∈ t.rows) :
    t.rowsOf a.eventId a.userId = [a] := KeyedRows.filter_key h

theorem newPending_nodup (before after : Store CalendarEvent) :
    ((newPending before after).map Prod.fst).Nodup := Store.select_nodup _ _

theorem dirtyPending_nodup (before after : Store CalendarEvent) :
    ((dirtyPending before after).map Prod.fst).Nodup := Store.select_nodup _ _

theorem mem_newPending {before after : Store CalendarEvent} {k : ℕ} {e : CalendarEvent} :
    (k, e) ∈ newPending before after ↔ after.get? k = some e ∧ before.get? k = none := by
  simp [newPending]

theorem mem_dirtyPending {before after : Store CalendarEvent} {k : ℕ} {e : CalendarEvent} :
    (k, e) ∈ dirtyPending before after ↔ after.get? k = some e ∧
      ∃ b, before.get? k = some b ∧ b.appraiserId ≠ e.appraiserId := by
  simp [dirtyPending, Option.any_eq_true]

/-- What the listener keeps: every row is a primary of an event, and every event's
    appraiser has its row. -/
structure Attendees.Mirrors (t : Attendees) (events : Store CalendarEvent) : Prop where
  referenced : ∀ a ∈ t.rows, events.get? a.eventId ≠ none
  primary : ∀ a ∈ t.rows, a.role = .primary
  appraiser : ∀ k e, events.get? k = some e → primaryRow (k, e) ∈ t.rows

/-- The listener adds the row of every event's appraiser. -/
theorem mirror_spec {before after : Store CalendarEvent} {t : Attendees} (h : t.Mirrors before) :
    ∃ t', mirrorCalendarEventAppraiser before after t = .ok t' ∧ ∀ a, a ∈ t'.rows ↔
      a ∈ t.rows ∨ ∃ e, after.get? a.eventId = some e ∧ a = primaryRow (a.eventId, e) := by
  have hfree : ∀ ev ∈ newPending before after, ¬ t.Taken (primaryRow ev).key := by
    rintro ⟨k, e⟩ hev htaken
    obtain ⟨a, ha, hkey⟩ := List.mem_map.mp htaken
    have hk : a.eventId = k := (Prod.mk.inj hkey).1
    exact h.referenced a ha (hk ▸ (mem_newPending.mp hev).2)
  have hadded := Attendees.addAll_ok (newPending_nodup before after) t hfree
  have hmem : ∀ a, _ ↔ _ := fun a =>
    Attendees.mem_insertAll (newPending_nodup before after) t a
  generalize (newPending before after).foldl (fun t ev => t.insertIfAbsent (primaryRow ev)) t = t₁
    at hadded hmem
  refine ⟨(dirtyPending before after).foldl (fun t ev => t.insertIfAbsent (primaryRow ev)) t₁,
    by rw [mirrorCalendarEventAppraiser, hadded]; rfl, fun a => ?_⟩
  rw [Attendees.mem_insertAll (dirtyPending_nodup before after), hmem]
  constructor
  · rintro ((hold | ⟨⟨k, e⟩, hev, rfl, -⟩) | ⟨⟨k, e⟩, hev, rfl, -⟩)
    · exact .inl hold
    · exact .inr ⟨e, (mem_newPending.mp hev).1, rfl⟩
    · exact .inr ⟨e, (mem_dirtyPending.mp hev).1, rfl⟩
  · rintro (hold | ⟨e, he, ha⟩)
    · exact .inl (.inl hold)
    · cases hb : before.get? a.eventId with
      | none =>
        have hev := mem_newPending.mpr ⟨he, hb⟩
        exact .inl (.inr ⟨_, hev, ha, hfree _ hev⟩)
      | some b =>
        by_cases hsame : b.appraiserId = e.appraiserId
        · have hrow := h.appraiser _ b hb
          have heq : primaryRow (a.eventId, b) = a := by
            refine Eq.trans ?_ ha.symm
            simp [primaryRow, hsame]
          exact .inl (.inl (heq ▸ hrow))
        · have hev := mem_dirtyPending.mpr ⟨he, b, hb, hsame⟩
          by_cases htaken : t₁.Taken (primaryRow (a.eventId, e)).key
          · -- the row of this key is a primary, so it is this one
            obtain ⟨c, hc, hkey⟩ := List.mem_map.mp htaken
            have hc' := (hmem c).mp hc
            have hrole : c.role = .primary := by
              rcases hc' with hold | ⟨_, -, rfl, -⟩
              · exact h.primary c hold
              · rfl
            have heq : c = a := by
              refine Eq.trans ?_ ha.symm
              exact CalendarEventAttendee.eq_of_key hkey hrole
            exact .inl (heq ▸ hc')
          · exact .inr ⟨_, hev, ha, htaken⟩

/-- After the listener the rows mirror the new events, when no event was removed. -/
theorem Attendees.Mirrors.mirror {before after : Store CalendarEvent} {t t' : Attendees}
    (h : t.Mirrors before) (hkept : ∀ k, before.get? k ≠ none → after.get? k ≠ none)
    (hrows : ∀ a, a ∈ t'.rows ↔
      a ∈ t.rows ∨ ∃ e, after.get? a.eventId = some e ∧ a = primaryRow (a.eventId, e)) :
    t'.Mirrors after where
  referenced a ha := by
    rcases (hrows a).mp ha with hold | ⟨e, he, -⟩
    · exact hkept _ (h.referenced a hold)
    · rw [he]
      exact Option.some_ne_none e
  primary a ha := by
    rcases (hrows a).mp ha with hold | ⟨e, -, heq⟩
    · exact h.primary a hold
    · rw [heq]
      rfl
  appraiser k e he := (hrows _).mpr (.inr ⟨e, he, rfl⟩)

/-! ## What a request does -/

variable {env : Env} {s : CalendarState}

/-- No request of the lifecycle removes an event. -/
theorem step_keepsEvents (env : Env) (db : Db) (op : Op) (k : ℕ)
    (h : db.calendarEvents.get? k ≠ none) : (step env db op).calendarEvents.get? k ≠ none := by
  have hmodify : ∀ (id : ℕ) (f : CalendarEvent → CalendarEvent),
      (db.calendarEvents.modify id f).get? k ≠ none := fun id f => by
    rw [Store.get?_modify]
    split_ifs with hk
    · subst hk
      simpa using h
    · exact h
  have hraised : ∀ envelopes, ({ db with envelopes } : Db).calendarEvents.get? k ≠ none :=
    fun _ => h
  cases op with
  | createEvent actor body =>
    rcases step_cases env db (.createEvent actor body) with hacc | ⟨-, envelopes, heq⟩
    · obtain ⟨_, hret, -⟩ := Svc.returns_map.mp hacc
      obtain ⟨record, -, -, -, ⟨_, -, -, heq⟩ | ⟨-, -, heq⟩⟩ := returns_createEvent.mp hret
      · rw [← heq]
        exact h
      · rw [← heq]
        obtain ⟨e, he⟩ := Option.ne_none_iff_exists'.mp h
        rw [transition_calendarEvents, Store.get?_create_of_some he]
        exact Option.some_ne_none e
    · rw [heq]
      exact hraised envelopes
  | updateEvent eventId body =>
    rcases step_cases env db (.updateEvent eventId body) with hacc | ⟨-, envelopes, heq⟩
    · obtain ⟨_, hret, -⟩ := Svc.returns_map.mp hacc
      obtain ⟨event, -, -, -, ⟨_, -, -, heq⟩ | ⟨-, -, heq⟩⟩ := returns_updateEvent.mp hret
      · rw [← heq]
        exact h
      · rw [← heq]
        exact hmodify _ _
    · rw [heq]
      exact hraised envelopes
  | cancelEvent now eventId =>
    rcases step_cases env db (.cancelEvent now eventId) with hacc | ⟨-, envelopes, heq⟩
    · obtain ⟨_, -, ⟨-, _, -, heq⟩ | ⟨-, heq⟩⟩ := returns_cancelEvent.mp hacc
      · rw [← heq]
        exact hmodify _ _
      · rw [← heq]
        exact h
    · rw [heq]
      exact hraised envelopes
  | _ =>
    rw [(step_frame env db _).events rfl]
    exact h

theorem serve_keepsEvents (env : Env) (r : Roster) (op : CalendarOp) (k : ℕ)
    (h : r.db.calendarEvents.get? k ≠ none) :
    (op.serve env r).db.calendarEvents.get? k ≠ none := by
  cases op with
  | lifecycle op => exact step_keepsEvents env r.db op k h
  | deactivateUser now actor userId reassignToId =>
    simp only [CalendarOp.serve]
    rcases Svc.request_cases (fun before _ => before)
      (Roster.deactivateUser now actor userId reassignToId) r with
      ⟨res, r', hret, heq⟩ | ⟨e, r', -, heq⟩
    · rw [heq]
      obtain ⟨-, rfl⟩ := returns_deactivateUser.mp ⟨res, hret⟩
      cases reassignToId with
      | none => exact h
      | some joining =>
        obtain ⟨e, he⟩ := Option.ne_none_iff_exists'.mp h
        have hevent := handedOver_event r now userId joining k
        rw [he] at hevent
        exact fun hnone => Option.some_ne_none _ (hevent.symm.trans hnone)
    · rw [heq]
      exact h

/-- The mirror of the state. -/
def CalendarState.Mirrors (s : CalendarState) : Prop :=
  s.attendees.Mirrors s.roster.db.calendarEvents

/-- A request keeps the mirror and adds the rows of the appraisers it leaves. -/
theorem step_spec (env : Env) (op : CalendarOp) (h : s.Mirrors) :
    (s.step env op).Mirrors ∧ ∀ k u, (⟨k, u, .primary⟩ ∈ (s.step env op).attendees.rows ↔
      ⟨k, u, .primary⟩ ∈ s.attendees.rows ∨ (s.step env op).appraiser k = some u) := by
  obtain ⟨t', hok, hrows⟩ :
      ∃ t', mirrorCalendarEventAppraiser s.roster.db.calendarEvents
        (op.serve env s.roster).db.calendarEvents s.attendees = .ok t' ∧ _ := mirror_spec h
  have hstep : s.step env op = ⟨op.serve env s.roster, t'⟩ := by
    unfold CalendarState.step
    simp only [hok]
  rw [hstep]
  refine ⟨h.mirror (serve_keepsEvents env s.roster op) hrows, fun k u => ?_⟩
  rw [hrows]
  refine or_congr_right ?_
  simp [CalendarState.appraiser, primaryRow, eq_comm]

/-! ## Runs -/

theorem mirrors_of_backfilled (h : s.Backfilled) : s.Mirrors where
  referenced a ha hnone := by
    have happ := ((h a).mp ha).2
    simp [CalendarState.appraiser, hnone] at happ
  primary a ha := ((h a).mp ha).1
  appraiser k e he := (h _).mpr ⟨rfl, by simp [CalendarState.appraiser, he, primaryRow]⟩

/-- In every state reached, every event has exactly one row for its appraiser, with
    role primary, exactly one for each user who was its appraiser before, and no other
    row. -/
theorem attendees_are_appraisers (env : Env) (s : CalendarState) (h : s.Backfilled)
    (ops : List CalendarOp) :
    let s' := run (CalendarState.step env) s ops
    (∀ k u, s'.appraiser k = some u → s'.attendees.rowsOf k u = [⟨k, u, .primary⟩]) ∧
    (∀ k u, WasAppraiser env s ops k u → s'.attendees.rowsOf k u = [⟨k, u, .primary⟩]) ∧
    ∀ a ∈ s'.attendees.rows, a.role = .primary ∧ WasAppraiser env s ops a.eventId a.userId := by
  intro s'
  have hmirrors : s'.Mirrors :=
    run_induction (P := CalendarState.Mirrors) (fun s op hs => (step_spec env op hs).1)
      (mirrors_of_backfilled h) ops
  have hhad : ∀ k u, ⟨k, u, .primary⟩ ∈ s'.attendees.rows ↔ WasAppraiser env s ops k u :=
    fun k u => run_iff_had (I := CalendarState.Mirrors)
      (H := fun s : CalendarState => ⟨k, u, .primary⟩ ∈ s.attendees.rows)
      (Q := fun s : CalendarState => s.appraiser k = some u)
      (fun s op hs => (step_spec env op hs).1) (fun s op hs => (step_spec env op hs).2 k u)
      (mirrors_of_backfilled h) ((h _).trans (and_iff_right rfl)) ops
  have hwas : ∀ k u, WasAppraiser env s ops k u → s'.attendees.rowsOf k u = [⟨k, u, .primary⟩] :=
    fun k u hw => Attendees.rowsOf_of_mem ((hhad k u).mpr hw)
  refine ⟨fun k u hu => hwas k u ⟨ops, List.prefix_rfl, hu⟩, hwas, fun a ha => ?_⟩
  have hrole := hmirrors.primary a ha
  refine ⟨hrole, (hhad _ _).mp ?_⟩
  rw [← hrole]
  exact ha

/-- No event yet. -/
def officeCalendar : CalendarState where
  roster :=
    { db := Db.init officeUsers sampleCustomers
      userStatus := fun _ => .active
      assignedSalesRepId := fun _ => none
      assignedAppraiserId := fun _ => none }
  attendees := ⟨[], List.nodup_nil⟩

theorem noDuration_valid : ∀ d ∈ (none : Option ℕ), ValidDuration d := by simp

/-- An appointment with user 0 is given to user 1. -/
def reassignedRun : List CalendarOp :=
  [.lifecycle (.submitIntake { customerId := 0 }),
    .lifecycle (.createEvent 3 (booking 0 (minutes 60) "Fresno")),
    .lifecycle (.updateEvent 0 { appraiserId := some 1, valid := noDuration_valid })]

theorem officeCalendar_backfilled : officeCalendar.Backfilled := by
  intro a
  simp [officeCalendar, CalendarState.appraiser, Db.init]

/-- Both users hold a row of the appointment. -/
theorem attendees_are_appraisers_reassigned :
    (run (CalendarState.step sampleEnv) officeCalendar reassignedRun).attendees.rowsOf 0 1 =
      [⟨0, 1, .primary⟩] ∧
    (run (CalendarState.step sampleEnv) officeCalendar reassignedRun).attendees.rowsOf 0 0 =
      [⟨0, 0, .primary⟩] := by
  obtain ⟨hcurrent, hwas, -⟩ :=
    attendees_are_appraisers sampleEnv officeCalendar officeCalendar_backfilled reassignedRun
  have hfirst : WasAppraiser sampleEnv officeCalendar reassignedRun 0 0 :=
    ⟨reassignedRun.take 2, List.take_prefix _ _, by decide +kernel⟩
  exact ⟨hcurrent 0 1 (by decide +kernel), hwas 0 0 hfirst⟩

/-- Both rows are primaries. -/
theorem two_primaries :
    ¬ ∀ (env : Env) (s : CalendarState) (ops : List CalendarOp), s.Backfilled →
      (run (CalendarState.step env) s ops).OnePrimary := by
  intro h
  have hone := h sampleEnv officeCalendar reassignedRun officeCalendar_backfilled 0 1
    (by decide +kernel)
  revert hone
  decide +kernel

end TempleConsign.AttendeeMirror
