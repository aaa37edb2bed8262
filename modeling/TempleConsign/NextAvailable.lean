import TempleConsign.NoDoubleBooking

/-!
# The next-available hint

`_check_conflict` (`src/api/services/calendar_service.py` line 341) sends a
`next_available_at` with its refusal. The file's contract (line 16) says that
the 409 "always includes a 'next available' hint so the UI can offer a one-click
reschedule". The hint is the earliest arrival from the previous stop, the plain
end of an event that the proposal overlaps, and missing where the next stop
cannot be reached.

Results:
* `conflictWith_isSome_iff`: the three ways an event is in the way.
* `BookingAttempt.FirstInTheWay.check`: a refusal is that of the first event in the way.
* `hintSound_iff`: which refusals carry a hint that can be taken.
-/

namespace TempleConsign

open ServiceLib

/-! ## Attempts -/

/-- What `create_event` and `update_event` pass to `_check_conflict`. -/
structure BookingAttempt where
  appraiserId : ℕ
  proposed : Slot
  ignore : Option ℕ

/-- The attempt of `create_event` (line 150). -/
def CalendarEventCreate.attempt (body : CalendarEventCreate) (record : EquipmentRecord) :
    BookingAttempt where
  appraiserId := body.appraiserId
  proposed := (body.event record).slot
  ignore := none

/-- The attempt of `update_event` (line 240). -/
def CalendarEventPatch.attempt (body : CalendarEventPatch) (eventId : ℕ) (event : CalendarEvent) :
    BookingAttempt where
  appraiserId := (event.patched body).appraiserId
  proposed := (event.patched body).slot
  ignore := some eventId

/-- The attempts that the two services refuse with a conflict. -/
inductive Refused (cfg : TravelConfig) (db : Db) : BookingAttempt → CalendarConflict → Prop
  | create (actor : ℕ) {body : CalendarEventCreate} {record : EquipmentRecord}
      {conflict : CalendarConflict} {db' : Db}
      (hrecord : db.records.get? body.equipmentRecordId = some record)
      (hreturns : Svc.Returns (createEvent cfg actor body) db (.error conflict) db') :
      Refused cfg db (body.attempt record) conflict
  | update {eventId : ℕ} {body : CalendarEventPatch} {event : CalendarEvent}
      {conflict : CalendarConflict} {db' : Db}
      (hevent : db.calendarEvents.get? eventId = some event)
      (hreturns : Svc.Returns (updateEvent cfg eventId body) db (.error conflict) db') :
      Refused cfg db (body.attempt eventId event) conflict

variable {cfg : TravelConfig} {db : Db} {a : BookingAttempt} {c : CalendarConflict}

/-- `_check_conflict` on an attempt. -/
def BookingAttempt.check (a : BookingAttempt) (cfg : TravelConfig) (db : Db) :
    Option CalendarConflict :=
  checkConflict cfg db a.appraiserId a.proposed a.ignore

/-- A refusal is the answer of `_check_conflict`. -/
theorem Refused.check (h : Refused cfg db a c) : a.check cfg db = some c := by
  cases h with
  | @create actor body record conflict db' hrecord hreturns =>
    obtain ⟨record', hrecord', -, -, hres⟩ := returns_createEvent.mp hreturns
    obtain rfl : record' = record := Option.some.inj (hrecord'.symm.trans hrecord)
    rcases hres with ⟨conflict', hcheck, heq, -⟩ | ⟨-, heq, -⟩
    · cases heq
      exact hcheck
    · cases heq
  | @update eventId body event conflict db' hevent hreturns =>
    obtain ⟨event', hevent', -, -, hres⟩ := returns_updateEvent.mp hreturns
    obtain rfl : event' = event := Option.some.inj (hevent'.symm.trans hevent)
    rcases hres with ⟨conflict', hcheck, heq, -⟩ | ⟨-, heq, -⟩
    · cases heq
      unfold editConflict at hcheck
      split_ifs at hcheck
      exact hcheck
    · cases heq

/-! ## The hint -/

/-- The same length and address from `t` on. -/
def Slot.movedTo (s : Slot) (t : ℤ) : Slot := ⟨t, t + (s.stop - s.start), s.address⟩

/-- The attempt with the proposed time `t`. -/
def BookingAttempt.movedTo (a : BookingAttempt) (t : ℤ) : BookingAttempt :=
  { a with proposed := a.proposed.movedTo t }

/-- The event is one `_check_conflict` reads for the attempt, and its loop body
    refuses the proposal because of it. -/
def BookingAttempt.ConflictsWith (a : BookingAttempt) (cfg : TravelConfig) (id : ℕ)
    (e : CalendarEvent) : Prop :=
  isCandidate a.appraiserId a.proposed.start a.ignore id e = true ∧
    (conflictWith cfg a.proposed id e).isSome = true

/-- The conflict carries a time, and the attempt moved to that time does not
    conflict with the event the conflict names. -/
def HintSound (cfg : TravelConfig) (db : Db) (a : BookingAttempt) (c : CalendarConflict) : Prop :=
  ∃ t id e, c.nextAvailableAt = some t ∧ c.conflictingEventId = some id ∧
    db.calendarEvents.get? id = some e ∧ ¬ (a.movedTo t).ConflictsWith cfg id e

/-- Seconds to drive from `a` to `b`, as a time difference. -/
def Slot.drive (cfg : TravelConfig) (a b : Slot) : ℤ :=
  seconds (resolveBufferSeconds cfg a.address b.address)

/-- `a` ends in time for `b`, but the drive between them is too long. -/
def Slot.TooClose (cfg : TravelConfig) (a b : Slot) : Prop :=
  a.stop ≤ b.start ∧ b.start < a.stop + a.drive cfg b

/-- The two slots share some time. -/
def Slot.Overlaps (a b : Slot) : Prop := a.start < b.stop ∧ b.start < a.stop

/-- An event stands in the way of the proposal: it overlaps it, or it is too
    close before it, or too close after it. -/
def InTheWay (cfg : TravelConfig) (proposed event : Slot) : Prop :=
  proposed.Overlaps event ∨ event.TooClose cfg proposed ∨
    (proposed.start < event.stop ∧ proposed.TooClose cfg event)

/-- The loop body reports a conflict exactly for the events in the way. -/
theorem conflictWith_isSome_iff {proposed : Slot} (id : ℕ) {e : CalendarEvent} :
    (conflictWith cfg proposed id e).isSome = true ↔ InTheWay cfg proposed e.slot := by
  simp only [conflictWith, rangesOverlap, InTheWay, Slot.Overlaps, Slot.TooClose, Slot.drive,
    CalendarEvent.slot, Bool.and_eq_true, decide_eq_true_eq]
  split_ifs with hoverlap hprior harrival hnext hleave
  all_goals simp only [Option.isSome_some, Option.isSome_none, true_iff, Bool.false_eq_true,
    false_iff, not_or, not_and]
  · exact Or.inl hoverlap
  · exact Or.inr (Or.inl ⟨hprior, harrival⟩)
  · refine ⟨by omega, fun _ => by omega, fun _ => by omega⟩
  · exact Or.inr (Or.inr ⟨by omega, hnext, by omega⟩)
  · refine ⟨by omega, fun _ => by omega, fun _ _ => by omega⟩
  · refine ⟨by omega, fun _ => by omega, fun _ _ => by omega⟩

/-- The refusal of an event that the proposal overlaps names its end. -/
theorem conflictWith_overlaps {proposed : Slot} {id : ℕ} {e : CalendarEvent}
    (h : proposed.Overlaps e.slot) :
    conflictWith cfg proposed id e =
      some ⟨.alreadyScheduled e.slot.start e.slot.stop, some e.slot.stop, some id⟩ := by
  have hranges : rangesOverlap proposed.start proposed.stop e.slot.start e.slot.stop = true := by
    simpa [rangesOverlap, Slot.Overlaps] using h
  exact if_pos hranges

/-- The refusal of an event before the proposal names the earliest arrival. -/
theorem conflictWith_prior {proposed : Slot} {id : ℕ} {e : CalendarEvent}
    (h : e.slot.TooClose cfg proposed) :
    conflictWith cfg proposed id e =
      some ⟨.driveTimeFromPrior (e.slot.stop + e.slot.drive cfg proposed),
        some (e.slot.stop + e.slot.drive cfg proposed), some id⟩ := by
  obtain ⟨hprior, harrival⟩ := h
  have hranges :
      ¬ rangesOverlap proposed.start proposed.stop e.slot.start e.slot.stop = true := by
    simp only [rangesOverlap, Bool.and_eq_true, decide_eq_true_eq]
    omega
  exact (if_neg hranges).trans ((if_pos hprior).trans (if_pos harrival))

/-- The refusal of an event after the proposal names no time. -/
theorem conflictWith_next {proposed : Slot} {id : ℕ} {e : CalendarEvent}
    (hafter : proposed.start < e.slot.stop) (h : proposed.TooClose cfg e.slot) :
    conflictWith cfg proposed id e = some ⟨.driveTimeToNext e.slot.start, none, some id⟩ := by
  obtain ⟨hnext, hleave⟩ := h
  have hranges :
      ¬ rangesOverlap proposed.start proposed.stop e.slot.start e.slot.stop = true := by
    simp only [rangesOverlap, Bool.and_eq_true, decide_eq_true_eq]
    omega
  have hlate : proposed.stop > e.slot.start - proposed.drive cfg e.slot := by omega
  exact (if_neg hranges).trans ((if_neg (by show ¬ e.slot.stop ≤ _; omega)).trans
    ((if_pos hnext).trans (if_pos hlate)))

/-! ## The event that refuses -/

/-- The events `_check_conflict` reads, in its order. -/
def BookingAttempt.sameDayEvents (a : BookingAttempt) (db : Db) : List (ℕ × CalendarEvent) :=
  (db.calendarEvents.select (isCandidate a.appraiserId a.proposed.start a.ignore)).insertionSort
    fun x y => x.2.scheduledAt ≤ y.2.scheduledAt

theorem BookingAttempt.mem_sameDayEvents {id : ℕ} {e : CalendarEvent} :
    (id, e) ∈ a.sameDayEvents db ↔ db.calendarEvents.get? id = some e ∧
      isCandidate a.appraiserId a.proposed.start a.ignore id e = true := by
  simp only [sameDayEvents, List.mem_insertionSort, Store.mem_select]

/-- The event is the first in the way of the attempt. -/
def BookingAttempt.FirstInTheWay (a : BookingAttempt) (cfg : TravelConfig) (db : Db) (id : ℕ)
    (e : CalendarEvent) : Prop :=
  ∃ earlier later, a.sameDayEvents db = earlier ++ (id, e) :: later ∧
    InTheWay cfg a.proposed e.slot ∧ ∀ x ∈ earlier, ¬ InTheWay cfg a.proposed x.2.slot

/-- `_check_conflict` answers with the conflict of the first event in the way. -/
theorem BookingAttempt.FirstInTheWay.check {id : ℕ} {e : CalendarEvent}
    (h : a.FirstInTheWay cfg db id e) : a.check cfg db = conflictWith cfg a.proposed id e := by
  obtain ⟨earlier, later, hsplit, hin, hclear⟩ := h
  obtain ⟨conflict, hconflict⟩ :=
    Option.isSome_iff_exists.mp ((conflictWith_isSome_iff id).mpr hin)
  rw [hconflict]
  show (a.sameDayEvents db).findSome? _ = some conflict
  rw [List.findSome?_eq_some_iff]
  refine ⟨earlier, (id, e), later, hsplit, hconflict, fun x hx => ?_⟩
  rw [← Option.not_isSome_iff_eq_none, conflictWith_isSome_iff]
  exact hclear x hx

/-- A refused attempt has a first event in the way. -/
theorem BookingAttempt.exists_firstInTheWay (h : a.check cfg db = some c) :
    ∃ id e, a.FirstInTheWay cfg db id e := by
  have hfound : (a.sameDayEvents db).findSome?
      (fun e => conflictWith cfg a.proposed e.1 e.2) = some c := h
  obtain ⟨earlier, ⟨id, e⟩, later, hsplit, hconflict, hnone⟩ :=
    List.findSome?_eq_some_iff.mp hfound
  refine ⟨id, e, earlier, later, hsplit, ?_, fun x hx hin => ?_⟩
  · rw [← conflictWith_isSome_iff id, hconflict]
    rfl
  · rw [← conflictWith_isSome_iff x.1, hnone x hx] at hin
    cases hin

/-- The first event in the way is one of the events of the window. -/
theorem BookingAttempt.FirstInTheWay.candidate {id : ℕ} {e : CalendarEvent}
    (h : a.FirstInTheWay cfg db id e) :
    db.calendarEvents.get? id = some e ∧
      isCandidate a.appraiserId a.proposed.start a.ignore id e = true := by
  obtain ⟨earlier, later, hsplit, -, -⟩ := h
  rw [← BookingAttempt.mem_sameDayEvents, hsplit]
  simp

/-! ## Which hints can be taken -/

/-- The proposal can start when the event ends: no drive to its address is
    needed, or the event began so long before that the check of the moved
    attempt does not read it. -/
def FreeAtEnd (cfg : TravelConfig) (proposed event : Slot) : Prop :=
  event.drive cfg proposed ≤ 0 ∨ event.start + days 1 < event.stop

/-- The hint given for the event can be taken: the event ends before the
    proposal starts, or it overlaps the proposal, which can start at its end. -/
def HintTaken (cfg : TravelConfig) (proposed event : Slot) : Prop :=
  event.stop ≤ proposed.start ∨ (event.start < proposed.stop ∧ FreeAtEnd cfg proposed event)

/-- At the end of an event or later, only the drive from it is in the way. -/
theorem inTheWay_movedTo {proposed event : Slot} {t : ℤ} (ht : event.stop ≤ t) :
    InTheWay cfg (proposed.movedTo t) event ↔ t < event.stop + event.drive cfg proposed := by
  simp only [InTheWay, Slot.Overlaps, Slot.TooClose, Slot.drive, Slot.movedTo]
  constructor
  · rintro (⟨h, -⟩ | ⟨-, h⟩ | ⟨h, -⟩)
    · omega
    · exact h
    · omega
  · intro h
    exact Or.inr (Or.inl ⟨ht, h⟩)

/-- The moved attempt reads the event again unless the event began more than a
    day before. -/
theorem isCandidate_movedTo {id : ℕ} {e : CalendarEvent} {start t : ℤ}
    (h : isCandidate a.appraiserId start a.ignore id e = true) (ht : e.slot.start ≤ t) :
    isCandidate a.appraiserId t a.ignore id e = true ↔ t ≤ e.slot.start + days 1 := by
  have hday : (0 : ℤ) < days 1 := by decide
  simp only [isCandidate, CalendarEvent.slot, Bool.and_eq_true, decide_eq_true_eq] at h ht ⊢
  obtain ⟨⟨⟨⟨happraiser, hcancelled⟩, -⟩, -⟩, hignore⟩ := h
  constructor
  · rintro ⟨⟨⟨-, hwindow⟩, -⟩, -⟩
    omega
  · intro hwindow
    exact ⟨⟨⟨⟨happraiser, hcancelled⟩, by omega⟩, by omega⟩, hignore⟩

theorem CalendarEvent.slot_start_le_stop (e : CalendarEvent) : e.slot.start ≤ e.slot.stop := by
  simp only [CalendarEvent.slot, minutes, seconds]
  omega

/-- With a time in the conflict, the hint is sound when the moved attempt meets
    no conflict with the event. -/
theorem hintSound_of_time {id : ℕ} {e : CalendarEvent} {t : ℤ}
    (hget : db.calendarEvents.get? id = some e) (htime : c.nextAvailableAt = some t)
    (hid : c.conflictingEventId = some id) :
    HintSound cfg db a c ↔ ¬ (a.movedTo t).ConflictsWith cfg id e := by
  constructor
  · rintro ⟨t', id', e', htime', hid', hget', hfree⟩
    obtain rfl : t = t' := Option.some.inj (htime.symm.trans htime')
    obtain rfl : id = id' := Option.some.inj (hid.symm.trans hid')
    obtain rfl : e = e' := Option.some.inj (hget.symm.trans hget')
    exact hfree
  · intro hfree
    exact ⟨t, id, e, htime, hid, hget, hfree⟩

/-- The hint of one conflict is sound exactly when it can be taken. -/
theorem hint_iff {id : ℕ} {e : CalendarEvent} (hget : db.calendarEvents.get? id = some e)
    (hcand : isCandidate a.appraiserId a.proposed.start a.ignore id e = true)
    (hc : conflictWith cfg a.proposed id e = some c) :
    HintSound cfg db a c ↔ HintTaken cfg a.proposed e.slot := by
  have hin : InTheWay cfg a.proposed e.slot := by
    rw [← conflictWith_isSome_iff id, hc]
    rfl
  rcases hin with hoverlap | hprior | ⟨hafter, hnext⟩
  · -- the hint is the end of the event, without the drive
    have hconflict := Option.some.inj (hc.symm.trans (conflictWith_overlaps hoverlap))
    rw [hintSound_of_time hget (by rw [hconflict]) (by rw [hconflict]),
      BookingAttempt.ConflictsWith,
      conflictWith_isSome_iff]
    show ¬ (isCandidate a.appraiserId e.slot.stop a.ignore id e = true ∧
      InTheWay cfg (a.proposed.movedTo e.slot.stop) e.slot) ↔ _
    rw [isCandidate_movedTo hcand e.slot_start_le_stop, inTheWay_movedTo le_rfl]
    unfold HintTaken FreeAtEnd
    obtain ⟨hstart, hstop⟩ := hoverlap
    constructor
    · intro hfree
      refine Or.inr ⟨hstop, ?_⟩
      omega
    · rintro (hended | ⟨-, hfree⟩)
      · omega
      · omega
  · -- the hint is the earliest arrival
    have hconflict := Option.some.inj (hc.symm.trans (conflictWith_prior hprior))
    rw [hintSound_of_time hget (by rw [hconflict]) (by rw [hconflict]),
      BookingAttempt.ConflictsWith,
      conflictWith_isSome_iff]
    obtain ⟨hended, harrival⟩ := hprior
    refine iff_of_true ?_ (Or.inl hended)
    rintro ⟨-, hin⟩
    exact absurd ((inTheWay_movedTo (by omega)).mp hin) (lt_irrefl _)
  · -- there is no hint
    have hconflict := Option.some.inj (hc.symm.trans (conflictWith_next hafter hnext))
    refine iff_of_false ?_ ?_
    · rintro ⟨t, -, -, htime, -⟩
      rw [hconflict] at htime
      cases htime
    · obtain ⟨hended, -⟩ := hnext
      rintro (hbefore | ⟨hstart, -⟩)
      · omega
      · omega

/-- The refusals with a sound hint: the first event in the way ends before the
    proposed start, or the proposal overlaps it and can start at its end. -/
theorem hintSound_iff (h : Refused cfg db a c) :
    HintSound cfg db a c ↔
      ∃ id e, a.FirstInTheWay cfg db id e ∧ HintTaken cfg a.proposed e.slot := by
  have hcheck := h.check
  constructor
  · intro hsound
    obtain ⟨id, e, hfirst⟩ := BookingAttempt.exists_firstInTheWay hcheck
    obtain ⟨hget, hcand⟩ := hfirst.candidate
    have hc := hfirst.check.symm.trans hcheck
    exact ⟨id, e, hfirst, (hint_iff hget hcand hc).mp hsound⟩
  · rintro ⟨id, e, hfirst, htaken⟩
    obtain ⟨hget, hcand⟩ := hfirst.candidate
    have hc := hfirst.check.symm.trans hcheck
    exact (hint_iff hget hcand hc).mpr htaken

/-- One appointment from 0:00 to 1:00 in Fresno, and a record still to be
    scheduled. -/
def oneBooked : Db :=
  run (step renoEnv) (Db.init sampleUsers sampleCustomers)
    [.submitIntake { customerId := 0 }, .submitIntake { customerId := 0 },
      .createEvent 1 (booking 0 0 "Fresno")]

/-- The record still to be scheduled. -/
def unbookedRecord : EquipmentRecord := ⟨0, .newRequest, none, none, none, none, none⟩

/-- The attempt to schedule it in Fresno, half an hour of driving away. -/
def secondBooking (start : ℤ) : BookingAttempt := (booking 1 start "Fresno").attempt unbookedRecord

theorem refused_secondBooking {start : ℤ} {conflict : CalendarConflict}
    (h : (secondBooking start).check renoEnv.travel oneBooked = some conflict) :
    Refused renoEnv.travel oneBooked (secondBooking start) conflict :=
  Refused.create 1 rfl (returns_createEvent.mpr
    ⟨unbookedRecord, rfl, rfl, ⟨_, rfl, rfl⟩, Or.inl ⟨conflict, h, rfl, rfl⟩⟩)

/-- A booking at 1:10 is sent to 1:30, and 1:30 is free. -/
theorem hintSound_iff_prior :
    HintSound renoEnv.travel oneBooked (secondBooking (minutes 70))
      ⟨.driveTimeFromPrior (minutes 90), some (minutes 90), some 0⟩ := by
  refine (hintSound_iff (refused_secondBooking (by decide +kernel))).mpr ?_
  refine ⟨0, ⟨0, 0, 0, 60, some "Fresno", none⟩, ⟨[], [], by decide +kernel, ?_, by simp⟩, ?_⟩
  · exact Or.inr (Or.inl ⟨by decide +kernel, by decide +kernel⟩)
  · exact Or.inl (by decide +kernel)

/-- Every refusal carries a time that can be taken. -/
def HintsSound : Prop :=
  ∀ (cfg : TravelConfig) (db : Db) (a : BookingAttempt) (c : CalendarConflict),
    Refused cfg db a c → HintSound cfg db a c

/-- A booking at 0:30 is sent to 1:00, where the same appointment refuses it. -/
theorem overlap_hint_refused : ¬ HintsSound := by
  intro h
  have hcheck : (secondBooking (minutes 30)).check renoEnv.travel oneBooked =
      some ⟨.alreadyScheduled 0 (minutes 60), some (minutes 60), some 0⟩ := by decide +kernel
  obtain ⟨t, id, e, htime, hid, hget, hfree⟩ := h _ _ _ _ (refused_secondBooking hcheck)
  cases htime
  cases hid
  cases hget
  exact hfree ⟨by decide +kernel, by decide +kernel⟩

end TempleConsign
