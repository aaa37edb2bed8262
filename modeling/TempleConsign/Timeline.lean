import Mathlib.Data.List.Chain
import TempleConsign.NoDoubleBooking

/-!
# The status timeline of a record

`record_transition` writes a `status_events` row for every status it sets, and
the time a record spent in a status is computed from these rows
(`src/api/services/admin_operations_service.py` line 35). `cancel_event` puts a
scheduled record back to `new_request` without a row.

Results:
* `StatusWrite`, `statusWrite`: the ways a request writes a status.
* `timeline_integrity_iff`: the timelines of a run are whole, in all its states or
  at its end, exactly when no request cancels the appointment of a record that is
  scheduled.
-/

namespace TempleConsign

open ServiceLib

/-- `record.status_events`, in the order of creation. -/
def Db.timeline (db : Db) (id : ℕ) : List StatusEvent :=
  db.statusEvents.inOrder fun e => e.recordId = id

/-- `f` starts from the status that `e` ended in. -/
def Follows (e f : StatusEvent) : Prop := f.fromStatus = some e.toStatus

/-- The timeline is a chain that ends in the status. -/
structure WholeTimeline (status : Status) (timeline : List StatusEvent) : Prop where
  chain : timeline.IsChain Follows
  last : ∀ e ∈ timeline.getLast?, e.toStatus = status

/-- The timeline of every record is whole. -/
def TimelineIntegrity (db : Db) : Prop :=
  ∀ id r, db.records.get? id = some r → WholeTimeline r.status (db.timeline id)

/-- The request is not the cancellation of an appointment whose record is
    scheduled. -/
def CancelsUnscheduled (db : Db) : Op → Prop
  | .cancelEvent _ eventId =>
    ∀ e, db.calendarEvents.get? eventId = some e → e.cancelledAt = none →
      db.statusOf e.recordId ≠ some .appraisalScheduled
  | _ => True

/-! ## How a request writes a status -/

/-- What a request does to the statuses and their events. -/
inductive StatusWrite (op : Op) (db db' : Db) : Prop
  | keep (hrec : db'.records = db.records) (hev : db'.statusEvents = db.statusEvents)
      (hc : CancelsUnscheduled db op)
  | intake (r : EquipmentRecord) (hs : r.status = .newRequest)
      (hrec : db'.records = db.records.create r) (hev : db'.statusEvents = db.statusEvents)
      (hc : CancelsUnscheduled db op)
  | transition (id : ℕ) (r : EquipmentRecord) (target : Status) (changedBy : Option ℕ)
      (note : Option String) (hr : db.records.get? id = some r)
      (hrec : db'.records = (db.transition id r.status target changedBy note).records)
      (hev : db'.statusEvents = (db.transition id r.status target changedBy note).statusEvents)
      (hc : CancelsUnscheduled db op)
  | revert (id : ℕ) (r : EquipmentRecord) (hr : db.records.get? id = some r)
      (hs : r.status = .appraisalScheduled)
      (hrec : db'.records = db.records.modify id fun r => { r with status := .newRequest })
      (hev : db'.statusEvents = db.statusEvents) (hc : ¬ CancelsUnscheduled db op)

theorem statusWrite_cancelEvent {db db' : Db} {now : ℤ} {eventId : ℕ} {u : Unit}
    (h : Svc.Returns (cancelEvent now eventId) db u db') :
    StatusWrite (.cancelEvent now eventId) db db' := by
  obtain ⟨event, he, ⟨hopen, record, hr, rfl⟩ | ⟨hclosed, rfl⟩⟩ := returns_cancelEvent.mp h
  · have hstatus : db.statusOf event.recordId = some record.status := by
      rw [Db.statusOf, hr, Option.map_some]
    by_cases hs : record.status = .appraisalScheduled
    · refine .revert event.recordId record hr hs (if_pos hs) rfl fun hc => ?_
      exact hc event he hopen (by rw [hstatus, hs])
    · refine .keep (if_neg hs) rfl fun e he' _ => ?_
      rw [he] at he'
      cases he'
      rw [hstatus]
      simpa using hs
  · refine .keep rfl rfl fun e he' hc => ?_
    rw [he] at he'
    cases he'
    exact absurd hc hclosed

theorem statusWrite_of_accepted {env : Env} {db db' : Db} {op : Op}
    (h : Accepted env db op db') : StatusWrite op db db' := by
  unfold Accepted at h
  cases op with simp only [Op.service, Svc.returns_map] at h
  | accounts users customers =>
    obtain rfl := Svc.returns_modify.mp h
    exact .keep rfl rfl trivial
  | submitIntake payload =>
    obtain ⟨_, h, -⟩ := h
    obtain ⟨-, -, rfl⟩ := returns_submitIntake.mp h
    exact .intake _ rfl rfl rfl trivial
  | createEvent actor body =>
    obtain ⟨_, h, -⟩ := h
    obtain ⟨record, hr, hs, -, ⟨_, -, -, rfl⟩ | ⟨-, -, rfl⟩⟩ := returns_createEvent.mp h
    · exact .keep rfl rfl trivial
    · rw [← hs]
      exact .transition _ record _ _ _ hr rfl rfl trivial
  | updateEvent eventId body =>
    obtain ⟨_, h, -⟩ := h
    obtain ⟨_, -, -, -, ⟨_, -, -, rfl⟩ | ⟨-, -, rfl⟩⟩ := returns_updateEvent.mp h
    all_goals exact .keep rfl rfl trivial
  | cancelEvent now eventId => exact statusWrite_cancelEvent h
  | createDraft appraiser recordId =>
    obtain ⟨_, h, -⟩ := h
    obtain ⟨-, -, -, rfl⟩ := returns_createDraft.mp h
    exact .keep rfl rfl trivial
  | updateDraft user submissionId body =>
    obtain ⟨_, -, -, -, rfl⟩ := returns_updateDraft.mp h
    exact .keep rfl rfl trivial
  | submit now appraiser submissionId flags missing =>
    obtain ⟨_, -, -, -, -, ⟨record, hr, -, rfl⟩ | ⟨-, rfl⟩⟩ := returns_submit.mp h
    · exact .transition _ record _ _ _ hr rfl rfl trivial
    · exact .keep rfl rfl trivial
  | approve now providerOk approvingUser submissionId body =>
    obtain ⟨_, h, -⟩ := h
    obtain ⟨s, -, -, -, record, hr, -, -, hdb⟩ := returns_approve.mp h
    obtain ⟨contracts, envelopes, hd⟩ := dispatch_frame providerOk s.recordId record
      (db.approved now approvingUser submissionId body s.recordId record.status)
    obtain rfl := hd.symm.trans hdb
    exact .transition _ record _ _ _ hr rfl rfl trivial
  | reject rejectingUser submissionId rejectionNotes sendBack =>
    obtain ⟨_, h, -⟩ := h
    obtain ⟨_, -, -, record, hr, -, -, -, rfl⟩ := returns_reject.mp h
    exact .transition _ record _ _ _ hr rfl rfl trivial
  | approvePriceChange now approvingUser changeRequestId =>
    obtain ⟨change, -, -, -, submission, -, rfl⟩ := returns_approvePriceChange.mp h
    obtain ⟨submissions, hp⟩ := setPrice_frame db submission change.proposedConsignmentPrice
    rw [hp]
    exact .keep rfl rfl trivial
  | generateAndStore now submissionId storageKey =>
    obtain ⟨_, -, ⟨_, rfl⟩ | rfl⟩ := returns_generateAndStore h
    all_goals exact .keep rfl rfl trivial
  | envelopeCompleted now envelopeId =>
    obtain ⟨_, -, ⟨-, rfl⟩ | ⟨-, -, rfl⟩ | ⟨-, record, hr, -, rfl⟩⟩ :=
      returns_handleEnvelopeCompleted.mp h
    · exact .keep rfl rfl trivial
    · exact .keep rfl rfl trivial
    · exact .transition _ record _ _ _ hr rfl rfl trivial
  | envelopeDeclined envelopeId =>
    obtain ⟨_, -, ⟨-, rfl⟩ | ⟨-, -, rfl⟩ | ⟨-, record, hr, -, rfl⟩⟩ :=
      returns_handleEnvelopeDeclined.mp h
    · exact .keep rfl rfl trivial
    · exact .keep rfl rfl trivial
    · exact .transition _ record _ _ _ hr rfl rfl trivial
  | submitChangeRequest customer recordId requestType customerNotes price =>
    obtain ⟨_, -, -, rfl⟩ := returns_submitChangeRequest h
    exact .keep rfl rfl trivial
  | resolveChangeRequest now resolver changeRequestId newStatus resolutionNotes =>
    obtain ⟨_, -, _, -, -, record, hr, -, ⟨-, -, -, rfl⟩ | ⟨-, rfl⟩⟩ :=
      returns_resolveChangeRequest.mp h
    · exact .transition _ record _ _ _ hr rfl rfl trivial
    · exact .keep rfl rfl trivial
  | publishRecord now actingUser recordId =>
    obtain ⟨record, ⟨hr, -⟩, hs, -, -, rfl⟩ := returns_publishRecord.mp h
    rw [← hs]
    exact .transition _ record _ _ _ hr rfl rfl trivial
  | manualTransition admin recordId toStatus reason =>
    obtain ⟨_, rfl, record, ⟨hr, -⟩, -, -, rfl⟩ := returns_manualTransition.mp h
    exact .transition _ record _ _ _ hr rfl rfl trivial

/-- A refused request meets the condition: a cancellation of the appointment of
    a scheduled record is never refused. -/
theorem cancelsUnscheduled_of_refused {env : Env} {db : Db} {op : Op}
    (h : ∀ db', ¬ Accepted env db op db') : CancelsUnscheduled db op := by
  cases op with
  | cancelEvent now eventId =>
    intro e he hopen hs
    obtain ⟨r, hr, -⟩ := Db.statusOf_eq_some.mp hs
    exact h _ (returns_cancelEvent.mpr ⟨e, he, Or.inl ⟨hopen, r, hr, rfl⟩⟩)
  | _ => trivial

theorem statusWrite (env : Env) (db : Db) (op : Op) : StatusWrite op db (step env db op) := by
  rcases step_cases env db op with h | ⟨hno, envelopes, h⟩
  · exact statusWrite_of_accepted h
  · rw [h]
    exact .keep rfl rfl (cancelsUnscheduled_of_refused hno)

/-! ## What that does to one record -/

/-- Status and timeline of one record before and after a request. -/
inductive TimelineStep (op : Op) (db : Db) (s : Status) (l : List StatusEvent) (s' : Status)
    (l' : List StatusEvent) : Prop
  | same (hs : s' = s) (hl : l' = l)
  | append (e : StatusEvent) (hl : l' = l ++ [e]) (hfrom : e.fromStatus = some s)
      (hto : e.toStatus = s')
  | revert (hs : s = .appraisalScheduled) (hs' : s' = .newRequest) (hl : l' = l)
      (hc : ¬ CancelsUnscheduled db op)

theorem timeline_congr {db db' : Db} (h : db'.statusEvents = db.statusEvents) (id : ℕ) :
    db'.timeline id = db.timeline id := by
  rw [Db.timeline, h, Db.timeline]

theorem timeline_transition {db db' : Db} {id : ℕ} {source target : Status}
    {changedBy : Option ℕ} {note : Option String}
    (h : db'.statusEvents = (db.transition id source target changedBy note).statusEvents)
    (k : ℕ) :
    db'.timeline k =
      db.timeline k ++ if id = k then [⟨id, some source, target, changedBy, note⟩] else [] := by
  rw [Db.timeline, h, Db.transition, Store.inOrder_create]
  simp only [decide_eq_true_eq, Db.timeline]

/-- A record stays, and its timeline goes one step. -/
theorem StatusWrite.kept {op : Op} {db db' : Db} (h : StatusWrite op db db') {id : ℕ}
    {r : EquipmentRecord} (hr : db.records.get? id = some r) :
    ∃ r', db'.records.get? id = some r' ∧
      TimelineStep op db r.status (db.timeline id) r'.status (db'.timeline id) := by
  cases h with
  | keep hrec hev hc => exact ⟨r, by rw [hrec, hr], .same rfl (timeline_congr hev id)⟩
  | intake new hs hrec hev hc =>
    exact ⟨r, by rw [hrec, Store.get?_create_of_some hr], .same rfl (timeline_congr hev id)⟩
  | transition id' record target changedBy note hr' hrec hev hc =>
    rw [hrec, transition_records, timeline_transition hev]
    by_cases hid : id = id'
    · subst hid
      rw [hr] at hr'
      cases hr'
      rw [if_pos rfl, if_pos rfl, hr]
      exact ⟨_, rfl, .append _ rfl rfl rfl⟩
    · rw [if_neg hid, if_neg (Ne.symm hid), List.append_nil]
      exact ⟨r, hr, .same rfl rfl⟩
  | revert id' record hr' hs hrec hev hc =>
    rw [hrec, timeline_congr hev]
    by_cases hid : id = id'
    · subst hid
      rw [hr] at hr'
      cases hr'
      rw [Store.get?_modify_self, hr]
      exact ⟨_, rfl, .revert hs rfl rfl hc⟩
    · exact ⟨r, by rw [Store.get?_modify_ne _ _ hid, hr], .same rfl rfl⟩

/-- Every event belongs to a record. -/
def EventsHaveRecords (db : Db) : Prop :=
  ∀ k e, db.statusEvents.get? k = some e → db.records.get? e.recordId ≠ none

/-- A record without events is a new request; a record whose status is not the
    one its timeline ends in was reverted. -/
structure TimelineInv (db : Db) : Prop where
  known : EventsHaveRecords db
  first : ∀ id r, db.records.get? id = some r → db.timeline id = [] → r.status = .newRequest
  last : ∀ id r, db.records.get? id = some r → ∀ e ∈ (db.timeline id).getLast?,
    e.toStatus = r.status ∨ (e.toStatus = .appraisalScheduled ∧ r.status = .newRequest)

theorem EventsHaveRecords.timeline_eq_nil {db : Db} (h : EventsHaveRecords db) {id : ℕ}
    (hid : db.records.get? id = none) : db.timeline id = [] := by
  refine List.eq_nil_iff_forall_not_mem.mpr fun e he => ?_
  obtain ⟨⟨k, hk⟩, hrec⟩ := Store.mem_inOrder.mp he
  have hrec : e.recordId = id := of_decide_eq_true hrec
  exact h k e hk (by rw [hrec, hid])

/-- A record that was not there before is a new request without events. -/
theorem StatusWrite.fresh {op : Op} {db db' : Db} (h : StatusWrite op db db')
    (hk : EventsHaveRecords db) {id : ℕ} {r' : EquipmentRecord}
    (hn : db.records.get? id = none) (hr' : db'.records.get? id = some r') :
    r'.status = .newRequest ∧ db'.timeline id = [] := by
  have hnil := hk.timeline_eq_nil hn
  cases h with
  | keep hrec hev hc =>
    rw [hrec, hn] at hr'
    cases hr'
  | intake new hs hrec hev hc =>
    rw [hrec, Store.get?_create] at hr'
    rw [timeline_congr hev]
    split_ifs at hr' with hid
    · cases hr'
      exact ⟨hs, hnil⟩
    · rw [hn] at hr'
      cases hr'
  | transition id' record target changedBy note hr hrec hev hc =>
    rw [hrec, transition_records, hn] at hr'
    split_ifs at hr'
    cases hr'
  | revert id' record hr hs hrec hev hc =>
    rw [hrec, Store.get?_modify, hn] at hr'
    split_ifs at hr'
    cases hr'

theorem StatusWrite.eventsHaveRecords {op : Op} {db db' : Db} (h : StatusWrite op db db')
    (hk : EventsHaveRecords db) : EventsHaveRecords db' := by
  -- records are never removed, and a new event names the record it moves
  have hstays : ∀ id, db.records.get? id ≠ none → db'.records.get? id ≠ none := by
    intro id hid
    obtain ⟨r, hr⟩ := Option.ne_none_iff_exists'.mp hid
    obtain ⟨r', hr', -⟩ := h.kept hr
    rw [hr']
    exact Option.some_ne_none r'
  have hold : db'.statusEvents = db.statusEvents → EventsHaveRecords db' := by
    intro hev k e he
    rw [hev] at he
    exact hstays _ (hk k e he)
  cases h with
  | keep hrec hev hc => exact hold hev
  | intake new hs hrec hev hc => exact hold hev
  | revert id record hr hs hrec hev hc => exact hold hev
  | transition id record target changedBy note hr hrec hev hc =>
    intro k e he
    rw [hev, Db.transition, Store.get?_create] at he
    split_ifs at he
    · cases he
      exact hstays id (by rw [hr]; exact Option.some_ne_none record)
    · exact hstays _ (hk k e he)

/-! ## One step -/

theorem WholeTimeline.nil (s : Status) : WholeTimeline s [] where
  chain := .nil
  last _ he := nomatch he

/-- Appending an event that starts from the record's status keeps the chain
    exactly when the timeline was whole. -/
theorem wholeTimeline_append_iff {s : Status} {l : List StatusEvent} {e : StatusEvent}
    (hfrom : e.fromStatus = some s) :
    WholeTimeline e.toStatus (l ++ [e]) ↔ WholeTimeline s l := by
  constructor
  · intro h
    have hchain := List.isChain_append.mp h.chain
    refine ⟨hchain.1, fun f hf => ?_⟩
    have hfollows : Follows f e := hchain.2.2 f hf e (by simp)
    rw [Follows, hfrom, Option.some_inj] at hfollows
    exact hfollows.symm
  · intro h
    refine ⟨List.isChain_append.mpr ⟨h.chain, .singleton e, fun f hf g hg => ?_⟩, fun f hf => ?_⟩
    · simp only [List.head?_cons, Option.mem_some_iff] at hg
      rw [← hg, Follows, hfrom, h.last f hf]
    · simp only [List.getLast?_append, List.getLast?_singleton, Option.some_or,
        Option.mem_some_iff] at hf
      rw [← hf]

theorem step_timelineInv (env : Env) {db : Db} (op : Op) (hi : TimelineInv db) :
    TimelineInv (step env db op) := by
  have hw := statusWrite env db op
  refine ⟨hw.eventsHaveRecords hi.known, fun id r' hr' hnil => ?_, fun id r' hr' e he => ?_⟩
  · cases hr : db.records.get? id with
    | none => exact (hw.fresh hi.known hr hr').1
    | some r =>
      obtain ⟨r1, hr1, hstep⟩ := hw.kept hr
      rw [hr'] at hr1
      cases hr1
      cases hstep with
      | same hs hl =>
        rw [hs]
        exact hi.first id r hr (by rw [← hl, hnil])
      | append e hl hfrom hto =>
        rw [hl] at hnil
        exact absurd hnil (by simp)
      | revert hs hs' hl hc => exact hs'
  · cases hr : db.records.get? id with
    | none =>
      rw [(hw.fresh hi.known hr hr').2] at he
      cases he
    | some r =>
      obtain ⟨r1, hr1, hstep⟩ := hw.kept hr
      rw [hr'] at hr1
      cases hr1
      cases hstep with
      | same hs hl =>
        rw [hl] at he
        rw [hs]
        exact hi.last id r hr e he
      | append f hl hfrom hto =>
        rw [hl] at he
        simp only [List.getLast?_append, List.getLast?_singleton, Option.some_or,
          Option.mem_some_iff] at he
        rw [← he]
        exact Or.inl hto
      | revert hs hs' hl hc =>
        rw [hl] at he
        rcases hi.last id r hr e he with h | ⟨h, -⟩
        · exact Or.inr ⟨h.trans hs, hs'⟩
        · exact Or.inr ⟨h, hs'⟩

theorem step_keeps_timeline (env : Env) {db : Db} {op : Op} (hi : TimelineInv db)
    (hp : TimelineIntegrity db) (hc : CancelsUnscheduled db op) :
    TimelineIntegrity (step env db op) := by
  have hw := statusWrite env db op
  intro id r' hr'
  cases hr : db.records.get? id with
  | none =>
    rw [(hw.fresh hi.known hr hr').2]
    exact .nil r'.status
  | some r =>
    obtain ⟨r1, hr1, hstep⟩ := hw.kept hr
    rw [hr'] at hr1
    cases hr1
    cases hstep with
    | same hs hl =>
      rw [hs, hl]
      exact hp id r hr
    | append e hl hfrom hto =>
      rw [hl, ← hto, wholeTimeline_append_iff hfrom]
      exact hp id r hr
    | revert hs hs' hl hno => exact absurd hc hno

/-- A record in `appraisal_scheduled` has a timeline that ends there, so a
    timeline that is kept does not end in `new_request`. -/
theorem not_whole_of_revert {db : Db} (hi : TimelineInv db) {id : ℕ} {r : EquipmentRecord}
    (hr : db.records.get? id = some r) (hs : r.status = .appraisalScheduled) :
    ¬ WholeTimeline .newRequest (db.timeline id) := by
  intro h
  cases hl : (db.timeline id).getLast? with
  | none =>
    have hfirst := hi.first id r hr (List.getLast?_eq_none_iff.mp hl)
    rw [hs] at hfirst
    cases hfirst
  | some e =>
    have hnew := h.last e hl
    rcases hi.last id r hr e hl with hlast | ⟨hlast, -⟩
    · rw [hnew, hs] at hlast
      cases hlast
    · rw [hnew] at hlast
      cases hlast

theorem step_breaks_timeline (env : Env) {db : Db} {op : Op} (hi : TimelineInv db)
    (hc : ¬ CancelsUnscheduled db op) : ¬ TimelineIntegrity (step env db op) := by
  intro hp
  cases statusWrite env db op with
  | keep hrec hev h => exact hc h
  | intake new hs hrec hev h => exact hc h
  | transition id record target changedBy note hr hrec hev h => exact hc h
  | revert id r hr hs hrec hev _ =>
    have hwhole := hp id { r with status := .newRequest }
      (by rw [hrec, Store.get?_modify_self, hr]; rfl)
    rw [timeline_congr hev] at hwhole
    exact not_whole_of_revert hi hr hs hwhole

/-- No request mends a broken timeline. -/
theorem step_keeps_broken (env : Env) {db : Db} (op : Op) (hi : TimelineInv db)
    (hb : ¬ TimelineIntegrity db) : ¬ TimelineIntegrity (step env db op) := by
  intro hp
  refine hb fun id r hr => ?_
  obtain ⟨r', hr', hstep⟩ := (statusWrite env db op).kept hr
  have hwhole := hp id r' hr'
  cases hstep with
  | same hs hl =>
    rw [← hs, ← hl]
    exact hwhole
  | append e hl hfrom hto =>
    rw [hl, ← hto] at hwhole
    exact (wholeTimeline_append_iff hfrom).mp hwhole
  | revert hs hs' hl hno =>
    rw [hs', hl] at hwhole
    exact absurd hwhole (not_whole_of_revert hi hr hs)

/-! ## Runs -/

theorem timelineInv_init (users : Store User) (customers : Store Customer) :
    TimelineInv (Db.init users customers) where
  known k e he := by rw [show (Db.init users customers).statusEvents = .empty from rfl,
    Store.get?_empty] at he; cases he
  first id r hr := by rw [show (Db.init users customers).records = .empty from rfl,
    Store.get?_empty] at hr; cases hr
  last id r hr := by rw [show (Db.init users customers).records = .empty from rfl,
    Store.get?_empty] at hr; cases hr

theorem timelineIntegrity_init (users : Store User) (customers : Store Customer) :
    TimelineIntegrity (Db.init users customers) := by
  intro id r hr
  rw [show (Db.init users customers).records = .empty from rfl, Store.get?_empty] at hr
  cases hr

/-- What happened before a whole timeline met the condition. -/
theorem allSteps_of_whole_end (env : Env) {db : Db} {ops : List Op} (hi : TimelineInv db)
    (h : TimelineIntegrity (run (step env) db ops)) :
    AllSteps (step env) CancelsUnscheduled db ops := by
  induction ops generalizing db with
  | nil => trivial
  | cons op ops ih =>
    have hi' := step_timelineInv env op hi
    refine ⟨?_, ih hi' h⟩
    by_contra hc
    have hend := run_induction (P := fun db => TimelineInv db ∧ ¬ TimelineIntegrity db)
      (fun db op hd => ⟨step_timelineInv env op hd.1, step_keeps_broken env op hd.1 hd.2⟩)
      ⟨hi', step_breaks_timeline env hi hc⟩ ops
    exact hend.2 h

/-- **The timelines of a run are whole, in all its states and at its end, exactly
    when no request of it cancels the appointment of a scheduled record.** -/
theorem timeline_integrity_iff (env : Env) (users : Store User) (customers : Store Customer)
    (ops : List Op) :
    (AllStates (step env) TimelineIntegrity (Db.init users customers) ops ↔
      AllSteps (step env) CancelsUnscheduled (Db.init users customers) ops) ∧
    (TimelineIntegrity (run (step env) (Db.init users customers) ops) ↔
      AllSteps (step env) CancelsUnscheduled (Db.init users customers) ops) := by
  have hsuff : AllSteps (step env) CancelsUnscheduled (Db.init users customers) ops →
      AllStates (step env) TimelineIntegrity (Db.init users customers) ops := by
    intro h
    have hall := allStates_of_allSteps (P := fun db => TimelineInv db ∧ TimelineIntegrity db)
      (fun db op hi hc => ⟨step_timelineInv env op hi.1, step_keeps_timeline env hi.1 hi.2 hc⟩)
      ⟨timelineInv_init users customers, timelineIntegrity_init users customers⟩ h
    exact hall.mono fun _ hi => hi.2
  have hnec : TimelineIntegrity (run (step env) (Db.init users customers) ops) →
      AllSteps (step env) CancelsUnscheduled (Db.init users customers) ops :=
    allSteps_of_whole_end env (timelineInv_init users customers)
  exact ⟨⟨fun h => hnec h.last, hsuff⟩, ⟨hnec, fun h => (hsuff h).last⟩⟩

/-- A record that is scheduled, then its appointment is cancelled. -/
def cancelledRun : List Op :=
  [.submitIntake { customerId := 0 }, .createEvent 1 (booking 0 0 "Fresno"), .cancelEvent 5 0]

/-- After the cancellation the record is a new request, while its timeline ends
    in `appraisal_scheduled`. -/
theorem cancelled_timeline_breaks :
    ¬ ∀ (env : Env) (users : Store User) (customers : Store Customer) (ops : List Op),
      TimelineIntegrity (run (step env) (Db.init users customers) ops) := by
  intro h
  have hstatus : (run (step sampleEnv) (Db.init sampleUsers sampleCustomers)
      cancelledRun).statusOf 0 = some .newRequest := by decide
  obtain ⟨r, hr, hs⟩ := Db.statusOf_eq_some.mp hstatus
  have hend : ((run (step sampleEnv) (Db.init sampleUsers sampleCustomers)
      cancelledRun).timeline 0).getLast?.map (·.toStatus) = some .appraisalScheduled := by decide
  obtain ⟨e, he, hto⟩ := Option.map_eq_some_iff.mp hend
  have hlast := (h sampleEnv sampleUsers sampleCustomers cancelledRun 0 r hr).last e he
  rw [hto, hs] at hlast
  cases hlast

end TempleConsign
