import TempleConsign.Approval
import TempleConsign.Calendar
import TempleConsign.ChangeRequests
import TempleConsign.Publication
import TempleConsign.Lib.Run

/-!
# The lifecycle of an equipment record

The requests that read or write the tables of `Database`, each one
transaction: it commits when its service returns and is rolled back when an
exception leaves it (`get_db`, `src/api/database/base.py` line 42).

Results:
* `step_of_accepted`, `step_cases`: the state after a request.
* `step_frame`, `step_tableFrame`: the tables a request does not write.
* `step_status`: a record keeps its status or moves along an edge of `Moves`.
-/

namespace TempleConsign

open ServiceLib

/-- Configuration a run is made under. -/
structure Env where
  travel : TravelConfig
  priceThreshold : PriceThreshold

/-- A request. `accounts` stands for the account services: they own `users` and
    `customers` and may leave anything there. -/
inductive Op
  | accounts (users : Store User) (customers : Store Customer)
  | submitIntake (payload : Intake)
  | createEvent (actor : ℕ) (body : CalendarEventCreate)
  | updateEvent (eventId : ℕ) (body : CalendarEventPatch)
  | cancelEvent (now : ℤ) (eventId : ℕ)
  | createDraft (appraiser recordId : ℕ)
  | updateDraft (user submissionId : ℕ) (body : SubmissionUpdate)
  | submit (now : ℤ) (appraiser submissionId : ℕ) (flags : RedFlagResult) (missing : List String)
  | approve (now : ℤ) (providerOk : Bool) (approvingUser submissionId : ℕ) (body : ApprovalDecision)
  | reject (rejectingUser submissionId : ℕ) (rejectionNotes : String) (sendBack : Bool)
  | approvePriceChange (now : ℤ) (approvingUser changeRequestId : ℕ)
  | generateAndStore (now : ℤ) (submissionId : ℕ) (storageKey : String)
  | envelopeCompleted (now : ℤ) (envelopeId : ℕ)
  | envelopeDeclined (envelopeId : ℕ)
  | submitChangeRequest (customer recordId : ℕ) (requestType : String)
      (customerNotes : Option String) (price : Option ℚ)
  | resolveChangeRequest (now : ℤ) (resolver changeRequestId : ℕ) (newStatus : String)
      (resolutionNotes : Option String)
  | publishRecord (now : ℤ) (actingUser recordId : ℕ)
  | manualTransition (admin recordId : ℕ) (toStatus reason : String)

namespace Op

/-- The service a request runs. -/
def service (env : Env) : Op → Service Unit
  | accounts users customers => modify fun db => { db with users, customers }
  | submitIntake payload => (fun _ => ()) <$> TempleConsign.submitIntake payload
  | createEvent actor body => (fun _ => ()) <$> TempleConsign.createEvent env.travel actor body
  | updateEvent eventId body => (fun _ => ()) <$> TempleConsign.updateEvent env.travel eventId body
  | cancelEvent now eventId => TempleConsign.cancelEvent now eventId
  | createDraft appraiser recordId => (fun _ => ()) <$> TempleConsign.createDraft appraiser recordId
  | updateDraft user submissionId body => TempleConsign.updateDraft user submissionId body
  | submit now appraiser submissionId flags missing =>
    TempleConsign.submit now appraiser submissionId flags missing
  | approve now providerOk approvingUser submissionId body =>
    (fun _ => ()) <$> TempleConsign.approve now providerOk approvingUser submissionId body
  | reject rejectingUser submissionId rejectionNotes sendBack =>
    (fun _ => ()) <$> TempleConsign.reject rejectingUser submissionId rejectionNotes sendBack
  | approvePriceChange now approvingUser changeRequestId =>
    TempleConsign.approvePriceChange now approvingUser changeRequestId
  | generateAndStore now submissionId storageKey =>
    TempleConsign.generateAndStore now submissionId storageKey
  | envelopeCompleted now envelopeId => handleEnvelopeCompleted now envelopeId
  | envelopeDeclined envelopeId => handleEnvelopeDeclined envelopeId
  | submitChangeRequest customer recordId requestType customerNotes price =>
    TempleConsign.submitChangeRequest env.priceThreshold customer recordId requestType
      customerNotes price
  | resolveChangeRequest now resolver changeRequestId newStatus resolutionNotes =>
    TempleConsign.resolveChangeRequest now resolver changeRequestId newStatus resolutionNotes
  | publishRecord now actingUser recordId => TempleConsign.publishRecord now actingUser recordId
  | manualTransition admin recordId toStatus reason =>
    TempleConsign.manualTransition admin recordId toStatus reason

/-- Every request but the admin override of a status. -/
def nonAdmin : Op → Bool
  | manualTransition .. => false
  | _ => true

end Op

/-- One request in its transaction. -/
def step (env : Env) (db : Db) (op : Op) : Db := (Svc.request Db.rollback (op.service env) db).2

/-- The request returns instead of raising. -/
def Accepted (env : Env) (db : Db) (op : Op) (db' : Db) : Prop :=
  Svc.Returns (op.service env) db () db'

theorem step_of_accepted {env : Env} {db db' : Db} {op : Op} (h : Accepted env db op db') :
    step env db op = db' := by
  unfold step; rw [Svc.request_of_returns h]

/-- A request whose service returns is accepted. -/
theorem accepted_of_isOk {env : Env} {db : Db} {op : Op}
    (h : (Svc.exec (op.service env) db).1.isOk = true) : Accepted env db op (step env db op) := by
  unfold Accepted step Svc.request Svc.Returns
  match hr : Svc.exec (op.service env) db with
  | (.ok _, db') => rfl
  | (.error e, db') =>
    rw [hr] at h
    cases h

/-- A request commits what it was accepted with, or leaves every table as it
    was. -/
theorem step_cases (env : Env) (db : Db) (op : Op) :
    Accepted env db op (step env db op) ∨
    ((∀ db', ¬ Accepted env db op db') ∧
      ∃ envelopes, step env db op = { db with envelopes }) := by
  unfold step
  rcases Svc.request_cases Db.rollback (op.service env) db with ⟨a, s', h, hr⟩ | ⟨e, s', h, hr⟩
  · rw [hr]; exact Or.inl h
  · rw [hr]
    refine Or.inr ⟨fun db' ha => ?_, s'.envelopes, rfl⟩
    unfold Accepted Svc.Returns at ha
    rw [h] at ha
    cases ha

/-! ## What a request does not write -/

namespace Op

def writesEvents : Op → Bool
  | createEvent .. | updateEvent .. | cancelEvent .. => true
  | _ => false

def writesSubmissions : Op → Bool
  | createDraft .. | updateDraft .. | submit .. | approve .. | reject .. | approvePriceChange .. =>
    true
  | _ => false

def writesContracts : Op → Bool
  | approve .. | envelopeCompleted .. | envelopeDeclined .. => true
  | _ => false

def writesReports : Op → Bool
  | generateAndStore .. => true
  | _ => false

end Op

/-- The dispatch writes `contracts` and `envelopes` only. -/
theorem dispatch_frame (providerOk : Bool) (recordId : ℕ) (record : EquipmentRecord) (db : Db) :
    ∃ contracts envelopes,
      (Svc.exec (dispatchContract providerOk recordId record) db).2 =
        { db with contracts, envelopes } := by
  rcases dispatch_cases providerOk recordId record db with h | ⟨contract, envelope, -, -, h⟩
  · exact ⟨db.contracts, db.envelopes, h⟩
  · rw [h]
    cases contract <;> exact ⟨_, _, rfl⟩

theorem setPrice_frame (db : Db) (submission : Option (ℕ × AppraisalSubmission))
    (price : Option ℚ) : ∃ submissions, db.setPrice submission price = { db with submissions } := by
  cases submission with
  | none => exact ⟨db.submissions, rfl⟩
  | some s =>
    cases price with
    | none => exact ⟨db.submissions, rfl⟩
    | some p => exact ⟨_, rfl⟩

/-- The tables that a request leaves alone. -/
structure Frame (op : Op) (db db' : Db) : Prop where
  events : op.writesEvents = false → db'.calendarEvents = db.calendarEvents
  submissions : op.writesSubmissions = false → db'.submissions = db.submissions
  contracts : op.writesContracts = false → db'.contracts = db.contracts
  reports : op.writesReports = false → db'.reports = db.reports

/-! ## How a record's status moves -/

/-- The status edges a request can take a record along. -/
def Moves (op : Op) (source target : Status) : Prop :=
  match op with
  | .createEvent .. => source = .newRequest ∧ target = .appraisalScheduled
  | .cancelEvent .. => source = .appraisalScheduled ∧ target = .newRequest
  | .submit .. => target = .appraisalComplete
  | .approve .. => target = .approvedPendingEsign
  | .reject _ _ _ sendBack =>
    target = rejectTarget sendBack ∧ isForbiddenTransition source target = false
  | .envelopeCompleted .. => target = .esignedPendingPublish
  | .envelopeDeclined .. => target = .approvedPendingEsign
  | .resolveChangeRequest .. => target = .withdrawn
  | .publishRecord .. => source = .esignedPendingPublish ∧ target = .listed
  | .manualTransition _ _ toStatus _ =>
    target.value = toStatus ∧ isForbiddenTransition source target = false
  | _ => False

/-- From `db` to `db'` every record stays and keeps its status or moves along
    an edge of `op`; a new record is a new request. -/
structure RecordMoves (op : Op) (db db' : Db) : Prop where
  kept : ∀ id r, db.records.get? id = some r →
    ∃ r', db'.records.get? id = some r' ∧
      (r'.status = r.status ∨ Moves op r.status r'.status)
  fresh : ∀ id r', db.records.get? id = none → db'.records.get? id = some r' →
    r'.status = .newRequest

theorem RecordMoves.of_eq {op : Op} {db db' : Db} (h : db'.records = db.records) :
    RecordMoves op db db' where
  kept id r hr := ⟨r, by rw [h]; exact hr, Or.inl rfl⟩
  fresh id r' hn hr := by rw [h, hn] at hr; cases hr

/-- A request that updates the status of one record along one of its edges. -/
theorem RecordMoves.of_modify {op : Op} {db db' : Db} {id : ℕ} {record : EquipmentRecord}
    {target : Status} (hr : db.records.get? id = some record)
    (hdb : db'.records = db.records.modify id fun r => { r with status := target })
    (hm : Moves op record.status target) : RecordMoves op db db' where
  kept k r hk := by
    rw [hdb, Store.get?_modify]
    split_ifs with h
    · subst h
      rw [hr] at hk
      cases hk
      exact ⟨_, by rw [hr]; rfl, Or.inr hm⟩
    · exact ⟨r, hk, Or.inl rfl⟩
  fresh k r' hn hk := by
    rw [hdb, Store.get?_modify, hn] at hk
    split_ifs at hk
    cases hk

/-- Where the record of the later state comes from. -/
theorem RecordMoves.back {op : Op} {db db' : Db} (h : RecordMoves op db db') {id : ℕ}
    {r' : EquipmentRecord} (hr : db'.records.get? id = some r') :
    (∃ r, db.records.get? id = some r ∧ (r'.status = r.status ∨ Moves op r.status r'.status)) ∨
    r'.status = .newRequest := by
  cases hn : db.records.get? id with
  | none => exact Or.inr (h.fresh id r' hn hr)
  | some r =>
    obtain ⟨r1, hr1, hm⟩ := h.kept id r hn
    rw [hr] at hr1
    cases hr1
    exact Or.inl ⟨r, rfl, hm⟩

/-! ## The effect of each request -/

/-- What an accepted request leaves alone and where it moves records. -/
theorem effect_of_accepted {env : Env} {db db' : Db} {op : Op} (h : Accepted env db op db') :
    Frame op db db' ∧ RecordMoves op db db' := by
  -- a request that writes no table of the frame keeps all four
  have hkept : ∀ {db' : Db}, db'.calendarEvents = db.calendarEvents →
      db'.submissions = db.submissions → db'.contracts = db.contracts →
      db'.reports = db.reports → Frame op db db' :=
    fun he hs hc hr => ⟨fun _ => he, fun _ => hs, fun _ => hc, fun _ => hr⟩
  -- and one that writes a table promises nothing about it
  have hno : ∀ {b : Bool} {P : Prop}, b = true → b = false → P := by
    intro b P htrue hfalse
    rw [htrue] at hfalse
    cases hfalse
  unfold Accepted at h
  cases op with simp only [Op.service, Svc.returns_map] at h
  | accounts users customers =>
    obtain rfl := Svc.returns_modify.mp h
    exact ⟨hkept rfl rfl rfl rfl, .of_eq rfl⟩
  | submitIntake payload =>
    obtain ⟨_, h, -⟩ := h
    obtain ⟨-, -, rfl⟩ := returns_submitIntake.mp h
    refine ⟨hkept rfl rfl rfl rfl, fun k r hk => ?_, fun k r' hn hk => ?_⟩
    · exact ⟨r, Store.get?_create_of_some hk, Or.inl rfl⟩
    · simp only [Store.get?_create, hn] at hk
      split_ifs at hk
      cases hk
      rfl
  | createEvent actor body =>
    obtain ⟨_, h, -⟩ := h
    obtain ⟨_, hr, hs, -, ⟨_, -, -, rfl⟩ | ⟨-, -, rfl⟩⟩ := returns_createEvent.mp h
    · exact ⟨hkept rfl rfl rfl rfl, .of_eq rfl⟩
    · exact ⟨⟨hno rfl, fun _ => rfl, fun _ => rfl, fun _ => rfl⟩, .of_modify hr rfl ⟨hs, rfl⟩⟩
  | updateEvent eventId body =>
    obtain ⟨_, h, -⟩ := h
    obtain ⟨_, -, -, -, ⟨_, -, -, rfl⟩ | ⟨-, -, rfl⟩⟩ := returns_updateEvent.mp h
    · exact ⟨hkept rfl rfl rfl rfl, .of_eq rfl⟩
    · exact ⟨⟨hno rfl, fun _ => rfl, fun _ => rfl, fun _ => rfl⟩, .of_eq rfl⟩
  | cancelEvent now eventId =>
    obtain ⟨_, -, ⟨-, record, hr, rfl⟩ | ⟨-, rfl⟩⟩ := returns_cancelEvent.mp h
    · refine ⟨⟨hno rfl, fun _ => rfl, fun _ => rfl, fun _ => rfl⟩, ?_⟩
      by_cases hs : record.status = .appraisalScheduled
      · exact .of_modify hr (if_pos hs) ⟨hs, rfl⟩
      · exact .of_eq (if_neg hs)
    · exact ⟨hkept rfl rfl rfl rfl, .of_eq rfl⟩
  | createDraft appraiser recordId =>
    obtain ⟨_, h, -⟩ := h
    obtain ⟨-, -, -, rfl⟩ := returns_createDraft.mp h
    exact ⟨⟨fun _ => rfl, hno rfl, fun _ => rfl, fun _ => rfl⟩, .of_eq rfl⟩
  | updateDraft user submissionId body =>
    obtain ⟨_, -, -, -, rfl⟩ := returns_updateDraft.mp h
    exact ⟨⟨fun _ => rfl, hno rfl, fun _ => rfl, fun _ => rfl⟩, .of_eq rfl⟩
  | submit now appraiser submissionId flags missing =>
    obtain ⟨_, -, -, -, -, ⟨_, hr, -, rfl⟩ | ⟨-, rfl⟩⟩ := returns_submit.mp h
    · exact ⟨⟨fun _ => rfl, hno rfl, fun _ => rfl, fun _ => rfl⟩, .of_modify hr rfl rfl⟩
    · exact ⟨⟨fun _ => rfl, hno rfl, fun _ => rfl, fun _ => rfl⟩, .of_eq rfl⟩
  | approve now providerOk approvingUser submissionId body =>
    obtain ⟨_, h, -⟩ := h
    obtain ⟨s, -, -, -, record, hr, -, -, hdb⟩ := returns_approve.mp h
    obtain ⟨contracts, envelopes, hd⟩ := dispatch_frame providerOk s.recordId record
      (db.approved now approvingUser submissionId body s.recordId record.status)
    obtain rfl := hd.symm.trans hdb
    exact ⟨⟨fun _ => rfl, hno rfl, hno rfl, fun _ => rfl⟩, .of_modify hr rfl rfl⟩
  | reject rejectingUser submissionId rejectionNotes sendBack =>
    obtain ⟨_, h, -⟩ := h
    obtain ⟨_, -, -, _, hr, -, hf, -, rfl⟩ := returns_reject.mp h
    exact ⟨⟨fun _ => rfl, hno rfl, fun _ => rfl, fun _ => rfl⟩, .of_modify hr rfl ⟨rfl, hf⟩⟩
  | approvePriceChange now approvingUser changeRequestId =>
    obtain ⟨change, -, -, -, submission, -, rfl⟩ := returns_approvePriceChange.mp h
    obtain ⟨submissions, hp⟩ := setPrice_frame db submission change.proposedConsignmentPrice
    rw [hp]
    exact ⟨⟨fun _ => rfl, hno rfl, fun _ => rfl, fun _ => rfl⟩, .of_eq rfl⟩
  | generateAndStore now submissionId storageKey =>
    obtain ⟨_, -, ⟨_, rfl⟩ | rfl⟩ := returns_generateAndStore h
    all_goals exact ⟨⟨fun _ => rfl, fun _ => rfl, fun _ => rfl, hno rfl⟩, .of_eq rfl⟩
  | envelopeCompleted now envelopeId =>
    obtain ⟨_, -, ⟨-, rfl⟩ | ⟨-, -, rfl⟩ | ⟨-, _, hr, -, rfl⟩⟩ :=
      returns_handleEnvelopeCompleted.mp h
    · exact ⟨hkept rfl rfl rfl rfl, .of_eq rfl⟩
    · exact ⟨⟨fun _ => rfl, fun _ => rfl, hno rfl, fun _ => rfl⟩, .of_eq rfl⟩
    · exact ⟨⟨fun _ => rfl, fun _ => rfl, hno rfl, fun _ => rfl⟩, .of_modify hr rfl rfl⟩
  | envelopeDeclined envelopeId =>
    obtain ⟨_, -, ⟨-, rfl⟩ | ⟨-, -, rfl⟩ | ⟨-, _, hr, -, rfl⟩⟩ :=
      returns_handleEnvelopeDeclined.mp h
    · exact ⟨hkept rfl rfl rfl rfl, .of_eq rfl⟩
    · exact ⟨⟨fun _ => rfl, fun _ => rfl, hno rfl, fun _ => rfl⟩, .of_eq rfl⟩
    · exact ⟨⟨fun _ => rfl, fun _ => rfl, hno rfl, fun _ => rfl⟩, .of_modify hr rfl rfl⟩
  | submitChangeRequest customer recordId requestType customerNotes price =>
    obtain ⟨_, -, -, rfl⟩ := returns_submitChangeRequest h
    exact ⟨hkept rfl rfl rfl rfl, .of_eq rfl⟩
  | resolveChangeRequest now resolver changeRequestId newStatus resolutionNotes =>
    obtain ⟨_, -, _, -, -, _, hr, -, ⟨-, -, -, rfl⟩ | ⟨-, rfl⟩⟩ :=
      returns_resolveChangeRequest.mp h
    · exact ⟨hkept rfl rfl rfl rfl, .of_modify hr rfl rfl⟩
    · exact ⟨hkept rfl rfl rfl rfl, .of_eq rfl⟩
  | publishRecord now actingUser recordId =>
    obtain ⟨_, ⟨hr, -⟩, hs, -, -, rfl⟩ := returns_publishRecord.mp h
    exact ⟨hkept rfl rfl rfl rfl, .of_modify hr rfl ⟨hs, rfl⟩⟩
  | manualTransition admin recordId toStatus reason =>
    obtain ⟨_, rfl, _, ⟨hr, -⟩, -, hf, rfl⟩ := returns_manualTransition.mp h
    exact ⟨hkept rfl rfl rfl rfl, .of_modify hr rfl ⟨rfl, hf⟩⟩

/-- **One request leaves alone the tables it does not write, and moves a record's
    status along its own edges only.** -/
theorem step_effect (env : Env) (db : Db) (op : Op) :
    Frame op db (step env db op) ∧ RecordMoves op db (step env db op) := by
  rcases step_cases env db op with h | ⟨-, envelopes, h⟩
  · exact effect_of_accepted h
  · rw [h]
    exact ⟨⟨fun _ => rfl, fun _ => rfl, fun _ => rfl, fun _ => rfl⟩, .of_eq rfl⟩

theorem step_frame (env : Env) (db : Db) (op : Op) : Frame op db (step env db op) :=
  (step_effect env db op).1

theorem step_status (env : Env) (db : Db) (op : Op) : RecordMoves op db (step env db op) :=
  (step_effect env db op).2

/-! ## Tables that few requests write -/

namespace Op

def writesRecords : Op → Bool
  | submitIntake .. | createEvent .. | cancelEvent .. | submit .. | approve .. | reject ..
  | envelopeCompleted .. | envelopeDeclined .. | resolveChangeRequest .. | publishRecord ..
  | manualTransition .. => true
  | _ => false

def writesChangeRequests : Op → Bool
  | submitChangeRequest .. | resolveChangeRequest .. | approvePriceChange .. => true
  | _ => false

def writesListings : Op → Bool
  | publishRecord .. => true
  | _ => false

end Op

/-- The tables beside those of `Frame` that a request leaves alone. -/
structure TableFrame (op : Op) (db db' : Db) : Prop where
  records : op.writesRecords = false → db'.records = db.records
  changeRequests : op.writesChangeRequests = false → db'.changeRequests = db.changeRequests
  listings : op.writesListings = false → db'.listings = db.listings

theorem TableFrame.of_eq {op : Op} {db db' : Db}
    (hr : op.writesRecords = true ∨ db'.records = db.records)
    (hc : op.writesChangeRequests = true ∨ db'.changeRequests = db.changeRequests)
    (hl : op.writesListings = true ∨ db'.listings = db.listings) : TableFrame op db db' where
  records h := hr.resolve_left (by rw [h]; exact Bool.false_ne_true)
  changeRequests h := hc.resolve_left (by rw [h]; exact Bool.false_ne_true)
  listings h := hl.resolve_left (by rw [h]; exact Bool.false_ne_true)

theorem tableFrame_of_accepted {env : Env} {db db' : Db} {op : Op} (h : Accepted env db op db') :
    TableFrame op db db' := by
  have hkept : ∀ {db' : Db}, db'.records = db.records → db'.changeRequests = db.changeRequests →
      db'.listings = db.listings → TableFrame op db db' :=
    fun hr hc hl => .of_eq (Or.inr hr) (Or.inr hc) (Or.inr hl)
  -- most requests that write records write neither of the other two tables
  have hrecords : ∀ {db' : Db}, op.writesRecords = true →
      db'.changeRequests = db.changeRequests → db'.listings = db.listings →
      TableFrame op db db' :=
    fun hw hc hl => .of_eq (Or.inl hw) (Or.inr hc) (Or.inr hl)
  unfold Accepted at h
  cases op with simp only [Op.service, Svc.returns_map] at h
  | accounts users customers =>
    obtain rfl := Svc.returns_modify.mp h
    exact hkept rfl rfl rfl
  | submitIntake payload =>
    obtain ⟨_, h, -⟩ := h
    obtain ⟨-, -, rfl⟩ := returns_submitIntake.mp h
    exact hrecords rfl rfl rfl
  | createEvent actor body =>
    obtain ⟨_, h, -⟩ := h
    obtain ⟨_, -, -, -, ⟨_, -, -, rfl⟩ | ⟨-, -, rfl⟩⟩ := returns_createEvent.mp h
    all_goals exact hrecords rfl rfl rfl
  | updateEvent eventId body =>
    obtain ⟨_, h, -⟩ := h
    obtain ⟨_, -, -, -, ⟨_, -, -, rfl⟩ | ⟨-, -, rfl⟩⟩ := returns_updateEvent.mp h
    all_goals exact hkept rfl rfl rfl
  | cancelEvent now eventId =>
    obtain ⟨_, -, ⟨-, record, -, rfl⟩ | ⟨-, rfl⟩⟩ := returns_cancelEvent.mp h
    all_goals exact hrecords rfl rfl rfl
  | createDraft appraiser recordId =>
    obtain ⟨_, h, -⟩ := h
    obtain ⟨-, -, -, rfl⟩ := returns_createDraft.mp h
    exact hkept rfl rfl rfl
  | updateDraft user submissionId body =>
    obtain ⟨_, -, -, -, rfl⟩ := returns_updateDraft.mp h
    exact hkept rfl rfl rfl
  | submit now appraiser submissionId flags missing =>
    obtain ⟨_, -, -, -, -, ⟨_, -, -, rfl⟩ | ⟨-, rfl⟩⟩ := returns_submit.mp h
    all_goals exact hrecords rfl rfl rfl
  | approve now providerOk approvingUser submissionId body =>
    obtain ⟨_, h, -⟩ := h
    obtain ⟨s, -, -, -, record, -, -, -, hdb⟩ := returns_approve.mp h
    obtain ⟨contracts, envelopes, hd⟩ := dispatch_frame providerOk s.recordId record
      (db.approved now approvingUser submissionId body s.recordId record.status)
    obtain rfl := hd.symm.trans hdb
    exact hrecords rfl rfl rfl
  | reject rejectingUser submissionId rejectionNotes sendBack =>
    obtain ⟨_, h, -⟩ := h
    obtain ⟨_, -, -, _, -, -, -, -, rfl⟩ := returns_reject.mp h
    exact hrecords rfl rfl rfl
  | approvePriceChange now approvingUser changeRequestId =>
    obtain ⟨change, -, -, -, submission, -, rfl⟩ := returns_approvePriceChange.mp h
    obtain ⟨submissions, hp⟩ := setPrice_frame db submission change.proposedConsignmentPrice
    rw [hp]
    exact .of_eq (Or.inr rfl) (Or.inl rfl) (Or.inr rfl)
  | generateAndStore now submissionId storageKey =>
    obtain ⟨_, -, ⟨_, rfl⟩ | rfl⟩ := returns_generateAndStore h
    all_goals exact hkept rfl rfl rfl
  | envelopeCompleted now envelopeId =>
    obtain ⟨_, -, ⟨-, rfl⟩ | ⟨-, -, rfl⟩ | ⟨-, _, -, -, rfl⟩⟩ :=
      returns_handleEnvelopeCompleted.mp h
    all_goals exact hrecords rfl rfl rfl
  | envelopeDeclined envelopeId =>
    obtain ⟨_, -, ⟨-, rfl⟩ | ⟨-, -, rfl⟩ | ⟨-, _, -, -, rfl⟩⟩ :=
      returns_handleEnvelopeDeclined.mp h
    all_goals exact hrecords rfl rfl rfl
  | submitChangeRequest customer recordId requestType customerNotes price =>
    obtain ⟨_, -, -, rfl⟩ := returns_submitChangeRequest h
    exact .of_eq (Or.inr rfl) (Or.inl rfl) (Or.inr rfl)
  | resolveChangeRequest now resolver changeRequestId newStatus resolutionNotes =>
    obtain ⟨_, -, _, -, -, _, -, -, ⟨-, -, -, rfl⟩ | ⟨-, rfl⟩⟩ := returns_resolveChangeRequest.mp h
    all_goals exact .of_eq (Or.inl rfl) (Or.inl rfl) (Or.inr rfl)
  | publishRecord now actingUser recordId =>
    obtain ⟨_, -, -, -, -, rfl⟩ := returns_publishRecord.mp h
    exact .of_eq (Or.inl rfl) (Or.inr rfl) (Or.inl rfl)
  | manualTransition admin recordId toStatus reason =>
    obtain ⟨_, rfl, _, -, -, -, rfl⟩ := returns_manualTransition.mp h
    exact hrecords rfl rfl rfl

theorem step_tableFrame (env : Env) (db : Db) (op : Op) : TableFrame op db (step env db op) := by
  rcases step_cases env db op with h | ⟨-, envelopes, h⟩
  · exact tableFrame_of_accepted h
  · rw [h]
    exact ⟨fun _ => rfl, fun _ => rfl, fun _ => rfl⟩

/-! ## A small installation

For concrete runs: an appraiser (user 0), a manager (user 1) and a customer
(user 2) whose profile is customer 0. -/

/-- Ten per cent, without rounding. -/
def tenPercent : PriceThreshold where
  changePct := fun approved proposed => |proposed - approved| / approved * 100
  thresholdPct := 10

def sampleEnv : Env where
  travel := { driveTimeSeconds := fun _ _ => none, fallbackMinutes := 30 }
  priceThreshold := tenPercent

def sampleUsers : Store User :=
  ((Store.empty.create ⟨"ann@example.com", "Ann", "A", .appraiser, [.appraiser]⟩).create
    ⟨"max@example.com", "Max", "M", .salesManager, [.salesManager]⟩).create
    ⟨"cus@example.com", "Cus", "C", .customer, [.customer]⟩

def sampleCustomers : Store Customer := Store.empty.create ⟨some 2⟩

/-- The status of a record. -/
def Db.statusOf (db : Db) (id : ℕ) : Option Status := (db.records.get? id).map (·.status)

theorem Db.statusOf_eq_some {db : Db} {id : ℕ} {s : Status} :
    db.statusOf id = some s ↔ ∃ r, db.records.get? id = some r ∧ r.status = s :=
  Option.map_eq_some_iff

end TempleConsign
