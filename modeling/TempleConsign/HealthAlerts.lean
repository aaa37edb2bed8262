import Mathlib.Data.List.Chain
import TempleConsign.IdempotencyKeys
import TempleConsign.Lib.Run

/-!
# Health alerts

Model of the persistence and the alerts of `src/api/services/health_check_service.py`
(lines 175–327). A poll of a service writes its row of `service_health_state`, and
alerts the administrators when the row turns red, unless the last alert is less than
15 minutes old.

The two conditions are looked at together, at the poll that turns the row red. When
the cooldown holds then, no later poll of the same episode sees a flip.

Deviations:
* The two readings of the clock are arguments of a poll, and so are the tables and
  the administrators that the alert reads.
* The texts of instants are parameters (`Iso`).

Results:
* `healthAlerts_spaced_and_exact`: consecutive alerts are 15 minutes apart, and the
  alerts are the first polls of the red episodes that begin 15 minutes or more after
  the last alert.
* `episode_in_cooldown`: an episode that begins inside the cooldown is never alerted.
* `second_episode_unalerted`: an episode of 18 minutes without an alert.
* `poll_other`: a poll of one service leaves the rows of the others.
-/

namespace TempleConsign.HealthAlerts

open ServiceLib

/-! ## Rows -/

/-- The values of `service_health_state.status`. -/
inductive HealthStatus
  | green
  | yellow
  | red
  | unknown
  | stubbed
  deriving DecidableEq

/-- `ProbeResult` (line 82). -/
structure ProbeResult where
  status : HealthStatus
  detail : String
  latencyMs : ℤ

/-- `ServiceHealthState` (`models.py` line 1323); `errorDetail` is the text under its
    key `detail`. -/
structure ServiceHealthState where
  status : HealthStatus
  lastCheckedAt : Option ℤ
  lastAlertedAt : Option ℤ
  errorDetail : Option String
  latencyMs : Option ℤ

/-- `service_health_state` by `service_name`, and the queue of notifications. -/
structure HealthDb where
  states : String → Option ServiceHealthState
  queue : Queue

/-- `isoformat()` and `isoformat(timespec="seconds")`. -/
structure Iso where
  full : ℤ → String
  toSeconds : ℤ → String

/-- One poll of a service: the probe's result, the clock at the write and at the
    alert, and what the alert reads. -/
structure Poll where
  probe : ProbeResult
  checkedAt : ℤ
  alertAt : ℤ
  tables : Tables
  admins : List Recipient

/-! ## The service -/

/-- The `error_detail` of `_upsert_state` (lines 193–195). -/
def ProbeResult.errorDetail (probe : ProbeResult) : Option String :=
  if probe.status = .red ∨ probe.status = .unknown then truthy (some probe.detail) else none

/-- Model of `_upsert_state` (line 175): the row it writes and the prior status. -/
def upsertState (db : HealthDb) (serviceName : String) (probe : ProbeResult) (now : ℤ) :
    ServiceHealthState × Option HealthStatus :=
  match db.states serviceName with
  | none =>
    ({ status := probe.status
       lastCheckedAt := some now
       lastAlertedAt := none
       errorDetail := probe.errorDetail
       latencyMs := some probe.latencyMs }, none)
  | some row =>
    ({ row with
       status := probe.status
       lastCheckedAt := some now
       errorDetail := probe.errorDetail
       latencyMs := some probe.latencyMs }, some row.status)

/-- The notices of `_maybe_dispatch_alert` (lines 266–316). -/
def alertNotices (iso : Iso) (serviceName : String) (row : ServiceHealthState) (now : ℤ)
    (tables : Tables) (admins : List Recipient) : List Notice :=
  admins.filterMap fun admin =>
    healthAlertNotice
      { serviceName
        red := row.status = .red
        errorDetail := row.errorDetail.getD ""
        checkedAt := iso.full (row.lastCheckedAt.getD now)
        lastAlertedAt := row.lastAlertedAt }
      (iso.toSeconds (row.lastCheckedAt.getD now)) admin (tables.preferences admin.id)

/-- Model of `_maybe_dispatch_alert` (line 247): the row, the notices and whether an
    alert was dispatched. -/
def maybeDispatchAlert (iso : Iso) (serviceName : String) (row : ServiceHealthState)
    (priorStatus : Option HealthStatus) (now : ℤ) (tables : Tables) (admins : List Recipient) :
    ServiceHealthState × List Notice × Bool :=
  if row.status ≠ .red then (row, [], false)
  else if priorStatus = some .red then (row, [], false)
  else if row.lastAlertedAt.any fun last => now - last < alertCooldown then (row, [], false)
  else
    ({ row with lastAlertedAt := some now },
      alertNotices iso serviceName row now tables admins, true)

/-- One service of `run_all` (line 333): the write and the alert. -/
def HealthDb.poll (iso : Iso) (serviceName : String) (db : HealthDb) (c : Poll) :
    ServiceHealthState × List Notice × Bool :=
  let (row, priorStatus) := upsertState db serviceName c.probe c.checkedAt
  maybeDispatchAlert iso serviceName row priorStatus c.alertAt c.tables c.admins

/-- What the poll leaves. -/
def HealthDb.step (iso : Iso) (serviceName : String) (db : HealthDb) (c : Poll) : HealthDb where
  states := Function.update db.states serviceName (some (db.poll iso serviceName c).1)
  queue := enqueueAll c.alertAt (db.poll iso serviceName c).2.1 db.queue

/-- The poll dispatches an alert. -/
def HealthDb.dispatched (iso : Iso) (serviceName : String) (db : HealthDb) (c : Poll) : Bool :=
  (db.poll iso serviceName c).2.2

/-! ## Episodes and alerts -/

section
variable (iso : Iso) (serviceName : String) (db : HealthDb)

/-- The times of the alerts: the last one before the run, and those of the run. -/
def alertTimes (polls : List Poll) : List ℤ :=
  ((db.states serviceName).bind ServiceHealthState.lastAlertedAt).toList ++
    eventsOf (HealthDb.step iso serviceName)
      (fun db c => if db.dispatched iso serviceName c then some c.alertAt else none) db polls

/-- The status of the service after the polls. -/
def statusAfter (polls : List Poll) : Option HealthStatus :=
  (((db.states serviceName).map ServiceHealthState.status).toList ++
    polls.map fun c => c.probe.status).getLast?

/-- `c` is taken 15 minutes or more after the last alert before it. -/
def CooledDown (pre : List Poll) (c : Poll) : Prop :=
  ∀ last ∈ (alertTimes iso serviceName db pre).getLast?, alertCooldown ≤ c.alertAt - last

/-- `c` is the first poll of a red episode. -/
def BeginsEpisode (pre : List Poll) (c : Poll) : Prop :=
  c.probe.status = .red ∧ statusAfter serviceName db pre ≠ some .red

/-- The polls between `pre` and `post` are a red episode. -/
structure IsEpisode (pre episode post : List Poll) : Prop where
  red : ∀ c ∈ episode, c.probe.status = .red
  begins : statusAfter serviceName db pre ≠ some .red
  ends : ∀ c ∈ post.head?, c.probe.status ≠ .red

/-- Every red episode that is still red at some poll 15 minutes or more after the last
    alert has an alert. -/
def EveryEpisodeAlerted (polls : List Poll) : Prop :=
  ∀ pre episode post, polls = pre ++ episode ++ post →
    IsEpisode serviceName db pre episode post →
    (∃ before c rest, episode = before ++ c :: rest ∧
      CooledDown iso serviceName db (pre ++ before) c) →
    ∃ before c rest, episode = before ++ c :: rest ∧
      (run (HealthDb.step iso serviceName) db (pre ++ before)).dispatched iso serviceName c = true

/-- Consecutive alerts are 15 minutes apart. -/
def AlertsSpaced (polls : List Poll) : Prop :=
  (alertTimes iso serviceName db polls).IsChain fun a b => alertCooldown ≤ b - a

end

/-- The polls happen one after the other. -/
def Increasing (polls : List Poll) : Prop :=
  (∀ c ∈ polls, c.checkedAt ≤ c.alertAt) ∧ polls.IsChain fun a b => a.alertAt < b.checkedAt

/-! ## One poll -/

variable {iso : Iso} {serviceName : String} {db : HealthDb} {c : Poll}

theorem upsertState_spec (db : HealthDb) (serviceName : String) (probe : ProbeResult) (now : ℤ) :
    (upsertState db serviceName probe now).1.status = probe.status ∧
    (upsertState db serviceName probe now).1.lastAlertedAt =
      (db.states serviceName).bind ServiceHealthState.lastAlertedAt ∧
    (upsertState db serviceName probe now).2 =
      (db.states serviceName).map ServiceHealthState.status := by
  unfold upsertState
  cases db.states serviceName with
  | none => exact ⟨rfl, rfl, rfl⟩
  | some row => exact ⟨rfl, rfl, rfl⟩

/-- The cooldown does not hold. -/
theorem cooldown_over_iff {lastAlertedAt : Option ℤ} {now : ℤ} :
    ¬ lastAlertedAt.any (fun last => now - last < alertCooldown) = true ↔
      ∀ last ∈ lastAlertedAt, alertCooldown ≤ now - last := by
  cases lastAlertedAt with
  | none => simp
  | some last => simp

/-- The guards of `_maybe_dispatch_alert`. -/
theorem maybeDispatchAlert_true_iff {row : ServiceHealthState} {prior : Option HealthStatus}
    {now : ℤ} {tables : Tables} {admins : List Recipient} :
    (maybeDispatchAlert iso serviceName row prior now tables admins).2.2 = true ↔
      row.status = .red ∧ prior ≠ some .red ∧
        ∀ last ∈ row.lastAlertedAt, alertCooldown ≤ now - last := by
  rw [← cooldown_over_iff]
  unfold maybeDispatchAlert
  split_ifs with hred hprior hcool
  · simp [hred]
  · simp [hprior]
  · simp [hcool]
  · simp [not_not.mp hred, hprior, hcool]

/-- The row after the alert. -/
theorem maybeDispatchAlert_row (iso : Iso) (serviceName : String) (row : ServiceHealthState)
    (prior : Option HealthStatus) (now : ℤ) (tables : Tables) (admins : List Recipient) :
    (maybeDispatchAlert iso serviceName row prior now tables admins).1.status = row.status ∧
    (maybeDispatchAlert iso serviceName row prior now tables admins).1.lastAlertedAt =
      if (maybeDispatchAlert iso serviceName row prior now tables admins).2.2 then some now
      else row.lastAlertedAt := by
  unfold maybeDispatchAlert
  split_ifs <;> simp_all

/-- The notices of an alert. -/
theorem maybeDispatchAlert_notices {row : ServiceHealthState} {prior : Option HealthStatus}
    {now : ℤ} {tables : Tables} {admins : List Recipient}
    (h : (maybeDispatchAlert iso serviceName row prior now tables admins).2.2 = true) :
    (maybeDispatchAlert iso serviceName row prior now tables admins).2.1 =
      alertNotices iso serviceName row now tables admins := by
  unfold maybeDispatchAlert at h ⊢
  split_ifs at h ⊢
  rfl

theorem dispatched_iff :
    db.dispatched iso serviceName c = true ↔
      c.probe.status = .red ∧ (db.states serviceName).map ServiceHealthState.status ≠ some .red ∧
        ∀ last ∈ (db.states serviceName).bind ServiceHealthState.lastAlertedAt,
          alertCooldown ≤ c.alertAt - last := by
  obtain ⟨hstatus, hlast, hprior⟩ := upsertState_spec db serviceName c.probe c.checkedAt
  rw [← hstatus, ← hlast, ← hprior]
  exact maybeDispatchAlert_true_iff

/-- The row of the service after a poll. -/
theorem step_states (iso : Iso) (serviceName : String) (db : HealthDb) (c : Poll) :
    ((db.step iso serviceName c).states serviceName).map ServiceHealthState.status =
      some c.probe.status ∧
    ((db.step iso serviceName c).states serviceName).bind ServiceHealthState.lastAlertedAt =
      if db.dispatched iso serviceName c then some c.alertAt
      else (db.states serviceName).bind ServiceHealthState.lastAlertedAt := by
  obtain ⟨hstatus, hlast, -⟩ := upsertState_spec db serviceName c.probe c.checkedAt
  obtain ⟨hkeep, halert⟩ := maybeDispatchAlert_row iso serviceName
    (upsertState db serviceName c.probe c.checkedAt).1
    (upsertState db serviceName c.probe c.checkedAt).2 c.alertAt c.tables c.admins
  simp only [HealthDb.step, Function.update_self, Option.map_some, Option.bind_some]
  exact ⟨by rw [← hstatus, ← hkeep]; rfl, by rw [← hlast]; exact halert⟩

/-- A poll of one service leaves the rows of the others. -/
theorem poll_other {other : String} (h : other ≠ serviceName) :
    (db.step iso serviceName c).states other = db.states other :=
  Function.update_of_ne h _ _

/-- Every notice of a dispatched alert is in the queue. -/
theorem queue_of_dispatched (h : db.dispatched iso serviceName c = true) :
    ∀ n ∈ alertNotices iso serviceName (upsertState db serviceName c.probe c.checkedAt).1
        c.alertAt c.tables c.admins,
      (db.step iso serviceName c).queue.Taken n.key := by
  intro n hn
  have hsent : (db.poll iso serviceName c).2.1 = alertNotices iso serviceName
      (upsertState db serviceName c.probe c.checkedAt).1 c.alertAt c.tables c.admins :=
    maybeDispatchAlert_notices h
  refine enqueueAll_taken ?_
  rw [hsent]
  exact hn

/-! ## Runs -/

section
variable (iso : Iso) (serviceName : String) (db : HealthDb)

theorem statusAfter_append_one (polls : List Poll) (c : Poll) :
    statusAfter serviceName db (polls ++ [c]) = some c.probe.status := by
  simp [statusAfter, ← List.append_assoc]

theorem alertTimes_append_one (polls : List Poll) (c : Poll) :
    alertTimes iso serviceName db (polls ++ [c]) =
      alertTimes iso serviceName db polls ++
        if (run (HealthDb.step iso serviceName) db polls).dispatched iso serviceName c
        then [c.alertAt] else [] := by
  rw [alertTimes, eventsOf_append_one, alertTimes, List.append_assoc]
  split_ifs <;> rfl

/-- The row keeps the status of the last poll and the time of the last alert. -/
theorem run_states (polls : List Poll) :
    ((run (HealthDb.step iso serviceName) db polls).states serviceName).map
      ServiceHealthState.status = statusAfter serviceName db polls ∧
    ((run (HealthDb.step iso serviceName) db polls).states serviceName).bind
      ServiceHealthState.lastAlertedAt = (alertTimes iso serviceName db polls).getLast? := by
  induction polls using List.reverseRecOn with
  | nil =>
    simp only [run_nil, statusAfter, alertTimes, eventsOf, List.map_nil, List.append_nil]
    constructor
    · cases db.states serviceName <;> rfl
    · cases (db.states serviceName).bind ServiceHealthState.lastAlertedAt <;> rfl
  | append_singleton polls c ih =>
    rw [run_append, run_cons, run_nil, statusAfter_append_one, alertTimes_append_one]
    obtain ⟨hstatus, halert⟩ := step_states iso serviceName
      (run (HealthDb.step iso serviceName) db polls) c
    refine ⟨hstatus, ?_⟩
    rw [halert, ih.2]
    split_ifs <;> simp

/-- A poll of a run alerts exactly when it begins a red episode outside the cooldown. -/
theorem dispatched_run_iff (pre : List Poll) (c : Poll) :
    (run (HealthDb.step iso serviceName) db pre).dispatched iso serviceName c = true ↔
      BeginsEpisode serviceName db pre c ∧ CooledDown iso serviceName db pre c := by
  obtain ⟨hstatus, halert⟩ := run_states iso serviceName db pre
  rw [dispatched_iff, hstatus, halert, ← and_assoc]
  rfl

theorem alertsSpaced (polls : List Poll) : AlertsSpaced iso serviceName db polls := by
  induction polls using List.reverseRecOn with
  | nil =>
    simp only [AlertsSpaced, alertTimes, eventsOf, List.append_nil]
    cases (db.states serviceName).bind ServiceHealthState.lastAlertedAt <;> simp
  | append_singleton polls c ih =>
    rw [AlertsSpaced, alertTimes_append_one]
    split_ifs with h
    · obtain ⟨-, hcool⟩ := (dispatched_run_iff iso serviceName db polls c).mp h
      refine List.isChain_append.mpr ⟨ih, List.isChain_singleton _, fun last hlast next hnext => ?_⟩
      obtain rfl : next = c.alertAt := by simpa using hnext.symm
      exact hcool last hlast
    · rw [List.append_nil]
      exact ih

/-- Consecutive alerts are 15 minutes apart, the alerts are the first polls of the red
    episodes that begin 15 minutes or more after the last alert, and every notice of an
    alert is enqueued. -/
theorem healthAlerts_spaced_and_exact (polls : List Poll) :
    AlertsSpaced iso serviceName db polls ∧
    ∀ pre c post, polls = pre ++ c :: post →
      ((run (HealthDb.step iso serviceName) db pre).dispatched iso serviceName c = true ↔
        BeginsEpisode serviceName db pre c ∧ CooledDown iso serviceName db pre c) ∧
      ((run (HealthDb.step iso serviceName) db pre).dispatched iso serviceName c = true →
        ∀ n ∈ alertNotices iso serviceName
            (upsertState (run (HealthDb.step iso serviceName) db pre) serviceName c.probe
              c.checkedAt).1 c.alertAt c.tables c.admins,
          (run (HealthDb.step iso serviceName) db (pre ++ [c])).queue.Taken n.key) := by
  refine ⟨alertsSpaced iso serviceName db polls, fun pre c post _ => ⟨?_, fun h n hn => ?_⟩⟩
  · exact dispatched_run_iff iso serviceName db pre c
  · rw [run_append]
    exact queue_of_dispatched h n hn

/-- An episode that begins inside the cooldown has no alert. -/
theorem episode_in_cooldown {pre episode post : List Poll} {first : Poll} {rest : List Poll}
    (he : IsEpisode serviceName db pre episode post) (hf : episode = first :: rest)
    (hcool : ¬ CooledDown iso serviceName db pre first) {before after : List Poll} {c : Poll}
    (hc : episode = before ++ c :: after) :
    (run (HealthDb.step iso serviceName) db (pre ++ before)).dispatched iso serviceName c =
      false := by
  rw [← Bool.not_eq_true, dispatched_run_iff]
  rintro ⟨⟨-, hbegins⟩, hcooled⟩
  rcases List.eq_nil_or_concat before with rfl | ⟨before, b, rfl⟩
  · rw [List.append_nil] at hcooled
    obtain ⟨rfl, -⟩ := List.cons.inj (hf.symm.trans hc)
    exact hcool hcooled
  · rw [List.concat_eq_append, ← List.append_assoc, statusAfter_append_one] at hbegins
    have hred := he.red b (by rw [hc]; simp)
    exact hbegins (by rw [hred])

end

/-- Red at 0, green after one minute, red from the second minute on and still at the
    twentieth: one alert, for the first episode. -/
theorem second_episode_unalerted :
    let tables : Tables := ⟨Store.empty, fun _ => none, fun _ => none, fun _ => [], fun _ => [],
      fun _ => none⟩
    let poll : HealthStatus → ℤ → Poll := fun status at_ =>
      ⟨⟨status, "", 0⟩, minutes at_, minutes at_, tables, []⟩
    let polls := [poll .red 0, poll .green 1, poll .red 2, poll .red 20]
    let db : HealthDb := ⟨fun _ => none, Queue.empty⟩
    Increasing polls ∧ ¬ EveryEpisodeAlerted ⟨fun _ => "", fun _ => ""⟩ "r2" db polls := by
  intro tables poll polls db
  refine ⟨⟨by decide, by decide⟩, fun h => ?_⟩
  let iso : Iso := ⟨fun _ => "", fun _ => ""⟩
  have he : IsEpisode "r2" db [poll .red 0, poll .green 1] [poll .red 2, poll .red 20] [] :=
    ⟨by simp [poll], by simp [statusAfter, poll, db], by simp⟩
  have htimes : alertTimes iso "r2" db [poll .red 0, poll .green 1] = [0] := by decide +kernel
  have htimes' : alertTimes iso "r2" db ([poll .red 0, poll .green 1] ++ [poll .red 2]) = [0] := by
    decide +kernel
  have hcooled : CooledDown iso "r2" db ([poll .red 0, poll .green 1] ++ [poll .red 2])
      (poll .red 20) := by
    rw [CooledDown, htimes']
    decide
  have hnot : ¬ CooledDown iso "r2" db [poll .red 0, poll .green 1] (poll .red 2) := by
    rw [CooledDown, htimes]
    decide
  obtain ⟨before, c, rest, heq, hd⟩ :=
    h _ _ _ rfl he ⟨[poll .red 2], poll .red 20, [], rfl, hcooled⟩
  rw [episode_in_cooldown iso "r2" db he rfl hnot heq] at hd
  cases hd

end TempleConsign.HealthAlerts
