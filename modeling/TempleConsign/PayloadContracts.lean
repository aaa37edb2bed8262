import TempleConsign.ProducerPayloads

/-!
# Payloads and the fields that dispatchers require

Which runs of producers, workers and dispatchers end a job as failed because its
payload misses a field. The queue passes payloads on unchanged: complete ones
stay complete in the table and in the workers' hands.

Results:
* `outboxStep_complete`: complete notices stay complete in the queue.
* `payload_contract_iff`: exactly in which runs no job misses a field.
-/

namespace TempleConsign

open ServiceLib

variable {d : Deployment}

/-! ## The queue -/

/-- The job's payload has every field that its channel's dispatcher requires. -/
def Job.Complete (j : Job) : Prop :=
  ∀ channel : Channel, channel.value = j.channel → requiredFields channel j.payload = true

/-- What complete payloads make of the queue: the rows and the detached jobs are
    complete, and no dispatch failed because of a missing field. -/
structure QueueComplete (q : Queue) : Prop where
  rows : ∀ id j, q.jobs.get? id = some j → j.Complete
  taken : ∀ c jobs, q.claims.get? c = some (.taken jobs) → ∀ e ∈ jobs, e.2.Complete
  log : ∀ a ∈ q.log, ¬ a.outcome.missingField

variable {q : Queue}

theorem queueComplete_empty : QueueComplete Queue.empty where
  rows := fun id j h => by simp [Queue.empty] at h
  taken := fun c jobs h => by simp [Queue.empty] at h
  log := fun a h => absurd h List.not_mem_nil

theorem Channel.value_injective {c c' : Channel} (h : c.value = c'.value) : c = c' := by
  have h' := congrArg Channel.ofValue? h
  rw [Channel.ofValue?_value, Channel.ofValue?_value] at h'
  exact Option.some.inj h'

/-- A complete job is not refused. -/
theorem Job.Complete.dispatch {j : Job} (h : j.Complete) (sent : Sent) :
    ¬ (dispatchJob d sent j).missingField := by
  unfold dispatchJob
  split
  · next channel hch =>
    rw [missingField_iff]
    rintro ⟨hmissing, -⟩
    have hv : channel.value = j.channel := by
      have := List.find?_some hch
      exact of_decide_eq_true this
    rw [h channel hv] at hmissing
    cases hmissing
  · rintro ⟨channel, hm⟩
    cases hm

/-- Marking a row and writing an outcome back leave the payload alone. -/
theorem Job.Complete.of_eq {j j' : Job} (h : j.Complete) (hch : j'.channel = j.channel)
    (hp : j'.payload = j.payload) : j'.Complete := by
  intro channel hv
  rw [hp]
  exact h channel (hv.trans hch)

theorem complete_enqueue (h : QueueComplete q) (now : ℤ) {n : Notice} (hn : n.Complete) :
    QueueComplete (queueStep q (.enqueue now n.request)) := by
  rw [queueStep_enqueue]
  split_ifs
  · exact h
  · refine ⟨fun id j hj => ?_, h.taken, h.log⟩
    rw [Store.get?_create] at hj
    split_ifs at hj
    · cases hj
      intro channel hv
      rw [Channel.value_injective hv]
      exact hn
    · exact h.rows id j hj

theorem complete_enqueueAll (h : QueueComplete q) (now : ℤ) {notices : List Notice}
    (hn : AllComplete notices) : QueueComplete (enqueueAll now notices q) := by
  induction notices generalizing q with
  | nil => exact h
  | cons n rest ih =>
    have hstep := complete_enqueue h now (hn n List.mem_cons_self)
    exact ih hstep fun m hm => hn m (List.mem_cons_of_mem n hm)

theorem complete_select (h : QueueComplete q) (now : ℤ) (limit : ℕ) :
    QueueComplete (queueStep q (.select now limit)) := by
  refine ⟨h.rows, fun c jobs hc => ?_, h.log⟩
  simp only [queueStep, Store.get?_create] at hc
  split_ifs at hc
  · cases hc
  · exact h.taken c jobs hc

theorem complete_leave (h : QueueComplete q) (c : ℕ) : QueueComplete (q.leave c) := by
  refine ⟨h.rows, fun c' jobs hc => ?_, h.log⟩
  simp only [Queue.leave, Store.get?_modify] at hc
  split_ifs at hc
  · obtain ⟨-, -, hj⟩ := Option.map_eq_some_iff.mp hc
    cases hj
    exact fun e he => absurd he List.not_mem_nil
  · exact h.taken c' jobs hc

theorem complete_abort (h : QueueComplete q) (c : ℕ) :
    QueueComplete (queueStep q (.abort c)) := by
  simp only [queueStep]
  split
  · exact complete_leave h c
  · exact h

theorem complete_commit (h : QueueComplete q) (c : ℕ) :
    QueueComplete (queueStep q (.commit c)) := by
  simp only [queueStep]
  split
  · next ids hc =>
    have hrows : ∀ id j, (markProcessing q.jobs ids).get? id = some j → j.Complete := by
      intro id j hj
      rw [get?_markProcessing] at hj
      split_ifs at hj
      · obtain ⟨j0, hj0, rfl⟩ := Option.map_eq_some_iff.mp hj
        exact (h.rows id j0 hj0).of_eq rfl rfl
      · exact h.rows id j hj
    refine ⟨hrows, fun c' jobs hc' => ?_, h.log⟩
    rcases get?_claim hc hc' with ⟨-, hj⟩ | ⟨-, hcl⟩
    · cases hj
      exact fun e he => hrows e.1 e.2 (Store.mem_select.mp he).1
    · exact h.taken c' jobs hcl
  · exact h

theorem complete_process (h : QueueComplete q) (c : ℕ) (now : ℤ) (sent : Sent) :
    QueueComplete (queueStep q (.process c now (q.nextOutcome d c sent))) := by
  simp only [queueStep]
  split
  · next id job rest hc =>
    have hout : q.nextOutcome d c sent = dispatchJob d sent job := by
      simp only [Queue.nextOutcome, hc]
    have hjob := h.taken c _ hc (id, job) List.mem_cons_self
    rw [hout]
    refine ⟨fun k j hj => ?_, fun c' jobs hc' => ?_, fun a ha => ?_⟩
    · unfold writeBack at hj
      rw [Store.get?_modify] at hj
      split_ifs at hj
      · obtain ⟨j0, hj0, rfl⟩ := Option.map_eq_some_iff.mp hj
        exact (h.rows k j0 hj0).of_eq rfl rfl
      · exact h.rows k j hj
    · rcases get?_claim hc hc' with ⟨-, hj⟩ | ⟨-, hcl⟩
      · cases hj
        exact fun e he => h.taken c _ hc e (List.mem_cons_of_mem _ he)
      · exact h.taken c' jobs hcl
    · rcases List.mem_append.mp ha with ha | ha
      · exact h.log a ha
      · rw [List.mem_singleton] at ha
        subst ha
        exact hjob.dispatch sent
  · exact h

theorem complete_worker (h : QueueComplete q) (move : WorkerMove) :
    QueueComplete (workerStep q (move.op d q)) := by
  cases move with
  | select now limit => exact complete_select h now limit
  | commit c => exact complete_commit h c
  | abort c => exact complete_abort h c
  | process c now sent => exact complete_process h c now sent
  | claimLost c =>
    simp only [WorkerMove.op, workerStep]
    split
    · exact complete_leave (complete_commit h c) c
    · exact h
  | outcomeRaised c =>
    simp only [WorkerMove.op, workerStep]
    split
    · exact complete_leave h c
    · exact h
  | outcomeLost c now sent =>
    simp only [WorkerMove.op, workerStep]
    split
    · exact complete_leave (complete_process h c now sent) c
    · exact h

/-! ## Runs -/

/-- Every `enqueue` call of the step passes a complete payload. -/
def EnqueuesComplete (d : Deployment) (s : Outbox) : OutboxOp → Prop
  | .operation now o =>
    ∀ T notices, o.run d s.tables now = some (T, notices) → AllComplete notices
  | .edit _ | .worker _ => True

/-- Every operation that succeeds has texts for its notices. -/
def EnqueuesTexts (d : Deployment) (s : Outbox) : OutboxOp → Prop
  | .operation now o => (o.run d s.tables now).isSome = true → o.HasTexts d s.tables now
  | .edit _ | .worker _ => True

/-- Every job has the fields its dispatcher requires, and none has failed because
    of a missing one. -/
structure NoMissingField (s : Outbox) : Prop where
  rows : ∀ id j, s.queue.jobs.get? id = some j → j.Complete
  log : ∀ a ∈ s.queue.log, ¬ a.outcome.missingField

theorem enqueuesComplete_iff (s : Outbox) (op : OutboxOp) :
    EnqueuesComplete d s op ↔ EnqueuesTexts d s op := by
  cases op with
  | operation now o =>
    constructor
    · intro h hsome
      obtain ⟨⟨T, notices⟩, hrun⟩ := Option.isSome_iff_exists.mp hsome
      exact (Operation.run_complete_iff hrun).mp (h T notices hrun)
    · intro h T notices hrun
      have hsome : (o.run d s.tables now).isSome = true := by
        rw [hrun]
        rfl
      exact (Operation.run_complete_iff hrun).mpr (h hsome)
  | edit tables => exact Iff.rfl
  | worker move => exact Iff.rfl

theorem outboxStep_complete (s : Outbox) (op : OutboxOp) (h : QueueComplete s.queue)
    (hop : EnqueuesComplete d s op) : QueueComplete (outboxStep d s op).queue := by
  cases op with
  | operation now o =>
    simp only [outboxStep]
    split
    · next T notices hrun => exact complete_enqueueAll h now (hop T notices hrun)
    · exact h
  | edit tables => exact h
  | worker move => exact complete_worker h move

/-- **When producers and dispatchers agree**: in every run, all payloads are
    complete and no job ends as failed because of a missing field, exactly when
    every operation that succeeds has texts for its notices. -/
theorem payload_contract_iff (d : Deployment) (T : Tables) (ops : List OutboxOp) :
    (AllSteps (outboxStep d) (EnqueuesComplete d) (Outbox.start T) ops ∧
      AllStates (outboxStep d) NoMissingField (Outbox.start T) ops) ↔
    AllSteps (outboxStep d) (EnqueuesTexts d) (Outbox.start T) ops := by
  have hcongr : AllSteps (outboxStep d) (EnqueuesComplete d) (Outbox.start T) ops ↔
      AllSteps (outboxStep d) (EnqueuesTexts d) (Outbox.start T) ops :=
    allSteps_congr (I := fun _ => True) (fun _ _ _ => trivial)
      (fun s op _ => enqueuesComplete_iff s op) trivial ops
  rw [← hcongr]
  refine ⟨And.left, fun h => ⟨h, ?_⟩⟩
  have hinv := allStates_of_allSteps (P := fun s => QueueComplete s.queue)
    (fun s op => outboxStep_complete s op) (s := Outbox.start T) queueComplete_empty h
  exact hinv.mono fun s hs => ⟨hs.rows, hs.log⟩

/-- One approved record, no overrides, SMS configured. -/
def approvedRecord : Tables where
  records := Store.empty.create
    ⟨.approvedPendingEsign, some "THE-00000001", some "CAT", some "320", none⟩
  users := fun _ => none
  preferences := fun _ => none
  watchers := fun _ => []
  iosTokens := fun _ => []
  overrides := fun _ => none

def plainDeployment : Deployment := ⟨fun _ _ _ => none, "", true⟩

/-- The contract of an approved record is sent, and the worker processes the
    customer's notification. -/
def contractRun : List OutboxOp :=
  [.operation 0 (.dispatchContract "env-1"
      ⟨0, "ada@example.com", "Ada", .customer, true, by decide⟩ 0 (some "CAT") (some "320")),
    .worker (.select 0 10), .worker (.commit 0), .worker (.process 0 0 .delivered)]

/-- The customer is never told that the contract is ready to sign. -/
theorem contract_notification_fails :
    ((run (outboxStep plainDeployment) (Outbox.start approvedRecord) contractRun).queue.jobs.get?
        0).map (fun j => (j.status, j.lastError)) =
      some (.failed, some "email payload missing to_email/subject/html_body") ∧
    ¬ (AllSteps (outboxStep plainDeployment) (EnqueuesComplete plainDeployment)
        (Outbox.start approvedRecord) contractRun ∧
      AllStates (outboxStep plainDeployment) NoMissingField (Outbox.start approvedRecord)
        contractRun) := by
  constructor
  · decide +kernel
  · rintro ⟨-, h⟩
    have hrow : ((run (outboxStep plainDeployment) (Outbox.start approvedRecord)
        contractRun).queue.jobs.get? 0).map
          (fun j => decide (j.channel = "email") && !requiredFields .email j.payload) =
        some true := by decide +kernel
    obtain ⟨j, hj, hmissing⟩ := Option.map_eq_some_iff.mp hrow
    rw [Bool.and_eq_true, decide_eq_true_eq] at hmissing
    have hcomplete := h.last.rows 0 j hj .email hmissing.1.symm
    rw [hcomplete] at hmissing
    exact absurd hmissing.2 (by decide)

end TempleConsign
