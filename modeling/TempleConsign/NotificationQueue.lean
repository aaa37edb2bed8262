import Mathlib.Data.List.Sort
import TempleConsign.Database
import TempleConsign.Lib.Run
import TempleConsign.Payload

/-!
# The notification queue

Model of `src/api/services/notification_service.py` (`enqueue`,
`claim_next_batch`, `process_job`) and of the worker loop of
`src/scripts/notification_worker.py`. A claim is a transaction that selects
and locks due rows, marks them and commits; the worker then dispatches the
detached copies one by one, each in its own transaction. The steps of any
number of claims interleave, and each dispatch has an arbitrary outcome.

Results:
* `retryDelay_pos`, `retryDelay_mono`: the backoff table.
* `processJob_cases`: what one attempt makes of a job.
* `queueStep_cases`: what a step does to the table and the claims.
* `queueStep_inv`: claims stay disjoint and cover the processing jobs.
-/

namespace TempleConsign

open ServiceLib

/-! ## Jobs -/

/-- `chk_notification_status` (migration 006 line 122). -/
inductive JobStatus
  | pending
  | processing
  | delivered
  | failed
  | skipped
  deriving DecidableEq

def JobStatus.isFinal : JobStatus → Bool
  | .delivered | .failed | .skipped => true
  | .pending | .processing => false

/-- `NotificationJob` (`src/api/database/models.py` line 324). -/
structure Job where
  idempotencyKey : String
  userId : Option ℕ
  channel : String
  template : String
  payload : Payload
  status : JobStatus
  attempts : ℕ
  maxAttempts : ℕ
  scheduledFor : ℤ
  processedAt : Option ℤ
  lastError : Option String
  deriving DecidableEq

/-- `_BACKOFF_SECONDS` (line 41). -/
def backoffSeconds : List ℤ := [30, 120, 600, 3600, 21600]

/-- The channels that `enqueue` and `process_job` know. -/
def channels : List String := ["email", "sms", "slack", "apns"]

/-- The arguments of `enqueue` and the `max_attempts` of the new row, which the
    column default sets (5 in the schema). -/
structure EnqueueRequest where
  idempotencyKey : String
  userId : Option ℕ
  channel : String
  template : String
  payload : Payload
  scheduledFor : Option ℤ
  maxAttempts : ℕ
  maxAttempts_pos : 1 ≤ maxAttempts

/-- The column default of `max_attempts`. -/
def defaultMaxAttempts : ℕ := 5

theorem defaultMaxAttempts_pos : 1 ≤ defaultMaxAttempts := by decide

/-- The row `enqueue` inserts. -/
def EnqueueRequest.row (r : EnqueueRequest) (now : ℤ) : Job where
  idempotencyKey := r.idempotencyKey
  userId := r.userId
  channel := r.channel
  template := r.template
  payload := r.payload
  status := .pending
  attempts := 0
  maxAttempts := r.maxAttempts
  scheduledFor := r.scheduledFor.getD now
  processedAt := none
  lastError := none

/-- `enqueue` (line 44): the `ValueError` carries its text, `none` is a
    collision of the idempotency key. -/
def enqueue (now : ℤ) (r : EnqueueRequest) : Svc (Store Job) String (Option Job) := do
  Svc.require (r.channel ∈ channels) ("Unknown notification channel: " ++ r.channel)
  let t ← get
  if t.exists? fun _ j => j.idempotencyKey = r.idempotencyKey then pure none
  else do
    modify fun t => t.create (r.row now)
    pure (some (r.row now))

/-! ## One attempt -/

/-- The statuses that a channel's dispatcher returns. -/
inductive Dispatched
  | delivered
  | skipped
  | failed

def Dispatched.status : Dispatched → JobStatus
  | .delivered => .delivered
  | .skipped => .skipped
  | .failed => .failed

/-- What a channel's dispatcher does: it returns a status, with the error it
    wrote on the job if any, or raises an exception of the given text. -/
inductive Outcome
  | returned (status : Dispatched) (lastError : Option String)
  | raised (error : String)

def Outcome.isRaised : Outcome → Bool
  | .raised _ => true
  | .returned _ _ => false

/-- The `try` of `process_job` (lines 163-181): the new status, `none` for
    "retry", and the job's `last_error`. -/
def dispatch (outcome : Outcome) (job : Job) : Option JobStatus × Option String :=
  if job.channel ∈ channels then
    match outcome with
    | .returned status lastError => (some status.status, lastError <|> job.lastError)
    | .raised error => (none, some (String.ofList (error.toList.take 1000)))
  else (some .failed, some ("unknown channel: " ++ job.channel))

/-- The delay before the next attempt, after `attempts` of them (line 191). -/
def retryDelay (attempts : ℕ) : ℤ :=
  seconds (backoffSeconds.getD (min (attempts - 1) (backoffSeconds.length - 1)) 0)

/-- What `process_job` (line 157) makes of the detached job it was given. -/
def processJob (now : ℤ) (outcome : Outcome) (job : Job) : Job :=
  let (newStatus, lastError) := dispatch outcome job
  let job := { job with lastError := lastError, attempts := job.attempts + 1 }
  match newStatus with
  | none =>
    if job.maxAttempts ≤ job.attempts then
      { job with status := .failed, processedAt := some now }
    else
      { job with status := .pending, scheduledFor := now + retryDelay job.attempts }
  | some status => { job with status := status, processedAt := some now }

/-- The `UPDATE` of `process_job` (line 198). -/
def writeBack (t : Store Job) (id : ℕ) (job : Job) : Store Job :=
  t.modify id fun row =>
    { row with
      status := job.status
      attempts := job.attempts
      processedAt := job.processedAt
      lastError := job.lastError
      scheduledFor := job.scheduledFor }

/-! ## Claims and workers -/

/-- A worker's claim: the rows it has selected and locked, and after its commit
    the detached jobs it has still to dispatch. -/
inductive Claim
  | selected (ids : List ℕ)
  | taken (jobs : List (ℕ × Job))

def Claim.ids : Claim → List ℕ
  | .selected ids => ids
  | .taken jobs => jobs.map Prod.fst

/-- The row locks of a claim: `FOR UPDATE` holds them until the commit. -/
def Claim.locks : Claim → List ℕ
  | .selected ids => ids
  | .taken _ => []

/-- One dispatch: the job after it, as `process_job` wrote it back. -/
structure Attempt where
  job : ℕ
  now : ℤ
  outcome : Outcome
  result : Job

/-- The table, the claims so far and, to reason about it, every dispatch in
    order. -/
structure Queue where
  jobs : Store Job
  claims : Store Claim
  log : List Attempt

def Queue.empty : Queue := ⟨Store.empty, Store.empty, []⟩

/-- The `WHERE` of the claim's `SELECT`. -/
def claimable (now : ℤ) (_ : ℕ) (j : Job) : Bool := j.status = .pending && j.scheduledFor ≤ now

def Queue.locked (q : Queue) (id : ℕ) : Bool := q.claims.exists? fun _ c => id ∈ c.locks

/-- The `SELECT … FOR UPDATE SKIP LOCKED` of `claim_next_batch` (line 111). -/
def Queue.lockBatch (q : Queue) (now : ℤ) (limit : ℕ) : List ℕ :=
  (((q.jobs.select (claimable now)).filter fun e => !q.locked e.1).insertionSort
    fun a b => a.2.scheduledFor ≤ b.2.scheduledFor).map Prod.fst |>.take limit

/-- The `UPDATE … WHERE id = ANY(:ids)` of `claim_next_batch` (line 124). -/
def markProcessing (t : Store Job) (ids : List ℕ) : Store Job :=
  ids.foldl (fun t id => t.modify id fun j => { j with status := .processing }) t

/-- The steps of the queue. `select` and `commit` are the two halves of
    `claim_next_batch`, between which other transactions run; `abort` is a claim
    that is rolled back; `process` is one `process_job` with its commit, on the
    next job of a claim. A worker that dies takes no more steps. -/
inductive QueueOp
  | enqueue (now : ℤ) (r : EnqueueRequest)
  | select (now : ℤ) (limit : ℕ)
  | commit (claim : ℕ)
  | abort (claim : ℕ)
  | process (claim : ℕ) (now : ℤ) (outcome : Outcome)

def queueStep (q : Queue) : QueueOp → Queue
  | .enqueue now r =>
    { q with jobs := (Svc.request (fun before _ => before) (enqueue now r) q.jobs).2 }
  | .select now limit => { q with claims := q.claims.create (.selected (q.lockBatch now limit)) }
  | .commit c =>
    match q.claims.get? c with
    | some (.selected ids) =>
      let jobs := markProcessing q.jobs ids
      { q with
        jobs := jobs
        claims := q.claims.modify c fun _ => .taken (jobs.select fun id _ => id ∈ ids) }
    | _ => q
  | .abort c =>
    match q.claims.get? c with
    | some (.selected _) => { q with claims := q.claims.modify c fun _ => .taken [] }
    | _ => q
  | .process c now outcome =>
    match q.claims.get? c with
    | some (.taken ((id, job) :: rest)) =>
      let result := processJob now outcome job
      { jobs := writeBack q.jobs id result
        claims := q.claims.modify c fun _ => .taken rest
        log := q.log ++ [⟨id, now, outcome, result⟩] }
    | _ => q

/-! ## The attempt -/

/-- The table has no gap: every retry waits a positive time. -/
theorem retryDelay_pos (n : ℕ) : 0 < retryDelay n := by
  have hpos : ∀ i : Fin 5, 0 < seconds (backoffSeconds.getD i 0) := by decide
  have hlen : backoffSeconds.length - 1 = 4 := rfl
  unfold retryDelay
  rw [hlen]
  exact hpos ⟨min (n - 1) 4, by omega⟩

theorem retryDelay_mono {m n : ℕ} (h : m ≤ n) : retryDelay m ≤ retryDelay n := by
  have hmono : ∀ i j : Fin 5, i ≤ j →
      seconds (backoffSeconds.getD i 0) ≤ seconds (backoffSeconds.getD j 0) := by decide
  have hlen : backoffSeconds.length - 1 = 4 := rfl
  unfold retryDelay
  rw [hlen]
  exact hmono ⟨min (m - 1) 4, by omega⟩ ⟨min (n - 1) 4, by omega⟩
    (Fin.mk_le_mk.mpr (by omega))

theorem processJob_returned (now : ℤ) (status : Dispatched) (lastError : Option String) {job : Job}
    (hch : job.channel ∈ channels) :
    processJob now (.returned status lastError) job =
      { job with
        lastError := lastError <|> job.lastError
        attempts := job.attempts + 1
        status := status.status
        processedAt := some now } := by
  simp only [processJob, dispatch, if_pos hch]

theorem processJob_raised (now : ℤ) (error : String) {job : Job} (hch : job.channel ∈ channels) :
    processJob now (.raised error) job =
      if job.maxAttempts ≤ job.attempts + 1 then
        { job with
          lastError := some (String.ofList (error.toList.take 1000))
          attempts := job.attempts + 1
          status := .failed
          processedAt := some now }
      else
        { job with
          lastError := some (String.ofList (error.toList.take 1000))
          attempts := job.attempts + 1
          status := .pending
          scheduledFor := now + retryDelay (job.attempts + 1) } := by
  simp only [processJob, dispatch, if_pos hch]

/-- One attempt counts itself, keeps what identifies the job, and retries
    exactly when the dispatch raised and attempts are left. -/
theorem processJob_cases (now : ℤ) (o : Outcome) {job : Job} (hch : job.channel ∈ channels) :
    (processJob now o job).attempts = job.attempts + 1 ∧
    (processJob now o job).maxAttempts = job.maxAttempts ∧
    (processJob now o job).channel = job.channel ∧
    ((o.isRaised = true ∧ job.attempts + 1 < job.maxAttempts ∧
        (processJob now o job).status = .pending ∧
        (processJob now o job).scheduledFor = now + retryDelay (job.attempts + 1)) ∨
      (o.isRaised = true ∧ job.maxAttempts ≤ job.attempts + 1 ∧
        (processJob now o job).status = .failed) ∨
      (o.isRaised = false ∧ (processJob now o job).status.isFinal = true)) := by
  cases o with
  | returned status lastError =>
    rw [processJob_returned now status lastError hch]
    exact ⟨rfl, rfl, rfl, Or.inr (Or.inr ⟨rfl, by cases status <;> rfl⟩)⟩
  | raised error =>
    rw [processJob_raised now error hch]
    split_ifs with hmax
    · exact ⟨rfl, rfl, rfl, Or.inr (Or.inl ⟨rfl, hmax, rfl⟩)⟩
    · exact ⟨rfl, rfl, rfl, Or.inl ⟨rfl, by omega, rfl, rfl⟩⟩

/-- The update writes every field that the attempt changed. -/
theorem get?_writeBack {t : Store Job} {id : ℕ} {job : Job} (h : t.get? id = some job) (now : ℤ)
    (o : Outcome) (k : ℕ) :
    (writeBack t id (processJob now o job)).get? k =
      if k = id then some (processJob now o job) else t.get? k := by
  unfold writeBack
  rw [Store.get?_modify]
  split_ifs with hk
  · rw [hk, h]
    simp only [Option.map_some, processJob]
    congr 1
    split
    · split_ifs <;> rfl
    · rfl
  · rfl

theorem get?_markProcessing (t : Store Job) (ids : List ℕ) (k : ℕ) :
    (markProcessing t ids).get? k =
      if k ∈ ids then (t.get? k).map fun j => { j with status := .processing } else t.get? k := by
  unfold markProcessing
  induction ids generalizing t with
  | nil => simp
  | cons id ids ih =>
    rw [List.foldl_cons, ih, Store.get?_modify]
    by_cases hk : k = id
    · subst hk
      simp only [List.mem_cons_self, if_true]
      split_ifs with hmem
      · rw [Option.map_map]; rfl
      · rfl
    · simp [hk]

/-! ## Steps -/

variable {q : Queue}

/-- A step is an insert, one of the four moves of a claim, or nothing. -/
theorem queueStep_cases (q : Queue) (op : QueueOp) :
    queueStep q op = q ∨
    (∃ now r, r.channel ∈ channels ∧
      queueStep q op = { q with jobs := q.jobs.create (EnqueueRequest.row r now) }) ∨
    (∃ now limit, queueStep q op =
      { q with claims := q.claims.create (.selected (q.lockBatch now limit)) }) ∨
    (∃ c ids, q.claims.get? c = some (.selected ids) ∧ queueStep q op =
      { q with
        jobs := markProcessing q.jobs ids
        claims := q.claims.modify c fun _ =>
          .taken ((markProcessing q.jobs ids).select fun id _ => id ∈ ids) }) ∨
    (∃ c ids, q.claims.get? c = some (.selected ids) ∧ queueStep q op =
      { q with claims := q.claims.modify c fun _ => .taken [] }) ∨
    (∃ c now o id job rest, q.claims.get? c = some (.taken ((id, job) :: rest)) ∧
      queueStep q op =
        { jobs := writeBack q.jobs id (processJob now o job)
          claims := q.claims.modify c fun _ => .taken rest
          log := q.log ++ [⟨id, now, o, processJob now o job⟩] }) := by
  cases op with
  | enqueue now r =>
    rcases Svc.request_cases (fun before _ => before) (enqueue now r) q.jobs with
      ⟨a, t', h, hreq⟩ | ⟨e, t', -, hreq⟩
    · simp only [queueStep, hreq]
      simp only [enqueue, Svc.returns_require_bind, Svc.returns_get_bind, Svc.returns_ite,
        Svc.returns_modify_bind, Svc.returns_pure] at h
      obtain ⟨hch, ⟨-, -, rfl⟩ | ⟨-, -, rfl⟩⟩ := h
      · exact Or.inl rfl
      · exact Or.inr (Or.inl ⟨now, r, hch, rfl⟩)
    · left
      simp only [queueStep, hreq]
  | select now limit => exact Or.inr (Or.inr (Or.inl ⟨now, limit, rfl⟩))
  | commit c =>
    simp only [queueStep]
    split
    · next ids h => exact Or.inr (Or.inr (Or.inr (Or.inl ⟨c, ids, h, rfl⟩)))
    · exact Or.inl rfl
  | abort c =>
    simp only [queueStep]
    split
    · next ids h => exact Or.inr (Or.inr (Or.inr (Or.inr (Or.inl ⟨c, ids, h, rfl⟩))))
    · exact Or.inl rfl
  | process c now o =>
    simp only [queueStep]
    split
    · next id job rest h =>
      exact Or.inr (Or.inr (Or.inr (Or.inr (Or.inr ⟨c, now, o, id, job, rest, h, rfl⟩))))
    · exact Or.inl rfl

/-! ## Claims -/

/-- What holds between the table and the claims. -/
structure QueueInv (q : Queue) : Prop where
  /-- A job has attempts left until it is final. -/
  row : ∀ id j, q.jobs.get? id = some j → j.channel ∈ channels ∧ j.attempts ≤ j.maxAttempts ∧
    (j.status.isFinal = false → j.attempts < j.maxAttempts)
  /-- A row that an open claim has locked is pending. -/
  selected : ∀ c ids, q.claims.get? c = some (.selected ids) →
    ids.Nodup ∧ ∀ id ∈ ids, ∃ j, q.jobs.get? id = some j ∧ j.status = .pending
  /-- A detached job is the row itself, and the row is processing. -/
  taken : ∀ c jobs, q.claims.get? c = some (.taken jobs) →
    (jobs.map Prod.fst).Nodup ∧
      ∀ e ∈ jobs, q.jobs.get? e.1 = some e.2 ∧ e.2.status = .processing
  /-- No two claims hold one job. -/
  disjoint : q.claims.Pairwise fun a b => List.Disjoint a.ids b.ids
  /-- Every processing job is in a claim. -/
  covered : ∀ id j, q.jobs.get? id = some j → j.status = .processing →
    ∃ c jobs, q.claims.get? c = some (.taken jobs) ∧ id ∈ jobs.map Prod.fst

theorem queueInv_empty : QueueInv Queue.empty where
  row := fun id j h => by simp [Queue.empty] at h
  selected := fun c ids h => by simp [Queue.empty] at h
  taken := fun c jobs h => by simp [Queue.empty] at h
  disjoint := Store.pairwise_empty
  covered := fun id j h => by simp [Queue.empty] at h

theorem disjoint_symm (a b : Claim) (h : List.Disjoint a.ids b.ids) : List.Disjoint b.ids a.ids :=
  fun _ hb ha => h ha hb

theorem mem_lockBatch {now : ℤ} {limit id : ℕ} (h : id ∈ q.lockBatch now limit) :
    q.locked id = false ∧
      ∃ j, q.jobs.get? id = some j ∧ j.status = .pending ∧ j.scheduledFor ≤ now := by
  obtain ⟨⟨id', j⟩, he, rfl⟩ := List.mem_map.mp (List.mem_of_mem_take h)
  rw [List.mem_insertionSort, List.mem_filter, Store.mem_select] at he
  obtain ⟨⟨hj, hc⟩, hl⟩ := he
  simp only [claimable, Bool.and_eq_true, decide_eq_true_eq] at hc
  exact ⟨by simpa using hl, j, hj, hc.1, hc.2⟩

theorem lockBatch_nodup (q : Queue) (now : ℤ) (limit : ℕ) : (q.lockBatch now limit).Nodup := by
  have hnd := Store.select_nodup q.jobs (claimable now)
  have hf : (((q.jobs.select (claimable now)).filter fun e => !q.locked e.1).map Prod.fst).Nodup :=
    hnd.sublist (List.filter_sublist.map _)
  unfold Queue.lockBatch
  refine List.Nodup.sublist (List.take_sublist _ _) ?_
  exact ((List.perm_insertionSort _ _).map Prod.fst).nodup_iff.mpr hf

/-- A locked batch is disjoint from every claim. -/
theorem lockBatch_disjoint (hi : QueueInv q) (now : ℤ) (limit : ℕ) {c : ℕ} {cl : Claim}
    (hc : q.claims.get? c = some cl) : List.Disjoint (q.lockBatch now limit) cl.ids := by
  intro id hid hcl
  obtain ⟨hl, j, hj, hp, -⟩ := mem_lockBatch hid
  cases cl with
  | selected ids =>
    have : q.locked id = true := Store.exists?_iff.mpr ⟨c, _, hc, decide_eq_true hcl⟩
    rw [hl] at this
    cases this
  | taken jobs =>
    obtain ⟨e, he, rfl⟩ := List.mem_map.mp hcl
    obtain ⟨hrow, hproc⟩ := (hi.taken c jobs hc).2 e he
    rw [hj] at hrow
    cases hrow
    rw [hp] at hproc
    cases hproc

theorem inv_enqueue (hi : QueueInv q) (now : ℤ) {r : EnqueueRequest} (hch : r.channel ∈ channels) :
    QueueInv { q with jobs := q.jobs.create (r.row now) } := by
  have hpos := r.maxAttempts_pos
  refine ⟨fun id j hj => ?_, fun c ids hc => ?_, fun c jobs hc => ?_, hi.disjoint,
    fun id j hj hp => ?_⟩
  · rw [Store.get?_create] at hj
    split_ifs at hj
    · cases hj
      exact ⟨hch, Nat.zero_le _, fun _ => hpos⟩
    · exact hi.row id j hj
  · obtain ⟨hnd, hrows⟩ := hi.selected c ids hc
    refine ⟨hnd, fun id hid => ?_⟩
    obtain ⟨j, hj, hp⟩ := hrows id hid
    exact ⟨j, Store.get?_create_of_some hj, hp⟩
  · obtain ⟨hnd, hrows⟩ := hi.taken c jobs hc
    exact ⟨hnd, fun e he => ⟨Store.get?_create_of_some (hrows e he).1, (hrows e he).2⟩⟩
  · rw [Store.get?_create] at hj
    split_ifs at hj
    · cases hj
      cases hp
    · exact hi.covered id j hj hp

theorem inv_select (hi : QueueInv q) (now : ℤ) (limit : ℕ) :
    QueueInv { q with claims := q.claims.create (.selected (q.lockBatch now limit)) } := by
  refine ⟨hi.row, fun c ids hc => ?_, fun c jobs hc => ?_, ?_, fun id j hj hp => ?_⟩
  · rw [Store.get?_create] at hc
    split_ifs at hc
    · cases hc
      refine ⟨lockBatch_nodup q now limit, fun id hid => ?_⟩
      obtain ⟨-, j, hj, hp, -⟩ := mem_lockBatch hid
      exact ⟨j, hj, hp⟩
    · exact hi.selected c ids hc
  · rw [Store.get?_create] at hc
    split_ifs at hc
    · cases hc
    · exact hi.taken c jobs hc
  · exact (Store.pairwise_create_iff disjoint_symm hi.disjoint).mpr fun c cl hc =>
      lockBatch_disjoint hi now limit hc
  · obtain ⟨c, jobs, hc, hid⟩ := hi.covered id j hj hp
    exact ⟨c, jobs, Store.get?_create_of_some hc, hid⟩

/-- Two claims that hold one job are the same claim. -/
theorem QueueInv.same_claim (hi : QueueInv q) {c c' : ℕ} {a b : Claim} {id : ℕ}
    (ha : q.claims.get? c = some a) (hb : q.claims.get? c' = some b) (hia : id ∈ a.ids)
    (hib : id ∈ b.ids) : c = c' := by
  by_contra hne
  exact hi.disjoint c c' a b hne ha hb hia hib

/-- A claim that gives jobs up stays disjoint from the others. -/
theorem QueueInv.shrink (hi : QueueInv q) {c : ℕ} {a b : Claim} (ha : q.claims.get? c = some a)
    (hsub : ∀ id ∈ b.ids, id ∈ a.ids) :
    (q.claims.modify c fun _ => b).Pairwise fun a b => List.Disjoint a.ids b.ids := by
  refine hi.disjoint.modify disjoint_symm fun a' b' ha' hdis id hid => ?_
  rw [ha] at ha'
  cases ha'
  exact hdis (hsub id hid)

/-- Claim `c'` after claim `c` was changed. -/
theorem get?_claim {c c' : ℕ} {a b cl : Claim} (ha : q.claims.get? c = some a)
    (h : (q.claims.modify c fun _ => b).get? c' = some cl) :
    (c' = c ∧ cl = b) ∨ (c' ≠ c ∧ q.claims.get? c' = some cl) := by
  rw [Store.get?_modify] at h
  split_ifs at h with hc
  · rw [hc, ha] at h
    cases h
    exact Or.inl ⟨hc, rfl⟩
  · exact Or.inr ⟨hc, h⟩

/-- A selected claim is not the one that covers a processing job. -/
theorem claim_ne {c c' : ℕ} {ids : List ℕ} {jobs : List (ℕ × Job)}
    (hc : q.claims.get? c = some (.selected ids)) (hc' : q.claims.get? c' = some (.taken jobs)) :
    c' ≠ c := by
  rintro rfl
  rw [hc] at hc'
  cases hc'

theorem inv_commit (hi : QueueInv q) {c : ℕ} {ids : List ℕ}
    (hc : q.claims.get? c = some (.selected ids)) :
    QueueInv { q with
      jobs := markProcessing q.jobs ids
      claims := q.claims.modify c fun _ =>
        .taken ((markProcessing q.jobs ids).select fun id _ => id ∈ ids) } := by
  obtain ⟨-, hpend⟩ := hi.selected c ids hc
  -- the rows of any other claim are not among those marked
  have hother : ∀ c' cl, c' ≠ c → q.claims.get? c' = some cl → ∀ id ∈ cl.ids,
      (markProcessing q.jobs ids).get? id = q.jobs.get? id := by
    intro c' cl hne hcl id hid
    rw [get?_markProcessing, if_neg]
    exact fun hin => hne (hi.same_claim hcl hc hid hin)
  have hmarked : ∀ id j, id ∈ ids → (markProcessing q.jobs ids).get? id = some j →
      j.status = .processing ∧ j.channel ∈ channels ∧ j.attempts < j.maxAttempts := by
    intro id j hid hj
    obtain ⟨j0, hj0, hp⟩ := hpend id hid
    rw [get?_markProcessing, if_pos hid, hj0] at hj
    cases hj
    obtain ⟨hch, -, hlt⟩ := hi.row id j0 hj0
    exact ⟨rfl, hch, hlt (by rw [hp]; rfl)⟩
  refine ⟨fun id j hj => ?_, fun c' ids' hc' => ?_, fun c' jobs' hc' => ?_, ?_,
    fun id j hj hp => ?_⟩
  · by_cases hid : id ∈ ids
    · obtain ⟨-, hch, hlt⟩ := hmarked id j hid hj
      exact ⟨hch, hlt.le, fun _ => hlt⟩
    · rw [get?_markProcessing, if_neg hid] at hj
      exact hi.row id j hj
  · rcases get?_claim hc hc' with ⟨-, h⟩ | ⟨hne, hcl⟩
    · cases h
    · obtain ⟨hnd, hrows⟩ := hi.selected c' ids' hcl
      refine ⟨hnd, fun id hid => ?_⟩
      simp only [hother c' _ hne hcl id hid]
      exact hrows id hid
  · rcases get?_claim hc hc' with ⟨-, h⟩ | ⟨hne, hcl⟩
    · cases h
      refine ⟨Store.select_nodup _ _, fun e he => ?_⟩
      obtain ⟨hrow, hin⟩ := Store.mem_select.mp he
      exact ⟨hrow, (hmarked e.1 e.2 (of_decide_eq_true hin) hrow).1⟩
    · obtain ⟨hnd, hrows⟩ := hi.taken c' jobs' hcl
      refine ⟨hnd, fun e he => ?_⟩
      simp only [hother c' _ hne hcl e.1 (List.mem_map.mpr ⟨e, he, rfl⟩)]
      exact hrows e he
  · refine hi.shrink hc fun id hid => ?_
    obtain ⟨e, he, rfl⟩ := List.mem_map.mp hid
    exact of_decide_eq_true (Store.mem_select.mp he).2
  · by_cases hid : id ∈ ids
    · refine ⟨c, _, by rw [Store.get?_modify_self, hc]; rfl, List.mem_map.mpr ⟨(id, j), ?_, rfl⟩⟩
      exact Store.mem_select.mpr ⟨hj, decide_eq_true hid⟩
    · rw [get?_markProcessing, if_neg hid] at hj
      obtain ⟨c', jobs', hc', hin⟩ := hi.covered id j hj hp
      have hne := claim_ne hc hc'
      exact ⟨c', jobs', (Store.get?_modify_ne _ _ hne).trans hc', hin⟩

theorem inv_abort (hi : QueueInv q) {c : ℕ} {ids : List ℕ}
    (hc : q.claims.get? c = some (.selected ids)) :
    QueueInv { q with claims := q.claims.modify c fun _ => .taken [] } := by
  refine ⟨hi.row, fun c' ids' hc' => ?_, fun c' jobs' hc' => ?_, ?_, fun id j hj hp => ?_⟩
  · rcases get?_claim hc hc' with ⟨-, h⟩ | ⟨-, hcl⟩
    · cases h
    · exact hi.selected c' ids' hcl
  · rcases get?_claim hc hc' with ⟨-, h⟩ | ⟨-, hcl⟩
    · cases h
      exact ⟨List.nodup_nil, fun e he => absurd he List.not_mem_nil⟩
    · exact hi.taken c' jobs' hcl
  · exact hi.shrink hc fun id hid => absurd hid List.not_mem_nil
  · obtain ⟨c', jobs', hc', hin⟩ := hi.covered id j hj hp
    have hne : c' ≠ c := by
      rintro rfl
      rw [hc] at hc'
      cases hc'
    exact ⟨c', jobs', (Store.get?_modify_ne _ _ hne).trans hc', hin⟩

theorem inv_process (hi : QueueInv q) {c id : ℕ} {job : Job} {rest : List (ℕ × Job)}
    (hc : q.claims.get? c = some (.taken ((id, job) :: rest))) (now : ℤ) (o : Outcome) :
    QueueInv
      { jobs := writeBack q.jobs id (processJob now o job)
        claims := q.claims.modify c fun _ => .taken rest
        log := q.log ++ [⟨id, now, o, processJob now o job⟩] } := by
  obtain ⟨hnd, hrows⟩ := hi.taken c _ hc
  obtain ⟨hjob, hproc⟩ := hrows (id, job) List.mem_cons_self
  obtain ⟨hch, hle, hlt⟩ := hi.row id job hjob
  have hleft := hlt (by rw [hproc]; rfl)
  obtain ⟨hatt, hmax, hch', hcase⟩ := processJob_cases now o hch
  have hget := get?_writeBack hjob now o
  have hrest : ∀ e ∈ rest, e.1 ≠ id := by
    intro e he heq
    rw [List.map_cons, List.nodup_cons] at hnd
    exact hnd.1 (List.mem_map.mpr ⟨e, he, heq⟩)
  -- the rows of any other claim are not the one written
  have hother : ∀ c' cl, c' ≠ c → q.claims.get? c' = some cl → ∀ k ∈ cl.ids, k ≠ id := by
    rintro c' cl hne hcl k hk rfl
    exact hne (hi.same_claim hcl hc hk List.mem_cons_self)
  refine ⟨fun k j hj => ?_, fun c' ids' hc' => ?_, fun c' jobs' hc' => ?_, ?_,
    fun k j hj hp => ?_⟩
  · rw [hget] at hj
    split_ifs at hj
    · cases hj
      rw [hch', hatt, hmax]
      refine ⟨hch, hleft, fun hfin => ?_⟩
      rcases hcase with ⟨-, h, -⟩ | ⟨-, -, h⟩ | ⟨-, h⟩
      · exact h
      · rw [h] at hfin; cases hfin
      · rw [h] at hfin; cases hfin
    · exact hi.row k j hj
  · rcases get?_claim hc hc' with ⟨-, h⟩ | ⟨hne, hcl⟩
    · cases h
    · obtain ⟨hnd', hrows'⟩ := hi.selected c' ids' hcl
      refine ⟨hnd', fun k hk => ?_⟩
      simp only [hget k, if_neg (hother c' _ hne hcl k hk)]
      exact hrows' k hk
  · rcases get?_claim hc hc' with ⟨-, h⟩ | ⟨hne, hcl⟩
    · cases h
      rw [List.map_cons, List.nodup_cons] at hnd
      refine ⟨hnd.2, fun e he => ?_⟩
      simp only [hget e.1, if_neg (hrest e he)]
      exact hrows e (List.mem_cons_of_mem _ he)
    · obtain ⟨hnd', hrows'⟩ := hi.taken c' jobs' hcl
      refine ⟨hnd', fun e he => ?_⟩
      have hk : e.1 ∈ (Claim.taken jobs').ids := List.mem_map.mpr ⟨e, he, rfl⟩
      simp only [hget e.1, if_neg (hother c' _ hne hcl e.1 hk)]
      exact hrows' e he
  · exact hi.shrink hc fun k hk => List.mem_cons_of_mem _ hk
  · rw [hget] at hj
    split_ifs at hj with hk
    · cases hj
      rcases hcase with ⟨-, -, h, -⟩ | ⟨-, -, h⟩ | ⟨-, h⟩
      · rw [h] at hp; cases hp
      · rw [h] at hp; cases hp
      · rw [hp] at h; cases h
    · obtain ⟨c', jobs', hc', hin⟩ := hi.covered k j hj hp
      by_cases hcc : c' = c
      · subst hcc
        rw [hc] at hc'
        cases hc'
        rw [List.map_cons, List.mem_cons] at hin
        exact ⟨c', rest, by rw [Store.get?_modify_self, hc]; rfl, hin.resolve_left hk⟩
      · exact ⟨c', jobs', (Store.get?_modify_ne _ _ hcc).trans hc', hin⟩

/-- Every step keeps the table and the claims together. -/
theorem queueStep_inv (op : QueueOp) (hi : QueueInv q) : QueueInv (queueStep q op) := by
  rcases queueStep_cases q op with h | ⟨now, r, hch, h⟩ | ⟨now, limit, h⟩ | ⟨c, ids, hc, h⟩ |
    ⟨c, ids, hc, h⟩ | ⟨c, now, o, id, job, rest, hc, h⟩
  · rw [h]; exact hi
  · rw [h]; exact inv_enqueue hi now hch
  · rw [h]; exact inv_select hi now limit
  · rw [h]; exact inv_commit hi hc
  · rw [h]; exact inv_abort hi hc
  · rw [h]; exact inv_process hi hc now o

end TempleConsign
