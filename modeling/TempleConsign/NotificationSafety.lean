import TempleConsign.NotificationQueue

/-!
# Safety of the notification queue

The attempts of a job over whole runs of the queue: its counter counts its
dispatches, a final job is left alone, and a job whose dispatches all raise is
dispatched until its attempts are used up.

Results:
* `queueStep_job`, `queueStep_new`: what a step does to one job.
* `queueStep_logged`: the attempts counter counts the dispatches.
* `canDispatch`: a job that is not final is never stuck.
* `notification_queue`: the queue is safe in every state of every run.
-/

namespace TempleConsign

open ServiceLib

variable {q : Queue}

/-! ## Dispatches -/

/-- The dispatches of one job, in order. -/
def Queue.attemptsOf (q : Queue) (id : ℕ) : List Attempt := q.log.filter fun a => a.job = id

/-- What a step does to a job: nothing, the claim's mark, or one dispatch. -/
theorem queueStep_job (hi : QueueInv q) (op : QueueOp) {id : ℕ} {j : Job}
    (hj : q.jobs.get? id = some j) :
    ((queueStep q op).jobs.get? id = some j ∧ (queueStep q op).attemptsOf id = q.attemptsOf id) ∨
    (j.status = .pending ∧
      (queueStep q op).jobs.get? id = some { j with status := .processing } ∧
      (queueStep q op).attemptsOf id = q.attemptsOf id) ∨
    (j.status = .processing ∧ ∃ now o,
      (queueStep q op).jobs.get? id = some (processJob now o j) ∧
      (queueStep q op).attemptsOf id = q.attemptsOf id ++ [⟨id, now, o, processJob now o j⟩]) := by
  rcases queueStep_cases q op with h | ⟨now, r, hch, h⟩ | ⟨now, limit, h⟩ | ⟨c, ids, hc, h⟩ |
    ⟨c, ids, hc, h⟩ | ⟨c, now, o, id', job, rest, hc, h⟩
  · rw [h]; exact Or.inl ⟨hj, rfl⟩
  · rw [h]; exact Or.inl ⟨Store.get?_create_of_some hj, rfl⟩
  · rw [h]; exact Or.inl ⟨hj, rfl⟩
  · rw [h]
    by_cases hid : id ∈ ids
    · obtain ⟨j', hj', hp⟩ := (hi.selected c ids hc).2 id hid
      rw [hj] at hj'
      cases hj'
      refine Or.inr (Or.inl ⟨hp, ?_, rfl⟩)
      show (markProcessing q.jobs ids).get? id = _
      rw [get?_markProcessing, if_pos hid, hj]
      rfl
    · left
      refine ⟨?_, rfl⟩
      show (markProcessing q.jobs ids).get? id = _
      rw [get?_markProcessing, if_neg hid, hj]
  · rw [h]; exact Or.inl ⟨hj, rfl⟩
  · obtain ⟨hjob, hproc⟩ := (hi.taken c _ hc).2 (id', job) List.mem_cons_self
    rw [h]
    by_cases hid : id = id'
    · subst hid
      rw [hj] at hjob
      cases hjob
      refine Or.inr (Or.inr ⟨hproc, now, o, ?_, ?_⟩)
      · show (writeBack q.jobs id (processJob now o job)).get? id = _
        rw [get?_writeBack hj, if_pos rfl]
      · simp [Queue.attemptsOf]
    · left
      constructor
      · show (writeBack q.jobs id' (processJob now o job)).get? id = _
        rw [get?_writeBack hjob, if_neg hid, hj]
      · simp [Queue.attemptsOf, Ne.symm hid]

/-- A new row is as `enqueue` inserted it and has no dispatches. -/
theorem queueStep_new (hi : QueueInv q) (op : QueueOp) {id : ℕ} (hnone : q.jobs.get? id = none) :
    (queueStep q op).attemptsOf id = q.attemptsOf id ∧
    ((queueStep q op).jobs.get? id = none ∨
      ∃ now r, (queueStep q op).jobs.get? id = some (EnqueueRequest.row r now)) := by
  rcases queueStep_cases q op with h | ⟨now, r, hch, h⟩ | ⟨now, limit, h⟩ | ⟨c, ids, hc, h⟩ |
    ⟨c, ids, hc, h⟩ | ⟨c, now, o, id', job, rest, hc, h⟩
  · rw [h]; exact ⟨rfl, Or.inl hnone⟩
  · rw [h]
    refine ⟨rfl, ?_⟩
    show (q.jobs.create _).get? id = none ∨ ∃ now r, (q.jobs.create _).get? id = some _
    rw [Store.get?_create]
    split_ifs
    · exact Or.inr ⟨now, r, rfl⟩
    · exact Or.inl hnone
  · rw [h]; exact ⟨rfl, Or.inl hnone⟩
  · rw [h]
    refine ⟨rfl, Or.inl ?_⟩
    show (markProcessing q.jobs ids).get? id = none
    rw [get?_markProcessing, hnone]
    split_ifs <;> rfl
  · rw [h]; exact ⟨rfl, Or.inl hnone⟩
  · obtain ⟨hjob, -⟩ := (hi.taken c _ hc).2 (id', job) List.mem_cons_self
    have hid : id ≠ id' := by
      rintro rfl
      rw [hnone] at hjob
      cases hjob
    rw [h]
    refine ⟨by simp [Queue.attemptsOf, Ne.symm hid], Or.inl ?_⟩
    show (writeBack q.jobs id' (processJob now o job)).get? id = none
    rw [get?_writeBack hjob, if_neg hid, hnone]

/-- Every dispatch of the job so far raised. -/
def Queue.AllRaised (q : Queue) (id : ℕ) : Prop :=
  ∀ a ∈ q.attemptsOf id, a.outcome.isRaised = true

/-- What the log says of the table. -/
structure Logged (q : Queue) : Prop where
  unseen : ∀ id, q.jobs.get? id = none → q.attemptsOf id = []
  /-- The counter of a job counts its dispatches. -/
  counted : ∀ id j, q.jobs.get? id = some j →
    (q.attemptsOf id).map (fun a => a.result.attempts) = List.range' 1 j.attempts
  /-- A job whose dispatches all raised ends only by running out of attempts. -/
  raising : ∀ id j, q.jobs.get? id = some j → q.AllRaised id → j.status.isFinal = true →
    j.status = .failed ∧ j.attempts = j.maxAttempts
  /-- A dispatch wrote what `process_job` computed. -/
  written : ∀ id, ∀ a ∈ q.attemptsOf id, ∃ job, job.channel ∈ channels ∧
    a.result = processJob a.now a.outcome job

theorem logged_empty : Logged Queue.empty where
  unseen := fun _ _ => rfl
  counted := fun id j h => by simp [Queue.empty] at h
  raising := fun id j h => by simp [Queue.empty] at h
  written := fun id a h => by simp [Queue.empty, Queue.attemptsOf] at h

/-- Where a job comes from: it is new, it is an earlier one with the same
    dispatches, or it was dispatched once more. -/
theorem queueStep_back (hi : QueueInv q) (op : QueueOp) {id : ℕ} {j' : Job}
    (hj' : (queueStep q op).jobs.get? id = some j') :
    (q.jobs.get? id = none ∧ (queueStep q op).attemptsOf id = q.attemptsOf id ∧
      ∃ now r, j' = EnqueueRequest.row r now) ∨
    ∃ j, q.jobs.get? id = some j ∧
      (((j' = j ∨ j' = { j with status := .processing }) ∧
        (queueStep q op).attemptsOf id = q.attemptsOf id) ∨
       (j.status = .processing ∧ ∃ now o, j' = processJob now o j ∧
        (queueStep q op).attemptsOf id =
          q.attemptsOf id ++ [⟨id, now, o, processJob now o j⟩])) := by
  cases hq : q.jobs.get? id with
  | none =>
    obtain ⟨hatt, hnone | ⟨now, r, h⟩⟩ := queueStep_new hi op hq
    · rw [hnone] at hj'
      cases hj'
    · exact Or.inl ⟨rfl, hatt, now, r, Option.some.inj (hj'.symm.trans h)⟩
  | some j =>
    refine Or.inr ⟨j, rfl, ?_⟩
    rcases queueStep_job hi op hq with ⟨h, hatt⟩ | ⟨-, h, hatt⟩ | ⟨hp, now, o, h, hatt⟩
    · exact Or.inl ⟨Or.inl (Option.some.inj (hj'.symm.trans h)), hatt⟩
    · exact Or.inl ⟨Or.inr (Option.some.inj (hj'.symm.trans h)), hatt⟩
    · exact Or.inr ⟨hp, now, o, Option.some.inj (hj'.symm.trans h), hatt⟩

theorem queueStep_unseen (op : QueueOp) (hi : QueueInv q) (hl : Logged q) {id : ℕ}
    (hnone : (queueStep q op).jobs.get? id = none) : (queueStep q op).attemptsOf id = [] := by
  cases hq : q.jobs.get? id with
  | none => rw [(queueStep_new hi op hq).1, hl.unseen id hq]
  | some j =>
    -- no step removes a job
    have hsome : ∃ j', (queueStep q op).jobs.get? id = some j' := by
      rcases queueStep_job hi op hq with ⟨h, -⟩ | ⟨-, h, -⟩ | ⟨-, now, o, h, -⟩ <;> exact ⟨_, h⟩
    obtain ⟨j', h⟩ := hsome
    rw [h] at hnone
    cases hnone

theorem queueStep_counted (op : QueueOp) (hi : QueueInv q) (hl : Logged q) {id : ℕ} {j' : Job}
    (hj' : (queueStep q op).jobs.get? id = some j') :
    ((queueStep q op).attemptsOf id).map (fun a => a.result.attempts) =
      List.range' 1 j'.attempts := by
  rcases queueStep_back hi op hj' with ⟨hq, hatt, now, r, rfl⟩ | ⟨j, hq, ⟨hsame, hatt⟩ |
    ⟨-, now, o, rfl, hatt⟩⟩
  · rw [hatt, hl.unseen id hq]
    rfl
  · have hn : j'.attempts = j.attempts := by rcases hsame with rfl | rfl <;> rfl
    rw [hatt, hn, hl.counted id j hq]
  · -- the counter of a dispatched job goes up by one
    have hn := (processJob_cases now o (hi.row id j hq).1).1
    have hc := hl.counted id j hq
    rw [hatt, List.map_append, hc, hn, List.range'_1_concat]
    simp [hn, Nat.add_comm]

theorem queueStep_raising (op : QueueOp) (hi : QueueInv q) (hl : Logged q) {id : ℕ} {j' : Job}
    (hj' : (queueStep q op).jobs.get? id = some j') (hall : (queueStep q op).AllRaised id)
    (hfin : j'.status.isFinal = true) : j'.status = .failed ∧ j'.attempts = j'.maxAttempts := by
  rcases queueStep_back hi op hj' with ⟨-, -, now, r, rfl⟩ | ⟨j, hq, ⟨rfl | rfl, hatt⟩ |
    ⟨hp, now, o, rfl, hatt⟩⟩
  · cases hfin
  · exact hl.raising id j' hq (fun a ha => hall a (hatt ▸ ha)) hfin
  · cases hfin
  · obtain ⟨hch, -, hleft⟩ := hi.row id j hq
    obtain ⟨hn, hmax, -, hcase⟩ := processJob_cases now o hch
    have hraised : o.isRaised = true := by
      refine hall ⟨id, now, o, processJob now o j⟩ ?_
      rw [hatt]
      simp
    have hlt := hleft (by rw [hp]; rfl)
    rcases hcase with ⟨-, -, hs, -⟩ | ⟨-, hle, hs⟩ | ⟨hno, -⟩
    · rw [hs] at hfin
      cases hfin
    · exact ⟨hs, by omega⟩
    · rw [hno] at hraised
      cases hraised

theorem queueStep_written (op : QueueOp) (hi : QueueInv q) (hl : Logged q) {id : ℕ} {a : Attempt}
    (ha : a ∈ (queueStep q op).attemptsOf id) :
    ∃ job, job.channel ∈ channels ∧ a.result = processJob a.now a.outcome job := by
  cases hq : q.jobs.get? id with
  | none =>
    rw [(queueStep_new hi op hq).1] at ha
    exact hl.written id a ha
  | some j =>
    rcases queueStep_job hi op hq with ⟨-, hatt⟩ | ⟨-, -, hatt⟩ | ⟨-, now, o, -, hatt⟩
    · rw [hatt] at ha
      exact hl.written id a ha
    · rw [hatt] at ha
      exact hl.written id a ha
    · rw [hatt, List.mem_append, List.mem_singleton] at ha
      rcases ha with ha | rfl
      · exact hl.written id a ha
      · exact ⟨j, (hi.row id j hq).1, rfl⟩

theorem queueStep_logged (op : QueueOp) (hi : QueueInv q) (hl : Logged q) :
    Logged (queueStep q op) where
  unseen := fun _ hnone => queueStep_unseen op hi hl hnone
  counted := fun _ _ hj => queueStep_counted op hi hl hj
  raising := fun _ _ hj hall hfin => queueStep_raising op hi hl hj hall hfin
  written := fun _ _ ha => queueStep_written op hi hl ha

/-! ## Later states -/

/-- A step never lowers the counter and never touches a final job. -/
theorem queueStep_later (hi : QueueInv q) (op : QueueOp) {id : ℕ} {j : Job}
    (hj : q.jobs.get? id = some j) :
    ∃ j', (queueStep q op).jobs.get? id = some j' ∧ j.attempts ≤ j'.attempts ∧
      j'.maxAttempts = j.maxAttempts ∧ (j.status.isFinal = true → j' = j) := by
  rcases queueStep_job hi op hj with ⟨h, -⟩ | ⟨hp, h, -⟩ | ⟨hp, now, o, h, -⟩
  · exact ⟨j, h, le_refl _, rfl, fun _ => rfl⟩
  · refine ⟨_, h, le_refl _, rfl, fun hfin => ?_⟩
    rw [hp] at hfin
    cases hfin
  · obtain ⟨hatt, hmax, -, -⟩ := processJob_cases now o (hi.row id j hj).1
    refine ⟨_, h, by omega, hmax, fun hfin => ?_⟩
    rw [hp] at hfin
    cases hfin

theorem queueRun_inv (hi : QueueInv q) (more : List QueueOp) : QueueInv (run queueStep q more) :=
  run_induction (fun _ op h => queueStep_inv op h) hi more

theorem queueRun_later (hi : QueueInv q) (more : List QueueOp) {id : ℕ} {j : Job}
    (hj : q.jobs.get? id = some j) :
    ∃ j', (run queueStep q more).jobs.get? id = some j' ∧ j.attempts ≤ j'.attempts ∧
      j'.maxAttempts = j.maxAttempts ∧ (j.status.isFinal = true → j' = j) := by
  induction more generalizing q j with
  | nil => exact ⟨j, hj, le_refl _, rfl, fun _ => rfl⟩
  | cons op more ih =>
    obtain ⟨j1, h1, hle1, hmax1, hfin1⟩ := queueStep_later hi op hj
    obtain ⟨j2, h2, hle2, hmax2, hfin2⟩ := ih (queueStep_inv op hi) h1
    refine ⟨j2, h2, by omega, hmax2.trans hmax1, fun hfin => ?_⟩
    have h12 := hfin1 hfin
    exact (hfin2 (by rw [h12]; exact hfin)).trans h12

/-! ## Progress -/

/-- Some continuation dispatches the job once more, with the given outcome. -/
def CanDispatch (q : Queue) (id : ℕ) (j : Job) (now : ℤ) (o : Outcome) : Prop :=
  ∃ more job, job.attempts = j.attempts ∧ job.maxAttempts = j.maxAttempts ∧
    job.channel = j.channel ∧
    (run queueStep q more).jobs.get? id = some (processJob now o job) ∧
    (run queueStep q more).attemptsOf id =
      q.attemptsOf id ++ [⟨id, now, o, processJob now o job⟩]

/-- A worker reaches every job of its claim. -/
theorem canDispatch_taken (now : ℤ) (o : Outcome) {c id : ℕ} {j : Job} {jobs : List (ℕ × Job)}
    (hi : QueueInv q) (hc : q.claims.get? c = some (.taken jobs)) (hmem : (id, j) ∈ jobs) :
    CanDispatch q id j now o := by
  induction jobs generalizing q with
  | nil => exact absurd hmem List.not_mem_nil
  | cons e rest ih =>
    obtain ⟨id', job⟩ := e
    obtain ⟨hnd, hrows⟩ := hi.taken c _ hc
    have hj := (hrows (id, j) hmem).1
    have hjob := (hrows (id', job) List.mem_cons_self).1
    have hstep : queueStep q (.process c now o) =
        { jobs := writeBack q.jobs id' (processJob now o job)
          claims := q.claims.modify c fun _ => .taken rest
          log := q.log ++ [⟨id', now, o, processJob now o job⟩] } := by
      simp only [queueStep, hc]
    by_cases hid : id = id'
    · subst hid
      obtain rfl : j = job := Option.some.inj (hj.symm.trans hjob)
      refine ⟨[.process c now o], j, rfl, rfl, rfl, ?_, ?_⟩
      · rw [run_cons, run_nil, hstep]
        show (writeBack q.jobs id (processJob now o j)).get? id = _
        rw [get?_writeBack hj, if_pos rfl]
      · rw [run_cons, run_nil, hstep]
        simp [Queue.attemptsOf]
    · have hrest : (id, j) ∈ rest :=
        (List.mem_cons.mp hmem).resolve_left fun h => hid (congrArg Prod.fst h)
      have hc' : (queueStep q (.process c now o)).claims.get? c = some (.taken rest) := by
        rw [hstep]
        show (q.claims.modify c fun _ => .taken rest).get? c = _
        rw [Store.get?_modify_self, hc]
        rfl
      obtain ⟨more, job', h1, h2, h3, hget, hatt⟩ := ih (queueStep_inv _ hi) hc' hrest
      refine ⟨.process c now o :: more, job', h1, h2, h3, hget, ?_⟩
      rw [run_cons, hatt, hstep]
      simp [Queue.attemptsOf, Ne.symm hid]

theorem canDispatch_processing (now : ℤ) (o : Outcome) {id : ℕ} {j : Job} (hi : QueueInv q)
    (hj : q.jobs.get? id = some j) (hp : j.status = .processing) : CanDispatch q id j now o := by
  obtain ⟨c, jobs, hc, hin⟩ := hi.covered id j hj hp
  obtain ⟨⟨id', job⟩, he, rfl⟩ := List.mem_map.mp hin
  obtain rfl : j = job := Option.some.inj (hj.symm.trans ((hi.taken c jobs hc).2 _ he).1)
  exact canDispatch_taken now o hi hc he

/-- What can be dispatched after a step that only marks the job can be
    dispatched before it. -/
theorem CanDispatch.of_step {now : ℤ} {o : Outcome} {id : ℕ} {j : Job} (j' : Job) (op : QueueOp)
    (hatt : (queueStep q op).attemptsOf id = q.attemptsOf id) (h1 : j'.attempts = j.attempts)
    (h2 : j'.maxAttempts = j.maxAttempts) (h3 : j'.channel = j.channel)
    (h : CanDispatch (queueStep q op) id j' now o) : CanDispatch q id j now o := by
  obtain ⟨more, job, e1, e2, e3, hget, hlog⟩ := h
  refine ⟨op :: more, job, e1.trans h1, e2.trans h2, e3.trans h3, hget, ?_⟩
  rw [run_cons, hlog, hatt]

theorem canDispatch_locked (now : ℤ) (o : Outcome) {c id : ℕ} {ids : List ℕ} {j : Job}
    (hi : QueueInv q) (hj : q.jobs.get? id = some j) (hc : q.claims.get? c = some (.selected ids))
    (hid : id ∈ ids) : CanDispatch q id j now o := by
  have hstep : (queueStep q (.commit c)).jobs = markProcessing q.jobs ids ∧
      (queueStep q (.commit c)).log = q.log := by
    simp only [queueStep, hc, and_self]
  have hget : (queueStep q (.commit c)).jobs.get? id = some { j with status := .processing } := by
    rw [hstep.1, get?_markProcessing, if_pos hid, hj]
    rfl
  exact CanDispatch.of_step { j with status := .processing } (.commit c)
    (by unfold Queue.attemptsOf; rw [hstep.2]) rfl rfl rfl
    (canDispatch_processing now o (queueStep_inv _ hi) hget rfl)

/-- A job that is not final is never stuck. -/
theorem canDispatch (now : ℤ) (o : Outcome) {id : ℕ} {j : Job} (hi : QueueInv q)
    (hj : q.jobs.get? id = some j) (hfin : j.status.isFinal = false) :
    CanDispatch q id j now o := by
  cases hs : j.status with
  | processing => exact canDispatch_processing now o hi hj hs
  | pending =>
    cases hl : q.locked id with
    | true =>
      obtain ⟨c, cl, hc, hin⟩ := Store.exists?_iff.mp hl
      cases cl with
      | selected ids => exact canDispatch_locked now o hi hj hc (of_decide_eq_true hin)
      | taken jobs => exact absurd (of_decide_eq_true hin) List.not_mem_nil
    | false =>
      -- a claim with room for every due job takes it
      have hin : id ∈ q.lockBatch j.scheduledFor
          (q.jobs.select (claimable j.scheduledFor)).length := by
        unfold Queue.lockBatch
        rw [List.take_of_length_le]
        · refine List.mem_map.mpr ⟨(id, j), ?_, rfl⟩
          rw [List.mem_insertionSort, List.mem_filter, Store.mem_select]
          exact ⟨⟨hj, by simp [claimable, hs]⟩, by simp [hl]⟩
        · rw [List.length_map, List.length_insertionSort]
          exact List.length_filter_le _ _
      let op := QueueOp.select j.scheduledFor (q.jobs.select (claimable j.scheduledFor)).length
      have hc : (queueStep q op).claims.get? q.claims.next = some (.selected (q.lockBatch
          j.scheduledFor (q.jobs.select (claimable j.scheduledFor)).length)) :=
        Store.get?_create_self _ _
      exact CanDispatch.of_step j op rfl rfl rfl rfl
        (canDispatch_locked now o (queueStep_inv op hi) hj hc hin)
  | delivered => rw [hs] at hfin; cases hfin
  | failed => rw [hs] at hfin; cases hfin
  | skipped => rw [hs] at hfin; cases hfin

/-- If the workers go on and every dispatch raises, the job runs out of
    attempts. -/
theorem runs_out (n : ℕ) {id : ℕ} {j : Job} (hi : QueueInv q)
    (hj : q.jobs.get? id = some j) (hn : j.maxAttempts - j.attempts = n) (hall : q.AllRaised id) :
    ∃ more j', (run queueStep q more).jobs.get? id = some j' ∧ j'.status.isFinal = true ∧
      (run queueStep q more).AllRaised id := by
  induction n generalizing q j with
  | zero =>
    cases hfin : j.status.isFinal with
    | true => exact ⟨[], j, hj, hfin, hall⟩
    | false => have := (hi.row id j hj).2.2 hfin; omega
  | succ n ih =>
    cases hfin : j.status.isFinal with
    | true => exact ⟨[], j, hj, hfin, hall⟩
    | false =>
      obtain ⟨more, job, h1, h2, h3, hget, hatt⟩ := canDispatch 0 (.raised "") hi hj hfin
      have hch : job.channel ∈ channels := by rw [h3]; exact (hi.row id j hj).1
      obtain ⟨ha, hm, -, -⟩ := processJob_cases 0 (.raised "") hch
      obtain ⟨more', j', hget', hfin', hall'⟩ := ih (queueRun_inv hi more) hget (by omega) (by
        intro a ha
        rw [hatt, List.mem_append, List.mem_singleton] at ha
        rcases ha with ha | rfl
        · exact hall a ha
        · rfl)
      refine ⟨more ++ more', j', ?_, hfin', ?_⟩
      · rw [run_append]; exact hget'
      · rw [run_append]; exact hall'

/-! ## Safety -/

/-- What the queue guarantees in a state. -/
structure QueueSafe (q : Queue) : Prop where
  /-- The attempts stay within the bound, and an unfinished job has some left. -/
  bounded : ∀ id j, q.jobs.get? id = some j → j.attempts ≤ j.maxAttempts ∧
    (j.status = .pending ∨ j.status = .processing → j.attempts < j.maxAttempts)
  /-- The counter is the number of dispatches. -/
  counted : ∀ id j, q.jobs.get? id = some j → (q.attemptsOf id).length = j.attempts
  /-- In any later state the counter is not lower, and a final job is the same. -/
  later : ∀ more id j, q.jobs.get? id = some j →
    ∃ j', (run queueStep q more).jobs.get? id = some j' ∧ j.attempts ≤ j'.attempts ∧
      j'.maxAttempts = j.maxAttempts ∧
      (j.status = .delivered ∨ j.status = .skipped ∨ j.status = .failed → j' = j)
  /-- A processing job is in exactly one claim, and there once. -/
  one_claim : ∀ id j, q.jobs.get? id = some j → j.status = .processing →
    (∃! c, ∃ cl, q.claims.get? c = some cl ∧ id ∈ cl.ids) ∧
      ∀ c cl, q.claims.get? c = some cl → cl.ids.Nodup
  /-- A job whose dispatches all raise fails after exactly `maxAttempts` of them
      and not before. -/
  exhausted : ∀ id j, q.jobs.get? id = some j → q.AllRaised id →
    (j.status = .failed ∧ (q.attemptsOf id).length = j.maxAttempts) ∨
    (j.status.isFinal = false ∧ (q.attemptsOf id).length < j.maxAttempts)
  /-- From any state it gets there when the workers go on. -/
  runs_out : ∀ id j, q.jobs.get? id = some j → q.AllRaised id →
    ∃ more j', (run queueStep q more).jobs.get? id = some j' ∧
      (run queueStep q more).AllRaised id ∧ j'.status = .failed ∧
      ((run queueStep q more).attemptsOf id).length = j.maxAttempts
  /-- A retry is scheduled after the attempt, by the backoff table. -/
  backoff : ∀ id, ∀ a ∈ q.attemptsOf id, a.result.status = .pending →
    a.outcome.isRaised = true ∧ a.now < a.result.scheduledFor ∧
      a.result.scheduledFor = a.now + seconds (backoffSeconds.getD
        (min (a.result.attempts - 1) (backoffSeconds.length - 1)) 0)
  /-- The delays of one job's retries never shrink. -/
  delays : ∀ id, (q.attemptsOf id).Pairwise fun a b =>
    a.result.status = .pending → b.result.status = .pending →
      a.result.scheduledFor - a.now ≤ b.result.scheduledFor - b.now

/-- A retry that was written waits `retryDelay`. -/
theorem Logged.retry (hl : Logged q) {id : ℕ} {a : Attempt} (ha : a ∈ q.attemptsOf id)
    (hp : a.result.status = .pending) :
    a.outcome.isRaised = true ∧ a.result.scheduledFor = a.now + retryDelay a.result.attempts := by
  obtain ⟨job, hch, hres⟩ := hl.written id a ha
  obtain ⟨hatt, -, -, hcase⟩ := processJob_cases a.now a.outcome hch
  rw [hres] at hp ⊢
  rcases hcase with ⟨hr, -, -, hs⟩ | ⟨-, -, hs⟩ | ⟨-, hs⟩
  · rw [hatt]; exact ⟨hr, hs⟩
  · rw [hs] at hp; cases hp
  · rw [hp] at hs; cases hs

/-- The dispatches of a job carry increasing counters. -/
theorem Logged.increasing (hl : Logged q) (id : ℕ) :
    (q.attemptsOf id).Pairwise fun a b => a.result.attempts < b.result.attempts := by
  cases hq : q.jobs.get? id with
  | none => rw [hl.unseen id hq]; exact List.Pairwise.nil
  | some j =>
    have hlt : (List.range' 1 j.attempts).Pairwise (· < ·) := List.pairwise_lt_range'
    rw [← hl.counted id j hq, List.pairwise_map] at hlt
    exact hlt

theorem queueSafe (hi : QueueInv q) (hl : Logged q) : QueueSafe q := by
  have hcount : ∀ {q : Queue}, Logged q → ∀ id j, q.jobs.get? id = some j →
      (q.attemptsOf id).length = j.attempts := by
    intro q hl id j hj
    have := congrArg List.length (hl.counted id j hj)
    rwa [List.length_map, List.length_range'] at this
  refine ⟨fun id j hj => ⟨(hi.row id j hj).2.1, fun hs => ?_⟩, hcount hl, fun more id j hj => ?_,
    fun id j hj hp => ⟨?_, fun c cl hc => ?_⟩, fun id j hj hall => ?_, fun id j hj hall => ?_,
    fun id a ha hp => ?_, fun id => ?_⟩
  · refine (hi.row id j hj).2.2 ?_
    rcases hs with hs | hs <;> rw [hs] <;> rfl
  · obtain ⟨j', h, hle, hmax, hfin⟩ := queueRun_later hi more hj
    refine ⟨j', h, hle, hmax, fun hs => hfin ?_⟩
    rcases hs with hs | hs | hs <;> rw [hs] <;> rfl
  · obtain ⟨c, jobs, hc, hin⟩ := hi.covered id j hj hp
    refine ⟨c, ⟨_, hc, hin⟩, ?_⟩
    rintro c' ⟨cl, hcl, hin'⟩
    exact hi.same_claim hcl hc hin' hin
  · cases cl with
    | selected ids => exact (hi.selected c ids hc).1
    | taken jobs => exact (hi.taken c jobs hc).1
  · rw [hcount hl id j hj]
    cases hfin : j.status.isFinal with
    | true => exact Or.inl (hl.raising id j hj hall hfin)
    | false => exact Or.inr ⟨rfl, (hi.row id j hj).2.2 hfin⟩
  · obtain ⟨more, j', hget, hfin, hall'⟩ := runs_out _ hi hj rfl hall
    have hl' : Logged (run queueStep q more) :=
      (run_induction (P := fun q => QueueInv q ∧ Logged q)
        (fun _ op h => ⟨queueStep_inv op h.1, queueStep_logged op h.1 h.2⟩) ⟨hi, hl⟩ more).2
    obtain ⟨hs, hatt⟩ := hl'.raising id j' hget hall' hfin
    obtain ⟨j'', hget'', -, hmax, -⟩ := queueRun_later hi more hj
    rw [hget] at hget''
    cases hget''
    exact ⟨more, j', hget, hall', hs, by rw [hcount hl' id j' hget, hatt, hmax]⟩
  · obtain ⟨hr, hs⟩ := hl.retry ha hp
    have := retryDelay_pos a.result.attempts
    exact ⟨hr, by omega, hs⟩
  · refine (hl.increasing id).imp_of_mem fun {a b} ha hb hlt hpa hpb => ?_
    rw [(hl.retry ha hpa).2, (hl.retry hb hpb).2]
    have := retryDelay_mono hlt.le
    omega

/-- **The queue is safe in every run**: whatever is enqueued, however any number
    of claims and dispatches interleave, and whatever the dispatches do. -/
theorem notification_queue (ops : List QueueOp) :
    QueueSafe (run queueStep Queue.empty ops) := by
  have h : QueueInv (run queueStep Queue.empty ops) ∧ Logged (run queueStep Queue.empty ops) :=
    run_induction (P := fun q => QueueInv q ∧ Logged q)
      (fun _ op h => ⟨queueStep_inv op h.1, queueStep_logged op h.1 h.2⟩)
      ⟨queueInv_empty, logged_empty⟩ ops
  exact queueSafe h.1 h.2

end TempleConsign
