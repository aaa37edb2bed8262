import TempleConsign.NotificationSafety

/-!
# Exceptions in the worker's batch loop

Model of `_process_batch` and the loop of `main` in
`src/scripts/notification_worker.py`. `process_job` catches an exception of the
dispatch and makes it an outcome. An exception of the outcome's `UPDATE` or of
a commit leaves the `for` loop, and the `except` of `main` only logs it: the
rest of the batch is dropped, its rows still `processing`. The claim itself is
one transaction, which an exception before its commit rolls back
(`QueueOp.abort`).

Results:
* `workerStep_inv`: the steps that keep the claims and the table together.
* `stranded_forever`: no later step reaches a stranded job.
* `none_stranded_iff`: exactly which runs strand no job.
-/

namespace TempleConsign

open ServiceLib

variable {q : Queue}

/-! ## Model -/

/-- The steps of live workers: those of the queue, and the exceptions that
    leave the batch loop. A commit that raises may have been made by the
    database all the same, when only its answer was lost.

    `outcomeRaised` is the outcome's `UPDATE` or commit raising without effect;
    that also happens when a statement of the dispatch itself failed, since the
    transaction is then aborted and refuses the `UPDATE`. -/
inductive WorkerOp
  | step (op : QueueOp)
  | claimLost (claim : ℕ)
  | outcomeRaised (claim : ℕ)
  | outcomeLost (claim : ℕ) (now : ℤ) (outcome : Outcome)

/-- The exception leaves `_process_batch`: `jobs` goes out of scope. -/
def Queue.leave (q : Queue) (c : ℕ) : Queue :=
  { q with claims := q.claims.modify c fun _ => .taken [] }

def workerStep (q : Queue) : WorkerOp → Queue
  | .step op => queueStep q op
  | .claimLost c =>
    match q.claims.get? c with
    | some (.selected _) => (queueStep q (.commit c)).leave c
    | _ => q
  | .outcomeRaised c =>
    match q.claims.get? c with
    | some (.taken (_ :: _)) => q.leave c
    | _ => q
  | .outcomeLost c now outcome =>
    match q.claims.get? c with
    | some (.taken (_ :: _)) => (queueStep q (.process c now outcome)).leave c
    | _ => q

/-- A worker still in its batch loop has the job to process. -/
def Queue.InBatch (q : Queue) (id : ℕ) : Prop :=
  ∃ c jobs, q.claims.get? c = some (.taken jobs) ∧ id ∈ jobs.map Prod.fst

/-- Every job that is not final will be picked up: by a later claim, or by the
    worker that has claimed it. -/
def NoneStranded (q : Queue) : Prop :=
  ∀ id j, q.jobs.get? id = some j → j.status.isFinal = false →
    j.status = .pending ∨ q.InBatch id

/-- The exception leaves no claimed job without its outcome: an `UPDATE` or
    commit that raises without effect never meets a claimed job, and where a
    commit was made after all, it was that of the batch's last outcome or of an
    empty claim. -/
def BatchDone (q : Queue) : WorkerOp → Prop
  | .step _ => True
  | .claimLost c => ∀ ids, q.claims.get? c = some (.selected ids) → ids = []
  | .outcomeRaised c => ∀ jobs, q.claims.get? c = some (.taken jobs) → jobs = []
  | .outcomeLost c _ _ => ∀ jobs, q.claims.get? c = some (.taken jobs) → jobs.length ≤ 1

/-! ## Steps -/

theorem workerStep_claimLost {c : ℕ} {ids : List ℕ}
    (hc : q.claims.get? c = some (.selected ids)) :
    (workerStep q (.claimLost c)).jobs = markProcessing q.jobs ids ∧
      ∀ c', (workerStep q (.claimLost c)).claims.get? c' =
        if c' = c then some (.taken []) else q.claims.get? c' := by
  simp only [workerStep, queueStep, Queue.leave, hc]
  refine ⟨trivial, fun c' => ?_⟩
  rw [Store.get?_modify, Store.get?_modify]
  split_ifs with h
  · rw [h, hc]
    rfl
  · rfl

theorem workerStep_outcomeRaised {c : ℕ} {e : ℕ × Job} {rest : List (ℕ × Job)}
    (hc : q.claims.get? c = some (.taken (e :: rest))) :
    (workerStep q (.outcomeRaised c)).jobs = q.jobs ∧
      ∀ c', (workerStep q (.outcomeRaised c)).claims.get? c' =
        if c' = c then some (.taken []) else q.claims.get? c' := by
  simp only [workerStep, Queue.leave, hc]
  refine ⟨trivial, fun c' => ?_⟩
  rw [Store.get?_modify]
  split_ifs with h
  · rw [h, hc]
    rfl
  · rfl

theorem workerStep_outcomeLost {c id : ℕ} {job : Job} {rest : List (ℕ × Job)}
    (hc : q.claims.get? c = some (.taken ((id, job) :: rest))) (now : ℤ) (o : Outcome) :
    (workerStep q (.outcomeLost c now o)).jobs = writeBack q.jobs id (processJob now o job) ∧
      ∀ c', (workerStep q (.outcomeLost c now o)).claims.get? c' =
        if c' = c then some (.taken []) else q.claims.get? c' := by
  simp only [workerStep, queueStep, Queue.leave, hc]
  refine ⟨trivial, fun c' => ?_⟩
  rw [Store.get?_modify, Store.get?_modify]
  split_ifs with h
  · rw [h, hc]
    rfl
  · rfl

/-- The invariant reads the table and the claims by key only. -/
theorem QueueInv.congr {q' : Queue} (hi : QueueInv q)
    (hjobs : ∀ id, q'.jobs.get? id = q.jobs.get? id)
    (hclaims : ∀ c, q'.claims.get? c = q.claims.get? c) : QueueInv q' where
  row := fun id j hj => hi.row id j (by rw [← hjobs, hj])
  selected := fun c ids hc => by
    simp only [hjobs]
    exact hi.selected c ids (by rw [← hclaims, hc])
  taken := fun c jobs hc => by
    simp only [hjobs]
    exact hi.taken c jobs (by rw [← hclaims, hc])
  disjoint := by
    intro c c' a b hne ha hb
    rw [hclaims] at ha hb
    exact hi.disjoint c c' a b hne ha hb
  covered := fun id j hj hp => by
    simp only [hclaims]
    exact hi.covered id j (by rw [← hjobs, hj]) hp

/-- An exception that leaves the loop with nothing left to record amounts to a
    step of the queue. -/
theorem workerStep_inv (op : WorkerOp) (hi : QueueInv q) (h : BatchDone q op) :
    QueueInv (workerStep q op) := by
  cases op with
  | step op => exact queueStep_inv op hi
  | claimLost c =>
    simp only [workerStep]
    split
    · next ids hc =>
      obtain rfl := h ids hc
      obtain ⟨hjobs, hclaims⟩ := workerStep_claimLost hc
      simp only [workerStep, hc] at hjobs hclaims
      refine (inv_abort hi hc).congr (fun id => by rw [hjobs]; rfl) fun c' => ?_
      rw [hclaims, Store.get?_modify]
      split_ifs with hcc
      · rw [hcc, hc]
        rfl
      · rfl
    · exact hi
  | outcomeRaised c =>
    simp only [workerStep]
    split
    · next e rest hc => exact absurd (h _ hc) (List.cons_ne_nil e rest)
    · exact hi
  | outcomeLost c now o =>
    simp only [workerStep]
    split
    · next e rest hc =>
      obtain ⟨id, job⟩ := e
      have hlen := h _ hc
      obtain rfl : rest = [] := by
        rw [List.length_cons] at hlen
        exact List.length_eq_zero_iff.mp (by omega)
      obtain ⟨hjobs, hclaims⟩ := workerStep_outcomeLost hc now o
      simp only [workerStep, hc] at hjobs hclaims
      refine (inv_process hi hc now o).congr (fun k => by rw [hjobs]) fun c' => ?_
      rw [hclaims, Store.get?_modify]
      split_ifs with hcc
      · rw [hcc, hc]
        rfl
      · rfl
    · exact hi

/-- Under the invariant no job is stranded. -/
theorem QueueInv.noneStranded (hi : QueueInv q) : NoneStranded q := by
  intro id j hj hfin
  cases hs : j.status with
  | pending => exact Or.inl rfl
  | processing => exact Or.inr (hi.covered id j hj hs)
  | delivered => rw [hs] at hfin; cases hfin
  | failed => rw [hs] at hfin; cases hfin
  | skipped => rw [hs] at hfin; cases hfin

/-- A job that the worker of claim `c` still had is in no batch after the
    exception. -/
theorem QueueInv.not_inBatch (hi : QueueInv q) {q' : Queue} {c id : ℕ} {cl : Claim}
    (hc : q.claims.get? c = some cl) (hid : id ∈ cl.ids)
    (hclaims : ∀ c', q'.claims.get? c' = if c' = c then some (.taken []) else q.claims.get? c') :
    ¬ q'.InBatch id := by
  rintro ⟨c', jobs, hc', hin⟩
  rw [hclaims] at hc'
  split_ifs at hc' with hcc
  · cases hc'
    exact absurd hin List.not_mem_nil
  · exact hcc (hi.same_claim hc' hc hin hid)

/-- A processing job that is in no batch is stranded. -/
theorem NoneStranded.inBatch (h : NoneStranded q) {id : ℕ} {j : Job}
    (hj : q.jobs.get? id = some j) (hp : j.status = .processing) : q.InBatch id := by
  rcases h id j hj (by rw [hp]; rfl) with hpend | hb
  · rw [hp] at hpend
    cases hpend
  · exact hb

/-- A step that strands no job meets the condition. -/
theorem batchDone_of_noneStranded (op : WorkerOp) (hi : QueueInv q)
    (h : NoneStranded (workerStep q op)) : BatchDone q op := by
  cases op with
  | step op => trivial
  | claimLost c =>
    intro ids hc
    obtain ⟨hjobs, hclaims⟩ := workerStep_claimLost hc
    cases ids with
    | nil => rfl
    | cons id ids =>
      -- the row was pending, and the claim marked it
      obtain ⟨j, hj, -⟩ := (hi.selected c _ hc).2 id List.mem_cons_self
      have hrow : (workerStep q (.claimLost c)).jobs.get? id =
          some { j with status := .processing } := by
        rw [hjobs, get?_markProcessing, if_pos List.mem_cons_self, hj]
        rfl
      exact absurd (h.inBatch hrow rfl) (hi.not_inBatch hc List.mem_cons_self hclaims)
  | outcomeRaised c =>
    intro jobs hc
    cases jobs with
    | nil => rfl
    | cons e rest =>
      obtain ⟨hjobs, hclaims⟩ := workerStep_outcomeRaised hc
      obtain ⟨hj, hp⟩ := (hi.taken c _ hc).2 e List.mem_cons_self
      rw [← hjobs] at hj
      exact absurd (h.inBatch hj hp) (hi.not_inBatch hc List.mem_cons_self hclaims)
  | outcomeLost c now o =>
    intro jobs hc
    cases jobs with
    | nil => exact Nat.zero_le _
    | cons e rest =>
      cases rest with
      | nil => exact le_refl _
      | cons e' rest =>
        obtain ⟨id, job⟩ := e
        obtain ⟨hjobs, hclaims⟩ := workerStep_outcomeLost hc now o
        obtain ⟨hnd, hrows⟩ := hi.taken c _ hc
        have hmem : e' ∈ (id, job) :: e' :: rest := List.mem_cons_of_mem _ List.mem_cons_self
        obtain ⟨hj, hp⟩ := hrows e' hmem
        have hne : e'.1 ≠ id := by
          intro heq
          simp [heq] at hnd
        have hrow : (workerStep q (.outcomeLost c now o)).jobs.get? e'.1 = some e'.2 := by
          rw [hjobs, get?_writeBack (hrows _ List.mem_cons_self).1, if_neg hne, hj]
        exact absurd (h.inBatch hrow hp)
          (hi.not_inBatch hc (List.mem_map.mpr ⟨e', hmem, rfl⟩) hclaims)

/-! ## Stranded jobs -/

/-- A processing job that no claim holds. -/
structure Stranded (q : Queue) (id : ℕ) (j : Job) : Prop where
  row : q.jobs.get? id = some j
  processing : j.status = .processing
  unclaimed : ∀ c cl, q.claims.get? c = some cl → id ∉ cl.ids

theorem queueStep_stranded {id : ℕ} {j : Job} (op : QueueOp) (h : Stranded q id j) :
    Stranded (queueStep q op) id j := by
  rcases queueStep_cases q op with hs | ⟨now, r, -, hs⟩ | ⟨now, limit, hs⟩ | ⟨c, ids, hc, hs⟩ |
    ⟨c, ids, hc, hs⟩ | ⟨c, now, o, id', job, rest, hc, hs⟩
  · rw [hs]
    exact h
  · rw [hs]
    exact ⟨Store.get?_create_of_some h.row, h.processing, h.unclaimed⟩
  · -- a claim selects pending rows only
    rw [hs]
    refine ⟨h.row, h.processing, fun c cl hc hid => ?_⟩
    rw [Store.get?_create] at hc
    split_ifs at hc
    · cases hc
      obtain ⟨-, j', hj', hp, -⟩ := mem_lockBatch hid
      rw [h.row] at hj'
      cases hj'
      rw [h.processing] at hp
      cases hp
    · exact h.unclaimed c cl hc hid
  · have hid : id ∉ ids := h.unclaimed c _ hc
    rw [hs]
    refine ⟨?_, h.processing, fun c' cl hc' hin => ?_⟩
    · show (markProcessing q.jobs ids).get? id = some j
      rw [get?_markProcessing, if_neg hid, h.row]
    · rcases get?_claim hc hc' with ⟨-, rfl⟩ | ⟨-, hcl⟩
      · obtain ⟨e, he, rfl⟩ := List.mem_map.mp hin
        exact hid (of_decide_eq_true (Store.mem_select.mp he).2)
      · exact h.unclaimed c' cl hcl hin
  · rw [hs]
    refine ⟨h.row, h.processing, fun c' cl hc' hin => ?_⟩
    rcases get?_claim hc hc' with ⟨-, rfl⟩ | ⟨-, hcl⟩
    · exact absurd hin List.not_mem_nil
    · exact h.unclaimed c' cl hcl hin
  · have hout := h.unclaimed c _ hc
    rw [hs]
    refine ⟨?_, h.processing, fun c' cl hc' hin => ?_⟩
    · show (writeBack q.jobs id' (processJob now o job)).get? id = some j
      have hne : id ≠ id' := by
        rintro rfl
        exact hout List.mem_cons_self
      unfold writeBack
      rw [Store.get?_modify_ne _ _ hne, h.row]
    · rcases get?_claim hc hc' with ⟨-, rfl⟩ | ⟨-, hcl⟩
      · exact hout (List.mem_cons_of_mem _ hin)
      · exact h.unclaimed c' cl hcl hin

theorem Stranded.leave {id : ℕ} {j : Job} (h : Stranded q id j) (c : ℕ) :
    Stranded (q.leave c) id j := by
  refine ⟨h.row, h.processing, fun c' cl hc' hin => ?_⟩
  simp only [Queue.leave, Store.get?_modify] at hc'
  split_ifs at hc' with hcc
  · obtain ⟨-, -, rfl⟩ := Option.map_eq_some_iff.mp hc'
    exact absurd hin List.not_mem_nil
  · exact h.unclaimed c' cl hc' hin

theorem workerStep_stranded {id : ℕ} {j : Job} (op : WorkerOp) (h : Stranded q id j) :
    Stranded (workerStep q op) id j := by
  cases op with
  | step op => exact queueStep_stranded op h
  | claimLost c =>
    simp only [workerStep]
    split
    · exact (queueStep_stranded _ h).leave c
    · exact h
  | outcomeRaised c =>
    simp only [workerStep]
    split
    · exact h.leave c
    · exact h
  | outcomeLost c now o =>
    simp only [workerStep]
    split
    · exact (queueStep_stranded _ h).leave c
    · exact h

/-- Nothing the workers do later reaches a stranded job: its row stays as it
    is. -/
theorem stranded_forever {id : ℕ} {j : Job} (h : Stranded q id j) (more : List WorkerOp) :
    (run workerStep q more).jobs.get? id = some j :=
  (run_induction (P := fun q => Stranded q id j) (fun _ op => workerStep_stranded op) h more).row

/-! ## Runs -/

/-- **Which runs strand no job**: whatever is enqueued, however the claims and
    dispatches of any number of workers interleave and whatever raises, exactly
    those in which no exception leaves a batch loop before the outcomes of its
    batch are recorded. -/
theorem none_stranded_iff (ops : List WorkerOp) :
    AllStates workerStep NoneStranded Queue.empty ops ↔
      AllSteps workerStep BatchDone Queue.empty ops :=
  allStates_iff_of_inv (fun _ op hi h => workerStep_inv op hi h)
    (fun _ hi => hi.noneStranded) (fun _ op hi h => batchDone_of_noneStranded op hi h)
    queueInv_empty ops

/-- Two jobs of one batch, and an exception of the first one's `UPDATE`. -/
def strandingRun : List WorkerOp :=
  let email (key : String) : EnqueueRequest :=
    ⟨key, none, "email", "status_update", ⟨[]⟩, none, defaultMaxAttempts, defaultMaxAttempts_pos⟩
  [.step (.enqueue 0 (email "a")), .step (.enqueue 0 (email "b")), .step (.select 0 10),
    .step (.commit 0), .outcomeRaised 0]

/-- The second job of the batch, whose dispatch was never tried, is lost with the
    first. -/
theorem update_failure_strands_batch :
    ¬ AllStates workerStep NoneStranded Queue.empty strandingRun := by
  intro h
  have hrow : ((run workerStep Queue.empty strandingRun).jobs.get? 1).map Job.status =
      some .processing := by decide +kernel
  have hclaims : (run workerStep Queue.empty strandingRun).claims.exists?
      (fun _ cl => 1 ∈ cl.ids) = false := by decide +kernel
  obtain ⟨j, hj, hp⟩ := Option.map_eq_some_iff.mp hrow
  obtain ⟨c, jobs, hc, hin⟩ := h.last.inBatch hj hp
  have hex : (run workerStep Queue.empty strandingRun).claims.exists?
      (fun _ cl => 1 ∈ cl.ids) = true :=
    Store.exists?_iff.mpr ⟨c, _, hc, decide_eq_true hin⟩
  rw [hclaims] at hex
  cases hex

end TempleConsign
