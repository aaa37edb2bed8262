import TempleConsign.CredentialVault
import TempleConsign.PushDelivery

/-!
# The APNs credential

The push system together with the vault its dispatcher reads. `apns_dispatch_service.send`
loads the credential `apns`; the vault stores a credential for each integration that has a
tester (`src/api/services/integration_testers/__init__.py` line 352), and there is no tester of
that name.

Deviations: `usable` stands for `json.loads` and the signing of the token.

Results:
* `apns_missing`: the dispatcher never finds its credential.
* `no_push_delivered`: no push is ever delivered, and no token is ever ended by the dispatcher.
-/

namespace TempleConsign.Push

open ServiceLib ServiceLib.KeyRing

/-! ## The system -/

variable {β : Type}

/-- What the dispatcher makes of the vault; `usable` is the error of a credential that gives no
    token. -/
def apnsCredential (F : Vault.Fernet β) (usable : String → Option String) (v : Vault.State) :
    ApnsCredential :=
  match Vault.loadApnsCredential F v.settings v.tables.credentials with
  | .ok none => .missing
  | .ok (some plaintext) =>
    match usable plaintext with
    | none => .ready
    | some error => .unusable error
  | .error error => .unusable error.text

structure Site where
  vault : Vault.State
  push : PushSystem

/-- A step of the vault or of the push system. -/
inductive SiteOp
  | vault (o : Vault.Op)
  | push (o : PushOp)

/-- The step with the credential of the vault. -/
def PushOp.withCredential (credential : ApnsCredential) : PushOp → PushOp
  | .worker now move _ reply => .worker now move credential reply
  | o => o

def siteStep (F : Vault.Fernet β) (usable : String → Option String) (env : PushEnv) (s : Site) :
    SiteOp → Site
  | .vault o => { s with vault := Vault.vaultStep F s.vault o }
  | .push o =>
    { s with push := pushStep env s.push (o.withCredential (apnsCredential F usable s.vault)) }

def Site.start (settings : Vault.Settings) (T : Tables) : Site :=
  ⟨Vault.State.start settings, PushSystem.start T⟩

/-! ## The credential -/

/-- The vault holds nothing under the name that the dispatcher loads. -/
def WithoutApns (F : Vault.Fernet β) (v : Vault.State) : Prop :=
  ∃ l, Vault.Refines F v l ∧ l.entries "apns" = none

variable {F : Vault.Fernet β} {usable : String → Option String} {env : PushEnv}

theorem withoutApns_step {v : Vault.State} (h : WithoutApns F v) (o : Vault.Op) :
    WithoutApns F (Vault.vaultStep F v o) := by
  obtain ⟨l, href, hnone⟩ := h
  exact ⟨_, Vault.refines_step href o, Vault.entries_unknown (by decide) hnone o⟩

theorem withoutApns_start (settings : Vault.Settings) :
    WithoutApns F (Vault.State.start settings) :=
  ⟨_, Vault.refines_start F settings, rfl⟩

theorem apns_missing [DecidableEq β] {v : Vault.State} (h : WithoutApns F v) :
    apnsCredential F usable v = .missing := by
  obtain ⟨l, href, hnone⟩ := h
  have hload : Vault.loadApnsCredential F v.settings v.tables.credentials = .ok none := by
    unfold Vault.loadApnsCredential
    rw [Vault.loads_eq href, Ledger.read, hnone]
    rfl
  unfold apnsCredential
  rw [hload]

/-! ## Deliveries -/

/-- No push is delivered, and the detached jobs of the workers are of their rows' channels. -/
structure NoneDelivered (q : Queue) : Prop where
  rows : ∀ id j, q.jobs.get? id = some j → j.channel = Channel.apns.value → j.status ≠ .delivered
  claims : ∀ c jobs, q.claims.get? c = some (.taken jobs) →
    ∀ e ∈ jobs, (q.jobs.get? e.1).map Job.channel = some e.2.channel

variable {q : Queue}

theorem noneDelivered_empty : NoneDelivered Queue.empty where
  rows := fun id j h => by simp [Queue.empty] at h
  claims := fun c jobs h => by simp [Queue.empty] at h

theorem map_channel {q q' : Queue} (h : SameContent q q') (id : ℕ) :
    (q'.jobs.get? id).map Job.channel = (q.jobs.get? id).map Job.channel := by
  have hid := congrArg (Option.map fun x : Option ℕ × String × Payload => x.2.1) (h id)
  rw [Option.map_map, Option.map_map] at hid
  exact hid

theorem noneDelivered_enqueue (h : NoneDelivered q) (now : ℤ) (n : Notice) :
    NoneDelivered (queueStep q (.enqueue now n.request)) := by
  rw [queueStep_enqueue]
  split_ifs
  · exact h
  · refine ⟨fun id j hj hch => ?_, fun c jobs hc e he => ?_⟩
    · rw [Store.get?_create] at hj
      split_ifs at hj
      · cases hj
        exact nofun
      · exact h.rows id j hj hch
    · have hrow := h.claims c jobs hc e he
      obtain ⟨j, hj, hch⟩ := Option.map_eq_some_iff.mp hrow
      rw [Store.get?_create_of_some hj, Option.map_some, hch]

theorem noneDelivered_enqueueAll (h : NoneDelivered q) (now : ℤ) (notices : List Notice) :
    NoneDelivered (enqueueAll now notices q) := by
  induction notices generalizing q with
  | nil => exact h
  | cons n rest ih => exact ih (noneDelivered_enqueue h now n)

theorem noneDelivered_select (h : NoneDelivered q) (now : ℤ) (limit : ℕ) :
    NoneDelivered (queueStep q (.select now limit)) := by
  refine ⟨h.rows, fun c jobs hc => ?_⟩
  simp only [queueStep, Store.get?_create] at hc
  split_ifs at hc
  · cases hc
  · exact h.claims c jobs hc

theorem noneDelivered_leave (h : NoneDelivered q) (c : ℕ) : NoneDelivered (q.leave c) := by
  refine ⟨h.rows, fun c' jobs hc => ?_⟩
  simp only [Queue.leave, Store.get?_modify] at hc
  split_ifs at hc
  · obtain ⟨-, -, hj⟩ := Option.map_eq_some_iff.mp hc
    cases hj
    exact fun e he => absurd he List.not_mem_nil
  · exact h.claims c' jobs hc

theorem noneDelivered_commit (h : NoneDelivered q) (c : ℕ) :
    NoneDelivered (queueStep q (.commit c)) := by
  have hsame := sameContent_commit q c
  simp only [queueStep] at hsame ⊢
  split at hsame
  · next ids hc =>
    refine ⟨fun id j hj hch => ?_, fun c' jobs hc' e he => ?_⟩
    · simp only [get?_markProcessing] at hj
      split_ifs at hj
      · obtain ⟨-, -, rfl⟩ := Option.map_eq_some_iff.mp hj
        simp
      · exact h.rows id j hj hch
    · rcases get?_claim hc hc' with ⟨-, hj⟩ | ⟨-, hcl⟩
      · cases hj
        rw [(Store.mem_select.mp he).1]
        rfl
      · rw [map_channel hsame]
        exact h.claims c' jobs hcl e he
  · exact h

/-- An attempt delivers a push only where the dispatcher says so. -/
theorem processJob_delivered {now : ℤ} {o : Outcome} {job : Job}
    (h : (processJob now o job).status = .delivered) : ∃ error, o = .returned .delivered error := by
  by_cases hch : job.channel ∈ channels
  · cases o with
    | returned status error =>
      rw [processJob_returned now status error hch] at h
      cases status with
      | delivered => exact ⟨error, rfl⟩
      | skipped => cases h
      | failed => cases h
    | raised error =>
      rw [processJob_raised now error hch] at h
      split_ifs at h
  · simp only [processJob, dispatch, if_neg hch] at h
    cases h

theorem noneDelivered_process (h : NoneDelivered q) (c : ℕ) (now : ℤ) {o : Outcome}
    (ho : ∀ id job rest, q.claims.get? c = some (.taken ((id, job) :: rest)) →
      job.channel = Channel.apns.value → ∀ error, o ≠ .returned .delivered error) :
    NoneDelivered (queueStep q (.process c now o)) := by
  have hsame := sameContent_process q c now o
  simp only [queueStep] at hsame ⊢
  split at hsame
  · next id job rest hc =>
    refine ⟨fun k j hj hch => ?_, fun c' jobs hc' e he => ?_⟩
    · simp only [writeBack, Store.get?_modify] at hj
      split_ifs at hj with hk
      · obtain ⟨j₀, hj₀, rfl⟩ := Option.map_eq_some_iff.mp hj
        have hjob := h.claims c _ hc (id, job) List.mem_cons_self
        rw [← hk, hj₀, Option.map_some, Option.some.injEq] at hjob
        intro hdel
        obtain ⟨error, heq⟩ := processJob_delivered hdel
        exact ho id job rest hc (hjob.symm.trans hch) error heq
      · exact h.rows k j hj hch
    · rcases get?_claim hc hc' with ⟨-, hj⟩ | ⟨-, hcl⟩
      · cases hj
        rw [map_channel hsame]
        exact h.claims c _ hc e (List.mem_cons_of_mem _ he)
      · rw [map_channel hsame]
        exact h.claims c' jobs hcl e he
  · exact h

/-- A dispatcher without a credential delivers no push. -/
theorem dispatchJob_skipped {d : Deployment} {job : Job} (hch : job.channel = Channel.apns.value)
    (error : Option String) : dispatchJob d .skipped job ≠ .returned .delivered error := by
  unfold dispatchJob
  rw [hch, Channel.ofValue?_value]
  simp only [dispatchOn, dispatchApns]
  split_ifs <;> simp

/-- The outcome of the next job when the dispatcher has no credential. -/
theorem nextOutcome_missing {d : Deployment} {c : ℕ} {sent : Sent}
    (hsent : (nextPush q c).isSome = true → sent = .skipped) {id : ℕ} {job : Job}
    {rest : List (ℕ × Job)} (hc : q.claims.get? c = some (.taken ((id, job) :: rest)))
    (hch : job.channel = Channel.apns.value) (error : Option String) :
    q.nextOutcome d c sent ≠ .returned .delivered error := by
  have hnext : nextPush q c = some job := by
    unfold nextPush
    rw [hc]
    exact if_pos hch
  rw [hsent (by rw [hnext]; rfl)]
  simp only [Queue.nextOutcome, hc]
  exact dispatchJob_skipped hch error

/-- The sending call answers `skipped` where the next job is a push. -/
def Skips (q : Queue) : WorkerMove → Prop
  | .process c _ sent => (nextPush q c).isSome = true → sent = .skipped
  | .outcomeLost c _ sent => (nextPush q c).isSome = true → sent = .skipped
  | _ => True

theorem skips_withSent (q : Queue) (move : WorkerMove) :
    Skips q (if (dispatched q move).isSome then withSent .skipped move else move) := by
  split_ifs with hd
  · cases move <;> simp [Skips, withSent]
  · cases move with
    | process c now sent => exact fun hs => absurd hs hd
    | outcomeLost c now sent => exact fun hs => absurd hs hd
    | _ => trivial

theorem noneDelivered_worker {d : Deployment} (h : NoneDelivered q) {move : WorkerMove}
    (hs : Skips q move) : NoneDelivered (workerStep q (move.op d q)) := by
  cases move with
  | select now limit => exact noneDelivered_select h now limit
  | commit c => exact noneDelivered_commit h c
  | abort c =>
    simp only [WorkerMove.op, workerStep, queueStep]
    split
    · exact noneDelivered_leave h c
    · exact h
  | process c now sent =>
    exact noneDelivered_process h c now fun _ _ _ hc hch => nextOutcome_missing hs hc hch
  | claimLost c =>
    simp only [WorkerMove.op, workerStep]
    split
    · exact noneDelivered_leave (noneDelivered_commit h c) c
    · exact h
  | outcomeRaised c =>
    simp only [WorkerMove.op, workerStep]
    split
    · exact noneDelivered_leave h c
    · exact h
  | outcomeLost c now sent =>
    simp only [WorkerMove.op, workerStep]
    split
    · refine noneDelivered_leave (noneDelivered_process h c now fun _ _ _ hc hch => ?_) c
      exact nextOutcome_missing hs hc hch
    · exact h

/-! ## Runs -/

/-- What holds in every run. -/
structure SiteInv (F : Vault.Fernet β) (s : Site) : Prop where
  vault : WithoutApns F s.vault
  queue : NoneDelivered s.push.box.queue
  tokens : UniqueTokens s.push.tokens

variable [DecidableEq β]

theorem siteInv_step {s : Site} (h : SiteInv F s) (o : SiteOp) :
    SiteInv F (siteStep F usable env s o) := by
  cases o with
  | vault o => exact ⟨withoutApns_step h.vault o, h.queue, h.tokens⟩
  | push o =>
    refine ⟨h.vault, ?_, unique_step _ h.tokens⟩
    simp only [siteStep, apns_missing h.vault]
    cases o with
    | register now userId platform token environment => exact h.queue
    | revoke now userId token => exact h.queue
    | revokeAll now userId => exact h.queue
    | edit tables => exact h.queue
    | operation now o =>
      simp only [PushOp.withCredential, pushStep, outboxStep]
      split
      · exact noneDelivered_enqueueAll h.queue _ _
      · exact h.queue
    | worker now move credential reply =>
      exact noneDelivered_worker h.queue (skips_withSent s.push.box.queue move)

omit [DecidableEq β] in
theorem siteInv_start (settings : Vault.Settings) (T : Tables) :
    SiteInv F (Site.start settings T) :=
  ⟨withoutApns_start settings, noneDelivered_empty, Store.keyed_empty⟩

/-- A call registers the token. -/
def RegistersAt (k : ℕ × String) (_ : Site) : SiteOp → Prop
  | .push (.register _ userId platform token environment) =>
    Registrable platform token environment ∧ k = (userId, token)
  | _ => False

/-- Its user revokes the token, or all tokens. -/
def RevokesAt (k : ℕ × String) (_ : Site) : SiteOp → Prop
  | .push (.revoke _ userId token) => k = (userId, token)
  | .push (.revokeAll _ userId) => k.1 = userId
  | _ => False

omit [DecidableEq β] in
/-- Without a credential the dispatcher revokes nothing. -/
theorem revocation_missing (s : PushSystem) (move : WorkerMove) (reply : ApnsReply) :
    s.revocation env move .missing reply = none := by
  have hno : ∀ job, revokedBy env .missing reply job = none := by
    intro job
    unfold revokedBy apnsRevokes
    cases reply <;> simp
  unfold PushSystem.revocation
  cases dispatched s.box.queue move with
  | none => rfl
  | some job => exact hno job

theorem active_siteStep {s : Site} (h : SiteInv F s) (o : SiteOp) (k : ℕ × String) :
    Active (siteStep F usable env s o).push k ↔
      RegistersAt k s o ∨ (Active s.push k ∧ ¬ RevokesAt k s o) := by
  cases o with
  | vault o => simp [siteStep, RegistersAt, RevokesAt]
  | push o =>
    simp only [siteStep, apns_missing h.vault]
    rw [active_step _ h.tokens]
    cases o with
    | register now userId platform token environment => exact Iff.rfl
    | revoke now userId token => exact Iff.rfl
    | revokeAll now userId => exact Iff.rfl
    | operation now o => exact Iff.rfl
    | edit tables => exact Iff.rfl
    | worker now move credential reply =>
      simp [PushOp.withCredential, Registers, Ends, RegistersAt, RevokesAt, revocation_missing]

/-- **No push is ever delivered, in any run of the deployed system**, and a token stays active
    until its user revokes it: the dispatcher ends none, whatever Apple would answer. -/
theorem no_push_delivered (F : Vault.Fernet β) (usable : String → Option String) (env : PushEnv)
    (settings : Vault.Settings) (T : Tables) (ops : List SiteOp) :
    let s := run (siteStep F usable env) (Site.start settings T) ops
    (∀ id j, s.push.box.queue.jobs.get? id = some j → j.channel = Channel.apns.value →
        j.status ≠ .delivered) ∧
      ∀ k, Active s.push k ↔
        Since (siteStep F usable env) (RegistersAt k) (RevokesAt k) (Site.start settings T)
          ops := by
  refine ⟨(run_induction (P := SiteInv F) (fun s o h => siteInv_step h o)
    (siteInv_start settings T) ops).queue.rows, fun k => ?_⟩
  have hstart : ¬ Active (Site.start settings T).push k := by
    rintro ⟨e, he, -⟩
    cases he
  rw [run_iff_since (H := fun s : Site => Active s.push k) (I := SiteInv F)
    (fun s o h => siteInv_step h o) (fun s o h => active_siteStep h o k)
    (siteInv_start settings T) ops]
  simp [hstart]

end TempleConsign.Push
