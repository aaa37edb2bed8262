import TempleConsign.RecordLocks

/-!
# Record locks in the browser

Model of the hook `useRecordLock` (`src/web/src/hooks/useRecordLock.ts`) and of its calls to the
lock API: a mounted page acquires the lock of its record, refreshes it every minute, and
releases it when it leaves the record. The pages enable their writes while the hook says `held`
(`src/web/src/pages/SalesEquipmentDetail.tsx` line 59). Requests and answers are messages: they
arrive in any order, or are lost.

Deviations:
* The server handles one lock call after another: a call is served in one step, its `SELECT` and
  its write together. Where two calls overlap, a stale read can delete a granted lock (see
  `LockExclusivity`).
* The states of a page are those after its effects: the one render between a change of the
  address and its effect, which still shows the earlier lock, is left out.
* The texts of errors are left out, and so are the records of another type than
  `equipment_record`, which the hook never names.
* The interval of a minute is an arbitrary time between two refreshes.
* A page always has a record in its address (the guards for a missing one are left out), and a
  request that the router refuses (the role check of an override) is one that fails.

Results:
* `guarded_step`: a granted lock stands until it expires, is released by its owner or overridden.
* `held_was_granted`: what a page that says `held` may rely on.
* `held_own_record_iff`: when a page holds the record it shows: a granted refresh is not
  cancelled with its effect, and can arrive when the page shows another record.
* `released_first_only`: of the records a page leaves, it releases the first one only.
-/

namespace TempleConsign.WebLock

open ServiceLib

/-! ## The hook -/

/-- `LockState` (line 8). -/
inductive LockState
  | idle
  | acquiring
  | held (info : RecordLock)
  | expired
  | conflict
  | error
  deriving DecidableEq

/-- A `useRecordLock`: `recordId` is the record of the effect that is mounted, `effects` counts
    the effects so far, and `heartbeatRef` is the record that the interval refreshes. -/
structure Hook where
  user : ℕ
  recordId : Option ℕ
  closed : Bool
  effects : ℕ
  lock : LockState
  heartbeatRef : Option ℕ
  releasedRef : Bool

/-- The calls of `src/web/src/api/sales.ts` (line 81); an acquire belongs to an effect. -/
inductive Action
  | acquire (effect : ℕ)
  | heartbeat
  | release
  | override
  deriving DecidableEq

structure Request where
  hook : ℕ
  user : ℕ
  recordId : ℕ
  action : Action
  deriving DecidableEq

/-- What a call resolves to: a lock, the conflict of a 409, a 404, no content, or another error. -/
inductive Answer
  | info (info : RecordLock)
  | conflict (info : RecordLock)
  | notFound
  | done
  | failed
  deriving DecidableEq

structure Reply where
  request : Request
  answer : Answer
  deriving DecidableEq

/-- The server, the pages, and what is in flight; `sent` are all requests of the pages so far. -/
structure World where
  now : ℤ
  locks : Locks
  hooks : ℕ → Hook
  requests : List Request
  replies : List Reply
  sent : List Request

/-! ## The server -/

def Request.call (now : ℤ) (r : Request) : LockCall := ⟨now, r.user, r.recordId, "equipment_record"⟩

/-- The call of the lock API that a request makes. -/
def Request.op (now : ℤ) (r : Request) : LockOp :=
  match r.action with
  | .acquire _ => .acquire (r.call now)
  | .heartbeat => .heartbeat (r.call now)
  | .release => .release (r.call now)
  | .override => .override r.recordId "equipment_record"

/-- What the endpoint answers (`src/api/routers/record_locks.py` line 46). -/
def Request.answer (now : ℤ) (t : Locks) (r : Request) : Answer :=
  match r.action with
  | .acquire _ =>
    match (Svc.exec (acquire (r.call now)) t).1 with
    | .ok info => .info info
    | .error (.lockHeld info) => .conflict info
    | .error _ => .failed
  | .heartbeat =>
    match (Svc.exec (heartbeat (r.call now)) t).1 with
    | .ok info => .info info
    | .error .lockExpired => .notFound
    | .error _ => .failed
  | .release => .done
  | .override =>
    match (Svc.exec (override r.recordId "equipment_record") t).1 with
    | .ok (some _) => .done
    | .ok none => .notFound
    | .error _ => .failed

/-! ## The pages -/

/-- The request of a page, with its user's token. -/
def World.request (w : World) (h recordId : ℕ) (action : Action) : Request :=
  ⟨h, (w.hooks h).user, recordId, action⟩

def World.send (w : World) (rs : List Request) : World :=
  { w with requests := w.requests ++ rs, sent := w.sent ++ rs }

def World.setHook (w : World) (h : ℕ) (x : Hook) : World :=
  { w with hooks := Function.update w.hooks h x }

/-- The cleanup of an effect (line 86): the request it sends. -/
def World.releases (w : World) (h : ℕ) : List Request :=
  match (w.hooks h).recordId, (w.hooks h).releasedRef with
  | some r, false => [w.request h r .release]
  | _, _ => []

/-- The hook after the cleanup of its effect, if one is mounted. -/
def Hook.cleanup (x : Hook) : Hook :=
  if x.recordId.isSome then { x with heartbeatRef := none, releasedRef := true } else x

/-- The effect of a record starts (line 53). -/
def Hook.mount (recordId : ℕ) (x : Hook) : Hook :=
  { x with recordId := some recordId, effects := x.effects + 1, lock := .acquiring }

/-- The component is unmounted. -/
def Hook.unmount (x : Hook) : Hook := { x with recordId := none, closed := true }

/-- The answer to the acquire of an effect, cancelled when a later one or none is mounted. -/
def Hook.acquired (effect recordId : ℕ) (answer : Answer) (x : Hook) : Hook :=
  if x.recordId.isSome && x.effects = effect then
    match answer with
    | .info info => { x with lock := .held info, heartbeatRef := some recordId }
    | .conflict _ => { x with lock := .conflict }
    | _ => { x with lock := .error }
  else x

/-- The answer to a `refresh` (line 35); the state of an unmounted component does not change. -/
def Hook.refreshed (answer : Answer) (x : Hook) : Hook :=
  if x.recordId.isSome then
    match answer with
    | .info info => { x with lock := .held info }
    | .notFound => { x with lock := .expired, heartbeatRef := none }
    | _ => x
  else x

/-- The steps: time passes; a page opens a record, is closed, refreshes or overrides; another
    client calls the API; a request is served or fails, an answer is lost or arrives. -/
inductive Op
  | tick (d : ℕ)
  | visit (h recordId : ℕ)
  | close (h : ℕ)
  | beat (h : ℕ)
  | refresh (h : ℕ)
  | override (h : ℕ)
  | other (r : Request)
  | serve (i : ℕ)
  | fail (i : ℕ)
  | lose (i : ℕ)
  | deliver (i : ℕ)

/-- An answer reaches its page. -/
def World.receive (w : World) (rep : Reply) : World :=
  let h := rep.request.hook
  match rep.request.action with
  | .acquire effect =>
    w.setHook h ((w.hooks h).acquired effect rep.request.recordId rep.answer)
  | .heartbeat => w.setHook h ((w.hooks h).refreshed rep.answer)
  | .release => w
  | .override =>
    if rep.answer = .done then w.send [w.request h rep.request.recordId .heartbeat] else w

def step (w : World) : Op → World
  | .tick d => { w with now := w.now + d }
  | .visit h r =>
    if (w.hooks h).closed || (w.hooks h).recordId = some r then w
    else
      let x := ((w.hooks h).cleanup).mount r
      (w.send (w.releases h ++ [w.request h r (.acquire x.effects)])).setHook h x
  | .close h => (w.send (w.releases h)).setHook h ((w.hooks h).cleanup.unmount)
  | .beat h =>
    match (w.hooks h).heartbeatRef with
    | some r => w.send [w.request h r .heartbeat]
    | none => w
  | .refresh h =>
    match (w.hooks h).recordId with
    | some r => w.send [w.request h r .heartbeat]
    | none => w
  | .override h =>
    match (w.hooks h).recordId with
    | some r => w.send [w.request h r .override]
    | none => w
  | .other r => { w with locks := lockStep w.locks (r.op w.now) }
  | .serve i =>
    match w.requests[i]? with
    | some r => { w with
        locks := lockStep w.locks (r.op w.now)
        requests := w.requests.eraseIdx i
        replies := w.replies ++ [⟨r, r.answer w.now w.locks⟩] }
    | none => w
  | .fail i =>
    match w.requests[i]? with
    | some r => { w with
        requests := w.requests.eraseIdx i
        replies := w.replies ++ [⟨r, .failed⟩] }
    | none => w
  | .lose i =>
    match w.replies[i]? with
    | some rep => { w with replies := w.replies.eraseIdx i ++ [⟨rep.request, .failed⟩] }
    | none => w
  | .deliver i =>
    match w.replies[i]? with
    | some rep => { w with replies := w.replies.eraseIdx i }.receive rep
    | none => w

/-- No page is mounted and no lock is held. -/
def World.start (now : ℤ) (users : ℕ → ℕ) : World where
  now := now
  locks := Store.empty
  hooks := fun h => ⟨users h, none, false, 0, .idle, none, false⟩
  requests := []
  replies := []
  sent := []

/-! ## Granted locks -/

/-- The request takes the lock away: its owner releases it, or it is overridden. -/
def Request.EndsLock (r : Request) (info : RecordLock) : Prop :=
  r.recordId = info.recordId ∧
    ((r.action = .release ∧ r.user = info.lockedBy) ∨ r.action = .override)

/-- The request that the server serves in this step. -/
def World.served (w : World) : Op → Option Request
  | .other r => some r
  | .serve i => w.requests[i]?
  | _ => none

/-- The server takes the lock away in this step. -/
def Ends (info : RecordLock) (w : World) (o : Op) : Prop :=
  ∃ r, w.served o = some r ∧ r.EndsLock info

/-- The server grants the lock in this step. -/
def Grants (info : RecordLock) (w : World) (o : Op) : Prop :=
  ∃ r, w.served o = some r ∧ r.answer w.now w.locks = .info info

/-- Until it expires, the lock stands, with this expiry or a later one. -/
def Guarded (info : RecordLock) (w : World) : Prop :=
  info.expiresAt ≤ newExpiry w.now ∧
    (w.now < info.expiresAt → ∃ id row, w.locks.get? id = some row ∧
      row.recordId = info.recordId ∧ row.recordType = info.recordType ∧
      row.lockedBy = info.lockedBy ∧ info.expiresAt ≤ row.expiresAt)

/-- Every answer and every page that holds a lock accounts for it: it is its user's, and `G`. -/
structure Accounted (users : ℕ → ℕ) (G : RecordLock → Prop) (w : World) : Prop where
  user : ∀ h, (w.hooks h).user = users h
  request : ∀ r ∈ w.requests, r.user = users r.hook
  reply : ∀ rep ∈ w.replies, rep.request.user = users rep.request.hook
  granted : ∀ rep ∈ w.replies, ∀ info, rep.answer = .info info →
    info.recordId = rep.request.recordId ∧ info.recordType = "equipment_record" ∧
      info.lockedBy = rep.request.user ∧ G info
  held : ∀ h info, (w.hooks h).lock = .held info →
    info.recordType = "equipment_record" ∧ info.lockedBy = users h ∧ G info

variable {t : Locks} {now : ℤ} {r : Request} {info : RecordLock} {w : World} {o : Op}
  {users : ℕ → ℕ} {G : RecordLock → Prop}

/-- A live lock stays, unless the call takes it away. -/
theorem lockStep_keeps (hu : OneRowPerRecord t) {id : ℕ} {row : RecordLock}
    (hrow : t.get? id = some row) (hlive : now < row.expiresAt) (hends : ¬ r.EndsLock row) :
    ∃ e, (lockStep t (r.op now)).get? id = some { row with expiresAt := e } ∧
      (e = row.expiresAt ∨ e = newExpiry now) := by
  obtain ⟨h, user, recordId, action⟩ := r
  have hkept : t.get? id = some { row with expiresAt := row.expiresAt } := hrow
  cases action with
  | acquire effect =>
    simp only [Request.op, lockStep, LockOp.service, Svc.request_map_snd]
    rcases acquire_cases hu (Request.call now ⟨h, user, recordId, .acquire effect⟩) with
      ⟨hx, -⟩ | ⟨j, r', -, hj, -, -, hcase⟩
    · rw [hx]
      exact ⟨_, Store.get?_create_of_some hkept, .inl rfl⟩
    · rcases hcase with ⟨hexp, hx⟩ | ⟨-, -, hx⟩ | ⟨-, -, hx⟩
      · rw [hx]
        have hne : id ≠ j := by
          rintro rfl
          rw [hrow] at hj
          cases hj
          exact absurd hlive (Int.not_lt.mpr hexp)
        have hrest : (t.delete j).get? id = some { row with expiresAt := row.expiresAt } := by
          rw [Store.get?_delete, if_neg hne, hkept]
        exact ⟨_, Store.get?_create_of_some hrest, .inl rfl⟩
      · rw [hx]
        by_cases hid : id = j
        · refine ⟨newExpiry now, ?_, .inr rfl⟩
          dsimp only
          rw [hid, Store.get?_modify_self, ← hid, hrow]
          rfl
        · exact ⟨_, (Store.get?_modify_ne t _ hid).trans hkept, .inl rfl⟩
      · rw [hx]
        exact ⟨_, hkept, .inl rfl⟩
  | heartbeat =>
    simp only [Request.op, lockStep, LockOp.service, Svc.request_map_snd]
    rcases hx : Svc.exec (heartbeat (Request.call now ⟨h, user, recordId, .heartbeat⟩)) t with
      ⟨e | info, t'⟩
    · exact ⟨_, hkept, .inl rfl⟩
    · obtain ⟨j, r', -, rfl, -⟩ := returns_heartbeat.mp hx
      by_cases hid : id = j
      · refine ⟨newExpiry now, ?_, .inr rfl⟩
        dsimp only
        rw [hid, Store.get?_modify_self, ← hid, hrow]
        rfl
      · exact ⟨_, (Store.get?_modify_ne t _ hid).trans hkept, .inl rfl⟩
  | release =>
    simp only [Request.op, lockStep, LockOp.service, Svc.request_map_snd]
    rcases hx : Svc.exec (release (Request.call now ⟨h, user, recordId, .release⟩)) t with
      ⟨e | b, t'⟩
    · exact ⟨_, hkept, .inl rfl⟩
    · refine ⟨_, (returns_release hx id _).mpr ⟨hkept, ?_⟩, .inl rfl⟩
      rintro ⟨hrec, -, hown⟩
      exact hends ⟨hrec.symm, .inl ⟨rfl, hown.symm⟩⟩
  | override =>
    simp only [Request.op, lockStep, LockOp.service, Svc.request_map_snd, override, Svc.exec_bind,
      exec_selectLock]
    cases hs : Store.scalarOneOrNone (t.select (onRecord recordId "equipment_record")) with
    | none => exact ⟨_, hkept, .inl rfl⟩
    | some o =>
      cases o with
      | none => exact ⟨_, hkept, .inl rfl⟩
      | some a =>
        obtain ⟨j, r'⟩ := a
        obtain ⟨⟨hj, hp⟩, -⟩ := Store.scalar_select_some_iff.mp hs
        have hne : id ≠ j := by
          rintro rfl
          rw [hrow] at hj
          cases hj
          exact hends ⟨(onRecord_iff.mp hp).1.symm, .inr rfl⟩
        refine ⟨_, ?_, .inl rfl⟩
        simp only [Svc.exec_bind, Svc.exec_modify, Svc.exec_pure]
        rw [Store.get?_delete, if_neg hne]
        exact hkept

/-- The lock that a request is granted is its user's, on its record, in the table it leaves. -/
theorem answer_info (hu : OneRowPerRecord t) (h : r.answer now t = .info info) :
    ∃ id, (lockStep t (r.op now)).HeldFor (r.call now) id info ∧ info.lockedBy = r.user ∧
      info.expiresAt = newExpiry now := by
  obtain ⟨k, user, recordId, action⟩ := r
  cases action with
  | acquire effect =>
    simp only [Request.answer] at h
    simp only [Request.op, lockStep, LockOp.service, Svc.request_map_snd]
    rcases hx : Svc.exec (acquire (Request.call now ⟨k, user, recordId, .acquire effect⟩)) t with
      ⟨e | row, t'⟩
    · rw [hx] at h
      cases e <;> cases h
    · rw [hx] at h
      cases h
      exact acquire_expiry hu hx
  | heartbeat =>
    simp only [Request.answer] at h
    simp only [Request.op, lockStep, LockOp.service, Svc.request_map_snd]
    rcases hx : Svc.exec (heartbeat (Request.call now ⟨k, user, recordId, .heartbeat⟩)) t with
      ⟨e | row, t'⟩
    · rw [hx] at h
      cases e <;> cases h
    · rw [hx] at h
      cases h
      exact heartbeat_expiry hx
  | release => cases h
  | override =>
    simp only [Request.answer] at h
    split at h <;> cases h

/-! ### Steps of the server and of the pages -/

@[simp] theorem send_now (rs : List Request) : (w.send rs).now = w.now := rfl

@[simp] theorem send_locks (rs : List Request) : (w.send rs).locks = w.locks := rfl

@[simp] theorem send_hooks (rs : List Request) : (w.send rs).hooks = w.hooks := rfl

@[simp] theorem send_replies (rs : List Request) : (w.send rs).replies = w.replies := rfl

@[simp] theorem setHook_now (h : ℕ) (x : Hook) : (w.setHook h x).now = w.now := rfl

@[simp] theorem setHook_locks (h : ℕ) (x : Hook) : (w.setHook h x).locks = w.locks := rfl

@[simp] theorem setHook_requests (h : ℕ) (x : Hook) : (w.setHook h x).requests = w.requests := rfl

@[simp] theorem setHook_replies (h : ℕ) (x : Hook) : (w.setHook h x).replies = w.replies := rfl

@[simp] theorem setHook_sent (h : ℕ) (x : Hook) : (w.setHook h x).sent = w.sent := rfl

theorem setHook_hooks (h j : ℕ) (x : Hook) :
    (w.setHook h x).hooks j = if j = h then x else w.hooks j :=
  Function.update_apply ..

@[simp] theorem receive_now (rep : Reply) : (w.receive rep).now = w.now := by
  unfold World.receive
  grind [World.send, World.setHook]

@[simp] theorem receive_locks (rep : Reply) : (w.receive rep).locks = w.locks := by
  unfold World.receive
  grind [World.send, World.setHook]

/-- The clock after a step. -/
def World.later (w : World) : Op → ℤ
  | .tick d => w.now + d
  | _ => w.now

/-- The locks after a step: only a request that is served changes them. -/
def World.serves (w : World) (o : Op) : Locks :=
  match w.served o with
  | some r => lockStep w.locks (r.op w.now)
  | none => w.locks

theorem step_server : (step w o).now = w.later o ∧ (step w o).locks = w.serves o := by
  cases o with
  | tick d => exact ⟨rfl, rfl⟩
  | close h => exact ⟨rfl, rfl⟩
  | other r => exact ⟨rfl, rfl⟩
  | visit h r =>
    simp only [step]
    split <;> exact ⟨rfl, rfl⟩
  | serve i =>
    simp only [step, World.serves, World.served]
    cases w.requests[i]? <;> exact ⟨rfl, rfl⟩
  | deliver i =>
    simp only [step]
    cases w.replies[i]? with
    | none => exact ⟨rfl, rfl⟩
    | some rep => exact ⟨receive_now rep, receive_locks rep⟩
  | _ =>
    simp only [step]
    split <;> exact ⟨rfl, rfl⟩

theorem step_oneRow (hu : OneRowPerRecord w.locks) : OneRowPerRecord (step w o).locks := by
  rw [step_server.2, World.serves]
  cases w.served o with
  | none => exact hu
  | some r => exact lockStep_oneRow _ hu

theorem later_eq_of_served (h : w.served o = some r) : w.later o = w.now := by
  cases o with
  | tick d => cases h
  | _ => rfl

theorem le_later : w.now ≤ w.later o := by
  simp only [World.later]
  split <;> omega

/-- A lock that is granted is guarded. -/
theorem guarded_of_grants (hu : OneRowPerRecord w.locks) (h : Grants info w o) :
    Guarded info (step w o) := by
  obtain ⟨r, hr, ha⟩ := h
  obtain ⟨id, ⟨hrow, hrec, htyp⟩, hown, hexp⟩ := answer_info hu ha
  rw [Guarded, step_server.1, step_server.2, later_eq_of_served hr, World.serves, hr, hexp]
  exact ⟨Int.le_refl _, fun _ => ⟨id, info, hrow, rfl, rfl, rfl, Int.le_of_eq hexp.symm⟩⟩

/-- **A granted lock stands** in every step that does not take it away. -/
theorem guarded_step (hu : OneRowPerRecord w.locks) (hg : Guarded info w) (hno : ¬ Ends info w o) :
    Guarded info (step w o) := by
  obtain ⟨hbound, hrow⟩ := hg
  have hle := le_later (w := w) (o := o)
  rw [Guarded, step_server.1, step_server.2]
  constructor
  · unfold newExpiry at hbound ⊢
    omega
  · intro hlive
    obtain ⟨id, row, hid, hrec, htyp, hown, hexp⟩ := hrow (by omega)
    cases hr : w.served o with
    | none =>
      rw [World.serves, hr]
      exact ⟨id, row, hid, hrec, htyp, hown, hexp⟩
    | some r =>
      rw [later_eq_of_served hr] at hlive
      have hends : ¬ r.EndsLock row := by
        intro he
        rw [Request.EndsLock, hrec, hown] at he
        exact hno ⟨r, hr, he⟩
      have hnow : w.now < row.expiresAt := by omega
      obtain ⟨e, hkept, he⟩ := lockStep_keeps hu hid hnow hends
      rw [World.serves, hr]
      refine ⟨id, _, hkept, hrec, htyp, hown, ?_⟩
      rcases he with rfl | rfl
      · exact hexp
      · exact hbound

/-! ## What a page holds -/

theorem Accounted.mono {G' : RecordLock → Prop} (h : Accounted users G w)
    (hG : ∀ info, G info → G' info) : Accounted users G' w where
  user := h.user
  request := h.request
  reply := h.reply
  granted rep hrep info ha :=
    let ⟨hrec, htyp, hown, hg⟩ := h.granted rep hrep info ha
    ⟨hrec, htyp, hown, hG info hg⟩
  held k info hk :=
    let ⟨htyp, hown, hg⟩ := h.held k info hk
    ⟨htyp, hown, hG info hg⟩

theorem Accounted.send (h : Accounted users G w) {rs : List Request}
    (hrs : ∀ r ∈ rs, r.user = users r.hook) : Accounted users G (w.send rs) where
  user := h.user
  request r hr := (List.mem_append.mp hr).elim (h.request r) (hrs r)
  reply := h.reply
  granted := h.granted
  held := h.held

theorem Accounted.request_user (h : Accounted users G w) (k recordId : ℕ) (action : Action) :
    (w.request k recordId action).user = users (w.request k recordId action).hook :=
  h.user k

theorem Accounted.setHook (h : Accounted users G w) {k : ℕ} {x : Hook} (hx : x.user = users k)
    (hheld : ∀ info, x.lock = .held info →
      info.recordType = "equipment_record" ∧ info.lockedBy = users k ∧ G info) :
    Accounted users G (w.setHook k x) where
  user j := by
    by_cases hj : j = k
    · subst hj
      simpa [World.setHook] using hx
    · simpa [World.setHook, hj] using h.user j
  request := h.request
  reply := h.reply
  granted := h.granted
  held j := by
    by_cases hj : j = k
    · subst hj
      simpa [World.setHook] using hheld
    · simpa [World.setHook, hj] using h.held j

/-- An answer that is accounted for takes the place of what was in flight. -/
theorem Accounted.answer (h : Accounted users G w) {w' : World} (hhooks : w'.hooks = w.hooks)
    (hreq : ∀ r ∈ w'.requests, r ∈ w.requests) {rep : Reply}
    (hrep : ∀ a ∈ w'.replies, a ∈ w.replies ∨ a = rep)
    (huser : rep.request.user = users rep.request.hook)
    (hg : ∀ info, rep.answer = .info info → info.recordId = rep.request.recordId ∧
      info.recordType = "equipment_record" ∧ info.lockedBy = rep.request.user ∧ G info) :
    Accounted users G w' where
  user := hhooks ▸ h.user
  request r hr := h.request r (hreq r hr)
  reply a ha := by
    rcases hrep a ha with ha | rfl
    · exact h.reply a ha
    · exact huser
  granted a ha := by
    rcases hrep a ha with ha | rfl
    · exact h.granted a ha
    · exact hg
  held := hhooks ▸ h.held

theorem mem_append_one {l l' : List Reply} {rep : Reply} (h : ∀ a ∈ l', a ∈ l) :
    ∀ a ∈ l' ++ [rep], a ∈ l ∨ a = rep := by
  intro a ha
  rcases List.mem_append.mp ha with ha | ha
  · exact .inl (h a ha)
  · exact .inr (List.mem_singleton.mp ha)

/-- The lock of a hook after an answer is the one it had or the one in the answer. -/
theorem refreshed_lock {x : Hook} {answer : Answer} (h : (x.refreshed answer).lock = .held info) :
    answer = .info info ∨ x.lock = .held info := by
  cases answer <;> grind [Hook.refreshed]

theorem acquired_lock {x : Hook} {effect recordId : ℕ} {answer : Answer}
    (h : (x.acquired effect recordId answer).lock = .held info) :
    answer = .info info ∨ x.lock = .held info := by
  cases answer <;> grind [Hook.acquired]

theorem refreshed_user (x : Hook) (answer : Answer) : (x.refreshed answer).user = x.user := by
  cases answer <;> grind [Hook.refreshed]

theorem acquired_user (x : Hook) (effect recordId : ℕ) (answer : Answer) :
    (x.acquired effect recordId answer).user = x.user := by
  cases answer <;> grind [Hook.acquired]

theorem Accounted.receive (h : Accounted users G w) {rep : Reply}
    (huser : rep.request.user = users rep.request.hook)
    (hg : ∀ info, rep.answer = .info info →
      info.recordType = "equipment_record" ∧ info.lockedBy = rep.request.user ∧ G info) :
    Accounted users G (w.receive rep) := by
  unfold World.receive
  dsimp only
  have hheld : ∀ {info}, rep.answer = .info info ∨
      (w.hooks rep.request.hook).lock = .held info →
      info.recordType = "equipment_record" ∧ info.lockedBy = users rep.request.hook ∧ G info := by
    rintro info (ha | hl)
    · rw [← huser]
      exact hg info ha
    · exact h.held _ info hl
  cases rep.request.action with
  | acquire effect =>
    exact h.setHook (by rw [acquired_user, h.user]) fun info hl => hheld (acquired_lock hl)
  | heartbeat =>
    exact h.setHook (by rw [refreshed_user, h.user]) fun info hl => hheld (refreshed_lock hl)
  | release => exact h
  | override =>
    dsimp only
    split
    · exact h.send fun r hr => (List.mem_singleton.mp hr) ▸ h.request_user _ _ _
    · exact h

/-- What a step accounts for is what was accounted for, or granted by the step. -/
theorem accounted_step (hu : OneRowPerRecord w.locks) (h : Accounted users G w) :
    Accounted users (fun info => G info ∨ Grants info w o) (step w o) := by
  have hw : Accounted users (fun info => G info ∨ Grants info w o) w :=
    h.mono fun _ hg => .inl hg
  have hone : ∀ {k recordId action} (r : Request), r ∈ [w.request k recordId action] →
      r.user = users r.hook :=
    fun r hr => (List.mem_singleton.mp hr) ▸ h.request_user _ _ _
  have hreleases : ∀ k, ∀ r ∈ w.releases k, r.user = users r.hook := by
    intro k r hr
    unfold World.releases at hr
    split at hr
    · exact hone r hr
    · cases hr
  have hcleanup : ∀ k, ((w.hooks k).cleanup).user = users k := by
    intro k
    rw [← h.user k]
    grind [Hook.cleanup]
  cases o with
  | tick d => exact ⟨hw.user, hw.request, hw.reply, hw.granted, hw.held⟩
  | other r => exact ⟨hw.user, hw.request, hw.reply, hw.granted, hw.held⟩
  | visit k r =>
    simp only [step]
    split
    · exact hw
    · refine (hw.send fun q hq => ?_).setHook (hcleanup k) (by simp [Hook.mount])
      exact (List.mem_append.mp hq).elim (hreleases k q) (hone q)
  | close k =>
    refine (hw.send (hreleases k)).setHook (hcleanup k) fun info hl => ?_
    refine hw.held k info ?_
    rw [← hl]
    grind [Hook.cleanup, Hook.unmount]
  | beat k =>
    simp only [step]
    split
    · exact hw.send hone
    · exact hw
  | refresh k =>
    simp only [step]
    split
    · exact hw.send hone
    · exact hw
  | override k =>
    simp only [step]
    split
    · exact hw.send hone
    · exact hw
  | serve i =>
    simp only [step]
    cases hr : w.requests[i]? with
    | none => exact hw
    | some r =>
      refine hw.answer rfl (fun _ h => List.mem_of_mem_eraseIdx h) (mem_append_one fun _ ha => ha)
        (h.request r (List.mem_of_getElem? hr)) fun info ha => ?_
      obtain ⟨id, ⟨-, hrec, htyp⟩, hown, -⟩ := answer_info hu ha
      exact ⟨hrec, htyp, hown, .inr ⟨r, hr, ha⟩⟩
  | fail i =>
    simp only [step]
    cases hr : w.requests[i]? with
    | none => exact hw
    | some r =>
      exact hw.answer rfl (fun _ h => List.mem_of_mem_eraseIdx h) (mem_append_one fun _ ha => ha)
        (h.request r (List.mem_of_getElem? hr)) (by simp)
  | lose i =>
    simp only [step]
    cases hr : w.replies[i]? with
    | none => exact hw
    | some rep =>
      exact hw.answer rfl (fun _ h => h) (mem_append_one fun _ h => List.mem_of_mem_eraseIdx h)
        (h.reply rep (List.mem_of_getElem? hr)) (by simp)
  | deliver i =>
    simp only [step]
    cases hr : w.replies[i]? with
    | none => exact hw
    | some rep =>
      have hmem := List.mem_of_getElem? hr
      have hrest : Accounted users (fun info => G info ∨ Grants info w (.deliver i))
          { w with replies := w.replies.eraseIdx i } :=
        ⟨hw.user, hw.request, fun a ha => hw.reply a (List.mem_of_mem_eraseIdx ha),
          fun a ha => hw.granted a (List.mem_of_mem_eraseIdx ha), hw.held⟩
      exact hrest.receive (hw.reply rep hmem) fun info ha => (hw.granted rep hmem info ha).2

theorem run_oneRow (now : ℤ) (users : ℕ → ℕ) (ops : List Op) :
    OneRowPerRecord (run step (World.start now users) ops).locks := by
  have hstart : OneRowPerRecord (World.start now users).locks := Store.pairwise_empty
  exact run_induction (P := fun w : World => OneRowPerRecord w.locks)
    (fun _ _ hu => step_oneRow hu) hstart ops

/-- Some step of the run grants the lock. -/
def Granted (w : World) (ops : List Op) (info : RecordLock) : Prop :=
  ∃ pre o post, ops = pre ++ o :: post ∧ Grants info (run step w pre) o

theorem accounted_run (now : ℤ) (users : ℕ → ℕ) (ops : List Op) :
    Accounted users (Granted (World.start now users) ops)
      (run step (World.start now users) ops) := by
  induction ops using List.reverseRecOn with
  | nil =>
    exact ⟨fun _ => rfl, by simp [World.start], by simp [World.start], by simp [World.start],
      by simp [World.start]⟩
  | append_singleton ops o ih =>
    rw [run_append, run_cons, run_nil]
    refine (accounted_step (o := o) (run_oneRow now users ops) ih).mono fun info hg => ?_
    rcases hg with ⟨pre, a, post, rfl, ha⟩ | hg
    · exact ⟨pre, a, post ++ [o], by simp, ha⟩
    · exact ⟨ops, o, [], rfl, hg⟩

/-- A granted lock stands to the end of a run that does not take it away. -/
theorem guarded_run {post : List Op} (hu : OneRowPerRecord w.locks) (hg : Grants info w o)
    (hpost : AllSteps step (fun w o => ¬ Ends info w o) (step w o) post) :
    Guarded info (run step (step w o) post) := by
  have hstart : OneRowPerRecord (step w o).locks ∧ Guarded info (step w o) :=
    ⟨step_oneRow hu, guarded_of_grants hu hg⟩
  exact (allStates_of_allSteps (P := fun w : World => OneRowPerRecord w.locks ∧ Guarded info w)
    (fun w o h hno => ⟨step_oneRow h.1, guarded_step h.1 h.2 hno⟩) hstart hpost).last.2

/-- **What a page may rely on while it says `held`**: its user was granted the lock it shows in
    an earlier step; unless that lock was released or overridden since, a server that handles one
    lock call after another accepts the writes of the user until the lock expires. -/
theorem held_was_granted (now : ℤ) (users : ℕ → ℕ) (ops : List Op) {h : ℕ} {info : RecordLock}
    (hheld : ((run step (World.start now users) ops).hooks h).lock = .held info) :
    info.lockedBy = users h ∧
      ∃ pre o post, ops = pre ++ o :: post ∧ Grants info (run step (World.start now users) pre) o ∧
        (AllSteps step (fun w o => ¬ Ends info w o)
            (step (run step (World.start now users) pre) o) post →
          (run step (World.start now users) ops).now < info.expiresAt →
          Succeeds (ensureLockHeld (run step (World.start now users) ops).now info.recordId
            (users h)) (run step (World.start now users) ops).locks) := by
  obtain ⟨htyp, hown, pre, o, post, rfl, hg⟩ := (accounted_run now users ops).held h info hheld
  refine ⟨hown, pre, o, post, rfl, hg, fun hpost hlive => ?_⟩
  have hu := run_oneRow now users (pre ++ o :: post)
  have hguarded : Guarded info (run step (World.start now users) (pre ++ o :: post)) := by
    rw [run_append, run_cons]
    exact guarded_run (run_oneRow now users pre) hg hpost
  obtain ⟨id, row, hrow, hrec, hrtyp, hrown, hexp⟩ := hguarded.2 hlive
  refine ⟨(), _, returns_ensureLockHeld.mpr ⟨(liveLock_iff hu _).mpr ⟨id, row,
    ⟨hrow, hrec, hrtyp.trans htyp⟩, hrown.trans hown, ?_⟩, rfl⟩⟩
  exact Int.lt_of_lt_of_le hlive hexp

/-- A page opens record `5` and is granted its lock. -/
def openedRun : List Op := [.visit 0 5, .serve 0, .deliver 0]

/-- The page holds the lock because the server granted it. -/
theorem openedRun_granted :
    ∃ pre o post, openedRun = pre ++ o :: post ∧
      Grants ⟨5, "equipment_record", 7, 0, newExpiry 0⟩
        (run step (World.start 0 fun _ => 7) pre) o := by
  have hheld : ((run step (World.start 0 fun _ => 7) openedRun).hooks 0).lock =
      .held ⟨5, "equipment_record", 7, 0, newExpiry 0⟩ := by rfl
  obtain ⟨-, pre, o, post, hops, hg, -⟩ := held_was_granted 0 (fun _ => 7) openedRun hheld
  exact ⟨pre, o, post, hops, hg⟩

/-! ## Whose record a page holds -/

/-- A page that holds a lock while it shows a record holds the lock of that record. -/
def HoldsOwn (w : World) : Prop :=
  ∀ h r info, (w.hooks h).recordId = some r → (w.hooks h).lock = .held info → info.recordId = r

/-- A page is handed a granted refresh of a record that it has left for another one. -/
def Stale (w : World) (o : Op) : Prop :=
  ∃ i rep info r, o = .deliver i ∧ w.replies[i]? = some rep ∧ rep.request.action = .heartbeat ∧
    rep.answer = .info info ∧ (w.hooks rep.request.hook).recordId = some r ∧
      rep.request.recordId ≠ r

/-- The request waits for the server, or its answer for the page. -/
def World.inFlight (w : World) (r : Request) : Prop :=
  r ∈ w.requests ∨ ∃ rep ∈ w.replies, rep.request = r

/-- The acquire of a mounted effect is for the record of that effect. -/
def OwnEffects (w : World) : Prop :=
  ∀ r e, w.inFlight r → r.action = .acquire e → e ≤ (w.hooks r.hook).effects ∧
    (e = (w.hooks r.hook).effects → ∀ shown, (w.hooks r.hook).recordId = some shown →
      r.recordId = shown)

/-- The effects that are mounted stay those of the earlier state, or end. -/
def SameEffects (w w' : World) : Prop :=
  ∀ h, (w'.hooks h).effects = (w.hooks h).effects ∧
    ∀ shown, (w'.hooks h).recordId = some shown → (w.hooks h).recordId = some shown

theorem OwnEffects.of_same {w' : World} (h : OwnEffects w) (hs : SameEffects w w')
    (hf : ∀ r e, w'.inFlight r → r.action = .acquire e → w.inFlight r) : OwnEffects w' := by
  intro r e hr ha
  obtain ⟨heff, hshown⟩ := hs r.hook
  obtain ⟨hle, hown⟩ := h r e (hf r e hr ha) ha
  rw [heff]
  exact ⟨hle, fun he shown hm => hown he shown (hshown shown hm)⟩

theorem sameEffects_refl (w : World) : SameEffects w w := fun _ => ⟨rfl, fun _ h => h⟩

theorem sameEffects_setHook {h : ℕ} {x : Hook} (heff : x.effects = (w.hooks h).effects)
    (hshown : ∀ shown, x.recordId = some shown → (w.hooks h).recordId = some shown) :
    SameEffects w (w.setHook h x) := by
  intro j
  by_cases hj : j = h
  · subst hj
    simpa [World.setHook] using ⟨heff, hshown⟩
  · simp [World.setHook, hj]

theorem refreshed_effect (x : Hook) (answer : Answer) :
    (x.refreshed answer).effects = x.effects ∧ (x.refreshed answer).recordId = x.recordId := by
  cases answer <;> grind [Hook.refreshed]

theorem acquired_effect (x : Hook) (effect recordId : ℕ) (answer : Answer) :
    (x.acquired effect recordId answer).effects = x.effects ∧
      (x.acquired effect recordId answer).recordId = x.recordId := by
  cases answer <;> grind [Hook.acquired]

theorem inFlight_send {rs : List Request} {r : Request} (hrs : ∀ a ∈ rs, ∀ e, a.action ≠ .acquire e)
    {e : ℕ} (hr : (w.send rs).inFlight r) (ha : r.action = .acquire e) : w.inFlight r := by
  rcases hr with hr | hr
  · rcases List.mem_append.mp hr with hr | hr
    · exact .inl hr
    · exact absurd ha (hrs r hr e)
  · exact .inr hr

theorem OwnEffects.send (h : OwnEffects w) {rs : List Request}
    (hrs : ∀ r ∈ rs, ∀ e, r.action ≠ .acquire e) : OwnEffects (w.send rs) :=
  h.of_same (sameEffects_refl w) fun _ _ => inFlight_send hrs

/-- An answer takes the place of the request it answers. -/
theorem OwnEffects.answer (h : OwnEffects w) {w' : World} (hhooks : w'.hooks = w.hooks)
    (hreq : ∀ r ∈ w'.requests, r ∈ w.requests) {rep : Reply}
    (hrep : ∀ a ∈ w'.replies, a ∈ w.replies ∨ a = rep) (hflight : w.inFlight rep.request) :
    OwnEffects w' := by
  have hsame : SameEffects w w' := fun k => by
    rw [hhooks]
    exact ⟨rfl, fun _ hm => hm⟩
  refine h.of_same hsame fun r e hr _ => ?_
  rcases hr with hr | ⟨a, ha, rfl⟩
  · exact .inl (hreq r hr)
  · rcases hrep a ha with ha | rfl
    · exact .inr ⟨a, ha, rfl⟩
    · exact hflight

theorem receive_ownEffects (h : OwnEffects w) (rep : Reply) : OwnEffects (w.receive rep) := by
  unfold World.receive
  dsimp only
  cases rep.request.action with
  | acquire effect =>
    obtain ⟨heff, hrec⟩ := acquired_effect (w.hooks rep.request.hook) effect rep.request.recordId
      rep.answer
    exact h.of_same (sameEffects_setHook heff fun _ hm => hrec ▸ hm) fun _ _ hr _ => hr
  | heartbeat =>
    obtain ⟨heff, hrec⟩ := refreshed_effect (w.hooks rep.request.hook) rep.answer
    exact h.of_same (sameEffects_setHook heff fun _ hm => hrec ▸ hm) fun _ _ hr _ => hr
  | release => exact h
  | override =>
    dsimp only
    split
    · exact h.send (by simp [World.request])
    · exact h

theorem releases_action (h : ℕ) : ∀ r ∈ w.releases h, r.action = .release ∧ r.hook = h := by
  unfold World.releases
  split <;> simp [World.request]

theorem cleanup_effect (x : Hook) : x.cleanup.effects = x.effects := by
  grind [Hook.cleanup]

/-- Where the hooks stay, what is in flight was, or was sent by the step. -/
theorem ownEffects_step (h : OwnEffects w) : OwnEffects (step w o) := by
  have hreleases : ∀ k, ∀ r ∈ w.releases k, ∀ e, r.action ≠ .acquire e := by
    intro k r hr e
    rw [(releases_action k r hr).1]
    exact Action.noConfusion
  cases o with
  | tick d => exact h
  | other r => exact h
  | visit k rid =>
    simp only [step]
    split
    · exact h
    · intro r e hr ha
      have hcase : w.inFlight r ∨
          (r.hook = k ∧ r.recordId = rid ∧ e = (w.hooks k).effects + 1) := by
        rcases hr with hr | hr
        · rcases List.mem_append.mp hr with hr | hr
          · exact .inl (.inl hr)
          · rcases List.mem_append.mp hr with hr | hr
            · exact absurd ha (hreleases k r hr e)
            · rw [List.mem_singleton.mp hr] at ha ⊢
              refine .inr ⟨rfl, rfl, ?_⟩
              simpa [World.request, Hook.mount, cleanup_effect] using ha.symm
        · exact .inl (.inr hr)
      by_cases hk : r.hook = k
      · simp only [World.setHook, hk, Function.update_self, Hook.mount, cleanup_effect,
          Option.some.injEq]
        rcases hcase with hold | ⟨-, hrec, rfl⟩
        · have hle := (h r e hold ha).1
          rw [hk] at hle
          exact ⟨by omega, fun he => by omega⟩
        · exact ⟨le_refl _, fun _ shown hs => hrec.trans hs⟩
      · simp only [World.setHook, Function.update_of_ne hk, send_hooks]
        rcases hcase with hold | ⟨hhook, -⟩
        · exact h r e hold ha
        · exact absurd hhook hk
  | close k =>
    have hsame : SameEffects w ((w.send (w.releases k)).setHook k (w.hooks k).cleanup.unmount) :=
      sameEffects_setHook (w := w.send (w.releases k)) (cleanup_effect _)
        (by simp [Hook.unmount])
    exact h.of_same hsame fun r e => inFlight_send (hreleases k)
  | beat k =>
    simp only [step]
    split
    · exact h.send (by simp [World.request])
    · exact h
  | refresh k =>
    simp only [step]
    split
    · exact h.send (by simp [World.request])
    · exact h
  | override k =>
    simp only [step]
    split
    · exact h.send (by simp [World.request])
    · exact h
  | serve i =>
    simp only [step]
    cases hr : w.requests[i]? with
    | none => exact h
    | some r =>
      exact h.answer rfl (fun _ hm => List.mem_of_mem_eraseIdx hm) (mem_append_one fun _ hm => hm)
        (.inl (List.mem_of_getElem? hr))
  | fail i =>
    simp only [step]
    cases hr : w.requests[i]? with
    | none => exact h
    | some r =>
      exact h.answer rfl (fun _ hm => List.mem_of_mem_eraseIdx hm) (mem_append_one fun _ hm => hm)
        (.inl (List.mem_of_getElem? hr))
  | lose i =>
    simp only [step]
    cases hr : w.replies[i]? with
    | none => exact h
    | some rep =>
      exact h.answer rfl (fun _ hm => hm) (mem_append_one fun _ hm => List.mem_of_mem_eraseIdx hm)
        (.inr ⟨rep, List.mem_of_getElem? hr, rfl⟩)
  | deliver i =>
    simp only [step]
    cases hr : w.replies[i]? with
    | none => exact h
    | some rep =>
      have hrest : OwnEffects { w with replies := w.replies.eraseIdx i } :=
        h.answer rfl (fun _ hm => hm) (fun a ha => .inl (List.mem_of_mem_eraseIdx ha))
          (.inr ⟨rep, List.mem_of_getElem? hr, rfl⟩)
      exact receive_ownEffects hrest rep

theorem holdsOwn_setHook (hown : HoldsOwn w) {h : ℕ} {x : Hook} :
    HoldsOwn (w.setHook h x) ↔
      ∀ r info, x.recordId = some r → x.lock = .held info → info.recordId = r := by
  constructor
  · intro hset
    simpa [World.setHook] using hset h
  · intro hx j
    by_cases hj : j = h
    · subst hj
      simpa [World.setHook] using hx
    · simpa [World.setHook, hj] using hown j

/-- What the run keeps besides: answers are for the record of their request, and an acquire for
    the record of its effect. -/
structure OwnAnswers (users : ℕ → ℕ) (w : World) : Prop where
  oneRow : OneRowPerRecord w.locks
  accounted : Accounted users (fun _ => True) w
  effects : OwnEffects w

theorem ownAnswers_step (h : OwnAnswers users w) : OwnAnswers users (step w o) where
  oneRow := step_oneRow h.oneRow
  accounted := (accounted_step h.oneRow h.accounted).mono fun _ _ => trivial
  effects := ownEffects_step h.effects

/-- Only the answer to a refresh can be for another record than the one shown. -/
theorem holdsOwn_receive (hown : HoldsOwn w) {rep : Reply}
    (hinfo : ∀ info, rep.answer = .info info → info.recordId = rep.request.recordId)
    (heffect : ∀ e, rep.request.action = .acquire e → e = (w.hooks rep.request.hook).effects →
      ∀ shown, (w.hooks rep.request.hook).recordId = some shown → rep.request.recordId = shown) :
    HoldsOwn (w.receive rep) ↔ ∀ info r, rep.request.action = .heartbeat →
      rep.answer = .info info → (w.hooks rep.request.hook).recordId = some r →
        rep.request.recordId = r := by
  unfold World.receive
  dsimp only
  cases hact : rep.request.action with
  | acquire effect =>
    rw [holdsOwn_setHook hown]
    refine ⟨fun _ _ _ hno => (by cases hno), fun _ r info hr hl => ?_⟩
    rw [(acquired_effect _ _ _ _).2] at hr
    by_cases he : (w.hooks rep.request.hook).effects = effect
    · rcases acquired_lock hl with ha | hl
      · exact (hinfo info ha).trans (heffect effect hact he.symm r hr)
      · exact hown _ r info hr hl
    · refine hown _ r info hr ?_
      rw [← hl]
      simp [Hook.acquired, he]
  | heartbeat =>
    rw [holdsOwn_setHook hown]
    constructor
    · intro hset info r _ ha hr
      rw [← hinfo info ha]
      refine hset r info ?_ ?_
      · rw [(refreshed_effect _ _).2, hr]
      · simp [Hook.refreshed, ha, hr]
    · intro hx r info hr hl
      rw [(refreshed_effect _ _).2] at hr
      rcases refreshed_lock hl with ha | hl
      · exact (hinfo info ha).trans (hx info r rfl ha hr)
      · exact hown _ r info hr hl
  | release => exact ⟨fun _ _ _ hno => (by cases hno), fun _ => hown⟩
  | override =>
    refine ⟨fun _ _ _ hno => (by cases hno), fun _ => ?_⟩
    dsimp only
    split <;> exact hown

theorem holdsOwn_step (h : OwnAnswers users w) (hown : HoldsOwn w) :
    HoldsOwn (step w o) ↔ ¬ Stale w o := by
  have hquiet : (∀ i, o ≠ .deliver i) → HoldsOwn (step w o) → (HoldsOwn (step w o) ↔ ¬ Stale w o) :=
    fun hno hkept => ⟨fun _ ⟨i, _, _, _, ho, _⟩ => hno i ho, fun _ => hkept⟩
  cases o with
  | deliver i =>
    simp only [step]
    cases hr : w.replies[i]? with
    | none =>
      refine ⟨fun _ ⟨_, _, _, _, ho, hrep, _⟩ => ?_, fun _ => hown⟩
      cases ho
      rw [hr] at hrep
      cases hrep
    | some rep =>
      have hmem := List.mem_of_getElem? hr
      have hrest : HoldsOwn { w with replies := w.replies.eraseIdx i } := hown
      refine (holdsOwn_receive hrest (fun info ha => (h.accounted.granted rep hmem info ha).1)
        fun e ha => (h.effects _ e (.inr ⟨rep, hmem, rfl⟩) ha).2).trans ?_
      constructor
      · rintro hx ⟨_, _, info, r, ho, hrep, hact, ha, hshown, hne⟩
        cases ho
        cases hr.symm.trans hrep
        exact hne (hx info r hact ha hshown)
      · intro hno info r hact ha hshown
        by_contra hne
        exact hno ⟨i, rep, info, r, rfl, hr, hact, ha, hshown, hne⟩
  | visit k r =>
    refine hquiet (by simp) ?_
    simp only [step]
    split
    · exact hown
    · refine (holdsOwn_setHook hown).mpr ?_
      simp [Hook.mount]
  | close k =>
    refine hquiet (by simp) ((holdsOwn_setHook hown).mpr ?_)
    simp [Hook.unmount]
  | tick d => exact hquiet (by simp) hown
  | other r => exact hquiet (by simp) hown
  | _ =>
    refine hquiet (by simp) ?_
    simp only [step]
    split <;> exact hown

/-- **A page holds the record it shows** in every state of a run exactly when no page is handed
    a granted refresh of a record that it left for another one. -/
theorem held_own_record_iff (now : ℤ) (users : ℕ → ℕ) (ops : List Op) :
    AllStates step HoldsOwn (World.start now users) ops ↔
      AllSteps step (fun w o => ¬ Stale w o) (World.start now users) ops := by
  have hstart : OwnAnswers users (World.start now users) :=
    ⟨run_oneRow now users [], (accounted_run now users []).mono fun _ _ => trivial,
      fun r e hr => by simp [World.inFlight, World.start] at hr⟩
  have hown : HoldsOwn (World.start now users) := by simp [HoldsOwn, World.start]
  exact allStates_iff_allSteps (fun _ _ h _ => ownAnswers_step h) (fun _ _ h => holdsOwn_step h)
    hstart hown ops

/-! ## What a page releases -/

/-- The record that a page leaves in this step. -/
def leaves (h : ℕ) (w : World) : Op → Option ℕ
  | .visit k r =>
    if k = h ∧ (w.hooks h).closed = false ∧ (w.hooks h).recordId ≠ some r then
      (w.hooks h).recordId
    else none
  | .close k => if k = h then (w.hooks h).recordId else none
  | _ => none

/-- The records that a page has asked the server to release. -/
def released (h : ℕ) (w : World) : List ℕ :=
  (w.sent.filter fun r => r.hook = h ∧ r.action = .release).map Request.recordId

theorem released_send (h : ℕ) (rs : List Request) :
    released h (w.send rs) = released h w ++
      (rs.filter fun r => r.hook = h ∧ r.action = .release).map Request.recordId := by
  simp [released, World.send]

theorem released_setHook (h k : ℕ) (x : Hook) : released h (w.setHook k x) = released h w := rfl

theorem cleanup_releasedRef (x : Hook) :
    x.cleanup.releasedRef = (x.releasedRef || x.recordId.isSome) := by
  grind [Hook.cleanup]

/-- The cleanup of the effect of `k` releases the record shown, the first time. -/
theorem released_releases (h k : ℕ) :
    ((w.releases k).filter fun r => r.hook = h ∧ r.action = .release).map Request.recordId =
      if k = h ∧ (w.hooks h).releasedRef = false then (w.hooks h).recordId.toList else [] := by
  unfold World.releases
  by_cases hk : k = h
  · subst hk
    cases (w.hooks k).recordId <;> cases (w.hooks k).releasedRef <;> simp [World.request]
  · split <;> simp [World.request, hk]

theorem released_receive (h : ℕ) (rep : Reply) : released h (w.receive rep) = released h w := by
  unfold World.receive
  dsimp only
  cases rep.request.action with
  | override =>
    dsimp only
    split
    · simp [released_send, World.request]
    · rfl
  | _ => rfl

theorem receive_releasedRef (h : ℕ) (rep : Reply) :
    ((w.receive rep).hooks h).releasedRef = (w.hooks h).releasedRef := by
  have hacquired : ∀ (x : Hook) e r a, (x.acquired e r a).releasedRef = x.releasedRef := by
    intro x e r a
    cases a <;> grind [Hook.acquired]
  have hrefreshed : ∀ (x : Hook) a, (x.refreshed a).releasedRef = x.releasedRef := by
    intro x a
    cases a <;> grind [Hook.refreshed]
  unfold World.receive
  dsimp only
  cases rep.request.action <;> grind [setHook_hooks, send_hooks]

/-- A step releases the record that the page leaves, unless it has released one before. -/
theorem released_step (h : ℕ) :
    released h (step w o) = released h w ++
        (if (w.hooks h).releasedRef = false then (leaves h w o).toList else []) ∧
      ((step w o).hooks h).releasedRef =
        ((w.hooks h).releasedRef || (leaves h w o).isSome) := by
  have hquiet : leaves h w o = none → released h (step w o) = released h w →
      ((step w o).hooks h).releasedRef = (w.hooks h).releasedRef →
      released h (step w o) = released h w ++
          (if (w.hooks h).releasedRef = false then (leaves h w o).toList else []) ∧
        ((step w o).hooks h).releasedRef =
          ((w.hooks h).releasedRef || (leaves h w o).isSome) := by
    intro hl hrel href
    simp [hl, hrel, href]
  have hsend : ∀ (k r : ℕ) (a : Action), a ≠ .release →
      released h (w.send [w.request k r a]) = released h w := by
    intro k r a ha
    simp [released_send, World.request, ha]
  cases o with
  | visit k r =>
    by_cases hstay : ((w.hooks k).closed || decide ((w.hooks k).recordId = some r)) = true
    · have hw : step w (.visit k r) = w := by simp only [step, hstay, if_true]
      refine hquiet ?_ (by rw [hw]) (by rw [hw])
      grind [leaves]
    · have hleaves : leaves h w (.visit k r) = if k = h then (w.hooks h).recordId else none := by
        grind [leaves]
      simp only [step, if_neg hstay, hleaves]
      constructor
      · rw [released_setHook, released_send, List.filter_append, List.map_append,
          released_releases]
        by_cases hk : k = h <;> simp [World.request, hk]
      · by_cases hk : k = h
        · subst hk
          simp [setHook_hooks, Hook.mount, cleanup_releasedRef]
        · simp [setHook_hooks, hk, Ne.symm hk]
  | close k =>
    simp only [step, leaves]
    constructor
    · rw [released_setHook, released_send, released_releases]
      by_cases hk : k = h <;> simp [hk]
    · by_cases hk : k = h
      · subst hk
        simp [setHook_hooks, Hook.unmount, cleanup_releasedRef]
      · simp [setHook_hooks, hk, Ne.symm hk]
  | tick d => exact hquiet rfl rfl rfl
  | other r => exact hquiet rfl rfl rfl
  | deliver i =>
    refine hquiet rfl ?_ ?_
    · simp only [step]
      split
      · exact released_receive h _
      · rfl
    · simp only [step]
      split
      · exact receive_releasedRef h _
      · rfl
  | beat k =>
    refine hquiet rfl ?_ ?_ <;> simp only [step] <;> split
    · exact hsend _ _ _ (by simp)
    all_goals rfl
  | refresh k =>
    refine hquiet rfl ?_ ?_ <;> simp only [step] <;> split
    · exact hsend _ _ _ (by simp)
    all_goals rfl
  | override k =>
    refine hquiet rfl ?_ ?_ <;> simp only [step] <;> split
    · exact hsend _ _ _ (by simp)
    all_goals rfl
  | _ => exact hquiet rfl (by simp only [step]; split <;> rfl) (by simp only [step]; split <;> rfl)

/-- **A page releases the first record it leaves** and none of the later ones: the mark that it
    has released a lock is never taken back. -/
theorem released_first_only (now : ℤ) (users : ℕ → ℕ) (h : ℕ) (ops : List Op) :
    released h (run step (World.start now users) ops) =
      (eventsOf step (leaves h) (World.start now users) ops).take 1 := by
  have both : released h (run step (World.start now users) ops) =
        (eventsOf step (leaves h) (World.start now users) ops).take 1 ∧
      (((run step (World.start now users) ops).hooks h).releasedRef = false ↔
        eventsOf step (leaves h) (World.start now users) ops = []) := by
    induction ops using List.reverseRecOn with
    | nil => simp [released, World.start, eventsOf]
    | append_singleton ops o ih =>
      rw [eventsOf_append_one, run_append, run_cons, run_nil]
      obtain ⟨hrel, href⟩ := ih
      obtain ⟨hstep, hmark⟩ := released_step (w := run step (World.start now users) ops) (o := o) h
      rw [hstep, hmark, hrel]
      generalize leaves h (run step (World.start now users) ops) o = left
      cases hl : eventsOf step (leaves h) (World.start now users) ops with
      | nil =>
        have hnone := href.mpr hl
        cases left <;> simp [hnone]
      | cons a rest =>
        have hsome : ((run step (World.start now users) ops).hooks h).releasedRef ≠ false :=
          fun hf => by simp [href.mp hf] at hl
        cases left <;> simp [hsome]
  exact both.1

end TempleConsign.WebLock
