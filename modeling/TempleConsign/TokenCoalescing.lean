import Mathlib.Logic.Function.Basic
import TempleConsign.Lib.Run

/-!
# Refresh coalescing in the phone's client

Model of `rawRequest`, `ensureFreshAccessToken` and `performRefresh`
(`src/ios/TempleHEAppraiser/Networking/TempleHEClient.swift` lines 122, 188 and 200)
on authenticated requests. A request that gets a 401 awaits the task in
`refreshInFlight`, or creates one; the request that created the task sets
`refreshInFlight` back to nil when it goes on. The task does not record for which
token it was created, so a 401 that is handled after that starts another refresh.

Deviations: the call of a task leaves when the task is created. A keychain write may
fail with the old entry kept or deleted (`KeychainStore.save` deletes before it adds).
`refreshes` and `retries` are logs that the client does not keep.

Results:
* `TempleHEClient.Inv.step`: what the steps keep while no late 401 refreshes again.
* `refreshes_once_iff`: one refresh for the token, and one retry with its result for each
  request, exactly when no 401 is handled after a refresh for its token was sent and
  the client is done with it.
-/

namespace TempleConsign

open ServiceLib

/-! ## The client -/

/-- `KeychainStore`, with its two entries. -/
structure Keychain where
  accessToken : Option ℕ
  refreshToken : Option ℕ

/-- How `KeychainStore.save` (line 62) ends. -/
inductive SaveOutcome
  | saved
  /-- It throws, and the old entry is still there. -/
  | kept
  /-- It throws, and the old entry is deleted. -/
  | deleted
  deriving DecidableEq

def SaveOutcome.entry : SaveOutcome → Option ℕ → ℕ → Option ℕ
  | .saved, _, value => some value
  | .kept, old, _ => old
  | .deleted, _, _ => none

/-- What comes back to `performRefresh`. -/
inductive RefreshReply
  /-- No answer, a status other than 200 or a body that does not decode. -/
  | refused
  | tokens (access : ℕ) (refresh : Option ℕ) (accessSave refreshSave : SaveOutcome)

/-- A `Task<String, Error>` of `ensureFreshAccessToken`. -/
inductive RefreshTask
  | running
  | failed
  | done (token : ℕ)
  deriving DecidableEq

/-- `performRefresh` (line 211) after its call. -/
def performRefresh (keychain : Keychain) : RefreshReply → Keychain × RefreshTask
  | .refused => (keychain, .failed)
  | .tokens access refresh accessSave refreshSave =>
    let keychain := { keychain with
      accessToken := accessSave.entry keychain.accessToken access }
    if accessSave = .saved then
      match refresh with
      | none => (keychain, .done access)
      | some new =>
        let keychain := { keychain with
          refreshToken := refreshSave.entry keychain.refreshToken new }
        (keychain, if refreshSave = .saved then .done access else .failed)
    else (keychain, .failed)

/-- Where a call of `rawRequest` stands. -/
inductive RawRequest
  | idle
  /-- It is out with this token. -/
  | sent (token : Option ℕ)
  /-- It awaits a task, which it created or found. -/
  | awaiting (token : Option ℕ) (task : ℕ) (created : Bool)
  | retrying
  | done
  /-- It threw an `APIError`. -/
  | failed

/-- A refresh call: its task, and the token of the request that got the 401. -/
structure RefreshCall where
  task : ℕ
  expired : Option ℕ

/-- A retry: the task it awaited, and the token it was sent with. -/
structure Retry where
  task : ℕ
  token : Option ℕ

/-- The client, its keychain and its tasks. -/
structure TempleHEClient where
  keychain : Keychain
  refreshInFlight : Option ℕ
  tasks : List RefreshTask
  requests : ℕ → RawRequest
  refreshes : List RefreshCall
  retries : ℕ → List Retry

inductive PhoneEvent
  /-- `rawRequest` sends its request. -/
  | send (i : ℕ)
  /-- An answer other than 401. -/
  | answered (i : ℕ) (ok : Bool)
  /-- A 401 is handled. -/
  | unauthorized (i : ℕ)
  /-- The call of a task is answered. -/
  | refreshAnswered (task : ℕ) (reply : RefreshReply)
  /-- A request goes on after its task ended. -/
  | resume (i : ℕ)
  | retryAnswered (i : ℕ) (ok : Bool)

def TempleHEClient.setRequest (s : TempleHEClient) (i : ℕ) (r : RawRequest) : TempleHEClient :=
  { s with requests := Function.update s.requests i r }

/-- A new task (line 192): without a refresh token it fails at once. -/
def TempleHEClient.createTask (s : TempleHEClient) (expired : Option ℕ) : TempleHEClient :=
  match s.keychain.refreshToken with
  | none =>
    { s with tasks := s.tasks ++ [.failed], refreshInFlight := some s.tasks.length }
  | some _ =>
    { s with
      tasks := s.tasks ++ [.running]
      refreshInFlight := some s.tasks.length
      refreshes := s.refreshes ++ [⟨s.tasks.length, expired⟩] }

/-- `ensureFreshAccessToken` (line 188) up to its `await`. -/
def TempleHEClient.ensureFreshAccessToken (s : TempleHEClient) (i : ℕ) (token : Option ℕ) :
    TempleHEClient :=
  match s.refreshInFlight with
  | some existing => s.setRequest i (.awaiting token existing false)
  | none => (s.createTask token).setRequest i (.awaiting token s.tasks.length true)

/-- The `defer` of `ensureFreshAccessToken` (line 196). -/
def TempleHEClient.leave (s : TempleHEClient) (created : Bool) : TempleHEClient :=
  { s with refreshInFlight := if created then none else s.refreshInFlight }

/-- `rawRequest` from line 156: the header of `req` stays when the keychain has no token. -/
def TempleHEClient.retry (s : TempleHEClient) (i task : ℕ) (token : Option ℕ) : TempleHEClient :=
  { s with
    requests := Function.update s.requests i .retrying
    retries := Function.update s.retries i
      (s.retries i ++ [⟨task, s.keychain.accessToken.or token⟩]) }

/-- `rawRequest` goes on after the `await` of its task. -/
def TempleHEClient.awaited (s : TempleHEClient) (i : ℕ) (token : Option ℕ) (k : ℕ)
    (created : Bool) : TempleHEClient :=
  match s.tasks[k]? with
  | some (.done _) => (s.leave created).retry i k token
  | some .failed => (s.leave created).setRequest i .failed
  | _ => s

/-- `performRefresh` of the task `k` goes on after the `await` of its call. -/
def TempleHEClient.refreshReplied (s : TempleHEClient) (k : ℕ) (reply : RefreshReply) :
    TempleHEClient :=
  match s.tasks[k]? with
  | some .running =>
    let (keychain, task) := performRefresh s.keychain reply
    { s with keychain := keychain, tasks := s.tasks.set k task }
  | _ => s

/-- One event of the client; nothing happens when the request is not where the event
    finds it. -/
def TempleHEClient.step (s : TempleHEClient) : PhoneEvent → TempleHEClient
  | .send i =>
    match s.requests i with
    | .idle => s.setRequest i (.sent s.keychain.accessToken)
    | _ => s
  | .answered i ok =>
    match s.requests i with
    | .sent _ => s.setRequest i (if ok then .done else .failed)
    | _ => s
  | .unauthorized i =>
    match s.requests i with
    | .sent token => s.ensureFreshAccessToken i token
    | _ => s
  | .refreshAnswered k reply => s.refreshReplied k reply
  | .resume i =>
    match s.requests i with
    | .awaiting token k created => s.awaited i token k created
    | _ => s
  | .retryAnswered i ok =>
    match s.requests i with
    | .retrying => s.setRequest i (if ok then .done else .failed)
    | _ => s

/-- The client before its first request. -/
def TempleHEClient.signedIn (keychain : Keychain) : TempleHEClient where
  keychain := keychain
  refreshInFlight := none
  tasks := []
  requests := fun _ => .idle
  refreshes := []
  retries := fun _ => []

/-! ## Coalesced refreshes -/

/-- The refresh calls sent for a token. -/
def TempleHEClient.refreshesOf (s : TempleHEClient) (token : Option ℕ) : List RefreshCall :=
  s.refreshes.filter (fun r => r.expired = token)

/-- The token of the retry is what its task returned. -/
def TempleHEClient.Produced (s : TempleHEClient) (r : Retry) : Prop :=
  ∃ token, s.tasks[r.task]? = some (.done token) ∧ r.token = some token

/-- At most one refresh for each token, at most one retry of each request, and every retry
    with the token that the refresh produced. -/
structure TempleHEClient.Coalesced (s : TempleHEClient) : Prop where
  refreshes : ∀ token, (s.refreshesOf token).length ≤ 1
  retries : ∀ i, (s.retries i).length ≤ 1
  produced : ∀ i, ∀ r ∈ s.retries i, s.Produced r

/-- The requests are sent with the token `token`. -/
def SentWith (token : ℕ) (s : TempleHEClient) : PhoneEvent → Prop
  | .send _ => s.keychain.accessToken = some token
  | _ => True

/-- A 401 that finds no refresh in flight, and a refresh token, is the first for its token:
    no refresh for it was sent. -/
def NoLate401 (s : TempleHEClient) : PhoneEvent → Prop
  | .unauthorized i =>
    ∀ token, s.requests i = .sent token → s.refreshInFlight = none →
      s.keychain.refreshToken.isSome → s.refreshesOf token = []
  | _ => True

/-! ## The invariant -/

def RawRequest.BeforeRetry : RawRequest → Prop
  | .idle => True
  | .sent _ => True
  | .awaiting _ _ _ => True
  | _ => False

/-- What the steps keep: one refresh call in all, so the keychain holds what any task
    that is done returned. -/
structure TempleHEClient.Inv (token : ℕ) (s : TempleHEClient) : Prop where
  sent : ∀ i t, s.requests i = .sent t → t = some token
  expired : ∀ r ∈ s.refreshes, r.expired = some token
  once : s.refreshes.length ≤ 1
  called : ∀ (k : ℕ) (task : RefreshTask), s.tasks[k]? = some task → task ≠ .failed →
    ∃ r ∈ s.refreshes, r.task = k
  stored : ∀ (k t : ℕ), s.tasks[k]? = some (.done t) → s.keychain.accessToken = some t
  retries : ∀ i, (s.retries i).length ≤ 1
  beforeRetry : ∀ i, (s.requests i).BeforeRetry → s.retries i = []
  produced : ∀ i, ∀ r ∈ s.retries i, s.Produced r

namespace TempleHEClient

variable {token : ℕ} {s : TempleHEClient}

theorem Inv.coalesced (h : s.Inv token) : s.Coalesced where
  refreshes := fun _ => Nat.le_trans (List.length_filter_le _ _) h.once
  retries := h.retries
  produced := h.produced

theorem inv_signedIn (keychain : Keychain) : (signedIn keychain).Inv token where
  sent := by
    intro i t h
    cases h
  expired := by simp [signedIn]
  once := by simp [signedIn]
  called := by simp [signedIn]
  stored := by simp [signedIn]
  retries := by simp [signedIn]
  beforeRetry := fun _ _ => rfl
  produced := by simp [signedIn]

/-- The calls sent for the token are all the calls. -/
theorem Inv.refreshesOf_eq (h : s.Inv token) : s.refreshesOf (some token) = s.refreshes := by
  refine List.filter_eq_self.mpr fun r hr => ?_
  rw [h.expired r hr]
  simp

/-- Two tasks that did not fail are one: each has its call. -/
theorem Inv.task_unique (h : s.Inv token) {j k : ℕ} {x y : RefreshTask}
    (hj : s.tasks[j]? = some x) (hx : x ≠ .failed) (hk : s.tasks[k]? = some y)
    (hy : y ≠ .failed) : j = k := by
  obtain ⟨r, hr, hrj⟩ := h.called j x hj hx
  obtain ⟨r', hr', hrk⟩ := h.called k y hk hy
  have hone := h.once
  obtain ⟨r₀, h₀⟩ := List.length_eq_one_iff.mp
    (Nat.le_antisymm hone (List.length_pos_of_mem hr))
  rw [h₀, List.mem_singleton] at hr hr'
  rw [← hrj, ← hrk, hr, hr']

theorem Inv.setRequest (h : s.Inv token) {i : ℕ} {r : RawRequest}
    (hsent : ∀ t, r = .sent t → t = some token) (hbefore : r.BeforeRetry → s.retries i = []) :
    (s.setRequest i r).Inv token where
  sent := by
    intro j t hj
    by_cases hij : j = i
    · subst hij
      exact hsent t (by simpa [TempleHEClient.setRequest] using hj)
    · exact h.sent j t (by simpa [TempleHEClient.setRequest, hij] using hj)
  expired := h.expired
  once := h.once
  called := h.called
  stored := h.stored
  retries := h.retries
  beforeRetry := by
    intro j hj
    by_cases hij : j = i
    · subst hij
      exact hbefore (by simpa [TempleHEClient.setRequest] using hj)
    · exact h.beforeRetry j (by simpa [TempleHEClient.setRequest, hij] using hj)
  produced := h.produced

theorem Inv.leave (h : s.Inv token) (created : Bool) : (s.leave created).Inv token :=
  ⟨h.sent, h.expired, h.once, h.called, h.stored, h.retries, h.beforeRetry, h.produced⟩

/-! ## A new task -/

/-- The tasks after one more. -/
theorem getElem?_append_one {α : Type} {l : List α} {a b : α} {k : ℕ}
    (h : (l ++ [a])[k]? = some b) : l[k]? = some b ∨ k = l.length ∧ b = a := by
  rw [List.getElem?_append] at h
  split_ifs at h with hk
  · exact Or.inl h
  · rw [List.getElem?_singleton] at h
    split_ifs at h with h0
    exact Or.inr ⟨by omega, (Option.some_inj.mp h).symm⟩

theorem Produced.append {r : Retry} (h : s.Produced r) (task : RefreshTask) :
    ∃ t, (s.tasks ++ [task])[r.task]? = some (.done t) ∧ r.token = some t := by
  obtain ⟨t, htask, htoken⟩ := h
  exact ⟨t, by rw [List.getElem?_append_left (List.getElem?_eq_some_iff.mp htask).1, htask],
    htoken⟩

/-- A task that is created keeps the invariant unless it sends a second call. -/
theorem Inv.createTask (h : s.Inv token)
    (hfirst : s.keychain.refreshToken.isSome → s.refreshes = []) :
    (s.createTask (some token)).Inv token := by
  unfold TempleHEClient.createTask
  cases hrefresh : s.keychain.refreshToken with
  | none =>
    refine ⟨h.sent, h.expired, h.once, ?_, ?_, h.retries, h.beforeRetry,
      fun i r hr => (h.produced i r hr).append _⟩
    · intro k task hk hne
      rcases getElem?_append_one hk with hk | ⟨_, rfl⟩
      · exact h.called k task hk hne
      · exact absurd rfl hne
    · intro k t hk
      rcases getElem?_append_one hk with hk | ⟨_, hdone⟩
      · exact h.stored k t hk
      · cases hdone
  | some refresh =>
    have hnone : s.refreshes = [] := hfirst (by rw [hrefresh]; rfl)
    refine ⟨h.sent, ?_, ?_, ?_, ?_, h.retries, h.beforeRetry,
      fun i r hr => (h.produced i r hr).append _⟩
    · intro r hr
      have hr' : r = ⟨s.tasks.length, some token⟩ := by simpa [hnone] using hr
      rw [hr']
    · show (s.refreshes ++ [_]).length ≤ 1
      rw [hnone]
      simp
    · intro k task hk hne
      rcases getElem?_append_one hk with hk | ⟨hlast, _⟩
      · obtain ⟨r, hr, hrk⟩ := h.called k task hk hne
        exact ⟨r, List.mem_append_left _ hr, hrk⟩
      · exact ⟨⟨s.tasks.length, some token⟩, List.mem_append_right _ (List.mem_singleton.mpr rfl),
          hlast.symm⟩
    · intro k t hk
      rcases getElem?_append_one hk with hk | ⟨_, hdone⟩
      · exact h.stored k t hk
      · cases hdone

/-! ## The end of a task -/

/-- A refresh that succeeds stores the token that it returns. -/
theorem performRefresh_stored {keychain : Keychain} {reply : RefreshReply} {t : ℕ}
    (h : (performRefresh keychain reply).2 = .done t) :
    (performRefresh keychain reply).1.accessToken = some t := by
  cases reply with
  | refused => cases h
  | tokens access refresh accessSave refreshSave =>
    unfold performRefresh at h ⊢
    cases accessSave with
    | kept => cases h
    | deleted => cases h
    | saved =>
      cases refresh with
      | none =>
        cases h
        rfl
      | some new =>
        cases refreshSave with
        | kept => cases h
        | deleted => cases h
        | saved =>
          cases h
          rfl

theorem Inv.taskEnds (h : s.Inv token) {k : ℕ} (hk : s.tasks[k]? = some .running)
    (reply : RefreshReply) :
    ({ s with keychain := (performRefresh s.keychain reply).1,
              tasks := s.tasks.set k (performRefresh s.keychain reply).2 } :
      TempleHEClient).Inv token := by
  have hset : ∀ {j : ℕ} {x : RefreshTask},
      (s.tasks.set k (performRefresh s.keychain reply).2)[j]? = some x →
      (j = k ∧ (performRefresh s.keychain reply).2 = x) ∨ j ≠ k ∧ s.tasks[j]? = some x := by
    intro j x hj
    rw [List.getElem?_set] at hj
    split_ifs at hj with hjk
    · exact Or.inl ⟨hjk.symm, Option.some_inj.mp hj⟩
    · exact Or.inr ⟨fun h => hjk h.symm, hj⟩
  refine ⟨h.sent, h.expired, h.once, ?_, ?_, h.retries, h.beforeRetry, ?_⟩
  · intro j x hj hne
    rcases hset hj with ⟨rfl, _⟩ | ⟨_, hj⟩
    · exact h.called j .running hk (by decide)
    · exact h.called j x hj hne
  · intro j t hj
    rcases hset hj with ⟨_, hdone⟩ | ⟨hjk, hj⟩
    · exact performRefresh_stored hdone
    · exact absurd (h.task_unique hj (by simp) hk (by simp)) hjk
  · intro i r hr
    obtain ⟨t, htask, htoken⟩ := h.produced i r hr
    have hne : k ≠ r.task := by
      rintro rfl
      rw [hk] at htask
      cases htask
    exact ⟨t, by rw [List.getElem?_set_ne hne, htask], htoken⟩

theorem Inv.refreshReplied (h : s.Inv token) (k : ℕ) (reply : RefreshReply) :
    (s.refreshReplied k reply).Inv token := by
  unfold TempleHEClient.refreshReplied
  split
  · next hk => exact h.taskEnds hk reply
  · exact h

/-! ## A retry -/

/-- A request goes on with the token of the keychain, which its task stored. -/
theorem Inv.retry (h : s.Inv token) {i k u : ℕ} (hk : s.tasks[k]? = some (.done u))
    (hnone : s.retries i = []) (t : Option ℕ) : (s.retry i k t).Inv token := by
  have hentry : ∀ j, (s.retry i k t).retries j =
      if j = i then [⟨k, some u⟩] else s.retries j := by
    intro j
    show Function.update s.retries i (s.retries i ++ [⟨k, s.keychain.accessToken.or t⟩]) j = _
    rw [hnone, h.stored k u hk, Function.update_apply]
    rfl
  refine ⟨?_, h.expired, h.once, h.called, h.stored, ?_, ?_, ?_⟩
  · intro j v hj
    by_cases hij : j = i
    · subst hij
      simp [TempleHEClient.retry] at hj
    · exact h.sent j v (by simpa [TempleHEClient.retry, hij] using hj)
  · intro j
    rw [hentry]
    split_ifs
    · exact Nat.le_refl 1
    · exact h.retries j
  · intro j hj
    by_cases hij : j = i
    · subst hij
      simp [TempleHEClient.retry, RawRequest.BeforeRetry] at hj
    · rw [hentry, if_neg hij]
      exact h.beforeRetry j (by simpa [TempleHEClient.retry, hij] using hj)
  · intro j r hr
    rw [hentry] at hr
    split_ifs at hr
    · rw [List.mem_singleton.mp hr]
      exact ⟨u, hk, rfl⟩
    · exact h.produced j r hr

/-! ## The steps -/

/-- A request that has not been retried may go on to any place that sends no other token. -/
theorem Inv.moveRequest (h : s.Inv token) {i : ℕ} {r : RawRequest}
    (hbefore : (s.requests i).BeforeRetry) (hsent : ∀ t, r ≠ .sent t) :
    (s.setRequest i r).Inv token :=
  h.setRequest (fun t ht => absurd ht (hsent t)) (fun _ => h.beforeRetry i hbefore)

theorem Inv.unauthorized (h : s.Inv token) {i : ℕ} {t : Option ℕ} (hi : s.requests i = .sent t)
    (hc : NoLate401 s (.unauthorized i)) : (s.ensureFreshAccessToken i t).Inv token := by
  have hbefore : (s.requests i).BeforeRetry := by
    rw [hi]
    trivial
  unfold TempleHEClient.ensureFreshAccessToken
  cases hflight : s.refreshInFlight with
  | some existing => exact h.moveRequest hbefore (fun _ => by simp)
  | none =>
    have ht : t = some token := h.sent i t hi
    subst ht
    have hfirst : s.keychain.refreshToken.isSome → s.refreshes = [] := by
      intro hrefresh
      rw [← h.refreshesOf_eq]
      exact hc _ hi hflight hrefresh
    have hsame : (s.createTask (some token)).requests i = s.requests i := by
      unfold TempleHEClient.createTask
      cases s.keychain.refreshToken with
      | none => rfl
      | some refresh => rfl
    exact (h.createTask hfirst).moveRequest (by rwa [hsame]) (fun _ => by simp)

/-- A request goes on after its task. -/
theorem Inv.awaited (h : s.Inv token) {i : ℕ} (hbefore : (s.requests i).BeforeRetry)
    (t : Option ℕ) (k : ℕ) (created : Bool) : (s.awaited i t k created).Inv token := by
  unfold TempleHEClient.awaited
  cases htask : s.tasks[k]? with
  | none => exact h
  | some task =>
    cases task with
    | running => exact h
    | failed => exact (h.leave created).moveRequest hbefore (fun _ => by simp)
    | done u => exact (h.leave created).retry htask (h.beforeRetry i hbefore) t

/-- A request that is answered can send nothing more. -/
theorem Inv.finish (h : s.Inv token) (i : ℕ) (ok : Bool) :
    (s.setRequest i (if ok then .done else .failed)).Inv token := by
  cases ok with
  | false => exact h.setRequest (fun _ ht => by cases ht) (fun hb => hb.elim)
  | true => exact h.setRequest (fun _ ht => by cases ht) (fun hb => hb.elim)

/-- What the steps keep while no late 401 refreshes again. -/
theorem Inv.step (h : s.Inv token) {e : PhoneEvent} (hd : SentWith token s e)
    (hc : NoLate401 s e) : (s.step e).Inv token := by
  cases e with
  | send i =>
    simp only [TempleHEClient.step]
    split
    · next hi =>
      have hsent : ∀ t, RawRequest.sent s.keychain.accessToken = .sent t → t = some token := by
        rintro _ ⟨⟩
        exact hd
      exact h.setRequest hsent fun _ => h.beforeRetry i (by rw [hi]; trivial)
    · exact h
  | answered i ok =>
    simp only [TempleHEClient.step]
    split
    · exact h.finish i ok
    · exact h
  | unauthorized i =>
    simp only [TempleHEClient.step]
    split
    · next t hi => exact h.unauthorized hi hc
    · exact h
  | refreshAnswered k reply => exact h.refreshReplied k reply
  | resume i =>
    simp only [TempleHEClient.step]
    split
    · next t k created hi => exact h.awaited (by rw [hi]; trivial) t k created
    · exact h
  | retryAnswered i ok =>
    simp only [TempleHEClient.step]
    split
    · exact h.finish i ok
    · exact h

/-- A late 401 sends a second refresh for its token. -/
theorem noLate401_of_coalesced {e : PhoneEvent} (h : (s.step e).Coalesced) : NoLate401 s e := by
  cases e with
  | unauthorized i =>
    intro t hi hflight hrefresh
    obtain ⟨refresh, hrefresh⟩ := Option.isSome_iff_exists.mp hrefresh
    have hcalls : (s.step (.unauthorized i)).refreshes =
        s.refreshes ++ [⟨s.tasks.length, t⟩] := by
      simp only [TempleHEClient.step, hi, TempleHEClient.ensureFreshAccessToken, hflight,
        TempleHEClient.createTask, hrefresh, TempleHEClient.setRequest]
    have hcount := h.refreshes t
    rw [TempleHEClient.refreshesOf, hcalls, List.filter_append, List.length_append] at hcount
    have hnew : ([⟨s.tasks.length, t⟩] : List RefreshCall).filter (fun r => r.expired = t) =
        [⟨s.tasks.length, t⟩] := by simp
    rw [hnew, List.length_singleton] at hcount
    exact List.eq_nil_of_length_eq_zero (by show (s.refreshes.filter _).length = 0; omega)
  | send i => trivial
  | answered i ok => trivial
  | refreshAnswered k reply => trivial
  | resume i => trivial
  | retryAnswered i ok => trivial

end TempleHEClient

/-- **The requests of one token share one refresh exactly when no 401 comes late.** -/
theorem refreshes_once_iff (keychain : Keychain) (token : ℕ) {events : List PhoneEvent}
    (hsent : AllSteps TempleHEClient.step (SentWith token) (.signedIn keychain) events) :
    AllStates TempleHEClient.step TempleHEClient.Coalesced (.signedIn keychain) events ↔
      AllSteps TempleHEClient.step NoLate401 (.signedIn keychain) events :=
  allStates_iff_of_inv_along (fun _ _ h hd hc => h.step hd hc)
    (fun _ h => h.coalesced) (fun _ _ _ _ h => TempleHEClient.noLate401_of_coalesced h)
    (TempleHEClient.inv_signedIn keychain) hsent

/-! ## Two sessions -/

/-- Two requests whose 401s come together. -/
def sharedRefresh : List PhoneEvent :=
  [.send 0, .send 1, .unauthorized 0, .unauthorized 1,
    .refreshAnswered 0 (.tokens 8 (some 21) .saved .saved), .resume 0, .resume 1,
    .retryAnswered 0 true, .retryAnswered 1 true]

/-- The second 401 comes when the refresh of the first has finished. -/
def late401 : List PhoneEvent :=
  [.send 0, .send 1, .unauthorized 0,
    .refreshAnswered 0 (.tokens 8 (some 21) .saved .saved), .resume 0, .unauthorized 1]

/-- The token 7 expires. -/
def expiring : TempleHEClient := .signedIn ⟨some 7, some 20⟩

theorem sharedRefresh_once :
    AllStates TempleHEClient.step TempleHEClient.Coalesced expiring sharedRefresh := by
  refine (refreshes_once_iff ⟨some 7, some 20⟩ 7 ?_).mpr ?_
  · exact ⟨rfl, rfl, trivial, trivial, trivial, trivial, trivial, trivial, trivial, trivial⟩
  · refine ⟨trivial, trivial, fun _ _ _ _ => ?_, fun _ _ hflight _ => ?_, trivial, trivial, trivial,
      trivial, trivial, trivial⟩
    · rfl
    · cases hflight

/-- The late 401 spends the new refresh token. -/
theorem late401_refreshes_twice :
    AllSteps TempleHEClient.step (SentWith 7) expiring late401 ∧
      ((run TempleHEClient.step expiring late401).refreshesOf (some 7)).length = 2 ∧
      ¬ AllStates TempleHEClient.step TempleHEClient.Coalesced expiring late401 := by
  have htwo : ((run TempleHEClient.step expiring late401).refreshesOf (some 7)).length = 2 := by
    decide
  refine ⟨⟨rfl, rfl, trivial, trivial, trivial, trivial, trivial⟩, htwo, fun h => ?_⟩
  have hone := h.last.refreshes (some 7)
  omega

end TempleConsign
