import Mathlib.Logic.Function.Basic
import TempleConsign.Sessions
import TempleConsign.Lib.Run

/-!
# Token refresh in the web client

Model of `request` and `attemptRefresh` (`src/web/src/api/client.ts` lines 37
and 49) with any number of calls in flight against a server that rotates
refresh tokens (`validate_and_rotate`). An `Episode` begins when the access
token of the auth store has expired and the cookie is still valid; it is short
against the lifetimes of the tokens, so the clock stands still. The browser
attaches the cookie when a call leaves and replaces it when an answer arrives.

Results:
* `move_inStep`: while each refresh call is alone, every call that is out holds
  the live cookie.
* `move_doomed`: a refresh call that is out with a dead token ends in a failed
  request.
* `refresh_served_iff`: every request is served exactly when no refresh call
  leaves while another is out.
-/

namespace TempleConsign

open ServiceLib

/-! ## The client -/

/-- The claims of `create_access_token` (`auth_service.py` line 64) that the
    server checks. -/
structure AccessToken where
  userId : ℕ
  exp : ℤ
  deriving DecidableEq

def newAccessToken (now : ℤ) (userId : ℕ) : AccessToken :=
  ⟨userId, now + accessTokenLifetime⟩

def AccessToken.validAt (now : ℤ) (t : AccessToken) : Prop := now < t.exp

instance (now : ℤ) (t : AccessToken) : Decidable (t.validAt now) :=
  inferInstanceAs (Decidable (now < t.exp))

/-- What `/auth/refresh` answers: an access token and the new cookie, or an
    error. -/
abbrev RefreshAnswer := Option (AccessToken × ℕ)

/-- Where a call of `request` stands. -/
inductive RequestPhase
  | idle
  /-- The fetch is out with this `Authorization` header. -/
  | sent (token : Option AccessToken)
  /-- The answer 401 is on its way back. -/
  | unauthorized
  /-- `attemptRefresh` is out with this cookie. -/
  | refreshing (cookie : ℕ)
  | refreshAnswered (answer : RefreshAnswer)
  /-- `attemptRefresh` has returned. -/
  | refreshed (newToken : Option AccessToken)
  | retrying (token : AccessToken)
  | done
  /-- An `ApiError` with status 401 was thrown. -/
  | failed
  deriving DecidableEq

/-- The server's sessions, the `accessToken` of the auth store, the browser's
    refresh cookie and the requests. -/
structure WebClient where
  sessions : Store UserSession
  accessToken : Option AccessToken
  cookie : ℕ
  phase : ℕ → RequestPhase

def WebClient.setPhase (s : WebClient) (i : ℕ) (p : RequestPhase) : WebClient :=
  { s with phase := Function.update s.phase i p }

inductive ClientOp
  /-- The page calls `request`. -/
  | start (i : ℕ)
  /-- The server answers the first fetch. -/
  | answer (i : ℕ)
  /-- The answer 401 arrives and `attemptRefresh` is called. -/
  | refresh (i : ℕ)
  /-- The server handles the refresh call. -/
  | serve (i : ℕ)
  /-- `refresh_ip_limiter` turns the refresh call away. -/
  | throttle (i : ℕ)
  /-- The answer of the refresh call arrives at the browser. -/
  | receive (i : ℕ)
  /-- `request` goes on after `attemptRefresh`. -/
  | resume (i : ℕ)
  /-- The server answers the second fetch. -/
  | answerRetry (i : ℕ)
  deriving DecidableEq

/-- `POST /auth/refresh` (`src/api/routers/auth.py` line 236). -/
def serveRefresh (now : ℤ) (cookie : ℕ) (db : Store UserSession) :
    RefreshAnswer × Store UserSession :=
  match Svc.exec (validateAndRotate now cookie) db with
  | (.ok (some (userId, newToken)), db') => (some (newAccessToken now userId, newToken), db')
  | (_, db') => (none, db')

/-- One event of the client or the server; nothing happens when the request is
    not where the event finds it. -/
def clientStep (now : ℤ) (s : WebClient) : ClientOp → WebClient
  | .start i =>
    match s.phase i with
    | .idle => s.setPhase i (.sent s.accessToken)
    | _ => s
  | .answer i =>
    match s.phase i with
    | .sent (some t) => s.setPhase i (if t.validAt now then .done else .unauthorized)
    | .sent none => s.setPhase i .unauthorized
    | _ => s
  | .refresh i =>
    match s.phase i with
    | .unauthorized => s.setPhase i (.refreshing s.cookie)
    | _ => s
  | .serve i =>
    match s.phase i with
    | .refreshing cookie =>
      let (answer, db) := serveRefresh now cookie s.sessions
      { s with sessions := db }.setPhase i (.refreshAnswered answer)
    | _ => s
  | .throttle i =>
    match s.phase i with
    | .refreshing _ => s.setPhase i (.refreshAnswered none)
    | _ => s
  | .receive i =>
    match s.phase i with
    -- the `Set-Cookie` of the answer takes effect when it arrives
    | .refreshAnswered (some (t, cookie)) =>
      { s with cookie := cookie }.setPhase i (.refreshed (some t))
    | .refreshAnswered none => s.setPhase i (.refreshed none)
    | _ => s
  | .resume i =>
    match s.phase i with
    | .refreshed (some t) => { s with accessToken := some t }.setPhase i (.retrying t)
    | .refreshed none => { s with accessToken := none }.setPhase i .failed
    | _ => s
  | .answerRetry i =>
    match s.phase i with
    | .retrying t => s.setPhase i (if t.validAt now then .done else .failed)
    | _ => s

/-- The start: an expired access token, and a cookie whose session is live. -/
structure Episode where
  now : ℤ
  accessToken : AccessToken
  sessions : Store UserSession
  cookie : ℕ
  session : UserSession
  expired : ¬ accessToken.validAt now
  cookie_get? : sessions.get? cookie = some session
  cookie_live : session.liveAt now = true

def Episode.start (e : Episode) : WebClient where
  sessions := e.sessions
  accessToken := some e.accessToken
  cookie := e.cookie
  phase := fun _ => .idle

/-- The auth store still holds a token, no request failed and the retries carry
    valid tokens. -/
structure Served (now : ℤ) (s : WebClient) : Prop where
  stored : s.accessToken ≠ none
  notFailed : ∀ i, s.phase i ≠ .failed
  retried : ∀ i t, s.phase i = .retrying t → t.validAt now

/-- The refresh call of the request has left and its answer has not arrived. -/
def RequestPhase.callOut : RequestPhase → Bool
  | .refreshing _ | .refreshAnswered _ => true
  | _ => false

/-- A refresh call leaves only while no other is out, and none is turned away. -/
def CallsAlone (s : WebClient) : ClientOp → Prop
  | .refresh i => s.phase i = .unauthorized → ∀ j, (s.phase j).callOut = false
  | .throttle i => ∀ cookie, s.phase i ≠ .refreshing cookie
  | _ => True

/-- No request is on its way. -/
def Settled (s : WebClient) : Prop :=
  ∀ i, s.phase i = .idle ∨ s.phase i = .done ∨ s.phase i = .failed

@[simp] theorem setPhase_self (s : WebClient) (i : ℕ) (p : RequestPhase) :
    (s.setPhase i p).phase i = p := by
  simp [WebClient.setPhase]

theorem setPhase_ne (s : WebClient) {i j : ℕ} (p : RequestPhase) (h : j ≠ i) :
    (s.setPhase i p).phase j = s.phase j := by
  simp [WebClient.setPhase, h]

@[simp] theorem setPhase_sessions (s : WebClient) (i : ℕ) (p : RequestPhase) :
    (s.setPhase i p).sessions = s.sessions := rfl

@[simp] theorem setPhase_accessToken (s : WebClient) (i : ℕ) (p : RequestPhase) :
    (s.setPhase i p).accessToken = s.accessToken := rfl

@[simp] theorem setPhase_cookie (s : WebClient) (i : ℕ) (p : RequestPhase) :
    (s.setPhase i p).cookie = s.cookie := rfl

/-! ## Live and dead tokens -/

/-- The session of the token is neither revoked nor expired. -/
def LiveToken (now : ℤ) (db : Store UserSession) (token : ℕ) : Prop :=
  ∃ r, db.get? token = some r ∧ r.liveAt now = true

def DeadToken (now : ℤ) (db : Store UserSession) (token : ℕ) : Prop :=
  ∃ r, db.get? token = some r ∧ r.liveAt now = false

theorem DeadToken.not_live {now : ℤ} {db : Store UserSession} {token : ℕ}
    (h : DeadToken now db token) : ¬ LiveToken now db token := by
  obtain ⟨r, hr, hd⟩ := h
  rintro ⟨r', hr', hl⟩
  rw [hr] at hr'
  cases hr'
  rw [hd] at hl
  cases hl

/-- The server refuses the call and writes nothing, or the token was live, is
    dead from now on and the answer carries a live one. -/
theorem serveRefresh_cases (now : ℤ) (token : ℕ) (db : Store UserSession) :
    (¬ LiveToken now db token ∧ serveRefresh now token db = (none, db)) ∨
      ∃ r, LiveToken now db token ∧ db.get? token = some r ∧
        serveRefresh now token db =
          (some (newAccessToken now r.userId, db.next), rotateToken now token r.userId db) := by
  unfold serveRefresh
  rw [exec_validateAndRotate]
  cases hr : db.get? token with
  | none =>
    left
    refine ⟨?_, rfl⟩
    rintro ⟨r, h, _⟩
    rw [hr] at h
    cases h
  | some r =>
    cases hl : r.liveAt now with
    | false =>
      left
      have hd : DeadToken now db token := ⟨r, hr, hl⟩
      exact ⟨hd.not_live, by rw [Option.filter_some, hl]; rfl⟩
    | true =>
      right
      exact ⟨r, ⟨r, hr, hl⟩, rfl, by rw [Option.filter_some, hl]; rfl⟩

theorem rotateToken_dead (now : ℤ) {token : ℕ} {r : UserSession} {db : Store UserSession}
    (hr : db.get? token = some r) : DeadToken now (rotateToken now token r.userId db) token := by
  have hlt := Store.get?_lt hr
  refine ⟨r.revoke now, ?_, ?_⟩
  · rw [rotateToken_get?, if_neg (by omega), if_pos rfl, hr]
    rfl
  · simp [UserSession.liveAt]

theorem rotateToken_live (now : ℤ) (token userId : ℕ) (db : Store UserSession) :
    LiveToken now (rotateToken now token userId db) db.next :=
  ⟨newSession now userId, by rw [rotateToken_get?, if_pos rfl], newSession_liveAt now userId⟩

/-- A dead token stays dead. -/
theorem DeadToken.rotate {now : ℤ} {db : Store UserSession} {k : ℕ} (h : DeadToken now db k)
    (token userId : ℕ) : DeadToken now (rotateToken now token userId db) k := by
  obtain ⟨r, hr, hd⟩ := h
  have hlt := Store.get?_lt hr
  unfold DeadToken
  rw [rotateToken_get?, if_neg (by omega), hr]
  by_cases hk : k = token
  · rw [if_pos hk]
    exact ⟨r.revoke now, rfl, by simp [UserSession.liveAt]⟩
  · rw [if_neg hk]
    exact ⟨r, rfl, hd⟩

theorem newAccessToken_validAt (now : ℤ) (userId : ℕ) :
    (newAccessToken now userId).validAt now := by
  have hpos : 0 < accessTokenLifetime := by decide
  unfold AccessToken.validAt newAccessToken
  dsimp only
  omega

/-! ## What an event does -/

def ClientOp.request : ClientOp → ℕ
  | .start i | .answer i | .refresh i | .serve i | .throttle i | .receive i | .resume i
  | .answerRetry i => i

/-- The events that happen, with where they find their request. -/
inductive ClientMove (now : ℤ) (s : WebClient) : ClientOp → WebClient → Prop
  | start {i : ℕ} (h : s.phase i = .idle) :
    ClientMove now s (.start i) (s.setPhase i (.sent s.accessToken))
  | accepted {i : ℕ} {t : AccessToken} (h : s.phase i = .sent (some t)) :
    ClientMove now s (.answer i) (s.setPhase i .done)
  | rejected {i : ℕ} {o : Option AccessToken} (h : s.phase i = .sent o) :
    ClientMove now s (.answer i) (s.setPhase i .unauthorized)
  | refresh {i : ℕ} (h : s.phase i = .unauthorized) :
    ClientMove now s (.refresh i) (s.setPhase i (.refreshing s.cookie))
  | rotated {i c : ℕ} {r : UserSession} (h : s.phase i = .refreshing c)
    (hl : LiveToken now s.sessions c) (hr : s.sessions.get? c = some r) :
    ClientMove now s (.serve i)
      ({ s with sessions := rotateToken now c r.userId s.sessions }.setPhase i
        (.refreshAnswered (some (newAccessToken now r.userId, s.sessions.next))))
  | refused {i c : ℕ} (h : s.phase i = .refreshing c) (hl : ¬ LiveToken now s.sessions c) :
    ClientMove now s (.serve i) (s.setPhase i (.refreshAnswered none))
  | throttled {i c : ℕ} (h : s.phase i = .refreshing c) :
    ClientMove now s (.throttle i) (s.setPhase i (.refreshAnswered none))
  | received {i c : ℕ} {t : AccessToken} (h : s.phase i = .refreshAnswered (some (t, c))) :
    ClientMove now s (.receive i) ({ s with cookie := c }.setPhase i (.refreshed (some t)))
  | receivedError {i : ℕ} (h : s.phase i = .refreshAnswered none) :
    ClientMove now s (.receive i) (s.setPhase i (.refreshed none))
  | resumed {i : ℕ} {t : AccessToken} (h : s.phase i = .refreshed (some t)) :
    ClientMove now s (.resume i) ({ s with accessToken := some t }.setPhase i (.retrying t))
  | cleared {i : ℕ} (h : s.phase i = .refreshed none) :
    ClientMove now s (.resume i) ({ s with accessToken := none }.setPhase i .failed)
  | retryAccepted {i : ℕ} {t : AccessToken} (h : s.phase i = .retrying t) :
    ClientMove now s (.answerRetry i) (s.setPhase i .done)
  | retryRejected {i : ℕ} {t : AccessToken} (h : s.phase i = .retrying t)
    (hv : ¬ t.validAt now) : ClientMove now s (.answerRetry i) (s.setPhase i .failed)

theorem clientStep_serve {now : ℤ} {s : WebClient} {i c : ℕ} (h : s.phase i = .refreshing c) :
    ClientMove now s (.serve i) (clientStep now s (.serve i)) := by
  obtain ⟨hl, hs⟩ | ⟨r, hl, hr, hs⟩ := serveRefresh_cases now c s.sessions
  · simpa only [clientStep, h, hs] using ClientMove.refused h hl
  · simpa only [clientStep, h, hs] using ClientMove.rotated h hl hr

theorem clientStep_cases (now : ℤ) (s : WebClient) (o : ClientOp) :
    clientStep now s o = s ∨ ClientMove now s o (clientStep now s o) := by
  cases o with
  | start i =>
    cases h : s.phase i <;> simp only [clientStep, h, true_or]
    exact Or.inr (.start h)
  | answer i =>
    cases h : s.phase i with
    | sent o =>
      right
      cases o with
      | none => simpa only [clientStep, h] using ClientMove.rejected h
      | some t =>
        by_cases hv : t.validAt now
        · simpa only [clientStep, h, hv, if_true] using ClientMove.accepted h
        · simpa only [clientStep, h, hv, if_false] using ClientMove.rejected h
    | _ => left; simp only [clientStep, h]
  | refresh i =>
    cases h : s.phase i <;> simp only [clientStep, h, true_or]
    exact Or.inr (.refresh h)
  | serve i =>
    cases h : s.phase i with
    | refreshing c => exact Or.inr (clientStep_serve h)
    | _ => left; simp only [clientStep, h]
  | throttle i =>
    cases h : s.phase i <;> simp only [clientStep, h, true_or]
    exact Or.inr (.throttled h)
  | receive i =>
    cases h : s.phase i with
    | refreshAnswered a =>
      right
      cases a with
      | none => simpa only [clientStep, h] using ClientMove.receivedError h
      | some a => simpa only [clientStep, h] using ClientMove.received h
    | _ => left; simp only [clientStep, h]
  | resume i =>
    cases h : s.phase i with
    | refreshed a =>
      right
      cases a with
      | none => simpa only [clientStep, h] using ClientMove.cleared h
      | some t => simpa only [clientStep, h] using ClientMove.resumed h
    | _ => left; simp only [clientStep, h]
  | answerRetry i =>
    cases h : s.phase i with
    | retrying t =>
      right
      by_cases hv : t.validAt now
      · simpa only [clientStep, h, hv, if_true] using ClientMove.retryAccepted h
      · simpa only [clientStep, h, hv, if_false] using ClientMove.retryRejected h hv
    | _ => left; simp only [clientStep, h]

/-- The other requests stay where they are. -/
theorem ClientMove.phase_ne {now : ℤ} {s s' : WebClient} {o : ClientOp}
    (h : ClientMove now s o s') {j : ℕ} (hj : j ≠ o.request) : s'.phase j = s.phase j := by
  cases h <;> exact setPhase_ne _ _ hj

theorem ClientMove.dead {now : ℤ} {s s' : WebClient} {o : ClientOp} (h : ClientMove now s o s')
    {k : ℕ} (hk : DeadToken now s.sessions k) : DeadToken now s'.sessions k := by
  cases h with
  | rotated _ _ _ => exact hk.rotate _ _
  | _ => exact hk

/-! ## Calls that are alone -/

/-- What each phase needs for its request to be served. -/
def PhaseOk (now : ℤ) (s : WebClient) : RequestPhase → Prop
  | .refreshing cookie => cookie = s.cookie
  | .refreshAnswered answer =>
    ∃ t cookie, answer = some (t, cookie) ∧ t.validAt now ∧
      LiveToken now s.sessions cookie ∧ DeadToken now s.sessions s.cookie
  | .refreshed newToken => ∃ t, newToken = some t ∧ t.validAt now
  | .retrying t => t.validAt now
  | .failed => False
  | _ => True

/-- Client and server are in step: one refresh call at most is out, and the
    cookie is live until its answer is on the way. -/
structure InStep (now : ℤ) (s : WebClient) : Prop where
  stored : s.accessToken ≠ none
  phaseOk : ∀ i, PhaseOk now s (s.phase i)
  alone : ∀ i j, (s.phase i).callOut = true → (s.phase j).callOut = true → i = j
  cookie : (∀ i a, s.phase i ≠ .refreshAnswered a) → LiveToken now s.sessions s.cookie

theorem InStep.served {now : ℤ} {s : WebClient} (h : InStep now s) : Served now s where
  stored := h.stored
  notFailed := by
    intro i hi
    have hok := h.phaseOk i
    rw [hi] at hok
    exact hok
  retried := by
    intro i t hi
    have hok := h.phaseOk i
    rw [hi] at hok
    exact hok

/-- A phase in which no call is out needs nothing of the server. -/
theorem PhaseOk.of_not_out {now : ℤ} {s s' : WebClient} {p : RequestPhase}
    (h : PhaseOk now s p) (hp : p.callOut = false) : PhaseOk now s' p := by
  cases p with
  | refreshing c => cases hp
  | refreshAnswered a => cases hp
  | _ => exact h

/-- Request `i` moves to phase `p`; the sessions and the cookie change only at
    the end of its own call. -/
theorem InStep.move {now : ℤ} {s s' : WebClient} (h : InStep now s) {i : ℕ} {p : RequestPhase}
    (hphase : s'.phase = Function.update s.phase i p) (hstored : s'.accessToken ≠ none)
    (hok : PhaseOk now s' p)
    (hout : (s.phase i).callOut = true ∨
      (s'.sessions = s.sessions ∧ s'.cookie = s.cookie ∧
        (p.callOut = true → ∀ j, (s.phase j).callOut = false)))
    (hcookie : (∀ a, p ≠ .refreshAnswered a) →
      (∀ j a, s'.phase j ≠ .refreshAnswered a) → LiveToken now s'.sessions s'.cookie) :
    InStep now s' := by
  have hself : s'.phase i = p := by rw [hphase, Function.update_self]
  have hne (j : ℕ) (hj : j ≠ i) : s'.phase j = s.phase j := by
    rw [hphase, Function.update_of_ne hj]
  refine ⟨hstored, ?_, ?_, ?_⟩
  · intro j
    by_cases hj : j = i
    · rw [hj, hself]
      exact hok
    · rw [hne j hj]
      obtain ho | ⟨hs, hc, _⟩ := hout
      · -- `i` was the only call out
        refine (h.phaseOk j).of_not_out ?_
        cases hp : (s.phase j).callOut with
        | false => rfl
        | true => exact absurd (h.alone j i hp ho) hj
      · have hj' := h.phaseOk j
        cases hp : s.phase j <;> rw [hp] at hj' <;> simp only [PhaseOk, hs, hc] at hj' ⊢ <;>
          exact hj'
  · have key (j : ℕ) (hj : j ≠ i) (hp : p.callOut = true) : (s'.phase j).callOut = false := by
      rw [hne j hj]
      obtain ho | ⟨_, _, hall⟩ := hout
      · cases hq : (s.phase j).callOut with
        | false => rfl
        | true => exact absurd (h.alone j i hq ho) hj
      · exact hall hp j
    intro j k hj hk
    by_cases hji : j = i <;> by_cases hki : k = i
    · rw [hji, hki]
    · rw [hji, hself] at hj
      rw [key k hki hj] at hk
      cases hk
    · rw [hki, hself] at hk
      rw [key j hji hk] at hj
      cases hj
    · rw [hne j hji] at hj
      rw [hne k hki] at hk
      exact h.alone j k hj hk
  · intro hno
    refine hcookie (fun a ha => hno i a ?_) hno
    rw [hself, ha]

/-- A call that has left holds the live cookie. -/
theorem InStep.call_live {now : ℤ} {s : WebClient} (h : InStep now s) {i c : ℕ}
    (hi : s.phase i = .refreshing c) : c = s.cookie ∧ LiveToken now s.sessions c := by
  have hc : c = s.cookie := by
    have hok := h.phaseOk i
    rw [hi] at hok
    exact hok
  refine ⟨hc, ?_⟩
  rw [hc]
  apply h.cookie
  intro j a hj
  have hji : j = i := h.alone j i (by rw [hj]; rfl) (by rw [hi]; rfl)
  rw [hji, hi] at hj
  cases hj

theorem move_inStep {now : ℤ} {s s' : WebClient} {o : ClientOp} (hm : ClientMove now s o s')
    (h : InStep now s) (hc : CallsAlone s o) : InStep now s' := by
  -- the cookie stays live while no answer of a refresh call is on the way
  have keep {i : ℕ} {p : RequestPhase} (hi : ∀ a, s.phase i ≠ .refreshAnswered a)
      (hno : ∀ j a, (s.setPhase i p).phase j ≠ .refreshAnswered a) :
      LiveToken now s.sessions s.cookie := by
    apply h.cookie
    intro j a hj
    by_cases hji : j = i
    · exact hi a (hji ▸ hj)
    · exact hno j a (by rw [setPhase_ne _ _ hji, hj])
  have phase (i : ℕ) : PhaseOk now s (s.phase i) := h.phaseOk i
  cases hm with
  | @start i hi =>
    exact h.move rfl h.stored trivial (.inr ⟨rfl, rfl, nofun⟩)
      fun _ hno => keep (by rw [hi]; nofun) hno
  | @accepted i t hi =>
    exact h.move rfl h.stored trivial (.inr ⟨rfl, rfl, nofun⟩)
      fun _ hno => keep (by rw [hi]; nofun) hno
  | @rejected i t hi =>
    exact h.move rfl h.stored trivial (.inr ⟨rfl, rfl, nofun⟩)
      fun _ hno => keep (by rw [hi]; nofun) hno
  | @refresh i hi =>
    exact h.move rfl h.stored rfl (.inr ⟨rfl, rfl, fun _ => hc hi⟩)
      fun _ hno => keep (by rw [hi]; nofun) hno
  | @rotated i c r hi hl hr =>
    refine h.move rfl h.stored ?_ (.inl (by rw [hi]; rfl)) fun hno _ => absurd rfl (hno _)
    obtain ⟨hc, _⟩ := h.call_live hi
    refine ⟨_, _, rfl, newAccessToken_validAt now _, rotateToken_live now c _ _, ?_⟩
    show DeadToken now (rotateToken now c r.userId s.sessions) s.cookie
    rw [← hc]
    exact rotateToken_dead now hr
  | @refused i c hi hl => exact absurd (h.call_live hi).2 hl
  | @throttled i c hi => exact absurd hi (hc c)
  | @received i c t hi =>
    have hok := phase i
    rw [hi] at hok
    obtain ⟨t', c', ha, hv, hl, _⟩ := hok
    cases ha
    exact h.move rfl h.stored ⟨t, rfl, hv⟩ (.inl (by rw [hi]; rfl)) fun _ _ => hl
  | @receivedError i hi =>
    have hok := phase i
    rw [hi] at hok
    obtain ⟨t, c, ha, _⟩ := hok
    cases ha
  | @resumed i t hi =>
    have hok := phase i
    rw [hi] at hok
    obtain ⟨t', ha, hv⟩ := hok
    cases ha
    exact h.move rfl (Option.some_ne_none t) hv (.inr ⟨rfl, rfl, nofun⟩)
      fun _ hno => keep (by rw [hi]; nofun) hno
  | @cleared i hi =>
    have hok := phase i
    rw [hi] at hok
    obtain ⟨t, ha, _⟩ := hok
    cases ha
  | @retryAccepted i t hi =>
    exact h.move rfl h.stored trivial (.inr ⟨rfl, rfl, nofun⟩)
      fun _ hno => keep (by rw [hi]; nofun) hno
  | @retryRejected i t hi hv =>
    have hok := phase i
    rw [hi] at hok
    exact absurd hok hv

/-! ## Calls that overlap -/

/-- The refresh call of the request fails. -/
def LostCall (now : ℤ) (s : WebClient) (i : ℕ) : Prop :=
  s.phase i = .refreshAnswered none ∨ s.phase i = .refreshed none ∨
    ∃ c, s.phase i = .refreshing c ∧ DeadToken now s.sessions c

/-- Some request will fail: its call is lost, or two calls present one token. -/
def Doomed (now : ℤ) (s : WebClient) : Prop :=
  (∃ i, LostCall now s i) ∨
    ∃ i j c, i ≠ j ∧ s.phase i = .refreshing c ∧ s.phase j = .refreshing c

theorem LostCall.move {now : ℤ} {s s' : WebClient} {o : ClientOp} {i : ℕ}
    (h : LostCall now s i) (hm : ClientMove now s o s') (hs : Served now s') :
    LostCall now s' i := by
  by_cases hi : i = o.request
  · -- the request's own event: the refusal travels on until the store is cleared
    subst hi
    unfold LostCall at h
    cases hm with
    | refused _ _ => exact .inl (setPhase_self _ _ _)
    | throttled _ => exact .inl (setPhase_self _ _ _)
    | receivedError _ => exact .inr (.inl (setPhase_self _ _ _))
    | cleared _ => exact absurd rfl hs.stored
    | rotated hp hl _ =>
      simp only [ClientOp.request, hp] at h
      obtain h | h | ⟨c, hc, hd⟩ := h
      · cases h
      · cases h
      · cases hc
        exact absurd hl hd.not_live
    | _ hp =>
      simp only [ClientOp.request, hp] at h
      obtain h | h | ⟨c, hc, hd⟩ := h
      · cases h
      · cases h
      · cases hc
  · unfold LostCall
    rw [hm.phase_ne hi]
    obtain h | h | ⟨c, hc, hd⟩ := h
    · exact .inl h
    · exact .inr (.inl h)
    · exact .inr (.inr ⟨c, hc, hm.dead hd⟩)

/-- When one of two calls with one token is answered, a call is lost. -/
theorem lost_of_shared {now : ℤ} {s s' : WebClient} {o : ClientOp} {i j c : ℕ} (hij : i ≠ j)
    (hi : s.phase i = .refreshing c) (hj : s.phase j = .refreshing c) (ho : o.request = i)
    (hm : ClientMove now s o s') : ∃ i, LostCall now s' i := by
  subst ho
  cases hm with
  | rotated hp _ hr =>
    simp only [ClientOp.request] at hi hij
    rw [hp] at hi
    cases hi
    refine ⟨j, .inr (.inr ⟨c, ?_, rotateToken_dead now hr⟩)⟩
    rw [setPhase_ne _ _ (Ne.symm hij)]
    exact hj
  | refused _ _ => exact ⟨_, .inl (setPhase_self _ _ _)⟩
  | throttled _ => exact ⟨_, .inl (setPhase_self _ _ _)⟩
  | _ hp =>
    simp only [ClientOp.request, hp] at hi
    cases hi

theorem move_doomed {now : ℤ} {s s' : WebClient} {o : ClientOp} (hm : ClientMove now s o s')
    (h : Doomed now s) (hs : Served now s') : Doomed now s' := by
  obtain ⟨i, h⟩ | ⟨i, j, c, hij, hi, hj⟩ := h
  · exact .inl ⟨i, h.move hm hs⟩
  · by_cases hoi : o.request = i
    · exact .inl (lost_of_shared hij hi hj hoi hm)
    by_cases hoj : o.request = j
    · exact .inl (lost_of_shared (Ne.symm hij) hj hi hoj hm)
    refine .inr ⟨i, j, c, hij, ?_, ?_⟩
    · rw [hm.phase_ne (Ne.symm hoi), hi]
    · rw [hm.phase_ne (Ne.symm hoj), hj]

/-- A call that leaves while another is out dooms a request. -/
theorem doomed_of_overlap {now : ℤ} {s : WebClient} {o : ClientOp} (h : InStep now s)
    (hc : ¬ CallsAlone s o) : Doomed now (clientStep now s o) := by
  cases o with
  | refresh i =>
    simp only [CallsAlone, not_forall] at hc
    obtain ⟨hi, j, hj⟩ := hc
    have hij : i ≠ j := by
      rintro rfl
      exact hj (by rw [hi]; rfl)
    simp only [clientStep, hi]
    have hok := h.phaseOk j
    cases hp : s.phase j with
    | refreshing c =>
      rw [hp] at hok
      refine .inr ⟨i, j, s.cookie, hij, setPhase_self _ _ _, ?_⟩
      rw [setPhase_ne _ _ (Ne.symm hij), hp]
      exact congrArg _ hok
    | refreshAnswered a =>
      rw [hp] at hok
      obtain ⟨_, _, _, _, _, hd⟩ := hok
      exact .inl ⟨i, .inr (.inr ⟨s.cookie, setPhase_self _ _ _, hd⟩)⟩
    | _ => rw [hp] at hj; exact absurd rfl hj
  | throttle i =>
    simp only [CallsAlone, not_forall, not_not] at hc
    obtain ⟨c, hi⟩ := hc
    simp only [clientStep, hi]
    exact .inl ⟨i, .inl (setPhase_self _ _ _)⟩
  | _ => exact absurd trivial hc

theorem Settled.not_doomed {now : ℤ} {s : WebClient} (h : Settled s) : ¬ Doomed now s := by
  rintro (⟨i, hi | hi | ⟨c, hi, _⟩⟩ | ⟨i, _, c, _, hi, _⟩) <;>
    · obtain h | h | h := h i <;> rw [hi] at h <;> cases h

/-! ## Runs -/

theorem Episode.start_inStep (e : Episode) : InStep e.now e.start where
  stored := Option.some_ne_none _
  phaseOk := fun _ => trivial
  alone := fun _ _ h => by cases h
  cookie := fun _ => ⟨e.session, e.cookie_get?, e.cookie_live⟩

theorem clientStep_inStep {now : ℤ} (s : WebClient) (o : ClientOp) (h : InStep now s)
    (hc : CallsAlone s o) : InStep now (clientStep now s o) := by
  obtain he | hm := clientStep_cases now s o
  · rw [he]
    exact h
  · exact move_inStep hm h hc

theorem clientStep_doomed {now : ℤ} (s : WebClient) (o : ClientOp) (h : Doomed now s)
    (hs : Served now (clientStep now s o)) : Doomed now (clientStep now s o) := by
  obtain he | hm := clientStep_cases now s o
  · rw [he]
    exact h
  · exact move_doomed hm h hs

/-- Every request of the episode is served when each refresh call is alone and
    none is turned away; and a run that brings its requests to an end serves
    them only so. -/
theorem refresh_served_iff (e : Episode) (ops : List ClientOp) :
    (AllSteps (clientStep e.now) CallsAlone e.start ops →
      AllStates (clientStep e.now) (Served e.now) e.start ops) ∧
    (Settled (run (clientStep e.now) e.start ops) →
      AllStates (clientStep e.now) (Served e.now) e.start ops →
      AllSteps (clientStep e.now) CallsAlone e.start ops) := by
  constructor
  · intro h
    have hstep := allStates_of_allSteps clientStep_inStep e.start_inStep h
    exact hstep.mono fun s hs => hs.served
  · intro hset h
    exact allSteps_of_not_doomed (D := Doomed e.now) clientStep_inStep
      (fun s o hs hc _ => doomed_of_overlap hs hc) clientStep_doomed e.start_inStep h
      hset.not_doomed

/-- Two requests of one page load. -/
def pageLoad : Episode where
  now := 0
  accessToken := ⟨0, 0⟩
  sessions := Store.empty.create (newSession 0 0)
  cookie := 0
  session := newSession 0 0
  expired := by decide
  cookie_get? := rfl
  cookie_live := by decide

def overlappingRefreshes : List ClientOp :=
  [.start 0, .start 1, .answer 0, .answer 1, .refresh 0, .refresh 1, .serve 0, .serve 1,
    .receive 0, .resume 0, .receive 1, .resume 1, .answerRetry 0]

/-- Both calls present the same cookie: the second is refused, the store is
    cleared and its request fails with 401. -/
theorem overlapping_refresh_logs_out :
    (run (clientStep pageLoad.now) pageLoad.start overlappingRefreshes).phase 1 = .failed ∧
      ¬ AllStates (clientStep pageLoad.now) (Served pageLoad.now) pageLoad.start
        overlappingRefreshes := by
  have hcleared : (run (clientStep pageLoad.now) pageLoad.start overlappingRefreshes).accessToken =
      none := by
    decide +kernel
  exact ⟨by decide +kernel, fun h => h.last.stored hcleared⟩

end TempleConsign
