import TempleConsign.WebClient

/-!
# Signing out

Model of the sign-out of both clients against the server's sessions. The browser calls
`POST /auth/logout` with its cookie and without a refresh (`src/web/src/api/auth.ts` line 32,
`src/web/src/components/Layout.tsx` line 46). The phone reads the refresh token from the keychain
and sends it in the body (`logout` in `src/ios/TempleHEAppraiser/Auth/AuthState.swift` line 106);
a 401 has `rawRequest` refresh and send the same body once more. Other requests refresh
meanwhile. `logout` (`src/api/routers/auth.py` line 274) revokes the token that comes with an
access token that is not expired.

Deviations:
* The server handles one call after another: a refresh reads, rotates and revokes in one step
  (`validate_and_rotate`), and so does the sign-out. Where two refreshes with one token overlap,
  both can be granted (see `RefreshRotation`).
* A device signs out once. Its requests other than the refreshes and the sign-out, and the
  access tokens they carry, are outside of the state.
* The account stays active and no other request revokes the session.
* The keychain is written without errors; `TokenCoalescing` has them.
* The phone may send its request again at any time after the 401.

Results:
* `inv_step`: one refresh token after the other; what the device knows of them.
* `session_over_iff`: the session is over at a server that handles one call after another
  exactly when it accepted a sign-out with the latest refresh token.
-/

namespace TempleConsign.SignOut

open ServiceLib

/-! ## The device -/

inductive Client
  | web
  | phone
  deriving DecidableEq

/-- Where a refresh call stands. -/
inductive RefreshCall
  | idle
  | out (token : ℕ)
  /-- The answer is on its way back. -/
  | back (answer : RefreshAnswer)

/-- Where the sign-out stands. -/
inductive Logout
  | idle
  /-- `AuthState.logout` has read the keychain. -/
  | began (body : Option ℕ)
  | sent (access : Option AccessToken) (token : Option ℕ) (again : Bool)
  | answered (accepted : Bool) (access : Option AccessToken) (token : Option ℕ) (again : Bool)
  /-- The call threw without an answer. -/
  | lost
  | ended

/-- A device and the server's sessions. `latest` and `earlier` are the refresh tokens that the
    server issued to the device since it signed in. -/
structure Device where
  client : Client
  now : ℤ
  sessions : Store UserSession
  accessToken : Option AccessToken
  /-- The entry of the keychain, or the cookie. -/
  refreshToken : Option ℕ
  calls : ℕ → RefreshCall
  logout : Logout
  latest : ℕ
  earlier : List ℕ

inductive Event
  | tick (seconds : ℕ)
  /-- A request that got a 401 refreshes. -/
  | refresh (i : ℕ)
  | serveRefresh (i : ℕ)
  /-- `refresh_ip_limiter` turns the call away. -/
  | throttle (i : ℕ)
  | receive (i : ℕ)
  | lose (i : ℕ)
  | logout
  /-- The phone's request leaves. -/
  | sendLogout
  | serveLogout
  | loseLogout
  | retryLogout
  | finish

/-! ## What the events do -/

def Device.setCall (d : Device) (i : ℕ) (c : RefreshCall) : Device :=
  { d with calls := Function.update d.calls i c }

/-- The new row after `POST /auth/refresh`, in the logs. -/
def Device.served (d : Device) (i : ℕ) : RefreshAnswer × Store UserSession → Device
  | (some (t, r), db) =>
    { d with
      sessions := db
      latest := r
      earlier := d.latest :: d.earlier }.setCall i (.back (some (t, r)))
  | (none, db) => { d with sessions := db }.setCall i (.back none)

/-- The client after its refresh call: the browser forgets the access token when it fails. -/
def Device.refreshed (d : Device) : RefreshAnswer → Device
  | some (t, r) => { d with accessToken := some t, refreshToken := some r }
  | none => { d with accessToken := if d.client = .web then none else d.accessToken }

/-- `get_current_user` accepts the header. -/
def accepts (now : ℤ) (access : Option AccessToken) : Bool :=
  access.any fun t => decide (t.validAt now)

/-- `logout` (`auth.py` line 274) of a token. -/
def revoked (now : ℤ) (token : Option ℕ) (db : Store UserSession) : Store UserSession :=
  match token with
  | none => db
  | some c => (Svc.exec (revokeToken now c) db).2

/-- The client's state is cleared; the cookie is there until the server deletes it. -/
def Device.clear (d : Device) (accepted : Bool) : Device :=
  { d with
    accessToken := none
    refreshToken := if d.client = .web ∧ accepted = false then d.refreshToken else none
    logout := .ended }

def step (d : Device) : Event → Device
  | .tick seconds => { d with now := d.now + seconds }
  | .refresh i =>
    match d.calls i, d.refreshToken with
    | .idle, some r => d.setCall i (.out r)
    | _, _ => d
  | .serveRefresh i =>
    match d.calls i with
    | .out r => d.served i (TempleConsign.serveRefresh d.now r d.sessions)
    | _ => d
  | .throttle i =>
    match d.calls i with
    | .out _ => d.setCall i (.back none)
    | _ => d
  | .receive i =>
    match d.calls i with
    | .back answer => (d.refreshed answer).setCall i .idle
    | _ => d
  | .lose i => d.setCall i .idle
  | .logout =>
    match d.logout, d.client with
    | .idle, .web => { d with logout := .sent d.accessToken d.refreshToken false }
    | .idle, .phone => { d with logout := .began d.refreshToken }
    | _, _ => d
  | .sendLogout =>
    match d.logout with
    | .began (some r) => { d with logout := .sent d.accessToken (some r) false }
    | _ => d
  | .serveLogout =>
    match d.logout with
    | .sent access token again =>
      if accepts d.now access then
        { d with
          sessions := revoked d.now token d.sessions
          logout := .answered true access token again }
      else { d with logout := .answered false access token again }
    | _ => d
  | .loseLogout =>
    match d.logout with
    | .sent _ _ _ | .answered _ _ _ _ => { d with logout := .lost }
    | _ => d
  | .retryLogout =>
    match d.logout, d.client with
    | .answered false access token false, .phone =>
      { d with logout := .sent (d.accessToken.or access) token true }
    | _, _ => d
  | .finish =>
    match d.logout with
    | .answered accepted _ _ _ => d.clear accepted
    | .began none | .lost => d.clear false
    | _ => d

/-- A device that has just signed in. -/
def signIn (client : Client) (now : ℤ) (db : Store UserSession) (userId : ℕ) : Device where
  client := client
  now := now
  sessions := db.create (newSession now userId)
  accessToken := some (newAccessToken now userId)
  refreshToken := some db.next
  calls := fun _ => .idle
  logout := .idle
  latest := db.next
  earlier := []

/-! ## Revoked tokens -/

/-- The session of the token has been revoked. -/
def Revoked (db : Store UserSession) (c : ℕ) : Prop := ∃ r, db.get? c = some r ∧ r.revokedAt ≠ none

/-- No refresh token that the server issued to the device is good any more. -/
def SessionOver (d : Device) : Prop := ∀ c ∈ d.latest :: d.earlier, Revoked d.sessions c

variable {db : Store UserSession} {now : ℤ} {c k : ℕ} {d : Device} {e : Event} {i : ℕ}

theorem not_live_of_revoked (h : Revoked db c) : ¬ LiveToken now db c := by
  obtain ⟨r, hr, hrev⟩ := h
  rintro ⟨r', hr', hlive⟩
  rw [hr] at hr'
  cases hr'
  exact hrev (UserSession.liveAt_iff.mp hlive).1

theorem Revoked.lt (h : Revoked db c) : c < db.next := by
  obtain ⟨r, hr, -⟩ := h
  exact Store.get?_lt hr

/-- The token is revoked, and no other. -/
theorem get?_revoked (token : Option ℕ) :
    (revoked now token db).get? k =
      if token = some k then (db.get? k).map fun s => if s.revokedAt = none then s.revoke now else s
      else db.get? k := by
  cases token with
  | none => simp [revoked]
  | some c =>
    show (db.modify c _).get? k = _
    rw [Store.get?_modify]
    by_cases hk : k = c
    · rw [if_pos hk, if_pos (congrArg some hk.symm)]
    · rw [if_neg hk, if_neg fun h => hk (Option.some_inj.mp h).symm]

theorem Revoked.revoke (h : Revoked db c) (token : Option ℕ) :
    Revoked (revoked now token db) c := by
  obtain ⟨r, hr, hrev⟩ := h
  unfold Revoked
  rw [get?_revoked]
  split_ifs
  · refine ⟨r, ?_, hrev⟩
    rw [hr, Option.map_some, if_neg hrev]
  · exact ⟨r, hr, hrev⟩

theorem revoked_iff {token : Option ℕ} {r : UserSession} (hr : db.get? c = some r) :
    Revoked (revoked now token db) c ↔ token = some c ∨ Revoked db c := by
  constructor
  · rintro ⟨s, hs, hrev⟩
    rw [get?_revoked] at hs
    by_cases ht : token = some c
    · exact .inl ht
    · rw [if_neg ht] at hs
      exact .inr ⟨s, hs, hrev⟩
  · rintro (rfl | h)
    · refine ⟨if r.revokedAt = none then r.revoke now else r, ?_, ?_⟩
      · rw [get?_revoked, if_pos rfl, hr]
        rfl
      · split_ifs with hnone
        · simp
        · exact hnone
    · exact h.revoke token

/-! ## What the device knows -/

def Logout.token : Logout → Option ℕ
  | .began body => body
  | .sent _ token _ => token
  | .answered _ _ token _ => token
  | _ => none

def Logout.access : Logout → Option AccessToken
  | .sent access _ _ => access
  | .answered _ access _ _ => access
  | _ => none

/-- The token of a call, or of its answer. -/
def RefreshCall.token : RefreshCall → Option ℕ
  | .out c => some c
  | .back (some (_, c)) => some c
  | _ => none

/-- The device stores the refresh token, or it is in one of its calls. -/
def Holds (d : Device) (c : ℕ) : Prop :=
  d.refreshToken = some c ∨ d.logout.token = some c ∨ ∃ i, (d.calls i).token = some c

/-- The server granted the call, and the device has not heard of it. -/
def Granted (d : Device) (i : ℕ) : Prop := ∃ t c, d.calls i = .back (some (t, c))

@[simp] theorem setCall_calls_self (d : Device) (i : ℕ) (x : RefreshCall) :
    (d.setCall i x).calls i = x := by simp [Device.setCall]

theorem setCall_calls_ne (d : Device) (x : RefreshCall) {j : ℕ} (h : j ≠ i) :
    (d.setCall i x).calls j = d.calls j := by simp [Device.setCall, h]

theorem holds_setCall {x : RefreshCall} (h : Holds (d.setCall i x) c) :
    Holds d c ∨ x.token = some c := by
  rcases h with h | h | ⟨j, h⟩
  · exact .inl (.inl h)
  · exact .inl (.inr (.inl h))
  · by_cases hj : j = i
    · rw [hj, setCall_calls_self] at h
      exact .inr h
    · rw [setCall_calls_ne d x hj] at h
      exact .inl (.inr (.inr ⟨j, h⟩))

theorem granted_setCall {x : RefreshCall} {j : ℕ} (h : Granted (d.setCall i x) j) :
    Granted d j ∧ j ≠ i ∨ j = i ∧ ∃ t c, x = .back (some (t, c)) := by
  obtain ⟨t, c, h⟩ := h
  by_cases hj : j = i
  · rw [hj, setCall_calls_self] at h
    exact .inr ⟨hj, t, c, h⟩
  · rw [setCall_calls_ne d x hj] at h
    exact .inl ⟨⟨t, c, h⟩, hj⟩

/-- One refresh token after the other: the device knows no other token, and while an answer
    with the latest is on its way nothing else knows it. -/
structure Inv (d : Device) : Prop where
  row : ∃ r, d.sessions.get? d.latest = some r
  earlier : ∀ c ∈ d.earlier, Revoked d.sessions c
  holds : ∀ c, Holds d c → c = d.latest ∨ c ∈ d.earlier
  granted : ∀ i, Granted d i → (∀ t c, d.calls i = .back (some (t, c)) → c = d.latest) ∧
    d.refreshToken ≠ some d.latest ∧ (∀ j, d.calls j ≠ .out d.latest) ∧ ∀ j, Granted d j → j = i

theorem Inv.lt (h : Inv d) (hc : Holds d c) : c < d.sessions.next := by
  rcases h.holds c hc with rfl | hc
  · obtain ⟨r, hr⟩ := h.row
    exact Store.get?_lt hr
  · exact (h.earlier c hc).lt

theorem inv_signIn (client : Client) (now : ℤ) (db : Store UserSession) (userId : ℕ) :
    Inv (signIn client now db userId) where
  row := ⟨newSession now userId, Store.get?_create_self db _⟩
  earlier c hc := absurd hc List.not_mem_nil
  holds c hc := by
    rcases hc with h | h | ⟨i, h⟩
    · exact .inl (Option.some_inj.mp h).symm
    · cases h
    · cases h
  granted i hi := by
    obtain ⟨t, c, h⟩ := hi
    cases h

/-! ## The steps keep it -/

/-- The server and the calls are the same, and the device learnt no token. -/
theorem Inv.same {d' : Device} (h : Inv d) (hs : d'.sessions = d.sessions)
    (hl : d'.latest = d.latest) (he : d'.earlier = d.earlier) (hc : d'.calls = d.calls)
    (hr : ∀ c, d'.refreshToken = some c → d.refreshToken = some c)
    (ht : ∀ c, d'.logout.token = some c → Holds d c) : Inv d' where
  row := by rw [hs, hl]; exact h.row
  earlier := by rw [hs, he]; exact h.earlier
  holds c hd := by
    rw [hl, he]
    rcases hd with hd | hd | ⟨i, hd⟩
    · exact h.holds c (.inl (hr c hd))
    · exact h.holds c (ht c hd)
    · exact h.holds c (.inr (.inr ⟨i, by rw [← hc]; exact hd⟩))
  granted i hi := by
    have hsame : ∀ j, Granted d' j ↔ Granted d j := fun j => by unfold Granted; rw [hc]
    obtain ⟨hlatest, hstored, hout, honce⟩ := h.granted i ((hsame i).mp hi)
    rw [hl, hc]
    exact ⟨hlatest, fun hd => hstored (hr _ hd), hout, fun j hj => honce j ((hsame j).mp hj)⟩

/-- A call that carries the stored token, or none. -/
theorem Inv.setCall (h : Inv d) {x : RefreshCall} (hx : ∀ c, x.token = some c →
    d.refreshToken = some c) (hnot : ∀ t c, x ≠ .back (some (t, c))) : Inv (d.setCall i x) where
  row := h.row
  earlier := h.earlier
  holds c hc := (holds_setCall hc).elim (h.holds c) fun hc => h.holds c (.inl (hx c hc))
  granted j hj := by
    rcases granted_setCall hj with ⟨hgranted, hne⟩ | ⟨-, t, c, hback⟩
    · obtain ⟨hlatest, hstored, hout, honce⟩ := h.granted j hgranted
      refine ⟨fun t c hback => ?_, hstored, fun k hk => ?_, fun k hk => ?_⟩
      · rw [setCall_calls_ne d x hne] at hback
        exact hlatest t c hback
      · by_cases hki : k = i
        · rw [hki, setCall_calls_self] at hk
          exact hstored (hx _ (by rw [hk]; rfl))
        · rw [setCall_calls_ne d x hki] at hk
          exact hout k hk
      · rcases granted_setCall hk with ⟨hk, -⟩ | ⟨-, t, c, hback⟩
        · exact honce k hk
        · exact absurd hback (hnot t c)
    · exact absurd hback (hnot t c)

/-- The row of the latest token and the revoked rows after a rotation. -/
theorem revoked_rotateToken {userId : ℕ} (h : Revoked db c) :
    Revoked (rotateToken now k userId db) c := by
  have hlt := h.lt
  obtain ⟨r, hr, hrev⟩ := h
  unfold Revoked
  rw [rotateToken_get?, if_neg (by omega), hr]
  split_ifs
  · exact ⟨r.revoke now, rfl, by simp⟩
  · exact ⟨r, rfl, hrev⟩

theorem rotated_revoked {userId : ℕ} {r : UserSession} (hr : db.get? c = some r) :
    Revoked (rotateToken now c userId db) c := by
  have hlt := Store.get?_lt hr
  refine ⟨r.revoke now, ?_, by simp⟩
  rw [rotateToken_get?, if_neg (by omega), if_pos rfl, hr]
  rfl

/-- A call with a live token carries the latest, and no answer is on its way. -/
theorem Inv.out_live (h : Inv d) (hi : d.calls i = .out c)
    (hlive : LiveToken d.now d.sessions c) : c = d.latest ∧ ∀ j, ¬ Granted d j := by
  have hheld : Holds d c := .inr (.inr ⟨i, by rw [hi]; rfl⟩)
  have hc : c = d.latest := by
    rcases h.holds c hheld with hc | hc
    · exact hc
    · exact absurd hlive (not_live_of_revoked (h.earlier c hc))
  exact ⟨hc, fun j hj => (h.granted j hj).2.2.1 i (by rw [hi, hc])⟩

/-- What `POST /auth/refresh` does to a call. -/
theorem step_serveRefresh (hi : d.calls i = .out c) :
    (¬ LiveToken d.now d.sessions c ∧ step d (.serveRefresh i) = d.setCall i (.back none)) ∨
      ∃ r, LiveToken d.now d.sessions c ∧ d.sessions.get? c = some r ∧
        step d (.serveRefresh i) = { d with
          sessions := rotateToken d.now c r.userId d.sessions
          latest := d.sessions.next
          earlier := d.latest :: d.earlier }.setCall i
            (.back (some (newAccessToken d.now r.userId, d.sessions.next))) := by
  simp only [step, hi]
  rcases serveRefresh_cases d.now c d.sessions with ⟨hdead, hx⟩ | ⟨r, hlive, hr, hx⟩
  · rw [hx]
    exact .inl ⟨hdead, rfl⟩
  · rw [hx]
    exact .inr ⟨r, hlive, hr, rfl⟩

theorem Inv.rotated (h : Inv d) (hi : d.calls i = .out c) {r : UserSession}
    (hlive : LiveToken d.now d.sessions c) (hr : d.sessions.get? c = some r) :
    Inv ({ d with
      sessions := rotateToken d.now c r.userId d.sessions
      latest := d.sessions.next
      earlier := d.latest :: d.earlier }.setCall i
        (.back (some (newAccessToken d.now r.userId, d.sessions.next)))) := by
  obtain ⟨rfl, hnone⟩ := h.out_live hi hlive
  have hknown : ∀ {c}, Holds d c → c = d.latest ∨ c ∈ d.earlier := fun {c} hc => h.holds c hc
  refine ⟨⟨newSession d.now r.userId, by rw [Device.setCall, rotateToken_get?, if_pos rfl]⟩,
    ?_, ?_, ?_⟩
  · intro c hc
    rcases List.mem_cons.mp hc with rfl | hc
    · exact rotated_revoked hr
    · exact revoked_rotateToken (h.earlier c hc)
  · intro c hc
    rcases holds_setCall hc with hc | hc
    · exact .inr (List.mem_cons.mpr (hknown hc))
    · exact .inl (Option.some_inj.mp hc).symm
  · intro j hj
    rcases granted_setCall hj with ⟨⟨t, c, hback⟩, -⟩ | ⟨rfl, -⟩
    · exact absurd ⟨t, c, hback⟩ (hnone j)
    · refine ⟨fun t c hback => ?_, fun hstored => ?_, fun k hk => ?_, fun k hk => ?_⟩
      · rw [setCall_calls_self] at hback
        cases hback
        rfl
      · have hold : d.refreshToken = some d.sessions.next := hstored
        exact absurd (h.lt (.inl hold)) (by omega)
      · by_cases hkj : k = j
        · rw [hkj, setCall_calls_self] at hk
          cases hk
        · rw [setCall_calls_ne _ _ hkj] at hk
          have hold : d.calls k = .out d.sessions.next := hk
          exact absurd (h.lt (.inr (.inr ⟨k, by rw [hold]; rfl⟩))) (by omega)
      · rcases granted_setCall hk with ⟨⟨t, c, hback⟩, -⟩ | ⟨hkj, -⟩
        · exact absurd ⟨t, c, hback⟩ (hnone k)
        · exact hkj

theorem Inv.received (h : Inv d) {answer : RefreshAnswer} (hi : d.calls i = .back answer) :
    Inv ((d.refreshed answer).setCall i .idle) := by
  rcases answer with _ | ⟨t, c⟩
  · have hsame : Inv (d.refreshed none) :=
      h.same rfl rfl rfl rfl (fun c hc => hc) fun c hc => .inr (.inl hc)
    exact hsame.setCall (fun c hc => by cases hc) fun t c hx => by cases hx
  · obtain ⟨hlatest, -, -, honce⟩ := h.granted i ⟨t, c, hi⟩
    refine ⟨h.row, h.earlier, fun b hb => ?_, fun j hj => ?_⟩
    · rcases holds_setCall hb with (hb | hb) | hb
      · rw [← Option.some_inj.mp hb]
        exact .inl (hlatest t c hi)
      · exact h.holds b (.inr hb)
      · cases hb
    · rcases granted_setCall hj with ⟨hj, hne⟩ | ⟨-, t, c, hx⟩
      · exact absurd (honce j hj) hne
      · cases hx

theorem Inv.revoke (h : Inv d) (token : Option ℕ) :
    Inv { d with sessions := revoked d.now token d.sessions } where
  row := by
    obtain ⟨r, hr⟩ := h.row
    dsimp only
    rw [get?_revoked]
    split_ifs
    · exact ⟨_, by rw [hr]; rfl⟩
    · exact ⟨r, hr⟩
  earlier c hc := (h.earlier c hc).revoke token
  holds := h.holds
  granted := h.granted

theorem inv_step (h : Inv d) (e : Event) : Inv (step d e) := by
  have hlogout : ∀ c, d.logout.token = some c → Holds d c := fun c hc => .inr (.inl hc)
  cases e with
  | tick seconds => exact h.same rfl rfl rfl rfl (fun c hc => hc) hlogout
  | refresh i =>
    simp only [step]
    split
    · next r _ hr =>
      exact h.setCall (fun c hc => hr.trans hc) fun t c hx => by cases hx
    · exact h
  | serveRefresh i =>
    cases hi : d.calls i with
    | out c =>
      rcases step_serveRefresh hi with ⟨-, hx⟩ | ⟨r, hlive, hr, hx⟩
      · rw [hx]
        exact h.setCall (fun c hc => by cases hc) fun t c hx => by cases hx
      · rw [hx]
        exact h.rotated hi hlive hr
    | idle =>
      simp only [step, hi]
      exact h
    | back answer =>
      simp only [step, hi]
      exact h
  | throttle i =>
    simp only [step]
    split
    · exact h.setCall (fun c hc => by cases hc) fun t c hx => by cases hx
    · exact h
  | receive i =>
    simp only [step]
    split
    · next hi => exact h.received hi
    · exact h
  | lose i => exact h.setCall (fun c hc => by cases hc) fun t c hx => by cases hx
  | logout =>
    simp only [step]
    split
    · exact h.same rfl rfl rfl rfl (fun c hc => hc) fun c hc => .inl hc
    · exact h.same rfl rfl rfl rfl (fun c hc => hc) fun c hc => .inl hc
    · exact h
  | sendLogout =>
    simp only [step]
    split
    · next hd =>
      exact h.same rfl rfl rfl rfl (fun c hc => hc) fun c hc => hlogout c (by rw [hd]; exact hc)
    · exact h
  | serveLogout =>
    simp only [step]
    split
    · next access token again hd =>
      have hsame : ∀ accepted, Inv { d with logout := .answered accepted access token again } :=
        fun accepted => h.same rfl rfl rfl rfl (fun c hc => hc)
          fun c hc => hlogout c (by rw [hd]; exact hc)
      split_ifs
      · exact (hsame true).revoke token
      · exact hsame false
    · exact h
  | loseLogout =>
    simp only [step]
    split
    · exact h.same rfl rfl rfl rfl (fun c hc => hc) fun c hc => by cases hc
    · exact h.same rfl rfl rfl rfl (fun c hc => hc) fun c hc => by cases hc
    · exact h
  | retryLogout =>
    simp only [step]
    split
    · next hd _ =>
      exact h.same rfl rfl rfl rfl (fun c hc => hc) fun c hc => hlogout c (by rw [hd]; exact hc)
    · exact h
  | finish =>
    have hclear : ∀ accepted, Inv (d.clear accepted) := fun accepted =>
      h.same rfl rfl rfl rfl (fun c hc => by
        simp only [Device.clear] at hc
        split_ifs at hc
        exact hc) fun c hc => by cases hc
    simp only [step]
    split
    · exact hclear _
    · exact hclear _
    · exact hclear _
    · exact h

/-! ## The end of the session -/

/-- The server accepts a sign-out with the latest refresh token. -/
def Ends (d : Device) (e : Event) : Prop :=
  e = .serveLogout ∧ ∃ access again, d.logout = .sent access (some d.latest) again ∧
    accepts d.now access = true

theorem Inv.over_iff (h : Inv d) : SessionOver d ↔ Revoked d.sessions d.latest :=
  ⟨fun hall => hall d.latest List.mem_cons_self,
    fun hlatest => List.forall_mem_cons.mpr ⟨hlatest, h.earlier⟩⟩

/-- The steps that write the sessions are the two that the server takes. -/
theorem step_server (h1 : ∀ i, e ≠ .serveRefresh i) (h2 : e ≠ .serveLogout) :
    (step d e).sessions = d.sessions ∧ (step d e).latest = d.latest := by
  cases e with
  | serveRefresh i => exact absurd rfl (h1 i)
  | serveLogout => exact absurd rfl h2
  | receive i =>
    simp only [step]
    split
    · next answer _ => cases answer <;> exact ⟨rfl, rfl⟩
    · exact ⟨rfl, rfl⟩
  | _ =>
    constructor
    all_goals
      simp only [step]
      repeat' split
      all_goals rfl

theorem over_serveLogout (h : Inv d) : Revoked (step d .serveLogout).sessions
    (step d .serveLogout).latest ↔ Ends d .serveLogout ∨ Revoked d.sessions d.latest := by
  obtain ⟨r, hr⟩ := h.row
  cases hd : d.logout with
  | sent access token again =>
    have hends : Ends d .serveLogout ↔ token = some d.latest ∧ accepts d.now access = true := by
      constructor
      · rintro ⟨-, access', again', hd', hacc⟩
        rw [hd] at hd'
        cases hd'
        exact ⟨rfl, hacc⟩
      · rintro ⟨rfl, hacc⟩
        exact ⟨rfl, access, again, hd, hacc⟩
    rw [hends]
    simp only [step, hd]
    split_ifs with hacc
    · rw [revoked_iff hr, and_iff_left hacc]
    · exact (or_iff_right fun hboth => hacc hboth.2).symm
  | _ =>
    have hno : ¬ Ends d .serveLogout := by
      rintro ⟨-, access, again, hd', -⟩
      rw [hd] at hd'
      cases hd'
    simp only [step, hd]
    exact (or_iff_right hno).symm

/-- A step ends the session, or leaves it as it was. -/
theorem over_step (h : Inv d) : SessionOver (step d e) ↔ Ends d e ∨ SessionOver d := by
  rw [(inv_step h e).over_iff, h.over_iff]
  by_cases hserve : ∃ i, e = .serveRefresh i
  · obtain ⟨i, rfl⟩ := hserve
    have hno : ¬ Ends d (.serveRefresh i) := fun hends => by cases hends.1
    rw [or_iff_right hno]
    cases hi : d.calls i with
    | out c =>
      rcases step_serveRefresh hi with ⟨-, hx⟩ | ⟨r, hlive, hr, hx⟩
      · rw [hx]
        rfl
      · obtain ⟨rfl, -⟩ := h.out_live hi hlive
        rw [hx]
        have hnew : ¬ Revoked (rotateToken d.now d.latest r.userId d.sessions) d.sessions.next :=
          fun hrev => not_live_of_revoked hrev (rotateToken_live d.now d.latest r.userId d.sessions)
        exact iff_of_false hnew fun hrev => not_live_of_revoked hrev hlive
    | idle =>
      simp only [step, hi]
    | back answer =>
      simp only [step, hi]
  · by_cases hlogout : e = .serveLogout
    · subst hlogout
      exact over_serveLogout h
    · obtain ⟨hs, hl⟩ := step_server (d := d) (fun i hi => hserve ⟨i, hi⟩) hlogout
      rw [hs, hl]
      exact (or_iff_right fun hends => hlogout hends.1).symm

theorem run_inv (client : Client) (now : ℤ) (db : Store UserSession) (userId : ℕ)
    (events : List Event) : Inv (run step (signIn client now db userId) events) :=
  run_induction (P := Inv) (fun _ e h => inv_step h e) (inv_signIn client now db userId) events

theorem live_signIn (client : Client) (now : ℤ) (db : Store UserSession) (userId : ℕ) :
    ¬ SessionOver (signIn client now db userId) := by
  intro hover
  obtain ⟨r, hr, hrev⟩ := hover db.next List.mem_cons_self
  have hrow : some (newSession now userId) = some r :=
    (Store.get?_create_self db (newSession now userId)).symm.trans hr
  cases hrow
  exact hrev rfl

/-- **The session is over at the server exactly when it accepted a sign-out that came with the
    latest refresh token.** -/
theorem session_over_iff (client : Client) (now : ℤ) (db : Store UserSession) (userId : ℕ)
    (events : List Event) :
    SessionOver (run step (signIn client now db userId) events) ↔
      ∃ pre e post, events = pre ++ e :: post ∧
        Ends (run step (signIn client now db userId) pre) e := by
  induction events using List.reverseRecOn with
  | nil =>
    refine iff_of_false (live_signIn client now db userId) ?_
    rintro ⟨pre, e, post, heq, -⟩
    simp at heq
  | append_singleton events e ih =>
    rw [run_append, run_cons, run_nil, over_step (run_inv client now db userId events), ih]
    constructor
    · rintro (hends | ⟨pre, a, post, rfl, hends⟩)
      · exact ⟨events, e, [], rfl, hends⟩
      · exact ⟨pre, a, post ++ [e], by simp, hends⟩
    · rintro ⟨pre, a, post, heq, hends⟩
      rcases List.eq_nil_or_concat post with rfl | ⟨post', b, rfl⟩
      · obtain ⟨rfl, hab⟩ := List.append_inj' heq rfl
        cases hab
        exact .inl hends
      · have hassoc : events ++ [e] = (pre ++ a :: post') ++ [b] := by
          rw [heq, List.concat_eq_append]
          simp
        obtain ⟨rfl, -⟩ := List.append_inj' hassoc rfl
        exact .inr ⟨pre, a, post', rfl, hends⟩

end TempleConsign.SignOut
