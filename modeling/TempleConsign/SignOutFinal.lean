import TempleConsign.SignOut

/-!
# Sign-outs that are not final

Both clients clear their state whatever the server answered (`AuthState.logout`
line 106, `onLogout` in `src/web/src/components/Layout.tsx` line 46). The server may still have
the session then: it refuses a sign-out whose access token has expired, the browser does not
refresh for it, and the phone sends the refresh token that its own refresh has just replaced. The
device may be signed in again, by the answer to a refresh call that it sent before, or by the
cookie.

Results:
* `expired_logout_keeps_session`: a sign-out that begins with an expired access token never
  ends the session.
* `stays_signed_out_iff`: when a sign-out is final on the device.
-/

namespace TempleConsign.SignOut

open ServiceLib

variable {db : Store UserSession} {now : ℤ} {c : ℕ} {d : Device} {i : ℕ}

/-! ## A sign-out that begins with an expired access token -/

/-- The sign-out cannot end the session: its token is not the latest, or no access token that
    the device can come by is accepted without a further refresh. -/
def Stale (d : Device) : Prop :=
  d.logout.token ≠ some d.latest ∨ ((∀ i, ¬ Granted d i) ∧ accepts d.now d.accessToken = false ∧
    accepts d.now d.logout.access = false)

/-- The session is live, and the sign-out that has begun cannot end it. -/
structure Doomed (d : Device) : Prop where
  inv : Inv d
  live : ¬ SessionOver d
  stale : Stale d
  begun : d.logout ≠ .idle

theorem accepts_eq_false {access : Option AccessToken} :
    accepts now access = false ↔ ∀ t, access = some t → t.exp ≤ now := by
  cases access with
  | none => simp [accepts]
  | some t =>
    rw [accepts, Option.any_some, decide_eq_false_iff_not]
    simp [AccessToken.validAt]

/-- An access token that is not accepted never will be. -/
theorem accepts_later {access : Option AccessToken} (h : accepts now access = false)
    (seconds : ℕ) : accepts (now + seconds) access = false := by
  rw [accepts_eq_false] at h ⊢
  intro t ht
  have hexp := h t ht
  omega

theorem Doomed.not_ends (h : Doomed d) (e : Event) : ¬ Ends d e := by
  rintro ⟨-, access, again, hd, hacc⟩
  rcases h.stale with htoken | ⟨-, -, haccess⟩
  · rw [hd] at htoken
    exact htoken rfl
  · rw [hd] at haccess
    rw [show accepts d.now access = false from haccess] at hacc
    cases hacc

theorem begun_step (h : d.logout ≠ .idle) (e : Event) : (step d e).logout ≠ .idle := by
  cases e with
  | serveRefresh i =>
    simp only [step]
    split
    · next r _ =>
      rcases TempleConsign.serveRefresh d.now r d.sessions with ⟨_ | ⟨t, c⟩, db⟩ <;> exact h
    · exact h
  | receive i =>
    simp only [step]
    split
    · next answer _ => cases answer <;> exact h
    · exact h
  | _ =>
    simp only [step]
    repeat' split
    all_goals first | exact h | (intro hidle; cases hidle)

theorem Stale.setCall (h : Stale d) {x : RefreshCall} (hx : ∀ t c, x ≠ .back (some (t, c))) :
    Stale (d.setCall i x) := by
  rcases h with htoken | ⟨hnone, haccess⟩
  · exact .inl htoken
  · refine .inr ⟨fun j hj => ?_, haccess⟩
    rcases granted_setCall hj with ⟨hj, -⟩ | ⟨-, t, c, hback⟩
    · exact hnone j hj
    · exact hx t c hback

theorem stale_serveRefresh (h : Doomed d) (i : ℕ) : Stale (step d (.serveRefresh i)) := by
  cases hi : d.calls i with
  | out c =>
    rcases step_serveRefresh hi with ⟨-, hx⟩ | ⟨r, -, -, hx⟩
    · rw [hx]
      exact h.stale.setCall fun t c hback => by cases hback
    · rw [hx]
      refine .inl fun htoken => ?_
      have hold : d.logout.token = some d.sessions.next := htoken
      exact absurd (h.inv.lt (.inr (.inl hold))) (by omega)
  | idle =>
    simp only [step, hi]
    exact h.stale
  | back answer =>
    simp only [step, hi]
    exact h.stale

theorem stale_receive (h : Doomed d) (i : ℕ) : Stale (step d (.receive i)) := by
  simp only [step]
  split
  · next answer hi =>
    cases answer with
    | none =>
      have hstale : Stale (d.refreshed none) := by
        refine h.stale.imp id ?_
        rintro ⟨hnone, haccess, hlogout⟩
        refine ⟨hnone, ?_, hlogout⟩
        simp only [Device.refreshed]
        split_ifs
        · rfl
        · exact haccess
      exact hstale.setCall fun t c hback => by cases hback
    | some a =>
      rcases h.stale with htoken | ⟨hnone, -⟩
      · exact .inl htoken
      · exact absurd ⟨a.1, a.2, hi⟩ (hnone i)
  · exact h.stale

/-- Each step of the sign-out keeps its token, and takes its access token from the device. -/
theorem stale_step (h : Doomed d) (e : Event) : Stale (step d e) := by
  cases e with
  | tick seconds =>
    refine h.stale.imp id ?_
    rintro ⟨hnone, haccess, hlogout⟩
    exact ⟨hnone, accepts_later haccess seconds, accepts_later hlogout seconds⟩
  | refresh i =>
    simp only [step]
    split
    · exact h.stale.setCall fun t c hback => by cases hback
    · exact h.stale
  | serveRefresh i => exact stale_serveRefresh h i
  | throttle i =>
    simp only [step]
    split
    · exact h.stale.setCall fun t c hback => by cases hback
    · exact h.stale
  | receive i => exact stale_receive h i
  | lose i => exact h.stale.setCall fun t c hback => by cases hback
  | logout =>
    simp only [step]
    split
    · next hidle _ => exact absurd hidle h.begun
    · next hidle _ => exact absurd hidle h.begun
    · exact h.stale
  | sendLogout =>
    simp only [step]
    split
    · next r hd =>
      rcases h.stale with htoken | ⟨hnone, haccess, -⟩
      · rw [hd] at htoken
        exact .inl htoken
      · exact .inr ⟨hnone, haccess, haccess⟩
    · exact h.stale
  | serveLogout =>
    simp only [step]
    split
    · next access token again hd =>
      rcases h.stale with htoken | ⟨hnone, haccess, hlogout⟩
      · rw [hd] at htoken
        split_ifs
        · exact .inl htoken
        · exact .inl htoken
      · rw [hd] at hlogout
        have hno : accepts d.now access = false := hlogout
        rw [if_neg (by rw [hno]; exact Bool.false_ne_true)]
        exact .inr ⟨hnone, haccess, hlogout⟩
    · exact h.stale
  | loseLogout =>
    simp only [step]
    split
    · exact .inl fun htoken => by cases htoken
    · exact .inl fun htoken => by cases htoken
    · exact h.stale
  | retryLogout =>
    simp only [step]
    split
    · next access token hd _ =>
      rcases h.stale with htoken | ⟨hnone, haccess, hlogout⟩
      · rw [hd] at htoken
        exact .inl htoken
      · rw [hd] at hlogout
        refine .inr ⟨hnone, haccess, ?_⟩
        show accepts d.now (d.accessToken.or access) = false
        cases hown : d.accessToken with
        | none => exact hlogout
        | some t => rw [Option.some_or, ← hown]; exact haccess
    · exact h.stale
  | finish =>
    have hclear : ∀ accepted, Stale (d.clear accepted) :=
      fun accepted => .inl fun htoken => by cases htoken
    simp only [step]
    split
    · exact hclear _
    · exact hclear _
    · exact hclear _
    · exact h.stale

theorem doomed_step (h : Doomed d) (e : Event) : Doomed (step d e) where
  inv := inv_step h.inv e
  live hover := by
    rcases (over_step h.inv).mp hover with hends | hover
    · exact h.not_ends e hends
    · exact h.live hover
  stale := stale_step h e
  begun := begun_step h.begun e

/-- A sign-out begins with the token that the device stores. -/
theorem doomed_logout (h : Inv d) (hlive : ¬ SessionOver d) (hidle : d.logout = .idle)
    (hexpired : accepts d.now d.accessToken = false) : Doomed (step d .logout) := by
  have hnot : ¬ Ends d .logout := fun hends => by cases hends.1
  have hstale : d.refreshToken = some d.latest → ∀ i, ¬ Granted d i :=
    fun hstored i hi => (h.granted i hi).2.1 hstored
  refine ⟨inv_step h _, fun hover => ?_, ?_, ?_⟩
  · exact ((over_step h).mp hover).elim hnot hlive
  · by_cases hstored : d.refreshToken = some d.latest
    · refine .inr ?_
      simp only [step, hidle]
      cases d.client with
      | web => exact ⟨hstale hstored, hexpired, hexpired⟩
      | phone => exact ⟨hstale hstored, hexpired, rfl⟩
    · refine .inl ?_
      simp only [step, hidle]
      cases d.client with
      | web => exact hstored
      | phone => exact hstored
  · simp only [step, hidle]
    cases d.client with
    | web => exact fun hd => by cases hd
    | phone => exact fun hd => by cases hd

/-- Before a sign-out begins the session is live. -/
theorem live_before {client : Client} {userId : ℕ} {events : List Event}
    (hidle : (run step (signIn client now db userId) events).logout = .idle) :
    ¬ SessionOver (run step (signIn client now db userId) events) := by
  induction events using List.reverseRecOn with
  | nil => exact live_signIn client now db userId
  | append_singleton events e ih =>
    rw [run_append, run_cons, run_nil] at hidle ⊢
    have hbefore : (run step (signIn client now db userId) events).logout = .idle := by
      by_contra hbegun
      exact begun_step hbegun e hidle
    intro hover
    rcases (over_step (run_inv client now db userId events)).mp hover with hends | hover
    · obtain ⟨-, access, again, hd, -⟩ := hends
      rw [hbefore] at hd
      cases hd
    · exact ih hbefore hover

/-- **A sign-out that begins with an expired access token never ends the session at the
    server**, on either client and however its requests, refreshes and retries go. -/
theorem expired_logout_keeps_session {client : Client} {userId : ℕ} {pre : List Event}
    (hidle : (run step (signIn client now db userId) pre).logout = .idle)
    (hexpired : accepts (run step (signIn client now db userId) pre).now
      (run step (signIn client now db userId) pre).accessToken = false) (post : List Event) :
    ¬ SessionOver (run step (signIn client now db userId) (pre ++ .logout :: post)) := by
  rw [run_append, run_cons]
  have hdoomed := doomed_logout (run_inv client now db userId pre) (live_before hidle) hidle
    hexpired
  exact (run_induction (P := Doomed) (fun _ e h => doomed_step h e) hdoomed post).live

/-! ### A phone whose access token has expired -/

/-- The lifetime of an access token goes by. -/
def expires : Event := .tick 900000000

/-- The phone refreshes for its sign-out, and sends it once more. -/
def signOutOnPhone : List Event :=
  [.sendLogout, .serveLogout, .refresh 0, .serveRefresh 0, .receive 0, .retryLogout, .serveLogout,
    .finish]

/-- The refresh token of that refresh is still good. -/
theorem signOutOnPhone_live :
    ¬ SessionOver (run step (signIn .phone 0 .empty 1) ([expires] ++ .logout :: signOutOnPhone)) :=
  expired_logout_keeps_session rfl (by decide) signOutOnPhone

/-! ## Signed out for good -/

/-- A refresh call that the server granted, or will grant when it arrives now. -/
def Grants (d : Device) (i : ℕ) : Prop :=
  Granted d i ∨ ∃ c, d.calls i = .out c ∧ LiveToken d.now d.sessions c

/-- The sign-out is over, and nothing that the device has or awaits is any good. -/
structure SignedOut (d : Device) : Prop where
  ended : d.logout = .ended
  noAccess : d.accessToken = none
  dead : ∀ c, d.refreshToken = some c → ¬ LiveToken d.now d.sessions c
  noGrant : ∀ i, ¬ Grants d i

theorem not_live_later (h : ¬ LiveToken now db c) (seconds : ℕ) :
    ¬ LiveToken (now + seconds) db c := by
  rintro ⟨r, hr, hlive⟩
  refine h ⟨r, hr, ?_⟩
  rw [UserSession.liveAt_iff] at hlive ⊢
  exact ⟨hlive.1, by omega⟩

theorem SignedOut.setCall (h : SignedOut d) {x : RefreshCall}
    (hx : ∀ t c, x ≠ .back (some (t, c)))
    (hout : ∀ c, x = .out c → ¬ LiveToken d.now d.sessions c) : SignedOut (d.setCall i x) where
  ended := h.ended
  noAccess := h.noAccess
  dead := h.dead
  noGrant j hj := by
    rcases hj with hj | ⟨c, hj, hlive⟩
    · rcases granted_setCall hj with ⟨hj, -⟩ | ⟨-, t, c, hback⟩
      · exact h.noGrant j (.inl hj)
      · exact hx t c hback
    · by_cases hji : j = i
      · rw [hji, setCall_calls_self] at hj
        exact hout c hj hlive
      · rw [setCall_calls_ne d x hji] at hj
        exact h.noGrant j (.inr ⟨c, hj, hlive⟩)

theorem signedOut_step (h : SignedOut d) (e : Event) : SignedOut (step d e) := by
  cases e with
  | tick seconds =>
    refine ⟨h.ended, h.noAccess, fun c hc => not_live_later (h.dead c hc) seconds, fun i hi => ?_⟩
    rcases hi with hi | ⟨c, hi, hlive⟩
    · exact h.noGrant i (.inl hi)
    · exact not_live_later (fun hl => h.noGrant i (.inr ⟨c, hi, hl⟩)) seconds hlive
  | refresh i =>
    simp only [step]
    split
    · next r _ hr =>
      refine h.setCall (fun t c hx => by cases hx) fun c hx => ?_
      cases hx
      exact h.dead r hr
    · exact h
  | serveRefresh i =>
    cases hi : d.calls i with
    | out c =>
      rcases step_serveRefresh hi with ⟨-, hx⟩ | ⟨r, hlive, -, -⟩
      · rw [hx]
        exact h.setCall (fun t c hx => by cases hx) fun c hx => by cases hx
      · exact absurd (.inr ⟨c, hi, hlive⟩) (h.noGrant i)
    | idle =>
      simp only [step, hi]
      exact h
    | back answer =>
      simp only [step, hi]
      exact h
  | throttle i =>
    simp only [step]
    split
    · exact h.setCall (fun t c hx => by cases hx) fun c hx => by cases hx
    · exact h
  | receive i =>
    simp only [step]
    split
    · next answer hi =>
      cases answer with
      | none =>
        have hsame : SignedOut (d.refreshed none) := by
          refine ⟨h.ended, ?_, h.dead, h.noGrant⟩
          simp only [Device.refreshed, h.noAccess, ite_self]
        exact hsame.setCall (fun t c hx => by cases hx) fun c hx => by cases hx
      | some a => exact absurd (.inl ⟨a.1, a.2, hi⟩) (h.noGrant i)
    · exact h
  | lose i => exact h.setCall (fun t c hx => by cases hx) fun c hx => by cases hx
  | _ =>
    simp only [step, h.ended]
    exact h

/-- The sign-out can end now. -/
def CanFinish (d : Device) : Prop := (step d .finish).logout = .ended

theorem step_finish (h : CanFinish d) (hbegun : d.logout ≠ .ended) :
    ∃ accepted, step d .finish = d.clear accepted := by
  unfold CanFinish at h
  simp only [step] at h ⊢
  split at h
  · exact ⟨_, rfl⟩
  · exact ⟨_, rfl⟩
  · exact ⟨_, rfl⟩
  · exact absurd h hbegun

theorem signed_in_again_call {d : Device} (h : Grants d i) :
    ∃ post, (run step d post).accessToken ≠ none := by
  rcases h with ⟨t, c, hi⟩ | ⟨c, hi, hlive⟩
  · refine ⟨[.receive i], ?_⟩
    rw [run_cons, run_nil]
    simp only [step, hi]
    exact Option.some_ne_none t
  · refine ⟨[.serveRefresh i, .receive i], ?_⟩
    rcases step_serveRefresh hi with ⟨hdead, -⟩ | ⟨r, -, -, hx⟩
    · exact absurd hlive hdead
    · rw [run_cons, run_cons, run_nil, hx]
      simp only [step, setCall_calls_self]
      exact Option.some_ne_none _

/-- The browser refreshes with the cookie that it still has. -/
theorem signed_in_again_cookie {d : Device} (hc : d.refreshToken = some c)
    (hlive : LiveToken d.now d.sessions c) : ∃ post, (run step d post).accessToken ≠ none := by
  have hout : step (step d (.lose 0)) (.refresh 0) = (d.setCall 0 .idle).setCall 0 (.out c) := by
    have hstored : (d.setCall 0 .idle).refreshToken = some c := hc
    simp only [step, setCall_calls_self, hstored]
  obtain ⟨post, hpost⟩ := signed_in_again_call (d := (d.setCall 0 .idle).setCall 0 (.out c))
    (i := 0) (.inr ⟨c, setCall_calls_self _ _ _, hlive⟩)
  exact ⟨.lose 0 :: .refresh 0 :: post, by rw [run_cons, run_cons, hout]; exact hpost⟩

/-- **A sign-out is final on the device exactly when it leaves no refresh call that the server
    granted or will grant, nor a cookie that the server still takes.** -/
theorem stays_signed_out_iff (h : CanFinish d) (hbegun : d.logout ≠ .ended) :
    (∀ post, (run step d (.finish :: post)).accessToken = none) ↔
      (∀ i, ¬ Grants d i) ∧
        ∀ c, (step d .finish).refreshToken = some c → ¬ LiveToken d.now d.sessions c := by
  obtain ⟨accepted, hx⟩ := step_finish h hbegun
  constructor
  · intro hall
    refine ⟨fun i hi => ?_, fun c hc hlive => ?_⟩
    · have hi' : Grants (step d .finish) i := by rw [hx]; exact hi
      obtain ⟨post, hpost⟩ := signed_in_again_call hi'
      exact hpost (hall post)
    · have hlive' : LiveToken (step d .finish).now (step d .finish).sessions c := by
        rw [hx]
        exact hlive
      obtain ⟨post, hpost⟩ := signed_in_again_cookie hc hlive'
      exact hpost (hall post)
  · rintro ⟨hcalls, hcookie⟩ post
    have hout : SignedOut (step d .finish) := by
      rw [hx] at hcookie ⊢
      exact ⟨rfl, rfl, hcookie, hcalls⟩
    exact (run_induction (P := SignedOut) (fun _ e h => signedOut_step h e) hout post).noAccess

/-! ### A refresh that is late -/

/-- A phone that refreshes while it signs out. -/
def refreshing : Device :=
  run step (signIn .phone 0 .empty 1)
    [.refresh 0, .serveRefresh 0, .logout, .sendLogout, .serveLogout]

/-- The answer signs the phone in again. -/
theorem refreshing_signs_in :
    ¬ ∀ post, (run step refreshing (.finish :: post)).accessToken = none := by
  have hbegun : refreshing.logout ≠ .ended := fun hended => by cases hended
  have hfinish : CanFinish refreshing := rfl
  rw [stays_signed_out_iff hfinish hbegun]
  exact fun hfinal => hfinal.1 0 (.inl ⟨_, _, rfl⟩)

end TempleConsign.SignOut
