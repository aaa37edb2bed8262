import TempleConsign.RateLimit
import TempleConsign.Lib.Quota

/-!
# Guesses of the second factor

Model of `rate_limit_by_partial_token` and of its two limiters
(`src/api/middleware/rate_limit.py` lines 112–154), on any number of requests whose
increments are all committed, also those of rejected requests. Partial tokens live five
minutes (`create_partial_token`, `src/api/services/auth_service.py` line 73), and the
comment at the limiters takes a window for that lifetime; but windows start on the
clock, every five minutes of an hour.

`digest` is the first half of the SHA-256 that stands in the key for the token.

Results:
* `windowStart_fiveMinutes`: the windows are the five-minute steps of the clock.
* `bounded_of_oneWindow`, `bounded_of_few`: the bound holds for a token whose attempts
  fall into one window, and for one with few attempts.
* `guessesBounded_iff`: for a token that has its counter for itself, for no other.
-/

namespace TempleConsign.GuessLimits

open ServiceLib

/-! ## The limiters -/

inductive Endpoint
  | verify
  | recovery
  deriving DecidableEq

/-- `totp_partial_token_limiter` and `recovery_partial_token_limiter`. -/
def Endpoint.limiter : Endpoint → Limiter
  | verify => ⟨5, 300, "2fa_verify_token"⟩
  | recovery => ⟨3, 300, "2fa_recovery_token"⟩

/-- A request to one of the endpoints; `token` is `str(body.get("partial_token", ""))`. -/
structure Attempt where
  endpoint : Endpoint
  now : ℤ
  token : String

/-- `rate_limit_by_partial_token` (line 112). -/
def checkPartialToken (digest : String → String) (a : Attempt) : Svc Counters HttpException Unit :=
  Svc.onlyIf (a.token ≠ "") (checkRateLimit a.endpoint.limiter a.now (digest a.token))

/-- The attempts that get past the limiter, one after the other. -/
def passed (digest : String → String) : Counters → List Attempt → List Attempt
  | _, [] => []
  | c, a :: l =>
    let (result, c') := Svc.exec (checkPartialToken digest a) c
    if result.isOk then a :: passed digest c' l else passed digest c' l

/-- A token and when it was issued. -/
structure PartialToken where
  text : String
  text_ne : text ≠ ""
  issuedAt : ℤ

/-- The attempt is at the endpoint, with the token and in its lifetime. -/
def PartialToken.usedBy (τ : PartialToken) (e : Endpoint) (a : Attempt) : Bool :=
  a.endpoint = e && a.token = τ.text && τ.issuedAt ≤ a.now && a.now < τ.issuedAt + minutes 5

def PartialToken.attempts (τ : PartialToken) (e : Endpoint) (l : List Attempt) : List Attempt :=
  l.filter (τ.usedBy e)

/-- At most `limit` attempts with the token get past the limiter. -/
def Bounded (digest : String → String) (τ : PartialToken) (e : Endpoint) (l : List Attempt) :
    Prop :=
  (τ.attempts e (passed digest (fun _ => 0) l)).length ≤ e.limiter.limit

/-- The attempts with the token fall into one window. -/
def OneWindow (τ : PartialToken) (e : Endpoint) (l : List Attempt) : Prop :=
  ∀ a ∈ τ.attempts e l, ∀ b ∈ τ.attempts e l,
    windowStart a.now e.limiter.windowSeconds = windowStart b.now e.limiter.windowSeconds

/-- No more than `limit` attempts are made with the token. -/
def Few (τ : PartialToken) (e : Endpoint) (l : List Attempt) : Prop :=
  (τ.attempts e l).length ≤ e.limiter.limit

/-- Nobody else counts at the token's counter: no other token has its digest, and the
    token is not used outside its lifetime. -/
def OwnCounter (digest : String → String) (τ : PartialToken) (e : Endpoint) (l : List Attempt) :
    Prop :=
  ∀ a ∈ l, a.endpoint = e → a.token ≠ "" → digest a.token = digest τ.text → τ.usedBy e a = true

/-! ## Rows -/

variable {digest : String → String} {τ : PartialToken} {e : Endpoint} {l : List Attempt}

theorem windowSeconds_eq (e : Endpoint) : e.limiter.windowSeconds = 300 := by
  cases e with
  | verify => rfl
  | recovery => rfl

theorem limit_pos (e : Endpoint) : 0 < e.limiter.limit := by
  cases e with
  | verify => decide
  | recovery => decide

/-- The windows are the five-minute steps of the clock. -/
theorem windowStart_fiveMinutes (now : ℤ) :
    windowStart now 300 = now / minutes 5 * minutes 5 := by
  have hlong : ¬ (300 : ℤ) < 60 := by decide
  rw [windowStart, if_neg hlong]
  simp only [minutes, seconds]
  omega

theorem usedBy_iff {a : Attempt} : τ.usedBy e a = true ↔
    a.endpoint = e ∧ a.token = τ.text ∧ τ.issuedAt ≤ a.now ∧ a.now < τ.issuedAt + minutes 5 := by
  simp [PartialToken.usedBy, and_assoc]

/-- The row an attempt counts at, and the limit. -/
def quota (digest : String → String) : Quota Attempt CounterRow where
  row a := a.endpoint.limiter.row a.now (digest a.token)
  limit a := a.endpoint.limiter.limit

/-- Rows tell the endpoints and the digests apart. -/
theorem row_eq_iff {a b : Attempt} : (quota digest).row a = (quota digest).row b ↔
    a.endpoint = b.endpoint ∧ digest a.token = digest b.token ∧
      windowStart a.now 300 = windowStart b.now 300 := by
  unfold quota Limiter.row
  simp only [Prod.mk.injEq, windowSeconds_eq]
  constructor
  · rintro ⟨hkey, hwindow⟩
    have hlist := congrArg String.toList hkey
    cases ha : a.endpoint with
    | verify =>
      cases hb : b.endpoint with
      | verify =>
        simp only [ha, hb] at hkey
        exact ⟨rfl, (String.append_right_inj _).mp hkey, hwindow⟩
      | recovery =>
        rw [ha, hb] at hlist
        simp [Endpoint.limiter] at hlist
    | recovery =>
      cases hb : b.endpoint with
      | verify =>
        rw [ha, hb] at hlist
        simp [Endpoint.limiter] at hlist
      | recovery =>
        simp only [ha, hb] at hkey
        exact ⟨rfl, (String.append_right_inj _).mp hkey, hwindow⟩
  · rintro ⟨hendpoint, hdigest, hwindow⟩
    rw [hendpoint, hdigest]
    exact ⟨rfl, hwindow⟩

/-- The attempts with a token that get past the limiter are the admitted ones of the
    quota. -/
theorem filter_passed (c : Counters) (l : List Attempt) :
    (passed digest c l).filter (fun a => a.token ≠ "") =
      (quota digest).admitted c (l.filter fun a => a.token ≠ "") := by
  induction l generalizing c with
  | nil => rfl
  | cons a l ih =>
    by_cases htoken : a.token = ""
    · have hexec : Svc.exec (checkPartialToken digest a) c = (.ok (), c) := by
        simp [checkPartialToken, Svc.onlyIf, htoken]
      simp only [passed, hexec]
      have hok : (Except.ok () : Except HttpException Unit).isOk = true := rfl
      rw [if_pos hok, List.filter_cons_of_neg (by simp [htoken]),
        List.filter_cons_of_neg (by simp [htoken])]
      exact ih c
    · have hcheck : checkPartialToken digest a =
          checkRateLimit a.endpoint.limiter a.now (digest a.token) := by
        simp [checkPartialToken, Svc.onlyIf, htoken]
      rw [List.filter_cons_of_pos (by simpa using htoken)]
      simp only [passed, hcheck, exec_checkRateLimit, Quota.admitted]
      by_cases hlt : c (a.endpoint.limiter.row a.now (digest a.token)) < a.endpoint.limiter.limit
      · have hlt' : c ((quota digest).row a) < (quota digest).limit a := hlt
        rw [if_pos hlt, if_pos hlt']
        simp only [Except.isOk, Except.toBool, if_true]
        rw [List.filter_cons_of_pos (by simpa using htoken), ih]
        rfl
      · have hlt' : ¬ c ((quota digest).row a) < (quota digest).limit a := hlt
        rw [if_neg hlt, if_neg hlt']
        simp only [Except.isOk, Except.toBool, Bool.false_eq_true, if_false]
        rw [ih]
        rfl

/-! ## The bound -/

/-- Attempts with a token carry one. -/
theorem attempts_filter (m : List Attempt) :
    τ.attempts e (m.filter fun a => a.token ≠ "") = τ.attempts e m := by
  rw [PartialToken.attempts, PartialToken.attempts, List.filter_filter]
  apply List.filter_congr
  intro a _
  cases hused : τ.usedBy e a with
  | false => rfl
  | true =>
    obtain ⟨-, htoken, -⟩ := usedBy_iff.mp hused
    simp [htoken, τ.text_ne]

/-- The attempts with the token that pass are those that the quota admits. -/
theorem attempts_passed : τ.attempts e (passed digest (fun _ => 0) l) =
    τ.attempts e ((quota digest).admitted (fun _ => 0) (l.filter fun a => a.token ≠ "")) := by
  rw [← filter_passed, attempts_filter]

theorem attempts_passed_sublist :
    (τ.attempts e (passed digest (fun _ => 0) l)).Sublist (τ.attempts e l) := by
  rw [attempts_passed, ← attempts_filter l]
  exact List.Sublist.filter _ (Quota.admitted_sublist _ _)

/-- Few attempts are within the bound. -/
theorem bounded_of_few (h : Few τ e l) : Bounded digest τ e l :=
  attempts_passed_sublist.length_le.trans h

/-- The requests of a row all have one limit. -/
theorem limit_of_row {a b : Attempt} (h : (quota digest).row b = (quota digest).row a) :
    (quota digest).limit b = a.endpoint.limiter.limit :=
  congrArg (fun e : Endpoint => e.limiter.limit) (row_eq_iff.mp h).1

/-- The limit of a row is the one of its endpoint. -/
theorem countP_row (a : Attempt) (m : List Attempt) :
    ((quota digest).admitted (fun _ => 0) m).countP
        (fun b => (quota digest).row b = (quota digest).row a) =
      min a.endpoint.limiter.limit
        (m.countP fun b => (quota digest).row b = (quota digest).row a) :=
  Quota.countP_admitted (fun _ _ hb => limit_of_row hb) fun _ => 0

/-- Attempts with the token in one window are at one row. -/
theorem row_of_window {a b : Attempt} (ha : τ.usedBy e a = true) (hb : τ.usedBy e b = true)
    (h : windowStart a.now 300 = windowStart b.now 300) :
    (quota digest).row a = (quota digest).row b := by
  obtain ⟨hea, hta, -⟩ := usedBy_iff.mp ha
  obtain ⟨heb, htb, -⟩ := usedBy_iff.mp hb
  exact row_eq_iff.mpr ⟨hea.trans heb.symm, by rw [hta, htb], h⟩

/-- In one window the counter bounds the attempts. -/
theorem bounded_of_oneWindow (h : OneWindow τ e l) : Bounded digest τ e l := by
  have hcounted : (τ.attempts e (passed digest (fun _ => 0) l)).Sublist
      ((quota digest).admitted (fun _ => 0) (l.filter fun a => a.token ≠ "")) := by
    rw [attempts_passed]
    exact List.filter_sublist
  cases hattempts : τ.attempts e (passed digest (fun _ => 0) l) with
  | nil =>
    show (τ.attempts e _).length ≤ _
    rw [hattempts]
    exact Nat.zero_le _
  | cons a rest =>
    have hmem : ∀ b ∈ τ.attempts e (passed digest (fun _ => 0) l), b ∈ τ.attempts e l :=
      fun b hb => attempts_passed_sublist.subset hb
    have ha : a ∈ τ.attempts e l := hmem a (hattempts ▸ List.mem_cons_self)
    have hea := (usedBy_iff.mp (List.mem_filter.mp ha).2).1
    have hrow : ∀ b ∈ τ.attempts e (passed digest (fun _ => 0) l),
        decide ((quota digest).row b = (quota digest).row a) = true := by
      intro b hb
      have hwindow := h b (hmem b hb) a ha
      rw [windowSeconds_eq] at hwindow
      exact decide_eq_true (row_of_window (List.mem_filter.mp (hmem b hb)).2
        (List.mem_filter.mp ha).2 hwindow)
    calc (τ.attempts e (passed digest (fun _ => 0) l)).length
        = (τ.attempts e (passed digest (fun _ => 0) l)).countP
            (fun b => (quota digest).row b = (quota digest).row a) :=
          (List.countP_eq_length.mpr hrow).symm
      _ ≤ ((quota digest).admitted (fun _ => 0) (l.filter fun a => a.token ≠ "")).countP
            (fun b => (quota digest).row b = (quota digest).row a) := hcounted.countP_le
      _ ≤ e.limiter.limit := by
          rw [countP_row, hea]
          exact Nat.min_le_left _ _

/-- Elements of two disjoint kinds. -/
theorem countP_of_split {α : Type} {p q r : α → Bool} {m : List α}
    (h : ∀ a ∈ m, p a = (q a || r a)) (hapart : ∀ a ∈ m, (q a && r a) = false) :
    m.countP p = m.countP q + m.countP r := by
  induction m with
  | nil => rfl
  | cons a m ih =>
    have hrest := ih (fun b hb => h b (List.mem_cons_of_mem a hb))
      (fun b hb => hapart b (List.mem_cons_of_mem a hb))
    have ha := h a List.mem_cons_self
    have hboth := hapart a List.mem_cons_self
    rw [List.countP_cons, List.countP_cons, List.countP_cons, hrest, ha]
    cases hq : q a with
    | false => simp [Nat.add_assoc]
    | true =>
      cases hr : r a with
      | false => simp; omega
      | true =>
        rw [hq, hr] at hboth
        cases hboth

/-- A lifetime touches two windows at most. -/
theorem window_cases {a b c : Attempt} (ha : τ.usedBy e a = true) (hb : τ.usedBy e b = true)
    (hc : τ.usedBy e c = true) (hne : windowStart a.now 300 ≠ windowStart b.now 300) :
    windowStart c.now 300 = windowStart a.now 300 ∨
      windowStart c.now 300 = windowStart b.now 300 := by
  obtain ⟨-, -, ha, ha'⟩ := usedBy_iff.mp ha
  obtain ⟨-, -, hb, hb'⟩ := usedBy_iff.mp hb
  obtain ⟨-, -, hc, hc'⟩ := usedBy_iff.mp hc
  simp only [windowStart_fiveMinutes] at hne ⊢
  simp only [minutes, seconds] at *
  omega

/-- The attempts of a token with a counter for itself are those at the rows of the two
    windows. -/
theorem length_attempts {a b : Attempt} (hown : OwnCounter digest τ e l)
    (ha : τ.usedBy e a = true) (hb : τ.usedBy e b = true)
    (hne : windowStart a.now 300 ≠ windowStart b.now 300) {m : List Attempt}
    (hm : ∀ c ∈ m, c ∈ l.filter fun a => a.token ≠ "") :
    (τ.attempts e m).length = m.countP (fun c => (quota digest).row c = (quota digest).row a) +
      m.countP (fun c => (quota digest).row c = (quota digest).row b) := by
  have hrow : ∀ c ∈ m, ∀ d, τ.usedBy e d = true → (quota digest).row c = (quota digest).row d →
      τ.usedBy e c = true := by
    intro c hc d hd heq
    obtain ⟨hmem, htoken⟩ := List.mem_filter.mp (hm c hc)
    obtain ⟨hed, htd, -⟩ := usedBy_iff.mp hd
    obtain ⟨hendpoint, hdigest, -⟩ := row_eq_iff.mp heq
    rw [htd] at hdigest
    exact hown c hmem (hendpoint.trans hed) (of_decide_eq_true htoken) hdigest
  rw [PartialToken.attempts, ← List.countP_eq_length_filter]
  apply countP_of_split
  · intro c hc
    rw [Bool.eq_iff_iff, Bool.or_eq_true, decide_eq_true_eq, decide_eq_true_eq]
    constructor
    · intro hused
      exact (window_cases ha hb hused hne).imp (row_of_window hused ha) (row_of_window hused hb)
    · rintro (heq | heq)
      · exact hrow c hc a ha heq
      · exact hrow c hc b hb heq
  · intro c hc
    rw [Bool.and_eq_false_iff, decide_eq_false_iff_not, decide_eq_false_iff_not, ← not_and_or]
    rintro ⟨hrowA, hrowB⟩
    exact hne (row_eq_iff.mp (hrowA.symm.trans hrowB)).2.2

/-- A token with a counter for itself whose attempts fall into two windows gets the limit
    twice. -/
theorem few_of_bounded (hown : OwnCounter digest τ e l) (h : Bounded digest τ e l)
    (hwindows : ¬ OneWindow τ e l) : Few τ e l := by
  unfold OneWindow at hwindows
  simp only [not_forall] at hwindows
  obtain ⟨a, ha, b, hb, hne⟩ := hwindows
  rw [windowSeconds_eq] at hne
  obtain ⟨hmemA, husedA⟩ := List.mem_filter.mp ha
  obtain ⟨hmemB, husedB⟩ := List.mem_filter.mp hb
  have hall := length_attempts (m := l.filter fun a => a.token ≠ "") hown husedA husedB hne
    fun c hc => hc
  have hpassed := length_attempts (m := (quota digest).admitted (fun _ => 0)
    (l.filter fun a => a.token ≠ "")) hown husedA husedB hne
    fun c hc => (Quota.admitted_sublist _ _).subset hc
  rw [attempts_filter] at hall
  rw [← attempts_passed, countP_row, countP_row, (usedBy_iff.mp husedA).1,
    (usedBy_iff.mp husedB).1] at hpassed
  have hat : ∀ c ∈ l, τ.usedBy e c = true → 0 < (l.filter fun a => a.token ≠ "").countP
      (fun d => (quota digest).row d = (quota digest).row c) := by
    intro c hc hused
    obtain ⟨-, htoken, -⟩ := usedBy_iff.mp hused
    have htext : c.token ≠ "" := htoken ▸ τ.text_ne
    exact List.countP_pos_iff.mpr
      ⟨c, List.mem_filter.mpr ⟨hc, decide_eq_true htext⟩, decide_eq_true rfl⟩
  have hposA := hat a hmemA husedA
  have hposB := hat b hmemB husedB
  have hlimit := limit_pos e
  unfold Bounded at h
  rw [hpassed] at h
  unfold Few
  rw [hall]
  omega

/-- The bound holds for every token whose attempts at the endpoint fall into one window or
    are few; a token that has its counter for itself gets past it otherwise. -/
theorem guessesBounded_iff (digest : String → String) (τ : PartialToken) (e : Endpoint)
    (l : List Attempt) :
    (OneWindow τ e l ∨ Few τ e l → Bounded digest τ e l) ∧
      (OwnCounter digest τ e l → Bounded digest τ e l → OneWindow τ e l ∨ Few τ e l) := by
  constructor
  · rintro (hwindow | hfew)
    · exact bounded_of_oneWindow hwindow
    · exact bounded_of_few hfew
  · intro hown hbounded
    by_cases hwindow : OneWindow τ e l
    · exact .inl hwindow
    · exact .inr (few_of_bounded hown hbounded hwindow)

/-- A token issued 150 s after the hour, with five guesses in the last second of a window
    and five in the first of the next. -/
def acrossWindows : List Attempt :=
  List.replicate 5 ⟨.verify, seconds 299, "token"⟩ ++
    List.replicate 5 ⟨.verify, seconds 300, "token"⟩

/-- All ten guesses get past the limiter. -/
theorem ten_guesses : ¬ ∀ (digest : String → String) (τ : PartialToken) (e : Endpoint)
    (l : List Attempt), Bounded digest τ e l := by
  intro h
  have hten : ¬ Bounded id ⟨"token", by decide, seconds 150⟩ .verify acrossWindows := by
    unfold Bounded
    decide +kernel
  exact hten (h _ _ _ _)

end TempleConsign.GuessLimits
