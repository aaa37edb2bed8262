import Mathlib.Logic.Function.Basic
import TempleConsign.Database
import TempleConsign.Lib.Run

/-!
# The rate limiter

Model of `_check_rate_limit` (`src/api/middleware/rate_limit.py` line 34): a
counter for each key and fixed window, incremented in the transaction of the
request itself. `Gate` is one limiter with the requests that share it. The
upsert of a request locks the counter's row until the request's transaction
ends, so the requests at one row pass through one after the other; each of them
commits or is rolled back, as its endpoint decides.

Results:
* `exec_checkRateLimit`: the check admits by the committed counter.
* `gateStep_inv`: the committed counter counts the committed requests only.
* `gateStep_within_iff`: what a step needs to keep the limit.
* `within_limit_iff`: a run keeps the limit exactly when no request arrives at a
  full window one of whose first requests was rolled back.
* `failing_requests_admitted`: requests that fail are never limited.
-/

namespace TempleConsign

open ServiceLib

/-! ## The check -/

/-- `HTTPException`. -/
structure HttpException where
  statusCode : ℕ
  detail : String
  headers : List (String × String)
  deriving DecidableEq

/-- The unique columns of `RateLimitCounter` (`src/api/database/models.py` line
    359): the key and the window's start. -/
abbrev CounterRow := String × ℤ

/-- The table `rate_limit_counters`; a row that is not there counts 0. -/
abbrev Counters := CounterRow → ℕ

/-- The arguments that a limiter fixes: `limit`, `window_seconds` and the part
    of the key before the client's address, email or token. -/
structure Limiter where
  limit : ℕ
  windowSeconds : ℤ
  scope : String

/-- The `window_start` of `_check_rate_limit` (lines 46-57): the clock truncated
    within its minute or within its hour. -/
def windowStart (now windowSeconds : ℤ) : ℤ :=
  if windowSeconds < 60 then
    now - now % minutes 1 + seconds (now % minutes 1 / seconds 1 / windowSeconds * windowSeconds)
  else
    now - now % minutes 60 +
      minutes (now % minutes 60 / minutes 1 / (windowSeconds / 60) * (windowSeconds / 60))

def Limiter.row (l : Limiter) (now : ℤ) (subject : String) : CounterRow :=
  (l.scope ++ ":" ++ subject, windowStart now l.windowSeconds)

/-- The upsert: `INSERT … VALUES (…, 1) ON CONFLICT … SET count = count + 1`. -/
def Counters.bump (c : Counters) (row : CounterRow) : Counters :=
  Function.update c row (c row + 1)

/-- The 429 of `_check_rate_limit` (line 75). -/
def tooManyRequests (l : Limiter) (now : ℤ) : HttpException where
  statusCode := 429
  detail := "Too many requests. Please try again later."
  headers :=
    let left := windowStart now l.windowSeconds + seconds l.windowSeconds - now
    [("Retry-After", toString (max (left.tdiv (seconds 1)) 1))]

/-- `_check_rate_limit` (line 34). -/
def checkRateLimit (l : Limiter) (now : ℤ) (subject : String) :
    Svc Counters HttpException Unit := do
  modify fun c => c.bump (l.row now subject)
  let c ← get
  Svc.require (c (l.row now subject) ≤ l.limit) (tooManyRequests l now)

theorem bump_self (c : Counters) (row : CounterRow) : c.bump row row = c row + 1 := by
  simp [Counters.bump]

theorem bump_ne (c : Counters) {row row' : CounterRow} (h : row' ≠ row) :
    c.bump row row' = c row' := by
  simp [Counters.bump, h]

/-- A request passes when the committed counter is below the limit. -/
theorem exec_checkRateLimit (l : Limiter) (now : ℤ) (subject : String) (c : Counters) :
    Svc.exec (checkRateLimit l now subject) c =
      if c (l.row now subject) < l.limit then (.ok (), c.bump (l.row now subject))
      else (.error (tooManyRequests l now), c.bump (l.row now subject)) := by
  simp only [checkRateLimit, Svc.exec_bind, Svc.exec_modify, Svc.exec_get, Svc.exec_require,
    bump_self]
  rfl

/-! ## Requests at a limiter -/

/-- How a request that arrived at a row ended: turned away with 429, or let into
    its endpoint and then committed or rolled back. -/
inductive Fate
  | rejected
  | committed
  | rolledBack
  deriving DecidableEq

/-- A limiter and its requests. `counters` is the committed table, `inFlight`
    the rows whose lock a request in its endpoint holds, `fates` the finished
    requests of each row in the order they arrived. -/
structure Gate where
  counters : Counters
  inFlight : CounterRow → Bool
  fates : CounterRow → List Fate

def Gate.empty : Gate := ⟨fun _ => 0, fun _ => false, fun _ => []⟩

/-- A request arrives at the limiter, or the one that holds the row's lock ends:
    `returned` says whether its endpoint returned or raised. -/
inductive GateOp
  | check (now : ℤ) (subject : String)
  | finish (row : CounterRow) (returned : Bool)

/-- A request that is rejected raises, so `get_db` (`src/api/database/base.py`
    line 42) rolls it back at once. One that finds the row locked waits: it arrives
    later. -/
def gateStep (l : Limiter) (g : Gate) : GateOp → Gate
  | .check now subject =>
    let row := l.row now subject
    if g.inFlight row then g
    else match Svc.exec (checkRateLimit l now subject) g.counters with
      | (.ok _, _) => { g with inFlight := Function.update g.inFlight row true }
      | (.error _, _) =>
        { g with fates := Function.update g.fates row (g.fates row ++ [.rejected]) }
  | .finish row returned =>
    if g.inFlight row then
      { counters := if returned then g.counters.bump row else g.counters
        inFlight := Function.update g.inFlight row false
        fates := Function.update g.fates row
          (g.fates row ++ [if returned then .committed else .rolledBack]) }
    else g

/-- How many requests got past the limiter. -/
def Gate.admitted (g : Gate) (row : CounterRow) : ℕ :=
  (g.fates row).countP (fun f => f ≠ .rejected) + if g.inFlight row then 1 else 0

/-- At most `limit` requests of each key and window got past the limiter. -/
def WithinLimit (l : Limiter) (g : Gate) : Prop := ∀ row, g.admitted row ≤ l.limit

/-- The request does not arrive at a full window one of whose first `limit`
    requests was rolled back. -/
def FirstKept (l : Limiter) (g : Gate) : GateOp → Prop
  | .check now subject =>
    let row := l.row now subject
    g.inFlight row = true ∨ (g.fates row).length < l.limit ∨
      ∀ f ∈ (g.fates row).take l.limit, f ≠ .rolledBack
  | .finish .. => True

/-! ## The counter counts what committed -/

variable {l : Limiter} {g : Gate}

/-- The committed counter is the number of committed requests, and the first
    `limit` requests of a row are never rejected. -/
structure GateInv (l : Limiter) (g : Gate) : Prop where
  counted : ∀ row, g.counters row = (g.fates row).countP (fun f => f = .committed)
  first : ∀ row, ∀ f ∈ (g.fates row).take l.limit, f ≠ .rejected

theorem gateInv_empty (l : Limiter) : GateInv l Gate.empty where
  counted := fun _ => rfl
  first := fun row f h => by simp [Gate.empty] at h

theorem admitted_eq_add (fs : List Fate) :
    fs.countP (fun f => f ≠ .rejected) =
      fs.countP (fun f => f = .committed) + fs.countP (fun f => f = .rolledBack) := by
  induction fs with
  | nil => rfl
  | cons f fs ih =>
    simp only [List.countP_cons, ih]
    cases f <;> simp <;> omega

/-- What a check does on a free row. -/
theorem gateStep_check {now : ℤ} {subject : String}
    (hfree : g.inFlight (l.row now subject) = false) :
    gateStep l g (.check now subject) =
      if g.counters (l.row now subject) < l.limit then
        { g with inFlight := Function.update g.inFlight (l.row now subject) true }
      else { g with
        fates := Function.update g.fates (l.row now subject)
          (g.fates (l.row now subject) ++ [.rejected]) } := by
  simp only [gateStep, hfree, Bool.false_eq_true, if_false, exec_checkRateLimit]
  split_ifs <;> rfl

theorem gateStep_inv (op : GateOp) (hi : GateInv l g) : GateInv l (gateStep l g op) := by
  cases op with
  | check now subject =>
    cases hfree : g.inFlight (l.row now subject) with
    | true => simpa [gateStep, hfree] using hi
    | false =>
      rw [gateStep_check hfree]
      split_ifs with hlt
      · exact ⟨hi.counted, hi.first⟩
      · -- a rejection comes after `limit` committed requests
        have hle : l.limit ≤ (g.fates (l.row now subject)).length := by
          have h1 := hi.counted (l.row now subject)
          have h2 : (g.fates (l.row now subject)).countP (fun f => f = .committed) ≤
            (g.fates (l.row now subject)).length := List.countP_le_length
          omega
        refine ⟨fun row => ?_, fun row f hf => ?_⟩
        · by_cases hr : row = l.row now subject
          · rw [hr]
            simp [hi.counted]
          · simp [hr, hi.counted]
        · by_cases hr : row = l.row now subject
          · rw [hr] at hf
            simp only [Function.update_self, List.take_append_of_le_length hle] at hf
            exact hi.first _ f hf
          · simp only [Function.update_of_ne hr] at hf
            exact hi.first row f hf
  | finish row returned =>
    cases hfl : g.inFlight row with
    | false => simpa [gateStep, hfl] using hi
    | true =>
      refine ⟨fun row' => ?_, fun row' f hf => ?_⟩
      · by_cases hr : row' = row
        · subst hr
          cases returned <;> simp [gateStep, hfl, hi.counted, bump_self]
        · cases returned <;> simp [gateStep, hfl, hi.counted, bump_ne, hr]
      · by_cases hr : row' = row
        · subst hr
          simp only [gateStep, hfl, if_true, Function.update_self, List.take_append] at hf
          rcases List.mem_append.mp hf with hf | hf
          · exact hi.first _ f hf
          · have := List.mem_singleton.mp (List.mem_of_mem_take hf)
            cases returned <;> simp [this]
        · simp only [gateStep, hfl, if_true, Function.update_of_ne hr] at hf
          exact hi.first row' f hf

/-! ## The limit -/

/-- `finish` admits nobody. -/
theorem admitted_finish (row : CounterRow) (returned : Bool) (row' : CounterRow) :
    (gateStep l g (.finish row returned)).admitted row' = g.admitted row' := by
  cases hfl : g.inFlight row with
  | false => simp [gateStep, hfl]
  | true =>
    by_cases hr : row' = row
    · subst hr
      cases returned <;> simp [gateStep, hfl, Gate.admitted]
    · simp [gateStep, hfl, Gate.admitted, hr]

/-- A check on a free row admits its request iff the counter is below the
    limit. -/
theorem admitted_check {now : ℤ} {subject : String}
    (hfree : g.inFlight (l.row now subject) = false) (row : CounterRow) :
    (gateStep l g (.check now subject)).admitted row = g.admitted row +
      if row = l.row now subject ∧ g.counters row < l.limit then 1 else 0 := by
  rw [gateStep_check hfree]
  by_cases hr : row = l.row now subject
  · subst hr
    by_cases hlt : g.counters (l.row now subject) < l.limit
    · simp [Gate.admitted, hfree, hlt]
    · simp [Gate.admitted, hfree, hlt]
  · split_ifs <;> simp_all [Gate.admitted]

/-- A full row turns the next request away exactly when all of its first
    `limit` requests were committed. -/
theorem full_iff (hi : GateInv l g) {row : CounterRow} (hfree : g.inFlight row = false)
    (hw : g.admitted row ≤ l.limit) :
    (g.counters row < l.limit → g.admitted row + 1 ≤ l.limit) ↔
      ((g.fates row).length < l.limit ∨
        ∀ f ∈ (g.fates row).take l.limit, f ≠ .rolledBack) := by
  have hadm : g.admitted row = (g.fates row).countP (fun f => f ≠ .rejected) := by
    simp [Gate.admitted, hfree]
  have hadd := admitted_eq_add (g.fates row)
  have hcount := hi.counted row
  constructor
  · intro h
    by_contra hcon
    simp only [not_or, not_lt, not_forall, not_not] at hcon
    obtain ⟨hlen, f, hf, hrb⟩ := hcon
    rw [hrb] at hf
    -- the first `limit` requests were all admitted, and one of them failed
    have htake : l.limit ≤ (g.fates row).countP (fun f => f ≠ .rejected) := by
      have h1 : ((g.fates row).take l.limit).countP (fun f => f ≠ .rejected) =
          ((g.fates row).take l.limit).length := by
        rw [List.countP_eq_length]
        exact fun a ha => decide_eq_true (hi.first row a ha)
      have h2 := (List.take_sublist l.limit (g.fates row)).countP_le
        (p := fun f => decide (f ≠ .rejected))
      rw [h1, List.length_take, Nat.min_eq_left hlen] at h2
      exact h2
    have hfail : 0 < (g.fates row).countP (fun f => f = .rolledBack) :=
      List.countP_pos_iff.mpr ⟨_, List.mem_of_mem_take hf, by simp⟩
    omega
  · rintro (hlen | hkept) hlt
    · have : (g.fates row).countP (fun f => f ≠ .rejected) ≤ (g.fates row).length :=
        List.countP_le_length
      omega
    · by_contra hfull
      -- all of the first `limit` requests were committed
      have hlen : l.limit ≤ (g.fates row).length := by
        have : (g.fates row).countP (fun f => f ≠ .rejected) ≤ (g.fates row).length :=
          List.countP_le_length
        omega
      have h1 : ((g.fates row).take l.limit).countP (fun f => f = .committed) =
          ((g.fates row).take l.limit).length := by
        rw [List.countP_eq_length]
        intro a ha
        have hna := hi.first row a ha
        have hnb := hkept a ha
        cases a <;> simp_all
      have h2 := (List.take_sublist l.limit (g.fates row)).countP_le
        (p := fun f => decide (f = .committed))
      rw [h1, List.length_take, Nat.min_eq_left hlen] at h2
      omega

/-- What a step needs to keep the limit. -/
theorem gateStep_within_iff (op : GateOp) (hi : GateInv l g) (hw : WithinLimit l g) :
    WithinLimit l (gateStep l g op) ↔ FirstKept l g op := by
  cases op with
  | finish row returned =>
    refine ⟨fun _ => trivial, fun _ row' => ?_⟩
    rw [admitted_finish]
    exact hw row'
  | check now subject =>
    cases hfree : g.inFlight (l.row now subject) with
    | true =>
      have hsame : gateStep l g (.check now subject) = g := by simp [gateStep, hfree]
      rw [hsame]
      exact ⟨fun _ => Or.inl hfree, fun _ => hw⟩
    | false =>
      have hfull := full_iff hi hfree (hw _)
      simp only [FirstKept, hfree, Bool.false_eq_true, false_or]
      rw [← hfull]
      constructor
      · intro h hlt
        have := h (l.row now subject)
        rw [admitted_check hfree, if_pos ⟨rfl, hlt⟩] at this
        exact this
      · intro h row
        rw [admitted_check hfree]
        split_ifs with hc
        · obtain ⟨rfl, hlt⟩ := hc
          exact h hlt
        · exact hw row

theorem within_limit_iff (l : Limiter) (ops : List GateOp) :
    AllStates (gateStep l) (WithinLimit l) Gate.empty ops ↔
      AllSteps (gateStep l) (FirstKept l) Gate.empty ops :=
  allStates_iff_allSteps (fun _ op hi _ => gateStep_inv op hi)
    (fun _ op hi hw => gateStep_within_iff op hi hw) (gateInv_empty l)
    (fun _ => Nat.zero_le _) ops

/-- **Requests that fail are never limited**: any number of them, one after the
    other on one key and window, get past the limiter. -/
theorem failing_requests_admitted (hl : 0 < l.limit) (now : ℤ) (subject : String) (n : ℕ)
    (hfree : g.inFlight (l.row now subject) = false) (hzero : g.counters (l.row now subject) = 0) :
    (run (gateStep l) g ((List.replicate n
      [GateOp.check now subject, .finish (l.row now subject) false]).flatten)).admitted
        (l.row now subject) = g.admitted (l.row now subject) + n := by
  induction n generalizing g with
  | zero => rfl
  | succ n ih =>
    have h1 := gateStep_check (l := l) hfree
    rw [hzero, if_pos hl] at h1
    have hadm := admitted_check (l := l) hfree (l.row now subject)
    rw [if_pos ⟨rfl, by omega⟩] at hadm
    rw [List.replicate_succ, List.flatten_cons, List.cons_append, List.cons_append,
      List.nil_append, run_cons, run_cons, ih, admitted_finish, hadm]
    · omega
    · rw [h1]; simp [gateStep]
    · rw [h1]; simp [gateStep, hzero]

end TempleConsign
