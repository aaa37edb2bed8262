import TempleConsign.Lib.Aligned
import TempleConsign.Lib.CivilTime
import TempleConsign.RateLimit
import TempleConsign.Sessions

/-!
# The windows of the rate limiter

The `window_start` of `_check_rate_limit` (`src/api/middleware/rate_limit.py` lines 45-57) is
the clock with some fields of its date and time replaced. Where the length of the windows
divides the minute, or is of whole minutes that divide the hour, they are the aligned
intervals of that length. `fn_sweep_retention`
(`src/api/alembic/versions/004_retention_sweeper_function.py` lines 36-73) deletes the
counters of windows that started more than two hours ago.

Deviations: instants are not bounded to the years of `datetime`, and `total_seconds` is exact.
The requests and sweeps of a run come one after the other.

Results:
* `instant_truncated`: the fields that are replaced, as an instant.
* `windowStart_eq`: the aligned intervals.
* `windows_tile`: windows contain the clock, tile time, bound `Retry-After` and outlive the
  sweeps.
* `represents_run`: after any upserts and sweeps, the table holds the counters.
* `sweeps_unseen`: in every run, the replies are those of the run without its sweeps.
-/

namespace TempleConsign.RateWindows

open ServiceLib CivilTime Aligned

/-! ## Window lengths -/

/-- A `window_seconds` with whole windows in a minute or, in minutes, in an hour. -/
structure WindowLength where
  seconds : ℤ
  admissible : (0 < seconds ∧ seconds < 60 ∧ seconds ∣ 60) ∨
    ∃ m, 0 < m ∧ m ∣ 60 ∧ seconds = m * 60

def WindowLength.limiter (w : WindowLength) (limit : ℕ) (scope : String) : Limiter :=
  ⟨limit, w.seconds, scope⟩

theorem WindowLength.pos (w : WindowLength) : 0 < w.seconds := by
  obtain ⟨hpos, -, -⟩ | ⟨m, hpos, -, hw⟩ := w.admissible
  · exact hpos
  · omega

theorem WindowLength.le_hour (w : WindowLength) : w.seconds ≤ 3600 := by
  obtain ⟨-, hlt, -⟩ | ⟨m, -, hdvd, hw⟩ := w.admissible
  · omega
  · have hm : m ≤ 60 := Int.le_of_dvd (by decide) hdvd
    omega

theorem seconds_pos (w : WindowLength) : 0 < seconds w.seconds := by
  have hpos := w.pos
  unfold seconds
  omega

/-! ## Truncation -/

/-- The `replace` of lines 46-57. -/
def truncated (now : Datetime) (windowSeconds : ℤ) : Datetime :=
  if windowSeconds < 60 then
    { now with
      second := now.second / windowSeconds * windowSeconds
      microsecond := 0 }
  else
    { now with
      minute := now.minute / (windowSeconds / 60) * (windowSeconds / 60)
      second := 0
      microsecond := 0 }

/-- Without its seconds an instant is at the start of its minute, and so for minutes. -/
theorem instant_replace_second (now second : ℤ) :
    Datetime.instant { Datetime.ofInstant now with second := second, microsecond := 0 } =
      now - now % minutes 1 + seconds second := by
  have hrest : (Datetime.ofInstant now).second * 1000000 + (Datetime.ofInstant now).microsecond =
      now % minutes 1 := by
    simp only [Datetime.ofInstant, microsPerDay, minutes, seconds]
    omega
  have hnow := instant_ofInstant now
  unfold Datetime.instant at hnow ⊢
  unfold seconds
  simp only
  omega

theorem instant_replace_minute (now minute : ℤ) :
    Datetime.instant
        { Datetime.ofInstant now with minute := minute, second := 0, microsecond := 0 } =
      now - now % minutes 60 + minutes minute := by
  have hrest : (Datetime.ofInstant now).minute * 60000000 +
      (Datetime.ofInstant now).second * 1000000 + (Datetime.ofInstant now).microsecond =
      now % minutes 60 := by
    simp only [Datetime.ofInstant, microsPerDay, minutes, seconds]
    omega
  have hnow := instant_ofInstant now
  unfold Datetime.instant at hnow ⊢
  unfold minutes seconds at *
  simp only
  omega

/-- `windowStart` is what the replaced fields say, for any length. -/
theorem instant_truncated (now windowSeconds : ℤ) :
    (truncated (Datetime.ofInstant now) windowSeconds).instant = windowStart now windowSeconds := by
  have hsecond : (Datetime.ofInstant now).second = now % minutes 1 / seconds 1 := by
    simp only [Datetime.ofInstant, microsPerDay, minutes, seconds]
    omega
  have hminute : (Datetime.ofInstant now).minute = now % minutes 60 / minutes 1 := by
    simp only [Datetime.ofInstant, microsPerDay, minutes, seconds]
    omega
  unfold truncated windowStart
  split_ifs
  · rw [instant_replace_second, hsecond]
  · rw [instant_replace_minute, hminute]

/-- The windows are the aligned intervals of their length. -/
theorem windowStart_eq (w : WindowLength) (now : ℤ) :
    windowStart now w.seconds = floorTo (seconds w.seconds) now := by
  obtain ⟨hpos, hlt, hdvd⟩ | ⟨m, hpos, hdvd, hw⟩ := w.admissible
  · have hstart : seconds (now % minutes 1 / seconds 1 / w.seconds * w.seconds) =
        floorTo (seconds w.seconds) (now % minutes 1) :=
      floorTo_units (by decide) w.seconds (now % minutes 1)
    have hwhole : seconds w.seconds ∣ minutes 1 := Int.mul_dvd_mul_right _ hdvd
    rw [windowStart, if_pos hlt, hstart]
    exact floorTo_within (seconds_pos w) hwhole now
  · have hlong : ¬ w.seconds < 60 := by omega
    have hm : w.seconds / 60 = m := by omega
    have hlen : seconds w.seconds = m * minutes 1 := by
      rw [hw]
      unfold minutes seconds
      omega
    have hstart : minutes (now % minutes 60 / minutes 1 / m * m) =
        floorTo (m * minutes 1) (now % minutes 60) := by
      rw [← floorTo_units (by decide)]
      unfold floorTo minutes seconds
      omega
    have hwhole : m * minutes 1 ∣ minutes 60 := Int.mul_dvd_mul_right (minutes 1) hdvd
    have hunit : 0 < m * minutes 1 := hlen ▸ seconds_pos w
    rw [windowStart, if_neg hlong, hm, hlen, hstart]
    exact floorTo_within hunit hwhole now

/-- A window contains the clock that it is computed from. -/
theorem windowStart_bounds (w : WindowLength) (now : ℤ) :
    windowStart now w.seconds ≤ now ∧ now < windowStart now w.seconds + seconds w.seconds := by
  rw [windowStart_eq]
  exact ⟨floorTo_le (seconds_pos w) now, lt_floorTo_add (seconds_pos w) now⟩

theorem windowStart_eq_iff (w : WindowLength) (now t : ℤ) :
    windowStart now w.seconds = windowStart t w.seconds ↔
      ∃ k, InInterval (seconds w.seconds) k now ∧ InInterval (seconds w.seconds) k t := by
  rw [windowStart_eq, windowStart_eq]
  exact floorTo_eq_floorTo_iff (seconds_pos w)

/-! ## The 429 -/

/-- The seconds that are left of a window, at least one. -/
theorem secondsLeft_bounds (w : WindowLength) (now : ℤ) :
    let left := windowStart now w.seconds + seconds w.seconds - now
    1 ≤ max (left.tdiv (seconds 1)) 1 ∧ max (left.tdiv (seconds 1)) 1 ≤ w.seconds := by
  intro left
  obtain ⟨hstart, hstop⟩ := windowStart_bounds w now
  have hpos := w.pos
  have hdiv : left.tdiv (seconds 1) = left / seconds 1 := Int.tdiv_eq_ediv_of_nonneg (by omega)
  have hle : left / seconds 1 ≤ w.seconds := by
    have hleft : left ≤ seconds w.seconds := by omega
    unfold seconds at hleft ⊢
    omega
  rw [hdiv]
  omega

/-- What a limiter of admissible windows raises. -/
theorem retryAfter_bounds (w : WindowLength) {limit : ℕ} {scope subject : String} {now : ℤ}
    {c : Counters} {e : HttpException}
    (h : Svc.Raises (checkRateLimit (w.limiter limit scope) now subject) c e) :
    ∃ n : ℤ, 1 ≤ n ∧ n ≤ w.seconds ∧ e.headers = [("Retry-After", toString n)] := by
  have he : tooManyRequests (w.limiter limit scope) now = e := by
    unfold Svc.Raises at h
    rw [exec_checkRateLimit] at h
    split_ifs at h
    exact Except.error.inj h
  obtain ⟨hlow, hhigh⟩ := secondsLeft_bounds w now
  exact ⟨_, hlow, hhigh, by rw [← he]; rfl⟩

/-! ## Sweeps -/

/-- A row of `rate_limit_counters`. -/
structure RateLimitCounter where
  key : String
  windowStart : ℤ
  count : ℕ
  deriving DecidableEq

/-- A row of `webhook_events_seen`. -/
structure WebhookEventSeen where
  eventId : String
  expiresAt : ℤ

structure RetentionTables where
  rateLimitCounters : Store RateLimitCounter
  webhookEventsSeen : Store WebhookEventSeen
  userSessions : Store UserSession

/-- `window_start < now() - INTERVAL '2 hours'`. -/
def staleCounter (now : ℤ) (c : RateLimitCounter) : Bool := c.windowStart < now - minutes 120

def expiredEvent (now : ℤ) (e : WebhookEventSeen) : Bool := e.expiresAt < now

def staleSession (now : ℤ) (s : UserSession) : Bool :=
  s.expiresAt < now || s.revokedAt.any fun revokedAt => revokedAt < now - days 7

/-- `fn_sweep_retention`: its result and what it leaves. -/
def fnSweepRetention (now : ℤ) (t : RetentionTables) : List (String × ℕ) × RetentionTables :=
  ([("rate_limit_counters", (t.rateLimitCounters.select fun _ => staleCounter now).length),
    ("webhook_events_seen", (t.webhookEventsSeen.select fun _ => expiredEvent now).length),
    ("user_sessions", (t.userSessions.select fun _ => staleSession now).length)],
   { rateLimitCounters := t.rateLimitCounters.deleteWhere fun _ => staleCounter now
     webhookEventsSeen := t.webhookEventsSeen.deleteWhere fun _ => expiredEvent now
     userSessions := t.userSessions.deleteWhere fun _ => staleSession now })

/-- No window is as long as the time that counters are kept. -/
theorem not_staleCounter (w : WindowLength) {now : ℤ} {c : RateLimitCounter}
    (h : now < c.windowStart + seconds w.seconds) : staleCounter now c = false := by
  have hle := w.le_hour
  unfold staleCounter
  rw [decide_eq_false_iff_not]
  unfold minutes seconds at *
  omega

theorem get?_sweep {now : ℤ} {t : RetentionTables} {k : ℕ} {c : RateLimitCounter} :
    (fnSweepRetention now t).2.rateLimitCounters.get? k = some c ↔
      t.rateLimitCounters.get? k = some c ∧ staleCounter now c = false :=
  Store.get?_deleteWhere

/-- Windows contain the clock, are the same exactly in the same aligned interval, leave between
    one second and their length to wait, and their counters are not swept before they end. -/
theorem windows_tile (w : WindowLength) (now : ℤ) :
    (truncated (Datetime.ofInstant now) w.seconds).instant = windowStart now w.seconds ∧
      (windowStart now w.seconds ≤ now ∧
        now < windowStart now w.seconds + seconds w.seconds) ∧
      (∀ t, windowStart now w.seconds = windowStart t w.seconds ↔
        ∃ k, InInterval (seconds w.seconds) k now ∧ InInterval (seconds w.seconds) k t) ∧
      (∀ limit scope subject c e,
        Svc.Raises (checkRateLimit (w.limiter limit scope) now subject) c e →
          ∃ n : ℤ, 1 ≤ n ∧ n ≤ w.seconds ∧ e.headers = [("Retry-After", toString n)]) ∧
      ∀ (tables : RetentionTables) k c, tables.rateLimitCounters.get? k = some c →
        now < c.windowStart + seconds w.seconds →
          (fnSweepRetention now tables).2.rateLimitCounters.get? k = some c := by
  refine ⟨instant_truncated now w.seconds, windowStart_bounds w now, windowStart_eq_iff w now,
    ?_, ?_⟩
  · intro limit scope subject c e h
    exact retryAfter_bounds w h
  · intro tables k c hc hrunning
    exact get?_sweep.mpr ⟨hc, not_staleCounter w hrunning⟩

/-- At the last microsecond of an hour, one second to wait and a counter that stays. -/
theorem windows_tile_hour :
    (∃ n : ℤ, 1 ≤ n ∧ n ≤ 3600 ∧
      (tooManyRequests ⟨5, 3600, "register_ip"⟩ 3599999999).headers =
        [("Retry-After", toString n)]) ∧
      ((fnSweepRetention 3599999999 ⟨Store.empty.create ⟨"register_ip:203.0.113.7", 0, 5⟩,
        Store.empty, Store.empty⟩).2.rateLimitCounters.get? 0) =
        some ⟨"register_ip:203.0.113.7", 0, 5⟩ := by
  have htile := windows_tile ⟨3600, Or.inr ⟨60, by decide, by decide, by decide⟩⟩ 3599999999
  exact ⟨htile.2.2.2.1 5 "register_ip" "203.0.113.7" (fun _ => 5) _ rfl,
    htile.2.2.2.2 _ 0 _ rfl (by decide)⟩

/-! ## The table of the counters -/

def RateLimitCounter.row (c : RateLimitCounter) : CounterRow := (c.key, c.windowStart)

/-- `INSERT … ON CONFLICT (key, window_start) DO UPDATE …`. -/
def upsertCounter (t : Store RateLimitCounter) (row : CounterRow) : Store RateLimitCounter :=
  match t.select fun _ c => c.row = row with
  | [] => t.create ⟨row.1, row.2, 1⟩
  | (k, _) :: _ => t.modify k fun c => { c with count := c.count + 1 }

/-- The counters without those that a sweep deletes. -/
def swept (now : ℤ) (counters : Counters) : Counters := fun row =>
  if row.2 < now - minutes 120 then 0 else counters row

/-- The table holds the counters, each in a row of its own. -/
structure Represents (t : Store RateLimitCounter) (counters : Counters) : Prop where
  unique : t.Pairwise fun a b => a.row ≠ b.row
  stored : ∀ k c, t.get? k = some c → counters c.row = c.count
  absent : ∀ row, (∀ k c, t.get? k = some c → c.row ≠ row) → counters row = 0

variable {t : Store RateLimitCounter} {counters : Counters}

theorem represents_empty : Represents Store.empty fun _ => 0 where
  unique := Store.pairwise_empty
  stored := fun k c hc => by
    rw [Store.get?_empty] at hc
    cases hc
  absent := fun _ _ => rfl

/-- The first request of a window inserts its row. -/
theorem Represents.create (h : Represents t counters) {row : CounterRow}
    (hnew : ∀ k c, t.get? k = some c → c.row ≠ row) :
    Represents (t.create ⟨row.1, row.2, 1⟩) (counters.bump row) where
  unique := by
    rw [Store.pairwise_create_iff (fun _ _ => Ne.symm) h.unique]
    exact fun j c hc => (hnew j c hc).symm
  stored := by
    intro k c hc
    rw [Store.get?_create] at hc
    split_ifs at hc
    · rw [← Option.some.inj hc]
      show counters.bump row row = 1
      rw [bump_self, h.absent row hnew]
    · rw [bump_ne counters (hnew k c hc)]
      exact h.stored k c hc
  absent := by
    intro row' habsent
    have hne : row' ≠ row := (habsent t.next _ (Store.get?_create_self t _)).symm
    rw [bump_ne counters hne]
    exact h.absent row' fun k c hc => habsent k c (Store.get?_create_of_some hc)

/-- A later one updates it. -/
theorem Represents.modify (h : Represents t counters) {k : ℕ} {c : RateLimitCounter}
    (hc : t.get? k = some c) :
    Represents (t.modify k fun c => { c with count := c.count + 1 }) (counters.bump c.row) where
  unique := h.unique.modify (fun _ _ => Ne.symm) fun _ _ _ hab => hab
  stored := by
    intro j d hd
    rw [Store.get?_modify] at hd
    split_ifs at hd with hj
    · rw [hj, hc] at hd
      rw [← Option.some.inj hd]
      show counters.bump c.row c.row = c.count + 1
      rw [bump_self, h.stored k c hc]
    · rw [bump_ne counters (h.unique j k d c hj hd hc)]
      exact h.stored j d hd
  absent := by
    intro row habsent
    have hupdated : (t.modify k fun c => { c with count := c.count + 1 }).get? k =
        some { c with count := c.count + 1 } := by
      rw [Store.get?_modify_self, hc]
      rfl
    have hne : row ≠ c.row := (habsent k _ hupdated).symm
    rw [bump_ne counters hne]
    apply h.absent row
    intro j d hd
    by_cases hj : j = k
    · rw [hj, hc] at hd
      rw [← Option.some.inj hd]
      exact hne.symm
    · exact habsent j d (by rw [Store.get?_modify, if_neg hj, hd])

/-- The upsert of the table is the `bump` of the counters. -/
theorem Represents.upsert (h : Represents t counters) (row : CounterRow) :
    Represents (upsertCounter t row) (counters.bump row) := by
  unfold upsertCounter
  cases hrows : t.select fun _ c => c.row = row with
  | nil =>
    apply h.create
    intro k c hc hrow
    have hmem : (k, c) ∈ t.select fun _ c => c.row = row :=
      Store.mem_select.mpr ⟨hc, decide_eq_true hrow⟩
    rw [hrows] at hmem
    cases hmem
  | cons e rest =>
    obtain ⟨k, c⟩ := e
    have hmem : (k, c) ∈ t.select fun _ c => c.row = row := hrows ▸ List.mem_cons_self
    obtain ⟨hc, hrow⟩ := Store.mem_select.mp hmem
    rw [← of_decide_eq_true hrow]
    exact h.modify hc

theorem Represents.sweep (h : Represents t counters) (now : ℤ) :
    Represents (t.deleteWhere fun _ => staleCounter now) (swept now counters) where
  unique := h.unique.of_subset fun _ _ hc => (Store.get?_deleteWhere.mp hc).1
  stored := by
    intro k c hc
    obtain ⟨hold, hkept⟩ := Store.get?_deleteWhere.mp hc
    have hrow : ¬ c.row.2 < now - minutes 120 := of_decide_eq_false hkept
    rw [swept, if_neg hrow]
    exact h.stored k c hold
  absent := by
    intro row habsent
    unfold swept
    split_ifs with hrow
    · rfl
    · apply h.absent row
      intro k c hc heq
      have hkept : staleCounter now c = false := by
        rw [← heq] at hrow
        exact decide_eq_false hrow
      exact habsent k c (Store.get?_deleteWhere.mpr ⟨hc, hkept⟩) heq

/-- A write of the table. -/
inductive CounterWrite
  | upsert (row : CounterRow)
  | sweep (now : ℤ)

def CounterWrite.onTable (t : Store RateLimitCounter) : CounterWrite → Store RateLimitCounter
  | .upsert row => upsertCounter t row
  | .sweep now => t.deleteWhere fun _ => staleCounter now

def CounterWrite.onCounters (counters : Counters) : CounterWrite → Counters
  | .upsert row => counters.bump row
  | .sweep now => swept now counters

theorem Represents.run (h : Represents t counters) (writes : List CounterWrite) :
    Represents (run CounterWrite.onTable t writes)
      (run CounterWrite.onCounters counters writes) := by
  induction writes generalizing t counters with
  | nil => exact h
  | cons w writes ih =>
    apply ih
    cases w with
    | upsert row => exact h.upsert row
    | sweep now => exact h.sweep now

/-- From an empty table on, the table holds the counters. -/
theorem represents_run (writes : List CounterWrite) :
    Represents (run CounterWrite.onTable Store.empty writes)
      (run CounterWrite.onCounters (fun _ => 0) writes) :=
  represents_empty.run writes

/-! ## Runs -/

/-- `replies` are what the requests got, the last first. -/
structure RateWorld where
  now : ℤ
  counters : Counters
  replies : List (Except HttpException Unit)

/-- `returned`: whether the endpoint returns, so that the request is committed. -/
inductive RateOp
  | tick (elapsed : ℕ)
  | request (w : WindowLength) (limit : ℕ) (scope subject : String) (returned : Bool)
  | sweep

def rateStep (x : RateWorld) : RateOp → RateWorld
  | .tick elapsed => { x with now := x.now + elapsed }
  | .request w limit scope subject returned =>
    match Svc.exec (checkRateLimit (w.limiter limit scope) x.now subject) x.counters with
    | (.ok u, counters) =>
      { x with
        counters := if returned then counters else x.counters
        replies := .ok u :: x.replies }
    | (.error e, _) => { x with replies := .error e :: x.replies }
  | .sweep => { x with counters := swept x.now x.counters }

def RateOp.isSweep : RateOp → Bool
  | .tick _ => false
  | .request .. => false
  | .sweep => true

/-- The worlds differ in the counters of windows that have ended only. -/
structure SameLive (x y : RateWorld) : Prop where
  now : x.now = y.now
  replies : x.replies = y.replies
  live : ∀ row : CounterRow, x.now < row.2 + minutes 60 → x.counters row = y.counters row

variable {x y : RateWorld}

theorem SameLive.refl (x : RateWorld) : SameLive x x := ⟨rfl, rfl, fun _ _ => rfl⟩

theorem SameLive.sweep (h : SameLive x y) : SameLive (rateStep x .sweep) y := by
  refine ⟨h.now, h.replies, fun row hlive => ?_⟩
  have hkept : ¬ row.2 < x.now - minutes 120 := by
    have hnow : x.now < row.2 + minutes 60 := hlive
    unfold minutes seconds at *
    omega
  show swept x.now x.counters row = y.counters row
  rw [swept, if_neg hkept]
  exact h.live row hlive

/-- What a request does by the counter of its window. -/
theorem rateStep_request (x : RateWorld) (w : WindowLength) (limit : ℕ) (scope subject : String)
    (returned : Bool) :
    let row := (w.limiter limit scope).row x.now subject
    rateStep x (.request w limit scope subject returned) =
      if x.counters row < limit then
        { x with
          counters := if returned then x.counters.bump row else x.counters
          replies := .ok () :: x.replies }
      else
        { x with
          replies := .error (tooManyRequests (w.limiter limit scope) x.now) :: x.replies } := by
  simp only [rateStep, exec_checkRateLimit, WindowLength.limiter]
  split_ifs <;> rfl

theorem SameLive.bump (h : SameLive x y) (row : CounterRow) :
    ∀ row' : CounterRow, x.now < row'.2 + minutes 60 →
      x.counters.bump row row' = y.counters.bump row row' := by
  intro row' hlive
  by_cases hrow : row' = row
  · rw [← hrow, bump_self, bump_self, h.live row' hlive]
  · rw [bump_ne x.counters hrow, bump_ne y.counters hrow]
    exact h.live row' hlive

/-- A request reads and writes the counter of a window that has not ended. -/
theorem SameLive.request (h : SameLive x y) (w : WindowLength) (limit : ℕ)
    (scope subject : String) (returned : Bool) :
    SameLive (rateStep x (.request w limit scope subject returned))
      (rateStep y (.request w limit scope subject returned)) := by
  have hlive : x.now < windowStart x.now w.seconds + minutes 60 := by
    have hstop := (windowStart_bounds w x.now).2
    have hle := w.le_hour
    unfold minutes seconds at *
    omega
  have hcount := h.live ((w.limiter limit scope).row x.now subject) hlive
  rw [rateStep_request, rateStep_request, ← h.now, ← hcount, ← h.replies]
  split_ifs
  · exact ⟨rfl, rfl, h.bump _⟩
  · exact ⟨rfl, rfl, h.live⟩
  · exact ⟨rfl, rfl, h.live⟩

theorem SameLive.step (h : SameLive x y) {op : RateOp} (hop : op.isSweep = false) :
    SameLive (rateStep x op) (rateStep y op) := by
  cases op with
  | tick elapsed =>
    refine ⟨?_, h.replies, fun row hlive => ?_⟩
    · show x.now + elapsed = y.now + elapsed
      rw [h.now]
    · have hlater : x.now + elapsed < row.2 + minutes 60 := hlive
      exact h.live row (by omega)
  | request w limit scope subject returned => exact h.request w limit scope subject returned
  | sweep => cases hop

/-- The run with the sweeps and the run without them stay alike. -/
theorem SameLive.run (h : SameLive x y) (ops : List RateOp) :
    SameLive (run rateStep x ops) (run rateStep y (ops.filter fun op => !op.isSweep)) := by
  induction ops generalizing x y with
  | nil => exact h
  | cons op ops ih =>
    cases hop : op.isSweep with
    | false =>
      rw [List.filter_cons_of_pos (by rw [hop]; rfl)]
      exact ih (h.step hop)
    | true =>
      rw [List.filter_cons_of_neg (by rw [hop]; decide)]
      cases op with
      | sweep => exact ih h.sweep
      | tick elapsed => cases hop
      | request w limit scope subject returned => cases hop

/-- No reply of a run depends on its sweeps. -/
theorem sweeps_unseen (x : RateWorld) (ops : List RateOp) :
    (run rateStep x ops).replies =
      (run rateStep x (ops.filter fun op => !op.isSweep)).replies :=
  ((SameLive.refl x).run ops).replies

end TempleConsign.RateWindows
