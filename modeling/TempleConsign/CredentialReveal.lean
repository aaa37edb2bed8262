import TempleConsign.RateLimit

/-!
# Revealing integration credentials

Model of `reveal` (`src/api/services/admin_credentials_service.py` line 290)
and of its own hourly limiter (line 133). The endpoint turns every exception of
the service into an HTTP error, so an attempt with a wrong password or code is
rolled back, its count with it.

Deviation: whether a code passes does not depend on the time (`Crypto.verifyTotp`).

Results:
* `exec_checkRevealRateLimit`: the hourly check is a limiter of ten.
* `exec_reveal`: an attempt is the check and then the body.
* `returns_revealBody`: what an attempt needs to return.
* `wrong_reveals_admitted`: wrong guesses are never limited.
* `rate_limit_bound_iff`: when the limiters keep their limits.
-/

namespace TempleConsign

open ServiceLib

/-! ## The service -/

/-- The columns of `users` that `reveal` reads. -/
structure Actor where
  id : ℕ
  passwordHash : Option String
  totpEnabled : Bool
  totpSecretEnc : Option String

/-- `IntegrationCredential`. -/
structure IntegrationCredential where
  integrationName : String
  encryptedValue : String

/-- A row of `audit_logs` that `_audit` (line 112) adds. -/
structure RevealAudit where
  eventType : String
  actorId : ℕ
  integrationName : String
  reason : Option String

structure VaultDb where
  counters : Counters
  credentials : Store IntegrationCredential
  auditLogs : List RevealAudit

inductive RevealError
  | stepUpRateLimited (text : String)
  | stepUpFailed (text : String)
  | credentialNotFound (name : String)
  | invalidToken
  | vaultDecryptError
  | multipleResultsFound

/-- `bcrypt`, `pyotp` and `Fernet`; a decryption may raise. -/
structure Crypto where
  verifyPassword : String → String → Bool
  decryptTotpSecret : String → Option String
  verifyTotp : String → String → Bool
  decrypt : String → Option String

structure RevealRequest where
  name : String
  password : String
  totpCode : String

structure RevealResult where
  name : String
  plaintext : String
  revealedAt : ℤ

/-- `_REVEAL_LIMIT_PER_HOUR` and `_REVEAL_WINDOW_SECONDS` (lines 59-60). -/
def revealLimiter : Limiter where
  limit := 10
  windowSeconds := 3600
  scope := "integration_reveal"

/-- `_check_reveal_rate_limit` (line 133). -/
def checkRevealRateLimit (now : ℤ) (actorId : ℕ) : Svc Counters RevealError Unit := do
  let row := ("integration_reveal:" ++ toString actorId, now - now % minutes 60)
  modify fun c => c.bump row
  let c ← get
  Svc.require (c row ≤ 10) (.stepUpRateLimited "reveal rate limit (10/hour) exceeded for actor")

def audit (eventType : String) (actor : Actor) (name : String) (reason : Option String) :
    Svc VaultDb RevealError Unit :=
  modify fun db => { db with auditLogs := db.auditLogs ++ [⟨eventType, actor.id, name, reason⟩] }

/-- A failed factor: its audit row, then `StepUpFailed`. -/
def stepUpFails (eventType : String) (actor : Actor) (name reason text : String) :
    Svc VaultDb RevealError Unit := do
  audit eventType actor name (some reason)
  throw (.stepUpFailed text)

/-- The factors of the actor, when the account has both (line 306). -/
def Actor.factors (actor : Actor) : Option (String × String) :=
  match truthy actor.passwordHash, actor.totpEnabled, truthy actor.totpSecretEnc with
  | some hash, true, some secret => some (hash, secret)
  | _, _, _ => none

/-- `reveal` after its rate limit (lines 306-359). -/
def revealBody (env : Crypto) (now : ℤ) (actor : Actor) (r : RevealRequest) :
    Svc VaultDb RevealError RevealResult := do
  Svc.onlyIf (actor.factors = none)
    (stepUpFails "integration_credential_reveal_blocked" actor r.name
      "actor_missing_password_or_totp" "Reveal requires a password + active TOTP on your account.")
  let (hash, secretEnc) ← Svc.expect actor.factors .invalidToken
  Svc.onlyIf (env.verifyPassword r.password hash = false)
    (stepUpFails "integration_credential_reveal_failed" actor r.name
      "wrong_password" "Wrong password or TOTP code.")
  let secret ← Svc.expect (env.decryptTotpSecret secretEnc) .invalidToken
  Svc.onlyIf (env.verifyTotp secret r.totpCode = false)
    (stepUpFails "integration_credential_reveal_failed" actor r.name
      "wrong_totp" "Wrong password or TOTP code.")
  let db ← get
  let row ← Svc.expect (Store.scalarOneOrNone
    (db.credentials.select fun _ c => c.integrationName = r.name)) .multipleResultsFound
  let (_, credential) ← Svc.expect row (.credentialNotFound r.name)
  let plaintext ← Svc.expect (env.decrypt credential.encryptedValue) .vaultDecryptError
  audit "integration_credential_revealed" actor r.name none
  pure ⟨r.name, plaintext, now⟩

/-- `reveal` (line 290). -/
def reveal (env : Crypto) (now : ℤ) (actor : Actor) (r : RevealRequest) :
    Svc VaultDb RevealError RevealResult := do
  Svc.zoom VaultDb.counters (fun c db => { db with counters := c })
    (checkRevealRateLimit now actor.id)
  revealBody env now actor r

/-! ## What an attempt does -/

/-- The reveal counter is that of a limiter of ten an hour. -/
theorem revealLimiter_row (now : ℤ) (actorId : ℕ) :
    revealLimiter.row now (toString actorId) =
      ("integration_reveal:" ++ toString actorId, now - now % minutes 60) := by
  have hwin : windowStart now 3600 = now - now % minutes 60 := by
    simp only [windowStart, minutes, seconds]
    omega
  unfold Limiter.row revealLimiter
  rw [hwin, String.append_assoc]
  rfl

/-- The reveal check passes exactly when the limiter's does. -/
theorem exec_checkRevealRateLimit (now : ℤ) (actorId : ℕ) (c : Counters) :
    Svc.exec (checkRevealRateLimit now actorId) c =
      match Svc.exec (checkRateLimit revealLimiter now (toString actorId)) c with
      | (.ok u, c') => (.ok u, c')
      | (.error _, c') =>
        (.error (.stepUpRateLimited "reveal rate limit (10/hour) exceeded for actor"), c') := by
  have hlim : revealLimiter.limit = 10 := rfl
  rw [exec_checkRateLimit, revealLimiter_row, hlim]
  simp only [checkRevealRateLimit, Svc.exec_bind, Svc.exec_modify, Svc.exec_get, Svc.exec_require,
    bump_self]
  split_ifs with h1 h2 h2
  · rfl
  · omega
  · omega
  · rfl

/-- An attempt below the limit is its body on the counted state; the others
    raise. -/
theorem exec_reveal (env : Crypto) (now : ℤ) (actor : Actor) (r : RevealRequest) (db : VaultDb) :
    Svc.exec (reveal env now actor r) db =
      let row := revealLimiter.row now (toString actor.id)
      let counted := { db with counters := db.counters.bump row }
      if db.counters row < 10 then Svc.exec (revealBody env now actor r) counted
      else (.error (.stepUpRateLimited "reveal rate limit (10/hour) exceeded for actor"),
        counted) := by
  have hlim : revealLimiter.limit = 10 := rfl
  simp only [reveal, Svc.exec_bind, Svc.exec_zoom, exec_checkRevealRateLimit, exec_checkRateLimit,
    hlim]
  split_ifs <;> rfl

theorem not_returns_stepUpFails {eventType name reason text : String} {actor : Actor}
    {db db' : VaultDb} {u : Unit} :
    ¬ Svc.Returns (stepUpFails eventType actor name reason text) db u db' := by
  simp [stepUpFails, audit]

/-- An attempt returns only with both factors right and a stored credential. -/
theorem returns_revealBody {env : Crypto} {now : ℤ} {actor : Actor} {r : RevealRequest}
    {db db' : VaultDb} {res : RevealResult}
    (h : Svc.Returns (revealBody env now actor r) db res db') :
    ∃ hash secretEnc secret id credential, actor.factors = some (hash, secretEnc) ∧
      env.verifyPassword r.password hash = true ∧ env.decryptTotpSecret secretEnc = some secret ∧
      env.verifyTotp secret r.totpCode = true ∧ db.credentials.get? id = some credential ∧
      credential.integrationName = r.name ∧
      env.decrypt credential.encryptedValue = some res.plaintext := by
  simp only [revealBody, Svc.returns_onlyIf_bind, Svc.returns_expect_bind, Svc.returns_get_bind,
    not_returns_stepUpFails, false_and, exists_false, and_false, false_or, Bool.not_eq_false] at h
  obtain ⟨-, ⟨hash, secretEnc⟩, hfac, hpw, secret, hsec, htotp, row, hrow, ⟨id, credential⟩, rfl,
    plaintext, hdec, h⟩ := h
  obtain ⟨⟨hget, hname⟩, -⟩ := Store.scalar_select_some_iff.mp hrow
  simp only [audit, Svc.returns_modify_bind, Svc.returns_pure] at h
  obtain ⟨rfl, -⟩ := h
  exact ⟨hash, secretEnc, secret, id, credential, hfac, hpw, hsec, htotp, hget,
    of_decide_eq_true hname, hdec⟩

/-! ## Attempts at the limiter -/

/-- An attempt arrives, or the one that holds the row's lock ends: its body has
    run on the tables it found. -/
inductive RevealOp
  | check (now : ℤ) (actorId : ℕ)
  | finish (row : CounterRow) (now : ℤ) (actor : Actor) (r : RevealRequest) (db : VaultDb)

/-- The body of the attempt returns. -/
def revealReturns (env : Crypto) (now : ℤ) (actor : Actor) (r : RevealRequest) (db : VaultDb) :
    Bool :=
  match (Svc.exec (revealBody env now actor r) db).1 with
  | .ok _ => true
  | .error _ => false

def RevealOp.gateOp (env : Crypto) : RevealOp → GateOp
  | .check now actorId => .check now (toString actorId)
  | .finish row now actor r db => .finish row (revealReturns env now actor r db)

/-- The endpoint (`src/api/routers/admin_credentials.py` line 70) turns each
    exception into an `HTTPException`, which rolls the attempt back. -/
def revealStep (env : Crypto) (g : Gate) (op : RevealOp) : Gate :=
  gateStep revealLimiter g (op.gateOp env)

/-- A wrong password or code is rolled back. -/
theorem revealReturns_wrong {env : Crypto} {now : ℤ} {actor : Actor} {r : RevealRequest}
    {db : VaultDb} {hash secretEnc : String} (hf : actor.factors = some (hash, secretEnc))
    (hwrong : env.verifyPassword r.password hash = false ∨
      ∀ secret, env.decryptTotpSecret secretEnc = some secret →
        env.verifyTotp secret r.totpCode = false) :
    revealReturns env now actor r db = false := by
  unfold revealReturns
  match h : Svc.exec (revealBody env now actor r) db with
  | (.error e, db') => rfl
  | (.ok res, db') =>
    obtain ⟨hash', secretEnc', secret, -, -, hf', hpw, hsec, htotp, -⟩ := returns_revealBody h
    rw [hf] at hf'
    cases hf'
    rcases hwrong with hwrong | hwrong
    · rw [hwrong] at hpw; cases hpw
    · rw [hwrong secret hsec] at htotp; cases htotp

/-- Wrong guesses are never limited: any number of them within one hour get past
    the check. -/
theorem wrong_reveals_admitted (env : Crypto) (now : ℤ) {actor : Actor} {r : RevealRequest}
    (db : VaultDb) {hash secretEnc : String} (hf : actor.factors = some (hash, secretEnc))
    (hwrong : env.verifyPassword r.password hash = false) (n : ℕ) :
    (run (revealStep env) Gate.empty ((List.replicate n
      [RevealOp.check now actor.id,
        .finish (revealLimiter.row now (toString actor.id)) now actor r db]).flatten)).admitted
      (revealLimiter.row now (toString actor.id)) = n := by
  have hfate : revealReturns env now actor r db = false :=
    revealReturns_wrong hf (Or.inl hwrong)
  have hrun : ∀ (g : Gate) (ops : List RevealOp), run (revealStep env) g ops =
      run (gateStep revealLimiter) g (ops.map (RevealOp.gateOp env)) := by
    intro g ops
    rw [run, run, List.foldl_map]
    rfl
  have hn := failing_requests_admitted (l := revealLimiter) (g := Gate.empty) (by decide) now
    (toString actor.id) n rfl rfl
  rw [hrun, List.map_flatten, List.map_replicate]
  simp only [List.map_cons, List.map_nil, RevealOp.gateOp, hfate]
  rw [hn]
  simp [Gate.admitted, Gate.empty]

/-! ## When the limits are kept -/

/-- Every limiter, the hourly one for reveals included, keeps its limit in every
    run. -/
def RateLimitBounded : Prop :=
  (∀ (l : Limiter) (ops : List GateOp), AllStates (gateStep l) (WithinLimit l) Gate.empty ops) ∧
  ∀ (env : Crypto) (ops : List RevealOp),
    AllStates (revealStep env) (WithinLimit revealLimiter) Gate.empty ops

/-- **A run keeps a limiter's limit exactly when no request arrives at a row
    after `limit` others, one of the first of which was rolled back**, for the
    limiters of the endpoints and for the hourly one for reveals. -/
theorem rate_limit_bound_iff (l : Limiter) (ops : List GateOp) (env : Crypto)
    (reveals : List RevealOp) :
    (AllStates (gateStep l) (WithinLimit l) Gate.empty ops ↔
      AllSteps (gateStep l) (FirstKept l) Gate.empty ops) ∧
    (AllStates (revealStep env) (WithinLimit revealLimiter) Gate.empty reveals ↔
      AllSteps (revealStep env) (fun g op => FirstKept revealLimiter g (op.gateOp env))
        Gate.empty reveals) := by
  refine ⟨within_limit_iff l ops, ?_⟩
  have hinv : ∀ g op, GateInv revealLimiter g → WithinLimit revealLimiter g →
      GateInv revealLimiter (revealStep env g op) :=
    fun g op hi _ => gateStep_inv (op.gateOp env) hi
  have hstep : ∀ g op, GateInv revealLimiter g → WithinLimit revealLimiter g →
      (WithinLimit revealLimiter (revealStep env g op) ↔
        FirstKept revealLimiter g (op.gateOp env)) :=
    fun g op hi hw => gateStep_within_iff (op.gateOp env) hi hw
  exact allStates_iff_allSteps hinv hstep (gateInv_empty revealLimiter) (fun _ => Nat.zero_le _)
    reveals

/-- Eleven logins with a wrong password within one minute all get past the limit
    of ten. -/
theorem eleventh_failure_admitted : ¬ RateLimitBounded := by
  intro h
  let l : Limiter := { limit := 10, windowSeconds := 60, scope := "login_ip" }
  have hrun := failing_requests_admitted (l := l) (g := Gate.empty) (by decide) 0 "203.0.113.7" 11
    rfl rfl
  have hbound := (h.1 l ((List.replicate 11
    [GateOp.check 0 "203.0.113.7", .finish (l.row 0 "203.0.113.7") false]).flatten)).last
    (l.row 0 "203.0.113.7")
  rw [hrun] at hbound
  have hlim : l.limit = 10 := rfl
  omega

end TempleConsign
