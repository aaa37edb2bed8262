import TempleConsign.CredentialReveal
import TempleConsign.HealthAlerts
import TempleConsign.Lib.KeyRing
import TempleConsign.Lib.Upsert
import TempleConsign.Templates

/-!
# The credentials vault

Model of `src/api/services/credentials_vault.py`, of `store`, `test_credential` and
`list_metadata` (`src/api/services/admin_credentials_service.py` lines 221, 367 and 167), and of
the services that load a credential (`slack_dispatch_service.py` line 49,
`apns_dispatch_service.py` line 62, `health_check_service.py` line 140). The settings change
with a deployment; the rows keep the keys they were encrypted under.

Deviations:
* `Fernet` is a parameter: the bytes of a key text, and authenticated encryption under them.
* The answer of a provider to a test is an argument.
* The lookup by name and the write of `store` are one upsert under the unique index of
  `integration_name`.

Results:
* `represents_run`: a run of the vault is a run of the ledger.
* `loads_last_saved`: what loading a credential gives, in every run.
* `rotation_loses_iff`: which credentials a rotation of the keys loses.
-/

namespace TempleConsign.Vault

open ServiceLib ServiceLib.KeyRing

/-! ## The vault -/

/-- The exceptions of the vault, with their texts. -/
inductive VaultError
  | runtimeError (text : String)
  | valueError (text : String)
  | vaultDecryptError (text : String)

def VaultError.text : VaultError → String
  | runtimeError text => text
  | valueError text => text
  | vaultDecryptError text => text

/-- The settings that the vault reads. -/
structure Settings where
  credentialsEncryptionKey : String
  totpEncryptionKey : String

/-- `cryptography.fernet`: `keyBytes` is what the constructor of `Fernet` reads from a key, or the
    text of its `ValueError`. -/
structure Fernet (β : Type) extends Cipher β String String where
  keyBytes : String → Except String β

/-- `[k.strip() for k in raw.split(",") if k.strip()]` (line 57). -/
def splitKeys (raw : String) : List String :=
  ((raw.toList.splitOn ',').map fun k => strip (String.ofList k)).filter fun k => k ≠ ""

/-- `_resolve_keys` (line 44). -/
def resolveKeys (settings : Settings) : Except VaultError (Keyring String) :=
  let key := strip settings.credentialsEncryptionKey
  let raw := if key ≠ "" then key else strip settings.totpEncryptionKey
  if raw = "" then
    .error (.runtimeError ("credentials_encryption_key (or totp_encryption_key) must be set; " ++
      "neither is configured."))
  else
    match splitKeys raw with
    | [] => .error (.runtimeError "credentials_encryption_key parsed to empty list.")
    | primary :: older => .ok ⟨primary, older⟩

variable {β : Type}

/-- `Fernet(k.encode())`. -/
def Fernet.new (F : Fernet β) (key : String) : Except VaultError β :=
  match F.keyBytes key with
  | .ok b => .ok b
  | .error text => .error (.valueError text)

/-- `_build` (line 63). -/
def build (F : Fernet β) (settings : Settings) : Except VaultError (Keyring β) := do
  let keys ← resolveKeys settings
  let primary ← F.new keys.primary
  let older ← keys.older.mapM F.new
  pure ⟨primary, older⟩

/-- `encrypt` (line 68); the nonce is the random part of the token. -/
def encrypt (F : Fernet β) (settings : Settings) (nonce : ℕ) (plaintext : String) :
    Except VaultError String := do
  if plaintext = "" then throw (.valueError "plaintext must not be empty")
  let ring ← build F settings
  pure (F.encrypt ring.primary nonce plaintext)

/-- `decrypt` (line 80). -/
def decrypt (F : Fernet β) (settings : Settings) (ciphertext : String) :
    Except VaultError String := do
  let ring ← build F settings
  match F.tryAll ring ciphertext with
  | some plaintext => pure plaintext
  | none =>
    throw (.vaultDecryptError
      "Could not decrypt credential — key rotation may have removed the original key.")

/-! ## The service -/

/-- The statuses of a `TestResult`. -/
inductive TestStatus
  | success
  | failure
  | stubbed
  deriving DecidableEq

/-- `TestResult` (`src/api/services/integration_testers/__init__.py` line 39). -/
structure TestResult where
  success : Bool
  detail : String
  latencyMs : ℤ
  status : TestStatus

/-- `IntegrationCredential` (`src/api/database/models.py` line 1295). -/
structure CredentialRow extends IntegrationCredential where
  setBy : Option ℕ
  setAt : ℤ
  lastTestedAt : Option ℤ
  lastTestStatus : Option TestStatus
  lastTestDetail : Option String
  lastTestLatencyMs : Option ℤ

/-- An `AuditLog` of `_audit` (line 113): `after` is what `after_state` adds to the name. -/
structure CredentialAudit where
  eventType : String
  actorId : ℕ
  integrationName : String
  after : Option (TestStatus × ℤ)

/-- `IntegrationMetadata` (line 90). -/
structure IntegrationMetadata where
  name : String
  isSet : Bool
  setBy : Option ℕ
  setAt : Option ℤ
  lastTestedAt : Option ℤ
  lastTestStatus : Option TestStatus
  lastTestDetail : Option String
  lastTestLatencyMs : Option ℤ

structure Tables where
  credentials : Store CredentialRow
  auditLogs : List CredentialAudit

inductive CredentialError
  | unknownIntegration (name : String)
  | credentialNotFound (name : String)
  | vault (error : VaultError)

/-- `known_integrations` (`integration_testers/__init__.py` line 362). -/
def knownIntegrations : List String :=
  ["slack", "twilio", "sendgrid", "google_maps", "esign", "valuation"]

/-- `scalar_one_or_none` by name: the index leaves one row at most. -/
def rowNamed (t : Store CredentialRow) (name : String) : Option (ℕ × CredentialRow) :=
  t.rowOf (fun r => r.integrationName) name

def CredentialRow.metadata (r : CredentialRow) : IntegrationMetadata :=
  ⟨r.integrationName, true, r.setBy, some r.setAt, r.lastTestedAt, r.lastTestStatus,
    r.lastTestDetail, r.lastTestLatencyMs⟩

/-- `list_metadata` (line 167). -/
def listMetadata (t : Store CredentialRow) : List IntegrationMetadata :=
  knownIntegrations.map fun name =>
    match rowNamed t name with
    | none => ⟨name, false, none, none, none, none, none, none⟩
    | some (_, row) => row.metadata

abbrev VaultService (α : Type) := Svc Tables CredentialError α

def audit (eventType : String) (actorId : ℕ) (name : String) (after : Option (TestStatus × ℤ)) :
    VaultService Unit :=
  modify fun t => { t with auditLogs := t.auditLogs ++ [⟨eventType, actorId, name, after⟩] }

/-- The row that a save leaves: no result of an earlier test. -/
def CredentialRow.save (encrypted : String) (now : ℤ) (actorId : ℕ) (r : CredentialRow) :
    CredentialRow :=
  { r with
    encryptedValue := encrypted
    setBy := some actorId
    setAt := now
    lastTestedAt := none
    lastTestStatus := none
    lastTestDetail := none
    lastTestLatencyMs := none }

/-- The row that a test leaves. -/
def CredentialRow.tested (now : ℤ) (result : TestResult) (r : CredentialRow) : CredentialRow :=
  { r with
    lastTestedAt := some now
    lastTestStatus := some result.status
    lastTestDetail := some result.detail
    lastTestLatencyMs := some result.latencyMs }

/-- `store` (line 221). -/
def store (F : Fernet β) (settings : Settings) (now : ℤ) (actorId : ℕ) (name plaintext : String)
    (nonce : ℕ) : VaultService IntegrationMetadata := do
  Svc.require (name ∈ knownIntegrations) (.unknownIntegration name)
  Svc.require (strip plaintext ≠ "") (.vault (.valueError "plaintext must not be empty"))
  let encrypted ← Svc.lift ((encrypt F settings nonce plaintext).mapError .vault)
  modify fun t => { t with
    credentials := t.credentials.upsert (fun r => r.integrationName)
      ⟨⟨name, encrypted⟩, some actorId, now, none, none, none, none⟩
      (CredentialRow.save encrypted now actorId) }
  audit "integration_credential_set" actorId name none
  let t ← get
  let (_, row) ← Svc.expect (rowNamed t.credentials name) (.credentialNotFound name)
  pure row.metadata

/-- `test_credential` (line 367); `run` is the tester with the extra arguments of the request. -/
def testCredential (F : Fernet β) (settings : Settings) (now : ℤ) (actorId : ℕ) (name : String)
    (run : String → TestResult) : VaultService TestResult := do
  Svc.require (name ∈ knownIntegrations) (.unknownIntegration name)
  let t ← get
  let (id, row) ← Svc.expect (rowNamed t.credentials name) (.credentialNotFound name)
  let plaintext ← Svc.lift ((decrypt F settings row.encryptedValue).mapError .vault)
  let result := run plaintext
  modify fun t => { t with
    credentials := t.credentials.modify id (CredentialRow.tested now result) }
  audit "integration_credential_tested" actorId name (some (result.status, result.latencyMs))
  pure result

/-- What a service that uses a credential loads: `None` where the integration has no row. -/
def loadCredential (F : Fernet β) (settings : Settings) (t : Store CredentialRow)
    (name : String) : Except VaultError (Option String) :=
  match rowNamed t name with
  | none => .ok none
  | some (_, row) => do
    let plaintext ← decrypt F settings row.encryptedValue
    pure (some plaintext)

/-- `_load_webhook_url` (`slack_dispatch_service.py` line 49). -/
def loadWebhookUrl (F : Fernet β) (settings : Settings) (t : Store CredentialRow) :
    Except VaultError (Option String) := loadCredential F settings t "slack"

/-- `_load_credential` (`apns_dispatch_service.py` line 62), before its `json.loads`. -/
def loadApnsCredential (F : Fernet β) (settings : Settings) (t : Store CredentialRow) :
    Except VaultError (Option String) := loadCredential F settings t "apns"

/-- `_probe_integration` (`health_check_service.py` line 140). -/
def probeIntegration (F : Fernet β) (settings : Settings) (t : Store CredentialRow)
    (name : String) (run : String → TestResult) : Except VaultError HealthAlerts.ProbeResult :=
  match loadCredential F settings t name with
  | .ok none => .ok ⟨.unknown, "not_configured", 0⟩
  | .error (.vaultDecryptError text) => .ok ⟨.red, text, 0⟩
  | .error e => .error e
  | .ok (some plaintext) =>
    let result := run plaintext
    .ok ⟨if result.success then .green else .red, result.detail, result.latencyMs⟩

/-! ## The system -/

/-- The settings of the deployment and the tables. -/
structure State where
  settings : Settings
  tables : Tables

/-- A deployment with other settings, or a request. -/
inductive Op
  | deploy (settings : Settings)
  | store (now : ℤ) (actorId : ℕ) (name plaintext : String) (nonce : ℕ)
  | test (now : ℤ) (actorId : ℕ) (name : String) (run : String → TestResult)

/-- The tables after a request. -/
def afterRequest {α : Type} (m : VaultService α) (t : Tables) : Tables :=
  (Svc.request (fun before _ => before) m t).2

def vaultStep (F : Fernet β) (s : State) : Op → State
  | .deploy settings => { s with settings := settings }
  | .store now actorId name plaintext nonce =>
    { s with tables := afterRequest (store F s.settings now actorId name plaintext nonce) s.tables }
  | .test now actorId name run =>
    { s with tables := afterRequest (testCredential F s.settings now actorId name run) s.tables }

/-- No credential is stored. -/
def State.start (settings : Settings) : State := ⟨settings, ⟨Store.empty, []⟩⟩

/-! ## What the vault is for -/

/-- The keys of the settings, if they have any. -/
def ringOf (F : Fernet β) (settings : Settings) : Option (Keyring β) := (build F settings).toOption

/-- What the store accepts. -/
def Accepted (name plaintext : String) : Prop := name ∈ knownIntegrations ∧ strip plaintext ≠ ""

instance (name plaintext : String) : Decidable (Accepted name plaintext) :=
  inferInstanceAs (Decidable (_ ∧ _))

/-- The vault as a ledger: a deployment changes the ring, a save puts a value, a test does
    nothing. -/
def ledgerStep (F : Fernet β) (l : Ledger String β String) : Op → Ledger String β String
  | .deploy settings => l.rotate (ringOf F settings)
  | .store _ _ name plaintext _ => if Accepted name plaintext then l.put name plaintext else l
  | .test _ _ _ _ => l

def ledgerStart (F : Fernet β) (settings : Settings) : Ledger String β String :=
  ⟨ringOf F settings, fun _ => none⟩

/-! ## The requests -/

/-- The encrypted value of an integration. -/
def storedValue (t : Store CredentialRow) (name : String) : Option String :=
  (rowNamed t name).map fun e => e.2.encryptedValue

/-- One row for each integration. -/
abbrev UniqueNames (t : Store CredentialRow) : Prop :=
  Store.Keyed (fun r : CredentialRow => r.integrationName) t

variable {F : Fernet β} {settings : Settings} {t : Tables} {now : ℤ} {actorId nonce : ℕ}
  {name plaintext : String}

@[simp] theorem vaultStep_store (s : State) :
    vaultStep F s (.store now actorId name plaintext nonce) =
      ⟨s.settings, afterRequest (store F s.settings now actorId name plaintext nonce) s.tables⟩ :=
  rfl

@[simp] theorem vaultStep_test (s : State) (run : String → TestResult) :
    vaultStep F s (.test now actorId name run) =
      ⟨s.settings, afterRequest (testCredential F s.settings now actorId name run) s.tables⟩ :=
  rfl

theorem build_eq_ok {ring : Keyring β} :
    build F settings = .ok ring ↔ ringOf F settings = some ring := by
  unfold ringOf
  cases build F settings <;> simp [Except.toOption]

/-- A text that is not blank is encrypted with the first key. -/
theorem encrypt_eq (h : strip plaintext ≠ "") :
    encrypt F settings nonce plaintext =
      (build F settings).map fun ring => F.encrypt ring.primary nonce plaintext := by
  have hne : plaintext ≠ "" := by
    rintro rfl
    exact h rfl
  unfold encrypt
  rw [if_neg hne]
  cases build F settings <;> rfl

/-- The rows after a save: it changes nothing when it is refused or when there are no keys. -/
theorem credentials_store (F : Fernet β) (settings : Settings) (now : ℤ) (actorId : ℕ)
    (name plaintext : String) (nonce : ℕ) (h : UniqueNames t.credentials) :
    (afterRequest (store F settings now actorId name plaintext nonce) t).credentials =
      if Accepted name plaintext then
        (ringOf F settings).elim t.credentials fun ring =>
          t.credentials.upsert (fun r => r.integrationName)
            ⟨⟨name, F.encrypt ring.primary nonce plaintext⟩, some actorId, now, none, none, none,
              none⟩
            (CredentialRow.save (F.encrypt ring.primary nonce plaintext) now actorId)
      else t.credentials := by
  unfold afterRequest Svc.request store
  by_cases hn : name ∈ knownIntegrations
  · by_cases hp : strip plaintext ≠ ""
    · rw [if_pos ⟨hn, hp⟩, encrypt_eq hp]
      cases hb : build F settings with
      | error e =>
        have hring : ringOf F settings = none := by
          unfold ringOf
          rw [hb]
          rfl
        rw [hring]
        simp [Svc.exec_bind, hn, hp, Except.mapError, Except.map]
      | ok ring =>
        rw [build_eq_ok.mp hb]
        have hrow := Store.rowOf_upsert (k := name) h
          (fun r => (rfl : (CredentialRow.save (F.encrypt ring.primary nonce plaintext) now actorId
            r).integrationName = r.integrationName))
          (a := ⟨⟨name, F.encrypt ring.primary nonce plaintext⟩, some actorId, now, none, none,
            none, none⟩)
        rw [if_pos rfl] at hrow
        simp only [Svc.exec_bind, Svc.exec_require, if_pos hn, if_pos hp, Svc.exec_lift,
          Except.mapError, Except.map, Svc.exec_modify, audit, Svc.exec_get, rowNamed, hrow,
          Svc.exec_expect, Svc.exec_pure, Option.elim_some]
    · have hno : ¬ Accepted name plaintext := fun ha => hp ha.2
      rw [if_neg hno]
      simp only [Svc.exec_bind, Svc.exec_require, if_pos hn, if_neg hp]
  · have hno : ¬ Accepted name plaintext := fun ha => hn ha.1
    rw [if_neg hno]
    simp only [Svc.exec_bind, Svc.exec_require, if_neg hn]

/-- A test writes its result into one row, or nothing. -/
theorem credentials_test (F : Fernet β) (settings : Settings) (now : ℤ) (actorId : ℕ)
    (name : String) (run : String → TestResult) (t : Tables) :
    (afterRequest (testCredential F settings now actorId name run) t).credentials =
        t.credentials ∨
      ∃ id result,
        (afterRequest (testCredential F settings now actorId name run) t).credentials =
          t.credentials.modify id (CredentialRow.tested now result) := by
  unfold afterRequest
  rcases Svc.request_cases (fun before _ => before) (testCredential F settings now actorId name run)
    t with ⟨result, t', hret, hreq⟩ | ⟨e, t', -, hreq⟩
  · rw [hreq]
    simp only [testCredential, Svc.returns_require_bind, Svc.returns_get_bind,
      Svc.returns_expect_bind] at hret
    obtain ⟨-, ⟨id, row⟩, -, hret⟩ := hret
    obtain ⟨p, t₁, hp, hret⟩ := Svc.returns_bind.mp hret
    obtain ⟨-, rfl⟩ := Svc.returns_lift.mp hp
    simp only [audit, Svc.returns_modify_bind, Svc.returns_pure] at hret
    obtain ⟨-, rfl⟩ := hret
    exact .inr ⟨id, _, rfl⟩
  · rw [hreq]
    exact .inl rfl

/-! ## The refinement -/

/-- The rows are the ledger's entries, encrypted. -/
structure Refines (F : Fernet β) (s : State) (l : Ledger String β String) : Prop where
  unique : UniqueNames s.tables.credentials
  ring : l.ring = ringOf F s.settings
  values : Represents F.toCipher (storedValue s.tables.credentials) l

theorem refines_start (F : Fernet β) (settings : Settings) :
    Refines F (State.start settings) (ledgerStart F settings) := by
  refine ⟨Store.keyed_empty, ?_, Represents.empty _⟩
  dsimp only [State.start, ledgerStart]

theorem integrationName_save (encrypted : String) (r : CredentialRow) :
    (r.save encrypted now actorId).integrationName = r.integrationName := rfl

theorem integrationName_tested (result : TestResult) (r : CredentialRow) :
    (r.tested now result).integrationName = r.integrationName := rfl

/-- Rows with the same names and values. -/
theorem Refines.same {s : State} {l : Ledger String β String} (h : Refines F s l) {t : Tables}
    (hu : UniqueNames t.credentials)
    (hv : storedValue t.credentials = storedValue s.tables.credentials) :
    Refines F ⟨s.settings, t⟩ l := by
  refine ⟨hu, h.ring, ?_⟩
  show Represents _ (storedValue t.credentials) _
  rw [hv]
  exact h.values

theorem refines_store {s : State} {l : Ledger String β String} (h : Refines F s l) :
    Refines F (vaultStep F s (.store now actorId name plaintext nonce))
      (ledgerStep F l (.store now actorId name plaintext nonce)) := by
  rw [vaultStep_store, ledgerStep]
  have hrows := credentials_store F s.settings now actorId name plaintext nonce h.unique
  generalize afterRequest (store F s.settings now actorId name plaintext nonce) s.tables = t at *
  by_cases ha : Accepted name plaintext
  · rw [if_pos ha] at hrows ⊢
    cases hring : ringOf F s.settings with
    | none =>
      rw [hring, Option.elim_none] at hrows
      have hput : l.put name plaintext = l := by
        unfold Ledger.put
        rw [h.ring, hring]
      rw [hput]
      exact h.same (hrows ▸ h.unique) (by rw [hrows])
    | some ring =>
      rw [hring, Option.elim_some] at hrows
      refine ⟨?_, ?_, h.values.put (n := nonce) (h.ring.trans hring) fun name' => ?_⟩
      · show UniqueNames t.credentials
        rw [hrows]
        exact h.unique.upsert (integrationName_save _) _
      · rw [Ledger.ring_put]
        exact h.ring
      · show storedValue t.credentials name' = _
        unfold storedValue rowNamed
        rw [hrows, Store.rowOf_upsert h.unique (integrationName_save _)]
        split_ifs with hname
        · cases Store.rowOf _ s.tables.credentials name' with
          | none => rfl
          | some e => rfl
        · rfl
  · rw [if_neg ha] at hrows ⊢
    exact h.same (hrows ▸ h.unique) (by rw [hrows])

theorem refines_test {s : State} {l : Ledger String β String} (h : Refines F s l)
    (result : String → TestResult) :
    Refines F (vaultStep F s (.test now actorId name result)) l := by
  rw [vaultStep_test]
  have hrows := credentials_test F s.settings now actorId name result s.tables
  generalize afterRequest (testCredential F s.settings now actorId name result) s.tables = t at *
  rcases hrows with hrows | ⟨id, res, hrows⟩
  · exact h.same (hrows ▸ h.unique) (by rw [hrows])
  · have hu : UniqueNames t.credentials := by
      rw [hrows]
      exact h.unique.modify (integrationName_tested res) id
    refine h.same hu (funext fun name' => ?_)
    unfold storedValue rowNamed
    rw [hrows, Store.rowOf_modify h.unique (integrationName_tested res), Option.map_map]
    refine congrArg (Option.map · _) (funext fun e => ?_)
    rw [Function.comp_apply]
    dsimp only
    split_ifs <;> rfl

/-- Every step of the vault is one of the ledger. -/
theorem refines_step {s : State} {l : Ledger String β String} (h : Refines F s l) (o : Op) :
    Refines F (vaultStep F s o) (ledgerStep F l o) := by
  cases o with
  | deploy settings =>
    refine ⟨h.unique, ?_, h.values.rotate _⟩
    simp only [vaultStep, ledgerStep, Ledger.rotate]
  | store now actorId name plaintext nonce => exact refines_store h
  | test now actorId name result => exact refines_test h result

theorem refines_run {s : State} {l : Ledger String β String} (h : Refines F s l)
    (ops : List Op) : Refines F (run (vaultStep F) s ops) (run (ledgerStep F) l ops) := by
  induction ops generalizing s l with
  | nil => exact h
  | cons o ops ih => exact ih (refines_step h o)

/-- A run of the vault is a run of the ledger. -/
theorem represents_run (F : Fernet β) (settings : Settings) (ops : List Op) :
    Refines F (run (vaultStep F) (State.start settings) ops)
      (run (ledgerStep F) (ledgerStart F settings) ops) :=
  refines_run (refines_start F settings) ops

/-! ## Loading a credential -/

/-- What a service gets for what the ledger reads. -/
def loaded (F : Fernet β) (settings : Settings) : Reading String → Except VaultError (Option String)
  | .absent => .ok none
  | .noKeys => (build F settings).map fun _ => none
  | .lost => .error (.vaultDecryptError
      "Could not decrypt credential — key rotation may have removed the original key.")
  | .value plaintext => .ok (some plaintext)

variable [DecidableEq β]

theorem loads_eq {s : State} {l : Ledger String β String} (h : Refines F s l) (name : String) :
    loadCredential F s.settings s.tables.credentials name = loaded F s.settings (l.read name) := by
  rw [h.values.read, h.ring]
  unfold loadCredential storedValue
  cases rowNamed s.tables.credentials name with
  | none => rfl
  | some e =>
    obtain ⟨id, row⟩ := e
    unfold ringOf decrypt
    cases hb : build F s.settings with
    | error e =>
      simp only [Option.map_some, Except.toOption, loaded, hb]
      rfl
    | ok ring =>
      simp only [Option.map_some, Except.toOption]
      show (do
        let plaintext ← (match F.tryAll ring row.encryptedValue with
          | some plaintext => pure plaintext
          | none => throw _ : Except VaultError String)
        pure (some plaintext)) = _
      cases F.tryAll ring row.encryptedValue <;> rfl

omit [DecidableEq β] in
/-- An integration without a tester has no entry, whatever is saved. -/
theorem entries_unknown {l : Ledger String β String} (h : name ∉ knownIntegrations)
    (hnone : l.entries name = none) (o : Op) : (ledgerStep F l o).entries name = none := by
  cases o with
  | deploy settings => exact hnone
  | test now actorId name' result => exact hnone
  | store now actorId name' plaintext nonce =>
    rw [ledgerStep]
    split_ifs with ha
    · have hne : name ≠ name' := by
        rintro rfl
        exact h ha.1
      rw [Ledger.entries_put_other hne]
      exact hnone
    · exact hnone

/-- **In every run of deployments, saves and tests, a service that loads a credential gets the
    plaintext saved last, unless the key that encrypted it is no longer among the keys of the
    settings**: then it gets a `VaultDecryptError`, and the error of the settings where they give
    no keys. -/
theorem loads_last_saved (F : Fernet β) (settings : Settings) (ops : List Op) (name : String) :
    loadCredential F (run (vaultStep F) (State.start settings) ops).settings
        (run (vaultStep F) (State.start settings) ops).tables.credentials name =
      loaded F (run (vaultStep F) (State.start settings) ops).settings
        ((run (ledgerStep F) (ledgerStart F settings) ops).read name) :=
  loads_eq (represents_run F settings ops) name

/-! ## A vault with one-letter keys -/

/-- A toy cipher: the key stands in front of the text. -/
def initialFernet : Fernet Char where
  encrypt b _ m := String.ofList (b :: m.toList)
  decrypt b x :=
    match x.toList with
    | c :: m => if b = c then some (String.ofList m) else none
    | [] => none
  decrypt_encrypt b n m := by simp
  authentic b b' n m h := by simp [h]
  keyBytes key :=
    match key.toList with
    | [c] => .ok c
    | _ => .error "Fernet key must be 32 url-safe base64-encoded bytes."

/-- The Slack webhook is saved. -/
def savedWebhook : List Op := [.store 0 1 "slack" "https://hooks" 0]

def savedState : State := run (vaultStep initialFernet) (State.start ⟨"k", "t"⟩) savedWebhook

/-! ## Revealing a credential -/

/-- The tables as `reveal` reads them. -/
def State.vaultDb (s : State) (counters : Counters) (logs : List RevealAudit) : VaultDb where
  counters := counters
  credentials := s.tables.credentials.map CredentialRow.toIntegrationCredential
  auditLogs := logs

/-- `reveal` decrypts with the keys of the settings. -/
def withVault (F : Fernet β) (settings : Settings) (env : Crypto) : Crypto :=
  { env with decrypt := fun x => (decrypt F settings x).toOption }

/-- A plaintext that is found under a name was saved there last. -/
theorem read_of_decrypts {s : State} {l : Ledger String β String} (h : Refines F s l) {id : ℕ}
    {row : CredentialRow} (hget : s.tables.credentials.get? id = some row)
    (hdec : (decrypt F s.settings row.encryptedValue).toOption = some plaintext) :
    l.read row.integrationName = .value plaintext := by
  have hrow : storedValue s.tables.credentials row.integrationName = some row.encryptedValue := by
    unfold storedValue rowNamed
    rw [(Store.rowOf_eq_some h.unique).mpr ⟨hget, rfl⟩]
    rfl
  rw [h.values.read, hrow, h.ring]
  unfold decrypt at hdec
  unfold ringOf
  cases hb : build F s.settings with
  | error e =>
    rw [hb] at hdec
    cases hdec
  | ok ring =>
    rw [hb] at hdec
    simp only [Except.toOption]
    cases ht : F.tryAll ring row.encryptedValue with
    | none =>
      simp [Bind.bind, Except.bind, ht, Except.toOption] at hdec
    | some p =>
      simp only [Bind.bind, Except.bind, ht, pure, Except.pure, Except.toOption,
        Option.some.injEq] at hdec
      rw [hdec]
      rfl

/-- The row that a reveal decrypts. -/
theorem credential_of_reveal {env : Crypto} {actor : Actor} {r : RevealRequest} {db db' : VaultDb}
    {res : RevealResult} (h : Svc.Returns (reveal env now actor r) db res db') :
    ∃ id credential, db.credentials.get? id = some credential ∧
      credential.integrationName = r.name ∧
      env.decrypt credential.encryptedValue = some res.plaintext := by
  unfold Svc.Returns at h
  rw [exec_reveal] at h
  dsimp only at h
  split_ifs at h
  · obtain ⟨-, -, -, id, credential, -, -, -, -, hfound⟩ := returns_revealBody h
    exact ⟨id, credential, hfound⟩
  · cases h

/-- **A reveal that returns shows the plaintext that was saved last under the name**, in every
    run: never an earlier one and never that of another integration. -/
theorem reveals_last_saved (F : Fernet β) (settings : Settings) (ops : List Op) (env : Crypto)
    (now : ℤ) (actor : Actor) (r : RevealRequest) (counters : Counters) (logs : List RevealAudit)
    {res : RevealResult} {db' : VaultDb}
    (h : Svc.Returns
      (reveal (withVault F (run (vaultStep F) (State.start settings) ops).settings env) now actor r)
      ((run (vaultStep F) (State.start settings) ops).vaultDb counters logs) res db') :
    (run (ledgerStep F) (ledgerStart F settings) ops).read r.name = .value res.plaintext := by
  have href := represents_run F settings ops
  generalize run (vaultStep F) (State.start settings) ops = s at *
  obtain ⟨id, credential, hget, hname, hdec⟩ := credential_of_reveal h
  obtain ⟨row, hrow, rfl⟩ := Option.map_eq_some_iff.mp ((Store.get?_map _ _ _).symm.trans hget)
  rw [← hname]
  dsimp only [withVault, CredentialRow.toIntegrationCredential] at hdec
  exact read_of_decrypts href hrow hdec

def exampleAdmin : Actor := ⟨1, some "password", true, some "secret"⟩

/-- Passwords and codes in the clear. -/
def plainCrypto : Crypto where
  verifyPassword password hash := password == hash
  decryptTotpSecret := some
  verifyTotp secret code := secret == code
  decrypt := some

/-- The administrator reveals the webhook. -/
theorem webhook_revealed :
    (run (ledgerStep initialFernet) (ledgerStart initialFernet ⟨"k", "t"⟩) savedWebhook).read
      "slack" = .value "https://hooks" := by
  have hret : Svc.Returns
      (reveal (withVault initialFernet savedState.settings plainCrypto) 0 exampleAdmin
        ⟨"slack", "password", "secret"⟩)
      (savedState.vaultDb (fun _ => 0) []) ⟨"slack", "https://hooks", 0⟩ _ := Prod.ext rfl rfl
  exact reveals_last_saved initialFernet ⟨"k", "t"⟩ savedWebhook plainCrypto 0 exampleAdmin
    ⟨"slack", "password", "secret"⟩ (fun _ => 0) [] hret

/-! ## The texts of the keys -/

/-- Leading space changes nothing to `f`. -/
theorem dropWhile_eq_of_cons {α : Type} {f : List Char → α}
    (hf : ∀ c l, isSpace c = true → f (c :: l) = f l) (l : List Char) :
    f (l.dropWhile isSpace) = f l := by
  induction l with
  | nil => rfl
  | cons c l ih =>
    by_cases hc : isSpace c = true
    · rw [List.dropWhile_cons_of_pos hc, ih, hf c l hc]
    · rw [List.dropWhile_cons_of_neg hc]

/-- What space at both ends does not change is the same for the stripped text. -/
theorem strip_eq_of_trim {α : Type} {f : List Char → α}
    (hl : ∀ c l, isSpace c = true → f (c :: l) = f l)
    (hr : ∀ c l, isSpace c = true → f (l ++ [c]) = f l) (s : String) :
    f (strip s).toList = f s.toList := by
  unfold strip
  rw [String.toList_ofList]
  have hrev := dropWhile_eq_of_cons (f := fun l => f l.reverse)
    (fun c l hc => by rw [List.reverse_cons]; exact hr c l.reverse hc)
    (s.toList.dropWhile isSpace).reverse
  rw [hrev, List.reverse_reverse]
  exact dropWhile_eq_of_cons hl s.toList

theorem strip_cons {c : Char} (l : List Char) (hc : isSpace c = true) :
    strip (String.ofList (c :: l)) = strip (String.ofList l) := by
  unfold strip
  rw [String.toList_ofList, String.toList_ofList, List.dropWhile_cons_of_pos hc]

theorem strip_append_one {c : Char} (l : List Char) (hc : isSpace c = true) :
    strip (String.ofList (l ++ [c])) = strip (String.ofList l) := by
  unfold strip
  rw [String.toList_ofList, String.toList_ofList, List.dropWhile_append]
  split_ifs with he
  · rw [List.isEmpty_iff.mp he, List.dropWhile_cons_of_pos hc]
    rfl
  · rw [List.reverse_append, List.reverse_singleton, List.singleton_append,
      List.dropWhile_cons_of_pos hc]

theorem isSpace_ne_comma {c : Char} (hc : isSpace c = true) : (c == ',') = false := by
  rw [beq_eq_false_iff_ne]
  rintro rfl
  revert hc
  decide

/-- The last part takes a character that is no comma. -/
theorem splitOn_append_one {c : Char} (hc : (c == ',') = false) (l : List Char) :
    ∃ parts last, l.splitOn ',' = parts ++ [last] ∧
      (l ++ [c]).splitOn ',' = parts ++ [last ++ [c]] := by
  induction l with
  | nil =>
    refine ⟨[], [], rfl, ?_⟩
    rw [List.nil_append, List.splitOn_cons_eq_if_modifyHead, hc]
    rfl
  | cons x l ih =>
    obtain ⟨parts, last, hl, hlc⟩ := ih
    rw [List.cons_append, List.splitOn_cons_eq_if_modifyHead, List.splitOn_cons_eq_if_modifyHead,
      hl, hlc]
    split_ifs
    · exact ⟨[] :: parts, last, rfl, rfl⟩
    · cases parts with
      | nil => exact ⟨[], x :: last, rfl, rfl⟩
      | cons part parts => exact ⟨(x :: part) :: parts, last, rfl, rfl⟩

/-- Space around the list of keys does not matter. -/
theorem splitKeys_strip (raw : String) : splitKeys (strip raw) = splitKeys raw := by
  unfold splitKeys
  refine strip_eq_of_trim (f := fun l => ((l.splitOn ',').map fun k =>
    strip (String.ofList k)).filter fun k => k ≠ "") (fun c l hc => ?_) (fun c l hc => ?_) raw
  · rw [List.splitOn_cons_eq_if_modifyHead, isSpace_ne_comma hc]
    cases hs : l.splitOn ',' with
    | nil => exact absurd hs (List.splitOn_ne_nil ',' l)
    | cons part parts =>
      simp only [Bool.false_eq_true, if_false, List.modifyHead_cons, List.map_cons,
        strip_cons part hc]
  · obtain ⟨parts, last, hl, hlc⟩ := splitOn_append_one (isSpace_ne_comma hc) l
    rw [hl, hlc, List.map_append, List.map_append, List.map_singleton, List.map_singleton,
      strip_append_one last hc]

/-- A text of one key. -/
structure IsKey (key : String) : Prop where
  noComma : ',' ∉ key.toList
  stripped : strip key = key
  ne : key ≠ ""

theorem strip_prepend_ne (key raw : String) : strip (key ++ "," ++ raw) ≠ "" := by
  intro h
  have hmem : ',' ∈ (key ++ "," ++ raw).toList := by simp
  have hspace := (strip_eq_empty_iff _).mp h ',' hmem
  revert hspace
  decide

theorem splitKeys_key {key : String} (h : IsKey key) : splitKeys key = [key] := by
  unfold splitKeys
  rw [List.splitOn_eq_singleton h.noComma]
  simp [h.stripped, h.ne]

/-- A key in front of a list of keys. -/
theorem splitKeys_prepend {key : String} (h : IsKey key) (raw : String) :
    splitKeys (key ++ "," ++ raw) = key :: splitKeys raw := by
  have hl : (key ++ "," ++ raw).toList = key.toList ++ ',' :: raw.toList := by simp
  unfold splitKeys
  rw [hl, List.splitOn_append_cons_self_of_not_mem h.noComma, List.map_cons, String.ofList_toList,
    h.stripped, List.filter_cons_of_pos (by simp [h.ne])]

/-! ## Rotating the keys -/

/-- The settings with a key prepended, and with that key alone. -/
def Settings.prepend (settings : Settings) (key : String) : Settings :=
  { settings with
    credentialsEncryptionKey := key ++ "," ++ settings.credentialsEncryptionKey }

def Settings.only (settings : Settings) (key : String) : Settings :=
  { settings with credentialsEncryptionKey := key }

omit [DecidableEq β] in
theorem ringOf_only {key : String} {b : β} (hk : IsKey key) (hb : F.keyBytes key = .ok b)
    (settings : Settings) : ringOf F (settings.only key) = some ⟨b, []⟩ := by
  have hkeys : resolveKeys (settings.only key) = .ok ⟨key, []⟩ := by
    unfold resolveKeys Settings.only
    simp only [hk.stripped, hk.ne, ne_eq, not_false_eq_true, if_true, if_false, splitKeys_key hk]
  unfold ringOf build Fernet.new
  rw [hkeys]
  simp only [Bind.bind, Except.bind, hb]
  rfl

omit [DecidableEq β] in
/-- The keys after a key is prepended: the old ones follow it, unless they were those of the
    TOTP secrets. -/
theorem ringOf_prepend {key : String} {b : β} {r : Keyring β} {settings : Settings} (hk : IsKey key)
    (hb : F.keyBytes key = .ok b) (hr : ringOf F settings = some r) :
    ringOf F (settings.prepend key) =
      some ⟨b, if strip settings.credentialsEncryptionKey = "" then [] else r.keys⟩ := by
  have hkeys : resolveKeys (settings.prepend key) =
      .ok ⟨key, splitKeys settings.credentialsEncryptionKey⟩ := by
    unfold resolveKeys Settings.prepend
    simp only [ne_eq, strip_prepend_ne, not_false_eq_true, if_true, if_false, splitKeys_strip,
      splitKeys_prepend hk]
  unfold ringOf build
  rw [hkeys]
  have hnew : F.new key = .ok b := by
    unfold Fernet.new
    rw [hb]
  simp only [Bind.bind, Except.bind, hnew]
  split_ifs with hblank
  · -- a blank list has no keys
    have hnil : splitKeys settings.credentialsEncryptionKey = [] := by
      rw [← splitKeys_strip, hblank]
      rfl
    rw [hnil]
    rfl
  · have hbuild := build_eq_ok.mpr hr
    unfold build resolveKeys at hbuild
    simp only [ne_eq, hblank, not_false_eq_true, if_true, if_false, splitKeys_strip] at hbuild
    cases hs : splitKeys settings.credentialsEncryptionKey with
    | nil =>
      rw [hs] at hbuild
      cases hbuild
    | cons primary older =>
      rw [hs] at hbuild
      rw [List.mapM_cons]
      simp only [Bind.bind, Except.bind] at hbuild ⊢
      cases hp : F.new primary with
      | error e => rw [hp] at hbuild; cases hbuild
      | ok b' =>
        rw [hp] at hbuild
        cases ho : older.mapM F.new with
        | error e => rw [ho] at hbuild; cases hbuild
        | ok bs =>
          rw [ho] at hbuild
          cases hbuild
          rfl

/-- The step saves the integration. -/
def Saves (name : String) : Op → Prop
  | .store _ _ name' plaintext _ => name' = name ∧ Accepted name' plaintext
  | _ => False

omit [DecidableEq β] in
/-- Between two deployments the keys stay, and the entries that are saved are those of the
    saves. -/
theorem run_between {l : Ledger String β String} {r : Keyring β} (hr : l.ring = some r)
    {ops : List Op} (hops : ∀ o ∈ ops, ∀ settings, o ≠ .deploy settings) (name : String) :
    (run (ledgerStep F) l ops).ring = some r ∧
      ((¬ ∃ o ∈ ops, Saves name o) → (run (ledgerStep F) l ops).entries name = l.entries name) ∧
      ((∃ o ∈ ops, Saves name o) →
        ∃ p, (run (ledgerStep F) l ops).entries name = some (r.primary, p)) := by
  induction ops using List.reverseRecOn with
  | nil => exact ⟨hr, fun _ => rfl, by rintro ⟨o, ho, -⟩; cases ho⟩
  | append_singleton ops o ih =>
    obtain ⟨hring, hkept, hsaved⟩ := ih fun o' ho' => hops o' (List.mem_append_left _ ho')
    have hlast := hops o (List.mem_append_right _ List.mem_cons_self)
    rw [run_append, run_cons, run_nil]
    generalize run (ledgerStep F) l ops = l' at *
    simp only [List.mem_append, List.mem_singleton, or_and_right, exists_or, exists_eq_left]
    cases o with
    | deploy settings => exact absurd rfl (hlast settings)
    | test now actorId name' result =>
      refine ⟨hring, fun h => hkept fun hs => h (.inl hs), ?_⟩
      rintro (h | h)
      · exact hsaved h
      · exact h.elim
    | store now actorId name' plaintext nonce =>
      rw [ledgerStep]
      by_cases ha : Accepted name' plaintext
      · rw [if_pos ha, Ledger.ring_put, Ledger.entries_put hring]
        refine ⟨hring, fun h => ?_, fun h => ?_⟩
        · have hne : name ≠ name' := fun heq => h (.inr ⟨heq.symm, ha⟩)
          rw [if_neg hne]
          exact hkept fun hs => h (.inl hs)
        · by_cases heq : name = name'
          · rw [if_pos heq]
            exact ⟨plaintext, rfl⟩
          · rw [if_neg heq]
            exact hsaved (h.resolve_right fun hs => heq hs.1.symm)
      · rw [if_neg ha]
        exact ⟨hring, fun h => hkept fun hs => h (.inl hs),
          fun h => hsaved (h.resolve_right fun hs => ha hs.2)⟩

/-- A credential that loads has an entry under one of the keys. -/
theorem entry_of_loads {s : State} {l : Ledger String β String} (h : Refines F s l)
    (hload : loadCredential F s.settings s.tables.credentials name = .ok (some plaintext)) :
    ∃ b r, l.entries name = some (b, plaintext) ∧ l.ring = some r ∧ b ∈ r.keys := by
  rw [loads_eq h] at hload
  unfold Ledger.read at hload
  cases he : l.entries name with
  | none => rw [he] at hload; cases hload
  | some e =>
    cases hr : l.ring with
    | none =>
      rw [he, hr] at hload
      unfold loaded at hload
      cases hb : build F s.settings <;> rw [hb] at hload <;> cases hload
    | some r =>
      rw [he, hr] at hload
      dsimp only at hload
      split_ifs at hload with hmem
      · cases hload
        exact ⟨e.1, r, rfl, rfl, hmem⟩
      · cases hload

/-- An entry loads exactly when its key is in use. -/
theorem loads_entry {s : State} {l : Ledger String β String} {b : β} {r : Keyring β}
    (h : Refines F s l) (he : l.entries name = some (b, plaintext)) (hr : l.ring = some r) :
    loadCredential F s.settings s.tables.credentials name =
      if b ∈ r.keys then .ok (some plaintext) else loaded F s.settings .lost := by
  rw [loads_eq h, Ledger.read, he, hr]
  dsimp only
  split_ifs <;> rfl

/-- The state ends a run in which the settings never had the key. -/
def ReachedWithout (F : Fernet β) (b : β) (s : State) : Prop :=
  ∃ settings ops, run (vaultStep F) (State.start settings) ops = s ∧
    AllStates (vaultStep F) (fun s => ∀ r, ringOf F s.settings = some r → b ∉ r.keys)
      (State.start settings) ops

omit [DecidableEq β] in
/-- Nothing is put under a key that the settings never had. -/
theorem entries_ne {s : State} {l : Ledger String β String} {b : β} (h : Refines F s l)
    (hl : ∀ name e, l.entries name = some e → e.1 ≠ b) {ops : List Op}
    (hnew : AllStates (vaultStep F) (fun s => ∀ r, ringOf F s.settings = some r → b ∉ r.keys) s
      ops) :
    ∀ name e, (run (ledgerStep F) l ops).entries name = some e → e.1 ≠ b := by
  induction ops generalizing s l with
  | nil => exact hl
  | cons o ops ih =>
    obtain ⟨hs, hrest⟩ := hnew
    refine ih (refines_step h o) (fun name e he => ?_) hrest
    cases o with
    | deploy settings => exact hl name e he
    | test now actorId name' result => exact hl name e he
    | store now actorId name' plaintext nonce =>
      rw [ledgerStep] at he
      split_ifs at he
      · rcases Ledger.entries_put_cases he with he | ⟨r, hr, heq⟩
        · exact hl name e he
        · rintro rfl
          exact hs r (h.ring.symm.trans hr) (heq ▸ List.mem_cons_self)
      · exact hl name e he

/-- What a service loads in this state. -/
def State.load (F : Fernet β) (s : State) (name : String) : Except VaultError (Option String) :=
  loadCredential F s.settings s.tables.credentials name

/-- The first deployment of a rotation. -/
def prependKey (F : Fernet β) (s : State) (key : String) : State :=
  vaultStep F s (.deploy (s.settings.prepend key))

/-- The last one. -/
def removeOldKeys (F : Fernet β) (s : State) (key : String) : State :=
  vaultStep F s (.deploy (s.settings.only key))

/-- **The rotation of the keys**: a key that was never in use is prepended and deployed,
    credentials are saved again, and the old keys are removed. Every credential that could be
    loaded before can be loaded after the first deployment, unless the old keys were those of
    the TOTP secrets; after the last one exactly those that were saved in between can be
    loaded. -/
theorem rotation_loses_iff (F : Fernet β) {s : State} {key : String} {b : β} {r : Keyring β}
    (hs : ReachedWithout F b s) (hk : IsKey key) (hb : F.keyBytes key = .ok b)
    (hr : ringOf F s.settings = some r) {resaves : List Op}
    (hresaves : ∀ o ∈ resaves, ∀ settings, o ≠ .deploy settings) :
    (∀ name plaintext, s.load F name = .ok (some plaintext) →
      ((prependKey F s key).load F name = .ok (some plaintext) ↔
        strip s.settings.credentialsEncryptionKey ≠ "")) ∧
    ∀ name, (∃ p, (removeOldKeys F (run (vaultStep F) (prependKey F s key) resaves) key).load F
        name = .ok (some p)) ↔ ∃ o ∈ resaves, Saves name o := by
  obtain ⟨settings, ops, rfl, hnew⟩ := hs
  have href := represents_run F settings ops
  have hne := entries_ne (refines_start F settings) (fun _ _ he => by cases he) hnew
  generalize run (ledgerStep F) (ledgerStart F settings) ops = l at href hne
  generalize run (vaultStep F) (State.start settings) ops = s at href hr
  -- the first deployment
  set r₁ : Keyring β := ⟨b, if strip s.settings.credentialsEncryptionKey = "" then [] else r.keys⟩
    with hr₁
  have hprep : ringOf F (s.settings.prepend key) = some r₁ := ringOf_prepend hk hb hr
  have href₁ : Refines F (prependKey F s key) (l.rotate (some r₁)) := by
    rw [← hprep]
    exact refines_step href _
  -- the saves in between, and the last deployment
  have hmid := refines_run href₁ resaves
  have hbetween := fun name =>
    (run_between (F := F) (l := l.rotate (some r₁)) rfl hresaves name).2
  generalize run (ledgerStep F) (l.rotate (some r₁)) resaves = l₂ at hmid hbetween
  generalize run (vaultStep F) (prependKey F s key) resaves = s₂ at hmid
  have href₂ : Refines F (removeOldKeys F s₂ key) (l₂.rotate (some ⟨b, []⟩)) := by
    rw [← ringOf_only hk hb s₂.settings]
    exact refines_step hmid _
  refine ⟨fun name plaintext hload => ?_, fun name => ⟨?_, fun hsaves => ?_⟩⟩
  · obtain ⟨b₀, r₀, he, hring, hmem⟩ := entry_of_loads href hload
    obtain rfl : r₀ = r := Option.some.inj (hring.symm.trans (href.ring.trans hr))
    have hb₀ : b₀ ≠ b := hne name _ he
    rw [State.load, loads_entry href₁ he rfl]
    by_cases hblank : strip s.settings.credentialsEncryptionKey = ""
    · simp [hr₁, hblank, Keyring.keys, hb₀, loaded]
    · have hold : b₀ ∈ r₁.keys := by
        rw [hr₁, if_neg hblank]
        exact List.mem_cons_of_mem b hmem
      simp [hold, hblank]
  · -- an entry that was not saved again is under an older key
    rintro ⟨p, hp⟩
    by_contra hno
    obtain ⟨b₀, r₀, he, hring, hmem⟩ := entry_of_loads href₂ hp
    cases hring
    have hold : l.entries name = some (b₀, p) := ((hbetween name).1 hno).symm.trans he
    exact hne name _ hold (List.mem_singleton.mp hmem)
  · obtain ⟨p, hp⟩ := (hbetween name).2 hsaves
    refine ⟨p, ?_⟩
    rw [State.load, loads_entry href₂ hp rfl]
    simp [Keyring.keys, hr₁]

/-- The webhook is saved again under the key `n`, which was not in use. -/
theorem webhook_rotated :
    (∀ name plaintext, savedState.load initialFernet name = .ok (some plaintext) →
      ((prependKey initialFernet savedState "n").load initialFernet name = .ok (some plaintext) ↔
        strip savedState.settings.credentialsEncryptionKey ≠ "")) ∧
    ∀ name, (∃ p, (removeOldKeys initialFernet (run (vaultStep initialFernet)
        (prependKey initialFernet savedState "n") savedWebhook) "n").load initialFernet name =
          .ok (some p)) ↔ ∃ o ∈ savedWebhook, Saves name o := by
  have hring : ringOf initialFernet ⟨"k", "t"⟩ = some ⟨'k', []⟩ := by rfl
  have hold : ∀ r, ringOf initialFernet ⟨"k", "t"⟩ = some r → 'n' ∉ r.keys := by
    intro r hr
    rw [← Option.some.inj (hring.symm.trans hr)]
    decide
  exact rotation_loses_iff initialFernet ⟨⟨"k", "t"⟩, savedWebhook, rfl, hold, hold⟩
    ⟨by decide, by rfl, by decide⟩ (by rfl) hring (by simp [savedWebhook])

end TempleConsign.Vault
