import TempleConsign.DeviceTokens
import TempleConsign.IdempotencyKeys
import TempleConsign.PayloadContracts

/-!
# Push delivery

Device tokens, the operations that enqueue pushes, the queue and the APNs dispatcher
(`src/api/services/apns_dispatch_service.py` line 97) as one system. A push names a row of
`device_tokens`: it is enqueued for every active iOS token of its recipient, and when Apple
reports the token dead the dispatcher marks the row, in the transaction that records the
outcome.

Deviations: `uuidOf` is `uuid.UUID` of a text, which reads back what `str` wrote; the request to
Apple is its answer. A transaction whose answer is lost was committed, with its revocation.

Results:
* `active_step`: which steps make a token active and which end it.
* `tokens_for_user_iff`: a user's listed tokens are those registered and not ended since.
* `pushes_registered`: no push is enqueued for a token that has ended.
-/

namespace TempleConsign.Push

open ServiceLib

/-! ## The dispatcher -/

/-- Apple's answer; `reason` is `"unknown"` or `"unparseable"` where the body has none. -/
inductive ApnsReply
  | connectionError (error : String)
  | response (status : ℕ) (reason : String)

/-- `permanent_reasons` (line 170). -/
def permanentReasons : List String := ["BadDeviceToken", "Unregistered", "MissingDeviceToken"]

/-- `is_permanent` (line 171): the token will never work again. -/
def isPermanent (status : ℕ) (reason : String) : Bool :=
  status = 410 || (status = 400 && reason ∈ permanentReasons)

/-- What `_load_credential` (line 62) and `_sign_jwt` (line 75) make of the vault: no row, an
    exception, or a signed token. -/
inductive ApnsCredential
  | missing
  | unusable (error : String)
  | ready
  deriving DecidableEq

/-- What `send` (line 97) answers or raises. -/
def apnsSend (credential : ApnsCredential) (reply : ApnsReply) : Sent :=
  match credential with
  | .missing => .skipped
  | .unusable error => .raised error
  | .ready =>
    match reply with
    | .connectionError error => .raised ("RuntimeError: APNs connection error: " ++ error)
    | .response status reason =>
      if status = 200 then .delivered
      else if isPermanent status reason then .failed reason
      else if 500 ≤ status then
        .raised ("RuntimeError: APNs 5xx: " ++ status.repr ++ " " ++ reason)
      else .failed reason

/-- `send` revokes the token (line 182). -/
def apnsRevokes (credential : ApnsCredential) : ApnsReply → Bool
  | .connectionError _ => false
  | .response status reason =>
    credential = .ready && status ≠ 200 && isPermanent status reason

/-! ## The system -/

/-- The environment: the settings of the producers and `uuid.UUID`. -/
structure PushEnv where
  deployment : Deployment
  uuidOf : String → Option ℕ
  uuidOf_repr : ∀ n : ℕ, uuidOf n.repr = some n

structure PushSystem where
  tokens : Store DeviceToken
  box : Outbox

/-- The steps: the calls of the token service, the operations that enqueue, what other services
    do to the tables, and the workers. -/
inductive PushOp
  | register (now : ℤ) (userId : ℕ) (platform token environment : String)
  | revoke (now : ℤ) (userId : ℕ) (token : String)
  | revokeAll (now : ℤ) (userId : ℕ)
  | operation (now : ℤ) (o : Operation)
  | edit (tables : Tables)
  | worker (now : ℤ) (move : WorkerMove) (credential : ApnsCredential) (reply : ApnsReply)

/-- The next job of a claim, when it is a push. -/
def nextPush (q : Queue) (c : ℕ) : Option Job :=
  match q.claims.get? c with
  | some (.taken ((_, job) :: _)) => if job.channel = Channel.apns.value then some job else none
  | _ => none

/-- The push that a move dispatches. -/
def dispatched (q : Queue) : WorkerMove → Option Job
  | .process c _ _ => nextPush q c
  | .outcomeLost c _ _ => nextPush q c
  | _ => none

/-- The move with what the sending call answers. -/
def withSent (sent : Sent) : WorkerMove → WorkerMove
  | .process c now _ => .process c now sent
  | .outcomeLost c now _ => .outcomeLost c now sent
  | move => move

/-- The `device_token_id` of a push (line 287). -/
def deviceTokenId (env : PushEnv) (payload : Payload) : Option ℕ :=
  match payload.get "device_token_id" with
  | .scalar (.str s) => env.uuidOf s
  | _ => none

/-- The row that a dispatch revokes. -/
def revokedBy (env : PushEnv) (credential : ApnsCredential) (reply : ApnsReply) (job : Job) :
    Option ℕ :=
  if job.payload.has "token" && apnsRevokes credential reply then deviceTokenId env job.payload
  else none

/-- The tables as the producers read them: the active iOS tokens are those of the table. -/
def PushSystem.tables (s : PushSystem) : Tables :=
  { s.box.tables with iosTokens := iosTokens s.tokens }

/-- The rows after a dispatch. -/
def revokeDead (now : ℤ) (tokenId : Option ℕ) (t : Store DeviceToken) : Store DeviceToken :=
  match tokenId with
  | some id => revokeById now id t
  | none => t

/-- What a worker's move dispatches, and with which row revoked. -/
def PushSystem.revocation (env : PushEnv) (s : PushSystem) (move : WorkerMove)
    (credential : ApnsCredential) (reply : ApnsReply) : Option ℕ :=
  (dispatched s.box.queue move).bind (revokedBy env credential reply)

def pushStep (env : PushEnv) (s : PushSystem) : PushOp → PushSystem
  | .register now userId platform token environment =>
    { s with tokens := afterCall (register now userId platform token environment) s.tokens }
  | .revoke now userId token => { s with tokens := afterCall (revoke now userId token) s.tokens }
  | .revokeAll now userId => { s with tokens := afterCall (revokeAllForUser now userId) s.tokens }
  | .operation now o =>
    { s with box := outboxStep env.deployment ⟨s.tables, s.box.queue⟩ (.operation now o) }
  | .edit tables => { s with box := outboxStep env.deployment s.box (.edit tables) }
  | .worker now move credential reply =>
    let sent := if (dispatched s.box.queue move).isSome then
      withSent (apnsSend credential reply) move else move
    { tokens := revokeDead now (s.revocation env move credential reply) s.tokens
      box := outboxStep env.deployment s.box (.worker sent) }

/-- No token is registered and nothing is enqueued. -/
def PushSystem.start (T : Tables) : PushSystem := ⟨Store.empty, Outbox.start T⟩

/-! ## Active tokens -/

/-- The user's token has a row that is not deleted. -/
def Active (s : PushSystem) (k : ℕ × String) : Prop :=
  ∃ e, s.tokens.rowOf DeviceToken.key k = some e ∧ e.2.deletedAt = none

/-- The call registers the token. -/
def Registers (k : ℕ × String) (_ : PushSystem) : PushOp → Prop
  | .register _ userId platform token environment =>
    Registrable platform token environment ∧ k = (userId, token)
  | _ => False

/-- The step ends the token: its user revokes it or all tokens, or Apple reports it dead. -/
def Ends (env : PushEnv) (k : ℕ × String) (s : PushSystem) : PushOp → Prop
  | .revoke _ userId token => k = (userId, token)
  | .revokeAll _ userId => k.1 = userId
  | .worker _ move credential reply =>
    ∃ e, s.tokens.rowOf DeviceToken.key k = some e ∧
      s.revocation env move credential reply = some e.1
  | _ => False

variable {env : PushEnv} {s : PushSystem} {k : ℕ × String}

/-- An update of deletion marks, seen from one token. -/
theorem active_revoked {t : Store DeviceToken} (h : UniqueTokens t) (now : ℤ)
    (p : ℕ → DeviceToken → Bool) {q : Prop}
    (hq : ∀ e, t.rowOf DeviceToken.key k = some e → e.2.deletedAt = none →
      (p e.1 e.2 = true ↔ q)) :
    (∃ e, (t.modifyWhere p (DeviceToken.revoke now)).rowOf DeviceToken.key k = some e ∧
        e.2.deletedAt = none) ↔
      (∃ e, t.rowOf DeviceToken.key k = some e ∧ e.2.deletedAt = none) ∧ ¬ q := by
  rw [rowOf_revoke h]
  cases hr : t.rowOf DeviceToken.key k with
  | none => simp
  | some e =>
    rw [Option.map_some]
    by_cases hp : p e.1 e.2 = true
    · simp only [if_pos hp, Option.some.injEq, exists_eq_left', DeviceToken.revoke, reduceCtorEq,
        false_iff, not_and, not_not]
      exact fun hd => (hq e hr hd).mp hp
    · simp only [if_neg hp, Option.some.injEq, exists_eq_left']
      exact (and_iff_left_of_imp fun hd hqq => hp ((hq e hr hd).mpr hqq)).symm

theorem unique_step (o : PushOp) (h : UniqueTokens s.tokens) :
    UniqueTokens (pushStep env s o).tokens := by
  cases o with
  | register now userId platform token environment => exact UniqueTokens.register h
  | revoke now userId token =>
    show UniqueTokens (afterCall _ s.tokens)
    rw [afterCall_revoke]
    exact Store.Keyed.modifyWhere h key_revoke _
  | revokeAll now userId =>
    show UniqueTokens (afterCall _ s.tokens)
    rw [afterCall_revokeAllForUser]
    exact Store.Keyed.modifyWhere h key_revoke _
  | operation now o => exact h
  | edit tables => exact h
  | worker now move credential reply =>
    show UniqueTokens (revokeDead _ _ _)
    unfold revokeDead
    split
    · exact Store.Keyed.modifyWhere h key_revoke _
    · exact h

/-- A step makes a token active exactly when it registers it, and leaves it so unless it ends
    it. -/
theorem active_step (o : PushOp) (h : UniqueTokens s.tokens) :
    Active (pushStep env s o) k ↔ Registers k s o ∨ (Active s k ∧ ¬ Ends env k s o) := by
  cases o with
  | register now userId platform token environment =>
    show (∃ e, (afterCall _ s.tokens).rowOf _ k = some e ∧ _) ↔ _
    by_cases hok : Registrable platform token environment
    · rw [rowOf_register h hok]
      by_cases hk : k = (userId, token)
      · rw [if_pos hk]
        have hreg : Registers k s (.register now userId platform token environment) := ⟨hok, hk⟩
        refine iff_of_true ⟨_, rfl, ?_⟩ (.inl hreg)
        cases s.tokens.rowOf DeviceToken.key k with
        | none => rfl
        | some e => rfl
      · rw [if_neg hk]
        simp [Registers, Ends, Active, hk]
    · rw [afterCall_register, dif_neg hok]
      simp [Registers, Ends, Active, hok]
  | revoke now userId token =>
    show (∃ e, (afterCall _ s.tokens).rowOf _ k = some e ∧ _) ↔ _
    rw [afterCall_revoke]
    have hmark := active_revoked (k := k) h now (isActiveToken userId token)
      (q := k = (userId, token)) fun e he hd => ?_
    · rw [hmark]
      simp [Registers, Ends, Active]
    · obtain ⟨-, rfl⟩ := (Store.rowOf_eq_some h).mp he
      simp [isActiveToken, DeviceToken.key, hd]
  | revokeAll now userId =>
    show (∃ e, (afterCall _ s.tokens).rowOf _ k = some e ∧ _) ↔ _
    rw [afterCall_revokeAllForUser]
    have hmark := active_revoked (k := k) h now (isActiveOf userId)
      (q := k.1 = userId) fun e he hd => ?_
    · rw [hmark]
      simp [Registers, Ends, Active]
    · obtain ⟨-, rfl⟩ := (Store.rowOf_eq_some h).mp he
      simp [isActiveOf, DeviceToken.key, hd]
  | operation now o => simp [Registers, Ends, Active, pushStep]
  | edit tables => simp [Registers, Ends, Active, pushStep]
  | worker now move credential reply =>
    show (∃ e, (revokeDead _ _ s.tokens).rowOf _ k = some e ∧ _) ↔ _
    cases hrev : s.revocation env move credential reply with
    | none => simp [revokeDead, Registers, Ends, Active, hrev]
    | some id =>
      have hmark := active_revoked (k := k) h now (fun i r => i = id && r.deletedAt.isNone)
        (q := ∃ e, s.tokens.rowOf DeviceToken.key k = some e ∧ some id = some e.1)
        fun e he hd => ?_
      · simp only [revokeDead, revokeById, Registers, Ends, Active, hrev, false_or]
        exact hmark
      · simp [he, hd, eq_comm]

/-- A token is active exactly when it was registered and did not end since. -/
theorem active_iff_since (env : PushEnv) (T : Tables) (ops : List PushOp) (k : ℕ × String) :
    Active (run (pushStep env) (PushSystem.start T) ops) k ↔
      Since (pushStep env) (Registers k) (Ends env k) (PushSystem.start T) ops := by
  have hstart : ¬ Active (PushSystem.start T) k := by
    rintro ⟨e, he, -⟩
    cases he
  rw [run_iff_since (H := fun s => Active s k) (I := fun s : PushSystem => UniqueTokens s.tokens)
    (fun s o h => unique_step o h) (fun s o h => active_step o h) Store.keyed_empty ops]
  simp [hstart]

/-! ## Platforms -/

/-- The platform that a call registers the token with. -/
def registration (k : ℕ × String) : PushOp → Option String
  | .register _ userId platform token environment =>
    if Registrable platform token environment ∧ k = (userId, token) then some platform else none
  | _ => none

/-- The platform of a token's row, active or not. -/
def platformOf (s : PushSystem) (k : ℕ × String) : Option String :=
  (s.tokens.rowOf DeviceToken.key k).map fun e => e.2.platform

theorem platformOf_revoked {t : Store DeviceToken} (h : UniqueTokens t) (now : ℤ)
    (p : ℕ → DeviceToken → Bool) :
    ((t.modifyWhere p (DeviceToken.revoke now)).rowOf DeviceToken.key k).map
        (fun e => e.2.platform) =
      (t.rowOf DeviceToken.key k).map fun e => e.2.platform := by
  rw [rowOf_revoke h, Option.map_map]
  refine congrArg (Option.map · _) (funext fun e => ?_)
  rw [Function.comp_apply]
  split_ifs <;> rfl

/-- The first registration sets the platform, no other step changes it. -/
theorem platformOf_step (o : PushOp) (h : UniqueTokens s.tokens) :
    platformOf (pushStep env s o) k = (platformOf s k).or (registration k o) := by
  have hkeep : platformOf s k = (platformOf s k).or none := Option.or_none.symm
  cases o with
  | register now userId platform token environment =>
    show ((afterCall _ s.tokens).rowOf _ k).map _ = _
    by_cases hreg : Registrable platform token environment ∧ k = (userId, token)
    · obtain ⟨hok, hk⟩ := hreg
      rw [rowOf_register h hok, if_pos hk, registration, if_pos ⟨hok, hk⟩, platformOf]
      cases s.tokens.rowOf DeviceToken.key k with
      | none => rfl
      | some e => rfl
    · rw [registration, if_neg hreg, ← hkeep]
      by_cases hok : Registrable platform token environment
      · rw [rowOf_register h hok, if_neg fun hk => hreg ⟨hok, hk⟩]
        rfl
      · rw [afterCall_register, dif_neg hok]
        rfl
  | revoke now userId token =>
    show ((afterCall _ s.tokens).rowOf _ k).map _ = _
    rw [afterCall_revoke, platformOf_revoked h]
    exact hkeep
  | revokeAll now userId =>
    show ((afterCall _ s.tokens).rowOf _ k).map _ = _
    rw [afterCall_revokeAllForUser, platformOf_revoked h]
    exact hkeep
  | operation now o => exact hkeep
  | edit tables => exact hkeep
  | worker now move credential reply =>
    show ((revokeDead _ _ s.tokens).rowOf _ k).map _ = _
    unfold revokeDead
    split
    · unfold revokeById
      rw [platformOf_revoked h]
      exact hkeep
    · exact hkeep

theorem unique_run (env : PushEnv) (T : Tables) (ops : List PushOp) :
    UniqueTokens (run (pushStep env) (PushSystem.start T) ops).tokens :=
  run_induction (P := fun s : PushSystem => UniqueTokens s.tokens) (fun _ o h => unique_step o h)
    Store.keyed_empty ops

theorem platformOf_run (env : PushEnv) (T : Tables) (ops : List PushOp) (k : ℕ × String) :
    platformOf (run (pushStep env) (PushSystem.start T) ops) k =
      ops.findSome? (registration k) := by
  induction ops using List.reverseRecOn with
  | nil => rfl
  | append_singleton ops o ih =>
    rw [run_append, run_cons, run_nil, platformOf_step o (unique_run env T ops), ih,
      List.findSome?_append, List.findSome?_singleton]

/-- **The tokens that `tokens_for_user` lists are, one row each, those the user registered and
    neither revoked nor had reported dead since**, under the platform of their first
    registration, in every run of the whole system. -/
theorem tokens_for_user_iff (env : PushEnv) (T : Tables) (ops : List PushOp) (userId : ℕ)
    (platform : String) :
    (∀ token, (∃ e ∈ tokensForUser (run (pushStep env) (PushSystem.start T) ops).tokens userId
          (some platform), e.2.token = token) ↔
        Since (pushStep env) (Registers (userId, token)) (Ends env (userId, token))
            (PushSystem.start T) ops ∧
          ops.findSome? (registration (userId, token)) = some platform) ∧
      ((tokensForUser (run (pushStep env) (PushSystem.start T) ops).tokens userId
        (some platform)).map fun e => e.2.token).Nodup := by
  have hunique := unique_run env T ops
  have hmem : ∀ e, e ∈ tokensForUser (run (pushStep env) (PushSystem.start T) ops).tokens userId
      (some platform) ↔ (run (pushStep env) (PushSystem.start T) ops).tokens.get? e.1 = some e.2 ∧
        (e.2.userId = userId ∧ e.2.deletedAt = none) ∧ e.2.platform = platform := by
    rintro ⟨id, r⟩
    simp [tokensForUser, isActiveOf]
  constructor
  · intro token
    rw [← active_iff_since, ← platformOf_run env T]
    constructor
    · rintro ⟨⟨id, r⟩, he, rfl⟩
      obtain ⟨hget, ⟨rfl, hdel⟩, rfl⟩ := (hmem _).mp he
      have hrow := (Store.rowOf_eq_some hunique).mpr ⟨hget, rfl⟩
      have hkey : (r.userId, r.token) = r.key := rfl
      rw [hkey]
      exact ⟨⟨_, hrow, hdel⟩, by rw [platformOf, hrow]; rfl⟩
    · rintro ⟨⟨⟨id, r⟩, hrow, hdel⟩, hplatform⟩
      obtain ⟨hget, hkey⟩ := (Store.rowOf_eq_some hunique).mp hrow
      obtain ⟨hu, ht⟩ := Prod.mk.inj hkey
      rw [platformOf, hrow] at hplatform
      exact ⟨(id, r), (hmem _).mpr ⟨hget, ⟨hu, hdel⟩, Option.some.inj hplatform⟩, ht⟩
  · -- two listed rows of one token would have one key
    have hids := Store.select_nodup (run (pushStep env) (PushSystem.start T) ops).tokens
      (fun id r => isActiveOf userId id r && (some platform).all fun p => r.platform = p)
    refine List.Nodup.map_on ?_ (List.Nodup.of_map _ hids)
    rintro ⟨i, a⟩ ha ⟨j, b⟩ hb htoken
    obtain ⟨hi, ⟨hua, -⟩, -⟩ := (hmem _).mp ha
    obtain ⟨hj, ⟨hub, -⟩, -⟩ := (hmem _).mp hb
    have hkey : a.key = b.key := Prod.ext (hua.trans hub.symm) htoken
    have hij : i = j := Store.Keyed.eq hunique hi hj hkey
    subst hij
    exact Prod.ext rfl (Option.some.inj (hi.symm.trans hj))

/-! ## What a push names -/

/-- The device whose row a push names. -/
structure Names (userId : Option ℕ) (payload : Payload) (user : ℕ) (device : Device) : Prop where
  recipient : userId = some user
  token : payload.get "token" = .str device.token
  tokenId : payload.get "device_token_id" = .str device.id.repr
  environment : payload.get "device_environment" = .str device.environment

/-- A push is for one of its recipient's devices. -/
def ToDevice (T : Tables) (n : Notice) : Prop :=
  n.channel = .apns → ∃ user, ∃ device ∈ T.iosTokens user, Names n.userId n.payload user device

def AllToDevice (T : Tables) (notices : List Notice) : Prop := ∀ n ∈ notices, ToDevice T n

variable {d : Deployment} {T : Tables}

theorem toDevice_of_ne {n : Notice} (h : n.channel ≠ .apns) : ToDevice T n := fun hn => absurd hn h

theorem allToDevice_nil : AllToDevice T [] := List.forall_mem_nil _

theorem allToDevice_cons {n : Notice} {notices : List Notice} (hn : n.channel ≠ .apns)
    (h : AllToDevice T notices) : AllToDevice T (n :: notices) :=
  List.forall_mem_cons.mpr ⟨toDevice_of_ne hn, h⟩

theorem allToDevice_one {n : Notice} (hn : n.channel ≠ .apns) : AllToDevice T [n] :=
  allToDevice_cons hn allToDevice_nil

theorem AllToDevice.append {l l' : List Notice} (h : AllToDevice T l) (h' : AllToDevice T l') :
    AllToDevice T (l ++ l') := List.forall_mem_append.mpr ⟨h, h'⟩

/-- Notices of another channel, one for each element of a list. -/
theorem allToDevice_map {α : Type} {f : α → Notice} {l : List α}
    (h : ∀ a, (f a).channel ≠ .apns) : AllToDevice T (l.map f) :=
  List.forall_mem_map.mpr fun a _ => toDevice_of_ne (h a)

theorem allToDevice_filterMap {α : Type} {f : α → Option Notice} {l : List α}
    (h : ∀ a n, f a = some n → n.channel ≠ .apns) : AllToDevice T (l.filterMap f) := by
  intro n hn
  obtain ⟨a, -, ha⟩ := List.mem_filterMap.mp hn
  exact toDevice_of_ne (h a n ha)

/-- Pushes to the devices of one user. -/
theorem allToDevice_pushes {user : ℕ} {f : Device → Notice}
    (h : ∀ device, Names (f device).userId (f device).payload user device) :
    AllToDevice T ((T.iosTokens user).map f) :=
  List.forall_mem_map.mpr fun device hdevice _ => ⟨user, device, hdevice, h device⟩

/-- One notice with a text that may fail to render. -/
theorem allToDevice_rendered {α : Type} {o : Option α} {f : α → Notice} {notices : List Notice}
    (hf : ∀ a, (f a).channel ≠ .apns) (h : (o.bind fun a => some [f a]) = some notices) :
    AllToDevice T notices := by
  obtain ⟨a, -, ha⟩ := Option.bind_eq_some_iff.mp h
  cases ha
  exact allToDevice_one (hf a)

theorem assignmentNotices_toDevice {id userId : ℕ} {record : NotifiedRecord}
    {trigger : AssignmentTrigger} :
    AllToDevice T (assignmentNotices T id record userId trigger) := by
  unfold assignmentNotices
  split
  · exact allToDevice_nil
  · split_ifs
    · exact allToDevice_nil
    · exact allToDevice_cons nofun (allToDevice_pushes fun device => ⟨rfl, rfl, rfl, rfl⟩)

section Transitions

variable {id : ℕ} {record : NotifiedRecord} {target : Status} {note : Option String}
  {notifyOverride : Option Bool} {notices : List Notice}

theorem customerNotices_toDevice {customer : Option Recipient}
    (h : customerNotices d T id record target note customer notifyOverride = some notices) :
    AllToDevice T notices := by
  unfold customerNotices at h
  split at h
  · cases h
    exact allToDevice_nil
  · split_ifs at h
    · exact allToDevice_rendered (fun _ => by nofun) h
    · cases h
      exact allToDevice_nil

theorem salesRepNotices_toDevice
    (h : salesRepNotices d T id record target notifyOverride = some notices) :
    AllToDevice T notices := by
  unfold salesRepNotices at h
  split at h
  · cases h
    exact allToDevice_nil
  · split_ifs at h
    · unfold notifySalesRep at h
      split at h
      · cases h
        exact allToDevice_nil
      · dsimp only at h
        split_ifs at h
        · cases h
          exact allToDevice_nil
        · exact allToDevice_rendered (fun _ => by nofun) h
        · cases h
          exact allToDevice_nil
        · exact allToDevice_rendered (fun _ => by nofun) h
    · cases h
      exact allToDevice_nil

theorem watcherNotice_channel {r : Rendered} {watcherId : ℕ} {n : Notice}
    (h : watcherNotice T id record target r watcherId = some n) : n.channel ≠ .apns := by
  unfold watcherNotice at h
  split at h
  · cases h
  · dsimp only at h
    split_ifs at h <;> cases h <;> nofun

theorem watcherNotices_toDevice
    (h : watcherNotices d T id record target note notifyOverride = some notices) :
    AllToDevice T notices := by
  unfold watcherNotices at h
  split_ifs at h
  · unfold notifyWatchers at h
    split_ifs at h
    · cases h
      exact allToDevice_nil
    · obtain ⟨r, -, h⟩ := Option.bind_eq_some_iff.mp h
      cases h
      exact allToDevice_filterMap fun _ _ => watcherNotice_channel
  · cases h
    exact allToDevice_nil

theorem transitionNotices_toDevice {customer : Option Recipient}
    (h : transitionNotices d T id record target note customer notifyOverride = some notices) :
    AllToDevice T notices := by
  simp only [transitionNotices, Option.bind_eq_bind, Option.bind_eq_some_iff] at h
  obtain ⟨toCustomer, hcustomer, toSalesRep, hrep, toWatchers, hwatchers, h⟩ := h
  cases h
  exact ((customerNotices_toDevice hcustomer).append (salesRepNotices_toDevice hrep)).append
    (watcherNotices_toDevice hwatchers)

end Transitions

theorem healthAlertNotice_channel {row : ServiceHealth} {seed : String} {admin : Recipient}
    {prefs : Option Preference} {n : Notice} (h : healthAlertNotice row seed admin prefs = some n) :
    n.channel ≠ .apns := by
  unfold healthAlertNotice at h
  dsimp only at h
  split at h
  · cases h
    nofun
  · split at h
    · cases h
    · cases h
      nofun
  · cases h
    nofun

theorem lockOverriddenNotices_toDevice {id priorUserId : ℕ} {ref managerFirstName : String}
    {notices : List Notice}
    (h : lockOverriddenNotices d T id priorUserId ref managerFirstName = some notices) :
    AllToDevice T notices := by
  unfold lockOverriddenNotices at h
  split at h
  · cases h
    exact allToDevice_nil
  · dsimp only at h
    split_ifs at h
    · cases h
      exact allToDevice_nil
    · exact allToDevice_rendered (fun _ => by nofun) h
    · cases h
      exact allToDevice_nil
    · exact allToDevice_rendered (fun _ => by nofun) h

theorem rejectNotices_toDevice {submission id : ℕ} {appraiserId : Option ℕ}
    {record : NotifiedRecord} {make model : Option String} {rejectionNotes : String}
    {sendBack : Bool} :
    AllToDevice T (rejectNotices submission appraiserId id record make model rejectionNotes
      sendBack) := by
  refine AllToDevice.append ?_ ?_
  · split
    · split_ifs
      · exact allToDevice_one nofun
      · exact allToDevice_nil
    · exact allToDevice_nil
  · split
    · exact allToDevice_one nofun
    · exact allToDevice_nil

/-- Whatever the operation, its pushes name devices of their recipients. -/
theorem run_toDevice {T' : Tables} {now : ℤ} {o : Operation} {notices : List Notice}
    (h : o.run d T now = some (T', notices)) : AllToDevice T notices := by
  replace h := Operation.run_enqueues h
  cases o with
  | recordTransition id target note customer notifyOverride =>
    obtain ⟨record, -, h⟩ := h
    exact transitionNotices_toDevice h
  | applyAssignment id salesRepId =>
    obtain ⟨record, -, rfl⟩ := h
    unfold applyAssignmentNotices
    split
    · exact allToDevice_nil
    · split_ifs
      · exact allToDevice_nil
      · exact assignmentNotices_toDevice
  | submitIntake user referenceNumber make model decision =>
    obtain ⟨record, rfl⟩ := h
    refine AllToDevice.append ?_ (allToDevice_one nofun)
    split
    · exact assignmentNotices_toDevice
    · exact allToDevice_nil
  | reassignRecord id leaving joining =>
    obtain ⟨record, rfl⟩ := h
    exact assignmentNotices_toDevice
  | reject submission appraiserId id make model rejectionNotes sendBack =>
    obtain ⟨record, -, rfl⟩ := h
    exact rejectNotices_toDevice
  | dispatchContract envelopeId customerUser id make model =>
    obtain ⟨record, rfl⟩ := h
    exact allToDevice_one nofun
  | priceChange change managers referenceNumber makeModel approvedPrice proposedPrice changePct =>
    cases h
    exact allToDevice_map fun _ => nofun
  | managementReview submission managers referenceNumber redFlagSummary make model =>
    cases h
    exact allToDevice_map fun _ => nofun
  | submitChangeRequest change requestType customerNotes customerUser id =>
    obtain ⟨record, rfl⟩ := h
    unfold changeRequestNotices
    split
    · exact allToDevice_nil
    · exact allToDevice_one nofun
  | resolveChangeRequest change newStatus requestType notes customerUser id =>
    obtain ⟨record, rfl⟩ := h
    exact allToDevice_one nofun
  | scheduleAppraisal event appraiser id scheduledAt siteAddress =>
    obtain ⟨record, rfl⟩ := h
    unfold appraisalScheduledNotices
    split_ifs
    · exact allToDevice_nil
    · exact allToDevice_one nofun
  | cancelAppraisal event appraiser id scheduledAt siteAddress =>
    obtain ⟨record, rfl⟩ := h
    unfold appraisalCancelledNotices
    split_ifs
    · exact allToDevice_nil
    · exact allToDevice_one nofun
  | cancelAppraisalCustomer event customerUser id scheduledAt =>
    obtain ⟨record, rfl⟩ := h
    unfold customerCancellationNotices
    split_ifs
    · exact allToDevice_nil
    · exact allToDevice_one nofun
  | healthAlert row priorRed seed admins =>
    cases h
    unfold healthAlertNotices
    split_ifs
    · exact allToDevice_nil
    · exact allToDevice_nil
    · exact allToDevice_filterMap fun _ _ => healthAlertNotice_channel
  | requestDeletion user today graceUntil graceUntilDate =>
    cases h
    exact allToDevice_one nofun
  | cancelDeletion user instant =>
    cases h
    exact allToDevice_one nofun
  | exportData job user url =>
    cases h
    exact allToDevice_one nofun
  | confirmSync submission appraiserId =>
    cases h
    unfold syncConfirmationNotices
    split
    · exact allToDevice_nil
    · exact allToDevice_pushes fun device => ⟨rfl, rfl, rfl, rfl⟩
  | failSync submission appraiserId reason =>
    cases h
    unfold syncFailedNotices
    split
    · exact allToDevice_nil
    · exact allToDevice_pushes fun device => ⟨rfl, rfl, rfl, rfl⟩
  | overrideLock id priorUserId ref managerFirstName => exact lockOverriddenNotices_toDevice h

/-! ## What the queue keeps -/

/-- What the workers leave alone of a job. -/
def content (j : Job) : Option ℕ × String × Payload := (j.userId, j.channel, j.payload)

/-- The table holds the same recipients and payloads, row by row. -/
def SameContent (q q' : Queue) : Prop :=
  ∀ id, (q'.jobs.get? id).map content = (q.jobs.get? id).map content

theorem content_modify {jobs : Store Job} {id : ℕ} {f : Job → Job}
    (hf : ∀ j, content (f j) = content j) (k : ℕ) :
    ((jobs.modify id f).get? k).map content = (jobs.get? k).map content := by
  rw [Store.get?_modify]
  split_ifs
  · rw [Option.map_map]
    exact congrArg (Option.map · (jobs.get? k)) (funext hf)
  · rfl

theorem sameContent_commit (q : Queue) (c : ℕ) : SameContent q (queueStep q (.commit c)) := by
  intro id
  simp only [queueStep]
  split
  · next ids _ =>
    show ((markProcessing q.jobs ids).get? id).map content = _
    rw [get?_markProcessing]
    split_ifs
    · rw [Option.map_map]
      rfl
    · rfl
  · rfl

theorem sameContent_process (q : Queue) (c : ℕ) (now : ℤ) (o : Outcome) :
    SameContent q (queueStep q (.process c now o)) := by
  intro id
  simp only [queueStep]
  split
  · next jid job rest _ =>
    show ((writeBack q.jobs jid (processJob now o job)).get? id).map content = _
    unfold writeBack
    apply content_modify
    intro row
    rfl
  · rfl

theorem sameContent_worker (q : Queue) (move : WorkerMove) :
    SameContent q (workerStep q (move.op d q)) := by
  intro id
  cases move with
  | select now limit => rfl
  | commit c => exact sameContent_commit q c id
  | abort c =>
    simp only [WorkerMove.op, workerStep, queueStep]
    split <;> rfl
  | process c now sent => exact sameContent_process q c now _ id
  | claimLost c =>
    simp only [WorkerMove.op, workerStep]
    split
    · exact sameContent_commit q c id
    · rfl
  | outcomeRaised c =>
    simp only [WorkerMove.op, workerStep]
    split <;> rfl
  | outcomeLost c now sent =>
    simp only [WorkerMove.op, workerStep]
    split
    · exact sameContent_process q c now _ id
    · rfl

/-! ## Pushes -/

/-- The job is a push to a row that is active, of an iOS device of its recipient. -/
def ToActiveRow (tokens : Store DeviceToken) (j : Job) : Prop :=
  ∃ tokenId r, tokens.get? tokenId = some r ∧ r.deletedAt = none ∧ r.platform = "ios" ∧
    j.userId = some r.userId ∧ j.payload.get "token" = .str r.token ∧
    j.payload.get "device_token_id" = .str tokenId.repr ∧
    j.payload.get "device_environment" = .str r.environment

theorem toActiveRow_of_names {tokens : Store DeviceToken} {j : Job} {user : ℕ} {device : Device}
    (hd : device ∈ iosTokens tokens user) (h : Names j.userId j.payload user device) :
    ToActiveRow tokens j := by
  obtain ⟨r, hget, hu, hdel, hplatform, htoken, henv⟩ := mem_iosTokens.mp hd
  refine ⟨device.id, r, hget, hdel, hplatform, ?_, ?_, h.tokenId, ?_⟩
  · rw [h.recipient, hu]
  · rw [h.token, htoken]
  · rw [h.environment, henv]

/-- A job is there already, with its content, or an operation enqueues it now. -/
theorem job_step (o : PushOp) {id : ℕ} {j : Job}
    (hj : (pushStep env s o).box.queue.jobs.get? id = some j) :
    (∃ j₀, s.box.queue.jobs.get? id = some j₀ ∧ content j₀ = content j) ∨
      (s.box.queue.jobs.get? id = none ∧ ∃ now op, o = .operation now op ∧
        (j.channel = Channel.apns.value → ToActiveRow s.tokens j)) := by
  have hsame (q q' : Queue) (h : SameContent q q') (hj : q'.jobs.get? id = some j) :
      ∃ j₀, q.jobs.get? id = some j₀ ∧ content j₀ = content j := by
    have hid := h id
    rw [hj] at hid
    exact Option.map_eq_some_iff.mp hid.symm
  cases o with
  | register now userId platform token environment => exact .inl ⟨j, hj, rfl⟩
  | revoke now userId token => exact .inl ⟨j, hj, rfl⟩
  | revokeAll now userId => exact .inl ⟨j, hj, rfl⟩
  | edit tables => exact .inl ⟨j, hj, rfl⟩
  | worker now move credential reply => exact .inl (hsame _ _ (sameContent_worker _ _) hj)
  | operation now o =>
    simp only [pushStep, outboxStep] at hj
    split at hj
    · next tables notices hrun =>
      rcases enqueueAll_new hj with hold | ⟨hnone, n, hn, rfl, -⟩
      · exact .inl ⟨j, hold, rfl⟩
      · refine .inr ⟨hnone, now, o, rfl, fun hch => ?_⟩
        obtain ⟨user, device, hd, hnames⟩ := run_toDevice hrun n hn (Channel.value_injective hch)
        exact toActiveRow_of_names hd hnames
    · exact .inl ⟨j, hj, rfl⟩

/-- **Every push in the queue was enqueued by an operation at a moment when the token it names
    was registered by its recipient, and neither revoked nor reported dead since**: before that
    operation the queue has no such job, after it the job is there. So nothing is enqueued for a
    token that has ended. -/
theorem pushes_registered (env : PushEnv) (T : Tables) (ops : List PushOp) {id : ℕ} {j : Job}
    (hj : (run (pushStep env) (PushSystem.start T) ops).box.queue.jobs.get? id = some j)
    (hch : j.channel = Channel.apns.value) :
    ∃ pre now o post, ops = pre ++ .operation now o :: post ∧
      (run (pushStep env) (PushSystem.start T) pre).box.queue.jobs.get? id = none ∧
      ((run (pushStep env) (PushSystem.start T) (pre ++ [.operation now o])).box.queue.jobs.get?
        id).map content = some (content j) ∧
      ∃ user token tokenId, j.userId = some user ∧ j.payload.get "token" = .str token ∧
        j.payload.get "device_token_id" = .str (Nat.repr tokenId) ∧
        (∃ r, (run (pushStep env) (PushSystem.start T) pre).tokens.get? tokenId = some r ∧
          r.key = (user, token) ∧ r.platform = "ios") ∧
        Since (pushStep env) (Registers (user, token)) (Ends env (user, token))
          (PushSystem.start T) pre := by
  induction ops using List.reverseRecOn generalizing j with
  | nil =>
    rw [run_nil] at hj
    cases hj
  | append_singleton ops o ih =>
    rw [run_append, run_cons, run_nil] at hj
    rcases job_step o hj with ⟨j₀, hj₀, hsame⟩ | ⟨hnone, now, op, rfl, hpush⟩
    · -- the job was there before the last step
      obtain ⟨hu, hc, hp⟩ : j₀.userId = j.userId ∧ j₀.channel = j.channel ∧
          j₀.payload = j.payload := by simpa [content] using hsame
      obtain ⟨pre, now, op, post, rfl, hrest⟩ := ih hj₀ (hc.trans hch)
      rw [hu, hp, hsame] at hrest
      exact ⟨pre, now, op, post ++ [o], by simp, hrest⟩
    · obtain ⟨tokenId, r, hget, hdel, hplatform, hu, htoken, hid, -⟩ := hpush hch
      have hunique := unique_run env T ops
      have hactive : Active (run (pushStep env) (PushSystem.start T) ops) r.key :=
        ⟨(tokenId, r), (Store.rowOf_eq_some hunique).mpr ⟨hget, rfl⟩, hdel⟩
      have hthere : (run (pushStep env) (PushSystem.start T)
          (ops ++ [.operation now op])).box.queue.jobs.get? id = some j := by
        rw [run_append]
        exact hj
      exact ⟨ops, now, op, [], rfl, hnone, congrArg (Option.map content) hthere, r.userId, r.token,
        tokenId, hu, htoken, hid, ⟨r, hget, rfl, hplatform⟩,
        (active_iff_since env T ops r.key).mp hactive⟩

open Classical in
/-- Ids are written in decimal. -/
noncomputable def exampleEnv : PushEnv where
  deployment := plainDeployment
  uuidOf s := if h : ∃ n : ℕ, n.repr = s then some h.choose else none
  uuidOf_repr n := by
    have hn : ∃ m : ℕ, m.repr = n.repr := ⟨n, rfl⟩
    rw [dif_pos hn, repr_injective hn.choose_spec]

/-- Appraiser 1 registers an iPhone, and submission 7 of theirs is synchronised. -/
def syncedRun : List PushOp :=
  [.register 0 1 "ios" "a1b2" "production", .operation 1 (.confirmSync 7 (some 1))]

/-- The job of that synchronisation. -/
def syncJob : Job :=
  ((syncConfirmationNotices { approvedRecord with
      iosTokens := fun _ => [⟨0, "a1b2", "production", by decide⟩] } 7 (some 1)).map
    fun n => n.request.row 1).headD (Notice.request ⟨.dataExport 0, none, .apns, "", ⟨[]⟩⟩ |>.row 0)

/-- The synchronisation is pushed to the iPhone. -/
theorem syncedRun_registered :
    ∃ pre now o post, syncedRun = pre ++ .operation now o :: post ∧
      (run (pushStep exampleEnv) (PushSystem.start approvedRecord) pre).box.queue.jobs.get? 0 =
        none ∧
      ((run (pushStep exampleEnv) (PushSystem.start approvedRecord)
        (pre ++ [.operation now o])).box.queue.jobs.get? 0).map content = some (content syncJob) ∧
      ∃ user token tokenId, syncJob.userId = some user ∧
        syncJob.payload.get "token" = .str token ∧
        syncJob.payload.get "device_token_id" = .str (Nat.repr tokenId) ∧
        (∃ r, (run (pushStep exampleEnv) (PushSystem.start approvedRecord) pre).tokens.get?
            tokenId = some r ∧
          r.key = (user, token) ∧ r.platform = "ios") ∧
        Since (pushStep exampleEnv) (Registers (user, token)) (Ends exampleEnv (user, token))
          (PushSystem.start approvedRecord) pre :=
  @pushes_registered exampleEnv approvedRecord syncedRun 0 syncJob (by rfl) rfl

end TempleConsign.Push
