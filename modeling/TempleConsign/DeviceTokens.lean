import TempleConsign.Lib.Upsert
import TempleConsign.Notices

/-!
# Device tokens

Model of `src/api/services/device_token_service.py`: one row for each user and token, which a
registration creates or revives and a revocation marks as deleted. No row is ever removed, and
a registration does not change the platform of a row that is there.

Deviations: `registered_at`, which nothing reads, is left out.

Results:
* `rowOf_register`, `rowOf_revoke`: the row of every user and token after a call.
* `mem_iosTokens`: what `tokens_for_user` lists.
-/

namespace TempleConsign.Push

open ServiceLib

/-! ## The service -/

/-- `DeviceToken` (`src/api/database/models.py` line 245); `register` refuses an empty token. -/
structure DeviceToken where
  userId : ℕ
  platform : String
  token : String
  token_ne : token ≠ ""
  environment : String
  lastSeenAt : ℤ
  deletedAt : Option ℤ

/-- The columns of `uq_device_tokens_user_token`. -/
def DeviceToken.key (r : DeviceToken) : ℕ × String := (r.userId, r.token)

/-- `_ALLOWED_PLATFORMS` (line 42). -/
def allowedPlatforms : List String := ["ios", "android"]

/-- `_ALLOWED_ENVIRONMENTS` (line 43). -/
def allowedEnvironments : List String := ["development", "production"]

/-- The `ValueError`s of `register`. -/
inductive RegisterError
  | platform (got : String)
  | environment (got : String)
  | emptyToken

/-- The text of an error; `repr` is Python's. -/
def RegisterError.text (repr : String → String) : RegisterError → String
  | platform got => "platform must be one of ('ios', 'android'), got " ++ repr got
  | environment got =>
    "environment must be one of ('development', 'production'), got " ++ repr got
  | emptyToken => "token must not be empty"

abbrev TokenService (α : Type) := Svc (Store DeviceToken) RegisterError α

/-- The columns of the `DO UPDATE` (line 81). -/
def DeviceToken.revive (now : ℤ) (environment : String) (r : DeviceToken) : DeviceToken :=
  { r with lastSeenAt := now, deletedAt := none, environment := environment }

def DeviceToken.revoke (now : ℤ) (r : DeviceToken) : DeviceToken := { r with deletedAt := some now }

/-- `register` (line 46). -/
def register (now : ℤ) (userId : ℕ) (platform token environment : String) :
    TokenService (Option (ℕ × DeviceToken)) := do
  Svc.require (platform ∈ allowedPlatforms) (.platform platform)
  Svc.require (environment ∈ allowedEnvironments) (.environment environment)
  if h : token ≠ "" then
    modify fun t => t.upsert DeviceToken.key ⟨userId, platform, token, h, environment, now, none⟩
      (DeviceToken.revive now environment)
    let t ← get
    pure (t.rowOf DeviceToken.key (userId, token))
  else throw .emptyToken

/-- The `WHERE` of `revoke` (line 115). -/
def isActiveToken (userId : ℕ) (token : String) (_ : ℕ) (r : DeviceToken) : Bool :=
  r.userId = userId && r.token = token && r.deletedAt.isNone

/-- `revoke` (line 107). -/
def revoke (now : ℤ) (userId : ℕ) (token : String) : TokenService Bool := do
  let t ← get
  let affected := t.select (isActiveToken userId token)
  modify fun t => t.modifyWhere (isActiveToken userId token) (DeviceToken.revoke now)
  pure (!affected.isEmpty)

/-- The `WHERE` of `revoke_all_for_user` (line 179). -/
def isActiveOf (userId : ℕ) (_ : ℕ) (r : DeviceToken) : Bool :=
  r.userId = userId && r.deletedAt.isNone

/-- `revoke_all_for_user` (line 170). -/
def revokeAllForUser (now : ℤ) (userId : ℕ) : TokenService ℕ := do
  let t ← get
  let affected := t.select (isActiveOf userId)
  modify fun t => t.modifyWhere (isActiveOf userId) (DeviceToken.revoke now)
  pure affected.length

/-- `revoke_by_id` (line 156). -/
def revokeById (now : ℤ) (tokenId : ℕ) (t : Store DeviceToken) : Store DeviceToken :=
  t.modifyWhere (fun id r => id = tokenId && r.deletedAt.isNone) (DeviceToken.revoke now)

/-- `tokens_for_user` (line 132). -/
def tokensForUser (t : Store DeviceToken) (userId : ℕ) (platform : Option String) :
    List (ℕ × DeviceToken) :=
  t.select fun id r => isActiveOf userId id r && platform.all fun p => r.platform = p

/-- The rows as the producers of pushes read them. -/
def iosTokens (t : Store DeviceToken) (userId : ℕ) : List Device :=
  (tokensForUser t userId (some "ios")).map fun e =>
    ⟨e.1, e.2.token, e.2.environment, e.2.token_ne⟩

/-! ## The rows after a call -/

/-- The arguments that `register` accepts. -/
def Registrable (platform token environment : String) : Prop :=
  platform ∈ allowedPlatforms ∧ environment ∈ allowedEnvironments ∧ token ≠ ""

instance (platform token environment : String) :
    Decidable (Registrable platform token environment) := inferInstanceAs (Decidable (_ ∧ _))

/-- One row for each user and token. -/
abbrev UniqueTokens (t : Store DeviceToken) : Prop := Store.Keyed DeviceToken.key t

variable {t : Store DeviceToken} {now : ℤ} {userId : ℕ} {platform token environment : String}
  {k : ℕ × String}

/-- The table after a call in a transaction of its own. -/
def afterCall {α : Type} (m : TokenService α) (t : Store DeviceToken) : Store DeviceToken :=
  (Svc.request (fun before _ => before) m t).2

theorem key_revive (r : DeviceToken) : (r.revive now environment).key = r.key := rfl

theorem key_revoke (r : DeviceToken) : (r.revoke now).key = r.key := rfl

/-- A refused registration changes nothing, an accepted one is an upsert. -/
theorem afterCall_register (t : Store DeviceToken) :
    afterCall (register now userId platform token environment) t =
      if h : Registrable platform token environment then
        t.upsert DeviceToken.key ⟨userId, platform, token, h.2.2, environment, now, none⟩
          (DeviceToken.revive now environment)
      else t := by
  unfold afterCall Svc.request register
  by_cases hp : platform ∈ allowedPlatforms
  · by_cases he : environment ∈ allowedEnvironments
    · by_cases ht : token ≠ ""
      · have hok : Registrable platform token environment := ⟨hp, he, ht⟩
        rw [dif_pos hok]
        simp only [Svc.exec_bind, Svc.exec_require, if_pos hp, if_pos he, dif_pos ht,
          Svc.exec_modify, Svc.exec_get, Svc.exec_pure]
      · have hno : ¬ Registrable platform token environment := fun h => ht h.2.2
        rw [dif_neg hno]
        simp only [Svc.exec_bind, Svc.exec_require, if_pos hp, if_pos he, dif_neg ht,
          Svc.exec_throw]
    · have hno : ¬ Registrable platform token environment := fun h => he h.2.1
      rw [dif_neg hno]
      simp only [Svc.exec_bind, Svc.exec_require, if_pos hp, if_neg he]
  · have hno : ¬ Registrable platform token environment := fun h => hp h.1
    rw [dif_neg hno]
    simp only [Svc.exec_bind, Svc.exec_require, if_neg hp]

theorem afterCall_revoke (t : Store DeviceToken) :
    afterCall (revoke now userId token) t =
      t.modifyWhere (isActiveToken userId token) (DeviceToken.revoke now) := by
  unfold afterCall Svc.request revoke
  simp only [Svc.exec_bind, Svc.exec_get, Svc.exec_modify, Svc.exec_pure]

theorem afterCall_revokeAllForUser (t : Store DeviceToken) :
    afterCall (revokeAllForUser now userId) t =
      t.modifyWhere (isActiveOf userId) (DeviceToken.revoke now) := by
  unfold afterCall Svc.request revokeAllForUser
  simp only [Svc.exec_bind, Svc.exec_get, Svc.exec_modify, Svc.exec_pure]

theorem UniqueTokens.register (h : UniqueTokens t) :
    UniqueTokens (afterCall (register now userId platform token environment) t) := by
  rw [afterCall_register]
  split_ifs
  · exact Store.Keyed.upsert h key_revive _
  · exact h

/-- The row of a user and token after a registration. -/
theorem rowOf_register (h : UniqueTokens t) (hok : Registrable platform token environment) :
    (afterCall (register now userId platform token environment) t).rowOf DeviceToken.key k =
      if k = (userId, token) then
        some ((t.rowOf DeviceToken.key k).elim
          (t.next, ⟨userId, platform, token, hok.2.2, environment, now, none⟩)
          fun e => (e.1, e.2.revive now environment))
      else t.rowOf DeviceToken.key k := by
  rw [afterCall_register, dif_pos hok]
  exact Store.rowOf_upsert h key_revive

/-- A revocation of some rows marks the active ones of them. -/
theorem rowOf_revoke (h : UniqueTokens t) (now : ℤ) (p : ℕ → DeviceToken → Bool) :
    (t.modifyWhere p (DeviceToken.revoke now)).rowOf DeviceToken.key k =
      (t.rowOf DeviceToken.key k).map fun e => (e.1, if p e.1 e.2 then e.2.revoke now else e.2) :=
  Store.rowOf_modifyWhere h key_revoke p

/-- The rows that `tokens_for_user` lists for pushes. -/
theorem mem_iosTokens {device : Device} :
    device ∈ iosTokens t userId ↔
      ∃ r, t.get? device.id = some r ∧ r.userId = userId ∧ r.deletedAt = none ∧
        r.platform = "ios" ∧ r.token = device.token ∧ r.environment = device.environment := by
  unfold iosTokens tokensForUser isActiveOf
  rw [List.mem_map]
  constructor
  · rintro ⟨⟨id, r⟩, he, rfl⟩
    obtain ⟨hget, hp⟩ := Store.mem_select.mp he
    simp only [Bool.and_eq_true, decide_eq_true_eq, Option.isNone_iff_eq_none, Option.all_some]
      at hp
    exact ⟨r, hget, hp.1.1, hp.1.2, hp.2, rfl, rfl⟩
  · rintro ⟨r, hget, hu, hd, hp, ht, henv⟩
    refine ⟨(device.id, r), Store.mem_select.mpr ⟨hget, ?_⟩, ?_⟩
    · simp [hu, hd, hp]
    · cases device
      simp_all

end TempleConsign.Push
