import TempleConsign.DeletionGrace

/-!
# Erasure and the tokens that outlive it

Signed tokens are not stored, so the erasure of an account does not end them.
`verify_2fa`, `verify_email`, `refresh_access_token` and everything behind
`get_current_user` find the account erased and refuse;
`confirm_email_change` and `confirm_password_reset`
(`src/api/services/auth_service.py` lines 523 and 619) look only whether the row
exists, and `recover_2fa` (line 733) neither at the account nor at its second
factor, whose recovery codes the erasure leaves in place.

Results:
* `erasureStep_inv`: the requests that respect an erasure.
* `erasure_final_iff`: a run keeps every erased row scrubbed, and issues it no
  session, exactly when none of the three requests passes its own checks for an
  erased user.
-/

namespace TempleConsign

open ServiceLib

/-! ## Runs -/

/-- `erased` notes the users erased so far, with the number of sessions issued
    until then. -/
structure ErasureDb where
  db : PersonDb
  erased : List (ℕ × ℕ)

def ErasureDb.empty : ErasureDb := ⟨PersonDb.empty, []⟩

def PersonDb.isDeleted (db : PersonDb) (id : ℕ) : Bool :=
  (db.user? id).any fun row => row.status = .deleted

/-- The users that a step from `before` to `after` has erased. -/
def newlyErased (before after : PersonDb) : List (ℕ × ℕ) :=
  ((after.tokens.auth.users.select fun id _ => after.isDeleted id && !before.isDeleted id).map
    Prod.fst).map fun id => (id, after.tokens.issued.length)

/-- One request, with a note of the users it erases. -/
def erasureStep (env : PersonEnv) (s : ErasureDb) (op : PersonOp) : ErasureDb :=
  ⟨personStep env s.db op, s.erased ++ newlyErased s.db (personStep env s.db op)⟩

/-! ## Final erasure -/

/-- No email, name, password or TOTP secret has been written to the row. -/
structure UserRow.Erased (id : ℕ) (row : UserRow) : Prop where
  email : row.email = scrubbedEmail id
  passwordHash : row.passwordHash = none
  totpSecretEnc : row.totpSecretEnc = none
  firstName : row.details.firstName = "[deleted]"
  lastName : row.details.lastName = ""

/-- Every erased row is still scrubbed, and no session was issued to its user. -/
def ErasureFinal (s : ErasureDb) : Prop :=
  ∀ id n, (id, n) ∈ s.erased →
    (∃ row, s.db.user? id = some row ∧ row.Erased id) ∧
      ∀ t ∈ s.db.tokens.issued.drop n, t.userId ≠ id

/-- The checks of `confirm_email_change`. -/
structure CanChangeEmail (db : PersonDb) (now : ℤ) (token : ChangeEmailToken) : Prop where
  decodes : token ∈ db.changeEmail ∧ now < token.exp
  account : ∃ user, db.tokens.account? token.sub = some user
  given : token.newEmail ≠ ""
  free : Store.scalarOneOrNone
    (db.tokens.auth.users.select fun _ u => u.email = token.newEmail) = some none

/-- The request is none of the three that pass their checks for an erased user. -/
def ErasureRespected (env : PersonEnv) (s : ErasureDb) : PersonOp → Prop
  | .confirmEmailChange now token =>
    token.sub ∈ s.erased.map Prod.fst → ¬ CanChangeEmail s.db now token
  | .account ⟨.confirmReset now token _, _⟩ =>
    token.sub ∈ s.erased.map Prod.fst →
      s.db.tokens.decodeToken now token .resetPassword = none
  | .account ⟨.recover2fa now token code, _⟩ =>
    token.sub ∈ s.erased.map Prod.fst →
      ∀ recovery user, ¬ CanRecover env.toTokenEnv s.db.tokens now token code recovery user
  | _ => True

/-! ## The three requests -/

variable {env : PersonEnv} {db db' : PersonDb} {s : ErasureDb} {op : PersonOp} {u : Unit}

/-- The database after the email of `token.sub` has changed. -/
def PersonDb.emailChanged (now : ℤ) (token : ChangeEmailToken) (db : PersonDb) : PersonDb :=
  { db with
    tokens := { db.tokens.withUser token.sub fun u => { u with email := token.newEmail } with
      sessions := db.tokens.sessions.modifyWhere (fun _ s => s.activeOf token.sub)
        (UserSession.revoke now) }.audited "user.email_changed" token.sub }

theorem returns_confirmEmailChange {now : ℤ} {token : ChangeEmailToken} :
    Svc.Returns (confirmEmailChange now token) db u db' ↔
      CanChangeEmail db now token ∧ db.emailChanged now token = db' := by
  simp only [confirmEmailChange, Svc.returns_get_bind, Svc.returns_expect_bind,
    Svc.returns_require_bind, returns_onTokens_bind, returns_auditPerson]
  constructor
  · rintro ⟨hd, user, hget, hne, _, hfree, rfl, _, t1, hmail, _, t2, hrevoke, rfl⟩
    obtain rfl := Svc.returns_modify.mp hmail
    obtain ⟨t, hwrite, rfl⟩ := returns_onSessions.mp hrevoke
    cases hwrite
    exact ⟨⟨hd, ⟨user, hget⟩, hne, hfree⟩, rfl⟩
  · rintro ⟨⟨hd, ⟨user, hget⟩, hne, hfree⟩, rfl⟩
    exact ⟨hd, user, hget, hne, none, hfree, rfl, (), _, rfl, (), _, rfl, rfl⟩

theorem emailChanged_user? {now : ℤ} {token : ChangeEmailToken} {row : UserRow}
    (h : (db.emailChanged now token).user? token.sub = some row) : row.email = token.newEmail := by
  obtain ⟨user, hget, rfl⟩ := user?_eq_some h
  have hget' : (db.tokens.auth.users.modify token.sub fun u =>
      { u with email := token.newEmail }).get? token.sub = some user := hget
  rw [Store.get?_modify_self] at hget'
  obtain ⟨a, -, rfl⟩ := Option.map_eq_some_iff.mp hget'
  rfl

theorem passwordReset_user? {now : ℤ} {token : SignedToken} {newHash : String} {row : UserRow}
    (h : ({ db with tokens := db.tokens.passwordReset now token newHash } : PersonDb).user?
      token.sub = some row) : row.passwordHash = some newHash := by
  obtain ⟨user, hget, rfl⟩ := user?_eq_some h
  have hget' : (db.tokens.auth.users.modify token.sub (Account.withPassword newHash)).get?
      token.sub = some user := hget
  rw [Store.get?_modify_self] at hget'
  obtain ⟨a, -, rfl⟩ := Option.map_eq_some_iff.mp hget'
  rfl

/-! ## The invariant -/

/-- An erased row and the sessions issued since. -/
structure ErasedInv (db : PersonDb) (id n : ℕ) : Prop where
  row : ∃ row, db.user? id = some row ∧ row.Erased id ∧
    (row.status = .deleted ∨ row.status = .deactivated) ∧ row.totpEnabled = false
  bound : n ≤ db.tokens.issued.length
  quiet : ∀ t ∈ db.tokens.issued.drop n, t.userId ≠ id

def ErasureInv (s : ErasureDb) : Prop := ∀ id n, (id, n) ∈ s.erased → ErasedInv s.db id n

theorem ErasureInv.final (h : ErasureInv s) : ErasureFinal s := by
  intro id n hmem
  obtain ⟨⟨row, hrow, he, -⟩, -, hq⟩ := h id n hmem
  exact ⟨⟨row, hrow, he⟩, hq⟩

theorem mem_newlyErased {before after : PersonDb} {id n : ℕ}
    (h : (id, n) ∈ newlyErased before after) :
    after.isDeleted id = true ∧ before.isDeleted id = false ∧ n = after.tokens.issued.length := by
  simp only [newlyErased, List.mem_map, Prod.mk.injEq, Prod.exists] at h
  obtain ⟨_, ⟨_, _, hsel, rfl⟩, rfl, rfl⟩ := h
  have hdel := (Store.mem_select.mp hsel).2
  rw [Bool.and_eq_true, Bool.not_eq_true'] at hdel
  exact ⟨hdel.1, hdel.2, rfl⟩

/-- Only the erasure deletes an account. -/
theorem RowChange.scrubbed_of_deleted {id : ℕ} {row row' : UserRow} (h : RowChange op id row row')
    (hold : row.status ≠ .deleted) (hnew : row'.status = .deleted) : row' = row.scrubbed id := by
  cases h with
  | same => exact absurd hnew hold
  | secondFactor enabled secret signedIn => exact absurd hnew hold
  | deactivated => cases hnew
  | verified unverified => cases hnew
  | reset now token newHash status byOp sub kept =>
    obtain hkept | ⟨hact, -⟩ := kept
    · exact absurd (hkept.symm.trans hnew) hold
    · cases hact.symm.trans hnew
  | emailChanged now token byOp sub => exact absurd hnew hold
  | requested now signedIn => cases hnew
  | cancelled pending => cases hnew
  | scrubbed => rfl

theorem scrubbed_erased (id : ℕ) (row : UserRow) : (row.scrubbed id).Erased id :=
  ⟨rfl, rfl, rfl, rfl, rfl⟩

/-- A user whom the step has erased. -/
theorem erasedInv_new {id n : ℕ} (hchange : PersonChange op db db')
    (h : (id, n) ∈ newlyErased db db') : ErasedInv db' id n := by
  obtain ⟨hnew, hold, rfl⟩ := mem_newlyErased h
  obtain ⟨row', hrow', hst'⟩ := (Option.any_eq_true _ _).mp hnew
  have hst := of_decide_eq_true hst'
  refine ⟨⟨row', hrow', ?_⟩, le_refl _, by simp⟩
  obtain hrel | ⟨-, row, hcreated, hpv⟩ := hchange.rows id
  · rw [hrow'] at hrel
    cases hrow : db.user? id with
    | none =>
      rw [hrow] at hrel
      cases hrel
    | some row =>
      rw [hrow] at hrel
      have hold' : row.status ≠ .deleted := by
        unfold PersonDb.isDeleted at hold
        rw [hrow] at hold
        exact of_decide_eq_false hold
      cases hrel with
      | some hrowchange =>
        rw [hrowchange.scrubbed_of_deleted hold' hst]
        exact ⟨scrubbed_erased id row, .inl rfl, rfl⟩
  · rw [hrow'] at hcreated
    cases hcreated
    exact absurd (hpv.symm.trans hst) nofun

/-- A row that was erased before, when the request respects the erasure. -/
theorem erasedInv_old {id n : ℕ} (hret : Svc.Returns (op.service env) s.db u db')
    (hmem : (id, n) ∈ s.erased) (hc : ErasureRespected env s op) (h : ErasedInv s.db id n) :
    ErasedInv db' id n := by
  obtain ⟨⟨row, hrow, he, hst, htotp⟩, hbound, hquiet⟩ := h
  have hsub : id ∈ s.erased.map Prod.fst := List.mem_map_of_mem hmem
  have hact : ¬ (row.status = .active ∨ row.status = .pendingDeletion) := by
    rcases hst with hst | hst
    · rw [hst]; nofun
    · rw [hst]; nofun
  have hchange := personChange_of_returns hret
  have hrow' : ∃ row', db'.user? id = some row' ∧ row'.Erased id ∧
      (row'.status = .deleted ∨ row'.status = .deactivated) ∧ row'.totpEnabled = false := by
    obtain hrel | ⟨hnone, -⟩ := hchange.rows id
    · rw [hrow] at hrel
      cases hget : db'.user? id with
      | none =>
        rw [hget] at hrel
        cases hrel
      | some row' =>
        rw [hget] at hrel
        refine ⟨row', rfl, ?_⟩
        cases hrel with
        | some hrowchange =>
          cases hrowchange with
          | same => exact ⟨he, hst, htotp⟩
          | secondFactor enabled secret signedIn => exact absurd signedIn hact
          | deactivated => exact ⟨⟨he.1, he.2, he.3, he.4, he.5⟩, .inr rfl, htotp⟩
          | verified unverified =>
            rcases hst with hst | hst
            · cases unverified.symm.trans hst
            · cases unverified.symm.trans hst
          | reset now token newHash status byOp sub kept =>
            subst byOp sub
            obtain ⟨t, hreset, -⟩ := returns_onTokens.mp hret
            have hdecodes := (returns_confirmReset_iff.mp hreset).1.1
            rw [hc hsub] at hdecodes
            cases hdecodes
          | emailChanged now token byOp sub =>
            subst byOp sub
            exact absurd (returns_confirmEmailChange.mp hret).1 (hc hsub)
          | requested now signedIn => exact absurd signedIn hact
          | cancelled pending => exact absurd (.inr pending) hact
          | scrubbed => exact ⟨scrubbed_erased id row, .inl rfl, rfl⟩
    · rw [hrow] at hnone
      cases hnone
  have hsessions : n ≤ db'.tokens.issued.length ∧
      ∀ t ∈ db'.tokens.issued.drop n, t.userId ≠ id := by
    obtain hi | ⟨t, hi, a, hget, hallowed⟩ := hchange.issued
    · rw [hi]
      exact ⟨hbound, hquiet⟩
    · have hne : t.userId ≠ id := by
        rintro rfl
        obtain ⟨user, huser, rfl⟩ := user?_eq_some hrow
        rw [hget] at huser
        cases huser
        rcases hallowed with hactive | henabled | ⟨now, token, code, rfl, hsub'⟩
        · exact hact (.inl hactive)
        · exact absurd (henabled.symm.trans htotp) nofun
        · obtain ⟨_, hrecover, -⟩ := returns_onTokens.mp hret
          obtain ⟨recovery, ⟨user, hcan⟩, -⟩ := returns_recover2fa.mp hrecover
          exact hc (hsub' ▸ hsub) recovery user hcan
      rw [hi]
      refine ⟨by rw [List.length_append]; omega, fun t' ht' => ?_⟩
      rw [List.drop_append_of_le_length hbound, List.mem_append, List.mem_singleton] at ht'
      obtain ht' | rfl := ht'
      · exact hquiet t' ht'
      · exact hne
  exact ⟨hrow', hsessions.1, hsessions.2⟩

/-- The requests that respect the erasures keep every erased row as it is. -/
theorem erasureStep_inv (env : PersonEnv) (s : ErasureDb) (op : PersonOp) (h : ErasureInv s)
    (hc : ErasureRespected env s op) : ErasureInv (erasureStep env s op) := by
  intro id n hmem
  obtain hold | hnew := List.mem_append.mp hmem
  · obtain ⟨u, hret⟩ | heq := personStep_cases env s.db op
    · exact erasedInv_old hret hold hc (h id n hold)
    · show ErasedInv (personStep env s.db op) id n
      rw [heq]
      exact h id n hold
  · exact erasedInv_new (personStep_change env s.db op) hnew

/-! ## The condition is needed -/

theorem erasureStep_of_returns (hret : Svc.Returns (op.service env) s.db u db') :
    (erasureStep env s op).db = db' ∧ ∀ e ∈ s.erased, e ∈ (erasureStep env s op).erased :=
  ⟨personStep_of_returns hret, fun _ he => List.mem_append_left _ he⟩

/-- A step that leaves every erased row scrubbed has respected the erasures. -/
theorem erasureRespected_of_final (h : ErasureInv s) (hf : ErasureFinal (erasureStep env s op)) :
    ErasureRespected env s op := by
  unfold ErasureRespected
  split
  · next now token =>
    rintro hsub hcan
    obtain ⟨⟨id, n⟩, hmem, rfl⟩ := List.mem_map.mp hsub
    have hret : Svc.Returns ((PersonOp.confirmEmailChange now token).service env) s.db ()
      (s.db.emailChanged now token) := returns_confirmEmailChange.mpr ⟨hcan, rfl⟩
    obtain ⟨hdb, hkeep⟩ := erasureStep_of_returns hret
    obtain ⟨⟨row', hrow', he'⟩, -⟩ := hf _ n (hkeep _ hmem)
    rw [hdb] at hrow'
    -- the scrubbed address is taken, by the erased row itself
    have hmail : token.newEmail = scrubbedEmail token.sub :=
      (emailChanged_user? hrow').symm.trans he'.email
    obtain ⟨row, hrow, he, -⟩ := (h _ n hmem).row
    obtain ⟨user, hget, rfl⟩ := user?_eq_some hrow
    have hfree := Store.scalar_select_none_iff.mp hcan.free _ user hget
    exact absurd (he.email.trans hmail.symm) (of_decide_eq_false hfree)
  · next now token newHash _ =>
    intro hsub
    obtain ⟨⟨id, n⟩, hmem, rfl⟩ := List.mem_map.mp hsub
    by_contra hdec
    have hd : s.db.tokens.decodeToken now token .resetPassword = some token := by
      obtain ⟨payload, hp⟩ := Option.ne_none_iff_exists'.mp hdec
      obtain ⟨-, rfl⟩ := decodeToken_eq_some.mp hp
      exact hp
    obtain ⟨row, hrow, -⟩ := (h _ n hmem).row
    obtain ⟨user, hget, -⟩ := user?_eq_some hrow
    have hret : Svc.Returns ((PersonOp.account ⟨.confirmReset now token newHash, rfl⟩).service env)
        s.db () { s.db with tokens := s.db.tokens.passwordReset now token newHash } :=
      returns_onTokens.mpr ⟨_, returns_confirmReset_iff.mpr ⟨⟨hd, user, hget⟩, rfl⟩, rfl⟩
    obtain ⟨hdb, hkeep⟩ := erasureStep_of_returns hret
    obtain ⟨⟨row', hrow', he'⟩, -⟩ := hf _ n (hkeep _ hmem)
    rw [hdb] at hrow'
    cases (passwordReset_user? hrow').symm.trans he'.passwordHash
  · next now token code _ =>
    intro hsub recovery user hcan
    obtain ⟨⟨id, n⟩, hmem, rfl⟩ := List.mem_map.mp hsub
    have hret : Svc.Returns ((PersonOp.account ⟨.recover2fa now token code, rfl⟩).service env)
        s.db () { s.db with tokens :=
          (s.db.tokens.consume now recovery token.sub).loggedIn now token.sub } :=
      returns_onTokens.mpr ⟨_, returns_recover2fa.mpr ⟨recovery, ⟨user, hcan⟩, rfl⟩, rfl⟩
    obtain ⟨hdb, hkeep⟩ := erasureStep_of_returns hret
    obtain ⟨-, hq⟩ := hf _ n (hkeep _ hmem)
    rw [hdb] at hq
    refine hq ⟨token.sub, now, s.db.tokens.account? token.sub⟩ ?_ rfl
    show _ ∈ (s.db.tokens.issued ++ [_]).drop n
    rw [List.drop_append_of_le_length (h _ n hmem).bound]
    exact List.mem_append_right _ (List.mem_singleton_self _)
  · trivial

/-- **A run keeps every erased row scrubbed, and its user without a new session,
    exactly when no email change, password reset or recovery code of an erased
    user passes its own checks.** -/
theorem erasure_final_iff (env : PersonEnv) (ops : List PersonOp) :
    AllStates (erasureStep env) ErasureFinal ErasureDb.empty ops ↔
      AllSteps (erasureStep env) (ErasureRespected env) ErasureDb.empty ops :=
  allStates_iff_of_inv (erasureStep_inv env) (fun _ h => h.final)
    (fun _ _ h hf => erasureRespected_of_final h hf) (fun _ _ h => absurd h List.not_mem_nil) ops

/-- Ann asks for a new email and for deletion; an admin erases her account, and
    then she opens the link in her new inbox. -/
def erasedRun : List PersonOp :=
  deletionRun ++
    [.initiateEmailChange (seconds 4) ⟨0, .access, seconds 2 + minutes 15⟩ "ann@example.org"
        "right",
      .finalizeDeletion (seconds 5) 0,
      .confirmEmailChange (seconds 6) ⟨0, "ann@example.org", seconds 4 + minutes 60⟩]

/-- The erased row holds her new address. -/
theorem erased_row_gets_email :
    ¬ AllStates (erasureStep plainPersonEnv) ErasureFinal ErasureDb.empty erasedRun := by
  intro h
  have hmem : (0, 1) ∈ (run (erasureStep plainPersonEnv) ErasureDb.empty erasedRun).erased := by
    decide +kernel
  have hmail : ((run (erasureStep plainPersonEnv) ErasureDb.empty erasedRun).db.user? 0).map
      UserRow.email = some "ann@example.org" := by
    decide +kernel
  obtain ⟨⟨row, hrow, he⟩, -⟩ := h.last 0 1 hmem
  rw [hrow] at hmail
  have hscrubbed := (Option.some.inj hmail).symm.trans he.email
  exact absurd hscrubbed (by decide)

end TempleConsign
