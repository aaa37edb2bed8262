import TempleConsign.DeletionGrace

/-!
# What an erasure leaves behind

The erasure is written twice: in `finalize_deletion_for_user`
(`src/api/services/account_deletion_service.py` line 131) and in the sweep
`fn_delete_expired_accounts` (migration 008, line 145). Both list the same
columns, but not the same null: the service sets the `JSONB` column
`communication_prefs` to `None`, which is stored as the document `null`, where the
sweep writes SQL's `NULL`. The column `customers.invite_email` came with migration
016 and is in neither list; `update_customer` writes it on any customer row.

Results:
* `get?_fnDeleteExpiredAccounts`, `get?_scrubCustomer`: what the two do to the
  customer rows.
* `agrees_iff`: they leave the same rows, up to timestamps, exactly when no
  preferences are stored for the user.
* `clean_iff`: they leave nothing of the person exactly when no invite email is
  stored for the user.
* `prefsStored_step`: every profile of a user who is not erased stores preferences.
* `erasure_complete_iff`: so in every reachable state the erasure of a user who is
  pending deletion is complete, on both paths alike, exactly when the user has no
  profile.
-/

namespace TempleConsign

open ServiceLib

/-! ## Complete erasure -/

/-- No column of the user row identifies the person. -/
structure UserRow.Clean (id : ℕ) (row : UserRow) : Prop where
  email : row.email = scrubbedEmail id
  passwordHash : row.passwordHash = none
  totpSecretEnc : row.totpSecretEnc = none
  firstName : row.details.firstName = "[deleted]"
  lastName : row.details.lastName = ""
  googleId : row.details.googleId = none
  profilePhotoUrl : row.details.profilePhotoUrl = none

/-- No column of the customer row identifies the person. -/
structure CustomerRow.Clean (c : CustomerRow) : Prop where
  submitterName : c.submitterName = "[deleted]"
  businessName : c.businessName = none
  inviteEmail : c.inviteEmail = none
  title : c.title = none
  address : c.addressStreet = none ∧ c.addressCity = none ∧ c.addressState = none ∧
    c.addressZip = none
  phones : c.businessPhone = none ∧ c.businessPhoneExt = none ∧ c.cellPhone = none

/-- Nothing of the person is left in the two rows. -/
def CleanOf (id : ℕ) (db : PersonDb) : Prop :=
  (∃ row, db.user? id = some row ∧ row.Clean id) ∧
    ∀ k c, db.customers.get? k = some c → c.userId = some id → c.Clean

def CustomerRow.untimed (c : CustomerRow) : CustomerRow := { c with deletedAt := none }

/-- The same user row and customer rows, up to timestamps. -/
def SameRows (id : ℕ) (db db' : PersonDb) : Prop :=
  db.user? id = db'.user? id ∧ ∀ k,
    ((db.customers.get? k).filter fun c => c.userId = some id).map CustomerRow.untimed =
      ((db'.customers.get? k).filter fun c => c.userId = some id).map CustomerRow.untimed

/-- The service and the sweep leave the same rows of the user. -/
def ErasureAgrees (db : PersonDb) (id : ℕ) : Prop :=
  ∀ now now', id ∈ db.expired now' → ∃ db', Svc.Returns (finalizeDeletionForUser now id) db () db' ∧
    SameRows id db' (db.fnDeleteExpiredAccounts now')

/-- Both leave nothing of the person. -/
structure ErasureClean (db : PersonDb) (id : ℕ) : Prop where
  finalized : ∀ now, ∃ db', Svc.Returns (finalizeDeletionForUser now id) db () db' ∧ CleanOf id db'
  swept : ∀ now, id ∈ db.expired now → CleanOf id (db.fnDeleteExpiredAccounts now)

/-- They agree, and leave nothing of the person. -/
structure ErasureComplete (db : PersonDb) (id : ℕ) : Prop where
  agrees : ErasureAgrees db id
  clean : ErasureClean db id

/-- `P` of every customer row of the user. -/
def OfCustomers (db : PersonDb) (id : ℕ) (P : CustomerRow → Prop) : Prop :=
  ∀ k c, db.customers.get? k = some c → c.userId = some id → P c

/-- No invite email is stored for the user. -/
def NoInviteEmail (db : PersonDb) (id : ℕ) : Prop :=
  OfCustomers db id fun c => c.inviteEmail = none

/-- No preferences are stored for the user, not even the document `null`. -/
def NoStoredPrefs (db : PersonDb) (id : ℕ) : Prop :=
  OfCustomers db id fun c => c.communicationPrefs = .sqlNull

/-- No customer row is the user's. -/
def NoProfile (db : PersonDb) (id : ℕ) : Prop := OfCustomers db id fun _ => False

/-! ## The customer rows -/

variable {env : PersonEnv} {db db' : PersonDb} {id : ℕ} {now : ℤ}

/-- `f` on the rows of the users `ids`. -/
def CustomerRow.onUsers (ids : List ℕ) (f : CustomerRow → CustomerRow) (c : CustomerRow) :
    CustomerRow :=
  if ∃ id ∈ ids, c.userId = some id then f c else c

/-- The service finds the only row of the user. -/
theorem get?_scrubCustomer {customer : Option (ℕ × CustomerRow)}
    (h : Store.scalarOneOrNone (db.customersOf id) = some customer) (k : ℕ) :
    (db.scrubCustomer now customer).customers.get? k =
      (db.customers.get? k).map (CustomerRow.onUsers [id] (CustomerRow.finalized now)) := by
  have hone (c : CustomerRow) : c.onUsers [id] (CustomerRow.finalized now) =
      if c.userId = some id then c.finalized now else c := by
    simp [CustomerRow.onUsers]
  cases customer with
  | none =>
    have hnone := Store.scalar_select_none_iff.mp h
    show db.customers.get? k = _
    cases hget : db.customers.get? k with
    | none => rfl
    | some c =>
      rw [Option.map_some, hone, if_neg (of_decide_eq_false (hnone k c hget))]
  | some row =>
    obtain ⟨k0, c0⟩ := row
    obtain ⟨⟨hget0, hc0⟩, honly⟩ := Store.scalar_select_some_iff.mp h
    show (db.customers.modify k0 (CustomerRow.finalized now)).get? k = _
    rw [Store.get?_modify]
    cases hget : db.customers.get? k with
    | none => simp
    | some c =>
      rw [Option.map_some, Option.map_some, hone]
      by_cases hk : k = k0
      · subst hk
        rw [hget0] at hget
        cases hget
        rw [if_pos rfl, if_pos (of_decide_eq_true hc0)]
      · have hc : c.userId ≠ some id := fun hc => hk (honly k c hget (decide_eq_true hc))
        rw [if_neg hk, if_neg hc]

/-- The loop of the sweep. -/
theorem get?_fnDeleteExpiredAccounts (now : ℤ) (db : PersonDb) (k : ℕ) :
    (db.fnDeleteExpiredAccounts now).customers.get? k =
      (db.customers.get? k).map
        (CustomerRow.onUsers (db.expired now) (CustomerRow.swept now)) := by
  unfold PersonDb.fnDeleteExpiredAccounts
  generalize db.expired now = ids
  induction ids generalizing db with
  | nil =>
    rw [List.foldl_nil]
    cases db.customers.get? k with
    | none => rfl
    | some c => simp [CustomerRow.onUsers]
  | cons id ids ih =>
    rw [List.foldl_cons, ih]
    simp only [PersonDb.sweepAccount, Store.get?_modifyWhere, Option.map_map]
    congr 1
    funext c
    by_cases hc : c.userId = some id
    · simp only [Function.comp_apply, hc, decide_true, if_true, CustomerRow.onUsers,
        List.mem_cons, exists_eq_or_imp, true_or]
      split_ifs
      · rfl
      · rfl
    · simp [CustomerRow.onUsers, hc]

/-! ## The two paths -/

theorem scrub_user? {row : UserRow} (hrow : db.user? id = some row)
    (customer : Option (ℕ × CustomerRow)) :
    ((db.scrubCustomer now customer).scrubUser id).user? id = some (row.scrubbed id) := by
  rw [user?_scrubUser, if_pos rfl, scrubCustomer_user?, hrow]
  rfl

/-- A user whose account is not deleted, with one customer row at most, can be
    erased by the service. -/
theorem finalize_returns {row : UserRow} (h : OneCustomerPerUser db)
    (hrow : db.user? id = some row) (hst : row.status ≠ .deleted) (now : ℤ) :
    ∃ db', Svc.Returns (finalizeDeletionForUser now id) db () db' ∧
      db'.user? id = some (row.scrubbed id) ∧
      ∀ k, db'.customers.get? k =
        (db.customers.get? k).map (CustomerRow.onUsers [id] (CustomerRow.finalized now)) := by
  obtain ⟨user, hget, rfl⟩ := user?_eq_some hrow
  obtain ⟨customer, hcustomer⟩ := Option.ne_none_iff_exists'.mp (h.scalar id)
  refine ⟨_, returns_finalizeDeletionForUser.mpr
    ⟨user, hget, .inr ⟨hst, customer, hcustomer, rfl⟩⟩, scrub_user? hrow customer, ?_⟩
  exact get?_scrubCustomer hcustomer

theorem swept_user? {row : UserRow} (hrow : db.user? id = some row)
    (hid : id ∈ db.expired now) :
    (db.fnDeleteExpiredAccounts now).user? id = some (row.scrubbed id) := by
  rw [user?_fnDeleteExpiredAccounts, if_pos hid, hrow]
  rfl

theorem mem_expired {row : UserRow} {grace : ℤ} (hrow : db.user? id = some row)
    (hst : row.status = .pendingDeletion) (hgrace : row.deletionGraceUntil = some grace)
    (hnow : grace < now) : id ∈ db.expired now := by
  obtain ⟨user, hget, rfl⟩ := user?_eq_some hrow
  refine List.mem_map.mpr ⟨(id, user), Store.mem_select.mpr ⟨hget, ?_⟩, rfl⟩
  have hst' : user.status = .pendingDeletion := hst
  have hgrace' : db.tokens.deletionGraceUntil id = some grace := hgrace
  simp [hst', hgrace', hnow]

section
variable {ids : List ℕ} {f : CustomerRow → CustomerRow}

theorem onUsers_of_mem (hid : id ∈ ids) {c : CustomerRow} (hc : c.userId = some id) :
    c.onUsers ids f = f c := if_pos ⟨id, hid, hc⟩

theorem onUsers_userId (ids : List ℕ) (hf : ∀ c, (f c).userId = c.userId) (c : CustomerRow) :
    (c.onUsers ids f).userId = c.userId := by
  unfold CustomerRow.onUsers
  split_ifs
  · exact hf c
  · rfl

end

/-- The null of the preferences is the only difference of what the two write. -/
theorem finalized_untimed_iff (now now' : ℤ) (c : CustomerRow) :
    (c.finalized now).untimed = (c.swept now').untimed ↔ c.communicationPrefs = .sqlNull := by
  constructor
  · intro h
    have hprefs : c.communicationPrefs.assign none = .sqlNull :=
      congrArg CustomerRow.communicationPrefs h
    cases hc : c.communicationPrefs with
    | sqlNull => rfl
    | jsonNull =>
      rw [hc] at hprefs
      cases hprefs
    | document prefs =>
      rw [hc] at hprefs
      cases hprefs
  · intro h
    unfold CustomerRow.finalized CustomerRow.swept CustomerRow.untimed
    rw [h]
    rfl

/-- Two updates of the rows of users, seen from one of them. -/
theorem sameRows_iff {db₁ db₂ : PersonDb} {ids₁ ids₂ : List ℕ} {f g : CustomerRow → CustomerRow}
    (huser : db₁.user? id = db₂.user? id) (h₁ : id ∈ ids₁) (h₂ : id ∈ ids₂)
    (hcust₁ : ∀ k, db₁.customers.get? k = (db.customers.get? k).map (CustomerRow.onUsers ids₁ f))
    (hcust₂ : ∀ k, db₂.customers.get? k = (db.customers.get? k).map (CustomerRow.onUsers ids₂ g))
    (hf : ∀ c, (f c).userId = c.userId) (hg : ∀ c, (g c).userId = c.userId) :
    SameRows id db₁ db₂ ↔ OfCustomers db id fun c => (f c).untimed = (g c).untimed := by
  have hview (k : ℕ) (c : CustomerRow) (hget : db.customers.get? k = some c) :
      ((db₁.customers.get? k).filter fun c => c.userId = some id).map CustomerRow.untimed =
        ((db₂.customers.get? k).filter fun c => c.userId = some id).map CustomerRow.untimed ↔
      (c.userId = some id → (f c).untimed = (g c).untimed) := by
    rw [hcust₁, hcust₂, hget]
    simp only [Option.map_some, Option.filter_some, decide_eq_true_eq, onUsers_userId _ hf,
      onUsers_userId _ hg]
    split_ifs with hc
    · simp [onUsers_of_mem h₁ hc, onUsers_of_mem h₂ hc, hc]
    · simp [hc]
  constructor
  · exact fun h k c hget => (hview k c hget).mp (h.2 k)
  · refine fun h => ⟨huser, fun k => ?_⟩
    cases hget : db.customers.get? k with
    | none => rw [hcust₁, hcust₂, hget]; rfl
    | some c => exact (hview k c hget).mpr (h k c hget)

/-- **The service and the sweep leave the same rows exactly when no preferences are
    stored.** -/
theorem agrees_iff {row : UserRow} (h : OneCustomerPerUser db) (hrow : db.user? id = some row)
    (hst : row.status = .pendingDeletion) (hgrace : row.deletionGraceUntil ≠ none) :
    ErasureAgrees db id ↔ NoStoredPrefs db id := by
  have hdel : row.status ≠ .deleted := by
    rw [hst]
    nofun
  have hsame (now now' : ℤ) (hid : id ∈ db.expired now') {db' : PersonDb}
      (huser : db'.user? id = some (row.scrubbed id))
      (hcust : ∀ k, db'.customers.get? k =
        (db.customers.get? k).map (CustomerRow.onUsers [id] (CustomerRow.finalized now))) :
      SameRows id db' (db.fnDeleteExpiredAccounts now') ↔ NoStoredPrefs db id := by
    rw [sameRows_iff (huser.trans (swept_user? hrow hid).symm) (List.mem_singleton_self id) hid
      hcust (get?_fnDeleteExpiredAccounts now' db) (fun _ => rfl) fun _ => rfl]
    simp only [finalized_untimed_iff]
    rfl
  constructor
  · intro hagrees
    obtain ⟨grace, hgrace⟩ := Option.ne_none_iff_exists'.mp hgrace
    have hid : id ∈ db.expired (grace + 1) := mem_expired hrow hst hgrace (by omega)
    obtain ⟨db', hret, hrows⟩ := hagrees 0 (grace + 1) hid
    obtain ⟨db'', hret', huser, hcust⟩ := finalize_returns h hrow hdel 0
    obtain rfl := (hret.unique hret').2
    exact (hsame 0 (grace + 1) hid huser hcust).mp hrows
  · intro hnone now now' hid
    obtain ⟨db', hret, huser, hcust⟩ := finalize_returns h hrow hdel now
    exact ⟨db', hret, (hsame now now' hid huser hcust).mpr hnone⟩

/-! ## What is left -/

/-- Nothing but the invite email. -/
theorem finalized_clean_iff (now : ℤ) (c : CustomerRow) :
    (c.finalized now).Clean ↔ c.inviteEmail = none := by
  constructor
  · exact fun h => h.inviteEmail
  · exact fun h => ⟨rfl, rfl, h, rfl, ⟨rfl, rfl, rfl, rfl⟩, rfl, rfl, rfl⟩

theorem swept_clean_iff (now : ℤ) (c : CustomerRow) :
    (c.swept now).Clean ↔ c.inviteEmail = none := by
  constructor
  · exact fun h => h.inviteEmail
  · exact fun h => ⟨rfl, rfl, h, rfl, ⟨rfl, rfl, rfl, rfl⟩, rfl, rfl, rfl⟩

theorem scrubbed_clean (id : ℕ) (row : UserRow) : (row.scrubbed id).Clean id :=
  ⟨rfl, rfl, rfl, rfl, rfl, rfl, rfl⟩

/-- After either erasure the rows are clean exactly when no invite email was there. -/
theorem cleanOf_iff {ids : List ℕ} {f : CustomerRow → CustomerRow} {row : UserRow}
    (hid : id ∈ ids) (huser : db'.user? id = some (row.scrubbed id))
    (hcust : ∀ k, db'.customers.get? k = (db.customers.get? k).map (CustomerRow.onUsers ids f))
    (hf : ∀ c, (f c).userId = c.userId) (hclean : ∀ c, (f c).Clean ↔ c.inviteEmail = none) :
    CleanOf id db' ↔ NoInviteEmail db id := by
  constructor
  · rintro ⟨-, hrows⟩ k c hget hc
    have hget' : db'.customers.get? k = some (f c) := by
      rw [hcust, hget, Option.map_some, onUsers_of_mem hid hc]
    exact (hclean c).mp (hrows k _ hget' ((hf c).trans hc))
  · refine fun hnone => ⟨⟨_, huser, scrubbed_clean id row⟩, fun k c' hget' hc' => ?_⟩
    rw [hcust] at hget'
    obtain ⟨c, hget, rfl⟩ := Option.map_eq_some_iff.mp hget'
    have hc : c.userId = some id := (onUsers_userId ids hf c).symm.trans hc'
    rw [onUsers_of_mem hid hc]
    exact (hclean c).mpr (hnone k c hget hc)

/-- **The two leave nothing of the person exactly when no invite email is stored.** -/
theorem clean_iff {row : UserRow} (h : OneCustomerPerUser db) (hrow : db.user? id = some row)
    (hst : row.status ≠ .deleted) : ErasureClean db id ↔ NoInviteEmail db id := by
  have hfin := finalize_returns h hrow hst
  constructor
  · intro hclean
    obtain ⟨db', hret, hclean⟩ := hclean.finalized 0
    obtain ⟨db'', hret', huser, hcust⟩ := hfin 0
    obtain rfl := (hret.unique hret').2
    exact (cleanOf_iff (List.mem_singleton_self id) huser hcust (fun _ => rfl)
      (finalized_clean_iff 0)).mp hclean
  · intro hnone
    refine ⟨fun now => ?_, fun now hid => ?_⟩
    · obtain ⟨db', hret, huser, hcust⟩ := hfin now
      exact ⟨db', hret, (cleanOf_iff (List.mem_singleton_self id) huser hcust (fun _ => rfl)
        (finalized_clean_iff now)).mpr hnone⟩
    · exact (cleanOf_iff hid (swept_user? hrow hid) (get?_fnDeleteExpiredAccounts now db)
        (fun _ => rfl) (swept_clean_iff now)).mpr hnone

/-! ## The preferences of a profile -/

/-- The account is erased or deactivated. -/
def UserRow.Gone (row : UserRow) : Prop := row.status = .deleted ∨ row.status = .deactivated

/-- No request brings such an account back. -/
theorem RowChange.gone {op : PersonOp} {row row' : UserRow} (h : RowChange op id row row')
    (hgone : row.Gone) : row'.Gone := by
  have hnot {s : AccountStatus} (hst : row.status = s) (h₁ : s ≠ .deleted)
      (h₂ : s ≠ .deactivated) : False := by
    rcases hgone with h | h
    · exact h₁ (hst.symm.trans h)
    · exact h₂ (hst.symm.trans h)
  cases h with
  | same => exact hgone
  | secondFactor enabled secret signedIn => exact hgone
  | deactivated => exact .inr rfl
  | verified unverified => exact (hnot unverified nofun nofun).elim
  | reset now token newHash status byOp sub kept =>
    rcases kept with rfl | ⟨-, hst | hst⟩
    · exact hgone
    · exact (hnot hst nofun nofun).elim
    · exact (hnot hst nofun nofun).elim
  | emailChanged now token byOp sub => exact hgone
  | requested now signedIn =>
    rcases signedIn with hst | hst
    · exact (hnot hst nofun nofun).elim
    · exact (hnot hst nofun nofun).elim
  | cancelled pending => exact (hnot pending nofun nofun).elim
  | scrubbed => exact .inl rfl

theorem gone_step (env : PersonEnv) (op : PersonOp) {row : UserRow}
    (hrow : db.user? id = some row) (hgone : row.Gone) :
    ∃ row', (personStep env db op).user? id = some row' ∧ row'.Gone := by
  obtain hrel | ⟨hnone, -⟩ := (personStep_change env db op).rows id
  · rw [hrow] at hrel
    cases hrow' : (personStep env db op).user? id with
    | none =>
      rw [hrow'] at hrel
      cases hrel
    | some row' =>
      rw [hrow'] at hrel
      cases hrel with
      | some hchange => exact ⟨row', rfl, hchange.gone hgone⟩
  · rw [hrow] at hnone
    cases hnone

def CustomerRow.StoresPrefs (c : CustomerRow) : Prop :=
  ∃ prefs, c.communicationPrefs = .document prefs

/-- Every customer row of a user stores preferences, unless the account is gone. -/
def PrefsStored (db : PersonDb) : Prop :=
  ∀ k c id, db.customers.get? k = some c → c.userId = some id →
    c.StoresPrefs ∨ ∃ row, db.user? id = some row ∧ row.Gone

/-- A customer row of a user stores preferences, or those of the row in `b`. -/
def PrefsKept (b db : PersonDb) : Prop :=
  ∀ k c, db.customers.get? k = some c → c.userId ≠ none → c.StoresPrefs ∨
    ∃ a, b.customers.get? k = some a ∧ a.userId = c.userId ∧
      a.communicationPrefs = c.communicationPrefs

section
variable {b : PersonDb}

theorem prefsKept_onTokens {α : Type} (m : TokenService α) :
    Svc.Grows (PrefsKept b) (onTokens m) := by
  intro db h
  unfold onTokens
  rw [Svc.exec_zoom]
  exact h

theorem prefsKept_updateDetails (id : ℕ) (f : UserDetails → UserDetails) :
    Svc.Grows (PrefsKept b) (updateDetails id f) :=
  fun _ h => h

theorem PrefsKept.create {c : CustomerRow} (h : PrefsKept b db)
    (hc : c.userId ≠ none → c.StoresPrefs) :
    PrefsKept b { db with customers := db.customers.create c } := by
  intro k a ha hu
  simp only [Store.get?_create] at ha
  split_ifs at ha
  · cases ha
    exact .inl (hc hu)
  · exact h k a ha hu

/-- Updates that leave the preferences, or store some. -/
theorem prefsKept_updateCustomerRow (id : ℕ) {f : CustomerRow → CustomerRow}
    (huser : ∀ c, (f c).userId = c.userId)
    (hprefs : ∀ c, (f c).StoresPrefs ∨ (f c).communicationPrefs = c.communicationPrefs) :
    Svc.Grows (PrefsKept b) (updateCustomerRow id f) := by
  refine Svc.grows_modify fun db h k c hk hu => ?_
  simp only [Store.get?_modify] at hk
  split_ifs at hk
  · obtain ⟨a, ha, rfl⟩ := Option.map_eq_some_iff.mp hk
    rcases hprefs a with hstores | hsame
    · exact .inl hstores
    · rw [huser] at hu ⊢
      rw [hsame]
      rcases h k a ha hu with ⟨prefs, hstored⟩ | hkept
      · exact .inl ⟨prefs, hsame.trans hstored⟩
      · exact .inr hkept
  · exact h k c hk hu

theorem prefsKept_ensureProfileForUser (userId : ℕ) :
    Svc.Grows (PrefsKept b) (ensureProfileForUser userId) := by
  refine Svc.grows_bind Svc.grows_get fun db => Svc.grows_bind (Svc.grows_expect _ _) ?_
  rintro (_ | ⟨id, c⟩)
  · refine Svc.grows_bind (Svc.grows_modify fun db' h => ?_) fun _ => Svc.grows_pure _
    exact h.create fun _ => ⟨{}, rfl⟩
  · exact Svc.grows_pure _

/-- The requests that erase an account. -/
def PersonOp.erases : PersonOp → Bool
  | .finalizeDeletion _ _ | .sweep _ => true
  | _ => false

/-- The proof follows the binds of each service. -/
theorem prefsKept_service (env : PersonEnv) {op : PersonOp} (hop : op.erases = false) :
    Svc.Grows (PrefsKept b) (op.service env) := by
  cases op with
  | finalizeDeletion _ _ | sweep _ => cases hop
  | createWalkin payload actor =>
    refine Svc.grows_bind (Svc.grows_require _ _) fun _ => Svc.grows_bind ?_ fun _ => ?_
    · exact Svc.grows_modify fun db h => h.create fun hu => absurd rfl hu
    · exact prefsKept_onTokens _
  | updateEmailPrefs now token prefs =>
    refine Svc.grows_bind (prefsKept_onTokens _) fun _ =>
      Svc.grows_bind (prefsKept_ensureProfileForUser _) fun _ => ?_
    exact prefsKept_updateCustomerRow _ (fun _ => rfl) fun _ => .inl ⟨prefs, rfl⟩
  | _ =>
    simp only [PersonOp.service, registerUser, TempleConsign.initiateEmailChange,
      TempleConsign.confirmEmailChange, TempleConsign.getProfile, TempleConsign.updateProfile,
      TempleConsign.updateCustomer, TempleConsign.softDeleteCustomerRow, requestAccountDeletion,
      cancelAccountDeletion, currentUser, auditPerson]
    repeat' with_reducible first
      | exact Svc.grows_pure _
      | exact Svc.grows_get
      | exact Svc.grows_require _ _
      | exact Svc.grows_expect _ _
      | exact prefsKept_onTokens _
      | exact prefsKept_updateDetails _ _
      | exact prefsKept_updateCustomerRow _ (fun _ => rfl) fun _ => .inr rfl
      | exact prefsKept_ensureProfileForUser _
      | exact Svc.grows_modify fun _ h => h
      | apply Svc.grows_bind
      | apply Svc.grows_onlyIf
      | split
      | intro _

end

theorem exists_user? {user : Account} (h : db.tokens.account? id = some user) :
    ∃ row, db.user? id = some row := by
  rw [PersonDb.user?, h]
  exact ⟨_, rfl⟩

/-- An erasure of the users `ids`. -/
theorem prefsStored_erase {ids : List ℕ} {f : CustomerRow → CustomerRow} (h : PrefsStored db)
    (hcust : ∀ k, db'.customers.get? k = (db.customers.get? k).map (CustomerRow.onUsers ids f))
    (hf : ∀ c, (f c).userId = c.userId)
    (hids : ∀ id ∈ ids, ∃ row, db'.user? id = some row ∧ row.Gone)
    (hgone : ∀ id row, db.user? id = some row → row.Gone →
      ∃ row', db'.user? id = some row' ∧ row'.Gone) : PrefsStored db' := by
  intro k c' id hget' hc'
  rw [hcust] at hget'
  obtain ⟨c, hget, rfl⟩ := Option.map_eq_some_iff.mp hget'
  rw [onUsers_userId ids hf] at hc'
  by_cases hid : id ∈ ids
  · exact .inr (hids id hid)
  · have hsame : c.onUsers ids f = c := by
      refine if_neg ?_
      rintro ⟨id', hmem, hc⟩
      exact hid (Option.some.inj (hc'.symm.trans hc) ▸ hmem)
    rw [hsame]
    rcases h k c id hget hc' with hstored | ⟨row, hrow, hrowGone⟩
    · exact .inl hstored
    · exact .inr (hgone id row hrow hrowGone)

/-- **Every profile of a user who is not erased stores preferences.** -/
theorem prefsStored_step (env : PersonEnv) (op : PersonOp) (h : PrefsStored db) :
    PrefsStored (personStep env db op) := by
  have hgone : ∀ id row, db.user? id = some row → row.Gone →
      ∃ row', (personStep env db op).user? id = some row' ∧ row'.Gone :=
    fun id row hrow => gone_step env op hrow
  obtain ⟨u, hret⟩ | heq := personStep_cases env db op
  case inr =>
    rw [heq]
    exact h
  cases herases : op.erases with
  | false =>
    have hkept : PrefsKept db (personStep env db op) :=
      (prefsKept_service env herases).returns hret fun k c hget _ => .inr ⟨c, hget, rfl, rfl⟩
    intro k c id hget hc
    rcases hkept k c hget (by simp [hc]) with hstored | ⟨a, ha, hau, hap⟩
    · exact .inl hstored
    · rcases h k a id ha (hau.trans hc) with ⟨prefs, hstored⟩ | ⟨row, hrow, hrowGone⟩
      · exact .inl ⟨prefs, hap.symm.trans hstored⟩
      · exact .inr (hgone id row hrow hrowGone)
  | true =>
    cases op with
    | finalizeDeletion now id =>
      obtain ⟨user, hget, ⟨-, heq⟩ | ⟨-, customer, hcustomer, heq⟩⟩ :=
        returns_finalizeDeletionForUser.mp hret
      · exact heq ▸ h
      · rw [← heq] at hgone ⊢
        refine prefsStored_erase h (get?_scrubCustomer hcustomer) (fun _ => rfl)
          (fun id' hid' => ?_) hgone
        obtain rfl := List.mem_singleton.mp hid'
        obtain ⟨row, hrow⟩ := exists_user? hget
        exact ⟨row.scrubbed id', scrub_user? hrow customer, .inl rfl⟩
    | sweep now =>
      have heq := Svc.returns_modify.mp hret
      rw [← heq] at hgone ⊢
      refine prefsStored_erase h (get?_fnDeleteExpiredAccounts now db) (fun _ => rfl)
        (fun id' hid' => ?_) hgone
      obtain ⟨⟨_, user⟩, hsel, rfl⟩ := List.mem_map.mp hid'
      obtain ⟨row, hrow⟩ := exists_user? (Store.mem_select.mp hsel).1
      exact ⟨row.scrubbed _, swept_user? hrow hid', .inl rfl⟩
    | _ => cases herases

theorem prefsStored_empty : PrefsStored PersonDb.empty := by
  intro k c id hk
  simp [PersonDb.empty] at hk

/-- The preferences of a pending user are missing only with the profile. -/
theorem noStoredPrefs_iff {row : UserRow} (h : PrefsStored db) (hrow : db.user? id = some row)
    (hst : row.status = .pendingDeletion) : NoStoredPrefs db id ↔ NoProfile db id := by
  constructor
  · intro hnone k c hget hc
    rcases h k c id hget hc with ⟨prefs, hstored⟩ | ⟨row', hrow', hgone⟩
    · cases hstored.symm.trans (hnone k c hget hc)
    · obtain rfl := Option.some.inj (hrow.symm.trans hrow')
      rcases hgone with h | h
      · cases hst.symm.trans h
      · cases hst.symm.trans h
  · exact fun hnone k c hget hc => (hnone k c hget hc).elim

/-! ## Main theorem -/

/-- **In every reachable state, for every user who is pending deletion**: the two
    erasures agree exactly when the user has no profile, they leave nothing of the
    person exactly when no invite email is stored, and so the erasure is complete
    exactly when the user has no profile. -/
theorem erasure_complete_iff (env : PersonEnv) (ops : List PersonOp) (id : ℕ) (row : UserRow)
    (hrow : (run (personStep env) PersonDb.empty ops).user? id = some row)
    (hst : row.status = .pendingDeletion) :
    (ErasureAgrees (run (personStep env) PersonDb.empty ops) id ↔
        NoProfile (run (personStep env) PersonDb.empty ops) id) ∧
      (ErasureClean (run (personStep env) PersonDb.empty ops) id ↔
        NoInviteEmail (run (personStep env) PersonDb.empty ops) id) ∧
      (ErasureComplete (run (personStep env) PersonDb.empty ops) id ↔
        NoProfile (run (personStep env) PersonDb.empty ops) id) := by
  have hone : OneCustomerPerUser (run (personStep env) PersonDb.empty ops) :=
    run_induction (fun _ op h => personStep_oneCustomer op h) oneCustomer_empty ops
  have hgrace : PendingHasGrace (run (personStep env) PersonDb.empty ops) :=
    run_induction (fun _ op h => personStep_pendingHasGrace op h) pendingHasGrace_empty ops
  have hstored : PrefsStored (run (personStep env) PersonDb.empty ops) :=
    run_induction (fun _ op h => prefsStored_step env op h) prefsStored_empty ops
  have hdel : row.status ≠ .deleted := by
    rw [hst]
    nofun
  have hagrees := (agrees_iff hone hrow hst (hgrace id row hrow hst)).trans
    (noStoredPrefs_iff hstored hrow hst)
  have hclean := clean_iff hone hrow hdel
  refine ⟨hagrees, hclean, fun h => hagrees.mp h.agrees, fun hnone => ⟨hagrees.mpr hnone, ?_⟩⟩
  exact hclean.mpr fun k c hget hc => (hnone k c hget hc).elim

/-! ## An invite email that stays -/

/-- Ann opens her portal and asks for deletion; before, an admin stored the
    address of her invitation. -/
def inviteRun : List PersonOp :=
  deletionRun.take 3 ++
    [.getProfile (seconds 3) ⟨0, .access, seconds 2 + minutes 15⟩,
      .updateCustomer 0 { inviteEmail := some (some "ann@home.example") } 1,
      .requestDeletion (seconds 4) ⟨0, .access, seconds 2 + minutes 15⟩]

def invitedRow : UserRow :=
  ⟨"ann@example.com", some "right", .pendingDeletion, false, none, some (seconds 4 + days 30),
    ⟨"Ann", "Lee", none, none, some (seconds 4)⟩⟩

theorem invitedRow_reached :
    (run (personStep plainPersonEnv) PersonDb.empty inviteRun).user? 0 = some invitedRow := by
  decide +kernel

theorem inviteEmail_stored :
    ((run (personStep plainPersonEnv) PersonDb.empty inviteRun).customers.get? 0).map
      (fun c => (c.userId, c.inviteEmail)) = some (some 0, some "ann@home.example") := by
  decide +kernel

/-- The two erasures of Ann differ, and both leave her address. -/
theorem erasure_of_invited :
    (ErasureAgrees (run (personStep plainPersonEnv) PersonDb.empty inviteRun) 0 ↔
        NoProfile (run (personStep plainPersonEnv) PersonDb.empty inviteRun) 0) ∧
      (ErasureClean (run (personStep plainPersonEnv) PersonDb.empty inviteRun) 0 ↔
        NoInviteEmail (run (personStep plainPersonEnv) PersonDb.empty inviteRun) 0) ∧
      (ErasureComplete (run (personStep plainPersonEnv) PersonDb.empty inviteRun) 0 ↔
        NoProfile (run (personStep plainPersonEnv) PersonDb.empty inviteRun) 0) :=
  erasure_complete_iff plainPersonEnv inviteRun 0 invitedRow invitedRow_reached rfl

/-- Her row, with her address, is there when she is erased. -/
theorem invite_email_stays : ¬ ∀ (env : PersonEnv) (ops : List PersonOp) (id : ℕ) (row : UserRow),
    (run (personStep env) PersonDb.empty ops).user? id = some row →
    row.status = .pendingDeletion →
    ErasureComplete (run (personStep env) PersonDb.empty ops) id := by
  intro h
  have hcomplete := h plainPersonEnv inviteRun 0 invitedRow invitedRow_reached rfl
  obtain ⟨c, hget, hc⟩ := Option.map_eq_some_iff.mp inviteEmail_stored
  simp only [Prod.mk.injEq] at hc
  have hone : OneCustomerPerUser (run (personStep plainPersonEnv) PersonDb.empty inviteRun) :=
    run_induction (fun _ op h => personStep_oneCustomer op h) oneCustomer_empty inviteRun
  have hnone := (clean_iff hone invitedRow_reached nofun).mp hcomplete.clean 0 c hget hc.1
  rw [hnone] at hc
  cases hc.2

end TempleConsign
