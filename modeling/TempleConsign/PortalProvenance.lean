import TempleConsign.PortalIsolation

/-!
# What a portal shows was submitted

The staff moves a record through its statuses and edits the profile of its owner, but no
request writes the columns that the customer reported, or the owner of a record or the account
of a customer. `create_walkin` (`src/api/services/admin_customer_service.py` line 210) leaves
the account of a walk-in empty until the customer "accepts an invite and registers"; no code
fills it in.

Results:
* `step_frame`: the accounts of the customers and the reports of the records stay, and a new
  record is the one that its owner submits.
* `shown_was_submitted`: a portal shows records that its user submitted, as submitted.
* `walkin_unlinked`: a walk-in customer never gets an account, nor a record.
-/

namespace TempleConsign.Portal

open ServiceLib

variable {t t' : Tables} {userId : ℕ} {user : Account} {d : Draws} {c : CustomerRow}
  {r : RecordRow} {env : Env} {request : Request} {o : Op}

/-! ## What stays -/

/-- Every customer stays, with the same account. -/
def KeepsAccounts (t t' : Tables) : Prop :=
  ∀ c ∈ t.customers, ∃ c' ∈ t'.customers, c'.id = c.id ∧ c'.userId = c.userId

theorem keepsAccounts_refl (t : Tables) : KeepsAccounts t t := fun c hc => ⟨c, hc, rfl, rfl⟩

theorem KeepsAccounts.trans {t'' : Tables} (h : KeepsAccounts t t') (h' : KeepsAccounts t' t'') :
    KeepsAccounts t t'' := by
  intro c hc
  obtain ⟨c', hc', hid, hu⟩ := h c hc
  obtain ⟨c'', hc'', hid', hu'⟩ := h' c' hc'
  exact ⟨c'', hc'', hid'.trans hid, hu'.trans hu⟩

theorem keepsAccounts_addCustomer : KeepsAccounts t (t.addCustomer c) :=
  fun x hx => ⟨x, List.mem_append_left _ hx, rfl, rfl⟩

theorem keepsAccounts_setCustomer {id : ℕ} {f : CustomerRow → CustomerRow}
    (hid : ∀ x, (f x).id = x.id) (huser : ∀ x, (f x).userId = x.userId) :
    KeepsAccounts t (t.setCustomer id f) := by
  intro c hc
  refine ⟨_, List.mem_map_of_mem hc, ?_⟩
  split
  · exact ⟨hid c, huser c⟩
  · exact ⟨rfl, rfl⟩

/-- The record is the earlier one, in another status perhaps. -/
def SameReport (r r' : RecordRow) : Prop :=
  r.id = r'.id ∧ r.customerId = r'.customerId ∧ r.reported = r'.reported

/-- The step is the user's submission of a record. -/
def Submits (env : Env) (userId id : ℕ) (reported : Reported) (o : Op) : Prop :=
  ∃ user d payload, o = .portal user d (.submitIntake payload) ∧ user.id = userId ∧
    d.recordId = id ∧ newReported env d payload = reported

/-- The records stay as reported, but for the one that its owner submits. -/
def KeepsReports (env : Env) (o : Op) (t t' : Tables) : Prop :=
  ∀ r' ∈ t'.records, (∃ r ∈ t.records, SameReport r r') ∨
    ∃ c ∈ t'.customers, c.id = r'.customerId ∧ ∃ u, c.userId = some u ∧
      Submits env u r'.id r'.reported o

theorem keepsReports_of_eq (h : t'.records = t.records) : KeepsReports env o t t' :=
  fun r' hr' => .inl ⟨r', h ▸ hr', rfl, rfl, rfl⟩

theorem keepsReports_setRecords {f : RecordRow → RecordRow} (hf : ∀ r, SameReport r (f r))
    (h : t'.records = t.records.map f) : KeepsReports env o t t' := by
  intro r' hr'
  rw [h] at hr'
  obtain ⟨r, hr, rfl⟩ := List.mem_map.mp hr'
  exact .inl ⟨r, hr, hf r⟩

theorem moved_report {recordId : ℕ} {target : Status} (r : RecordRow) :
    SameReport r (r.moved recordId target) := by
  unfold RecordRow.moved
  split <;> exact ⟨rfl, rfl, rfl⟩

theorem softDeleted_report {id : ℕ} {now : ℤ} (r : RecordRow) :
    SameReport r (r.softDeleted id now) := by
  unfold RecordRow.softDeleted
  split <;> exact ⟨rfl, rfl, rfl⟩

/-- What a step leaves of the accounts and of the reports. -/
def Frame (env : Env) (o : Op) (t t' : Tables) : Prop :=
  KeepsAccounts t t' ∧ KeepsReports env o t t'

theorem frame_refl (t : Tables) : Frame env o t t :=
  ⟨keepsAccounts_refl t, keepsReports_of_eq rfl⟩

theorem frame_setCustomer {id : ℕ} {f : CustomerRow → CustomerRow} (hid : ∀ x, (f x).id = x.id)
    (huser : ∀ x, (f x).userId = x.userId) : Frame env o t (t.setCustomer id f) :=
  ⟨keepsAccounts_setCustomer hid huser, keepsReports_of_eq rfl⟩

theorem HasProfile.keeps {t1 : Tables} (hp : HasProfile userId c t t1) :
    KeepsAccounts t t1 ∧ t1.records = t.records := by
  rcases hp.2 with ⟨-, rfl⟩ | ⟨-, rfl⟩
  · exact ⟨keepsAccounts_refl _, rfl⟩
  · exact ⟨keepsAccounts_addCustomer, rfl⟩

theorem WritesOwn.frame (hw : WritesOwn env d user.id request t t') (h : Valid t) :
    Frame env (.portal user d request) t t' := by
  rcases hw with rfl | ⟨c, t1, hp, hw⟩
  · exact frame_refl t
  obtain ⟨hkeep, hrec⟩ := hp.keeps
  have hc := (hp.valid h).2
  cases hw with
  | nothing => exact ⟨hkeep, keepsReports_of_eq hrec⟩
  | profile _ f hid huser =>
    exact ⟨hkeep.trans (keepsAccounts_setCustomer hid huser), keepsReports_of_eq hrec⟩
  | intake payload reference routing hnew =>
    refine ⟨hkeep, fun r' hr' => ?_⟩
    rcases List.mem_append.mp hr' with hr' | hr'
    · exact .inl ⟨r', hrec ▸ hr', rfl, rfl, rfl⟩
    · rw [List.mem_singleton.mp hr']
      exact .inr ⟨c, hc, rfl, user.id, hp.1, user, d, payload, rfl, rfl, rfl, rfl⟩
  | photo => exact ⟨hkeep, keepsReports_of_eq hrec⟩
  | change => exact ⟨hkeep, keepsReports_of_eq hrec⟩

theorem frame_recordTransition {recordId : ℕ} {target : Status} {changedBy : Option ℕ}
    {note : Option String} {a : Unit}
    (hr : Svc.Returns (recordTransition recordId target changedBy note d) t a t') :
    Frame env o t t' := by
  obtain ⟨e, -, -, rfl⟩ := returns_recordTransition hr
  exact ⟨keepsAccounts_refl t, keepsReports_setRecords moved_report rfl⟩

/-- **No step changes an account or a report**, or adds a record but the one its owner
    submits. -/
theorem step_frame (h : Valid t) : Frame env o t (step env t o) := by
  cases o with
  | portal user d request =>
    exact commit_induction (frame_refl t) fun a t' hr => (request_writes hr).frame h
  | adminUpdate id patch =>
    refine commit_induction (frame_refl t) fun a t' hr => ?_
    rw [← returns_adminUpdateCustomer hr]
    exact frame_setCustomer (fun _ => rfl) fun _ => rfl
  | softDelete id now =>
    refine commit_induction (frame_refl t) fun a t' hr => ?_
    rcases returns_softDeleteCustomer hr with rfl | rfl
    · exact frame_refl t
    · exact ⟨keepsAccounts_setCustomer (f := CustomerRow.softDeleted now) (fun _ => rfl)
        fun _ => rfl, keepsReports_setRecords softDeleted_report rfl⟩
  | walkin d payload =>
    refine commit_induction (frame_refl t) fun a t' hr => ?_
    obtain ⟨c, -, -, rfl⟩ := returns_createWalkin hr
    exact ⟨keepsAccounts_addCustomer, keepsReports_of_eq rfl⟩
  | transition d recordId target changedBy note =>
    exact commit_induction (frame_refl t) fun a t' hr => frame_recordTransition hr
  | resolve d resolver changeId newStatus notes =>
    refine commit_induction (frame_refl t) fun a t' hr => ?_
    obtain ⟨target, notes, x, -, -, rfl | ⟨note, a', hr⟩⟩ := returns_resolveChangeRequest hr
    · exact ⟨keepsAccounts_refl t, keepsReports_of_eq rfl⟩
    · exact frame_recordTransition (t := t.setChange changeId _) hr
  | erase userId now =>
    refine commit_induction (frame_refl t) fun a t' hr => ?_
    rcases returns_finalizeDeletion hr with rfl | ⟨c, -, -, rfl⟩
    · exact frame_refl t
    · exact frame_setCustomer (f := CustomerRow.scrubbed now) (fun _ => rfl) fun _ => rfl
  | category id active => exact ⟨keepsAccounts_refl t, keepsReports_of_eq rfl⟩
  | office routing isUser => exact ⟨keepsAccounts_refl t, keepsReports_of_eq rfl⟩

/-! ## Where the records come from -/

/-- Every record is of a customer with an account, and `G` of the account and the report. -/
def Provenance (G : ℕ → ℕ → Reported → Prop) (t : Tables) : Prop :=
  ∀ r ∈ t.records, ∃ c ∈ t.customers, c.id = r.customerId ∧
    ∃ u, c.userId = some u ∧ G u r.id r.reported

theorem provenance_step {G : ℕ → ℕ → Reported → Prop} (h : Valid t) (hp : Provenance G t) :
    Provenance (fun u id reported => G u id reported ∨ Submits env u id reported o)
      (step env t o) := by
  have hframe : Frame env o t (step env t o) := step_frame h
  obtain ⟨hkeep, hrep⟩ := hframe
  intro r' hr'
  rcases hrep r' hr' with ⟨r, hr, hid, hown, hreported⟩ | ⟨c, hc, hown, u, hu, hsub⟩
  · obtain ⟨c, hc, hcr, u, hu, hg⟩ := hp r hr
    obtain ⟨c', hc', hcid, hcu⟩ := hkeep c hc
    refine ⟨c', hc', hcid.trans (hcr.trans hown), u, hcu.trans hu, .inl ?_⟩
    rw [← hid, ← hreported]
    exact hg
  · exact ⟨c, hc, hown, u, hu, .inr hsub⟩

theorem run_valid (env : Env) (activeCategory : ℕ → Bool) (ops : List Op) :
    Valid (run (step env) (Tables.empty activeCategory) ops) :=
  run_induction (fun _ _ h => valid_step h) (valid_empty activeCategory) ops

/-- Some step of the run is the user's submission of the record. -/
def WasSubmitted (env : Env) (ops : List Op) (userId id : ℕ) (reported : Reported) : Prop :=
  ∃ pre o post, ops = pre ++ o :: post ∧ Submits env userId id reported o

theorem provenance_run (env : Env) (activeCategory : ℕ → Bool) (ops : List Op) :
    Provenance (WasSubmitted env ops) (run (step env) (Tables.empty activeCategory) ops) := by
  induction ops using List.reverseRecOn with
  | nil => exact fun r hr => absurd hr List.not_mem_nil
  | append_singleton ops o ih =>
    rw [run_append, run_cons, run_nil]
    intro r hr
    obtain ⟨c, hc, hown, u, hu, hg⟩ :=
      provenance_step (run_valid env activeCategory ops) ih r hr
    refine ⟨c, hc, hown, u, hu, ?_⟩
    rcases hg with ⟨pre, a, post, rfl, ha⟩ | hsub
    · exact ⟨pre, a, post ++ [o], by simp, ha⟩
    · exact ⟨ops, o, [], rfl, hsub⟩

/-! ## What a portal shows -/

theorem returns_of_commit {α : Type} {m : Service α} {a : α} (h : (commit m t).1 = .ok a) :
    Svc.Returns m t a (commit m t).2 := by
  rcases Svc.request_cases (fun before _ => before) m t with ⟨b, t1, hr, hx⟩ | ⟨e, t1, -, hx⟩
  · rw [commit, hx] at h ⊢
    exact Except.ok.inj h ▸ hr
  · rw [commit, hx] at h
    cases h

/-- The records in an answer. -/
def Answer.shown : Answer → List RecordOut
  | .record r => [r]
  | .records rs => rs
  | .export e => e.records
  | _ => []

/-- The record is one of the user's, as reported. -/
def ShowsOwn (userId : ℕ) (t : Tables) (out : RecordOut) : Prop :=
  ∃ r ∈ t.records, r.id = out.id ∧ r.reported = out.reported ∧
    ∃ c ∈ t.customers, c.userId = some userId ∧ r.customerId = c.id

/-- The answer to a user who has a profile, or has it made. -/
theorem returns_ensure {α : Type} {f : CustomerRow → Service α} {a : α}
    (h : Svc.Returns (ensureProfileForUser user d >>= f) t a t') :
    ∃ c t1, HasProfile user.id c t t1 ∧ Svc.Returns (f c) t1 a t' := by
  obtain ⟨c, t1, hc, h⟩ := Svc.returns_bind.mp h
  exact ⟨c, t1, returns_ensureProfileForUser hc, h⟩

theorem HasProfile.mem {t1 : Tables} (hp : HasProfile userId c t t1) : c ∈ t1.customers := by
  rcases hp.2 with ⟨hc, rfl⟩ | ⟨-, rfl⟩
  · exact hc
  · exact List.mem_append_right _ (List.mem_singleton_self c)

theorem submitIntake_shows {payload : LeadRouting.IntakeSubmission} {a : Answer}
    (h : Svc.Returns (submitIntake env user d payload) t a t') :
    ∀ out ∈ a.shown, ShowsOwn user.id t' out := by
  obtain ⟨r, c, t1, hstored, -, rfl, rfl⟩ := returns_submitIntake.mp h
  obtain ⟨t0, reference, hp, rfl, -, rfl⟩ := returns_storeIntake hstored
  intro out hout
  rw [List.mem_singleton.mp hout]
  exact ⟨_, List.mem_append_right _ (List.mem_singleton_self _), rfl, rfl, c, hp.mem, hp.1, rfl⟩

/-- The rows of the user's profile. -/
theorem own_of_selected {o : Option CustomerRow}
    (h : Svc.Returns (selectCustomer userId) t o t') :
    t = t' ∧ ∀ c, o = some c → c ∈ t.customers ∧ c.userId = some userId := by
  obtain ⟨hrows, rfl⟩ := returns_selectCustomer.mp h
  refine ⟨rfl, fun c hc => ?_⟩
  have hmem : c ∈ t.customers.filter fun c => c.userId = some userId := by
    rw [hrows, hc]
    exact List.mem_singleton_self c
  exact ⟨(List.mem_filter.mp hmem).1, of_decide_eq_true (List.mem_filter.mp hmem).2⟩

theorem showsOwn_listed (hc : c ∈ t.customers) (huser : c.userId = some userId)
    (hr : r ∈ t.records.filter fun r => r.customerId = c.id) {out : RecordOut}
    (hid : r.id = out.id) (hrep : r.reported = out.reported) : ShowsOwn userId t out :=
  ⟨r, (List.mem_filter.mp hr).1, hid, hrep, c, hc, huser,
    of_decide_eq_true (List.mem_filter.mp hr).2⟩

theorem listRecordsForUser_shows {a : Answer}
    (h : Svc.Returns (listRecordsForUser user) t a t') :
    ∀ out ∈ a.shown, ShowsOwn user.id t' out := by
  obtain ⟨o, t1, ho, h⟩ := Svc.returns_bind.mp h
  obtain ⟨rfl, hown⟩ := own_of_selected ho
  cases o with
  | none =>
    rw [← (Svc.returns_pure.mp h).1]
    exact fun out hout => absurd hout List.not_mem_nil
  | some c =>
    obtain ⟨rfl, rfl⟩ := Svc.returns_pure.mp (returns_read_bind.mp h)
    intro out hout
    obtain ⟨r, hr, rfl⟩ := List.mem_map.mp hout
    obtain ⟨hc, huser⟩ := hown c rfl
    exact showsOwn_listed hc huser (List.mem_mergeSort.mp hr) rfl rfl

theorem getEquipment_shows {recordId : ℕ} {a : Answer}
    (h : Svc.Returns (getEquipment user recordId) t a t') :
    ∀ out ∈ a.shown, ShowsOwn user.id t' out := by
  obtain ⟨r, t1, hr, h⟩ := Svc.returns_bind.mp h
  obtain ⟨rfl, hmem, -, c, hc, huser, hown⟩ := returns_getRecordForUser hr
  obtain ⟨rfl, rfl⟩ := Svc.returns_pure.mp (returns_read_bind.mp h)
  intro out hout
  rw [List.mem_singleton.mp hout]
  exact ⟨r, hmem, rfl, rfl, c, hc, huser, hown⟩

theorem gatherUserData_shows {a : Answer} (h : Svc.Returns (gatherUserData user) t a t') :
    ∀ out ∈ a.shown, ShowsOwn user.id t' out := by
  obtain ⟨o, t1, ho, h⟩ := Svc.returns_bind.mp h
  obtain ⟨rfl, hown⟩ := own_of_selected ho
  cases o with
  | none =>
    rw [← (Svc.returns_pure.mp h).1]
    exact fun out hout => absurd hout List.not_mem_nil
  | some c =>
    obtain ⟨rfl, rfl⟩ := Svc.returns_pure.mp (returns_read_bind.mp (returns_read_bind.mp h))
    intro out hout
    obtain ⟨r, hr, rfl⟩ := List.mem_map.mp hout
    obtain ⟨hc, huser⟩ := hown c rfl
    exact showsOwn_listed hc huser (List.mem_mergeSort.mp hr) rfl rfl

/-- No other request shows a record. -/
theorem shows_nothing {a : Answer} (h : a.shown = []) :
    ∀ out ∈ a.shown, ShowsOwn userId t out :=
  fun _ hout => absurd (h ▸ hout) List.not_mem_nil

/-- A request of a portal shows the records of its user, as reported. -/
theorem request_shows {a : Answer} (h : Svc.Returns (request.service env user d) t a t') :
    ∀ out ∈ a.shown, ShowsOwn user.id t' out := by
  cases request with
  | submitIntake payload => exact submitIntake_shows h
  | listEquipment => exact listRecordsForUser_shows h
  | getEquipment recordId => exact getEquipment_shows h
  | dataExport => exact gatherUserData_shows h
  | getProfile =>
    obtain ⟨c, t1, -, h⟩ := returns_ensure h
    exact shows_nothing ((Svc.returns_pure.mp h).1 ▸ rfl)
  | getEmailPrefs =>
    obtain ⟨c, t1, -, h⟩ := returns_ensure h
    exact shows_nothing ((Svc.returns_pure.mp h).1 ▸ rfl)
  | patchProfile patch =>
    obtain ⟨c, t1, -, h⟩ := returns_ensure h
    split at h
    · exact shows_nothing ((Svc.returns_pure.mp h).1 ▸ rfl)
    · rw [Svc.returns_require_bind, Svc.returns_modify_bind, Svc.returns_pure] at h
      exact shows_nothing (h.2.1 ▸ rfl)
  | patchEmailPrefs prefs =>
    obtain ⟨c, t1, -, h⟩ := returns_ensure h
    rw [Svc.returns_modify_bind, Svc.returns_pure] at h
    exact shows_nothing (h.1 ▸ rfl)
  | finalizePhoto recordId body =>
    obtain ⟨r, t1, -, h⟩ := Svc.returns_bind.mp h
    obtain ⟨_, t2, -, h⟩ := Svc.returns_bind.mp h
    obtain ⟨_, t3, -, h⟩ := Svc.returns_bind.mp h
    exact shows_nothing ((Svc.returns_pure.mp h).1 ▸ rfl)
  | createChangeRequest recordId requestType customerNotes =>
    obtain ⟨r, t1, -, h⟩ := Svc.returns_bind.mp h
    obtain ⟨kind, -, h⟩ := Svc.returns_expect_bind.mp h
    rw [returns_read_bind, Svc.returns_require_bind, Svc.returns_modify_bind,
      Svc.returns_pure] at h
    exact shows_nothing (h.2.1 ▸ rfl)
  | listChangeRequests recordId =>
    obtain ⟨r, t1, -, h⟩ := Svc.returns_bind.mp h
    exact shows_nothing ((Svc.returns_pure.mp (returns_read_bind.mp h)).1 ▸ rfl)

/-- An answer to a user is of a request that returned it. -/
theorem returns_of_answer {a : Answer} (h : answer env userId t o = some (.ok a)) :
    ∃ user d request, o = .portal user d request ∧ user.id = userId ∧
      Svc.Returns (request.service env user d) t a (step env t o) := by
  cases o with
  | portal user d request =>
    simp only [answer] at h
    split at h
    case isFalse => cases h
    case isTrue huser =>
      exact ⟨user, d, request, rfl, huser, returns_of_commit (Option.some.inj h)⟩
  | _ => cases h

theorem customer_of_key (h : Valid t) {c c' : CustomerRow} (hc : c ∈ t.customers)
    (hc' : c' ∈ t.customers) (hid : c.id = c'.id) : c = c' :=
  List.inj_on_of_nodup_map h.customerKeys hc hc' hid

/-- **What a portal shows was submitted** by its user, as it is shown: no one else reports a
    record, and no one changes a report. -/
theorem shown_was_submitted {activeCategory : ℕ → Bool} {ops : List Op} {a : Answer}
    (h : answer env userId (run (step env) (Tables.empty activeCategory) ops) o = some (.ok a)) :
    ∀ out ∈ a.shown, WasSubmitted env (ops ++ [o]) userId out.id out.reported := by
  have hv := run_valid env activeCategory (ops ++ [o])
  have hprov := provenance_run env activeCategory (ops ++ [o])
  rw [run_append, run_cons, run_nil] at hv hprov
  intro out hout
  obtain ⟨user, d, request, rfl, rfl, hr⟩ := returns_of_answer h
  obtain ⟨r, hmem, hid, hrep, c, hc, huser, hown⟩ := request_shows hr out hout
  obtain ⟨c', hc', hown', u, hu, hsub⟩ := hprov r hmem
  obtain rfl : c = c' := customer_of_key hv hc hc' (hown.symm.trans hown'.symm)
  obtain rfl : user.id = u := Option.some.inj (huser.symm.trans hu)
  rw [← hid, ← hrep]
  exact hsub

/-! ### A submission -/

def caterpillar : LeadRouting.IntakeSubmission where
  make := some "Caterpillar"
  photos := [{ storageKey := "photos/front.jpg" }]

/-- Ada and Max submit, and the staff assigns an appraiser to Ada's record. -/
def assignedRun : List Op :=
  [.portal adaByron (drawsFrom 20) (.submitIntake caterpillar), intakeOf maxBorn,
    .transition (drawsFrom 30) 20 .appraiserAssigned (some 5) none]

/-- Ada's record is shown in its new status, as she submitted it. -/
theorem assignedRun_shown :
    WasSubmitted plainEnv (assignedRun ++ [.portal adaByron (drawsFrom 40) (.getEquipment 20)]) 20
      20 (newReported plainEnv (drawsFrom 20) caterpillar) := by
  have h : answer plainEnv 20 (run (step plainEnv) (Tables.empty fun _ => true) assignedRun)
      (.portal adaByron (drawsFrom 40) (.getEquipment 20)) = some (.ok (.record
        ((run (step plainEnv) (Tables.empty fun _ => true) assignedRun).serialize
          { newRecord plainEnv (drawsFrom 20) caterpillar 20 "20" with
            status := .appraiserAssigned }))) := rfl
  exact shown_was_submitted h _ (List.mem_singleton_self _)

/-! ## Walk-ins -/

theorem keepsAccounts_run (env : Env) {s : Tables} (hs : Valid s) (ops : List Op) :
    KeepsAccounts s (run (step env) s ops) := by
  induction ops using List.reverseRecOn with
  | nil => exact keepsAccounts_refl s
  | append_singleton ops o ih =>
    rw [run_append, run_cons, run_nil]
    have hv : Valid (run (step env) s ops) :=
      run_induction (fun _ _ h => valid_step h) hs ops
    exact ih.trans (step_frame (o := o) hv).1

/-- **A walk-in customer never gets an account, nor a record**, whatever the customers and the
    staff do afterwards. -/
theorem walkin_unlinked {activeCategory : ℕ → Bool} {pre post : List Op}
    (hc : c ∈ (run (step env) (Tables.empty activeCategory) pre).customers)
    (hwalkin : c.userId = none) :
    (∃ c' ∈ (run (step env) (Tables.empty activeCategory) (pre ++ post)).customers,
      c'.id = c.id ∧ c'.userId = none) ∧
    ∀ r ∈ (run (step env) (Tables.empty activeCategory) (pre ++ post)).records,
      r.customerId ≠ c.id := by
  have hkeep := keepsAccounts_run env (run_valid env activeCategory pre) post
  rw [← run_append] at hkeep
  obtain ⟨c', hc', hid, huser⟩ := hkeep c hc
  refine ⟨⟨c', hc', hid, huser.trans hwalkin⟩, fun r hr hown => ?_⟩
  obtain ⟨x, hx, hxr, u, hu, -⟩ := provenance_run env activeCategory (pre ++ post) r hr
  have hxc : x = c' := customer_of_key (run_valid env activeCategory (pre ++ post)) hx hc'
    (hxr.trans (hown.trans hid.symm))
  rw [hxc, huser, hwalkin] at hu
  cases hu

/-! ### A walk-in -/

/-- The staff enters a walk-in. -/
def walkinEntered : Op :=
  .walkin (drawsFrom 10) ⟨"Ada Byron", "ada@byron.uk", fun _ => none⟩

/-- The portal of a user of that name does not take the walk-in over. -/
theorem walkinEntered_unlinked :
    ∃ c' ∈ (run (step plainEnv) (Tables.empty fun _ => true)
      ([walkinEntered] ++ [.portal adaByron (drawsFrom 20) .getProfile])).customers,
      c'.id = 10 ∧ c'.userId = none := by
  obtain ⟨c, hc, hid, huser⟩ : ∃ c ∈ (run (step plainEnv) (Tables.empty fun _ => true)
      [walkinEntered]).customers, c.id = 10 ∧ c.userId = none :=
    ⟨_, List.mem_singleton_self _, rfl, rfl⟩
  rw [← hid]
  exact (walkin_unlinked hc huser).1

end TempleConsign.Portal
