import TempleConsign.CustomerPortal
import TempleConsign.RoutingRules

/-!
# Portals are isolated but for routing

A customer's portal is answered from the rows of the customer's user: `Tables.restrict` keeps
these rows, and what concerns the user does to them what it does to the whole tables. The one
exception is the routing of an intake, which reads the rules, counters and users that the
others and the staff left. Its decision is not shown, but the assignment is flushed outside of
the `try` (`src/api/services/equipment_service.py` line 208), so that routing can fail an intake
which alone succeeds.

Results:
* `returns_ensureProfileForUser`, `returns_getRecordForUser`, `returns_storeIntake`,
  `returns_routeAndAssign`: what the services below the endpoints found or made.
* `request_writes`: what a request of a portal writes, in five cases.
* `portal_isolated_iff`: the answers to a user are those of the run without the requests of the
  other users and of the staff on their rows and on the tables of routing, exactly when routing
  fails no intake of the user that was stored.
-/

namespace TempleConsign.Portal

open ServiceLib

variable {t t' : Tables} {userId : ℕ} {user : Account} {d : Draws} {c : CustomerRow}
  {r : RecordRow} {env : Env}

/-! ## What the services found -/

theorem scalarOneOrNone_eq_some {α : Type} {l : List α} {o : Option α} :
    Store.scalarOneOrNone l = some o ↔ l = o.toList := by
  match l, o with
  | [], none => simp [Store.scalarOneOrNone]
  | [], some a => simp [Store.scalarOneOrNone]
  | [b], none => simp [Store.scalarOneOrNone]
  | [b], some a => simp [Store.scalarOneOrNone]
  | b :: b' :: l, none => simp [Store.scalarOneOrNone]
  | b :: b' :: l, some a => simp [Store.scalarOneOrNone]

theorem returns_one {α : Type} {l : List α} {o : Option α} :
    Svc.Returns (one l) t o t' ↔ l = o.toList ∧ t = t' := by
  rw [one, Svc.returns_expect, scalarOneOrNone_eq_some]

theorem returns_read_bind {α β : Type} {g : Tables → α} {f : α → Service β} {b : β} :
    Svc.Returns (Svc.read g >>= f) t b t' ↔ Svc.Returns (f (g t)) t b t' := by
  simp [Svc.returns_bind]

theorem returns_selectCustomer {o : Option CustomerRow} :
    Svc.Returns (selectCustomer userId) t o t' ↔
      t.customers.filter (fun c => c.userId = some userId) = o.toList ∧ t = t' := by
  rw [selectCustomer, returns_read_bind, returns_one]

/-- No row has the key of the new customer, or its user. -/
def NewCustomer (t : Tables) (c : CustomerRow) : Prop :=
  ∀ x ∈ t.customers, x.id ≠ c.id ∧ (c.userId.isSome → x.userId ≠ c.userId)

theorem newCustomer_iff : NewCustomer t c ↔ (t.customers.any fun x =>
    decide (x.id = c.id) || (c.userId.isSome && decide (x.userId = c.userId))) = false := by
  simp only [List.any_eq_false, Bool.or_eq_true, Bool.and_eq_true, decide_eq_true_eq, not_or,
    not_and, NewCustomer, ne_eq]

theorem returns_insertCustomer {a : Unit} :
    Svc.Returns (insertCustomer c) t a t' ↔ NewCustomer t c ∧ t.addCustomer c = t' := by
  rw [insertCustomer, returns_read_bind, Svc.returns_require_bind, Svc.returns_modify,
    newCustomer_iff]

/-- The profile of the user was there, or has been made. -/
def HasProfile (userId : ℕ) (c : CustomerRow) (t t' : Tables) : Prop :=
  c.userId = some userId ∧
    ((c ∈ t.customers ∧ t = t') ∨ (NewCustomer t c ∧ t.addCustomer c = t'))

theorem returns_ensureProfileForUser
    (h : Svc.Returns (ensureProfileForUser user d) t c t') : HasProfile user.id c t t' := by
  unfold ensureProfileForUser at h
  obtain ⟨o, t1, ho, h⟩ := Svc.returns_bind.mp h
  obtain ⟨hrows, rfl⟩ := returns_selectCustomer.mp ho
  cases o with
  | some c' =>
    obtain ⟨rfl, rfl⟩ := Svc.returns_pure.mp h
    have hmem : c' ∈ t.customers.filter fun c => c.userId = some user.id := by
      rw [hrows]
      exact List.mem_singleton_self c'
    obtain ⟨hc, huser⟩ := List.mem_filter.mp hmem
    exact ⟨of_decide_eq_true huser, .inl ⟨hc, rfl⟩⟩
  | none =>
    obtain ⟨_, t2, hins, h⟩ := Svc.returns_bind.mp h
    obtain ⟨hnew, rfl⟩ := returns_insertCustomer.mp hins
    obtain ⟨rfl, rfl⟩ := Svc.returns_pure.mp h
    exact ⟨rfl, .inr ⟨hnew, rfl⟩⟩

theorem returns_getRecordForUser {recordId : ℕ}
    (h : Svc.Returns (getRecordForUser user recordId) t r t') :
    t = t' ∧ r ∈ t.records ∧ r.id = recordId ∧
      ∃ c ∈ t.customers, c.userId = some user.id ∧ r.customerId = c.id := by
  unfold getRecordForUser at h
  obtain ⟨o, t1, ho, h⟩ := Svc.returns_bind.mp h
  obtain ⟨hrows, rfl⟩ := returns_selectCustomer.mp ho
  obtain ⟨c, rfl, hfetch⟩ := Svc.returns_expect_bind.mp h
  rw [returns_read_bind] at hfetch
  obtain ⟨o', t2, ho', h⟩ := Svc.returns_bind.mp hfetch
  obtain ⟨hrec, rfl⟩ := returns_one.mp ho'
  obtain ⟨rfl, rfl⟩ := Svc.returns_expect.mp h
  have hc : c ∈ t.customers.filter fun c => c.userId = some user.id := by
    rw [hrows]
    exact List.mem_singleton_self c
  have hr : r ∈ t.records.filter fun r => r.id = recordId && r.customerId = c.id := by
    rw [hrec]
    exact List.mem_singleton_self r
  obtain ⟨hc, huser⟩ := List.mem_filter.mp hc
  obtain ⟨hr, hown⟩ := List.mem_filter.mp hr
  simp only [Bool.and_eq_true, decide_eq_true_eq] at hown
  exact ⟨rfl, hr, hown.1, c, hc, of_decide_eq_true huser, hown.2⟩

/-! ## What a portal writes -/

/-- What a request writes that found or made the profile `c`. -/
inductive Writes (env : Env) (d : Draws) (c : CustomerRow) (t : Tables) :
    Request → Tables → Prop
  | nothing (request : Request) : Writes env d c t request t
  | profile (request : Request) (f : CustomerRow → CustomerRow) (hid : ∀ x, (f x).id = x.id)
      (huser : ∀ x, (f x).userId = x.userId) : Writes env d c t request (t.setCustomer c.id f)
  | intake (payload : LeadRouting.IntakeSubmission) (reference : String)
      (routing : LeadRouting.RoutingDb) (hnew : ∀ x ∈ t.records, x.id ≠ d.recordId) :
      Writes env d c t (.submitIntake payload)
        (((t.addRecord (newRecord env d payload c.id reference)).addPhotos
          (newPhotos env d payload.photos)).setRouting routing)
  | photo (request : Request) (r : RecordRow) (p : PhotoRow) (hr : r ∈ t.records)
      (hown : r.customerId = c.id) (hp : p.recordId = r.id) :
      Writes env d c t request (t.addPhotos [p])
  | change (request : Request) (r : RecordRow) (x : ChangeRow) (hr : r ∈ t.records)
      (hown : r.customerId = c.id) (hnew : ∀ y ∈ t.changes, y.id ≠ x.id)
      (hx : x.recordId = r.id) : Writes env d c t request (t.addChange x)

/-- The request wrote nothing, or rows of the user's profile. -/
def WritesOwn (env : Env) (d : Draws) (userId : ℕ) (request : Request) (t t' : Tables) : Prop :=
  t = t' ∨ ∃ c t1, HasProfile userId c t t1 ∧ Writes env d c t1 request t'

variable {request : Request}

theorem writesOwn_ensure {α : Type} {f : CustomerRow → Service α} {a : α}
    (h : Svc.Returns (ensureProfileForUser user d >>= f) t a t')
    (hf : ∀ c t1, HasProfile user.id c t t1 → Svc.Returns (f c) t1 a t' →
      Writes env d c t1 request t') : WritesOwn env d user.id request t t' := by
  obtain ⟨c, t1, hc, h⟩ := Svc.returns_bind.mp h
  have hprofile := returns_ensureProfileForUser hc
  exact .inr ⟨c, t1, hprofile, hf c t1 hprofile h⟩

theorem apply_id (patch : ProfilePatch) (c : CustomerRow) : (patch.apply c).id = c.id := rfl

theorem apply_userId (patch : ProfilePatch) (c : CustomerRow) :
    (patch.apply c).userId = c.userId := rfl

theorem writesOwn_updateProfile {patch : ProfilePatch} {a : Answer}
    (h : Svc.Returns (updateProfile user d patch) t a t') :
    WritesOwn env d user.id request t t' := by
  refine writesOwn_ensure h fun c t1 _ h => ?_
  split at h
  · obtain ⟨-, rfl⟩ := Svc.returns_pure.mp h
    exact .nothing _
  · rw [Svc.returns_require_bind, Svc.returns_modify_bind, Svc.returns_pure] at h
    obtain ⟨-, -, rfl⟩ := h
    exact .profile _ _ (apply_id patch) (apply_userId patch)

theorem writesOwn_updateEmailPrefs {prefs : EmailPrefs} {a : Answer}
    (h : Svc.Returns (updateEmailPrefs user d prefs) t a t') :
    WritesOwn env d user.id request t t' := by
  refine writesOwn_ensure h fun c t1 _ h => ?_
  rw [Svc.returns_modify_bind, Svc.returns_pure] at h
  obtain ⟨-, rfl⟩ := h
  exact .profile _ _ (fun _ => rfl) fun _ => rfl

theorem returns_insertRecord {a : Unit} :
    Svc.Returns (insertRecord r) t a t' ↔
      (∀ x ∈ t.records, x.id ≠ r.id ∧ x.referenceNumber ≠ r.referenceNumber) ∧
        t.addRecord r = t' := by
  rw [insertRecord, returns_read_bind, Svc.returns_require_bind, Svc.returns_modify]
  refine and_congr_left' ?_
  simp only [List.any_eq_false, Bool.or_eq_true, decide_eq_true_eq, not_or, ne_eq]

theorem returns_insertPhotos {ps : List PhotoRow} {a : Unit} :
    Svc.Returns (insertPhotos ps) t a t' ↔
      (∀ x ∈ t.photos, ∀ p ∈ ps, x.id ≠ p.id) ∧ t.addPhotos ps = t' := by
  rw [insertPhotos, returns_read_bind, Svc.returns_require_bind, Svc.returns_modify]
  refine and_congr_left' ?_
  simp only [List.any_eq_false, List.any_eq_true, decide_eq_true_eq, not_exists, not_and, ne_eq]

theorem newPhotos_recordId {photos : List LeadRouting.IntakePhotoIn} :
    ∀ p ∈ newPhotos env d photos, p.recordId = d.recordId := by
  intro p hp
  obtain ⟨_, -, rfl⟩ := List.mem_map.mp hp
  rfl

/-- What an intake stores: a record of the profile, with its photos. -/
theorem returns_storeIntake {payload : LeadRouting.IntakeSubmission}
    (h : Svc.Returns (storeIntake env user d payload) t (r, c) t') :
    ∃ t1 reference, HasProfile user.id c t t1 ∧ newRecord env d payload c.id reference = r ∧
      (∀ x ∈ t1.records, x.id ≠ d.recordId) ∧
      (t1.addRecord r).addPhotos (newPhotos env d payload.photos) = t' := by
  unfold storeIntake validateCategory at h
  rw [bind_assoc, returns_read_bind, Svc.returns_require_bind] at h
  obtain ⟨c', t1, hc, h⟩ := Svc.returns_bind.mp h.2
  have hprofile := returns_ensureProfileForUser hc
  unfold reserveReferenceNumber at h
  rw [bind_assoc, returns_read_bind, Svc.returns_expect_bind] at h
  obtain ⟨reference, -, h⟩ := h
  obtain ⟨_, t2, hins, h⟩ := Svc.returns_bind.mp h
  obtain ⟨hnew, rfl⟩ := returns_insertRecord.mp hins
  obtain ⟨_, t3, hphotos, h⟩ := Svc.returns_bind.mp h
  obtain ⟨-, rfl⟩ := returns_insertPhotos.mp hphotos
  obtain ⟨hstored, rfl⟩ := Svc.returns_pure.mp h
  cases hstored
  exact ⟨t1, reference, hprofile, rfl, fun x hx => (hnew x hx).1, rfl⟩

variable {customer : LeadRouting.RoutedCustomer}

/-- What the waterfall decides, and what it leaves of its tables. -/
def Tables.route (env : Env) (d : Draws) (customer : LeadRouting.RoutedCustomer) (t : Tables) :
    Except LeadRouting.RoutingError LeadRouting.RoutingDecision × LeadRouting.RoutingDb :=
  Svc.exec (LeadRouting.routeForRecord env.routing (d.activeRules.rows t.routing) customer)
    t.routing

/-- Routing does no harm: it decides for nobody or for a user, or raises without aborting the
    transaction. -/
def RoutesSafely (env : Env) (d : Draws) (customer : LeadRouting.RoutedCustomer) (t : Tables) :
    Prop :=
  match (t.route env d customer).1 with
  | .ok decision => decision.assignedUserId.all t.isUser = true
  | .error e => e ≠ .dataError

/-- Routing returns exactly where it does no harm, and writes nothing but its tables. -/
theorem returns_routeAndAssign {a : Unit} :
    Svc.Returns (routeAndAssign env d customer) t a t' ↔
      RoutesSafely env d customer t ∧ t.setRouting (t.route env d customer).2 = t' := by
  unfold routeAndAssign tryRoute RoutesSafely Tables.route
  rw [bind_assoc, Svc.returns_get_bind]
  rcases Svc.exec (LeadRouting.routeForRecord env.routing (d.activeRules.rows t.routing) customer)
    t.routing with ⟨e | decision, routing⟩
  · -- the error is swallowed, unless it has aborted the transaction
    dsimp only
    rw [bind_assoc, Svc.returns_require_bind, bind_assoc, Svc.returns_modify_bind, pure_bind,
      Svc.returns_pure, and_iff_right rfl]
  · dsimp only
    rw [bind_assoc, Svc.returns_modify_bind, pure_bind, returns_read_bind, Svc.returns_require]
    exact Iff.rfl

theorem returns_submitIntake {payload : LeadRouting.IntakeSubmission} {a : Answer} :
    Svc.Returns (submitIntake env user d payload) t a t' ↔
      ∃ r c t1, Svc.Returns (storeIntake env user d payload) t (r, c) t1 ∧
        RoutesSafely env d (c.routed user) t1 ∧ .record (t'.serialize r) = a ∧
          t1.setRouting (t1.route env d (c.routed user)).2 = t' := by
  unfold submitIntake
  rw [Svc.returns_bind]
  constructor
  · rintro ⟨⟨r, c⟩, t1, hstored, h⟩
    obtain ⟨_, t2, hrouted, h⟩ := Svc.returns_bind.mp h
    obtain ⟨hsafe, rfl⟩ := returns_routeAndAssign.mp hrouted
    obtain ⟨ha, rfl⟩ := Svc.returns_pure.mp (returns_read_bind.mp h)
    exact ⟨r, c, t1, hstored, hsafe, ha, rfl⟩
  · rintro ⟨r, c, t1, hstored, hsafe, rfl, rfl⟩
    refine ⟨(r, c), t1, hstored, Svc.returns_bind.mpr ⟨(), _,
      returns_routeAndAssign.mpr ⟨hsafe, rfl⟩, ?_⟩⟩
    exact returns_read_bind.mpr (Svc.returns_pure.mpr ⟨rfl, rfl⟩)

theorem writesOwn_submitIntake {payload : LeadRouting.IntakeSubmission} {a : Answer}
    (h : Svc.Returns (submitIntake env user d payload) t a t') :
    WritesOwn env d user.id (.submitIntake payload) t t' := by
  obtain ⟨r, c, t1, hstored, -, -, rfl⟩ := returns_submitIntake.mp h
  obtain ⟨t0, reference, hprofile, rfl, hnew, rfl⟩ := returns_storeIntake hstored
  exact .inr ⟨c, t0, hprofile, .intake payload reference _ hnew⟩

/-- The profile that owns the record a user asked for. -/
theorem writesOwn_getRecord {α : Type} {f : RecordRow → Service α} {recordId : ℕ} {a : α}
    (h : Svc.Returns (getRecordForUser user recordId >>= f) t a t')
    (hf : ∀ c r, r ∈ t.records → r.customerId = c.id → Svc.Returns (f r) t a t' →
      Writes env d c t request t') : WritesOwn env d user.id request t t' := by
  obtain ⟨r, t1, hr, h⟩ := Svc.returns_bind.mp h
  obtain ⟨rfl, hmem, -, c, hc, huser, hown⟩ := returns_getRecordForUser hr
  exact .inr ⟨c, t, ⟨huser, .inl ⟨hc, rfl⟩⟩, hf c r hmem hown h⟩

theorem writesOwn_finalizePhoto {recordId : ℕ} {body : FinalizePhotoRequest} {a : Answer}
    (h : Svc.Returns (finalizePhoto env user d recordId body) t a t') :
    WritesOwn env d user.id request t t' := by
  refine writesOwn_getRecord h fun c r hr hown h => ?_
  obtain ⟨_, t1, hlift, h⟩ := Svc.returns_bind.mp h
  obtain ⟨-, rfl⟩ := Svc.returns_lift.mp hlift
  obtain ⟨_, t2, hphoto, h⟩ := Svc.returns_bind.mp h
  obtain ⟨-, rfl⟩ := returns_insertPhotos.mp hphoto
  obtain ⟨-, rfl⟩ := Svc.returns_pure.mp h
  exact .photo _ r _ hr hown rfl

theorem writesOwn_createChangeRequest {recordId : ℕ} {requestType : String}
    {customerNotes : Option String} {a : Answer}
    (h : Svc.Returns (createChangeRequest env user d recordId requestType customerNotes) t a t') :
    WritesOwn env d user.id request t t' := by
  refine writesOwn_getRecord h fun c r hr hown h => ?_
  obtain ⟨kind, -, h⟩ := Svc.returns_expect_bind.mp h
  rw [returns_read_bind, Svc.returns_require_bind, Svc.returns_modify_bind, Svc.returns_pure] at h
  obtain ⟨hclash, -, rfl⟩ := h
  simp only [List.any_eq_false, Bool.or_eq_true, decide_eq_true_eq, not_or] at hclash
  exact .change _ r _ hr hown (fun y hy => (hclash y hy).1) rfl

theorem returns_listing {α β : Type} {m : Service α} {f : α → Service β} {b : β}
    (hm : ∀ a t', Svc.Returns m t a t' → t = t') (hf : ∀ a t', Svc.Returns (f a) t b t' → t = t')
    (h : Svc.Returns (m >>= f) t b t') : t = t' := by
  obtain ⟨a, t1, ha, h⟩ := Svc.returns_bind.mp h
  obtain rfl := hm a t1 ha
  exact hf a t' h

/-- A request of a portal writes nothing, or rows of the profile of its user. -/
theorem request_writes {a : Answer} (h : Svc.Returns (request.service env user d) t a t') :
    WritesOwn env d user.id request t t' := by
  cases request with
  | getProfile =>
    refine writesOwn_ensure h fun c t1 _ h => ?_
    obtain ⟨-, rfl⟩ := Svc.returns_pure.mp h
    exact .nothing _
  | getEmailPrefs =>
    refine writesOwn_ensure h fun c t1 _ h => ?_
    obtain ⟨-, rfl⟩ := Svc.returns_pure.mp h
    exact .nothing _
  | patchProfile patch => exact writesOwn_updateProfile h
  | patchEmailPrefs prefs => exact writesOwn_updateEmailPrefs h
  | submitIntake payload => exact writesOwn_submitIntake h
  | finalizePhoto recordId body => exact writesOwn_finalizePhoto h
  | createChangeRequest recordId requestType customerNotes => exact writesOwn_createChangeRequest h
  | listEquipment =>
    refine .inl (returns_listing (fun o t1 ho => (returns_selectCustomer.mp ho).2) ?_ h)
    rintro (_ | c) t1 h
    · exact (Svc.returns_pure.mp h).2
    · exact (Svc.returns_pure.mp (returns_read_bind.mp h)).2
  | getEquipment recordId =>
    refine .inl (returns_listing (fun r t1 hr => (returns_getRecordForUser hr).1) ?_ h)
    exact fun r t1 h => (Svc.returns_pure.mp (returns_read_bind.mp h)).2
  | listChangeRequests recordId =>
    refine .inl (returns_listing (fun r t1 hr => (returns_getRecordForUser hr).1) ?_ h)
    exact fun r t1 h => (Svc.returns_pure.mp (returns_read_bind.mp h)).2
  | dataExport =>
    refine .inl (returns_listing (fun o t1 ho => (returns_selectCustomer.mp ho).2) ?_ h)
    rintro (_ | c) t1 h
    · exact (Svc.returns_pure.mp h).2
    · exact (Svc.returns_pure.mp (returns_read_bind.mp (returns_read_bind.mp h))).2

/-! ## Keys -/

/-- The primary keys, the unique index on the user and the foreign keys. -/
structure Valid (t : Tables) : Prop where
  customerKeys : (t.customers.map CustomerRow.id).Nodup
  users : ∀ a ∈ t.customers, ∀ b ∈ t.customers, a.userId.isSome → a.userId = b.userId → a.id = b.id
  recordKeys : (t.records.map RecordRow.id).Nodup
  owners : ∀ r ∈ t.records, r.customerId ∈ t.customers.map CustomerRow.id
  photos : ∀ p ∈ t.photos, p.recordId ∈ t.records.map RecordRow.id
  events : ∀ e ∈ t.events, e.recordId ∈ t.records.map RecordRow.id
  changeKeys : (t.changes.map ChangeRow.id).Nodup
  changes : ∀ x ∈ t.changes, x.recordId ∈ t.records.map RecordRow.id

theorem valid_empty (activeCategory : ℕ → Bool) : Valid (Tables.empty activeCategory) := by
  constructor <;> simp [Tables.empty]

theorem mem_map_append {α : Type} {g : α → ℕ} {l l' : List α} {k : ℕ} (h : k ∈ l.map g) :
    k ∈ (l ++ l').map g := by
  rw [List.map_append]
  exact List.mem_append_left _ h

theorem Valid.addCustomer (h : Valid t) (hnew : NewCustomer t c) : Valid (t.addCustomer c) where
  customerKeys := by
    rw [Tables.addCustomer, List.map_append]
    refine nodup_append_one.mpr ⟨h.customerKeys, ?_⟩
    rintro hmem
    obtain ⟨x, hx, hid⟩ := List.mem_map.mp hmem
    exact (hnew x hx).1 hid
  users a ha b hb hsome heq := by
    rcases List.mem_append.mp ha with ha | ha <;> rcases List.mem_append.mp hb with hb | hb
    · exact h.users a ha b hb hsome heq
    · rw [List.mem_singleton.mp hb] at heq
      exact absurd heq ((hnew a ha).2 (heq ▸ hsome))
    · rw [List.mem_singleton.mp ha] at heq hsome
      exact absurd heq.symm ((hnew b hb).2 hsome)
    · rw [List.mem_singleton.mp ha, List.mem_singleton.mp hb]
  recordKeys := h.recordKeys
  owners r hr := mem_map_append (h.owners r hr)
  photos := h.photos
  events := h.events
  changeKeys := h.changeKeys
  changes := h.changes

theorem map_id_setCustomer {id : ℕ} {f : CustomerRow → CustomerRow} (hid : ∀ x, (f x).id = x.id) :
    (t.setCustomer id f).customers.map CustomerRow.id = t.customers.map CustomerRow.id := by
  rw [Tables.setCustomer, List.map_map]
  refine List.map_congr_left fun x _ => ?_
  dsimp only [Function.comp]
  split
  · exact hid x
  · rfl

theorem Valid.setCustomer (h : Valid t) {id : ℕ} {f : CustomerRow → CustomerRow}
    (hid : ∀ x, (f x).id = x.id) (huser : ∀ x, (f x).userId = x.userId) :
    Valid (t.setCustomer id f) where
  customerKeys := by
    rw [map_id_setCustomer hid]
    exact h.customerKeys
  users a ha b hb := by
    obtain ⟨x, hx, rfl⟩ := List.mem_map.mp ha
    obtain ⟨y, hy, rfl⟩ := List.mem_map.mp hb
    have hkeep : ∀ z : CustomerRow, (if z.id = id then f z else z).id = z.id ∧
        (if z.id = id then f z else z).userId = z.userId := by
      intro z
      split
      · exact ⟨hid z, huser z⟩
      · exact ⟨rfl, rfl⟩
    rw [(hkeep x).1, (hkeep x).2, (hkeep y).1, (hkeep y).2]
    exact h.users x hx y hy
  recordKeys := h.recordKeys
  owners r hr := by
    rw [map_id_setCustomer hid]
    exact h.owners r hr
  photos := h.photos
  events := h.events
  changeKeys := h.changeKeys
  changes := h.changes

theorem Valid.addRecord (h : Valid t) (hnew : ∀ x ∈ t.records, x.id ≠ r.id)
    (hown : r.customerId ∈ t.customers.map CustomerRow.id) : Valid (t.addRecord r) where
  customerKeys := h.customerKeys
  users := h.users
  recordKeys := by
    rw [Tables.addRecord, List.map_append]
    refine nodup_append_one.mpr ⟨h.recordKeys, fun hmem => ?_⟩
    obtain ⟨x, hx, hid⟩ := List.mem_map.mp hmem
    exact hnew x hx hid
  owners x hx := by
    rcases List.mem_append.mp hx with hx | hx
    · exact h.owners x hx
    · rw [List.mem_singleton.mp hx]
      exact hown
  photos p hp := mem_map_append (h.photos p hp)
  events e he := mem_map_append (h.events e he)
  changeKeys := h.changeKeys
  changes x hx := mem_map_append (h.changes x hx)

theorem Valid.setRecords (h : Valid t) {f : RecordRow → RecordRow} (hid : ∀ x, (f x).id = x.id)
    (hown : ∀ x, (f x).customerId = x.customerId) : Valid (t.setRecords f) := by
  have hkeys : (t.setRecords f).records.map RecordRow.id = t.records.map RecordRow.id := by
    rw [Tables.setRecords, List.map_map]
    exact List.map_congr_left fun x _ => hid x
  refine ⟨h.customerKeys, h.users, hkeys ▸ h.recordKeys, ?_, hkeys ▸ h.photos, hkeys ▸ h.events,
    h.changeKeys, hkeys ▸ h.changes⟩
  intro r hr
  obtain ⟨x, hx, rfl⟩ := List.mem_map.mp hr
  rw [hown]
  exact h.owners x hx

theorem Valid.addPhotos (h : Valid t) {ps : List PhotoRow}
    (hps : ∀ p ∈ ps, p.recordId ∈ t.records.map RecordRow.id) : Valid (t.addPhotos ps) :=
  ⟨h.customerKeys, h.users, h.recordKeys, h.owners,
    fun p hp => (List.mem_append.mp hp).elim (h.photos p) (hps p), h.events, h.changeKeys,
    h.changes⟩

theorem Valid.addEvent (h : Valid t) {e : EventRow}
    (he : e.recordId ∈ t.records.map RecordRow.id) : Valid (t.addEvent e) :=
  ⟨h.customerKeys, h.users, h.recordKeys, h.owners, h.photos,
    fun x hx => (List.mem_append.mp hx).elim (h.events x)
      fun hx => (List.mem_singleton.mp hx) ▸ he, h.changeKeys, h.changes⟩

theorem Valid.addChange (h : Valid t) {x : ChangeRow} (hnew : ∀ y ∈ t.changes, y.id ≠ x.id)
    (hx : x.recordId ∈ t.records.map RecordRow.id) : Valid (t.addChange x) where
  customerKeys := h.customerKeys
  users := h.users
  recordKeys := h.recordKeys
  owners := h.owners
  photos := h.photos
  events := h.events
  changeKeys := by
    rw [Tables.addChange, List.map_append]
    refine nodup_append_one.mpr ⟨h.changeKeys, fun hmem => ?_⟩
    obtain ⟨y, hy, hid⟩ := List.mem_map.mp hmem
    exact hnew y hy hid
  changes y hy := (List.mem_append.mp hy).elim (h.changes y)
    fun hy => (List.mem_singleton.mp hy) ▸ hx

theorem Valid.setChange (h : Valid t) {id : ℕ} {f : ChangeRow → ChangeRow}
    (hid : ∀ x, (f x).id = x.id) (hrec : ∀ x, (f x).recordId = x.recordId) :
    Valid (t.setChange id f) := by
  have hkeys : (t.setChange id f).changes.map ChangeRow.id = t.changes.map ChangeRow.id := by
    rw [Tables.setChange, List.map_map]
    refine List.map_congr_left fun x _ => ?_
    dsimp only [Function.comp]
    split
    · exact hid x
    · rfl
  refine ⟨h.customerKeys, h.users, h.recordKeys, h.owners, h.photos, h.events,
    hkeys ▸ h.changeKeys, fun y hy => ?_⟩
  obtain ⟨x, hx, rfl⟩ := List.mem_map.mp hy
  split
  · rw [hrec]
    exact h.changes x hx
  · exact h.changes x hx

theorem Valid.setRouting (h : Valid t) (routing : LeadRouting.RoutingDb) :
    Valid (t.setRouting routing) :=
  ⟨h.customerKeys, h.users, h.recordKeys, h.owners, h.photos, h.events, h.changeKeys, h.changes⟩

theorem HasProfile.valid {t1 : Tables} (hp : HasProfile userId c t t1) (h : Valid t) :
    Valid t1 ∧ c ∈ t1.customers := by
  rcases hp.2 with ⟨hc, rfl⟩ | ⟨hnew, rfl⟩
  · exact ⟨h, hc⟩
  · exact ⟨h.addCustomer hnew, List.mem_append_right _ (List.mem_singleton_self c)⟩

theorem Writes.valid (hw : Writes env d c t request t') (h : Valid t) (hc : c ∈ t.customers) :
    Valid t' := by
  cases hw with
  | nothing => exact h
  | profile _ f hid huser => exact h.setCustomer hid huser
  | intake payload reference routing hnew =>
    refine Valid.setRouting ((h.addRecord hnew (List.mem_map_of_mem hc)).addPhotos
      fun p hp => ?_) routing
    rw [newPhotos_recordId p hp]
    exact List.mem_map_of_mem (List.mem_append_right _ (List.mem_singleton_self _))
  | photo _ r p hr hown hp =>
    refine h.addPhotos fun q hq => ?_
    rw [List.mem_singleton.mp hq, hp]
    exact List.mem_map_of_mem hr
  | change _ r x hr hown hnew hx =>
    refine h.addChange hnew ?_
    rw [hx]
    exact List.mem_map_of_mem hr

theorem WritesOwn.valid (hw : WritesOwn env d userId request t t') (h : Valid t) :
    Valid t' := by
  rcases hw with rfl | ⟨c, t1, hp, hw⟩
  · exact h
  · exact hw.valid (hp.valid h).1 (hp.valid h).2

/-! ## The rows of a user -/

def Tables.ownCustomers (t : Tables) (userId : ℕ) : List ℕ :=
  (t.customers.filter fun c => c.userId = some userId).map CustomerRow.id

def Tables.ownRecords (t : Tables) (userId : ℕ) : List ℕ :=
  (t.records.filter fun r => r.customerId ∈ t.ownCustomers userId).map RecordRow.id

/-- The profile of a user, its records and what belongs to them, without a rule to route by. -/
def Tables.restrict (userId : ℕ) (t : Tables) : Tables where
  customers := t.customers.filter fun c => c.userId = some userId
  records := t.records.filter fun r => r.customerId ∈ t.ownCustomers userId
  photos := t.photos.filter fun p => p.recordId ∈ t.ownRecords userId
  events := t.events.filter fun e => e.recordId ∈ t.ownRecords userId
  changes := t.changes.filter fun x => x.recordId ∈ t.ownRecords userId
  activeCategory := t.activeCategory
  routing := noRouting
  isUser := fun _ => false

theorem mem_ownCustomers {k : ℕ} :
    k ∈ t.ownCustomers userId ↔ ∃ c ∈ t.customers, c.userId = some userId ∧ c.id = k := by
  simp [Tables.ownCustomers, and_assoc]

theorem mem_ownRecords {k : ℕ} :
    k ∈ t.ownRecords userId ↔
      ∃ r ∈ t.records, r.customerId ∈ t.ownCustomers userId ∧ r.id = k := by
  simp [Tables.ownRecords, and_assoc]

/-- A profile of the tables is the user's own exactly if it has the user's id. -/
theorem own_customer_iff (h : Valid t) (hc : c ∈ t.customers) :
    c.id ∈ t.ownCustomers userId ↔ c.userId = some userId := by
  rw [mem_ownCustomers]
  constructor
  · rintro ⟨x, hx, huser, hid⟩
    rw [← List.inj_on_of_nodup_map h.customerKeys hx hc hid]
    exact huser
  · exact fun huser => ⟨c, hc, huser, rfl⟩

theorem own_record_iff (h : Valid t) (hr : r ∈ t.records) :
    r.id ∈ t.ownRecords userId ↔ r.customerId ∈ t.ownCustomers userId := by
  rw [mem_ownRecords]
  constructor
  · rintro ⟨x, hx, hown, hid⟩
    rw [← List.inj_on_of_nodup_map h.recordKeys hx hr hid]
    exact hown
  · exact fun hown => ⟨r, hr, hown, rfl⟩

/-- The rows of a user are found by the ids of the profile and of its records. -/
theorem restrict_congr (hcat : t.activeCategory = t'.activeCategory)
    (hcust : t.customers.filter (fun c => c.userId = some userId) =
      t'.customers.filter fun c => c.userId = some userId)
    (hrec : t.records.filter (fun r => r.customerId ∈ t.ownCustomers userId) =
      t'.records.filter fun r => r.customerId ∈ t.ownCustomers userId)
    (hph : t.photos.filter (fun p => p.recordId ∈ t.ownRecords userId) =
      t'.photos.filter fun p => p.recordId ∈ t.ownRecords userId)
    (hev : t.events.filter (fun e => e.recordId ∈ t.ownRecords userId) =
      t'.events.filter fun e => e.recordId ∈ t.ownRecords userId)
    (hch : t.changes.filter (fun x => x.recordId ∈ t.ownRecords userId) =
      t'.changes.filter fun x => x.recordId ∈ t.ownRecords userId) :
    t.restrict userId = t'.restrict userId := by
  have hc : t.ownCustomers userId = t'.ownCustomers userId := by
    rw [Tables.ownCustomers, hcust, Tables.ownCustomers]
  have hr : t.ownRecords userId = t'.ownRecords userId := by
    rw [Tables.ownRecords, hrec, hc, Tables.ownRecords]
  rw [Tables.restrict, Tables.restrict, hcat, hcust, hrec, hph, hev, hch, hc, hr]

/-- A key that no row has does not add to what is found. -/
theorem filter_one_more {α : Type} {l : List α} {g : α → ℕ} (ks : List ℕ) {k : ℕ}
    (h : ∀ a ∈ l, g a ≠ k) : l.filter (fun a => g a ∈ ks ++ [k]) = l.filter fun a => g a ∈ ks :=
  List.filter_congr fun a ha => by simp [h a ha]

theorem restrict_addCustomer (h : Valid t) (hnew : NewCustomer t c) :
    (t.addCustomer c).restrict userId =
      if c.userId = some userId then (t.restrict userId).addCustomer c
      else t.restrict userId := by
  have hno : ∀ r ∈ t.records, r.customerId ≠ c.id := by
    intro r hr heq
    obtain ⟨x, hx, hid⟩ := List.mem_map.mp (h.owners r hr)
    exact (hnew x hx).1 (hid.trans heq)
  by_cases hu : c.userId = some userId
  · have hown : (t.addCustomer c).ownCustomers userId = t.ownCustomers userId ++ [c.id] := by
      simp [Tables.ownCustomers, Tables.addCustomer, List.filter_append, hu]
    have hrec : t.records.filter (fun r => r.customerId ∈ (t.addCustomer c).ownCustomers userId) =
        t.records.filter fun r => r.customerId ∈ t.ownCustomers userId := by
      rw [hown]
      exact filter_one_more (t.ownCustomers userId) hno
    have hrecs : (t.addCustomer c).ownRecords userId = t.ownRecords userId :=
      congrArg (List.map RecordRow.id) hrec
    rw [if_pos hu, Tables.restrict, hrecs]
    simp only [Tables.addCustomer, Tables.restrict, List.filter_append] at hrec ⊢
    rw [hrec]
    simp [hu]
  · rw [if_neg hu]
    have hsame : t.restrict userId = (t.addCustomer c).restrict userId :=
      restrict_congr rfl (by simp [Tables.addCustomer, List.filter_append, hu]) rfl rfl rfl rfl
    exact hsame.symm

theorem filter_map_keep {α : Type} {p : α → Bool} {g : α → α} (hg : ∀ a, p (g a) = p a)
    (l : List α) : (l.map g).filter p = (l.filter p).map g := by
  rw [List.filter_map]
  exact congrArg (List.map g) (List.filter_congr fun a _ => hg a)

theorem restrict_setCustomer {id : ℕ} {f : CustomerRow → CustomerRow}
    (hid : ∀ x, (f x).id = x.id) (huser : ∀ x, (f x).userId = x.userId) :
    (t.setCustomer id f).restrict userId = (t.restrict userId).setCustomer id f := by
  have hcust : (t.setCustomer id f).customers.filter (fun c => c.userId = some userId) =
      (t.customers.filter fun c => c.userId = some userId).map fun c =>
        if c.id = id then f c else c := by
    refine filter_map_keep (fun x => ?_) t.customers
    split
    · rw [huser]
    · rfl
  have hown : (t.setCustomer id f).ownCustomers userId = t.ownCustomers userId := by
    rw [Tables.ownCustomers, hcust, List.map_map, Tables.ownCustomers]
    refine List.map_congr_left fun x _ => ?_
    dsimp only [Function.comp]
    split
    · exact hid x
    · rfl
  have hrecs : (t.setCustomer id f).ownRecords userId = t.ownRecords userId := by
    rw [Tables.ownRecords, hown, Tables.ownRecords]
    rfl
  rw [Tables.restrict, hcust, hown, hrecs]
  rfl

theorem restrict_addRecord (h : Valid t) (hnew : ∀ x ∈ t.records, x.id ≠ r.id) :
    (t.addRecord r).restrict userId =
      if r.customerId ∈ t.ownCustomers userId then (t.restrict userId).addRecord r
      else t.restrict userId := by
  have hne : ∀ k ∈ t.records.map RecordRow.id, k ≠ r.id := by
    intro k hk
    obtain ⟨x, hx, rfl⟩ := List.mem_map.mp hk
    exact hnew x hx
  by_cases hu : r.customerId ∈ t.ownCustomers userId
  · have hrecs : (t.addRecord r).ownRecords userId = t.ownRecords userId ++ [r.id] := by
      have hfilter : (t.records ++ [r]).filter (fun r => r.customerId ∈ t.ownCustomers userId) =
          t.records.filter (fun r => r.customerId ∈ t.ownCustomers userId) ++ [r] := by
        simp [List.filter_append, hu]
      exact (congrArg (List.map RecordRow.id) hfilter).trans (List.map_append ..)
    have hph := filter_one_more (t.ownRecords userId) fun p hp => hne _ (h.photos p hp)
    have hev := filter_one_more (t.ownRecords userId) fun e he => hne _ (h.events e he)
    have hch := filter_one_more (t.ownRecords userId) fun x hx => hne _ (h.changes x hx)
    have hcust : (t.addRecord r).ownCustomers userId = t.ownCustomers userId := rfl
    rw [if_pos hu, Tables.restrict, hrecs, hcust]
    simp only [Tables.addRecord, Tables.restrict, List.filter_append]
    rw [hph, hev, hch]
    simp [hu]
  · rw [if_neg hu]
    have hsame : t.restrict userId = (t.addRecord r).restrict userId := by
      refine restrict_congr rfl rfl ?_ rfl rfl rfl
      simp [Tables.addRecord, List.filter_append, hu]
    exact hsame.symm

theorem restrict_setRecords {f : RecordRow → RecordRow} (hid : ∀ x, (f x).id = x.id)
    (hown : ∀ x, (f x).customerId = x.customerId) :
    (t.setRecords f).restrict userId = (t.restrict userId).setRecords f := by
  have hrec : (t.setRecords f).records.filter (fun r => r.customerId ∈ t.ownCustomers userId) =
      (t.records.filter fun r => r.customerId ∈ t.ownCustomers userId).map f :=
    filter_map_keep (fun x => by rw [hown]) t.records
  have hrecs : (t.setRecords f).ownRecords userId = t.ownRecords userId := by
    have hkeys : ((t.setRecords f).records.filter
          fun r => r.customerId ∈ t.ownCustomers userId).map RecordRow.id =
        (t.records.filter fun r => r.customerId ∈ t.ownCustomers userId).map RecordRow.id := by
      rw [hrec, List.map_map]
      exact List.map_congr_left fun x _ => hid x
    exact hkeys
  have hcust : (t.setRecords f).ownCustomers userId = t.ownCustomers userId := rfl
  rw [Tables.restrict, hrecs, hcust, hrec]
  rfl

theorem restrict_addPhotos {k : ℕ} {ps : List PhotoRow} (hps : ∀ p ∈ ps, p.recordId = k) :
    (t.addPhotos ps).restrict userId =
      if k ∈ t.ownRecords userId then (t.restrict userId).addPhotos ps
      else t.restrict userId := by
  have hrecs : (t.addPhotos ps).ownRecords userId = t.ownRecords userId := rfl
  have hcust : (t.addPhotos ps).ownCustomers userId = t.ownCustomers userId := rfl
  rw [Tables.restrict, hrecs, hcust]
  by_cases hk : k ∈ t.ownRecords userId
  · have hall : ps.filter (fun p => p.recordId ∈ t.ownRecords userId) = ps :=
      List.filter_eq_self.mpr fun p hp => decide_eq_true (hps p hp ▸ hk)
    rw [if_pos hk]
    simp only [Tables.addPhotos, Tables.restrict, List.filter_append, hall]
  · have hnone : ps.filter (fun p => p.recordId ∈ t.ownRecords userId) = [] :=
      List.filter_eq_nil_iff.mpr fun p hp => by simpa [hps p hp] using hk
    rw [if_neg hk]
    simp only [Tables.addPhotos, Tables.restrict, List.filter_append, hnone, List.append_nil]

theorem restrict_addEvent {e : EventRow} :
    (t.addEvent e).restrict userId =
      if e.recordId ∈ t.ownRecords userId then (t.restrict userId).addEvent e
      else t.restrict userId := by
  have hrecs : (t.addEvent e).ownRecords userId = t.ownRecords userId := rfl
  have hcust : (t.addEvent e).ownCustomers userId = t.ownCustomers userId := rfl
  rw [Tables.restrict, hrecs, hcust]
  by_cases hk : e.recordId ∈ t.ownRecords userId <;>
    simp [Tables.addEvent, Tables.restrict, List.filter_append, hk]

theorem restrict_addChange {x : ChangeRow} :
    (t.addChange x).restrict userId =
      if x.recordId ∈ t.ownRecords userId then (t.restrict userId).addChange x
      else t.restrict userId := by
  have hrecs : (t.addChange x).ownRecords userId = t.ownRecords userId := rfl
  have hcust : (t.addChange x).ownCustomers userId = t.ownCustomers userId := rfl
  rw [Tables.restrict, hrecs, hcust]
  by_cases hk : x.recordId ∈ t.ownRecords userId <;>
    simp [Tables.addChange, Tables.restrict, List.filter_append, hk]

theorem restrict_setChange {id : ℕ} {f : ChangeRow → ChangeRow}
    (hrec : ∀ x, (f x).recordId = x.recordId) :
    (t.setChange id f).restrict userId = (t.restrict userId).setChange id f := by
  have hrecs : (t.setChange id f).ownRecords userId = t.ownRecords userId := rfl
  have hcust : (t.setChange id f).ownCustomers userId = t.ownCustomers userId := rfl
  have hch : (t.setChange id f).changes.filter (fun x => x.recordId ∈ t.ownRecords userId) =
      (t.changes.filter fun x => x.recordId ∈ t.ownRecords userId).map fun x =>
        if x.id = id then f x else x := by
    refine filter_map_keep (fun x => ?_) t.changes
    split
    · rw [hrec]
    · rfl
  rw [Tables.restrict, hrecs, hcust, hch]
  rfl

theorem restrict_setRouting (routing : LeadRouting.RoutingDb) :
    (t.setRouting routing).restrict userId = t.restrict userId := rfl

/-! ## The requests of the others -/

theorem setCustomer_restrict {id : ℕ} {f : CustomerRow → CustomerRow}
    (hid : id ∉ t.ownCustomers userId) : (t.restrict userId).setCustomer id f =
      t.restrict userId := by
  have hmap : ((t.restrict userId).customers.map fun c => if c.id = id then f c else c) =
      (t.restrict userId).customers := by
    refine (List.map_congr_left fun c hc => ?_).trans (List.map_id _)
    obtain ⟨hc, hu⟩ := List.mem_filter.mp hc
    refine if_neg fun heq => hid ?_
    exact mem_ownCustomers.mpr ⟨c, hc, of_decide_eq_true hu, heq⟩
  rw [Tables.setCustomer, hmap]

/-- A request leaves the rows of every other user. -/
theorem WritesOwn.unseen {v : ℕ} (hw : WritesOwn env d v request t t') (h : Valid t)
    (hne : v ≠ userId) : t'.restrict userId = t.restrict userId := by
  rcases hw with rfl | ⟨c, t1, hp, hw⟩
  · rfl
  have hcu : c.userId ≠ some userId := by
    rw [hp.1]
    exact fun heq => hne (Option.some.inj heq)
  obtain ⟨h1, hc⟩ := hp.valid h
  have hfirst : t1.restrict userId = t.restrict userId := by
    rcases hp.2 with ⟨-, rfl⟩ | ⟨hnew, rfl⟩
    · rfl
    · rw [restrict_addCustomer h hnew, if_neg hcu]
  have hown : c.id ∉ t1.ownCustomers userId := fun hmem => hcu ((own_customer_iff h1 hc).mp hmem)
  have hrec : ∀ r ∈ t1.records, r.customerId = c.id → r.id ∉ t1.ownRecords userId :=
    fun r hr hrc hmem => hown (hrc ▸ (own_record_iff h1 hr).mp hmem)
  rw [← hfirst]
  cases hw with
  | nothing => rfl
  | profile _ f hid huser => rw [restrict_setCustomer hid huser, setCustomer_restrict hown]
  | intake payload reference routing hnew =>
    rw [restrict_setRouting]
    have hadd : (t1.addRecord (newRecord env d payload c.id reference)).restrict userId =
        t1.restrict userId :=
      (restrict_addRecord h1 hnew).trans (if_neg hown)
    have h2 : Valid (t1.addRecord (newRecord env d payload c.id reference)) :=
      h1.addRecord hnew (List.mem_map_of_mem hc)
    have hr : d.recordId ∉
        (t1.addRecord (newRecord env d payload c.id reference)).ownRecords userId := by
      intro hmem
      exact hown ((own_record_iff h2
        (List.mem_append_right _ (List.mem_singleton_self _))).mp hmem)
    rw [restrict_addPhotos newPhotos_recordId, if_neg hr, hadd]
  | photo _ r p hr hrc hp =>
    rw [restrict_addPhotos fun q hq => (List.mem_singleton.mp hq) ▸ hp, if_neg (hrec r hr hrc)]
  | change _ r x hr hrc _ hx => rw [restrict_addChange, hx, if_neg (hrec r hr hrc)]

/-! ## The requests of the user -/

/-- No record, photo or change request has what the request draws for one. -/
structure FreshRows (d : Draws) (t : Tables) : Prop where
  record : ∀ r ∈ t.records, r.id ≠ d.recordId
  photo : ∀ p ∈ t.photos, ∀ i, p.id ≠ d.photoId i
  change : ∀ x ∈ t.changes, x.id ≠ d.changeId
  reference : ∀ r ∈ t.records, ∀ i, r.referenceNumber ≠ some (d.reference i)

/-- What the request draws is new. -/
structure Fresh (d : Draws) (t : Tables) : Prop extends FreshRows d t where
  customer : ∀ c ∈ t.customers, c.id ≠ d.customerId

/-- The keys hold, the draws of the rows are new, and the profile is the user's. -/
structure Profiled (userId : ℕ) (d : Draws) (c : CustomerRow) (t : Tables) : Prop where
  valid : Valid t
  fresh : FreshRows d t
  mem : c ∈ t.customers
  user : c.userId = some userId

variable {P : Tables → Prop}

theorem commutes_selectCustomer : Commutes (Tables.restrict userId) P (selectCustomer userId) := by
  refine commutes_read_bind (fun t _ => ?_) fun _ => commutes_expect
  simp [Tables.restrict, List.filter_filter]

theorem commutes_insertCustomer (hc : c.userId = some userId) :
    Commutes (Tables.restrict userId) (fun t => Valid t ∧ ∀ x ∈ t.customers, x.id ≠ c.id)
      (insertCustomer c) := by
  refine commutes_read_bind (fun t ht => ?_) fun clash => commutes_require_bind fun hclash =>
    commutes_modify fun t ht => ?_
  · rw [Bool.eq_iff_iff]
    simp only [Tables.restrict, List.any_eq_true, List.mem_filter, decide_eq_true_eq,
      Bool.or_eq_true, Bool.and_eq_true, hc, Option.isSome_some, true_and]
    constructor
    · rintro ⟨x, ⟨hx, -⟩, h⟩
      exact ⟨x, hx, h⟩
    · rintro ⟨x, hx, h | h⟩
      · exact absurd h (ht.2 x hx)
      · exact ⟨x, ⟨hx, h⟩, .inr h⟩
  · rw [restrict_addCustomer ht.2.1 (newCustomer_iff.mpr (ht.1.symm.trans hclash)), if_pos hc]

theorem HasProfile.profiled {t1 : Tables} (hp : HasProfile userId c t t1) (h : Valid t)
    (hf : FreshRows d t) : Profiled userId d c t1 := by
  refine ⟨(hp.valid h).1, ?_, (hp.valid h).2, hp.1⟩
  rcases hp.2 with ⟨-, rfl⟩ | ⟨-, rfl⟩
  · exact hf
  · exact ⟨hf.record, hf.photo, hf.change, hf.reference⟩

theorem profiled_of_returns (h : Valid t) (hf : Fresh d t)
    (hr : Svc.Returns (ensureProfileForUser user d) t c t') : Profiled user.id d c t' :=
  (returns_ensureProfileForUser hr).profiled h hf.toFreshRows

theorem commutes_ensureProfileForUser :
    Commutes (Tables.restrict user.id) (fun t => Valid t ∧ Fresh d t)
      (ensureProfileForUser user d) := by
  refine commutes_bind (fun _ t => Valid t ∧ Fresh d t) commutes_selectCustomer ?_ ?_
  · intro t o t' ht h
    obtain ⟨-, rfl⟩ := returns_selectCustomer.mp h
    exact ht
  · rintro (_ | c)
    · refine commutes_bind (fun _ _ => True) ?_ (fun _ _ _ _ _ => trivial) fun _ => commutes_pure
      exact (commutes_insertCustomer rfl).imp fun t ht => ⟨ht.1, ht.2.customer⟩
    · exact commutes_pure

/-- A service that begins with the profile of its user. -/
theorem commutes_ensure {α : Type} {f : CustomerRow → Service α}
    (hf : ∀ c, Commutes (Tables.restrict user.id) (Profiled user.id d c) (f c)) :
    Commutes (Tables.restrict user.id) (fun t => Valid t ∧ Fresh d t)
      (ensureProfileForUser user d >>= f) :=
  commutes_bind (Profiled user.id d) commutes_ensureProfileForUser
    (fun _ _ _ ht h => profiled_of_returns ht.1 ht.2 h) hf

theorem Profiled.own (h : Profiled userId d c t) : c.id ∈ t.ownCustomers userId :=
  mem_ownCustomers.mpr ⟨c, h.mem, h.user, rfl⟩

theorem commutes_updateProfile {patch : ProfilePatch} :
    Commutes (Tables.restrict user.id) (fun t => Valid t ∧ Fresh d t)
      (updateProfile user d patch) := by
  refine commutes_ensure fun c => ?_
  split
  · exact commutes_pure
  · refine commutes_require_bind fun _ => commutes_bind (fun _ _ => True) ?_
      (fun _ _ _ _ _ => trivial) fun _ => commutes_pure
    exact commutes_modify fun t _ =>
      (restrict_setCustomer (apply_id patch) (apply_userId patch)).symm

theorem commutes_updateEmailPrefs {prefs : EmailPrefs} :
    Commutes (Tables.restrict user.id) (fun t => Valid t ∧ Fresh d t)
      (updateEmailPrefs user d prefs) := by
  refine commutes_ensure fun c => commutes_bind (fun _ _ => True) ?_
    (fun _ _ _ _ _ => trivial) fun _ => commutes_pure
  exact commutes_modify fun t _ =>
    (restrict_setCustomer (f := fun c => { c with communicationPrefs := some prefs })
      (fun _ => rfl) fun _ => rfl).symm

/-! ### What is shown of a record -/

theorem filter_filter_own {α : Type} {g : α → ℕ} {l : List α} {ks : List ℕ} {k : ℕ} (hk : k ∈ ks) :
    (l.filter fun a => g a ∈ ks).filter (fun a => g a = k) = l.filter fun a => g a = k := by
  rw [List.filter_filter]
  refine List.filter_congr fun a _ => ?_
  by_cases ha : g a = k <;> simp [ha, hk]

theorem photosOf_restrict {k : ℕ} (hk : k ∈ t.ownRecords userId) :
    (t.restrict userId).photosOf k = t.photosOf k :=
  filter_filter_own hk

theorem eventsOf_restrict {k : ℕ} (hk : k ∈ t.ownRecords userId) :
    (t.restrict userId).eventsOf k = t.eventsOf k :=
  congrArg (List.mergeSort · _) (filter_filter_own hk)

theorem changesOf_restrict {k : ℕ} (hk : k ∈ t.ownRecords userId) :
    (t.restrict userId).changesOf k = t.changesOf k :=
  filter_filter_own hk

theorem serialize_restrict (hr : r.id ∈ t.ownRecords userId) :
    (t.restrict userId).serialize r = t.serialize r := by
  rw [Tables.serialize, photosOf_restrict hr, eventsOf_restrict hr, Tables.serialize]

theorem exportRecord_restrict (hr : r.id ∈ t.ownRecords userId) :
    (t.restrict userId).exportRecord r = t.exportRecord r := by
  rw [Tables.exportRecord, photosOf_restrict hr, eventsOf_restrict hr, Tables.exportRecord]

/-! ### Intakes -/

theorem commutes_validateCategory {k : Option ℕ} :
    Commutes (Tables.restrict userId) P (validateCategory k) :=
  commutes_read_bind (fun _ _ => rfl) fun _ => commutes_require

/-- The first number drawn is free, in all tables and in the rows of the user. -/
theorem free_of_fresh (hf : FreshRows d t) {rs : List RecordRow} (hrs : ∀ r ∈ rs, r ∈ t.records) :
    ((List.range LeadRouting.maxRefAttempts).map d.reference).find?
      (fun candidate => rs.all fun r => r.referenceNumber ≠ some candidate) =
        some (d.reference 0) := by
  have hfree : (rs.all fun r => r.referenceNumber ≠ some (d.reference 0)) = true := by
    refine List.all_eq_true.mpr fun r hr => decide_eq_true ?_
    exact hf.reference r (hrs r hr) 0
  have hlist : (List.range LeadRouting.maxRefAttempts).map d.reference =
      d.reference 0 :: ((List.range' 1 9).map d.reference) := rfl
  rw [hlist]
  exact List.find?_cons_of_pos hfree

theorem mem_restrict_records : ∀ x ∈ (t.restrict userId).records, x ∈ t.records :=
  fun _ hx => (List.mem_filter.mp hx).1

theorem mem_restrict_photos : ∀ x ∈ (t.restrict userId).photos, x ∈ t.photos :=
  fun _ hx => (List.mem_filter.mp hx).1

theorem commutes_reserveReferenceNumber :
    Commutes (Tables.restrict userId) (Profiled userId d c) (reserveReferenceNumber d) := by
  refine commutes_read_bind (fun t ht => ?_) fun _ => commutes_expect
  rw [free_of_fresh ht.fresh fun r hr => hr, free_of_fresh ht.fresh mem_restrict_records]

theorem commutes_insertRecord (hid : r.id = d.recordId) (hown : r.customerId = c.id)
    (href : r.referenceNumber = some (d.reference 0)) :
    Commutes (Tables.restrict userId) (Profiled userId d c) (insertRecord r) := by
  have hfree : ∀ t, Profiled userId d c t → ∀ rs : List RecordRow, (∀ x ∈ rs, x ∈ t.records) →
      (rs.any fun x => x.id = r.id || x.referenceNumber = r.referenceNumber) = false := by
    intro t ht rs hrs
    simp only [List.any_eq_false, Bool.or_eq_true, decide_eq_true_eq, not_or]
    intro x hx
    rw [hid, href]
    exact ⟨ht.fresh.record x (hrs x hx), ht.fresh.reference x (hrs x hx) 0⟩
  refine commutes_read_bind (fun t ht => ?_) fun _ => commutes_require_bind fun _ =>
    commutes_modify fun t ht => ?_
  · rw [hfree t ht _ fun x hx => hx, hfree t ht _ mem_restrict_records]
  · have hnew : ∀ x ∈ t.records, x.id ≠ r.id := fun x hx => hid ▸ ht.2.fresh.record x hx
    rw [restrict_addRecord ht.2.valid hnew, hown, if_pos ht.2.own]

/-- Photos of a record of the user, with new keys. -/
theorem commutes_insertPhotos {ps : List PhotoRow} {k : ℕ} (hps : ∀ p ∈ ps, p.recordId = k)
    (hk : ∀ t, P t → k ∈ t.ownRecords userId)
    (hnew : ∀ t, P t → ∀ x ∈ t.photos, ∀ p ∈ ps, x.id ≠ p.id) :
    Commutes (Tables.restrict userId) P (insertPhotos ps) := by
  have hfree : ∀ t, P t → ∀ l : List PhotoRow, (∀ x ∈ l, x ∈ t.photos) →
      (l.any fun x => ps.any fun p => x.id = p.id) = false := by
    intro t ht l hl
    simp only [List.any_eq_false, List.any_eq_true, decide_eq_true_eq, not_exists, not_and]
    exact fun x hx p hp => hnew t ht x (hl x hx) p hp
  refine commutes_read_bind (fun t ht => ?_) fun _ => commutes_require_bind fun _ =>
    commutes_modify fun t ht => ?_
  · rw [hfree t ht _ fun x hx => hx, hfree t ht _ mem_restrict_photos]
  · rw [restrict_addPhotos hps, if_pos (hk t ht.2)]

/-- A new record of the user, and photos not of others. -/
structure Submitted (userId : ℕ) (d : Draws) (r : RecordRow) (t : Tables) : Prop where
  own : r.id ∈ t.ownRecords userId
  photo : ∀ p ∈ t.photos, ∀ i, p.id ≠ d.photoId i

theorem Profiled.submitted (h : Profiled userId d c t) (hown : r.customerId = c.id) :
    Submitted userId d r (t.addRecord r) where
  own := mem_ownRecords.mpr ⟨r, List.mem_append_right _ (List.mem_singleton_self r),
    hown ▸ h.own, rfl⟩
  photo := h.fresh.photo

theorem newPhotos_id {photos : List LeadRouting.IntakePhotoIn} :
    ∀ p ∈ newPhotos env d photos, ∃ i, p.id = d.photoId i := by
  intro p hp
  obtain ⟨x, -, rfl⟩ := List.mem_map.mp hp
  exact ⟨x.2, rfl⟩

theorem returns_reserveReferenceNumber {reference : String} (hf : FreshRows d t)
    (h : Svc.Returns (reserveReferenceNumber d) t reference t') :
    t = t' ∧ reference = d.reference 0 := by
  rw [reserveReferenceNumber, returns_read_bind, Svc.returns_expect,
    free_of_fresh hf fun r hr => hr] at h
  exact ⟨h.2, (Option.some.inj h.1).symm⟩

theorem commutes_storeIntake {payload : LeadRouting.IntakeSubmission} :
    Commutes (Tables.restrict user.id) (fun t => Valid t ∧ Fresh d t)
      (storeIntake env user d payload) := by
  refine commutes_bind (fun _ t => Valid t ∧ Fresh d t) commutes_validateCategory ?_ fun _ =>
    commutes_ensure fun c => commutes_bind (fun reference t => reference = d.reference 0 ∧
      Profiled user.id d c t) commutes_reserveReferenceNumber ?_ fun reference => ?_
  · intro t a t' ht h
    rw [validateCategory, returns_read_bind, Svc.returns_require] at h
    exact h.2 ▸ ht
  · intro t reference t' ht h
    obtain ⟨rfl, rfl⟩ := returns_reserveReferenceNumber ht.fresh h
    exact ⟨rfl, ht⟩
  · by_cases href : reference = d.reference 0
    · subst href
      have hown : (newRecord env d payload c.id (d.reference 0)).customerId = c.id := rfl
      refine commutes_bind (fun _ => Submitted user.id d (newRecord env d payload c.id
        (d.reference 0))) ((commutes_insertRecord rfl hown rfl).imp fun t ht => ht.2) ?_ fun _ => ?_
      · intro t a t' ht h
        obtain ⟨-, rfl⟩ := returns_insertRecord.mp h
        exact ht.2.submitted hown
      · refine commutes_bind (fun _ _ => True) (commutes_insertPhotos newPhotos_recordId
          (fun t ht => ht.own) fun t ht x hx p hp => ?_) (fun _ _ _ _ _ => trivial)
          fun _ => commutes_pure
        obtain ⟨i, hi⟩ := newPhotos_id p hp
        exact hi ▸ ht.photo x hx i
    · exact fun t ht => absurd ht.1 href

/-- The record that an intake stored is the user's. -/
theorem storeIntake_own {payload : LeadRouting.IntakeSubmission} (h : Valid t)
    (hr : Svc.Returns (storeIntake env user d payload) t (r, c) t') :
    r.id ∈ t'.ownRecords user.id := by
  obtain ⟨t1, reference, hprofile, rfl, -, rfl⟩ := returns_storeIntake hr
  obtain ⟨h1, hc⟩ := hprofile.valid h
  exact mem_ownRecords.mpr ⟨_, List.mem_append_right _ (List.mem_singleton_self _),
    mem_ownCustomers.mpr ⟨c, hc, hprofile.1, rfl⟩, rfl⟩

/-- No rule, no decision. -/
theorem route_restrict : (t.restrict userId).route env d customer =
    (.ok ⟨none, none, none, "unassigned"⟩, noRouting) := by
  have hnil : d.activeRules.rows noRouting = [] := by
    refine List.Perm.eq_nil ((d.activeRules.loads noRouting).trans ?_)
    exact List.Perm.of_eq rfl
  show Svc.exec (LeadRouting.routeForRecord env.routing (d.activeRules.rows noRouting) customer)
    noRouting = _
  rw [hnil]
  rfl

theorem routesSafely_restrict : RoutesSafely env d customer (t.restrict userId) := by
  unfold RoutesSafely
  rw [route_restrict]
  rfl

/-- Where routing does no harm it leaves no trace in the rows of a user. -/
theorem commutes_routeAndAssign :
    Commutes (Tables.restrict userId) (RoutesSafely env d customer)
      (routeAndAssign env d customer) := by
  intro t ht
  have hfull : Svc.Returns (routeAndAssign env d customer) t () _ :=
    returns_routeAndAssign.mpr ⟨ht, rfl⟩
  have hview : Svc.Returns (routeAndAssign env d customer) (t.restrict userId) () _ :=
    returns_routeAndAssign.mpr ⟨routesSafely_restrict, rfl⟩
  unfold Svc.Returns at hfull hview
  rw [hfull, hview, route_restrict]
  rfl

/-- The user's intake is stored, and its routing fails it. -/
def Misrouted (env : Env) (userId : ℕ) (t : Tables) : Op → Prop
  | .portal user d (.submitIntake payload) => user.id = userId ∧
    ∃ r c t', Svc.Returns (storeIntake env user d payload) t (r, c) t' ∧
      ¬ RoutesSafely env d (c.routed user) t'
  | _ => False

theorem commutes_submitIntake {payload : LeadRouting.IntakeSubmission} :
    Commutes (Tables.restrict user.id) (fun t => (Valid t ∧ Fresh d t) ∧
        ¬ Misrouted env user.id t (.portal user d (.submitIntake payload)))
      (submitIntake env user d payload) := by
  refine commutes_bind (fun stored t => stored.1.id ∈ t.ownRecords user.id ∧
    RoutesSafely env d (stored.2.routed user) t) (commutes_storeIntake.imp fun t ht => ht.1) ?_ ?_
  · rintro t ⟨r, c⟩ t' ⟨ht, hcalm⟩ h
    refine ⟨storeIntake_own ht.1 h, ?_⟩
    by_contra hharm
    exact hcalm ⟨rfl, r, c, t', h, hharm⟩
  · rintro ⟨r, c⟩
    refine commutes_bind (fun _ t => r.id ∈ t.ownRecords user.id)
      (commutes_routeAndAssign.imp fun t ht => ht.2) ?_ fun _ =>
        commutes_read_bind (fun t ht => serialize_restrict ht) fun _ => commutes_pure
    intro t a t' ht h
    obtain ⟨-, rfl⟩ := returns_routeAndAssign.mp h
    exact ht.1

/-! ### Records and what belongs to them -/

/-- The customer that was found is the user's. -/
def Found (userId : ℕ) (o : Option CustomerRow) (t : Tables) : Prop :=
  ∀ c ∈ o, c.id ∈ t.ownCustomers userId

theorem found_of_returns {o : Option CustomerRow}
    (h : Svc.Returns (selectCustomer userId) t o t') : t = t' ∧ Found userId o t := by
  obtain ⟨hrows, rfl⟩ := returns_selectCustomer.mp h
  refine ⟨rfl, fun c hc => ?_⟩
  have hmem : c ∈ t.customers.filter fun c => c.userId = some userId := by
    rw [hrows, Option.mem_def.mp hc]
    exact List.mem_singleton_self c
  obtain ⟨hc, hu⟩ := List.mem_filter.mp hmem
  exact mem_ownCustomers.mpr ⟨c, hc, of_decide_eq_true hu, rfl⟩

/-- A service that begins with the customer of its user. -/
theorem commutes_select {α : Type} {f : Option CustomerRow → Service α}
    (hf : ∀ o, Commutes (Tables.restrict userId) (fun t => Found userId o t ∧ P t) (f o)) :
    Commutes (Tables.restrict userId) P (selectCustomer userId >>= f) := by
  refine commutes_bind (fun o t => Found userId o t ∧ P t) commutes_selectCustomer ?_ hf
  intro t o t' ht h
  obtain ⟨rfl, hfound⟩ := found_of_returns h
  exact ⟨hfound, ht⟩

theorem own_of_mem (hr : r ∈ t.records) (hown : r.customerId ∈ t.ownCustomers userId) :
    r.id ∈ t.ownRecords userId :=
  mem_ownRecords.mpr ⟨r, hr, hown, rfl⟩

theorem recordsOf_restrict {k : ℕ} (hk : k ∈ t.ownCustomers userId) :
    ((t.restrict userId).records.filter fun r => r.customerId = k) =
      t.records.filter fun r => r.customerId = k :=
  filter_filter_own hk

theorem own_of_mem_filter {k : ℕ} (hk : k ∈ t.ownCustomers userId)
    (hr : r ∈ t.records.filter fun r => r.customerId = k) : r.id ∈ t.ownRecords userId := by
  obtain ⟨hmem, hown⟩ := List.mem_filter.mp hr
  exact own_of_mem hmem (of_decide_eq_true hown ▸ hk)

theorem commutes_listRecordsForUser :
    Commutes (Tables.restrict user.id) P (listRecordsForUser user) := by
  refine commutes_select fun o => ?_
  cases o with
  | none => exact commutes_pure
  | some c =>
    refine commutes_read_bind (fun t ht => ?_) fun _ => commutes_pure
    have hk : c.id ∈ t.ownCustomers user.id := ht.1 c rfl
    rw [recordsOf_restrict hk]
    refine List.map_congr_left fun r hr => serialize_restrict ?_
    exact own_of_mem_filter hk (List.mem_mergeSort.mp hr)

theorem commutes_getRecordForUser {recordId : ℕ} :
    Commutes (Tables.restrict user.id) P (getRecordForUser user recordId) := by
  refine commutes_select fun o => commutes_expect_bind fun c ho => ?_
  refine commutes_read_bind (fun t ht => ?_) fun rows => ?_
  · have hk : c.id ∈ t.ownCustomers user.id := ht.1 c ho
    rw [Tables.restrict, List.filter_filter]
    refine List.filter_congr fun r _ => ?_
    by_cases hr : r.customerId = c.id <;> simp [hr, hk]
  · exact commutes_bind (fun _ _ => True) commutes_expect (fun _ _ _ _ _ => trivial)
      fun _ => commutes_expect

theorem own_of_returns {recordId : ℕ}
    (h : Svc.Returns (getRecordForUser user recordId) t r t') :
    t = t' ∧ r.id ∈ t.ownRecords user.id := by
  obtain ⟨rfl, hr, -, c, hc, hu, hown⟩ := returns_getRecordForUser h
  exact ⟨rfl, own_of_mem hr (hown ▸ mem_ownCustomers.mpr ⟨c, hc, hu, rfl⟩)⟩

/-- A service that begins with a record of its user. -/
theorem commutes_getRecord {α : Type} {f : RecordRow → Service α} {recordId : ℕ}
    (hf : ∀ r, Commutes (Tables.restrict user.id) (fun t => r.id ∈ t.ownRecords user.id ∧ P t)
      (f r)) :
    Commutes (Tables.restrict user.id) P (getRecordForUser user recordId >>= f) := by
  refine commutes_bind (fun r t => r.id ∈ t.ownRecords user.id ∧ P t) commutes_getRecordForUser
    ?_ hf
  intro t r t' ht h
  obtain ⟨rfl, hown⟩ := own_of_returns h
  exact ⟨hown, ht⟩

theorem commutes_getEquipment {recordId : ℕ} :
    Commutes (Tables.restrict user.id) P (getEquipment user recordId) :=
  commutes_getRecord fun _ => commutes_read_bind (fun _ ht => serialize_restrict ht.1)
    fun _ => commutes_pure

theorem commutes_finalizePhoto {recordId : ℕ} {body : FinalizePhotoRequest} :
    Commutes (Tables.restrict user.id) (FreshRows d) (finalizePhoto env user d recordId body) := by
  refine commutes_getRecord fun r => commutes_bind (fun _ t => r.id ∈ t.ownRecords user.id ∧
    FreshRows d t) commutes_lift ?_ fun _ => commutes_bind (fun _ _ => True) ?_
      (fun _ _ _ _ _ => trivial) fun _ => commutes_pure
  · intro t a t' ht h
    exact (Svc.returns_lift.mp h).2 ▸ ht
  · refine commutes_insertPhotos (k := r.id) (fun p hp => ?_) (fun t ht => ht.1)
      fun t ht x hx p hp => ?_
    · exact (List.mem_singleton.mp hp) ▸ rfl
    · rw [List.mem_singleton.mp hp]
      exact ht.2.photo x hx 0

theorem commutes_createChangeRequest {recordId : ℕ} {requestType : String}
    {customerNotes : Option String} :
    Commutes (Tables.restrict user.id) (FreshRows d)
      (createChangeRequest env user d recordId requestType customerNotes) := by
  refine commutes_getRecord fun r => commutes_expect_bind fun kind _ => ?_
  refine commutes_read_bind (fun t ht => ?_) fun _ => commutes_require_bind fun _ =>
    commutes_bind (fun _ _ => True) (commutes_modify fun t ht => ?_) (fun _ _ _ _ _ => trivial)
      fun _ => commutes_pure
  · rw [Bool.eq_iff_iff]
    simp only [Tables.restrict, List.any_eq_true, List.mem_filter, decide_eq_true_eq,
      Bool.or_eq_true, Bool.and_eq_true]
    constructor
    · rintro ⟨x, ⟨hx, -⟩, h⟩
      exact ⟨x, hx, h⟩
    · rintro ⟨x, hx, h | h⟩
      · exact absurd h (ht.2.change x hx)
      · exact ⟨x, ⟨hx, h.1 ▸ ht.1⟩, .inr h⟩
  · have hx : (newChange env d r.id kind customerNotes).recordId ∈ t.ownRecords user.id := ht.2.1
    rw [restrict_addChange, if_pos hx]

theorem commutes_listChangeRequests {recordId : ℕ} :
    Commutes (Tables.restrict user.id) P (listChangeRequests user recordId) :=
  commutes_getRecord fun r => commutes_read_bind
    (fun t ht => by rw [changesOf_restrict ht.1]) fun _ => commutes_pure

theorem commutes_gatherUserData :
    Commutes (Tables.restrict user.id) P (gatherUserData user) := by
  refine commutes_select fun o => ?_
  cases o with
  | none => exact commutes_pure
  | some c =>
    refine commutes_read_bind (fun t ht => ?_) fun records =>
      commutes_read_bind (fun t ht => ?_) fun _ => commutes_pure
    · rw [recordsOf_restrict (ht.1 c rfl)]
    · have hk : c.id ∈ t.ownCustomers user.id := ht.2.1 c rfl
      have hown : ∀ r ∈ records, r.id ∈ t.ownRecords user.id := by
        intro r hr
        rw [ht.1] at hr
        exact own_of_mem_filter hk (List.mem_mergeSort.mp hr)
      have hrecs : records.map (t.restrict user.id).exportRecord = records.map t.exportRecord :=
        List.map_congr_left fun r hr => exportRecord_restrict (hown r hr)
      have hchs : (records.flatMap fun r =>
          ((t.restrict user.id).changesOf r.id).map ChangeRow.out) =
          records.flatMap fun r => (t.changesOf r.id).map ChangeRow.out := by
        refine List.flatMap_congr fun r hr => ?_
        rw [changesOf_restrict (hown r hr)]
      rw [hrecs, hchs]

/-- A request of the user does to the user's rows what it does to the tables. -/
theorem request_commutes (request : Request) :
    Commutes (Tables.restrict user.id) (fun t => (Valid t ∧ Fresh d t) ∧
        ¬ Misrouted env user.id t (.portal user d request))
      (request.service env user d) := by
  cases request with
  | getProfile => exact (commutes_ensure fun _ => commutes_pure).imp fun t ht => ht.1
  | patchProfile patch => exact commutes_updateProfile.imp fun t ht => ht.1
  | getEmailPrefs => exact (commutes_ensure fun _ => commutes_pure).imp fun t ht => ht.1
  | patchEmailPrefs prefs => exact commutes_updateEmailPrefs.imp fun t ht => ht.1
  | submitIntake payload => exact commutes_submitIntake
  | listEquipment => exact commutes_listRecordsForUser
  | getEquipment recordId => exact commutes_getEquipment
  | finalizePhoto recordId body =>
    exact commutes_finalizePhoto.imp fun t ht => ht.1.2.toFreshRows
  | createChangeRequest recordId requestType customerNotes =>
    exact commutes_createChangeRequest.imp fun t ht => ht.1.2.toFreshRows
  | listChangeRequests recordId => exact commutes_listChangeRequests
  | dataExport => exact commutes_gatherUserData

/-! ## What the staff does -/

/-- What holds before a request and after its service returns holds after the request. -/
theorem commit_induction {α : Type} {m : Service α} {Q : Tables → Prop} (h : Q t)
    (hret : ∀ a t', Svc.Returns m t a t' → Q t') : Q (commit m t).2 := by
  rcases Svc.request_cases (fun before _ => before) m t with ⟨a, s', hr, hx⟩ | ⟨e, s', -, hx⟩
  · rw [commit, hx]
    exact hret a s' hr
  · rw [commit, hx]
    exact h

theorem returns_adminUpdateCustomer {id : ℕ} {patch : AdminPatch} {a : Unit}
    (h : Svc.Returns (adminUpdateCustomer env id patch) t a t') :
    t.setCustomer id (patch.apply env) = t' := by
  unfold adminUpdateCustomer selectCustomerById at h
  simp only [bind_assoc, returns_read_bind] at h
  obtain ⟨o, t1, ho, h⟩ := Svc.returns_bind.mp h
  obtain ⟨-, rfl⟩ := returns_one.mp ho
  simp only [Svc.returns_expect_bind, Svc.returns_require_bind, Svc.returns_modify] at h
  obtain ⟨customer, -, -, -, -, h⟩ := h
  exact h

theorem returns_softDeleteCustomer {id : ℕ} {now : ℤ} {a : Unit}
    (h : Svc.Returns (softDeleteCustomer id now) t a t') :
    t = t' ∨ (t.setCustomer id (CustomerRow.softDeleted now)).setRecords
      (RecordRow.softDeleted id now) = t' := by
  unfold softDeleteCustomer selectCustomerById at h
  simp only [bind_assoc, returns_read_bind] at h
  obtain ⟨o, t1, ho, h⟩ := Svc.returns_bind.mp h
  obtain ⟨-, rfl⟩ := returns_one.mp ho
  obtain ⟨customer, -, h⟩ := Svc.returns_expect_bind.mp h
  split at h
  · exact .inl (Svc.returns_pure.mp h).2
  · exact .inr (Svc.returns_modify.mp h)

theorem returns_createWalkin {payload : AdminCustomerCreate} {a : Unit}
    (h : Svc.Returns (createWalkin env d payload) t a t') :
    ∃ c, c.userId = none ∧ NewCustomer t c ∧ t.addCustomer c = t' := by
  rw [createWalkin, Svc.returns_require_bind, returns_insertCustomer] at h
  exact ⟨_, rfl, h.2⟩

theorem returns_recordTransition {recordId : ℕ} {target : Status} {changedBy : Option ℕ}
    {note : Option String} {a : Unit}
    (h : Svc.Returns (recordTransition recordId target changedBy note d) t a t') :
    ∃ e, e.recordId = recordId ∧ recordId ∈ t.records.map RecordRow.id ∧
      (t.addEvent e).setRecords (RecordRow.moved recordId target) = t' := by
  unfold recordTransition at h
  rw [returns_read_bind] at h
  obtain ⟨o, t1, ho, h⟩ := Svc.returns_bind.mp h
  obtain ⟨hrows, rfl⟩ := returns_one.mp ho
  obtain ⟨r, rfl, hrest⟩ := Svc.returns_expect_bind.mp h
  rw [Svc.returns_require_bind, Svc.returns_require_bind, Svc.returns_modify] at hrest
  have hr : r ∈ t.records.filter fun r => r.id = recordId := by
    rw [hrows]
    exact List.mem_singleton_self r
  obtain ⟨hmem, hid⟩ := List.mem_filter.mp hr
  exact ⟨_, rfl, of_decide_eq_true hid ▸ List.mem_map_of_mem hmem, hrest.2.2⟩

theorem returns_resolveChangeRequest {resolver changeId : ℕ} {newStatus : String}
    {notes : Option String} {a : Unit}
    (h : Svc.Returns (resolveChangeRequest env d resolver changeId newStatus notes) t a t') :
    ∃ target notes, ∃ x ∈ t.changes, x.id = changeId ∧
      (t.setChange changeId (ChangeRow.resolved target notes d.now resolver) = t' ∨
        ∃ note a', Svc.Returns (recordTransition x.recordId .withdrawn (some resolver) note d)
          (t.setChange changeId (ChangeRow.resolved target notes d.now resolver)) a' t') := by
  unfold resolveChangeRequest at h
  obtain ⟨target, -, h⟩ := Svc.returns_expect_bind.mp h
  rw [returns_read_bind] at h
  obtain ⟨o, t1, ho, h⟩ := Svc.returns_bind.mp h
  obtain ⟨hrows, rfl⟩ := returns_one.mp ho
  obtain ⟨x, rfl, hrest⟩ := Svc.returns_expect_bind.mp h
  rw [Svc.returns_require_bind, Svc.returns_modify_bind, Svc.returns_onlyIf] at hrest
  have hx : x ∈ t.changes.filter fun c => c.id = changeId := by
    rw [hrows]
    exact List.mem_singleton_self x
  obtain ⟨hmem, hid⟩ := List.mem_filter.mp hx
  refine ⟨target, sanitizePlain env notes, x, hmem, of_decide_eq_true hid, ?_⟩
  rcases hrest.2 with ⟨-, h⟩ | ⟨-, h⟩
  · exact .inr ⟨_, _, h⟩
  · exact .inl h

theorem returns_finalizeDeletion {now : ℤ} {a : Unit}
    (h : Svc.Returns (finalizeDeletion userId now) t a t') :
    t = t' ∨ ∃ c ∈ t.customers, c.userId = some userId ∧
      t.setCustomer c.id (CustomerRow.scrubbed now) = t' := by
  obtain ⟨o, t1, ho, h⟩ := Svc.returns_bind.mp h
  obtain ⟨hrows, rfl⟩ := returns_selectCustomer.mp ho
  cases o with
  | none => exact .inl (Svc.returns_pure.mp h).2
  | some c =>
    have hc : c ∈ t.customers.filter fun c => c.userId = some userId := by
      rw [hrows]
      exact List.mem_singleton_self c
    obtain ⟨hmem, hu⟩ := List.mem_filter.mp hc
    exact .inr ⟨c, hmem, of_decide_eq_true hu, Svc.returns_modify.mp h⟩

theorem moved_id {recordId : ℕ} {target : Status} (x : RecordRow) :
    (x.moved recordId target).id = x.id := by
  unfold RecordRow.moved
  split <;> rfl

theorem moved_customerId {recordId : ℕ} {target : Status} (x : RecordRow) :
    (x.moved recordId target).customerId = x.customerId := by
  unfold RecordRow.moved
  split <;> rfl

theorem softDeleted_id {id : ℕ} {now : ℤ} (x : RecordRow) : (x.softDeleted id now).id = x.id := by
  unfold RecordRow.softDeleted
  split <;> rfl

theorem softDeleted_customerId {id : ℕ} {now : ℤ} (x : RecordRow) :
    (x.softDeleted id now).customerId = x.customerId := by
  unfold RecordRow.softDeleted
  split <;> rfl

theorem Valid.recordTransition (h : Valid t) {recordId : ℕ} {target : Status}
    {changedBy : Option ℕ} {note : Option String} {a : Unit}
    (hr : Svc.Returns (Portal.recordTransition recordId target changedBy note d) t a t') :
    Valid t' := by
  obtain ⟨e, he, hmem, rfl⟩ := returns_recordTransition hr
  exact (h.addEvent (he ▸ hmem)).setRecords moved_id moved_customerId

/-- **Every request keeps the keys.** -/
theorem valid_step {o : Op} (h : Valid t) : Valid (step env t o) := by
  cases o with
  | portal user d request => exact commit_induction h fun a t' hr => (request_writes hr).valid h
  | adminUpdate id patch =>
    refine commit_induction h fun a t' hr => ?_
    rw [← returns_adminUpdateCustomer hr]
    exact h.setCustomer (fun _ => rfl) fun _ => rfl
  | softDelete id now =>
    refine commit_induction h fun a t' hr => ?_
    rcases returns_softDeleteCustomer hr with rfl | rfl
    · exact h
    · exact (h.setCustomer (f := CustomerRow.softDeleted now) (fun _ => rfl)
        fun _ => rfl).setRecords softDeleted_id softDeleted_customerId
  | walkin d payload =>
    refine commit_induction h fun a t' hr => ?_
    obtain ⟨c, -, hnew, rfl⟩ := returns_createWalkin hr
    exact h.addCustomer hnew
  | transition d recordId target changedBy note =>
    exact commit_induction h fun a t' hr => h.recordTransition hr
  | resolve d resolver changeId newStatus notes =>
    refine commit_induction h fun a t' hr => ?_
    obtain ⟨target, notes, x, -, -, hcase⟩ := returns_resolveChangeRequest hr
    have hset : Valid (t.setChange changeId (ChangeRow.resolved target notes d.now resolver)) :=
      h.setChange (fun _ => rfl) fun _ => rfl
    rcases hcase with rfl | ⟨note, a', hr⟩
    · exact hset
    · exact hset.recordTransition hr
  | erase userId now =>
    refine commit_induction h fun a t' hr => ?_
    rcases returns_finalizeDeletion hr with rfl | ⟨c, -, -, rfl⟩
    · exact h
    · exact h.setCustomer (fun _ => rfl) fun _ => rfl
  | category id active =>
    exact ⟨h.customerKeys, h.users, h.recordKeys, h.owners, h.photos, h.events, h.changeKeys,
      h.changes⟩
  | office routing isUser =>
    exact ⟨h.customerKeys, h.users, h.recordKeys, h.owners, h.photos, h.events, h.changeKeys,
      h.changes⟩

/-! ## Isolation -/

/-- The request is the user's, or is about the user's rows; the categories concern everyone, and
    the tables of routing no one. -/
def concerns (userId : ℕ) (t : Tables) : Op → Prop
  | .portal user _ _ => user.id = userId
  | .adminUpdate id _ | .softDelete id _ => id ∈ t.ownCustomers userId
  | .walkin .. => False
  | .transition _ recordId .. => recordId ∈ t.ownRecords userId
  | .resolve _ _ changeId .. =>
    changeId ∈ (t.changes.filter fun x => x.recordId ∈ t.ownRecords userId).map ChangeRow.id
  | .erase user _ => user = userId
  | .category .. => True
  | .office .. => False

instance (userId : ℕ) (t : Tables) (o : Op) : Decidable (concerns userId t o) := by
  unfold concerns
  split <;> infer_instance

/-- What the request draws is new. -/
def FreshDraws (t : Tables) : Op → Prop
  | .portal _ d _ => Fresh d t
  | _ => True

theorem setRecords_restrict {f : RecordRow → RecordRow}
    (hf : ∀ r ∈ t.records, r.customerId ∈ t.ownCustomers userId → f r = r) :
    (t.restrict userId).setRecords f = t.restrict userId := by
  have hmap : (t.restrict userId).records.map f = (t.restrict userId).records := by
    refine (List.map_congr_left fun r hr => ?_).trans (List.map_id _)
    obtain ⟨hmem, hown⟩ := List.mem_filter.mp hr
    exact hf r hmem (of_decide_eq_true hown)
  rw [Tables.setRecords, hmap]

theorem setChange_restrict {id : ℕ} {f : ChangeRow → ChangeRow}
    (hid : id ∉ (t.changes.filter fun x => x.recordId ∈ t.ownRecords userId).map ChangeRow.id) :
    (t.restrict userId).setChange id f = t.restrict userId := by
  have hmap : ((t.restrict userId).changes.map fun x => if x.id = id then f x else x) =
      (t.restrict userId).changes := by
    refine (List.map_congr_left fun x hx => ?_).trans (List.map_id _)
    have hne : x.id ≠ id := by
      rintro rfl
      exact hid (List.mem_map_of_mem hx)
    exact if_neg hne
  rw [Tables.setChange, hmap]

/-- A transition of a record that is not the user's. -/
theorem transition_unseen {recordId : ℕ} {target : Status} {changedBy : Option ℕ}
    {note : Option String} {a : Unit} (hno : recordId ∉ t.ownRecords userId)
    (hr : Svc.Returns (recordTransition recordId target changedBy note d) t a t') :
    t'.restrict userId = t.restrict userId := by
  obtain ⟨e, he, -, rfl⟩ := returns_recordTransition hr
  have hadd : (t.addEvent e).restrict userId = t.restrict userId := by
    rw [restrict_addEvent, he, if_neg hno]
  rw [restrict_setRecords moved_id moved_customerId]
  refine (setRecords_restrict (t := t.addEvent e) fun r hmem hown => ?_).trans hadd
  have hne : r.id ≠ recordId := by
    rintro rfl
    exact hno (mem_ownRecords.mpr ⟨r, hmem, hown, rfl⟩)
  exact if_neg hne

/-- What does not concern a user leaves the user's rows. -/
theorem step_unseen {o : Op} (h : Valid t) (hno : ¬ concerns userId t o) :
    (step env t o).restrict userId = t.restrict userId := by
  cases o with
  | portal user d request =>
    exact commit_induction (Q := fun t' => t'.restrict userId = t.restrict userId) rfl
      fun a t' hr => (request_writes hr).unseen h hno
  | adminUpdate id patch =>
    refine commit_induction (Q := fun t' => t'.restrict userId = t.restrict userId) rfl
      fun a t' hr => ?_
    rw [← returns_adminUpdateCustomer hr, restrict_setCustomer (f := patch.apply env)
      (fun _ => rfl) fun _ => rfl, setCustomer_restrict hno]
  | softDelete id now =>
    refine commit_induction (Q := fun t' => t'.restrict userId = t.restrict userId) rfl
      fun a t' hr => ?_
    rcases returns_softDeleteCustomer hr with rfl | rfl
    · rfl
    · rw [restrict_setRecords softDeleted_id softDeleted_customerId,
        restrict_setCustomer (f := CustomerRow.softDeleted now) (fun _ => rfl) fun _ => rfl,
        setCustomer_restrict hno]
      refine setRecords_restrict fun r _ hown => if_neg fun hid => hno ?_
      exact hid.1 ▸ hown
  | walkin d payload =>
    refine commit_induction (Q := fun t' => t'.restrict userId = t.restrict userId) rfl
      fun a t' hr => ?_
    obtain ⟨c, hu, hnew, rfl⟩ := returns_createWalkin hr
    rw [restrict_addCustomer h hnew, if_neg (by simp [hu])]
  | transition d recordId target changedBy note =>
    exact commit_induction (Q := fun t' => t'.restrict userId = t.restrict userId) rfl
      fun a t' hr => transition_unseen hno hr
  | resolve d resolver changeId newStatus notes =>
    refine commit_induction (Q := fun t' => t'.restrict userId = t.restrict userId) rfl
      fun a t' hr => ?_
    obtain ⟨target, notes, x, hx, hxid, hcase⟩ := returns_resolveChangeRequest hr
    have hset : (t.setChange changeId (ChangeRow.resolved target notes d.now resolver)).restrict
        userId = t.restrict userId := by
      rw [restrict_setChange (f := ChangeRow.resolved target notes d.now resolver) fun _ => rfl,
        setChange_restrict hno]
    rcases hcase with rfl | ⟨note, a', hr⟩
    · exact hset
    · refine (transition_unseen (fun hown => hno ?_) hr).trans hset
      exact hxid ▸ List.mem_map_of_mem (List.mem_filter.mpr ⟨hx, decide_eq_true hown⟩)
  | erase v now =>
    refine commit_induction (Q := fun t' => t'.restrict userId = t.restrict userId) rfl
      fun a t' hr => ?_
    rcases returns_finalizeDeletion hr with rfl | ⟨c, hc, hu, rfl⟩
    · rfl
    · rw [restrict_setCustomer (f := CustomerRow.scrubbed now) (fun _ => rfl) fun _ => rfl]
      refine setCustomer_restrict fun hown => hno ?_
      have hself := (own_customer_iff h hc).mp hown
      rw [hu] at hself
      exact Option.some.inj hself
  | category id active => exact absurd trivial hno
  | office routing isUser => rfl

/-! ### What concerns the user -/

/-- The row of a key of the user is the user's. -/
theorem filter_key_own {α : Type} {l : List α} {own : α → Bool} {id : α → ℕ} {k : ℕ}
    (h : ∀ a ∈ l, id a = k → own a = true) :
    (l.filter own).filter (fun a => id a = k) = l.filter fun a => id a = k := by
  rw [List.filter_filter]
  refine List.filter_congr fun a ha => ?_
  by_cases hk : id a = k
  · simp [hk, h a ha hk]
  · simp [hk]

theorem customer_restrict {k : ℕ} (h : Valid t) (hk : k ∈ t.ownCustomers userId) :
    ((t.restrict userId).customers.filter fun c => c.id = k) =
      t.customers.filter fun c => c.id = k :=
  filter_key_own fun _ hc hid => decide_eq_true ((own_customer_iff h hc).mp (hid ▸ hk))

theorem record_restrict {k : ℕ} (h : Valid t) (hk : k ∈ t.ownRecords userId) :
    ((t.restrict userId).records.filter fun r => r.id = k) =
      t.records.filter fun r => r.id = k :=
  filter_key_own fun _ hr hid => decide_eq_true ((own_record_iff h hr).mp (hid ▸ hk))

theorem change_restrict {k : ℕ} (h : Valid t)
    (hk : k ∈ (t.changes.filter fun x => x.recordId ∈ t.ownRecords userId).map ChangeRow.id) :
    ((t.restrict userId).changes.filter fun x => x.id = k) =
      t.changes.filter fun x => x.id = k := by
  refine filter_key_own fun x hx hid => ?_
  obtain ⟨y, hy, hyid⟩ := List.mem_map.mp hk
  obtain ⟨hmem, hown⟩ := List.mem_filter.mp hy
  rw [List.inj_on_of_nodup_map h.changeKeys hx hmem (hid.trans hyid.symm)]
  exact hown

theorem commutes_one {α : Type} {l : List α} : Commutes (Tables.restrict userId) P (one l) :=
  commutes_expect

/-- A service that begins with the one row of a query. -/
theorem commutes_fetch {α β : Type} {g : Tables → List α} {e : Exn} {f : α → Service β}
    (hg : ∀ t, P t → g (t.restrict userId) = g t)
    (hf : ∀ a, Commutes (Tables.restrict userId) (fun t => a ∈ g t ∧ P t) (f a)) :
    Commutes (Tables.restrict userId) P
      (Svc.read g >>= fun l => one l >>= fun o => Svc.expect o e >>= f) := by
  refine commutes_read_bind hg fun l => commutes_bind (fun o t => l = o.toList ∧ l = g t ∧ P t)
    commutes_one ?_ fun o => commutes_expect_bind fun a ho => (hf a).imp ?_
  · intro t o t' ht h
    obtain ⟨hl, rfl⟩ := returns_one.mp h
    exact ⟨hl, ht⟩
  · rintro t ⟨hl, hgt, ht⟩
    refine ⟨?_, ht⟩
    rw [← hgt, hl, ho]
    exact List.mem_singleton_self a

theorem commutes_adminUpdateCustomer {id : ℕ} {patch : AdminPatch} :
    Commutes (Tables.restrict userId) (fun t => Valid t ∧ id ∈ t.ownCustomers userId)
      (adminUpdateCustomer env id patch) := by
  unfold adminUpdateCustomer selectCustomerById
  simp only [bind_assoc]
  refine commutes_fetch (fun t ht => customer_restrict ht.1 ht.2) fun c => ?_
  refine commutes_require_bind fun _ => commutes_require_bind fun _ =>
    commutes_require_bind fun _ => commutes_modify fun t _ => ?_
  exact (restrict_setCustomer (f := patch.apply env) (fun _ => rfl) fun _ => rfl).symm

theorem commutes_softDeleteCustomer {id : ℕ} {now : ℤ} :
    Commutes (Tables.restrict userId) (fun t => Valid t ∧ id ∈ t.ownCustomers userId)
      (softDeleteCustomer id now) := by
  unfold softDeleteCustomer selectCustomerById
  simp only [bind_assoc]
  refine commutes_fetch (fun t ht => customer_restrict ht.1 ht.2) fun c => ?_
  split
  · exact commutes_pure
  · refine commutes_modify fun t _ => ?_
    rw [restrict_setRecords softDeleted_id softDeleted_customerId,
      restrict_setCustomer (f := CustomerRow.softDeleted now) (fun _ => rfl) fun _ => rfl]

theorem commutes_recordTransition {recordId : ℕ} {target : Status} {changedBy : Option ℕ}
    {note : Option String} :
    Commutes (Tables.restrict userId) (fun t => Valid t ∧ recordId ∈ t.ownRecords userId)
      (recordTransition recordId target changedBy note d) := by
  refine commutes_fetch (fun t ht => record_restrict ht.1 ht.2) fun r => ?_
  refine commutes_require_bind fun _ => commutes_require_bind fun _ =>
    commutes_modify fun t ht => ?_
  rw [restrict_setRecords moved_id moved_customerId, restrict_addEvent, if_pos ht.2.2]

theorem commutes_resolveChangeRequest {resolver changeId : ℕ} {newStatus : String}
    {notes : Option String} :
    Commutes (Tables.restrict userId) (fun t => Valid t ∧
        changeId ∈ (t.changes.filter fun x => x.recordId ∈ t.ownRecords userId).map ChangeRow.id)
      (resolveChangeRequest env d resolver changeId newStatus notes) := by
  refine commutes_expect_bind fun target _ =>
    commutes_fetch (fun t ht => change_restrict ht.1 ht.2) fun x => commutes_require_bind fun _ =>
      commutes_bind (fun _ t => Valid t ∧ x.recordId ∈ t.ownRecords userId)
        (commutes_modify fun t _ => ?_) ?_ fun _ => ?_
  · exact (restrict_setChange (f := ChangeRow.resolved target (sanitizePlain env notes) d.now
      resolver) fun _ => rfl).symm
  · rintro t a t' ⟨hx, hv, hk⟩ h
    rw [← Svc.returns_modify.mp h]
    refine ⟨hv.setChange (fun _ => rfl) fun _ => rfl, ?_⟩
    obtain ⟨hmem, hid⟩ := List.mem_filter.mp hx
    obtain ⟨y, hy, hyid⟩ := List.mem_map.mp hk
    obtain ⟨hymem, hown⟩ := List.mem_filter.mp hy
    have hxy := List.inj_on_of_nodup_map hv.changeKeys hmem hymem
      ((of_decide_eq_true hid).trans hyid.symm)
    exact hxy ▸ of_decide_eq_true hown
  · unfold Svc.onlyIf
    split
    · exact commutes_recordTransition
    · exact commutes_pure

theorem commutes_finalizeDeletion {now : ℤ} :
    Commutes (Tables.restrict userId) P (finalizeDeletion userId now) := by
  refine commutes_select fun o => ?_
  cases o with
  | none => exact commutes_pure
  | some c =>
    exact commutes_modify fun t _ =>
      (restrict_setCustomer (f := CustomerRow.scrubbed now) (fun _ => rfl) fun _ => rfl).symm

/-- What concerns a user, and is not misrouted, does to the user's rows what it does to the
    tables. -/
theorem step_seen {o : Op} (h : Valid t) (hf : FreshDraws t o) (hc : concerns userId t o)
    (hcalm : ¬ Misrouted env userId t o) :
    (step env t o).restrict userId = step env (t.restrict userId) o ∧
      answer env userId t o = answer env userId (t.restrict userId) o := by
  cases o with
  | portal user d request =>
    obtain rfl : user.id = userId := hc
    have hreq := (request_commutes request).request ⟨⟨h, hf⟩, hcalm⟩
    refine ⟨(congrArg Prod.snd hreq).symm, ?_⟩
    simp only [answer, commit, hreq]
  | adminUpdate id patch =>
    exact ⟨(congrArg Prod.snd (commutes_adminUpdateCustomer.request ⟨h, hc⟩)).symm, rfl⟩
  | softDelete id now =>
    exact ⟨(congrArg Prod.snd (commutes_softDeleteCustomer.request ⟨h, hc⟩)).symm, rfl⟩
  | walkin d payload => exact absurd hc id
  | transition d recordId target changedBy note =>
    exact ⟨(congrArg Prod.snd (commutes_recordTransition.request ⟨h, hc⟩)).symm, rfl⟩
  | resolve d resolver changeId newStatus notes =>
    exact ⟨(congrArg Prod.snd (commutes_resolveChangeRequest.request ⟨h, hc⟩)).symm, rfl⟩
  | erase v now =>
    obtain rfl : v = userId := hc
    exact ⟨(congrArg Prod.snd (commutes_finalizeDeletion.request h)).symm, rfl⟩
  | category id active => exact ⟨rfl, rfl⟩
  | office routing isUser => exact absurd hc id

theorem exec_isOk {α : Type} {m : Service α} :
    (Svc.exec m t).1.isOk = true ↔ ∃ a t', Svc.Returns m t a t' := by
  unfold Svc.Returns
  match Svc.exec m t with
  | (.ok a, t') => exact iff_of_true rfl ⟨a, t', rfl⟩
  | (.error e, t') => exact iff_of_false nofun (by simp)

/-- A misrouted intake is one that is stored and fails nevertheless. -/
theorem misrouted_iff {payload : LeadRouting.IntakeSubmission} :
    Misrouted env user.id t (.portal user d (.submitIntake payload)) ↔
      (∃ stored t', Svc.Returns (storeIntake env user d payload) t stored t') ∧
        ¬ ∃ a t', Svc.Returns (submitIntake env user d payload) t a t' := by
  constructor
  · rintro ⟨-, r, c, t1, hstored, hharm⟩
    refine ⟨⟨_, t1, hstored⟩, ?_⟩
    rintro ⟨a, t', h⟩
    obtain ⟨r', c', t2, hstored', hsafe, -⟩ := returns_submitIntake.mp h
    obtain ⟨heq, rfl⟩ := hstored.unique hstored'
    cases heq
    exact hharm hsafe
  · rintro ⟨⟨⟨r, c⟩, t1, hstored⟩, hraises⟩
    refine ⟨rfl, r, c, t1, hstored, fun hsafe => hraises ?_⟩
    exact ⟨_, _, returns_submitIntake.mpr ⟨r, c, t1, hstored, hsafe, rfl, rfl⟩⟩

theorem Misrouted.concerns {o : Op} (h : Misrouted env userId t o) : concerns userId t o := by
  cases o with
  | portal user d request =>
    cases request with
    | submitIntake payload => exact h.1
    | _ => exact absurd h id
  | _ => exact absurd h id

/-- A request whose service does not return is answered an error. -/
theorem commit_raises {α : Type} {m : Service α} (h : ¬ ∃ a t', Svc.Returns m t a t') :
    ∃ e, (commit m t).1 = .error e := by
  rcases Svc.request_cases (fun before _ => before) m t with ⟨a, t', hr, -⟩ | ⟨e, t', -, hx⟩
  · exact absurd ⟨a, t', hr⟩ h
  · exact ⟨e, congrArg Prod.fst hx⟩

/-- A misrouted intake is answered an error. On the rows of the user alone it is accepted. -/
theorem misrouted_disturbed {o : Op} (h : Valid t) (hf : FreshDraws t o)
    (hmis : Misrouted env userId t o) :
    ∃ a b, answer env userId t o = some a ∧ answer env userId (t.restrict userId) o = some b ∧
      a ≠ b := by
  cases o with
  | portal user d request =>
    cases request with
    | submitIntake payload =>
      obtain rfl : user.id = userId := hmis.1
      obtain ⟨⟨⟨r, c⟩, t1, hstored⟩, hraises⟩ := misrouted_iff.mp hmis
      obtain ⟨e, he⟩ := commit_raises hraises
      have hview : Svc.Returns (submitIntake env user d payload) (t.restrict user.id) _ _ :=
        returns_submitIntake.mpr ⟨r, c, _, commutes_storeIntake.returns ⟨h, hf⟩ hstored,
          routesSafely_restrict, rfl, rfl⟩
      have hok : (commit (submitIntake env user d payload) (t.restrict user.id)).1 = .ok _ :=
        congrArg Prod.fst (Svc.request_of_returns hview)
      refine ⟨_, _, if_pos rfl, if_pos rfl, fun heq => ?_⟩
      cases (he.symm.trans heq).trans hok
    | _ => exact absurd hmis id
  | _ => exact absurd hmis id

/-- A user observes the rows of the profile. -/
theorem portal_observes (env : Env) (userId : ℕ) :
    Observes (step env) (answer env userId) (concerns userId) (Tables.restrict userId) Valid
      FreshDraws (Misrouted env userId) where
  kept _ _ h _ := valid_step h
  unseen t o h _ hno := by
    refine ⟨fun hmis => hno hmis.concerns, step_unseen h hno, ?_⟩
    cases o with
    | portal user d request => exact if_neg hno
    | _ => rfl
  seen _ _ h hf hc hcalm := step_seen h hf hc hcalm
  disturbed _ _ h hf hmis := misrouted_disturbed h hf hmis

theorem restrict_empty (userId : ℕ) (activeCategory : ℕ → Bool) :
    (Tables.empty activeCategory).restrict userId = Tables.empty activeCategory := rfl

/-- **Portals are isolated but for routing**: what the portal of a user is answered in a run is
    what it is answered in the run without the requests of the other users, without what the
    staff does to their rows and without what is done to the tables of routing, exactly when no
    stored intake of the user is misrouted. The rows of the user are then the same, too. -/
theorem portal_isolated_iff (env : Env) (userId : ℕ) (activeCategory : ℕ → Bool) (ops : List Op)
    (hops : AllSteps (step env) FreshDraws (Tables.empty activeCategory) ops) :
    (eventsOf (step env) (answer env userId) (Tables.empty activeCategory) ops =
        eventsOf (step env) (answer env userId) (Tables.empty activeCategory)
          (purge (step env) (concerns userId) (Tables.empty activeCategory) ops) ↔
      AllSteps (step env) (fun t o => ¬ Misrouted env userId t o) (Tables.empty activeCategory)
        ops) ∧
    (AllSteps (step env) (fun t o => ¬ Misrouted env userId t o) (Tables.empty activeCategory)
        ops →
      (run (step env) (Tables.empty activeCategory) ops).restrict userId =
        run (step env) (Tables.empty activeCategory)
          (purge (step env) (concerns userId) (Tables.empty activeCategory) ops)) := by
  have hobs := portal_observes env userId
  have hv := valid_empty activeCategory
  rw [← restrict_empty userId activeCategory] at *
  exact ⟨hobs.events_iff hv hops, hobs.run hv hops⟩

/-! ### A rep who is no user -/

/-- Texts that need no cleaning. -/
def plainEnv : Env where
  clean := id
  upper := id
  photo := ⟨id, fun _ => true, fun n => Nat.repr n, fun _ => ""⟩
  routing := LeadRouting.asciiEnv

/-- The rules in the order of their keys. -/
def inKeyOrder : RowOrder := ⟨fun db => db.rules.select fun _ rule => rule.isLiveEnabled,
  fun _ => List.Perm.refl _⟩

/-- The draws whose identifiers begin at `n`. -/
def drawsFrom (n : ℕ) : Draws :=
  ⟨0, n, n, fun i => n + i, n, n, fun _ => Nat.repr n, inKeyOrder⟩

def maxBorn : Account := ⟨10, "max@example.com", "Max", "Born"⟩

def adaByron : Account := ⟨20, "ada@example.com", "Ada", "Byron"⟩

/-- An intake that draws identifiers from the user's id on. -/
def intakeOf (user : Account) : Op :=
  .portal user (drawsFrom user.id) (.submitIntake { make := some "Caterpillar" })

/-- The tables of routing hold a rotation of the users 1 and 2, of whom 2 is no user. Max's
    intake takes the turn of 1, so that Ada's takes the turn of 2. -/
def twoIntakes : List Op :=
  [.office ⟨Store.empty.create (LeadRouting.rotation 0), LeadRouting.emptyRoster, none⟩
      fun u => u ≠ 2,
    intakeOf maxBorn, intakeOf adaByron]

theorem freshRows_of_empty (hr : t.records = []) (hp : t.photos = []) (hx : t.changes = []) :
    FreshRows d t := by
  constructor <;> simp [hr, hp, hx]

/-- The tables before Ada's intake. -/
def afterMax : Tables := run (step plainEnv) (Tables.empty fun _ => true) (twoIntakes.take 2)

theorem afterMax_fresh : Fresh (drawsFrom 20) afterMax := by
  have hcustomers : ∀ c ∈ afterMax.customers, c.id = 10 :=
    List.forall_mem_map.mp (by decide +kernel : ∀ k ∈ afterMax.customers.map CustomerRow.id, k = 10)
  have hrecords : ∀ r ∈ afterMax.records, r.id = 10 ∧ r.referenceNumber = some "10" := by
    decide +kernel
  have hphotos : afterMax.photos = [] := by decide +kernel
  have hchanges : afterMax.changes = [] := by decide +kernel
  refine ⟨⟨fun r hr => ?_, by simp [hphotos], by simp [hchanges], fun r hr _ => ?_⟩, fun c hc => ?_⟩
  · rw [(hrecords r hr).1]
    decide
  · rw [(hrecords r hr).2]
    show some "10" ≠ some (Nat.repr 20)
    decide
  · rw [hcustomers c hc]
    decide

theorem twoIntakes_fresh :
    AllSteps (step plainEnv) FreshDraws (Tables.empty fun _ => true) twoIntakes :=
  ⟨trivial, ⟨freshRows_of_empty rfl rfl rfl, nofun⟩, afterMax_fresh, trivial⟩

/-- Max's answer is the one without Ada's intake and without the rotation; Ada's is not. -/
theorem twoIntakes_seen :
    eventsOf (step plainEnv) (answer plainEnv 10) (Tables.empty fun _ => true) twoIntakes =
        eventsOf (step plainEnv) (answer plainEnv 10) (Tables.empty fun _ => true)
          [intakeOf maxBorn] ∧
      eventsOf (step plainEnv) (answer plainEnv 20) (Tables.empty fun _ => true) twoIntakes ≠
        eventsOf (step plainEnv) (answer plainEnv 20) (Tables.empty fun _ => true)
          [intakeOf adaByron] := by
  constructor
  · refine (portal_isolated_iff plainEnv 10 (fun _ => true) twoIntakes twoIntakes_fresh).1.mpr
      ⟨id, fun hmis => ?_, fun hmis => absurd hmis.1 (by decide), trivial⟩
    exact (misrouted_iff.mp hmis).2 (exec_isOk.mp (by decide +kernel))
  · intro h
    obtain ⟨-, -, hlast, -⟩ :=
      (portal_isolated_iff plainEnv 20 (fun _ => true) twoIntakes twoIntakes_fresh).1.mp h
    refine hlast (misrouted_iff.mpr ⟨exec_isOk.mp (by decide +kernel), fun hreturns => ?_⟩)
    exact absurd (exec_isOk.mpr hreturns) (by decide +kernel)

end TempleConsign.Portal
