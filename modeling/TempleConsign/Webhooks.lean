import TempleConsign.Contracts

/-!
# eSign webhooks in any order

A webhook may be delivered twice, late and out of order. `Watch` runs the
requests and notes, for each envelope, the first event that was delivered for
it, and whether a webhook ever moved a record that was listed or sold.

Results:
* `step_envelopeCompleted`, `step_envelopeDeclined`: what a delivery does.
* `watchStep_safe_iff`: what a request needs to keep a run safe.
* `webhook_safe_iff`: a run is safe exactly when every delivery agrees with the
  first one for its envelope and the first one is in time.
-/

namespace TempleConsign

open ServiceLib

/-! ## Deliveries -/

theorem FindsContract.unique {db : Db} {e k k' : ℕ} {c c' : ConsignmentContract}
    (h : FindsContract db e k c) (h' : FindsContract db e k' c') : k' = k ∧ c' = c := by
  have heq := Option.some.inj (Option.some.inj (h'.symm.trans h))
  exact ⟨congrArg Prod.fst heq, congrArg Prod.snd heq⟩

/-- A webhook for an envelope that no contract carries answers 404. -/
theorem step_unknown_envelope (env : Env) {db : Db} {op : Op} {e : ℕ}
    (hop : (∃ now, op = .envelopeCompleted now e) ∨ op = .envelopeDeclined e)
    (hno : ∀ k c, ¬ FindsContract db e k c) :
    (step env db op).contracts = db.contracts ∧ (step env db op).records = db.records := by
  rcases step_cases env db op with h | ⟨-, envelopes, h⟩
  · unfold Accepted at h
    rcases hop with ⟨now, rfl⟩ | rfl
    · obtain ⟨⟨k, c⟩, hc, -⟩ := returns_handleEnvelopeCompleted.mp h
      exact absurd hc (hno k c)
    · obtain ⟨⟨k, c⟩, hc, -⟩ := returns_handleEnvelopeDeclined.mp h
      exact absurd hc (hno k c)
  · rw [h]
    exact ⟨rfl, rfl⟩

/-- A completed event changes nothing on a completed contract, or on a record
    that is already in `esigned_pending_publish`, where it answers 409; else it
    signs the contract and moves the record. -/
theorem step_envelopeCompleted (env : Env) {db : Db} (now : ℤ) {e k : ℕ} {c : ConsignmentContract}
    (hc : FindsContract db e k c) :
    ((c.status = .completed ∨
        ∃ r, db.records.get? c.recordId = some r ∧ r.status = .esignedPendingPublish) ∧
      (step env db (.envelopeCompleted now e)).contracts = db.contracts ∧
      (step env db (.envelopeCompleted now e)).records = db.records) ∨
    (c.status ≠ .completed ∧
      (∀ r, db.records.get? c.recordId = some r → r.status ≠ .esignedPendingPublish) ∧
      (step env db (.envelopeCompleted now e)).contracts = (db.contracts.modify k fun c =>
        { c with status := .completed, signedAt := some now }) ∧
      ∀ id, (step env db (.envelopeCompleted now e)).records.get? id =
        if id = c.recordId then
          (db.records.get? id).map fun r => { r with status := .esignedPendingPublish }
        else db.records.get? id) := by
  rcases step_cases env db (.envelopeCompleted now e) with h | ⟨hno, envelopes, h⟩
  · obtain ⟨⟨k', c'⟩, hc', hcase⟩ := returns_handleEnvelopeCompleted.mp h
    obtain ⟨rfl, rfl⟩ := FindsContract.unique hc hc'
    rcases hcase with ⟨hst, hdb⟩ | ⟨hst, hnone, hdb⟩ | ⟨hst, record, hr, hne, hdb⟩
    · rw [← hdb]
      exact Or.inl ⟨Or.inl hst, rfl, rfl⟩
    · rw [← hdb]
      refine Or.inr ⟨hst, fun r hr => ?_, rfl, fun id => ?_⟩
      · rw [hnone] at hr
        cases hr
      · split_ifs with hid
        · rw [hid, hnone]
          rfl
        · rfl
    · rw [← hdb]
      refine Or.inr ⟨hst, fun r hr' => ?_, rfl, fun id => transition_records _ _ _ _ _ _ id⟩
      rw [hr] at hr'
      cases hr'
      exact hne
  · -- the request was refused: only the 409 is left
    rw [h]
    refine Or.inl ⟨?_, rfl, rfl⟩
    by_contra hcon
    simp only [not_or, not_exists, not_and] at hcon
    obtain ⟨hst, hrec⟩ := hcon
    cases hr : db.records.get? c.recordId with
    | none =>
      exact hno _ (returns_handleEnvelopeCompleted.mpr
        ⟨(k, c), hc, Or.inr (Or.inl ⟨hst, hr, rfl⟩)⟩)
    | some r =>
      exact hno _ (returns_handleEnvelopeCompleted.mpr
        ⟨(k, c), hc, Or.inr (Or.inr ⟨hst, r, hr, hrec r hr, rfl⟩)⟩)

/-- A declined event changes nothing on a declined contract; else it declines
    the contract and moves the record to `approved_pending_esign`. -/
theorem step_envelopeDeclined (env : Env) {db : Db} {e k : ℕ} {c : ConsignmentContract}
    (hc : FindsContract db e k c) :
    (c.status = .declined ∧
      (step env db (.envelopeDeclined e)).contracts = db.contracts ∧
      (step env db (.envelopeDeclined e)).records = db.records) ∨
    (c.status ≠ .declined ∧
      (step env db (.envelopeDeclined e)).contracts = (db.contracts.modify k fun c =>
        { c with status := .declined }) ∧
      ∀ id, (step env db (.envelopeDeclined e)).records.get? id =
        if id = c.recordId then
          (db.records.get? id).map fun r => { r with status := .approvedPendingEsign }
        else db.records.get? id) := by
  rcases step_cases env db (.envelopeDeclined e) with h | ⟨hno, envelopes, h⟩
  · obtain ⟨⟨k', c'⟩, hc', hcase⟩ := returns_handleEnvelopeDeclined.mp h
    obtain ⟨rfl, rfl⟩ := FindsContract.unique hc hc'
    rcases hcase with ⟨hst, hdb⟩ | ⟨hst, hrec, hdb⟩ | ⟨hst, record, -, -, hdb⟩
    · rw [← hdb]
      exact Or.inl ⟨hst, rfl, rfl⟩
    · rw [← hdb]
      refine Or.inr ⟨hst, rfl, fun id => ?_⟩
      split_ifs with hid
      · -- the record is there already
        subst hid
        show db.records.get? _ = _
        cases hr : db.records.get? c'.recordId with
        | none => rfl
        | some r =>
          have hs := hrec r hr
          rw [Option.map_some, ← hs]
      · rfl
    · rw [← hdb]
      exact Or.inr ⟨hst, rfl, fun id => transition_records _ _ _ _ _ _ id⟩
  · refine absurd ?_ (hno db)
    by_cases hst : c.status = .declined
    · exact returns_handleEnvelopeDeclined.mpr ⟨(k, c), hc, Or.inl ⟨hst, rfl⟩⟩
    · by_cases hrec : ∀ r, db.records.get? c.recordId = some r → r.status = .approvedPendingEsign
      · exact absurd (returns_handleEnvelopeDeclined.mpr
          ⟨(k, c), hc, Or.inr (Or.inl ⟨hst, hrec, rfl⟩)⟩) (hno _)
      · simp only [not_forall] at hrec
        obtain ⟨r, hr, hne⟩ := hrec
        exact absurd (returns_handleEnvelopeDeclined.mpr
          ⟨(k, c), hc, Or.inr (Or.inr ⟨hst, r, hr, hne, rfl⟩)⟩) (hno _)

/-! ## Watching a run -/

/-- What the first event of an envelope makes of its contract. -/
structure Delivery where
  status : ContractStatus
  signedAt : Option ℤ
  deriving DecidableEq

/-- The envelope a webhook is for, and what it makes of the contract. -/
def deliveryOf : Op → Option (ℕ × Delivery)
  | .envelopeCompleted now e => some (e, ⟨.completed, some now⟩)
  | .envelopeDeclined e => some (e, ⟨.declined, none⟩)
  | _ => none

/-- A contract carries the envelope. -/
def carries (db : Db) (e : ℕ) : Bool := db.contracts.exists? fun _ c => c.envelopeId = some e

/-- The first deliveries, after request `op`. -/
def noteFirst (db : Db) (op : Op) (first : ℕ → Option Delivery) : ℕ → Option Delivery :=
  match deliveryOf op with
  | none => first
  | some (e, d) =>
    if first e = none ∧ carries db e = true then Function.update first e (some d) else first

/-- Past `esigned_pending_publish`. -/
def Status.isAdvanced (s : Status) : Bool := s = .listed || s = .sold

/-- Some listed or sold record of `db` has another status in `db'`. -/
def movesAdvanced (db db' : Db) : Bool :=
  db.records.exists? fun id r => r.status.isAdvanced && db'.statusOf id ≠ some r.status

/-- A run, the first delivery for each envelope and whether a webhook has moved
    a listed or sold record. -/
structure Watch where
  db : Db
  first : ℕ → Option Delivery
  movedBack : Bool

def Watch.init (users : Store User) (customers : Store Customer) : Watch :=
  ⟨Db.init users customers, fun _ => none, false⟩

def watchStep (env : Env) (w : Watch) (op : Op) : Watch where
  db := step env w.db op
  first := noteFirst w.db op w.first
  movedBack := w.movedBack || ((deliveryOf op).isSome && movesAdvanced w.db (step env w.db op))

theorem watchStep_db (env : Env) (w : Watch) (op : Op) :
    (watchStep env w op).db = step env w.db op := rfl

theorem watchStep_first (env : Env) (w : Watch) (op : Op) :
    (watchStep env w op).first = noteFirst w.db op w.first := rfl

/-- The first delivery for an envelope decides its contract, and no webhook has
    moved a listed or sold record. -/
structure WebhookSafe (w : Watch) : Prop where
  decided : ∀ k c e d, w.db.contracts.get? k = some c → c.envelopeId = some e →
    w.first e = some d → c.status = d.status ∧ c.signedAt = d.signedAt
  notMoved : w.movedBack = false

/-- The delivery agrees with what the first one made of the contract (a
    completed event for a declined contract also may come while its record is in
    `esigned_pending_publish`, where it is refused), and a first one comes before
    the record is listed or sold and, to complete, before it is in
    `esigned_pending_publish`. -/
def InOrder (db : Db) : Op → Prop
  | .envelopeCompleted _ e => ∀ k c, FindsContract db e k c →
      (c.status = .sent → ∀ r, db.records.get? c.recordId = some r →
        r.status ≠ .esignedPendingPublish ∧ r.status.isAdvanced = false) ∧
      (c.status = .declined →
        ∃ r, db.records.get? c.recordId = some r ∧ r.status = .esignedPendingPublish)
  | .envelopeDeclined e => ∀ k c, FindsContract db e k c →
      c.status ≠ .completed ∧
      (c.status = .sent → ∀ r, db.records.get? c.recordId = some r → r.status.isAdvanced = false)
  | _ => True

/-! ## The invariant of a watched run -/

/-- A contract is as it was sent until the first delivery for its envelope. -/
structure WatchInv (w : Watch) : Prop where
  contracts : ContractsInv w.db
  knownFirst : ∀ e d, w.first e = some d → e < w.db.envelopes.next ∧ d.status ≠ .sent
  unseen : ∀ k c e, w.db.contracts.get? k = some c → c.envelopeId = some e → w.first e = none →
    c.status = .sent ∧ c.signedAt = none

theorem watchInv_init (users : Store User) (customers : Store Customer) :
    WatchInv (Watch.init users customers) where
  contracts := contractsInv_init users customers
  knownFirst := fun e d h => by cases h
  unseen := fun k c e h => by simp [Watch.init, Db.init] at h

variable {env : Env} {w : Watch} {op : Op}

theorem carries_iff {db : Db} {e : ℕ} :
    carries db e = true ↔ ∃ k c, db.contracts.get? k = some c ∧ c.envelopeId = some e := by
  simp [carries]

theorem FindsContract.carries {db : Db} {e k : ℕ} {c : ConsignmentContract}
    (h : FindsContract db e k c) : carries db e = true :=
  carries_iff.mpr ⟨k, c, h.row⟩

theorem noteFirst_none {db : Db} {first : ℕ → Option Delivery} (h : deliveryOf op = none) :
    noteFirst db op first = first := by
  simp [noteFirst, h]

/-- A delivery for envelope `e` notes nothing for another one. -/
theorem noteFirst_ne {db : Db} {first : ℕ → Option Delivery} {e e' : ℕ} {d : Delivery}
    (h : deliveryOf op = some (e, d)) (hne : e' ≠ e) : noteFirst db op first e' = first e' := by
  simp only [noteFirst, h]
  split_ifs
  · exact Function.update_of_ne hne _ _
  · rfl

theorem noteFirst_self {db : Db} {first : ℕ → Option Delivery} {e : ℕ} {d : Delivery}
    (h : deliveryOf op = some (e, d)) (hc : carries db e = true) :
    noteFirst db op first e = some ((first e).getD d) := by
  simp only [noteFirst, h, hc, and_true]
  cases hf : first e with
  | none => simp
  | some d' => simp [hf]

/-- A first delivery that is noted stays. -/
theorem noteFirst_of_some {db : Db} {first : ℕ → Option Delivery} {e : ℕ} {d : Delivery}
    (h : first e = some d) : noteFirst db op first e = some d := by
  cases hop : deliveryOf op with
  | none => rw [noteFirst_none hop, h]
  | some ed =>
    by_cases he : e = ed.1
    · subst he
      simp only [noteFirst, hop]
      rw [if_neg, h]
      rw [h]
      exact fun hc => Option.some_ne_none d hc.1
    · rw [noteFirst_ne hop he, h]

/-- Where a noted delivery comes from. -/
theorem noteFirst_eq_some {db : Db} {first : ℕ → Option Delivery} {e : ℕ} {d : Delivery}
    (h : noteFirst db op first e = some d) :
    first e = some d ∨ deliveryOf op = some (e, d) ∧ carries db e = true := by
  cases hf : first e with
  | some d' =>
    rw [noteFirst_of_some hf] at h
    exact Or.inl h
  | none =>
    cases hop : deliveryOf op with
    | none =>
      rw [noteFirst_none hop, hf] at h
      cases h
    | some ed =>
      obtain ⟨e', d'⟩ := ed
      by_cases he : e = e'
      · subst he
        cases hc : carries db e with
        | true =>
          rw [noteFirst_self hop hc, hf] at h
          obtain rfl : d' = d := Option.some.inj h
          exact Or.inr ⟨rfl, rfl⟩
        | false =>
          simp only [noteFirst, hop, hc, Bool.false_eq_true, and_false, if_false, hf] at h
          cases h
      · rw [noteFirst_ne hop he, hf] at h
        cases h

theorem deliveryOf_status {e : ℕ} {d : Delivery} (h : deliveryOf op = some (e, d)) :
    d.status ≠ .sent := by
  cases op <;> simp only [deliveryOf, Option.some.injEq, Prod.mk.injEq, reduceCtorEq] at h
  all_goals
    obtain ⟨-, rfl⟩ := h
    exact fun hs => by cases hs

/-- After a delivery that changes contract `k`, the other rows are unseen as
    before. -/
theorem unseen_modify (hi : WatchInv w) {e0 k0 : ℕ} {c0 : ConsignmentContract} {d : Delivery}
    {f : ConsignmentContract → ConsignmentContract} (hop : deliveryOf op = some (e0, d))
    (hc : FindsContract w.db e0 k0 c0) (hf : ∀ c, (f c).envelopeId = c.envelopeId)
    (h : (step env w.db op).contracts = w.db.contracts.modify k0 f) {k e : ℕ}
    {c : ConsignmentContract} (hk : (step env w.db op).contracts.get? k = some c)
    (he : c.envelopeId = some e) (hfirst : noteFirst w.db op w.first e = none) :
    c.status = .sent ∧ c.signedAt = none := by
  have hnone : w.first e = none := by
    by_contra hne
    obtain ⟨d', hd'⟩ := Option.ne_none_iff_exists'.mp hne
    rw [noteFirst_of_some hd'] at hfirst
    cases hfirst
  rw [h, Store.get?_modify] at hk
  split_ifs at hk with hkk
  · rw [hkk, hc.row.1] at hk
    cases hk
    rw [hf, hc.row.2] at he
    cases he
    rw [noteFirst_self hop hc.carries] at hfirst
    cases hfirst
  · exact hi.unseen k c e hk he hnone

theorem watchStep_inv (env : Env) (op : Op) (hi : WatchInv w) : WatchInv (watchStep env w op) := by
  refine ⟨step_contractsInv env op hi.contracts, fun e d h => ?_, fun k c e hk he hfirst => ?_⟩
  · have hnext := step_envelopes env w.db op
    rcases noteFirst_eq_some h with h | ⟨hop, hc⟩
    · obtain ⟨hlt, hst⟩ := hi.knownFirst e d h
      exact ⟨lt_of_lt_of_le hlt hnext, hst⟩
    · obtain ⟨k, c, hk, he⟩ := carries_iff.mp hc
      exact ⟨lt_of_lt_of_le (hi.contracts.known k c e hk he) hnext, deliveryOf_status hop⟩
  · have hnone : w.first e = none := by
      by_contra hne
      obtain ⟨d', hd'⟩ := Option.ne_none_iff_exists'.mp hne
      rw [watchStep_first, noteFirst_of_some hd'] at hfirst
      cases hfirst
    cases step_contracts env w.db op with
    | same h =>
      rw [watchStep_db, h] at hk
      exact hi.unseen k c e hk he hnone
    | sent recordId id hop hput hold hother hnext hrec =>
      rw [watchStep_db, hput] at hk
      split_ifs at hk
      · cases hk
        exact ⟨rfl, rfl⟩
      · exact hi.unseen k c e hk he hnone
    | completed now e0 k0 c0 hop hc hst h hrec =>
      subst hop
      exact unseen_modify hi rfl hc
        (f := fun c => { c with status := .completed, signedAt := some now }) (fun _ => rfl) h hk he
        hfirst
    | declined e0 k0 c0 hop hc hst h hrec =>
      subst hop
      exact unseen_modify hi rfl hc (f := fun c => { c with status := .declined }) (fun _ => rfl) h
        hk he hfirst

/-! ## What a delivery needs -/

theorem movesAdvanced_iff {db db' : Db} :
    movesAdvanced db db' = true ↔ ∃ id r, db.records.get? id = some r ∧ r.status.isAdvanced = true ∧
      db'.statusOf id ≠ some r.status := by
  simp [movesAdvanced]

theorem movesAdvanced_same {db db' : Db} (h : db'.records = db.records) :
    movesAdvanced db db' = false := by
  rw [← Bool.not_eq_true, movesAdvanced_iff]
  rintro ⟨id, r, hr, -, hne⟩
  exact hne (Db.statusOf_eq_some.mpr ⟨r, by rw [h]; exact hr, rfl⟩)

/-- A delivery that takes one record to a working status moves a listed or sold
    record exactly if that one was. -/
theorem movesAdvanced_one {db db' : Db} {recordId : ℕ} {target : Status}
    (ht : target.isAdvanced = false)
    (h : ∀ id, db'.records.get? id = if id = recordId then
      (db.records.get? id).map fun r => { r with status := target } else db.records.get? id) :
    movesAdvanced db db' = false ↔
      ∀ r, db.records.get? recordId = some r → r.status.isAdvanced = false := by
  rw [← Bool.not_eq_true, movesAdvanced_iff]
  constructor
  · intro hno r hr
    by_contra hadv
    rw [Bool.not_eq_false] at hadv
    refine hno ⟨recordId, r, hr, hadv, fun hs => ?_⟩
    obtain ⟨r', hr', hst⟩ := Db.statusOf_eq_some.mp hs
    rw [h, if_pos rfl, hr] at hr'
    cases hr'
    rw [← hst, ht] at hadv
    cases hadv
  · rintro hr ⟨id, r, hget, hadv, hne⟩
    by_cases hid : id = recordId
    · rw [hid] at hget
      rw [hr r hget] at hadv
      cases hadv
    · exact hne (Db.statusOf_eq_some.mpr ⟨r, by rw [h, if_neg hid]; exact hget, rfl⟩)

/-- A delivery that changes nothing, for an envelope that had one before. -/
theorem safe_unchanged (hs : WebhookSafe w) {e : ℕ} {d d0 : Delivery}
    (hop : deliveryOf op = some (e, d)) (hfirst : w.first e = some d0)
    (hcon : (step env w.db op).contracts = w.db.contracts)
    (hrec : (step env w.db op).records = w.db.records) : WebhookSafe (watchStep env w op) := by
  refine ⟨fun k c e' d' hk he hd => ?_, ?_⟩
  · rw [watchStep_db, hcon] at hk
    have hold : w.first e' = some d' := by
      rcases noteFirst_eq_some hd with hd | ⟨hop', -⟩
      · exact hd
      · rw [hop] at hop'
        cases hop'
        rw [watchStep_first, noteFirst_of_some hfirst] at hd
        rw [hfirst, hd]
    exact hs.decided k c e' d' hk he hold
  · show (w.movedBack || _) = false
    rw [hs.notMoved, movesAdvanced_same hrec]
    simp

/-- A first delivery takes effect; it is safe exactly if the record is not yet
    listed or sold. -/
theorem safe_first (hi : WatchInv w) (hs : WebhookSafe w) {e k : ℕ} {c : ConsignmentContract}
    {d : Delivery} {target : Status} {f : ConsignmentContract → ConsignmentContract}
    (hop : deliveryOf op = some (e, d)) (hc : FindsContract w.db e k c) (hnone : w.first e = none)
    (hf : (f c).status = d.status ∧ (f c).signedAt = d.signedAt ∧ (f c).envelopeId = c.envelopeId)
    (ht : target.isAdvanced = false)
    (hcon : (step env w.db op).contracts = w.db.contracts.modify k f)
    (hrec : ∀ id, (step env w.db op).records.get? id = if id = c.recordId then
      (w.db.records.get? id).map fun r => { r with status := target } else w.db.records.get? id) :
    WebhookSafe (watchStep env w op) ↔
      ∀ r, w.db.records.get? c.recordId = some r → r.status.isAdvanced = false := by
  rw [← movesAdvanced_one ht hrec]
  have hmoved : (watchStep env w op).movedBack = movesAdvanced w.db (step env w.db op) := by
    show (w.movedBack || _) = _
    rw [hs.notMoved, hop]
    simp
  constructor
  · intro h
    rw [← hmoved]
    exact h.notMoved
  · intro h
    refine ⟨fun k' c' e' d' hk he hd => ?_, by rw [hmoved]; exact h⟩
    rw [watchStep_db, hcon, Store.get?_modify] at hk
    split_ifs at hk with hkk
    · rw [hkk, hc.row.1] at hk
      cases hk
      rw [hf.2.2, hc.row.2] at he
      cases he
      rw [watchStep_first, noteFirst_self hop hc.carries, hnone] at hd
      cases hd
      exact ⟨hf.1, hf.2.1⟩
    · rcases noteFirst_eq_some hd with hd | ⟨hop', -⟩
      · exact hs.decided k' c' e' d' hk he hd
      · -- no other contract carries the envelope
        rw [hop] at hop'
        cases hop'
        exact absurd (FindsContract.unique hc (hi.contracts.finds hk he)).1 hkk

/-- A later delivery that makes something else of the contract is not safe. -/
theorem not_safe_flip {e k : ℕ} {c : ConsignmentContract} {d0 : Delivery}
    {f : ConsignmentContract → ConsignmentContract} (hc : FindsContract w.db e k c)
    (hfirst : w.first e = some d0) (hf : (f c).status ≠ d0.status ∧ (f c).envelopeId = c.envelopeId)
    (hcon : (step env w.db op).contracts = w.db.contracts.modify k f) :
    ¬ WebhookSafe (watchStep env w op) := by
  intro h
  refine hf.1 (h.decided k (f c) e d0 ?_ (hf.2.trans hc.row.2) (noteFirst_of_some hfirst)).1
  rw [watchStep_db, hcon, Store.get?_modify_self, hc.row.1]
  rfl

/-- The contract of an envelope, by its first delivery. -/
theorem contract_first (hi : WatchInv w) (hs : WebhookSafe w) {e k : ℕ} {c : ConsignmentContract}
    (hc : FindsContract w.db e k c) :
    (w.first e = none ∧ c.status = .sent ∧ c.signedAt = none) ∨
    ∃ d0, w.first e = some d0 ∧ c.status = d0.status ∧ c.status ≠ .sent := by
  cases hfirst : w.first e with
  | none => exact Or.inl ⟨rfl, hi.unseen k c e hc.row.1 hc.row.2 hfirst⟩
  | some d0 =>
    have hst := (hs.decided k c e d0 hc.row.1 hc.row.2 hfirst).1
    exact Or.inr ⟨d0, rfl, hst, by rw [hst]; exact (hi.knownFirst e d0 hfirst).2⟩

theorem completed_safe_iff (hi : WatchInv w) (hs : WebhookSafe w) {now : ℤ} {e k : ℕ}
    {c : ConsignmentContract} (hc : FindsContract w.db e k c) :
    WebhookSafe (watchStep env w (.envelopeCompleted now e)) ↔
      (c.status = .sent → ∀ r, w.db.records.get? c.recordId = some r →
        r.status ≠ .esignedPendingPublish ∧ r.status.isAdvanced = false) ∧
      (c.status = .declined →
        ∃ r, w.db.records.get? c.recordId = some r ∧ r.status = .esignedPendingPublish) := by
  rcases step_envelopeCompleted env now hc with
    ⟨hwhy, hcon, hrec⟩ | ⟨hst, hne, hcon, hrec⟩
  · rcases contract_first hi hs hc with ⟨hnone, hsent, -⟩ | ⟨d0, hfirst, -, hnsent⟩
    · -- refused with 409: the first delivery does not decide the contract
      have hr : ∃ r, w.db.records.get? c.recordId = some r ∧ r.status = .esignedPendingPublish := by
        refine hwhy.resolve_left fun h => ?_
        rw [hsent] at h
        cases h
      constructor
      · intro h
        have hd : (watchStep env w (.envelopeCompleted now e)).first e =
            some ⟨.completed, some now⟩ := by
          rw [watchStep_first, noteFirst_self (d := ⟨.completed, some now⟩) rfl hc.carries, hnone]
          rfl
        have hst := (h.decided k c e _ (by
          rw [watchStep_db, hcon]
          exact hc.row.1) hc.row.2 hd).1
        rw [hsent] at hst
        cases hst
      · rintro ⟨h, -⟩
        obtain ⟨r, hget, hes⟩ := hr
        exact absurd hes (h hsent r hget).1
    · refine ⟨fun _ => ⟨fun h => absurd h hnsent, fun hdec => ?_⟩,
        fun _ => safe_unchanged hs rfl hfirst hcon hrec⟩
      refine hwhy.resolve_left fun h => ?_
      rw [hdec] at h
      cases h
  · rcases contract_first hi hs hc with ⟨hnone, hsent, -⟩ | ⟨d0, hfirst, hd0, hnsent⟩
    · rw [safe_first hi hs (d := ⟨.completed, some now⟩) rfl hc hnone ⟨rfl, rfl, rfl⟩ rfl hcon hrec]
      constructor
      · intro h
        refine ⟨fun _ r hr => ⟨hne r hr, h r hr⟩, fun hdec => ?_⟩
        rw [hsent] at hdec
        cases hdec
      · exact fun h r hr => (h.1 hsent r hr).2
    · have hdec : c.status = .declined := by
        cases h : c.status with
        | sent => exact absurd h hnsent
        | completed => exact absurd h hst
        | declined => rfl
      refine ⟨fun h => absurd h (not_safe_flip hc hfirst ⟨?_, rfl⟩ hcon), ?_⟩
      · rw [← hd0, hdec]
        exact fun h => by cases h
      · rintro ⟨-, h⟩
        obtain ⟨r, hr, hes⟩ := h hdec
        exact absurd hes (hne r hr)

theorem declined_safe_iff (hi : WatchInv w) (hs : WebhookSafe w) {e k : ℕ}
    {c : ConsignmentContract} (hc : FindsContract w.db e k c) :
    WebhookSafe (watchStep env w (.envelopeDeclined e)) ↔
      c.status ≠ .completed ∧ (c.status = .sent →
        ∀ r, w.db.records.get? c.recordId = some r → r.status.isAdvanced = false) := by
  rcases step_envelopeDeclined env hc with ⟨hst, hcon, hrec⟩ | ⟨hst, hcon, hrec⟩
  · rcases contract_first hi hs hc with ⟨-, hsent, -⟩ | ⟨d0, hfirst, -, -⟩
    · rw [hst] at hsent
      cases hsent
    · have hsafe : WebhookSafe (watchStep env w (.envelopeDeclined e)) :=
        safe_unchanged hs rfl hfirst hcon hrec
      refine ⟨fun _ => ⟨?_, fun h => ?_⟩, fun _ => hsafe⟩
      · rw [hst]
        exact fun h => by cases h
      · rw [hst] at h
        cases h
  · rcases contract_first hi hs hc with ⟨hnone, hsent, hsigned⟩ | ⟨d0, hfirst, hd0, hnsent⟩
    · rw [safe_first hi hs (d := ⟨.declined, none⟩) rfl hc hnone ⟨rfl, hsigned, rfl⟩ rfl hcon hrec]
      constructor
      · intro h
        refine ⟨?_, fun _ => h⟩
        rw [hsent]
        exact fun h => by cases h
      · exact fun h => h.2 hsent
    · have hcomp : c.status = .completed := by
        cases h : c.status with
        | sent => exact absurd h hnsent
        | completed => rfl
        | declined => exact absurd h hst
      refine ⟨fun h => absurd h (not_safe_flip hc hfirst ⟨?_, rfl⟩ hcon), fun h => absurd hcomp h.1⟩
      rw [← hd0, hcomp]
      exact fun h => by cases h

/-- A request that is no delivery keeps a watched run safe. -/
theorem other_safe (hi : WatchInv w) (hs : WebhookSafe w) (hop : deliveryOf op = none) :
    WebhookSafe (watchStep env w op) := by
  refine ⟨fun k c e d hk he hd => ?_, ?_⟩
  · rw [watchStep_first, noteFirst_none hop] at hd
    rw [watchStep_db] at hk
    cases step_contracts env w.db op with
    | same h =>
      rw [h] at hk
      exact hs.decided k c e d hk he hd
    | sent recordId id _ hput _ _ _ _ =>
      rw [hput] at hk
      split_ifs at hk
      · -- no delivery was for the new envelope
        cases hk
        have heq : w.db.envelopes.next = e := Option.some.inj he
        have hlt := (hi.knownFirst e d hd).1
        omega
      · exact hs.decided k c e d hk he hd
    | completed now e0 k0 c0 hop' _ _ _ _ => rw [hop'] at hop; cases hop
    | declined e0 k0 c0 hop' _ _ _ _ => rw [hop'] at hop; cases hop
  · show (w.movedBack || _) = false
    rw [hs.notMoved, hop]
    rfl

/-- A delivery for an envelope that no contract carries keeps it safe. -/
theorem unknown_safe (hi : WatchInv w) (hs : WebhookSafe w) {e : ℕ} {d : Delivery}
    (hop : deliveryOf op = some (e, d))
    (hwh : (∃ now, op = .envelopeCompleted now e) ∨ op = .envelopeDeclined e)
    (hno : ∀ k c, ¬ FindsContract w.db e k c) : WebhookSafe (watchStep env w op) := by
  obtain ⟨hcon, hrec⟩ := step_unknown_envelope env hwh hno
  refine ⟨fun k c e' d' hk he hd => ?_, ?_⟩
  · rw [watchStep_db, hcon] at hk
    rcases noteFirst_eq_some hd with hd | ⟨hop', -⟩
    · exact hs.decided k c e' d' hk he hd
    · rw [hop] at hop'
      cases hop'
      exact absurd (hi.contracts.finds hk he) (hno k c)
  · show (w.movedBack || _) = false
    rw [hs.notMoved, movesAdvanced_same hrec]
    simp

theorem watchStep_safe_iff (env : Env) (op : Op) (hi : WatchInv w) (hs : WebhookSafe w) :
    WebhookSafe (watchStep env w op) ↔ InOrder w.db op := by
  cases op with
  | envelopeCompleted now e =>
    by_cases hex : ∃ k c, FindsContract w.db e k c
    · obtain ⟨k, c, hc⟩ := hex
      rw [completed_safe_iff hi hs hc]
      refine ⟨fun h k' c' hc' => ?_, fun h => h k c hc⟩
      obtain ⟨rfl, rfl⟩ := FindsContract.unique hc hc'
      exact h
    · have hno : ∀ k c, ¬ FindsContract w.db e k c := fun k c hc => hex ⟨k, c, hc⟩
      exact ⟨fun _ k c hc => absurd hc (hno k c),
        fun _ => unknown_safe hi hs rfl (Or.inl ⟨now, rfl⟩) hno⟩
  | envelopeDeclined e =>
    by_cases hex : ∃ k c, FindsContract w.db e k c
    · obtain ⟨k, c, hc⟩ := hex
      rw [declined_safe_iff hi hs hc]
      refine ⟨fun h k' c' hc' => ?_, fun h => h k c hc⟩
      obtain ⟨rfl, rfl⟩ := FindsContract.unique hc hc'
      exact h
    · have hno : ∀ k c, ¬ FindsContract w.db e k c := fun k c hc => hex ⟨k, c, hc⟩
      exact ⟨fun _ k c hc => absurd hc (hno k c), fun _ => unknown_safe hi hs rfl (Or.inr rfl) hno⟩
  | _ => exact ⟨fun _ => trivial, fun _ => other_safe hi hs rfl⟩

/-- **A run is safe from its webhooks exactly when every delivery is in
    order.** -/
theorem webhook_safe_iff (env : Env) (users : Store User) (customers : Store Customer)
    (ops : List Op) :
    AllStates (watchStep env) WebhookSafe (Watch.init users customers) ops ↔
      AllSteps (watchStep env) (fun w op => InOrder w.db op) (Watch.init users customers) ops :=
  allStates_iff_allSteps (fun _ op hi _ => watchStep_inv env op hi)
    (fun _ op hi hs => watchStep_safe_iff env op hi hs) (watchInv_init users customers)
    ⟨fun k c e d h => by simp [Watch.init, Db.init] at h, rfl⟩ ops

/-! ## A late decline -/

/-- A record is signed, reported and listed. -/
def listedRun : List Op :=
  [.submitIntake { customerId := 0 }, .createDraft 0 0, .submit 0 0 0 {} [],
    .approve 0 true 1 0 { purchaseOffer := 1000, consignmentPrice := 1200 },
    .envelopeCompleted 5 0, .generateAndStore 6 0 "reports/0.pdf", .publishRecord 7 1 0]

/-- The declined event that comes after the completed one declines the signed
    contract and moves the listed record back. -/
theorem late_decline_moves_listed :
    ¬ ∀ (env : Env) (users : Store User) (customers : Store Customer) (ops : List Op),
      WebhookSafe (run (watchStep env) (Watch.init users customers) ops) := by
  intro h
  have hmoved := (h sampleEnv sampleUsers sampleCustomers
    (listedRun ++ [.envelopeDeclined 0])).notMoved
  revert hmoved
  decide

end TempleConsign
