import TempleConsign.Webhooks

/-!
# Signed before listed

`publish_record` checks for a signed contract and a report when it lists a
record. Afterwards a webhook may still decline the contract, and an approval
may send it again; both take the record back to `approved_pending_esign` with
the contract.

Results:
* `step_signed`: a record that is signed or listed keeps its signed contract.
* `step_signedBeforeListed`: every request but the admin override keeps the
  invariant.
* `signed_before_listed`: it holds in every state of a run without overrides.
-/

namespace TempleConsign

open ServiceLib

/-- The statuses that follow a signature. -/
def Status.isSigned (s : Status) : Bool := s = .esignedPendingPublish || s = .listed

/-- The record has a completed contract with a time of signature. -/
def SignedContract (db : Db) (id : ℕ) : Prop :=
  ∃ k c, db.contracts.get? k = some c ∧ c.recordId = id ∧ c.status = .completed ∧ c.signedAt ≠ none

/-- The record has an appraisal report. -/
def HasReport (db : Db) (id : ℕ) : Prop :=
  ∃ k r, db.reports.get? k = some r ∧ r.recordId = id

/-- A record that is signed or listed has a signed contract, and a listed one
    has a report. -/
structure SignedBeforeListed (db : Db) : Prop where
  signed : ∀ id r, db.records.get? id = some r → r.status.isSigned = true → SignedContract db id
  reported : ∀ id r, db.records.get? id = some r → r.status = .listed → HasReport db id

variable {env : Env} {db : Db} {id : ℕ} {r r' : EquipmentRecord}

/-! ## Contracts and reports stay -/

/-- A record that a request leaves signed or listed keeps its signed
    contract. -/
theorem step_signed {op : Op} (h : SignedContract db id)
    (hr' : (step env db op).records.get? id = some r') (hs : r'.status.isSigned = true) :
    SignedContract (step env db op) id := by
  obtain ⟨k, c, hk, hrec, hst, hsigned⟩ := h
  cases step_contracts env db op with
  | same h => exact ⟨k, c, by rw [h]; exact hk, hrec, hst, hsigned⟩
  | sent recordId id' _ hput hold _ _ _ =>
    -- the row that was sent again was a declined one
    refine ⟨k, c, ?_, hrec, hst, hsigned⟩
    have hne : k ≠ id' := by
      rintro rfl
      have hdec := (hold c hk).2
      rw [hst] at hdec
      cases hdec
    rw [hput, if_neg hne]
    exact hk
  | completed now e k' _ _ _ _ h _ =>
    rw [SignedContract, h]
    by_cases hkk : k = k'
    · refine ⟨k, { c with status := .completed, signedAt := some now }, ?_, hrec, rfl,
        Option.some_ne_none now⟩
      rw [← hkk, Store.get?_modify_self, hk]
      rfl
    · exact ⟨k, c, by rw [Store.get?_modify_ne _ _ hkk]; exact hk, hrec, hst, hsigned⟩
  | declined e k' c' _ hc _ h hback =>
    rw [SignedContract, h]
    by_cases hkk : k = k'
    · -- the record went back with its contract
      obtain rfl : c = c' := Option.some.inj (hk.symm.trans (hkk ▸ hc.row.1))
      rw [hback r' (hrec ▸ hr')] at hs
      cases hs
    · exact ⟨k, c, by rw [Store.get?_modify_ne _ _ hkk]; exact hk, hrec, hst, hsigned⟩

/-- No request removes a report. -/
theorem step_hasReport (env : Env) (op : Op) (h : HasReport db id) :
    HasReport (step env db op) id := by
  obtain ⟨k, rep, hk, hrec⟩ := h
  cases hw : op.writesReports with
  | false => exact ⟨k, rep, by rw [(step_frame env db op).reports hw]; exact hk, hrec⟩
  | true =>
    cases op with
    | generateAndStore now submissionId storageKey =>
      rcases step_cases env db (.generateAndStore now submissionId storageKey) with
        h | ⟨-, envelopes, h⟩
      · obtain ⟨submission, -, ⟨k', hdb⟩ | hdb⟩ := returns_generateAndStore h
        · rw [← hdb]
          by_cases hkk : k = k'
          · refine ⟨k, { rep with gcsPath := storageKey, generatedAt := now }, ?_, hrec⟩
            rw [← hkk, Store.get?_modify_self, hk]
            rfl
          · exact ⟨k, rep, (Store.get?_modify_ne _ _ hkk).trans hk, hrec⟩
        · rw [← hdb]
          exact ⟨k, rep, Store.get?_create_of_some hk, hrec⟩
      · rw [h]
        exact ⟨k, rep, hk, hrec⟩
    | _ => cases hw

/-! ## Entering the two statuses -/

/-- A completed event that moves a record signs its contract. -/
theorem completed_signs {now : ℤ} {e : ℕ} (hr : db.records.get? id = some r)
    (hr' : (step env db (.envelopeCompleted now e)).records.get? id = some r')
    (hne : r'.status ≠ r.status) :
    SignedContract (step env db (.envelopeCompleted now e)) id := by
  have hmoved : (step env db (.envelopeCompleted now e)).records.get? id ≠ db.records.get? id := by
    intro heq
    rw [hr', hr] at heq
    exact hne (congrArg _ (Option.some.inj heq))
  by_cases hex : ∃ k c, FindsContract db e k c
  · obtain ⟨k, c, hc⟩ := hex
    rcases step_envelopeCompleted env now hc with
      ⟨-, -, hsame⟩ | ⟨-, -, hcon, hrec⟩
    · exact absurd (by rw [hsame]) hmoved
    · have hid : id = c.recordId := by
        by_contra hid
        exact hmoved (by rw [hrec, if_neg hid])
      refine ⟨k, { c with status := .completed, signedAt := some now }, ?_, hid.symm, rfl,
        Option.some_ne_none now⟩
      rw [hcon, Store.get?_modify_self, hc.row.1]
      rfl
  · have hno : ∀ k c, ¬ FindsContract db e k c := fun k c hc => hex ⟨k, c, hc⟩
    have hsame := (step_unknown_envelope env (Or.inl ⟨now, rfl⟩) hno).2
    exact absurd (by rw [hsame]) hmoved

/-- A record is published with a report on file. -/
theorem published_reported {now : ℤ} {user recordId : ℕ} (hr : db.records.get? id = some r)
    (hr' : (step env db (.publishRecord now user recordId)).records.get? id = some r')
    (hne : r'.status ≠ r.status) : HasReport db id := by
  rcases step_cases env db (.publishRecord now user recordId) with h | ⟨-, envelopes, h⟩
  · obtain ⟨record, -, -, -, hreport, hdb⟩ := returns_publishRecord.mp h
    rw [← hdb, transition_records] at hr'
    by_cases hid : id = recordId
    · rw [hid]
      exact hreport
    · rw [if_neg hid] at hr'
      have heq : some r' = some r := hr'.symm.trans hr
      cases heq
      exact absurd rfl hne
  · rw [h] at hr'
    have heq : some r' = some r := hr'.symm.trans hr
    cases heq
    exact absurd rfl hne

/-- A record reaches these statuses through a completed event or a
    publication. -/
theorem signed_moves {op : Op} {source target : Status} (hop : op.nonAdmin = true)
    (hm : Moves op source target) (ht : target.isSigned = true) :
    (∃ now e, op = .envelopeCompleted now e ∧ target = .esignedPendingPublish) ∨
    (∃ now user recordId, op = .publishRecord now user recordId ∧
      source = .esignedPendingPublish) := by
  cases op with simp only [Moves] at hm
  | envelopeCompleted now e => exact Or.inl ⟨now, e, rfl, hm⟩
  | publishRecord now user recordId => exact Or.inr ⟨now, user, recordId, rfl, hm.1⟩
  | createEvent actor body => rw [hm.2] at ht; cases ht
  | cancelEvent now eventId => rw [hm.2] at ht; cases ht
  | reject user submissionId notes sendBack => rw [hm.1] at ht; cases sendBack <;> cases ht
  | manualTransition admin recordId toStatus reason => cases hop
  | _ => rw [hm] at ht; cases ht

/-! ## The invariant -/

/-- Every request but the admin override keeps the invariant. -/
theorem step_signedBeforeListed (env : Env) {op : Op} (hop : op.nonAdmin = true)
    (h : SignedBeforeListed db) : SignedBeforeListed (step env db op) := by
  constructor
  · intro id r' hr' hs
    rcases (step_status env db op).back hr' with ⟨r, hr, hm⟩ | hnew
    · by_cases hrs : r.status.isSigned = true
      · exact step_signed (h.signed id r hr hrs) hr' hs
      · have hne : r'.status ≠ r.status := fun heq => hrs (heq ▸ hs)
        rcases signed_moves hop (hm.resolve_left hne) hs with
          ⟨now, e, rfl, -⟩ | ⟨now, user, recordId, rfl, hsource⟩
        · exact completed_signs hr hr' hne
        · rw [hsource] at hrs
          exact absurd rfl hrs
    · rw [hnew] at hs
      cases hs
  · intro id r' hr' hs
    rcases (step_status env db op).back hr' with ⟨r, hr, hm⟩ | hnew
    · by_cases hrl : r.status = .listed
      · exact step_hasReport env op (h.reported id r hr hrl)
      · have hne : r'.status ≠ r.status := fun heq => hrl (heq ▸ hs)
        rcases signed_moves hop (hm.resolve_left hne) (by rw [hs]; rfl) with
          ⟨now, e, rfl, htarget⟩ | ⟨now, user, recordId, rfl, -⟩
        · rw [htarget] at hs
          cases hs
        · exact step_hasReport env _ (published_reported hr hr' hne)
    · rw [hnew] at hs
      cases hs

/-- **Without admin overrides, every record that is signed or listed has a
    completed contract with a time of signature, and every listed record has a
    report.** -/
theorem signed_before_listed (env : Env) (users : Store User) (customers : Store Customer)
    (ops : List Op) (hadm : ∀ op ∈ ops, op.nonAdmin = true) :
    SignedBeforeListed (run (step env) (Db.init users customers) ops) := by
  refine run_induction_mem (fun db op hmem h => step_signedBeforeListed env (hadm op hmem) h) ?_
  constructor
  · intro id r hr
    simp [Db.init] at hr
  · intro id r hr
    simp [Db.init] at hr

/-- The record of a complete run has its contract and its report. -/
theorem listed_record_signed :
    SignedContract (run (step sampleEnv) (Db.init sampleUsers sampleCustomers) listedRun) 0 ∧
      HasReport (run (step sampleEnv) (Db.init sampleUsers sampleCustomers) listedRun) 0 := by
  have hlisted : (run (step sampleEnv) (Db.init sampleUsers sampleCustomers) listedRun).statusOf 0 =
      some .listed := by decide
  obtain ⟨r, hr, hs⟩ := Db.statusOf_eq_some.mp hlisted
  have h := signed_before_listed sampleEnv sampleUsers sampleCustomers listedRun (by decide)
  exact ⟨h.signed 0 r hr (by rw [hs]; rfl), h.reported 0 r hr hs⟩

end TempleConsign
