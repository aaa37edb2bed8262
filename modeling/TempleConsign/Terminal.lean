import TempleConsign.Lifecycle

/-!
# Terminal statuses

`sold`, `declined` and `withdrawn` carry the registry's terminal flag, which is
informational: `record_transition` consults the denylist only.

Results:
* `terminal_status_moves`: which requests of the non-admin API still move a
  terminal record, and where to.
* `declined_record_reopens`: a declined record that is appraised again.
-/

namespace TempleConsign

open ServiceLib

/-- The requests that can move a terminal record. -/
def Op.reopens : Op → Bool
  | .submit .. | .approve .. | .reject .. | .envelopeCompleted .. | .envelopeDeclined .. |
    .resolveChangeRequest .. => true
  | _ => false

/-- The edges out of a terminal status. -/
def TerminalExit (op : Op) (source target : Status) : Prop :=
  isForbiddenTransition source target = false ∧
  match op with
  | .submit .. => target = .appraisalComplete
  | .approve .. => target = .approvedPendingEsign
  | .reject _ _ _ sendBack =>
    if sendBack then source = .withdrawn ∧ target = .newRequest else target = .declined
  | .envelopeCompleted .. => target = .esignedPendingPublish
  | .envelopeDeclined .. => target = .approvedPendingEsign
  | .resolveChangeRequest .. => target = .withdrawn
  | _ => False

theorem terminalExit_of_moves {op : Op} {s t : Status} (hn : op.nonAdmin = true)
    (ht : isTerminal s = true) (hm : Moves op s t) : TerminalExit op s t := by
  cases op with
  | reject rejectingUser submissionId rejectionNotes sendBack =>
    obtain ⟨rfl, hf⟩ := hm
    refine ⟨hf, ?_⟩
    cases sendBack with
    | false => rfl
    | true =>
      rw [isTerminal_iff] at ht
      rcases ht with rfl | rfl | rfl
      · cases hf
      · cases hf
      · exact ⟨rfl, rfl⟩
  | createEvent | cancelEvent | publishRecord =>
    obtain ⟨rfl, -⟩ := hm
    cases ht
  | manualTransition => cases hn
  | submit | approve | envelopeCompleted | envelopeDeclined | resolveChangeRequest =>
    exact ⟨hm ▸ not_forbidden_into s (by decide), hm⟩
  | _ => cases hm

theorem reopens_of_terminalExit {op : Op} {s t : Status} (h : TerminalExit op s t) :
    op.reopens = true := by
  cases op <;> first | rfl | exact absurd h.2 id

/-- A request that does not reopen keeps a terminal record's status. -/
theorem step_keeps_terminal (env : Env) {db : Db} {op : Op} (hn : op.nonAdmin = true)
    {id : ℕ} {r : EquipmentRecord} (hr : db.records.get? id = some r)
    (ht : isTerminal r.status = true) :
    ∃ r', (step env db op).records.get? id = some r' ∧
      (r'.status = r.status ∨ TerminalExit op r.status r'.status) := by
  obtain ⟨r', hr', hm⟩ := (step_status env db op).kept id r hr
  exact ⟨r', hr', hm.imp_right (terminalExit_of_moves hn ht)⟩

/-- **A terminal record leaves its status only by an appraisal submission, a
    manager decision, an eSign webhook or a resolved withdrawal**, along an edge
    the denylist allows and to that request's own target. -/
theorem terminal_status_moves (env : Env) (users : Store User) (customers : Store Customer)
    (ops more : List Op) (hn : ∀ op ∈ ops ++ more, op.nonAdmin = true) {id : ℕ}
    {r : EquipmentRecord}
    (hr : (run (step env) (Db.init users customers) ops).records.get? id = some r)
    (ht : isTerminal r.status = true) :
    (∀ op, op.nonAdmin = true →
      ∃ r', (step env (run (step env) (Db.init users customers) ops) op).records.get? id = some r' ∧
        (r'.status = r.status ∨ TerminalExit op r.status r'.status)) ∧
    ((∀ op ∈ more, op.reopens = false) →
      ∃ r', (run (step env) (Db.init users customers) (ops ++ more)).records.get? id = some r' ∧
        r'.status = r.status) := by
  refine ⟨fun op hop => step_keeps_terminal env hop hr ht, fun hmore => ?_⟩
  rw [run_append]
  have hadm : ∀ op ∈ more, op.nonAdmin = true := fun op h => hn op (List.mem_append_right _ h)
  -- each request of `more` finds the record terminal and keeps it as it is
  refine run_induction_mem (P := fun db : Db => ∃ r', db.records.get? id = some r' ∧
    r'.status = r.status) (fun db op hop h => ?_) ⟨r, hr, rfl⟩
  obtain ⟨r1, hr1, hs1⟩ := h
  have ht1 : isTerminal r1.status = true := by rw [hs1]; exact ht
  obtain ⟨r2, hr2, hm⟩ := step_keeps_terminal env (hadm op hop) hr1 ht1
  refine ⟨r2, hr2, ?_⟩
  rcases hm with hsame | hexit
  · exact hsame.trans hs1
  · have hre := reopens_of_terminalExit hexit
    rw [hmore op hop] at hre
    cases hre

/-- A record that was rejected, up to its second draft. -/
def rejectedRun : List Op :=
  [.submitIntake { customerId := 0 }, .createDraft 0 0, .submit 0 0 0 {} [],
    .reject 1 0 "No buyers for this model." false, .createDraft 0 0]

theorem rejectedRun_declined :
    (run (step sampleEnv) (Db.init sampleUsers sampleCustomers) rejectedRun).statusOf 0 =
      some .declined := by decide

/-- Publishing leaves the declined record alone. -/
theorem terminal_status_moves_rejected :
    ∃ r', (step sampleEnv (run (step sampleEnv) (Db.init sampleUsers sampleCustomers) rejectedRun)
        (.publishRecord 0 1 0)).records.get? 0 = some r' ∧ r'.status = .declined := by
  obtain ⟨r, hr, hs⟩ := Db.statusOf_eq_some.mp rejectedRun_declined
  obtain ⟨r', hr', h⟩ := (terminal_status_moves sampleEnv sampleUsers sampleCustomers rejectedRun []
    (by decide) hr (hs ▸ rfl)).1 (.publishRecord 0 1 0) rfl
  refine ⟨r', hr', ?_⟩
  rcases h with h | ⟨-, h⟩
  · exact h.trans hs
  · exact h.elim

/-- No non-admin request changes a terminal status. -/
def TerminalAbsorbing : Prop :=
  ∀ (env : Env) (users : Store User) (customers : Store Customer) (ops : List Op) (op : Op),
    (∀ o ∈ op :: ops, o.nonAdmin = true) → ∀ (id : ℕ) (s : Status), isTerminal s = true →
      (run (step env) (Db.init users customers) ops).statusOf id = some s →
        (step env (run (step env) (Db.init users customers) ops) op).statusOf id = some s

/-- A declined record whose second draft is submitted is back in
    `appraisal_complete`. -/
theorem declined_record_reopens : ¬ TerminalAbsorbing := by
  intro h
  have hs := h sampleEnv sampleUsers sampleCustomers rejectedRun (.submit 0 0 1 {} []) (by decide)
    0 .declined rfl rejectedRun_declined
  revert hs
  decide

end TempleConsign
