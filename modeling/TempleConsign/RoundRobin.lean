import TempleConsign.LeadRouting
import TempleConsign.Lib.ReadCommitted
import TempleConsign.Lib.Rotation

/-!
# Round-robin claims

Model of `_claim_next_round_robin` (`src/api/services/lead_routing_service.py` line 355)
under concurrent intakes. An intake loads the rule and then executes `UPDATE …
RETURNING round_robin_index`, which locks the row of the rule until the transaction ends;
the row it updates is the one committed by then. Where the counter has reached the end of
its column the `UPDATE` fails and the intake is rolled back.

`RotationDb.claims` lists the claims in the order of their commits.

Results:
* `rotation_alone`: undisturbed, the transaction is the round-robin step of the waterfall.
* `rotation_inv`: the claims of a rule have consecutive counter values, whatever is
  interleaved or rolled back.
* `rotation_fair`: every window of claims is spread evenly over the reps.
-/

namespace TempleConsign.LeadRouting

open ServiceLib

/-! ## The transactions -/

/-- A committed claim: the counter value that `RETURNING` gave and the user. -/
structure RotationClaim where
  ruleId : ℕ
  nextIndex : ℤ
  userId : Option ℕ
  deriving DecidableEq

structure RotationDb where
  rules : Store LeadRoutingRule
  claims : List RotationClaim

/-- What comes next. A call is the id of the rule that the waterfall has come to. -/
inductive RotationPoint
  | load (ruleId : ℕ)
  | update (ruleId : ℕ) (repIds : List ℕ)
  | claimed

/-- The `UPDATE` with the counter value that it returns. -/
def recordClaim (ruleId : ℕ) (repIds : List ℕ) (nextIndex : ℤ) (s : RotationDb) : RotationDb where
  rules := s.rules.modify ruleId .claimed
  claims := s.claims ++ [⟨ruleId, nextIndex, repAt repIds nextIndex⟩]

def rotationStmt (env : RoutingEnv) : RotationPoint → RotationDb → Stmt RotationDb ℕ RotationPoint
  | .load ruleId, s =>
    match s.rules.get? ruleId with
    | some rule => .goOn [] id (.update ruleId (roundRobinRepIds env rule))
    | none => .commit
  | .update ruleId repIds, s =>
    if repIds = [] then .commit else
      match s.rules.get? ruleId with
      | some rule =>
        if rule.roundRobinIndex < maxInteger then
          .goOn [ruleId] (recordClaim ruleId repIds rule.claimed.roundRobinIndex) .claimed
        else .rollback
      | none => .commit
  | .claimed, _ => .commit

def rotationProgram (env : RoutingEnv) : Program RotationDb ℕ ℕ RotationPoint where
  entry := .load
  stmt := rotationStmt env

abbrev RotationTxn := Txn RotationDb ℕ RotationPoint

/-- Undisturbed, the transaction is the round-robin step of the waterfall. -/
theorem rotation_alone {env : RoutingEnv} {db db' : RoutingDb} {ruleId : ℕ}
    {rule : LeadRoutingRule} {decision : RoutingDecision}
    (hrule : db.rules.get? ruleId = some rule) (l : List RotationClaim)
    (h : Svc.Returns (roundRobinStep env (ruleId, rule)) db (some decision) db') :
    (run (rcStep (rotationProgram env)) (Rc.init ⟨db.rules, l⟩)
      (.start ruleId :: List.replicate 3 (.exec 0))).committed =
      ⟨db'.rules, l ++ [⟨ruleId, rule.claimed.roundRobinIndex, decision.assignedUserId⟩]⟩ := by
  obtain ⟨next, db₁, hclaim, hpure⟩ := Svc.returns_bind.mp h
  obtain ⟨hd, rfl⟩ := Svc.returns_pure.mp hpure
  obtain ⟨u, rfl, rfl⟩ := decideRule_eq_some.mp hd
  by_cases hreps : roundRobinRepIds env rule = []
  · simp [claimNextRoundRobin, hreps] at hclaim
  unfold Svc.Returns at hclaim
  rw [exec_claim hrule hreps] at hclaim
  split_ifs at hclaim with hmax
  · obtain ⟨hrep, rfl⟩ := Prod.mk.inj hclaim
    have h0 := alone_start (rotationProgram env) ⟨db.rules, l⟩ ruleId
    have s1 : rotationStmt env (.load ruleId) ⟨db.rules, l⟩ =
        .goOn [] id (.update ruleId (roundRobinRepIds env rule)) := by
      simp only [rotationStmt, hrule]
    have h1 := h0.goOn (p := rotationProgram env) s1
    have s2 : rotationStmt env (.update ruleId (roundRobinRepIds env rule)) ⟨db.rules, l⟩ =
        .goOn [ruleId] (recordClaim ruleId (roundRobinRepIds env rule)
          rule.claimed.roundRobinIndex) .claimed := by
      simp only [rotationStmt, if_neg hreps, hrule, if_pos hmax]
    have h2 := h1.goOn (p := rotationProgram env) s2
    simp only [run_cons, run_nil, List.replicate]
    rw [h2.commit (p := rotationProgram env) rfl]
    show recordClaim ruleId (roundRobinRepIds env rule) rule.claimed.roundRobinIndex
      ⟨db.rules, l⟩ = _
    rw [recordClaim, Except.ok.inj hrep]
  · simp at hclaim

/-! ## The property -/

/-- The claims of one rule. -/
def claimsOf (ruleId : ℕ) (claims : List RotationClaim) : List RotationClaim :=
  claims.filter fun c => c.ruleId = ruleId

/-- The position of the list that a claim is about. -/
def RotationClaim.position (n : ℕ) (c : RotationClaim) : ℕ :=
  ServiceLib.position n (c.nextIndex - 1)

/-- Of any `k` consecutive claims each position has `k / n`, rounded down or up; no two
    claims have one counter value; each claim has the position after the one before, and
    the rep there. -/
structure FairRotation (repIds : List ℕ) (claims : List RotationClaim) : Prop where
  window : ∀ i k, i + k ≤ claims.length → ∀ p < repIds.length,
    ((claims.drop i).take k).countP (fun c => c.position repIds.length = p) = k / repIds.length ∨
    ((claims.drop i).take k).countP (fun c => c.position repIds.length = p) =
      (k + repIds.length - 1) / repIds.length
  distinct : (claims.map RotationClaim.nextIndex).Nodup
  noSkip : ∀ i c c', claims[i]? = some c → claims[i + 1]? = some c' →
    c'.position repIds.length = (c.position repIds.length + 1) % repIds.length
  reps : ∀ c ∈ claims, c.userId = repIds[c.position repIds.length]?

/-- A stored rule with reps. -/
structure StoredRotation (env : RoutingEnv) where
  rules : Store LeadRoutingRule
  ruleId : ℕ
  rule : LeadRoutingRule
  stored : rules.get? ruleId = some rule
  staffed : roundRobinRepIds env rule ≠ []

/-! ## Fairness of consecutive claims -/

/-- Claims with consecutive counter values are spread evenly. -/
theorem fairRotation_of_consecutive {repIds : List ℕ} (hreps : repIds ≠ []) {c : ℤ}
    {claims : List RotationClaim}
    (hidx : claims.map RotationClaim.nextIndex = consecutive (c + 1) claims.length)
    (husers : ∀ x ∈ claims, x.userId = repAt repIds x.nextIndex) : FairRotation repIds claims := by
  have hn : 0 < repIds.length := List.length_pos_of_ne_nil hreps
  have hget : ∀ (i : ℕ) x, claims[i]? = some x → x.nextIndex = c + 1 + i := by
    intro i x hx
    have hlt : i < claims.length := (List.getElem?_eq_some_iff.mp hx).1
    have hmap : (claims.map RotationClaim.nextIndex)[i]? = some x.nextIndex := by
      rw [List.getElem?_map, hx]
      rfl
    rw [hidx, getElem?_consecutive hlt] at hmap
    exact (Option.some.inj hmap).symm
  constructor
  · intro i k hik p hp
    have hwindow : (((claims.drop i).take k).map RotationClaim.nextIndex) =
        consecutive (c + 1 + i) k := by
      rw [List.map_take, List.map_drop, hidx, window_consecutive (c + 1) hik]
    have hshift : consecutive (c + 1 + i) k = (consecutive (c + i) k).map (· + 1) := by
      unfold consecutive
      rw [List.map_map]
      apply List.map_congr_left
      intro t _
      simp only [Function.comp_apply]
      ring
    have hcount : ((claims.drop i).take k).countP (fun x => x.position repIds.length = p) =
        (consecutive (c + i) k).countP (fun j => ServiceLib.position repIds.length j = p) := by
      have hcomp : ((claims.drop i).take k).countP (fun x => x.position repIds.length = p) =
          (((claims.drop i).take k).map RotationClaim.nextIndex).countP
            (fun j => ServiceLib.position repIds.length (j - 1) = p) := by
        rw [List.countP_map]
        rfl
      rw [hcomp, hwindow, hshift, List.countP_map]
      congr 1
      funext j
      simp
    rw [hcount]
    exact count_position_fair hn (c + i) k hp
  · rw [hidx]
    exact consecutive_nodup _ _
  · intro i x x' hx hx'
    have hnext : x'.nextIndex - 1 = x.nextIndex - 1 + 1 := by
      rw [hget i x hx, hget (i + 1) x' hx']
      push_cast
      ring
    unfold RotationClaim.position
    rw [hnext, position_succ hn]
  · intro x hx
    exact husers x hx

/-! ## The invariant -/

variable {env : RoutingEnv} {start : Store LeadRoutingRule} {s : RotationDb}

/-- Against the rules at the beginning: the counter of a rule has moved on by the number
    of its claims, these have the counter values in between, and each claim names the rep
    in turn. -/
structure RotationInv (env : RoutingEnv) (start : Store LeadRoutingRule) (s : RotationDb) :
    Prop where
  rules : ∀ k rule, start.get? k = some rule → s.rules.get? k =
    some { rule with roundRobinIndex := rule.roundRobinIndex + (claimsOf k s.claims).length }
  stored : ∀ k, start.get? k = none → s.rules.get? k = none
  indices : ∀ k rule, start.get? k = some rule →
    (claimsOf k s.claims).map RotationClaim.nextIndex =
      consecutive (rule.roundRobinIndex + 1) (claimsOf k s.claims).length
  users : ∀ k rule, start.get? k = some rule → ∀ c ∈ claimsOf k s.claims,
    c.userId = repAt (roundRobinRepIds env rule) c.nextIndex

/-- What a transaction knows. After the `UPDATE` it holds the row of the rule, so the
    counter is still the one that it saw. -/
def RotationOk (env : RoutingEnv) (start : Store LeadRoutingRule) (s : RotationDb)
    (a : RotationTxn) : Prop :=
  match a.point with
  | .load _ => a.write = id
  | .update ruleId repIds => a.write = id ∧
    ∃ rule, start.get? ruleId = some rule ∧ repIds = roundRobinRepIds env rule
  | .claimed => ∃ ruleId rule stored, ruleId ∈ a.locks ∧ start.get? ruleId = some stored ∧
    s.rules.get? ruleId = some rule ∧
    a.write = recordClaim ruleId (roundRobinRepIds env stored) rule.claimed.roundRobinIndex

theorem claimsOf_append (k : ℕ) (claims : List RotationClaim) (c : RotationClaim) :
    claimsOf k (claims ++ [c]) = if c.ruleId = k then claimsOf k claims ++ [c]
      else claimsOf k claims := by
  unfold claimsOf
  rw [List.filter_append]
  split_ifs with h
  · simp [h]
  · simp [h]

/-- A claim with the next counter value keeps the invariant. -/
theorem RotationInv.record (h : RotationInv env start s) {ruleId : ℕ}
    {stored rule : LeadRoutingRule} (hstored : start.get? ruleId = some stored)
    (hrule : s.rules.get? ruleId = some rule) :
    RotationInv env start
      (recordClaim ruleId (roundRobinRepIds env stored) rule.claimed.roundRobinIndex s) := by
  have hnow := h.rules ruleId stored hstored
  rw [hrule] at hnow
  have hindex : rule.claimed.roundRobinIndex =
      stored.roundRobinIndex + 1 + (claimsOf ruleId s.claims).length := by
    rw [Option.some.inj hnow]
    simp only [LeadRoutingRule.claimed]
    ring
  constructor
  · intro k r hr
    simp only [recordClaim, claimsOf_append, Store.get?_modify]
    by_cases hk : k = ruleId
    · subst hk
      obtain rfl := Option.some.inj (hstored.symm.trans hr)
      rw [if_pos rfl, if_pos rfl, hrule, hnow]
      simp [LeadRoutingRule.claimed, add_assoc]
    · rw [if_neg hk, if_neg (Ne.symm hk)]
      exact h.rules k r hr
  · intro k hk
    have hne : k ≠ ruleId := by
      rintro rfl
      rw [hstored] at hk
      cases hk
    simp only [recordClaim, Store.get?_modify, if_neg hne]
    exact h.stored k hk
  · intro k r hr
    simp only [recordClaim, claimsOf_append]
    by_cases hk : ruleId = k
    · subst hk
      obtain rfl := Option.some.inj (hstored.symm.trans hr)
      rw [if_pos rfl, List.map_append, h.indices ruleId stored hstored, List.length_append,
        List.length_singleton, consecutive_succ, List.map_singleton, hindex]
    · rw [if_neg hk]
      exact h.indices k r hr
  · intro k r hr c hc
    simp only [recordClaim, claimsOf_append] at hc
    by_cases hk : ruleId = k
    · subst hk
      obtain rfl := Option.some.inj (hstored.symm.trans hr)
      rw [if_pos rfl] at hc
      rcases List.mem_append.mp hc with hold | hnew
      · exact h.users ruleId stored hstored c hold
      · obtain rfl := List.mem_singleton.mp hnew
        rfl
    · rw [if_neg hk] at hc
      exact h.users k r hr c hc

/-- The reps of a rule do not change. -/
theorem RotationInv.reps (h : RotationInv env start s) {k : ℕ} {rule : LeadRoutingRule}
    (hrule : s.rules.get? k = some rule) :
    ∃ stored, start.get? k = some stored ∧
      roundRobinRepIds env rule = roundRobinRepIds env stored := by
  cases hs : start.get? k with
  | none =>
    rw [h.stored k hs] at hrule
    cases hrule
  | some stored =>
    have hnow := h.rules k stored hs
    rw [hrule] at hnow
    exact ⟨stored, rfl, by rw [Option.some.inj hnow]; rfl⟩

/-- What a statement of the program does. -/
theorem rotationStmt_goOn {env : RoutingEnv} {point next : RotationPoint} {locks : List ℕ}
    {write : RotationDb → RotationDb} (hs : rotationStmt env point s = .goOn locks write next) :
    (∃ ruleId rule, point = .load ruleId ∧ s.rules.get? ruleId = some rule ∧ locks = [] ∧
      write = id ∧ next = .update ruleId (roundRobinRepIds env rule)) ∨
    ∃ ruleId repIds rule, point = .update ruleId repIds ∧ s.rules.get? ruleId = some rule ∧
      locks = [ruleId] ∧ write = recordClaim ruleId repIds rule.claimed.roundRobinIndex ∧
      next = .claimed := by
  cases point with
  | load ruleId =>
    cases hr : s.rules.get? ruleId with
    | none => simp [rotationStmt, hr] at hs
    | some rule =>
      simp only [rotationStmt, hr, Stmt.goOn.injEq] at hs
      obtain ⟨rfl, rfl, rfl⟩ := hs
      exact .inl ⟨ruleId, rule, rfl, hr, rfl, rfl, rfl⟩
  | update ruleId repIds =>
    by_cases hreps : repIds = []
    · simp [rotationStmt, hreps] at hs
    cases hr : s.rules.get? ruleId with
    | none => simp [rotationStmt, hreps, hr] at hs
    | some rule =>
      by_cases hmax : rule.roundRobinIndex < maxInteger
      · simp only [rotationStmt, if_neg hreps, hr, if_pos hmax, Stmt.goOn.injEq] at hs
        obtain ⟨rfl, rfl, rfl⟩ := hs
        exact .inr ⟨ruleId, repIds, rule, rfl, hr, rfl, rfl, rfl⟩
      · simp [rotationStmt, hreps, hr, hmax] at hs
  | claimed => simp [rotationStmt] at hs

/-- The writes of a transaction: none yet, or one claim. -/
theorem rotationOk_write {a : RotationTxn} (h : RotationOk env start s a) :
    a.write = id ∨ ∃ ruleId rule stored, ruleId ∈ a.locks ∧ start.get? ruleId = some stored ∧
      s.rules.get? ruleId = some rule ∧
      a.write = recordClaim ruleId (roundRobinRepIds env stored) rule.claimed.roundRobinIndex := by
  unfold RotationOk at h
  match a.point, h with
  | .load _, h => exact .inl h
  | .update _ _, h => exact .inl h.1
  | .claimed, h => exact .inr h

theorem rotation_rule (env : RoutingEnv) (start : Store LeadRoutingRule) :
    TxnRule (rotationProgram env) (RotationInv env start) (RotationOk env start)
      fun _ _ => True where
  start := fun s call _ => rfl
  goOn := by
    intro s a locks write next hinv hok hs
    rcases rotationStmt_goOn hs with ⟨ruleId, rule, hp, hrule, rfl, rfl, rfl⟩ |
      ⟨ruleId, repIds, rule, hp, hrule, rfl, rfl, rfl⟩
    · have hwrite : a.write = id := by
        unfold RotationOk at hok
        rwa [hp] at hok
      rw [hwrite] at hrule
      obtain ⟨stored, hstored, hreps⟩ := hinv.reps hrule
      exact ⟨by rw [Txn.goOn, hwrite]; rfl, stored, hstored, hreps⟩
    · have hok' : a.write = id ∧
          ∃ stored, start.get? ruleId = some stored ∧ repIds = roundRobinRepIds env stored := by
        unfold RotationOk at hok
        rwa [hp] at hok
      obtain ⟨hwrite, stored, hstored, rfl⟩ := hok'
      rw [hwrite] at hrule
      refine ⟨ruleId, rule, stored, List.mem_append_right _ List.mem_cons_self, hstored, hrule, ?_⟩
      rw [Txn.goOn, hwrite]
      rfl
  commit := by
    intro s a hinv hok _ _
    rcases rotationOk_write hok with hwrite | ⟨ruleId, rule, stored, -, hstored, hrule, hwrite⟩
    · rw [hwrite]
      exact hinv
    · rw [hwrite]
      exact hinv.record hstored hrule
  frame := by
    intro s a b _ hok _ _ hokb hapart
    unfold RotationOk at hokb ⊢
    match hb : b.point, hokb with
    | .load _, hokb => exact hokb
    | .update _ _, hokb => exact hokb
    | .claimed, ⟨ruleId, rule, stored, hlock, hstored, hrule, hwrite⟩ =>
      refine ⟨ruleId, rule, stored, hlock, hstored, ?_, hwrite⟩
      rcases rotationOk_write hok with hid | ⟨ruleId', rule', stored', hlock', -, -, hrecord⟩
      · rw [hid]
        exact hrule
      · have hne : ruleId ≠ ruleId' := by
          rintro rfl
          exact hapart ruleId hlock' hlock
        rw [hrecord]
        simp only [recordClaim, Store.get?_modify, if_neg hne]
        exact hrule

/-! ## Main theorem -/

theorem rotationInv_init (env : RoutingEnv) (start : Store LeadRoutingRule) :
    RotationInv env start ⟨start, []⟩ where
  rules := by
    intro k rule hk
    simp [claimsOf, hk]
  stored := fun k hk => hk
  indices := fun k rule _ => rfl
  users := by
    intro k rule _ c hc
    simp [claimsOf] at hc

theorem rotation_inv (env : RoutingEnv) (start : Store LeadRoutingRule) (ops : List (RcOp ℕ)) :
    AllStates (rcStep (rotationProgram env)) (fun x => RotationInv env start x.committed)
      (Rc.init ⟨start, []⟩) ops := by
  have hstates := allStates_of_step (P := RcInv (RotationInv env start) (RotationOk env start))
    (fun x o hx => rcStep_inv (rotation_rule env start) x o hx (by cases o <;> simp [AtCommit]))
    (rcInv_init (rotationInv_init env start)) ops
  exact hstates.mono fun x hx => hx.committed

/-- In every state of every run of concurrent intakes, the claims of a rule with reps are
    spread evenly: over every window of consecutive claims, without a repeated counter
    value and without a skipped position. -/
theorem rotation_fair (env : RoutingEnv) (t : StoredRotation env) (ops : List (RcOp ℕ)) :
    AllStates (rcStep (rotationProgram env))
      (fun x => FairRotation (roundRobinRepIds env t.rule) (claimsOf t.ruleId x.committed.claims))
      (Rc.init ⟨t.rules, []⟩) ops :=
  (rotation_inv env t.rules ops).mono fun _ hx =>
    fairRotation_of_consecutive t.staffed (hx.indices t.ruleId t.rule t.stored)
      (hx.users t.ruleId t.rule t.stored)

/-! ## Two reps in turn -/

/-- A stored rule that rotates over the users 1 and 2. -/
def pairRotation : StoredRotation asciiEnv where
  rules := Store.empty.create (rotation 0)
  ruleId := 0
  rule := rotation 0
  stored := rfl
  staffed := by decide +kernel

/-- Two intakes side by side, of which the second waits for the row of the first, and a
    third. -/
def threeIntakes : List (RcOp ℕ) :=
  [.start 0, .start 0, .exec 0, .exec 1, .exec 0, .exec 1, .exec 0, .exec 1, .exec 1,
    .start 0, .exec 2, .exec 2, .exec 2]

theorem pairRotation_fair :
    (run (rcStep (rotationProgram asciiEnv)) (Rc.init ⟨pairRotation.rules, []⟩)
        threeIntakes).committed.claims.map RotationClaim.userId = [some 1, some 2, some 1] ∧
      FairRotation (roundRobinRepIds asciiEnv (rotation 0))
        (claimsOf 0 (run (rcStep (rotationProgram asciiEnv)) (Rc.init ⟨pairRotation.rules, []⟩)
          threeIntakes).committed.claims) :=
  ⟨by decide +kernel, (rotation_fair asciiEnv pairRotation threeIntakes).last⟩

end TempleConsign.LeadRouting
