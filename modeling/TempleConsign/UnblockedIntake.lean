import TempleConsign.IntakeRouting
import TempleConsign.RoutingTargets

/-!
# Routing never blocks an intake

`_route_and_assign` runs the waterfall inside a `try`: "A failure here must not
block intake". Two things of routing are outside of it. The decision is applied
after the `try`, and the foreign key of `assigned_sales_rep_id` takes only users:
the ids of a round-robin rule and of the config were checked for their shape. And
a counter at the end of its column aborts the transaction, which the `except`
does not end.

Where a matcher raises, the intake goes on but the rules after it do not.
`str.isdigit` is true of texts that `int` refuses, such as `"²"`.

Results:
* `not_fails_iff`: when no matcher raises.
* `routeHarmless_iff`: when the decision can be applied.
* `intake_unblocked_iff`: routing never blocks or derails the intake exactly when
  the texts it reads as numbers are numbers and the id it comes to is of a user.
* `stale_rep_blocks_intake`: the next rep of a rotation is no user.
-/

namespace TempleConsign.LeadRouting

open ServiceLib

/-! ## The property -/

/-- What an intake and the schema of its rules call. -/
structure IntakeSchema extends IntakeEnv, RoutingSchema

/-- The tables an intake can find, in a new transaction: their indexes and foreign
    keys hold, the rules and the config were checked when they were written. -/
structure IntakeOffice (env : IntakeSchema) where
  db : IntakeDb
  notAborted : db.aborted = false
  uniquePriorities : db.routing.UniquePriorities
  uniqueProfiles : db.profiles.Pairwise fun p q => p.userId ≠ none → p.userId ≠ q.userId
  assigneeExists : ∀ k rule, db.routing.HasRule k rule →
    ∀ u ∈ rule.assignedUserId, (db.tables.users u).isSome = true
  conditionsParsed : ∀ k rule, db.routing.HasRule k rule →
    parseConditions env.toRoutingSchema rule.ruleType rule.conditions = true
  defaultRepValid : validUuidOrNone env.toRoutingEnv db.routing.defaultRep = true

/-- A submission that the checks of `submit_intake` let through. -/
structure ValidIntake (db : IntakeDb) where
  user : Submitter
  payload : IntakeSubmission
  categoryValid : CategoryValid db payload

/-- The property: in whatever order the rules come the intake is accepted, and no
    matcher raises. -/
structure Unblocked (env : IntakeEnv) (db : IntakeDb) (intake : ValidIntake db) : Prop where
  accepted : ∀ rows, LoadsActiveRules db.routing rows →
    Accepted env rows db intake.user intake.payload
  matchersAnswer : ∀ k rule, db.routing.HasRule k rule →
    ¬Fails env.toRoutingEnv (customerOf db intake.user) rule

/-! ## The condition -/

/-- The columns take what the intake writes, and a generated reference is free. -/
structure Storable (env : IntakeEnv) (db : IntakeDb) (intake : ValidIntake db) : Prop where
  name : profileOf db intake.user = some none →
    fits 200 (some (newProfile intake.user).submitterName) = true
  columns : columnsTake env intake.payload = true
  reference : (freeReference env db).isSome = true

/-- The two ends of a range of ZIPs. -/
def rangeLow (entry : String) : String :=
  strip (String.ofList ((strip entry).toList.takeWhile (· ≠ '-')))

def rangeHigh (entry : String) : String :=
  strip (String.ofList (((strip entry).toList.dropWhile (· ≠ '-')).drop 1))

/-- The entry is the ZIP, or a range around it. -/
@[irreducible] def Covers (b : Builtins) (zip : ℕ) (entry : String) : Prop :=
  if '-' ∈ (strip entry).toList then
    b.isDigit (rangeLow entry) = true ∧ b.isDigit (rangeHigh entry) = true ∧
      ∃ low high, b.intOf (rangeLow entry) = some low ∧ b.intOf (rangeHigh entry) = some high ∧
        low ≤ zip ∧ zip ≤ high
  else b.isDigit (strip entry) = true ∧ b.intOf (strip entry) = some zip

/-- The digits of the entry that are compared with the ZIP are a number. -/
@[irreducible] def EntryReadable (b : Builtins) (zip : ℕ) (entry : String) : Prop :=
  if '-' ∈ (strip entry).toList then
    b.isDigit (rangeLow entry) = true → b.isDigit (rangeHigh entry) = true →
      ∃ low, b.intOf (rangeLow entry) = some low ∧
        (low ≤ zip → ∃ high, b.intOf (rangeHigh entry) = some high)
  else b.isDigit (strip entry) = true → ∃ n, b.intOf (strip entry) = some n

/-- Every entry that no earlier one makes superfluous is readable. -/
def ListReadable (b : Builtins) (zip : ℕ) (zipList : List Json) : Prop :=
  ∀ before entry after, zipList = before ++ .str entry :: after →
    (∀ earlier, .str earlier ∈ before → ¬Covers b zip earlier) → EntryReadable b zip entry

/-- What `_normalize_zip` looks at, and what it converts. -/
def zipHead (raw : String) : String := strip (String.ofList (raw.toList.takeWhile (· ≠ '-')))

def zipDigits (raw : String) : String := String.ofList ((zipHead raw).toList.take 5)

/-- The ZIP of the customer is no ZIP, or a number with which the list is readable. -/
def ZipReadable (b : Builtins) (raw : String) (zipList : List Json) : Prop :=
  5 ≤ (zipHead raw).length → b.isDigit (zipDigits raw) = true →
    ∃ zip, b.intOf (zipDigits raw) = some zip ∧ ListReadable b zip zipList

/-- The state decides, or there is no ZIP or no list to compare it with, or both are
    readable. -/
def Readable (env : RoutingEnv) (customer : RoutedCustomer) (rule : LeadRoutingRule) : Prop :=
  rule.ruleType = .geographic → stateMatches env rule customer.addressState = false →
    ∀ raw ∈ truthy customer.addressZip, ∀ zipList, rule.cond.get "zip_list" = .arr zipList →
      ZipReadable env.toBuiltins raw zipList

/-- The round-robin rule that is claimed. -/
structure FirstRotation (env : RoutingEnv) (db : RoutingDb) (k : ℕ) (rule : LeadRoutingRule) :
    Prop where
  hasRule : db.HasRule k rule
  roundRobin : rule.ruleType = .roundRobin
  reps : roundRobinRepIds env rule ≠ []
  least : ∀ k' r, db.HasRule k' r → r.ruleType = .roundRobin → roundRobinRepIds env r ≠ [] →
    rule.priority ≤ r.priority

/-- The rep in turn is a user, and the counter not at the end of its column. -/
def TurnSafe (env : RoutingEnv) (db : IntakeDb) (rule : LeadRoutingRule) : Prop :=
  rule.roundRobinIndex < maxInteger ∧
    ∀ u ∈ repAt (roundRobinRepIds env rule) rule.claimed.roundRobinIndex,
      (db.tables.users u).isSome = true

/-- An ad hoc or geographic rule can assign, or the claimed rotation is safe, or there is
    none to claim and the default rep, if any, is a user. -/
def LandsSafely (env : RoutingEnv) (db : IntakeDb) (customer : RoutedCustomer) : Prop :=
  (∃ k rule, db.routing.HasRule k rule ∧ rule.ruleType ≠ .roundRobin ∧
    CanAssign env customer rule) ∨
  (∃ k rule, FirstRotation env db.routing k rule ∧ TurnSafe env db rule) ∨
  ((∀ k rule, ¬FirstRotation env db.routing k rule) ∧
    ∀ u ∈ readDefaultSalesRep env db.routing, (db.tables.users u).isSome = true)

/-! ## When a matcher answers -/

variable {env : RoutingEnv} {customer : RoutedCustomer}

/-- What `_zip_entry_matches` does with a range. -/
theorem zipEntryMatches_range {entry : String} {zip : ℕ} (h : '-' ∈ (strip entry).toList) :
    zipEntryMatches env entry zip =
      if env.isDigit (rangeLow entry) && env.isDigit (rangeHigh entry) then do
        let low ← env.int (rangeLow entry)
        if low ≤ zip then do
          let high ← env.int (rangeHigh entry)
          pure (decide (zip ≤ high))
        else pure false
      else pure false := by
  unfold zipEntryMatches
  exact if_pos h

theorem zipEntryMatches_single {entry : String} {zip : ℕ} (h : '-' ∉ (strip entry).toList) :
    zipEntryMatches env entry zip =
      if env.isDigit (strip entry) then do
        let n ← env.int (strip entry)
        pure (decide (n = zip))
      else pure false := by
  unfold zipEntryMatches
  exact if_neg h

/-- An entry that is readable is compared with the ZIP, any other raises. -/
theorem zipEntryMatches_cases (env : RoutingEnv) (entry : String) (zip : ℕ) :
    (EntryReadable env.toBuiltins zip entry ∧ ∃ b, zipEntryMatches env entry zip = .ok b ∧
      (b = true ↔ Covers env.toBuiltins zip entry)) ∨
    (¬EntryReadable env.toBuiltins zip entry ∧ ¬Covers env.toBuiltins zip entry ∧
      ∃ e, zipEntryMatches env entry zip = .error e) := by
  unfold EntryReadable Covers
  split_ifs with hrange
  · rw [zipEntryMatches_range hrange]
    by_cases hdigits : env.isDigit (rangeLow entry) = true ∧ env.isDigit (rangeHigh entry) = true
    · obtain ⟨hlow, hhigh⟩ := hdigits
      unfold Builtins.int
      cases env.intOf (rangeLow entry) with
      | none => simp [hlow, hhigh, bind, Except.bind]
      | some low =>
        by_cases hle : low ≤ zip
        · cases env.intOf (rangeHigh entry) with
          | none => simp [hlow, hhigh, bind, Except.bind, hle]
          | some high => simp [hlow, hhigh, bind, Except.bind, pure, Except.pure, hle]
        · simp [hlow, hhigh, bind, Except.bind, pure, Except.pure, hle]
    · have hskip : (env.isDigit (rangeLow entry) && env.isDigit (rangeHigh entry)) = false := by
        rw [← Bool.not_eq_true, Bool.and_eq_true]
        exact hdigits
      rw [hskip]
      exact .inl ⟨fun hlow hhigh => absurd ⟨hlow, hhigh⟩ hdigits, false, rfl,
        iff_of_false nofun fun h => hdigits ⟨h.1, h.2.1⟩⟩
  · rw [zipEntryMatches_single hrange]
    cases hdigit : env.isDigit (strip entry) with
    | false => simp [pure, Except.pure]
    | true =>
      unfold Builtins.int
      cases env.intOf (strip entry) with
      | none => simp [bind, Except.bind]
      | some n => simp [bind, Except.bind, pure, Except.pure]

theorem zipEntryMatches_ok_iff {entry : String} {zip : ℕ} :
    (∃ b, zipEntryMatches env entry zip = .ok b) ↔ EntryReadable env.toBuiltins zip entry := by
  rcases zipEntryMatches_cases env entry zip with ⟨hreadable, b, hrun, -⟩ | ⟨hnot, -, e, hrun⟩
  · exact iff_of_true ⟨b, hrun⟩ hreadable
  · rw [hrun]
    exact iff_of_false nofun hnot

theorem zipEntryMatches_true_iff {entry : String} {zip : ℕ} :
    zipEntryMatches env entry zip = .ok true ↔ Covers env.toBuiltins zip entry := by
  rcases zipEntryMatches_cases env entry zip with ⟨-, b, hrun, hcovers⟩ | ⟨-, hnot, e, hrun⟩
  · rw [hrun, Except.ok.injEq]
    exact hcovers
  · rw [hrun]
    exact iff_of_false nofun hnot

/-- The test of one element of a `zip_list`. -/
def zipItemMatches (env : RoutingEnv) (zip : ℕ) : Json → Except RoutingError Bool
  | .str entry => zipEntryMatches env entry zip
  | _ => pure false

theorem zipItemMatches_str (env : RoutingEnv) (zip : ℕ) (entry : String) :
    zipItemMatches env zip (.str entry) = zipEntryMatches env entry zip := rfl

/-- Only a text can match. -/
theorem zipItemMatches_cases (env : RoutingEnv) (zip : ℕ) (item : Json) :
    (∃ entry, item = .str entry) ∨ zipItemMatches env zip item = .ok false := by
  cases item with
  | str entry => exact .inl ⟨entry, rfl⟩
  | null => exact .inr rfl
  | bool b => exact .inr rfl
  | int n => exact .inr rfl
  | float q => exact .inr rfl
  | arr items => exact .inr rfl
  | obj fields => exact .inr rfl

/-- The list is searched to its end, or to the first entry that covers the ZIP, when the
    entries up to there are readable. -/
theorem zipList_ok_iff {zipList : List Json} {zip : ℕ} :
    (∃ b, zipList.anyM (zipItemMatches env zip) = .ok b) ↔
      ListReadable env.toBuiltins zip zipList := by
  rw [exists_ok_anyM_iff]
  constructor
  · intro h before entry after hl hbefore
    rw [← zipEntryMatches_ok_iff, ← zipItemMatches_str]
    refine h before (.str entry) after hl fun item hitem => ?_
    rcases zipItemMatches_cases env zip item with ⟨earlier, rfl⟩ | hfalse
    · rw [zipItemMatches_str, Ne, zipEntryMatches_true_iff]
      exact hbefore earlier hitem
    · rw [hfalse]
      simp
  · intro h before item after hl hbefore
    rcases zipItemMatches_cases env zip item with ⟨entry, rfl⟩ | hfalse
    · rw [zipItemMatches_str, zipEntryMatches_ok_iff]
      refine h before entry after hl fun earlier hmem => ?_
      rw [← zipEntryMatches_true_iff, ← zipItemMatches_str]
      exact hbefore (.str earlier) hmem
    · exact ⟨false, hfalse⟩

/-- What is compared with the list. -/
theorem normalizeZip_eq (raw : String) :
    normalizeZip env raw =
      if 5 ≤ (zipHead raw).length ∧ env.isDigit (zipDigits raw) = true then
        some <$> env.int (zipDigits raw)
      else .ok none := by
  have hbody : normalizeZip env raw =
      if (zipHead raw).length < 5 || !env.isDigit (zipDigits raw) then .ok none
      else some <$> env.int (zipDigits raw) := by
    unfold normalizeZip
    rfl
  rw [hbody]
  by_cases hlength : (zipHead raw).length < 5
  · have hshort : ¬5 ≤ (zipHead raw).length := by omega
    simp [hlength, hshort]
  · have hlong : 5 ≤ (zipHead raw).length := by omega
    cases hdigit : env.isDigit (zipDigits raw) with
    | false => simp
    | true => simp [hlength, hlong]

theorem zipMatches_list {rule : LeadRoutingRule} {zipCode : Option String} {raw : String}
    {zipList : List Json} (hzipCode : truthy zipCode = some raw)
    (hlist : rule.cond.get "zip_list" = .arr zipList) :
    zipMatches env rule zipCode = normalizeZip env raw >>= fun normZip =>
      normZip.elim (pure false) fun zip => zipList.anyM (zipItemMatches env zip) := by
  unfold zipMatches
  rw [hzipCode, hlist]
  refine congrArg (normalizeZip env raw >>= ·) (funext fun normZip => ?_)
  cases normZip with
  | none => rfl
  | some zip => rfl

theorem zipMatches_no_list {rule : LeadRoutingRule} {zipCode : Option String}
    (hlist : ¬∃ zipList, rule.cond.get "zip_list" = .arr zipList) :
    zipMatches env rule zipCode = .ok false := by
  unfold zipMatches
  cases truthy zipCode with
  | none => rfl
  | some raw =>
    cases h : rule.cond.get "zip_list" with
    | arr zipList => exact absurd ⟨zipList, h⟩ hlist
    | null => rfl
    | bool b => rfl
    | int n => rfl
    | float q => rfl
    | str s => rfl
    | obj fields => rfl

/-- The ZIP is normalized and looked for in the list when both are readable. -/
theorem zipSearch_ok_iff {raw : String} {zipList : List Json} :
    (∃ b, (normalizeZip env raw >>= fun normZip =>
        normZip.elim (pure false) fun zip => zipList.anyM (zipItemMatches env zip)) = .ok b) ↔
      ZipReadable env.toBuiltins raw zipList := by
  rw [normalizeZip_eq]
  unfold ZipReadable
  by_cases hzip : 5 ≤ (zipHead raw).length ∧ env.isDigit (zipDigits raw) = true
  · rw [if_pos hzip]
    simp only [hzip.1, hzip.2, forall_const]
    unfold Builtins.int
    cases env.intOf (zipDigits raw) with
    | none => simp [bind, Except.bind, Functor.map, Except.map]
    | some zip =>
      simp only [Option.some.injEq, exists_eq_left']
      exact zipList_ok_iff
  · rw [if_neg hzip]
    exact iff_of_true ⟨false, rfl⟩ fun hlong hdigit => absurd ⟨hlong, hdigit⟩ hzip

/-- The ZIP half answers when ZIP and list are readable. -/
theorem zipMatches_ok_iff {rule : LeadRoutingRule} {zipCode : Option String} :
    (∃ b, zipMatches env rule zipCode = .ok b) ↔
      ∀ raw ∈ truthy zipCode, ∀ zipList, rule.cond.get "zip_list" = .arr zipList →
        ZipReadable env.toBuiltins raw zipList := by
  by_cases hlist : ∃ zipList, rule.cond.get "zip_list" = .arr zipList
  · obtain ⟨zipList, hlist⟩ := hlist
    cases hzipCode : truthy zipCode with
    | none =>
      refine iff_of_true ⟨false, ?_⟩ nofun
      unfold zipMatches
      rw [hzipCode]
      rfl
    | some raw =>
      rw [zipMatches_list hzipCode hlist, hlist, zipSearch_ok_iff]
      simp only [Option.mem_some_iff, forall_eq', Json.arr.injEq]
  · refine iff_of_true ⟨false, zipMatches_no_list hlist⟩ fun raw _ zipList h => ?_
    exact absurd ⟨zipList, h⟩ hlist

/-- A rule does not fail exactly when it is readable for the customer. -/
theorem not_fails_iff {rule : LeadRoutingRule} :
    ¬Fails env customer rule ↔ Readable env customer rule := by
  unfold Fails Readable
  rw [not_and]
  refine forall_congr' fun _ => ?_
  rw [← zipMatches_ok_iff]
  unfold geographicMatches geoMatches
  cases hstate : stateMatches env rule customer.addressState with
  | true => simp [bind, Except.bind, pure, Except.pure]
  | false =>
    match zipMatches env rule customer.addressZip with
    | .ok true => simp [bind, Except.bind, pure, Except.pure]
    | .ok false => simp [bind, Except.bind, pure, Except.pure]
    | .error e => simp [bind, Except.bind]

/-! ## Where routing lands -/

variable {db : RoutingDb} {rows : List (ℕ × LeadRoutingRule)}

/-- The claimed rotation is the first of the sorted rules with reps. -/
theorem firstRotation_iff (hidx : db.UniquePriorities) (hrows : LoadsActiveRules db rows) {k : ℕ}
    {rule : LeadRoutingRule} :
    FirstRotation env db k rule ↔
      (byPriority (bucket .roundRobin rows)).find?
        (fun row => roundRobinRepIds env row.2 ≠ []) = some (k, rule) := by
  rw [byPriority, find?_sortedBy_iff (hrows.keysDiffer hidx .roundRobin)]
  constructor
  · rintro ⟨hrule, ht, hreps, hleast⟩
    refine ⟨(mem_bucket_iff hrows).mpr ⟨hrule, ht⟩, by simpa using hreps, fun row hrow hr => ?_⟩
    obtain ⟨hget, htr⟩ := (mem_bucket_iff hrows).mp hrow
    exact hleast row.1 row.2 hget htr (by simpa using hr)
  · rintro ⟨hmem, hreps, hleast⟩
    obtain ⟨hrule, ht⟩ := (mem_bucket_iff hrows).mp hmem
    refine ⟨hrule, ht, by simpa using hreps, fun k' r hr htr hne => ?_⟩
    exact hleast (k', r) ((mem_bucket_iff hrows).mpr ⟨hr, htr⟩) (by simpa using hne)

/-- Where no matcher raises, the geographic loop decides for the user of a rule that can
    assign, or there is none. -/
theorem geographicPass_cases (hrows : LoadsActiveRules db rows)
    (hreads : ∀ k rule, db.HasRule k rule → ¬Fails env customer rule) :
    (∃ decision k rule, db.HasRule k rule ∧ rule.ruleType = .geographic ∧
      CanAssign env customer rule ∧ decision.assignedUserId = rule.assignedUserId ∧
      (byPriority (bucket .geographic rows)).findSomeM? (geographicStep env customer) =
        .ok (some decision)) ∨
    ((byPriority (bucket .geographic rows)).findSomeM? (geographicStep env customer) = .ok none ∧
      ∀ k rule, db.HasRule k rule → rule.ruleType = .geographic →
        ¬CanAssign env customer rule) := by
  rw [findSomeM?_except]
  cases hfind : (byPriority (bucket .geographic rows)).find?
      fun row => stops (geographicStep env customer row) with
  | none =>
    refine .inr ⟨rfl, fun k rule hrule ht hassigns => ?_⟩
    have hmem : (k, rule) ∈ byPriority (bucket .geographic rows) :=
      mem_byPriority.mpr ((mem_bucket_iff hrows).mpr ⟨hrule, ht⟩)
    exact List.find?_eq_none.mp hfind _ hmem
      ((stops_geographicStep_iff (k, rule) ht).mpr (.inl hassigns))
  | some row =>
    obtain ⟨k, rule⟩ := row
    have hmem := mem_byPriority.mp (List.mem_of_find?_eq_some hfind)
    obtain ⟨hrule, ht⟩ : db.HasRule k rule ∧ rule.ruleType = .geographic :=
      (mem_bucket_iff hrows).mp hmem
    have hstop := List.find?_some hfind
    have hstops := (stops_geographicStep_iff (k, rule) ht).mp hstop
    have hassigns : CanAssign env customer rule := hstops.resolve_right (hreads k rule hrule)
    obtain ⟨hmatch, huser⟩ := (canAssign_geographic_iff ht).mp hassigns
    obtain ⟨u, hu⟩ := Option.ne_none_iff_exists'.mp huser
    refine .inl ⟨⟨some u, some k, some .geographic, "lead_routing"⟩, k, rule, hrule, ht, hassigns,
      hu.symm, ?_⟩
    exact geographicStep_eq_some.mpr ⟨hmatch, decideRule_eq_some.mpr ⟨u, hu, rfl⟩⟩

/-- The ad hoc loop decides for the user of a rule that can assign, or there is none. -/
theorem adHocPass_cases (hrows : LoadsActiveRules db rows) :
    (∃ decision k rule, db.HasRule k rule ∧ rule.ruleType = .adHoc ∧
      CanAssign env customer rule ∧ decision.assignedUserId = rule.assignedUserId ∧
      (bucket .adHoc rows).findSome? (adHocStep env customer) = some decision) ∨
    ((bucket .adHoc rows).findSome? (adHocStep env customer) = none ∧
      ∀ k rule, db.HasRule k rule → rule.ruleType = .adHoc → ¬CanAssign env customer rule) := by
  cases hpass : (bucket .adHoc rows).findSome? (adHocStep env customer) with
  | none => exact .inr ⟨rfl, (adHocPass_none_iff hrows).mp hpass⟩
  | some decision =>
    obtain ⟨⟨k, rule⟩, hmem, hstep⟩ := List.exists_of_findSome?_eq_some hpass
    obtain ⟨hrule, ht⟩ := (mem_bucket_iff hrows).mp hmem
    have hassigns : CanAssign env customer rule :=
      (adHocStep_ne_none_iff (k, rule) ht).mp (by simp [hstep])
    obtain ⟨u, hu, rfl⟩ := decideRule_eq_some.mp (adHocStep_eq_some.mp hstep).2
    exact .inl ⟨_, k, rule, hrule, ht, hassigns, hu.symm, rfl⟩

/-- A decision of a loop ends the waterfall. -/
theorem exec_orNext_pure (o : Option RoutingDecision) (next : RoutingService RoutingDecision)
    (db : RoutingDb) :
    Svc.exec (orNext (pure o) next) db =
      o.elim (Svc.exec next db) fun decision => (.ok decision, db) := by
  rw [exec_orNext]
  cases o with
  | none => rfl
  | some decision => rfl

/-- What the fallback decides. -/
theorem exec_fallback (env : RoutingEnv) (db : RoutingDb) :
    ∃ decision, Svc.exec (fallback env) db = (.ok decision, db) ∧
      decision.assignedUserId = readDefaultSalesRep env db := by
  rw [fallback, Svc.exec_bind, Svc.exec_get]
  cases hread : readDefaultSalesRep env db with
  | none => exact ⟨⟨none, none, none, "unassigned"⟩, by simp [hread], rfl⟩
  | some u => exact ⟨⟨some u, none, none, "default_sales_rep"⟩, by simp [hread], rfl⟩

/-! ## When the decision can be applied -/

section Harmless

variable {env : IntakeEnv} {db : IntakeDb} {customer : RoutedCustomer}
  {rows : List (ℕ × LeadRoutingRule)}

theorem routeHarmless_ok {decision : RoutingDecision}
    (h : (Svc.exec (routeForRecord env.toRoutingEnv rows customer) db.routing).1 = .ok decision) :
    RouteHarmless env rows db customer ↔
      ∀ u ∈ decision.assignedUserId, (db.tables.users u).isSome = true := by
  unfold RouteHarmless
  rw [h]

theorem routeHarmless_error {e : RoutingError}
    (h : (Svc.exec (routeForRecord env.toRoutingEnv rows customer) db.routing).1 = .error e) :
    RouteHarmless env rows db customer ↔ e ≠ .dataError := by
  unfold RouteHarmless
  rw [h]

/-- A rule that assigns before the round-robin rules are tried does no harm: its user
    exists. -/
theorem harmless_and_lands_of_rule {decision : RoutingDecision} {k : ℕ} {rule : LeadRoutingRule}
    (hrule : db.routing.HasRule k rule) (ht : rule.ruleType ≠ .roundRobin)
    (hassigns : CanAssign env.toRoutingEnv customer rule)
    (hexists : ∀ u ∈ rule.assignedUserId, (db.tables.users u).isSome = true)
    (huser : decision.assignedUserId = rule.assignedUserId)
    (h : (Svc.exec (routeForRecord env.toRoutingEnv rows customer) db.routing).1 = .ok decision) :
    RouteHarmless env rows db customer ↔ LandsSafely env.toRoutingEnv db customer := by
  refine iff_of_true ((routeHarmless_ok h).mpr ?_) (.inl ⟨k, rule, hrule, ht, hassigns⟩)
  rw [huser]
  exact hexists

/-- The loop over the sorted rotations claims the first, or goes on to the fallback. -/
theorem exec_rotations (hidx : db.routing.UniquePriorities)
    (hrows : LoadsActiveRules db.routing rows)
    (hexec : Svc.exec (routeForRecord env.toRoutingEnv rows customer) db.routing =
      Svc.exec (orNext ((byPriority (bucket .roundRobin rows)).findSomeM?
        (roundRobinStep env.toRoutingEnv)) (fallback env.toRoutingEnv)) db.routing) :
    (∃ k rule u, FirstRotation env.toRoutingEnv db.routing k rule ∧
      repAt (roundRobinRepIds env.toRoutingEnv rule) rule.claimed.roundRobinIndex = some u ∧
      (Svc.exec (routeForRecord env.toRoutingEnv rows customer) db.routing).1 =
        if rule.roundRobinIndex < maxInteger then
          .ok ⟨some u, some k, some .roundRobin, "lead_routing"⟩
        else .error .dataError) ∨
    ((∀ k rule, ¬FirstRotation env.toRoutingEnv db.routing k rule) ∧
      ∃ decision, (Svc.exec (routeForRecord env.toRoutingEnv rows customer) db.routing).1 =
          .ok decision ∧
        decision.assignedUserId = readDefaultSalesRep env.toRoutingEnv db.routing) := by
  have hstored : ∀ row ∈ byPriority (bucket .roundRobin rows),
      db.routing.rules.get? row.1 = some row.2 :=
    fun row hrow => ((mem_bucket_iff hrows).mp (mem_byPriority.mp hrow)).1.1
  rw [hexec, exec_orNext, exec_roundRobinPass _ hstored]
  cases hfind : (byPriority (bucket .roundRobin rows)).find?
      fun row => roundRobinRepIds env.toRoutingEnv row.2 ≠ [] with
  | none =>
    right
    refine ⟨fun k rule hfirst => ?_, ?_⟩
    · rw [firstRotation_iff hidx hrows, hfind] at hfirst
      cases hfirst
    · obtain ⟨decision, hfallback, huser⟩ := exec_fallback env.toRoutingEnv db.routing
      refine ⟨decision, ?_, huser⟩
      rw [Option.elim_none]
      dsimp only
      rw [hfallback]
  | some row =>
    left
    obtain ⟨k, rule⟩ := row
    have hfirst := (firstRotation_iff hidx hrows).mpr hfind
    obtain ⟨u, -, hrep⟩ := repAt_mem hfirst.reps rule.claimed.roundRobinIndex
    refine ⟨k, rule, u, hfirst, hrep, ?_⟩
    rw [Option.elim_some, roundRobinStep, Svc.exec_bind, exec_claim hfirst.hasRule.1 hfirst.reps]
    split_ifs with hcounter
    · simp [hrep, decideRule]
    · rfl

/-- Where no ad hoc or geographic rule can assign, the decision can be applied exactly when
    the claimed rotation or the fallback lands safely. -/
theorem rotations_harmless_iff (hidx : db.routing.UniquePriorities)
    (hrows : LoadsActiveRules db.routing rows)
    (hnoRule : ¬∃ k rule, db.routing.HasRule k rule ∧ rule.ruleType ≠ .roundRobin ∧
      CanAssign env.toRoutingEnv customer rule)
    (hexec : Svc.exec (routeForRecord env.toRoutingEnv rows customer) db.routing =
      Svc.exec (orNext ((byPriority (bucket .roundRobin rows)).findSomeM?
        (roundRobinStep env.toRoutingEnv)) (fallback env.toRoutingEnv)) db.routing) :
    RouteHarmless env rows db customer ↔ LandsSafely env.toRoutingEnv db customer := by
  rcases exec_rotations hidx hrows hexec with ⟨k, rule, u, hfirst, hrep, hrun⟩ |
    ⟨hnoRotation, decision, hrun, huser⟩
  · have honly : ∀ k' rule', FirstRotation env.toRoutingEnv db.routing k' rule' → rule' = rule := by
      intro k' rule' hfirst'
      have hfind := (firstRotation_iff hidx hrows).mp hfirst
      rw [(firstRotation_iff hidx hrows).mp hfirst'] at hfind
      exact congrArg Prod.snd (Option.some.inj hfind)
    have hlands : LandsSafely env.toRoutingEnv db customer ↔
        TurnSafe env.toRoutingEnv db rule := by
      constructor
      · rintro (hassigns | ⟨k', rule', hfirst', hsafe⟩ | ⟨hnone, -⟩)
        · exact absurd hassigns hnoRule
        · rwa [← honly k' rule' hfirst']
        · exact absurd hfirst (hnone k rule)
      · intro hsafe
        exact .inr (.inl ⟨k, rule, hfirst, hsafe⟩)
    rw [hlands]
    unfold TurnSafe
    split_ifs at hrun with hcounter
    · rw [routeHarmless_ok hrun, hrep]
      exact (and_iff_right hcounter).symm
    · rw [routeHarmless_error hrun]
      exact iff_of_false (fun h => h rfl) fun h => hcounter h.1
  · rw [routeHarmless_ok hrun, huser]
    constructor
    · intro h
      exact .inr (.inr ⟨hnoRotation, h⟩)
    · rintro (hassigns | ⟨k, rule, hfirst, -⟩ | ⟨-, h⟩)
      · exact absurd hassigns hnoRule
      · exact absurd hfirst (hnoRotation k rule)
      · exact h

/-- Where no matcher raises, the decision can be applied exactly when routing lands
    safely. -/
theorem routeHarmless_iff (hidx : db.routing.UniquePriorities)
    (hrows : LoadsActiveRules db.routing rows)
    (hexists : ∀ k rule, db.routing.HasRule k rule →
      ∀ u ∈ rule.assignedUserId, (db.tables.users u).isSome = true)
    (hreads : ∀ k rule, db.routing.HasRule k rule → ¬Fails env.toRoutingEnv customer rule) :
    RouteHarmless env rows db customer ↔ LandsSafely env.toRoutingEnv db customer := by
  rcases adHocPass_cases hrows with ⟨decision, k, rule, hrule, ht, hassigns, huser, hadHoc⟩ |
    ⟨hadHoc, hnoAdHoc⟩
  · refine harmless_and_lands_of_rule hrule (by simp [ht]) hassigns (hexists k rule hrule) huser ?_
    rw [routeForRecord, hadHoc, exec_orNext_pure]
    rfl
  rcases geographicPass_cases hrows hreads with
    ⟨decision, k, rule, hrule, ht, hassigns, huser, hgeographic⟩ | ⟨hgeographic, hnoGeographic⟩
  · refine harmless_and_lands_of_rule hrule (by simp [ht]) hassigns (hexists k rule hrule) huser ?_
    rw [routeForRecord, hadHoc, exec_orNext_pure, hgeographic]
    exact congrArg Prod.fst (exec_orNext_pure (some decision) _ _)
  have hnoRule : ¬∃ k rule, db.routing.HasRule k rule ∧ rule.ruleType ≠ .roundRobin ∧
      CanAssign env.toRoutingEnv customer rule := by
    rintro ⟨k, rule, hrule, ht, hassigns⟩
    cases htype : rule.ruleType with
    | adHoc => exact hnoAdHoc k rule hrule htype hassigns
    | geographic => exact hnoGeographic k rule hrule htype hassigns
    | roundRobin => exact ht htype
  have hexec : Svc.exec (routeForRecord env.toRoutingEnv rows customer) db.routing =
      Svc.exec (orNext ((byPriority (bucket .roundRobin rows)).findSomeM?
        (roundRobinStep env.toRoutingEnv)) (fallback env.toRoutingEnv)) db.routing := by
    rw [routeForRecord, hadHoc, exec_orNext_pure, hgeographic]
    exact exec_orNext_pure none _ _
  exact rotations_harmless_iff hidx hrows hnoRule hexec

end Harmless

/-! ## Main theorem -/

/-- No user has two profiles. -/
theorem IntakeOffice.profileOf_ne_none {env : IntakeSchema} (office : IntakeOffice env)
    (user : Submitter) : profileOf office.db user ≠ none := by
  unfold profileOf
  rw [Store.scalar_select_ne_none_iff]
  intro k k' p p' hget hmine hget' hmine'
  by_contra hne
  have huser : p.userId = some user.id := of_decide_eq_true hmine
  have huser' : p'.userId = some user.id := of_decide_eq_true hmine'
  exact office.uniqueProfiles k k' p p' hne hget hget' (by simp [huser]) (huser.trans huser'.symm)

/-- An intake is accepted exactly when it can be stored and routing does no harm. -/
theorem IntakeOffice.accepted_iff {env : IntakeSchema} (office : IntakeOffice env)
    (intake : ValidIntake office.db) {rows : List (ℕ × LeadRoutingRule)} :
    Accepted env.toIntakeEnv rows office.db intake.user intake.payload ↔
      Storable env.toIntakeEnv office.db intake ∧
        RouteHarmless env.toIntakeEnv rows office.db (customerOf office.db intake.user) := by
  rw [LeadRouting.accepted_iff office.notAborted]
  constructor
  · rintro ⟨-, hprofile, hcolumns, hreference, hharmless⟩
    exact ⟨⟨hprofile.2, hcolumns, hreference⟩, hharmless⟩
  · rintro ⟨hstorable, hharmless⟩
    exact ⟨intake.categoryValid, ⟨office.profileOf_ne_none intake.user, hstorable.name⟩,
      hstorable.columns, hstorable.reference, hharmless⟩

/-- Routing never blocks or derails an intake exactly when its columns take it, every text
    that the rules read as a number is one, and it lands at a user. -/
theorem intake_unblocked_iff (env : IntakeSchema) (office : IntakeOffice env)
    (intake : ValidIntake office.db) :
    Unblocked env.toIntakeEnv office.db intake ↔
      Storable env.toIntakeEnv office.db intake ∧
        (∀ k rule, office.db.routing.HasRule k rule →
          Readable env.toRoutingEnv (customerOf office.db intake.user) rule) ∧
        LandsSafely env.toRoutingEnv office.db (customerOf office.db intake.user) := by
  have hinOrder : LoadsActiveRules office.db.routing
      (office.db.routing.rules.select fun _ rule => rule.isLiveEnabled) := List.Perm.refl _
  constructor
  · rintro ⟨haccepted, hreads⟩
    obtain ⟨hstorable, hharmless⟩ := (office.accepted_iff intake).mp (haccepted _ hinOrder)
    refine ⟨hstorable, fun k rule hrule => not_fails_iff.mp (hreads k rule hrule), ?_⟩
    exact (routeHarmless_iff office.uniquePriorities hinOrder office.assigneeExists hreads).mp
      hharmless
  · rintro ⟨hstorable, hreadable, hlands⟩
    have hreads : ∀ k rule, office.db.routing.HasRule k rule →
        ¬Fails env.toRoutingEnv (customerOf office.db intake.user) rule :=
      fun k rule hrule => not_fails_iff.mpr (hreadable k rule hrule)
    refine ⟨fun rows hrows => (office.accepted_iff intake).mpr ⟨hstorable, ?_⟩, hreads⟩
    exact (routeHarmless_iff office.uniquePriorities hrows office.assigneeExists hreads).mpr hlands

/-! ## A rep who is no user -/

/-- The schema over `asciiEnv`; nothing is cleaned. -/
def asciiIntake : IntakeSchema where
  toRoutingSchema := asciiSchema
  clean := id
  referenceNumber := fun _ => "THE-00000000"
  now := 0

def jo : Submitter where
  id := 7
  email := "jo@example.com"
  firstName := "Jo"
  lastName := "Doe"
  role := .customer
  active := true
  email_ne := by decide

/-- An office with these users and one rule, the rotation of the users 1 and 2. -/
def rotationDb (users : ℕ → Option Recipient) : IntakeDb where
  routing := ⟨Store.empty.create (rotation 0), emptyRoster, none⟩
  tables := ⟨Store.empty, users, fun _ => none, fun _ => [], fun _ => [], fun _ => none⟩
  details := fun _ => none
  profiles := Store.empty
  activeCategory := fun _ => false
  auditLogs := []
  jobs := Store.empty
  aborted := false

theorem rotationDb_hasRule {users : ℕ → Option Recipient} {k : ℕ} {rule : LeadRoutingRule}
    (h : (rotationDb users).routing.HasRule k rule) : rule = rotation 0 :=
  (Store.get?_create_empty.mp h.1).2

def rotationOffice (users : ℕ → Option Recipient) : IntakeOffice asciiIntake where
  db := rotationDb users
  notAborted := rfl
  uniquePriorities := Store.pairwise_create_empty _
  uniqueProfiles := Store.pairwise_empty
  assigneeExists := by
    intro k rule hrule u hu
    rw [rotationDb_hasRule hrule] at hu
    cases hu
  conditionsParsed := by
    intro k rule hrule
    rw [rotationDb_hasRule hrule]
    decide +kernel
  defaultRepValid := rfl

/-- An empty form. -/
def emptyIntake (db : IntakeDb) : ValidIntake db where
  user := jo
  payload := {}
  categoryValid := nofun

/-- The ids of a rotation are checked for their shape only. That no user has the first
    fails the whole intake. -/
theorem stale_rep_blocks_intake :
    let office := rotationOffice fun u => if u = 7 then some jo.toRecipient else none
    (Svc.exec (submitIntake asciiIntake.toIntakeEnv [(0, rotation 0)] jo {}) office.db).1 =
      .error (.integrityError assigneeKey) ∧
    ¬Unblocked asciiIntake.toIntakeEnv office.db (emptyIntake office.db) := by
  have hfails : (Svc.exec (submitIntake asciiIntake.toIntakeEnv [(0, rotation 0)] jo {})
      (rotationOffice fun u => if u = 7 then some jo.toRecipient else none).db).1 =
        .error (.integrityError assigneeKey) := by decide +kernel
  refine ⟨hfails, fun h => ?_⟩
  obtain ⟨id, db', hreturns, -⟩ := h.accepted [(0, rotation 0)] (List.Perm.refl _)
  have hok := (congrArg Prod.fst hreturns).symm.trans hfails
  cases hok

end TempleConsign.LeadRouting
