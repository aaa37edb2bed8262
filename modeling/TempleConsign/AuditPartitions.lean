import TempleConsign.Lib.CivilTime
import TempleConsign.Lib.Partitioned
import TempleConsign.Lib.Run

/-!
# The partitions of the audit log

Model of `fn_ensure_audit_partitions`
(`src/api/alembic/versions/004_retention_sweeper_function.py` line 79) on the table that
migration 003 leaves: monthly partitions of `created_at` and a default partition, of which
the migration says that the function "will migrate rows out of it". PostgreSQL refuses a
partition whose range contains rows of the default one.

Months are counted, as in `CivilTime`; the session's time zone is UTC. The name that the
function looks up is made of the year and the month, so a relation with that name is the
partition of the month.

Results:
* `ensured_iff`: a call succeeds exactly when the default partition holds no row of the
  current and the next two months.
* `partitionsEnsured_iff`: it does in every state of a run exactly when every row that is
  inserted finds the partition of its month, or its month is over.
* `finds_of_ensured`: so it is, after a call, until the next two months are over.
-/

namespace TempleConsign.AuditPartitions

open ServiceLib CivilTime

variable {ρ : Type}

/-! ## The table -/

/-- A row of `audit_logs`; `data` are the other columns. -/
structure AuditRow (ρ : Type) where
  createdAt : ℤ
  data : ρ

/-- `date_trunc('month', …)`. -/
def monthAt (t : ℤ) : ℤ := monthOf (dayOf t)

def AuditRow.month (r : AuditRow ρ) : ℤ := monthAt r.createdAt

abbrev AuditLogs (ρ : Type) := Partitioned (AuditRow.month (ρ := ρ))

/-- The months of the loop. -/
def targetMonths (now : ℤ) : List ℤ := (List.range 3).map fun i : ℕ => monthAt now + i

/-- `fn_ensure_audit_partitions`, and the number it returns. -/
def fnEnsureAuditPartitions (t : AuditLogs ρ) (now : ℤ) : Option (AuditLogs ρ × ℕ) :=
  t.ensureAll (targetMonths now)

/-- The months that migration 003 seeds (line 97). -/
def seededMonths (now : ℤ) : List ℤ := (List.range 10).map fun i : ℕ => monthAt now - 3 + i

theorem seededMonths_nodup (now : ℤ) : (seededMonths now).Nodup := by
  refine List.Nodup.map_on ?_ List.nodup_range
  intro i _ j _ h
  omega

/-- The table after migration 003, with the rows of the table before it. -/
def migrated (now : ℤ) (legacy : List (AuditRow ρ)) : AuditLogs ρ :=
  legacy.foldl Partitioned.insert
    (Partitioned.ofParts _ (seededMonths now) (seededMonths_nodup now))

/-! ## Runs -/

/-- The clock and the table. -/
structure AuditWorld (ρ : Type) where
  now : ℤ
  logs : AuditLogs ρ

/-- `created_at` is the start of the transaction that inserts the row, `age` ago. -/
inductive AuditOp (ρ : Type)
  | tick (elapsed : ℕ)
  | insert (age : ℕ) (data : ρ)
  | sweep

/-- A sweep whose call fails is rolled back. -/
def auditStep (x : AuditWorld ρ) : AuditOp ρ → AuditWorld ρ
  | .tick elapsed => { x with now := x.now + elapsed }
  | .insert age data => { x with logs := x.logs.insert ⟨x.now - age, data⟩ }
  | .sweep => { x with
      logs := ((fnEnsureAuditPartitions x.logs x.now).map Prod.fst).getD x.logs }

/-- The world after the migration, with rows of the given ages. -/
def start (now : ℤ) (legacy : List (ℕ × ρ)) : AuditWorld ρ where
  now := now
  logs := migrated now (legacy.map fun r => ⟨now - r.1, r.2⟩)

/-! ## The property -/

/-- A call succeeds, the partitions of the current and the next two months are there, no
    row is lost, and a call later in the month creates nothing. -/
def Ensured (t : AuditLogs ρ) (now : ℤ) : Prop :=
  ∃ t' n, fnEnsureAuditPartitions t now = some (t', n) ∧
    (∀ month, monthAt now ≤ month → month ≤ monthAt now + 2 → month ∈ t'.parts) ∧
    t'.rows = t.rows ∧
    ∀ later, monthAt later = monthAt now → fnEnsureAuditPartitions t' later = some (t', 0)

/-- The row that is inserted finds the partition of its month, or its month is over. -/
def FindsPartition (x : AuditWorld ρ) : AuditOp ρ → Prop
  | .insert age _ => monthAt (x.now - age) ∈ x.logs.parts ∨ monthAt (x.now - age) < monthAt x.now
  | _ => True

/-! ## One call -/

variable {t t' : AuditLogs ρ} {now : ℤ}

/-- Consecutive months. -/
theorem mem_months {first month : ℤ} {count : ℕ} :
    month ∈ (List.range count).map (fun i : ℕ => first + i) ↔
      first ≤ month ∧ month < first + count := by
  rw [List.mem_map]
  constructor
  · rintro ⟨i, hi, rfl⟩
    rw [List.mem_range] at hi
    omega
  · rintro ⟨hlow, hhigh⟩
    refine ⟨(month - first).toNat, ?_, ?_⟩
    · rw [List.mem_range]
      omega
    · omega

theorem mem_targetMonths {month : ℤ} :
    month ∈ targetMonths now ↔ monthAt now ≤ month ∧ month ≤ monthAt now + 2 := by
  rw [targetMonths, mem_months]
  omega

theorem mem_seededMonths {month : ℤ} :
    month ∈ seededMonths now ↔ monthAt now - 3 ≤ month ∧ month ≤ monthAt now + 6 := by
  rw [seededMonths, mem_months]
  omega

/-- A call succeeds exactly when the default partition holds no row of the current and the
    next two months. -/
theorem ensured_iff : Ensured t now ↔
    ∀ r ∈ t.others, r.month < monthAt now ∨ monthAt now + 2 < r.month := by
  have hsome : (fnEnsureAuditPartitions t now).isSome = true ↔
      ∀ r ∈ t.others, r.month < monthAt now ∨ monthAt now + 2 < r.month := by
    rw [fnEnsureAuditPartitions, Partitioned.ensureAll_isSome_iff]
    refine forall₂_congr fun r _ => ?_
    rw [mem_targetMonths]
    omega
  rw [← hsome]
  constructor
  · rintro ⟨t', n, hcall, -⟩
    rw [hcall]
    rfl
  · intro h
    obtain ⟨⟨t', n⟩, hcall⟩ := Option.isSome_iff_exists.mp h
    obtain ⟨hparts, hplaced, hothers⟩ := Partitioned.ensureAll_spec hcall
    refine ⟨t', n, hcall, ?_, ?_, ?_⟩
    · intro month hlow hhigh
      exact (hparts month).mpr (.inr (mem_targetMonths.mpr ⟨hlow, hhigh⟩))
    · rw [Partitioned.rows, Partitioned.rows, hplaced, hothers]
    · intro later hmonth
      refine Partitioned.ensureAll_of_mem fun month hmem => (hparts month).mpr (.inr ?_)
      rw [mem_targetMonths] at hmem ⊢
      rwa [hmonth] at hmem

/-! ## Runs -/

theorem monthAt_mono {a b : ℤ} (h : a ≤ b) : monthAt a ≤ monthAt b := monthOf_mono (dayOf_mono h)

/-- The months of the rows in the default partition are over. -/
def OthersOver (x : AuditWorld ρ) : Prop := ∀ r ∈ x.logs.others, r.month < monthAt x.now

theorem OthersOver.ensured {x : AuditWorld ρ} (h : OthersOver x) : Ensured x.logs x.now :=
  ensured_iff.mpr fun r hr => .inl (h r hr)

/-- A sweep leaves the rows of the default partition where they are. -/
theorem sweep_others (x : AuditWorld ρ) :
    (auditStep x .sweep).logs.others = x.logs.others := by
  unfold auditStep
  cases hcall : fnEnsureAuditPartitions x.logs x.now with
  | none => rfl
  | some result => exact (Partitioned.ensureAll_spec hcall).2.2

theorem othersOver_step (x : AuditWorld ρ) (o : AuditOp ρ) (h : OthersOver x)
    (hfinds : FindsPartition x o) : OthersOver (auditStep x o) := by
  cases o with
  | tick elapsed =>
    intro r hr
    have hmonth : monthAt x.now ≤ monthAt (x.now + elapsed) := monthAt_mono (by omega)
    exact lt_of_lt_of_le (h r hr) hmonth
  | insert age data =>
    intro r hr
    rcases Partitioned.mem_others_insert.mp hr with hr | ⟨rfl, hnone⟩
    · exact h r hr
    · exact hfinds.resolve_left hnone
  | sweep =>
    intro r hr
    rw [sweep_others] at hr
    exact h r hr

/-- A row that finds no partition in its own month makes the next call fail. -/
theorem finds_of_ensured_step (x : AuditWorld ρ) (o : AuditOp ρ)
    (hnext : Ensured (auditStep x o).logs (auditStep x o).now) : FindsPartition x o := by
  cases o with
  | tick elapsed => trivial
  | sweep => trivial
  | insert age data =>
    by_contra hmiss
    obtain ⟨hnone, hover⟩ := not_or.mp hmiss
    have hrow : ⟨x.now - age, data⟩ ∈ (auditStep x (.insert age data)).logs.others :=
      Partitioned.mem_others_insert.mpr (.inr ⟨rfl, hnone⟩)
    have hmonth : monthAt (x.now - age) ≤ monthAt x.now := monthAt_mono (by omega)
    rcases ensured_iff.mp hnext _ hrow with hlt | hlt
    · exact hover hlt
    · have hlater : monthAt x.now + 2 < monthAt (x.now - age) := hlt
      omega

/-- Rows that came before the migration are over when they have no partition. -/
theorem othersOver_start (now : ℤ) (legacy : List (ℕ × ρ)) : OthersOver (start now legacy) := by
  have hfold : ∀ (rows : List (AuditRow ρ)) (t : AuditLogs ρ), t.parts = seededMonths now →
      (∀ r ∈ t.others, r.month < monthAt now) → (∀ r ∈ rows, r.month ≤ monthAt now) →
      ∀ r ∈ (rows.foldl Partitioned.insert t).others, r.month < monthAt now := by
    intro rows
    induction rows with
    | nil => exact fun t _ hothers _ => hothers
    | cons a rows ih =>
      intro t hparts hothers hrows
      refine ih (t.insert a) ((Partitioned.insert_parts t a).trans hparts) ?_
        fun r hr => hrows r (List.mem_cons_of_mem a hr)
      intro r hr
      rcases Partitioned.mem_others_insert.mp hr with hr | ⟨rfl, hnone⟩
      · exact hothers r hr
      · rw [hparts, mem_seededMonths] at hnone
        have hle := hrows r List.mem_cons_self
        omega
  refine hfold _ _ rfl (fun r hr => absurd hr List.not_mem_nil) ?_
  intro r hr
  obtain ⟨⟨age, data⟩, -, rfl⟩ := List.mem_map.mp hr
  exact monthAt_mono (by show now - (age : ℤ) ≤ now; omega)

/-! ## While the sweeper runs -/

theorem now_le_step (x : AuditWorld ρ) (o : AuditOp ρ) : x.now ≤ (auditStep x o).now := by
  cases o with
  | tick elapsed =>
    have hpos : (0 : ℤ) ≤ elapsed := Int.natCast_nonneg elapsed
    show x.now ≤ x.now + elapsed
    omega
  | insert age data => exact le_refl _
  | sweep => exact le_refl _

theorem now_le_run (x : AuditWorld ρ) (ops : List (AuditOp ρ)) :
    x.now ≤ (run auditStep x ops).now := by
  induction ops generalizing x with
  | nil => exact le_refl _
  | cons o ops ih => exact (now_le_step x o).trans (ih (auditStep x o))

/-- No step takes a partition away. -/
theorem parts_step (x : AuditWorld ρ) (o : AuditOp ρ) {month : ℤ} (h : month ∈ x.logs.parts) :
    month ∈ (auditStep x o).logs.parts := by
  cases o with
  | tick elapsed => exact h
  | insert age data =>
    have hsame : (auditStep x (.insert age data)).logs.parts = x.logs.parts :=
      Partitioned.insert_parts _ _
    rwa [hsame]
  | sweep =>
    unfold auditStep
    cases hcall : fnEnsureAuditPartitions x.logs x.now with
    | none => exact h
    | some result => exact ((Partitioned.ensureAll_spec hcall).1 month).mpr (.inl h)

/-- A row of a month that is not over is of the current month. -/
theorem finds_of_mem (x : AuditWorld ρ) (o : AuditOp ρ) (h : monthAt x.now ∈ x.logs.parts) :
    FindsPartition x o := by
  cases o with
  | tick elapsed => trivial
  | sweep => trivial
  | insert age data =>
    have hle : monthAt (x.now - age) ≤ monthAt x.now := monthAt_mono (by omega)
    rcases hle.lt_or_eq with hlt | heq
    · exact .inr hlt
    · exact .inl (heq ▸ h)

/-- Up to the last month that has its partition. -/
theorem finds_of_covered {x : AuditWorld ρ} {last : ℤ} {ops : List (AuditOp ρ)}
    (hparts : ∀ month, monthAt x.now ≤ month → month ≤ last → month ∈ x.logs.parts)
    (hlast : monthAt (run auditStep x ops).now ≤ last) :
    AllSteps auditStep FindsPartition x ops := by
  induction ops generalizing x with
  | nil => trivial
  | cons o ops ih =>
    have hnow : monthAt x.now ≤ last := (monthAt_mono (now_le_run x (o :: ops))).trans hlast
    have hstep : monthAt x.now ≤ monthAt (auditStep x o).now := monthAt_mono (now_le_step x o)
    refine ⟨finds_of_mem x o (hparts _ (le_refl _) hnow), ih (fun month hlow hhigh => ?_) hlast⟩
    exact parts_step x o (hparts month (hstep.trans hlow) hhigh)

/-- After a call every row finds its partition until the next two months are over. -/
theorem finds_of_ensured {x : AuditWorld ρ} (h : Ensured x.logs x.now) {ops : List (AuditOp ρ)}
    (hlast : monthAt (run auditStep (auditStep x .sweep) ops).now ≤ monthAt x.now + 2) :
    AllSteps auditStep FindsPartition (auditStep x .sweep) ops := by
  obtain ⟨t', n, hcall, hparts, -, -⟩ := h
  have hlogs : (auditStep x .sweep).logs = t' := by
    unfold auditStep
    rw [hcall]
    rfl
  refine finds_of_covered (fun month hlow hhigh => ?_) hlast
  rw [hlogs]
  exact hparts month hlow hhigh

/-! ## Every run -/

/-- A call does what it is for exactly when the default partition holds no row of the
    current and the next two months; after the migration it does in every state of a run
    exactly when every row that is inserted finds the partition of its month, or its month
    is over. -/
theorem partitionsEnsured_iff :
    (∀ (t : AuditLogs ρ) (now : ℤ), Ensured t now ↔
      ∀ r ∈ t.others, r.month < monthAt now ∨ monthAt now + 2 < r.month) ∧
    ∀ (now : ℤ) (legacy : List (ℕ × ρ)) (ops : List (AuditOp ρ)),
      AllStates auditStep (fun x => Ensured x.logs x.now) (start now legacy) ops ↔
        AllSteps auditStep FindsPartition (start now legacy) ops := by
  refine ⟨fun t now => ensured_iff, fun now legacy ops => ?_⟩
  exact allStates_iff_of_inv othersOver_step (fun _ => OthersOver.ensured)
    (fun x o _ => finds_of_ensured_step x o) (othersOver_start now legacy) ops

/-- Migrated in January 1970, not swept for 250 days, and then one request. -/
def unsweptOps : List (AuditOp Unit) := [.tick 21600000000000, .insert 0 ()]

theorem sweep_refused : ¬ ∀ (now : ℤ) (legacy : List (ℕ × Unit)) (ops : List (AuditOp Unit)),
    AllStates auditStep (fun x => Ensured x.logs x.now) (start now legacy) ops := by
  intro h
  obtain ⟨t', n, hcall, -⟩ := (h 0 [] unsweptOps).last
  have hnone : (fnEnsureAuditPartitions (run auditStep (start 0 []) unsweptOps).logs
      (run auditStep (start 0 []) unsweptOps).now).isNone = true := by decide +kernel
  rw [hcall] at hnone
  cases hnone

end TempleConsign.AuditPartitions
