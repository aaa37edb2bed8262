import Mathlib.Data.Prod.Lex
import TempleConsign.Lib.Rank

/-!
# The backfill of the routing priorities

Model of `upgrade` of migration 017
(`src/api/alembic/versions/017_phase4_routing_priority_unique.py` line 48): one `UPDATE`
that raises each live rule by its position among the live rules with its type and
priority, and then a unique index on the type and the priority of the live rules. A
statement that fails undoes the migration.

`rest` are the columns of `lead_routing_rules` that the migration does not read.

Results:
* `renumber_priority`: what the `UPDATE` makes of a live rule.
* `renumber_deleted`: it leaves the soft-deleted ones.
* `migrationSafe_iff`: the migration does what it is for exactly when every group of
  rules has room up to the next priority of its type, and below the largest integer.
-/

namespace TempleConsign.PriorityBackfill

open ServiceLib

variable {δ : Type}

/-! ## The table -/

structure RuleRow (δ : Type) where
  id : ℕ
  ruleType : String
  priority : ℤ
  createdAt : ℤ
  deletedAt : Option ℤ
  rest : δ

namespace RuleRow

def live (r : RuleRow δ) : Bool := r.deletedAt.isNone

/-- The columns of the index. -/
def slot (r : RuleRow δ) : String × ℤ := (r.ruleType, r.priority)

/-- `ORDER BY created_at, id`. -/
def age (r : RuleRow δ) : ℤ ×ₗ ℕ := toLex (r.createdAt, r.id)

/-- `(priority, created_at, id)`. -/
def place (r : RuleRow δ) : ℤ ×ₗ (ℤ ×ₗ ℕ) := toLex (r.priority, r.age)

end RuleRow

/-- `lead_routing_rules`. -/
structure RulesTable (δ : Type) where
  rows : List (RuleRow δ)
  ids : (rows.map RuleRow.id).Nodup

/-! ## The migration -/

namespace RulesTable

/-- `PARTITION BY rule_type, priority`, of the live rules. -/
def group (t : RulesTable δ) (slot : String × ℤ) : List (RuleRow δ) :=
  t.rows.filter fun q => q.live && q.slot = slot

/-- `dup_offset`. -/
def dupOffset (t : RulesTable δ) (r : RuleRow δ) : ℕ := rank RuleRow.age (t.group r.slot) r

/-- The `UPDATE` of one row. -/
def renumber (t : RulesTable δ) (r : RuleRow δ) : RuleRow δ :=
  if r.live = true ∧ 0 < t.dupOffset r then { r with priority := r.priority + t.dupOffset r } else r

theorem renumber_id (t : RulesTable δ) (r : RuleRow δ) : (t.renumber r).id = r.id := by
  unfold renumber
  split_ifs
  · rfl
  · rfl

/-- The largest `INTEGER`. -/
def maxInteger : ℤ := 2147483647

/-- The `UPDATE` (lines 55–72); it fails on a priority that is out of range. -/
def backfill (t : RulesTable δ) : Option (RulesTable δ) :=
  if ∀ r ∈ t.rows, r.live = true → 0 < t.dupOffset r → r.priority + t.dupOffset r ≤ maxInteger then
    some {
      rows := t.rows.map t.renumber
      ids := by
        rw [List.map_map]
        have hids : RuleRow.id ∘ t.renumber = RuleRow.id := funext t.renumber_id
        rw [hids]
        exact t.ids }
  else none

/-- `CREATE UNIQUE INDEX … WHERE deleted_at IS NULL` (line 79). -/
def createIndex (t : RulesTable δ) : Option (RulesTable δ) :=
  if ((t.rows.filter RuleRow.live).map RuleRow.slot).Nodup then some t else none

def upgrade (t : RulesTable δ) : Option (RulesTable δ) := t.backfill.bind createIndex

end RulesTable

/-! ## The property -/

/-- No two live rules share type and priority, the soft-deleted rules are as they were,
    and the live rules of each type are in their order. -/
structure Migrated (t t' : RulesTable δ) : Prop where
  unique : ∀ q ∈ t'.rows, ∀ r ∈ t'.rows, q.live = true → r.live = true → q.slot = r.slot → q = r
  deleted : ∀ r : RuleRow δ, r.live = false → (r ∈ t'.rows ↔ r ∈ t.rows)
  ordered : ∀ q ∈ t.rows, ∀ r ∈ t.rows, ∀ q' ∈ t'.rows, ∀ r' ∈ t'.rows, q'.id = q.id →
    r'.id = r.id → q.live = true → r.live = true → q.ruleType = r.ruleType →
      (q.place < r.place ↔ q'.place < r'.place)

/-- The migration succeeds and does so. -/
def MigrationSafe (t : RulesTable δ) : Prop := ∃ t', t.upgrade = some t' ∧ Migrated t t'

/-- The live rules with one type and priority `p` have room: when there are `n` of them, no
    live rule of the type has a priority above `p` and below `p + n`, and, when there are
    several, `p + n - 1` is an `INTEGER`. -/
def GroupsFit (t : RulesTable δ) : Prop :=
  ∀ r ∈ t.rows, r.live = true →
    (1 < (t.group r.slot).length →
      r.priority + (t.group r.slot).length - 1 ≤ RulesTable.maxInteger) ∧
    ∀ q ∈ t.rows, q.live = true → q.ruleType = r.ruleType → r.priority < q.priority →
      r.priority + (t.group r.slot).length ≤ q.priority

/-! ## What the update makes of a row -/

variable {t t' : RulesTable δ} {q r : RuleRow δ}

theorem mem_group {slot : String × ℤ} :
    q ∈ t.group slot ↔ q ∈ t.rows ∧ q.live = true ∧ q.slot = slot := by
  simp [RulesTable.group]

theorem slot_eq_iff : q.slot = r.slot ↔ q.ruleType = r.ruleType ∧ q.priority = r.priority :=
  Prod.ext_iff

/-- Rows are known by their keys. -/
theorem eq_of_id (hq : q ∈ t.rows) (hr : r ∈ t.rows) (h : q.id = r.id) : q = r :=
  List.inj_on_of_nodup_map t.ids hq hr h

theorem id_of_age (h : q.age = r.age) : q.id = r.id :=
  congrArg (fun k : ℤ ×ₗ ℕ => (ofLex k).2) h

theorem ages_nodup (t : RulesTable δ) (slot : String × ℤ) :
    ((t.group slot).map RuleRow.age).Nodup := by
  have hrows : (t.group slot).Nodup := (List.Nodup.of_map _ t.ids).filter _
  refine List.Nodup.map_on ?_ hrows
  intro a ha b hb h
  exact eq_of_id (mem_group.mp ha).1 (mem_group.mp hb).1 (id_of_age h)

/-- A live rule goes up by its offset. -/
theorem renumber_priority (h : r.live = true) :
    (t.renumber r).priority = r.priority + t.dupOffset r := by
  unfold RulesTable.renumber
  split_ifs with hmove
  · rfl
  · have hzero : t.dupOffset r = 0 := by
      by_contra hne
      exact hmove ⟨h, Nat.pos_of_ne_zero hne⟩
    rw [hzero]
    simp

/-- A soft-deleted rule stays. -/
theorem renumber_deleted (h : r.live = false) : t.renumber r = r := by
  unfold RulesTable.renumber
  rw [if_neg]
  rintro ⟨hlive, -⟩
  rw [h] at hlive
  cases hlive

theorem renumber_live (r : RuleRow δ) : (t.renumber r).live = r.live := by
  unfold RulesTable.renumber
  split_ifs
  · rfl
  · rfl

theorem renumber_ruleType (r : RuleRow δ) : (t.renumber r).ruleType = r.ruleType := by
  unfold RulesTable.renumber
  split_ifs
  · rfl
  · rfl

theorem renumber_age (r : RuleRow δ) : (t.renumber r).age = r.age := by
  unfold RulesTable.renumber
  split_ifs
  · rfl
  · rfl

theorem dupOffset_lt (hr : r ∈ t.rows) (h : r.live = true) :
    t.dupOffset r < (t.group r.slot).length :=
  rank_lt_length (mem_group.mpr ⟨hr, h, rfl⟩)

/-- Two rules of one group. -/
theorem dupOffset_lt_iff (hq : q ∈ t.rows) (h : q.live = true) (hslot : q.slot = r.slot) :
    t.dupOffset q < t.dupOffset r ↔ q.age < r.age := by
  unfold RulesTable.dupOffset
  rw [hslot]
  exact rank_lt_rank_iff (mem_group.mpr ⟨hq, h, hslot⟩)

/-! ## Groups with room -/

/-- Groups with room stay in their order. -/
theorem renumber_lt (hfit : GroupsFit t) (hq : q ∈ t.rows) (hr : r ∈ t.rows)
    (hlq : q.live = true) (hlr : r.live = true) (htype : q.ruleType = r.ruleType)
    (h : q.priority < r.priority) : (t.renumber q).priority < (t.renumber r).priority := by
  have hroom := (hfit q hq hlq).2 r hr hlr htype.symm h
  have hoffset := dupOffset_lt hq hlq
  rw [renumber_priority hlq, renumber_priority hlr]
  omega

/-- The rules of a type stay in their order. -/
theorem place_renumber_iff (hfit : GroupsFit t) (hq : q ∈ t.rows) (hr : r ∈ t.rows)
    (hlq : q.live = true) (hlr : r.live = true) (htype : q.ruleType = r.ruleType) :
    q.place < r.place ↔ (t.renumber q).place < (t.renumber r).place := by
  have hplace : ∀ a b : RuleRow δ, a.place < b.place ↔
      a.priority < b.priority ∨ a.priority = b.priority ∧ a.age < b.age :=
    fun a b => Prod.Lex.toLex_lt_toLex
  rw [hplace, hplace, renumber_age, renumber_age]
  rcases lt_trichotomy q.priority r.priority with hlt | heq | hgt
  · have hnew := renumber_lt hfit hq hr hlq hlr htype hlt
    exact iff_of_true (.inl hlt) (.inl hnew)
  · have hslot := slot_eq_iff.mpr ⟨htype, heq⟩
    have hoffset := dupOffset_lt_iff hq hlq hslot
    have hback := dupOffset_lt_iff hr hlr hslot.symm
    rw [renumber_priority hlq, renumber_priority hlr, heq, ← hoffset]
    constructor
    · rintro (hlt | ⟨-, hlt⟩)
      · exact absurd hlt (lt_irrefl _)
      · exact .inl (by omega)
    · rintro (hlt | ⟨hsame, hlt⟩)
      · exact .inr ⟨rfl, by omega⟩
      · exact .inr ⟨rfl, hlt⟩
  · have hnew := renumber_lt hfit hr hq hlr hlq htype.symm hgt
    apply iff_of_false
    · rintro (hlt | ⟨heq, -⟩)
      · omega
      · omega
    · rintro (hlt | ⟨heq, -⟩)
      · omega
      · omega

/-- No two live rules are renumbered to one priority. -/
theorem renumber_injective (hfit : GroupsFit t) (hq : q ∈ t.rows) (hr : r ∈ t.rows)
    (hlq : q.live = true) (hlr : r.live = true)
    (h : (t.renumber q).slot = (t.renumber r).slot) : q = r := by
  obtain ⟨htype, hpriority⟩ := slot_eq_iff.mp h
  rw [renumber_ruleType, renumber_ruleType] at htype
  rcases lt_trichotomy q.priority r.priority with hlt | heq | hgt
  · have hnew := renumber_lt hfit hq hr hlq hlr htype hlt
    omega
  · have hslot := slot_eq_iff.mpr ⟨htype, heq⟩
    rw [renumber_priority hlq, renumber_priority hlr] at hpriority
    have hoffset : t.dupOffset q = t.dupOffset r := by omega
    unfold RulesTable.dupOffset at hoffset
    rw [hslot] at hoffset
    exact eq_of_id hq hr (id_of_age (key_of_rank (mem_group.mpr ⟨hq, hlq, hslot⟩)
      (mem_group.mpr ⟨hr, hlr, rfl⟩) hoffset))
  · have hnew := renumber_lt hfit hr hq hlr hlq htype.symm hgt
    omega

/-- A rule of each position of a group. -/
theorem exists_dupOffset {slot : String × ℤ} {k : ℕ} (h : k < (t.group slot).length) :
    ∃ a ∈ t.rows, a.live = true ∧ a.slot = slot ∧ t.dupOffset a = k := by
  obtain ⟨a, ha, hrank⟩ := exists_rank (ages_nodup t slot) h
  obtain ⟨hmem, hlive, hslot⟩ := mem_group.mp ha
  refine ⟨a, hmem, hlive, hslot, ?_⟩
  rw [RulesTable.dupOffset, hslot, hrank]

/-! ## When the migration is safe -/

/-- No `UPDATE` leaves the range of `INTEGER`. -/
def InRange (t : RulesTable δ) : Prop :=
  ∀ r ∈ t.rows, r.live = true → 0 < t.dupOffset r →
    r.priority + t.dupOffset r ≤ RulesTable.maxInteger

theorem backfill_eq_some (h : t.backfill = some t') :
    InRange t ∧ t'.rows = t.rows.map t.renumber := by
  unfold RulesTable.backfill at h
  split_ifs at h with hrange
  cases h
  exact ⟨hrange, rfl⟩

theorem backfill_of_inRange (h : InRange t) :
    ∃ t', t.backfill = some t' ∧ t'.rows = t.rows.map t.renumber := by
  unfold RulesTable.backfill
  split_ifs with hrange
  · exact ⟨_, rfl, rfl⟩
  · exact absurd h hrange

/-- Groups with room are renumbered within the range. -/
theorem inRange_of_fit (hfit : GroupsFit t) : InRange t := by
  intro r hr hlive hmove
  have hoffset := dupOffset_lt hr hlive
  have hroom := (hfit r hr hlive).1 (by omega)
  omega

/-- The rows after the migration are the renumbered ones. -/
theorem migrated_of_fit (hfit : GroupsFit t) (hrows : t'.rows = t.rows.map t.renumber) :
    Migrated t t' where
  unique := by
    intro q' hq' r' hr' hlq hlr hslot
    rw [hrows] at hq' hr'
    obtain ⟨q, hq, rfl⟩ := List.mem_map.mp hq'
    obtain ⟨r, hr, rfl⟩ := List.mem_map.mp hr'
    rw [renumber_live] at hlq hlr
    rw [renumber_injective hfit hq hr hlq hlr hslot]
  deleted := by
    intro r hdeleted
    rw [hrows, List.mem_map]
    constructor
    · rintro ⟨a, ha, rfl⟩
      rw [renumber_live] at hdeleted
      rw [renumber_deleted hdeleted]
      exact ha
    · intro hr
      exact ⟨r, hr, renumber_deleted hdeleted⟩
  ordered := by
    intro q hq r hr q' hq' r' hr' hqid hrid hlq hlr htype
    rw [hrows] at hq' hr'
    obtain ⟨a, ha, rfl⟩ := List.mem_map.mp hq'
    obtain ⟨b, hb, rfl⟩ := List.mem_map.mp hr'
    rw [t.renumber_id] at hqid hrid
    rw [eq_of_id ha hq hqid, eq_of_id hb hr hrid]
    exact place_renumber_iff hfit hq hr hlq hlr htype

/-- Uniqueness is what the index checks. -/
theorem createIndex_of_unique
    (h : ∀ q ∈ t.rows, ∀ r ∈ t.rows, q.live = true → r.live = true → q.slot = r.slot → q = r) :
    t.createIndex = some t := by
  unfold RulesTable.createIndex
  rw [if_pos]
  refine List.Nodup.map_on ?_ ((List.Nodup.of_map _ t.ids).filter _)
  intro q hq r hr hslot
  obtain ⟨hq, hlq⟩ := List.mem_filter.mp hq
  obtain ⟨hr, hlr⟩ := List.mem_filter.mp hr
  exact h q hq r hr hlq hlr hslot

/-- A group without room below the next priority has a rule renumbered onto it. -/
theorem room_of_unique (hrows : t'.rows = t.rows.map t.renumber)
    (hunique : ∀ q ∈ t'.rows, ∀ r ∈ t'.rows, q.live = true → r.live = true → q.slot = r.slot →
      q = r)
    (hq : q ∈ t.rows) (hlq : q.live = true) (htype : q.ruleType = r.ruleType)
    (hlt : r.priority < q.priority) :
    r.priority + (t.group r.slot).length ≤ q.priority := by
  by_contra hfull
  have hk : (q.priority - r.priority).toNat < (t.group r.slot).length := by omega
  obtain ⟨a, ha, hla, hslotA, hrankA⟩ := exists_dupOffset hk
  have hpos : 0 < (t.group q.slot).length :=
    List.length_pos_of_mem (mem_group.mpr ⟨hq, hlq, rfl⟩)
  obtain ⟨b, hb, hlb, hslotB, hrankB⟩ := exists_dupOffset hpos
  obtain ⟨htypeA, hpriorityA⟩ := slot_eq_iff.mp hslotA
  obtain ⟨htypeB, hpriorityB⟩ := slot_eq_iff.mp hslotB
  have hsame : (t.renumber a).slot = (t.renumber b).slot := by
    refine slot_eq_iff.mpr ⟨?_, ?_⟩
    · rw [renumber_ruleType, renumber_ruleType, htypeA, htypeB, htype]
    · rw [renumber_priority hla, renumber_priority hlb, hrankA, hrankB, hpriorityA, hpriorityB]
      omega
  have hmem : ∀ c ∈ t.rows, t.renumber c ∈ t'.rows := by
    intro c hc
    rw [hrows]
    exact List.mem_map_of_mem hc
  have heq := hunique _ (hmem a ha) _ (hmem b hb) (by rw [renumber_live, hla])
    (by rw [renumber_live, hlb]) hsame
  have hid := congrArg RuleRow.id heq
  rw [t.renumber_id, t.renumber_id] at hid
  have hab := congrArg RuleRow.priority (eq_of_id ha hb hid)
  omega

/-- A group whose last rule would leave the range fails the update. -/
theorem range_of_inRange (h : InRange t) (hmany : 1 < (t.group r.slot).length) :
    r.priority + (t.group r.slot).length - 1 ≤ RulesTable.maxInteger := by
  have hk : (t.group r.slot).length - 1 < (t.group r.slot).length := by omega
  obtain ⟨a, ha, hla, hslot, hrank⟩ := exists_dupOffset hk
  have hbound := h a ha hla (by omega)
  have hpriority := (slot_eq_iff.mp hslot).2
  omega

/-- The migration succeeds, makes the priorities of the live rules unique, keeps their
    order and leaves the soft-deleted rules exactly when every group has room. -/
theorem migrationSafe_iff (t : RulesTable δ) : MigrationSafe t ↔ GroupsFit t := by
  constructor
  · rintro ⟨t', hupgrade, hmigrated⟩
    obtain ⟨t₁, hbackfill, hindex⟩ := Option.bind_eq_some_iff.mp hupgrade
    obtain rfl : t₁ = t' := by
      unfold RulesTable.createIndex at hindex
      split_ifs at hindex
      exact Option.some.inj hindex
    obtain ⟨hrange, hrows⟩ := backfill_eq_some hbackfill
    intro r hr hlive
    exact ⟨range_of_inRange hrange, fun q hq hlq htype hlt =>
      room_of_unique hrows hmigrated.unique hq hlq htype hlt⟩
  · intro hfit
    obtain ⟨t', hbackfill, hrows⟩ := backfill_of_inRange (inRange_of_fit hfit)
    have hmigrated := migrated_of_fit hfit hrows
    refine ⟨t', ?_, hmigrated⟩
    rw [RulesTable.upgrade, hbackfill, Option.bind_some, createIndex_of_unique hmigrated.unique]

/-- Three live rules of one type with the priorities 0, 0 and 1. -/
def denseRules : RulesTable Unit where
  rows := [⟨1, "geographic", 0, 10, none, ()⟩, ⟨2, "geographic", 0, 20, none, ()⟩,
    ⟨3, "geographic", 1, 30, none, ()⟩]
  ids := by decide

/-- The second rule is moved onto the third, and the index cannot be created. -/
theorem dense_priorities_collide : ¬ ∀ t : RulesTable Unit, MigrationSafe t := by
  intro h
  obtain ⟨t', hupgrade, -⟩ := h denseRules
  have hnone : denseRules.upgrade = none := by decide +kernel
  rw [hnone] at hupgrade
  cases hupgrade

end TempleConsign.PriorityBackfill
