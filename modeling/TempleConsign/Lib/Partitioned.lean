import Mathlib.Data.List.Nodup
import Mathlib.Tactic.SplitIfs

/-!
# Partitioned tables

A table whose rows are placed by a label: each into the partition of its label, or, while
there is none, into the default partition. Creating a partition fails when it is there
already, and when the default partition holds rows that belong into it.

Results:
* `createPart_eq_some_iff`: when a partition can be created, and what it leaves.
* `ensureAll_isSome_iff`, `ensureAll_spec`: creating those that are missing succeeds
  exactly when the default partition holds no row of theirs, and what it leaves.
* `ensureAll_of_mem`: once they are there nothing is created.
-/

namespace ServiceLib

variable {α π : Type} {label : α → π}

/-- `parts` are the labels that have a partition, `others` the rows of the default one. -/
structure Partitioned (label : α → π) where
  parts : List π
  placed : List α
  others : List α
  nodup : parts.Nodup
  placed_label : ∀ a ∈ placed, label a ∈ parts
  others_label : ∀ a ∈ others, label a ∉ parts

namespace Partitioned

def rows (t : Partitioned label) : List α := t.placed ++ t.others

/-- Empty partitions. -/
def ofParts (label : α → π) (parts : List π) (nodup : parts.Nodup) : Partitioned label where
  parts := parts
  placed := []
  others := []
  nodup := nodup
  placed_label := fun _ h => absurd h List.not_mem_nil
  others_label := fun _ h => absurd h List.not_mem_nil

variable [DecidableEq π]

/-- `INSERT`. -/
def insert (t : Partitioned label) (a : α) : Partitioned label :=
  if h : label a ∈ t.parts then
    { t with
      placed := t.placed ++ [a]
      placed_label := by
        intro b hb
        rcases List.mem_append.mp hb with hb | hb
        · exact t.placed_label b hb
        · exact List.mem_singleton.mp hb ▸ h }
  else
    { t with
      others := t.others ++ [a]
      others_label := by
        intro b hb
        rcases List.mem_append.mp hb with hb | hb
        · exact t.others_label b hb
        · exact List.mem_singleton.mp hb ▸ h }

/-- `CREATE TABLE … PARTITION OF`. -/
def createPart (t : Partitioned label) (p : π) : Option (Partitioned label) :=
  if h : p ∉ t.parts ∧ ∀ a ∈ t.others, label a ≠ p then
    some { t with
      parts := t.parts ++ [p]
      nodup := List.nodup_append.mpr ⟨t.nodup, List.nodup_singleton p, by
        intro q hq r hr heq
        exact h.1 (List.mem_singleton.mp hr ▸ heq ▸ hq)⟩
      placed_label := fun a ha => List.mem_append_left _ (t.placed_label a ha)
      others_label := by
        intro a ha hmem
        rcases List.mem_append.mp hmem with hmem | hmem
        · exact t.others_label a ha hmem
        · exact h.2 a ha (List.mem_singleton.mp hmem) }
  else none

/-- Create the partitions that are missing, one after the other; the number created. -/
def ensureAll (t : Partitioned label) : List π → Option (Partitioned label × ℕ)
  | [] => some (t, 0)
  | p :: ps =>
    if p ∈ t.parts then t.ensureAll ps
    else (t.createPart p).bind fun t' => (t'.ensureAll ps).map fun r => (r.1, r.2 + 1)

variable {t t' : Partitioned label}

theorem insert_parts (t : Partitioned label) (a : α) : (t.insert a).parts = t.parts := by
  unfold insert
  split_ifs
  · rfl
  · rfl

/-- A row without a partition goes into the default one. -/
theorem mem_others_insert {a b : α} :
    b ∈ (t.insert a).others ↔ b ∈ t.others ∨ b = a ∧ label a ∉ t.parts := by
  unfold insert
  split_ifs with h
  · simp [h]
  · simp [h]

theorem createPart_eq_some_iff {p : π} : t.createPart p = some t' ↔
    (p ∉ t.parts ∧ ∀ a ∈ t.others, label a ≠ p) ∧
      t'.parts = t.parts ++ [p] ∧ t'.placed = t.placed ∧ t'.others = t.others := by
  unfold createPart
  split_ifs with h
  · constructor
    · intro heq
      cases heq
      exact ⟨h, rfl, rfl, rfl⟩
    · rintro ⟨-, hparts, hplaced, hothers⟩
      obtain ⟨parts, placed, others, _, _, _⟩ := t'
      cases hparts
      cases hplaced
      cases hothers
      rfl
  · constructor
    · intro heq
      cases heq
    · rintro ⟨hfree, -⟩
      exact absurd hfree h

/-- Once the partitions are there nothing is created. -/
theorem ensureAll_of_mem {ps : List π} (h : ∀ p ∈ ps, p ∈ t.parts) :
    t.ensureAll ps = some (t, 0) := by
  induction ps with
  | nil => rfl
  | cons p ps ih =>
    rw [ensureAll, if_pos (h p List.mem_cons_self)]
    exact ih fun q hq => h q (List.mem_cons_of_mem p hq)

/-- What a call leaves. -/
theorem ensureAll_spec {ps : List π} {n : ℕ} (h : t.ensureAll ps = some (t', n)) :
    (∀ p, p ∈ t'.parts ↔ p ∈ t.parts ∨ p ∈ ps) ∧ t'.placed = t.placed ∧ t'.others = t.others := by
  induction ps generalizing t n with
  | nil =>
    cases h
    simp
  | cons p ps ih =>
    rw [ensureAll] at h
    split_ifs at h with hp
    · obtain ⟨hparts, hrows⟩ := ih h
      refine ⟨fun q => ?_, hrows⟩
      rw [hparts, List.mem_cons]
      constructor
      · exact Or.imp_right .inr
      · rintro (hq | rfl | hq)
        · exact .inl hq
        · exact .inl hp
        · exact .inr hq
    · obtain ⟨t₁, hcreate, hrest⟩ := Option.bind_eq_some_iff.mp h
      obtain ⟨⟨t₂, m⟩, hensure, heq⟩ := Option.map_eq_some_iff.mp hrest
      cases heq
      obtain ⟨-, hparts₁, hplaced₁, hothers₁⟩ := createPart_eq_some_iff.mp hcreate
      obtain ⟨hparts, hplaced, hothers⟩ := ih hensure
      refine ⟨fun q => ?_, hplaced.trans hplaced₁, hothers.trans hothers₁⟩
      rw [hparts, hparts₁, List.mem_append, List.mem_singleton, List.mem_cons, or_assoc]

/-- A call succeeds exactly when the default partition holds no row of the partitions it
    is to ensure. -/
theorem ensureAll_isSome_iff {ps : List π} :
    (t.ensureAll ps).isSome = true ↔ ∀ a ∈ t.others, label a ∉ ps := by
  induction ps generalizing t with
  | nil => simp [ensureAll]
  | cons p ps ih =>
    rw [ensureAll]
    by_cases hp : p ∈ t.parts
    · rw [if_pos hp, ih]
      refine forall₂_congr fun a ha => ?_
      have hne : label a ≠ p := fun h => t.others_label a ha (h ▸ hp)
      simp [hne]
    · rw [if_neg hp]
      cases hcreate : t.createPart p with
      | none =>
        have hheld : ¬ ∀ a ∈ t.others, label a ≠ p := by
          intro hfree
          unfold createPart at hcreate
          rw [dif_pos ⟨hp, hfree⟩] at hcreate
          cases hcreate
        constructor
        · intro h
          cases h
        · intro h
          exact absurd (fun a ha => (not_or.mp (mt List.mem_cons.mpr (h a ha))).1) hheld
      | some t₁ =>
        obtain ⟨⟨-, hfree⟩, -, -, hothers⟩ := createPart_eq_some_iff.mp hcreate
        rw [Option.bind_some, Option.isSome_map, ih, hothers]
        refine forall₂_congr fun a ha => ?_
        simp [hfree a ha]

end Partitioned

end ServiceLib
