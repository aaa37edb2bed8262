import Mathlib.Data.List.Nodup

/-!
# Objects without versions

An object store as the log of its puts: an object is what the last put under its key
wrote, and every earlier one is lost.

Results:
* `firstOf_of_nodup`, `objectAt_of_nodup`: when no key is written twice, every put was
  the first of its key and can still be read.
* `firstOf_congr`: the first of one label is the first of another that says the same.
-/

namespace ServiceLib

structure Put (ι κ β : Type) where
  writer : ι
  key : κ
  body : β

variable {ι κ β α γ : Type}

/-- What is read under a key: the body of its last put. -/
def objectAt [DecidableEq κ] (log : List (Put ι κ β)) (key : κ) : Option β :=
  (log.filter fun p => p.key = key).getLast?.map Put.body

/-- `p` is in the log, and no put before it has its label. -/
def FirstOf (label : Put ι κ β → α) (log : List (Put ι κ β)) (p : Put ι κ β) : Prop :=
  ∃ before after, log = before ++ p :: after ∧ ∀ q ∈ before, label q ≠ label p

variable {log : List (Put ι κ β)} {p : Put ι κ β} {label : Put ι κ β → α}

theorem FirstOf.mem (h : FirstOf label log p) : p ∈ log := by
  obtain ⟨before, after, rfl, -⟩ := h
  simp

/-- Two labels that single out the same puts have the same first ones. -/
theorem firstOf_congr {label' : Put ι κ β → γ}
    (h : ∀ q ∈ log, label q = label p ↔ label' q = label' p) :
    FirstOf label log p ↔ FirstOf label' log p := by
  constructor
  · rintro ⟨before, after, rfl, hfirst⟩
    refine ⟨before, after, rfl, fun q hq hlabel => hfirst q hq ?_⟩
    exact (h q (List.mem_append_left _ hq)).mpr hlabel
  · rintro ⟨before, after, rfl, hfirst⟩
    refine ⟨before, after, rfl, fun q hq hlabel => hfirst q hq ?_⟩
    exact (h q (List.mem_append_left _ hq)).mp hlabel

/-- Where no label repeats, every put is the first of its label. -/
theorem firstOf_of_nodup (h : (log.map label).Nodup) (hp : p ∈ log) : FirstOf label log p := by
  obtain ⟨before, after, rfl⟩ := List.append_of_mem hp
  refine ⟨before, after, rfl, fun q hq hlabel => ?_⟩
  rw [List.map_append, List.map_cons] at h
  have hnotin := (List.nodup_append.mp h).2.2 (label q) (List.mem_map_of_mem hq) (label p)
    List.mem_cons_self
  exact hnotin hlabel

variable [DecidableEq κ]

/-- Where no key is written twice, every put can still be read. -/
theorem objectAt_of_nodup (h : (log.map Put.key).Nodup) (hp : p ∈ log) :
    objectAt log p.key = some p.body := by
  obtain ⟨before, after, rfl⟩ := List.append_of_mem hp
  rw [List.map_append, List.map_cons] at h
  obtain ⟨-, hafter, hbefore⟩ := List.nodup_append.mp h
  have hfront : before.filter (fun q => q.key = p.key) = [] := by
    apply List.filter_eq_nil_iff.mpr
    intro q hq hkey
    exact hbefore q.key (List.mem_map_of_mem hq) p.key List.mem_cons_self (of_decide_eq_true hkey)
  have hback : after.filter (fun q => q.key = p.key) = [] := by
    apply List.filter_eq_nil_iff.mpr
    intro q hq hkey
    apply (List.nodup_cons.mp hafter).1
    rw [← of_decide_eq_true hkey]
    exact List.mem_map_of_mem hq
  have hself : (p :: after).filter (fun q => q.key = p.key) = [p] := by
    rw [List.filter_cons, hback]
    simp
  rw [objectAt, List.filter_append, hfront, hself]
  rfl

end ServiceLib
