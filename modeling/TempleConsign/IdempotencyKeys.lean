import TempleConsign.Lib.Separated
import TempleConsign.Outbox

/-!
# Idempotency keys

`enqueue` drops a notice whose key is taken. The key of a status email names
the record and the status only, and that of an assignment email the record, the
user and the trigger: when a record enters a status again, or goes back to an
earlier sales rep, the second notice has the key of the first.

Results:
* `LogicalEvent.key_text_injective`: a notice under an event's key is the
  event's own, whichever producer wrote it.
* `enqueueAll_old`, `enqueueAll_new`, `enqueueAll_taken_iff`: what a batch of
  `enqueue` calls does to the table.
* `sameKeys_worker`: the workers change no key.
-/

namespace TempleConsign

open ServiceLib

variable {d : Deployment} {q : Queue}

/-! ## Keys -/

/-- The events that must be notified: a record enters a status that its customer
    is told about, and a record is reassigned by hand to a sales rep. -/
inductive LogicalEvent
  | entered (record : ℕ) (target : Status)
  | reassigned (record rep : ℕ)
  deriving DecidableEq

/-- The key of the event's notice. -/
def LogicalEvent.key : LogicalEvent → Key
  | entered record target => .statusUpdate record target
  | reassigned record rep => .recordAssigned record rep .manualOverride

/-- The first part of a key names its producer. -/
def Key.first (k : Key) : String := k.parts.headD ""

theorem Key.parts_eq (k : Key) : k.parts = k.first :: k.parts.tail := by
  cases k <;> rfl

theorem free_repr (n : ℕ) : Free ':' n.repr := notMem_repr (by decide) n

theorem free_append {s t : String} (hs : Free ':' s) (ht : Free ':' t) : Free ':' (s ++ t) := by
  unfold Free
  rw [String.toList_append, List.mem_append]
  rintro (h | h)
  · exact hs h
  · exact ht h

theorem Key.free_first (k : Key) : Free ':' k.first := by
  cases k with
  | managementReview s m =>
    exact free_append (free_append (free_append (by decide) (free_repr s)) (by decide))
      (free_repr m)
  | rejectionAppraiser s => exact free_append (by decide) (free_repr s)
  | rejectionSalesRep s => exact free_append (by decide) (free_repr s)
  | _ =>
    simp only [Key.first, Key.parts, List.headD_cons]
    decide

/-- Keys with the same text have the same first part. -/
theorem Key.first_eq {k k' : Key} (h : k.text = k'.text) : k.first = k'.first := by
  have hs : separated ':' (k.first :: k.parts.tail) =
      separated ':' (k'.first :: k'.parts.tail) := by
    rw [← k.parts_eq, ← k'.parts_eq]
    exact h
  exact first_part k.free_first k'.free_first hs

theorem Status.free_value (s : Status) : Free ':' s.value := by cases s <;> decide

theorem Status.value_injective {s t : Status} (h : s.value = t.value) : s = t := by
  have h' := congrArg Status.ofValue? h
  rw [Status.ofValue?_value, Status.ofValue?_value] at h'
  exact Option.some.inj h'

theorem AssignmentTrigger.value_injective {s t : AssignmentTrigger} (h : s.value = t.value) :
    s = t := by
  revert h
  cases s <;> cases t <;> decide

theorem AssignmentTrigger.free_value (t : AssignmentTrigger) : Free ':' t.value := by
  cases t <;> decide

/-- The parts of an event's key are free of the colon. -/
theorem LogicalEvent.free_parts (e : LogicalEvent) : ∀ p ∈ e.key.parts, Free ':' p := by
  intro p hp
  cases e with
  | entered record target =>
    simp only [LogicalEvent.key, Key.parts, List.mem_cons, List.not_mem_nil, or_false] at hp
    rcases hp with rfl | rfl | rfl
    · decide
    · exact free_repr record
    · exact target.free_value
  | reassigned record rep =>
    simp only [LogicalEvent.key, Key.parts, List.mem_cons, List.not_mem_nil, or_false] at hp
    rcases hp with rfl | rfl | rfl | rfl
    · decide
    · exact free_repr record
    · exact free_repr rep
    · decide

/-- Three other producers join the parts of their keys by hyphens. -/
theorem LogicalEvent.hyphen_notMem (e : LogicalEvent) : '-' ∉ e.key.first.toList := by
  cases e <;> simp only [LogicalEvent.key, Key.first, Key.parts, List.headD_cons] <;> decide

/-- Keys of one text whose parts are free of the colon have the same parts. -/
theorem LogicalEvent.parts_eq {e : LogicalEvent} {k : Key} (hfree : ∀ p ∈ k.parts, Free ':' p)
    (h : k.text = e.key.text) : k.parts = e.key.parts := by
  have hne : ∀ k : Key, k.parts ≠ [] := by
    intro k
    rw [k.parts_eq]
    exact List.cons_ne_nil _ _
  exact parts_injective hfree e.free_parts (hne k) (hne e.key) h

/-- **An event's key is its own**: no other notice, of whichever producer, has
    the same text. -/
theorem LogicalEvent.key_text_injective {e : LogicalEvent} {k : Key}
    (h : k.text = e.key.text) : k = e.key := by
  have hfirst := Key.first_eq h
  have hhyphen : '-' ∉ k.first.toList := by
    rw [hfirst]
    exact e.hyphen_notMem
  cases k with
  | managementReview s m => exact absurd (by simp [Key.first, Key.parts]) hhyphen
  | rejectionAppraiser s => exact absurd (by simp [Key.first, Key.parts]) hhyphen
  | rejectionSalesRep s => exact absurd (by simp [Key.first, Key.parts]) hhyphen
  | statusUpdate r t =>
    cases e with
    | entered record target =>
      have hparts := LogicalEvent.parts_eq (LogicalEvent.entered r t).free_parts h
      simp only [LogicalEvent.key, Key.parts, List.cons.injEq] at hparts
      obtain ⟨-, hr, ht, -⟩ := hparts
      rw [repr_injective hr, Status.value_injective ht]
      rfl
    | reassigned record rep =>
      simp [LogicalEvent.key, Key.first, Key.parts] at hfirst
  | recordAssigned r u trigger =>
    cases e with
    | entered record target =>
      simp [LogicalEvent.key, Key.first, Key.parts] at hfirst
    | reassigned record rep =>
      have hfree : ∀ p ∈ (Key.recordAssigned r u trigger).parts, Free ':' p := by
        intro p hp
        simp only [Key.parts, List.mem_cons, List.not_mem_nil, or_false] at hp
        rcases hp with rfl | rfl | rfl | rfl
        · decide
        · exact free_repr r
        · exact free_repr u
        · exact trigger.free_value
      have hparts := LogicalEvent.parts_eq hfree h
      simp only [LogicalEvent.key, Key.parts, List.cons.injEq] at hparts
      obtain ⟨-, hr, hu, ht, -⟩ := hparts
      rw [repr_injective hr, repr_injective hu, AssignmentTrigger.value_injective ht]
      rfl
  | _ => cases e <;> simp [LogicalEvent.key, Key.first, Key.parts] at hfirst

theorem LogicalEvent.key_injective {e e' : LogicalEvent} (h : e.key = e'.key) : e = e' := by
  cases e <;> cases e' <;> cases h <;> rfl

/-! ## Enqueueing -/

/-- A job was enqueued under the key. -/
def Queue.Taken (q : Queue) (k : Key) : Prop :=
  ∃ id j, q.jobs.get? id = some j ∧ j.idempotencyKey = k.text

theorem taken_iff_exists (q : Queue) (k : Key) :
    (q.jobs.exists? fun _ j => j.idempotencyKey = k.text) = true ↔ q.Taken k := by
  rw [Store.exists?_iff]
  simp only [decide_eq_true_eq, Queue.Taken]

/-- No call removes a row. -/
theorem enqueueAll_old {now : ℤ} {notices : List Notice} {id : ℕ} {j : Job}
    (hj : q.jobs.get? id = some j) : (enqueueAll now notices q).jobs.get? id = some j := by
  induction notices generalizing q with
  | nil => exact hj
  | cons n rest ih =>
    rw [enqueueAll_cons]
    refine ih ?_
    rw [queueStep_enqueue]
    split_ifs
    · exact hj
    · exact Store.get?_create_of_some hj

/-- A new row is that of a notice whose key was free. -/
theorem enqueueAll_new {now : ℤ} {notices : List Notice} {id : ℕ} {j : Job}
    (hj : (enqueueAll now notices q).jobs.get? id = some j) :
    q.jobs.get? id = some j ∨
      q.jobs.get? id = none ∧ ∃ n ∈ notices, j = n.request.row now ∧ ¬ q.Taken n.key := by
  induction notices generalizing q with
  | nil => exact Or.inl hj
  | cons n rest ih =>
    rw [enqueueAll_cons, queueStep_enqueue] at hj
    split_ifs at hj with hkey
    · rcases ih hj with hold | ⟨hnone, m, hm, hrow⟩
      · exact Or.inl hold
      · exact Or.inr ⟨hnone, m, List.mem_cons_of_mem n hm, hrow⟩
    · rw [taken_iff_exists] at hkey
      rcases ih hj with hold | ⟨hnone, m, hm, hrow, hfree⟩
      · rw [Store.get?_create] at hold
        split_ifs at hold with hid
        · cases hold
          exact Or.inr ⟨by rw [hid]; exact Store.get?_next _, n, List.mem_cons_self, rfl, hkey⟩
        · exact Or.inl hold
      · rw [Store.get?_create] at hnone
        split_ifs at hnone
        refine Or.inr ⟨hnone, m, List.mem_cons_of_mem n hm, hrow, ?_⟩
        rintro ⟨id', j', hj', hkey'⟩
        exact hfree ⟨id', j', Store.get?_create_of_some hj', hkey'⟩

/-- After the calls every one of their keys is taken. -/
theorem enqueueAll_taken {now : ℤ} {notices : List Notice} {n : Notice} (hn : n ∈ notices) :
    (enqueueAll now notices q).Taken n.key := by
  induction notices generalizing q with
  | nil => cases hn
  | cons m rest ih =>
    rw [enqueueAll_cons]
    rcases List.mem_cons.mp hn with rfl | hn
    · have htaken : (queueStep q (.enqueue now n.request)).Taken n.key := by
        rw [queueStep_enqueue]
        split_ifs with hkey
        · exact (taken_iff_exists q n.key).mp hkey
        · exact ⟨q.jobs.next, _, Store.get?_create_self _ _, rfl⟩
      obtain ⟨id, j, hj, hkey⟩ := htaken
      exact ⟨id, j, enqueueAll_old hj, hkey⟩
    · exact ih hn

theorem enqueueAll_taken_iff {now : ℤ} {notices : List Notice} (k : Key) :
    (enqueueAll now notices q).Taken k ↔ q.Taken k ∨ ∃ n ∈ notices, n.key.text = k.text := by
  constructor
  · rintro ⟨id, j, hj, hkey⟩
    rcases enqueueAll_new hj with hold | ⟨-, n, hn, rfl, -⟩
    · exact Or.inl ⟨id, j, hold, hkey⟩
    · exact Or.inr ⟨n, hn, hkey⟩
  · rintro (⟨id, j, hj, hkey⟩ | ⟨n, hn, hkey⟩)
    · exact ⟨id, j, enqueueAll_old hj, hkey⟩
    · have htaken : (enqueueAll now notices q).Taken n.key := enqueueAll_taken hn
      obtain ⟨id, j, hj, hj'⟩ := htaken
      exact ⟨id, j, hj, hj'.trans hkey⟩

/-- The table holds the same keys, row by row. -/
def SameKeys (q q' : Queue) : Prop :=
  ∀ id, (q'.jobs.get? id).map Job.idempotencyKey = (q.jobs.get? id).map Job.idempotencyKey

theorem SameKeys.taken_iff {q' : Queue} (h : SameKeys q q') (k : Key) : q'.Taken k ↔ q.Taken k := by
  have hiff : ∀ q : Queue, q.Taken k ↔
      ∃ id, (q.jobs.get? id).map Job.idempotencyKey = some k.text := by
    intro q
    simp only [Queue.Taken, Option.map_eq_some_iff]
  rw [hiff, hiff]
  exact exists_congr fun id => by rw [h id]

theorem sameKeys_modify {jobs : Store Job} {id : ℕ} {f : Job → Job}
    (hf : ∀ j, (f j).idempotencyKey = j.idempotencyKey) (k : ℕ) :
    ((jobs.modify id f).get? k).map Job.idempotencyKey =
      (jobs.get? k).map Job.idempotencyKey := by
  rw [Store.get?_modify]
  split_ifs
  · rw [Option.map_map]
    congr 1
    funext j
    exact hf j
  · rfl

theorem sameKeys_commit (q : Queue) (c : ℕ) : SameKeys q (queueStep q (.commit c)) := by
  intro id
  simp only [queueStep]
  split
  · next ids _ =>
    show ((markProcessing q.jobs ids).get? id).map Job.idempotencyKey = _
    rw [get?_markProcessing]
    split_ifs
    · rw [Option.map_map]
      rfl
    · rfl
  · rfl

theorem sameKeys_process (q : Queue) (c : ℕ) (now : ℤ) (o : Outcome) :
    SameKeys q (queueStep q (.process c now o)) := by
  intro id
  simp only [queueStep]
  split
  · next jid job rest _ =>
    show ((writeBack q.jobs jid (processJob now o job)).get? id).map Job.idempotencyKey = _
    unfold writeBack
    apply sameKeys_modify
    intro row
    rfl
  · rfl

/-- The workers change no key and remove no row. -/
theorem sameKeys_worker (q : Queue) (move : WorkerMove) :
    SameKeys q (workerStep q (move.op d q)) := by
  intro id
  cases move with
  | select now limit => rfl
  | commit c => exact sameKeys_commit q c id
  | abort c =>
    simp only [WorkerMove.op, workerStep, queueStep]
    split <;> rfl
  | process c now sent => exact sameKeys_process q c now _ id
  | claimLost c =>
    simp only [WorkerMove.op, workerStep]
    split
    · exact sameKeys_commit q c id
    · rfl
  | outcomeRaised c =>
    simp only [WorkerMove.op, workerStep]
    split <;> rfl
  | outcomeLost c now sent =>
    simp only [WorkerMove.op, workerStep]
    split
    · exact sameKeys_process q c now _ id
    · rfl

end TempleConsign
