import Mathlib.Algebra.Order.Group.Unbundled.Int
import Mathlib.Logic.Function.Basic
import Mathlib.Tactic.SplitIfs
import TempleConsign.Lib.Run

/-!
# Read-through caches

A table remembers what a source answered, each value for a lifetime that counts from the
start of the call that fetched it. A call looks the key of its request up, asks the source
when it finds no live value, and writes the answer back; its transaction sees its own writes
and makes them visible to the others when it commits. Any number of transactions interleave.

Results:
* `step_inv`, `returned_fresh`: a call returns what the source answered to a request of the
  same key, within the lifetime.
* `step_economical`, `stored_spaced`: when no two transactions fetch a key at the same time,
  the stored answers of a key are a lifetime apart.
* `alone_visits`: calls one after another are such a run.
-/

namespace ServiceLib.ReadThrough

/-! ## The cache -/

/-- A row of the table. -/
structure Entry (ν : Type) where
  value : ν
  expiresAt : ℤ

/-- What is looked up where: the requests that are looked up at all, the key a request is
    stored under, how long an answer counts, whether the source may be asked, and the value
    an answer gives, if any. -/
structure Source (ρ κ β ν : Type) where
  accepts : ρ → Bool
  key : ρ → κ
  ttl : ℤ
  ttl_pos : 0 < ttl
  enabled : Bool
  parse : β → Option ν

/-- A request to the source that has no answer yet. -/
structure Call (ρ : Type) where
  request : ρ
  startedAt : ℤ

structure Answer (ρ β : Type) where
  call : Call ρ
  answeredAt : ℤ
  reply : β

/-- A value that a call returned. -/
structure Returned (ρ ν : Type) where
  request : ρ
  returnedAt : ℤ
  value : ν
  deriving DecidableEq

/-- A transaction: what it wrote, the last write first, and its call at the source. -/
structure Txn (ρ κ ν : Type) where
  staged : List (κ × Entry ν)
  waiting : Option (Call ρ)

def Txn.empty {ρ κ ν : Type} : Txn ρ κ ν := ⟨[], none⟩

/-- `stored` are the committed writes, the last one first; a key's row is its last write. -/
structure World (ρ κ β ν : Type) where
  now : ℤ
  stored : List (κ × Entry ν)
  txns : ℕ → Txn ρ κ ν
  answers : List (Answer ρ β)
  returned : List (Returned ρ ν)

/-- The clock moves, or a transaction starts a call, gets an answer or ends. -/
inductive Op (ρ β : Type)
  | tick (d : ℕ)
  | ask (t : ℕ) (r : ρ)
  | reply (t : ℕ) (b : β)
  | commit (t : ℕ)
  | rollback (t : ℕ)

variable {ρ κ β ν : Type}

/-- The empty table. -/
def World.start (now : ℤ) : World ρ κ β ν := ⟨now, [], fun _ => Txn.empty, [], []⟩

namespace World

def setTxn (w : World ρ κ β ν) (t : ℕ) (x : Txn ρ κ ν) : World ρ κ β ν :=
  { w with txns := Function.update w.txns t x }

def log (w : World ρ κ β ν) (r : ρ) (v : ν) : World ρ κ β ν :=
  { w with returned := w.returned ++ [⟨r, w.now, v⟩] }

def answer (w : World ρ κ β ν) (call : Call ρ) (b : β) : World ρ κ β ν :=
  { w with answers := w.answers ++ [⟨call, w.now, b⟩] }

/-- The committed writes are now `stored`. -/
def store (w : World ρ κ β ν) (stored : List (κ × Entry ν)) : World ρ κ β ν :=
  { w with stored := stored }

/-- The writes that a transaction sees, the last one first. -/
def seen (w : World ρ κ β ν) (t : ℕ) : List (κ × Entry ν) := (w.txns t).staged ++ w.stored

/-- The live row of a key. -/
def live [DecidableEq κ] (w : World ρ κ β ν) (t : ℕ) (k : κ) : Option (Entry ν) :=
  ((w.seen t).lookup k).filter fun e => w.now < e.expiresAt

end World

/-! ## What the writes keep of a transaction -/

@[simp] theorem txns_setTxn (w : World ρ κ β ν) (t : ℕ) (x : Txn ρ κ ν) :
    (w.setTxn t x).txns = Function.update w.txns t x := rfl

/-- What holds of every transaction and of the new one holds of every one after the write. -/
theorem forall_update {P : ℕ → Txn ρ κ ν → Prop} {f : ℕ → Txn ρ κ ν} {t : ℕ} {x : Txn ρ κ ν}
    (hf : ∀ t, P t (f t)) (hx : P t x) (t' : ℕ) : P t' (Function.update f t x t') := by
  by_cases h : t' = t
  · subst h
    rw [Function.update_self]
    exact hx
  · rw [Function.update_of_ne h]
    exact hf t'

/-! ## The calls -/

variable [DecidableEq κ] (s : Source ρ κ β ν)

/-- The start of a call: a live row is returned, otherwise the source is asked. -/
def askStep (w : World ρ κ β ν) (t : ℕ) (r : ρ) : World ρ κ β ν :=
  if s.accepts r && ((w.txns t).waiting.isNone) then
    match w.live t (s.key r) with
    | some e => w.log r e.value
    | none =>
      if s.enabled then w.setTxn t { w.txns t with waiting := some ⟨r, w.now⟩ } else w
  else w

/-- The end of a call: an answer with a value is written back and returned. -/
def replyStep (w : World ρ κ β ν) (t : ℕ) (b : β) : World ρ κ β ν :=
  match (w.txns t).waiting with
  | none => w
  | some call =>
    match s.parse b with
    | none => (w.answer call b).setTxn t { w.txns t with waiting := none }
    | some v =>
      ((w.answer call b).setTxn t
        ⟨(s.key call.request, ⟨v, call.startedAt + s.ttl⟩) :: (w.txns t).staged, none⟩).log
          call.request v

def step (w : World ρ κ β ν) : Op ρ β → World ρ κ β ν
  | .tick d => { w with now := w.now + d }
  | .ask t r => askStep s w t r
  | .reply t b => replyStep s w t b
  | .commit t => (w.store (w.seen t)).setTxn t Txn.empty
  | .rollback t => w.setTxn t Txn.empty

/-- The cases of a call's start. -/
theorem askStep_cases (w : World ρ κ β ν) (t : ℕ) (r : ρ) :
    askStep s w t r = w ∨
    (∃ e, w.live t (s.key r) = some e ∧ askStep s w t r = w.log r e.value) ∨
    (w.live t (s.key r) = none ∧ (w.txns t).waiting = none ∧
      askStep s w t r = w.setTxn t { w.txns t with waiting := some ⟨r, w.now⟩ }) := by
  unfold askStep
  by_cases hc : (s.accepts r && (w.txns t).waiting.isNone) = true
  · rw [if_pos hc]
    rw [Bool.and_eq_true, Option.isNone_iff_eq_none] at hc
    cases hl : w.live t (s.key r) with
    | some e => exact .inr (.inl ⟨e, rfl, rfl⟩)
    | none =>
      cases s.enabled with
      | true => exact .inr (.inr ⟨rfl, hc.2, rfl⟩)
      | false => exact .inl rfl
  · rw [if_neg hc]
    exact .inl rfl

theorem live_eq_some {w : World ρ κ β ν} {t : ℕ} {k : κ} {e : Entry ν}
    (h : w.live t k = some e) : (k, e) ∈ w.seen t ∧ w.now < e.expiresAt := by
  obtain ⟨hlook, hlive⟩ := Option.filter_eq_some_iff.mp h
  obtain ⟨before, after, heq, -⟩ := List.lookup_eq_some_iff.mp hlook
  rw [heq]
  exact ⟨List.mem_append_right _ List.mem_cons_self, of_decide_eq_true hlive⟩

/-! ## Freshness -/

/-- The source answered the value, within the lifetime that ends at `expiresAt`. -/
structure Fetched (w : World ρ κ β ν) (k : κ) (e : Entry ν) (a : Answer ρ β) : Prop where
  mem : a ∈ w.answers
  key : s.key a.call.request = k
  value : s.parse a.reply = some e.value
  expires : e.expiresAt = a.call.startedAt + s.ttl
  ordered : a.call.startedAt ≤ a.answeredAt
  past : a.answeredAt ≤ w.now

/-- The value was answered to a request of the same key: to this one just now, or by a call
    that started less than a lifetime ago. -/
structure Fresh (w : World ρ κ β ν) (x : Returned ρ ν) (a : Answer ρ β) : Prop where
  mem : a ∈ w.answers
  key : s.key a.call.request = s.key x.request
  value : s.parse a.reply = some x.value
  ordered : a.call.startedAt ≤ a.answeredAt
  before : a.answeredAt ≤ x.returnedAt
  recent : x.returnedAt < a.call.startedAt + s.ttl ∨
    (a.call.request = x.request ∧ a.answeredAt = x.returnedAt)

/-- Every write has its answer, and every returned value is fresh. -/
structure Inv (w : World ρ κ β ν) : Prop where
  stored : ∀ x ∈ w.stored, ∃ a, Fetched s w x.1 x.2 a
  staged : ∀ t, ∀ x ∈ (w.txns t).staged, ∃ a, Fetched s w x.1 x.2 a
  waiting : ∀ t, ∀ c ∈ (w.txns t).waiting, c.startedAt ≤ w.now
  returned : ∀ x ∈ w.returned, ∃ a, Fresh s w x a

variable {s}

/-- The log of answers and the clock only grow. -/
def Later (w w' : World ρ κ β ν) : Prop := w.answers ⊆ w'.answers ∧ w.now ≤ w'.now

omit [DecidableEq κ] in
theorem Fetched.later {w w' : World ρ κ β ν} (h : Later w w') {k : κ} {e : Entry ν}
    {a : Answer ρ β} (hf : Fetched s w k e a) : Fetched s w' k e a :=
  ⟨h.1 hf.mem, hf.key, hf.value, hf.expires, hf.ordered, le_trans hf.past h.2⟩

omit [DecidableEq κ] in
theorem Fresh.later {w w' : World ρ κ β ν} (h : Later w w') {x : Returned ρ ν}
    {a : Answer ρ β} (hf : Fresh s w x a) : Fresh s w' x a :=
  ⟨h.1 hf.mem, hf.key, hf.value, hf.ordered, hf.before, hf.recent⟩

omit [DecidableEq κ] in
theorem Inv.seen {w : World ρ κ β ν} (h : Inv s w) (t : ℕ) :
    ∀ x ∈ w.seen t, ∃ a, Fetched s w x.1 x.2 a := by
  intro x hx
  rcases List.mem_append.mp hx with hx | hx
  · exact h.staged t x hx
  · exact h.stored x hx

omit [DecidableEq κ] in
/-- The writes, the open calls and the returned values of `w'` are those of `w` or new ones
    that keep the invariant. -/
theorem Inv.next {w w' : World ρ κ β ν} (h : Inv s w) (hl : Later w w')
    (hstored : ∀ x ∈ w'.stored, (∃ t, x ∈ w.seen t) ∨ ∃ a, Fetched s w' x.1 x.2 a)
    (hstaged : ∀ t, ∀ x ∈ (w'.txns t).staged,
      x ∈ (w.txns t).staged ∨ ∃ a, Fetched s w' x.1 x.2 a)
    (hwaiting : ∀ t, ∀ c ∈ (w'.txns t).waiting, c ∈ (w.txns t).waiting ∨ c.startedAt ≤ w'.now)
    (hreturned : ∀ x ∈ w'.returned, x ∈ w.returned ∨ ∃ a, Fresh s w' x a) : Inv s w' where
  stored x hx := by
    rcases hstored x hx with ⟨t, hx⟩ | hx
    · exact (h.seen t x hx).imp fun a ha => ha.later hl
    · exact hx
  staged t x hx := by
    rcases hstaged t x hx with hx | hx
    · exact (h.staged t x hx).imp fun a ha => ha.later hl
    · exact hx
  waiting t c hc := by
    rcases hwaiting t c hc with hc | hc
    · exact le_trans (h.waiting t c hc) hl.2
    · exact hc
  returned x hx := by
    rcases hreturned x hx with hx | hx
    · exact (h.returned x hx).imp fun a ha => ha.later hl
    · exact hx

theorem askStep_inv {w : World ρ κ β ν} (h : Inv s w) (t : ℕ) (r : ρ) :
    Inv s (askStep s w t r) := by
  rcases askStep_cases s w t r with heq | ⟨e, hlive, heq⟩ | ⟨-, -, heq⟩ <;> rw [heq]
  · exact h
  · -- a hit: the row's answer is that of the returned value
    obtain ⟨hseen, hlt⟩ := live_eq_some hlive
    obtain ⟨a, ha⟩ := h.seen t _ hseen
    have hfresh : Fresh s (w.log r e.value) ⟨r, w.now, e.value⟩ a := by
      refine ⟨ha.mem, ha.key, ha.value, ha.ordered, ha.past, .inl ?_⟩
      rw [← ha.expires]
      exact hlt
    refine h.next ⟨List.Subset.refl _, le_refl _⟩ (fun x hx => .inl ⟨t, ?_⟩)
      (fun t' x hx => .inl hx) (fun t' c hc => .inl hc) fun x hx => ?_
    · exact List.mem_append_right _ hx
    · rcases List.mem_append.mp hx with hx | hx
      · exact .inl hx
      · rw [List.mem_singleton.mp hx]
        exact .inr ⟨a, hfresh⟩
  · refine h.next ⟨List.Subset.refl _, le_refl _⟩
      (fun x hx => .inl ⟨t, List.mem_append_right _ hx⟩) ?_ ?_ fun x hx => .inl hx
    · exact forall_update (P := fun t' y => ∀ x ∈ y.staged,
        x ∈ (w.txns t').staged ∨ ∃ a, Fetched s _ x.1 x.2 a)
        (fun t' x hx => .inl hx) fun x hx => .inl hx
    · refine forall_update (P := fun t' y => ∀ c ∈ y.waiting,
        c ∈ (w.txns t').waiting ∨ c.startedAt ≤ w.now) (fun t' c hc => .inl hc) fun c hc => ?_
      cases hc
      exact .inr (le_refl _)

omit [DecidableEq κ] in
theorem replyStep_inv {w : World ρ κ β ν} (h : Inv s w) (t : ℕ) (b : β) :
    Inv s (replyStep s w t b) := by
  unfold replyStep
  cases hw : (w.txns t).waiting with
  | none => exact h
  | some call =>
    have hstart : call.startedAt ≤ w.now := h.waiting t call hw
    have hmem : (⟨call, w.now, b⟩ : Answer ρ β) ∈ w.answers ++ [⟨call, w.now, b⟩] :=
      List.mem_append_right _ List.mem_cons_self
    have hsub : w.answers ⊆ w.answers ++ [⟨call, w.now, b⟩] := List.subset_append_left _ _
    dsimp only
    cases hp : s.parse b with
    | none =>
      refine h.next ⟨hsub, le_refl _⟩ (fun x hx => .inl ⟨t, List.mem_append_right _ hx⟩) ?_ ?_
        fun x hx => .inl hx
      · exact forall_update (P := fun t' y => ∀ x ∈ y.staged,
          x ∈ (w.txns t').staged ∨ ∃ a, Fetched s _ x.1 x.2 a)
          (fun t' x hx => .inl hx) fun x hx => .inl hx
      · exact forall_update (P := fun t' y => ∀ c ∈ y.waiting,
          c ∈ (w.txns t').waiting ∨ c.startedAt ≤ w.now) (fun t' c hc => .inl hc) nofun
    | some v =>
      refine h.next ⟨hsub, le_refl _⟩ (fun x hx => .inl ⟨t, List.mem_append_right _ hx⟩) ?_ ?_
        fun x hx => ?_
      · refine forall_update (P := fun t' y => ∀ x ∈ y.staged,
          x ∈ (w.txns t').staged ∨ ∃ a, Fetched s _ x.1 x.2 a)
          (fun t' x hx => .inl hx) fun x hx => ?_
        rcases List.mem_cons.mp hx with rfl | hx
        · exact .inr ⟨⟨call, w.now, b⟩, hmem, rfl, hp, rfl, hstart, le_refl _⟩
        · exact .inl hx
      · exact forall_update (P := fun t' y => ∀ c ∈ y.waiting,
          c ∈ (w.txns t').waiting ∨ c.startedAt ≤ w.now) (fun t' c hc => .inl hc) nofun
      · rcases List.mem_append.mp hx with hx | hx
        · exact .inl hx
        · rw [List.mem_singleton.mp hx]
          exact .inr ⟨⟨call, w.now, b⟩, hmem, rfl, hp, hstart, le_refl _, .inr ⟨rfl, rfl⟩⟩

/-- No step forges a value. -/
theorem step_inv (w : World ρ κ β ν) (o : Op ρ β) (h : Inv s w) : Inv s (step s w o) := by
  -- a transaction that ends leaves nothing of its own behind
  have hended (w' : World ρ κ β ν) (t : ℕ) (hw' : w'.txns = w.txns) :
      (∀ t', ∀ x ∈ ((w'.setTxn t Txn.empty).txns t').staged, x ∈ (w.txns t').staged) ∧
        ∀ t', ∀ c ∈ ((w'.setTxn t Txn.empty).txns t').waiting, c ∈ (w.txns t').waiting := by
    rw [txns_setTxn, hw']
    exact ⟨forall_update (P := fun t' y => ∀ x ∈ y.staged, x ∈ (w.txns t').staged)
        (fun t' x hx => hx) nofun,
      forall_update (P := fun t' y => ∀ c ∈ y.waiting, c ∈ (w.txns t').waiting)
        (fun t' c hc => hc) nofun⟩
  cases o with
  | tick d =>
    refine h.next ⟨List.Subset.refl _, ?_⟩ (fun x hx => .inl ⟨0, List.mem_append_right _ hx⟩)
      (fun t x hx => .inl hx) (fun t c hc => .inl hc) fun x hx => .inl hx
    exact Int.le_add_of_nonneg_right (Int.natCast_nonneg d)
  | ask t r => exact askStep_inv h t r
  | reply t b => exact replyStep_inv h t b
  | commit t =>
    obtain ⟨hstaged, hwaiting⟩ := hended (w.store (w.seen t)) t rfl
    exact h.next ⟨List.Subset.refl _, le_refl _⟩ (fun x hx => .inl ⟨t, hx⟩)
      (fun t' x hx => .inl (hstaged t' x hx)) (fun t' c hc => .inl (hwaiting t' c hc))
      fun x hx => .inl hx
  | rollback t =>
    obtain ⟨hstaged, hwaiting⟩ := hended w t rfl
    exact h.next ⟨List.Subset.refl _, le_refl _⟩
      (fun x hx => .inl ⟨t, List.mem_append_right _ hx⟩)
      (fun t' x hx => .inl (hstaged t' x hx)) (fun t' c hc => .inl (hwaiting t' c hc))
      fun x hx => .inl hx

omit [DecidableEq κ] in
theorem inv_start (now : ℤ) : Inv s (World.start now : World ρ κ β ν) :=
  ⟨nofun, fun _ => nofun, fun _ => nofun, nofun⟩

/-- Whatever the interleaving, a call returns what the source answered to a request of the
    same key: to its own, or to one that started less than a lifetime ago. -/
theorem returned_fresh (now : ℤ) (ops : List (Op ρ β)) :
    ∀ x ∈ (run (step s) (World.start now) ops).returned,
      ∃ a, Fresh s (run (step s) (World.start now) ops) x a :=
  (run_induction step_inv (inv_start now) ops).returned

/-! ## Economy -/

/-- The transaction fetches the key or has an uncommitted write to it. -/
def Txn.Uses (s : Source ρ κ β ν) (x : Txn ρ κ ν) (k : κ) : Prop :=
  (∃ c ∈ x.waiting, s.key c.request = k) ∨ ∃ y ∈ x.staged, y.1 = k

variable (s)

/-- No transaction starts a call for a key that another one is at. -/
def Alone (w : World ρ κ β ν) : Op ρ β → Prop
  | .ask t r => ∀ t', t' ≠ t → ¬ (w.txns t').Uses s (s.key r)
  | _ => True

/-- Any two writes of a key, the newer one first, are a lifetime apart. -/
def Spaced (l : List (κ × Entry ν)) : Prop :=
  l.Pairwise fun newer older =>
    newer.1 = older.1 → older.2.expiresAt + s.ttl ≤ newer.2.expiresAt

/-- The writes that a transaction sees are spaced, its open call started when none of them
    was live, and no two transactions are at one key. -/
structure Economical (w : World ρ κ β ν) : Prop where
  spaced : ∀ t, Spaced s (w.seen t)
  lapsed : ∀ t, ∀ c ∈ (w.txns t).waiting, ∀ y ∈ w.seen t, y.1 = s.key c.request →
    y.2.expiresAt ≤ c.startedAt
  apart : ∀ t t', t ≠ t' → ∀ k, (w.txns t).Uses s k → ¬ (w.txns t').Uses s k

variable {s}

omit [DecidableEq κ] in
theorem spaced_cons {x : κ × Entry ν} {l : List (κ × Entry ν)} :
    Spaced s (x :: l) ↔
      (∀ y ∈ l, x.1 = y.1 → y.2.expiresAt + s.ttl ≤ x.2.expiresAt) ∧ Spaced s l :=
  List.pairwise_cons

/-- Where no row of a key is live, no write to it is. -/
theorem lapsed_of_live {w : World ρ κ β ν} {t : ℕ} {k : κ} (h : Spaced s (w.seen t))
    (hl : w.live t k = none) : ∀ y ∈ w.seen t, y.1 = k → y.2.expiresAt ≤ w.now := by
  unfold World.live at hl
  generalize w.seen t = l at h hl
  induction l with
  | nil => exact nofun
  | cons x l ih =>
    obtain ⟨hx, hl'⟩ := spaced_cons.mp h
    rw [List.lookup_cons] at hl
    intro y hy hyk
    by_cases hk : k = x.1
    · -- `x` is the row; the older writes ended before it
      subst hk
      have hexp : x.2.expiresAt ≤ w.now := by simpa using hl
      rcases List.mem_cons.mp hy with rfl | hy
      · exact hexp
      · have hold := hx y hy hyk.symm
        have hpos := s.ttl_pos
        omega
    · have hne : (k == x.1) = false := by simpa using hk
      rw [hne] at hl
      rcases List.mem_cons.mp hy with rfl | hy
      · exact absurd hyk.symm hk
      · exact ih hl' hl y hy hyk

omit [DecidableEq κ] in
/-- Two lists of writes to different keys are spaced together. -/
theorem Spaced.append {l l' base : List (κ × Entry ν)} (h : Spaced s (l ++ base))
    (h' : Spaced s (l' ++ base)) (hne : ∀ x ∈ l, ∀ y ∈ l', x.1 ≠ y.1) :
    Spaced s (l ++ (l' ++ base)) := by
  obtain ⟨hl, -, hlb⟩ := List.pairwise_append.mp h
  refine List.pairwise_append.mpr ⟨hl, h', fun x hx y hy => ?_⟩
  rcases List.mem_append.mp hy with hy | hy
  · exact fun heq => absurd heq (hne x hx y hy)
  · exact hlb x hx y hy

omit [DecidableEq κ] in
/-- A transaction that uses no key more than before, over the same table. -/
theorem Economical.shrink {w w' : World ρ κ β ν} (h : Economical s w)
    (hstored : w'.stored = w.stored)
    (hstaged : ∀ t, (w'.txns t).staged = (w.txns t).staged ∨ (w'.txns t).staged = [])
    (hwaiting : ∀ t, ∀ c ∈ (w'.txns t).waiting, c ∈ (w.txns t).waiting) : Economical s w' := by
  have hseen : ∀ t, List.Sublist (w'.seen t) (w.seen t) := by
    intro t
    unfold World.seen
    rw [hstored]
    rcases hstaged t with heq | heq
    · rw [heq]
    · rw [heq]
      exact List.sublist_append_right _ _
  have huses : ∀ t k, (w'.txns t).Uses s k → (w.txns t).Uses s k := by
    rintro t k (⟨c, hc, hk⟩ | ⟨y, hy, hk⟩)
    · exact .inl ⟨c, hwaiting t c hc, hk⟩
    · rcases hstaged t with heq | heq
      · exact .inr ⟨y, heq ▸ hy, hk⟩
      · rw [heq] at hy
        cases hy
  exact ⟨fun t => (h.spaced t).sublist (hseen t),
    fun t c hc y hy hk => h.lapsed t c (hwaiting t c hc) y ((hseen t).subset hy) hk,
    fun t t' hne k hu hu' => h.apart t t' hne k (huses t k hu) (huses t' k hu')⟩

theorem askStep_economical {w : World ρ κ β ν} {t : ℕ} {r : ρ} (h : Economical s w)
    (ha : Alone s w (.ask t r)) : Economical s (askStep s w t r) := by
  rcases askStep_cases s w t r with heq | ⟨e, -, heq⟩ | ⟨hlive, hw, heq⟩ <;> rw [heq]
  · exact h
  · exact h.shrink rfl (fun t => .inl rfl) fun t c hc => hc
  · have hstaged : ∀ t', ((w.setTxn t { w.txns t with waiting := some ⟨r, w.now⟩ }).txns
        t').staged = (w.txns t').staged :=
      forall_update (P := fun t' y => y.staged = (w.txns t').staged) (fun _ => rfl) rfl
    have hseen : ∀ t', (w.setTxn t { w.txns t with waiting := some ⟨r, w.now⟩ }).seen t' =
        w.seen t' := fun t' => congrArg (· ++ w.stored) (hstaged t')
    -- the new call uses its key besides what the transactions used before
    have huses : ∀ t' k, ((w.setTxn t { w.txns t with waiting := some ⟨r, w.now⟩ }).txns
        t').Uses s k → (w.txns t').Uses s k ∨ (t' = t ∧ k = s.key r) := by
      rintro t' k (⟨c, hc, hk⟩ | ⟨y, hy, hk⟩)
      · by_cases htt : t' = t
        · subst htt
          rw [txns_setTxn, Function.update_self] at hc
          cases hc
          exact .inr ⟨rfl, hk.symm⟩
        · rw [txns_setTxn, Function.update_of_ne htt] at hc
          exact .inl (.inl ⟨c, hc, hk⟩)
      · rw [hstaged] at hy
        exact .inl (.inr ⟨y, hy, hk⟩)
    refine ⟨fun t' => ?_, fun t' c hc y hy hk => ?_, fun t₁ t₂ hne k hu hu' => ?_⟩
    · rw [hseen]
      exact h.spaced t'
    · rw [hseen] at hy
      by_cases htt : t' = t
      · subst htt
        rw [txns_setTxn, Function.update_self] at hc
        cases hc
        exact lapsed_of_live (h.spaced t') hlive y hy hk
      · rw [txns_setTxn, Function.update_of_ne htt] at hc
        exact h.lapsed t' c hc y hy hk
    · replace hu := huses t₁ k hu
      replace hu' := huses t₂ k hu'
      rcases hu with hu | ⟨rfl, rfl⟩
      · rcases hu' with hu' | ⟨rfl, rfl⟩
        · exact h.apart t₁ t₂ hne k hu hu'
        · exact ha t₁ hne hu
      · rcases hu' with hu' | ⟨rfl, -⟩
        · exact ha t₂ (Ne.symm hne) hu'
        · exact hne rfl

omit [DecidableEq κ] in
theorem replyStep_economical {w : World ρ κ β ν} (h : Economical s w) (t : ℕ) (b : β) :
    Economical s (replyStep s w t b) := by
  unfold replyStep
  cases hw : (w.txns t).waiting with
  | none => exact h
  | some call =>
    dsimp only
    cases hp : s.parse b with
    | none =>
      refine h.shrink rfl ?_ ?_
      · exact forall_update (P := fun t' y => y.staged = (w.txns t').staged ∨ y.staged = [])
          (fun _ => .inl rfl) (.inl rfl)
      · exact forall_update (P := fun t' y => ∀ c ∈ y.waiting, c ∈ (w.txns t').waiting)
          (fun t' c hc => hc) nofun
    | some v =>
      set new : κ × Entry ν := (s.key call.request, ⟨v, call.startedAt + s.ttl⟩) with hnew
      set w' := ((w.answer call b).setTxn t ⟨new :: (w.txns t).staged, none⟩).log call.request v
      have hself : w'.txns t = ⟨new :: (w.txns t).staged, none⟩ := Function.update_self ..
      have hother : ∀ {t'}, t' ≠ t → w'.txns t' = w.txns t' := fun h => Function.update_of_ne h ..
      have hseen : w'.seen t = new :: w.seen t := by
        unfold World.seen
        rw [hself]
        rfl
      have hseen' : ∀ {t'}, t' ≠ t → w'.seen t' = w.seen t' := by
        intro t' ht
        unfold World.seen
        rw [hother ht]
        rfl
      -- the transaction was at the key of its call before
      have huses : ∀ t' k, (w'.txns t').Uses s k → (w.txns t').Uses s k := by
        intro t' k hu
        by_cases htt : t' = t
        · subst htt
          rw [hself] at hu
          rcases hu with ⟨c, hc, -⟩ | ⟨y, hy, hk⟩
          · cases hc
          · rcases List.mem_cons.mp hy with rfl | hy
            · exact .inl ⟨call, hw, hk⟩
            · exact .inr ⟨y, hy, hk⟩
        · rwa [hother htt] at hu
      refine ⟨fun t' => ?_, fun t' c hc y hy hk => ?_,
        fun t₁ t₂ hne k hu hu' => h.apart t₁ t₂ hne k (huses t₁ k hu) (huses t₂ k hu')⟩
      · by_cases htt : t' = t
        · subst htt
          rw [hseen]
          refine spaced_cons.mpr ⟨fun y hy hk => ?_, h.spaced t'⟩
          have hle := h.lapsed t' call hw y hy hk.symm
          exact Int.add_le_add_right hle s.ttl
        · rw [hseen' htt]
          exact h.spaced t'
      · by_cases htt : t' = t
        · subst htt
          rw [hself] at hc
          cases hc
        · rw [hother htt] at hc
          rw [hseen' htt] at hy
          exact h.lapsed t' c hc y hy hk

omit [DecidableEq κ] in
/-- A commit passes on what the transaction saw. -/
theorem commit_economical {w : World ρ κ β ν} (h : Economical s w) (t : ℕ) :
    Economical s ((w.store (w.seen t)).setTxn t Txn.empty) := by
  set w' := (w.store (w.seen t)).setTxn t Txn.empty
  have hself : w'.txns t = Txn.empty := Function.update_self ..
  have hother : ∀ {t'}, t' ≠ t → w'.txns t' = w.txns t' := fun h => Function.update_of_ne h ..
  have hseen : w'.seen t = w.seen t := by
    unfold World.seen
    rw [hself]
    rfl
  have hseen' : ∀ {t'}, t' ≠ t → w'.seen t' = (w.txns t').staged ++ w.seen t := by
    intro t' ht
    unfold World.seen
    rw [hother ht]
    rfl
  have huses : ∀ t' k, (w'.txns t').Uses s k → (w.txns t').Uses s k := by
    intro t' k hu
    by_cases htt : t' = t
    · subst htt
      rw [hself] at hu
      rcases hu with ⟨c, hc, -⟩ | ⟨y, hy, -⟩
      · cases hc
      · cases hy
    · rwa [hother htt] at hu
  refine ⟨fun t' => ?_, fun t' c hc y hy hk => ?_,
    fun t₁ t₂ hne k hu hu' => h.apart t₁ t₂ hne k (huses t₁ k hu) (huses t₂ k hu')⟩
  · by_cases htt : t' = t
    · subst htt
      rw [hseen]
      exact h.spaced t'
    · rw [hseen' htt]
      refine (h.spaced t').append (h.spaced t) fun x hx y hy heq => ?_
      exact h.apart t' t htt y.1 (.inr ⟨x, hx, heq⟩) (.inr ⟨y, hy, rfl⟩)
  · by_cases htt : t' = t
    · subst htt
      rw [hself] at hc
      cases hc
    · rw [hother htt] at hc
      rw [hseen' htt] at hy
      rcases List.mem_append.mp hy with hy | hy
      · exact h.lapsed t' c hc y (List.mem_append_left _ hy) hk
      · rcases List.mem_append.mp hy with hy | hy
        · exact absurd (.inr ⟨y, hy, hk⟩) (h.apart t' t htt _ (.inl ⟨c, hc, rfl⟩))
        · exact h.lapsed t' c hc y (List.mem_append_right _ hy) hk

/-- The steps keep the stored answers apart while no two transactions are at one key. -/
theorem step_economical (w : World ρ κ β ν) (o : Op ρ β) (h : Economical s w)
    (ha : Alone s w o) : Economical s (step s w o) := by
  cases o with
  | tick d => exact h.shrink rfl (fun t => .inl rfl) fun t c hc => hc
  | ask t r => exact askStep_economical h ha
  | reply t b => exact replyStep_economical h t b
  | commit t => exact commit_economical h t
  | rollback t =>
    refine h.shrink rfl ?_ ?_
    · exact forall_update (P := fun t' y => y.staged = (w.txns t').staged ∨ y.staged = [])
        (fun _ => .inl rfl) (.inr rfl)
    · exact forall_update (P := fun t' y => ∀ c ∈ y.waiting, c ∈ (w.txns t').waiting)
        (fun t' c hc => hc) nofun

omit [DecidableEq κ] in
theorem economical_start (now : ℤ) : Economical s (World.start now : World ρ κ β ν) := by
  refine ⟨fun t => List.Pairwise.nil, fun t => nofun, fun t t' _ k hu _ => ?_⟩
  rcases hu with ⟨c, hc, -⟩ | ⟨y, hy, -⟩
  · cases hc
  · cases hy

/-- When no two transactions fetch a key at the same time, the stored answers of a key are a
    lifetime apart. -/
theorem stored_spaced (now : ℤ) {ops : List (Op ρ β)}
    (h : AllSteps (step s) (Alone s) (World.start now) ops) :
    Spaced s (run (step s) (World.start now) ops).stored := by
  have hend := (allStates_of_allSteps step_economical (economical_start now) h).last
  exact (hend.spaced 0).sublist (List.sublist_append_right _ _)

/-! ## Calls one after another -/

/-- A call in a transaction of its own, and the time until the next one. -/
structure Visit (ρ β : Type) where
  txn : ℕ
  request : ρ
  reply : β
  commits : Bool
  pause : ℕ

def Visit.ops (v : Visit ρ β) : List (Op ρ β) :=
  [.ask v.txn v.request, .reply v.txn v.reply,
    if v.commits then .commit v.txn else .rollback v.txn, .tick v.pause]

/-- Every transaction but `t` is empty. -/
def IdleBut (t : ℕ) (w : World ρ κ β ν) : Prop := ∀ t', t' ≠ t → w.txns t' = Txn.empty

omit [DecidableEq κ] in
theorem IdleBut.setTxn {t : ℕ} {w : World ρ κ β ν} (h : IdleBut t w) (x : Txn ρ κ ν) :
    IdleBut t (w.setTxn t x) := fun t' ht => (Function.update_of_ne ht _ _).trans (h t' ht)

theorem IdleBut.askStep {t : ℕ} {w : World ρ κ β ν} (h : IdleBut t w) (r : ρ) :
    IdleBut t (askStep s w t r) := by
  rcases askStep_cases s w t r with heq | ⟨e, -, heq⟩ | ⟨-, -, heq⟩ <;> rw [heq]
  · exact h
  · exact h
  · exact h.setTxn _

omit [DecidableEq κ] in
theorem IdleBut.replyStep {t : ℕ} {w : World ρ κ β ν} (h : IdleBut t w) (b : β) :
    IdleBut t (replyStep s w t b) := by
  unfold ReadThrough.replyStep
  cases (w.txns t).waiting with
  | none => exact h
  | some call =>
    dsimp only
    cases s.parse b with
    | none => exact IdleBut.setTxn (w := w.answer call b) h _
    | some v => exact IdleBut.setTxn (w := w.answer call b) h _

/-- Calls one after another never meet at a key. -/
theorem alone_visits {w : World ρ κ β ν} (h : ∀ t, w.txns t = Txn.empty)
    (visits : List (Visit ρ β)) :
    AllSteps (step s) (Alone s) w (visits.flatMap Visit.ops) := by
  induction visits generalizing w with
  | nil => exact trivial
  | cons v visits ih =>
    have hasked : IdleBut v.txn (askStep s w v.txn v.request) :=
      IdleBut.askStep (fun t' _ => h t') v.request
    have hreplied := hasked.replyStep (s := s) v.reply
    have hfirst : Alone s w (.ask v.txn v.request) := by
      intro t' _ hu
      rw [h t'] at hu
      rcases hu with ⟨c, hc, -⟩ | ⟨y, hy, -⟩
      · cases hc
      · cases hy
    -- the transaction has ended when the next call starts
    have hend (w' : World ρ κ β ν) (hw' : IdleBut v.txn w') (t : ℕ) :
        (w'.setTxn v.txn Txn.empty).txns t = Txn.empty := by
      by_cases ht : t = v.txn
      · subst ht
        exact Function.update_self ..
      · exact (Function.update_of_ne ht ..).trans (hw' t ht)
    rw [List.flatMap_cons]
    refine ⟨hfirst, trivial, ?_, trivial, ih ?_⟩
    · cases v.commits <;> exact trivial
    · cases v.commits with
      | true => exact hend (World.store _ _) hreplied
      | false => exact hend _ hreplied

end ServiceLib.ReadThrough
