import TempleConsign.Lib.Run
import TempleConsign.Lib.Store

/-!
# Transactions at READ COMMITTED

A database that runs any number of transactions at isolation level READ
COMMITTED. A transaction executes one statement after another. Each statement
sees the committed state with the transaction's own writes over it. A statement
that locks rows waits while another transaction holds one of them, and goes on
with what is committed by then; the locks are kept until the end. The writes
become visible to the others at the commit.

`Program` says which statement comes next: it is the code between the
statements, and what it has read so far is in the program point `τ`. Any
transaction can also be rolled back at any time (`abort`): by an exception, a
lost connection or a deadlock.

Results:
* `rcStep_cases`: what an event does.
* `rcStep_inv`: an invariant of the committed state, with what each transaction
  knows about it, from one condition for each kind of statement.
* `committed_iff`: a run keeps a property of the committed state exactly when
  every commit meets its condition.
* `clockedStep_inv`: the same with a clock, and conditions of all statements.
-/

namespace ServiceLib

/-- The next statement of a transaction. -/
inductive Stmt (σ κ τ : Type)
  /-- Lock these rows, write, and go on. -/
  | goOn (locks : List κ) (write : σ → σ) (next : τ)
  | commit
  | rollback

/-- Transactional code: `ρ` are the calls and `τ` the program points. -/
structure Program (σ κ ρ τ : Type) where
  entry : ρ → τ
  stmt : τ → σ → Stmt σ κ τ

/-- A transaction in progress: the rows it has locked and its writes so far. -/
structure Txn (σ κ τ : Type) where
  point : τ
  locks : List κ
  write : σ → σ

structure Rc (σ κ τ : Type) where
  committed : σ
  txns : Store (Txn σ κ τ)

inductive RcOp (ρ : Type)
  | start (call : ρ)
  /-- The next statement of transaction `t`, or its wait for a lock. -/
  | exec (t : ℕ)
  | abort (t : ℕ)

variable {σ κ ρ τ : Type} [DecidableEq κ]

/-- Some other transaction holds one of the rows. -/
def Rc.blocked (x : Rc σ κ τ) (t : ℕ) (rows : List κ) : Bool :=
  x.txns.exists? fun u a => u ≠ t && rows.any (· ∈ a.locks)

def Rc.init (s : σ) : Rc σ κ τ := ⟨s, Store.empty⟩

/-- The transaction at its beginning. -/
def Program.begin (p : Program σ κ ρ τ) (call : ρ) : Txn σ κ τ := ⟨p.entry call, [], id⟩

/-- The statement that `a` executes next on the committed state `s`. -/
def Program.next (p : Program σ κ ρ τ) (s : σ) (a : Txn σ κ τ) : Stmt σ κ τ :=
  p.stmt a.point (a.write s)

/-- The transaction after a statement. -/
def Txn.goOn (a : Txn σ κ τ) (locks : List κ) (write : σ → σ) (next : τ) : Txn σ κ τ :=
  ⟨next, a.locks ++ locks, write ∘ a.write⟩

def rcStep (p : Program σ κ ρ τ) (x : Rc σ κ τ) : RcOp ρ → Rc σ κ τ
  | .start call => { x with txns := x.txns.create (p.begin call) }
  | .abort t => { x with txns := x.txns.delete t }
  | .exec t =>
    match x.txns.get? t with
    | none => x
    | some a =>
      match p.next x.committed a with
      | .goOn locks write next =>
        if x.blocked t locks then x
        else { x with txns := x.txns.modify t fun a => a.goOn locks write next }
      | .commit => ⟨a.write x.committed, x.txns.delete t⟩
      | .rollback => { x with txns := x.txns.delete t }

theorem Rc.blocked_eq_false_iff {x : Rc σ κ τ} {t : ℕ} {rows : List κ} :
    x.blocked t rows = false ↔
      ∀ u a, u ≠ t → x.txns.get? u = some a → ∀ k ∈ rows, k ∉ a.locks := by
  unfold Rc.blocked
  rw [← Bool.not_eq_true, Store.exists?_iff]
  simp only [Bool.and_eq_true, decide_eq_true_eq, List.any_eq_true, not_exists, not_and]
  exact ⟨fun h u a hu ha k hk hmem => h u a ha hu k hk hmem,
    fun h u a ha hu k hk hmem => h u a hu ha k hk hmem⟩

/-! ## What an event does -/

/-- The committed state stays and one transaction may begin, end or go on; or a
    transaction commits. -/
inductive RcMove (p : Program σ κ ρ τ) (x : Rc σ κ τ) : RcOp ρ → Rc σ κ τ → Prop
  | start (call : ρ) : RcMove p x (.start call) { x with txns := x.txns.create (p.begin call) }
  | stop {o : RcOp ρ} (t : ℕ) : RcMove p x o { x with txns := x.txns.delete t }
  | wait {o : RcOp ρ} : RcMove p x o x
  | goOn {t : ℕ} {a : Txn σ κ τ} {locks : List κ} {write : σ → σ} {next : τ}
    (ha : x.txns.get? t = some a) (hs : p.next x.committed a = .goOn locks write next)
    (hfree : x.blocked t locks = false) :
    RcMove p x (.exec t) { x with txns := x.txns.modify t fun a => a.goOn locks write next }
  | commit {t : ℕ} {a : Txn σ κ τ} (ha : x.txns.get? t = some a)
    (hs : p.next x.committed a = .commit) :
    RcMove p x (.exec t) ⟨a.write x.committed, x.txns.delete t⟩

theorem rcStep_cases (p : Program σ κ ρ τ) (x : Rc σ κ τ) (o : RcOp ρ) :
    RcMove p x o (rcStep p x o) := by
  cases o with
  | start call => exact .start call
  | abort t => exact .stop t
  | exec t =>
    cases ha : x.txns.get? t with
    | none =>
      simp only [rcStep, ha]
      exact .wait
    | some a =>
      cases hs : p.next x.committed a with
      | goOn locks write next =>
        cases hb : x.blocked t locks with
        | true =>
          simp only [rcStep, ha, hs, hb, if_true]
          exact .wait
        | false =>
          simp only [rcStep, ha, hs, hb, Bool.false_eq_true, if_false]
          exact .goOn ha hs hb
      | commit =>
        simp only [rcStep, ha, hs]
        exact .commit ha hs
      | rollback =>
        simp only [rcStep, ha, hs]
        exact .stop t

/-- The committed state that a commit leaves. -/
theorem rcStep_commit {p : Program σ κ ρ τ} {x : Rc σ κ τ} {t : ℕ} {a : Txn σ κ τ}
    (ha : x.txns.get? t = some a) (hs : p.next x.committed a = .commit) :
    (rcStep p x (.exec t)).committed = a.write x.committed := by
  simp only [rcStep, ha, hs]

/-! ## A transaction alone -/

/-- `a` is the only transaction, under key `t`, on the committed state `s`. -/
structure Alone (x : Rc σ κ τ) (s : σ) (t : ℕ) (a : Txn σ κ τ) : Prop where
  committed : x.committed = s
  here : x.txns.get? t = some a
  only : ∀ u b, x.txns.get? u = some b → u = t

theorem alone_start (p : Program σ κ ρ τ) (s : σ) (call : ρ) :
    Alone (rcStep p (Rc.init s) (.start call)) s 0 (p.begin call) where
  committed := rfl
  here := Store.get?_create_self _ _
  only := by
    intro u b hb
    simp only [rcStep, Rc.init] at hb
    rw [Store.get?_create] at hb
    split_ifs at hb with hu
    · exact hu
    · rw [Store.get?_empty] at hb
      cases hb

/-- A transaction alone never waits. -/
theorem Alone.goOn {p : Program σ κ ρ τ} {x : Rc σ κ τ} {s : σ} {t : ℕ} {a : Txn σ κ τ}
    (h : Alone x s t a) {locks : List κ} {write : σ → σ} {next : τ}
    (hs : p.next s a = .goOn locks write next) :
    Alone (rcStep p x (.exec t)) s t (a.goOn locks write next) := by
  have hb : x.blocked t locks = false := by
    rw [Rc.blocked_eq_false_iff]
    intro u b hu hb
    exact absurd (h.only u b hb) hu
  have hs' := hs
  rw [← h.committed] at hs'
  have he : rcStep p x (.exec t) =
      { x with txns := x.txns.modify t fun a => a.goOn locks write next } := by
    simp only [rcStep, h.here, hs', hb, Bool.false_eq_true, if_false]
  rw [he]
  refine ⟨h.committed, by rw [Store.get?_modify_self, h.here]; rfl, ?_⟩
  intro u b hu
  rw [Store.get?_modify] at hu
  split_ifs at hu with hut
  · exact hut
  · exact h.only u b hu

theorem Alone.commit {p : Program σ κ ρ τ} {x : Rc σ κ τ} {s : σ} {t : ℕ} {a : Txn σ κ τ}
    (h : Alone x s t a) (hs : p.next s a = .commit) :
    rcStep p x (.exec t) = ⟨a.write s, x.txns.delete t⟩ := by
  have hs' := hs
  rw [← h.committed] at hs'
  simp only [rcStep, h.here, hs']
  rw [h.committed]

theorem Alone.rollback {p : Program σ κ ρ τ} {x : Rc σ κ τ} {s : σ} {t : ℕ} {a : Txn σ κ τ}
    (h : Alone x s t a) (hs : p.next s a = .rollback) :
    rcStep p x (.exec t) = ⟨s, x.txns.delete t⟩ := by
  have hs' := hs
  rw [← h.committed] at hs'
  simp only [rcStep, h.here, hs']
  rw [h.committed]

/-- A transaction that has ended executes nothing. -/
theorem rcStep_ended (p : Program σ κ ρ τ) (s : σ) (txns : Store (Txn σ κ τ)) (t : ℕ) :
    rcStep p ⟨s, txns.delete t⟩ (.exec t) = ⟨s, txns.delete t⟩ := by
  have hnone : (txns.delete t).get? t = none := by
    rw [Store.get?_delete, if_pos rfl]
  simp only [rcStep, hnone]

/-! ## Invariants -/

/-- The condition `K` of every commit. -/
def AtCommit (p : Program σ κ ρ τ) (K : σ → Txn σ κ τ → Prop) (x : Rc σ κ τ) : RcOp ρ → Prop
  | .exec t => ∀ a, x.txns.get? t = some a → p.next x.committed a = .commit → K x.committed a
  | _ => True

/-- `I` is kept by the commits that meet `K`, and `Ok` says what a transaction
    knows about the committed state: it learns it from its own statements and
    the commits of the others leave it true. -/
structure TxnRule (p : Program σ κ ρ τ) (I : σ → Prop) (Ok K : σ → Txn σ κ τ → Prop) :
    Prop where
  start : ∀ s call, I s → Ok s (p.begin call)
  goOn : ∀ s a locks write next, I s → Ok s a → p.next s a = .goOn locks write next →
    Ok s (a.goOn locks write next)
  commit : ∀ s a, I s → Ok s a → p.next s a = .commit → K s a → I (a.write s)
  frame : ∀ s a b, I s → Ok s a → p.next s a = .commit → K s a → Ok s b →
    (∀ k ∈ a.locks, k ∉ b.locks) → Ok (a.write s) b

/-- The condition `K` of every statement that is executed, and does not wait. -/
def AtStmt (p : Program σ κ ρ τ) (K : σ → Txn σ κ τ → Prop) (x : Rc σ κ τ) : RcOp ρ → Prop
  | .exec t => ∀ a, x.txns.get? t = some a →
      (∀ locks write next, p.next x.committed a = .goOn locks write next →
        x.blocked t locks = false) →
      K x.committed a
  | _ => True

/-- `TxnRule` where every statement meets `K`. -/
structure StmtRule (p : Program σ κ ρ τ) (I : σ → Prop) (Ok K : σ → Txn σ κ τ → Prop) :
    Prop where
  start : ∀ s call, I s → Ok s (p.begin call)
  goOn : ∀ s a locks write next, I s → Ok s a → p.next s a = .goOn locks write next → K s a →
    Ok s (a.goOn locks write next)
  commit : ∀ s a, I s → Ok s a → p.next s a = .commit → K s a → I (a.write s)
  frame : ∀ s a b, I s → Ok s a → p.next s a = .commit → K s a → Ok s b →
    (∀ k ∈ a.locks, k ∉ b.locks) → Ok (a.write s) b

/-- No two transactions hold one lock. -/
def Apart (a b : Txn σ κ τ) : Prop := ∀ k ∈ a.locks, k ∉ b.locks

omit [DecidableEq κ] in
theorem Apart.symm {a b : Txn σ κ τ} (h : Apart a b) : Apart b a :=
  fun k hb ha => h k ha hb

structure RcInv (I : σ → Prop) (Ok : σ → Txn σ κ τ → Prop) (x : Rc σ κ τ) : Prop where
  committed : I x.committed
  knows : ∀ t a, x.txns.get? t = some a → Ok x.committed a
  apart : x.txns.Pairwise Apart

variable {p : Program σ κ ρ τ} {I P : σ → Prop} {Ok K : σ → Txn σ κ τ → Prop} {x : Rc σ κ τ}

omit [DecidableEq κ] in
theorem rcInv_init {s : σ} (hs : I s) : RcInv I Ok (Rc.init s : Rc σ κ τ) where
  committed := hs
  knows := by
    intro t a ha
    unfold Rc.init at ha
    rw [Store.get?_empty] at ha
    cases ha
  apart := Store.pairwise_empty

omit [DecidableEq κ] in
theorem RcInv.delete (h : RcInv I Ok x) (t : ℕ) :
    RcInv I Ok { x with txns := x.txns.delete t } where
  committed := h.committed
  knows := by
    intro u a ha
    rw [Store.get?_delete] at ha
    split_ifs at ha
    exact h.knows u a ha
  apart := h.apart.delete t

/-- The statements that meet `K` keep the invariant. -/
theorem rcStep_keeps (hr : StmtRule p I Ok K) (x : Rc σ κ τ) (o : RcOp ρ) (h : RcInv I Ok x)
    (hk : AtStmt p K x o) : RcInv I Ok (rcStep p x o) := by
  have hm := rcStep_cases p x o
  generalize rcStep p x o = x' at hm
  cases hm with
  | start call =>
    refine ⟨h.committed, ?_, ?_⟩
    · intro t a ha
      rw [Store.get?_create] at ha
      split_ifs at ha
      · cases ha
        exact hr.start _ call h.committed
      · exact h.knows t a ha
    · rw [Store.pairwise_create_iff (fun _ _ => Apart.symm) h.apart]
      intro _ _ _ k hmem
      cases hmem
  | stop t => exact h.delete t
  | wait => exact h
  | @goOn t a locks write next ha hs hfree =>
    have hK : K x.committed a := by
      apply hk a ha
      intro locks' write' next' hs'
      obtain ⟨rfl, -, -⟩ := Stmt.goOn.inj (hs.symm.trans hs')
      exact hfree
    refine ⟨h.committed, ?_, ?_⟩
    · intro u b hb
      rw [Store.get?_modify] at hb
      split_ifs at hb with hu
      · rw [hu, ha] at hb
        cases hb
        exact hr.goOn _ a locks write next h.committed (h.knows t a ha) hs hK
      · exact h.knows u b hb
    · rw [Store.pairwise_modify_iff (fun _ _ => Apart.symm) ha h.apart]
      intro u b hu hb k hmem
      obtain hmem | hmem := List.mem_append.mp hmem
      · exact h.apart t u a b (Ne.symm hu) ha hb k hmem
      · exact Rc.blocked_eq_false_iff.mp hfree u b hu hb k hmem
  | @commit t a ha hs =>
    have hok := h.knows t a ha
    have hK : K x.committed a := by
      apply hk a ha
      intro locks write next hs'
      rw [hs] at hs'
      cases hs'
    refine ⟨hr.commit _ a h.committed hok hs hK, ?_, h.apart.delete t⟩
    intro u b hb
    rw [Store.get?_delete] at hb
    split_ifs at hb with hu
    exact hr.frame _ a b h.committed hok hs hK (h.knows u b hb) (h.apart t u a b (Ne.symm hu) ha hb)

omit [DecidableEq κ] in
/-- A condition of the commits is one of the statements. -/
theorem TxnRule.toStmtRule (hr : TxnRule p I Ok K) :
    StmtRule p I Ok fun s a => p.next s a = .commit → K s a where
  start := hr.start
  goOn := fun s a locks write next hs ha hn _ => hr.goOn s a locks write next hs ha hn
  commit := fun s a hs ha hn hK => hr.commit s a hs ha hn (hK hn)
  frame := fun s a b hs ha hn hK hb hd => hr.frame s a b hs ha hn (hK hn) hb hd

/-- The statements keep the invariant, and so do the commits that meet `K`. -/
theorem rcStep_inv (hr : TxnRule p I Ok K) (x : Rc σ κ τ) (o : RcOp ρ) (h : RcInv I Ok x)
    (hk : AtCommit p K x o) : RcInv I Ok (rcStep p x o) := by
  refine rcStep_keeps hr.toStmtRule x o h ?_
  cases o with
  | exec t => exact fun a ha _ hn => hk a ha hn
  | _ => trivial

/-- A run keeps `P` of the committed state exactly when every commit meets `K`. -/
theorem committed_iff (hr : TxnRule p I Ok K) (hP : ∀ s, I s → P s)
    (hK : ∀ s a, I s → Ok s a → p.next s a = .commit → P (a.write s) → K s a) {s : σ} (hs : I s)
    (ops : List (RcOp ρ)) :
    AllStates (rcStep p) (fun x => P x.committed) (Rc.init s) ops ↔
      AllSteps (rcStep p) (AtCommit p K) (Rc.init s) ops := by
  apply allStates_iff_of_inv (I := RcInv I Ok) (rcStep_inv hr)
  · exact fun x hx => hP _ hx.committed
  · intro x o hx hp
    cases o with
    | exec t =>
      intro a ha hc
      rw [rcStep_commit ha hc] at hp
      exact hK _ a hx.committed (hx.knows t a ha) hc hp
    | _ => trivial
  · exact rcInv_init hs

/-! ## A clock -/

/-- The database and the clock that the code reads between the statements. -/
structure Clocked (σ κ τ : Type) where
  now : ℤ
  db : Rc σ κ τ

inductive ClockedOp (ρ : Type)
  | tick (elapsed : ℕ)
  | db (op : RcOp ρ)

def clockedStep (p : ℤ → Program σ κ ρ τ) (x : Clocked σ κ τ) : ClockedOp ρ → Clocked σ κ τ
  | .tick elapsed => { x with now := x.now + elapsed }
  | .db op => { x with db := rcStep (p x.now) x.db op }

/-- The condition of the statements at their time. -/
def ClockedAtStmt (p : ℤ → Program σ κ ρ τ) (K : ℤ → σ → Txn σ κ τ → Prop)
    (x : Clocked σ κ τ) : ClockedOp ρ → Prop
  | .tick _ => True
  | .db op => AtStmt (p x.now) (K x.now) x.db op

/-- The invariant at the time of the clock. -/
def ClockedInv (I : ℤ → σ → Prop) (Ok : ℤ → σ → Txn σ κ τ → Prop) (x : Clocked σ κ τ) : Prop :=
  RcInv (I x.now) (Ok x.now) x.db

/-- The rule of the statements at every time, and what time does not take away. -/
structure ClockedRule (p : ℤ → Program σ κ ρ τ) (I : ℤ → σ → Prop)
    (Ok K : ℤ → σ → Txn σ κ τ → Prop) : Prop where
  stmt : ∀ now, StmtRule (p now) (I now) (Ok now) (K now)
  later : ∀ now later s, now ≤ later → I now s → I later s
  knowsLater : ∀ now later s a, now ≤ later → Ok now s a → Ok later s a

/-- Time and the statements that meet `K` keep the invariant. -/
theorem clockedStep_inv {p : ℤ → Program σ κ ρ τ} {I : ℤ → σ → Prop}
    {Ok K : ℤ → σ → Txn σ κ τ → Prop} (hr : ClockedRule p I Ok K) (x : Clocked σ κ τ)
    (o : ClockedOp ρ) (h : ClockedInv I Ok x) (hk : ClockedAtStmt p K x o) :
    ClockedInv I Ok (clockedStep p x o) := by
  cases o with
  | tick elapsed =>
    have hle : x.now ≤ x.now + elapsed := by omega
    exact ⟨hr.later _ _ _ hle h.committed,
      fun t a ha => hr.knowsLater _ _ _ _ hle (h.knows t a ha), h.apart⟩
  | db op => exact rcStep_keeps (hr.stmt x.now) x.db op h hk

end ServiceLib
