import Mathlib.Data.List.Basic
import Mathlib.Logic.Function.Basic
import Mathlib.Tactic.SplitIfs

/-!
# Key rings

Values sealed with the first key of a ring and opened with any of its keys. A ledger says what
such a collection is for: the value last put under each name, with the key that sealed it. A
value is lost while its key is not in the ring.

Results:
* `tryAll_encrypt`: a ring opens exactly what one of its keys sealed.
* `Represents.put`, `Represents.read`: sealed values against the ledger.
-/

namespace ServiceLib.KeyRing

/-- Authenticated encryption under a nonce: only the key that sealed a value opens it. -/
structure Cipher (β μ γ : Type) where
  encrypt : β → ℕ → μ → γ
  decrypt : β → γ → Option μ
  decrypt_encrypt : ∀ b n m, decrypt b (encrypt b n m) = some m
  authentic : ∀ b b' n m, b ≠ b' → decrypt b (encrypt b' n m) = none

/-- The keys in use: the first one seals. -/
structure Keyring (β : Type) where
  primary : β
  older : List β

variable {κ β μ γ : Type}

def Keyring.keys (r : Keyring β) : List β := r.primary :: r.older

/-- The first key that opens the value. -/
def Cipher.tryAll (c : Cipher β μ γ) (r : Keyring β) (x : γ) : Option μ :=
  r.keys.findSome? fun b => c.decrypt b x

theorem tryAll_encrypt [DecidableEq β] (c : Cipher β μ γ) (r : Keyring β) (b : β) (n : ℕ) (m : μ) :
    c.tryAll r (c.encrypt b n m) = if b ∈ r.keys then some m else none := by
  unfold Cipher.tryAll
  induction r.keys with
  | nil => rfl
  | cons b' keys ih =>
    rw [List.findSome?_cons]
    by_cases hb : b' = b
    · subst hb
      rw [c.decrypt_encrypt, if_pos List.mem_cons_self]
    · rw [c.authentic b' b n m hb, ih]
      simp only [List.mem_cons, Ne.symm hb, false_or]

/-! ## The ledger -/

/-- The ring, if there is one, and the last value of each name with the key that sealed it. -/
structure Ledger (κ β μ : Type) where
  ring : Option (Keyring β)
  entries : κ → Option (β × μ)

/-- What reading a name gives. -/
inductive Reading (μ : Type)
  | absent
  | noKeys
  | lost
  | value (m : μ)
  deriving DecidableEq

namespace Ledger

/-- The values stay as they are sealed. -/
def rotate (l : Ledger κ β μ) (ring : Option (Keyring β)) : Ledger κ β μ := { l with ring := ring }

/-- Without keys nothing is put. -/
def put [DecidableEq κ] (l : Ledger κ β μ) (k : κ) (m : μ) : Ledger κ β μ :=
  match l.ring with
  | none => l
  | some r => { l with entries := Function.update l.entries k (some (r.primary, m)) }

def read [DecidableEq β] (l : Ledger κ β μ) (k : κ) : Reading μ :=
  match l.entries k, l.ring with
  | none, _ => .absent
  | some _, none => .noKeys
  | some (b, m), some r => if b ∈ r.keys then .value m else .lost

variable [DecidableEq κ] {l : Ledger κ β μ} {k k' : κ} {m : μ}

@[simp] theorem ring_put : (l.put k m).ring = l.ring := by
  unfold put
  split <;> rfl

theorem entries_put {r : Keyring β} (h : l.ring = some r) :
    (l.put k m).entries k' = if k' = k then some (r.primary, m) else l.entries k' := by
  unfold put
  rw [h]
  exact Function.update_apply ..

/-- An entry was there, or is under the first key of the ring. -/
theorem entries_put_cases {e : β × μ} (h : (l.put k m).entries k' = some e) :
    l.entries k' = some e ∨ ∃ r, l.ring = some r ∧ e.1 = r.primary := by
  cases hr : l.ring with
  | none =>
    unfold put at h
    rw [hr] at h
    exact .inl h
  | some r =>
    rw [entries_put hr] at h
    split_ifs at h
    · cases h
      exact .inr ⟨r, rfl, rfl⟩
    · exact .inl h

theorem entries_put_other (h : k' ≠ k) : (l.put k m).entries k' = l.entries k' := by
  unfold put
  split
  · rfl
  · exact Function.update_of_ne h ..

end Ledger

/-! ## Sealed values -/

/-- Under each name the ledger's value, sealed with its key. -/
def Represents (c : Cipher β μ γ) (values : κ → Option γ) (l : Ledger κ β μ) : Prop :=
  ∀ k, match l.entries k with
    | none => values k = none
    | some (b, m) => ∃ n, values k = some (c.encrypt b n m)

variable {c : Cipher β μ γ} {values values' : κ → Option γ} {l : Ledger κ β μ}

theorem Represents.empty (ring : Option (Keyring β)) :
    Represents c (fun _ : κ => none) ⟨ring, fun _ => none⟩ := fun _ => rfl

theorem Represents.rotate (h : Represents c values l) (ring : Option (Keyring β)) :
    Represents c values (l.rotate ring) := h

/-- A value sealed with the first key of the ring. -/
theorem Represents.put [DecidableEq κ] (h : Represents c values l) {r : Keyring β}
    (hr : l.ring = some r) {k : κ} {m : μ} {n : ℕ}
    (hv : ∀ k', values' k' = if k' = k then some (c.encrypt r.primary n m) else values k') :
    Represents c values' (l.put k m) := by
  intro k'
  rw [Ledger.entries_put hr, hv]
  split_ifs
  · exact ⟨n, rfl⟩
  · exact h k'

/-- What a reader finds under a name. -/
theorem Represents.read [DecidableEq β] (h : Represents c values l) (k : κ) :
    l.read k = match values k, l.ring with
      | none, _ => .absent
      | some _, none => .noKeys
      | some x, some r => (c.tryAll r x).elim .lost .value := by
  unfold Ledger.read
  have hk := h k
  cases he : l.entries k with
  | none =>
    rw [he] at hk
    rw [hk]
  | some e =>
    obtain ⟨b, m⟩ := e
    rw [he] at hk
    obtain ⟨n, hk⟩ := hk
    rw [hk]
    cases l.ring with
    | none => rfl
    | some r =>
      dsimp only
      rw [tryAll_encrypt]
      split_ifs <;> rfl

end ServiceLib.KeyRing
