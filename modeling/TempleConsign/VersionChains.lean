import Mathlib.Logic.Relation
import TempleConsign.CatalogConstraints

/-!
# Version chains of prompts and rules

`update_inspection_prompt` and `update_red_flag_rule` refuse a row that is superseded
already. `import_from_payload` reads the current rows once, before its loop, and supersedes
the row of a label for every entry whose body differs from it: two such entries of one
label give the row two successors.

Results:
* `Chain.Sound.linear_iff_functional`: a table that every write has kept sound is linear
  exactly when no row has two successors.
* `syncAll_chain`: what an import does to a table with versions.
* `chains_linear_iff`: in every state of a run the chains are linear and superseded rows
  stay as they are, exactly when no import supersedes a row twice.
-/

namespace TempleConsign.Catalog

open ServiceLib

variable {env : CatalogEnv} {db db' : CatalogDb} {β : Type} {c c' : Chain β}

/-! ## Statement -/

/-- `b` is the successor of `a`. -/
def Chain.Link (c : Chain β) (a b : ℕ) : Prop := (a, b) ∈ c.links

/-- A row has at most one successor, with the next version, and one row of its lineage is
    current. -/
structure Chain.Linear (c : Chain β) : Prop where
  oneSuccessor : ∀ a b b', c.Link a b → c.Link a b' → b = b'
  nextVersion : ∀ a b, c.Link a b →
    ∃ p q, c.rows.get? a = some p ∧ c.rows.get? b = some q ∧ q.version = p.version + 1
  oneCurrent : ∀ id p, c.rows.get? id = some p →
    ∃! x, Relation.ReflTransGen c.Link id x ∧ ∃ q, c.rows.get? x = some q ∧ q.replacedAt = none

/-- The superseded rows of `c` are the same in `c'`. -/
def Chain.Frozen (c c' : Chain β) : Prop :=
  ∀ id p, c.rows.get? id = some p → p.replacedAt ≠ none → c'.rows.get? id = some p

def CatalogDb.Linear (db : CatalogDb) : Prop := db.prompts.Linear ∧ db.rules.Linear

def CatalogDb.Frozen (db db' : CatalogDb) : Prop :=
  db.prompts.Frozen db'.prompts ∧ db.rules.Frozen db'.rules

/-- In every state of the run the chains are linear, and a row that is superseded in one
    state is the same in every later one. -/
def LinearRun (env : CatalogEnv) (ops : List CatalogOp) : Prop :=
  AllStates (CatalogDb.step env) CatalogDb.Linear .empty ops ∧
    ∀ pre post rest, ops = pre ++ post ++ rest →
      (run (CatalogDb.step env) .empty pre).Frozen (run (CatalogDb.step env) .empty (pre ++ post))

/-- The body of the entry differs from the current row of its label. -/
def Changes (env : CatalogEnv) (C : Collection β) (index : String → Option (ℕ × VersionedRow β))
    (e : Entry) (id : ℕ) : Prop :=
  ∃ k curr, e.key env "label" = some k ∧ k ≠ "" ∧ index k = some (id, curr) ∧
    C.differs curr.columns.body e = some true

/-- No two entries differ from the same row. -/
def ChangesOnce (env : CatalogEnv) (C : Collection β)
    (index : String → Option (ℕ × VersionedRow β)) (entries : List Entry) : Prop :=
  entries.Pairwise fun e e' => ∀ id, ¬ (Changes env C index e id ∧ Changes env C index e' id)

/-- An import that is accepted has no two entries that differ from the same current prompt
    or rule of the category. -/
def SupersedesOnce (env : CatalogEnv) (db : CatalogDb) (op : CatalogOp) : Prop :=
  ∀ order now actor payload, op = .importCategory order now actor payload →
    (∃ r db', Svc.Returns (importCategory env order now actor payload) db r db') →
    ∀ id cat, Store.scalarOneOrNone (db.categories.select (isCurrentOf payload.slug)) =
        some (some (id, cat)) →
      ChangesOnce env (promptCollection env) (byLabel env order.prompts id db.prompts.rows)
        payload.inspectionPrompts ∧
      ChangesOnce env (ruleCollection env) (byLabel env order.rules id db.rules.rows)
        payload.redFlagRules

/-! ## What every write keeps -/

/-- A link goes to a later row with the next version, and the rows with a successor are
    those that are superseded. -/
structure Chain.Sound (c : Chain β) : Prop where
  link : ∀ a b, c.Link a b → a < b ∧
    ∃ p q, c.rows.get? a = some p ∧ c.rows.get? b = some q ∧ q.version = p.version + 1
  superseded : ∀ id p, c.rows.get? id = some p → (p.replacedAt ≠ none ↔ ∃ b, c.Link id b)

/-- No row has two successors. -/
def Chain.Functional (c : Chain β) : Prop := ∀ a b b', c.Link a b → c.Link a b' → b = b'

theorem Chain.Sound.lt_next (h : c.Sound) {a b : ℕ} (hlink : c.Link a b) :
    a < c.rows.next ∧ b < c.rows.next := by
  obtain ⟨-, p, q, hp, hq, -⟩ := h.link a b hlink
  exact ⟨Store.get?_lt hp, Store.get?_lt hq⟩

/-- The lineage of a row has one current row, its end. -/
theorem Chain.Sound.existsUnique_current (h : c.Sound) (hone : c.Functional) {id : ℕ}
    {p : VersionedRow β} (hget : c.rows.get? id = some p) :
    ∃! x, Relation.ReflTransGen c.Link id x ∧
      ∃ q, c.rows.get? x = some q ∧ q.replacedAt = none := by
  -- a link goes up, so the rest of the lineage is shorter
  induction hn : c.rows.next - id using Nat.strong_induction_on generalizing id p with
  | _ n ih =>
    by_cases hopen : p.replacedAt = none
    · have hend : ∀ b, ¬ c.Link id b := fun b hlink =>
        (h.superseded id p hget).mpr ⟨b, hlink⟩ hopen
      refine ⟨id, ⟨.refl, p, hget, hopen⟩, ?_⟩
      rintro x ⟨hx, -⟩
      rcases Relation.ReflTransGen.cases_head hx with rfl | ⟨b, hlink, -⟩
      · rfl
      · exact absurd hlink (hend b)
    · obtain ⟨b, hlink⟩ := (h.superseded id p hget).mp hopen
      obtain ⟨hlt, _, q, -, hq, -⟩ := h.link id b hlink
      have := Store.get?_lt hq
      obtain ⟨x, ⟨hx, hcurrent⟩, hunique⟩ := ih (c.rows.next - b) (by omega) hq rfl
      refine ⟨x, ⟨hx.head hlink, hcurrent⟩, ?_⟩
      rintro y ⟨hy, r, hr, hropen⟩
      rcases Relation.ReflTransGen.cases_head hy with rfl | ⟨b', hlink', hy⟩
      · cases hget.symm.trans hr
        exact absurd hropen hopen
      · obtain rfl := hone id b b' hlink hlink'
        exact hunique y ⟨hy, r, hr, hropen⟩

theorem Chain.Sound.linear_iff_functional (h : c.Sound) : c.Linear ↔ c.Functional :=
  ⟨fun hlinear => hlinear.oneSuccessor, fun hone =>
    { oneSuccessor := hone
      nextVersion := fun a b hlink => (h.link a b hlink).2
      oneCurrent := fun _ _ hget => h.existsUnique_current hone hget }⟩

/-! ## Writes -/

theorem Chain.Sound.add (h : c.Sound) (categoryId : ℕ) (columns : Labeled β) (active : Bool) :
    (c.add categoryId columns active).Sound where
  link a b hlink := by
    obtain ⟨hlt, p, q, hp, hq, hversion⟩ := h.link a b hlink
    exact ⟨hlt, p, q, Store.get?_create_of_some hp, Store.get?_create_of_some hq, hversion⟩
  superseded id p hget := by
    rw [Chain.add, Store.get?_create] at hget
    split at hget
    · next hid =>
      cases hget
      refine ⟨fun hreplaced => absurd rfl hreplaced, fun ⟨b, hlink⟩ => ?_⟩
      have := (h.lt_next hlink).1
      omega
    · exact h.superseded id p hget

theorem Chain.get?_setActive (id : ℕ) (active : Bool) {k : ℕ} {p : VersionedRow β}
    (hget : c.rows.get? k = some p) :
    ∃ p', (c.setActive id active).rows.get? k = some p' ∧ p'.version = p.version ∧
      p'.replacedAt = p.replacedAt ∧ (k ≠ id → p' = p) := by
  rw [Chain.setActive, Store.get?_modify]
  split
  · next hk =>
    rw [← hk, hget]
    exact ⟨_, rfl, rfl, rfl, fun hne => absurd rfl hne⟩
  · exact ⟨p, hget, rfl, rfl, fun _ => rfl⟩

theorem Chain.Sound.setActive (h : c.Sound) (id : ℕ) (active : Bool) :
    (c.setActive id active).Sound where
  link a b hlink := by
    obtain ⟨hlt, p, q, hp, hq, hversion⟩ := h.link a b hlink
    obtain ⟨p', hp', hv, -⟩ := Chain.get?_setActive id active hp
    obtain ⟨q', hq', hv', -⟩ := Chain.get?_setActive id active hq
    exact ⟨hlt, p', q', hp', hq', by rw [hv', hv, hversion]⟩
  superseded k p hget := by
    rw [Chain.setActive, Store.get?_modify] at hget
    split at hget
    · next hk =>
      obtain ⟨q, hq, rfl⟩ := Option.map_eq_some_iff.mp hget
      exact h.superseded k q (hk ▸ hq)
    · exact h.superseded k p hget

/-- The rows after a row was superseded. -/
theorem Chain.get?_supersede (now : ℤ) (id : ℕ) (existing : VersionedRow β)
    (columns : Labeled β) (active : Bool) {k : ℕ} {p : VersionedRow β}
    (hget : c.rows.get? k = some p) :
    ∃ p', (c.supersede now id existing columns active).rows.get? k = some p' ∧
      p'.version = p.version ∧ (k = id → p'.replacedAt ≠ none) ∧ (k ≠ id → p' = p) := by
  have hlt := Store.get?_lt hget
  rw [Chain.supersede, Store.get?_create, Store.modify_next, if_neg (by omega), Store.get?_modify]
  split
  · next hk =>
    rw [← hk, hget]
    exact ⟨_, rfl, rfl, fun _ => by simp, fun hne => absurd rfl hne⟩
  · next hk => exact ⟨p, hget, rfl, fun heq => absurd heq hk, fun _ => rfl⟩

theorem Chain.get?_supersede_next {now : ℤ} {id : ℕ} {existing : VersionedRow β}
    {columns : Labeled β} {active : Bool} :
    (c.supersede now id existing columns active).rows.get? c.rows.next =
      some ⟨⟨existing.categoryId, columns, active⟩, existing.version + 1, none⟩ := by
  rw [Chain.supersede, Store.get?_create, Store.modify_next, if_pos rfl]

theorem Chain.link_supersede {now : ℤ} {id a b : ℕ} {existing : VersionedRow β}
    {columns : Labeled β} {active : Bool} :
    (c.supersede now id existing columns active).Link a b ↔
      c.Link a b ∨ a = id ∧ b = c.rows.next := by
  simp [Chain.Link, Chain.supersede]

/-- `existing` may have been read before other writes to the row. -/
theorem Chain.Sound.supersede (h : c.Sound) {id : ℕ} {p existing : VersionedRow β}
    (hget : c.rows.get? id = some p) (hversion : existing.version = p.version) (now : ℤ)
    (columns : Labeled β) (active : Bool) :
    (c.supersede now id existing columns active).Sound where
  link a b hlink := by
    rcases Chain.link_supersede.mp hlink with hlink | ⟨rfl, rfl⟩
    · obtain ⟨hlt, q, r, hq, hr, hnext⟩ := h.link a b hlink
      obtain ⟨q', hq', hv, -⟩ := Chain.get?_supersede now id existing columns active hq
      obtain ⟨r', hr', hv', -⟩ := Chain.get?_supersede now id existing columns active hr
      exact ⟨hlt, q', r', hq', hr', by rw [hv', hv, hnext]⟩
    · obtain ⟨p', hp', hv, -⟩ := Chain.get?_supersede now _ existing columns active hget
      exact ⟨Store.get?_lt hget, p', _, hp', Chain.get?_supersede_next, by rw [hv, ← hversion]⟩
  superseded k q hq := by
    simp only [Chain.link_supersede, exists_or]
    rw [Chain.supersede, Store.get?_create, Store.modify_next, Store.get?_modify] at hq
    split_ifs at hq with hk hid
    · cases hq
      refine ⟨fun hreplaced => absurd rfl hreplaced, ?_⟩
      rintro (⟨b, hlink⟩ | ⟨b, heq, -⟩)
      · have := (h.lt_next hlink).1
        omega
      · have := Store.get?_lt hget
        omega
    · obtain ⟨r, hr, rfl⟩ := Option.map_eq_some_iff.mp hq
      exact ⟨fun _ => .inr ⟨_, hid, rfl⟩, fun _ => by simp⟩
    · rw [h.superseded k q hq]
      exact ⟨.inl, fun hor => hor.resolve_right fun ⟨_, heq, _⟩ => hid heq⟩

/-- The chains stay linear when the row had no successor. -/
theorem Chain.Sound.functional_supersede (h : c.Sound) {now : ℤ} {id : ℕ}
    {existing : VersionedRow β} {columns : Labeled β} {active : Bool} :
    (c.supersede now id existing columns active).Functional ↔
      c.Functional ∧ ∀ b, ¬ c.Link id b := by
  simp only [Chain.Functional, Chain.link_supersede]
  constructor
  · intro hone
    refine ⟨fun a b b' hb hb' => hone a b b' (.inl hb) (.inl hb'), fun b hb => ?_⟩
    have := hone id b _ (.inl hb) (.inr ⟨rfl, rfl⟩)
    have := (h.lt_next hb).2
    omega
  · rintro ⟨hone, hend⟩ a b b' (hb | ⟨rfl, rfl⟩) (hb' | ⟨hid, rfl⟩)
    · exact hone a b b' hb hb'
    · exact absurd (hid ▸ hb) (hend b)
    · exact absurd hb' (hend b')
    · rfl

/-! ## Imports -/

section Sync

variable {C : Collection β} {index : String → Option (ℕ × VersionedRow β)} {e : Entry}
  {done entries : List Entry}

theorem Changes.unique {id id' : ℕ} (h : Changes env C index e id)
    (h' : Changes env C index e id') : id = id' := by
  obtain ⟨k, curr, hkey, -, hfound, -⟩ := h
  obtain ⟨k', curr', hkey', -, hfound', -⟩ := h'
  cases hkey.symm.trans hkey'
  cases hfound.symm.trans hfound'
  rfl

theorem not_changes_of_blank (hkey : e.key env "label" = some "") (id : ℕ) :
    ¬ Changes env C index e id := by
  rintro ⟨k, curr, hkey', hne, -⟩
  cases hkey.symm.trans hkey'
  exact hne rfl

theorem not_changes_of_same {k : String} {id : ℕ} {curr : VersionedRow β}
    (hkey : e.key env "label" = some k) (hfound : index k = some (id, curr))
    (hsame : C.differs curr.columns.body e = some false) (id' : ℕ) :
    ¬ Changes env C index e id' := by
  rintro ⟨k', curr', hkey', -, hfound', hdiffers⟩
  cases hkey.symm.trans hkey'
  cases hfound.symm.trans hfound'
  cases hsame.symm.trans hdiffers

theorem not_changes_of_missing {k : String} (hkey : e.key env "label" = some k)
    (hmissing : index k = none) (id : ℕ) : ¬ Changes env C index e id := by
  rintro ⟨k', curr, hkey', -, hfound, -⟩
  cases hkey.symm.trans hkey'
  cases hfound.symm.trans hmissing

theorem changesOnce_append_one :
    ChangesOnce env C index (done ++ [e]) ↔
      ChangesOnce env C index done ∧
        ∀ id, Changes env C index e id → ∀ e' ∈ done, ¬ Changes env C index e' id := by
  simp only [ChangesOnce, List.pairwise_append, List.pairwise_singleton, List.mem_singleton,
    forall_eq, true_and]
  refine and_congr_right fun _ => ⟨fun h id he e' he' hch => h e' he' id ⟨hch, he⟩, ?_⟩
  rintro h e' he' id ⟨hch, he⟩
  exact h id he e' he' hch

/-- The table after the entries `done`: the rows of before are there, those that an entry
    differs from have a successor, and none has two exactly when none was changed twice. -/
structure SyncInv (env : CatalogEnv) (C : Collection β)
    (index : String → Option (ℕ × VersionedRow β)) (c : Chain β) (done : List Entry)
    (acc : Synced β) : Prop where
  sound : acc.chain.Sound
  kept : ∀ id p, c.rows.get? id = some p → ∃ p', acc.chain.rows.get? id = some p' ∧
    p'.version = p.version ∧ (p.replacedAt ≠ none → p' = p)
  links : ∀ id, c.rows.get? id ≠ none → ((∃ b, acc.chain.Link id b) ↔
    (∃ b, c.Link id b) ∨ ∃ e ∈ done, Changes env C index e id)
  functional : acc.chain.Functional ↔ c.Functional ∧ ChangesOnce env C index done

/-- An entry that changes no row and leaves the links alone. -/
theorem SyncInv.skip {acc acc' : Synced β} (h : SyncInv env C index c done acc)
    (hno : ∀ id, ¬ Changes env C index e id) (hsound : acc'.chain.Sound)
    (hlinks : acc'.chain.links = acc.chain.links)
    (hrows : ∀ id p, acc.chain.rows.get? id = some p → acc'.chain.rows.get? id = some p) :
    SyncInv env C index c (done ++ [e]) acc' where
  sound := hsound
  kept id p hp := by
    obtain ⟨p', hp', hrest⟩ := h.kept id p hp
    exact ⟨p', hrows id p' hp', hrest⟩
  links id hid := by
    have hlink : (∃ b, acc'.chain.Link id b) ↔ ∃ b, acc.chain.Link id b := by
      simp only [Chain.Link, hlinks]
    rw [hlink, h.links id hid]
    simp [hno]
  functional := by
    have hfun : acc'.chain.Functional ↔ acc.chain.Functional := by
      simp only [Chain.Functional, Chain.Link, hlinks]
    rw [hfun, h.functional, changesOnce_append_one]
    simp [hno]

theorem syncOne_inv {now : ℤ} {categoryId : ℕ} {acc acc' : Synced β} (hc : c.Sound)
    (hindex : ∀ k id curr, index k = some (id, curr) →
      c.rows.get? id = some curr ∧ curr.replacedAt = none)
    (h : SyncInv env C index c done acc)
    (hone : syncOne env C now categoryId index acc e = some acc') :
    SyncInv env C index c (done ++ [e]) acc' := by
  rcases syncOne_cases hone with ⟨hkey, rfl⟩ | ⟨k, id, curr, hkey, -, hfound, hsame, rfl⟩ |
    ⟨k, id, curr, body, hkey, hne, hfound, hdiffers, -, rfl⟩ |
    ⟨k, label, body, hkey, -, hmissing, -, -, rfl⟩
  · exact h.skip (not_changes_of_blank hkey) h.sound rfl fun _ _ hp => hp
  · exact h.skip (not_changes_of_same hkey hfound hsame) h.sound rfl fun _ _ hp => hp
  · obtain ⟨hget, hopen⟩ := hindex k id curr hfound
    have hch : Changes env C index e id := ⟨k, curr, hkey, hne, hfound, hdiffers⟩
    have hend : ∀ b, ¬ c.Link id b := fun b hlink =>
      (hc.superseded id curr hget).mpr ⟨b, hlink⟩ hopen
    obtain ⟨p, hp, hversion, -⟩ := h.kept id curr hget
    constructor
    · exact h.sound.supersede hp hversion.symm now _ _
    · intro id' q hq
      obtain ⟨q', hq', hv, hsame⟩ := h.kept id' q hq
      obtain ⟨q'', hq'', hv', -, hother⟩ := Chain.get?_supersede now id curr
        ⟨curr.columns.label, body⟩ curr.active hq'
      refine ⟨q'', hq'', hv'.trans hv, fun hreplaced => ?_⟩
      rw [hother ?_, hsame hreplaced]
      rintro rfl
      cases hget.symm.trans hq
      exact hreplaced hopen
    · intro id' hid'
      simp only [Chain.link_supersede, exists_or, h.links id' hid', List.mem_append,
        List.mem_singleton, or_and_right, exists_eq_left, or_assoc]
      refine or_congr_right (or_congr_right ⟨?_, fun hch' => ⟨_, hch'.unique hch, rfl⟩⟩)
      rintro ⟨_, rfl, -⟩
      exact hch
    · rw [h.sound.functional_supersede, h.functional, changesOnce_append_one, and_assoc,
        ← not_exists, h.links id (by rw [hget]; simp)]
      refine and_congr_right fun _ => and_congr_right fun _ => ?_
      constructor
      · intro hno id' hch' e' he' hch''
        cases hch'.unique hch
        exact hno (.inr ⟨e', he', hch''⟩)
      · rintro hno (⟨b, hlink⟩ | ⟨e', he', hch'⟩)
        · exact hend b hlink
        · exact hno id hch e' he' hch'
  · exact h.skip (not_changes_of_missing hkey hmissing) (h.sound.add ..) rfl fun _ _ hp =>
      Store.get?_create_of_some hp

theorem syncAll_chain {now : ℤ} {rank : ℕ → ℕ} {categoryId : ℕ} {acc : Synced β} (hc : c.Sound)
    (hsync : syncAll env C now rank categoryId entries c = some acc) :
    SyncInv env C (byLabel env rank categoryId c.rows) c entries acc := by
  refine foldlM_induction (P := SyncInv env C (byLabel env rank categoryId c.rows) c) ?_ ?_ hsync
  · exact ⟨hc, fun id p hp => ⟨p, hp, rfl, fun _ => rfl⟩, fun id _ => by simp,
      by simp [ChangesOnce]⟩
  · intro done e acc acc' h hone
    refine syncOne_inv hc ?_ h hone
    intro k id curr hfound
    obtain ⟨hget, -, hopen, -⟩ := byLabel_eq_some hfound
    exact ⟨hget, hopen⟩

end Sync

/-! ## Requests -/

variable {categories : Store CategoryRow}

theorem ChainMove.sound (hmove : ChainMove categories c c') (h : c.Sound) : c'.Sound := by
  cases hmove with
  | same hc => rwa [hc]
  | added categoryId columns active _ hc =>
    rw [hc]
    exact h.add categoryId columns active
  | superseded now id existing columns active hget _ hc =>
    rw [hc]
    exact h.supersede hget rfl now columns active
  | toggled id existing active _ _ hc =>
    rw [hc]
    exact h.setActive id active

theorem ChainMove.functional (hmove : ChainMove categories c c') (h : c.Sound)
    (hone : c.Functional) : c'.Functional := by
  cases hmove with
  | same hc => rwa [hc]
  | added categoryId columns active _ hc =>
    rw [hc]
    exact hone
  | superseded now id existing columns active hget hopen hc =>
    rw [hc, h.functional_supersede]
    exact ⟨hone, fun b hlink => (h.superseded id existing hget).mpr ⟨b, hlink⟩ hopen⟩
  | toggled id existing active _ _ hc =>
    rw [hc]
    exact hone

theorem ChainMove.frozen (hmove : ChainMove categories c c') : c.Frozen c' := by
  intro k p hget hreplaced
  cases hmove with
  | same hc => rwa [hc]
  | added categoryId columns active _ hc =>
    rw [hc]
    exact Store.get?_create_of_some hget
  | superseded now id existing columns active hget' hopen hc =>
    rw [hc]
    obtain ⟨p', hp', -, -, hother⟩ := Chain.get?_supersede now id existing columns active hget
    rw [hp', hother]
    rintro rfl
    cases hget'.symm.trans hget
    exact hreplaced hopen
  | toggled id existing active hget' hopen hc =>
    rw [hc]
    obtain ⟨p', hp', -, -, hother⟩ := Chain.get?_setActive id active hget
    rw [hp', hother]
    rintro rfl
    cases hget'.symm.trans hget
    exact hreplaced hopen

/-- A request that is not an accepted import supersedes no row twice. -/
theorem supersedesOnce_or_imported (env : CatalogEnv) (db : CatalogDb) (op : CatalogOp) :
    SupersedesOnce env db op ∨ ∃ order now actor payload r,
      op = .importCategory order now actor payload ∧
        Svc.Returns (importCategory env order now actor payload) db r (db.step env op) := by
  by_cases h : ∃ order now actor payload r, op = .importCategory order now actor payload ∧
      Svc.Returns (importCategory env order now actor payload) db r (db.step env op)
  · exact .inr h
  · refine .inl ?_
    rintro order now actor payload rfl ⟨r, db', hret⟩
    have hvoid : Svc.Returns ((CatalogOp.importCategory order now actor payload).service env) db ()
        db' := Svc.returns_void.mpr ⟨r, hret⟩
    refine absurd ⟨order, now, actor, payload, r, rfl, ?_⟩ h
    rwa [CatalogDb.step_of_returns hvoid]

/-- A request that is not an import that goes through makes one write or none. -/
theorem step_chainMove (env : CatalogEnv) (db : CatalogDb) (op : CatalogOp) :
    (ChainMove db.categories db.prompts (db.step env op).prompts ∧
      ChainMove db.categories db.rules (db.step env op).rules ∧ SupersedesOnce env db op) ∨
    ∃ order now actor payload r, op = .importCategory order now actor payload ∧
      Svc.Returns (importCategory env order now actor payload) db r (db.step env op) := by
  rcases supersedesOnce_or_imported env db op with honce | himported
  · have hmove := step_move env db op
    generalize db.step env op = db' at hmove
    cases hmove with
    | prompts c hmove hdb =>
      subst hdb
      exact .inl ⟨hmove, .same rfl, honce⟩
    | rules c hmove hdb =>
      subst hdb
      exact .inl ⟨.same rfl, hmove, honce⟩
    | imported order now actor payload r hop hret =>
      exact .inr ⟨order, now, actor, payload, r, hop, hret⟩
    | same hdb | created _ _ _ hdb | superseded _ _ _ _ _ _ _ hdb
    | deleted _ _ _ _ _ _ _ hdb | intake _ _ hdb | recordDeleted _ _ hdb =>
      subst hdb
      exact .inl ⟨.same rfl, .same rfl, honce⟩
  · exact .inr himported

/-! ## Runs -/

theorem byLabel_of_new {rank : ℕ → ℕ} {id : ℕ}
    (howned : Owned db.categories (fun p => p.categoryId) c.rows)
    (hnew : db.categories.get? id = none) (k : String) : byLabel env rank id c.rows k = none := by
  rw [byLabel, lastOf_of_nil (unreplacedOf_of_new howned hnew)]

theorem changesOnce_of_none {C : Collection β} {index : String → Option (ℕ × VersionedRow β)}
    (hindex : ∀ k, index k = none) (entries : List Entry) : ChangesOnce env C index entries := by
  refine List.pairwise_of_forall ?_
  rintro e e' id ⟨⟨k, curr, -, -, hfound, -⟩, -⟩
  rw [hindex] at hfound
  cases hfound

/-- What an import that went through did to the two tables with versions. -/
theorem import_chains (h : db.Constraints) (hprompts : db.prompts.Sound)
    (hrules : db.rules.Sound) {order : LoadOrder} {now : ℤ} {actor : ℕ}
    {payload : CategoryExportPayload} {r : CategoryImportResult}
    (hret : Svc.Returns (importCategory env order now actor payload) db r db') :
    ∃ id prompts rules,
      SyncInv env (promptCollection env) (byLabel env order.prompts id db.prompts.rows) db.prompts
        payload.inspectionPrompts prompts ∧ db'.prompts = prompts.chain ∧
      SyncInv env (ruleCollection env) (byLabel env order.rules id db.rules.rows) db.rules
        payload.redFlagRules rules ∧ db'.rules = rules.chain ∧
      (SupersedesOnce env db (.importCategory order now actor payload) ↔
        ChangesOnce env (promptCollection env) (byLabel env order.prompts id db.prompts.rows)
          payload.inspectionPrompts ∧
        ChangesOnce env (ruleCollection env) (byLabel env order.rules id db.rules.rows)
          payload.redFlagRules) := by
  obtain ⟨target, db₁, lists, htarget, hlists, -, hdb'⟩ :=
    returns_importFromPayload.mp (returns_importCategory.mp hret).2
  obtain ⟨-, hp, -, -, hr⟩ := importLists_eq_some.mp hlists
  have hkept : db₁.prompts = db.prompts ∧ db₁.rules = db.rules := by
    rcases returns_findOrCreate.mp htarget with ⟨cat, -, -, rfl⟩ | ⟨-, row, -, -, -, rfl⟩
    · exact ⟨rfl, rfl⟩
    · exact ⟨rfl, rfl⟩
  rw [hkept.1] at hp
  rw [hkept.2] at hr
  refine ⟨target.1, lists.prompts, lists.rules, syncAll_chain hprompts hp, by rw [← hdb']; rfl,
    syncAll_chain hrules hr, by rw [← hdb']; rfl, ?_⟩
  rcases returns_findOrCreate.mp htarget with ⟨cat, hfound, -⟩ | ⟨hnone, row, -, -, htgt, -⟩
  · constructor
    · exact fun honce => honce order now actor payload rfl ⟨r, db', hret⟩ target.1 cat hfound
    · rintro hboth _ _ _ _ ⟨⟩ - id cat' hfound'
      cases hfound.symm.trans hfound'
      exact hboth
  · have hnew : db.categories.get? target.1 = none := by
      rw [htgt]
      exact Store.get?_next _
    constructor
    · exact fun _ => ⟨changesOnce_of_none (byLabel_of_new h.prompts hnew) _,
        changesOnce_of_none (byLabel_of_new h.rules hnew) _⟩
    · rintro - _ _ _ _ ⟨⟩ - id cat' hfound'
      cases hnone.symm.trans hfound'

/-- Both tables with versions are sound. -/
structure CatalogDb.ChainsSound (db : CatalogDb) : Prop where
  constraints : db.Constraints
  prompts : db.prompts.Sound
  rules : db.rules.Sound

theorem SyncInv.frozen {C : Collection β} {index : String → Option (ℕ × VersionedRow β)}
    {entries : List Entry} {acc : Synced β} (h : SyncInv env C index c entries acc) :
    c.Frozen acc.chain := by
  intro id p hget hreplaced
  obtain ⟨p', hp', -, hsame⟩ := h.kept id p hget
  rw [hp', hsame hreplaced]

theorem step_chainsSound (env : CatalogEnv) (h : db.ChainsSound) (op : CatalogOp) :
    (db.step env op).ChainsSound := by
  have hconstraints := step_constraints env h.constraints op
  rcases step_chainMove env db op with ⟨hp, hr, -⟩ | ⟨order, now, actor, payload, r, -, hret⟩
  · exact ⟨hconstraints, hp.sound h.prompts, hr.sound h.rules⟩
  · obtain ⟨_, prompts, rules, hp, hp', hr, hr', -⟩ :=
      import_chains h.constraints h.prompts h.rules hret
    exact ⟨hconstraints, hp' ▸ hp.sound, hr' ▸ hr.sound⟩

theorem step_frozen (env : CatalogEnv) (h : db.ChainsSound) (op : CatalogOp) :
    db.Frozen (db.step env op) := by
  rcases step_chainMove env db op with ⟨hp, hr, -⟩ | ⟨order, now, actor, payload, r, -, hret⟩
  · exact ⟨hp.frozen, hr.frozen⟩
  · obtain ⟨_, prompts, rules, hp, hp', hr, hr', -⟩ :=
      import_chains h.constraints h.prompts h.rules hret
    rw [CatalogDb.Frozen, hp', hr']
    exact ⟨hp.frozen, hr.frozen⟩

theorem CatalogDb.ChainsSound.linear_iff_functional (h : db.ChainsSound) :
    db.Linear ↔ db.prompts.Functional ∧ db.rules.Functional :=
  and_congr h.prompts.linear_iff_functional h.rules.linear_iff_functional

/-- A request keeps the chains linear exactly when it supersedes no row twice. -/
theorem step_linear_iff (h : db.ChainsSound) (hlinear : db.Linear) (op : CatalogOp) :
    (db.step env op).Linear ↔ SupersedesOnce env db op := by
  rw [(step_chainsSound env h op).linear_iff_functional]
  obtain ⟨hpone, hrone⟩ := h.linear_iff_functional.mp hlinear
  rcases step_chainMove env db op with
    ⟨hp, hr, honce⟩ | ⟨order, now, actor, payload, r, rfl, hret⟩
  · exact ⟨fun _ => honce, fun _ => ⟨hp.functional h.prompts hpone, hr.functional h.rules hrone⟩⟩
  · obtain ⟨_, prompts, rules, hp, hp', hr, hr', honce⟩ :=
      import_chains h.constraints h.prompts h.rules hret
    rw [hp', hr', honce, hp.functional, hr.functional]
    simp [hpone, hrone]

theorem chainsSound_empty : CatalogDb.empty.ChainsSound := by
  refine ⟨constraints_empty, ⟨?_, ?_⟩, ⟨?_, ?_⟩⟩
  all_goals simp [CatalogDb.empty, Chain.Link]

theorem linear_empty : CatalogDb.empty.Linear := by
  refine chainsSound_empty.linear_iff_functional.mpr ⟨?_, ?_⟩
  all_goals simp [Chain.Functional, CatalogDb.empty, Chain.Link]

theorem Chain.Frozen.trans {c'' : Chain β} (h : c.Frozen c') (h' : c'.Frozen c'') :
    c.Frozen c'' := fun id p hget hreplaced => h' id p (h id p hget hreplaced) hreplaced

theorem run_frozen (h : db.ChainsSound) (ops : List CatalogOp) :
    db.Frozen (run (CatalogDb.step env) db ops) := by
  induction ops generalizing db with
  | nil => exact ⟨fun _ _ hget _ => hget, fun _ _ hget _ => hget⟩
  | cons op ops ih =>
    have hone := step_frozen env h op
    have hrest := ih (step_chainsSound env h op)
    exact ⟨hone.1.trans hrest.1, hone.2.trans hrest.2⟩

/-- In every state of a run the chains are linear, and superseded rows never change,
    exactly when no import of the run supersedes a row twice. -/
theorem chains_linear_iff (env : CatalogEnv) (ops : List CatalogOp) :
    LinearRun env ops ↔ AllSteps (CatalogDb.step env) (SupersedesOnce env) .empty ops := by
  have hstates : AllStates (CatalogDb.step env) CatalogDb.Linear .empty ops ↔
      AllSteps (CatalogDb.step env) (SupersedesOnce env) .empty ops :=
    allStates_iff_allSteps (I := CatalogDb.ChainsSound) (fun _ op h _ => step_chainsSound env h op)
      (fun _ op h hlinear => step_linear_iff h hlinear op) chainsSound_empty linear_empty ops
  rw [LinearRun, hstates]
  refine and_iff_left fun pre post rest _ => ?_
  rw [run_append]
  exact run_frozen (run_induction (P := CatalogDb.ChainsSound)
    (fun _ op h => step_chainsSound env h op) chainsSound_empty pre) post

/-- An entry for the prompt of `repeatedLabelRun`, with its display order. -/
def oilLeaks (label : String) (displayOrder : ℤ) : Entry :=
  [("label", .str label), ("response_type", .str "yes_no_na"), ("required", .bool true),
    ("display_order", .int displayOrder)]

/-- A category with one prompt, and an import that has the label of it twice. -/
def repeatedLabelRun : List CatalogOp :=
  [.createCategory 1 excavators,
    .addInspectionPrompt 0 ⟨⟨"Oil leaks", by decide, by decide⟩,
      ⟨⟨"yes_no_na", by decide, by decide⟩, true, excavators.displayOrder⟩⟩,
    .importCategory ⟨id, id, id, id, id⟩ 100 1
      { name := "Excavators", slug := "excavators", status := "active", displayOrder := 0
        version := 1, replacedAt := none, components := []
        inspectionPrompts := [oilLeaks "Oil leaks" 1, oilLeaks "oil leaks" 2]
        attachments := [], photoSlots := [], redFlagRules := [] }]

theorem repeated_label_forks_chain : ¬ LinearRun .plain repeatedLabelRun := by
  intro h
  have hlinks : (run (CatalogDb.step .plain) .empty repeatedLabelRun).prompts.links =
      [(0, 1), (0, 2)] := by
    decide +kernel
  have hone := h.1.last.1.oneSuccessor 0 1 2
  rw [Chain.Link, Chain.Link, hlinks] at hone
  exact absurd (hone (by simp) (by simp)) (by decide)

end TempleConsign.Catalog
