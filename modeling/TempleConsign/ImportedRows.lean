import TempleConsign.VersionChains

/-!
# The rows that an import leaves

Which rows of a table with versions are current in the category of an import after it:
the rows of before that no entry differs from, and one row for every entry that
supersedes a row or has a new label. An import of the same payload again changes nothing
exactly when each of them agrees with every entry of its label.

Results:
* `syncAll_rows`: the current rows after an import.
* `prompts_match_iff`, `rules_match_iff`: what has to hold before an import for the rows
  to agree with the entries after it.
* `syncAll_fixed`: then the next import leaves the table alone.
-/

namespace TempleConsign.Catalog

open ServiceLib

variable {env : CatalogEnv} {β : Type} {C : Collection β}
  {index : String → Option (ℕ × VersionedRow β)} {c : Chain β} {categoryId : ℕ}
  {e e' : Entry} {done entries : List Entry}

/-- The row is current in the category. -/
def Current (t : Store (VersionedRow β)) (categoryId id : ℕ) (p : VersionedRow β) : Prop :=
  t.get? id = some p ∧ p.categoryId = categoryId ∧ p.replacedAt = none

/-- The entry has the label of the row. -/
def SameLabel (env : CatalogEnv) (e : Entry) (label : Varchar 255) : Prop :=
  e.key env "label" = some (env.keyOf label.text) ∧ env.keyOf label.text ≠ ""

/-- Every current row agrees with the entries of its label. -/
def Matches (env : CatalogEnv) (C : Collection β) (t : Store (VersionedRow β)) (categoryId : ℕ)
    (entries : List Entry) : Prop :=
  ∀ id p, Current t categoryId id p → ∀ e ∈ entries, SameLabel env e p.columns.label →
    C.differs p.columns.body e = some false

/-- The columns of the row that an entry inserts: it differs from the current row of its
    label, or its label is new. -/
inductive Writes (env : CatalogEnv) (C : Collection β)
    (index : String → Option (ℕ × VersionedRow β)) (e : Entry) : Labeled β → Prop
  | successor {k : String} {id : ℕ} {curr : VersionedRow β} {body : β}
    (hkey : e.key env "label" = some k) (hne : k ≠ "") (hfound : index k = some (id, curr))
    (hdiffers : C.differs curr.columns.body e = some true)
    (hbody : C.successor curr.columns.body e = some body) :
    Writes env C index e ⟨curr.columns.label, body⟩
  | fresh {k : String} {label : Varchar 255} {body : β} (hkey : e.key env "label" = some k)
    (hne : k ≠ "") (hmissing : index k = none)
    (hlabel : (e.item "label").bind (PyValue.storeText 255) = some label)
    (hbody : C.fresh e = some body) : Writes env C index e ⟨label, body⟩

theorem Writes.unique {columns columns' : Labeled β} (h : Writes env C index e columns)
    (h' : Writes env C index e columns') : columns = columns' := by
  cases h with
  | successor hkey hne hfound hdiffers hbody =>
    cases h' with
    | successor hkey' _ hfound' _ hbody' =>
      cases hkey.symm.trans hkey'
      cases hfound.symm.trans hfound'
      cases hbody.symm.trans hbody'
      rfl
    | fresh hkey' _ hmissing =>
      cases hkey.symm.trans hkey'
      cases hfound.symm.trans hmissing
  | fresh hkey hne hmissing hlabel hbody =>
    cases h' with
    | successor hkey' _ hfound =>
      cases hkey.symm.trans hkey'
      cases hfound.symm.trans hmissing
    | fresh hkey' _ _ hlabel' hbody' =>
      cases hlabel.symm.trans hlabel'
      cases hbody.symm.trans hbody'
      rfl

/-- The index has current rows of the category under their own labels. -/
def IndexOf (env : CatalogEnv) (t : Store (VersionedRow β)) (categoryId : ℕ)
    (index : String → Option (ℕ × VersionedRow β)) : Prop :=
  ∀ k id p, index k = some (id, p) → Current t categoryId id p ∧ rowKey env p = k

theorem indexOf_byLabel (rank : ℕ → ℕ) : IndexOf env c.rows categoryId
    (byLabel env rank categoryId c.rows) := by
  intro k id p hfound
  obtain ⟨hget, hcat, hopen, hkey⟩ := byLabel_eq_some hfound
  exact ⟨⟨hget, hcat, hopen⟩, hkey⟩

/-- A text that the column cuts keeps its key. -/
theorem storeText_key {field k : String} {n : ℕ} {text : Varchar n}
    (hkey : e.key env field = some k) (hne : k ≠ "")
    (htext : (e.item field).bind (PyValue.storeText n) = some text) : k = env.keyOf text.text := by
  obtain ⟨v, hitem, hstore⟩ := Option.bind_eq_some_iff.mp htext
  have hget : e.get field = v := by
    have hlookup : e.lookup field = some v := hitem
    rw [Entry.get, Entry.getD, hlookup, Option.getD_some]
  cases v with
  | str s =>
    rw [Entry.key, hget] at hkey
    split_ifs at hkey with htruthy
    · rw [CatalogEnv.keyOf, strip_store hstore]
      exact (Option.some.inj hkey).symm
    · exact absurd (Option.some.inj hkey).symm hne
  | _ => simp [PyValue.storeText] at hstore

/-- A row that an entry inserts has its label. -/
theorem Writes.sameLabel {columns : Labeled β} (hindex : IndexOf env c.rows categoryId index)
    (h : Writes env C index e columns) : SameLabel env e columns.label := by
  cases h with
  | successor hkey hne hfound =>
    obtain ⟨-, rfl⟩ := hindex _ _ _ hfound
    exact ⟨hkey, hne⟩
  | fresh hkey hne _ hlabel =>
    obtain rfl := storeText_key hkey hne hlabel
    exact ⟨hkey, hne⟩

/-- The current rows of the category after the entries `done`. -/
structure RowsAfter (env : CatalogEnv) (C : Collection β)
    (index : String → Option (ℕ × VersionedRow β)) (c : Chain β) (categoryId : ℕ)
    (done : List Entry) (acc : Synced β) : Prop where
  next : c.rows.next ≤ acc.chain.rows.next
  current : ∀ id p, Current acc.chain.rows categoryId id p →
    (Current c.rows categoryId id p ∧ ∀ e ∈ done, ¬ Changes env C index e id) ∨
      ∃ e ∈ done, Writes env C index e p.columns
  kept : ∀ id p, Current c.rows categoryId id p → (∀ e ∈ done, ¬ Changes env C index e id) →
    Current acc.chain.rows categoryId id p
  written : ∀ e ∈ done, ∀ columns, Writes env C index e columns →
    ∃ id p, c.rows.next ≤ id ∧ Current acc.chain.rows categoryId id p ∧ p.columns = columns

/-- An entry that writes nothing. -/
theorem RowsAfter.skip {acc : Synced β} (h : RowsAfter env C index c categoryId done acc)
    (hchange : ∀ id, ¬ Changes env C index e id)
    (hwrite : ∀ columns, ¬ Writes env C index e columns) :
    RowsAfter env C index c categoryId (done ++ [e]) acc where
  next := h.next
  current id p hp := by
    rcases h.current id p hp with ⟨hold, hno⟩ | ⟨e', he', hw⟩
    · refine .inl ⟨hold, fun e' he' => ?_⟩
      rcases List.mem_append.mp he' with he' | he'
      · exact hno e' he'
      · rw [List.mem_singleton.mp he']
        exact hchange id
    · exact .inr ⟨e', List.mem_append_left _ he', hw⟩
  kept id p hp hno := h.kept id p hp fun e' he' => hno e' (List.mem_append_left _ he')
  written e' he' columns hw := by
    rcases List.mem_append.mp he' with he' | he'
    · exact h.written e' he' columns hw
    · rw [List.mem_singleton.mp he'] at hw
      exact absurd hw (hwrite columns)

/-- An entry that inserts a row and replaces the row it differs from. -/
theorem RowsAfter.insert {acc acc' : Synced β} {columns : Labeled β} {row : VersionedRow β}
    (h : RowsAfter env C index c categoryId done acc) (hwrites : Writes env C index e columns)
    (hold : ∀ id, Changes env C index e id → id < c.rows.next)
    (hnew : Current acc'.chain.rows categoryId acc.chain.rows.next row)
    (hcolumns : row.columns = columns)
    (hother : ∀ id p, id ≠ acc.chain.rows.next → (Current acc'.chain.rows categoryId id p ↔
      Current acc.chain.rows categoryId id p ∧ ¬ Changes env C index e id)) :
    RowsAfter env C index c categoryId (done ++ [e]) acc' where
  next := by
    have := Store.get?_lt hnew.1
    have := h.next
    omega
  current id p hp := by
    by_cases hid : id = acc.chain.rows.next
    · subst hid
      cases hp.1.symm.trans hnew.1
      exact .inr ⟨e, by simp, hcolumns ▸ hwrites⟩
    · obtain ⟨hcurrent, hno⟩ := (hother id p hid).mp hp
      rcases h.current id p hcurrent with ⟨hbefore, hdone⟩ | ⟨e', he', hw⟩
      · refine .inl ⟨hbefore, fun e' he' => ?_⟩
        rcases List.mem_append.mp he' with he' | he'
        · exact hdone e' he'
        · rwa [List.mem_singleton.mp he']
      · exact .inr ⟨e', List.mem_append_left _ he', hw⟩
  kept id p hp hno := by
    have hcurrent := h.kept id p hp fun e' he' => hno e' (List.mem_append_left _ he')
    have := Store.get?_lt hcurrent.1
    exact (hother id p (by omega)).mpr ⟨hcurrent, hno e (by simp)⟩
  written e' he' columns' hw := by
    rcases List.mem_append.mp he' with he' | he'
    · obtain ⟨id, p, hid, hcurrent, hp⟩ := h.written e' he' columns' hw
      have := Store.get?_lt hcurrent.1
      refine ⟨id, p, hid, (hother id p (by omega)).mpr ⟨hcurrent, fun hch => ?_⟩, hp⟩
      have := hold id hch
      omega
    · rw [List.mem_singleton.mp he'] at hw
      exact ⟨_, row, h.next, hnew, hcolumns.trans (hwrites.unique hw)⟩

theorem current_supersede {t : Chain β} {now : ℤ} {id k : ℕ} {existing p : VersionedRow β}
    {columns : Labeled β} {active : Bool} (hk : k ≠ t.rows.next) :
    Current (t.supersede now id existing columns active).rows categoryId k p ↔
      Current t.rows categoryId k p ∧ k ≠ id := by
  rw [Current, Current, Chain.supersede, Store.get?_create, Store.modify_next, if_neg hk,
    Store.get?_modify]
  split
  · next hid =>
    constructor
    · rintro ⟨hget, -, hopen⟩
      obtain ⟨q, -, rfl⟩ := Option.map_eq_some_iff.mp hget
      cases hopen
    · exact fun h => absurd hid h.2
  · next hid => exact ⟨fun h => ⟨h, hid⟩, fun h => h.1⟩

theorem current_add {t : Chain β} {k : ℕ} {p : VersionedRow β} {columns : Labeled β}
    {active : Bool} (hk : k ≠ t.rows.next) :
    Current (t.add categoryId columns active).rows categoryId k p ↔
      Current t.rows categoryId k p := by
  rw [Current, Current, Chain.add, Store.get?_create, if_neg hk]

theorem RowsAfter.step {now : ℤ} {acc acc' : Synced β}
    (hindex : IndexOf env c.rows categoryId index)
    (h : RowsAfter env C index c categoryId done acc)
    (hone : syncOne env C now categoryId index acc e = some acc') :
    RowsAfter env C index c categoryId (done ++ [e]) acc' := by
  rcases syncOne_cases hone with ⟨hkey, rfl⟩ | ⟨k, id, curr, hkey, -, hfound, hsame, rfl⟩ |
    ⟨k, id, curr, body, hkey, hne, hfound, hdiffers, hbody, rfl⟩ |
    ⟨k, label, body, hkey, hne, hmissing, hlabel, hbody, rfl⟩
  · refine h.skip (not_changes_of_blank hkey) ?_
    rintro _ (⟨hkey', hne, -⟩ | ⟨hkey', hne, -⟩)
    all_goals
      cases hkey.symm.trans hkey'
      exact hne rfl
  · refine h.skip (not_changes_of_same hkey hfound hsame) ?_
    rintro _ (⟨hkey', -, hfound', hdiffers⟩ | ⟨hkey', -, hmissing⟩)
    · cases hkey.symm.trans hkey'
      cases hfound.symm.trans hfound'
      cases hsame.symm.trans hdiffers
    · cases hkey.symm.trans hkey'
      cases hfound.symm.trans hmissing
  · obtain ⟨⟨hget, hcat, -⟩, -⟩ := hindex k id curr hfound
    have hch : Changes env C index e id := ⟨k, curr, hkey, hne, hfound, hdiffers⟩
    refine h.insert (.successor hkey hne hfound hdiffers hbody) ?_
      ⟨Chain.get?_supersede_next, hcat, rfl⟩ rfl ?_
    · intro id' hch'
      rw [hch'.unique hch]
      exact Store.get?_lt hget
    · intro id' p hid'
      rw [current_supersede hid']
      refine and_congr_right fun _ => ⟨fun hne' hch' => hne' (hch'.unique hch), ?_⟩
      rintro hno rfl
      exact hno hch
  · have hno : ∀ id, ¬ Changes env C index e id := not_changes_of_missing hkey hmissing
    refine h.insert (.fresh hkey hne hmissing hlabel hbody) (fun id hch => absurd hch (hno id))
      ⟨Store.get?_create_self _ _, rfl, rfl⟩ rfl fun id p hid => ?_
    rw [current_add hid]
    exact ⟨fun hcurrent => ⟨hcurrent, hno id⟩, fun hcurrent => hcurrent.1⟩

theorem syncAll_rows {now : ℤ} {rank : ℕ → ℕ} {acc : Synced β}
    (hsync : syncAll env C now rank categoryId entries c = some acc) :
    RowsAfter env C (byLabel env rank categoryId c.rows) c categoryId entries acc := by
  refine foldlM_induction
    (P := RowsAfter env C (byLabel env rank categoryId c.rows) c categoryId) ?_ ?_ hsync
  · exact ⟨le_refl _, fun id p hp => .inl ⟨hp, fun e he => absurd he List.not_mem_nil⟩,
      fun id p hp _ => hp, fun e he => absurd he List.not_mem_nil⟩
  · exact fun done e acc acc' h hone => h.step (indexOf_byLabel rank) hone

/-! ## Agreement -/

section Agreement

variable {now : ℤ} {rank : ℕ → ℕ} {acc : Synced β}

/-- What an import found for an entry that it did not refuse. -/
theorem syncAll_accepts (hsync : syncAll env C now rank categoryId entries c = some acc) :
    ∀ e ∈ entries, ∃ k, e.key env "label" = some k ∧ (k ≠ "" →
      (∃ id curr, byLabel env rank categoryId c.rows k = some (id, curr) ∧
        C.differs curr.columns.body e = some false) ∨
      ∃ columns, Writes env C (byLabel env rank categoryId c.rows) e columns) := by
  intro e he
  obtain ⟨acc₁, acc₂, hone⟩ := foldlM_each hsync e he
  rcases syncOne_cases hone with ⟨hkey, -⟩ | ⟨k, id, curr, hkey, -, hfound, hsame, -⟩ |
    ⟨k, id, curr, body, hkey, hne, hfound, hdiffers, hbody, -⟩ |
    ⟨k, label, body, hkey, hne, hmissing, hlabel, hbody, -⟩
  · exact ⟨"", hkey, fun hne => absurd rfl hne⟩
  · exact ⟨k, hkey, fun _ => .inl ⟨id, curr, hfound, hsame⟩⟩
  · exact ⟨k, hkey, fun _ => .inr ⟨_, .successor hkey hne hfound hdiffers hbody⟩⟩
  · exact ⟨k, hkey, fun _ => .inr ⟨_, .fresh hkey hne hmissing hlabel hbody⟩⟩

/-- Only the row of the index is changed. -/
theorem Changes.found {id : ℕ} {p : VersionedRow β} (hindex : IndexOf env c.rows categoryId index)
    (hp : Current c.rows categoryId id p) (h : Changes env C index e id) :
    index (rowKey env p) = some (id, p) ∧ e.key env "label" = some (rowKey env p) ∧
      C.differs p.columns.body e = some true := by
  obtain ⟨k, curr, hkey, -, hfound, hdiffers⟩ := h
  obtain ⟨hcurr, rfl⟩ := hindex k id curr hfound
  cases hcurr.1.symm.trans hp.1
  exact ⟨hfound, hkey, hdiffers⟩

/-- The rows agree with the entries after an import exactly when the other rows of a label
    did before it and the rows that the entries insert do. -/
theorem matches_iff (hsync : syncAll env C now rank categoryId entries c = some acc) :
    Matches env C acc.chain.rows categoryId entries ↔
      (∀ id p, Current c.rows categoryId id p →
        byLabel env rank categoryId c.rows (rowKey env p) ≠ some (id, p) →
        ∀ e ∈ entries, SameLabel env e p.columns.label →
          C.differs p.columns.body e = some false) ∧
      ∀ e ∈ entries, ∀ columns, Writes env C (byLabel env rank categoryId c.rows) e columns →
        ∀ e' ∈ entries, SameLabel env e' columns.label →
          C.differs columns.body e' = some false := by
  have hrows := syncAll_rows hsync
  have hindex : IndexOf env c.rows categoryId _ := indexOf_byLabel rank
  constructor
  · intro hmatch
    constructor
    · intro id p hp hother
      exact hmatch id p (hrows.kept id p hp fun e _ hch => hother (hch.found hindex hp).1)
    · intro e he columns hw
      obtain ⟨id, p, -, hp, rfl⟩ := hrows.written e he columns hw
      exact hmatch id p hp
  · rintro ⟨hothers, hwritten⟩ id p hp e he hlabel
    rcases hrows.current id p hp with ⟨hbefore, hunchanged⟩ | ⟨e', he', hw⟩
    · by_cases hfound : byLabel env rank categoryId c.rows (rowKey env p) = some (id, p)
      · obtain ⟨k, hkey, haccept⟩ := syncAll_accepts hsync e he
        cases hkey.symm.trans hlabel.1
        rcases haccept hlabel.2 with ⟨id', curr, hfound', hsame⟩ | ⟨columns, hw⟩
        · cases hfound.symm.trans hfound'
          exact hsame
        · exfalso
          cases hw with
          | successor hkey' hne hfound' hdiffers =>
            cases hkey.symm.trans hkey'
            cases hfound.symm.trans hfound'
            exact hunchanged e he ⟨_, p, hkey, hne, hfound, hdiffers⟩
          | fresh hkey' _ hmissing =>
            cases hkey.symm.trans hkey'
            cases hfound.symm.trans hmissing
      · exact hothers id p hbefore hfound e he hlabel
    · exact hwritten e' he' p.columns hw e he hlabel

/-- After an import every label of the payload has a current row. -/
theorem syncAll_labels (hsync : syncAll env C now rank categoryId entries c = some acc) :
    ∀ e ∈ entries, ∃ k, e.key env "label" = some k ∧ (k ≠ "" →
      ∃ id p, Current acc.chain.rows categoryId id p ∧ rowKey env p = k) := by
  have hrows := syncAll_rows hsync
  have hindex : IndexOf env c.rows categoryId _ := indexOf_byLabel rank
  have hinserted : ∀ e ∈ entries, ∀ columns,
      Writes env C (byLabel env rank categoryId c.rows) e columns → ∀ k,
      e.key env "label" = some k →
      ∃ id p, Current acc.chain.rows categoryId id p ∧ rowKey env p = k := by
    intro e he columns hw k hkey
    obtain ⟨id, p, -, hp, rfl⟩ := hrows.written e he columns hw
    exact ⟨id, p, hp, Option.some.inj ((hw.sameLabel hindex).1.symm.trans hkey)⟩
  intro e he
  obtain ⟨k, hkey, haccept⟩ := syncAll_accepts hsync e he
  refine ⟨k, hkey, fun hne => ?_⟩
  rcases haccept hne with ⟨id, curr, hfound, -⟩ | ⟨columns, hw⟩
  · obtain ⟨hcurr, rfl⟩ := hindex k id curr hfound
    by_cases hunchanged : ∀ e' ∈ entries,
        ¬ Changes env C (byLabel env rank categoryId c.rows) e' id
    · exact ⟨id, curr, hrows.kept id curr hcurr hunchanged, rfl⟩
    · push Not at hunchanged
      obtain ⟨e', he', hch⟩ := hunchanged
      obtain ⟨-, hkey', hdiffers⟩ := hch.found hindex hcurr
      obtain ⟨k', hk', haccept'⟩ := syncAll_accepts hsync e' he'
      cases hkey'.symm.trans hk'
      rcases haccept' hne with ⟨_, _, hfound', hsame⟩ | ⟨columns, hw⟩
      · cases hfound.symm.trans hfound'
        cases hsame.symm.trans hdiffers
      · exact hinserted e' he' columns hw _ hkey'
  · exact hinserted e he columns hw k hkey

/-- An import whose entries all agree with the rows of their labels changes nothing. -/
theorem syncAll_fixed {t : Chain β} (hmatch : Matches env C t.rows categoryId entries)
    (hlabels : ∀ e ∈ entries, ∃ k, e.key env "label" = some k ∧ (k ≠ "" →
      ∃ id p, Current t.rows categoryId id p ∧ rowKey env p = k)) (now : ℤ) (rank : ℕ → ℕ) :
    syncAll env C now rank categoryId entries t = some ⟨t, [], []⟩ := by
  refine foldlM_fixed fun e he => ?_
  obtain ⟨k, hkey, hrow⟩ := hlabels e he
  rw [syncOne, hkey, Option.bind_eq_bind, Option.bind_some]
  by_cases hne : k = ""
  · rw [if_pos hne]
  rw [if_neg hne]
  obtain ⟨id, p, ⟨hget, hcat, hopen⟩, hk⟩ := hrow hne
  cases hfound : byLabel env rank categoryId t.rows k with
  | none =>
    refine absurd hk (lastOf_eq_none.mp hfound (id, p) ?_)
    exact mem_loaded.mpr (mem_unreplacedOf.mpr ⟨hget, hcat, hopen⟩)
  | some found =>
    obtain ⟨id', curr⟩ := found
    obtain ⟨hcurr, rfl⟩ := indexOf_byLabel rank k id' curr hfound
    simp only [hmatch id' curr hcurr e he ⟨hkey, hne⟩, Option.bind_eq_bind, Option.bind_some,
      Bool.false_eq_true, if_false]

end Agreement

/-! ## Prompts -/

/-- The other current rows of a label, which the index does not have, agree with its
    entries. -/
def OthersAgree (env : CatalogEnv) (C : Collection β)
    (index : String → Option (ℕ × VersionedRow β)) (t : Store (VersionedRow β)) (categoryId : ℕ)
    (entries : List Entry) : Prop :=
  ∀ id p, Current t categoryId id p → index (rowKey env p) ≠ some (id, p) →
    ∀ e ∈ entries, SameLabel env e p.columns.label → C.differs p.columns.body e = some false

/-- The entries of a label all have the same body, one that the columns can hold. -/
def OneBody (env : CatalogEnv) (entries : List Entry) : Prop :=
  ∀ k, k ≠ "" → (∃ e ∈ entries, e.key env "label" = some k) →
    ∃ b, ∀ e ∈ entries, e.key env "label" = some k → (promptCollection env).differs b e = some false

theorem promptDiffers_false_iff {b : PromptBody} :
    (promptCollection env).differs b e = some false ↔
      (PyValue.str b.responseType.text).eq (e.get "response_type") = true ∧
        (PyValue.bool b.required).eq (e.get "required") = true ∧
        (PyValue.int b.displayOrder.value).eq (e.get "display_order") = true := by
  simp [promptCollection, and_assoc]

theorem inherit_of_ne {α : Type} {store : PyValue → Option α} {old : α} {v : PyValue}
    (h : v ≠ .none) : inherit store old v = store v := by
  cases v with
  | none => exact absurd rfl h
  | _ => rfl

/-- A value that is there. -/
theorem item_of_get {field : String} {v : PyValue} (hget : e.get field = v) (hv : v ≠ .none) :
    e.item field = some v ∧ ∀ default, e.getD field default = v := by
  rw [Entry.get, Entry.getD] at hget
  cases hlookup : e.lookup field with
  | none =>
    rw [hlookup] at hget
    exact absurd hget.symm hv
  | some w =>
    rw [hlookup] at hget
    obtain rfl : w = v := hget
    exact ⟨hlookup, fun default => by rw [Entry.getD, hlookup, Option.getD_some]⟩

/-- An entry that agrees with a body inserts that body. -/
theorem promptWrites_eq {index : String → Option (ℕ × VersionedRow PromptBody)}
    {columns : Labeled PromptBody} {b : PromptBody}
    (hw : Writes env (promptCollection env) index e columns)
    (h : (promptCollection env).differs b e = some false) : columns.body = b := by
  obtain ⟨htype, hrequired, horder⟩ := promptDiffers_false_iff.mp h
  have hne : e.get "response_type" ≠ .none ∧ e.get "required" ≠ .none ∧
      e.get "display_order" ≠ .none := by
    refine ⟨?_, ?_, ?_⟩
    all_goals
      intro hnone
      simp [hnone, PyValue.eq, PyValue.number] at htype hrequired horder
  cases hw with
  | successor _ _ _ _ hbody =>
    simp only [promptCollection, inherit_of_ne hne.1, inherit_of_ne hne.2.1,
      inherit_of_ne hne.2.2, storeText_of_eq htype, storeBool_of_eq hrequired,
      Option.bind_eq_bind, Option.bind_some, Option.bind_eq_some_iff, Option.some.injEq] at hbody
    obtain ⟨n, hn, rfl⟩ := hbody
    rw [storeInt_of_eq horder hn]
  | fresh _ _ _ _ hbody =>
    simp only [promptCollection, (item_of_get rfl hne.1).1, (item_of_get rfl hne.2.1).2,
      (item_of_get rfl hne.2.2).2, storeText_of_eq htype, truthy_of_eq hrequired,
      toInt_of_eq env.parseInt horder, Int4.store_value, Option.bind_eq_bind, Option.bind_some,
      Option.some.injEq] at hbody
    exact hbody.symm

theorem prompts_match_iff {c : Chain PromptBody} {now : ℤ} {rank : ℕ → ℕ}
    {acc : Synced PromptBody}
    (hsync : syncAll env (promptCollection env) now rank categoryId entries c = some acc) :
    Matches env (promptCollection env) acc.chain.rows categoryId entries ↔
      OthersAgree env (promptCollection env) (byLabel env rank categoryId c.rows) c.rows categoryId
        entries ∧ OneBody env entries := by
  rw [matches_iff hsync]
  refine and_congr_right fun _ => ?_
  have hindex : IndexOf env c.rows categoryId _ := indexOf_byLabel rank
  constructor
  · rintro hwritten k hne ⟨e, he, hkey⟩
    -- an entry that was written, or a row that they all agree with
    have hof : ∀ e ∈ entries, e.key env "label" = some k → ∀ columns,
        Writes env (promptCollection env) (byLabel env rank categoryId c.rows) e columns →
        ∃ b, ∀ e' ∈ entries, e'.key env "label" = some k →
          (promptCollection env).differs b e' = some false := by
      intro e he hkey columns hw
      refine ⟨columns.body, fun e' he' hkey' => hwritten e he columns hw e' he' ?_⟩
      have hlabel := hw.sameLabel hindex
      cases hkey.symm.trans hlabel.1
      exact ⟨hkey', hlabel.2⟩
    obtain ⟨k', hk', haccept⟩ := syncAll_accepts hsync e he
    cases hkey.symm.trans hk'
    rcases haccept hne with ⟨id, curr, hfound, -⟩ | ⟨columns, hw⟩
    · by_cases hall : ∀ e' ∈ entries, e'.key env "label" = some k →
          (promptCollection env).differs curr.columns.body e' = some false
      · exact ⟨curr.columns.body, hall⟩
      · push Not at hall
        obtain ⟨e', he', hkey', hdiffers⟩ := hall
        obtain ⟨k', hk', haccept'⟩ := syncAll_accepts hsync e' he'
        cases hkey'.symm.trans hk'
        rcases haccept' hne with ⟨_, _, hfound', hsame⟩ | ⟨columns, hw⟩
        · cases hfound.symm.trans hfound'
          exact absurd hsame hdiffers
        · exact hof e' he' hkey' columns hw
    · exact hof e he hkey columns hw
  · intro hone e he columns hw e' he' hlabel
    have hown := hw.sameLabel hindex
    obtain ⟨b, hb⟩ := hone _ hown.2 ⟨e, he, hown.1⟩
    rw [promptWrites_eq hw (hb e he hown.1)]
    exact hb e' he' hlabel.1

/-! ## Rules -/

/-- `dict(v or {}) == dict(e.get("actions") or {})`. -/
def sameActions (env : CatalogEnv) (v : PyValue) (e : Entry) : Bool :=
  match env.asDict v, env.asDict (e.get "actions") with
  | some ours, some theirs => eqEntries ours theirs
  | _, _ => false

/-- The document that the column has after an entry: its own as JSONB gives it back, or
    for `null` that of the row it supersedes. -/
def storedActions (env : CatalogEnv) (curr : Option RuleBody) (e : Entry) : Option PyValue :=
  match curr with
  | some c => inherit env.jsonb c.actions (e.get "actions")
  | none => env.jsonb (if (e.get "actions").truthy then e.get "actions" else .dict [])

/-- What an entry of the label `k` that supersedes `curr`, or is new, has to be like: all
    entries of the label have the same texts, which the columns can hold, a `null` value
    stands for one that is `NULL` already, and the document of the entry is everyone's. -/
def RuleSettles (env : CatalogEnv) (entries : List Entry) (k : String) (curr : Option RuleBody)
    (e : Entry) : Prop :=
  ∃ b : RuleBody, (∀ c, curr = some c → b.conditionValue = none → c.conditionValue = none) ∧
    ∀ e' ∈ entries, e'.key env "label" = some k → sameTexts b e' = true ∧
      ∀ v, storedActions env curr e = some v → sameActions env v e' = true

/-- Every entry that differs from the row of the index, or whose label is new, settles. -/
def RulesSettle (env : CatalogEnv) (index : String → Option (ℕ × VersionedRow RuleBody))
    (entries : List Entry) : Prop :=
  ∀ k, k ≠ "" → ∀ e ∈ entries, e.key env "label" = some k →
    (∀ id curr, index k = some (id, curr) →
      (ruleCollection env).differs curr.columns.body e = some true →
      RuleSettles env entries k (some curr.columns.body) e) ∧
    (index k = none → RuleSettles env entries k none e)

theorem ruleDiffers_false_iff {b : RuleBody} :
    (ruleCollection env).differs b e = some false ↔
      sameTexts b e = true ∧ sameActions env b.actions e = true := by
  by_cases htexts : sameTexts b e = true
  · simp only [ruleCollection, sameActions, htexts, true_and]
    cases env.asDict b.actions <;> cases env.asDict (e.get "actions") <;> simp
  · simp [ruleCollection, htexts]

theorem sameTexts_iff {b : RuleBody} :
    sameTexts b e = true ↔
      e.get "condition_field" = .str b.conditionField.text ∧
        e.get "condition_operator" = .str b.conditionOperator.text ∧
        e.get "condition_value" = nullableText b.conditionValue := by
  have hvalue : (nullableText b.conditionValue).eq (e.get "condition_value") = true ↔
      e.get "condition_value" = nullableText b.conditionValue := by
    cases b.conditionValue with
    | none => cases e.get "condition_value" <;> simp [nullableText, PyValue.eq]
    | some v => exact ⟨eq_str, fun h => by rw [h]; exact eq_str_self _⟩
  rw [sameTexts, Bool.and_eq_true, Bool.and_eq_true, hvalue, and_assoc]
  refine and_congr ⟨eq_str, fun h => ?_⟩ (and_congr_left fun _ => ⟨eq_str, fun h => ?_⟩)
  all_goals
    rw [h]
    exact eq_str_self _

theorem storeText_text {n : ℕ} {text v : Varchar n}
    (h : PyValue.storeText n (.str text.text) = some v) : v = text := by
  simp only [PyValue.storeText, Varchar.store_text, Option.some.injEq] at h
  exact h.symm

theorem sameTexts_of_eq {b body : RuleBody} (hfield : body.conditionField = b.conditionField)
    (hoperator : body.conditionOperator = b.conditionOperator)
    (hvalue : body.conditionValue = b.conditionValue) (e' : Entry) :
    sameTexts body e' = sameTexts b e' := by
  rw [sameTexts, sameTexts, hfield, hoperator, hvalue]

/-- An entry with the texts of `b` inserts the texts of `b`. -/
theorem ruleSuccessor_texts {b curr body : RuleBody} (htexts : sameTexts b e = true)
    (hvalue : b.conditionValue = none → curr.conditionValue = none)
    (hbody : (ruleCollection env).successor curr e = some body) (e' : Entry) :
    sameTexts body e' = sameTexts b e' := by
  obtain ⟨hfield, hoperator, hval⟩ := sameTexts_iff.mp htexts
  simp only [ruleCollection, Option.bind_eq_bind, Option.bind_eq_some_iff,
    Option.some.injEq] at hbody
  obtain ⟨f, hf, o, ho, v, hv, _, -, rfl⟩ := hbody
  rw [hfield, inherit_of_ne (by simp)] at hf
  rw [hoperator, inherit_of_ne (by simp)] at ho
  rw [hval] at hv
  refine sameTexts_of_eq (storeText_text hf) (storeText_text ho) ?_ e'
  cases hb : b.conditionValue with
  | none =>
    rw [hb] at hv
    exact (Option.some.inj hv).symm.trans (hvalue hb)
  | some w =>
    rw [hb] at hv
    simp only [nullableText, inherit, PyValue.storeText, Varchar.store_text, Option.map_some,
      Option.some.injEq] at hv
    exact hv.symm

theorem ruleFresh_texts {b body : RuleBody} (htexts : sameTexts b e = true)
    (hbody : (ruleCollection env).fresh e = some body) (e' : Entry) :
    sameTexts body e' = sameTexts b e' := by
  obtain ⟨hfield, hoperator, hval⟩ := sameTexts_iff.mp htexts
  simp only [ruleCollection, Option.bind_eq_bind, Option.bind_eq_some_iff,
    Option.some.injEq] at hbody
  obtain ⟨f, ⟨vf, hvf, hf⟩, o, ⟨vo, hvo, ho⟩, v, hv, _, -, rfl⟩ := hbody
  cases hvf.symm.trans (item_of_get hfield (by simp)).1
  cases hvo.symm.trans (item_of_get hoperator (by simp)).1
  rw [hval] at hv
  refine sameTexts_of_eq (storeText_text hf) (storeText_text ho) ?_ e'
  cases hb : b.conditionValue with
  | none =>
    rw [hb] at hv
    exact (Option.some.inj hv).symm
  | some w =>
    rw [hb] at hv
    simp only [nullableText, PyValue.nullable, PyValue.storeText, Varchar.store_text,
      Option.map_some, Option.some.injEq] at hv
    exact hv.symm

/-- A `null` value is inherited. -/
theorem ruleSuccessor_value {curr body : RuleBody}
    (hbody : (ruleCollection env).successor curr e = some body)
    (hnone : body.conditionValue = none) : curr.conditionValue = none := by
  simp only [ruleCollection, Option.bind_eq_bind, Option.bind_eq_some_iff,
    Option.some.injEq] at hbody
  obtain ⟨_, -, _, -, v, hv, _, -, rfl⟩ := hbody
  cases hnone
  by_cases hnull : e.get "condition_value" = .none
  · rw [hnull] at hv
    exact Option.some.inj hv
  · rw [inherit_of_ne hnull, Option.map_eq_some_iff] at hv
    obtain ⟨_, -, hv⟩ := hv
    cases hv

theorem ruleSuccessor_actions {curr body : RuleBody}
    (hbody : (ruleCollection env).successor curr e = some body) :
    storedActions env (some curr) e = some body.actions := by
  simp only [ruleCollection, Option.bind_eq_bind, Option.bind_eq_some_iff,
    Option.some.injEq] at hbody
  obtain ⟨_, -, _, -, _, -, v, hv, rfl⟩ := hbody
  exact hv

theorem ruleFresh_actions {body : RuleBody} (hbody : (ruleCollection env).fresh e = some body) :
    storedActions env none e = some body.actions := by
  simp only [ruleCollection, Option.bind_eq_bind, Option.bind_eq_some_iff,
    Option.some.injEq] at hbody
  obtain ⟨_, -, _, -, _, -, v, hv, rfl⟩ := hbody
  exact hv

/-- The row that an entry inserts agrees with the entries of its label exactly when the
    entry settles. -/
theorem ruleSettles_iff {k : String} {curr : Option RuleBody} {body : RuleBody}
    (hactions : storedActions env curr e = some body.actions)
    (hvalue : ∀ c, curr = some c → body.conditionValue = none → c.conditionValue = none)
    (htexts : ∀ b, sameTexts b e = true →
      (∀ c, curr = some c → b.conditionValue = none → c.conditionValue = none) →
      ∀ e', sameTexts body e' = sameTexts b e')
    (he : e ∈ entries) (hkey : e.key env "label" = some k) :
    (∀ e' ∈ entries, e'.key env "label" = some k →
      (ruleCollection env).differs body e' = some false) ↔ RuleSettles env entries k curr e := by
  simp only [ruleDiffers_false_iff]
  constructor
  · intro h
    refine ⟨body, hvalue, fun e' he' hkey' => ⟨(h e' he' hkey').1, fun v hv => ?_⟩⟩
    cases hactions.symm.trans hv
    exact (h e' he' hkey').2
  · rintro ⟨b, hb, h⟩ e' he' hkey'
    rw [htexts b (h e he hkey).1 hb e']
    exact ⟨(h e' he' hkey').1, (h e' he' hkey').2 _ hactions⟩

theorem ruleSuccessor_settles {index : String → Option (ℕ × VersionedRow RuleBody)}
    {c : Chain RuleBody} {k : String} {id : ℕ} {curr : VersionedRow RuleBody} {body : RuleBody}
    (hindex : IndexOf env c.rows categoryId index) (he : e ∈ entries)
    (hkey : e.key env "label" = some k) (hne : k ≠ "") (hfound : index k = some (id, curr))
    (hbody : (ruleCollection env).successor curr.columns.body e = some body) :
    (∀ e' ∈ entries, SameLabel env e' curr.columns.label →
      (ruleCollection env).differs body e' = some false) ↔
      RuleSettles env entries k (some curr.columns.body) e := by
  obtain ⟨-, rfl⟩ := hindex _ _ _ hfound
  rw [← ruleSettles_iff (ruleSuccessor_actions hbody)
    (fun c hc => by cases hc; exact ruleSuccessor_value hbody)
    (fun b hb hvalue => ruleSuccessor_texts hb (hvalue _ rfl) hbody) he hkey]
  exact ⟨fun h e' he' hkey' => h e' he' ⟨hkey', hne⟩, fun h e' he' hlabel => h e' he' hlabel.1⟩

theorem ruleFresh_settles {k : String} {label : Varchar 255} {body : RuleBody} (he : e ∈ entries)
    (hkey : e.key env "label" = some k) (hne : k ≠ "")
    (hlabel : (e.item "label").bind (PyValue.storeText 255) = some label)
    (hbody : (ruleCollection env).fresh e = some body) :
    (∀ e' ∈ entries, SameLabel env e' label →
      (ruleCollection env).differs body e' = some false) ↔ RuleSettles env entries k none e := by
  obtain rfl := storeText_key hkey hne hlabel
  rw [← ruleSettles_iff (ruleFresh_actions hbody) (fun c hc => by cases hc)
    (fun b hb _ => ruleFresh_texts hb hbody) he hkey]
  exact ⟨fun h e' he' hkey' => h e' he' ⟨hkey', hne⟩, fun h e' he' hlabel => h e' he' hlabel.1⟩

theorem rules_match_iff {c : Chain RuleBody} {now : ℤ} {rank : ℕ → ℕ} {acc : Synced RuleBody}
    (hsync : syncAll env (ruleCollection env) now rank categoryId entries c = some acc) :
    Matches env (ruleCollection env) acc.chain.rows categoryId entries ↔
      OthersAgree env (ruleCollection env) (byLabel env rank categoryId c.rows) c.rows categoryId
        entries ∧ RulesSettle env (byLabel env rank categoryId c.rows) entries := by
  rw [matches_iff hsync]
  refine and_congr_right fun _ => ?_
  have hindex : IndexOf env c.rows categoryId (byLabel env rank categoryId c.rows) :=
    indexOf_byLabel rank
  constructor
  · intro hwritten k hne e he hkey
    obtain ⟨k', hk', haccept⟩ := syncAll_accepts hsync e he
    cases hkey.symm.trans hk'
    rcases haccept hne with ⟨_, _, hfound, hsame⟩ | ⟨columns, hw⟩
    · constructor
      · intro id curr hfound' hdiffers
        cases hfound.symm.trans hfound'
        cases hsame.symm.trans hdiffers
      · intro hmissing
        cases hfound.symm.trans hmissing
    · have hagree := hwritten e he columns hw
      cases hw with
      | successor hkey' _ hfound _ hbody =>
        cases hkey.symm.trans hkey'
        constructor
        · intro id curr hfound' _
          cases hfound.symm.trans hfound'
          exact (ruleSuccessor_settles hindex he hkey hne hfound hbody).mp hagree
        · intro hmissing
          cases hfound.symm.trans hmissing
      | fresh hkey' _ hmissing hlabel hbody =>
        cases hkey.symm.trans hkey'
        constructor
        · intro id curr hfound _
          cases hfound.symm.trans hmissing
        · exact fun _ => (ruleFresh_settles he hkey hne hlabel hbody).mp hagree
  · intro hsettle e he columns hw
    cases hw with
    | successor hkey hne hfound hdiffers hbody =>
      exact (ruleSuccessor_settles hindex he hkey hne hfound hbody).mpr
        ((hsettle _ hne e he hkey).1 _ _ hfound hdiffers)
    | fresh hkey hne hmissing hlabel hbody =>
      exact (ruleFresh_settles he hkey hne hlabel hbody).mpr
        ((hsettle _ hne e he hkey).2 hmissing)

end TempleConsign.Catalog
