import TempleConsign.ImportedRows

/-!
# Importing twice

`import_from_payload` is documented to be idempotent on the slug. A field of an entry that
is missing or `null` always differs from a column that is not `NULL`, while the superseding
row inherits it, and the indexes of labels are not updated in the loops. The theorem says
for which payloads and which state of the category an import leaves the prompts and the
rules as the payload has them, so that the next import of the payload, in whatever order
it loads the rows, changes nothing.

Results:
* `importComponents_weights`: the weights after an import.
* `import_converges_iff`: when an import converges.
-/

namespace TempleConsign.Catalog

open ServiceLib

variable {env : CatalogEnv} {db db' : CatalogDb} {κ : Type} {categoryId : ℕ}
  {e : Entry} {done entries : List Entry}

/-! ## Statement -/

structure CatalogDb.SameRows (db db' : CatalogDb) : Prop where
  categories : ∀ id, db'.categories.get? id = db.categories.get? id
  components : ∀ id, db'.components.get? id = db.components.get? id
  prompts : ∀ id, db'.prompts.rows.get? id = db.prompts.rows.get? id
  attachments : ∀ id, db'.attachments.get? id = db.attachments.get? id
  photoSlots : ∀ id, db'.photoSlots.get? id = db.photoSlots.get? id
  rules : ∀ id, db'.rules.rows.get? id = db.rules.rows.get? id
  records : ∀ id, db'.records.get? id = db.records.get? id

/-- The current prompts and rules of the category have the bodies that the payload has for
    their labels. -/
def HasBodies (env : CatalogEnv) (payload : CategoryExportPayload) (db : CatalogDb)
    (categoryId : ℕ) : Prop :=
  Matches env (promptCollection env) db.prompts.rows categoryId payload.inspectionPrompts ∧
    Matches env (ruleCollection env) db.rules.rows categoryId payload.redFlagRules

/-- An import of the payload returns, whatever the order of the rows, and adds, supersedes
    and changes nothing. -/
def ChangesNothing (env : CatalogEnv) (payload : CategoryExportPayload) (db : CatalogDb)
    (categoryId : ℕ) : Prop :=
  ∀ order now actor, ∃ db',
    Svc.Returns (importFromPayload env order now actor payload) db
      ⟨categoryId, false, [], [], [], [], [], [], []⟩ db' ∧ db.SameRows db'

/-- The category that an import is for. -/
def CatalogDb.targetId (db : CatalogDb) (slug : String) : ℕ :=
  match Store.scalarOneOrNone (db.categories.select (isCurrentOf slug)) with
  | some (some e) => e.1
  | _ => db.categories.next

/-- `Decimal(str(e["weight_pct"]))` in the column. -/
def storedWeight (env : CatalogEnv) (e : Entry) : Option Numeric64 :=
  ((e.item "weight_pct").bind env.decimal).bind Numeric64.store

/-- The last entry of a name. -/
def lastEntry (env : CatalogEnv) (entries : List Entry) (k : String) : Option Entry :=
  (entries.filter fun e => e.key env "name" = some k).getLast?

/-- `by_name`. -/
def byName (env : CatalogEnv) (rank : ℕ → ℕ) (categoryId : ℕ) (t : Store (Part ComponentRow)) :
    String → Option (ℕ × Part ComponentRow) :=
  lastOf (componentKey env) (loaded rank (partsOf t categoryId))

/-- The other components of a name, which the index does not have, weigh what its last
    entry says, and so do all its entries if the name is new. -/
structure WeightsSettle (env : CatalogEnv) (index : String → Option (ℕ × Part ComponentRow))
    (t : Store (Part ComponentRow)) (categoryId : ℕ) (entries : List Entry) : Prop where
  others : ∀ id p, t.get? id = some p → p.categoryId = categoryId →
    index (componentKey env p) ≠ some (id, p) → ∀ e,
    lastEntry env entries (componentKey env p) = some e → componentKey env p ≠ "" →
    storedWeight env e = some p.columns.weightPct
  fresh : ∀ k, k ≠ "" → index k = none → ∀ last, lastEntry env entries k = some last →
    ∀ e ∈ entries, e.key env "name" = some k → storedWeight env e = storedWeight env last

/-- When an import of the payload converges. -/
structure Settles (env : CatalogEnv) (order : LoadOrder) (payload : CategoryExportPayload)
    (db : CatalogDb) (id : ℕ) : Prop where
  slug : Store.scalarOneOrNone (db.categories.select (isCurrentOf payload.slug)) = some none →
    payload.slug.length ≤ 100
  components : WeightsSettle env (byName env order.components id db.components) db.components id
    payload.components
  prompts : OthersAgree env (promptCollection env) (byLabel env order.prompts id db.prompts.rows)
    db.prompts.rows id payload.inspectionPrompts
  bodies : OneBody env payload.inspectionPrompts
  rules : OthersAgree env (ruleCollection env) (byLabel env order.rules id db.rules.rows)
    db.rules.rows id payload.redFlagRules
  ruleBodies : RulesSettle env (byLabel env order.rules id db.rules.rows) payload.redFlagRules

/-! ## Weights -/

/-- A component with another weight. -/
def reweigh (p : Part ComponentRow) (w : Numeric64) : Part ComponentRow :=
  { p with columns := { p.columns with weightPct := w } }

theorem lastEntry_append_one (k : String) :
    lastEntry env (done ++ [e]) k =
      if e.key env "name" = some k then some e else lastEntry env done k := by
  rw [lastEntry, List.filter_append]
  split_ifs with h
  · simp [h]
  · simp [h, lastEntry]

/-- The index has components of the category under their own names. -/
def NamesOf (env : CatalogEnv) (t : Store (Part ComponentRow)) (categoryId : ℕ)
    (index : String → Option (ℕ × Part ComponentRow)) : Prop :=
  ∀ k id p, index k = some (id, p) →
    t.get? id = some p ∧ p.categoryId = categoryId ∧ componentKey env p = k

theorem namesOf_byName {rank : ℕ → ℕ} {t : Store (Part ComponentRow)} :
    NamesOf env t categoryId (byName env rank categoryId t) := by
  intro k id p hfound
  obtain ⟨hmem, hkey⟩ := lastOf_eq_some hfound
  obtain ⟨hget, hcat⟩ := mem_partsOf.mp (mem_loaded.mp hmem)
  exact ⟨hget, hcat, hkey⟩

/-- The value that the session has for the weight of an indexed component. -/
def sessionWeight (acc : ImportedComponents) (id : ℕ) (comp : Part ComponentRow) : ℚ :=
  (acc.session id).getD comp.columns.weightPct.toRat

/-- The components after the entries `done`. -/
structure WeightsAfter (env : CatalogEnv) (index : String → Option (ℕ × Part ComponentRow))
    (t : Store (Part ComponentRow)) (categoryId : ℕ) (done : List Entry)
    (acc : ImportedComponents) : Prop where
  next : t.next ≤ acc.rows.next
  old : ∀ id, id < t.next → (∀ k comp, k ≠ "" → index k ≠ some (id, comp)) →
    acc.rows.get? id = t.get? id
  /-- An indexed component weighs what the session has, rounded: what the last entry of its
      name says. -/
  indexed : ∀ k id comp, k ≠ "" → index k = some (id, comp) → ∃ stored,
    acc.rows.get? id = some (reweigh comp stored) ∧
      Numeric64.store (sessionWeight acc id comp) = some stored ∧
      (∀ last, lastEntry env done k = some last →
        (last.item "weight_pct").bind env.decimal = some (sessionWeight acc id comp)) ∧
      (lastEntry env done k = none → acc.session id = none)
  new : ∀ id p, t.next ≤ id → acc.rows.get? id = some p → ∃ e ∈ done,
    e.key env "name" = some (componentKey env p) ∧ componentKey env p ≠ "" ∧
      index (componentKey env p) = none ∧ storedWeight env e = some p.columns.weightPct
  inserted : ∀ e ∈ done, ∀ k, e.key env "name" = some k → k ≠ "" → index k = none →
    ∃ id p, t.next ≤ id ∧ acc.rows.get? id = some p ∧ p.categoryId = categoryId ∧
      componentKey env p = k ∧ storedWeight env e = some p.columns.weightPct
  stores : ∀ e ∈ done, ∃ k, e.key env "name" = some k ∧
    (k ≠ "" → ∃ stored, storedWeight env e = some stored)

variable {index : String → Option (ℕ × Part ComponentRow)} {t : Store (Part ComponentRow)}
  {acc acc' : ImportedComponents}

theorem weightsAfter_nil (hindex : NamesOf env t categoryId index) :
    WeightsAfter env index t categoryId [] ⟨t, fun _ => none, []⟩ where
  next := le_refl _
  old id _ _ := rfl
  indexed k id comp _ hfound :=
    ⟨comp.columns.weightPct, (hindex k id comp hfound).1, Numeric64.store_toRat _,
      fun last hlast => by simp [lastEntry] at hlast, fun _ => rfl⟩
  new id p hid hget := absurd (Store.get?_lt hget) (Nat.not_lt.mpr hid)
  inserted e he := absurd he List.not_mem_nil
  stores e he := absurd he List.not_mem_nil

theorem storedWeight_eq {weight : ℚ} (h : (e.item "weight_pct").bind env.decimal = some weight) :
    storedWeight env e = Numeric64.store weight := by
  rw [storedWeight, h, Option.bind_some]

/-- What is known of the entries `done` when one more entry is. -/
theorem forall_mem_append_one {P : Entry → Prop} (h : ∀ e ∈ done, P e) (he : P e) :
    ∀ e' ∈ done ++ [e], P e' := by
  intro e' he'
  rcases List.mem_append.mp he' with he' | he'
  · exact h e' he'
  · rwa [List.mem_singleton.mp he']

/-- An entry that writes nothing: it has no name, or the session has its weight. -/
theorem WeightsAfter.skip (h : WeightsAfter env index t categoryId done acc) {k : String}
    (hkey : e.key env "name" = some k)
    (hsame : k ≠ "" → ∃ id comp, index k = some (id, comp) ∧
      (e.item "weight_pct").bind env.decimal = some (sessionWeight acc id comp)) :
    WeightsAfter env index t categoryId (done ++ [e]) acc where
  next := h.next
  old := h.old
  indexed k' id comp hne hfound := by
    obtain ⟨stored, hget, hstored, hlast, hnone⟩ := h.indexed k' id comp hne hfound
    refine ⟨stored, hget, hstored, ?_⟩
    rw [lastEntry_append_one, hkey]
    split_ifs with hk
    · cases hk
      obtain ⟨id', comp', hfound', hweight⟩ := hsame hne
      cases hfound.symm.trans hfound'
      exact ⟨fun last hl => Option.some.inj hl ▸ hweight, fun hl => by cases hl⟩
    · exact ⟨hlast, hnone⟩
  new id p hid hget := by
    obtain ⟨e', he', hrest⟩ := h.new id p hid hget
    exact ⟨e', List.mem_append_left _ he', hrest⟩
  inserted := forall_mem_append_one h.inserted fun k' hk' hne hmissing => by
    cases hkey.symm.trans hk'
    obtain ⟨_, _, hfound, -⟩ := hsame hne
    cases hfound.symm.trans hmissing
  stores := forall_mem_append_one h.stores ⟨k, hkey, fun hne => by
    obtain ⟨id, comp, hfound, hweight⟩ := hsame hne
    obtain ⟨stored, -, hstored, -⟩ := h.indexed k id comp hne hfound
    exact ⟨stored, (storedWeight_eq hweight).trans hstored⟩⟩

/-- The weight of the component `id` is assigned, and `stored` in the column. -/
def ImportedComponents.assign (acc : ImportedComponents) (id : ℕ) (weight : ℚ)
    (stored : Numeric64) : ImportedComponents :=
  { acc with
    rows := acc.rows.modify id fun p => reweigh p stored
    session := fun j => if j = id then some weight else acc.session j }

theorem sessionWeight_assign_self (id : ℕ) (weight : ℚ) (stored : Numeric64)
    (comp : Part ComponentRow) : sessionWeight (acc.assign id weight stored) id comp = weight := by
  simp [sessionWeight, ImportedComponents.assign]

theorem sessionWeight_assign_ne {id id' : ℕ} (hid : id' ≠ id) (weight : ℚ) (stored : Numeric64)
    (comp : Part ComponentRow) :
    sessionWeight (acc.assign id weight stored) id' comp = sessionWeight acc id' comp := by
  simp [sessionWeight, ImportedComponents.assign, hid]

theorem get?_assign_self (id : ℕ) (weight : ℚ) (stored : Numeric64) :
    (acc.assign id weight stored).rows.get? id =
      (acc.rows.get? id).map fun p => reweigh p stored :=
  Store.get?_modify_self _ _ _

theorem get?_assign_ne {id id' : ℕ} (hid : id' ≠ id) (weight : ℚ) (stored : Numeric64) :
    (acc.assign id weight stored).rows.get? id' = acc.rows.get? id' :=
  Store.get?_modify_ne _ _ hid

/-- A component has one name in the index. -/
theorem NamesOf.name_unique (hindex : NamesOf env t categoryId index) {k k' : String} {id : ℕ}
    {comp comp' : Part ComponentRow} (hfound : index k = some (id, comp))
    (hfound' : index k' = some (id, comp')) : k = k' := by
  obtain ⟨hget, -, rfl⟩ := hindex k id comp hfound
  obtain ⟨hget', -, rfl⟩ := hindex k' id comp' hfound'
  cases hget.symm.trans hget'
  rfl

/-- An entry that assigns the weight of the component of its name. -/
theorem WeightsAfter.assign (h : WeightsAfter env index t categoryId done acc)
    (hindex : NamesOf env t categoryId index) {k : String} {weight : ℚ} {id : ℕ}
    {comp : Part ComponentRow} {stored : Numeric64} (hkey : e.key env "name" = some k)
    (hne : k ≠ "") (hweight : (e.item "weight_pct").bind env.decimal = some weight)
    (hfound : index k = some (id, comp)) (hstored : Numeric64.store weight = some stored) :
    WeightsAfter env index t categoryId (done ++ [e]) (acc.assign id weight stored) where
  next := by
    have hnext := h.next
    rwa [ImportedComponents.assign, Store.modify_next]
  old id' hid hother := by
    have hid' : id' ≠ id := by
      rintro rfl
      exact hother k comp hne hfound
    rw [get?_assign_ne hid']
    exact h.old id' hid hother
  indexed k' id' comp' hne' hfound' := by
    obtain ⟨stored', hget', hstored', hlast', hnone'⟩ := h.indexed k' id' comp' hne' hfound'
    by_cases hk : k = k'
    · subst hk
      cases hfound.symm.trans hfound'
      rw [sessionWeight_assign_self, get?_assign_self, hget', lastEntry_append_one, if_pos hkey]
      refine ⟨stored, rfl, hstored, fun last hl => ?_, fun hl => ?_⟩
      · rw [← Option.some.inj hl, hweight]
      · cases hl
    · have hid : id' ≠ id := by
        rintro rfl
        exact hk (hindex.name_unique hfound hfound')
      have hother : e.key env "name" ≠ some k' := by
        rw [hkey]
        exact fun heq => hk (Option.some.inj heq)
      rw [sessionWeight_assign_ne hid, get?_assign_ne hid, lastEntry_append_one, if_neg hother]
      exact ⟨stored', hget', hstored', hlast', fun hl => (if_neg hid).trans (hnone' hl)⟩
  new id' p hid hget := by
    have hlt := Store.get?_lt (hindex k id comp hfound).1
    rw [get?_assign_ne (by omega)] at hget
    obtain ⟨e', he', hrest⟩ := h.new id' p hid hget
    exact ⟨e', List.mem_append_left _ he', hrest⟩
  inserted := by
    refine forall_mem_append_one ?_ fun k' hk' _ hmissing => ?_
    · intro e' he' k' hk' hne' hmissing
      obtain ⟨id', p, hid, hget, hrest⟩ := h.inserted e' he' k' hk' hne' hmissing
      have hlt := Store.get?_lt (hindex k id comp hfound).1
      exact ⟨id', p, hid, by rw [get?_assign_ne (by omega), hget], hrest⟩
    · cases hkey.symm.trans hk'
      cases hfound.symm.trans hmissing
  stores := forall_mem_append_one h.stores ⟨k, hkey, fun _ =>
    ⟨stored, (storedWeight_eq hweight).trans hstored⟩⟩

/-- An entry that inserts a component. -/
theorem WeightsAfter.insert (h : WeightsAfter env index t categoryId done acc)
    {row : Part ComponentRow} {added : List ℕ}
    (hkey : e.key env "name" = some (componentKey env row)) (hne : componentKey env row ≠ "")
    (hmissing : index (componentKey env row) = none) (hcat : row.categoryId = categoryId)
    (hweight : storedWeight env e = some row.columns.weightPct) :
    WeightsAfter env index t categoryId (done ++ [e])
      { acc with rows := acc.rows.create row, added := added } where
  next := h.next.trans (Nat.le_succ _)
  old id hid hother := by
    have := h.next
    rw [Store.get?_create, if_neg (by omega)]
    exact h.old id hid hother
  indexed k id comp hne' hfound := by
    obtain ⟨stored, hget, hstored, hlast, hnone⟩ := h.indexed k id comp hne' hfound
    have hk : e.key env "name" ≠ some k := by
      intro hk
      cases hkey.symm.trans hk
      cases hfound.symm.trans hmissing
    rw [lastEntry_append_one, if_neg hk]
    exact ⟨stored, Store.get?_create_of_some hget, hstored, hlast, hnone⟩
  new id p hid hget := by
    rw [Store.get?_create] at hget
    split_ifs at hget
    · cases hget
      exact ⟨e, by simp, hkey, hne, hmissing, hweight⟩
    · obtain ⟨e', he', hrest⟩ := h.new id p hid hget
      exact ⟨e', List.mem_append_left _ he', hrest⟩
  inserted := by
    refine forall_mem_append_one ?_ fun k hk _ _ => ?_
    · intro e' he' k hk hne' hmissing'
      obtain ⟨id, p, hid, hget, hrest⟩ := h.inserted e' he' k hk hne' hmissing'
      exact ⟨id, p, hid, Store.get?_create_of_some hget, hrest⟩
    · cases hkey.symm.trans hk
      exact ⟨acc.rows.next, row, h.next, Store.get?_create_self _ _, hcat, rfl, hweight⟩
  stores := forall_mem_append_one h.stores ⟨_, hkey, fun _ => ⟨_, hweight⟩⟩

theorem importComponents_weights {rank : ℕ → ℕ}
    (himport : importComponents env rank categoryId entries t = some acc) :
    WeightsAfter env (byName env rank categoryId t) t categoryId entries acc := by
  have hindex : NamesOf env t categoryId (byName env rank categoryId t) := namesOf_byName
  refine foldlM_induction (P := WeightsAfter env (byName env rank categoryId t) t categoryId)
    (weightsAfter_nil hindex) ?_ himport
  intro done e acc acc' h hone
  rcases importComponent_cases hone with ⟨hkey, rfl⟩ |
    ⟨k, weight, id, comp, hkey, -, hweight, hfound, hsame, rfl⟩ |
    ⟨k, weight, id, comp, stored, hkey, hne, hweight, hfound, -, hstored, rfl⟩ |
    ⟨k, weight, name, stored, displayOrder, hkey, hne, hweight, hmissing, hname, hstored, -, rfl⟩
  · exact h.skip hkey fun hne => absurd rfl hne
  · exact h.skip hkey fun _ => ⟨id, comp, hfound, by rw [hweight, ← hsame, sessionWeight]⟩
  · exact h.assign hindex hkey hne hweight hfound hstored
  · obtain rfl := storeText_key hkey hne hname
    exact h.insert hkey hne hmissing rfl ((storedWeight_eq hweight).trans hstored)

/-- Every component weighs what the last entry of its name says. -/
def WeightsMatch (env : CatalogEnv) (t : Store (Part ComponentRow)) (categoryId : ℕ)
    (entries : List Entry) : Prop :=
  ∀ id p, t.get? id = some p → p.categoryId = categoryId → ∀ e,
    lastEntry env entries (componentKey env p) = some e → componentKey env p ≠ "" →
      storedWeight env e = some p.columns.weightPct

theorem mem_of_lastEntry {k : String} (h : lastEntry env entries k = some e) :
    e ∈ entries ∧ e.key env "name" = some k := by
  have hmem := List.mem_filter.mp (List.mem_of_getLast? h)
  exact ⟨hmem.1, of_decide_eq_true hmem.2⟩

theorem weights_match_iff {rank : ℕ → ℕ}
    (himport : importComponents env rank categoryId entries t = some acc) :
    WeightsMatch env acc.rows categoryId entries ↔
      WeightsSettle env (byName env rank categoryId t) t categoryId entries := by
  have h := importComponents_weights himport
  have hindex : NamesOf env t categoryId (byName env rank categoryId t) := namesOf_byName
  constructor
  · intro hmatch
    constructor
    · intro id p hget hcat hother
      refine hmatch id p ?_ hcat
      rw [h.old id (Store.get?_lt hget) fun k comp _ hfound => ?_, hget]
      obtain ⟨hcomp, -, rfl⟩ := hindex k id comp hfound
      cases hcomp.symm.trans hget
      exact hother hfound
    · intro k hne hmissing last hlast e he hkey
      obtain ⟨id, p, -, hget, hcat, rfl, hweight⟩ := h.inserted e he k hkey hne hmissing
      rw [hweight, hmatch id p hget hcat last hlast hne]
  · intro hsettle id p hget hcat last hlast hne
    by_cases hid : id < t.next
    · by_cases hfound : ∃ k comp, k ≠ "" ∧ byName env rank categoryId t k = some (id, comp)
      · obtain ⟨k, comp, hk, hfound⟩ := hfound
        obtain ⟨stored, hafter, hstored, hsaid, -⟩ := h.indexed k id comp hk hfound
        obtain ⟨-, -, rfl⟩ := hindex k id comp hfound
        cases hget.symm.trans hafter
        rw [storedWeight_eq (hsaid last hlast), hstored]
        rfl
      · have hother : ∀ k comp, k ≠ "" → byName env rank categoryId t k ≠ some (id, comp) :=
          fun k comp hk heq => hfound ⟨k, comp, hk, heq⟩
        rw [h.old id hid hother] at hget
        exact hsettle.others id p hget hcat (hother _ p hne) last hlast hne
    · obtain ⟨e, he, hkey, -, hmissing, hweight⟩ := h.new id p (Nat.le_of_not_lt hid) hget
      rw [← hweight]
      exact (hsettle.fresh _ hne hmissing last hlast e he hkey).symm

/-- After an import every name of the payload has a component. -/
theorem importComponents_names {rank : ℕ → ℕ}
    (himport : importComponents env rank categoryId entries t = some acc) :
    ∀ e ∈ entries, ∀ k, e.key env "name" = some k → k ≠ "" →
      ∃ id p, acc.rows.get? id = some p ∧ p.categoryId = categoryId ∧ componentKey env p = k := by
  have h := importComponents_weights himport
  intro e he k hkey hne
  cases hfound : byName env rank categoryId t k with
  | none =>
    obtain ⟨id, p, -, hget, hcat, hk, -⟩ := h.inserted e he k hkey hne hfound
    exact ⟨id, p, hget, hcat, hk⟩
  | some found =>
    obtain ⟨id, comp⟩ := found
    obtain ⟨stored, hget, -⟩ := h.indexed k id comp hne hfound
    obtain ⟨-, hcat, hk⟩ := namesOf_byName k id comp hfound
    exact ⟨id, _, hget, hcat, hk⟩

/-- The imports of the entries that leave the components alone, in whatever order these are
    loaded. -/
def ComponentsFixed (env : CatalogEnv) (t : Store (Part ComponentRow)) (categoryId : ℕ)
    (entries : List Entry) : Prop :=
  ∀ rank, ∃ acc, importComponents env rank categoryId entries t = some acc ∧ acc.added = [] ∧
    ∀ id, acc.rows.get? id = t.get? id

/-- An entry of a name that the index has is not refused and adds nothing. -/
theorem importComponent_returns (h : WeightsAfter env index t categoryId done acc)
    (hindex : NamesOf env t categoryId index) {k : String} (hkey : e.key env "name" = some k)
    (hfound : k ≠ "" → ∃ id comp, index k = some (id, comp))
    (hstore : k ≠ "" → ∃ stored, storedWeight env e = some stored) :
    ∃ acc', importComponent env categoryId index acc e = some acc' ∧ acc'.added = acc.added ∧
      WeightsAfter env index t categoryId (done ++ [e]) acc' := by
  rw [importComponent, hkey, Option.bind_eq_bind, Option.bind_some]
  by_cases hne : k = ""
  · rw [if_pos hne]
    exact ⟨acc, rfl, rfl, h.skip hkey fun hk => absurd hne hk⟩
  rw [if_neg hne]
  obtain ⟨id, comp, hfound⟩ := hfound hne
  obtain ⟨stored, hstored⟩ := hstore hne
  obtain ⟨weight, hweight, hround⟩ := Option.bind_eq_some_iff.mp hstored
  simp only [hweight, hfound, Option.bind_eq_bind, Option.bind_some, hround]
  by_cases hsame : (acc.session id).getD comp.columns.weightPct.toRat = weight
  · rw [if_pos hsame]
    exact ⟨acc, rfl, rfl, h.skip hkey fun _ =>
      ⟨id, comp, hfound, by rw [hweight, ← hsame, sessionWeight]⟩⟩
  · rw [if_neg hsame]
    exact ⟨_, rfl, rfl, h.assign hindex hkey hne hweight hfound hround⟩

/-- The name of a component is in the index, whatever the order. -/
theorem byName_of_component {rank : ℕ → ℕ} {id : ℕ} {p : Part ComponentRow}
    (hget : t.get? id = some p) (hcat : p.categoryId = categoryId) :
    ∃ id' comp, byName env rank categoryId t (componentKey env p) = some (id', comp) := by
  cases hfound : byName env rank categoryId t (componentKey env p) with
  | none =>
    have hmem : (id, p) ∈ loaded rank (partsOf t categoryId) :=
      mem_loaded.mpr (mem_partsOf.mpr ⟨hget, hcat⟩)
    exact absurd rfl (lastOf_eq_none.mp hfound (id, p) hmem)
  | some found => exact ⟨found.1, found.2, rfl⟩

/-- A component that is loaded last is the one of its name. -/
theorem byName_last {id : ℕ} {p : Part ComponentRow} (hget : t.get? id = some p)
    (hcat : p.categoryId = categoryId) :
    byName env (fun j => if j = id then 1 else 0) categoryId t (componentKey env p) =
      some (id, p) := by
  obtain ⟨id', comp, hfound⟩ :
      ∃ id' comp, byName env (fun j => if j = id then 1 else 0) categoryId t
        (componentKey env p) = some (id', comp) := byName_of_component hget hcat
  rw [hfound]
  have hle := le_of_getLast?_filter hfound (id, p) (mem_partsOf.mpr ⟨hget, hcat⟩)
    (decide_eq_true rfl)
  have hid : id' = id := by
    by_contra hne
    simp [hne] at hle
  subst hid
  obtain ⟨hcomp, -, -⟩ := namesOf_byName _ _ _ hfound
  cases hcomp.symm.trans hget
  rfl

/-- Where the weights are what the entries say and every name is in the index, all
    components are as they were. -/
theorem WeightsAfter.unchanged (h : WeightsAfter env index t categoryId entries acc)
    (hindex : NamesOf env t categoryId index) (hmatch : WeightsMatch env t categoryId entries)
    (hfound : ∀ e ∈ entries, ∀ k, e.key env "name" = some k → k ≠ "" → index k ≠ none) (id : ℕ) :
    acc.rows.get? id = t.get? id := by
  by_cases hid : id < t.next
  · by_cases hindexed : ∃ k comp, k ≠ "" ∧ index k = some (id, comp)
    · obtain ⟨k, comp, hne, hcomp⟩ := hindexed
      obtain ⟨stored, hafter, hstored, hsaid, hunsaid⟩ := h.indexed k id comp hne hcomp
      obtain ⟨hget, hcat, rfl⟩ := hindex k id comp hcomp
      have hweight : stored = comp.columns.weightPct := by
        cases hlast : lastEntry env entries (componentKey env comp) with
        | none =>
          rw [sessionWeight, hunsaid hlast, Option.getD_none, Numeric64.store_toRat] at hstored
          exact (Option.some.inj hstored).symm
        | some last =>
          have hw := hmatch id comp hget hcat last hlast hne
          rw [storedWeight_eq (hsaid last hlast), hstored] at hw
          exact Option.some.inj hw
      rw [hafter, hget, hweight]
      rfl
    · exact h.old id hid fun k comp hne heq => hindexed ⟨k, comp, hne, heq⟩
  · have hnone : t.get? id = none :=
      Option.eq_none_iff_forall_ne_some.mpr fun p hp => hid (Store.get?_lt hp)
    rw [hnone]
    refine Option.eq_none_iff_forall_ne_some.mpr fun p hp => ?_
    obtain ⟨e, he, hkey, hne, hmissing, -⟩ := h.new id p (Nat.le_of_not_lt hid) hp
    exact hfound e he _ hkey hne hmissing

/-- An import of components whose names are all there, and whose weights the column can
    hold, leaves them alone exactly when they weigh what the entries say. -/
theorem componentsFixed_iff
    (hstores : ∀ e ∈ entries, ∃ k, e.key env "name" = some k ∧
      (k ≠ "" → ∃ stored, storedWeight env e = some stored))
    (hnames : ∀ e ∈ entries, ∀ k, e.key env "name" = some k → k ≠ "" →
      ∃ id p, t.get? id = some p ∧ p.categoryId = categoryId ∧ componentKey env p = k) :
    ComponentsFixed env t categoryId entries ↔ WeightsMatch env t categoryId entries := by
  constructor
  · intro hfixed id p hget hcat last hlast hne
    obtain ⟨acc, himport, -, hsame⟩ := hfixed fun j => if j = id then 1 else 0
    obtain ⟨stored, hafter, hstored, hsaid, -⟩ :=
      (importComponents_weights himport).indexed _ id p hne (byName_last hget hcat)
    rw [hsame id, hget] at hafter
    rw [storedWeight_eq (hsaid last hlast), hstored, Option.some.inj hafter]
    rfl
  · intro hmatch rank
    have hindex : NamesOf env t categoryId (byName env rank categoryId t) := namesOf_byName
    have hfound : ∀ e ∈ entries, ∀ k, e.key env "name" = some k → k ≠ "" →
        ∃ id comp, byName env rank categoryId t k = some (id, comp) := by
      intro e he k hkey hne
      obtain ⟨id, p, hget, hcat, rfl⟩ := hnames e he k hkey hne
      exact byName_of_component hget hcat
    obtain ⟨acc, himport, hadded, h⟩ := foldlM_returns
      (f := importComponent env categoryId (byName env rank categoryId t)) (l := entries)
      (P := fun done acc => acc.added = [] ∧
        WeightsAfter env (byName env rank categoryId t) t categoryId done acc)
      ⟨rfl, weightsAfter_nil hindex⟩ fun done e acc hpre hacc => by
        have he : e ∈ entries := hpre.subset (by simp)
        obtain ⟨k, hkey, hstore⟩ := hstores e he
        obtain ⟨acc', hone, hadded, hnext⟩ :=
          importComponent_returns hacc.2 hindex hkey (hfound e he k hkey) hstore
        exact ⟨acc', hone, hadded.trans hacc.1, hnext⟩
    refine ⟨acc, himport, hadded, h.unchanged hindex hmatch fun e he k hkey hne hnone => ?_⟩
    obtain ⟨_, _, hcomp⟩ := hfound e he k hkey hne
    cases hcomp.symm.trans hnone

/-! ## Attachments and photo slots -/

section Missing

variable {fresh : Entry → Option κ} {label : κ → Varchar 255} {rank : ℕ → ℕ}
  {parts : Store (Part κ)} {out : Store (Part κ) × List ℕ}

/-- The table has a row of the category with the key. -/
def HasLabel (env : CatalogEnv) (label : κ → Varchar 255) (t : Store (Part κ)) (categoryId : ℕ)
    (k : String) : Prop :=
  ∃ id p, t.get? id = some p ∧ p.categoryId = categoryId ∧ env.keyOf (label p.columns).text = k

/-- After an import every label of the payload has a row. -/
theorem addAllMissing_labels
    (hlabel : ∀ e columns, fresh e = some columns →
      (e.item "label").bind (PyValue.storeText 255) = some (label columns))
    (himport : addAllMissing env fresh label rank categoryId entries parts = some out) :
    ∀ e ∈ entries, ∃ k, e.key env "label" = some k ∧
      (k ≠ "" → HasLabel env label out.1 categoryId k) := by
  have hafter := foldlM_induction
    (P := fun done acc => (∀ id p, parts.get? id = some p → acc.1.get? id = some p) ∧
      ∀ e ∈ done, ∃ k, e.key env "label" = some k ∧
        (k ≠ "" → HasLabel env label acc.1 categoryId k))
    ⟨fun id p hget => hget, fun e he => absurd he List.not_mem_nil⟩ ?_ himport
  · exact hafter.2
  rintro done e acc acc' ⟨hkept, hdone⟩ hone
  rcases addMissing_cases hone with ⟨k, hkey, hk, rfl⟩ |
    ⟨k, columns, hkey, hne, -, hcolumns, rfl⟩
  · refine ⟨hkept, forall_mem_append_one hdone ⟨k, hkey, fun hne => ?_⟩⟩
    obtain ⟨found, hfound⟩ := Option.isSome_iff_exists.mp (hk.resolve_left hne)
    obtain ⟨hmem, hkeyOf⟩ := lastOf_eq_some hfound
    obtain ⟨hget, hcat⟩ := mem_partsOf.mp (mem_loaded.mp hmem)
    exact ⟨found.1, found.2, hkept _ _ hget, hcat, hkeyOf⟩
  · refine ⟨fun id p hget => Store.get?_create_of_some (hkept id p hget),
      forall_mem_append_one (fun e' he' => ?_) ⟨k, hkey, fun _ => ?_⟩⟩
    · obtain ⟨k', hkey', hrow⟩ := hdone e' he'
      refine ⟨k', hkey', fun hne' => ?_⟩
      obtain ⟨id, p, hget, hrest⟩ := hrow hne'
      exact ⟨id, p, Store.get?_create_of_some hget, hrest⟩
    · exact ⟨acc.1.next, _, Store.get?_create_self _ _, rfl,
        (storeText_key hkey hne (hlabel e columns hcolumns)).symm⟩

/-- An import whose labels all have rows changes nothing. -/
theorem addAllMissing_fixed (fresh : Entry → Option κ)
    (hlabels : ∀ e ∈ entries, ∃ k, e.key env "label" = some k ∧
      (k ≠ "" → HasLabel env label parts categoryId k)) (rank : ℕ → ℕ) :
    addAllMissing env fresh label rank categoryId entries parts = some (parts, []) := by
  refine foldlM_fixed fun e he => ?_
  obtain ⟨k, hkey, hrow⟩ := hlabels e he
  rw [addMissing, hkey, Option.bind_eq_bind, Option.bind_some]
  refine if_pos (or_iff_not_imp_left.mpr fun hne => ?_)
  obtain ⟨id, p, hget, hcat, hk⟩ := hrow hne
  rw [Option.isSome_iff_ne_none]
  intro hnone
  exact lastOf_eq_none.mp hnone (id, p) (mem_loaded.mpr (mem_partsOf.mpr ⟨hget, hcat⟩)) hk

theorem freshAttachment_label {columns : AttachmentRow}
    (h : freshAttachment env e = some columns) :
    (e.item "label").bind (PyValue.storeText 255) = some columns.label := by
  simp only [freshAttachment, Option.bind_eq_bind, Option.bind_eq_some_iff,
    Option.some.injEq] at h
  obtain ⟨label, hlabel, _, -, _, -, rfl⟩ := h
  exact Option.bind_eq_some_iff.mpr hlabel

theorem freshPhotoSlot_label {columns : PhotoSlotRow}
    (h : freshPhotoSlot env e = some columns) :
    (e.item "label").bind (PyValue.storeText 255) = some columns.label := by
  simp only [freshPhotoSlot, Option.bind_eq_bind, Option.bind_eq_some_iff,
    Option.some.injEq] at h
  obtain ⟨label, hlabel, _, -, _, -, rfl⟩ := h
  exact Option.bind_eq_some_iff.mpr hlabel

end Missing

/-! ## The category -/

/-- A slug of a created category is the text of the payload unless the column cuts it. -/
theorem store_text_eq_iff {n : ℕ} {s : String} {v : Varchar n} (h : Varchar.store n s = some v) :
    v.text = s ↔ s.length ≤ n := by
  constructor
  · rintro rfl
    exact v.fits
  · intro hfits
    unfold Varchar.store at h
    split_ifs at h
    cases h
    rfl

theorem row_slug {actor : ℕ} {payload : CategoryExportPayload} {row : CategoryRow}
    (h : payload.row actor = some row) : Varchar.store 100 payload.slug = some row.slug := by
  simp only [CategoryExportPayload.row, bind, Option.bind_eq_some_iff, Option.some.injEq] at h
  obtain ⟨_, -, slug, hslug, _, -, _, -, rfl⟩ := h
  exact hslug

theorem target_eq {actor : ℕ} {payload : CategoryExportPayload} {target : ℕ × Bool}
    (h : Svc.Returns (findOrCreate actor payload) db target db') :
    target.1 = db.targetId payload.slug := by
  unfold CatalogDb.targetId
  rcases returns_findOrCreate.mp h with ⟨cat, hfound, -⟩ | ⟨hfree, -, -, -, rfl, -⟩
  · rw [hfound]
  · rw [hfree]

/-- The category is found again unless it was created and the column cut its slug. -/
theorem found_again_iff {actor : ℕ} {payload : CategoryExportPayload} {target : ℕ × Bool}
    (h : Svc.Returns (findOrCreate actor payload) db target db') :
    (∃ cat, Store.scalarOneOrNone (db'.categories.select (isCurrentOf payload.slug)) =
        some (some (target.1, cat))) ↔
      (Store.scalarOneOrNone (db.categories.select (isCurrentOf payload.slug)) = some none →
        payload.slug.length ≤ 100) := by
  rcases returns_findOrCreate.mp h with ⟨cat, hfound, -, rfl⟩ | ⟨hfree, row, hrow, -, rfl, rfl⟩
  · refine ⟨fun _ hnone => ?_, fun _ => ⟨cat, hfound⟩⟩
    cases hfound.symm.trans hnone
  · rw [← store_text_eq_iff (row_slug hrow)]
    have hnew : (db.categories.create row).get? db.categories.next = some row :=
      Store.get?_create_self _ _
    constructor
    · rintro ⟨cat, hcat⟩ -
      obtain ⟨⟨hget, hcurrent⟩, -⟩ := Store.scalar_select_some_iff.mp hcat
      cases hnew.symm.trans hget
      simp only [isCurrentOf, Bool.and_eq_true, decide_eq_true_eq] at hcurrent
      exact hcurrent.1
    · intro hslug
      refine ⟨row, Store.scalar_select_some_iff.mpr ⟨⟨hnew, ?_⟩, fun k c hget hcurrent => ?_⟩⟩
      · simp [isCurrentOf, hslug hfree, row_live hrow]
      · rw [Store.get?_create] at hget
        split_ifs at hget with hk
        · exact hk
        · rw [Store.scalar_select_none_iff.mp hfree k c hget] at hcurrent
          cases hcurrent

/-! ## The whole import -/

/-- What a second import of the payload finds. -/
structure Converged (env : CatalogEnv) (payload : CategoryExportPayload) (db : CatalogDb)
    (categoryId : ℕ) : Prop where
  found : ∃ cat, Store.scalarOneOrNone (db.categories.select (isCurrentOf payload.slug)) =
    some (some (categoryId, cat))
  components : ComponentsFixed env db.components categoryId payload.components
  prompts : ∀ now rank, syncAll env (promptCollection env) now rank categoryId
    payload.inspectionPrompts db.prompts = some ⟨db.prompts, [], []⟩
  attachments : ∀ rank, addAllMissing env (freshAttachment env) AttachmentRow.label rank categoryId
    payload.attachments db.attachments = some (db.attachments, [])
  photoSlots : ∀ rank, addAllMissing env (freshPhotoSlot env) PhotoSlotRow.label rank categoryId
    payload.photoSlots db.photoSlots = some (db.photoSlots, [])
  rules : ∀ now rank, syncAll env (ruleCollection env) now rank categoryId
    payload.redFlagRules db.rules = some ⟨db.rules, [], []⟩

theorem Converged.changesNothing {payload : CategoryExportPayload}
    (h : Converged env payload db categoryId) : ChangesNothing env payload db categoryId := by
  intro order now actor
  obtain ⟨cat, hfound⟩ := h.found
  obtain ⟨acc, himport, hadded, hsame⟩ := h.components order.components
  refine ⟨_, returns_importFromPayload.mpr ⟨(categoryId, false), db,
    ⟨acc, ⟨db.prompts, [], []⟩, (db.attachments, []), (db.photoSlots, []), ⟨db.rules, [], []⟩⟩,
    returns_findOrCreate.mpr (.inl ⟨cat, hfound, rfl, rfl⟩),
    importLists_eq_some.mpr ⟨himport, h.prompts now order.prompts,
      h.attachments order.attachments, h.photoSlots order.photoSlots,
      h.rules now order.rules⟩, ?_, rfl⟩, ?_⟩
  · simp [Imported.result, hadded]
  · exact ⟨fun _ => rfl, hsame, fun _ => rfl, fun _ => rfl, fun _ => rfl, fun _ => rfl,
      fun _ => rfl⟩

/-- A load order in which only the components matter. -/
def LoadOrder.ofComponents (rank : ℕ → ℕ) : LoadOrder :=
  ⟨rank, fun _ => 0, fun _ => 0, fun _ => 0, fun _ => 0⟩

theorem ChangesNothing.found {payload : CategoryExportPayload}
    (h : ChangesNothing env payload db categoryId) :
    ∃ cat, Store.scalarOneOrNone (db.categories.select (isCurrentOf payload.slug)) =
      some (some (categoryId, cat)) := by
  obtain ⟨db', hret, -⟩ := h (.ofComponents fun _ => 0) 0 0
  obtain ⟨target, db₁, lists, htarget, -, hresult, -⟩ := returns_importFromPayload.mp hret
  simp only [Imported.result, CategoryImportResult.mk.injEq] at hresult
  obtain ⟨hid, hcreated, -⟩ := hresult
  rcases returns_findOrCreate.mp htarget with ⟨cat, hfound, -⟩ | ⟨-, -, -, -, rfl, -⟩
  · exact ⟨cat, by rw [hfound, hid]⟩
  · cases hcreated

theorem ChangesNothing.components {payload : CategoryExportPayload}
    (h : ChangesNothing env payload db categoryId) :
    ComponentsFixed env db.components categoryId payload.components := by
  intro rank
  obtain ⟨db', hret, hsame⟩ := h (.ofComponents rank) 0 0
  obtain ⟨target, db₁, lists, htarget, hlists, hresult, rfl⟩ := returns_importFromPayload.mp hret
  simp only [Imported.result, CategoryImportResult.mk.injEq] at hresult
  obtain ⟨rfl, hcreated, -, -, hadded, -⟩ := hresult
  rcases returns_findOrCreate.mp htarget with ⟨cat, -, -, rfl⟩ | ⟨-, -, -, -, rfl, -⟩
  · exact ⟨lists.components, (importLists_eq_some.mp hlists).1, hadded, hsame.components⟩
  · cases hcreated

/-- An import leaves the prompts and the rules as the payload has them, and the next import
    of the payload changes nothing, exactly when the payload and the category settle. -/
theorem import_converges_iff {order : LoadOrder} {now : ℤ} {actor : ℕ}
    {payload : CategoryExportPayload} {r : CategoryImportResult}
    (hret : Svc.Returns (importFromPayload env order now actor payload) db r db') :
    HasBodies env payload db' r.categoryId ∧ ChangesNothing env payload db' r.categoryId ↔
      Settles env order payload db (db.targetId payload.slug) := by
  obtain ⟨target, db₁, lists, htarget, hlists, rfl, rfl⟩ := returns_importFromPayload.mp hret
  obtain ⟨hcomponents, hprompts, hattachments, hphotoSlots, hrules⟩ :=
    importLists_eq_some.mp hlists
  have hslug := found_again_iff htarget
  have hlater : db₁.components = db.components ∧ db₁.prompts = db.prompts ∧
      db₁.rules = db.rules := by
    rcases returns_findOrCreate.mp htarget with ⟨_, -, -, rfl⟩ | ⟨-, _, -, -, -, rfl⟩
    · exact ⟨rfl, rfl, rfl⟩
    · exact ⟨rfl, rfl, rfl⟩
  have hweights := weights_match_iff hcomponents
  have hfixed := componentsFixed_iff (importComponents_weights hcomponents).stores
    (importComponents_names hcomponents)
  have hpromptBodies := prompts_match_iff hprompts
  have hruleBodies := rules_match_iff hrules
  rw [hlater.1] at hweights
  rw [hlater.2.1] at hpromptBodies
  rw [hlater.2.2] at hruleBodies
  rw [← target_eq htarget]
  constructor
  · rintro ⟨⟨hp, hr⟩, hnothing⟩
    exact
      { slug := hslug.mp hnothing.found
        components := hweights.mp (hfixed.mp hnothing.components)
        prompts := (hpromptBodies.mp hp).1
        bodies := (hpromptBodies.mp hp).2
        rules := (hruleBodies.mp hr).1
        ruleBodies := (hruleBodies.mp hr).2 }
  · intro h
    have hp := hpromptBodies.mpr ⟨h.prompts, h.bodies⟩
    have hr := hruleBodies.mpr ⟨h.rules, h.ruleBodies⟩
    have hconverged : Converged env payload (db₁.withLists lists) target.1 :=
      { found := hslug.mpr h.slug
        components := hfixed.mpr (hweights.mpr h.components)
        prompts := syncAll_fixed hp (syncAll_labels hprompts)
        attachments := addAllMissing_fixed _
          (addAllMissing_labels (fun _ _ => freshAttachment_label) hattachments)
        photoSlots := addAllMissing_fixed _
          (addAllMissing_labels (fun _ _ => freshPhotoSlot_label) hphotoSlots)
        rules := syncAll_fixed hr (syncAll_labels hrules) }
    exact ⟨⟨hp, hr⟩, hconverged.changesNothing⟩

/-- A rule whose condition has the value. -/
def hoursRule (value : PyValue) : Entry :=
  [("label", .str "Old"), ("condition_field", .str "hours"),
    ("condition_operator", .str "equals"), ("condition_value", value), ("actions", .dict [])]

/-- A category with one component, one prompt and one rule. -/
def hoursPayload (value : PyValue) : CategoryExportPayload where
  name := "Diggers"
  slug := "diggers"
  status := "active"
  displayOrder := 3
  version := 1
  replacedAt := none
  components := [[("name", .str "Engine"), ("weight_pct", .int 25)]]
  inspectionPrompts := [[("label", .str "Oil leaks"), ("response_type", .str "yes_no_na"),
    ("required", .bool true), ("display_order", .int 1)]]
  attachments := []
  photoSlots := []
  redFlagRules := [hoursRule value]

theorem settles_hours : Settles .plain ⟨id, id, id, id, id⟩ (hoursPayload (.str "5")) .empty 0 where
  slug _ := by decide +kernel
  components :=
    { others := fun id p hget => by simp [CatalogDb.empty] at hget
      fresh := fun k hne hmissing last hlast e he hkey => by
        obtain ⟨hmem, -⟩ := mem_of_lastEntry hlast
        rw [List.mem_singleton.mp hmem, List.mem_singleton.mp he] }
  prompts id p hp := by
    have := hp.1
    simp [CatalogDb.empty] at this
  bodies k hne _ := by
    refine ⟨⟨⟨"yes_no_na", by decide, by decide⟩, true, ⟨1, by decide⟩⟩, fun e he _ => ?_⟩
    rw [List.mem_singleton.mp he]
    decide +kernel
  rules id p hp := by
    have := hp.1
    simp [CatalogDb.empty] at this
  ruleBodies k hne e he hkey := by
    refine ⟨fun id curr hfound => ?_, fun _ => ?_⟩
    · obtain ⟨hget, -⟩ := byLabel_eq_some hfound
      simp [CatalogDb.empty] at hget
    · refine ⟨⟨⟨"hours", by decide, by decide⟩, ⟨"equals", by decide, by decide⟩,
        some ⟨"5", by decide, by decide⟩, .dict []⟩, ?_, fun e' he' _ => ?_⟩
      · intro c hc
        cases hc
      rw [List.mem_singleton.mp he, List.mem_singleton.mp he']
      refine ⟨by decide +kernel, fun v hv => ?_⟩
      cases hv
      decide +kernel

theorem import_converges_hours : ∃ r db',
    Svc.Returns (importFromPayload .plain ⟨id, id, id, id, id⟩ 100 1 (hoursPayload (.str "5")))
      .empty r db' ∧
      HasBodies .plain (hoursPayload (.str "5")) db' r.categoryId ∧
      ChangesNothing .plain (hoursPayload (.str "5")) db' r.categoryId := by
  obtain ⟨r, hret⟩ := Svc.returns_of_accepted
    (m := importFromPayload .plain ⟨id, id, id, id, id⟩ 100 1 (hoursPayload (.str "5")))
    (s := CatalogDb.empty) (by decide +kernel)
  exact ⟨r, _, hret, (import_converges_iff hret).mpr settles_hours⟩

/-- The category has a rule with the value 5. -/
def hoursDb : CatalogDb :=
  run (CatalogDb.step .plain) .empty
    [.importCategory ⟨id, id, id, id, id⟩ 100 1 (hoursPayload (.str "5"))]

/-- The import of the payload without the value. -/
def hoursImport (now : ℤ) : CatalogService CategoryImportResult :=
  importFromPayload .plain ⟨id, id, id, id, id⟩ now 1 (hoursPayload .none)

theorem null_value_superseded_again :
    ∃ r db', Svc.Returns (hoursImport 200) hoursDb r db' ∧
      ¬ HasBodies .plain (hoursPayload .none) db' r.categoryId ∧
      ¬ ChangesNothing .plain (hoursPayload .none) db' r.categoryId := by
  obtain ⟨r, hret⟩ := Svc.returns_of_accepted
    (show (Svc.exec (hoursImport 200) hoursDb).1.toOption.isSome = true by decide +kernel)
  have hid : r.categoryId = 0 := by
    have hresult : (Svc.exec (hoursImport 200) hoursDb).1.toOption.map
        (fun r => r.categoryId) = some 0 := by
      decide +kernel
    rw [hret] at hresult
    exact Option.some.inj hresult
  refine ⟨r, _, hret, ?_⟩
  rw [hid]
  refine ⟨?_, ?_⟩
  · -- the successor has inherited the value
    rintro ⟨-, hrules⟩
    have hrow : (unreplacedOf (Svc.exec (hoursImport 200) hoursDb).2.rules.rows 0).any
        (fun e => (hoursRule .none).key .plain "label" =
            some (CatalogEnv.plain.keyOf e.2.columns.label.text) ∧
          CatalogEnv.plain.keyOf e.2.columns.label.text ≠ "" ∧
          (ruleCollection .plain).differs e.2.columns.body (hoursRule .none) = some true) =
        true := by
      decide +kernel
    obtain ⟨⟨id, p⟩, hmem, hp⟩ := List.any_eq_true.mp hrow
    obtain ⟨hkey, hne, hdiffers⟩ := of_decide_eq_true hp
    have hagrees := hrules id p (mem_unreplacedOf.mp hmem) (hoursRule .none)
      (List.mem_singleton_self _) ⟨hkey, hne⟩
    cases hagrees.symm.trans hdiffers
  · intro hnothing
    obtain ⟨db'', hagain, -⟩ := hnothing ⟨id, id, id, id, id⟩ 300 1
    have hresult : (Svc.exec (hoursImport 300)
        (Svc.exec (hoursImport 200) hoursDb).2).1.toOption.map
        (fun r => r.supersededRuleIds) = some [1] := by
      decide +kernel
    rw [hoursImport, hagain] at hresult
    cases hresult

end TempleConsign.Catalog
