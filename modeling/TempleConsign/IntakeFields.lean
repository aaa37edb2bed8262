import TempleConsign.AppConfigRegistry

/-!
# The order of the intake form

Model of `src/api/services/intake_visibility_service.py`: the fields the customer's
form shows and the order it shows them in, from two lists an admin writes. Both
lists may be empty and may repeat a field; the form reads membership through sets and
order through the lists.

A read takes a stored value of any shape (`AppConfigRegistry`), so the loops are those
of Python over a JSON value.

Results:
* `accepts_iff`: the accepted lists.
* `visibleFields_eq`, `fieldOrder_eq`: what they give.
* `fieldOrder_isOrder_iff`: when the order is a permutation of the visible fields.
-/

namespace TempleConsign.AppConfig

open LeadRouting (Json)

/-! ## The service -/

/-- The `TypeError` of a loop over what is no collection, or of a set that is asked
    for a list or a dict; and the errors of the registry. -/
inductive IntakeError
  | typeError
  | config (e : ConfigError)
  deriving DecidableEq

/-- `for f in raw`. -/
def iterate : Json → Except IntakeError (List Json)
  | .arr items => .ok items
  | .str s => .ok (s.toList.map fun c => .str (String.singleton c))
  | .obj fields => .ok (fields.map fun field => .str field.1)
  | _ => .error .typeError

/-- `f in names`, for a set of texts; the text if it is in the set. -/
def inSet (names : List String) : Json → Except IntakeError (Option String)
  | .str s => .ok (if s ∈ names then some s else none)
  | .arr _ => .error .typeError
  | .obj _ => .error .typeError
  | _ => .ok none

/-- `[f for f in raw if f in names]`. -/
def keepIn (names : List String) (raw : Json) : Except IntakeError (List String) := do
  let items ← iterate raw
  items.filterMapM (inSet names)

/-- `get_typed`, in the service. -/
def readConfig (uuidOf : String → Option ℕ) (rows : ConfigRows) (spec : KeySpec) :
    Except IntakeError Json :=
  (getTyped uuidOf rows spec.name).mapError .config

/-- `visible_fields` (line 10). -/
def visibleFields (uuidOf : String → Option ℕ) (rows : ConfigRows) :
    Except IntakeError (List String) := do
  let raw ← readConfig uuidOf rows intakeFieldsVisible
  if raw.truthy then keepIn intakeFieldsCanonical raw else return intakeFieldsCanonical

/-- `field_order` (line 21). -/
def fieldOrder (uuidOf : String → Option ℕ) (rows : ConfigRows) :
    Except IntakeError (List String) := do
  let visible ← visibleFields uuidOf rows
  let raw ← readConfig uuidOf rows intakeFieldsOrder
  if raw.truthy then
    let ordered ← keepIn (intakeFieldsCanonical.filter fun f => f ∈ visible) raw
    let tail := intakeFieldsCanonical.filter fun f => f ∈ visible && f ∉ ordered
    return ordered ++ tail
  else return visible

/-! ## Accepted lists -/

variable {uuidOf : String → Option ℕ} {rows : ConfigRows} {v w : Json}
  {shown explicit : List String}

theorem entryText_eq_some {v : Json} {s : String} (h : entryText v = some s) : v = .str s := by
  cases v with
  | str s' =>
    simp only [entryText] at h
    split_ifs at h
    exact congrArg Json.str (Option.some.inj h)
  | _ => cases h

/-- Canonical fields are not blank. -/
theorem entryText_canonical {s : String} (h : s ∈ intakeFieldsCanonical) :
    entryText (.str s) = some s := by
  have hall : ∀ s ∈ intakeFieldsCanonical, strip s ≠ "" := by decide +kernel
  exact if_neg (hall s h)

theorem eq_of_mapM_entryText {items : List Json} {texts : List String}
    (h : items.mapM entryText = some texts) : items = texts.map Json.str := by
  induction items generalizing texts with
  | nil =>
    cases h
    rfl
  | cons v items ih =>
    rw [List.mapM_cons] at h
    simp only [Option.bind_eq_bind, Option.bind_eq_some_iff, Option.pure_def,
      Option.some.injEq] at h
    obtain ⟨s, hs, rest, hrest, rfl⟩ := h
    rw [entryText_eq_some hs, ih hrest, List.map_cons]

theorem mapM_entryText {fields : List String} (h : ∀ f ∈ fields, f ∈ intakeFieldsCanonical) :
    (fields.map Json.str).mapM entryText = some fields := by
  induction fields with
  | nil => rfl
  | cons f fields ih =>
    obtain ⟨hf, hfields⟩ := List.forall_mem_cons.mp h
    simp [List.mapM_cons, entryText_canonical hf, ih hfields]

/-- Of a list of texts, the validator takes the canonical ones. -/
theorem isOk_of_texts {texts : List String} (h : validateStringList v = .ok texts) :
    (validateIntakeFieldSubset v).isOk = true ↔ ∀ f ∈ texts, f ∈ intakeFieldsCanonical := by
  have hempty : texts.filter (fun s => s ∉ intakeFieldsCanonical) = [] ↔
      ∀ f ∈ texts, f ∈ intakeFieldsCanonical := by
    simp [List.filter_eq_nil_iff]
  rw [← hempty, validateIntakeFieldSubset, h]
  simp only [bind, Except.bind]
  split
  · exact iff_of_true rfl ‹_›
  · exact iff_of_false nofun ‹_›

/-- The validator takes exactly the lists of canonical fields. -/
theorem accepts_iff :
    (validateIntakeFieldSubset v).isOk = true ↔
      ∃ fields, v = textList fields ∧ ∀ f ∈ fields, f ∈ intakeFieldsCanonical := by
  constructor
  · intro h
    cases htexts : validateStringList v with
    | error e =>
      rw [validateIntakeFieldSubset, htexts] at h
      cases h
    | ok fields =>
      refine ⟨fields, ?_, (isOk_of_texts htexts).mp h⟩
      cases v with
      | arr items =>
        simp only [validateStringList] at htexts
        split at htexts
        · rename_i texts hitems
          rw [← Except.ok.inj htexts]
          exact congrArg Json.arr (eq_of_mapM_entryText hitems)
        · cases htexts
      | _ => cases htexts
  · rintro ⟨fields, rfl, hfields⟩
    have htexts : validateStringList (textList fields) = .ok fields := by
      simp only [textList, validateStringList, mapM_entryText hfields]
    exact (isOk_of_texts htexts).mpr hfields

/-! ## What the lists give -/

/-- The fields a list makes visible: all, when it is empty. -/
def visibleOf (shown : List String) : List String :=
  if shown = [] then intakeFieldsCanonical else shown

theorem textList_inj {fields fields' : List String} :
    textList fields = textList fields' ↔ fields = fields' := by
  rw [textList, textList, Json.arr.injEq]
  exact List.map_inj_right fun _ _ => Json.str.inj

theorem truthy_textList (fields : List String) :
    (textList fields).truthy = true ↔ fields ≠ [] := by
  cases fields with
  | nil => exact iff_of_false nofun fun h => h rfl
  | cons f fields => exact iff_of_true rfl nofun

theorem keepIn_textList (names fields : List String) :
    keepIn names (textList fields) = .ok (fields.filter fun f => f ∈ names) := by
  show (fields.map Json.str).filterMapM (inSet names) = _
  induction fields with
  | nil => rfl
  | cons f fields ih =>
    rw [List.map_cons, List.filterMapM_cons, ih]
    by_cases hf : f ∈ names
    · simp [inSet, hf, bind, Except.bind, pure, Except.pure]
    · simp [inSet, hf, bind, Except.bind]

/-- The visible fields, from an accepted list. -/
theorem visibleFields_eq (hshown : ∀ f ∈ shown, f ∈ intakeFieldsCanonical)
    (hv : getTyped uuidOf rows intakeFieldsVisible.name = .ok (textList shown)) :
    visibleFields uuidOf rows = .ok (visibleOf shown) := by
  have hread : readConfig uuidOf rows intakeFieldsVisible = .ok (textList shown) := by
    rw [readConfig, hv]
    rfl
  have hkept : shown.filter (fun f => f ∈ intakeFieldsCanonical) = shown :=
    List.filter_eq_self.mpr fun f hf => decide_eq_true (hshown f hf)
  rw [visibleFields, hread]
  simp only [bind, Except.bind, truthy_textList, visibleOf]
  by_cases hempty : shown = []
  · rw [if_neg (not_not.mpr hempty), if_pos hempty]
    rfl
  · rw [if_pos hempty, if_neg hempty, keepIn_textList, hkept]

/-- The order, from two accepted lists: the listed visible fields, then the others;
    without a list, the visible fields as they are. -/
def orderOf (shown explicit : List String) : List String :=
  if explicit = [] then visibleOf shown
  else
    explicit.filter (fun f => f ∈ visibleOf shown) ++
      intakeFieldsCanonical.filter fun f => f ∈ visibleOf shown && f ∉ explicit

theorem mem_visibleOf (hshown : ∀ f ∈ shown, f ∈ intakeFieldsCanonical) {f : String}
    (hf : f ∈ visibleOf shown) : f ∈ intakeFieldsCanonical := by
  unfold visibleOf at hf
  split_ifs at hf with hempty
  · exact hf
  · exact hshown f hf

theorem fieldOrder_eq (hshown : ∀ f ∈ shown, f ∈ intakeFieldsCanonical)
    (hv : getTyped uuidOf rows intakeFieldsVisible.name = .ok (textList shown))
    (hw : getTyped uuidOf rows intakeFieldsOrder.name = .ok (textList explicit)) :
    fieldOrder uuidOf rows = .ok (orderOf shown explicit) := by
  have hread : readConfig uuidOf rows intakeFieldsOrder = .ok (textList explicit) := by
    rw [readConfig, hw]
    rfl
  rw [fieldOrder, visibleFields_eq hshown hv]
  simp only [bind, Except.bind, hread, truthy_textList, orderOf]
  by_cases hempty : explicit = []
  · rw [if_neg (not_not.mpr hempty), if_pos hempty]
    rfl
  · have hvisible : ∀ f, f ∈ intakeFieldsCanonical.filter (fun f => f ∈ visibleOf shown) ↔
        f ∈ visibleOf shown := by
      intro f
      rw [List.mem_filter, decide_eq_true_eq]
      exact and_iff_right_of_imp (mem_visibleOf hshown)
    have htail : ∀ f, (decide (f ∈ visibleOf shown) &&
        decide (f ∉ explicit.filter fun f => f ∈ visibleOf shown)) =
        (decide (f ∈ visibleOf shown) && decide (f ∉ explicit)) := by
      intro f
      by_cases hf : f ∈ visibleOf shown
      · simp [hf]
      · simp [hf]
    rw [if_pos hempty, if_neg hempty, keepIn_textList]
    simp only [hvisible, htail]
    rfl

/-! ## A permutation of the visible fields -/

/-- `order` lists every visible field once and nothing else: first fields of the
    admin's list in its order, then fields it does not name in canonical order. -/
structure IsOrderOf (visible explicit order : List String) : Prop where
  nodup : order.Nodup
  mem : ∀ f, f ∈ order ↔ f ∈ visible
  placed : ∃ front back, order = front ++ back ∧ front.Sublist explicit ∧
    (∀ f ∈ back, f ∉ explicit) ∧ back.Sublist intakeFieldsCanonical

/-- The order of the form is one of the visible fields. -/
def OrderExact (uuidOf : String → Option ℕ) (rows : ConfigRows) (explicit : List String) : Prop :=
  ∃ visible order, visibleFields uuidOf rows = .ok visible ∧ fieldOrder uuidOf rows = .ok order ∧
    IsOrderOf visible explicit order

/-- A list of the admin that names no visible field twice; where it is empty, a list
    of visible fields in canonical order. -/
def ListsFit (shown explicit : List String) : Prop :=
  if explicit = [] then shown.Sublist intakeFieldsCanonical
  else (explicit.filter fun f => f ∈ visibleOf shown).Nodup

theorem canonical_nodup : intakeFieldsCanonical.Nodup := by decide +kernel

/-- Without a list of the admin, the visible fields as they are. -/
theorem isOrderOf_nil_iff : IsOrderOf (visibleOf shown) [] (visibleOf shown) ↔
    shown.Sublist intakeFieldsCanonical := by
  constructor
  · rintro ⟨-, -, front, back, horder, hfront, -, hback⟩
    rw [List.sublist_nil] at hfront
    rw [hfront, List.nil_append] at horder
    by_cases hall : shown = []
    · rw [hall]
      exact List.nil_sublist _
    · rw [visibleOf, if_neg hall] at horder
      rwa [horder]
  · intro hfit
    have hvisible : (visibleOf shown).Sublist intakeFieldsCanonical := by
      unfold visibleOf
      split_ifs
      · exact List.Sublist.refl _
      · exact hfit
    exact ⟨canonical_nodup.sublist hvisible, fun f => Iff.rfl, [], visibleOf shown, rfl,
      List.nil_sublist _, fun f _ => List.not_mem_nil, hvisible⟩

/-- The listed visible fields and then the others are all visible fields. -/
theorem mem_listed_append_iff (hshown : ∀ f ∈ shown, f ∈ intakeFieldsCanonical) {f : String} :
    f ∈ explicit.filter (fun f => f ∈ visibleOf shown) ++
        intakeFieldsCanonical.filter (fun f => f ∈ visibleOf shown && f ∉ explicit) ↔
      f ∈ visibleOf shown := by
  rw [List.mem_append, List.mem_filter, List.mem_filter]
  simp only [decide_eq_true_eq, Bool.and_eq_true]
  constructor
  · rintro (⟨-, hf⟩ | ⟨-, hf, -⟩)
    · exact hf
    · exact hf
  · intro hf
    by_cases hnamed : f ∈ explicit
    · exact .inl ⟨hnamed, hf⟩
    · exact .inr ⟨mem_visibleOf hshown hf, hf, hnamed⟩

theorem isOrderOf_iff (hshown : ∀ f ∈ shown, f ∈ intakeFieldsCanonical) :
    IsOrderOf (visibleOf shown) explicit (orderOf shown explicit) ↔ ListsFit shown explicit := by
  unfold orderOf ListsFit
  split_ifs with hempty
  · rw [hempty]
    exact isOrderOf_nil_iff
  · constructor
    · rintro ⟨hnodup, -⟩
      exact (List.nodup_append.mp hnodup).1
    · intro hfit
      have hothers : ∀ f ∈ intakeFieldsCanonical.filter
          (fun f => f ∈ visibleOf shown && f ∉ explicit), f ∉ explicit := by
        intro f hf
        have hrest := (List.mem_filter.mp hf).2
        simp only [Bool.and_eq_true, decide_eq_true_eq] at hrest
        exact hrest.2
      refine ⟨?_, fun f => mem_listed_append_iff hshown, _, _, rfl, List.filter_sublist, hothers,
        List.filter_sublist⟩
      refine List.nodup_append.mpr ⟨hfit, canonical_nodup.filter _, ?_⟩
      rintro f hf g hg rfl
      exact hothers f hg (List.mem_filter.mp hf).1

/-- When the order is a permutation of the visible fields, for accepted lists: the
    admin's list names no visible field twice, or is empty and the visible fields
    are in canonical order. -/
theorem fieldOrder_isOrder_iff (uuidOf : String → Option ℕ) (rows : ConfigRows) {v w : Json}
    (hv : intakeFieldsVisible.accepts v = true) (hw : intakeFieldsOrder.accepts w = true)
    (hvisible : getTyped uuidOf rows intakeFieldsVisible.name = .ok v)
    (horder : getTyped uuidOf rows intakeFieldsOrder.name = .ok w) :
    ∃ shown explicit, v = textList shown ∧ w = textList explicit ∧
      (OrderExact uuidOf rows explicit ↔ ListsFit shown explicit) := by
  obtain ⟨shown, rfl, hshown⟩ := accepts_iff.mp hv
  obtain ⟨explicit, rfl, -⟩ := accepts_iff.mp hw
  refine ⟨shown, explicit, rfl, rfl, ?_⟩
  rw [← isOrderOf_iff hshown, OrderExact, visibleFields_eq hshown hvisible,
    fieldOrder_eq hshown hvisible horder]
  constructor
  · rintro ⟨visible, order, hvis, hord, h⟩
    rwa [Except.ok.inj hvis, Except.ok.inj hord]
  · exact fun h => ⟨_, _, rfl, rfl, h⟩

/-- The rows of two accepted lists. -/
def listRows (shown explicit : List String) : ConfigRows := fun key =>
  if key = intakeFieldsVisible.name then
    some (serializeDictField intakeFieldsVisible.field (textList shown))
  else some (serializeDictField intakeFieldsOrder.field (textList explicit))

/-- The model first, of two visible fields. -/
theorem modelFirst_isOrder :
    OrderExact (fun _ => none) (listRows ["make", "model"] ["model"]) ["model"] := by
  have hshown : ∀ f ∈ ["make", "model"], f ∈ intakeFieldsCanonical := by decide +kernel
  have hexplicit : ∀ f ∈ ["model"], f ∈ intakeFieldsCanonical := by decide +kernel
  obtain ⟨shown, explicit, hs, he, hiff⟩ :=
    fieldOrder_isOrder_iff (fun _ => none) (listRows ["make", "model"] ["model"])
      (accepts_iff.mpr ⟨_, rfl, hshown⟩) (accepts_iff.mpr ⟨_, rfl, hexplicit⟩)
      (getTyped_eq (by simp [registry]) _) (getTyped_eq (by simp [registry]) _)
  obtain rfl := textList_inj.mp hs
  obtain rfl := textList_inj.mp he
  refine hiff.mpr ?_
  rw [ListsFit, if_neg (by simp)]
  decide +kernel

/-- A field the admin names twice is shown twice. -/
theorem order_repeats : ¬ ∀ (uuidOf : String → Option ℕ) (rows : ConfigRows)
    (shown explicit : List String), intakeFieldsVisible.accepts (textList shown) = true →
      intakeFieldsOrder.accepts (textList explicit) = true →
      getTyped uuidOf rows intakeFieldsVisible.name = .ok (textList shown) →
      getTyped uuidOf rows intakeFieldsOrder.name = .ok (textList explicit) →
        OrderExact uuidOf rows explicit := by
  intro h
  have hshown : ∀ f ∈ ["make"], f ∈ intakeFieldsCanonical := by decide +kernel
  have hexplicit : ∀ f ∈ ["make", "make"], f ∈ intakeFieldsCanonical := by decide +kernel
  have hvisible : getTyped (fun _ => none) (listRows ["make"] ["make", "make"])
      intakeFieldsVisible.name = .ok (textList ["make"]) := getTyped_eq (by simp [registry]) _
  have horder : getTyped (fun _ => none) (listRows ["make"] ["make", "make"])
      intakeFieldsOrder.name = .ok (textList ["make", "make"]) := getTyped_eq (by simp [registry]) _
  obtain ⟨visible, order, -, hread, hexact⟩ := h _ _ _ _ (accepts_iff.mpr ⟨_, rfl, hshown⟩)
    (accepts_iff.mpr ⟨_, rfl, hexplicit⟩) hvisible horder
  rw [fieldOrder_eq hshown hvisible horder] at hread
  rw [← Except.ok.inj hread] at hexact
  exact absurd hexact.nodup (by decide +kernel)

end TempleConsign.AppConfig
