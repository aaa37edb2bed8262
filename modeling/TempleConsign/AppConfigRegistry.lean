import TempleConsign.RoutingTargets

/-!
# The configuration registry

Model of `src/api/services/app_config_registry.py`: a key has a default, a parser and
a serializer of the stored blob and a validator. A write validates, a read does not:
it takes the field out of the blob as it stands. The default is documented as the
"fallback when the key is missing or malformed".

All keys build their parser and serializer from the name of one field, so a
specification holds that name.

Deviations: `uuidOf` is `uuid.UUID` of a text; the descriptions are left out.

Results:
* `getTyped_setTyped`: a value written is read back.
* `driveTime_positive_iff`: the calendar gets its minutes exactly from a usable blob.
* `read_defaultSalesRepId`: the default rep of lead routing is the value of its key.
* `configUsable_iff`: when every read gives the default or an accepted value.
-/

namespace TempleConsign.AppConfig

open LeadRouting (Json Dict)

/-! ## Values -/

/-- What a validator complains of, and the errors of the lookup and of a hash. -/
inductive ConfigError
  | notPositiveInt
  | notIntAtLeast (min : ℤ)
  | notIntInRange (min max : ℤ)
  | notUuidText
  | notUuid
  | notRoleList
  | notRoleSlug
  | notText
  | notStringList
  | blankEntry
  | unknownIntakeFields (unknown : List String)
  | notBool
  | notPageSize
  | unhashable
  | keyError (key : String)
  deriving DecidableEq

/-- The message of a `ValueError`; `listText` displays a list of texts. -/
def ConfigError.text (listText : List String → String) (canonical : List String) :
    ConfigError → String
  | notPositiveInt => "must be a positive integer"
  | notIntAtLeast min => "must be an integer ≥ " ++ toString min
  | notIntInRange min max =>
    "must be an integer in [" ++ toString min ++ ", " ++ toString max ++ "]"
  | notUuidText => "must be a UUID string or null"
  | notUuid => "must be a valid UUID"
  | notRoleList => "must be a list of role slugs"
  | notRoleSlug => "every entry must be a role slug string"
  | notText => "must be a non-empty string"
  | notStringList => "must be a list of strings"
  | blankEntry => "every entry must be a non-empty string"
  | unknownIntakeFields unknown =>
    "unknown intake field(s): " ++ listText (unknown.mergeSort fun a b => a ≤ b) ++
      ". Allowed: " ++ listText (canonical.mergeSort fun a b => a ≤ b)
  | notBool => "must be true or false"
  | notPageSize => "must be one of " ++ listText ["A4", "Letter"]
  | unhashable => "unhashable type"
  | keyError key => key

/-- `isinstance(v, int)`, with the number: a `bool` is an `int`. -/
def integer : Json → Option ℤ
  | .int n => some n
  | .bool b => some (if b then 1 else 0)
  | _ => none

/-- `_parse_dict_field` (line 155). -/
def parseDictField (field : String) : Json → Except ConfigError Json
  | .obj fields => .ok (Dict.get fields field)
  | _ => .ok .null

/-- `_serialize_dict_field` (line 164). -/
def serializeDictField (field : String) (value : Json) : Json := .obj [(field, value)]

/-! ## Validators -/

/-- `_validate_positive_int` (line 171). -/
def validatePositiveInt (v : Json) : Except ConfigError Unit :=
  if (integer v).any (0 < ·) then .ok () else .error .notPositiveInt

/-- `_validate_int_at_least` (line 311). -/
def validateIntAtLeast (min : ℤ) (v : Json) : Except ConfigError Unit :=
  if (integer v).any (min ≤ ·) then .ok () else .error (.notIntAtLeast min)

/-- `_validate_int_in_range` (line 319). -/
def validateIntInRange (min max : ℤ) (v : Json) : Except ConfigError Unit :=
  if (integer v).any fun n => min ≤ n && n ≤ max then .ok () else .error (.notIntInRange min max)

/-- `_validate_uuid_or_none` (line 176). -/
def validateUuidOrNone (uuidOf : String → Option ℕ) : Json → Except ConfigError Unit
  | .null => .ok ()
  | .str s => if (uuidOf s).isSome then .ok () else .error .notUuid
  | _ => .error .notUuidText

/-- `_validate_role_list` (line 187). -/
def validateRoleList : Json → Except ConfigError Unit
  | .arr items =>
    if items.all fun v => v matches .str _ then .ok () else .error .notRoleSlug
  | _ => .error .notRoleList

/-- `_validate_nonempty_string` (line 195). -/
def validateNonemptyString : Json → Except ConfigError Unit
  | .str s => if strip s = "" then .error .notText else .ok ()
  | _ => .error .notText

/-- A text that is not blank. -/
def entryText : Json → Option String
  | .str s => if strip s = "" then none else some s
  | _ => none

/-- `_validate_string_list` (line 327), with the texts it has checked. -/
def validateStringList : Json → Except ConfigError (List String)
  | .arr items =>
    match items.mapM entryText with
    | some texts => .ok texts
    | none => .error .blankEntry
  | _ => .error .notStringList

/-- `INTAKE_FIELDS_CANONICAL` (line 297). -/
def intakeFieldsCanonical : List String :=
  ["category_id", "make", "model", "year", "serial_number", "hours", "running_status",
    "ownership_type", "location_text", "description"]

/-- `_validate_intake_field_subset` (line 335). -/
def validateIntakeFieldSubset (v : Json) : Except ConfigError Unit := do
  let texts ← validateStringList v
  match texts.filter fun s => s ∉ intakeFieldsCanonical with
  | [] => .ok ()
  | unknown => .error (.unknownIntakeFields unknown)

/-- `_validate_bool` (line 484). -/
def validateBool : Json → Except ConfigError Unit
  | .bool _ => .ok ()
  | _ => .error .notBool

/-- `_validate_page_size` (line 591); a list or a dict cannot be looked up. -/
def validatePageSize : Json → Except ConfigError Unit
  | .str s => if s = "A4" || s = "Letter" then .ok () else .error .notPageSize
  | .arr _ => .error .unhashable
  | .obj _ => .error .unhashable
  | _ => .error .notPageSize

/-- The default validator of a key (line 65). -/
def noValidator (_ : Json) : Except ConfigError Unit := .ok ()

/-! ## Keys -/

/-- `KeySpec` (line 55). -/
structure KeySpec where
  name : String
  category : String
  fieldType : String
  default : Json
  field : String
  validator : Json → Except ConfigError Unit

/-- A list of texts as a value. -/
def textList (texts : List String) : Json := .arr (texts.map Json.str)

def tosCurrentVersion : KeySpec :=
  ⟨"tos_current_version", "legal", "string", .null, "version", validateNonemptyString⟩

def privacyCurrentVersion : KeySpec :=
  ⟨"privacy_current_version", "legal", "string", .null, "version", validateNonemptyString⟩

def driveTimeFallbackMinutes : KeySpec :=
  ⟨"drive_time_fallback_minutes", "calendar", "int", .int 60, "minutes", validatePositiveInt⟩

def defaultSalesRepId (uuidOf : String → Option ℕ) : KeySpec :=
  ⟨"default_sales_rep_id", "lead_routing", "uuid", .null, "user_id", validateUuidOrNone uuidOf⟩

def notificationPreferencesHiddenRoles : KeySpec :=
  ⟨"notification_preferences_hidden_roles", "notifications", "list[string]", .arr [], "roles",
    validateRoleList⟩

def intakeFieldsVisible : KeySpec :=
  ⟨"intake_fields_visible", "intake", "list[string]", textList intakeFieldsCanonical, "fields",
    validateIntakeFieldSubset⟩

def intakeFieldsOrder : KeySpec :=
  ⟨"intake_fields_order", "intake", "list[string]", textList intakeFieldsCanonical, "fields",
    validateIntakeFieldSubset⟩

def consignmentPriceChangeThresholdPct : KeySpec :=
  ⟨"consignment_price_change_threshold_pct", "consignment", "int", .int 10, "pct",
    validateIntInRange 0 100⟩

def calendarBufferMinutesDefault : KeySpec :=
  ⟨"calendar_buffer_minutes_default", "calendar", "int", .int 30, "minutes", validatePositiveInt⟩

def securitySessionTtlMinutes : KeySpec :=
  ⟨"security_session_ttl_minutes", "security", "int", .int 60, "minutes", validateIntInRange 5 720⟩

def notificationPreferencesReadOnlyRoles : KeySpec :=
  ⟨"notification_preferences_read_only_roles", "notifications", "list[string]",
    textList ["customer"], "roles", validateRoleList⟩

def enablePlaywrightValuationScraper : KeySpec :=
  ⟨"enable_playwright_valuation_scraper", "valuation", "boolean", .bool false, "enabled",
    validateBool⟩

def valuationYearRange : KeySpec :=
  ⟨"valuation_year_range", "valuation", "int", .int 3, "years", validateIntAtLeast 1⟩

def valuationHoursRange : KeySpec :=
  ⟨"valuation_hours_range", "valuation", "int", .int 500, "hours", validateIntAtLeast 1⟩

def photoGpsRadiusToleranceMeters : KeySpec :=
  ⟨"photo_gps_radius_tolerance_meters", "photos", "int", .int 5000, "meters", validateIntAtLeast 1⟩

def equipmentRecordOverdueThresholdDays : KeySpec :=
  ⟨"equipment_record_overdue_threshold_days", "operations", "int", .int 7, "days",
    validateIntAtLeast 1⟩

def pdfPageSize : KeySpec :=
  ⟨"pdf_page_size", "pdf", "string", .str "A4", "size", validatePageSize⟩

def pdfBrandPrimaryColor : KeySpec :=
  ⟨"pdf_brand_primary_color", "pdf", "string", .str "#1E3A5F", "color", noValidator⟩

def pdfFontFamily : KeySpec :=
  ⟨"pdf_font_family", "pdf", "string", .str "Inter, sans-serif", "font", noValidator⟩

def companyLogoUrl : KeySpec :=
  ⟨"company_logo_url", "pdf", "string", .str "", "url", noValidator⟩

/-- `_REGISTRY`, in the order of registration. -/
def registry (uuidOf : String → Option ℕ) : List KeySpec :=
  [tosCurrentVersion, privacyCurrentVersion, driveTimeFallbackMinutes, defaultSalesRepId uuidOf,
    notificationPreferencesHiddenRoles, intakeFieldsVisible, intakeFieldsOrder,
    consignmentPriceChangeThresholdPct, calendarBufferMinutesDefault, securitySessionTtlMinutes,
    notificationPreferencesReadOnlyRoles, enablePlaywrightValuationScraper, valuationYearRange,
    valuationHoursRange, photoGpsRadiusToleranceMeters, equipmentRecordOverdueThresholdDays,
    pdfPageSize, pdfBrandPrimaryColor, pdfFontFamily, companyLogoUrl]

/-- The validator takes the value. -/
def KeySpec.accepts (spec : KeySpec) (v : Json) : Bool := (spec.validator v).isOk

/-- `get_spec` (line 86). -/
def getSpec (uuidOf : String → Option ℕ) (key : String) : Except ConfigError KeySpec :=
  match (registry uuidOf).find? fun spec => spec.name = key with
  | some spec => .ok spec
  | none => .error (.keyError key)

/-! ## Reads and writes -/

/-- The rows of `app_config` by key. -/
abbrev ConfigRows := String → Option Json

/-- What a specification reads from a stored blob; a null blob is `None`, as no row
    is. -/
def KeySpec.read (spec : KeySpec) : Option Json → Json
  | none => spec.default
  | some .null => spec.default
  | some raw =>
    match parseDictField spec.field raw with
    | .ok v => v
    | .error _ => spec.default

/-- `get_typed` (line 97). -/
def getTyped (uuidOf : String → Option ℕ) (rows : ConfigRows) (key : String) :
    Except ConfigError Json := do
  let spec ← getSpec uuidOf key
  return spec.read (rows key)

/-- `set_typed` (line 120). -/
def setTyped (uuidOf : String → Option ℕ) (rows : ConfigRows) (key : String) (typedValue : Json) :
    Except ConfigError ConfigRows := do
  let spec ← getSpec uuidOf key
  spec.validator typedValue
  return Function.update rows key (some (serializeDictField spec.field typedValue))

/-- `read_drive_time_fallback_minutes`
    (`src/api/services/google_maps_service.py` line 297). -/
def readDriveTimeFallbackMinutes (uuidOf : String → Option ℕ) (rows : ConfigRows) :
    Except ConfigError Json :=
  getTyped uuidOf rows driveTimeFallbackMinutes.name

/-! ## What is written is read back -/

variable {uuidOf : String → Option ℕ} {rows rows' : ConfigRows} {spec : KeySpec} {v : Json}

theorem names_nodup (uuidOf : String → Option ℕ) :
    ((registry uuidOf).map KeySpec.name).Nodup := by
  have hnames : (registry uuidOf).map KeySpec.name =
      (registry fun _ => none).map KeySpec.name := rfl
  rw [hnames]
  decide +kernel

/-- A registered specification is found by its name. -/
theorem getSpec_name (h : spec ∈ registry uuidOf) : getSpec uuidOf spec.name = .ok spec := by
  cases hfind : (registry uuidOf).find? (fun s => s.name = spec.name) with
  | none => exact absurd (decide_eq_true rfl) (List.find?_eq_none.mp hfind spec h)
  | some found =>
    have hname : found.name = spec.name := by simpa using List.find?_some hfind
    have hsame := List.inj_on_of_nodup_map (names_nodup uuidOf) (List.mem_of_find?_eq_some hfind)
      h hname
    rw [getSpec, hfind, hsame]

theorem getTyped_eq (h : spec ∈ registry uuidOf) (rows : ConfigRows) :
    getTyped uuidOf rows spec.name = .ok (spec.read (rows spec.name)) := by
  rw [getTyped, getSpec_name h]
  rfl

/-- What a write leaves. -/
theorem setTyped_eq_ok (h : spec ∈ registry uuidOf) :
    setTyped uuidOf rows spec.name v = .ok rows' ↔ spec.accepts v = true ∧
      rows' = Function.update rows spec.name (some (serializeDictField spec.field v)) := by
  rw [setTyped, getSpec_name h, KeySpec.accepts]
  cases hv : spec.validator v with
  | error e => simp [hv, bind, Except.bind, Except.isOk, Except.toBool]
  | ok u => simp [hv, bind, Except.bind, pure, Except.pure, Except.isOk, Except.toBool, eq_comm]

theorem read_serializeDictField (spec : KeySpec) (v : Json) :
    spec.read (some (serializeDictField spec.field v)) = v := by
  simp [KeySpec.read, serializeDictField, parseDictField, Dict.get]

/-- An accepted value is read back. -/
theorem getTyped_setTyped (h : spec ∈ registry uuidOf)
    (hset : setTyped uuidOf rows spec.name v = .ok rows') :
    getTyped uuidOf rows' spec.name = .ok v := by
  obtain ⟨-, rfl⟩ := (setTyped_eq_ok h).mp hset
  rw [getTyped_eq h, Function.update_self, read_serializeDictField]

/-! ## What is read is usable -/

/-- The default, or a value the validator takes. -/
def KeySpec.Fits (spec : KeySpec) (v : Json) : Prop := v = spec.default ∨ spec.accepts v = true

/-- The keys that may be `None`: by their default, or for want of a validator. -/
def nullableKeys : List String :=
  ["tos_current_version", "privacy_current_version", "default_sales_rep_id",
    "pdf_brand_primary_color", "pdf_font_family", "company_logo_url"]

def isNull : Json → Bool
  | .null => true
  | _ => false

theorem isNull_iff {v : Json} : isNull v = true ↔ .null = v := by
  cases v with
  | null => simp [isNull]
  | _ => simp [isNull]

theorem fits_null_iff (h : spec ∈ registry uuidOf) :
    spec.Fits .null ↔ spec.name ∈ nullableKeys := by
  have hall : ((registry uuidOf).all fun spec =>
      (isNull spec.default || spec.accepts .null) = decide (spec.name ∈ nullableKeys)) = true := rfl
  have hspec := of_decide_eq_true (List.all_eq_true.mp hall spec h)
  rw [Bool.eq_iff_iff, Bool.or_eq_true, isNull_iff, decide_eq_true_eq] at hspec
  exact hspec

/-- A blob that reads as a usable value: absent or null, an object whose field holds
    one, or, for a key that may be `None`, anything without the field. -/
def StoredUsable (spec : KeySpec) : Option Json → Prop
  | none => True
  | some .null => True
  | some (.obj fields) =>
    match fields.lookup spec.field with
    | some v => spec.Fits v
    | none => spec.name ∈ nullableKeys
  | some _ => spec.name ∈ nullableKeys

/-- A read gives the default or an accepted value. -/
def ReadsUsable (uuidOf : String → Option ℕ) (spec : KeySpec) (rows : ConfigRows) : Prop :=
  ∃ v, getTyped uuidOf rows spec.name = .ok v ∧ spec.Fits v

/-- An accepted value is written and read back. -/
def RoundTrips (uuidOf : String → Option ℕ) (spec : KeySpec) (rows : ConfigRows) : Prop :=
  ∀ v, spec.accepts v = true → ∃ rows', setTyped uuidOf rows spec.name v = .ok rows' ∧
    getTyped uuidOf rows' spec.name = .ok v

/-- The configuration is usable: for every key, reads are, and writes are read back. -/
def ConfigUsable (uuidOf : String → Option ℕ) (rows : ConfigRows) : Prop :=
  ∀ spec ∈ registry uuidOf, ReadsUsable uuidOf spec rows ∧ RoundTrips uuidOf spec rows

theorem fits_read_iff (h : spec ∈ registry uuidOf) (raw : Option Json) :
    spec.Fits (spec.read raw) ↔ StoredUsable spec raw := by
  have hnull := fits_null_iff h
  match raw with
  | none => exact iff_of_true (.inl rfl) trivial
  | some .null => exact iff_of_true (.inl rfl) trivial
  | some (.obj fields) =>
    show spec.Fits (Dict.get fields spec.field) ↔ _
    simp only [StoredUsable, Dict.get]
    cases fields.lookup spec.field with
    | none => exact hnull
    | some v => exact Iff.rfl
  | some (.bool b) => exact hnull
  | some (.int n) => exact hnull
  | some (.float q) => exact hnull
  | some (.str s) => exact hnull
  | some (.arr items) => exact hnull

theorem roundTrips (h : spec ∈ registry uuidOf) (rows : ConfigRows) :
    RoundTrips uuidOf spec rows := by
  intro v hv
  have hset : setTyped uuidOf rows spec.name v =
      .ok (Function.update rows spec.name (some (serializeDictField spec.field v))) :=
    (setTyped_eq_ok h).mpr ⟨hv, rfl⟩
  exact ⟨_, hset, getTyped_setTyped h hset⟩

/-- The calendar gets a positive number of minutes exactly from a usable blob. -/
theorem driveTime_positive_iff (uuidOf : String → Option ℕ) (rows : ConfigRows) :
    (∃ v n, readDriveTimeFallbackMinutes uuidOf rows = .ok v ∧ integer v = some n ∧ 0 < n) ↔
      StoredUsable driveTimeFallbackMinutes (rows driveTimeFallbackMinutes.name) := by
  have hspec : driveTimeFallbackMinutes ∈ registry uuidOf := by simp [registry]
  have haccepts : ∀ v, driveTimeFallbackMinutes.accepts v = (integer v).any (0 < ·) := by
    intro v
    show (validatePositiveInt v).isOk = _
    unfold validatePositiveInt
    split_ifs with h
    · exact h.symm
    · exact (Bool.eq_false_iff.mpr h).symm
  have hfits : ∀ v, driveTimeFallbackMinutes.Fits v ↔ ∃ n, integer v = some n ∧ 0 < n := by
    intro v
    rw [KeySpec.Fits, haccepts, Option.any_eq_true]
    simp only [decide_eq_true_eq]
    exact or_iff_right_of_imp fun hdefault => ⟨60, by rw [hdefault]; rfl, by decide⟩
  rw [← fits_read_iff hspec, hfits, readDriveTimeFallbackMinutes, getTyped_eq hspec]
  constructor
  · rintro ⟨v, n, hv, hn⟩
    exact ⟨n, by rwa [Except.ok.inj hv]⟩
  · rintro ⟨n, hn⟩
    exact ⟨_, n, rfl, hn⟩

/-- The default rep of lead routing is the typed value of its key. -/
theorem read_defaultSalesRepId (db : LeadRouting.RoutingDb) :
    (defaultSalesRepId uuidOf).read db.defaultSalesRepId = db.defaultRep := by
  unfold LeadRouting.RoutingDb.defaultRep
  match db.defaultSalesRepId with
  | none => rfl
  | some .null => rfl
  | some (.obj fields) => rfl
  | some (.bool b) => rfl
  | some (.int n) => rfl
  | some (.float q) => rfl
  | some (.str s) => rfl
  | some (.arr items) => rfl

/-- When the configuration is usable: every stored blob is. -/
theorem configUsable_iff (uuidOf : String → Option ℕ) (rows : ConfigRows) :
    ConfigUsable uuidOf rows ↔ ∀ spec ∈ registry uuidOf, StoredUsable spec (rows spec.name) := by
  refine forall₂_congr fun spec h => ?_
  rw [← fits_read_iff h, ReadsUsable, getTyped_eq h]
  constructor
  · rintro ⟨⟨v, hv, hfits⟩, -⟩
    rwa [Except.ok.inj hv]
  · exact fun hfits => ⟨⟨_, rfl, hfits⟩, roundTrips h rows⟩

/-- A drive time that is no number is read as it stands. -/
theorem drive_time_text : ¬ ∀ (uuidOf : String → Option ℕ) (rows : ConfigRows),
    ConfigUsable uuidOf rows := by
  intro h
  let stored : ConfigRows := fun _ => some (.obj [("minutes", .str "soon")])
  have hspec : driveTimeFallbackMinutes ∈ registry fun _ => none := by simp [registry]
  obtain ⟨⟨v, hread, hfits⟩, -⟩ := h (fun _ => none) stored driveTimeFallbackMinutes hspec
  rw [getTyped_eq hspec] at hread
  have hv : v = .str "soon" := (Except.ok.inj hread).symm
  subst hv
  rcases hfits with hdefault | haccepts
  · cases hdefault
  · cases haccepts

end TempleConsign.AppConfig
