import TempleConsign.PhotoSlots
import TempleConsign.Lib.Loop
import TempleConsign.Lib.UuidText

/-!
# Storage keys of uploaded photos

Model of the key builders and validators of `src/api/services/photo_upload_service.py`
and `src/api/services/appraisal_photo_service.py`. A key is built from an identifier, a
fresh UUID and an extension, and is checked as a text: a prefix, two parts around a dot,
an extension in any case and a stem that `uuid.UUID` reads.

Python's `str.lower` is a function of each character and of its context; what it does
outside ASCII is a parameter.

Results:
* `validateKey_ok_iff`: the accepted keys.
* `directories_disjoint`: no key is accepted by both services.
* `segment_of_accepted`: after the prefix they have no slash.
* `storageKeys_sound`: both builders and validators agree, and no key has two owners.
-/

namespace TempleConsign.StorageKeys

open ServiceLib PhotoSlots

/-! ## Texts -/

/-- Unicode's tables; `lowerAt` is the lower case of a character outside ASCII
    between what stands before and after it. -/
structure TextTables extends UuidText.Unicode where
  lowerAt : List Char → List Char → Char → List Char
  reprList : List String → String

def lowerFrom (u : TextTables) (before : List Char) : List Char → List Char
  | [] => []
  | c :: l =>
    (if c.toNat < 128 then [c.toLower] else u.lowerAt before l c) ++ lowerFrom u (before ++ [c]) l

/-- `str.lower`. -/
def lower (u : TextTables) (s : String) : String := String.ofList (lowerFrom u [] s.toList)

/-- The functions on texts the photo services call. -/
def TextTables.env (u : TextTables) : PhotoEnv where
  lower := lower u
  isUuid s := (UuidText.parse u.toUnicode s).isSome
  idText := UuidText.text
  reprList := u.reprList

theorem TextTables.env_idText (u : TextTables) (n : ℕ) : u.env.idText n = UuidText.text n := rfl

theorem TextTables.env_isUuid (u : TextTables) (s : String) :
    u.env.isUuid s = (UuidText.parse u.toUnicode s).isSome := by
  rw [TextTables.env]

/-- `PurePosixPath(path).name`. -/
def pathName (path : List Char) : List Char :=
  ((path.splitOn '/').filter fun part => part ≠ [] && part ≠ ['.']).getLast?.getD []

/-- `PurePosixPath(path).suffix`: from the last dot of the name on, unless it is the
    first or the last character. -/
def pathSuffix (path : List Char) : List Char :=
  let name := pathName path
  let tail := name.rtakeWhile (· ≠ '.')
  if '.' ∈ name ∧ tail ≠ [] ∧ tail.length + 1 < name.length then '.' :: tail else []

/-! ## Both validators -/

/-- The checks of a key: `directory` and the complaint about the prefix are the
    service's. -/
def validateKey (env : PhotoEnv) (directory notOwned : String) (storageKey : String) (id : ℕ) :
    Except Exn Unit :=
  let expectedPrefix := (directory ++ env.idText id ++ "/").toList
  if expectedPrefix.isPrefixOf storageKey.toList then
    match (storageKey.toList.drop expectedPrefix.length).splitOn '.' with
    | [stem, extension] =>
      if env.lower (String.ofList extension) ∈ allowedExtensions ∧
          env.isUuid (String.ofList stem) = true then .ok ()
      else .error (.httpException 422 "storage_key format is invalid.")
    | _ => .error (.httpException 422 "storage_key format is invalid.")
  else .error (.httpException 422 notOwned)

/-- A key of a fresh UUID. -/
def keyText (env : PhotoEnv) (directory : String) (id fresh : ℕ) (extension : String) : String :=
  directory ++ env.idText id ++ "/" ++ env.idText fresh ++ "." ++ extension

/-! ## Intake photos -/

/-- `_normalize_extension` (line 53). -/
def normalizeExtension (env : PhotoEnv) (filename : String) : Except Exn String :=
  let extension := env.lower (String.ofList ((pathSuffix filename.toList).dropWhile (· = '.')))
  if extension = "" ∨ extension ∉ allowedExtensions then
    .error (.httpException 422 ("Unsupported file extension. Allowed: " ++
      env.reprList (allowedExtensions.mergeSort fun a b => a ≤ b) ++ "."))
  else .ok extension

/-- `build_storage_key` (line 91). -/
def buildStorageKey (env : PhotoEnv) (equipmentRecordId fresh : ℕ) (filename : String) :
    Except Exn String := do
  let extension ← normalizeExtension env filename
  return keyText env "photos/" equipmentRecordId fresh extension

/-- `_validate_content_type` (line 63). -/
def validateImageType (env : PhotoEnv) (contentType : String) : Except Exn Unit :=
  if env.lower contentType ∈ allowedContentTypes then .ok ()
  else .error (.httpException 422 "Only image uploads are allowed for customer intake photos.")

/-- The check of `sha256` (line 149). -/
def validateSha256 (env : PhotoEnv) : Option String → Except Exn Unit
  | none => .ok ()
  | some sha256 =>
    if sha256.length = 64 ∧ (env.lower sha256).toList.all (· ∈ UuidText.lowerDigits) then .ok ()
    else .error (.httpException 422 "sha256 must be 64 hex characters.")

/-- `validate_finalize_inputs` (line 124). -/
def validateFinalizeInputs (env : PhotoEnv) (storageKey : String) (equipmentRecordId : ℕ)
    (contentType : String) (sha256 : Option String) : Except Exn Unit := do
  validateImageType env contentType
  validateKey env "photos/" "storage_key does not belong to this equipment record." storageKey
    equipmentRecordId
  validateSha256 env sha256

/-! ## Appraisal photos -/

/-- `_CONTENT_TYPE_TO_EXT` (line 37). -/
def contentTypeToExt : List (String × String) :=
  [("image/jpeg", "jpg"), ("image/png", "png"), ("image/webp", "webp"), ("image/heic", "heic"),
    ("image/heif", "heif")]

/-- `_build_storage_key` (line 183). -/
def buildAppraisalKey (env : PhotoEnv) (submissionId fresh : ℕ) (contentType : String) : String :=
  keyText env "appraisal-photos/" submissionId fresh
    ((contentTypeToExt.lookup (env.lower contentType)).getD "jpg")

theorem validateStorageKey_eq (env : PhotoEnv) (storageKey : String) (submissionId : ℕ) :
    validateStorageKey env storageKey submissionId =
      validateKey env "appraisal-photos/" "storage_key does not belong to this submission."
        storageKey submissionId := rfl

/-! ## Accepted keys -/

section Split

variable {α : Type} [DecidableEq α] {a : α} {l front back : List α}

theorem not_mem_of_splitOn_singleton (h : (l.splitOn a).length = 1) : a ∉ l := by
  intro hmem
  obtain ⟨front, back, rfl⟩ := List.append_of_mem hmem
  have hfront := List.length_pos_iff.mpr (List.splitOn_ne_nil a front)
  have hback := List.length_pos_iff.mpr (List.splitOn_ne_nil a back)
  rw [List.splitOn_append_cons_self, List.length_append] at h
  omega

/-- A list splits in two at the only place where `a` stands. -/
theorem splitOn_eq_pair_iff :
    l.splitOn a = [front, back] ↔ l = front ++ a :: back ∧ a ∉ front ∧ a ∉ back := by
  constructor
  · intro h
    have hl : l = front ++ a :: back := by
      have hjoin : [a].intercalate (l.splitOn a) = l := List.intercalate_splitOn a
      rw [h] at hjoin
      simpa [List.intercalate] using hjoin.symm
    have hfront := List.length_pos_iff.mpr (List.splitOn_ne_nil a front)
    have hback := List.length_pos_iff.mpr (List.splitOn_ne_nil a back)
    have hlength := congrArg List.length h
    rw [hl, List.splitOn_append_cons_self, List.length_append] at hlength
    simp only [List.length_cons, List.length_nil] at hlength
    exact ⟨hl, not_mem_of_splitOn_singleton (by omega), not_mem_of_splitOn_singleton (by omega)⟩
  · rintro ⟨rfl, hfront, hback⟩
    rw [List.splitOn_append_cons_self, List.splitOn_eq_singleton hfront,
      List.splitOn_eq_singleton hback]
    rfl

end Split

/-- The accepted keys: the prefix, a stem that reads as a UUID, a dot and an allowed
    extension. -/
theorem validateKey_ok_iff {env : PhotoEnv} {directory notOwned storageKey : String} {id : ℕ} :
    validateKey env directory notOwned storageKey id = .ok () ↔ ∃ stem extension : String,
      storageKey = directory ++ env.idText id ++ "/" ++ stem ++ "." ++ extension ∧
        '.' ∉ stem.toList ∧ '.' ∉ extension.toList ∧ env.lower extension ∈ allowedExtensions ∧
        env.isUuid stem = true := by
  unfold validateKey
  constructor
  · intro h
    dsimp only at h
    split_ifs at h with hfirst
    obtain ⟨rest, hrest⟩ := List.isPrefixOf_iff_prefix.mp hfirst
    split at h
    · rename_i stem extension hsplit
      split_ifs at h with hparts
      rw [← hrest, List.drop_left] at hsplit
      obtain ⟨hrestEq, hstem, hextension⟩ := splitOn_eq_pair_iff.mp hsplit
      refine ⟨String.ofList stem, String.ofList extension, ?_, by simpa using hstem,
        by simpa using hextension, hparts⟩
      apply String.toList_injective
      rw [← hrest, hrestEq]
      simp
    · cases h
  · rintro ⟨stem, extension, rfl, hstem, hextension, hparts⟩
    have hkey : (directory ++ env.idText id ++ "/" ++ stem ++ "." ++ extension).toList =
        (directory ++ env.idText id ++ "/").toList ++ (stem.toList ++ '.' :: extension.toList) := by
      simp
    have hsplit : (stem.toList ++ '.' :: extension.toList).splitOn '.' =
        [stem.toList, extension.toList] := splitOn_eq_pair_iff.mpr ⟨rfl, hstem, hextension⟩
    dsimp only
    rw [hkey, if_pos (List.isPrefixOf_iff_prefix.mpr (List.prefix_append _ _)), List.drop_left,
      hsplit]
    simp only [String.ofList_toList]
    exact if_pos hparts

variable {u : TextTables}

/-- Allowed extensions are in lower case. -/
theorem lower_extension {extension : String} (h : extension ∈ allowedExtensions) :
    lower u extension = extension := by
  simp only [allowedExtensions, List.mem_cons, List.not_mem_nil, or_false] at h
  rcases h with rfl | rfl | rfl | rfl | rfl | rfl
  · rfl
  · rfl
  · rfl
  · rfl
  · rfl
  · rfl

/-- An ASCII character that has no other lower case stays. -/
theorem mem_lowerFrom {c : Char} (hascii : c.toNat < 128) (hlower : c.toLower = c)
    {before l : List Char} (h : c ∈ l) : c ∈ lowerFrom u before l := by
  induction l generalizing before with
  | nil => cases h
  | cons d l ih =>
    rw [lowerFrom, List.mem_append]
    rcases List.mem_cons.mp h with rfl | hl
    · exact .inl (by simp [hascii, hlower])
    · exact .inr (ih hl)

/-- No key is both an intake and an appraisal photo's. -/
theorem directories_disjoint {env : PhotoEnv} {key notOwned notOwned' : String} {id id' : ℕ}
    (h : validateKey env "photos/" notOwned key id = .ok ()) :
    validateKey env "appraisal-photos/" notOwned' key id' ≠ .ok () := by
  intro h'
  obtain ⟨stem, extension, hkey, -⟩ := validateKey_ok_iff.mp h
  obtain ⟨stem', extension', hkey', -⟩ := validateKey_ok_iff.mp h'
  have hfirst := congrArg (·.toList.head?) (hkey.symm.trans hkey')
  simp at hfirst

/-- After the prefix an accepted key has no slash. -/
theorem segment_of_accepted {stem extension : String}
    (hextension : lower u extension ∈ allowedExtensions)
    (hstem : (UuidText.parse u.toUnicode stem).isSome = true) :
    '/' ∉ (stem ++ "." ++ extension).toList := by
  obtain ⟨n, hn⟩ := Option.isSome_iff_exists.mp hstem
  have hnoSlash : ∀ e ∈ allowedExtensions, '/' ∉ e.toList := by decide
  intro hmem
  simp only [String.toList_append, List.mem_append] at hmem
  rcases hmem with (hslash | hslash) | hslash
  · exact absurd (UuidText.mem_readable_of_parse hn hslash (by decide)) (by decide)
  · exact absurd hslash (by decide)
  · refine hnoSlash _ hextension ?_
    rw [lower, String.toList_ofList]
    exact mem_lowerFrom (by decide) (by decide) hslash

/-! ## One owner for each key -/

/-- `uuid.UUID`, by its number. -/
abbrev Uuid := Fin (2 ^ 128)

/-- What is asked of a builder and a validator. `x` stands for the other arguments of
    the validator, which pass their own checks when `good x`. -/
structure KeyNamespace {α : Type} (u : TextTables) (directory : String) (good : α → Prop)
    (built : Uuid → String → Prop) (accepts : α → Uuid → String → Prop) : Prop where
  complete : ∀ id key x, built id key → good x → accepts x id key
  disjoint : ∀ id id' key x x', accepts x id key → accepts x' id' key → id = id'
  oneSegment : ∀ id key x, accepts x id key → ∃ stem extension : String,
    key = directory ++ UuidText.text id ++ "/" ++ stem ++ "." ++ extension ∧
      '/' ∉ (stem ++ "." ++ extension).toList ∧ lower u extension ∈ allowedExtensions

/-- A key of two identifiers under one directory has one identifier. -/
theorem id_of_prefix {directory : String} {id id' : Uuid} {rest rest' : String}
    (h : directory ++ UuidText.text id ++ "/" ++ rest =
      directory ++ UuidText.text id' ++ "/" ++ rest') : id = id' := by
  have hlist := congrArg String.toList h
  simp only [String.toList_append, List.append_assoc] at hlist
  have htext := List.append_inj_left (List.append_cancel_left hlist)
    ((UuidText.length_text id).trans (UuidText.length_text id').symm)
  exact Fin.ext (UuidText.text_injective id.isLt id'.isLt (String.toList_injective htext))

/-- Canonical texts have no dot. -/
theorem dot_notMem_text (n : ℕ) : '.' ∉ (UuidText.text n).toList := by
  intro hmem
  rw [UuidText.text, String.toList_ofList] at hmem
  rcases UuidText.mem_dashed hmem with hdigit | hdash
  · exact absurd (UuidText.mem_hexDigits hdigit) (by decide)
  · exact absurd hdash (by decide)

/-- A key of a fresh UUID and an allowed extension is accepted. -/
theorem validateKey_keyText {directory notOwned : String} {id fresh : Uuid} {extension : String}
    (h : extension ∈ allowedExtensions) :
    validateKey u.env directory notOwned (keyText u.env directory id fresh extension) id =
      .ok () := by
  have hnoDot : ∀ e ∈ allowedExtensions, '.' ∉ e.toList := by decide
  have hlower : lower u extension ∈ allowedExtensions := by
    rw [lower_extension h]
    exact h
  rw [validateKey_ok_iff]
  refine ⟨u.env.idText fresh, extension, ?_, ?_, hnoDot extension h, hlower, ?_⟩
  · rw [keyText]
  · rw [TextTables.env_idText]
    exact dot_notMem_text fresh
  · rw [TextTables.env_isUuid, TextTables.env_idText, UuidText.parse_text _ fresh.isLt,
      Option.isSome_some]

/-- A service whose validator checks the key with `validateKey`, and whose builder
    appends a fresh UUID and an allowed extension. -/
theorem keyNamespace {α : Type} {directory notOwned : String} {good : α → Prop}
    {built : Uuid → String → Prop} {accepts : α → Uuid → String → Prop}
    (hbuilt : ∀ id key, built id key → ∃ (fresh : Uuid) (extension : String),
      extension ∈ allowedExtensions ∧ key = keyText u.env directory id fresh extension)
    (haccepts : ∀ x id key, accepts x id key ↔
      good x ∧ validateKey u.env directory notOwned key id = .ok ()) :
    KeyNamespace u directory good built accepts where
  complete := by
    intro id key x hkey hx
    obtain ⟨fresh, extension, hextension, rfl⟩ := hbuilt id key hkey
    exact (haccepts x id _).mpr ⟨hx, validateKey_keyText hextension⟩
  disjoint := by
    intro id id' key x x' h h'
    obtain ⟨stem, extension, hkey, -⟩ := validateKey_ok_iff.mp ((haccepts x id key).mp h).2
    obtain ⟨stem', extension', hkey', -⟩ := validateKey_ok_iff.mp ((haccepts x' id' key).mp h').2
    rw [hkey] at hkey'
    simp only [String.append_assoc, TextTables.env_idText] at hkey'
    apply id_of_prefix
    simpa only [String.append_assoc] using hkey'
  oneSegment := by
    intro id key x h
    obtain ⟨stem, extension, hkey, -, -, hextension, hstem⟩ :=
      validateKey_ok_iff.mp ((haccepts x id key).mp h).2
    exact ⟨stem, extension, hkey, segment_of_accepted hextension hstem, hextension⟩

/-! ## The two services -/

/-- The checks and the key of `generate_upload_intent` for an intake photo (line 97). -/
def intakeKey (env : PhotoEnv) (id fresh : ℕ) (filename contentType : String) :
    Except Exn String := do
  validateImageType env contentType
  buildStorageKey env id fresh filename

/-- The checks and the key of `generate_upload_intent` for an appraisal photo (line 53). -/
def appraisalKey (env : PhotoEnv) (id fresh : ℕ) (contentType : String) : Except Exn String := do
  validateContentType env contentType
  return buildAppraisalKey env id fresh contentType

/-- The extension of an accepted file name is allowed. -/
theorem normalizeExtension_allowed {env : PhotoEnv} {filename extension : String}
    (h : normalizeExtension env filename = .ok extension) : extension ∈ allowedExtensions := by
  unfold normalizeExtension at h
  dsimp only at h
  split_ifs at h with hbad
  cases h
  exact not_not.mp (not_or.mp hbad).2

/-- So is that of an accepted content type. -/
theorem contentTypeToExt_allowed (contentType : String) :
    (contentTypeToExt.lookup contentType).getD "jpg" ∈ allowedExtensions := by
  have htable : ∀ entry ∈ contentTypeToExt, entry.2 ∈ allowedExtensions := by decide
  cases hlookup : contentTypeToExt.lookup contentType with
  | none => exact (by decide : "jpg" ∈ allowedExtensions)
  | some extension =>
    have hentry : (contentType, extension) ∈ contentTypeToExt := by
      obtain ⟨before, after, heq, -⟩ := List.lookup_eq_some_iff.mp hlookup
      rw [heq]
      simp
    exact htable _ hentry

theorem intakeKey_ok {env : PhotoEnv} {id fresh : ℕ} {filename contentType key : String}
    (h : intakeKey env id fresh filename contentType = .ok key) :
    ∃ extension ∈ allowedExtensions, key = keyText env "photos/" id fresh extension := by
  unfold intakeKey buildStorageKey at h
  cases htype : validateImageType env contentType with
  | error e =>
    rw [htype] at h
    cases h
  | ok _ =>
    cases hextension : normalizeExtension env filename with
    | error e =>
      rw [htype, hextension] at h
      cases h
    | ok extension =>
      rw [htype, hextension] at h
      exact ⟨extension, normalizeExtension_allowed hextension, (Except.ok.inj h).symm⟩

theorem appraisalKey_ok {env : PhotoEnv} {id fresh : ℕ} {contentType key : String}
    (h : appraisalKey env id fresh contentType = .ok key) :
    ∃ extension ∈ allowedExtensions, key = keyText env "appraisal-photos/" id fresh extension := by
  unfold appraisalKey at h
  cases htype : validateContentType env contentType with
  | error e =>
    rw [htype] at h
    cases h
  | ok _ =>
    rw [htype] at h
    exact ⟨_, contentTypeToExt_allowed _, (Except.ok.inj h).symm⟩

theorem except_bind_ok_iff {ε : Type} {a b : Except ε Unit} :
    (do a; b) = .ok () ↔ a = .ok () ∧ b = .ok () := by
  rw [except_bind_eq_ok]
  constructor
  · rintro ⟨_, ha, hb⟩
    exact ⟨ha, hb⟩
  · rintro ⟨ha, hb⟩
    exact ⟨(), ha, hb⟩

theorem validateFinalizeInputs_ok_iff {env : PhotoEnv} {key contentType : String} {id : ℕ}
    {sha256 : Option String} : validateFinalizeInputs env key id contentType sha256 = .ok () ↔
      (validateImageType env contentType = .ok () ∧ validateSha256 env sha256 = .ok ()) ∧
        validateKey env "photos/" "storage_key does not belong to this equipment record." key id =
          .ok () := by
  unfold validateFinalizeInputs
  rw [except_bind_ok_iff, except_bind_ok_iff]
  tauto

theorem validate_ok_iff {env : PhotoEnv} {c : Finalize} : c.validate env = .ok () ↔
    validateContentType env c.capture.contentType = .ok () ∧
      validateKey env "appraisal-photos/" "storage_key does not belong to this submission."
        c.storageKey c.submissionId = .ok () := by
  rw [← validateStorageKey_eq]
  exact except_bind_ok_iff

/-- Both namespaces are complete and disjoint: the key of an accepted upload is accepted
    when it is finalized, no key has two owners, and what follows the prefix is one
    segment with an allowed extension. -/
theorem storageKeys_sound (u : TextTables) :
    KeyNamespace u "photos/"
        (fun x : String × Option String =>
          validateImageType u.env x.1 = .ok () ∧ validateSha256 u.env x.2 = .ok ())
        (fun id key => ∃ (fresh : Uuid) (filename contentType : String),
          intakeKey u.env id fresh filename contentType = .ok key)
        (fun x id key => validateFinalizeInputs u.env key id x.1 x.2 = .ok ()) ∧
      KeyNamespace u "appraisal-photos/"
        (fun c : Finalize => validateContentType u.env c.capture.contentType = .ok ())
        (fun id key => ∃ (fresh : Uuid) (contentType : String),
          appraisalKey u.env id fresh contentType = .ok key)
        (fun c id key => { c with submissionId := id.val, storageKey := key }.validate u.env =
          .ok ()) := by
  constructor
  · apply keyNamespace
    · rintro id key ⟨fresh, filename, contentType, h⟩
      obtain ⟨extension, hextension, hkey⟩ := intakeKey_ok h
      exact ⟨fresh, extension, hextension, hkey⟩
    · intro x id key
      exact validateFinalizeInputs_ok_iff
  · apply keyNamespace
    · rintro id key ⟨fresh, contentType, h⟩
      obtain ⟨extension, hextension, hkey⟩ := appraisalKey_ok h
      exact ⟨fresh, extension, hextension, hkey⟩
    · intro c id key
      exact validate_ok_iff

end TempleConsign.StorageKeys
