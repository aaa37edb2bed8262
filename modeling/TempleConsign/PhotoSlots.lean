import Mathlib.Data.List.Dedup
import Mathlib.Data.List.Sort
import TempleConsign.Database
import TempleConsign.Lib.ReadCommitted

/-!
# Photos of a slot

`finalize` (`src/api/services/appraisal_photo_service.py` line 91) reads the active
photos of the slot without a lock, marks them deleted and inserts the new one. Its
statements run in transactions at READ COMMITTED. The unique index of the table is on
`gcs_path` (migration 026); the index on the slot is not unique.

`finalized` keeps the slot of every committed `finalize`, so that a transaction can
remember how many there were when it read the slot.

Deviations:
* `str.lower`, the check of a UUID, the text of an id and `repr` of a list are
  parameters (`PhotoEnv`).
* The soft deletes of one call carry one reading of the clock.

Results:
* `photoSlots_kept_iff`: at most one photo of a slot is active in every committed state
  exactly when no `finalize` commits after another one of its slot has committed since
  it read the slot. A slot with an active photo keeps one in every case.
* `two_retakes`: two overlapping retakes leave two active photos.
* `hasActive_step`: what every event keeps.
-/

namespace TempleConsign.PhotoSlots

open ServiceLib

/-! ## Tables -/

/-- The fields of a photo that `finalize` stores as they come. -/
structure Capture where
  sha256 : Option String
  contentType : String
  fileSizeBytes : Option ℤ
  captureTimestamp : Option ℤ
  gpsTimestamp : Option ℤ
  gpsLatitude : Option ℚ
  gpsLongitude : Option ℚ
  gpsMissing : Bool
  gpsOutOfRange : Bool
  deriving DecidableEq

/-- `AppraisalPhoto` (`src/api/database/models.py` line 801). -/
structure AppraisalPhoto where
  appraisalSubmissionId : ℕ
  slotLabel : String
  gcsPath : String
  capture : Capture
  deletedAt : Option ℤ
  deriving DecidableEq

/-- The submission and the slot that a photo is for. -/
abbrev Slot := ℕ × String

def AppraisalPhoto.slot (p : AppraisalPhoto) : Slot := (p.appraisalSubmissionId, p.slotLabel)

/-- `AppraisalSubmission` (line 712) as `finalize` reads it. -/
structure Submission where
  appraiserId : Option ℕ
  deletedAt : Option ℤ

/-- `CategoryPhotoSlot` as `_validate_required_photos` reads it. -/
structure CategoryPhotoSlot where
  label : String
  required : Bool
  active : Bool

structure PhotoDb where
  submissions : Store Submission
  roles : ℕ → List RoleSlug
  photos : Store AppraisalPhoto
  finalized : List Slot

/-! ## The call -/

/-- Python's functions on texts. -/
structure PhotoEnv where
  lower : String → String
  isUuid : String → Bool
  idText : ℕ → String
  reprList : List String → String

/-- The arguments of `finalize`; `now` is the clock of the soft deletes. -/
structure Finalize where
  submissionId : ℕ
  slotLabel : String
  storageKey : String
  capture : Capture
  user : ℕ
  now : ℤ

def Finalize.slot (c : Finalize) : Slot := (c.submissionId, c.slotLabel)

/-- The row of lines 135–148. -/
def Finalize.photo (c : Finalize) : AppraisalPhoto where
  appraisalSubmissionId := c.submissionId
  slotLabel := c.slotLabel
  gcsPath := c.storageKey
  capture := c.capture
  deletedAt := none

/-- `_ALLOWED_CONTENT_TYPES` (line 34). -/
def allowedContentTypes : List String :=
  ["image/jpeg", "image/png", "image/webp", "image/heic", "image/heif"]

/-- `_ALLOWED_EXTENSIONS` (line 37). -/
def allowedExtensions : List String := ["jpg", "jpeg", "png", "webp", "heic", "heif"]

/-- Model of `_validate_content_type` (line 189). -/
def validateContentType (env : PhotoEnv) (contentType : String) : Except Exn Unit :=
  if env.lower contentType ∈ allowedContentTypes then .ok ()
  else .error (.httpException 422 "Only image uploads are allowed for appraisal photos.")

/-- Model of `_validate_storage_key` (line 197). -/
def validateStorageKey (env : PhotoEnv) (storageKey : String) (submissionId : ℕ) :
    Except Exn Unit :=
  let expectedPrefix := ("appraisal-photos/" ++ env.idText submissionId ++ "/").toList
  if expectedPrefix.isPrefixOf storageKey.toList then
    match (storageKey.toList.drop expectedPrefix.length).splitOn '.' with
    | [stem, extension] =>
      if env.lower (String.ofList extension) ∈ allowedExtensions ∧
          env.isUuid (String.ofList stem) = true then .ok ()
      else .error (.httpException 422 "storage_key format is invalid.")
    | _ => .error (.httpException 422 "storage_key format is invalid.")
  else .error (.httpException 422 "storage_key does not belong to this submission.")

/-- The two checks before the first statement (lines 114–115). -/
def Finalize.validate (env : PhotoEnv) (c : Finalize) : Except Exn Unit := do
  validateContentType env c.capture.contentType
  validateStorageKey env c.storageKey c.submissionId

/-! ## The transaction -/

/-- What a transaction locks: the photos it updates and the keys it inserts. -/
inductive PhotoRow
  | photo (id : ℕ)
  | path (gcsPath : String)
  deriving DecidableEq

/-- What comes next. `priors` are the photos that were read, `rest` those that are
    still to be updated, and `seen` is the number of calls for the slot that had
    committed at the read. -/
inductive PhotoPoint
  | getSubmission (c : Finalize)
  | checkAccess (c : Finalize) (appraiserId : Option ℕ)
  | selectPriors (c : Finalize)
  | flush (c : Finalize) (priors rest : List ℕ) (seen : ℕ)
  | done (c : Finalize) (priors : List ℕ) (seen : ℕ)

/-- The photo is an active one of the slot. -/
def isActiveOf (slot : Slot) (_ : ℕ) (p : AppraisalPhoto) : Bool :=
  p.slot = slot && p.deletedAt.isNone

/-- `prior.deleted_at = datetime.now(UTC)`. -/
def PhotoDb.softDelete (now : ℤ) (s : PhotoDb) (id : ℕ) : PhotoDb :=
  { s with photos := s.photos.modify id fun p => { p with deletedAt := some now } }

/-- The `INSERT`. -/
def Finalize.insert (c : Finalize) (s : PhotoDb) : PhotoDb :=
  { s with photos := s.photos.create c.photo, finalized := s.finalized ++ [c.slot] }

abbrev PhotoStmt := Stmt PhotoDb PhotoRow PhotoPoint

/-- Model of `finalize` (line 91), a statement at a time: `_get_submission`,
    `_check_access`, the `SELECT` of the prior photos, one `UPDATE` for each of them and
    the `INSERT`, which the unique index on `gcs_path` may refuse. -/
def photoStmt (env : PhotoEnv) : PhotoPoint → PhotoDb → PhotoStmt
  | .getSubmission c, s =>
    match c.validate env, s.submissions.get? c.submissionId with
    | .ok (), some submission =>
      if submission.deletedAt = none then .goOn [] id (.checkAccess c submission.appraiserId)
      else .rollback
    | _, _ => .rollback
  | .checkAccess c appraiserId, s =>
    if .admin ∈ s.roles c.user ∨ appraiserId = some c.user then .goOn [] id (.selectPriors c)
    else .rollback
  | .selectPriors c, s =>
    let priors := (s.photos.select (isActiveOf c.slot)).map Prod.fst
    .goOn [] id (.flush c priors priors (s.finalized.count c.slot))
  | .flush c priors (id :: rest) seen, _ =>
    .goOn [.photo id] (fun s => s.softDelete c.now id) (.flush c priors rest seen)
  | .flush c priors [] seen, s =>
    if s.photos.exists? fun _ p => p.gcsPath = c.storageKey then .rollback
    else .goOn [.path c.storageKey] c.insert (.done c priors seen)
  | .done _ _ _, _ => .commit

def photoProgram (env : PhotoEnv) : Program PhotoDb PhotoRow Finalize PhotoPoint where
  entry := .getSubmission
  stmt := photoStmt env

abbrev PhotoTxn := Txn PhotoDb PhotoRow PhotoPoint

/-! ## The property -/

namespace PhotoDb

/-- The photo `id` is active and in the slot. -/
def Active (s : PhotoDb) (slot : Slot) (id : ℕ) : Prop :=
  ∃ p, s.photos.get? id = some p ∧ p.slot = slot ∧ p.deletedAt = none

/-- At most one photo of each slot is active. -/
def OneActive (s : PhotoDb) : Prop :=
  ∀ slot i j, s.Active slot i → s.Active slot j → i = j

/-- The slot has an active photo. -/
def HasActive (s : PhotoDb) (slot : Slot) : Prop := ∃ id, s.Active slot id

/-- The labels that `_validate_required_photos` reports (`appraisal_submission_service.py`
    lines 350–368). -/
def missingLabels (s : PhotoDb) (slots : List CategoryPhotoSlot) (submissionId : ℕ) :
    List String :=
  let requiredLabels := ((slots.filter fun c => c.required && c.active).map
    CategoryPhotoSlot.label).dedup
  let capturedLabels := (s.photos.select fun _ p =>
    p.appraisalSubmissionId = submissionId && p.deletedAt.isNone).map fun e => e.2.slotLabel
  (requiredLabels.filter fun label => label ∉ capturedLabels).insertionSort (· ≤ ·)

/-- Model of `_validate_required_photos` (line 344). -/
def validateRequiredPhotos (env : PhotoEnv) (s : PhotoDb) (slots : List CategoryPhotoSlot)
    (submissionId : ℕ) : Except Exn Unit :=
  if s.missingLabels slots submissionId = [] then .ok ()
  else .error (.valueError ("Required photo slots not captured: " ++
    env.reprList (s.missingLabels slots submissionId)))

end PhotoDb

/-- The property of a run: never two active photos in a slot, a slot with an active
    photo keeps one, and a submission whose required slots are satisfied stays so. -/
structure SlotsKept (env : PhotoEnv) (s : PhotoDb) (ops : List (RcOp Finalize)) : Prop where
  oneActive : AllStates (rcStep (photoProgram env)) (fun x => x.committed.OneActive) (Rc.init s) ops
  hasActive : ∀ pre post, ops = pre ++ post → ∀ slot,
    (run (rcStep (photoProgram env)) (Rc.init s) pre).committed.HasActive slot →
    (run (rcStep (photoProgram env)) (Rc.init s) ops).committed.HasActive slot
  satisfied : ∀ pre post, ops = pre ++ post → ∀ slots submissionId,
    (run (rcStep (photoProgram env)) (Rc.init s) pre).committed.validateRequiredPhotos env slots
      submissionId = .ok () →
    (run (rcStep (photoProgram env)) (Rc.init s) ops).committed.validateRequiredPhotos env slots
      submissionId = .ok ()

/-- No call for the slot has committed since the transaction read it. -/
def NoneSinceRead (s : PhotoDb) (a : PhotoTxn) : Prop :=
  ∀ c priors seen, a.point = .done c priors seen → s.finalized.count c.slot = seen

/-! ## What the writes do -/

namespace PhotoDb

variable {s : PhotoDb} {slot : Slot} {now : ℤ}

theorem mem_selectPriors {id : ℕ} :
    id ∈ (s.photos.select (isActiveOf slot)).map Prod.fst ↔ s.Active slot id := by
  simp only [List.mem_map, Prod.exists, Store.mem_select, isActiveOf, Bool.and_eq_true,
    decide_eq_true_eq, Option.isNone_iff_eq_none, Active]
  constructor
  · rintro ⟨k, p, hp, rfl⟩
    exact ⟨p, hp⟩
  · rintro ⟨p, hp⟩
    exact ⟨id, p, hp, rfl⟩

theorem softDeleteAll_next (ids : List ℕ) (s : PhotoDb) :
    (ids.foldl (softDelete now) s).photos.next = s.photos.next := by
  induction ids generalizing s with
  | nil => rfl
  | cons id ids ih => rw [List.foldl_cons, ih, softDelete, Store.modify_next]

theorem softDeleteAll_finalized (ids : List ℕ) (s : PhotoDb) :
    (ids.foldl (softDelete now) s).finalized = s.finalized := by
  induction ids generalizing s with
  | nil => rfl
  | cons id ids ih => rw [List.foldl_cons, ih, softDelete]

theorem softDeleteAll_get? (ids : List ℕ) (s : PhotoDb) (k : ℕ) :
    (ids.foldl (softDelete now) s).photos.get? k = (s.photos.get? k).map fun p =>
      if k ∈ ids then { p with deletedAt := some now } else p := by
  induction ids generalizing s with
  | nil => simp
  | cons id ids ih =>
    rw [List.foldl_cons, ih, softDelete, Store.get?_modify]
    by_cases hk : k = id
    · subst hk
      cases s.photos.get? k with
      | none => simp
      | some p => by_cases hmem : k ∈ ids <;> simp [hmem]
    · simp [hk]

/-- A commit of `finalize`: the priors are no longer active and the new photo is. -/
theorem active_commit {c : Finalize} {priors : List ℕ} {id : ℕ} :
    (c.insert (priors.foldl (softDelete c.now) s)).Active slot id ↔
      (id = s.photos.next ∧ c.slot = slot) ∨ (s.Active slot id ∧ id ∉ priors) := by
  unfold Active Finalize.insert
  simp only [Store.get?_create, softDeleteAll_next, softDeleteAll_get?]
  by_cases hid : id = s.photos.next
  · subst hid
    simp only [if_true, Option.some.injEq, exists_eq_left', true_and, Store.get?_next,
      reduceCtorEq, false_and, exists_false, or_false]
    exact and_iff_left rfl
  · simp only [hid, if_false, false_and, false_or, Option.map_eq_some_iff]
    by_cases hmem : id ∈ priors
    · simp [hmem]
    · simp [hmem]

theorem hasActive_commit (c : Finalize) (priors : List ℕ) (h : s.HasActive slot)
    (hpriors : ∀ k ∈ priors, ∀ p, s.photos.get? k = some p → p.slot = c.slot) :
    (c.insert (priors.foldl (softDelete c.now) s)).HasActive slot := by
  by_cases hslot : c.slot = slot
  · exact ⟨s.photos.next, active_commit.mpr (.inl ⟨rfl, hslot⟩)⟩
  · obtain ⟨id, p, hp, hin, hopen⟩ := h
    refine ⟨id, active_commit.mpr (.inr ⟨⟨p, hp, hin, hopen⟩, fun hmem => ?_⟩)⟩
    exact hslot ((hpriors id hmem p hp).symm.trans hin)

theorem missingLabels_eq_nil_iff {slots : List CategoryPhotoSlot} {submissionId : ℕ} :
    s.missingLabels slots submissionId = [] ↔
      ∀ c ∈ slots, c.required = true → c.active = true → s.HasActive (submissionId, c.label) := by
  have hnil : ∀ l : List String, l.insertionSort (· ≤ ·) = [] ↔ l = [] := fun l => by
    constructor
    · intro h
      have hperm := l.perm_insertionSort (· ≤ ·)
      rw [h] at hperm
      exact hperm.nil_eq.symm
    · rintro rfl
      rfl
  unfold missingLabels
  simp only [hnil, List.filter_eq_nil_iff, List.mem_dedup, List.mem_map, List.mem_filter,
    decide_eq_true_eq, not_not, Bool.and_eq_true, Prod.exists, Store.mem_select,
    Option.isNone_iff_eq_none, HasActive, Active, AppraisalPhoto.slot]
  constructor
  · intro h c hc hreq hact
    obtain ⟨id, p, ⟨hp, hsub, hopen⟩, hlabel⟩ := h c.label ⟨c, ⟨hc, hreq, hact⟩, rfl⟩
    exact ⟨id, p, hp, by rw [hsub, hlabel], hopen⟩
  · rintro h label ⟨c, ⟨hc, hreq, hact⟩, rfl⟩
    obtain ⟨id, p, hp, hslot, hopen⟩ := h c hc hreq hact
    obtain ⟨hsub, hlabel⟩ := Prod.mk.inj hslot
    exact ⟨id, p, ⟨hp, hsub, hopen⟩, hlabel⟩

theorem validate_ok_iff {env : PhotoEnv} {slots : List CategoryPhotoSlot} {submissionId : ℕ} :
    s.validateRequiredPhotos env slots submissionId = .ok () ↔
      ∀ c ∈ slots, c.required = true → c.active = true → s.HasActive (submissionId, c.label) := by
  rw [← missingLabels_eq_nil_iff]
  unfold validateRequiredPhotos
  split_ifs with h <;> simp [h]

end PhotoDb

/-! ## What a transaction knows -/

/-- What a transaction that has read the priors of `slot` knows: when no call for the
    slot has committed since, they are the active photos; otherwise there is an active
    one that is not among them. -/
structure Knows (s : PhotoDb) (slot : Slot) (priors : List ℕ) (seen : ℕ) : Prop where
  read : seen ≤ s.finalized.count slot
  inSlot : ∀ k ∈ priors, ∃ p, s.photos.get? k = some p ∧ p.slot = slot
  current : s.finalized.count slot = seen → ∀ k, s.Active slot k → k ∈ priors
  newer : seen < s.finalized.count slot → ∃ k, s.Active slot k ∧ k ∉ priors

/-- The writes of a transaction so far and what it knows. -/
def PhotoOk (s : PhotoDb) (a : PhotoTxn) : Prop :=
  match a.point with
  | .getSubmission _ | .checkAccess _ _ | .selectPriors _ => a.write = id
  | .flush c priors rest seen =>
    (∃ gone, priors = gone ++ rest ∧
      a.write = fun s => gone.foldl (PhotoDb.softDelete c.now) s) ∧ Knows s c.slot priors seen
  | .done c priors seen =>
    (a.write = fun s => c.insert (priors.foldl (PhotoDb.softDelete c.now) s)) ∧
      Knows s c.slot priors seen

variable {env : PhotoEnv} {s : PhotoDb} {a b : PhotoTxn}

/-- What the `SELECT` of the priors learns. -/
theorem knows_select (s : PhotoDb) (slot : Slot) :
    Knows s slot ((s.photos.select (isActiveOf slot)).map Prod.fst) (s.finalized.count slot) where
  read := le_refl _
  inSlot k hk := by
    obtain ⟨p, hp, hslot, -⟩ := PhotoDb.mem_selectPriors.mp hk
    exact ⟨p, hp, hslot⟩
  current _ k hk := PhotoDb.mem_selectPriors.mpr hk
  newer h := absurd h (lt_irrefl _)

/-- A commit of another call leaves what is known true. -/
theorem Knows.commit {slot : Slot} {priors : List ℕ} {seen : ℕ} (h : Knows s slot priors seen)
    (c : Finalize) {others : List ℕ} {otherSeen : ℕ} (hc : Knows s c.slot others otherSeen) :
    Knows (c.insert (others.foldl (PhotoDb.softDelete c.now) s)) slot priors seen := by
  have hcount : (c.insert (others.foldl (PhotoDb.softDelete c.now) s)).finalized.count slot =
      s.finalized.count slot + if c.slot = slot then 1 else 0 := by
    simp [Finalize.insert, PhotoDb.softDeleteAll_finalized, List.count_append, List.count_singleton]
  have hold : ∀ k ∈ priors, ∃ p, (c.insert (others.foldl (PhotoDb.softDelete c.now)
      s)).photos.get? k = some p ∧ p.slot = slot := by
    intro k hk
    obtain ⟨p, hp, hslot⟩ := h.inSlot k hk
    have hget : (others.foldl (PhotoDb.softDelete c.now) s).photos.get? k = _ :=
      PhotoDb.softDeleteAll_get? others s k
    rw [hp] at hget
    refine ⟨_, Store.get?_create_of_some hget, ?_⟩
    by_cases hmem : k ∈ others
    · simpa [hmem, AppraisalPhoto.slot] using hslot
    · simpa [hmem] using hslot
  by_cases hslot : c.slot = slot
  · rw [if_pos hslot] at hcount
    have hread := h.read
    refine ⟨by omega, hold, fun heq => by omega, fun _ => ?_⟩
    refine ⟨s.photos.next, PhotoDb.active_commit.mpr (.inl ⟨rfl, hslot⟩), fun hmem => ?_⟩
    obtain ⟨p, hp, -⟩ := h.inSlot _ hmem
    rw [Store.get?_next] at hp
    cases hp
  · rw [if_neg hslot, Nat.add_zero] at hcount
    have hactive : ∀ k, (c.insert (others.foldl (PhotoDb.softDelete c.now) s)).Active slot k ↔
        s.Active slot k := by
      intro k
      rw [PhotoDb.active_commit]
      constructor
      · rintro (⟨-, heq⟩ | ⟨hk, -⟩)
        · exact absurd heq hslot
        · exact hk
      · rintro ⟨p, hp, hin, hopen⟩
        refine .inr ⟨⟨p, hp, hin, hopen⟩, fun hmem => ?_⟩
        obtain ⟨q, hq, hqslot⟩ := hc.inSlot k hmem
        cases hp.symm.trans hq
        exact hslot (hqslot.symm.trans hin)
    refine ⟨by rw [hcount]; exact h.read, hold, fun heq k hk => ?_, fun hlt => ?_⟩
    · exact h.current (by rw [← hcount]; exact heq) k ((hactive k).mp hk)
    · obtain ⟨k, hk, hnot⟩ := h.newer (by rw [← hcount]; exact hlt)
      exact ⟨k, (hactive k).mpr hk, hnot⟩

/-- Only a transaction that has inserted its photo commits. -/
theorem point_of_commit (h : (photoProgram env).next s a = .commit) :
    ∃ c priors seen, a.point = .done c priors seen := by
  obtain ⟨point, locks, write⟩ := a
  simp only [Program.next, photoProgram] at h
  cases point with
  | done c priors seen => exact ⟨c, priors, seen, rfl⟩
  | getSubmission c =>
    simp only [photoStmt] at h
    split at h
    · split_ifs at h
    · cases h
  | checkAccess c appraiserId =>
    simp only [photoStmt] at h
    split_ifs at h
  | selectPriors c => cases h
  | flush c priors rest seen =>
    cases rest with
    | nil =>
      simp only [photoStmt] at h
      split_ifs at h
    | cons id rest => cases h

theorem photoOk_goOn {locks : List PhotoRow} {write : PhotoDb → PhotoDb} {next : PhotoPoint}
    (ha : PhotoOk s a) (hs : (photoProgram env).next s a = .goOn locks write next) :
    PhotoOk s (a.goOn locks write next) := by
  obtain ⟨point, held, w⟩ := a
  simp only [Program.next, photoProgram] at hs
  cases point with
  | getSubmission c =>
    obtain rfl : w = id := ha
    simp only [photoStmt] at hs
    split at hs
    · split_ifs at hs
      cases hs
      rfl
    · cases hs
  | checkAccess c appraiserId =>
    obtain rfl : w = id := ha
    simp only [photoStmt] at hs
    split_ifs at hs
    cases hs
    rfl
  | selectPriors c =>
    obtain rfl : w = id := ha
    cases hs
    exact ⟨⟨[], rfl, rfl⟩, knows_select s c.slot⟩
  | flush c priors rest seen =>
    obtain ⟨⟨gone, hpriors, hw⟩, hknows⟩ := ha
    cases rest with
    | nil =>
      simp only [photoStmt] at hs
      split_ifs at hs
      cases hs
      rw [List.append_nil] at hpriors
      subst hpriors
      exact ⟨by rw [Txn.goOn, hw]; rfl, hknows⟩
    | cons id rest =>
      cases hs
      refine ⟨⟨gone ++ [id], by simp [hpriors], ?_⟩, hknows⟩
      rw [Txn.goOn, hw]
      funext s
      simp [PhotoDb.softDelete]
  | done c priors seen => cases hs

/-- What a commit leaves true for the others. -/
theorem photoOk_frame (ha : PhotoOk s a) (hs : (photoProgram env).next s a = .commit)
    (hb : PhotoOk s b) : PhotoOk (a.write s) b := by
  obtain ⟨c, priors, seen, hp⟩ := point_of_commit hs
  unfold PhotoOk at ha
  rw [hp] at ha
  obtain ⟨hw, hknows⟩ := ha
  rw [hw]
  unfold PhotoOk at hb ⊢
  cases hq : b.point with
  | getSubmission c' | checkAccess c' _ | selectPriors c' =>
    rw [hq] at hb
    exact hb
  | flush c' priors' rest' seen' =>
    rw [hq] at hb
    exact ⟨hb.1, hb.2.commit c hknows⟩
  | done c' priors' seen' =>
    rw [hq] at hb
    exact ⟨hb.1, hb.2.commit c hknows⟩

/-- What a transaction writes when it commits. -/
theorem commit_spec (ha : PhotoOk s a) (hs : (photoProgram env).next s a = .commit) :
    ∃ c priors seen, a.point = .done c priors seen ∧ Knows s c.slot priors seen ∧
      a.write s = c.insert (priors.foldl (PhotoDb.softDelete c.now) s) := by
  obtain ⟨c, priors, seen, hp⟩ := point_of_commit hs
  unfold PhotoOk at ha
  rw [hp] at ha
  obtain ⟨hw, hknows⟩ := ha
  exact ⟨c, priors, seen, hp, hknows, by rw [hw]⟩

theorem oneActive_commit {c : Finalize} {priors : List ℕ} {seen : ℕ} (h : s.OneActive)
    (hk : Knows s c.slot priors seen) (hnone : s.finalized.count c.slot = seen) :
    (c.insert (priors.foldl (PhotoDb.softDelete c.now) s)).OneActive := by
  have hnew : ∀ {i}, (c.insert (priors.foldl (PhotoDb.softDelete c.now) s)).Active c.slot i →
      i = s.photos.next := by
    intro i hi
    rcases PhotoDb.active_commit.mp hi with ⟨hi, -⟩ | ⟨hi, hnot⟩
    · exact hi
    · exact absurd (hk.current hnone i hi) hnot
  have hother : ∀ {slot i}, c.slot ≠ slot →
      (c.insert (priors.foldl (PhotoDb.softDelete c.now) s)).Active slot i → s.Active slot i := by
    intro slot i hne hi
    rcases PhotoDb.active_commit.mp hi with ⟨-, heq⟩ | ⟨hi, -⟩
    · exact absurd heq hne
    · exact hi
  intro slot i j hi hj
  by_cases hslot : c.slot = slot
  · subst hslot
    rw [hnew hi, hnew hj]
  · exact h slot i j (hother hslot hi) (hother hslot hj)

theorem noneSinceRead_of_oneActive {c : Finalize} {priors : List ℕ} {seen : ℕ}
    (hk : Knows s c.slot priors seen)
    (h : (c.insert (priors.foldl (PhotoDb.softDelete c.now) s)).OneActive) :
    s.finalized.count c.slot = seen := by
  by_contra hne
  obtain ⟨k, hactive, hnot⟩ := hk.newer (lt_of_le_of_ne hk.read (Ne.symm hne))
  have heq : k = s.photos.next := h c.slot k s.photos.next
    (PhotoDb.active_commit.mpr (.inr ⟨hactive, hnot⟩))
    (PhotoDb.active_commit.mpr (.inl ⟨rfl, rfl⟩))
  obtain ⟨p, hp, -⟩ := hactive
  have hlt := Store.get?_lt hp
  omega

/-- The rule of the transactions, for an invariant that the commits meeting `K` keep. -/
theorem photoRule {I : PhotoDb → Prop} {K : PhotoDb → PhotoTxn → Prop}
    (hcommit : ∀ s a, I s → PhotoOk s a → (photoProgram env).next s a = .commit → K s a →
      I (a.write s)) : TxnRule (photoProgram env) I PhotoOk K where
  start _ _ _ := rfl
  goOn _ _ _ _ _ _ ha hs := photoOk_goOn ha hs
  commit := hcommit
  frame _ _ _ _ ha hs _ hb _ := photoOk_frame ha hs hb

theorem oneActiveRule : TxnRule (photoProgram env) PhotoDb.OneActive PhotoOk NoneSinceRead :=
  photoRule fun s a h ha hs hK => by
    obtain ⟨c, priors, seen, hp, hknows, hw⟩ := commit_spec ha hs
    rw [hw]
    exact oneActive_commit h hknows (hK c priors seen hp)

/-! ## Runs -/

/-- What every transaction of a run knows, whatever the others do. -/
def PhotoInv (x : Rc PhotoDb PhotoRow PhotoPoint) : Prop := RcInv (fun _ => True) PhotoOk x

theorem photoInv_step (x : Rc PhotoDb PhotoRow PhotoPoint) (o : RcOp Finalize)
    (h : PhotoInv x) : PhotoInv (rcStep (photoProgram env) x o) := by
  have hrule : TxnRule (photoProgram env) (fun _ => True) PhotoOk fun _ _ => True :=
    photoRule fun _ _ _ _ _ _ => trivial
  refine rcStep_inv hrule x o h ?_
  cases o <;> simp [AtCommit]

/-- No event takes the last active photo from a slot. -/
theorem hasActive_step {x : Rc PhotoDb PhotoRow PhotoPoint} (o : RcOp Finalize) (h : PhotoInv x)
    {slot : Slot} (hslot : x.committed.HasActive slot) :
    (rcStep (photoProgram env) x o).committed.HasActive slot := by
  have hm := rcStep_cases (photoProgram env) x o
  generalize rcStep (photoProgram env) x o = x' at hm
  cases hm with
  | start call => exact hslot
  | stop t => exact hslot
  | wait => exact hslot
  | goOn ha hs hfree => exact hslot
  | @commit t a ha hs =>
    obtain ⟨c, priors, seen, -, hknows, hw⟩ := commit_spec (h.knows t a ha) hs
    simp only [hw]
    refine PhotoDb.hasActive_commit c priors hslot fun k hk p hp => ?_
    obtain ⟨q, hq, hqslot⟩ := hknows.inSlot k hk
    cases hp.symm.trans hq
    exact hqslot

theorem hasActive_run (ops : List (RcOp Finalize)) {x : Rc PhotoDb PhotoRow PhotoPoint}
    (h : PhotoInv x) {slot : Slot} (hslot : x.committed.HasActive slot) :
    (run (rcStep (photoProgram env)) x ops).committed.HasActive slot :=
  (run_induction (P := fun x => PhotoInv x ∧ x.committed.HasActive slot)
    (fun x o hx => ⟨photoInv_step x o hx.1, hasActive_step o hx.1 hx.2⟩) ⟨h, hslot⟩ ops).2

/-- From a state with at most one active photo in each slot, a run of `finalize` calls
    keeps the property exactly when no call commits after another one of its slot has
    committed since it read the slot. -/
theorem photoSlots_kept_iff (env : PhotoEnv) (s : PhotoDb) (h : s.OneActive)
    (ops : List (RcOp Finalize)) :
    SlotsKept env s ops ↔
      AllSteps (rcStep (photoProgram env)) (AtCommit (photoProgram env) NoneSinceRead)
        (Rc.init s) ops := by
  have hone : AllStates (rcStep (photoProgram env)) (fun x => x.committed.OneActive) (Rc.init s)
      ops ↔ AllSteps (rcStep (photoProgram env)) (AtCommit (photoProgram env) NoneSinceRead)
        (Rc.init s) ops :=
    committed_iff oneActiveRule (fun _ hs => hs) (fun s a _ ha hs hP c priors seen hp => by
      obtain ⟨c', priors', seen', hp', hknows, hw⟩ := commit_spec ha hs
      cases hp.symm.trans hp'
      rw [hw] at hP
      exact noneSinceRead_of_oneActive hknows hP) h ops
  rw [← hone]
  refine ⟨SlotsKept.oneActive, fun hall => ?_⟩
  have hkept : ∀ pre post, ops = pre ++ post → ∀ slot,
      (run (rcStep (photoProgram env)) (Rc.init s) pre).committed.HasActive slot →
      (run (rcStep (photoProgram env)) (Rc.init s) ops).committed.HasActive slot := by
    rintro pre post rfl slot hslot
    have hinv : PhotoInv (run (rcStep (photoProgram env)) (Rc.init s) pre) :=
      run_induction (P := PhotoInv) photoInv_step (rcInv_init trivial) pre
    rw [run_append]
    exact hasActive_run post hinv hslot
  refine ⟨hall, hkept, fun pre post heq slots submissionId hvalid => ?_⟩
  rw [PhotoDb.validate_ok_iff] at hvalid ⊢
  exact fun c hc hreq hact => hkept pre post heq _ (hvalid c hc hreq hact)

/-! ## Two retakes -/

def sampleEnv : PhotoEnv where
  lower := id
  isUuid := fun text => text = "a" || text = "b"
  idText := Nat.repr
  reprList := fun labels => ", ".intercalate labels

/-- One submission of appraiser 7 without photos. -/
def emptySubmission : PhotoDb where
  submissions := Store.empty.create ⟨some 7, none⟩
  roles := fun _ => [.appraiser]
  photos := Store.empty
  finalized := []

/-- A photo of the slot "Front". -/
def front (stem : String) : Finalize where
  submissionId := 0
  slotLabel := "Front"
  storageKey := "appraisal-photos/0/" ++ stem ++ ".jpg"
  capture := ⟨none, "image/jpeg", none, none, none, none, none, true, false⟩
  user := 7
  now := 0

/-- Two calls that read the slot before either has committed. -/
def overlappingRun : List (RcOp Finalize) :=
  [.start (front "a"), .start (front "b"), .exec 0, .exec 0, .exec 0, .exec 1, .exec 1, .exec 1,
    .exec 0, .exec 0, .exec 1, .exec 1]

theorem emptySubmission_oneActive : emptySubmission.OneActive := by
  rintro slot i j ⟨p, hp, -⟩
  simp [emptySubmission] at hp

/-- Both photos are active in the end. -/
theorem overlapping_active :
    ¬ (run (rcStep (photoProgram sampleEnv)) (Rc.init emptySubmission)
      overlappingRun).committed.OneActive := by
  intro h
  have hfirst : (run (rcStep (photoProgram sampleEnv)) (Rc.init emptySubmission)
      overlappingRun).committed.Active (0, "Front") 0 :=
    ⟨(front "a").photo, by decide +kernel, by decide +kernel, rfl⟩
  have hsecond : (run (rcStep (photoProgram sampleEnv)) (Rc.init emptySubmission)
      overlappingRun).committed.Active (0, "Front") 1 :=
    ⟨(front "b").photo, by decide +kernel, by decide +kernel, rfl⟩
  cases h (0, "Front") 0 1 hfirst hsecond

theorem two_retakes :
    ¬ ∀ (env : PhotoEnv) (s : PhotoDb) (ops : List (RcOp Finalize)), s.OneActive →
      SlotsKept env s ops := by
  intro h
  have hkept := h sampleEnv emptySubmission overlappingRun emptySubmission_oneActive
  exact overlapping_active hkept.oneActive.last

/-- The second of the two commits misses the condition. -/
theorem photoSlots_kept_overlapping :
    ¬ AllSteps (rcStep (photoProgram sampleEnv)) (AtCommit (photoProgram sampleEnv) NoneSinceRead)
      (Rc.init emptySubmission) overlappingRun := by
  intro h
  have hkept :=
    (photoSlots_kept_iff sampleEnv emptySubmission emptySubmission_oneActive overlappingRun).mpr h
  exact overlapping_active hkept.oneActive.last

end TempleConsign.PhotoSlots
