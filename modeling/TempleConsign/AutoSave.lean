import TempleConsign.Lib.Run

/-!
# Saving a draft automatically

Model of `AutoSave` (`src/ios/TempleHEAppraiser/Storage/AutoSave.swift` line 18) on
one form session. An edit sets `isDirty` and starts the timer of ten seconds;
`flush` takes the body of its `PATCH` before it waits, and `patchToServer` clears
`isDirty` when the answer arrives, whatever was edited meanwhile. A Core Data save
reads the draft when its closure runs and leaves `isDirty` alone.

Deviations: a change of a field and its `onChange` are one step. A draft is saved
when the form learns of it, and a body stands for the draft it was taken of.

Results:
* `autoSave_keeps_edits`: when no `PATCH` succeeds with an older draft, nothing is
  lost.
* `lost_of_stale`: a success with an older draft loses the edits since.
* `lost_stays_lost`: no timer, flush or answer saves them later.
-/

namespace TempleConsign

open ServiceLib

/-! ## The form session -/

variable {δ : Type}

/-- A form session on drafts of type `δ`. -/
structure FormSession (δ : Type) where
  draft : δ
  isDirty : Bool
  /-- The submission has an id. -/
  created : Bool
  isOnline : Bool
  /-- The debounce timer runs. -/
  timer : Bool
  /-- The tasks of the timer that have not started. -/
  tasks : ℕ
  /-- The bodies of the `PATCH` requests in flight. -/
  patches : List δ
  /-- The Core Data saves in flight. -/
  coreDataSaves : ℕ
  /-- The last draft that was saved. -/
  saved : δ

inductive FormEvent (δ : Type)
  /-- The user edits the draft. -/
  | edit (change : δ → δ)
  /-- `pathUpdateHandler`. -/
  | path (online : Bool)
  /-- Ten seconds without an edit. -/
  | timerFires
  /-- A task of the timer runs `flush`. -/
  | flush
  | patchSucceeds (i : ℕ)
  | patchFails (i : ℕ)
  | coreDataSucceeds
  | coreDataFails

/-- `flush` (line 52). -/
def FormSession.flush (s : FormSession δ) : FormSession δ :=
  if s.isDirty && s.created then
    if s.isOnline then { s with patches := s.patches ++ [s.draft] }
    else { s with coreDataSaves := s.coreDataSaves + 1 }
  else s

/-- `patchToServer` (line 66) gets its answer: the flag is cleared for the draft of
    this moment. -/
def FormSession.patchAnswered (s : FormSession δ) (i : ℕ) : FormSession δ :=
  match s.patches[i]? with
  | none => s
  | some body => { s with patches := s.patches.eraseIdx i, isDirty := false, saved := body }

/-- `patchToServer` catches an error. -/
def FormSession.patchCaught (s : FormSession δ) (i : ℕ) : FormSession δ :=
  match s.patches[i]? with
  | none => s
  | some _ => { s with patches := s.patches.eraseIdx i, coreDataSaves := s.coreDataSaves + 1 }

/-- `saveToCoreData` (line 85) runs its closure: it reads the draft of this moment. -/
def FormSession.coreDataSaved (s : FormSession δ) : FormSession δ :=
  if 0 < s.coreDataSaves then
    { s with coreDataSaves := s.coreDataSaves - 1, saved := s.draft }
  else s

/-- One event of the session. -/
def FormSession.step (s : FormSession δ) : FormEvent δ → FormSession δ
  | .edit change => { s with draft := change s.draft, isDirty := true, timer := true }
  | .path online => { s with isOnline := online }
  | .timerFires => if s.timer then { s with timer := false, tasks := s.tasks + 1 } else s
  | .flush => if 0 < s.tasks then { s.flush with tasks := s.tasks - 1 } else s
  | .patchSucceeds i => s.patchAnswered i
  | .patchFails i => s.patchCaught i
  | .coreDataSucceeds => s.coreDataSaved
  | .coreDataFails => { s with coreDataSaves := s.coreDataSaves - 1 }

/-- The form on a draft that was just loaded. -/
def FormSession.loaded (draft : δ) (created isOnline : Bool) : FormSession δ where
  draft := draft
  isDirty := false
  created := created
  isOnline := isOnline
  timer := false
  tasks := 0
  patches := []
  coreDataSaves := 0
  saved := draft

/-! ## Saved edits -/

/-- No save is in flight. -/
def FormSession.Idle (s : FormSession δ) : Prop := s.patches = [] ∧ s.coreDataSaves = 0

/-- When the form reports no unsaved changes, the last saved draft has every edit. -/
def FormSession.NothingLost (s : FormSession δ) : Prop :=
  s.isDirty = false → s.Idle → s.saved = s.draft

/-- A `PATCH` that succeeds carries the draft of this moment: it was not edited
    since the body was taken. -/
def Current (s : FormSession δ) : FormEvent δ → Prop
  | .patchSucceeds i => ∀ body, s.patches[i]? = some body → body = s.draft
  | _ => True

/-! ## The flag -/

/-- What is not dirty is saved. -/
def FormSession.CleanIsSaved (s : FormSession δ) : Prop := s.isDirty = false → s.saved = s.draft

/-- What a flush may change. -/
theorem flush_eq (s : FormSession δ) :
    ∃ patches coreDataSaves,
      s.flush = { s with patches := patches, coreDataSaves := coreDataSaves } := by
  unfold FormSession.flush
  split_ifs
  · exact ⟨_, s.coreDataSaves, rfl⟩
  · exact ⟨s.patches, _, rfl⟩
  · exact ⟨s.patches, s.coreDataSaves, rfl⟩

/-- Only a success with an older draft breaks it. -/
theorem FormSession.CleanIsSaved.step {s : FormSession δ} (h : s.CleanIsSaved) {e : FormEvent δ}
    (he : Current s e) : (s.step e).CleanIsSaved := by
  cases e with
  | edit change =>
    intro hdirty
    cases hdirty
  | path online => exact h
  | timerFires =>
    show (if s.timer then { s with timer := false, tasks := s.tasks + 1 } else s).CleanIsSaved
    split_ifs
    · exact h
    · exact h
  | flush =>
    show (if 0 < s.tasks then { s.flush with tasks := s.tasks - 1 } else s).CleanIsSaved
    obtain ⟨patches, coreDataSaves, hflush⟩ := flush_eq s
    split_ifs
    · rw [hflush]
      exact h
    · exact h
  | patchSucceeds i =>
    show (s.patchAnswered i).CleanIsSaved
    unfold FormSession.patchAnswered
    cases hi : s.patches[i]? with
    | none => exact h
    | some body =>
      intro _
      exact he body hi
  | patchFails i =>
    show (s.patchCaught i).CleanIsSaved
    unfold FormSession.patchCaught
    cases s.patches[i]? with
    | none => exact h
    | some body => exact h
  | coreDataSucceeds =>
    show s.coreDataSaved.CleanIsSaved
    unfold FormSession.coreDataSaved
    split_ifs
    · intro _
      rfl
    · exact h
  | coreDataFails => exact h

/-- **Nothing is lost while every success carries the draft of its moment.** -/
theorem autoSave_keeps_edits (draft : δ) (created isOnline : Bool) {events : List (FormEvent δ)}
    (h : AllSteps FormSession.step Current (.loaded draft created isOnline) events) :
    AllStates FormSession.step FormSession.NothingLost (.loaded draft created isOnline) events := by
  have hclean : AllStates FormSession.step FormSession.CleanIsSaved
      (.loaded draft created isOnline) events :=
    allStates_of_allSteps (fun _ _ hs he => hs.step he) (fun _ => rfl) h
  exact hclean.mono fun s hs hdirty _ => hs hdirty

/-! ## What is lost -/

/-- The form reports no unsaved changes, and edits are not saved. -/
structure FormSession.Lost (s : FormSession δ) : Prop where
  clean : s.isDirty = false
  idle : s.Idle
  unsaved : s.saved ≠ s.draft

theorem FormSession.Lost.not_nothingLost {s : FormSession δ} (h : s.Lost) : ¬ s.NothingLost :=
  fun hn => h.unsaved (hn h.clean h.idle)

/-- A success with an older draft, the last save in flight, loses the edits since. -/
theorem lost_of_stale {s : FormSession δ} {body : δ} (hpatches : s.patches = [body])
    (hcore : s.coreDataSaves = 0) (hstale : body ≠ s.draft) :
    (s.step (.patchSucceeds 0)).Lost := by
  have hi : s.patches[0]? = some body := by
    rw [hpatches]
    rfl
  show (s.patchAnswered 0).Lost
  unfold FormSession.patchAnswered
  rw [hi]
  refine ⟨rfl, ⟨?_, hcore⟩, hstale⟩
  show s.patches.eraseIdx 0 = []
  rw [hpatches]
  rfl

/-- The user edits the draft. -/
def FormEvent.IsEdit : FormEvent δ → Prop
  | .edit _ => True
  | _ => False

theorem FormSession.Lost.step {s : FormSession δ} (h : s.Lost) {e : FormEvent δ}
    (he : ¬ e.IsEdit) : (s.step e).Lost := by
  obtain ⟨hclean, ⟨hpatches, hcore⟩, hunsaved⟩ := h
  cases e with
  | edit change => exact absurd trivial he
  | path online => exact ⟨hclean, ⟨hpatches, hcore⟩, hunsaved⟩
  | timerFires =>
    show (if s.timer then { s with timer := false, tasks := s.tasks + 1 } else s).Lost
    split_ifs
    · exact ⟨hclean, ⟨hpatches, hcore⟩, hunsaved⟩
    · exact ⟨hclean, ⟨hpatches, hcore⟩, hunsaved⟩
  | flush =>
    -- the guard of `flush` stops the task
    have hflush : s.flush = s := by
      unfold FormSession.flush
      rw [hclean]
      rfl
    show (if 0 < s.tasks then { s.flush with tasks := s.tasks - 1 } else s).Lost
    rw [hflush]
    split_ifs
    · exact ⟨hclean, ⟨hpatches, hcore⟩, hunsaved⟩
    · exact ⟨hclean, ⟨hpatches, hcore⟩, hunsaved⟩
  | patchSucceeds i =>
    have hnone : s.patchAnswered i = s := by
      simp only [FormSession.patchAnswered, hpatches, List.getElem?_nil]
    show (s.patchAnswered i).Lost
    rw [hnone]
    exact ⟨hclean, ⟨hpatches, hcore⟩, hunsaved⟩
  | patchFails i =>
    have hnone : s.patchCaught i = s := by
      simp only [FormSession.patchCaught, hpatches, List.getElem?_nil]
    show (s.patchCaught i).Lost
    rw [hnone]
    exact ⟨hclean, ⟨hpatches, hcore⟩, hunsaved⟩
  | coreDataSucceeds =>
    show s.coreDataSaved.Lost
    unfold FormSession.coreDataSaved
    rw [if_neg (by omega)]
    exact ⟨hclean, ⟨hpatches, hcore⟩, hunsaved⟩
  | coreDataFails =>
    refine ⟨hclean, ⟨hpatches, ?_⟩, hunsaved⟩
    show s.coreDataSaves - 1 = 0
    omega

/-- What is lost stays lost until the next edit. -/
theorem lost_stays_lost {s : FormSession δ} (h : s.Lost) {events : List (FormEvent δ)}
    (hno : ∀ e ∈ events, ¬ e.IsEdit) : (run FormSession.step s events).Lost :=
  run_induction_mem (fun _ e he hs => hs.step (hno e he)) h

/-! ## Two sessions -/

/-- One edit, saved before the next. -/
def calmSession : List (FormEvent ℕ) :=
  [.edit (· + 1), .timerFires, .flush, .patchSucceeds 0, .edit (· + 1), .timerFires, .flush,
    .patchFails 0, .coreDataSucceeds]

theorem calmSession_keeps_edits :
    AllStates FormSession.step FormSession.NothingLost (.loaded 0 true true) calmSession := by
  refine autoSave_keeps_edits 0 true true ⟨trivial, trivial, trivial, ?_, trivial, trivial, trivial,
    trivial, trivial, trivial⟩
  intro body hbody
  exact (Option.some_inj.mp hbody).symm

/-- An edit while the `PATCH` is out; its timer fires after the answer. -/
def hurriedSession : List (FormEvent ℕ) :=
  [.edit (· + 1), .timerFires, .flush, .edit (· + 1), .patchSucceeds 0, .timerFires, .flush]

/-- The second edit is lost. -/
theorem hurriedSession_loses_edit :
    (run FormSession.step (.loaded 0 true true) hurriedSession).Lost ∧
      ¬ AllStates FormSession.step FormSession.NothingLost (.loaded 0 true true)
        hurriedSession := by
  have hlost : (run FormSession.step (.loaded 0 true true) hurriedSession).Lost :=
    ⟨rfl, ⟨rfl, rfl⟩, by decide⟩
  exact ⟨hlost, fun h => hlost.not_nothingLost h.last⟩

end TempleConsign
