import Mathlib.Data.List.Basic

/-!
# Rows of fields as comma separated text

A writer that quotes a field only where it has to, with doubled quotes inside and
one newline after each row, and a reader as a state machine over the characters.
A newline inside quotes belongs to its field, so a row is a line of the text as
the reader sees it.

Results:
* `readRows_writeRows`: what was written is read back, row for row.
-/

namespace CsvLib

/-! ## The writer -/

/-- The characters a field is quoted for. -/
def mustQuote (c : Char) : Bool := c = ',' || c = '"' || c = '\n' || c = '\r'

/-- A character inside quotes. -/
def escape (c : Char) : List Char := if c = '"' then ['"', '"'] else [c]

def quoteField (field : List Char) : List Char := '"' :: (field.flatMap escape ++ ['"'])

def writeField (field : List Char) : List Char :=
  if field.any mustQuote then quoteField field else field

/-- The fields of a row with commas between them. -/
def joinFields : List (List Char) → List Char
  | [] => []
  | [field] => writeField field
  | field :: fields => writeField field ++ ',' :: joinFields fields

/-- A row and its newline; a row of one empty field is quoted, to tell it from a
    row without fields. -/
def writeRow (row : List (List Char)) : List Char :=
  (if row = [[]] then quoteField [] else joinFields row) ++ ['\n']

def writeRows (rows : List (List (List Char))) : List Char := rows.flatMap writeRow

/-! ## The reader -/

/-- Where the reader stands. -/
inductive Mode
  | startRow
  | startField
  | inField
  | inQuotes
  | quoteInQuotes

/-- The rows read, and the fields and the characters of the row being read. -/
structure Reader where
  mode : Mode
  rows : List (List (List Char))
  fields : List (List Char)
  field : List Char

namespace Reader

def init : Reader := ⟨.startRow, [], [], []⟩

/-- The field is complete. -/
def saveField (r : Reader) : Reader :=
  ⟨.startField, r.rows, r.fields ++ [r.field], []⟩

/-- The row is complete. -/
def endRow (r : Reader) : Reader := ⟨.startRow, r.rows ++ [r.fields], [], []⟩

def addChar (r : Reader) (mode : Mode) (c : Char) : Reader :=
  { r with mode := mode, field := r.field ++ [c] }

/-- A character outside quotes. -/
def plain (r : Reader) (c : Char) : Reader :=
  if c = '\n' then r.saveField.endRow
  else if c = ',' then r.saveField
  else r.addChar .inField c

def step (r : Reader) (c : Char) : Reader :=
  match r.mode with
  | .startRow =>
    if c = '\n' then r.endRow
    else if c = '"' then { r with mode := .inQuotes }
    else r.plain c
  | .startField => if c = '"' then { r with mode := .inQuotes } else r.plain c
  | .inField => r.plain c
  | .inQuotes =>
    if c = '"' then { r with mode := .quoteInQuotes } else r.addChar .inQuotes c
  | .quoteInQuotes => if c = '"' then r.addChar .inQuotes c else r.plain c

def run (r : Reader) (text : List Char) : Reader := text.foldl step r

end Reader

/-- The rows of a text. -/
def readRows (text : List Char) : List (List (List Char)) := (Reader.init.run text).rows

/-! ## What each piece leaves -/

namespace Reader

variable {rows : List (List (List Char))} {fields : List (List Char)} {done : List Char}

@[simp] theorem run_append (r : Reader) (front back : List Char) :
    r.run (front ++ back) = (r.run front).run back := List.foldl_append

@[simp] theorem run_nil (r : Reader) : r.run [] = r := rfl

@[simp] theorem run_cons (r : Reader) (c : Char) (text : List Char) :
    r.run (c :: text) = (r.step c).run text := rfl

/-- Inside quotes a field is read as it was escaped. -/
theorem run_escaped (field : List Char) :
    (⟨.inQuotes, rows, fields, done⟩ : Reader).run (field.flatMap escape) =
      ⟨.inQuotes, rows, fields, done ++ field⟩ := by
  induction field generalizing done with
  | nil => simp
  | cons c field ih =>
    have hchar : (⟨.inQuotes, rows, fields, done⟩ : Reader).run (escape c) =
        ⟨.inQuotes, rows, fields, done ++ [c]⟩ := by
      by_cases hc : c = '"'
      · subst hc
        rfl
      · simp [escape, step, addChar, hc]
    rw [List.flatMap_cons, run_append, hchar, ih, List.append_assoc, List.singleton_append]

/-- Outside quotes a field without special characters is read as it stands. -/
theorem run_plain {field : List Char} (h : ∀ c ∈ field, mustQuote c = false) :
    (⟨.inField, rows, fields, done⟩ : Reader).run field =
      ⟨.inField, rows, fields, done ++ field⟩ := by
  induction field generalizing done with
  | nil => simp
  | cons c field ih =>
    obtain ⟨hc, hfield⟩ := List.forall_mem_cons.mp h
    simp only [mustQuote, Bool.or_eq_false_iff, decide_eq_false_iff_not] at hc
    have hstep : (⟨.inField, rows, fields, done⟩ : Reader).step c =
        ⟨.inField, rows, fields, done ++ [c]⟩ := by
      simp [step, plain, addChar, hc]
    rw [run_cons, hstep, ih hfield, List.append_assoc, List.singleton_append]

/-- Where a field before the separator `c` may begin: a row of one empty field
    would be taken for a row without fields. -/
def Begins (mode : Mode) (field : List Char) (c : Char) : Prop :=
  mode = .startField ∨ mode = .startRow ∧ (c = '\n' → field ≠ [])

theorem run_quoteField {mode : Mode} {field : List Char}
    (hmode : mode = .startField ∨ mode = .startRow) :
    (⟨mode, rows, fields, []⟩ : Reader).run (quoteField field) =
      ⟨.quoteInQuotes, rows, fields, field⟩ := by
  have hopen : (⟨mode, rows, fields, []⟩ : Reader).step '"' = ⟨.inQuotes, rows, fields, []⟩ := by
    rcases hmode with rfl | rfl
    · rfl
    · rfl
  rw [quoteField, run_cons, hopen, run_append, run_escaped]
  rfl

/-- A field and the separator after it are read back. -/
theorem run_writeField {mode : Mode} {field : List Char} {c : Char} (hc : c = ',' ∨ c = '\n')
    (hmode : Begins mode field c) :
    ((⟨mode, rows, fields, []⟩ : Reader).run (writeField field)).step c =
      (⟨.inField, rows, fields, field⟩ : Reader).plain c := by
  have hne : c ≠ '"' := by
    rcases hc with rfl | rfl
    · decide
    · decide
  unfold writeField
  split_ifs with hquote
  · rw [run_quoteField (hmode.imp_right And.left)]
    exact if_neg hne
  · have hplain : ∀ d ∈ field, mustQuote d = false := by simpa using hquote
    cases field with
    | nil =>
      rcases hmode with rfl | ⟨rfl, hrow⟩
      · exact if_neg hne
      · have hcomma : c = ',' := hc.resolve_right fun h => hrow h rfl
        subst hcomma
        rfl
    | cons d field =>
      obtain ⟨hd, hfield⟩ := List.forall_mem_cons.mp hplain
      simp only [mustQuote, Bool.or_eq_false_iff, decide_eq_false_iff_not] at hd
      have hfirst : (⟨mode, rows, fields, []⟩ : Reader).step d = ⟨.inField, rows, fields, [d]⟩ := by
        rcases hmode with rfl | ⟨rfl, -⟩
        · simp [step, plain, addChar, hd]
        · simp [step, plain, addChar, hd]
      rw [run_cons, hfirst, run_plain hfield]
      rfl

/-- The fields of a row are read back, up to its newline. -/
theorem run_joinFields {mode : Mode} {field : List Char} {rest : List (List Char)}
    (hmode : mode = .startField ∨ mode = .startRow ∧ field :: rest ≠ [[]]) :
    (⟨mode, rows, fields, []⟩ : Reader).run (joinFields (field :: rest) ++ ['\n']) =
      ⟨.startRow, rows ++ [fields ++ field :: rest], [], []⟩ := by
  induction rest generalizing mode fields field with
  | nil =>
    have hbegins : Begins mode field '\n' :=
      hmode.imp_right fun h => ⟨h.1, fun _ hempty => h.2 (by rw [hempty])⟩
    rw [joinFields, run_append, run_cons, run_nil, run_writeField (.inr rfl) hbegins]
    rfl
  | cons next rest ih =>
    have hbegins : Begins mode field ',' :=
      hmode.imp_right fun h => ⟨h.1, fun hc => absurd hc (by decide)⟩
    have hcomma : ((⟨mode, rows, fields, []⟩ : Reader).run (writeField field)).step ',' =
        (⟨.inField, rows, fields, field⟩ : Reader).plain ',' :=
      run_writeField (.inl rfl) hbegins
    have hsaved : (⟨.inField, rows, fields, field⟩ : Reader).plain ',' =
        ⟨.startField, rows, fields ++ [field], []⟩ := rfl
    rw [joinFields, List.append_assoc, run_append, List.cons_append, run_cons, hcomma, hsaved,
      ih (.inl rfl), List.append_assoc, List.singleton_append]
    exact nofun

/-- A row is read back. -/
theorem run_writeRow (row : List (List Char)) :
    (⟨.startRow, rows, [], []⟩ : Reader).run (writeRow row) =
      ⟨.startRow, rows ++ [row], [], []⟩ := by
  unfold writeRow
  split_ifs with hempty
  · subst hempty
    rfl
  · cases row with
    | nil => rfl
    | cons field rest => exact run_joinFields (.inr ⟨rfl, hempty⟩)

theorem run_writeRows (text : List (List (List Char))) :
    (⟨.startRow, rows, [], []⟩ : Reader).run (writeRows text) =
      ⟨.startRow, rows ++ text, [], []⟩ := by
  induction text generalizing rows with
  | nil => simp [writeRows]
  | cons row text ih =>
    rw [writeRows, List.flatMap_cons, run_append, run_writeRow]
    have hrest := @ih (rows ++ [row])
    rwa [List.append_assoc, List.singleton_append] at hrest

end Reader

/-- What was written is read back. -/
theorem readRows_writeRows (rows : List (List (List Char))) : readRows (writeRows rows) = rows := by
  show (Reader.run ⟨.startRow, [], [], []⟩ (writeRows rows)).rows = rows
  rw [Reader.run_writeRows]
  rfl

end CsvLib
