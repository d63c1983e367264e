import RepidBench.Text

/-!
Comma separated values in the dialect of spreadsheets: a writer that quotes a field
only where it must, and a reader that goes through the lines of a file character by
character. What is written is read back, whatever the fields contain.
-/
namespace RepidBench.Csv
open Text

abbrev Record := List (List Char)

/-! ## The writer -/

/-- A character for which a field is quoted. -/
def special (c : Char) : Bool := c = ',' || c = '"' || isLineEnd c

/-- A quotation mark within quotes is doubled. -/
def doubled (c : Char) : List Char := if c = '"' then ['"', '"'] else [c]

def quoted (text : List Char) : List Char := '"' :: (text.flatMap doubled ++ ['"'])

def fieldText (text : List Char) : List Char := if text.any special then quoted text else text

/-- `writerow`; a record that is one empty field is quoted, or its line would be empty. -/
def writeRow (fields : Record) : List Char :=
  (if fields = [[]] then quoted [] else List.intercalate [','] (fields.map fieldText)) ++ ['\r', '\n']

/-- The text of a file after these calls of `writerow`. -/
def writeRows (rows : List Record) : List Char := rows.flatMap writeRow

/-! ## The lines of a file -/

/-- A line ends after the character, with this text behind it: `\r\n` is one end. -/
def endsLine (c : Char) (rest : List Char) : Bool := c = '\n' || c = '\r' && rest.head? ≠ some '\n'

/-- Iteration over a file opened with `newline=""`: the lines with their ends. -/
def lines : List Char → List (List Char)
  | [] => []
  | c :: rest =>
    if endsLine c rest then [c] :: lines rest
    else
      match lines rest with
      | [] => [[c]]
      | line :: more => (c :: line) :: more

/-! ## The reader -/

inductive State
  | startRecord | startField | inField | inQuotedField | quoteInQuotedField | eatCrnl
  deriving DecidableEq, Repr

/-- The state of the reader, the field it is in and the fields before it. -/
structure Reader where
  state : State
  field : List Char
  fields : Record

def start : Reader := ⟨.startRecord, [], []⟩

/-- `csv.field_size_limit()`. -/
def fieldSizeLimit : Nat := 131072

namespace Reader

/-- `parse_save_field`. -/
def save (r : Reader) (state : State) : Reader := ⟨state, [], r.fields ++ [r.field]⟩

/-- `parse_add_char`; `none` is the error for a field that is too long. -/
def add (r : Reader) (c : Char) (state : State) : Option Reader :=
  if r.field.length < fieldSizeLimit then some ⟨state, r.field ++ [c], r.fields⟩ else none

/-- A character where a field begins. -/
def beginField (r : Reader) (c : Char) : Option Reader :=
  if isLineEnd c then some (r.save .eatCrnl)
  else if c = '"' then some { r with state := .inQuotedField }
  else if c = ',' then some (r.save .startField)
  else r.add c .inField

/-- `parse_process_char`. -/
def step (r : Reader) (c : Char) : Option Reader :=
  match r.state with
  | .startRecord => if isLineEnd c then some { r with state := .eatCrnl } else r.beginField c
  | .startField => r.beginField c
  | .inField =>
    if isLineEnd c then some (r.save .eatCrnl)
    else if c = ',' then some (r.save .startField)
    else r.add c .inField
  | .inQuotedField => if c = '"' then some { r with state := .quoteInQuotedField } else r.add c .inQuotedField
  | .quoteInQuotedField =>
    if c = '"' then r.add c .inQuotedField
    else if c = ',' then some (r.save .startField)
    else if isLineEnd c then some (r.save .eatCrnl)
    else r.add c .inField
  | .eatCrnl => if isLineEnd c then some r else none

/-- `parse_process_char` at the end of a line. -/
def endLine (r : Reader) : Reader :=
  match r.state with
  | .startRecord | .inQuotedField => r
  | .startField | .inField | .quoteInQuotedField => r.save .startRecord
  | .eatCrnl => { r with state := .startRecord }

def readLine (r : Reader) (line : List Char) : Option Reader := (line.foldlM step r).map endLine

end Reader

/-- The records of the lines, read from this state on. -/
def readLines (r : Reader) : List (List Char) → Option (List Record)
  | [] => some (if r.field ≠ [] ∨ r.state = .inQuotedField then [r.fields ++ [r.field]] else [])
  | line :: rest =>
    (r.readLine line).bind (fun r =>
      if r.state = .startRecord then (readLines start rest).map (r.fields :: ·) else readLines r rest)

/-- The records of a file. -/
def read (text : List Char) : Option (List Record) := readLines start (lines text)

/-! ## Reading what was written -/

namespace Reader

/-- What is read from this state on. -/
def readText (r : Reader) (text : List Char) : Option (List Record) := readLines r (lines text)

theorem readText_endsLine {r next : Reader} {c : Char} {rest : List Char} (ends : endsLine c rest = true)
    (stepped : r.step c = some next) : r.readText (c :: rest) =
      if next.endLine.state = .startRecord then (start.readText rest).map (next.endLine.fields :: ·)
      else next.endLine.readText rest := by
  rw [readText, lines, if_pos ends, readLines, readLine, List.foldlM_cons, stepped]
  rfl

theorem readText_inLine {r next : Reader} {c : Char} {rest : List Char} (inside : endsLine c rest = false)
    (more : rest ≠ []) (stepped : r.step c = some next) : r.readText (c :: rest) = next.readText rest := by
  have present : lines rest ≠ [] := by
    cases rest with
    | nil => exact absurd rfl more
    | cons d rest =>
      unfold lines
      split_ifs
      · simp
      · split <;> simp
  obtain ⟨line, others, split⟩ := List.exists_cons_of_ne_nil present
  rw [readText, readText, lines, if_neg (by simp [inside]), split]
  simp only [readLines, readLine, List.foldlM_cons, stepped]
  rfl

/-- A character is read, unless it ends a record. -/
theorem readText_char {r next : Reader} {c : Char} {rest : List Char} (stepped : r.step c = some next)
    (more : rest ≠ []) (open_ : endsLine c rest = true → next.state = .inQuotedField) :
    r.readText (c :: rest) = next.readText rest := by
  cases ends : endsLine c rest with
  | false => exact readText_inLine ends more stepped
  | true =>
    have within := open_ ends
    have same : next.endLine = next := by rw [endLine, within]
    rw [readText_endsLine ends stepped, same, within, if_neg (by decide)]

/-- The field that the reader is in can end here. -/
def CanSave (r : Reader) : Prop := r.state = .startField ∨ r.state = .inField ∨ r.state = .quoteInQuotedField

theorem CanSave.step_comma {r : Reader} (ready : r.CanSave) : r.step ',' = some (r.save .startField) := by
  rcases ready with state | state | state <;> simp [step, beginField, state, isLineEnd]

theorem CanSave.step_return {r : Reader} (ready : r.CanSave) : r.step '\r' = some (r.save .eatCrnl) := by
  rcases ready with state | state | state <;> simp [step, beginField, state, isLineEnd]

/-- After `\r\n` the record is complete. -/
theorem CanSave.readText_end {r : Reader} (ready : r.CanSave) (rest : List Char) :
    r.readText ('\r' :: '\n' :: rest) = (start.readText rest).map ((r.fields ++ [r.field]) :: ·) := by
  have inside : endsLine '\r' ('\n' :: rest) = false := by simp [endsLine]
  have ends : endsLine '\n' rest = true := by simp [endsLine]
  have stays : (r.save .eatCrnl).step '\n' = some (r.save .eatCrnl) := by simp [step, save, isLineEnd]
  rw [readText_inLine inside (by simp) ready.step_return, readText_endsLine ends stays]
  rfl

theorem readText_plain {text : List Char} (plain : text.any special = false) (field : List Char) (fields : Record)
    (short : field.length + text.length ≤ fieldSizeLimit) {rest : List Char} (more : rest ≠ []) :
    readText ⟨.inField, field, fields⟩ (text ++ rest) = readText ⟨.inField, field ++ text, fields⟩ rest := by
  induction text generalizing field with
  | nil => simp
  | cons c text ih =>
    simp only [List.any_cons, Bool.or_eq_false_iff, special] at plain
    obtain ⟨⟨⟨notComma, -⟩, notEnd⟩, others⟩ := plain
    rw [List.length_cons] at short
    have stepped : step ⟨.inField, field, fields⟩ c = some ⟨.inField, field ++ [c], fields⟩ := by
      have room : field.length < fieldSizeLimit := by omega
      simp only [step, notEnd, Bool.false_eq_true, ↓reduceIte, of_decide_eq_false notComma, add, room]
    have inside : endsLine c (text ++ rest) = false := by
      simp only [isLineEnd, Bool.or_eq_false_iff] at notEnd
      simp [endsLine, of_decide_eq_false notEnd.1, of_decide_eq_false notEnd.2]
    rw [List.cons_append, readText_inLine inside (by simp [more]) stepped, ih others (field ++ [c]) (by simp; omega),
      List.append_assoc, List.singleton_append]

theorem readText_doubled (text field : List Char) (fields : Record)
    (short : field.length + text.length ≤ fieldSizeLimit) {rest : List Char} (more : rest ≠ []) :
    readText ⟨.inQuotedField, field, fields⟩ (text.flatMap doubled ++ rest) =
      readText ⟨.inQuotedField, field ++ text, fields⟩ rest := by
  induction text generalizing field with
  | nil => simp
  | cons c text ih =>
    rw [List.length_cons] at short
    have room : field.length < fieldSizeLimit := by omega
    have later := ih (field ++ [c]) (by simp; omega)
    rw [List.append_assoc, List.singleton_append] at later
    rw [List.flatMap_cons, List.append_assoc, ← later, doubled]
    by_cases mark : c = '"'
    · subst mark
      have first : step ⟨.inQuotedField, field, fields⟩ '"' = some ⟨.quoteInQuotedField, field, fields⟩ := rfl
      have second : step ⟨.quoteInQuotedField, field, fields⟩ '"' =
          some ⟨.inQuotedField, field ++ ['"'], fields⟩ := by
        simp [step, add, room]
      rw [if_pos rfl, List.cons_append, readText_char first (by simp) (by simp [endsLine]), List.singleton_append,
        readText_char second (by simp [more]) (fun _ => rfl)]
    · have stepped : step ⟨.inQuotedField, field, fields⟩ c = some ⟨.inQuotedField, field ++ [c], fields⟩ := by
        simp [step, mark, add, room]
      rw [if_neg mark, List.singleton_append, readText_char stepped (by simp [more]) (fun _ => rfl)]

/-- A field is read up to where it can end. -/
theorem readText_field (text : List Char) (short : text.length ≤ fieldSizeLimit) (fields : Record) (rest : List Char)
    (more : rest ≠ []) :
    ∃ r : Reader, r.CanSave ∧ r.field = text ∧ r.fields = fields ∧
      readText ⟨.startField, [], fields⟩ (fieldText text ++ rest) = r.readText rest := by
  unfold fieldText
  by_cases quotes : text.any special = true
  · rw [if_pos quotes, quoted]
    refine ⟨⟨.quoteInQuotedField, text, fields⟩, .inr (.inr rfl), rfl, rfl, ?_⟩
    have opened : step ⟨.startField, [], fields⟩ '"' = some ⟨.inQuotedField, [], fields⟩ := rfl
    have closed : step ⟨.inQuotedField, text, fields⟩ '"' = some ⟨.quoteInQuotedField, text, fields⟩ := rfl
    rw [List.cons_append, List.append_assoc, readText_char opened (by simp) (fun _ => rfl),
      readText_doubled text [] fields (by simpa using short) (by simp), List.singleton_append, List.nil_append,
      readText_char closed more (by simp [endsLine])]
  · have plain : text.any special = false := by simpa using quotes
    rw [if_neg quotes]
    cases text with
    | nil => exact ⟨⟨.startField, [], fields⟩, .inl rfl, rfl, rfl, rfl⟩
    | cons c text =>
      refine ⟨⟨.inField, c :: text, fields⟩, .inr (.inl rfl), rfl, rfl, ?_⟩
      simp only [List.any_cons, Bool.or_eq_false_iff, special] at plain
      obtain ⟨⟨⟨notComma, notMark⟩, notEnd⟩, others⟩ := plain
      have stepped : step ⟨.startField, [], fields⟩ c = some ⟨.inField, [c], fields⟩ := by
        simp only [step, beginField, notEnd, Bool.false_eq_true, ↓reduceIte, of_decide_eq_false notMark,
          of_decide_eq_false notComma]
        rfl
      have inside : endsLine c (text ++ rest) = false := by
        simp only [isLineEnd, Bool.or_eq_false_iff] at notEnd
        simp [endsLine, of_decide_eq_false notEnd.1, of_decide_eq_false notEnd.2]
      rw [List.length_cons] at short
      rw [List.cons_append, readText_inLine inside (by simp [more]) stepped,
        readText_plain others [c] fields (by simp; omega) more]
      rfl

/-- The fields of a record are read, and its end. -/
theorem readText_fields (first : List Char) (others : Record) (short : ∀ text ∈ first :: others, text.length ≤ fieldSizeLimit)
    (fields : Record) (rest : List Char) :
    readText ⟨.startField, [], fields⟩
        (List.intercalate [','] ((first :: others).map fieldText) ++ '\r' :: '\n' :: rest) =
      (start.readText rest).map ((fields ++ first :: others) :: ·) := by
  have own := short first List.mem_cons_self
  induction others generalizing first fields with
  | nil =>
    obtain ⟨r, ready, field, before, same⟩ := readText_field first own fields ('\r' :: '\n' :: rest) (by simp)
    have alone : List.intercalate [','] ([first].map fieldText) = fieldText first := by simp [List.intercalate]
    rw [alone, same, ready.readText_end, field, before]
  | cons second others ih =>
    have joined : List.intercalate [','] ((first :: second :: others).map fieldText) =
        fieldText first ++ ',' :: List.intercalate [','] ((second :: others).map fieldText) := by
      simp [List.intercalate]
    have later := ih second (fun text member => short text (List.mem_cons_of_mem first member)) (fields ++ [first])
      (short second (by simp))
    obtain ⟨r, ready, field, before, same⟩ := readText_field first own fields
      (',' :: (List.intercalate [','] ((second :: others).map fieldText) ++ '\r' :: '\n' :: rest)) (by simp)
    rw [joined, List.append_assoc, List.cons_append, same,
      readText_char ready.step_comma (by simp) (by simp [endsLine]), save, field, before, later, List.append_assoc,
      List.singleton_append]

/-- A record begins as a field does. -/
theorem readText_start {c : Char} {rest : List Char} (visible : isLineEnd c = false) :
    start.readText (c :: rest) = readText ⟨.startField, [], []⟩ (c :: rest) := by
  have stepped : step ⟨.startField, [], []⟩ c = start.step c := by
    have fresh : start.step c = if isLineEnd c then some { start with state := .eatCrnl } else start.beginField c := rfl
    rw [fresh, if_neg (by simp [visible])]
    rfl
  rw [readText, readText, lines]
  split_ifs
  · simp only [readLines, readLine, List.foldlM_cons, stepped]
  · split
    all_goals simp only [readLines, readLine, List.foldlM_cons, stepped]

end Reader

/-- A field that is not empty begins with a character that ends no line. -/
theorem fieldText_head {text : List Char} (present : text ≠ []) :
    ∃ c rest, fieldText text = c :: rest ∧ isLineEnd c = false := by
  unfold fieldText
  split_ifs with quotes
  · exact ⟨'"', _, rfl, by decide⟩
  · obtain ⟨c, rest, rfl⟩ := List.exists_cons_of_ne_nil present
    refine ⟨c, rest, rfl, ?_⟩
    simp only [List.any_cons, special, Bool.or_eq_true, not_or, Bool.not_eq_true] at quotes
    exact quotes.1.2

/-- A written record is read back, and what follows it is read as from the start. -/
theorem readText_writeRow {fields : Record} (short : ∀ text ∈ fields, text.length ≤ fieldSizeLimit) (rest : List Char) :
    start.readText (writeRow fields ++ rest) = (start.readText rest).map (fields :: ·) := by
  unfold writeRow
  by_cases empty : fields = [[]]
  · subst empty
    rw [if_pos rfl, List.append_assoc]
    have marked : quoted [] ++ (['\r', '\n'] ++ rest) = '"' :: '"' :: '\r' :: '\n' :: rest := rfl
    have opened : start.step '"' = some ⟨.inQuotedField, [], []⟩ := rfl
    have closed : Reader.step ⟨.inQuotedField, [], []⟩ '"' = some ⟨.quoteInQuotedField, [], []⟩ := rfl
    have ready : Reader.CanSave ⟨.quoteInQuotedField, [], []⟩ := .inr (.inr rfl)
    rw [marked, Reader.readText_char opened (by simp) (fun _ => rfl),
      Reader.readText_char closed (by simp) (by simp [endsLine]), ready.readText_end]
    rfl
  · rw [if_neg empty, List.append_assoc]
    cases fields with
    | nil =>
      have opened : start.step '\r' = some ⟨.eatCrnl, [], []⟩ := rfl
      have stays : Reader.step ⟨.eatCrnl, [], []⟩ '\n' = some ⟨.eatCrnl, [], []⟩ := rfl
      have inside : endsLine '\r' ('\n' :: rest) = false := by simp [endsLine]
      have ends : endsLine '\n' rest = true := by simp [endsLine]
      exact (Reader.readText_inLine inside (by simp) opened).trans (Reader.readText_endsLine ends stays)
    | cons first others =>
      have all := Reader.readText_fields first others short [] rest
      -- The first character is that of the first field, or the comma after an empty one.
      have visible : ∃ c more, List.intercalate [','] ((first :: others).map fieldText) = c :: more ∧
          isLineEnd c = false := by
        cases others with
        | nil =>
          have present : first ≠ [] := by
            rintro rfl
            exact empty rfl
          obtain ⟨c, more, same, plain⟩ := fieldText_head present
          exact ⟨c, more, by simp [List.intercalate, same], plain⟩
        | cons second others =>
          by_cases present : first = []
          · subst present
            exact ⟨',', _, by simp [List.intercalate, fieldText]; rfl, by decide⟩
          · obtain ⟨c, more, same, plain⟩ := fieldText_head present
            exact ⟨c, _, by simp [List.intercalate, same]; rfl, plain⟩
      obtain ⟨c, more, same, plain⟩ := visible
      rw [same] at all ⊢
      exact (Reader.readText_start plain).trans all

/-- What has been written is read back, record by record. -/
theorem read_writeRows {rows : List Record} (short : ∀ fields ∈ rows, ∀ text ∈ fields, text.length ≤ fieldSizeLimit) :
    read (writeRows rows) = some rows := by
  have same : read (writeRows rows) = start.readText (writeRows rows) := rfl
  rw [same]
  clear same
  induction rows with
  | nil => rfl
  | cons fields rows ih =>
    have later := ih (fun others member => short others (List.mem_cons_of_mem fields member))
    rw [writeRows, List.flatMap_cons, readText_writeRow (short fields List.mem_cons_self)]
    exact congrArg (Option.map (fields :: ·)) later

example : read (writeRows [["a".toList, "b,\"\r\nc".toList, []], [[]], []]) =
    some [["a".toList, "b,\"\r\nc".toList, []], [[]], []] := by decide +kernel

end RepidBench.Csv
