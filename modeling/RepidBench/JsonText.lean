import RepidBench.Dictionaries
import RepidBench.JsonTokens

/-!
JSON values as Python writes and reads them: `json.dumps`, on one line or indented,
and the scanner of `json.loads`. How a `float` is printed is a parameter. What is
written of a value is read back as that value, whatever its strings hold, and it is
written in ASCII.
-/
namespace RepidBench.JsonText
open Decimal Dictionaries

/-! ## Values -/

def isBlank (c : Char) : Bool := c = ' ' || c = '\t' || c = '\n' || c = '\r'

def skipBlanks (text : List Char) : List Char := text.dropWhile isBlank

/-- The blanks after a comma, and those before an entry and before the end at a level. -/
structure Layout where
  gap : List Char
  line : Nat → List Char
  gap_blank : ∀ c ∈ gap, isBlank c = true
  line_blank : ∀ level, ∀ c ∈ line level, isBlank c = true

/-- Without `indent`. -/
def oneLine : Layout where
  gap := [' ']
  line := fun _ => []
  gap_blank := by simp [isBlank]
  line_blank := by simp

/-- With `indent=n`. -/
def indented (n : Nat) : Layout where
  gap := []
  line := fun level => '\n' :: List.replicate (n * level) ' '
  gap_blank := by simp
  line_blank := by
    intro level c member
    rcases List.mem_cons.mp member with rfl | space
    · rfl
    · rw [List.eq_of_mem_replicate space]
      rfl

section
variable (layout : Layout) (str : ℚ → String)

mutual

/-- What `json.dumps` writes of a value at a level. -/
def dump (level : Nat) : Value → List Char
  | .null => "null".toList
  | .bool true => "true".toList
  | .bool false => "false".toList
  | .int n => intText n
  | .float q => (str q).toList
  | .str text => quote text
  | .array [] => ['[', ']']
  | .array (item :: items) =>
    '[' :: layout.line (level + 1) ++ dump (level + 1) item ++ dumpItems level items
  | .object [] => ['{', '}']
  | .object ((key, value) :: entries) =>
    '{' :: layout.line (level + 1) ++ quote key ++ ':' :: ' ' :: dump (level + 1) value ++ dumpEntries level entries
termination_by structural value => value

/-- The other items of a list, and its end. -/
def dumpItems (level : Nat) : List Value → List Char
  | [] => layout.line level ++ [']']
  | item :: items => ',' :: layout.gap ++ layout.line (level + 1) ++ dump (level + 1) item ++ dumpItems level items
termination_by structural items => items

/-- The other entries of a dictionary, and its end. -/
def dumpEntries (level : Nat) : List (String × Value) → List Char
  | [] => layout.line level ++ ['}']
  | (key, value) :: entries =>
    ',' :: layout.gap ++ layout.line (level + 1) ++ quote key ++ ':' :: ' ' :: dump (level + 1) value ++
      dumpEntries level entries
termination_by structural entries => entries

end

def dumps (value : Value) : List Char := dump layout str 0 value

end

/-- The items of a list up to its end; a value takes at least one character. -/
def scanItems (scan : List Char → Option (Value × List Char)) : Nat → List Char → Option (List Value × List Char)
  | 0, _ => none
  | fuel + 1, text => do
    let (item, rest) ← scan text
    match skipBlanks rest with
    | ']' :: rest => return ([item], rest)
    | ',' :: rest =>
      let (items, rest) ← scanItems scan fuel (skipBlanks rest)
      return (item :: items, rest)
    | _ => none

/-- The entries of an object up to its end. -/
def scanEntries (scan : List Char → Option (Value × List Char)) :
    Nat → List Char → Option (List (String × Value) × List Char)
  | 0, _ => none
  | _ + 1, [] => none
  | fuel + 1, c :: rest =>
    if c ≠ '"' then none
    else do
      let (key, rest) ← scanString rest
      match skipBlanks rest with
      | ':' :: rest =>
        let (value, rest) ← scan (skipBlanks rest)
        match skipBlanks rest with
        | '}' :: rest => return ([(key, value)], rest)
        | ',' :: rest =>
          let (entries, rest) ← scanEntries scan fuel (skipBlanks rest)
          return ((key, value) :: entries, rest)
        | _ => none
      | _ => none

/-- `scan_once`, and what follows; `none` is the `JSONDecodeError`. The words for
    infinities and `nan` are not numbers here. -/
def scanValue : Nat → List Char → Option (Value × List Char)
  | 0, _ => none
  | _ + 1, [] => none
  | fuel + 1, c :: rest =>
    if c = '"' then (scanString rest).map (fun (text, rest) => (.str text, rest))
    else if c = '{' then
      match skipBlanks rest with
      | '}' :: rest => some (.object [], rest)
      | rest => (scanEntries (scanValue fuel) rest.length rest).map (fun (entries, rest) => (.object (assigned entries), rest))
    else if c = '[' then
      match skipBlanks rest with
      | ']' :: rest => some (.array [], rest)
      | rest => (scanItems (scanValue fuel) rest.length rest).map (fun (items, rest) => (.array items, rest))
    else if ['n', 'u', 'l', 'l'] <+: c :: rest then some (.null, rest.drop 3)
    else if ['t', 'r', 'u', 'e'] <+: c :: rest then some (.bool true, rest.drop 3)
    else if ['f', 'a', 'l', 's', 'e'] <+: c :: rest then some (.bool false, rest.drop 4)
    else scanNumber (c :: rest)

/-- `json.loads`. -/
def loads (text : List Char) : Option Value :=
  match scanValue (text.length + 1) (skipBlanks text) with
  | some (value, rest) => if skipBlanks rest = [] then some value else none
  | none => none

/-! ## What is written is read -/

theorem skipBlanks_append {blanks : List Char} (blank : ∀ c ∈ blanks, isBlank c = true) (rest : List Char) :
    skipBlanks (blanks ++ rest) = skipBlanks rest := by
  induction blanks with
  | nil => rfl
  | cons c others ih =>
    rw [List.cons_append, skipBlanks, List.dropWhile_cons_of_pos (blank c List.mem_cons_self)]
    exact ih (fun d member => blank d (List.mem_cons_of_mem c member))

theorem skipBlanks_cons {c : Char} (visible : isBlank c = false) (rest : List Char) : skipBlanks (c :: rest) = c :: rest :=
  List.dropWhile_cons_of_neg (by simp [visible])

/-- A value whose dictionaries have distinct keys, and whose every `float` is read as
    it is printed. -/
inductive Readable (str : ℚ → String) : Value → Prop
  | null : Readable str .null
  | bool (b : Bool) : Readable str (.bool b)
  | int (n : ℤ) : Readable str (.int n)
  | float {q : ℚ} (read : scanNumber (str q).toList = some (.float q, [])) : Readable str (.float q)
  | str (text : String) : Readable str (.str text)
  | array {items : List Value} (each : ∀ item ∈ items, Readable str item) : Readable str (.array items)
  | object {entries : List (String × Value)} (distinct : (entries.map Prod.fst).Nodup)
      (each : ∀ entry ∈ entries, Readable str entry.2) : Readable str (.object entries)

theorem scanNumber_head {text rest : List Char} {value : Value} (scanned : scanNumber text = some (value, rest)) :
    ∃ c more, text = c :: more ∧ (c = '-' ∨ c.isDigit = true) := by
  cases text with
  | nil => cases scanned
  | cons c more =>
    refine ⟨c, more, rfl, ?_⟩
    by_contra other
    obtain ⟨notMinus, notDigit⟩ := not_or.mp other
    have notZero : c ≠ '0' := by
      rintro rfl
      exact notDigit (by decide)
    have none : matchInteger (c :: more) = none := by
      rw [matchInteger, if_neg notMinus, matchNatural, if_neg notZero, List.takeWhile_cons_of_neg notDigit, if_pos rfl]
    simp [scanNumber, none] at scanned

section
variable {layout : Layout} {str : ℚ → String}

theorem stops_cons {c : Char} (ends : c = ',' ∨ c = ']' ∨ c = '}' ∨ isBlank c = true) (rest : List Char) : Stops (c :: rest) := by
  intro d head
  obtain rfl := Option.some.inj head
  rcases ends with rfl | rfl | rfl | blank
  · decide
  · decide
  · decide
  · simp only [isBlank, Bool.or_eq_true, decide_eq_true_eq] at blank
    rcases blank with ((rfl | rfl) | rfl) | rfl <;> decide

/-- What is written of a value begins with something to see. -/
theorem dump_head (level : Nat) {value : Value} (readable : Readable str value) :
    ∃ c rest, dump layout str level value = c :: rest ∧ isBlank c = false ∧ c ≠ ']' := by
  have number : ∀ {c : Char}, c = '-' ∨ c.isDigit = true → isBlank c = false ∧ c ≠ ']' := by
    rintro c (rfl | digit)
    · decide
    · constructor
      · by_contra blank
        have notDigit := (stops_cons (.inr (.inr (.inr (Bool.eq_true_of_not_eq_false blank)))) [] c rfl).1
        cases digit.symm.trans notDigit
      · rintro rfl
        exact absurd digit (by decide)
  cases readable with
  | null => exact ⟨_, _, rfl, by decide, by decide⟩
  | bool b => cases b <;> exact ⟨_, _, rfl, by decide, by decide⟩
  | int n =>
    obtain ⟨c, rest, text, kind⟩ := scanNumber_head (scanNumber_intText n)
    exact ⟨c, rest, text, number kind⟩
  | float read =>
    obtain ⟨c, rest, text, kind⟩ := scanNumber_head read
    exact ⟨c, rest, text, number kind⟩
  | str text => exact ⟨_, _, rfl, by decide, by decide⟩
  | @array items _ => cases items <;> exact ⟨_, _, rfl, by decide, by decide⟩
  | @object entries _ _ => cases entries <;> exact ⟨_, _, rfl, by decide, by decide⟩

theorem stops_line (level : Nat) {c : Char} (ends : c = ',' ∨ c = ']' ∨ c = '}') (rest : List Char) :
    Stops (layout.line level ++ c :: rest) := by
  cases blanks : layout.line level with
  | nil => exact stops_cons (by tauto) rest
  | cons d others =>
    have blank := layout.line_blank level d (by rw [blanks]; exact List.mem_cons_self)
    exact stops_cons (.inr (.inr (.inr blank))) _

theorem length_items (level : Nat) (items : List Value) : items.length < (dumpItems layout str level items).length := by
  induction items with
  | nil => simp [dumpItems]
  | cons item others ih =>
    simp only [dumpItems, List.length_cons, List.length_append]
    omega

theorem length_entries (level : Nat) (entries : List (String × Value)) :
    entries.length < (dumpEntries layout str level entries).length := by
  induction entries with
  | nil => simp [dumpEntries]
  | cons entry others ih =>
    simp only [dumpEntries, List.length_cons, List.length_append]
    omega

theorem length_item (level : Nat) {items : List Value} {item : Value} (member : item ∈ items) :
    (dump layout str (level + 1) item).length ≤ (dumpItems layout str level items).length := by
  induction items with
  | nil => cases member
  | cons first others ih =>
    simp only [dumpItems, List.length_cons, List.length_append]
    rcases List.mem_cons.mp member with rfl | inOthers
    · omega
    · have shorter := ih inOthers
      omega

theorem length_entry (level : Nat) {entries : List (String × Value)} {entry : String × Value} (member : entry ∈ entries) :
    (dump layout str (level + 1) entry.2).length ≤ (dumpEntries layout str level entries).length := by
  induction entries with
  | nil => cases member
  | cons first others ih =>
    simp only [dumpEntries, List.length_cons, List.length_append]
    rcases List.mem_cons.mp member with rfl | inOthers
    · omega
    · have shorter := ih inOthers
      omega

theorem quote_append (text : String) (rest : List Char) :
    quote text ++ rest = '"' :: (text.toList.flatMap escape ++ '"' :: rest) := by
  simp [quote]

theorem scanItems_dump {scan : List Char → Option (Value × List Char)} {level : Nat} {items : List Value} {item : Value}
    (readable : ∀ other ∈ item :: items, Readable str other)
    (each : ∀ other ∈ item :: items, ∀ rest, Stops rest →
      scan (dump layout str (level + 1) other ++ rest) = some (other, rest))
    {fuel : Nat} (enough : items.length < fuel) (rest : List Char) :
    scanItems scan fuel (dump layout str (level + 1) item ++ (dumpItems layout str level items ++ rest)) =
      some (item :: items, rest) := by
  induction items generalizing item fuel with
  | nil =>
    obtain ⟨more, rfl⟩ : ∃ more, fuel = more + 1 := ⟨fuel - 1, by simp at enough; omega⟩
    have ending : dumpItems layout str level [] ++ rest = layout.line level ++ ']' :: rest := by simp [dumpItems]
    have blanks : skipBlanks (layout.line level ++ ']' :: rest) = ']' :: rest := by
      rw [skipBlanks_append (layout.line_blank level), skipBlanks_cons (by decide)]
    rw [ending, scanItems, each item List.mem_cons_self _ (stops_line level (by tauto) rest)]
    simp only [Option.bind_eq_bind, Option.bind_some, blanks]
    rfl
  | cons next others ih =>
    obtain ⟨more, rfl⟩ : ∃ more, fuel = more + 1 := ⟨fuel - 1, by simp at enough; omega⟩
    have later := ih (fun other member => readable other (List.mem_cons_of_mem item member))
      (fun other member => each other (List.mem_cons_of_mem item member))
      (show others.length < more by rw [List.length_cons] at enough; omega)
    have between : dumpItems layout str level (next :: others) ++ rest = ',' :: (layout.gap ++ (layout.line (level + 1) ++
        (dump layout str (level + 1) next ++ (dumpItems layout str level others ++ rest)))) := by
      simp [dumpItems]
    obtain ⟨c, text, begins, visible, -⟩ := @dump_head layout str (level + 1) next (readable next (by simp))
    have blanks : skipBlanks (layout.gap ++ (layout.line (level + 1) ++
        (dump layout str (level + 1) next ++ (dumpItems layout str level others ++ rest)))) =
          dump layout str (level + 1) next ++ (dumpItems layout str level others ++ rest) := by
      rw [skipBlanks_append layout.gap_blank, skipBlanks_append (layout.line_blank _), begins, List.cons_append,
        skipBlanks_cons visible]
    rw [between, scanItems, each item List.mem_cons_self _ (stops_cons (by tauto) _)]
    simp only [Option.bind_eq_bind, Option.bind_some]
    rw [skipBlanks_cons (by decide)]
    simp only [blanks, later, Option.bind_some]
    rfl

theorem scanEntries_dump {scan : List Char → Option (Value × List Char)} {level : Nat}
    {entries : List (String × Value)} {key : String} {value : Value}
    (readable : ∀ other ∈ (key, value) :: entries, Readable str other.2)
    (each : ∀ other ∈ (key, value) :: entries, ∀ rest, Stops rest →
      scan (dump layout str (level + 1) other.2 ++ rest) = some (other.2, rest))
    {fuel : Nat} (enough : entries.length < fuel) (rest : List Char) :
    scanEntries scan fuel (quote key ++ ':' :: ' ' :: (dump layout str (level + 1) value ++
      (dumpEntries layout str level entries ++ rest))) = some ((key, value) :: entries, rest) := by
  -- Before a value there is one blank.
  have first : ∀ other {c text}, isBlank c = false → dump layout str (level + 1) other = c :: text → ∀ more,
      skipBlanks (' ' :: (dump layout str (level + 1) other ++ more)) = dump layout str (level + 1) other ++ more := by
    intro other c text visible begins more
    rw [begins, List.cons_append]
    exact skipBlanks_cons visible _
  induction entries generalizing key value fuel with
  | nil =>
    obtain ⟨more, rfl⟩ : ∃ more, fuel = more + 1 := ⟨fuel - 1, by simp at enough; omega⟩
    have ending : dumpEntries layout str level [] ++ rest = layout.line level ++ '}' :: rest := by simp [dumpEntries]
    have blanks : skipBlanks (layout.line level ++ '}' :: rest) = '}' :: rest := by
      rw [skipBlanks_append (layout.line_blank level), skipBlanks_cons (by decide)]
    obtain ⟨c, text, begins, visible, -⟩ := @dump_head layout str (level + 1) value (readable (key, value) (by simp))
    rw [ending, quote_append, scanEntries, if_neg (not_not.mpr rfl), scanString_quote]
    simp only [Option.bind_eq_bind, Option.bind_some]
    rw [skipBlanks_cons (by decide)]
    have own := each (key, value) List.mem_cons_self (layout.line level ++ '}' :: rest) (stops_line level (by tauto) rest)
    simp only [first value visible begins, own, Option.bind_some, blanks]
    rfl
  | cons next others ih =>
    obtain ⟨more, rfl⟩ : ∃ more, fuel = more + 1 := ⟨fuel - 1, by simp at enough; omega⟩
    have later := ih (fun other member => readable other (List.mem_cons_of_mem _ member))
      (fun other member => each other (List.mem_cons_of_mem _ member))
      (show others.length < more by rw [List.length_cons] at enough; omega)
    have between : dumpEntries layout str level (next :: others) ++ rest = ',' :: (layout.gap ++ (layout.line (level + 1) ++
        (quote next.1 ++ ':' :: ' ' :: (dump layout str (level + 1) next.2 ++
          (dumpEntries layout str level others ++ rest))))) := by
      simp [dumpEntries]
    have blanks : skipBlanks (layout.gap ++ (layout.line (level + 1) ++ (quote next.1 ++ ':' :: ' ' ::
        (dump layout str (level + 1) next.2 ++ (dumpEntries layout str level others ++ rest))))) =
          quote next.1 ++ ':' :: ' ' :: (dump layout str (level + 1) next.2 ++
            (dumpEntries layout str level others ++ rest)) := by
      rw [skipBlanks_append layout.gap_blank, skipBlanks_append (layout.line_blank _), quote_append,
        skipBlanks_cons (by decide)]
    obtain ⟨c, text, begins, visible, -⟩ := @dump_head layout str (level + 1) value (readable (key, value) (by simp))
    rw [between, quote_append, scanEntries, if_neg (not_not.mpr rfl), scanString_quote]
    simp only [Option.bind_eq_bind, Option.bind_some]
    rw [skipBlanks_cons (by decide)]
    have own := each (key, value) List.mem_cons_self
    simp only [first value visible begins, own _ (stops_cons (by tauto) _), Option.bind_some]
    rw [skipBlanks_cons (by decide)]
    simp only [blanks, later, Option.bind_some]
    rfl

theorem noWord {c d : Char} (other : c ≠ d) (word rest : List Char) : ¬ d :: word <+: c :: rest := by
  rintro ⟨tail, same⟩
  exact other (List.cons.inj same).1.symm

theorem scanValue_number {text rest : List Char} {value : Value} (scanned : scanNumber text = some (value, rest))
    {fuel : Nat} (enough : text.length < fuel) {more : List Char} (stops : Stops more) :
    scanValue fuel (text ++ more) = some (value, rest ++ more) := by
  obtain ⟨fuel, rfl⟩ : ∃ less, fuel = less + 1 := ⟨fuel - 1, by omega⟩
  obtain ⟨c, others, rfl, kind⟩ := scanNumber_head scanned
  have differs : ∀ d : Char, d ≠ '-' → d.isDigit = false → c ≠ d := by
    rintro d notMinus notDigit rfl
    rcases kind with same | digit
    · exact notMinus same
    · cases digit.symm.trans notDigit
  rw [List.cons_append, scanValue, if_neg (differs '"' (by decide) (by decide)), if_neg (differs '{' (by decide) (by decide)),
    if_neg (differs '[' (by decide) (by decide)), if_neg (noWord (differs 'n' (by decide) (by decide)) _ _),
    if_neg (noWord (differs 't' (by decide) (by decide)) _ _), if_neg (noWord (differs 'f' (by decide) (by decide)) _ _),
    ← List.cons_append, scanNumber_stop stops, scanned, Option.map_some]

theorem scanValue_items {text others : List Char} {c : Char} (begins : skipBlanks text = c :: others) (other : c ≠ ']')
    (fuel : Nat) : scanValue (fuel + 1) ('[' :: text) =
      (scanItems (scanValue fuel) (c :: others).length (c :: others)).map (fun (items, rest) => (.array items, rest)) := by
  rw [scanValue, if_neg (by decide), if_neg (by decide), if_pos rfl, begins]
  split
  · rename_i same
    exact absurd (List.cons.inj same).1 other
  · rfl

theorem scanValue_entries {text others : List Char} {key : String} (begins : skipBlanks text = quote key ++ others)
    (fuel : Nat) : scanValue (fuel + 1) ('{' :: text) =
      (scanEntries (scanValue fuel) (quote key ++ others).length (quote key ++ others)).map
        (fun (entries, rest) => (.object (assigned entries), rest)) := by
  rw [scanValue, if_neg (by decide), if_pos rfl, begins]
  split
  · rename_i same
    exact absurd (List.cons.inj same).1 (by decide)
  · rfl

/-- Whatever follows a value, if a number may end there: the value is read, and what
    follows is left. -/
theorem scanValue_dump {value : Value} (readable : Readable str value) {level fuel : Nat}
    (enough : (dump layout str level value).length < fuel) {rest : List Char} (stops : Stops rest) :
    scanValue fuel (dump layout str level value ++ rest) = some (value, rest) := by
  induction readable generalizing level fuel rest with
  | null =>
    obtain ⟨fuel, rfl⟩ : ∃ less, fuel = less + 1 := ⟨fuel - 1, by omega⟩
    have text : dump layout str level .null ++ rest = 'n' :: 'u' :: 'l' :: 'l' :: rest := rfl
    rw [text, scanValue, if_neg (by decide), if_neg (by decide), if_neg (by decide), if_pos ⟨rest, rfl⟩]
    rfl
  | bool b =>
    obtain ⟨fuel, rfl⟩ : ∃ less, fuel = less + 1 := ⟨fuel - 1, by omega⟩
    cases b with
    | true =>
      have text : dump layout str level (.bool true) ++ rest = 't' :: 'r' :: 'u' :: 'e' :: rest := rfl
      rw [text, scanValue, if_neg (by decide), if_neg (by decide), if_neg (by decide),
        if_neg (noWord (by decide) _ _), if_pos ⟨rest, rfl⟩]
      rfl
    | false =>
      have text : dump layout str level (.bool false) ++ rest = 'f' :: 'a' :: 'l' :: 's' :: 'e' :: rest := rfl
      rw [text, scanValue, if_neg (by decide), if_neg (by decide), if_neg (by decide),
        if_neg (noWord (by decide) _ _),
        if_neg (noWord (by decide) _ _), if_pos ⟨rest, rfl⟩]
      rfl
  | int n => exact scanValue_number (scanNumber_intText n) enough stops
  | float read => exact scanValue_number read enough stops
  | str text =>
    obtain ⟨fuel, rfl⟩ : ∃ less, fuel = less + 1 := ⟨fuel - 1, by omega⟩
    have quoted : dump layout str level (.str text) = quote text := rfl
    rw [quoted, quote_append, scanValue, if_pos rfl, scanString_quote]
    rfl
  | @array items each ih =>
    obtain ⟨fuel, rfl⟩ : ∃ less, fuel = less + 1 := ⟨fuel - 1, by omega⟩
    cases items with
    | nil =>
      have text : dump layout str level (.array []) ++ rest = '[' :: ']' :: rest := rfl
      rw [text, scanValue, if_neg (by decide), if_neg (by decide), if_pos rfl, skipBlanks_cons (by decide)]
      rfl
    | cons item items =>
      have whole : dump layout str level (.array (item :: items)) =
          '[' :: (layout.line (level + 1) ++ (dump layout str (level + 1) item ++ dumpItems layout str level items)) := by
        simp [dump]
      obtain ⟨c, others, begins, visible, other⟩ := @dump_head layout str (level + 1) item (each item List.mem_cons_self)
      have blanks : skipBlanks (layout.line (level + 1) ++ (dump layout str (level + 1) item ++
          dumpItems layout str level items) ++ rest) = c :: (others ++ (dumpItems layout str level items ++ rest)) := by
        rw [List.append_assoc, skipBlanks_append (layout.line_blank _), begins, List.append_assoc, List.cons_append,
          skipBlanks_cons visible]
      rw [whole] at enough
      simp only [List.length_cons, List.length_append] at enough
      have inner : ∀ other ∈ item :: items, ∀ rest, Stops rest →
          scanValue fuel (dump layout str (level + 1) other ++ rest) = some (other, rest) := by
        intro other member rest stops
        refine ih other member ?_ stops
        rcases List.mem_cons.mp member with rfl | inItems
        · omega
        · have shorter := @length_item layout str level items other inItems
          omega
      have items_fit : items.length < (c :: (others ++ (dumpItems layout str level items ++ rest))).length := by
        have shorter := @length_items layout str level items
        simp only [List.length_cons, List.length_append]
        omega
      rw [whole, List.cons_append, scanValue_items blanks other, ← List.cons_append, ← begins,
        scanItems_dump each inner (by rw [begins]; exact items_fit)]
      rfl
  | @object entries distinct each ih =>
    obtain ⟨fuel, rfl⟩ : ∃ less, fuel = less + 1 := ⟨fuel - 1, by omega⟩
    cases entries with
    | nil =>
      have text : dump layout str level (.object []) ++ rest = '{' :: '}' :: rest := rfl
      rw [text, scanValue, if_neg (by decide), if_pos rfl, skipBlanks_cons (by decide)]
      rfl
    | cons entry entries =>
      obtain ⟨key, value⟩ := entry
      have whole : dump layout str level (.object ((key, value) :: entries)) = '{' :: (layout.line (level + 1) ++
          (quote key ++ ':' :: ' ' :: (dump layout str (level + 1) value ++ dumpEntries layout str level entries))) := by
        simp [dump]
      have blanks : skipBlanks (layout.line (level + 1) ++ (quote key ++ ':' :: ' ' :: (dump layout str (level + 1) value ++
          dumpEntries layout str level entries)) ++ rest) = quote key ++ ':' :: ' ' ::
            (dump layout str (level + 1) value ++ (dumpEntries layout str level entries ++ rest)) := by
        rw [List.append_assoc, skipBlanks_append (layout.line_blank _), List.append_assoc, quote_append,
          skipBlanks_cons (by decide), ← quote_append]
        simp
      rw [whole] at enough
      simp only [List.length_cons, List.length_append] at enough
      have inner : ∀ other ∈ (key, value) :: entries, ∀ rest, Stops rest →
          scanValue fuel (dump layout str (level + 1) other.2 ++ rest) = some (other.2, rest) := by
        intro other member rest stops
        refine ih other member ?_ stops
        rcases List.mem_cons.mp member with rfl | inEntries
        · simp only
          omega
        · have shorter := @length_entry layout str level entries other inEntries
          omega
      have entries_fit : entries.length < (quote key ++ ':' :: ' ' :: (dump layout str (level + 1) value ++
          (dumpEntries layout str level entries ++ rest))).length := by
        have shorter := @length_entries layout str level entries
        simp only [List.length_cons, List.length_append]
        omega
      rw [whole, List.cons_append, scanValue_entries blanks, scanEntries_dump each inner entries_fit, Option.map_some]
      exact congrArg (fun entries => some (Value.object entries, rest)) (assigned_of_nodup distinct)

/-- What `json.dumps` writes of a value, in either layout, `json.loads` reads as it, also
    before blanks. -/
theorem loads_dumps_blanks {value : Value} (readable : Readable str value) {blanks : List Char}
    (blank : ∀ c ∈ blanks, isBlank c = true) : loads (dumps layout str value ++ blanks) = some value := by
  obtain ⟨c, others, begins, visible, -⟩ := @dump_head layout str 0 value readable
  have enough : (dump layout str 0 value).length < (dump layout str 0 value ++ blanks).length + 1 := by
    rw [List.length_append]
    omega
  have stops : Stops blanks := by
    cases blanks with
    | nil => rintro c ⟨⟩
    | cons d rest => exact stops_cons (.inr (.inr (.inr (blank d List.mem_cons_self)))) rest
  have scanned := @scanValue_dump layout str value readable 0 _ enough blanks stops
  have visibleFirst : skipBlanks (dump layout str 0 value ++ blanks) = dump layout str 0 value ++ blanks := by
    rw [begins]
    exact skipBlanks_cons visible (others ++ blanks)
  have blanksOnly : skipBlanks blanks = [] := List.dropWhile_eq_nil_iff.mpr blank
  rw [loads, dumps, visibleFirst, scanned]
  exact if_pos blanksOnly

theorem loads_dumps {value : Value} (readable : Readable str value) : loads (dumps layout str value) = some value := by
  have read := @loads_dumps_blanks layout str value readable [] (by rintro c ⟨⟩)
  rwa [List.append_nil] at read

/-! ## What is written is ASCII -/

theorem plain_escape {P : Char → Prop} (plain : ∀ c, ' ' ≤ c → c ≤ '~' → P c) (c : Char) : ∀ d ∈ escape c, P d := by
  have digit : ∀ n, P (Nat.digitChar (n % 16)) := by
    intro n
    have all : ∀ d < 16, ' ' ≤ Nat.digitChar d ∧ Nat.digitChar d ≤ '~' := by decide
    obtain ⟨above, below⟩ := all (n % 16) (Nat.mod_lt n (by decide))
    exact plain _ above below
  have hex : ∀ n, ∀ d ∈ hex4 n, P d := by
    intro n d member
    simp only [hex4, List.mem_cons, List.not_mem_nil, or_false] at member
    rcases member with rfl | rfl | rfl | rfl <;> exact digit _
  have backslash : P '\\' := plain _ (by decide) (by decide)
  have unicode : ∀ n, ∀ d ∈ '\\' :: 'u' :: hex4 n, P d := by
    intro n
    exact List.forall_mem_cons.mpr ⟨backslash, List.forall_mem_cons.mpr ⟨plain _ (by decide) (by decide), hex n⟩⟩
  have pair : ∀ d, ' ' ≤ d → d ≤ '~' → ∀ e ∈ ['\\', d], P e := by
    intro d above below
    exact List.forall_mem_cons.mpr ⟨backslash, List.forall_mem_singleton.mpr (plain d above below)⟩
  unfold escape
  split_ifs with _ _ _ _ _ _ _ printable _
  · exact pair _ (by decide) (by decide)
  · exact pair _ (by decide) (by decide)
  · exact pair _ (by decide) (by decide)
  · exact pair _ (by decide) (by decide)
  · exact pair _ (by decide) (by decide)
  · exact pair _ (by decide) (by decide)
  · exact pair _ (by decide) (by decide)
  · exact List.forall_mem_singleton.mpr (plain c printable.1 printable.2)
  · exact unicode _
  · intro d member
    rcases List.mem_append.mp member with high | low
    · exact unicode _ d high
    · exact unicode _ d low

theorem plain_quote {P : Char → Prop} (plain : ∀ c, ' ' ≤ c → c ≤ '~' → P c) (text : String) : ∀ c ∈ quote text, P c := by
  intro c member
  rcases List.mem_append.mp member with inside | last
  · rcases List.mem_cons.mp inside with rfl | escaped
    · exact plain _ (by decide) (by decide)
    · obtain ⟨d, -, written⟩ := List.mem_flatMap.mp escaped
      exact plain_escape plain d c written
  · obtain rfl := List.mem_singleton.mp last
    exact plain _ (by decide) (by decide)

theorem plain_number {P : Char → Prop} (plain : ∀ c, ' ' ≤ c → c ≤ '~' → P c) {text : List Char} {value : Value}
    (scanned : scanNumber text = some (value, [])) : ∀ c ∈ text, P c := by
  intro c member
  have kind := scanNumber_chars scanned c member
  simp only [isNumberChar, Bool.or_eq_true, decide_eq_true_eq] at kind
  rcases kind with digit | other
  · obtain ⟨low, high⟩ := isDigit_bounds digit
    have above : (' ').toNat ≤ c.toNat := by
      rw [show (' ').toNat = 32 from rfl]
      omega
    have below : c.toNat ≤ ('~').toNat := by
      rw [show ('~').toNat = 126 from rfl]
      omega
    exact plain c above below
  · simp only [List.mem_cons, List.not_mem_nil, or_false] at other
    rcases other with rfl | rfl | rfl | rfl | rfl <;> exact plain _ (by decide) (by decide)

/-- Every character of a text is printable ASCII, or one of the blanks of the layout. -/
theorem dump_chars {P : Char → Prop} (plain : ∀ c, ' ' ≤ c → c ≤ '~' → P c) (gap : ∀ c ∈ layout.gap, P c)
    (line : ∀ level, ∀ c ∈ layout.line level, P c) {value : Value} (readable : Readable str value) (level : Nat) :
    ∀ c ∈ dump layout str level value, P c := by
  have visible : ∀ c ∈ [',', ':', ' ', '[', ']', '{', '}'], P c := by
    intro c member
    simp only [List.mem_cons, List.not_mem_nil, or_false] at member
    rcases member with rfl | rfl | rfl | rfl | rfl | rfl | rfl <;> exact plain _ (by decide) (by decide)
  simp only [List.forall_mem_cons, List.not_mem_nil, false_implies, implies_true, and_true] at visible
  have word : ∀ text : List Char, text.all (fun c => ' ' ≤ c ∧ c ≤ '~') = true → ∀ c ∈ text, P c := by
    intro text all c member
    have bounds := List.all_eq_true.mp all c member
    simp only [decide_eq_true_eq] at bounds
    exact plain c bounds.1 bounds.2
  induction readable generalizing level with
  | null => exact word "null".toList (by decide)
  | bool b =>
    cases b with
    | true => exact word "true".toList (by decide)
    | false => exact word "false".toList (by decide)
  | int n => exact plain_number plain (scanNumber_intText n)
  | float read => exact plain_number plain read
  | str text => exact plain_quote plain text
  | @array items each ih =>
    have others : ∀ items : List Value, (∀ item ∈ items, ∀ level, ∀ c ∈ dump layout str level item, P c) →
        ∀ c ∈ dumpItems layout str level items, P c := by
      intro items inside
      induction items with
      | nil => exact List.forall_mem_append.mpr ⟨line level, List.forall_mem_singleton.mpr visible.2.2.2.2.1⟩
      | cons item rest later =>
        have own := inside item List.mem_cons_self (level + 1)
        have more := later (fun other member => inside other (List.mem_cons_of_mem item member))
        simp only [dumpItems, List.forall_mem_append, List.forall_mem_cons]
        exact ⟨⟨⟨⟨visible.1, gap⟩, line (level + 1)⟩, own⟩, more⟩
    cases items with
    | nil => exact word ['[', ']'] (by decide)
    | cons item rest =>
      have own := ih item List.mem_cons_self (level + 1)
      have more := others rest (fun other member => ih other (List.mem_cons_of_mem item member))
      simp only [dump, List.forall_mem_append, List.forall_mem_cons]
      exact ⟨⟨⟨visible.2.2.2.1, line (level + 1)⟩, own⟩, more⟩
  | @object entries _ each ih =>
    have others : ∀ entries : List (String × Value), (∀ entry ∈ entries, ∀ level, ∀ c ∈ dump layout str level entry.2, P c) →
        ∀ c ∈ dumpEntries layout str level entries, P c := by
      intro entries inside
      induction entries with
      | nil => exact List.forall_mem_append.mpr ⟨line level, List.forall_mem_singleton.mpr visible.2.2.2.2.2.2⟩
      | cons entry rest later =>
        have own := inside entry List.mem_cons_self (level + 1)
        have more := later (fun other member => inside other (List.mem_cons_of_mem entry member))
        simp only [dumpEntries, List.forall_mem_append, List.forall_mem_cons]
        exact ⟨⟨⟨⟨⟨visible.1, gap⟩, line (level + 1)⟩, plain_quote plain entry.1⟩, visible.2.1, visible.2.2.1, own⟩, more⟩
    cases entries with
    | nil => exact word ['{', '}'] (by decide)
    | cons entry rest =>
      have own := ih entry List.mem_cons_self (level + 1)
      have more := others rest (fun other member => ih other (List.mem_cons_of_mem entry member))
      simp only [dump, List.forall_mem_append, List.forall_mem_cons]
      exact ⟨⟨⟨⟨visible.2.2.2.2.2.1, line (level + 1)⟩, plain_quote plain entry.1⟩, visible.2.1, visible.2.2.1, own⟩, more⟩

end

end RepidBench.JsonText
