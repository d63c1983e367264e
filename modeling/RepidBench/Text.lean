import Mathlib.Data.List.DropRight

/-!
Text as a program prints it and another reads it back: universal newlines, the
lines of a file, and searching the lines for a pattern of the simple kind
`^literal class* (class+)`, matched with backtracking from the left.
-/
namespace RepidBench.Text

/-! ## Newlines and lines -/

/-- The newline decoder; the flag tells that the previous character was a `\r`. -/
def translate : Bool → List Char → List Char
  | _, [] => []
  | afterReturn, c :: rest =>
    if c = '\n' ∧ afterReturn then translate false rest
    else if c = '\r' then '\n' :: translate true rest
    else c :: translate false rest

/-- Text mode with universal newlines: `\r\n` and `\r` are read as `\n`. -/
def universalNewlines (stream : List Char) : List Char := translate false stream

/-- Iteration over a file: each line with its `\n`, and what follows the last. -/
def fileLines : List Char → List (List Char)
  | [] => []
  | c :: rest =>
    if c = '\n' then [c] :: fileLines rest
    else
      match fileLines rest with
      | [] => [[c]]
      | line :: more => (c :: line) :: more

def isLineEnd (c : Char) : Bool := c = '\r' || c = '\n'

/-- `[raw.rstrip("\r\n") for raw in stream]`, the stream opened in text mode. -/
def readLines (stream : List Char) : List (List Char) :=
  (fileLines (universalNewlines stream)).map (List.rdropWhile isLineEnd)

/-- `"\n".join(lines)`. -/
def joinLines (lines : List (List Char)) : List Char := List.intercalate ['\n'] lines

/-- No line ends in the text. -/
def SingleLine (text : List Char) : Prop := ∀ c ∈ text, isLineEnd c = false

instance (text : List Char) : Decidable (SingleLine text) :=
  List.decidableBAll (fun c => isLineEnd c = false) text

@[simp] theorem singleLine_nil : SingleLine [] := by simp [SingleLine]

@[simp] theorem singleLine_append {a b : List Char} : SingleLine (a ++ b) ↔ SingleLine a ∧ SingleLine b := by
  simp only [SingleLine, List.mem_append]
  constructor
  · intro single
    exact ⟨fun c member => single c (.inl member), fun c member => single c (.inr member)⟩
  · rintro ⟨first, second⟩ c (member | member)
    · exact first c member
    · exact second c member

@[simp] theorem singleLine_cons {c : Char} {rest : List Char} :
    SingleLine (c :: rest) ↔ isLineEnd c = false ∧ SingleLine rest := by
  simp [SingleLine]

theorem SingleLine.noNewline {text : List Char} (single : SingleLine text) : '\n' ∉ text :=
  fun member => absurd (single '\n' member) (by decide)

theorem translate_text {text : List Char} (single : SingleLine text) (present : text ≠ []) (afterReturn : Bool)
    (rest : List Char) : translate afterReturn (text ++ rest) = text ++ translate false rest := by
  induction text generalizing afterReturn with
  | nil => exact absurd rfl present
  | cons c more ih =>
    obtain ⟨plain, others⟩ := singleLine_cons.mp single
    have notReturn : c ≠ '\r' := by
      rintro rfl
      exact absurd plain (by decide)
    have notNewline : c ≠ '\n' := by
      rintro rfl
      exact absurd plain (by decide)
    simp only [List.cons_append, translate, notReturn, notNewline, false_and, ↓reduceIte, List.cons.injEq, true_and]
    by_cases last : more = []
    · rw [last]
      rfl
    · exact ih others last false

theorem fileLines_text {text : List Char} (single : SingleLine text) (rest : List Char) :
    fileLines (text ++ '\n' :: rest) = (text ++ ['\n']) :: fileLines rest := by
  induction text with
  | nil => simp [fileLines]
  | cons c more ih =>
    obtain ⟨plain, others⟩ := singleLine_cons.mp single
    have notNewline : c ≠ '\n' := by
      rintro rfl
      exact absurd plain (by decide)
    simp [fileLines, notNewline, ih others]

theorem rdropWhile_text {text : List Char} (single : SingleLine text) :
    List.rdropWhile isLineEnd (text ++ ['\n']) = text := by
  rw [List.rdropWhile_concat_pos _ _ _ (by decide), List.rdropWhile_eq_self_iff]
  intro present
  rw [single _ (List.getLast_mem present)]
  decide

/-- What a program prints: pieces of text without line ends, each ended by a
    newline or a carriage return. -/
structure Fragment where
  text : List Char
  ending : Char
  deriving DecidableEq, Repr

structure Fragment.WellFormed (fragment : Fragment) : Prop where
  single : SingleLine fragment.text
  ending : fragment.ending = '\n' ∨ fragment.ending = '\r'

def streamOf (fragments : List Fragment) : List Char :=
  fragments.flatMap (fun fragment => fragment.text ++ [fragment.ending])

/-- A piece with text is read as its own line, whatever is printed after it. -/
theorem readLines_fragment {fragment : Fragment} (formed : fragment.WellFormed) (present : fragment.text ≠ [])
    (more : List Fragment) (afterReturn : Bool) :
    ∃ flag, (fileLines (translate afterReturn (streamOf (fragment :: more)))).map (List.rdropWhile isLineEnd) =
      fragment.text :: (fileLines (translate flag (streamOf more))).map (List.rdropWhile isLineEnd) := by
  obtain ⟨single, ending⟩ := formed
  have stream : streamOf (fragment :: more) = fragment.text ++ fragment.ending :: streamOf more := by
    simp [streamOf]
  have ended : ∃ flag, translate false (fragment.ending :: streamOf more) =
      '\n' :: translate flag (streamOf more) := by
    rcases ending with newline | carriageReturn
    · exact ⟨false, by simp [newline, translate]⟩
    · exact ⟨true, by simp [carriageReturn, translate]⟩
  obtain ⟨flag, same⟩ := ended
  refine ⟨flag, ?_⟩
  rw [stream, translate_text single present, same, fileLines_text single, List.map_cons, rdropWhile_text single]

/-- What is not blank is read as it was printed; a `\r` before an empty line ended
    by `\n` merges into one newline, so blank lines may be lost. -/
theorem readLines_streamOf {fragments : List Fragment} (formed : ∀ fragment ∈ fragments, fragment.WellFormed) :
    (readLines (streamOf fragments)).filter (· ≠ []) = (fragments.map Fragment.text).filter (· ≠ []) := by
  suffices decoded : ∀ afterReturn, ((fileLines (translate afterReturn (streamOf fragments))).map
      (List.rdropWhile isLineEnd)).filter (· ≠ []) = (fragments.map Fragment.text).filter (· ≠ []) from decoded false
  induction fragments with
  | nil =>
    intro afterReturn
    rfl
  | cons fragment more ih =>
    intro afterReturn
    have rest := ih (fun other member => formed other (by simp [member]))
    by_cases blank : fragment.text = []
    · have stream : streamOf (fragment :: more) = fragment.ending :: streamOf more := by
        simp [streamOf, blank]
      rw [stream, List.map_cons, blank]
      rcases (formed fragment (by simp)).ending with newline | carriageReturn
      · rw [newline]
        cases afterReturn with
        | false => simpa [translate, fileLines, isLineEnd] using rest false
        | true => simpa [translate] using rest false
      · rw [carriageReturn]
        simpa [translate, fileLines, isLineEnd] using rest true
    · obtain ⟨flag, same⟩ := readLines_fragment (formed fragment (by simp)) blank more afterReturn
      rw [same, List.map_cons, List.filter_cons_of_pos (by simpa using blank),
        List.filter_cons_of_pos (by simpa using blank), rest flag]

/-- Where nothing printed is blank, every line is read as it was printed. -/
theorem readLines_present {fragments : List Fragment} (formed : ∀ fragment ∈ fragments, fragment.WellFormed)
    (present : ∀ fragment ∈ fragments, fragment.text ≠ []) :
    readLines (streamOf fragments) = fragments.map Fragment.text := by
  suffices decoded : ∀ afterReturn, (fileLines (translate afterReturn (streamOf fragments))).map
      (List.rdropWhile isLineEnd) = fragments.map Fragment.text from decoded false
  induction fragments with
  | nil =>
    intro afterReturn
    rfl
  | cons fragment more ih =>
    intro afterReturn
    obtain ⟨flag, same⟩ := readLines_fragment (formed fragment (by simp)) (present fragment (by simp)) more afterReturn
    rw [same, List.map_cons, ih (fun other member => formed other (by simp [member]))
      (fun other member => present other (by simp [member])) flag]

/-! ## Splitting at a marker -/

/-- `text.split(marker, 1)[1]`; `none` when the marker is not in the text. -/
def afterFirst (marker : List Char) : List Char → Option (List Char)
  | [] => if marker = [] then some [] else none
  | c :: rest =>
    if marker <+: c :: rest then some ((c :: rest).drop marker.length) else afterFirst marker rest

theorem afterFirst_append {c : Char} {before : List Char} (apart : c ∉ before) (marker rest : List Char) :
    afterFirst (c :: marker) (before ++ (c :: marker ++ rest)) = some rest := by
  induction before with
  | nil => simp [afterFirst]
  | cons d more ih =>
    obtain ⟨other, apart⟩ := List.ne_and_not_mem_of_not_mem_cons apart
    have differs : ¬ c :: marker <+: d :: (more ++ (c :: marker ++ rest)) := by
      rintro ⟨tail, same⟩
      exact other (List.cons.inj same).1
    rw [List.cons_append, afterFirst, if_neg differs]
    exact ih apart

/-! ## Patterns -/

/-- A pattern is a sequence of pieces; `many p` is `p*` and `group p` is `(p+)`. -/
inductive Piece
  | literal (text : List Char)
  | many (p : Char → Bool)
  | group (p : Char → Bool)

/-- The ways in which a greedy repetition can split a text, the longest first. -/
def splits (p : Char → Bool) : List Char → List (List Char × List Char)
  | [] => [([], [])]
  | c :: rest =>
    if p c then (splits p rest).map (fun way => (c :: way.1, way.2)) ++ [([], c :: rest)]
    else [([], c :: rest)]

/-- What a piece captures and what it leaves, for every way it can match. -/
def Piece.ways : Piece → List Char → List (Option (List Char) × List Char)
  | .literal expected, text => if expected <+: text then [(none, text.drop expected.length)] else []
  | .many p, text => (splits p text).map (fun way => (none, way.2))
  | .group p, text => ((splits p text).filter (fun way => way.1 ≠ [])).map (fun way => (some way.1, way.2))

/-- The groups of every match that starts here, in the order of backtracking. -/
def matchesAt : List Piece → List Char → List (List (List Char))
  | [], _ => [[]]
  | piece :: more, text =>
    (piece.ways text).flatMap (fun way => (matchesAt more way.2).map (way.1.toList ++ ·))

/-- `re.search` with `re.MULTILINE` for a pattern that begins with `^`: the groups
    of the first match at the start of a line; the flag tells that the text
    stands at one. -/
def search (pattern : List Piece) : Bool → List Char → Option (List (List Char))
  | lineStart, [] => if lineStart then (matchesAt pattern []).head? else none
  | lineStart, c :: rest =>
    match (if lineStart then (matchesAt pattern (c :: rest)).head? else none) with
    | some groups => some groups
    | none => search pattern (c = '\n') rest

theorem splits_stop {p : Char → Bool} {text : List Char} (stops : ∀ c, text.head? = some c → p c = false) :
    splits p text = [([], text)] := by
  cases text with
  | nil => rfl
  | cons c rest => simp [splits, stops c rfl]

/-- The longest way comes first. -/
theorem splits_longest {p : Char → Bool} {word tail : List Char} (all : ∀ c ∈ word, p c = true)
    (stops : ∀ c, tail.head? = some c → p c = false) :
    ∃ shorter, splits p (word ++ tail) = (word, tail) :: shorter := by
  induction word with
  | nil => exact ⟨[], splits_stop stops⟩
  | cons c rest ih =>
    obtain ⟨shorter, ways⟩ := ih (fun d member => all d (by simp [member]))
    have first : p c = true := all c (by simp)
    exact ⟨_, by rw [List.cons_append, splits, if_pos first, ways, List.map_cons, List.cons_append]⟩

theorem matchesAt_literal_none {literal text : List Char} (differs : ¬ literal <+: text) (more : List Piece) :
    matchesAt (.literal literal :: more) text = [] := by
  rw [matchesAt, Piece.ways, if_neg differs]
  rfl

/-- A line that is the literal, a blank and the word matches with the word; the
    blank belongs to the repetition, and the word ends where its class does. -/
theorem matchesAt_line {literal word tail : List Char} {blank inWord : Char → Bool} (isBlank : blank ' ' = true)
    (present : word ≠ []) (all : ∀ c ∈ word, inWord c = true) (apart : ∀ c ∈ word, blank c = false)
    (stops : ∀ c, tail.head? = some c → inWord c = false) :
    (matchesAt [.literal literal, .many blank, .group inWord] (literal ++ ' ' :: (word ++ tail))).head? =
      some [word] := by
  obtain ⟨shorter, ways⟩ := splits_longest all stops
  have noBlank : ∀ c, (word ++ tail).head? = some c → blank c = false := by
    intro c head
    rw [List.head?_append_of_ne_nil _ present] at head
    exact apart c (List.mem_of_head? head)
  have blanks : splits blank (' ' :: (word ++ tail)) = [([' '], word ++ tail), ([], ' ' :: (word ++ tail))] := by
    rw [splits, if_pos isBlank, splits_stop noBlank]
    rfl
  have group : ∃ others, matchesAt [.group inWord] (word ++ tail) = [word] :: others := by
    rw [matchesAt, Piece.ways, ways, List.filter_cons_of_pos (by simpa using present)]
    exact ⟨_, rfl⟩
  obtain ⟨others, group⟩ := group
  have start : (literal ++ ' ' :: (word ++ tail)).drop literal.length = ' ' :: (word ++ tail) := by simp
  rw [matchesAt, Piece.ways, if_pos (List.prefix_append _ _), start, List.flatMap_cons, List.flatMap_nil, matchesAt,
    Piece.ways, blanks, List.map_cons, List.flatMap_cons, group]
  rfl

theorem search_inside (pattern : List Piece) {line : List Char} (noNewline : '\n' ∉ line) :
    search pattern false line = none ∧
      ∀ rest, search pattern false (line ++ '\n' :: rest) = search pattern true rest := by
  induction line with
  | nil => exact ⟨rfl, fun rest => by simp [search]⟩
  | cons c more ih =>
    obtain ⟨other, noNewline⟩ := List.ne_and_not_mem_of_not_mem_cons noNewline
    obtain ⟨last, later⟩ := ih noNewline
    exact ⟨by simp [search, other.symm, last], fun rest => by simp [search, other.symm, later]⟩

/-- The search at the start of a line: a match there, or the search after it. -/
theorem search_line (pattern : List Piece) {line : List Char} (noNewline : '\n' ∉ line) :
    search pattern true line = (matchesAt pattern line).head? ∧
      ∀ rest, search pattern true (line ++ '\n' :: rest) =
        ((matchesAt pattern (line ++ '\n' :: rest)).head?).or (search pattern true rest) := by
  cases line with
  | nil =>
    refine ⟨rfl, fun rest => ?_⟩
    cases found : (matchesAt pattern ('\n' :: rest)).head? <;> simp [search, found]
  | cons c more =>
    obtain ⟨other, noNewline⟩ := List.ne_and_not_mem_of_not_mem_cons noNewline
    obtain ⟨last, later⟩ := search_inside pattern noNewline
    constructor
    · cases found : (matchesAt pattern (c :: more)).head? <;> simp [search, found, other.symm, last]
    · intro rest
      cases found : (matchesAt pattern (c :: (more ++ '\n' :: rest))).head? <;>
        simp [search, found, other.symm, later]

/-- Searching joined lines, when what a line matches does not depend on the lines
    after it: the first line that matches decides. -/
theorem search_joinLines (pattern : List Piece) (found : List Char → Option (List (List Char)))
    {lines : List (List Char)} (single : ∀ line ∈ lines, '\n' ∉ line)
    (alone : ∀ line ∈ lines, ∀ tail, (∀ c, tail.head? = some c → c = '\n') →
      (matchesAt pattern (line ++ tail)).head? = found line)
    (empty : matchesAt pattern [] = []) : search pattern true (joinLines lines) = lines.findSome? found := by
  induction lines with
  | nil => simp [joinLines, search, empty]
  | cons line more ih =>
    have here := alone line (by simp)
    obtain ⟨last, next⟩ := search_line pattern (single line (by simp))
    have rest := ih (fun other member => single other (by simp [member]))
      (fun other member => alone other (by simp [member]))
    cases more with
    | nil =>
      have atEnd := here [] (by simp)
      rw [List.append_nil] at atEnd
      have joined : joinLines [line] = line := by simp [joinLines, List.intercalate]
      rw [joined, last, atEnd, List.findSome?_cons, List.findSome?_nil]
      cases found line <;> rfl
    | cons second others =>
      have joined : joinLines (line :: second :: others) = line ++ '\n' :: joinLines (second :: others) := by
        simp [joinLines, List.intercalate]
      rw [joined, next, here _ (by simp), rest]
      cases first : found line <;> simp [List.findSome?_cons, first]

end RepidBench.Text
