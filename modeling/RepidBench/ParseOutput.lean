import RepidBench.RunnerOutput

/-!
`parse_runner_output` of `run_all.py`, applied to the output of a runner as
`run_once` reads it, line by line with universal newlines. The tags, keys and
patterns stand in one table, in the order of the source.
-/
namespace RepidBench.ParseOutput
open Text Decimal Publishing RunnerOutput

/-! ## The parser -/

/-- A value of the dictionary that is returned. -/
inductive Value
  | str (word : String)
  | int (n : Nat)
  | float (x : ℚ)
  deriving DecidableEq

inductive Kind
  | int
  | float
  deriving DecidableEq, Repr

/-- The class of the group: `\d` or `[\d.]`. -/
def Kind.inWord : Kind → Char → Bool
  | .int => isDecimal
  | .float => isDecimalOrPoint

/-- `int(m.group(1))` or `float(m.group(1))`. -/
def Kind.read : Kind → List Char → Option Value
  | .int, text => (readInt text).map .int
  | .float, text => (readFloat text).map .float

structure Field where
  tag : String
  key : String
  kind : Kind
  deriving DecidableEq, Repr

/-- The searches after that for `STATUS`. -/
def fields : List Field := [
  ⟨"THROUGHPUT", "throughput", .float⟩,
  ⟨"TASKS_DONE", "tasks_done", .int⟩,
  ⟨"TOTAL_MESSAGES", "total_messages", .int⟩,
  ⟨"DURATION_SECONDS", "duration_seconds", .float⟩,
  ⟨"LATENCY_P50", "p50_ms", .float⟩,
  ⟨"LATENCY_P95", "p95_ms", .float⟩,
  ⟨"LATENCY_P99", "p99_ms", .float⟩,
  ⟨"LATENCY_SAMPLES", "latency_samples", .int⟩,
  ⟨"TAIL_95_TO_100_SECONDS", "tail_95_to_100_seconds", .float⟩,
  ⟨"TAIL_98_TO_100_SECONDS", "tail_98_to_100_seconds", .float⟩,
  ⟨"TAIL_99_TO_100_SECONDS", "tail_99_to_100_seconds", .float⟩,
  ⟨"TAIL_995_TO_100_SECONDS", "tail_995_to_100_seconds", .float⟩,
  ⟨"LATENCY_OFFERED_RATE", "latency_offered_rate", .float⟩,
  ⟨"LATENCY_ACHIEVED_RATE", "latency_achieved_rate", .float⟩,
  ⟨"LATENCY_DRAIN_SECONDS", "latency_drain_seconds", .float⟩,
  ⟨"BURST_PUBLISH_SECONDS", "burst_publish_seconds", .float⟩,
  ⟨"BURST_RECOVERY_SECONDS", "burst_recovery_seconds", .float⟩,
  ⟨"LATENCY_BACKLOG_AT_MEASUREMENT_END", "latency_backlog_at_measurement_end", .int⟩]

def tagLiteral (tag : String) : List Char := (tag ++ ":").toList

/-- `re.search(rf"^{tag}:\s*(class+)", stdout, re.MULTILINE)` and its group. -/
def searchTag (tag : String) (inWord : Char → Bool) (stdout : List Char) : Option (List Char) :=
  (search [.literal (tagLiteral tag), .many isSpace, .group inWord] true stdout).bind List.head?

/-- The entries for the fields that are found; `none` is a `ValueError`. -/
def readFields (stdout : List Char) : List Field → Option (List (String × Value))
  | [] => some []
  | field :: rest =>
    match searchTag field.tag field.kind.inWord stdout with
    | none => readFields stdout rest
    | some word =>
      (field.kind.read word).bind (fun value =>
        (readFields stdout rest).map (fun entries => (field.key, value) :: entries))

/-- What `parse_runner_output` does: it raises, returns `None`, or returns the
    dictionary with these entries in this order. -/
inductive Parsed
  | valueError
  | missing
  | result (entries : List (String × Value))
  deriving DecidableEq

def parseRunnerOutput (stdout : List Char) : Parsed :=
  match searchTag "STATUS" isNotSpace stdout with
  | none => .missing
  | some word =>
    match readFields stdout fields with
    | none => .valueError
    | some entries => .result (("status", .str (String.ofList word)) :: entries)

/-- The text that `run_once` passes on: the lines it has read, joined. -/
def readStdout (stream : List Char) : List Char := joinLines (readLines stream)

/-! ## Lines that are looked for, and lines that are not -/

def resultTags : List String := "STATUS" :: fields.map Field.tag

/-- The line is not a result line. -/
def Foreign (text : List Char) : Prop := ∀ tag ∈ resultTags, ¬ tagLiteral tag <+: text

/-- The text differs from the start of every result line, however it goes on. -/
def Apart (text : List Char) : Prop :=
  ∀ tag ∈ resultTags, ¬ tagLiteral tag <+: text ∧ ¬ text <+: tagLiteral tag

instance (text : List Char) : Decidable (Foreign text) := inferInstanceAs (Decidable (∀ tag ∈ resultTags, _))
instance (text : List Char) : Decidable (Apart text) := inferInstanceAs (Decidable (∀ tag ∈ resultTags, _))

theorem Apart.foreign {text : List Char} (apart : Apart text) : Foreign text :=
  fun tag member => (apart tag member).1

theorem Apart.append {a b : String} (apart : Apart a.toList) : Apart (a ++ b).toList := by
  intro tag member
  obtain ⟨longer, shorter⟩ := apart tag member
  rw [String.toList_append]
  constructor
  · intro begins
    rcases List.prefix_or_prefix_of_prefix begins (List.prefix_append a.toList b.toList) with inside | around
    · exact longer inside
    · exact shorter around
  · exact fun inside => shorter ((List.prefix_append _ _).trans inside)

/-- The same with an interpolated value and the text after it. -/
theorem Apart.extend {a b c : String} (apart : Apart a.toList) : Apart (a ++ b ++ c).toList := apart.append.append

/-- A text whose second character is no capital letter differs from every tag. -/
theorem apart_of_second {text : List Char} (second : (text[1]?).any (fun c => !c.isUpper) = true) : Apart text := by
  have capitals : ∀ tag ∈ resultTags, ((tagLiteral tag)[1]?).any Char.isUpper = true := by decide
  intro tag member
  obtain ⟨c, textSecond, small⟩ := (Option.any_eq_true _ _).mp second
  obtain ⟨d, tagSecond, capital⟩ := (Option.any_eq_true _ _).mp (capitals tag member)
  have differ {a b : List Char} {x y : Char} (begins : a <+: b) (first : a[1]? = some x) (other : b[1]? = some y) :
      x = y := by
    obtain ⟨rest, rfl⟩ := begins
    have inside := (List.getElem?_eq_some_iff.mp first).1
    rw [List.getElem?_append_left inside, first] at other
    exact Option.some.inj other
  constructor
  · intro begins
    rw [differ begins tagSecond textSecond] at capital
    simp [capital] at small
  · intro begins
    rw [← differ begins textSecond tagSecond] at capital
    simp [capital] at small

def numberKind : Number → Kind
  | .count _ => .int
  | .decimal _ _ => .float

/-- The value that a printed number is read back as. -/
def numberValue : Number → Value
  | .count n => .int n
  | .decimal places value => .float (rounded places value)

/-- A number that is printed without a sign, and with a point if it is no count. -/
def Readable : Number → Prop
  | .count _ => True
  | .decimal places value => 0 < places ∧ 0 ≤ value

/-- The tag is one word of a line, and its field, if it has one, reads numbers of
    the kind. -/
def TagFormed (tag : String) (kind : Kind) : Prop :=
  SingleLine tag.toList ∧ ':' ∉ tag.toList ∧ tag ≠ "STATUS" ∧ ∀ field ∈ fields, field.tag = tag → field.kind = kind

instance (tag : String) (kind : Kind) : Decidable (TagFormed tag kind) :=
  inferInstanceAs (Decidable (_ ∧ _ ∧ _ ∧ _))

/-- A status is a word without white space. -/
def Word (word : String) : Prop := word ≠ "" ∧ ∀ c ∈ word.toList, isSpace c = false

def Formed : Print → Prop
  | .note text | .progress text => SingleLine text.toList ∧ Foreign text.toList
  | .status word => Word word
  | .report tag value => TagFormed tag (numberKind value) ∧ Readable value

/-- The tag and the word of a result line. -/
def entry : Print → Option (String × List Char)
  | .note _ | .progress _ => none
  | .status word => some ("STATUS", word.toList)
  | .report tag value => some (tag, value.text.toList)

/-- The word that a print puts under a tag. -/
def wordOf (tag : String) (print : Print) : Option (List Char) :=
  (entry print).bind (fun e => if e.1 = tag then some e.2 else none)

theorem Word.singleLine {word : String} (formed : Word word) : SingleLine word.toList := by
  intro c member
  by_contra ends
  have space := isLineEnd_isSpace (by simpa using ends)
  rw [formed.2 c member] at space
  cases space

@[simp] theorem toString_self (text : String) : toString text = text := rfl

theorem singleLine_number (value : Number) : SingleLine value.text.toList := by
  cases value with
  | count n => simp [Number.text]
  | decimal places value => exact singleLine_fixed places value

theorem Formed.text_singleLine {print : Print} (formed : Formed print) : SingleLine print.text.toList := by
  cases print with
  | note text | progress text => exact formed.1
  | status word => simpa [Print.text, isLineEnd] using formed.singleLine
  | report tag value => simpa [Print.text, isLineEnd, singleLine_number] using formed.1.1

/-- The text of a result line: the tag with its colon, a blank and the word. -/
theorem entry_text {print : Print} {tag : String} {word : List Char} (found : entry print = some (tag, word)) :
    print.text.toList = tagLiteral tag ++ ' ' :: word := by
  cases print with
  | note text | progress text => simp [entry] at found
  | status word =>
    cases found
    simp [Print.text, tagLiteral]
  | report tag value =>
    cases found
    simp [Print.text, tagLiteral]

theorem tag_noColon {tag : String} (member : tag ∈ resultTags) : ':' ∉ tag.toList := by
  have all : ∀ tag ∈ resultTags, ':' ∉ tag.toList := by decide
  exact all tag member

theorem entry_noColon {print : Print} (formed : Formed print) {tag : String} {word : List Char}
    (found : entry print = some (tag, word)) : ':' ∉ tag.toList := by
  cases print with
  | note text | progress text => simp [entry] at found
  | status word =>
    cases found
    decide
  | report tag value =>
    cases found
    exact formed.1.2.1

/-- A tag with its colon is found at the start of a line with that tag only. -/
theorem tagLiteral_unique {tag other : String} (first : ':' ∉ tag.toList) (second : ':' ∉ other.toList)
    {rest : List Char} (begins : tagLiteral tag <+: tagLiteral other ++ rest) : tag = other := by
  have upTo {a : String} (noColon : ':' ∉ a.toList) (rest : List Char) :
      (tagLiteral a ++ rest).takeWhile (· ≠ ':') = a.toList := by
    have all : ∀ c ∈ a.toList, decide (c ≠ ':') = true := by
      intro c member
      simp only [decide_eq_true_eq]
      rintro rfl
      exact noColon member
    rw [tagLiteral, String.toList_append, List.append_assoc, List.takeWhile_append_of_pos all]
    simp
  obtain ⟨tail, same⟩ := begins
  have words : (tagLiteral tag ++ tail).takeWhile (· ≠ ':') = other.toList := by rw [same, upTo second]
  rw [upTo first] at words
  exact String.toList_inj.mp words

/-- A literal without line end that begins a line and what follows begins the line. -/
theorem prefix_of_append {literal text tail : List Char} (single : '\n' ∉ literal)
    (next : ∀ c, tail.head? = some c → c = '\n') (begins : literal <+: text ++ tail) : literal <+: text := by
  rcases List.prefix_or_prefix_of_prefix begins (List.prefix_append text tail) with inside | around
  · exact inside
  · obtain ⟨more, rfl⟩ := around
    obtain ⟨after, same⟩ := begins
    rw [List.append_assoc, List.append_cancel_left_eq] at same
    cases more with
    | nil => simp
    | cons c others =>
      have newline : c = '\n' := next c (by rw [← same]; rfl)
      exact absurd (by simp [newline]) single

/-! ## What the searches find -/

theorem tagLiteral_plain {tag : String} (member : tag ∈ resultTags) : '\n' ∉ tagLiteral tag ∧ tagLiteral tag ≠ [] := by
  have all : ∀ tag ∈ resultTags, '\n' ∉ tagLiteral tag := by decide
  exact ⟨all tag member, by simp [tagLiteral]⟩

section
variable {tag : String} {inWord : Char → Bool}

theorem matchesAt_foreign {text tail : List Char} (member : tag ∈ resultTags) (foreign : ¬ tagLiteral tag <+: text)
    (next : ∀ c, tail.head? = some c → c = '\n') :
    matchesAt [.literal (tagLiteral tag), .many isSpace, .group inWord] (text ++ tail) = [] :=
  matchesAt_literal_none (fun begins => foreign (prefix_of_append (tagLiteral_plain member).1 next begins)) _

/-- A line with the tag matches with its word, and no other line matches. -/
theorem matchesAt_print {print : Print} (member : tag ∈ resultTags) (newline : inWord '\n' = false)
    (formed : Formed print)
    (inClass : ∀ word, wordOf tag print = some word → word ≠ [] ∧ ∀ c ∈ word, inWord c = true ∧ isSpace c = false)
    {tail : List Char} (next : ∀ c, tail.head? = some c → c = '\n') :
    (matchesAt [.literal (tagLiteral tag), .many isSpace, .group inWord] (print.text.toList ++ tail)).head? =
      (wordOf tag print).map (fun word => [word]) := by
  cases found : entry print with
  | none =>
    have foreign : ¬ tagLiteral tag <+: print.text.toList := by
      cases print with
      | note text | progress text => exact formed.2 tag member
      | status word | report other value => simp [entry] at found
    rw [matchesAt_foreign member foreign next, wordOf, found]
    rfl
  | some e =>
    obtain ⟨other, word⟩ := e
    rw [entry_text found, List.append_assoc, List.cons_append]
    by_cases same : other = tag
    · subst same
      have here : wordOf other print = some word := by simp [wordOf, found]
      obtain ⟨present, all⟩ := inClass word here
      rw [here]
      refine matchesAt_line (by decide) present (fun c inside => (all c inside).1) (fun c inside => (all c inside).2) ?_
      intro c head
      rw [next c head]
      exact newline
    · have apart : ¬ tagLiteral tag <+: tagLiteral other ++ ' ' :: (word ++ tail) := fun begins =>
        same (tagLiteral_unique (tag_noColon member) (entry_noColon formed found) begins).symm
      rw [matchesAt_literal_none apart]
      simp [wordOf, found, same]

theorem fragments_wellFormed {prints : List Print} (formed : ∀ print ∈ prints, Formed print) :
    ∀ fragment ∈ prints.map Print.fragment, fragment.WellFormed := by
  intro fragment inside
  obtain ⟨print, present, rfl⟩ := List.mem_map.mp inside
  refine ⟨(formed print present).text_singleLine, ?_⟩
  cases print <;> simp [Print.fragment]

/-- What is read, but for blank lines, is the texts of the prints. -/
theorem readLines_prints {prints : List Print} (formed : ∀ print ∈ prints, Formed print) :
    (readLines (stdoutOf prints)).filter (· ≠ []) = (prints.map (fun print => print.text.toList)).filter (· ≠ []) := by
  rw [stdoutOf, readLines_streamOf (fragments_wellFormed formed), List.map_map]
  rfl

/-- What is read is blank, or the text of a print. -/
theorem mem_readLines {prints : List Print} (formed : ∀ print ∈ prints, Formed print) {line : List Char}
    (member : line ∈ readLines (stdoutOf prints)) : line = [] ∨ ∃ print ∈ prints, line = print.text.toList := by
  by_cases blank : line = []
  · exact .inl blank
  · have kept : line ∈ (readLines (stdoutOf prints)).filter (· ≠ []) :=
      List.mem_filter.mpr ⟨member, by simpa using blank⟩
    rw [readLines_prints formed] at kept
    obtain ⟨print, present, rfl⟩ := List.mem_map.mp (List.mem_filter.mp kept).1
    exact .inr ⟨print, present, rfl⟩

theorem findSome?_filter {α β : Type} (found : α → Option β) {keep : α → Bool} {l : List α}
    (dropped : ∀ a ∈ l, keep a = false → found a = none) : (l.filter keep).findSome? found = l.findSome? found := by
  induction l with
  | nil => rfl
  | cons a rest ih =>
    have more := ih (fun b member => dropped b (by simp [member]))
    cases kept : keep a with
    | true => simp [kept, List.findSome?_cons, more]
    | false => simp [kept, more, dropped a (by simp) kept]

theorem findSome?_congr {α β : Type} {f g : α → Option β} {l : List α} (same : ∀ a ∈ l, f a = g a) :
    l.findSome? f = l.findSome? g := by
  induction l with
  | nil => rfl
  | cons a rest ih =>
    rw [List.findSome?_cons, List.findSome?_cons, same a (by simp), ih (fun b member => same b (by simp [member]))]

/-- Searching what a program printed for a tag finds the word of the first print
    with that tag. -/
theorem searchTag_prints {prints : List Print} (member : tag ∈ resultTags) (newline : inWord '\n' = false)
    (formed : ∀ print ∈ prints, Formed print)
    (inClass : ∀ print ∈ prints, ∀ word, wordOf tag print = some word →
      word ≠ [] ∧ ∀ c ∈ word, inWord c = true ∧ isSpace c = false) :
    searchTag tag inWord (readStdout (stdoutOf prints)) = prints.findSome? (wordOf tag) := by
  let pattern : List Piece := [.literal (tagLiteral tag), .many isSpace, .group inWord]
  let found : List Char → Option (List (List Char)) := fun line => (matchesAt pattern line).head?
  have blank {tail : List Char} (next : ∀ c, tail.head? = some c → c = '\n') : matchesAt pattern ([] ++ tail) = [] :=
    matchesAt_foreign member (by simpa using (tagLiteral_plain member).2) next
  have onPrint {print : Print} (present : print ∈ prints) {tail : List Char}
      (next : ∀ c, tail.head? = some c → c = '\n') : (matchesAt pattern (print.text.toList ++ tail)).head? =
        (wordOf tag print).map (fun word => [word]) :=
    matchesAt_print member newline (formed print present) (inClass print present) next
  have alone : ∀ line ∈ readLines (stdoutOf prints), ∀ tail, (∀ c, tail.head? = some c → c = '\n') →
      (matchesAt pattern (line ++ tail)).head? = found line := by
    intro line inside tail next
    rcases mem_readLines formed inside with rfl | ⟨print, present, rfl⟩
    · rw [blank next]
      show none = (matchesAt pattern ([] ++ [])).head?
      rw [blank (by simp)]
      rfl
    · have atEnd := onPrint present (show ∀ c, ([] : List Char).head? = some c → c = '\n' by simp)
      rw [List.append_nil] at atEnd
      exact (onPrint present next).trans atEnd.symm
  have single : ∀ line ∈ readLines (stdoutOf prints), '\n' ∉ line := by
    intro line inside
    rcases mem_readLines formed inside with rfl | ⟨print, present, rfl⟩
    · simp
    · exact (formed print present).text_singleLine.noNewline
  have nothing : found [] = none := by
    show (matchesAt pattern ([] ++ [])).head? = none
    rw [blank (by simp)]
    rfl
  have drops {l : List (List Char)} : ∀ line ∈ l, decide (line ≠ []) = false → found line = none := by
    intro line _ dropped
    rw [show line = [] by simpa using dropped]
    exact nothing
  have words : (prints.map (fun print => print.text.toList)).findSome? found =
      (prints.findSome? (wordOf tag)).map (fun word => [word]) := by
    rw [List.findSome?_map, List.map_findSome?]
    refine findSome?_congr (fun print present => ?_)
    have atEnd := onPrint present (show ∀ c, ([] : List Char).head? = some c → c = '\n' by simp)
    rwa [List.append_nil] at atEnd
  have lines : search pattern true (readStdout (stdoutOf prints)) =
      (prints.findSome? (wordOf tag)).map (fun word => [word]) := by
    rw [readStdout, search_joinLines pattern found single alone (blank (by simp)), ← findSome?_filter found drops,
      readLines_prints formed, findSome?_filter found drops, words]
  rw [searchTag, lines]
  cases prints.findSome? (wordOf tag) <;> rfl

end

/-! ## Reading back what was printed -/

/-- The number that a print puts under a tag. -/
def numberOf (tag : String) : Print → Option Number
  | .report other value => if other = tag then some value else none
  | _ => none

/-- The numbers printed under a tag, as they are read back. -/
def reported (prints : List Print) : List (String × Value) :=
  prints.filterMap (fun print => match print with
    | .report tag value => some (tag, numberValue value)
    | _ => none)

theorem lookup_reported (tag : String) (prints : List Print) :
    (reported prints).lookup tag = (prints.findSome? (numberOf tag)).map numberValue := by
  induction prints with
  | nil => rfl
  | cons print rest ih =>
    cases print with
    | note text | progress text | status word => exact ih
    | report other value =>
      by_cases same : other = tag
      · subst same
        simp [reported, numberOf]
      · have differ : (tag == other) = false := by simpa using fun equal => same equal.symm
        simpa [reported, numberOf, same, List.lookup_cons, differ] using ih

/-- A printed number is one word of its class, and is read back rounded as printed. -/
theorem number_read {value : Number} (readable : Readable value) :
    (value.text.toList ≠ [] ∧ ∀ c ∈ value.text.toList, (numberKind value).inWord c = true ∧ isSpace c = false) ∧
      (numberKind value).read value.text.toList = some (numberValue value) := by
  cases value with
  | count n =>
    have digits : (Number.count n).text.toList = Nat.toDigits 10 n := by simp [Number.text]
    rw [digits]
    refine ⟨⟨Nat.toDigits_ne_nil, fun c member => ?_⟩, ?_⟩
    · exact ⟨isDecimal_ascii (toDigits_isDigit member), isSpace_ascii (toDigits_isDigit member)⟩
    · simp [numberKind, Kind.read, readInt_toDigits, numberValue]
  | decimal places q =>
    obtain ⟨positive, nonneg⟩ := readable
    have digits : (Number.decimal places q).text.toList = _ := fixed_nonneg places nonneg
    refine ⟨?_, ?_⟩
    · rw [digits]
      refine ⟨withPoint_ne_nil _ _, fun c member => ?_⟩
      obtain ⟨inClass, notSpace, _⟩ := digitOrPoint_class (withPoint_chars member)
      exact ⟨inClass, notSpace⟩
    · show (readFloat (fixed places q).toList).map Value.float = _
      rw [readFloat_fixed positive nonneg]
      rfl

theorem wordOf_field {field : Field} (member : field ∈ fields) (print : Print) :
    wordOf field.tag print = (numberOf field.tag print).map (fun value => value.text.toList) := by
  have notStatus : ∀ field ∈ fields, "STATUS" ≠ field.tag := by decide
  cases print with
  | note text | progress text => rfl
  | status word => simp [wordOf, entry, numberOf, notStatus field member]
  | report tag value => by_cases same : tag = field.tag <;> simp [wordOf, entry, numberOf, same]

theorem numberOf_formed {field : Field} (member : field ∈ fields) {print : Print} (formed : Formed print)
    {value : Number} (found : numberOf field.tag print = some value) :
    field.kind = numberKind value ∧ Readable value := by
  cases print with
  | note text | progress text | status word => simp [numberOf] at found
  | report tag number =>
    by_cases same : tag = field.tag
    · simp only [numberOf, same, ↓reduceIte, Option.some.injEq] at found
      subst found
      exact ⟨formed.1.2.2.2 field member same.symm, formed.2⟩
    · simp [numberOf, same] at found

/-- The entries read for some fields are the numbers printed under their tags. -/
theorem readFields_prints {prints : List Print} (formed : ∀ print ∈ prints, Formed print) {wanted : List Field}
    (known : ∀ field ∈ wanted, field ∈ fields) : readFields (readStdout (stdoutOf prints)) wanted =
      some (wanted.filterMap (fun field =>
        ((reported prints).lookup field.tag).map (fun value => (field.key, value)))) := by
  induction wanted with
  | nil => rfl
  | cons field rest ih =>
    have member := known field (by simp)
    have more := ih (fun other inside => known other (by simp [inside]))
    have inTags : field.tag ∈ resultTags := List.mem_cons_of_mem _ (List.mem_map_of_mem member)
    have newline : field.kind.inWord '\n' = false := by cases field.kind <;> decide
    have searched : searchTag field.tag field.kind.inWord (readStdout (stdoutOf prints)) =
        (prints.findSome? (numberOf field.tag)).map (fun value => value.text.toList) := by
      rw [searchTag_prints inTags newline formed, List.map_findSome?]
      · exact findSome?_congr (fun print _ => wordOf_field member print)
      · intro print present word found
        rw [wordOf_field member] at found
        obtain ⟨value, number, rfl⟩ := Option.map_eq_some_iff.mp found
        obtain ⟨kind, readable⟩ := numberOf_formed member (formed print present) number
        rw [kind]
        exact (number_read readable).1
    rw [readFields, searched, List.filterMap_cons, lookup_reported]
    cases number : prints.findSome? (numberOf field.tag) with
    | none => exact more
    | some value =>
      obtain ⟨print, present, found⟩ := List.exists_of_findSome?_eq_some number
      obtain ⟨kind, readable⟩ := numberOf_formed member (formed print present) found
      simp [kind, (number_read readable).2, more]

/-- What `run_all.py` reads from what a runner printed: the status word, and for
    each field with a printed line the number of that line. -/
theorem parse_prints {prints : List Print} {status : String} (formed : ∀ print ∈ prints, Formed print)
    (word : prints.findSome? (wordOf "STATUS") = some status.toList) :
    parseRunnerOutput (readStdout (stdoutOf prints)) = .result (("status", .str status) ::
      fields.filterMap (fun field => ((reported prints).lookup field.tag).map (fun value => (field.key, value)))) := by
  have inClass : ∀ print ∈ prints, ∀ word, wordOf "STATUS" print = some word →
      word ≠ [] ∧ ∀ c ∈ word, isNotSpace c = true ∧ isSpace c = false := by
    intro print present word found
    cases print with
    | note text | progress text => simp [wordOf, entry] at found
    | report tag value =>
      have other := (formed _ present).1.2.2.1
      simp [wordOf, entry, other] at found
    | status spoken =>
      obtain ⟨present', plain⟩ := formed _ present
      simp only [wordOf, entry, Option.bind_some, ↓reduceIte, Option.some.injEq] at found
      subst found
      refine ⟨by simpa using present', fun c member => ?_⟩
      rw [isNotSpace, plain c member]
      decide
  rw [parseRunnerOutput, searchTag_prints (by decide) (by decide) formed inClass, word,
    readFields_prints formed (fun _ member => member)]
  simp

end RepidBench.ParseOutput
