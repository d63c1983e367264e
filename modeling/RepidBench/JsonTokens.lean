import RepidBench.Decimal

/-!
The strings and numbers of JSON as Python writes and reads them: strings with ASCII
escapes, whose characters are read as they were, and numbers matched as far as they
go, so that one may stand before anything that is no part of it.
-/
namespace RepidBench.JsonText
open Decimal

/-- The values of JSON. The keys of an object are in the order of its dictionary. -/
inductive Value
  | null
  | bool (b : Bool)
  | int (n : ℤ)
  | float (q : ℚ)
  | str (text : String)
  | array (items : List Value)
  | object (entries : List (String × Value))

/-! ## Strings -/

/-- `f"{n:04x}"`. -/
def hex4 (n : Nat) : List Char :=
  [Nat.digitChar (n / 4096 % 16), Nat.digitChar (n / 256 % 16), Nat.digitChar (n / 16 % 16), Nat.digitChar (n % 16)]

/-- What `py_encode_basestring_ascii` writes for a character. -/
def escape (c : Char) : List Char :=
  if c = '"' then ['\\', '"']
  else if c = '\\' then ['\\', '\\']
  else if c = '\n' then ['\\', 'n']
  else if c = '\r' then ['\\', 'r']
  else if c = '\t' then ['\\', 't']
  else if c = '\x08' then ['\\', 'b']
  else if c = '\x0c' then ['\\', 'f']
  else if ' ' ≤ c ∧ c ≤ '~' then [c]
  else if c.toNat < 0x10000 then '\\' :: 'u' :: hex4 c.toNat
  else
    -- A surrogate pair.
    '\\' :: 'u' :: hex4 (0xd800 + (c.toNat - 0x10000) / 0x400) ++
      '\\' :: 'u' :: hex4 (0xdc00 + (c.toNat - 0x10000) % 0x400)

def quote (text : String) : List Char := '"' :: text.toList.flatMap escape ++ ['"']

/-- The value of a hexadecimal digit. -/
def hexValue (c : Char) : Option Nat :=
  if '0' ≤ c ∧ c ≤ '9' then some (c.toNat - 48)
  else if 'a' ≤ c ∧ c ≤ 'f' then some (c.toNat - 87)
  else if 'A' ≤ c ∧ c ≤ 'F' then some (c.toNat - 55)
  else none

/-- `_decode_uXXXX`, and what follows. -/
def readHex4 : List Char → Option (Nat × List Char)
  | a :: b :: c :: d :: rest => do
    let a ← hexValue a
    let b ← hexValue b
    let c ← hexValue c
    let d ← hexValue d
    return (((a * 16 + b) * 16 + c) * 16 + d, rest)
  | _ => none

/-- The character of an escape after `\u`, which may be a pair of them. A surrogate
    without its other half is not a `Char`. -/
def readUnicode (text : List Char) : Option (Char × List Char) := do
  let (unit, rest) ← readHex4 text
  if 0xd800 ≤ unit ∧ unit ≤ 0xdbff then
    match rest with
    | '\\' :: 'u' :: rest =>
      let (low, rest) ← readHex4 rest
      if 0xdc00 ≤ low ∧ low ≤ 0xdfff then
        return (Char.ofNat (0x10000 + (unit - 0xd800) * 0x400 + (low - 0xdc00)), rest)
      else none
    | _ => none
  else if 0xdc00 ≤ unit ∧ unit ≤ 0xdfff then none
  else return (Char.ofNat unit, rest)

/-- The other escapes. -/
def unescape : Char → Option Char
  | '"' => some '"'
  | '\\' => some '\\'
  | '/' => some '/'
  | 'b' => some '\x08'
  | 'f' => some '\x0c'
  | 'n' => some '\n'
  | 'r' => some '\r'
  | 't' => some '\t'
  | _ => none

/-- The next character of a string, or its end. -/
def scanChar : List Char → Option (Option Char × List Char)
  | [] => none
  | '"' :: rest => some (none, rest)
  | '\\' :: 'u' :: rest => (readUnicode rest).map (fun (c, rest) => (some c, rest))
  | '\\' :: c :: rest => (unescape c).map (fun c => (some c, rest))
  | c :: rest => if c = '\\' ∨ c < ' ' then none else some (some c, rest)

def scanChars : Nat → List Char → Option (List Char × List Char)
  | 0, _ => none
  | fuel + 1, text =>
    match scanChar text with
    | none => none
    | some (none, rest) => some ([], rest)
    | some (some c, rest) => (scanChars fuel rest).map (fun (more, rest) => (c :: more, rest))

/-- `scanstring`, after the quote. A character of it is at least one of the text. -/
def scanString (text : List Char) : Option (String × List Char) :=
  (scanChars (text.length + 1) text).map (fun (chars, rest) => (String.ofList chars, rest))

theorem hexValue_digitChar {d : Nat} (small : d < 16) : hexValue (Nat.digitChar d) = some d := by
  have all : ∀ d < 16, hexValue (Nat.digitChar d) = some d := by decide
  exact all d small

theorem readHex4_hex4 {n : Nat} (small : n < 0x10000) (rest : List Char) : readHex4 (hex4 n ++ rest) = some (n, rest) := by
  have digits : ((n / 4096 % 16 * 16 + n / 256 % 16) * 16 + n / 16 % 16) * 16 + n % 16 = n := by omega
  have below : ∀ m, m % 16 < 16 := fun m => Nat.mod_lt m (by decide)
  simp [hex4, readHex4, hexValue_digitChar (below _), digits]

/-- The codes of characters. -/
theorem char_bounds (c : Char) : c.toNat < 0xd800 ∨ 0xdfff < c.toNat ∧ c.toNat < 0x110000 := c.valid

theorem readUnicode_hex4 {c : Char} (small : c.toNat < 0x10000) (rest : List Char) :
    readUnicode (hex4 c.toNat ++ rest) = some (c, rest) := by
  have bounds := char_bounds c
  simp only [readUnicode, readHex4_hex4 small, Option.bind_eq_bind, Option.bind_some]
  rw [if_neg (by omega), if_neg (by omega), Char.ofNat_toNat]
  rfl

/-- Two halves of a pair. -/
theorem readUnicode_halves {high low : Nat} (first : 0xd800 ≤ high ∧ high ≤ 0xdbff) (second : 0xdc00 ≤ low ∧ low ≤ 0xdfff)
    (rest : List Char) :
    readUnicode (hex4 high ++ '\\' :: 'u' :: (hex4 low ++ rest)) =
      some (Char.ofNat (0x10000 + (high - 0xd800) * 0x400 + (low - 0xdc00)), rest) := by
  have highSmall : high < 0x10000 := by omega
  have lowSmall : low < 0x10000 := by omega
  simp only [readUnicode, readHex4_hex4 highSmall, readHex4_hex4 lowSmall, Option.bind_eq_bind, Option.bind_some]
  rw [if_pos first, if_pos second]
  rfl

theorem readUnicode_pair {c : Char} (large : 0x10000 ≤ c.toNat) (rest : List Char) :
    readUnicode (hex4 (0xd800 + (c.toNat - 0x10000) / 0x400) ++
      '\\' :: 'u' :: (hex4 (0xdc00 + (c.toNat - 0x10000) % 0x400) ++ rest)) = some (c, rest) := by
  have bounds := char_bounds c
  have code : 0x10000 + (0xd800 + (c.toNat - 0x10000) / 0x400 - 0xd800) * 0x400 +
      (0xdc00 + (c.toNat - 0x10000) % 0x400 - 0xdc00) = c.toNat := by omega
  rw [readUnicode_halves (by omega) (by omega), code, Char.ofNat_toNat]

/-- A character is read as it was written. -/
theorem scanChar_escape (c : Char) (rest : List Char) : scanChar (escape c ++ rest) = some (some c, rest) := by
  unfold escape
  split_ifs with quotes backslash newline carriage tab back feed printable small
  · subst quotes; rfl
  · subst backslash; rfl
  · subst newline; rfl
  · subst carriage; rfl
  · subst tab; rfl
  · subst back; rfl
  · subst feed; rfl
  · have visible : ¬(c = '\\' ∨ c < ' ') := by
      rintro (same | control)
      · exact backslash same
      · exact absurd control (Char.not_lt.mpr printable.1)
    rw [List.singleton_append, scanChar, if_neg visible]
    · exact quotes
    · rintro _ rfl
      exact absurd rfl backslash
    · rintro _ _ rfl
      exact absurd rfl backslash
  · rw [List.cons_append, List.cons_append, scanChar, readUnicode_hex4 small]
    rfl
  · have large : 0x10000 ≤ c.toNat := Nat.le_of_not_lt small
    simp only [List.cons_append, List.append_assoc, scanChar, readUnicode_pair large]
    rfl

theorem escape_ne_nil (c : Char) : escape c ≠ [] := by
  unfold escape
  split_ifs <;> simp

theorem scanChars_escaped {chars : List Char} (rest : List Char) {fuel : Nat} (enough : chars.length < fuel) :
    scanChars fuel (chars.flatMap escape ++ '"' :: rest) = some (chars, rest) := by
  induction chars generalizing fuel with
  | nil =>
    obtain ⟨more, rfl⟩ : ∃ more, fuel = more + 1 := ⟨fuel - 1, by simp at enough; omega⟩
    rfl
  | cons c others ih =>
    obtain ⟨more, rfl⟩ : ∃ more, fuel = more + 1 := ⟨fuel - 1, by simp at enough; omega⟩
    rw [List.length_cons] at enough
    have later := ih (show others.length < more by omega)
    rw [List.flatMap_cons, List.append_assoc, scanChars, scanChar_escape]
    simp only [later, Option.map_some]

theorem length_le_escaped (chars : List Char) : chars.length ≤ (chars.flatMap escape).length := by
  induction chars with
  | nil => exact le_rfl
  | cons c others ih =>
    have first : 0 < (escape c).length := List.length_pos_of_ne_nil (escape_ne_nil c)
    rw [List.flatMap_cons, List.length_append, List.length_cons]
    omega

theorem scanString_quote (text : String) (rest : List Char) :
    scanString (text.toList.flatMap escape ++ '"' :: rest) = some (text, rest) := by
  have enough : text.toList.length < (text.toList.flatMap escape ++ '"' :: rest).length + 1 := by
    have shorter := length_le_escaped text.toList
    rw [List.length_append]
    omega
  rw [scanString, scanChars_escaped rest enough, Option.map_some]
  exact congrArg some (Prod.ext String.ofList_toList rfl)

/-! ## Numbers -/

/-- `int.__repr__`. -/
def intText (n : ℤ) : List Char := if n < 0 then '-' :: Nat.toDigits 10 n.natAbs else Nat.toDigits 10 n.natAbs

/-- `0|[1-9]\d*`. -/
def matchNatural : List Char → Option (List Char)
  | [] => none
  | c :: rest =>
    if c = '0' then some ['0']
    else if (c :: rest).takeWhile Char.isDigit = [] then none
    else some ((c :: rest).takeWhile Char.isDigit)

/-- `-?(?:0|[1-9]\d*)`. -/
def matchInteger : List Char → Option (List Char)
  | [] => none
  | c :: rest => if c = '-' then (matchNatural rest).map ('-' :: ·) else matchNatural (c :: rest)

/-- `(\.\d+)?`. -/
def matchFraction : List Char → List Char
  | [] => []
  | c :: rest => if c ≠ '.' ∨ rest.takeWhile Char.isDigit = [] then [] else c :: rest.takeWhile Char.isDigit

/-- `[-+]?\d+`. -/
def matchPower : List Char → List Char
  | [] => []
  | c :: rest =>
    if c = '-' ∨ c = '+' then if rest.takeWhile Char.isDigit = [] then [] else c :: rest.takeWhile Char.isDigit
    else (c :: rest).takeWhile Char.isDigit

/-- `([eE][-+]?\d+)?`. -/
def matchExponent : List Char → List Char
  | [] => []
  | c :: rest => if c ≠ 'e' ∧ c ≠ 'E' ∨ matchPower rest = [] then [] else c :: matchPower rest

/-- `_match_number`, and what follows. -/
def scanNumber (text : List Char) : Option (Value × List Char) := do
  let integer ← matchInteger text
  let rest := text.drop integer.length
  let fraction := matchFraction rest
  let rest := rest.drop fraction.length
  let exponent := matchExponent rest
  let rest := rest.drop exponent.length
  if fraction = [] ∧ exponent = [] then (readInteger integer).map (fun n => (.int n, rest))
  else (readNumber (integer ++ fraction ++ exponent)).map (fun q => (.float q, rest))

/-- A number may end before this text. -/
def Stops (rest : List Char) : Prop := ∀ c, rest.head? = some c → c.isDigit = false ∧ c ∉ ['.', 'e', 'E', '-', '+']

section
variable {rest : List Char} (stops : Stops rest)
include stops

theorem takeWhile_stop (text : List Char) : (text ++ rest).takeWhile Char.isDigit = text.takeWhile Char.isDigit := by
  induction text with
  | nil =>
    cases rest with
    | nil => rfl
    | cons c others => simp [(stops c rfl).1]
  | cons c others ih =>
    rw [List.cons_append, List.takeWhile_cons, List.takeWhile_cons, ih]

theorem matchNatural_stop (text : List Char) : matchNatural (text ++ rest) = matchNatural text := by
  cases text with
  | nil =>
    cases rest with
    | nil => rfl
    | cons c others =>
      have digit := (stops c rfl).1
      have other : c ≠ '0' := by
        rintro rfl
        exact absurd digit (by decide)
      simp [matchNatural, other, digit]
  | cons c others => rw [List.cons_append, matchNatural, matchNatural, ← List.cons_append, takeWhile_stop stops]

theorem matchInteger_stop (text : List Char) : matchInteger (text ++ rest) = matchInteger text := by
  cases text with
  | nil =>
    cases rest with
    | nil => rfl
    | cons c others =>
      have other : c ≠ '-' := by
        rintro rfl
        exact absurd (stops '-' rfl).2 (by decide)
      have none : matchNatural (c :: others) = none := matchNatural_stop stops []
      simp [matchInteger, other, none]
  | cons c others =>
    rw [List.cons_append, matchInteger, matchInteger, ← List.cons_append, matchNatural_stop stops, matchNatural_stop stops]

theorem matchFraction_stop (text : List Char) : matchFraction (text ++ rest) = matchFraction text := by
  cases text with
  | nil =>
    cases rest with
    | nil => rfl
    | cons c others =>
      have other : c ≠ '.' := by
        rintro rfl
        exact absurd (stops '.' rfl).2 (by decide)
      simp [matchFraction, other]
  | cons c others => rw [List.cons_append, matchFraction, matchFraction, takeWhile_stop stops]

theorem matchPower_stop (text : List Char) : matchPower (text ++ rest) = matchPower text := by
  cases text with
  | nil =>
    cases rest with
    | nil => rfl
    | cons c others =>
      have other : ¬(c = '-' ∨ c = '+') := by
        rintro (rfl | rfl)
        · exact absurd (stops '-' rfl).2 (by decide)
        · exact absurd (stops '+' rfl).2 (by decide)
      have none : (c :: others).takeWhile Char.isDigit = [] := takeWhile_stop stops []
      rw [List.nil_append]
      simp only [matchPower, if_neg other, none]
  | cons c others =>
    rw [List.cons_append, matchPower, matchPower, ← List.cons_append, takeWhile_stop stops, takeWhile_stop stops]

theorem matchExponent_stop (text : List Char) : matchExponent (text ++ rest) = matchExponent text := by
  cases text with
  | nil =>
    cases rest with
    | nil => rfl
    | cons c others =>
      have other : c ≠ 'e' ∧ c ≠ 'E' := by
        constructor <;> rintro rfl
        · exact absurd (stops 'e' rfl).2 (by decide)
        · exact absurd (stops 'E' rfl).2 (by decide)
      simp [matchExponent, other]
  | cons c others => rw [List.cons_append, matchExponent, matchExponent, matchPower_stop stops]

end

/-! What is matched is the beginning of the text. -/

theorem matchNatural_isPrefix {text found : List Char} (matched : matchNatural text = some found) : found <+: text := by
  cases text with
  | nil => cases matched
  | cons c rest =>
    rw [matchNatural] at matched
    split_ifs at matched with zero
    · obtain rfl := Option.some.inj matched
      rw [zero]
      exact ⟨rest, rfl⟩
    · obtain rfl := Option.some.inj matched
      exact List.takeWhile_prefix _

theorem matchInteger_isPrefix {text found : List Char} (matched : matchInteger text = some found) : found <+: text := by
  cases text with
  | nil => cases matched
  | cons c rest =>
    rw [matchInteger] at matched
    split_ifs at matched with negative
    · obtain ⟨digits, natural, rfl⟩ := Option.map_eq_some_iff.mp matched
      rw [negative]
      exact List.cons_prefix_cons.mpr ⟨rfl, matchNatural_isPrefix natural⟩
    · exact matchNatural_isPrefix matched

theorem matchFraction_isPrefix (text : List Char) : matchFraction text <+: text := by
  cases text with
  | nil => exact List.prefix_rfl
  | cons c rest =>
    rw [matchFraction]
    split_ifs
    · exact List.nil_prefix
    · exact List.cons_prefix_cons.mpr ⟨rfl, List.takeWhile_prefix _⟩

theorem matchPower_isPrefix (text : List Char) : matchPower text <+: text := by
  cases text with
  | nil => exact List.prefix_rfl
  | cons c rest =>
    rw [matchPower]
    split_ifs
    · exact List.nil_prefix
    · exact List.cons_prefix_cons.mpr ⟨rfl, List.takeWhile_prefix _⟩
    · exact List.takeWhile_prefix _

theorem matchExponent_isPrefix (text : List Char) : matchExponent text <+: text := by
  cases text with
  | nil => exact List.prefix_rfl
  | cons c rest =>
    rw [matchExponent]
    split_ifs
    · exact List.nil_prefix
    · exact List.cons_prefix_cons.mpr ⟨rfl, matchPower_isPrefix rest⟩

/-! A number is written in printable characters. -/

/-- The characters of numbers. -/
def isNumberChar (c : Char) : Bool := c.isDigit || c ∈ ['.', 'e', 'E', '-', '+']

theorem takeWhile_chars (text : List Char) : ∀ c ∈ text.takeWhile Char.isDigit, isNumberChar c = true := by
  intro c member
  simp [isNumberChar, List.mem_takeWhile_imp member]

theorem matchNatural_chars {text found : List Char} (matched : matchNatural text = some found) :
    ∀ c ∈ found, isNumberChar c = true := by
  cases text with
  | nil => cases matched
  | cons c rest =>
    rw [matchNatural] at matched
    split_ifs at matched
    · obtain rfl := Option.some.inj matched
      intro c member
      rw [List.mem_singleton.mp member]
      rfl
    · obtain rfl := Option.some.inj matched
      exact takeWhile_chars _

theorem matchInteger_chars {text found : List Char} (matched : matchInteger text = some found) :
    ∀ c ∈ found, isNumberChar c = true := by
  cases text with
  | nil => cases matched
  | cons c rest =>
    rw [matchInteger] at matched
    split_ifs at matched
    · obtain ⟨digits, natural, rfl⟩ := Option.map_eq_some_iff.mp matched
      exact List.forall_mem_cons.mpr ⟨by decide, matchNatural_chars natural⟩
    · exact matchNatural_chars matched

theorem matchFraction_chars (text : List Char) : ∀ c ∈ matchFraction text, isNumberChar c = true := by
  cases text with
  | nil => exact fun _ member => absurd member List.not_mem_nil
  | cons c rest =>
    rw [matchFraction]
    split_ifs with other
    · exact fun _ member => absurd member List.not_mem_nil
    · obtain rfl : c = '.' := not_not.mp (not_or.mp other).1
      exact List.forall_mem_cons.mpr ⟨by decide, takeWhile_chars rest⟩

theorem matchPower_chars (text : List Char) : ∀ c ∈ matchPower text, isNumberChar c = true := by
  cases text with
  | nil => exact fun _ member => absurd member List.not_mem_nil
  | cons c rest =>
    rw [matchPower]
    split_ifs with sign
    · exact fun _ member => absurd member List.not_mem_nil
    · refine List.forall_mem_cons.mpr ⟨?_, takeWhile_chars rest⟩
      rcases sign with rfl | rfl <;> decide
    · exact takeWhile_chars _

theorem matchExponent_chars (text : List Char) : ∀ c ∈ matchExponent text, isNumberChar c = true := by
  cases text with
  | nil => exact fun _ member => absurd member List.not_mem_nil
  | cons c rest =>
    rw [matchExponent]
    split_ifs with other
    · exact fun _ member => absurd member List.not_mem_nil
    · refine List.forall_mem_cons.mpr ⟨?_, matchPower_chars rest⟩
      have mark : c = 'e' ∨ c = 'E' := by
        by_contra neither
        exact other (.inl (not_or.mp neither))
      rcases mark with rfl | rfl <;> decide

theorem scanNumber_chars {text : List Char} {value : Value} (scanned : scanNumber text = some (value, [])) :
    ∀ c ∈ text, isNumberChar c = true := by
  unfold scanNumber at scanned
  cases integer : matchInteger text with
  | none => simp [integer] at scanned
  | some digits =>
    simp only [integer, Option.bind_eq_bind, Option.bind_some] at scanned
    have left : ((text.drop digits.length).drop (matchFraction (text.drop digits.length)).length).drop
        (matchExponent ((text.drop digits.length).drop (matchFraction (text.drop digits.length)).length)).length = [] := by
      split_ifs at scanned
      · obtain ⟨n, -, same⟩ := Option.map_eq_some_iff.mp scanned
        exact congrArg Prod.snd same
      · obtain ⟨q, -, same⟩ := Option.map_eq_some_iff.mp scanned
        exact congrArg Prod.snd same
    have whole : ∀ {found text : List Char}, found <+: text → text = found ++ text.drop found.length :=
      fun begins => (List.prefix_iff_eq_append.mp begins).symm
    intro c member
    rw [whole (matchInteger_isPrefix integer), whole (matchFraction_isPrefix (text.drop digits.length)),
      whole (matchExponent_isPrefix ((text.drop digits.length).drop _)), left, List.append_nil] at member
    rcases List.mem_append.mp member with inInteger | later
    · exact matchInteger_chars integer c inInteger
    · rcases List.mem_append.mp later with inFraction | inExponent
      · exact matchFraction_chars _ c inFraction
      · exact matchExponent_chars _ c inExponent

/-- What a number is does not depend on a text before which it may end. -/
theorem scanNumber_stop {rest : List Char} (stops : Stops rest) (text : List Char) :
    scanNumber (text ++ rest) = (scanNumber text).map (fun found => (found.1, found.2 ++ rest)) := by
  unfold scanNumber
  rw [matchInteger_stop stops]
  cases integer : matchInteger text with
  | none => rfl
  | some digits =>
    have shorter : ∀ {found text : List Char}, found <+: text →
        (text ++ rest).drop found.length = text.drop found.length ++ rest :=
      fun begins => List.drop_append_of_le_length begins.length_le
    simp only [Option.bind_eq_bind, Option.bind_some, shorter (matchInteger_isPrefix integer), matchFraction_stop stops,
      shorter (matchFraction_isPrefix _), matchExponent_stop stops, shorter (matchExponent_isPrefix _)]
    split_ifs <;> simp [Option.map_map, Function.comp_def]

theorem toDigits_head {n : Nat} (positive : 0 < n) : ∃ c rest, Nat.toDigits 10 n = c :: rest ∧ c ≠ '0' ∧ c.isDigit = true := by
  induction n using Nat.strong_induction_on with
  | _ n ih =>
    by_cases small : n < 10
    · have all : ∀ d < 10, 0 < d → Nat.digitChar d ≠ '0' ∧ (Nat.digitChar d).isDigit = true := by decide
      obtain ⟨other, digit⟩ := all n small positive
      exact ⟨_, [], Nat.toDigits_of_lt_base small, other, digit⟩
    · have large : 10 ≤ n := Nat.le_of_not_lt small
      obtain ⟨c, rest, digits, other, digit⟩ := ih (n / 10) (by omega) (by omega)
      refine ⟨c, rest ++ [Nat.digitChar (n % 10)], ?_, other, digit⟩
      rw [Nat.toDigits_of_base_le (by decide) large, digits, List.cons_append]

theorem matchNatural_toDigits (n : Nat) : matchNatural (Nat.toDigits 10 n) = some (Nat.toDigits 10 n) := by
  rcases Nat.eq_zero_or_pos n with rfl | positive
  · rfl
  · obtain ⟨c, rest, digits, other, digit⟩ := toDigits_head positive
    have all : ∀ d ∈ c :: rest, d.isDigit = true := by
      intro d member
      rw [← digits] at member
      exact toDigits_isDigit member
    rw [digits, matchNatural, if_neg other, List.takeWhile_eq_self_iff.mpr all, if_neg (List.cons_ne_nil c rest)]

/-- `int("-" + str(n))`. -/
theorem readInteger_negative (n : Nat) : readInteger ('-' :: Nat.toDigits 10 n) = some (-(n : ℤ)) := by
  have stripped : strip ('-' :: Nat.toDigits 10 n) = '-' :: Nat.toDigits 10 n := by
    apply strip_eq
    · intro c head
      obtain rfl := Option.some.inj head
      decide
    · intro c last
      rw [List.getLast?_cons_of_ne_nil Nat.toDigits_ne_nil] at last
      exact isSpace_ascii (toDigits_isDigit (List.mem_of_getLast? last))
  have digits : readDigits (Nat.toDigits 10 n) = some n := by
    rw [readDigits, List.splitOn_eq_singleton (toDigits_notMem (by decide) n), List.flatten_singleton, if_neg]
    · rw [digitsValue_eq (fun _ => toDigits_isDigit), Nat.ofDigitChars_ten_toDigits]
    · rw [List.mem_singleton]
      exact Nat.toDigits_ne_nil.symm
  rw [readInteger, stripped]
  simp only [digits]
  rfl

/-- An integer is read as it was written. -/
theorem scanNumber_intText (n : ℤ) : scanNumber (intText n) = some (.int n, []) := by
  have whole : matchInteger (intText n) = some (intText n) := by
    unfold intText
    split_ifs with negative
    · rw [matchInteger, if_pos rfl, matchNatural_toDigits]
      rfl
    · cases digits : Nat.toDigits 10 n.natAbs with
      | nil => exact absurd digits Nat.toDigits_ne_nil
      | cons c rest =>
        have other : c ≠ '-' := by
          rintro rfl
          exact toDigits_notMem (c := '-') (by decide) n.natAbs (digits ▸ List.mem_cons_self)
        rw [matchInteger, if_neg other, ← digits, matchNatural_toDigits]
  have value : readInteger (intText n) = some n := by
    unfold intText
    split_ifs with negative
    · rw [readInteger_negative, Int.ofNat_natAbs_of_nonpos negative.le, neg_neg]
    · rw [readInteger_toDigits, Int.natAbs_of_nonneg (Int.not_lt.mp negative)]
  unfold scanNumber
  simp only [whole, Option.bind_eq_bind, Option.bind_some, List.drop_length]
  rw [value]
  rfl

end RepidBench.JsonText
