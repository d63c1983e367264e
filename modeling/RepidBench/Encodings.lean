import Mathlib.Data.List.DropRight
import RepidBench.JsonTokens

/-!
Text as bytes: UTF-8, percent-encoding as `urllib.parse.quote` writes it with no safe
characters, and base64. Each is read back as what was written, and what `quote` writes
has none of the characters that divide a URL.
-/
namespace RepidBench.Encodings
open JsonText (hexValue)

/-! ## The last separator of a text -/

section
variable {p : Char → Bool} {c : Char} {after : List Char}

theorem rtakeWhile_stop (before : List Char) (stops : p c = false) (all : ∀ d ∈ after, p d = true) :
    (before ++ c :: after).rtakeWhile p = after := by
  have reversed : ∀ d ∈ after.reverse, p d = true := fun d member => all d (List.mem_reverse.mp member)
  rw [List.rtakeWhile, List.reverse_append, List.reverse_cons, List.append_assoc, List.takeWhile_append_of_pos reversed,
    List.singleton_append, List.takeWhile_cons_of_neg (by simp [stops]), List.append_nil, List.reverse_reverse]

theorem rdropWhile_stop (before : List Char) (stops : p c = false) (all : ∀ d ∈ after, p d = true) :
    (before ++ c :: after).rdropWhile p = before ++ [c] := by
  have whole : (before ++ c :: after).rdropWhile p ++ after = before ++ c :: after := by
    have parts := @List.rdropWhile_append_rtakeWhile _ p (before ++ c :: after)
    rwa [rtakeWhile_stop before stops all] at parts
  have pieces : before ++ c :: after = (before ++ [c]) ++ after := by simp
  rw [pieces] at whole ⊢
  exact List.append_cancel_right whole

end

/-! ## UTF-8 -/

/-- `text.encode()`. -/
def utf8 (text : String) : List UInt8 := text.toList.flatMap String.utf8EncodeChar

/-- `bytes.decode()`; `none` is its exception. -/
def readUtf8 (bytes : List UInt8) : Option String :=
  bytes.toByteArray.utf8Decode?.map (fun chars => String.ofList chars.toList)

theorem readUtf8_utf8 (text : String) : readUtf8 (utf8 text) = some text := by
  have read : (utf8 text).toByteArray.utf8Decode? = some text.toList.toArray := List.utf8Decode?_utf8Encode
  rw [readUtf8, read, Option.map_some, List.toList_toArray, String.ofList_toList]

theorem toNat_ofNat : ∀ n < 128, (Char.ofNat n).toNat = n := by decide

theorem utf8EncodeChar_ascii {c : Char} (ascii : c.toNat < 128) : String.utf8EncodeChar c = [UInt8.ofNat c.toNat] := by
  have small : c.val.toNat ≤ 127 := by
    show c.toNat ≤ 127
    omega
  simp only [String.utf8EncodeChar, if_pos small]
  rfl

/-! ## Percent-encoding -/

/-- The bytes that are always safe: letters, digits and `_.-~`. -/
def isSafe (b : UInt8) : Bool :=
  (65 ≤ b.toNat ∧ b.toNat ≤ 90) ∨ (97 ≤ b.toNat ∧ b.toNat ≤ 122) ∨ (48 ≤ b.toNat ∧ b.toNat ≤ 57) ∨
    b.toNat ∈ [95, 46, 45, 126]

def upperHex (n : Nat) : Char := if n < 10 then Char.ofNat (48 + n) else Char.ofNat (55 + n)

def quoteByte (b : UInt8) : List Char :=
  if isSafe b then [Char.ofNat b.toNat] else ['%', upperHex (b.toNat / 16), upperHex (b.toNat % 16)]

/-- `urllib.parse.quote(text, safe="")`. -/
def quote (text : String) : List Char := (utf8 text).flatMap quoteByte

/-- `urllib.parse.unquote_to_bytes`. -/
def unquoteToBytes : List Char → List UInt8
  | [] => []
  | '%' :: a :: b :: rest =>
    match hexValue a, hexValue b with
    | some high, some low => UInt8.ofNat (16 * high + low) :: unquoteToBytes rest
    | _, _ => UInt8.ofNat 37 :: unquoteToBytes (a :: b :: rest)
  | c :: rest => String.utf8EncodeChar c ++ unquoteToBytes rest

theorem unquoteToBytes_plain {c : Char} (plain : c ≠ '%') (rest : List Char) :
    unquoteToBytes (c :: rest) = String.utf8EncodeChar c ++ unquoteToBytes rest := by
  rw [unquoteToBytes]
  rintro a b more rfl
  exact absurd rfl plain

theorem hexValue_upperHex : ∀ n < 16, hexValue (upperHex n) = some n := by decide

def isQuotedChar (c : Char) : Bool := c == '%' || c.isAlphanum || c == '_' || c == '.' || c == '-' || c == '~'

theorem quoteByte_all : (List.range 256).all (fun n => (quoteByte (UInt8.ofNat n)).all isQuotedChar) = true := by
  decide +kernel

/-- What `quote` writes of a byte: a safe character, or an escape. -/
theorem quoteByte_chars (b : UInt8) :
    ∀ c ∈ quoteByte b, c = '%' ∨ c.isAlphanum = true ∨ c ∈ ['_', '.', '-', '~'] := by
  intro c member
  have inRange : b.toNat ∈ List.range 256 := List.mem_range.mpr b.toNat_lt
  have own : (quoteByte (UInt8.ofNat b.toNat)).all isQuotedChar = true := List.all_eq_true.mp quoteByte_all _ inRange
  rw [UInt8.ofNat_toNat] at own
  have kind := List.all_eq_true.mp own c member
  simp only [isQuotedChar, Bool.or_eq_true, beq_iff_eq] at kind
  simp only [List.mem_cons, List.not_mem_nil, or_false]
  tauto

theorem unquoteToBytes_quoteByte (b : UInt8) (rest : List Char) :
    unquoteToBytes (quoteByte b ++ rest) = b :: unquoteToBytes rest := by
  have size : b.toNat < 256 := b.toNat_lt
  unfold quoteByte
  split_ifs with safe
  · have bounds : b.toNat ≠ 37 ∧ b.toNat < 128 := by
      simp only [isSafe, List.mem_cons, List.not_mem_nil, or_false, decide_eq_true_eq] at safe
      omega
    have code : (Char.ofNat b.toNat).toNat = b.toNat := toNat_ofNat b.toNat bounds.2
    have plain : Char.ofNat b.toNat ≠ '%' := by
      intro same
      have codes := congrArg Char.toNat same
      rw [code] at codes
      exact bounds.1 codes
    rw [List.singleton_append, unquoteToBytes_plain plain, utf8EncodeChar_ascii (by rw [code]; exact bounds.2), code,
      UInt8.ofNat_toNat]
    rfl
  · rw [List.cons_append, List.cons_append, List.cons_append, List.nil_append, unquoteToBytes,
      hexValue_upperHex _ (by omega), hexValue_upperHex _ (by omega)]
    have value : 16 * (b.toNat / 16) + b.toNat % 16 = b.toNat := Nat.div_add_mod b.toNat 16
    simp only [value, UInt8.ofNat_toNat]

theorem unquoteToBytes_flatMap (bytes : List UInt8) : unquoteToBytes (bytes.flatMap quoteByte) = bytes := by
  induction bytes with
  | nil => rfl
  | cons b rest ih => rw [List.flatMap_cons, unquoteToBytes_quoteByte, ih]

/-- A quoted text is read back as the text. -/
theorem readUtf8_quote (text : String) : readUtf8 (unquoteToBytes (quote text)) = some text := by
  rw [quote, unquoteToBytes_flatMap, readUtf8_utf8]

theorem quote_injective {text other : String} (same : quote text = quote other) : text = other := by
  have read := readUtf8_quote text
  rw [same, readUtf8_quote] at read
  exact (Option.some.inj read).symm

/-- A quoted text has only letters, digits, `_.-~` and `%`. -/
theorem quote_chars (text : String) : ∀ c ∈ quote text, c = '%' ∨ c.isAlphanum = true ∨ c ∈ ['_', '.', '-', '~'] := by
  intro c member
  obtain ⟨b, -, inside⟩ := List.mem_flatMap.mp member
  exact quoteByte_chars b c inside

/-- A character that is none of these is not in a quoted text. -/
theorem notMem_quote {c : Char} (noEscape : c ≠ '%') (noLetter : c.isAlphanum = false) (noMark : c ∉ ['_', '.', '-', '~'])
    (text : String) : c ∉ quote text := by
  intro member
  rcases quote_chars text c member with escape | letter | mark
  · exact noEscape escape
  · rw [noLetter] at letter
    cases letter
  · exact noMark mark

/-! ## Base64 -/

def digit64 (n : Nat) : Char :=
  if n < 26 then Char.ofNat (65 + n)
  else if n < 52 then Char.ofNat (71 + n)
  else if n < 62 then Char.ofNat (n - 4)
  else if n = 62 then '+'
  else '/'

def value64 (c : Char) : Option Nat :=
  if 'A' ≤ c ∧ c ≤ 'Z' then some (c.toNat - 65)
  else if 'a' ≤ c ∧ c ≤ 'z' then some (c.toNat - 71)
  else if '0' ≤ c ∧ c ≤ '9' then some (c.toNat + 4)
  else if c = '+' then some 62
  else if c = '/' then some 63
  else none

/-- `base64.b64encode(bytes).decode()`: four characters for three bytes. -/
def b64encode : List UInt8 → List Char
  | [] => []
  | [a] => [digit64 (a.toNat / 4), digit64 (a.toNat % 4 * 16), '=', '=']
  | [a, b] => [digit64 (a.toNat / 4), digit64 (a.toNat % 4 * 16 + b.toNat / 16), digit64 (b.toNat % 16 * 4), '=']
  | a :: b :: c :: rest =>
    digit64 (a.toNat / 4) :: digit64 (a.toNat % 4 * 16 + b.toNat / 16) :: digit64 (b.toNat % 16 * 4 + c.toNat / 64) ::
      digit64 (c.toNat % 64) :: b64encode rest

/-- What base64 text stands for; padding only ends it. -/
def b64decode : List Char → Option (List UInt8)
  | [] => some []
  | w :: x :: y :: z :: rest => do
    let a ← value64 w
    let b ← value64 x
    if z = '=' then
      if rest ≠ [] then none
      else if y = '=' then return [UInt8.ofNat (a * 4 + b / 16)]
      else
        let c ← value64 y
        return [UInt8.ofNat (a * 4 + b / 16), UInt8.ofNat (b % 16 * 16 + c / 4)]
    else
      let c ← value64 y
      let d ← value64 z
      let more ← b64decode rest
      return UInt8.ofNat (a * 4 + b / 16) :: UInt8.ofNat (b % 16 * 16 + c / 4) :: UInt8.ofNat (c % 4 * 64 + d) :: more
  | _ => none

theorem value64_digit64 : ∀ n < 64, value64 (digit64 n) = some n := by decide

theorem digit64_ne_pad : ∀ n < 64, digit64 n ≠ '=' := by decide

theorem ofNat_eq {b : UInt8} {n : Nat} (same : n = b.toNat) : UInt8.ofNat n = b := by rw [same, UInt8.ofNat_toNat]

/-- Bytes that are encoded are read back. -/
theorem b64decode_b64encode (bytes : List UInt8) : b64decode (b64encode bytes) = some bytes := by
  induction bytes using b64encode.induct with
  | case1 => rfl
  | case2 a =>
    have sizeA : a.toNat < 256 := a.toNat_lt
    simp only [b64encode, b64decode, value64_digit64 (a.toNat / 4) (by omega),
      value64_digit64 (a.toNat % 4 * 16) (by omega), Option.bind_eq_bind, Option.bind_some, ne_eq, not_true_eq_false,
      ↓reduceIte]
    rw [@ofNat_eq a _ (by omega)]
    rfl
  | case3 a b =>
    have sizeA : a.toNat < 256 := a.toNat_lt
    have sizeB : b.toNat < 256 := b.toNat_lt
    simp only [b64encode, b64decode, value64_digit64 (a.toNat / 4) (by omega),
      value64_digit64 (a.toNat % 4 * 16 + b.toNat / 16) (by omega), value64_digit64 (b.toNat % 16 * 4) (by omega),
      digit64_ne_pad (b.toNat % 16 * 4) (by omega), Option.bind_eq_bind, Option.bind_some, ne_eq, not_true_eq_false,
      ↓reduceIte]
    rw [@ofNat_eq a _ (by omega), @ofNat_eq b _ (by omega)]
    rfl
  | case4 a b c rest ih =>
    have sizeA : a.toNat < 256 := a.toNat_lt
    have sizeB : b.toNat < 256 := b.toNat_lt
    have sizeC : c.toNat < 256 := c.toNat_lt
    simp only [b64encode, b64decode, value64_digit64 (a.toNat / 4) (by omega),
      value64_digit64 (a.toNat % 4 * 16 + b.toNat / 16) (by omega),
      value64_digit64 (b.toNat % 16 * 4 + c.toNat / 64) (by omega), value64_digit64 (c.toNat % 64) (by omega),
      digit64_ne_pad (c.toNat % 64) (by omega), ih, Option.bind_eq_bind, Option.bind_some, ↓reduceIte]
    rw [@ofNat_eq a _ (by omega), @ofNat_eq b _ (by omega), @ofNat_eq c _ (by omega)]
    rfl

end RepidBench.Encodings
