import Mathlib.Algebra.Order.Floor.Ring
import Mathlib.Data.Int.Log
import Mathlib.Data.Rat.Floor
import Mathlib.Tactic.FieldSimp
import Mathlib.Tactic.Linarith
import RepidBench.Text

/-!
Numbers as text, in the way of Python's `str`, `format`, `int` and `float`, over
exact rationals: rounding goes to the nearest value, ties to even, and a number
printed with a fixed number of places is read back as the rounded number.
-/
namespace RepidBench.Decimal
open Text

/-! ## Character classes -/

/-- The decimal digits zero of Unicode (general category Nd); the other nine
    digits follow each of them. -/
def zeroDigits : List Nat := [
  0x30, 0x660, 0x6f0, 0x7c0, 0x966, 0x9e6, 0xa66, 0xae6, 0xb66, 0xbe6, 0xc66, 0xce6, 0xd66, 0xde6, 0xe50, 0xed0,
  0xf20, 0x1040, 0x1090, 0x17e0, 0x1810, 0x1946, 0x19d0, 0x1a80, 0x1a90, 0x1b50, 0x1bb0, 0x1c40, 0x1c50, 0xa620,
  0xa8d0, 0xa900, 0xa9d0, 0xa9f0, 0xaa50, 0xabf0, 0xff10, 0x104a0, 0x10d30, 0x11066, 0x110f0, 0x11136, 0x111d0,
  0x112f0, 0x11450, 0x114d0, 0x11650, 0x116c0, 0x11730, 0x118e0, 0x11950, 0x11c50, 0x11d50, 0x11da0, 0x11f50,
  0x16a60, 0x16ac0, 0x16b50, 0x1d7ce, 0x1d7d8, 0x1d7e2, 0x1d7ec, 0x1d7f6, 0x1e140, 0x1e2f0, 0x1e4f0, 0x1e950,
  0x1fbf0]

def digitValue (c : Char) : Option Nat :=
  (zeroDigits.find? (fun first => first ≤ c.toNat ∧ c.toNat < first + 10)).map (fun first => c.toNat - first)

/-- The class `\d`. -/
def isDecimal (c : Char) : Bool := (digitValue c).isSome

/-- The class `[\d.]`. -/
def isDecimalOrPoint (c : Char) : Bool := isDecimal c || c = '.'

/-- The class `\s`. -/
def isSpace (c : Char) : Bool :=
  c.toNat ∈ [0x20, 0x85, 0xa0, 0x1680, 0x2028, 0x2029, 0x202f, 0x205f, 0x3000] ||
    (0x9 ≤ c.toNat && c.toNat ≤ 0xd) || (0x1c ≤ c.toNat && c.toNat ≤ 0x1f) || (0x2000 ≤ c.toNat && c.toNat ≤ 0x200a)

/-- The class `\S`. -/
def isNotSpace (c : Char) : Bool := !isSpace c

theorem isDigit_bounds {c : Char} (digit : c.isDigit = true) : 48 ≤ c.toNat ∧ c.toNat ≤ 57 := by
  simp only [Char.isDigit, Bool.and_eq_true, decide_eq_true_eq] at digit
  obtain ⟨low, high⟩ := digit
  exact ⟨UInt32.le_iff_toNat_le.mp low, UInt32.le_iff_toNat_le.mp high⟩

theorem digitValue_ascii {c : Char} (digit : c.isDigit = true) : digitValue c = some (c.toNat - 48) := by
  obtain ⟨low, high⟩ := isDigit_bounds digit
  have found : zeroDigits.find? (fun first => decide (first ≤ c.toNat ∧ c.toNat < first + 10)) = some 0x30 :=
    List.find?_cons_of_pos (by simp only [decide_eq_true_eq]; omega)
  rw [digitValue, found]
  rfl

theorem isDecimal_ascii {c : Char} (digit : c.isDigit = true) : isDecimal c = true := by
  rw [isDecimal, digitValue_ascii digit]
  rfl

theorem isSpace_ascii {c : Char} (digit : c.isDigit = true) : isSpace c = false := by
  obtain ⟨low, high⟩ := isDigit_bounds digit
  simp only [isSpace, List.mem_cons, List.not_mem_nil, or_false, Bool.or_eq_false_iff, decide_eq_false_iff_not,
    Bool.and_eq_false_iff]
  omega

theorem isLineEnd_isSpace {c : Char} (ends : isLineEnd c = true) : isSpace c = true := by
  simp only [isLineEnd, Bool.or_eq_true, decide_eq_true_eq] at ends
  rcases ends with rfl | rfl <;> decide

/-! ## Rounding and printing -/

/-- `round` of a number that is not too large for it: ties go to the even number. -/
def roundHalfEven (q : ℚ) : ℤ :=
  if q - ⌊q⌋ < 1 / 2 then ⌊q⌋
  else if 1 / 2 < q - ⌊q⌋ then ⌊q⌋ + 1
  else if ⌊q⌋ % 2 = 0 then ⌊q⌋
  else ⌊q⌋ + 1

theorem roundHalfEven_cases (q : ℚ) : roundHalfEven q = ⌊q⌋ ∨ roundHalfEven q = ⌊q⌋ + 1 := by
  unfold roundHalfEven
  split_ifs <;> simp

theorem roundHalfEven_nonneg {q : ℚ} (nonneg : 0 ≤ q) : 0 ≤ roundHalfEven q := by
  have low : 0 ≤ ⌊q⌋ := Int.floor_nonneg.mpr nonneg
  rcases roundHalfEven_cases q with same | same <;> omega

theorem roundHalfEven_mono {p q : ℚ} (below : p ≤ q) : roundHalfEven p ≤ roundHalfEven q := by
  have floors : ⌊p⌋ ≤ ⌊q⌋ := Int.floor_le_floor below
  by_cases same : ⌊p⌋ = ⌊q⌋
  · have parts : p - ⌊p⌋ ≤ q - ⌊q⌋ := by
      rw [same]
      exact sub_le_sub_right below _
    unfold roundHalfEven
    rw [same] at parts ⊢
    split_ifs
    all_goals first | omega | linarith
  · rcases roundHalfEven_cases p with low | low <;> rcases roundHalfEven_cases q with high | high <;> omega

/-- Rounding takes off a half at most. -/
theorem roundHalfEven_ge (q : ℚ) : q - 1 / 2 ≤ roundHalfEven q := by
  have floor := Int.lt_floor_add_one q
  unfold roundHalfEven
  split_ifs
  all_goals push_cast
  all_goals linarith

/-- The number as it is printed with `places` decimals. -/
def rounded (places : Nat) (q : ℚ) : ℚ := roundHalfEven (q * 10 ^ places) / 10 ^ places

theorem roundHalfEven_int (n : ℤ) : roundHalfEven (n : ℚ) = n := by
  simp [roundHalfEven]

/-- Rounding does not depend on the sign. -/
theorem roundHalfEven_neg (q : ℚ) : roundHalfEven (-q) = -roundHalfEven q := by
  by_cases whole : q = ⌊q⌋
  · rw [whole, ← Int.cast_neg, roundHalfEven_int, roundHalfEven_int]
  · have low : (⌊q⌋ : ℚ) < q := lt_of_le_of_ne (Int.floor_le q) (Ne.symm whole)
    have high := Int.lt_floor_add_one q
    have floor : ⌊-q⌋ = -⌊q⌋ - 1 := by
      rw [Int.floor_eq_iff]
      push_cast
      constructor <;> linarith
    unfold roundHalfEven
    rw [floor]
    push_cast
    split_ifs
    all_goals first | omega | (exfalso; linarith)

theorem rounded_mono (places : Nat) : Monotone (rounded places) := by
  intro p q below
  have scale : (0 : ℚ) ≤ 10 ^ places := by positivity
  have whole := roundHalfEven_mono (mul_le_mul_of_nonneg_right below scale)
  exact div_le_div_of_nonneg_right (Int.cast_le.mpr whole) scale

/-- What is rounded stays as it is. -/
theorem rounded_rounded (places : Nat) (q : ℚ) : rounded places (rounded places q) = rounded places q := by
  have scale : (10 : ℚ) ^ places ≠ 0 := by positivity
  rw [rounded, rounded, div_mul_cancel₀ _ scale, roundHalfEven_int]

theorem rounded_neg (places : Nat) (q : ℚ) : rounded places (-q) = -rounded places q := by
  rw [rounded, neg_mul, roundHalfEven_neg, Int.cast_neg, neg_div, rounded]

/-- A whole number has no decimals to round. -/
theorem rounded_ofNat (places n : Nat) : rounded places (OfNat.ofNat n : ℚ) = OfNat.ofNat n := by
  have scale : (10 : ℚ) ^ places ≠ 0 := by positivity
  have whole : (OfNat.ofNat n : ℚ) * 10 ^ places = ((n * 10 ^ places : ℤ) : ℚ) := by
    push_cast
    rfl
  rw [rounded, whole, roundHalfEven_int, ← whole, mul_div_cancel_right₀ _ scale]

/-- `str(n)`, filled up with zeros on the left. -/
def zeroFilled (width n : Nat) : List Char :=
  List.replicate (width - (Nat.toDigits 10 n).length) '0' ++ Nat.toDigits 10 n

/-- A number of `10 ^ -places` units, with its point. -/
def withPoint (places units : Nat) : List Char :=
  if places = 0 then Nat.toDigits 10 units
  else Nat.toDigits 10 (units / 10 ^ places) ++ '.' :: zeroFilled places (units % 10 ^ places)

def signed (q : ℚ) (text : List Char) : String := String.ofList (if q < 0 then '-' :: text else text)

/-- `f"{q:.{places}f}"`. -/
def fixed (places : Nat) (q : ℚ) : String :=
  signed q (withPoint places (roundHalfEven (|q| * 10 ^ places)).toNat)

/-- A decimal without the zeros that end it. -/
def stripZeros (text : List Char) : List Char := (text.rdropWhile (· = '0')).rdropWhile (· = '.')

/-- `f"{q:g}"`: six significant digits, without the zeros at the end, and with an
    exponent for the very small and the very large. -/
def general (q : ℚ) : String :=
  if q = 0 then "0"
  else
    let exponent := Int.log 10 |q|
    let digits := (roundHalfEven (|q| * 10 ^ (5 - exponent))).toNat
    let (digits, exponent) := if digits = 10 ^ 6 then (10 ^ 5, exponent + 1) else (digits, exponent)
    if -4 ≤ exponent ∧ exponent < 6 then
      let places := (5 - exponent).toNat
      signed q (if places = 0 then withPoint places digits else stripZeros (withPoint places digits))
    else
      signed q (stripZeros (withPoint 5 digits) ++ 'e' :: (if exponent < 0 then '-' else '+') ::
        zeroFilled 2 exponent.natAbs)

/-! ## Reading -/

def digitsValue (text : List Char) : Option Nat :=
  text.foldlM (fun value c => (digitValue c).map (fun digit => 10 * value + digit)) 0

/-- `int(text)` for a text of decimal digits. -/
def readInt (text : List Char) : Option Nat := if text = [] then none else digitsValue text

/-- `text.strip()`. -/
def strip (text : List Char) : List Char := (text.dropWhile isSpace).rdropWhile isSpace

/-- Decimal digits, with single underscores between them. -/
def readDigits (text : List Char) : Option Nat :=
  if [] ∈ text.splitOn '_' then none else digitsValue (text.splitOn '_').flatten

/-- `int(text)`; `none` is the `ValueError`. -/
def readInteger (text : List Char) : Option ℤ :=
  match strip text with
  | '-' :: digits => (readDigits digits).map (fun n => -(n : ℤ))
  | '+' :: digits => (readDigits digits).map (fun n => (n : ℤ))
  | digits => (readDigits digits).map (fun n => (n : ℤ))

/-- `float(text)` for a text of decimal digits and points; `none` is the
    `ValueError` for a second point or no digit at all. -/
def readFloat (text : List Char) : Option ℚ :=
  match text.dropWhile (· ≠ '.') with
  | [] => (readInt text).map (fun (n : Nat) => (n : ℚ))
  | _ :: fraction =>
    let whole := text.takeWhile (· ≠ '.')
    if whole = [] ∧ fraction = [] then none
    else
      (digitsValue whole).bind (fun (n : Nat) =>
        (digitsValue fraction).map (fun (m : Nat) => (n : ℚ) + m / 10 ^ fraction.length))

/-- The digits without the underscores that group them, each between two digits. -/
def ungroup (text : List Char) : Option (List Char) :=
  if (text.splitOn '_').IsChain (fun a b => a.getLast?.any isDecimal ∧ b.head?.any isDecimal) then
    some (text.splitOn '_').flatten
  else none

/-- The `int` of the exponent of a `float`. -/
def readExponent : List Char → Option ℤ
  | '-' :: digits => (readInt digits).map (fun n => -(n : ℤ))
  | '+' :: digits => (readInt digits).map (fun n => (n : ℤ))
  | digits => (readInt digits).map (fun n => (n : ℤ))

def isExponentMark (c : Char) : Bool := c = 'e' || c = 'E'

/-- A number without a sign, with or without an exponent. -/
def readUnsigned (text : List Char) : Option ℚ :=
  match text.dropWhile (fun c => !isExponentMark c) with
  | [] => readFloat text
  | _ :: exponent =>
    (readFloat (text.takeWhile (fun c => !isExponentMark c))).bind (fun mantissa =>
      (readExponent exponent).map (fun n => mantissa * 10 ^ n))

/-- `float(text)` for a text that is a number, not one of the words for infinities
    and `nan`; `none` is the `ValueError`. -/
def readNumber (text : List Char) : Option ℚ :=
  (ungroup (strip text)).bind (fun number =>
    match number with
    | '-' :: digits => (readUnsigned digits).map (fun q => -q)
    | '+' :: digits => readUnsigned digits
    | digits => readUnsigned digits)

/-! ## What is printed is read back -/

theorem toDigits_isDigit {n : Nat} {c : Char} (member : c ∈ Nat.toDigits 10 n) : c.isDigit = true :=
  Nat.isDigit_of_mem_toDigits (by decide) (by decide) member

theorem digitsValue_eq {text : List Char} (digits : ∀ c ∈ text, c.isDigit = true) :
    digitsValue text = some (Nat.ofDigitChars 10 text 0) := by
  suffices folded : ∀ value, text.foldlM (fun value c => (digitValue c).map (fun digit => 10 * value + digit)) value =
      some (Nat.ofDigitChars 10 text value) from folded 0
  induction text with
  | nil =>
    intro value
    simp [Nat.ofDigitChars_nil]
  | cons c rest ih =>
    intro value
    have more := ih (fun d member => digits d (by simp [member]))
    rw [List.foldlM_cons, digitValue_ascii (digits c (by simp)), Nat.ofDigitChars_cons]
    exact more _

theorem readInt_toDigits (n : Nat) : readInt (Nat.toDigits 10 n) = some n := by
  rw [readInt, if_neg Nat.toDigits_ne_nil, digitsValue_eq (fun _ => toDigits_isDigit), Nat.ofDigitChars_ten_toDigits]

theorem toDigits_notMem {c : Char} (other : c.isDigit = false) (n : Nat) : c ∉ Nat.toDigits 10 n := by
  intro member
  have digit := toDigits_isDigit member
  rw [other] at digit
  contradiction

/-- Text without blanks at its ends stays as it is. -/
theorem strip_eq {text : List Char} (first : ∀ c, text.head? = some c → isSpace c = false)
    (last : ∀ c, text.getLast? = some c → isSpace c = false) : strip text = text := by
  have front : text.dropWhile isSpace = text := by
    cases text with
    | nil => rfl
    | cons c rest => simp [List.dropWhile, first c rfl]
  rw [strip, front, List.rdropWhile_eq_self_iff]
  intro present
  simp [last _ (List.getLast?_eq_getLast_of_ne_nil present)]

/-- `int(str(n))`. -/
theorem readInteger_toDigits (n : Nat) : readInteger (Nat.toDigits 10 n) = some (n : ℤ) := by
  have stripped : strip (Nat.toDigits 10 n) = Nat.toDigits 10 n := by
    apply strip_eq
    · intro c head
      exact isSpace_ascii (toDigits_isDigit (List.mem_of_head? head))
    · intro c last
      exact isSpace_ascii (toDigits_isDigit (List.mem_of_getLast? last))
  have whole : readDigits (Nat.toDigits 10 n) = some n := by
    rw [readDigits, List.splitOn_eq_singleton (toDigits_notMem (by decide) n), List.flatten_singleton, if_neg]
    · rw [digitsValue_eq (fun _ => toDigits_isDigit), Nat.ofDigitChars_ten_toDigits]
    · rw [List.mem_singleton]
      exact Nat.toDigits_ne_nil.symm
  rw [readInteger, stripped]
  split
  · rename_i digits same
    exact absurd (same ▸ List.mem_cons_self) (toDigits_notMem (by decide) n)
  · rename_i digits same
    exact absurd (same ▸ List.mem_cons_self) (toDigits_notMem (by decide) n)
  · rw [whole]
    rfl

theorem zeroFilled_isDigit {width n : Nat} {c : Char} (member : c ∈ zeroFilled width n) : c.isDigit = true := by
  rcases List.mem_append.mp member with zeros | digits
  · rw [List.eq_of_mem_replicate zeros]
    decide
  · exact toDigits_isDigit digits

theorem zeroFilled_value (width n : Nat) : digitsValue (zeroFilled width n) = some n := by
  rw [digitsValue_eq (fun _ => zeroFilled_isDigit), zeroFilled, Nat.ofDigitChars_append,
    Nat.ofDigitChars_replicate_zero, Nat.mul_zero, Nat.ofDigitChars_ten_toDigits]

theorem zeroFilled_length {width n : Nat} (positive : 0 < width) (small : n < 10 ^ width) :
    (zeroFilled width n).length = width := by
  have short := (Nat.length_toDigits_le_iff (by decide : 1 < 10) positive).mpr small
  rw [zeroFilled, List.length_append, List.length_replicate]
  omega

theorem takeWhile_point {digits : List Char} (rest : List Char) (all : ∀ c ∈ digits, c.isDigit = true) :
    (digits ++ '.' :: rest).takeWhile (· ≠ '.') = digits ∧
    (digits ++ '.' :: rest).dropWhile (· ≠ '.') = '.' :: rest := by
  have notPoint : ∀ c ∈ digits, decide (c ≠ '.') = true := by
    intro c member
    simp only [decide_eq_true_eq]
    rintro rfl
    exact absurd (all _ member) (by decide)
  rw [List.takeWhile_append_of_pos notPoint, List.dropWhile_append_of_pos notPoint]
  simp

theorem readFloat_withPoint {places : Nat} (positive : 0 < places) (units : Nat) :
    readFloat (withPoint places units) = some ((units : ℚ) / 10 ^ places) := by
  have small : units % 10 ^ places < 10 ^ places := Nat.mod_lt _ (by positivity)
  obtain ⟨whole, fraction⟩ := takeWhile_point (zeroFilled places (units % 10 ^ places))
    (fun c (member : c ∈ Nat.toDigits 10 (units / 10 ^ places)) => toDigits_isDigit member)
  have value : digitsValue (Nat.toDigits 10 (units / 10 ^ places)) = some (units / 10 ^ places) := by
    rw [digitsValue_eq (fun _ => toDigits_isDigit), Nat.ofDigitChars_ten_toDigits]
  have split : (units : ℚ) = (units / 10 ^ places : Nat) * 10 ^ places + (units % 10 ^ places : Nat) := by
    have exact : units = units / 10 ^ places * 10 ^ places + units % 10 ^ places := by
      rw [Nat.mul_comm]
      exact (Nat.div_add_mod _ _).symm
    exact_mod_cast exact
  rw [withPoint, if_neg (by omega), readFloat, fraction]
  simp only [whole, Nat.toDigits_ne_nil, false_and, ↓reduceIte, value, zeroFilled_value, Option.bind_some,
    Option.map_some, zeroFilled_length positive small, Option.some.injEq]
  rw [split]
  field_simp

theorem fixed_nonneg (places : Nat) {q : ℚ} (nonneg : 0 ≤ q) :
    (fixed places q).toList = withPoint places (roundHalfEven (q * 10 ^ places)).toNat := by
  rw [fixed, signed, if_neg (not_lt.mpr nonneg), String.toList_ofList, abs_of_nonneg nonneg]

/-- `float(f"{q:.{places}f}")`. -/
theorem readFloat_fixed {places : Nat} (positive : 0 < places) {q : ℚ} (nonneg : 0 ≤ q) :
    readFloat (fixed places q).toList = some (rounded places q) := by
  have whole : 0 ≤ roundHalfEven (q * 10 ^ places) := roundHalfEven_nonneg (by positivity)
  rw [fixed_nonneg places nonneg, readFloat_withPoint positive, rounded]
  congr 2
  exact_mod_cast Int.toNat_of_nonneg whole

/-! ## Which characters are printed -/

theorem withPoint_chars {places units : Nat} {c : Char} (member : c ∈ withPoint places units) :
    c.isDigit = true ∨ c = '.' := by
  unfold withPoint at member
  split_ifs at member
  · exact .inl (toDigits_isDigit member)
  · rcases List.mem_append.mp member with whole | rest
    · exact .inl (toDigits_isDigit whole)
    · rcases List.mem_cons.mp rest with point | fraction
      · exact .inr point
      · exact .inl (zeroFilled_isDigit fraction)

theorem withPoint_ne_nil (places units : Nat) : withPoint places units ≠ [] := by
  unfold withPoint
  split_ifs
  · exact Nat.toDigits_ne_nil
  · simp

theorem digitOrPoint_class {c : Char} (kind : c.isDigit = true ∨ c = '.') :
    isDecimalOrPoint c = true ∧ isSpace c = false ∧ isLineEnd c = false := by
  have notSpace : isSpace c = false := by
    rcases kind with digit | rfl
    · exact isSpace_ascii digit
    · decide
  refine ⟨?_, notSpace, ?_⟩
  · rcases kind with digit | rfl
    · rw [isDecimalOrPoint, isDecimal_ascii digit, Bool.true_or]
    · decide
  · by_contra ends
    rw [isLineEnd_isSpace (by simpa using ends)] at notSpace
    cases notSpace

@[simp] theorem singleLine_toDigits (n : Nat) : SingleLine (Nat.toDigits 10 n) :=
  fun _ member => (digitOrPoint_class (.inl (toDigits_isDigit member))).2.2

@[simp] theorem singleLine_zeroFilled (width n : Nat) : SingleLine (zeroFilled width n) :=
  fun _ member => (digitOrPoint_class (.inl (zeroFilled_isDigit member))).2.2

@[simp] theorem singleLine_withPoint (places units : Nat) : SingleLine (withPoint places units) :=
  fun _ member => (digitOrPoint_class (withPoint_chars member)).2.2

theorem singleLine_signed {q : ℚ} {text : List Char} (single : SingleLine text) :
    SingleLine (signed q text).toList := by
  rw [signed, String.toList_ofList]
  split_ifs
  · exact singleLine_cons.mpr ⟨by decide, single⟩
  · exact single

@[simp] theorem singleLine_fixed (places : Nat) (q : ℚ) : SingleLine (fixed places q).toList :=
  singleLine_signed (singleLine_withPoint _ _)

theorem singleLine_stripZeros {text : List Char} (single : SingleLine text) : SingleLine (stripZeros text) :=
  fun c member => single c (((List.rdropWhile_prefix _ _).trans (List.rdropWhile_prefix _ _)).subset member)

@[simp] theorem singleLine_general (q : ℚ) : SingleLine (general q).toList := by
  unfold general
  split_ifs
  · decide
  · dsimp only
    split_ifs <;> refine singleLine_signed ?_ <;>
      simp [singleLine_stripZeros, isLineEnd]

/-! ## Signs and exponents -/

theorem readUnsigned_withPoint {places : Nat} (positive : 0 < places) (units : Nat) :
    readUnsigned (withPoint places units) = some ((units : ℚ) / 10 ^ places) := by
  have plain : ∀ c ∈ withPoint places units, (!isExponentMark c) = true := by
    intro c member
    rcases withPoint_chars member with digit | rfl
    · have bounds := isDigit_bounds digit
      simp only [isExponentMark, Bool.not_eq_true', Bool.or_eq_false_iff, decide_eq_false_iff_not]
      constructor
      · rintro rfl
        exact absurd bounds.2 (by decide)
      · rintro rfl
        exact absurd bounds.2 (by decide)
    · decide
  have none : (withPoint places units).dropWhile (fun c => !isExponentMark c) = [] :=
    List.dropWhile_eq_nil_iff.mpr plain
  rw [readUnsigned, none]
  exact readFloat_withPoint positive units

theorem ungroup_plain {text : List Char} (plain : '_' ∉ text) : ungroup text = some text := by
  rw [ungroup, List.splitOn_eq_singleton plain, if_pos (.singleton text), List.flatten_singleton]

/-- `float(f"{q:.{places}f}")`, for every number. -/
theorem readNumber_fixed {places : Nat} (positive : 0 < places) (q : ℚ) :
    readNumber (fixed places q).toList = some (rounded places q) := by
  have value (p : ℚ) (nonneg : 0 ≤ p) :
      readUnsigned (withPoint places (roundHalfEven (p * 10 ^ places)).toNat) = some (rounded places p) := by
    have whole : 0 ≤ roundHalfEven (p * 10 ^ places) := roundHalfEven_nonneg (by positivity)
    rw [readUnsigned_withPoint positive, rounded]
    congr 2
    exact_mod_cast Int.toNat_of_nonneg whole
  have chars : ∀ c ∈ (fixed places q).toList, c = '-' ∨ c.isDigit = true ∨ c = '.' := by
    intro c member
    rw [fixed, signed, String.toList_ofList] at member
    split_ifs at member
    · rcases List.mem_cons.mp member with sign | inside
      · exact .inl sign
      · exact .inr (withPoint_chars inside)
    · exact .inr (withPoint_chars member)
  have stripped : strip (fixed places q).toList = (fixed places q).toList := by
    have solid : ∀ c ∈ (fixed places q).toList, isSpace c = false := by
      intro c member
      rcases chars c member with rfl | kind
      · decide
      · exact (digitOrPoint_class kind).2.1
    exact strip_eq (fun c head => solid c (List.mem_of_head? head)) (fun c last => solid c (List.mem_of_getLast? last))
  have ungrouped : ungroup (fixed places q).toList = some (fixed places q).toList := by
    refine ungroup_plain (fun member => ?_)
    rcases chars '_' member with sign | digit | point
    · exact absurd sign (by decide)
    · exact absurd digit (by decide)
    · exact absurd point (by decide)
  rw [readNumber, stripped, ungrouped, Option.bind_some]
  by_cases negative : q < 0
  · have text : (fixed places q).toList = '-' :: withPoint places (roundHalfEven (-q * 10 ^ places)).toNat := by
      rw [fixed, signed, if_pos negative, String.toList_ofList, abs_of_neg negative]
    rw [text]
    show (readUnsigned _).map _ = _
    rw [value (-q) (by linarith), Option.map_some, rounded_neg, neg_neg]
  · have nonneg : 0 ≤ q := not_lt.mp negative
    have text := fixed_nonneg places nonneg
    have unsigned (c : Char) (rest : List Char) (same : (fixed places q).toList = c :: rest) :
        c.isDigit = true ∨ c = '.' := by
      rw [text] at same
      exact withPoint_chars (same ▸ List.mem_cons_self)
    split
    · rename_i rest same
      exact absurd (unsigned '-' rest same) (by decide)
    · rename_i rest same
      exact absurd (unsigned '+' rest same) (by decide)
    · rw [text]
      exact value q nonneg

end RepidBench.Decimal
