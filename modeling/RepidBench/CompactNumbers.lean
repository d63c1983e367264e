import Mathlib.Order.Monotone.Basic
import RepidBench.Decimal

/-!
`fmt_compact` of `plot_benchmarks.py`, which prints the values of the charts with one
or no decimal and with a letter for thousands or millions. The larger of two values is
never printed as the smaller number, and no label is off by more than a twentieth.
Values are exact fractions: at a tie, as of 9950 or 0.35, the `float` that the code
rounds may lie beside the tie and be printed as the other neighbour.
-/
namespace RepidBench.CompactNumbers
open Decimal

/-- `fmt_compact`. -/
def fmtCompact (value : ℚ) : String :=
  if 1000000 ≤ |value| then
    if 10 ≤ value / 1000000 then fixed 0 (value / 1000000) ++ "M" else fixed 1 (value / 1000000) ++ "M"
  else if 1000 ≤ |value| then
    if 10 ≤ value / 1000 then fixed 0 (value / 1000) ++ "K" else fixed 1 (value / 1000) ++ "K"
  else if 10 ≤ value then fixed 0 value
  else fixed 1 value

/-- What a reader takes a label for. -/
def readCompact (text : List Char) : Option ℚ :=
  if text.getLast? = some 'M' then (readFloat text.dropLast).map (· * 1000000)
  else if text.getLast? = some 'K' then (readFloat text.dropLast).map (· * 1000)
  else readFloat text

/-! ## Rounding in a unit -/

/-- The value, rounded to a number of places in a unit. -/
def roundedIn (unit : ℚ) (places : ℕ) (value : ℚ) : ℚ := rounded places (value / unit) * unit

theorem roundedIn_mono {unit : ℚ} (positive : 0 < unit) (places : ℕ) : Monotone (roundedIn unit places) := by
  intro v w le
  exact mul_le_mul_of_nonneg_right (rounded_mono places (div_le_div_of_nonneg_right le positive.le)) positive.le

theorem abs_rounded_sub_le (places : ℕ) (q : ℚ) : |rounded places q - q| ≤ 1 / 2 / 10 ^ places := by
  have scale : (0 : ℚ) < 10 ^ places := by positivity
  have low := roundHalfEven_ge (q * 10 ^ places)
  have high := roundHalfEven_ge (-(q * 10 ^ places))
  rw [roundHalfEven_neg, Int.cast_neg] at high
  have exact : rounded places q - q = (roundHalfEven (q * 10 ^ places) - q * 10 ^ places) / 10 ^ places := by
    rw [rounded, sub_div, mul_div_cancel_right₀ _ scale.ne']
  rw [exact, abs_div, abs_of_pos scale]
  refine div_le_div_of_nonneg_right (abs_le.mpr ⟨?_, ?_⟩) scale.le
  · linarith
  · linarith

theorem abs_roundedIn_sub_le {unit : ℚ} (positive : 0 < unit) (places : ℕ) (value : ℚ) :
    |roundedIn unit places value - value| ≤ unit / 2 / 10 ^ places := by
  have off : roundedIn unit places value - value = (rounded places (value / unit) - value / unit) * unit := by
    rw [roundedIn, sub_mul, div_mul_cancel₀ _ positive.ne']
  rw [off, abs_mul, abs_of_pos positive]
  refine (mul_le_mul_of_nonneg_right (abs_rounded_sub_le places (value / unit)) positive.le).trans_eq ?_
  ring

/-! ## The number that is printed -/

def compactShown (value : ℚ) : ℚ :=
  if value < 10 then roundedIn 1 1 value
  else if value < 1000 then roundedIn 1 0 value
  else if value < 10000 then roundedIn 1000 1 value
  else if value < 1000000 then roundedIn 1000 0 value
  else if value < 10000000 then roundedIn 1000000 1 value
  else roundedIn 1000000 0 value

/-- One function up to a place and another one from there on. -/
theorem monotone_cut {α : Type u} {β : Type v} [LinearOrder α] [Preorder β] {f g : α → β} (low : Monotone f)
    (high : Monotone g) {t : α} (meet : f t ≤ g t) : Monotone (fun a => if a < t then f a else g a) := by
  intro a b le
  by_cases below : b < t
  · simp only [if_pos below, if_pos (le.trans_lt below)]
    exact low le
  · by_cases first : a < t
    · simp only [if_pos first, if_neg below]
      exact (low first.le).trans (meet.trans (high (not_lt.mp below)))
    · simp only [if_neg first, if_neg below]
      exact high le

theorem compactShown_mono : Monotone compactShown := by
  have one : ∀ places, Monotone (roundedIn 1 places) := roundedIn_mono (by norm_num)
  have thousand : ∀ places, Monotone (roundedIn 1000 places) := roundedIn_mono (by norm_num)
  have million : ∀ places, Monotone (roundedIn 1000000 places) := roundedIn_mono (by norm_num)
  have fromMillion := monotone_cut (million 1) (million 0) (t := 10000000) (by decide +kernel)
  have fromTenThousand := monotone_cut (thousand 0) fromMillion (t := 1000000) (by decide +kernel)
  have fromThousand := monotone_cut (thousand 1) fromTenThousand (t := 10000) (by decide +kernel)
  have fromTen := monotone_cut (one 0) fromThousand (t := 1000) (by decide +kernel)
  exact monotone_cut (one 1) fromTen (t := 10) (by decide +kernel)

theorem compactShown_near (value : ℚ) : |compactShown value - value| ≤ max (1 / 20) (value / 20) := by
  have near : ∀ unit places, 0 < unit → unit / 2 / 10 ^ places ≤ max (1 / 20) (value / 20) →
      |roundedIn unit places value - value| ≤ max (1 / 20) (value / 20) :=
    fun unit places positive small => (abs_roundedIn_sub_le positive places value).trans small
  unfold compactShown
  split_ifs
  · exact near 1 1 (by norm_num) (le_max_of_le_left (by norm_num))
  · exact near 1 0 (by norm_num) (le_max_of_le_right (by norm_num; linarith))
  · exact near 1000 1 (by norm_num) (le_max_of_le_right (by norm_num; linarith))
  · exact near 1000 0 (by norm_num) (le_max_of_le_right (by norm_num; linarith))
  · exact near 1000000 1 (by norm_num) (le_max_of_le_right (by norm_num; linarith))
  · exact near 1000000 0 (by norm_num) (le_max_of_le_right (by norm_num; linarith))

/-! ## Reading a label -/

theorem readFloat_fixed_any (places : ℕ) {q : ℚ} (nonneg : 0 ≤ q) :
    readFloat (fixed places q).toList = some (rounded places q) := by
  rcases Nat.eq_zero_or_pos places with rfl | positive
  · have whole : 0 ≤ roundHalfEven (q * 10 ^ 0) := roundHalfEven_nonneg (by simpa using nonneg)
    have noPoint : (Nat.toDigits 10 (roundHalfEven (q * 10 ^ 0)).toNat).dropWhile (· ≠ '.') = [] := by
      refine List.dropWhile_eq_nil_iff.mpr (fun c member => ?_)
      have digit := toDigits_isDigit member
      simp only [decide_eq_true_eq]
      rintro rfl
      cases digit
    rw [fixed_nonneg 0 nonneg, withPoint, if_pos rfl, readFloat, noPoint]
    simp only [readInt_toDigits, Option.map_some, rounded, pow_zero, div_one, Option.some.injEq]
    rw [pow_zero] at whole
    exact_mod_cast Int.toNat_of_nonneg whole
  · exact readFloat_fixed positive nonneg

/-- A number without a letter. -/
theorem readCompact_fixed (places : ℕ) {q : ℚ} (nonneg : 0 ≤ q) :
    readCompact (fixed places q).toList = some (rounded places q) := by
  have noLetter : ∀ c, c.isDigit = false → c ≠ '.' → (fixed places q).toList.getLast? ≠ some c := by
    intro c notDigit notPoint last
    have member := List.mem_of_getLast? last
    rw [fixed_nonneg places nonneg] at member
    rcases withPoint_chars member with digit | point
    · exact absurd (notDigit.symm.trans digit) (by decide)
    · exact notPoint point
  rw [readCompact, if_neg (noLetter 'M' rfl (by decide)), if_neg (noLetter 'K' rfl (by decide)),
    readFloat_fixed_any places nonneg]

/-- A number of millions, and one of thousands. -/
theorem readCompact_millions (places : ℕ) {value : ℚ} (nonneg : 0 ≤ value) :
    readCompact (fixed places (value / 1000000) ++ "M").toList = some (roundedIn 1000000 places value) := by
  have letter : ("M" : String).toList = ['M'] := rfl
  rw [String.toList_append, letter, readCompact, List.getLast?_concat, List.dropLast_concat, if_pos rfl,
    readFloat_fixed_any places (by positivity), Option.map_some, roundedIn]

theorem readCompact_thousands (places : ℕ) {value : ℚ} (nonneg : 0 ≤ value) :
    readCompact (fixed places (value / 1000) ++ "K").toList = some (roundedIn 1000 places value) := by
  have letter : ("K" : String).toList = ['K'] := rfl
  rw [String.toList_append, letter, readCompact, List.getLast?_concat, List.dropLast_concat, if_neg (by decide),
    if_pos rfl, readFloat_fixed_any places (by positivity), Option.map_some, roundedIn]

theorem readCompact_plain (places : ℕ) {value : ℚ} (nonneg : 0 ≤ value) :
    readCompact (fixed places value).toList = some (roundedIn 1 places value) := by
  rw [readCompact_fixed places nonneg, roundedIn, div_one, mul_one]

theorem readCompact_fmtCompact {value : ℚ} (nonneg : 0 ≤ value) :
    readCompact (fmtCompact value).toList = some (compactShown value) := by
  have below : ∀ {t : ℚ}, t ≤ value → ¬ value < t := fun le => not_lt.mpr le
  unfold fmtCompact compactShown
  rw [abs_of_nonneg nonneg]
  rcases lt_or_ge value 1000000 with small | million
  · rw [if_neg (not_le.mpr small)]
    rcases lt_or_ge value 1000 with smaller | thousand
    · rw [if_neg (not_le.mpr smaller)]
      rcases lt_or_ge value 10 with least | ten
      · rw [if_neg (not_le.mpr least), if_pos least]
        exact readCompact_plain 1 nonneg
      · rw [if_pos ten, if_neg (below ten), if_pos smaller]
        exact readCompact_plain 0 nonneg
    · have ten : 10 ≤ value := by linarith
      rw [if_pos thousand, if_neg (below ten), if_neg (below thousand)]
      rcases lt_or_ge value 10000 with few | many
      · have scaled : ¬ 10 ≤ value / 1000 := by linarith
        rw [if_neg scaled, if_pos few]
        exact readCompact_thousands 1 nonneg
      · have scaled : 10 ≤ value / 1000 := by linarith
        rw [if_pos scaled, if_neg (below many), if_pos small]
        exact readCompact_thousands 0 nonneg
  · have ten : 10 ≤ value := by linarith
    have thousand : 1000 ≤ value := by linarith
    have many : 10000 ≤ value := by linarith
    rw [if_pos million, if_neg (below ten), if_neg (below thousand), if_neg (below many), if_neg (below million)]
    rcases lt_or_ge value 10000000 with few | more
    · have scaled : ¬ 10 ≤ value / 1000000 := by linarith
      rw [if_neg scaled, if_pos few]
      exact readCompact_millions 1 nonneg
    · have scaled : 10 ≤ value / 1000000 := by linarith
      rw [if_pos scaled, if_neg (below more)]
      exact readCompact_millions 0 nonneg

/-- The labels of two values that are not negative: the larger one is not printed as the
    smaller number, and neither is off by more than a twentieth of its value, or by more
    than a twentieth. -/
theorem compact_labels {v w : ℚ} (nonneg : 0 ≤ v) (le : v ≤ w) :
    ∃ shownV shownW, readCompact (fmtCompact v).toList = some shownV ∧ readCompact (fmtCompact w).toList = some shownW ∧
      shownV ≤ shownW ∧ |shownV - v| ≤ max (1 / 20) (v / 20) ∧ |shownW - w| ≤ max (1 / 20) (w / 20) :=
  ⟨compactShown v, compactShown w, readCompact_fmtCompact nonneg, readCompact_fmtCompact (nonneg.trans le),
    compactShown_mono le, compactShown_near v, compactShown_near w⟩

/-- On both sides of a thousand. -/
theorem compact_labels_thousand :
    ∃ shownV shownW, readCompact "1000".toList = some shownV ∧ readCompact "1.0K".toList = some shownW ∧ shownV ≤ shownW := by
  have below : fmtCompact 999.6 = "1000" := by decide +kernel
  have above : fmtCompact 1040 = "1.0K" := by decide +kernel
  obtain ⟨shownV, shownW, first, second, le, -⟩ := @compact_labels 999.6 1040 (by norm_num) (by norm_num)
  exact ⟨shownV, shownW, below ▸ first, above ▸ second, le⟩

end RepidBench.CompactNumbers
