import Mathlib.Data.List.GetD
import RepidBench.OrderStatistics
import RepidBench.RunnerOutput

/-!
The percentiles that `print_latency_results` reports are quantiles of the samples:
an entry of the list that neither too many samples are below nor too many above,
and one that depends on the samples only, not on their order.
-/
namespace RepidBench.LatencyQuantiles
open Decimal RunnerOutput OrderStatistics

/-- The fractions of `p50`, `p95`, `p99` and `p999`. -/
def fractions : List ℚ := [0.5, 0.95, 0.99, 0.999]

/-- `min(int(n * fraction), n - 1)`. -/
def quantileIndex (n : Nat) (fraction : ℚ) : Nat := min ⌊n * fraction⌋.toNat (n - 1)

/-- What is reported for a fraction, in milliseconds. -/
def reported (latencies : List ℚ) (fraction : ℚ) : ℚ := quantile (latencies.mergeSort (· ≤ ·)) fraction

/-- The value is an entry of the list with at most the fraction of the samples below
    it and at most the rest of them above it. -/
structure SampleQuantile (latencies : List ℚ) (fraction value : ℚ) : Prop where
  sample : value ∈ latencies
  below : (latencies.countP (· < value) : ℚ) ≤ fraction * latencies.length
  above : (latencies.countP (value < ·) : ℚ) ≤ (1 - fraction) * latencies.length

theorem fraction_bounds {fraction : ℚ} (member : fraction ∈ fractions) : 0 ≤ fraction ∧ fraction ≤ 1 := by
  simp only [fractions, List.mem_cons, List.not_mem_nil, or_false] at member
  rcases member with rfl | rfl | rfl | rfl <;> norm_num

/-! ## The index -/

theorem quantileIndex_lt {n : Nat} (positive : 0 < n) (fraction : ℚ) : quantileIndex n fraction < n := by
  unfold quantileIndex
  omega

/-- As many entries as there are before the index are at most the fraction of all,
    and as many as there are after it at most the rest. -/
theorem quantileIndex_bounds (n : Nat) {fraction : ℚ} (nonneg : 0 ≤ fraction) (le_one : fraction ≤ 1) :
    (quantileIndex n fraction : ℚ) ≤ fraction * n ∧
      ((n - (quantileIndex n fraction + 1) : Nat) : ℚ) ≤ (1 - fraction) * n := by
  have share : 0 ≤ (n : ℚ) * fraction := mul_nonneg (Nat.cast_nonneg n) nonneg
  have floor : 0 ≤ ⌊(n : ℚ) * fraction⌋ := Int.floor_nonneg.mpr share
  have whole : ((⌊(n : ℚ) * fraction⌋.toNat : Nat) : ℚ) = ⌊(n : ℚ) * fraction⌋ := by
    exact_mod_cast Int.toNat_of_nonneg floor
  constructor
  · have le : (quantileIndex n fraction : ℚ) ≤ (⌊(n : ℚ) * fraction⌋.toNat : Nat) := by
      exact_mod_cast min_le_left _ _
    have below := Int.floor_le ((n : ℚ) * fraction)
    linarith
  · rcases le_total ⌊(n : ℚ) * fraction⌋.toNat (n - 1) with inside | outside
    · have index : quantileIndex n fraction = ⌊(n : ℚ) * fraction⌋.toNat := min_eq_left inside
      have above := Int.lt_floor_add_one ((n : ℚ) * fraction)
      rcases Nat.eq_zero_or_pos n with rfl | positive
      · simp
      · have fits : quantileIndex n fraction + 1 ≤ n := quantileIndex_lt positive fraction
        rw [Nat.cast_sub fits, index]
        push_cast
        linarith
    · have index : quantileIndex n fraction = n - 1 := min_eq_right outside
      have none : n - (quantileIndex n fraction + 1) = 0 := by omega
      rw [none, Nat.cast_zero]
      exact mul_nonneg (by linarith) (Nat.cast_nonneg n)

theorem quantileIndex_mono (n : Nat) {low high : ℚ} (le : low ≤ high) :
    quantileIndex n low ≤ quantileIndex n high := by
  have share : (n : ℚ) * low ≤ n * high := mul_le_mul_of_nonneg_left le (Nat.cast_nonneg n)
  have floors : ⌊(n : ℚ) * low⌋.toNat ≤ ⌊(n : ℚ) * high⌋.toNat := Int.toNat_le_toNat (Int.floor_le_floor share)
  unfold quantileIndex
  omega

/-! ## The reported values -/

section
variable {latencies : List ℚ}

theorem sorted (latencies : List ℚ) : (latencies.mergeSort (· ≤ ·)).Pairwise (· ≤ ·) := by
  have pairs : (latencies.mergeSort (fun a b => decide (a ≤ b))).Pairwise (fun a b => decide (a ≤ b) = true) := by
    apply List.pairwise_mergeSort
    · intro a b c first second
      rw [decide_eq_true_eq] at first second ⊢
      exact first.trans second
    · intro a b
      simpa using le_total a b
  simpa using pairs

theorem reported_eq (present : latencies ≠ []) (fraction : ℚ) :
    ∃ inside : quantileIndex latencies.length fraction < (latencies.mergeSort (· ≤ ·)).length,
      reported latencies fraction =
        (latencies.mergeSort (· ≤ ·))[quantileIndex latencies.length fraction] * 1000 := by
  have positive : 0 < latencies.length := List.length_pos_of_ne_nil present
  have inside : quantileIndex latencies.length fraction < (latencies.mergeSort (· ≤ ·)).length := by
    rw [List.length_mergeSort]
    exact quantileIndex_lt positive fraction
  refine ⟨inside, ?_⟩
  rw [reported, quantile]
  simp only [List.length_mergeSort]
  rw [← quantileIndex, List.getD_eq_getElem _ _ inside]

theorem reported_mono (present : latencies ≠ []) {low high : ℚ} (le : low ≤ high) :
    reported latencies low ≤ reported latencies high := by
  obtain ⟨_, first⟩ := reported_eq present low
  obtain ⟨inside, second⟩ := reported_eq present high
  rw [first, second]
  have entries := getElem_mono (sorted latencies) (quantileIndex_mono latencies.length le) inside
  linarith

theorem reported_sample (present : latencies ≠ []) {fraction : ℚ} (nonneg : 0 ≤ fraction) (le_one : fraction ≤ 1) :
    ∃ value, reported latencies fraction = value * 1000 ∧ SampleQuantile latencies fraction value := by
  obtain ⟨inside, same⟩ := reported_eq present fraction
  obtain ⟨before, after⟩ := quantileIndex_bounds latencies.length nonneg le_one
  have perm := List.mergeSort_perm latencies (· ≤ ·)
  refine ⟨_, same, perm.mem_iff.mp (List.getElem_mem inside), ?_, ?_⟩
  · have below := countP_lt_le (sorted latencies) inside
    rw [perm.countP_eq] at below
    exact le_trans (by exact_mod_cast below) before
  · have above := countP_gt_le (sorted latencies) inside
    rw [perm.countP_eq, List.length_mergeSort] at above
    exact le_trans (by exact_mod_cast above) after

theorem sorted_perm {other : List ℚ} (same : other.Perm latencies) :
    other.mergeSort (· ≤ ·) = latencies.mergeSort (· ≤ ·) := by
  refine List.Perm.eq_of_pairwise' (sorted other) (sorted latencies) ?_
  exact ((List.mergeSort_perm other _).trans same).trans (List.mergeSort_perm latencies _).symm

/-- What is printed of the samples is what is reported for the four fractions. -/
theorem printLatencyResults_reported (present : latencies ≠ []) :
    printLatencyResults latencies =
      [.note s!"Latency samples: {latencies.length}",
        .note s!"Latency p50:    {fixed 2 (reported latencies 0.5)} ms",
        .note s!"Latency p95:    {fixed 2 (reported latencies 0.95)} ms",
        .note s!"Latency p99:    {fixed 2 (reported latencies 0.99)} ms",
        .note s!"Latency p99.9:  {fixed 2 (reported latencies 0.999)} ms",
        .report "LATENCY_P50" (.decimal 4 (reported latencies 0.5)),
        .report "LATENCY_P95" (.decimal 4 (reported latencies 0.95)),
        .report "LATENCY_P99" (.decimal 4 (reported latencies 0.99)),
        .report "LATENCY_SAMPLES" (.count latencies.length)] := by
  rw [printLatencyResults, if_neg present]
  simp only [List.length_mergeSort, reported]

/-- The order of the samples does not matter to anything that is printed. -/
theorem printLatencyResults_perm {other : List ℚ} (same : other.Perm latencies) :
    printLatencyResults other = printLatencyResults latencies := by
  have empty : other = [] ↔ latencies = [] := by
    rw [← List.length_eq_zero_iff, same.length_eq, List.length_eq_zero_iff]
  simp only [printLatencyResults, empty, sorted_perm same]

end

/-- For every list of samples that is not empty: each index is one of the list, what
    is reported at it is the quantile of the samples, the four values are in order,
    any other order of the samples gives the same, and these values are printed. -/
theorem percentiles_are_quantiles (latencies : List ℚ) (present : latencies ≠ []) :
    (∀ fraction ∈ fractions, quantileIndex latencies.length fraction ≤ latencies.length - 1 ∧
      ∃ value, reported latencies fraction = value * 1000 ∧ SampleQuantile latencies fraction value) ∧
    reported latencies 0.5 ≤ reported latencies 0.95 ∧ reported latencies 0.95 ≤ reported latencies 0.99 ∧
    reported latencies 0.99 ≤ reported latencies 0.999 ∧
    (∀ other : List ℚ, other.Perm latencies →
      (∀ fraction ∈ fractions, reported other fraction = reported latencies fraction) ∧
      printLatencyResults other = printLatencyResults latencies) ∧
    (∀ line ∈ [("LATENCY_P50", (0.5 : ℚ)), ("LATENCY_P95", 0.95), ("LATENCY_P99", 0.99)],
      .report line.1 (.decimal 4 (reported latencies line.2)) ∈ printLatencyResults latencies) ∧
    .note s!"Latency p99.9:  {fixed 2 (reported latencies 0.999)} ms" ∈ printLatencyResults latencies := by
  have positive : 0 < latencies.length := List.length_pos_of_ne_nil present
  refine ⟨?_, reported_mono present (by norm_num), reported_mono present (by norm_num),
    reported_mono present (by norm_num), ?_, ?_, ?_⟩
  · intro fraction member
    obtain ⟨nonneg, le_one⟩ := fraction_bounds member
    have inside := quantileIndex_lt positive fraction
    exact ⟨by omega, reported_sample present nonneg le_one⟩
  · intro other same
    refine ⟨fun fraction _ => ?_, printLatencyResults_perm same⟩
    rw [reported, reported, sorted_perm same]
  · intro line member
    rw [printLatencyResults_reported present]
    simp only [List.mem_cons, List.not_mem_nil, or_false] at member
    rcases member with rfl | rfl | rfl <;> simp only [List.mem_cons, true_or, or_true]
  · rw [printLatencyResults_reported present]
    simp only [List.mem_cons, true_or, or_true]

/-- Of two samples the larger is the median: half of two is a whole number. -/
theorem percentiles_of_two : reported [1 / 100, 3 / 100] 0.5 = 30 ∧
    ∃ value, reported [1 / 100, 3 / 100] 0.5 = value * 1000 ∧ SampleQuantile [1 / 100, 3 / 100] 0.5 value := by
  have ordered : [(1 / 100 : ℚ), 3 / 100].mergeSort (· ≤ ·) = [1 / 100, 3 / 100] :=
    List.mergeSort_of_pairwise (by norm_num)
  constructor
  · rw [reported, ordered]
    norm_num [quantile]
  · exact ((percentiles_are_quantiles [1 / 100, 3 / 100] (by simp)).1 0.5 (by simp [fractions])).2

end RepidBench.LatencyQuantiles
