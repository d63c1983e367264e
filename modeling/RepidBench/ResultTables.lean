import Mathlib.Algebra.BigOperators.Group.List.Basic
import RepidBench.TaskList

/-!
The tables that a session prints at its end. Means and variances are exact; only
the text of a cell is rounded.
-/
namespace RepidBench.ResultTables
open Decimal Sessions Specs

/-- `statistics.mean`. -/
def mean (values : List ℚ) : ℚ := values.sum / values.length

/-- The square of `statistics.stdev`. -/
def variance (values : List ℚ) : ℚ := (values.map (fun x => (x - mean values) ^ 2)).sum / (values.length - 1 : ℕ)

/-- The square root of a number, rounded to tenths as `:.1f` rounds it. -/
def rootTenths (q : ℚ) : ℚ :=
  let halves := Nat.sqrt ⌊400 * q⌋.toNat
  let tenths : ℤ :=
    if (halves : ℚ) ^ 2 = 400 * q then roundHalfEven ((halves : ℚ) / 2) else ((halves + 1) / 2 : ℕ)
  tenths / 10

/-- `fmt_cell`, of values that are exact fractions: at a tie, as of a mean of 0.35, the
    `float` may be printed as the other neighbour. -/
def fmtCell (values : List ℚ) : String :=
  if values = [] then "FAILED"
  else if 1 < values.length then s!"{fixed 1 (mean values)}±{fixed 1 (rootTenths (variance values))}"
  else fixed 1 (mean values)

theorem mean_perm {xs ys : List ℚ} (same : xs.Perm ys) : mean xs = mean ys := by
  rw [mean, mean, same.sum_eq, same.length_eq]

theorem variance_perm {xs ys : List ℚ} (same : xs.Perm ys) : variance xs = variance ys := by
  rw [variance, variance, mean_perm same, (same.map _).sum_eq, same.length_eq]

/-- A cell does not depend on the order of its values. -/
theorem fmtCell_perm {xs ys : List ℚ} (same : xs.Perm ys) : fmtCell xs = fmtCell ys := by
  have empty : xs = [] ↔ ys = [] := by
    constructor
    · rintro rfl
      exact List.nil_perm.mp same
    · rintro rfl
      exact List.perm_nil.mp same
  simp only [fmtCell, mean_perm same, variance_perm same, same.length_eq, empty]

/-- The metrics of `print_latency_table`. -/
def percentiles : List Metric := [.p50Ms, .p95Ms, .p99Ms]

/-- `latency_fws`. -/
def latencyFrameworks (args : Args) : List String := args.frameworks.filter isLatency

/-- `latency_sts`. -/
def latencySleepTimes (args : Args) : List ℚ :=
  ((latencyFrameworks args).flatMap args.sleepTimesFor).dedup.insertionSort (· ≤ ·)

/-- The cells that `print_latency_table` prints: a table for each metric, with a row
    for each benchmark. -/
def printLatencyTable (args : Args) (results : Cell × Metric → List ℚ) : List (List (List String)) :=
  percentiles.map (fun metric => (latencyFrameworks args).map (fun fw =>
    (latencySleepTimes args).map (fun st => fmtCell (results (⟨fw, st⟩, metric)))))

/-- All latency benchmarks have the same sleep times. -/
theorem sleepTimesFor_latency (args : Args) {fw other : String} (latency : isLatency fw)
    (otherLatency : isLatency other) :
    args.sleepTimesFor fw = args.sleepTimesFor other := by
  have own : ∀ {name}, isLatency name → (getSpec name).elim [] BenchmarkSpec.sleepTimes = Specs.latencySleepTimes := by
    intro name latency
    have all : ∀ spec ∈ specs, spec.mode = .latency → spec.sleepTimes = Specs.latencySleepTimes := by decide +kernel
    obtain ⟨spec, found, isMode⟩ := (Option.any_eq_true _ _).mp latency
    rw [found]
    exact all spec (List.mem_of_find?_eq_some found) (by simpa using isMode)
  rw [Args.sleepTimesFor, Args.sleepTimesFor, own latency, own otherLatency]

/-- So the table looks up no cell that is missing. -/
theorem mem_latencySleepTimes {args : Args} {fw : String} (inFrameworks : fw ∈ latencyFrameworks args) {st : ℚ} :
    st ∈ latencySleepTimes args ↔ st ∈ args.sleepTimesFor fw := by
  simp only [latencySleepTimes, List.mem_insertionSort, List.mem_dedup, List.mem_flatMap]
  constructor
  · rintro ⟨other, inOthers, inTimes⟩
    rwa [sleepTimesFor_latency args (List.mem_filter.mp inFrameworks).2 (List.mem_filter.mp inOthers).2]
  · exact fun inTimes => ⟨fw, inFrameworks, inTimes⟩

/-- The same values in every cell give the same tables. -/
theorem printLatencyTable_perm {args : Args} {xs ys : Cell × Metric → List ℚ}
    (same : ∀ fw ∈ latencyFrameworks args, ∀ st ∈ args.sleepTimesFor fw, ∀ metric ∈ percentiles,
      (xs (⟨fw, st⟩, metric)).Perm (ys (⟨fw, st⟩, metric))) :
    printLatencyTable args xs = printLatencyTable args ys := by
  apply List.map_congr_left
  intro metric isPercentile
  apply List.map_congr_left
  intro fw inFrameworks
  apply List.map_congr_left
  intro st inTimes
  exact fmtCell_perm (same fw inFrameworks st ((mem_latencySleepTimes inFrameworks).mp inTimes) metric isPercentile)

end RepidBench.ResultTables
