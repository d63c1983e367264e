import RepidBench.Dictionaries
import RepidBench.ResumeThroughput
import RepidBench.RoundTrip

/-!
What `run_once` returns: the result of a run, however its runner ended. A runner
that reports ok reports a throughput, printed with two decimals.
-/
namespace RepidBench.RunResults
open Decimal ParseOutput ResumeThroughput RoundTrip RunnerOutput Sessions

/-- How the process of a runner ended, with its standard output if it returned 0. -/
inductive Exit
  | notStarted
  | timedOut
  | failed
  | finished (stdout : List Char)

/-- The dictionary of the parser. -/
def resultOf : List (String × Value) → Result
  | (_, .str status) :: rest => ⟨status, rest⟩
  | entries => ⟨"error", entries⟩

/-- `run_once`; the outer `none` is a `ValueError` of the parser. -/
def runOnce : Exit → Option (Option Result)
  | .notStarted => some none
  | .timedOut => some (some ⟨"timeout", []⟩)
  | .failed => some (some ⟨"error", []⟩)
  | .finished stdout =>
    match parseRunnerOutput (readStdout stdout) with
    | .valueError => none
    | .missing => some (some ⟨"error", []⟩)
    | .result entries => some (some (resultOf entries))

/-- Every output reports a throughput. -/
theorem throughput_printed (o : Output) : ∃ x, .report "THROUGHPUT" (.decimal 2 x) ∈ o.prints := by
  cases o with
  | drain d => exact ⟨_, List.mem_append_right _ (by simp [printResults]; rfl)⟩
  | steady d => exact ⟨_, List.mem_append_right _ (List.mem_cons_of_mem _ (by simp [printSteadyResults]; rfl))⟩
  | latency d =>
    refine ⟨d.achievedRate, ?_⟩
    simp [Output.prints, Latency.prints, printLatencyControlledResults]
  | burst d => exact ⟨_, List.mem_append_right _ (by simp [printBurstRecoveryResults]; rfl)⟩

theorem throughput_reported (o : Output) :
    ∃ x, (reported o.prints).lookup "THROUGHPUT" = some (.float (rounded 2 x)) := by
  obtain ⟨x, printed⟩ := throughput_printed o
  refine ⟨x, Dictionaries.lookup_of_mem ?_ (List.mem_filterMap.mpr ⟨_, printed, rfl⟩)⟩
  rw [tagsOf_reported]
  exact Output.tags_nodup o

/-- Whatever a runner prints, `run_once` returns its status and a throughput with two
    decimals. -/
theorem runOnce_output (o : Output) (valid : Valid o) :
    ∃ result, runOnce (.finished (stdoutOf o.prints)) = some (some result) ∧ result.status = o.status ∧
      ∃ value, result.number "throughput" = some value ∧ rounded 2 value = value := by
  obtain ⟨block, word⟩ := Output.block valid
  obtain ⟨x, found⟩ := throughput_reported o
  rw [runOnce, block.parsed word]
  refine ⟨_, rfl, rfl, rounded 2 x, ?_, rounded_rounded 2 x⟩
  simp [Result.number, resultOf, fields, found, Sessions.numberOf]

/-- A run whose result is that of `run_once`, for a runner of this repository. -/
def FromRunner (run : Run) : Prop :=
  ∃ exit, runOnce exit = some run.result ∧
    ∀ stdout, exit = .finished stdout → ∃ o, Valid o ∧ stdout = stdoutOf o.prints

/-- So the ok runs of every session have a throughput with two decimals. -/
theorem okMeasured_of_runner {s : Session} (runs : ∀ run ∈ s.runs, FromRunner run) : OkMeasured s := by
  intro run member _ ok
  obtain ⟨exit, returned, printed⟩ := runs run member
  have failed : ∀ status, status ≠ "ok" → run.result = some ⟨status, []⟩ → False := by
    intro status other result
    rw [Run.status, Run.outcome, result] at ok
    exact other ok
  cases exit with
  | notStarted =>
    have result : run.result = none := (Option.some.inj returned).symm
    rw [Run.status, Run.outcome, result] at ok
    exact absurd ok (by decide)
  | timedOut => exact (failed "timeout" (by decide) (Option.some.inj returned).symm).elim
  | failed => exact (failed "error" (by decide) (Option.some.inj returned).symm).elim
  | finished stdout =>
    obtain ⟨o, valid, rfl⟩ := printed stdout rfl
    obtain ⟨result, same, -, value, found, fixed⟩ := runOnce_output o valid
    have own : run.result = some result := Option.some.inj (returned.symm.trans same)
    refine ⟨value, ?_, fixed⟩
    rw [Run.throughput, Run.outcome, own]
    exact found

end RepidBench.RunResults
