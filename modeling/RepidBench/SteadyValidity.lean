import RepidBench.SteadyRun

/-!
When the status of a steady run tells whether it is valid. The loop is left at the
first of its three tests that succeeds, so a source that is exhausted, or a publisher
that has failed, by the poll at which the window is over is not reported.
-/
namespace RepidBench.SteadyValidity
open Transition Cutoff RunnerOutput RepidBench.Runtime Polling SteadyRun

variable {σ α : Type}

/-- The last poll of the loop: what it read of the clock and of the counter, and the
    exit codes of the publisher processes when the loop is left. -/
structure FinalPoll where
  now : ℚ
  measurementEnd : ℚ
  count : Nat
  exitCodes : List (Option ℤ)
  deriving DecidableEq

/-- The final poll, seen at the statement that leaves the loop. -/
def finalPoll (counter : Counter σ α) (cfg : BenchmarkConfig) (m : State ℚ (Shared σ) Locals) :
    Label ℚ (Action α) Reply → Option FinalPoll
  | .runner reply =>
    match runner counter cfg m.clock m.shared m.runner reply with
    | some (_, e) =>
      if e.phase = .report then
        some ⟨m.runner.now, measurementEnd cfg m.runner.start, m.runner.count, m.shared.publishers⟩
      else none
    | none => none
  | _ => none

namespace FinalPoll

def WindowOver (p : FinalPoll) : Prop := p.measurementEnd ≤ p.now
def Exhausted (cfg : BenchmarkConfig) (p : FinalPoll) : Prop := cfg.messages ≤ p.count
def PublisherFailed (p : FinalPoll) : Prop := ∃ code ∈ p.exitCodes, failedCode code = true

/-- At most one of the conditions that stop the loop holds. -/
structure Apart (cfg : BenchmarkConfig) (p : FinalPoll) : Prop where
  source : ¬ (p.WindowOver ∧ p.Exhausted cfg)
  publishers : ¬ (p.WindowOver ∧ p.PublisherFailed)
  both : ¬ (p.Exhausted cfg ∧ p.PublisherFailed)

/-- An ok run has no publisher that failed and messages left, and a publisher that
    failed makes the status `error`. -/
structure Reported (cfg : BenchmarkConfig) (p : FinalPoll) (status : String) : Prop where
  ok : status = "ok" → ¬ p.PublisherFailed ∧ p.count < cfg.messages
  failed : p.PublisherFailed → status = "error"

/-- What a status says of the final poll. -/
inductive Stops (cfg : BenchmarkConfig) (p : FinalPoll) : String → Prop
  | windowOver (closed : p.WindowOver) : Stops cfg p "ok"
  | exhausted (open_ : ¬ p.WindowOver) (spent : p.Exhausted cfg) : Stops cfg p "exhausted"
  | publisherFailed (open_ : ¬ p.WindowOver) (left : ¬ p.Exhausted cfg) (failed : p.PublisherFailed) :
      Stops cfg p "error"

theorem Stops.reported_iff {cfg : BenchmarkConfig} {p : FinalPoll} {status : String} (stops : Stops cfg p status) :
    Reported cfg p status ↔ Apart cfg p := by
  cases stops with
  | windowOver closed =>
    constructor
    · rintro ⟨ok, _⟩
      obtain ⟨sound, left⟩ := ok rfl
      exact ⟨fun both => absurd left (not_lt.mpr both.2), fun both => sound both.2, fun both => sound both.2⟩
    · rintro ⟨source, publishers, _⟩
      have sound : ¬ p.PublisherFailed := fun failed => publishers ⟨closed, failed⟩
      exact ⟨fun _ => ⟨sound, not_le.mp fun spent => source ⟨closed, spent⟩⟩, fun failed => absurd failed sound⟩
  | exhausted open_ spent =>
    constructor
    · rintro ⟨_, failed⟩
      refine ⟨fun both => open_ both.1, fun both => open_ both.1, fun both => ?_⟩
      exact absurd (failed both.2) (by decide)
    · rintro ⟨_, _, both⟩
      exact ⟨fun ok => absurd ok (by decide), fun failed => absurd ⟨spent, failed⟩ both⟩
  | publisherFailed open_ left failed =>
    refine iff_of_true ⟨fun ok => absurd ok (by decide), fun _ => rfl⟩ ?_
    exact ⟨fun both => open_ both.1, fun both => open_ both.1, fun both => left both.1⟩

end FinalPoll

/-! ## Every run -/

/-- What is known of the final poll where the runner stands. -/
def Knows (cfg : BenchmarkConfig) (finals : List FinalPoll) (d : Locals) : Prop :=
  match d.phase with
  | .report | .cleanup | .stopWorkers | .done => ∃ p, finals = [p] ∧ p.Stops cfg d.status
  | .publishers _ => finals = [] ∧ d.now < measurementEnd cfg d.start ∧ d.count < cfg.messages
  | .failed => True
  | _ => finals = []

theorem Knows.before {cfg : BenchmarkConfig} {finals : List FinalPoll} {d : Locals} (knows : Knows cfg finals d)
    (inside : d.phase ∉ [.report, .cleanup, .stopWorkers, .done, .failed]) : finals = [] := by
  unfold Knows at knows
  split at knows
  case h_5 => exact knows.1
  case h_7 => exact knows
  all_goals simp_all

theorem Knows.after {cfg : BenchmarkConfig} {finals : List FinalPoll} {d : Locals} (knows : Knows cfg finals d)
    (outside : d.phase ∈ [.report, .cleanup, .stopWorkers, .done]) : ∃ p, finals = [p] ∧ p.Stops cfg d.status := by
  unfold Knows at knows
  split at knows
  case h_5 => simp_all
  case h_6 => simp_all
  case h_7 => simp_all
  all_goals exact knows

theorem Knows.ran {counter : Counter σ α} {cfg : BenchmarkConfig} {now : ℚ} {s t : Shared σ} {d e : Locals}
    {finals : List FinalPoll} (knows : Knows cfg finals d) (ran : Ran counter cfg now s d t e) :
    Knows cfg (finals ++ if e.phase = .report then [⟨d.now, measurementEnd cfg d.start, d.count, s.publishers⟩] else []) e := by
  have inside (phase : d.phase ∉ [.report, .cleanup, .stopWorkers, .done, .failed]) : finals = [] := knows.before phase
  cases ran with
  | before next at_ after =>
    have none := inside (by rcases at_ with at_ | at_ <;> simp [at_])
    rcases after with rfl | rfl | rfl <;> simp [Knows, none]
  | start at_ => simpa [Knows] using inside (by simp [at_])
  | notStarted at_ => trivial
  | started at_ => simpa [Knows] using inside (by simp [at_])
  | clock at_ => simpa [Knows] using inside (by simp [at_])
  | count at_ => simpa [Knows] using inside (by simp [at_])
  | polled i next at_ after =>
    have still : finals = [] ∧ d.now < measurementEnd cfg d.start ∧ d.count < cfg.messages := by simpa [Knows, at_] using knows
    rcases after with rfl | rfl
    · simpa [Knows] using still.1
    · exact ⟨by simp [still.1], still.2⟩
  | test at_ =>
    have none := inside (by simp [at_])
    let p : FinalPoll := ⟨d.now, measurementEnd cfg d.start, d.count, s.publishers⟩
    obtain ⟨progress, lastCount, ⟨closed, same⟩ | ⟨within, spent, same⟩ | ⟨within, left, same⟩⟩ := tested_cases cfg d
    · rw [same]
      exact ⟨p, by simp [p, none, Locals.leave], .windowOver closed⟩
    · rw [same]
      exact ⟨p, by simp [p, none, Locals.leave, Locals.orCount], .exhausted (not_le.mpr within) spent⟩
    · rw [same]
      exact ⟨by simp [none], within, left⟩
  | publisherFailed i code at_ found failed =>
    have still : finals = [] ∧ d.now < measurementEnd cfg d.start ∧ d.count < cfg.messages := by simpa [Knows, at_] using knows
    obtain ⟨none, within, left⟩ := still
    let p : FinalPoll := ⟨d.now, measurementEnd cfg d.start, d.count, s.publishers⟩
    have failed : p.PublisherFailed := ⟨code, List.mem_of_getElem? found, failed⟩
    refine ⟨p, by simp [p, none, Locals.leave, Locals.orCount], ?_⟩
    exact .publisherFailed (not_le.mpr within) (not_le.mpr left) failed
  | report at_ =>
    obtain ⟨p, only, stops⟩ := knows.after (by simp [at_])
    exact ⟨p, by simp [only, Locals.measured], stops⟩
  | after next at_ after =>
    obtain ⟨p, only, stops⟩ := knows.after (by rcases at_ with at_ | at_ <;> simp [at_])
    rcases after with rfl | rfl | rfl
    · exact ⟨p, by simp [only], stops⟩
    · exact ⟨p, by simp [only], stops⟩
    · trivial

theorem run_knows {counter : Counter σ α} {cfg : BenchmarkConfig} {clock : ℚ}
    {trace : List (Label ℚ (Action α) Reply)} {s : State ℚ (Shared σ) Locals}
    (executed : run (system counter cfg).step (init counter clock) trace = some s) :
    Knows cfg (seen (system counter cfg).step (finalPoll counter cfg) (init counter clock) trace) s.runner := by
  have start : Knows cfg [] (init counter clock).runner := rfl
  refine run_seen (fun finals m => Knows cfg finals m.runner) (fun finals m a n knows stepped => ?_) start executed
  cases System.step_cases stepped with
  | pass | work => simpa [finalPoll] using knows
  | runner reply shared d ran =>
    have next := knows.ran (runner_cases ran)
    have ran : runner counter cfg m.clock m.shared m.runner reply = some (shared, d) := ran
    have sees : (finalPoll counter cfg m (.runner reply)).toList =
        if d.phase = .report then [⟨m.runner.now, measurementEnd cfg m.runner.start, m.runner.count, m.shared.publishers⟩]
        else [] := by
      simp only [finalPoll, ran]
      split_ifs <;> rfl
    rwa [sees]

theorem status_printed (d : Steady) (word : String) : .status word ∈ (Output.steady d).prints ↔ word = d.status := by
  simp [Output.prints, Steady.prints, printSteadyResults, eraser]

/-- In every steady run, whatever its clock, its workers and its publishers do, the
    loop is left at one poll, and the status printed tells whether the run is valid
    exactly when no two of the conditions that stop the loop hold at that poll. -/
theorem steady_reported_iff (counter : Counter σ α) (cfg : BenchmarkConfig) (clock : ℚ)
    (trace : List (Label ℚ (Action α) Reply)) (s : State ℚ (Shared σ) Locals) (output : Output)
    (executed : run (system counter cfg).step (init counter clock) trace = some s)
    (ended : s.runner.output cfg = some output) :
    ∃ p, seen (system counter cfg).step (finalPoll counter cfg) (init counter clock) trace = [p] ∧
      ∀ status, .status status ∈ output.prints → (p.Reported cfg status ↔ p.Apart cfg) := by
  unfold Locals.output at ended
  by_cases done : s.runner.phase = .done
  · rw [if_pos done] at ended
    cases ended
    obtain ⟨p, only, stops⟩ := (run_knows executed).after (by simp [done])
    refine ⟨p, only, fun status printed => ?_⟩
    rw [(status_printed _ status).mp printed]
    exact stops.reported_iff
  · rw [if_neg done] at ended
    cases ended

/-- One message, no warm-up and a window of one second. -/
def oneSecond : BenchmarkConfig :=
  { oneWorker with mode := .steady, steadyWarmupSeconds := 0, steadyMeasurementSeconds := 1 }

/-- The publisher ends with `code` before the window is over, and the next poll is at its end. -/
def endsWith (code : ℤ) : List (Label ℚ (Action Unit) Reply) :=
  List.replicate 4 (.runner .returned) ++ [.work (.exit 0 code), .pass 1] ++ List.replicate 6 (.runner .returned)

/-- A run of `endsWith` that ends ok prints so. -/
theorem endsWith_output (code : ℤ)
    (executed : (run (system valueCounter oneSecond).step (init valueCounter 0) (endsWith code)).map
      (fun s => (s.runner.phase, s.runner.status)) = some (.done, "ok")) :
    ∃ s output, run (system valueCounter oneSecond).step (init valueCounter 0) (endsWith code) = some s ∧
      s.runner.output oneSecond = some output ∧ .status "ok" ∈ output.prints := by
  obtain ⟨s, reached, locals⟩ := Option.map_eq_some_iff.mp executed
  simp only [Prod.mk.injEq] at locals
  obtain ⟨phase, status⟩ := locals
  refine ⟨s, _, reached, if_pos phase, ?_⟩
  rw [status_printed]
  exact status.symm

/-- A publisher that has sent its message and ended leaves an ok run valid. -/
theorem steady_reported_published : ∃ p,
    seen (system valueCounter oneSecond).step (finalPoll valueCounter oneSecond) (init valueCounter 0) (endsWith 0) =
      [p] ∧ p.Reported oneSecond "ok" := by
  obtain ⟨s, output, executed, ended, printed⟩ := endsWith_output 0 (by decide +kernel)
  obtain ⟨p, only, reported⟩ := steady_reported_iff valueCounter oneSecond 0 (endsWith 0) s output executed ended
  have sees : seen (system valueCounter oneSecond).step (finalPoll valueCounter oneSecond) (init valueCounter 0)
      (endsWith 0) = [⟨1, 1, 0, [some 0]⟩] := by decide +kernel
  refine ⟨p, only, (reported "ok" printed).mpr ?_⟩
  obtain rfl : (⟨1, 1, 0, [some 0]⟩ : FinalPoll) = p := by simpa using sees.symm.trans only
  constructor <;> simp [FinalPoll.Exhausted, FinalPoll.PublisherFailed, failedCode, oneSecond, oneWorker]

/-- A publisher that fails before the window is over, after the last poll inside it,
    is not reported: the status is ok. -/
theorem steady_publisher_failed : ∃ s output p,
    run (system valueCounter oneSecond).step (init valueCounter 0) (endsWith 1) = some s ∧
    s.runner.output oneSecond = some output ∧ .status "ok" ∈ output.prints ∧
    seen (system valueCounter oneSecond).step (finalPoll valueCounter oneSecond) (init valueCounter 0) (endsWith 1) =
      [p] ∧ p.PublisherFailed ∧ ¬ p.Reported oneSecond "ok" := by
  obtain ⟨s, output, executed, ended, printed⟩ := endsWith_output 1 (by decide +kernel)
  have failed : (⟨1, 1, 0, [some 1]⟩ : FinalPoll).PublisherFailed := ⟨some 1, by simp, rfl⟩
  exact ⟨s, output, _, executed, ended, printed, by decide +kernel, failed, fun reported => (reported.ok rfl).1 failed⟩

end RepidBench.SteadyValidity
