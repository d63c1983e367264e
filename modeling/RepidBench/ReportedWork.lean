import RepidBench.BurstRecovery
import RepidBench.LatencyRun
import RepidBench.RoundTrip

/-!
What a run reports as done against what was done by the end of the time that it
reports. A drain counts and then takes its end; a burst and a latency run take the
end first, and count what is completed while they purge the queue.
-/
namespace RepidBench.ReportedWork
open Transition Cutoff RunnerOutput RepidBench.Runtime Polling RoundTrip

theorem tasksDone_printed (o : Output) (value : Number) :
    .report "TASKS_DONE" value ∈ o.prints ↔ value = .count o.tasksDone := by
  refine report_unique (Output.tags_nodup o) ?_
  cases o with
  | drain d => exact List.mem_append_right _ (by simp [printResults, Output.tasksDone])
  | steady d =>
    exact List.mem_append_right _ (List.mem_cons_of_mem _ (by simp [printSteadyResults, Output.tasksDone]))
  | latency d => simp [Output.prints, Latency.prints, printLatencyControlledResults, Output.tasksDone]
  | burst d => exact List.mem_append_right _ (by simp [printBurstRecoveryResults, Output.tasksDone])

/-- The number printed as `TASKS_DONE` is at most the completions stamped by `stop`. -/
def Fits {σ ρ : Type} (s : State ℚ σ ρ) (stop : ℚ) (output : Output) : Prop :=
  ∀ done, .report "TASKS_DONE" (.count done) ∈ output.prints → done ≤ s.completedBy stop

theorem fits_iff {σ ρ : Type} (s : State ℚ σ ρ) (stop : ℚ) (output : Output) :
    Fits s stop output ↔ output.tasksDone ≤ s.completedBy stop := by
  simp [Fits, tasksDone_printed]

theorem drain_fits {σ α : Type} {counter : Counter σ α} {cfg : BenchmarkConfig} {clock : ℚ}
    {trace : List (Label ℚ α Reply)} {s : State ℚ σ Drain.Locals} {output : Output}
    (executed : run (Drain.system counter cfg).step (Drain.init counter cfg clock) trace = some s)
    (ended : s.runner.output cfg = some output) : Fits s s.runner.stop output := by
  unfold Drain.Locals.output at ended
  by_cases done : s.runner.phase = .done
  · rw [if_pos done] at ended
    cases ended
    exact (fits_iff s _ _).mpr (Drain.tasksDone_le counter cfg executed done)
  · rw [if_neg done] at ended
    cases ended

theorem burst_fits_iff {σ α : Type} {counter : Counter σ α} {cfg : BenchmarkConfig} {clock : ℚ}
    {trace : List (Label ℚ α Reply)} {s : State ℚ σ BurstRecovery.Locals} {output : Output}
    (executed : run (BurstRecovery.system counter cfg).step (BurstRecovery.init counter cfg clock) trace = some s)
    (ended : s.runner.output cfg = some output) :
    Fits s s.runner.stop output ↔ ¬ Occurs (BurstRecovery.system counter cfg).step
      (BurstRecovery.polls counter cfg).Late (BurstRecovery.init counter cfg clock) trace := by
  unfold BurstRecovery.Locals.output at ended
  by_cases done : s.runner.phase = .done
  · rw [if_pos done] at ended
    cases ended
    have reported : BurstRecovery.view s.runner = .reported s.runner.stop s.runner.tasksDone := by
      simp [BurstRecovery.view, done]
    rw [fits_iff]
    exact (BurstRecovery.polls counter cfg).reported_iff executed trivial rfl counter.start_count rfl reported
  · rw [if_neg done] at ended
    cases ended

theorem latency_fits_iff {cfg : BenchmarkConfig} {clock : ℚ}
    {trace : List (Label ℚ (Nat × SharedFiles.Action LatencyRun.Sample) Reply)}
    {s : State ℚ LatencyRun.Shared LatencyRun.Locals} {output : Output}
    (executed : run (LatencyRun.system cfg).step (LatencyRun.init cfg clock) trace = some s)
    (ended : s.runner.output cfg = some output) :
    Fits s s.runner.stop output ↔ ¬ Occurs (LatencyRun.system cfg).step (LatencyRun.polls cfg).Late
      (LatencyRun.init cfg clock) trace := by
  unfold LatencyRun.Locals.output at ended
  split at ended
  case h_2 => cases ended
  case h_1 backlog phase bound =>
    cases ended
    have reported : LatencyRun.view s.runner = .reported s.runner.stop s.runner.samples.toNat := by
      simp [LatencyRun.view, phase]
    have start := And.intro (LatencyRun.init_kept cfg clock) (LatencyRun.init_knows cfg clock)
    rw [fits_iff]
    exact (LatencyRun.polls cfg).reported_iff executed start rfl rfl rfl reported

/-- In every run of a drain, over either counter and however the workers are
    interleaved with the runner, the number printed as done is completed by the end
    of the duration printed. In a burst and in a latency run it is exactly when no
    task that it can still count is completed after the end was taken and before
    the counter, or the header of the latency file, is read again. -/
theorem reported_work_fits {σ α : Type} (counter : Counter σ α) (cfg : BenchmarkConfig) (clock : ℚ) :
    (∀ (trace : List (Label ℚ α Reply)) (s : State ℚ σ Drain.Locals) (output : Output),
      run (Drain.system counter cfg).step (Drain.init counter cfg clock) trace = some s →
      s.runner.output cfg = some output → Fits s s.runner.stop output) ∧
    (∀ (trace : List (Label ℚ α Reply)) (s : State ℚ σ BurstRecovery.Locals) (output : Output),
      run (BurstRecovery.system counter cfg).step (BurstRecovery.init counter cfg clock) trace = some s →
      s.runner.output cfg = some output →
      (Fits s s.runner.stop output ↔ ¬ Occurs (BurstRecovery.system counter cfg).step
        (BurstRecovery.polls counter cfg).Late (BurstRecovery.init counter cfg clock) trace)) ∧
    (∀ (trace : List (Label ℚ (Nat × SharedFiles.Action LatencyRun.Sample) Reply))
      (s : State ℚ LatencyRun.Shared LatencyRun.Locals) (output : Output),
      run (LatencyRun.system cfg).step (LatencyRun.init cfg clock) trace = some s →
      s.runner.output cfg = some output →
      (Fits s s.runner.stop output ↔ ¬ Occurs (LatencyRun.system cfg).step (LatencyRun.polls cfg).Late
        (LatencyRun.init cfg clock) trace)) := by
  refine ⟨?_, ?_, ?_⟩
  · intro trace s output executed ended
    exact drain_fits executed ended
  · intro trace s output executed ended
    exact burst_fits_iff executed ended
  · intro trace s output executed ended
    exact latency_fits_iff executed ended

/-- A drain over the counter file reports its task; a latency run counts the sample
    whose header store comes while the queue is purged. -/
theorem reported_work_two_runs :
    let file (n : Nat) : List (Label ℚ (SharedFiles.Label ℚ) Reply) := List.replicate n (.runner .returned)
    let drain := [.runner (.published [])] ++ file 6 ++ [.work (.worker 0 .openCounter), .work (.worker 0 .lockCounter),
      .work (.worker 0 .loadCounter), .work (.worker 0 .storeCounter)] ++ file 6
    let cfg : BenchmarkConfig := { oneWorker with
      mode := .latency
      latencyArrivalRate := 1
      latencyWarmupSeconds := 0
      latencyMeasurementSeconds := 1 }
    let sample : LatencyRun.Sample := ⟨some (.stamp 1 true 0), 0⟩
    let runner (n : Nat) : List (Label ℚ (Nat × SharedFiles.Action LatencyRun.Sample) Reply) :=
      List.replicate n (.runner .returned)
    let latency := runner 6 ++
      [.work (0, .openLatency sample), .work (0, .lockLatency sample), .work (0, .loadHeader), .work (0, .storeSlot)] ++
      runner 3 ++ [.pass 1] ++ runner 2 ++ [.pass 2, .work (0, .storeHeader sample)] ++ runner 6
    (∃ s output, run (Drain.system fileCounter oneWorker).step (Drain.init fileCounter oneWorker 0) drain = some s ∧
      s.runner.output oneWorker = some output ∧ output.tasksDone = 1 ∧ Fits s s.runner.stop output) ∧
    Occurs (LatencyRun.system cfg).step (LatencyRun.polls cfg).Late (LatencyRun.init cfg 0) latency := by
  intro file drain cfg sample runner latency
  obtain ⟨drains, _⟩ := reported_work_fits fileCounter oneWorker 0
  obtain ⟨_, _, latencies⟩ := reported_work_fits fileCounter cfg 0
  constructor
  · have executed : (run (Drain.system fileCounter oneWorker).step (Drain.init fileCounter oneWorker 0) drain).map
        (fun s => (s.runner.phase, s.runner.tasksDone)) = some (.done, 1) := by decide +kernel
    obtain ⟨s, reached, locals⟩ := Option.map_eq_some_iff.mp executed
    simp only [Prod.mk.injEq] at locals
    obtain ⟨phase, tasksDone⟩ := locals
    have ended : ∃ output, s.runner.output oneWorker = some output ∧ output.tasksDone = 1 := by
      unfold Drain.Locals.output
      rw [if_pos phase]
      exact ⟨_, rfl, tasksDone⟩
    obtain ⟨output, printed, one⟩ := ended
    exact ⟨s, output, reached, printed, one, drains drain s output reached printed⟩
  · have executed : (run (LatencyRun.system cfg).step (LatencyRun.init cfg 0) latency).map
        (fun s => (s.runner.phase, s.runner.samples, s.runner.stop, s.runner.backlogAtMeasurementEnd, s.completions)) =
        some (.done, 1, 1, some 1, [2]) := by decide +kernel
    obtain ⟨s, reached, locals⟩ := Option.map_eq_some_iff.mp executed
    simp only [Prod.mk.injEq] at locals
    obtain ⟨phase, samples, stop, backlog, completions⟩ := locals
    have ended : ∃ output, s.runner.output cfg = some output ∧ output.tasksDone = 1 := by
      unfold LatencyRun.Locals.output
      rw [phase, backlog]
      exact ⟨_, rfl, congrArg Int.toNat samples⟩
    obtain ⟨output, printed, one⟩ := ended
    by_contra clean
    have fits := (latencies latency s output reached printed).mpr clean
    rw [fits_iff, one, State.completedBy, completions, stop] at fits
    exact absurd fits (by decide +kernel)

/-- A burst of two that reaches the time limit at the instant 1: a task completed at
    2, while the queue is purged, is reported in a time that ends at 1. -/
theorem burst_late_task :
    let cfg : BenchmarkConfig := { oneWorker with mode := .burst }
    let metrics : Label ℚ Unit Reply := .runner (.metrics (.metrics 1 1 2 1))
    let runner (n : Nat) : List (Label ℚ Unit Reply) := List.replicate n (.runner .returned)
    let trace := runner 3 ++ [.runner (.published [])] ++ runner 1 ++ [metrics, .pass 1] ++ runner 8 ++
      [.pass 2, .work ()] ++ runner 1 ++ [metrics] ++ runner 2
    ∃ s output, run (BurstRecovery.system valueCounter cfg).step (BurstRecovery.init valueCounter cfg 0) trace =
        some s ∧
      s.runner.output cfg = some output ∧ s.runner.stop = 1 ∧ s.completions = [2] ∧
      .report "TASKS_DONE" (.count 1) ∈ output.prints ∧ ¬ Fits s s.runner.stop output := by
  intro cfg metrics runner trace
  have executed : (run (BurstRecovery.system valueCounter cfg).step (BurstRecovery.init valueCounter cfg 0) trace).map
      (fun s => (s.runner.phase, s.runner.tasksDone, s.runner.stop, s.completions)) =
      some (.done, 1, 1, [2]) := by decide +kernel
  obtain ⟨s, reached, locals⟩ := Option.map_eq_some_iff.mp executed
  simp only [Prod.mk.injEq] at locals
  obtain ⟨phase, tasksDone, stop, completions⟩ := locals
  have ended : ∃ output, s.runner.output cfg = some output ∧ output.tasksDone = 1 := by
    unfold BurstRecovery.Locals.output
    rw [if_pos phase]
    exact ⟨_, rfl, tasksDone⟩
  obtain ⟨output, printed, one⟩ := ended
  refine ⟨s, output, reached, printed, stop, completions, (tasksDone_printed output _).mpr (by rw [one]), ?_⟩
  rw [fits_iff, one, State.completedBy, completions, stop]
  decide +kernel

end RepidBench.ReportedWork
