import RepidBench.LatencyRun
import RepidBench.RoundTrip

/-!
What a run at a controlled arrival rate reports hangs together: its samples are of
measured messages and fit the file, its backlog is what was missing when it was
computed, and a run that ends ok reports exactly the samples recorded.
-/
namespace RepidBench.LatencyConsistency
open Transition Cutoff RunnerOutput RepidBench.Runtime Polling LatencyRun RoundTrip

/-! ## What is printed -/

/-- The result lines that are quantiles of the latencies. -/
def percentiles : List (String × ℚ) := [("LATENCY_P50", 0.5), ("LATENCY_P95", 0.95), ("LATENCY_P99", 0.99)]

theorem status_printed (d : Latency) (word : String) :
    .status word ∈ (Output.latency d).prints ↔ word = d.status := by
  have silent (line : Publishing.Printed) : loopPrint line ≠ .status word := by
    cases line <;> simp [loopPrint]
  have tail : .status word ∉ printLatencyResults d.latencies := by
    unfold printLatencyResults
    split_ifs <;> simp
  show .status word ∈ d.prints ↔ word = d.status
  unfold Latency.prints
  cases d.warmup <;> simp [printLatencyControlledResults, eraser, silent, tail]

/-- The counts of a latency run, each on its line. -/
theorem counts_printed (d : Latency) (value : Number) :
    (.report "TASKS_DONE" value ∈ (Output.latency d).prints ↔ value = .count d.samples) ∧
    (.report "TOTAL_MESSAGES" value ∈ (Output.latency d).prints ↔ value = .count d.measurementMessages) ∧
    (.report "LATENCY_BACKLOG_AT_MEASUREMENT_END" value ∈ (Output.latency d).prints ↔
      value = .count d.backlogAtMeasurementEnd) := by
  have distinct := Output.tags_nodup (.latency d)
  refine ⟨report_unique distinct ?_, report_unique distinct ?_, report_unique distinct ?_⟩
  all_goals simp [Output.prints, Latency.prints, printLatencyControlledResults]

/-- The latencies of a run with at least one, counted and summed up. -/
theorem latencies_printed (d : Latency) (measured : d.latencies ≠ []) (value : Number) :
    (.report "LATENCY_SAMPLES" value ∈ (Output.latency d).prints ↔ value = .count d.latencies.length) ∧
    ∀ tag fraction, (tag, fraction) ∈ percentiles →
      (.report tag value ∈ (Output.latency d).prints ↔
        value = .decimal 4 (quantile (d.latencies.mergeSort (· ≤ ·)) fraction)) := by
  have distinct := Output.tags_nodup (.latency d)
  have printed {print : Print} (member : print ∈ printLatencyResults d.latencies) :
      print ∈ (Output.latency d).prints := List.mem_append_right _ member
  constructor
  · refine report_unique distinct (printed ?_)
    simp [printLatencyResults, measured]
  · intro tag fraction member
    refine report_unique distinct (printed ?_)
    simp only [percentiles, List.mem_cons, Prod.mk.injEq, List.not_mem_nil, or_false] at member
    rcases member with ⟨rfl, rfl⟩ | ⟨rfl, rfl⟩ | ⟨rfl, rfl⟩ <;> simp [printLatencyResults, measured]

/-- What is printed when the samples, the messages and the latencies are as many. -/
theorem agreement_printed (d : Latency) {count : Nat} (positive : 0 < count) (samples : d.samples = count)
    (messages : d.measurementMessages = count) (length : d.latencies.length = count) :
    (∀ tag ∈ ["TASKS_DONE", "TOTAL_MESSAGES", "LATENCY_SAMPLES"], ∀ value,
      .report tag value ∈ (Output.latency d).prints ↔ value = .count count) ∧
    ∀ tag fraction, (tag, fraction) ∈ percentiles → ∀ value, .report tag value ∈ (Output.latency d).prints ↔
      value = .decimal 4 (quantile (d.latencies.mergeSort (· ≤ ·)) fraction) := by
  have measured : d.latencies ≠ [] := List.ne_nil_of_length_pos (length ▸ positive)
  refine ⟨?_, fun tag fraction member value => (latencies_printed d measured value).2 tag fraction member⟩
  intro tag member value
  obtain ⟨done, total, _⟩ := counts_printed d value
  have counted := (latencies_printed d measured value).1
  rw [samples] at done
  rw [messages] at total
  rw [length] at counted
  simp only [List.mem_cons, List.not_mem_nil, or_false] at member
  rcases member with rfl | rfl | rfl
  · exact done
  · exact total
  · exact counted

/-! ## Every run -/

variable {cfg : BenchmarkConfig} {clock : ℚ} {trace : List (Label ℚ (Nat × SharedFiles.Action Sample) Reply)}
  {s : State ℚ Shared Locals}

theorem measurementMessages_pos (cfg : BenchmarkConfig) : 0 < measurementMessages cfg := by
  unfold measurementMessages
  omega

/-- A backlog is what was missing in the state in which it was computed. -/
theorem backlog_occurs (executed : run (system cfg).step (init cfg clock) trace = some s) {backlog : ℤ}
    (bound : s.runner.backlogAtMeasurementEnd = some backlog) :
    Occurs (system cfg).step (fun m _ => m.runner.phase = .backlog ∧
      backlog = measurementMessages cfg - m.shared.files.recorded.length) (init cfg clock) trace := by
  have assigned : Occurs (system cfg).step (fun m _ => m.runner.phase = .backlog ∧
      backlog = max 0 (measurementMessages cfg - m.shared.files.header)) (init cfg clock) trace := by
    refine occurs_assigned (fun s => s.runner.backlogAtMeasurementEnd)
      (fun (m : State ℚ Shared Locals) _ b => m.runner.phase = .backlog ∧
        b = max 0 (measurementMessages cfg - m.shared.files.header)) ?_ rfl executed bound
    intro m a n stepped
    cases System.step_cases stepped with
    | pass | work => exact .inl rfl
    | runner reply shared runner ran =>
      rcases runner_backlog ran with same | ⟨b, bound, phase, value⟩
      · exact .inl same
      · exact .inr ⟨b, bound, phase, value⟩
  refine assigned.mono ?_
  rintro past m a reached ⟨phase, value⟩
  have kept := (run_kept reached).1
  have length := kept.files.recorded_length
  have within := kept.header_le
  exact ⟨phase, by omega⟩

/-- In every run, at any rate and however the publisher, the workers and the runner
    are interleaved: every sample is of a message to measure, none of a warm-up
    message; no count read, and no list of latencies read, exceeds the number of
    these messages; the backlog is between 0 and that number, and what was missing
    when it was computed; and when the status printed is ok, the counts printed are
    that number, and the percentiles are those of the samples recorded. -/
theorem latency_run_consistent (cfg : BenchmarkConfig) (clock : ℚ)
    (trace : List (Label ℚ (Nat × SharedFiles.Action Sample) Reply)) (s : State ℚ Shared Locals)
    (executed : run (system cfg).step (init cfg clock) trace = some s) :
    (∀ sample ∈ s.shared.files.recorded, OfMeasured s.shared.published sample) ∧
    (s.runner.samplesAtMeasurementEnd ≤ measurementMessages cfg ∧ s.runner.samples ≤ measurementMessages cfg ∧
      s.runner.latencies.length ≤ measurementMessages cfg) ∧
    (∀ backlog, s.runner.backlogAtMeasurementEnd = some backlog →
      (0 ≤ backlog ∧ backlog ≤ measurementMessages cfg) ∧
      Occurs (system cfg).step (fun m _ => m.runner.phase = .backlog ∧
        backlog = measurementMessages cfg - m.shared.files.recorded.length) (init cfg clock) trace) ∧
    (∀ output, s.runner.output cfg = some output →
      (∃ backlog, s.runner.backlogAtMeasurementEnd = some backlog ∧
        ∀ value, .report "LATENCY_BACKLOG_AT_MEASUREMENT_END" value ∈ output.prints ↔
          value = .count backlog.toNat) ∧
      (.status "ok" ∈ output.prints →
        s.shared.files.recorded.length = measurementMessages cfg ∧
        (∀ tag ∈ ["TASKS_DONE", "TOTAL_MESSAGES", "LATENCY_SAMPLES"], ∀ value,
          .report tag value ∈ output.prints ↔ value = .count (measurementMessages cfg)) ∧
        ∀ tag fraction, (tag, fraction) ∈ percentiles → ∀ value, .report tag value ∈ output.prints ↔
          value = .decimal 4
            (quantile ((s.shared.files.recorded.map Sample.latency).mergeSort (· ≤ ·)) fraction))) := by
  obtain ⟨kept, knows⟩ := run_kept executed
  have length := kept.files.recorded_length
  have within := kept.header_le
  refine ⟨kept.recorded, ⟨knows.samplesAtEnd.2, knows.samples.2, ?_⟩, ?_, ?_⟩
  · have fewer := knows.latencies.length_le
    omega
  · intro backlog bound
    have value := knows.backlog backlog bound
    have read := knows.samplesAtEnd
    exact ⟨⟨by omega, by omega⟩, backlog_occurs executed bound⟩
  · intro output ended
    unfold Locals.output at ended
    split at ended
    case h_2 => cases ended
    case h_1 backlog phase bound =>
      cases ended
      refine ⟨⟨backlog, bound, fun value => (counts_printed _ value).2.2⟩, ?_⟩
      intro ok
      have inTime : s.runner.timedOut = false := by
        have word := (status_printed _ "ok").mp ok
        by_contra late
        simp [late] at word
      have full := knows.full inTime
      rw [phase] at full
      obtain ⟨all, read, same⟩ := full
      have count : s.shared.files.recorded.length = measurementMessages cfg := by omega
      have positive : 0 < measurementMessages cfg := measurementMessages_pos cfg
      rw [← same] at count ⊢
      refine ⟨count, agreement_printed _ positive ?_ rfl ?_⟩
      · show s.runner.samples.toNat = measurementMessages cfg
        omega
      · rw [List.length_map, count]

/-- A warm-up message, and one to measure whose sample is stored after the backlog
    is computed and before the runner polls. -/
theorem latency_run_one_sample :
    let cfg : BenchmarkConfig := { oneWorker with
      mode := .latency
      latencyArrivalRate := 1
      latencyWarmupSeconds := 1
      latencyMeasurementSeconds := 1 }
    let sample : Sample := ⟨some (.stamp 1 true 2), 1⟩
    let runner (n : Nat) : List (Label ℚ (Nat × SharedFiles.Action Sample) Reply) :=
      List.replicate n (.runner .returned)
    let trace := runner 7 ++ [.pass 2] ++ runner 2 ++ [.pass 3] ++
      [.work (0, .openLatency sample), .work (0, .lockLatency sample), .work (0, .loadHeader), .work (0, .storeSlot)] ++
      runner 3 ++ [.work (0, .storeHeader sample)] ++ runner 7
    ∃ s output, run (system cfg).step (init cfg 0) trace = some s ∧ s.runner.output cfg = some output ∧
      (∀ value, .report "LATENCY_SAMPLES" value ∈ output.prints ↔ value = .count 1) ∧
      (∀ value, .report "LATENCY_BACKLOG_AT_MEASUREMENT_END" value ∈ output.prints ↔ value = .count 1) := by
  intro cfg sample runner trace
  have executed : (run (system cfg).step (init cfg 0) trace).map
        (fun s => (s.runner.phase, s.runner.timedOut, s.runner.backlogAtMeasurementEnd)) =
      some (.done, false, some 1) := by decide +kernel
  obtain ⟨s, reached, locals⟩ := Option.map_eq_some_iff.mp executed
  simp only [Prod.mk.injEq] at locals
  obtain ⟨phase, inTime, bound⟩ := locals
  have ended : ∃ output, s.runner.output cfg = some output ∧ .status "ok" ∈ output.prints := by
    unfold Locals.output
    rw [phase, bound]
    exact ⟨_, rfl, (status_printed _ _).mpr (by simp [inTime])⟩
  obtain ⟨output, printed, ok⟩ := ended
  obtain ⟨⟨backlog, same, value⟩, agrees⟩ := (latency_run_consistent cfg 0 trace s reached).2.2.2 output printed
  cases bound.symm.trans same
  have one : measurementMessages cfg = 1 := by decide +kernel
  have samples := (agrees ok).2.1 "LATENCY_SAMPLES" (by simp)
  rw [one] at samples
  exact ⟨s, output, reached, printed, samples, value⟩

end RepidBench.LatencyConsistency
