import RepidBench.Polling
import RepidBench.Publishers
import RepidBench.Sampling

/-!
The run over a fixed window: `_run_steady`. Publishers and workers go on while its
loop polls the clock, the counter and then the publisher processes; the loop is left
when the window is over, when the source is exhausted or when a publisher has failed,
and tests for these in that order.
-/
namespace RepidBench.SteadyRun
open Transition Cutoff RunnerOutput RepidBench.Runtime Polling Sampling

/-! ## Publishers -/

/-- What the workers count, and the exit codes of the publisher processes; `none`
    is a process that `poll()` finds running. -/
structure Shared (σ : Type) where
  counter : σ
  publishers : List (Option ℤ)

inductive Action (α : Type)
  | worker (a : α)
  | exit (publisher : Nat) (code : ℤ)
  deriving DecidableEq

/-- `proc.poll() not in (None, 0)`. -/
def failedCode (code : Option ℤ) : Bool := code ≠ none && code ≠ some 0

/-- The publisher processes that `_start_publishers` starts. -/
def publisherCount (cfg : BenchmarkConfig) : Nat :=
  (Publishers.splitMessages cfg.messages cfg.publishProcesses).length

variable {σ α : Type}

def work (counter : Counter σ α) (s : Shared σ) : Action α → Option (Shared σ)
  | .worker a => (counter.step s.counter a).map (fun next => { s with counter := next })
  | .exit i code =>
    if s.publishers[i]? = some none then some { s with publishers := s.publishers.set i (some code) } else none

def completes (counter : Counter σ α) : Action α → Bool
  | .worker a => counter.completes a
  | .exit _ _ => false

/-! ## The runner -/

/-- The statement that the runner is at; `publishers` has the process that is polled next. -/
inductive Phase
  | startWorkers | waitForConsumers | start | startPublishers
  | clock | count | test | publishers (next : Nat)
  | report | cleanup | stopWorkers | done | failed
  deriving DecidableEq, Repr

/-- The locals of `_run_steady`. -/
structure Locals where
  phase : Phase := .startWorkers
  start : ℚ := 0
  now : ℚ := 0
  count : Nat := 0
  warmupCount : Option Nat := none
  status : String := "ok"
  lastCount : ℤ := -1
  progress : List (Nat × Bool × ℚ) := []
  endCount : Nat := 0
  measuredTasks : Nat := 0

def warmupEnd (cfg : BenchmarkConfig) (start : ℚ) : ℚ := start + cfg.steadyWarmupSeconds
def measurementEnd (cfg : BenchmarkConfig) (start : ℚ) : ℚ := warmupEnd cfg start + cfg.steadyMeasurementSeconds

/-- The sample of the warm-up, which is taken once. -/
def Locals.marked (cfg : BenchmarkConfig) (d : Locals) : Locals :=
  { d with warmupCount := if d.warmupCount = none ∧ warmupEnd cfg d.start ≤ d.now then some d.count else d.warmupCount }

/-- The line of progress, when the count has changed. -/
def Locals.printed (d : Locals) : Locals :=
  if (d.count : ℤ) ≠ d.lastCount then
    { d with progress := d.progress ++ [(d.count, d.warmupCount.isSome, d.now - d.start)], lastCount := d.count }
  else d

/-- `break`, with the status and the count that the loop ends with. -/
def Locals.leave (d : Locals) (status : String) : Locals :=
  { d with phase := .report, status := status, endCount := d.count }

/-- `if warmup_count is None: warmup_count = count`. -/
def Locals.orCount (d : Locals) (count : Nat) : Locals :=
  { d with warmupCount := d.warmupCount.or (some count) }

/-- The tests of the loop after the count is read, up to the one of the publishers. -/
def tested (cfg : BenchmarkConfig) (d : Locals) : Locals :=
  let d := (d.marked cfg).printed
  if measurementEnd cfg d.start ≤ d.now then d.leave "ok"
  else if cfg.messages ≤ d.count then (d.leave "exhausted").orCount d.count
  else { d with phase := .publishers 0 }

/-- `measured_tasks = max(0, end_count - warmup_count)`. -/
def Locals.measured (d : Locals) : Locals :=
  let d := d.orCount d.endCount
  { d with phase := .cleanup, measuredTasks := d.endCount - d.warmupCount.getD 0 }

/-- One statement of the runner, at the instant `now`. -/
def runner (counter : Counter σ α) (cfg : BenchmarkConfig) (now : ℚ) (s : Shared σ) (d : Locals) (reply : Reply) :
    Option (Shared σ × Locals) :=
  match d.phase, reply with
  | .startWorkers, .returned => some (s, { d with phase := .waitForConsumers })
  | .waitForConsumers, .returned => some (s, { d with phase := .start })
  | .start, .returned => some (s, { d with phase := .startPublishers, start := now })
  | .startPublishers, .returned =>
    some ({ s with publishers := List.replicate (publisherCount cfg) none }, { d with phase := .clock })
  | .startWorkers, .raised | .waitForConsumers, .raised | .startPublishers, .raised =>
    some (s, { d with phase := .failed })
  | .clock, .returned => some (s, { d with phase := .count, now := now })
  | .count, .returned => some (s, { d with phase := .test, count := counter.count s.counter })
  | .test, .returned => some (s, tested cfg d)
  | .publishers i, .returned =>
    match s.publishers[i]? with
    | none => some (s, { d with phase := .clock })
    | some code =>
      if failedCode code then some (s, (d.leave "error").orCount d.count)
      else some (s, { d with phase := .publishers (i + 1) })
  | .report, .returned => some (s, d.measured)
  | .cleanup, .returned => some (s, { d with phase := .stopWorkers })
  | .stopWorkers, .returned => some (s, { d with phase := .done })
  -- what is not reaped after its SIGKILL, a publisher or a worker
  | .cleanup, .raised | .stopWorkers, .raised => some (s, { d with phase := .failed })
  | _, _ => none

def running (d : Locals) : Bool := d.phase ∉ [Phase.done, .failed]

/-- What the runner has printed at its end. -/
def Locals.output (cfg : BenchmarkConfig) (d : Locals) : Option Output :=
  if d.phase = .done then
    some (.steady {
      messages := cfg.messages
      polls := d.progress
      measuredTasks := d.measuredTasks
      endCount := d.endCount
      warmupSeconds := cfg.steadyWarmupSeconds
      measurementSeconds := cfg.steadyMeasurementSeconds
      status := d.status })
  else none

/-- A steady run whose workers count with `counter`. -/
def system (counter : Counter σ α) (cfg : BenchmarkConfig) : System ℚ (Shared σ) (Action α) Locals Reply where
  work _ := work counter
  completes := completes counter
  count s := counter.count s.counter
  runner := runner counter cfg
  running := running

def init (counter : Counter σ α) (clock : ℚ) : State ℚ (Shared σ) Locals := ⟨clock, ⟨counter.start, []⟩, {}, []⟩

theorem work_count {counter : Counter σ α} {s t : Shared σ} {a : Action α} (worked : work counter s a = some t) :
    counter.count t.counter = counter.count s.counter + if completes counter a then 1 else 0 := by
  cases a with
  | worker a =>
    obtain ⟨next, stepped, rfl⟩ := Option.map_eq_some_iff.mp worked
    exact counter.step_count stepped
  | exit i code =>
    obtain ⟨_, made⟩ := Option.ite_none_right_eq_some.mp worked
    cases made
    rfl

/-! ## What one statement can do -/

/-- The statements of the runner, one by one. -/
inductive Ran (counter : Counter σ α) (cfg : BenchmarkConfig) (now : ℚ) (s : Shared σ) (d : Locals) :
    Shared σ → Locals → Prop
  | before (next : Phase) (at_ : d.phase = .startWorkers ∨ d.phase = .waitForConsumers)
      (after : next = .waitForConsumers ∨ next = .start ∨ next = .failed) : Ran counter cfg now s d s { d with phase := next }
  | start (at_ : d.phase = .start) : Ran counter cfg now s d s { d with phase := .startPublishers, start := now }
  | notStarted (at_ : d.phase = .startPublishers) : Ran counter cfg now s d s { d with phase := .failed }
  | started (at_ : d.phase = .startPublishers) : Ran counter cfg now s d
      { s with publishers := List.replicate (publisherCount cfg) none } { d with phase := .clock }
  | clock (at_ : d.phase = .clock) : Ran counter cfg now s d s { d with phase := .count, now := now }
  | count (at_ : d.phase = .count) :
      Ran counter cfg now s d s { d with phase := .test, count := counter.count s.counter }
  | test (at_ : d.phase = .test) : Ran counter cfg now s d s (tested cfg d)
  | polled (i : Nat) (next : Phase) (at_ : d.phase = .publishers i)
      (after : next = .clock ∨ next = .publishers (i + 1)) : Ran counter cfg now s d s { d with phase := next }
  | publisherFailed (i : Nat) (code : Option ℤ) (at_ : d.phase = .publishers i) (found : s.publishers[i]? = some code)
      (failed : failedCode code) : Ran counter cfg now s d s ((d.leave "error").orCount d.count)
  | report (at_ : d.phase = .report) : Ran counter cfg now s d s d.measured
  | after (next : Phase) (at_ : d.phase = .cleanup ∨ d.phase = .stopWorkers)
      (after : next = .stopWorkers ∨ next = .done ∨ next = .failed) :
      Ran counter cfg now s d s { d with phase := next }

theorem runner_cases {counter : Counter σ α} {cfg : BenchmarkConfig} {now : ℚ} {s t : Shared σ} {d e : Locals}
    {reply : Reply} (ran : runner counter cfg now s d reply = some (t, e)) : Ran counter cfg now s d t e := by
  unfold runner at ran
  split at ran
  case h_1 phase => cases ran; exact .before _ (by simp [phase]) (by simp)
  case h_2 phase => cases ran; exact .before _ (by simp [phase]) (by simp)
  case h_3 phase => cases ran; exact .start phase
  case h_4 phase => cases ran; exact .started phase
  case h_5 phase => cases ran; exact .before _ (by simp [phase]) (by simp)
  case h_6 phase => cases ran; exact .before _ (by simp [phase]) (by simp)
  case h_7 phase => cases ran; exact .notStarted phase
  case h_8 phase => cases ran; exact .clock phase
  case h_9 phase => cases ran; exact .count phase
  case h_10 phase => cases ran; exact .test phase
  case h_11 i phase =>
    cases found : s.publishers[i]? with
    | none =>
      simp only [found, Option.some.injEq, Prod.mk.injEq] at ran
      obtain ⟨rfl, rfl⟩ := ran
      exact .polled i _ phase (.inl rfl)
    | some code =>
      simp only [found] at ran
      by_cases failed : failedCode code = true
      · rw [if_pos failed] at ran
        cases ran
        exact .publisherFailed i code phase found failed
      · rw [if_neg failed] at ran
        cases ran
        exact .polled i _ phase (.inr rfl)
  case h_12 phase => cases ran; exact .report phase
  case h_13 phase => cases ran; exact .after _ (by simp [phase]) (by simp)
  case h_14 phase => cases ran; exact .after _ (by simp [phase]) (by simp)
  case h_15 phase => cases ran; exact .after _ (by simp [phase]) (by simp)
  case h_16 phase => cases ran; exact .after _ (by simp [phase]) (by simp)
  case h_17 => cases ran

/-- The tests after the count leave the loop, or go on to the publishers. -/
theorem tested_cases (cfg : BenchmarkConfig) (d : Locals) :
    ∃ progress lastCount, let e := { d.marked cfg with progress := progress, lastCount := lastCount }
      measurementEnd cfg d.start ≤ d.now ∧ tested cfg d = e.leave "ok" ∨
      d.now < measurementEnd cfg d.start ∧ cfg.messages ≤ d.count ∧ tested cfg d = (e.leave "exhausted").orCount d.count ∨
      d.now < measurementEnd cfg d.start ∧ d.count < cfg.messages ∧ tested cfg d = { e with phase := .publishers 0 } := by
  have printed : ∃ progress lastCount, (d.marked cfg).printed =
      { d.marked cfg with progress := progress, lastCount := lastCount } := by
    unfold Locals.printed
    split
    · exact ⟨_, _, rfl⟩
    · exact ⟨_, _, rfl⟩
  obtain ⟨progress, lastCount, same⟩ := printed
  refine ⟨progress, lastCount, ?_⟩
  unfold tested
  simp only [same]
  by_cases closed : measurementEnd cfg d.start ≤ d.now
  · exact .inl ⟨closed, if_pos closed⟩
  · by_cases exhausted : cfg.messages ≤ d.count
    · refine .inr (.inl ⟨not_le.mp closed, exhausted, ?_⟩)
      rw [if_neg (by exact closed), if_pos (by exact exhausted)]
      rfl
    · refine .inr (.inr ⟨not_le.mp closed, not_le.mp exhausted, ?_⟩)
      rw [if_neg (by exact closed), if_neg (by exact exhausted)]

end RepidBench.SteadyRun
