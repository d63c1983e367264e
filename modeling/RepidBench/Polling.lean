import RepidBench.Cutoff
import RepidBench.RunnerOutput
import RepidBench.Runtime
import RepidBench.SharedFiles

/-!
The runs that drain a queue while a runner polls the counter of its workers:
`_run_value_counter` and `_run_mmap_counter` around the loops `report_value` and
`report_mmap`, which are the same loop over two counters. Every statement that
reads the clock or the counter is one step, so workers proceed between any two.
-/
namespace RepidBench.Polling
open Transition Cutoff Decimal RunnerOutput RepidBench.Runtime

/-! ## Counters -/

/-- What the workers of a run count their tasks with. -/
structure Counter (σ α : Type) where
  start : σ
  step : σ → α → Option σ
  completes : α → Bool
  count : σ → Nat
  start_count : count start = 0
  step_count : ∀ {s a t}, step s a = some t → count t = count s + if completes a then 1 else 0

/-- `Value(ctypes.c_long, 0)`: `counter.value += 1` under its lock, which a reader
    of `counter.value` takes too. -/
def valueCounter : Counter Nat Unit where
  start := 0
  step count _ := some (count + 1)
  completes _ := true
  count count := count
  start_count := rfl
  step_count := by
    rintro count ⟨⟩ t stepped
    cases stepped
    rfl

/-- The states of the shared files that workers reach. -/
abbrev Files := { s : SharedFiles.State ℚ // SharedFiles.Inv s ∧ 0 ≤ s.counter }

theorem files_step {s t : SharedFiles.State ℚ} {a : SharedFiles.Label ℚ} (inv : SharedFiles.Inv s ∧ 0 ≤ s.counter)
    (stepped : SharedFiles.step s a = some t) : SharedFiles.Inv t ∧ 0 ≤ t.counter := by
  obtain ⟨after, grows⟩ := SharedFiles.step_inv inv.1 stepped
  exact ⟨after, inv.2.trans grows.counter⟩

def fileStep (s : Files) (a : SharedFiles.Label ℚ) : Option Files :=
  match stepped : SharedFiles.step s.1 a with
  | none => none
  | some t => some ⟨t, files_step s.2 stepped⟩

theorem fileStep_val {s t : Files} {a : SharedFiles.Label ℚ} (stepped : fileStep s a = some t) :
    SharedFiles.step s.1 a = some t.1 := by
  unfold fileStep at stepped
  split at stepped
  · cases stepped
  · cases stepped
    assumption

/-- The counter file, which `counter_incr_mmap` updates: a task is completed when
    its increment is stored. -/
def fileCounter : Counter Files (SharedFiles.Label ℚ) where
  start := ⟨SharedFiles.init 0 0, SharedFiles.init_inv 0 0, le_rfl⟩
  step := fileStep
  completes a := SharedFiles.increments a = 1
  count s := s.1.counter.toNat
  start_count := rfl
  step_count := by
    intro s a t stepped
    have stored := (SharedFiles.step_stores s.2.1 (fileStep_val stepped)).1
    have nonneg := s.2.2
    by_cases one : SharedFiles.increments a = 1
    · simp only [one, decide_true, if_true]
      omega
    · have still : SharedFiles.increments a = 0 := by
        unfold SharedFiles.increments at one ⊢
        split at one
        · exact absurd rfl one
        · rfl
      simp only [one, decide_false, Bool.false_eq_true, if_false]
      omega

/-! ## Milestones -/

def milestonePoints : List (Milestone × ℚ) :=
  [(.m50, 0.50), (.m90, 0.90), (.m95, 0.95), (.m98, 0.98), (.m99, 0.99), (.m995, 0.995)]

/-- `round(count * fraction)`, of a count and a fraction that are not negative. -/
def partOf (count : Nat) (fraction : ℚ) : Nat := (roundHalfEven (count * fraction)).toNat

/-- The loop of `_milestone_thresholds`, with the thresholds seen so far. -/
def thresholdsOf (total : Nat) (seen : List Nat) : List (Milestone × ℚ) → List (Milestone × Nat)
  | [] => []
  | (label, fraction) :: rest =>
    let threshold := min total (max 1 (partOf total fraction))
    if threshold ∉ seen ∧ threshold < total then
      (label, threshold) :: thresholdsOf total (threshold :: seen) rest
    else thresholdsOf total seen rest

/-- `_milestone_thresholds`. -/
def milestoneThresholds (total : Nat) : List (Milestone × Nat) :=
  thresholdsOf total [] milestonePoints ++ [(.m100, total)]

/-- `_record_milestones`, which stamps all that one count reaches with one instant. -/
def recordMilestones (count : Nat) (elapsed : ℚ) :
    List (Milestone × Nat) → Milestones → List (Milestone × Nat) × Milestones
  | [], milestones => ([], milestones)
  | (label, threshold) :: rest, milestones =>
    if threshold ≤ count then recordMilestones count elapsed rest (Function.update milestones label (some elapsed))
    else ((label, threshold) :: rest, milestones)

/-! ## A drain -/

/-- What a call outside the model returns, or that it raises. -/
inductive Reply
  | returned
  | published (lines : List PublishPrint)
  | metrics (report : QueueReport)
  | raised
  deriving DecidableEq, Repr

/-- The statement that the runner of a drain is at. -/
inductive Drain.Phase
  | enqueue | startWorkers | waitForConsumers | start | publish
  | poll | record | first | check | reread | rerecord
  | takeEnd | stopWorkers | purge | done | failed
  deriving DecidableEq, Repr

/-- The locals of `_run_value_counter` and `report_value`; `stop` is `end`. -/
structure Drain.Locals where
  phase : Drain.Phase
  publishing : List PublishPrint := []
  start : ℚ := 0
  firstMessageTime : Option ℚ := none
  thresholds : List (Milestone × Nat)
  milestones : Milestones := fun _ => none
  count : Nat := 0
  elapsed : ℚ := 0
  polls : List (Nat × ℚ) := []
  tasksDone : Nat := 0
  timedOut : Bool := false
  stop : ℚ := 0

namespace Drain

/-- `cfg.mode in {"base", "hc", "cpu", "nogt"}`. -/
def publishFirst (cfg : BenchmarkConfig) : Bool := cfg.mode ∈ [Mode.base, .hc, .cpu, .nogt]

def Locals.init (cfg : BenchmarkConfig) : Locals where
  phase := if publishFirst cfg then .enqueue else .startWorkers
  thresholds := milestoneThresholds cfg.messages

/-- `_record_milestones(count, start, thresholds, milestones)`. -/
def Locals.recorded (d : Locals) (now : ℚ) (count : Nat) : Locals :=
  let (thresholds, milestones) := recordMilestones count (now - d.start) d.thresholds d.milestones
  { d with thresholds := thresholds, milestones := milestones }

/-- One statement of the runner, at the instant `now` with `count` tasks counted. -/
def runner (cfg : BenchmarkConfig) (now : ℚ) (count : Nat) (d : Locals) (reply : Reply) : Option Locals :=
  match d.phase, reply with
  | .enqueue, .published lines => some { d with phase := .startWorkers, publishing := lines }
  | .startWorkers, .returned =>
    some { d with phase := if publishFirst cfg then .start else .waitForConsumers }
  | .waitForConsumers, .returned => some { d with phase := .start }
  | .start, .returned => some { d with phase := if publishFirst cfg then .poll else .publish, start := now }
  | .publish, .published lines => some { d with phase := .poll, publishing := lines }
  | .enqueue, .raised | .startWorkers, .raised | .waitForConsumers, .raised | .publish, .raised =>
    some { d with phase := .failed }
  | .poll, .returned => some { d with phase := .record, count := count }
  | .record, .returned => some { d.recorded now d.count with phase := .first }
  | .first, .returned =>
    some { d with
      phase := .check
      firstMessageTime := if d.firstMessageTime = none ∧ 0 < d.count then some now else d.firstMessageTime }
  | .check, .returned =>
    if cfg.messages ≤ d.count then some { d with phase := .takeEnd, tasksDone := cfg.messages }
    else
      let elapsed := now - d.start
      if cfg.timeLimit ≤ elapsed then some { d with phase := .reread, elapsed := elapsed, timedOut := true }
      else some { d with phase := .poll, elapsed := elapsed, polls := d.polls ++ [(d.count, elapsed)] }
  | .reread, .returned => some { d with phase := .rerecord, tasksDone := count }
  | .rerecord, .returned => some { d.recorded now d.tasksDone with phase := .takeEnd }
  | .takeEnd, .returned => some { d with phase := .stopWorkers, stop := now }
  | .stopWorkers, .returned => some { d with phase := if d.timedOut then .purge else .done }
  | .purge, .returned => some { d with phase := .done }
  -- a process that is not reaped after its SIGKILL
  | .stopWorkers, .raised => some { d with phase := .failed }
  | _, _ => none

/-- The statements of the runner, one by one. -/
inductive Ran (cfg : BenchmarkConfig) (now : ℚ) (count : Nat) (d : Locals) : Locals → Prop
  | before (next : Phase) (publishing : List PublishPrint)
      (at_ : d.phase = .enqueue ∨ d.phase = .startWorkers ∨ d.phase = .waitForConsumers)
      (after : next = .startWorkers ∨ next = .waitForConsumers ∨ next = .start ∨ next = .failed) :
      Ran cfg now count d { d with phase := next, publishing := publishing }
  | start (next : Phase) (at_ : d.phase = .start) (after : next = .poll ∨ next = .publish) :
      Ran cfg now count d { d with phase := next, start := now }
  | publish (next : Phase) (publishing : List PublishPrint) (at_ : d.phase = .publish)
      (after : next = .poll ∨ next = .failed) :
      Ran cfg now count d { d with phase := next, publishing := publishing }
  | poll (at_ : d.phase = .poll) : Ran cfg now count d { d with phase := .record, count := count }
  | record (at_ : d.phase = .record) : Ran cfg now count d { d.recorded now d.count with phase := .first }
  | first (firstMessageTime : Option ℚ) (at_ : d.phase = .first) :
      Ran cfg now count d { d with phase := .check, firstMessageTime := firstMessageTime }
  | reached (at_ : d.phase = .check) (enough : cfg.messages ≤ d.count) :
      Ran cfg now count d { d with phase := .takeEnd, tasksDone := cfg.messages }
  | expired (elapsed : ℚ) (at_ : d.phase = .check) (few : d.count < cfg.messages) :
      Ran cfg now count d { d with phase := .reread, elapsed := elapsed, timedOut := true }
  | again (elapsed : ℚ) (polls : List (Nat × ℚ)) (at_ : d.phase = .check) (few : d.count < cfg.messages) :
      Ran cfg now count d { d with phase := .poll, elapsed := elapsed, polls := polls }
  | reread (at_ : d.phase = .reread) : Ran cfg now count d { d with phase := .rerecord, tasksDone := count }
  | rerecord (at_ : d.phase = .rerecord) : Ran cfg now count d { d.recorded now d.tasksDone with phase := .takeEnd }
  | takeEnd (at_ : d.phase = .takeEnd) : Ran cfg now count d { d with phase := .stopWorkers, stop := now }
  | after (next : Phase) (at_ : d.phase = .stopWorkers ∨ d.phase = .purge)
      (after : next = .purge ∨ next = .done ∨ next = .failed) : Ran cfg now count d { d with phase := next }

theorem runner_cases {cfg : BenchmarkConfig} {now : ℚ} {count : Nat} {d e : Locals} {reply : Reply}
    (ran : runner cfg now count d reply = some e) : Ran cfg now count d e := by
  unfold runner at ran
  split at ran
  case h_1 phase => cases ran; exact .before _ _ (by simp [phase]) (by simp)
  case h_2 phase => cases ran; exact .before _ _ (by simp [phase]) (by split_ifs <;> simp)
  case h_3 phase => cases ran; exact .before _ _ (by simp [phase]) (by simp)
  case h_4 phase => cases ran; exact .start _ phase (by split_ifs <;> simp)
  case h_5 phase => cases ran; exact .publish _ _ phase (by simp)
  case h_6 phase => cases ran; exact .before _ _ (by simp [phase]) (by simp)
  case h_7 phase => cases ran; exact .before _ _ (by simp [phase]) (by simp)
  case h_8 phase => cases ran; exact .before _ _ (by simp [phase]) (by simp)
  case h_9 phase => cases ran; exact .publish _ _ phase (by simp)
  case h_10 phase => cases ran; exact .poll phase
  case h_11 phase => cases ran; exact .record phase
  case h_12 phase => cases ran; exact .first _ phase
  case h_13 phase =>
    by_cases enough : cfg.messages ≤ d.count
    · rw [if_pos enough] at ran
      cases ran
      exact .reached phase enough
    · rw [if_neg enough] at ran
      by_cases late : cfg.timeLimit ≤ now - d.start
      · simp only [if_pos late] at ran
        cases ran
        exact .expired _ phase (not_le.mp enough)
      · simp only [if_neg late] at ran
        cases ran
        exact .again _ _ phase (not_le.mp enough)
  case h_14 phase => cases ran; exact .reread phase
  case h_15 phase => cases ran; exact .rerecord phase
  case h_16 phase => cases ran; exact .takeEnd phase
  case h_17 phase => cases ran; exact .after _ (by simp [phase]) (by split_ifs <;> simp)
  case h_18 phase => cases ran; exact .after _ (by simp [phase]) (by simp)
  case h_19 phase => cases ran; exact .after _ (by simp [phase]) (by simp)
  case h_20 => cases ran

/-- Worker processes are there from `_start_workers` to `_stop_workers`. -/
def running (d : Locals) : Bool := d.phase ∉ [Phase.enqueue, .purge, .done, .failed]

/-- What the runner has printed at its end. -/
def Locals.output (cfg : BenchmarkConfig) (d : Locals) : Option Output :=
  if d.phase = .done then
    some (.drain {
      publishFirst := publishFirst cfg
      publishing := d.publishing
      polls := d.polls
      milestones := d.milestones
      timeLimit := if d.timedOut then some d.elapsed else none
      tasksDone := d.tasksDone
      total := cfg.messages
      duration := d.stop - d.start
      status := if d.timedOut then "timeout" else "ok" })
  else none

variable {σ α : Type}

/-- A drain whose workers count with `counter`. -/
def system (counter : Counter σ α) (cfg : BenchmarkConfig) : System ℚ σ α Locals Reply where
  work _ s a := counter.step s a
  completes := counter.completes
  count := counter.count
  runner now s d reply := (runner cfg now (counter.count s) d reply).map (fun d => (s, d))
  running := running

def init (counter : Counter σ α) (cfg : BenchmarkConfig) (clock : ℚ) : State ℚ σ Locals :=
  ⟨clock, counter.start, .init cfg, []⟩

/-! ## What the runner has read -/

/-- What the runner has read is still counted, up to the end that it takes. -/
def Read (count : Nat) (d : Locals) : Prop :=
  (d.phase ∈ [Phase.record, .first, .check] → d.count ≤ count) ∧
  (d.phase ∈ [Phase.rerecord, .takeEnd] → d.tasksDone ≤ count)

def view (d : Locals) : View ℚ :=
  match d.phase with
  | .stopWorkers | .purge | .done => .reported d.stop d.tasksDone
  | .failed => .failed
  | _ => .before

theorem runner_read {cfg : BenchmarkConfig} {now : ℚ} {count : Nat} {d e : Locals} {reply : Reply}
    (read : Read count d) (ran : runner cfg now count d reply = some e) :
    Read count e ∧ View.Next now count cfg.messages (view d) (view e) := by
  obtain ⟨counted, final⟩ := read
  unfold runner at ran
  split at ran
  -- the total is reached, the time limit is, or the runner polls again
  case h_13 phase =>
    have few : d.count ≤ count := counted (by simp [phase])
    by_cases reached : cfg.messages ≤ d.count
    · rw [if_pos reached] at ran
      cases ran
      simp [Read, view, phase, reached.trans few]
    · rw [if_neg reached] at ran
      by_cases expired : cfg.timeLimit ≤ now - d.start
      · simp only [if_pos expired] at ran
        cases ran
        simp [Read, view, phase]
      · simp only [if_neg expired] at ran
        cases ran
        simp [Read, view, phase]
  -- the end is taken after what is reported was read
  case h_16 phase =>
    cases ran
    have read : d.tasksDone ≤ count := final (by simp [phase])
    simpa [Read, view, phase] using View.Next.report d.tasksDone read
  all_goals cases ran
  all_goals by_cases first : publishFirst cfg = true
  all_goals by_cases late : d.timedOut = true
  all_goals simp_all [Read, view, Locals.recorded]

/-- A drain takes its end after the count that it reports. -/
def polls (counter : Counter σ α) (cfg : BenchmarkConfig) : Polls (system counter cfg) cfg.messages where
  view := view
  Inv s d := Read (counter.count s) d
  worked := by
    intro now s d a t read stepped
    have counted := counter.step_count stepped
    refine ⟨⟨fun phase => (read.1 phase).trans ?_, fun phase => (read.2 phase).trans ?_⟩, counted⟩
    all_goals omega
  ran := by
    intro now s d reply next read ran
    obtain ⟨e, moved, rfl⟩ := Option.map_eq_some_iff.mp ran
    obtain ⟨after, next⟩ := runner_read read moved
    exact ⟨after, rfl, next⟩

theorem init_read (cfg : BenchmarkConfig) (count : Nat) : Read count (.init cfg) ∧ view (.init cfg) = .before := by
  by_cases first : publishFirst cfg = true <;> simp [Read, view, Locals.init, first]

/-- The number that a drain reports is completed by the end of its duration. -/
theorem tasksDone_le (counter : Counter σ α) (cfg : BenchmarkConfig) {clock : ℚ}
    {trace : List (Label ℚ α Reply)} {s : State ℚ σ Locals}
    (executed : run (system counter cfg).step (init counter cfg clock) trace = some s)
    (done : s.runner.phase = .done) : s.runner.tasksDone ≤ s.completedBy s.runner.stop := by
  have prompt : ∀ d stop, view d ≠ .late stop := by
    intro d stop
    unfold view
    split <;> simp
  have reported : view s.runner = .reported s.runner.stop s.runner.tasksDone := by simp [view, done]
  obtain ⟨read, begins⟩ := init_read cfg (counter.count counter.start)
  exact (polls counter cfg).reported_le prompt executed read rfl counter.start_count begins reported

end Drain

/-- One worker process with one slot, and a time limit of one second. -/
def oneWorker : BenchmarkConfig where
  name := "repid"
  framework := .repid
  mode := .base
  taskKind := .io
  queueName := "repid_bench"
  messages := 1
  sleepTime := 0
  timeLimit := 1
  processes := 1
  concurrency := 1
  publishConcurrency := 1
  publishWorkers := 1
  enqueueBatchSize := 1
  greenThreads := false
  burstSize := 1
  burstInterval := 0

end RepidBench.Polling
