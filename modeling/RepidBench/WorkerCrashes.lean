import RepidBench.BurstRecovery
import RepidBench.LatencyRun
import RepidBench.RunResults
import RepidBench.SteadyRun

/-!
Worker processes that crash beside the runner of any mode. No runner looks at its
worker processes between starting and stopping them, so a crash is reported as an
error exactly when something else is: a call that raises, a failed publisher, or a
signal that ends the runner.
-/
namespace RepidBench.WorkerCrashes
open Transition Cutoff RunnerOutput RepidBench.Runtime Polling RunResults

/-! ## Crashes beside a runner -/

/-- What a mode is for `run_once`: its machine, when its worker processes are
    started and not stopped yet, and how its runner ends. `byWorker` tells the steps
    of worker processes from those of publishers; `fails` is a statement that makes
    the runner fail or report an error. -/
structure Mode (σ α ρ : Type) where
  system : System ℚ σ α ρ Reply
  byWorker : α → Bool
  started : ρ → Bool
  failed : ρ → Bool
  output : ρ → Option Output
  fails : σ → ρ → Reply → Prop

/-- A run with its worker processes, of which those that crashed are not alive. -/
structure State (σ ρ : Type) where
  run : Cutoff.State ℚ σ ρ
  alive : List Bool

inductive Label (α : Type)
  | pass (now : ℚ)
  | runner (reply : Reply)
  | worker (w : Nat) (a : α)
  | publisher (a : α)
  | crash (w : Nat)
  deriving DecidableEq

/-- How `proc.wait(timeout=config.time_limit + 180)` ends: the runner exits, after a
    clean-up of `run` that may itself raise, or a signal ends it at any of its
    statements, or the wait expires. -/
inductive Wait
  | exited
  | cleanupRaised
  | killed
  | expired
  deriving DecidableEq

variable {σ α ρ : Type}

namespace Mode

def proceed (mode : Mode σ α ρ) (s : State σ ρ) (a : Cutoff.Label ℚ α Reply) : Option (State σ ρ) :=
  (mode.system.step s.run a).map (fun run => { s with run := run })

/-- A step of the run, in which a worker process takes part until it crashes. -/
def step (mode : Mode σ α ρ) (s : State σ ρ) : Label α → Option (State σ ρ)
  | .pass now => mode.proceed s (.pass now)
  | .runner reply => mode.proceed s (.runner reply)
  | .worker w a => if s.alive[w]? = some true ∧ mode.byWorker a then mode.proceed s (.work a) else none
  | .publisher a => if mode.byWorker a then none else mode.proceed s (.work a)
  | .crash w =>
    if mode.started s.run.runner ∧ s.alive[w]? = some true then some { s with alive := s.alive.set w false } else none

theorem proceed_steps {mode : Mode σ α ρ} {s t : State σ ρ} {a : Cutoff.Label ℚ α Reply}
    (proceeded : mode.proceed s a = some t) : System.Steps mode.system s.run a t.run := by
  obtain ⟨run, moved, rfl⟩ := Option.map_eq_some_iff.mp proceeded
  exact System.step_cases moved

/-- The exit that `run_once` sees; none while the runner has not ended. -/
def exit (mode : Mode σ α ρ) (d : ρ) : Wait → Option Exit
  | .expired => some .timedOut
  | .killed => some .failed
  | .cleanupRaised => if mode.failed d || (mode.output d).isSome then some .failed else none
  | .exited => if mode.failed d then some .failed else (mode.output d).map (fun o => .finished (stdoutOf o.prints))

/-- The status of what `run_once` returns, if the status line is read back. -/
def returned (mode : Mode σ α ρ) (d : ρ) : Wait → Option String
  | .expired => some "timeout"
  | .killed => some "error"
  | .cleanupRaised => if mode.failed d || (mode.output d).isSome then some "error" else none
  | .exited => if mode.failed d then some "error" else (mode.output d).map Output.status

/-- `run_once` returns that status, whatever well-formed output the runner printed. -/
theorem returned_runOnce {mode : Mode σ α ρ} {d : ρ} {wait : Wait} {status : String}
    (valid : ∀ o, mode.output d = some o → RoundTrip.Valid o) (returned : mode.returned d wait = some status) :
    ∃ exit result, mode.exit d wait = some exit ∧ runOnce exit = some (some result) ∧ result.status = status := by
  cases wait with
  | expired => exact ⟨_, _, rfl, rfl, Option.some.inj returned⟩
  | killed => exact ⟨_, _, rfl, rfl, Option.some.inj returned⟩
  | cleanupRaised =>
    obtain ⟨ended, same⟩ := Option.ite_none_right_eq_some.mp returned
    exact ⟨.failed, _, if_pos ended, rfl, Option.some.inj same⟩
  | exited =>
    unfold Mode.returned at returned
    unfold Mode.exit
    by_cases failed : mode.failed d = true
    · rw [if_pos failed] at returned
      exact ⟨.failed, _, if_pos failed, rfl, Option.some.inj returned⟩
    · rw [if_neg failed] at returned
      obtain ⟨o, printed, rfl⟩ := Option.map_eq_some_iff.mp returned
      obtain ⟨result, read, same, _⟩ := runOnce_output o (valid o printed)
      refine ⟨_, result, ?_, read, same⟩
      rw [if_neg failed, printed]
      rfl

/-- The runner is at a statement that fails. -/
def Fails (mode : Mode σ α ρ) (s : State σ ρ) (a : Label α) : Prop :=
  ∃ reply, a = .runner reply ∧ mode.fails s.run.shared s.run.runner reply

/-- With any number of workers, whatever the run and its crashes: a crash makes
    `run_once` return the status error exactly when the outer wait does not expire
    and the runner fails, in the mode or in the clean-up after it, or is killed. -/
def PropagatesIff (mode : Mode σ α ρ) (start : Cutoff.State ℚ σ ρ) : Prop :=
  ∀ workers trace s wait status,
    run mode.step ⟨start, List.replicate workers true⟩ trace = some s →
    mode.returned s.run.runner wait = some status →
    (((∃ w, .crash w ∈ trace) → status = "error") ↔
      (∀ w, .crash w ∉ trace) ∨ wait = .killed ∨ wait = .cleanupRaised ∨
      wait = .exited ∧ Occurs mode.step mode.Fails ⟨start, List.replicate workers true⟩ trace)

/-- What of the locals tells that the runner has failed or will report an error, and
    what is known of the locals for that. -/
structure Reports (mode : Mode σ α ρ) (Inv marked : ρ → Prop) : Prop where
  ran : ∀ {now s d reply next}, Inv d → mode.system.runner now s d reply = some next →
    Inv next.2 ∧ (marked next.2 ↔ marked d ∨ mode.fails s d reply)
  failed : ∀ {d}, mode.failed d = true → marked d
  printed : ∀ {d o}, Inv d → mode.failed d = false → mode.output d = some o → (o.status = "error" ↔ marked d)

/-- Only a statement of the runner changes its locals. -/
theorem Reports.step {mode : Mode σ α ρ} {Inv marked : ρ → Prop} (reports : Reports mode Inv marked)
    {s t : State σ ρ} {a : Label α} (inv : Inv s.run.runner) (stepped : mode.step s a = some t) :
    Inv t.run.runner ∧ (marked t.run.runner ↔ marked s.run.runner ∨ mode.Fails s a) := by
  have quiet (same : t.run.runner = s.run.runner) (other : ∀ reply, a ≠ .runner reply) :
      Inv t.run.runner ∧ (marked t.run.runner ↔ marked s.run.runner ∨ mode.Fails s a) := by
    refine ⟨same ▸ inv, ?_⟩
    rw [same]
    refine (or_iff_left ?_).symm
    rintro ⟨reply, here, _⟩
    exact other reply here
  have still {b : α} (proceeded : mode.proceed s (.work b) = some t) : t.run.runner = s.run.runner := by
    have steps := proceed_steps proceeded
    generalize t.run = run at steps
    cases steps with
    | work => rfl
  cases a with
  | pass now =>
    have steps := proceed_steps stepped
    generalize t.run = run at steps quiet ⊢
    cases steps with
    | pass => exact quiet rfl (by simp)
  | runner reply =>
    have steps := proceed_steps stepped
    generalize t.run = run at steps ⊢
    cases steps with
    | runner _ shared d ran =>
      obtain ⟨kept, marks⟩ := reports.ran inv ran
      refine ⟨kept, marks.trans (or_congr_right ?_)⟩
      simp [Fails]
  | worker w b =>
    obtain ⟨_, proceeded⟩ := Option.ite_none_right_eq_some.mp stepped
    exact quiet (still proceeded) (by simp)
  | publisher b =>
    obtain ⟨_, proceeded⟩ := Option.ite_none_left_eq_some.mp stepped
    exact quiet (still proceeded) (by simp)
  | crash w =>
    obtain ⟨_, made⟩ := Option.ite_none_right_eq_some.mp stepped
    cases made
    exact quiet rfl (by simp)

theorem Reports.propagatesIff {mode : Mode σ α ρ} {Inv marked : ρ → Prop} (reports : Reports mode Inv marked)
    {start : Cutoff.State ℚ σ ρ} (inv : Inv start.runner) (clean : ¬ marked start.runner) :
    mode.PropagatesIff start := by
  intro workers trace s wait status executed returned
  obtain ⟨kept, marks⟩ := marked_iff_occurs (fun m : State σ ρ => Inv m.run.runner) (fun m => marked m.run.runner)
    (fun m a n inv stepped => reports.step inv stepped) inv clean executed
  have reported : status = "error" ↔
      wait = .killed ∨ wait = .cleanupRaised ∨ wait = .exited ∧ marked s.run.runner := by
    cases wait with
    | expired =>
      cases returned
      simp
    | killed =>
      cases returned
      simp
    | cleanupRaised =>
      obtain ⟨-, same⟩ := Option.ite_none_right_eq_some.mp returned
      simp [← Option.some.inj same]
    | exited =>
      unfold Mode.returned at returned
      by_cases failed : mode.failed s.run.runner = true
      · rw [if_pos failed] at returned
        cases returned
        simp [reports.failed failed]
      · rw [if_neg failed] at returned
        obtain ⟨o, printed, rfl⟩ := Option.map_eq_some_iff.mp returned
        simpa using reports.printed kept (by simpa using failed) printed
  rw [reported, marks]
  refine imp_iff_not_or.trans (or_congr_left ?_)
  exact not_exists

end Mode

/-! ## The modes -/

/-- A run of the modes `base`, `hc`, `cpu` and `nogt`, and of any other that drains. -/
def drain (counter : Counter σ α) (cfg : BenchmarkConfig) : Mode σ α Drain.Locals where
  system := Drain.system counter cfg
  byWorker _ := true
  started d := d.phase ∉ [Drain.Phase.enqueue, .startWorkers, .purge, .done, .failed]
  failed d := d.phase = .failed
  output := Drain.Locals.output cfg
  fails _ _ reply := reply = .raised

def burst (counter : Counter σ α) (cfg : BenchmarkConfig) : Mode σ α BurstRecovery.Locals where
  system := BurstRecovery.system counter cfg
  byWorker _ := true
  started d := d.phase ∉ [BurstRecovery.Phase.startWorkers, .done, .failed]
  failed d := d.phase = .failed
  output := BurstRecovery.Locals.output cfg
  fails _ _ reply := reply = .raised

/-- `publish_latency` also raises when the arrival rate is not positive. -/
def latency (cfg : BenchmarkConfig) :
    Mode LatencyRun.Shared (Nat × SharedFiles.Action LatencyRun.Sample) LatencyRun.Locals where
  system := LatencyRun.system cfg
  byWorker _ := true
  started d := d.phase ∉ [LatencyRun.Phase.begin, .startWorkers, .done, .failed]
  failed d := d.phase = .failed
  output := LatencyRun.Locals.output cfg
  fails _ d reply :=
    reply = .raised ∨ cfg.latencyArrivalRate ≤ 0 ∧ ∃ record sent, d.phase = .publish record sent

/-- A steady run also reports a publisher process that its loop finds failed. -/
def steady (counter : Counter σ α) (cfg : BenchmarkConfig) :
    Mode (SteadyRun.Shared σ) (SteadyRun.Action α) SteadyRun.Locals where
  system := SteadyRun.system counter cfg
  byWorker
    | .worker _ => true
    | .exit _ _ => false
  started d := d.phase ∉ [SteadyRun.Phase.startWorkers, .done, .failed]
  failed d := d.phase = .failed
  output := SteadyRun.Locals.output cfg
  fails s d reply :=
    reply = .raised ∨ ∃ i code, d.phase = .publishers i ∧ s.publishers[i]? = some code ∧ SteadyRun.failedCode code

theorem drain_failed_iff {cfg : BenchmarkConfig} {now : ℚ} {count : Nat} {d e : Drain.Locals} {reply : Reply}
    (ran : Drain.runner cfg now count d reply = some e) :
    e.phase = .failed ↔ d.phase = .failed ∨ reply = .raised := by
  unfold Drain.runner at ran
  split at ran
  case h_13 phase =>
    by_cases enough : cfg.messages ≤ d.count
    · rw [if_pos enough] at ran
      cases ran
      simp [phase]
    · rw [if_neg enough] at ran
      by_cases late : cfg.timeLimit ≤ now - d.start
      · simp only [if_pos late] at ran
        cases ran
        simp [phase]
      · simp only [if_neg late] at ran
        cases ran
        simp [phase]
  all_goals cases ran
  all_goals by_cases first : Drain.publishFirst cfg = true
  all_goals by_cases late : d.timedOut = true
  all_goals simp_all

theorem burst_failed_iff {cfg : BenchmarkConfig} {now : ℚ} {count : Nat} {d e : BurstRecovery.Locals} {reply : Reply}
    (ran : BurstRecovery.runner cfg now count d reply = some e) :
    e.phase = .failed ↔ d.phase = .failed ∨ reply = .raised := by
  unfold BurstRecovery.runner at ran
  split at ran
  case h_13 phase =>
    obtain ⟨_, made⟩ := Option.ite_none_right_eq_some.mp ran
    cases made
    simp [phase]
  case h_14 phase =>
    obtain ⟨_, made⟩ := Option.ite_none_left_eq_some.mp ran
    cases made
    simp [phase]
  case h_15 phase =>
    split_ifs at ran
    all_goals
      cases ran
      simp [phase]
  all_goals cases ran
  all_goals by_cases late : d.timedOut = true
  all_goals simp_all

theorem latency_failed_iff {cfg : BenchmarkConfig} {now : ℚ} {s : LatencyRun.Shared} {d : LatencyRun.Locals}
    {reply : Reply} {next : LatencyRun.Shared × LatencyRun.Locals}
    (ran : LatencyRun.runner cfg now s d reply = some next) :
    next.2.phase = .failed ↔ d.phase = .failed ∨
      (reply = .raised ∨ cfg.latencyArrivalRate ≤ 0 ∧ ∃ record sent, d.phase = .publish record sent) := by
  unfold LatencyRun.runner at ran
  split at ran
  case h_3 phase =>
    cases ran
    by_cases cold : LatencyRun.warmupMessages cfg = 0 <;> simp [phase, cold]
  -- the publisher raises when there is no rate
  case h_6 record sent phase =>
    by_cases silent : cfg.latencyArrivalRate ≤ 0
    · simp only [if_pos silent] at ran
      cases ran
      exact iff_of_true rfl (.inr (.inr ⟨silent, record, sent, phase⟩))
    · by_cases more : sent < LatencyRun.messagesOf cfg record
      · simp only [if_neg silent, if_pos more] at ran
        cases ran
        simp [phase, silent]
      · simp only [if_neg silent, if_neg more] at ran
        cases ran
        cases record <;> simp [phase, silent]
  case h_7 record sent message phase =>
    cases ran
    cases record <;> simp [phase]
  case h_12 phase =>
    cases ran
    by_cases all : (LatencyRun.measurementMessages cfg : ℤ) ≤ s.files.header <;> simp [phase, all]
  case h_14 phase =>
    by_cases expired : d.measurementEnd + cfg.timeLimit ≤ now
    · rw [if_pos expired] at ran
      cases ran
      simp [phase]
    · rw [if_neg expired] at ran
      cases ran
      simp [phase]
  case h_17 phase =>
    obtain ⟨files, _, rfl⟩ := Option.map_eq_some_iff.mp ran
    simp [phase]
  case h_18 phase =>
    split at ran
    · cases ran
    · split_ifs at ran
      all_goals
        obtain ⟨files, _, rfl⟩ := Option.map_eq_some_iff.mp ran
        simp [phase]
  all_goals cases ran
  all_goals simp_all

/-- The locals of a steady run that has failed or will report an error, which it
    does after its loop only. -/
def steadyMarked (d : SteadyRun.Locals) : Prop := d.phase = .failed ∨ d.status = "error"

def steadyKnows (d : SteadyRun.Locals) : Prop :=
  d.status = "error" → d.phase ∈ [SteadyRun.Phase.report, .cleanup, .stopWorkers, .done, .failed]

theorem steady_marked_iff {counter : Counter σ α} {cfg : BenchmarkConfig} {now : ℚ} {s t : SteadyRun.Shared σ}
    {d e : SteadyRun.Locals} {reply : Reply} (knows : steadyKnows d)
    (ran : SteadyRun.runner counter cfg now s d reply = some (t, e)) :
    steadyKnows e ∧ (steadyMarked e ↔ steadyMarked d ∨
      (reply = .raised ∨
        ∃ i code, d.phase = .publishers i ∧ s.publishers[i]? = some code ∧ SteadyRun.failedCode code)) := by
  unfold SteadyRun.runner at ran
  split at ran
  case h_10 phase =>
    have fine : d.status ≠ "error" := fun wrong => by simpa [phase] using knows wrong
    cases ran
    obtain ⟨progress, lastCount, ⟨_, same⟩ | ⟨_, _, same⟩ | ⟨_, _, same⟩⟩ := SteadyRun.tested_cases cfg d
    all_goals
      simp [same, steadyKnows, steadyMarked, phase, fine, SteadyRun.Locals.leave, SteadyRun.Locals.orCount,
        SteadyRun.Locals.marked]
  case h_11 i phase =>
    have fine : d.status ≠ "error" := fun wrong => by simpa [phase] using knows wrong
    cases found : s.publishers[i]? with
    | none =>
      simp only [found] at ran
      cases ran
      simp [steadyKnows, steadyMarked, phase, fine, found]
    | some code =>
      simp only [found] at ran
      by_cases failed : SteadyRun.failedCode code = true
      · rw [if_pos failed] at ran
        cases ran
        simp [steadyKnows, steadyMarked, phase, found, failed, SteadyRun.Locals.leave, SteadyRun.Locals.orCount]
      · rw [if_neg failed] at ran
        cases ran
        simp [steadyKnows, steadyMarked, phase, fine, found, failed]
  all_goals cases ran
  all_goals simp_all [steadyKnows, steadyMarked, SteadyRun.Locals.measured, SteadyRun.Locals.orCount]

theorem drain_reports (counter : Counter σ α) (cfg : BenchmarkConfig) :
    (drain counter cfg).Reports (fun _ => True) (fun d => d.phase = .failed) where
  ran := by
    intro now s d reply next _ ran
    obtain ⟨e, moved, rfl⟩ := Option.map_eq_some_iff.mp ran
    exact ⟨trivial, drain_failed_iff moved⟩
  failed := by simp [drain]
  printed := by
    intro d o _ failed printed
    simp only [drain, Drain.Locals.output, Option.ite_none_right_eq_some, Option.some.injEq] at printed
    obtain ⟨done, rfl⟩ := printed
    by_cases late : d.timedOut = true <;> simp [Output.status, done, late]

theorem burst_reports (counter : Counter σ α) (cfg : BenchmarkConfig) :
    (burst counter cfg).Reports (fun _ => True) (fun d => d.phase = .failed) where
  ran := by
    intro now s d reply next _ ran
    obtain ⟨e, moved, rfl⟩ := Option.map_eq_some_iff.mp ran
    exact ⟨trivial, burst_failed_iff moved⟩
  failed := by simp [burst]
  printed := by
    intro d o _ failed printed
    simp only [burst, BurstRecovery.Locals.output, Option.ite_none_right_eq_some, Option.some.injEq] at printed
    obtain ⟨done, rfl⟩ := printed
    by_cases late : d.timedOut = true <;> simp [Output.status, done, late]

theorem latency_reports (cfg : BenchmarkConfig) :
    (latency cfg).Reports (fun _ => True) (fun d => d.phase = .failed) where
  ran := fun _ ran => ⟨trivial, latency_failed_iff ran⟩
  failed := by simp [latency]
  printed := by
    intro d o _ failed printed
    simp only [latency, LatencyRun.Locals.output] at printed
    split at printed
    case h_1 backlog done _ =>
      cases printed
      by_cases late : d.timedOut = true <;> simp [Output.status, done, late]
    case h_2 => cases printed

theorem steady_reports (counter : Counter σ α) (cfg : BenchmarkConfig) :
    (steady counter cfg).Reports steadyKnows steadyMarked where
  ran := fun knows ran => steady_marked_iff knows ran
  failed := by simp +contextual [steady, steadyMarked]
  printed := by
    intro d o _ failed printed
    simp only [steady, SteadyRun.Locals.output, Option.ite_none_right_eq_some, Option.some.injEq] at printed
    obtain ⟨done, rfl⟩ := printed
    simp [Output.status, steadyMarked, done]

/-- In every mode, with any number of workers and whatever the run: a crash between
    the start and the stop of the workers gives the status error exactly when a call
    of the runner raises, in its clean-up too, or the loop of a steady run finds a failed
    publisher, or a signal ends the runner, and the outer wait does not expire. -/
theorem crashes_propagate_iff {σ α : Type} (counter : Counter σ α) (cfg : BenchmarkConfig) (clock : ℚ) :
    (drain counter cfg).PropagatesIff (Drain.init counter cfg clock) ∧
    (burst counter cfg).PropagatesIff (BurstRecovery.init counter cfg clock) ∧
    (latency cfg).PropagatesIff (LatencyRun.init cfg clock) ∧
    (steady counter cfg).PropagatesIff (SteadyRun.init counter clock) := by
  refine ⟨?_, ?_, ?_, ?_⟩
  · refine (drain_reports counter cfg).propagatesIff trivial ?_
    by_cases first : Drain.publishFirst cfg = true <;> simp [Drain.init, Drain.Locals.init, first]
  · exact (burst_reports counter cfg).propagatesIff trivial (by simp [BurstRecovery.init, BurstRecovery.Locals.init])
  · exact (latency_reports cfg).propagatesIff trivial (by simp [LatencyRun.init])
  · exact (steady_reports counter cfg).propagatesIff (by simp [steadyKnows, SteadyRun.init])
      (by simp [steadyMarked, SteadyRun.init])

/-- The only worker crashes while it is waited for, and the wait raises. -/
def crashWaitedFor : List (Label Unit) := [.runner .returned, .crash 0, .runner .raised]

theorem crash_waited_for : ∃ s,
    run (burst valueCounter oneWorker).step ⟨BurstRecovery.init valueCounter oneWorker 0, [true]⟩ crashWaitedFor =
      some s ∧
    ∀ status, (burst valueCounter oneWorker).returned s.run.runner .exited = some status → status = "error" := by
  have executed : (run (burst valueCounter oneWorker).step ⟨BurstRecovery.init valueCounter oneWorker 0, [true]⟩
      crashWaitedFor).isSome = true := by decide +kernel
  obtain ⟨s, reached⟩ := Option.isSome_iff_exists.mp executed
  refine ⟨s, reached, fun status returned => ?_⟩
  refine ((crashes_propagate_iff valueCounter oneWorker 0).2.1 1 crashWaitedFor s .exited status reached returned).mpr
    (.inr (.inr (.inr ⟨rfl, ?_⟩))) ⟨0, by simp [crashWaitedFor]⟩
  exact ⟨[.runner .returned, .crash 0], .runner .raised, [], _, rfl, rfl, .raised, rfl, rfl⟩

/-- The only worker finishes the only task and crashes: the run ends ok. -/
def crashAfterTask : List (Label Unit) :=
  [.runner (.published []), .runner .returned, .runner .returned, .worker 0 (), .crash 0] ++
    List.replicate 6 (.runner .returned)

theorem crash_reported_ok : ∃ s,
    run (drain valueCounter oneWorker).step ⟨Drain.init valueCounter oneWorker 0, [true]⟩ crashAfterTask = some s ∧
    .crash 0 ∈ crashAfterTask ∧ (drain valueCounter oneWorker).returned s.run.runner .exited = some "ok" := by
  have executed : (run (drain valueCounter oneWorker).step ⟨Drain.init valueCounter oneWorker 0, [true]⟩
      crashAfterTask).bind (fun s => (drain valueCounter oneWorker).returned s.run.runner .exited) = some "ok" := by
    decide +kernel
  obtain ⟨s, reached, returned⟩ := Option.bind_eq_some_iff.mp executed
  exact ⟨s, reached, by simp [crashAfterTask], returned⟩

end RepidBench.WorkerCrashes
