import RepidBench.Polling

/-!
The run that recovers from one burst: `_run_burst_recovery`. Its loop polls the
counter, asks for the queue's metrics when enough of the burst is done, and takes
its end before it purges the queue and reads the counter again.
-/
namespace RepidBench.BurstRecovery
open Transition Cutoff Decimal RunnerOutput RepidBench.Runtime Polling

/-- `cfg.prefetch_count or cfg.concurrency`. -/
def effectiveSlots (cfg : BenchmarkConfig) : Nat :=
  match cfg.prefetchCount with
  | none | some 0 => cfg.concurrency
  | some count => count

/-- `max(1, round(cfg.processes * effective_slots * cfg.burst_multiplier))`. -/
def burstMessages (cfg : BenchmarkConfig) : Nat :=
  (max 1 (roundHalfEven ((cfg.processes * effectiveSlots cfg : Nat) * cfg.burstMultiplier))).toNat

def snapshotPoints : List (Milestone × ℚ) := [(.m90, 0.90), (.m99, 0.99), (.m995, 0.995)]

/-- The statement that the runner is at; `snapshots` has the points of its `for`
    loop that are left. -/
inductive Phase
  | startWorkers | waitForConsumers | publishStart | publish | publishEnd | queueAtPublishEnd
  | poll | record | snapshots (points : List (Milestone × ℚ)) | check
  | takeEnd | purge | queueAtEnd | reread | stopWorkers | done | failed
  deriving DecidableEq

/-- The locals of `_run_burst_recovery`; `stop` is `end`, `tasksDone` what it returns. -/
structure Locals where
  phase : Phase := .startWorkers
  publishing : List PublishPrint := []
  publishStart : ℚ := 0
  publishEnd : ℚ := 0
  publishEndQueue : QueueReport := .failed ""
  thresholds : List (Milestone × Nat)
  milestones : Milestones := fun _ => none
  queueSnapshots : List Milestone := []
  count : Nat := 0
  polls : List BurstPoll := []
  timedOut : Bool := false
  stop : ℚ := 0
  lastQueue : QueueReport := .failed ""
  tasksDone : Nat := 0

def Locals.init (cfg : BenchmarkConfig) : Locals where
  thresholds := milestoneThresholds (burstMessages cfg)

/-- One statement of the runner, at the instant `now` with `count` tasks counted. -/
def runner (cfg : BenchmarkConfig) (now : ℚ) (count : Nat) (d : Locals) (reply : Reply) : Option Locals :=
  match d.phase, reply with
  | .startWorkers, .returned => some { d with phase := .waitForConsumers }
  | .waitForConsumers, .returned => some { d with phase := .publishStart }
  | .publishStart, .returned => some { d with phase := .publish, publishStart := now }
  | .publish, .published lines => some { d with phase := .publishEnd, publishing := lines }
  | .startWorkers, .raised | .waitForConsumers, .raised | .publish, .raised => some { d with phase := .failed }
  | .publishEnd, .returned => some { d with phase := .queueAtPublishEnd, publishEnd := now }
  | .queueAtPublishEnd, .metrics report => some { d with phase := .poll, publishEndQueue := report }
  | .poll, .returned => some { d with phase := .record, count := count }
  | .record, .returned =>
    let (thresholds, milestones) := recordMilestones d.count (now - d.publishEnd) d.thresholds d.milestones
    some { d with phase := .snapshots snapshotPoints, thresholds := thresholds, milestones := milestones }
  | .snapshots [], .returned => some { d with phase := .check }
  | .snapshots ((label, threshold) :: points), .metrics report =>
    if label ∉ d.queueSnapshots ∧ partOf (burstMessages cfg) threshold ≤ d.count then
      some { d with
        phase := .snapshots points
        polls := d.polls ++ [.queue label report]
        queueSnapshots := label :: d.queueSnapshots }
    else none
  | .snapshots ((label, threshold) :: points), .returned =>
    if label ∉ d.queueSnapshots ∧ partOf (burstMessages cfg) threshold ≤ d.count then none
    else some { d with phase := .snapshots points }
  | .check, .returned =>
    if burstMessages cfg ≤ d.count then some { d with phase := .takeEnd }
    else if cfg.timeLimit ≤ now - d.publishEnd then some { d with phase := .takeEnd, timedOut := true }
    else some { d with phase := .poll, polls := d.polls ++ [.progress d.count (now - d.publishEnd)] }
  | .takeEnd, .returned => some { d with phase := if d.timedOut then .purge else .queueAtEnd, stop := now }
  | .purge, .returned => some { d with phase := .queueAtEnd }
  | .queueAtEnd, .metrics report => some { d with phase := .reread, lastQueue := report }
  | .reread, .returned => some { d with phase := .stopWorkers, tasksDone := min count (burstMessages cfg) }
  | .stopWorkers, .returned => some { d with phase := .done }
  | .stopWorkers, .raised => some { d with phase := .failed }
  | _, _ => none

def running (d : Locals) : Bool := d.phase ∉ [Phase.done, .failed]

/-- What the runner has printed at its end. -/
def Locals.output (cfg : BenchmarkConfig) (d : Locals) : Option Output :=
  if d.phase = .done then
    some (.burst {
      messages := burstMessages cfg
      publishing := d.publishing
      publishEnd := d.publishEndQueue
      polls := d.polls
      last := d.lastQueue
      milestones := d.milestones
      tasksDone := d.tasksDone
      publishSeconds := d.publishEnd - d.publishStart
      recoverySeconds := d.stop - d.publishEnd
      status := if d.timedOut then "timeout" else "ok" })
  else none

variable {σ α : Type}

/-- A burst whose workers count with `counter`. -/
def system (counter : Counter σ α) (cfg : BenchmarkConfig) : System ℚ σ α Locals Reply where
  work _ s a := counter.step s a
  completes := counter.completes
  count := counter.count
  runner now s d reply := (runner cfg now (counter.count s) d reply).map (fun d => (s, d))
  running := running

def init (counter : Counter σ α) (cfg : BenchmarkConfig) (clock : ℚ) : State ℚ σ Locals :=
  ⟨clock, counter.start, .init cfg, []⟩

/-! ## The end and the count -/

/-- The end is taken before the last requests and the count that is reported. -/
def view (d : Locals) : View ℚ :=
  match d.phase with
  | .purge | .queueAtEnd | .reread => .late d.stop
  | .stopWorkers | .done => .reported d.stop d.tasksDone
  | .failed => .failed
  | _ => .before

theorem runner_view {cfg : BenchmarkConfig} {now : ℚ} {count : Nat} {d e : Locals} {reply : Reply}
    (ran : runner cfg now count d reply = some e) :
    View.Next now count (burstMessages cfg) (view d) (view e) := by
  unfold runner at ran
  split at ran
  -- the end is taken here, on both paths, and what is reported is read after it
  case h_16 phase =>
    cases ran
    by_cases late : d.timedOut = true <;> simpa [view, phase, late] using View.Next.stop
  case h_19 phase =>
    cases ran
    simpa [view, phase] using View.Next.reread d.stop
  -- the burst is done, the time limit is reached, or the runner polls again
  case h_15 phase =>
    by_cases reached : burstMessages cfg ≤ d.count
    · rw [if_pos reached] at ran
      cases ran
      simp [view, phase]
    · rw [if_neg reached] at ran
      by_cases expired : cfg.timeLimit ≤ now - d.publishEnd
      · rw [if_pos expired] at ran
        cases ran
        simp [view, phase]
      · rw [if_neg expired] at ran
        cases ran
        simp [view, phase]
  -- a snapshot is due, or not
  case h_13 phase =>
    obtain ⟨_, made⟩ := Option.ite_none_right_eq_some.mp ran
    cases made
    simp [view, phase]
  case h_14 phase =>
    obtain ⟨_, made⟩ := Option.ite_none_left_eq_some.mp ran
    cases made
    simp [view, phase]
  all_goals cases ran
  all_goals simp_all [view]

def polls (counter : Counter σ α) (cfg : BenchmarkConfig) : Polls (system counter cfg) (burstMessages cfg) where
  view := view
  Inv _ _ := True
  worked := fun _ stepped => ⟨trivial, counter.step_count stepped⟩
  ran := by
    intro now s d reply next _ ran
    obtain ⟨e, moved, rfl⟩ := Option.map_eq_some_iff.mp ran
    exact ⟨trivial, rfl, runner_view moved⟩

end RepidBench.BurstRecovery
