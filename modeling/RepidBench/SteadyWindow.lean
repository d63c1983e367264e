import RepidBench.SteadyValidity

/-!
What a steady run measures: the difference of the counts of two polls, the first at
or after the end of the warm-up and the first at or after the end of the window.
-/
namespace RepidBench.SteadyWindow
open Transition Cutoff RunnerOutput RepidBench.Runtime Polling Sampling SteadyRun SteadyValidity

variable {σ α : Type}

/-- A poll of the loop, seen when it reads the count. -/
def pollOf (counter : Counter σ α) (m : State ℚ (Shared σ) Locals) : Label ℚ (Action α) Reply → Option (Poll ℚ)
  | .runner .returned =>
    if m.runner.phase = .count then some ⟨m.runner.now, m.clock, counter.count m.shared.counter⟩ else none
  | _ => none

/-- The sample of the warm-up that some polls give. -/
def sampleOf (cfg : BenchmarkConfig) (start : ℚ) (polls : List (Poll ℚ)) : Option Nat :=
  (firstAt polls (warmupEnd cfg start)).map Poll.count

/-! ## The polls of a run -/

/-- The polls so far are in order, in the past, and of a counter that does not fall;
    before a count is read, all of them come before the clock that was read for it. -/
structure Polled (counter : Counter σ α) (polls : List (Poll ℚ)) (m : State ℚ (Shared σ) Locals) : Prop where
  ordered : InOrder polls
  past : ∀ p ∈ polls, p.readAt ≤ m.clock
  counted : ∀ p ∈ polls, p.count ≤ counter.count m.shared.counter
  rising : polls.Pairwise (fun p q => p.count ≤ q.count)
  clock : m.runner.phase = .count → m.runner.now ≤ m.clock ∧ ∀ p ∈ polls, p.readAt ≤ m.runner.now

/-- The loop was left at the last of the polls. -/
structure LeftAt (cfg : BenchmarkConfig) (polls : List (Poll ℚ)) (d : Locals) : Prop where
  last : ∃ before p, polls = before ++ [p] ∧ p.count = d.endCount ∧ (∀ q ∈ before, q.clock < measurementEnd cfg d.start) ∧
    (d.status = "ok" → measurementEnd cfg d.start ≤ p.clock)
  warmup : d.warmupCount.or (some d.endCount) = (sampleOf cfg d.start polls).or (some d.endCount)

/-- What the locals hold of the polls, where the runner stands. -/
def Sampled (cfg : BenchmarkConfig) (polls : List (Poll ℚ)) (d : Locals) : Prop :=
  match d.phase with
  | .startWorkers | .waitForConsumers | .start | .startPublishers => polls = [] ∧ d.warmupCount = none
  | .clock | .count =>
    (∀ p ∈ polls, p.clock < measurementEnd cfg d.start) ∧ d.warmupCount = sampleOf cfg d.start polls
  | .test => ∃ before p, polls = before ++ [p] ∧ p.clock = d.now ∧ p.count = d.count ∧
      (∀ q ∈ before, q.clock < measurementEnd cfg d.start) ∧ d.warmupCount = sampleOf cfg d.start before
  | .publishers _ => (∃ before p, polls = before ++ [p] ∧ p.count = d.count) ∧
      (∀ p ∈ polls, p.clock < measurementEnd cfg d.start) ∧ d.warmupCount = sampleOf cfg d.start polls
  | .report => LeftAt cfg polls d
  | .cleanup | .stopWorkers | .done => LeftAt cfg polls d ∧ d.warmupCount.isSome ∧
      d.measuredTasks = d.endCount - d.warmupCount.getD 0
  | .failed => True

/-- Testing a poll takes its count for the warm-up when it is the first that may be taken. -/
theorem marked_sample {cfg : BenchmarkConfig} {d : Locals} {before : List (Poll ℚ)} {p : Poll ℚ}
    (clock : p.clock = d.now) (count : p.count = d.count) (sample : d.warmupCount = sampleOf cfg d.start before) :
    (d.marked cfg).warmupCount = sampleOf cfg d.start (before ++ [p]) := by
  simp only [Locals.marked, sampleOf, firstAt_snoc, sample, clock]
  cases found : firstAt before (warmupEnd cfg d.start) with
  | some q => simp
  | none => by_cases late : warmupEnd cfg d.start ≤ d.now <;> simp [late, count]

theorem or_twice (taken : Option Nat) (count : Nat) : (taken.or (some count)).or (some count) = taken.or (some count) := by
  cases taken <;> rfl

theorem Sampled.ran {counter : Counter σ α} {cfg : BenchmarkConfig} {now : ℚ} {s t : Shared σ} {d e : Locals}
    {polls : List (Poll ℚ)} (sampled : Sampled cfg polls d) (ran : Ran counter cfg now s d t e) :
    Sampled cfg (polls ++ if d.phase = .count then [⟨d.now, now, counter.count s.counter⟩] else []) e := by
  cases ran with
  | before next at_ after =>
    have none : polls = [] ∧ d.warmupCount = none := by rcases at_ with at_ | at_ <;> simpa [Sampled, at_] using sampled
    have quiet : d.phase ≠ .count := by rcases at_ with at_ | at_ <;> simp [at_]
    rcases after with rfl | rfl | rfl <;> simp [Sampled, none, quiet]
  | start at_ => simpa [Sampled, at_] using sampled
  | notStarted at_ => simp [Sampled]
  | started at_ =>
    have none : polls = [] ∧ d.warmupCount = none := by simpa [Sampled, at_] using sampled
    simp [Sampled, at_, none, sampleOf, firstAt]
  | clock at_ => simpa [Sampled, at_] using sampled
  | count at_ =>
    obtain ⟨early, sample⟩ : (∀ p ∈ polls, p.clock < measurementEnd cfg d.start) ∧ d.warmupCount = sampleOf cfg d.start polls := by
      simpa [Sampled, at_] using sampled
    rw [if_pos at_]
    exact ⟨polls, _, rfl, rfl, rfl, early, sample⟩
  | polled i next at_ after =>
    have tested : (∃ before p, polls = before ++ [p] ∧ p.count = d.count) ∧
        (∀ p ∈ polls, p.clock < measurementEnd cfg d.start) ∧ d.warmupCount = sampleOf cfg d.start polls := by
      simpa [Sampled, at_] using sampled
    simp only [at_, reduceCtorEq, if_false, List.append_nil]
    rcases after with rfl | rfl
    · exact tested.2
    · exact tested
  | test at_ =>
    have tests : ∃ before p, polls = before ++ [p] ∧ p.clock = d.now ∧ p.count = d.count ∧
        (∀ q ∈ before, q.clock < measurementEnd cfg d.start) ∧ d.warmupCount = sampleOf cfg d.start before := by
      simpa [Sampled, at_] using sampled
    obtain ⟨before, p, rfl, clock, count, early, sample⟩ := tests
    have marked := marked_sample clock count sample
    simp only [at_, reduceCtorEq, if_false, List.append_nil]
    obtain ⟨progress, lastCount, ⟨closed, same⟩ | ⟨within, spent, same⟩ | ⟨within, left, same⟩⟩ := tested_cases cfg d
    · rw [same]
      refine ⟨⟨before, p, rfl, count, early, fun _ => clock.symm ▸ closed⟩, ?_⟩
      exact congrArg (fun taken => taken.or (some d.count)) marked
    · rw [same]
      refine ⟨⟨before, p, rfl, count, early, fun ok => absurd ok (by simp [Locals.leave, Locals.orCount])⟩, ?_⟩
      show ((d.marked cfg).warmupCount.or (some d.count)).or (some d.count) = _
      rw [marked, or_twice]
      rfl
    · rw [same]
      refine ⟨⟨before, p, rfl, count⟩, fun q member => ?_, marked⟩
      rcases List.mem_append.mp member with old | new
      · exact early q old
      · rw [List.mem_singleton.mp new, clock]
        exact within
  | publisherFailed i code at_ found failed =>
    have tested : (∃ before p, polls = before ++ [p] ∧ p.count = d.count) ∧
        (∀ p ∈ polls, p.clock < measurementEnd cfg d.start) ∧ d.warmupCount = sampleOf cfg d.start polls := by
      simpa [Sampled, at_] using sampled
    obtain ⟨⟨before, p, rfl, count⟩, early, sample⟩ := tested
    simp only [at_, reduceCtorEq, if_false, List.append_nil]
    refine ⟨⟨before, p, rfl, count, fun q member => early q (List.mem_append_left _ member),
      fun ok => absurd ok (by simp [Locals.leave, Locals.orCount])⟩, ?_⟩
    show (d.warmupCount.or (some d.count)).or (some d.count) = _
    rw [sample, or_twice]
    rfl
  | report at_ =>
    have left : LeftAt cfg polls d := by simpa [Sampled, at_] using sampled
    simp only [at_, reduceCtorEq, if_false, List.append_nil]
    refine ⟨⟨left.last, ?_⟩, by simp [Locals.measured, Locals.orCount], rfl⟩
    show (d.warmupCount.or (some d.endCount)).or (some d.endCount) = _
    rw [or_twice]
    exact left.warmup
  | after next at_ after =>
    have still : LeftAt cfg polls d ∧ d.warmupCount.isSome ∧ d.measuredTasks = d.endCount - d.warmupCount.getD 0 := by
      rcases at_ with at_ | at_ <;> simpa [Sampled, at_] using sampled
    have quiet : d.phase ≠ .count := by rcases at_ with at_ | at_ <;> simp [at_]
    obtain ⟨⟨last, warmup⟩, taken⟩ := still
    rw [if_neg quiet, List.append_nil]
    rcases after with rfl | rfl | rfl
    · exact ⟨⟨last, warmup⟩, taken⟩
    · exact ⟨⟨last, warmup⟩, taken⟩
    · trivial

/-! ## Every run -/

/-- The count is read after a clock that was read in the statement before. -/
theorem ran_clock {counter : Counter σ α} {cfg : BenchmarkConfig} {now : ℚ} {s t : Shared σ} {d e : Locals}
    (ran : Ran counter cfg now s d t e) :
    t.counter = s.counter ∧ (e.phase = .count → d.phase = .clock ∧ e.now = now) := by
  cases ran with
  | before next at_ after => rcases after with rfl | rfl | rfl <;> simp
  | polled i next at_ after => rcases after with rfl | rfl <;> simp
  | after next at_ after => rcases after with rfl | rfl | rfl <;> simp
  | clock at_ => simp [at_]
  | test at_ =>
    obtain ⟨progress, lastCount, ⟨_, same⟩ | ⟨_, _, same⟩ | ⟨_, _, same⟩⟩ := tested_cases cfg d
    all_goals simp [same, Locals.leave, Locals.orCount]
  | start | notStarted | started | count | publisherFailed | report => simp [Locals.leave, Locals.orCount, Locals.measured]

theorem pollOf_runner {counter : Counter σ α} {cfg : BenchmarkConfig} {m : State ℚ (Shared σ) Locals} {reply : Reply}
    {next : Shared σ × Locals} (ran : runner counter cfg m.clock m.shared m.runner reply = some next) :
    (pollOf counter m (.runner reply)).toList =
      if m.runner.phase = .count then [⟨m.runner.now, m.clock, counter.count m.shared.counter⟩] else [] := by
  by_cases reading : m.runner.phase = .count
  · cases reply with
    | returned => simp [pollOf, reading]
    | published | metrics | raised => simp [runner, reading] at ran
  · rw [if_neg reading]
    cases reply <;> simp [pollOf, reading]

theorem Polled.step {counter : Counter σ α} {cfg : BenchmarkConfig} {polls : List (Poll ℚ)}
    {m n : State ℚ (Shared σ) Locals} {a : Label ℚ (Action α) Reply} (polled : Polled counter polls m)
    (stepped : (system counter cfg).step m a = some n) :
    Polled counter (polls ++ (pollOf counter m a).toList) n := by
  obtain ⟨ordered, past, counted, rising, clock⟩ := polled
  cases System.step_cases stepped with
  | pass now later =>
    simp only [pollOf, Option.toList_none, List.append_nil]
    refine ⟨ordered, fun p member => (past p member).trans later, counted, rising, fun reading => ?_⟩
    exact ⟨(clock reading).1.trans later, (clock reading).2⟩
  | work b shared worked =>
    have grown := work_count worked
    simp only [pollOf, Option.toList_none, List.append_nil]
    refine ⟨ordered, past, fun p member => (counted p member).trans ?_, rising, clock⟩
    show _ ≤ counter.count shared.counter
    omega
  | runner reply shared d ran =>
    obtain ⟨same, clocked⟩ := ran_clock (runner_cases ran)
    have readsNow : d.phase = .count → d.now ≤ m.clock ∧ ∀ p ∈ polls, p.readAt ≤ d.now := by
      intro reading
      rw [(clocked reading).2]
      exact ⟨le_rfl, past⟩
    rw [pollOf_runner ran]
    by_cases reading : m.runner.phase = .count
    · obtain ⟨shown, behind⟩ := clock reading
      rw [if_pos reading]
      refine ⟨⟨?_, ?_⟩, ?_, ?_, ?_, ?_⟩
      · intro p member
        rcases List.mem_append.mp member with old | new
        · exact ordered.within p old
        · rw [List.mem_singleton.mp new]
          exact shown
      · exact List.pairwise_append.mpr ⟨ordered.between, List.pairwise_singleton _ _, by simpa using behind⟩
      · intro p member
        rcases List.mem_append.mp member with old | new
        · exact past p old
        · rw [List.mem_singleton.mp new]
      · intro p member
        show p.count ≤ counter.count shared.counter
        rw [same]
        rcases List.mem_append.mp member with old | new
        · exact counted p old
        · rw [List.mem_singleton.mp new]
      · exact List.pairwise_append.mpr ⟨rising, List.pairwise_singleton _ _, by simpa using counted⟩
      · intro again
        have before := (clocked again).1
        rw [reading] at before
        cases before
    · rw [if_neg reading, List.append_nil]
      exact ⟨ordered, past, by simpa [same] using counted, rising, readsNow⟩

theorem Sampled.step {counter : Counter σ α} {cfg : BenchmarkConfig} {polls : List (Poll ℚ)}
    {m n : State ℚ (Shared σ) Locals} {a : Label ℚ (Action α) Reply} (sampled : Sampled cfg polls m.runner)
    (stepped : (system counter cfg).step m a = some n) :
    Sampled cfg (polls ++ (pollOf counter m a).toList) n.runner := by
  cases System.step_cases stepped with
  | pass | work => simpa [pollOf] using sampled
  | runner reply shared d ran =>
    rw [pollOf_runner ran]
    exact sampled.ran (runner_cases ran)

theorem run_polled {counter : Counter σ α} {cfg : BenchmarkConfig} {clock : ℚ}
    {trace : List (Label ℚ (Action α) Reply)} {s : State ℚ (Shared σ) Locals}
    (executed : run (system counter cfg).step (init counter clock) trace = some s) :
    let polls := seen (system counter cfg).step (pollOf counter) (init counter clock) trace
    Polled counter polls s ∧ Sampled cfg polls s.runner := by
  refine run_seen (fun polls m => Polled counter polls m ∧ Sampled cfg polls m.runner) ?_ ?_ executed
  · rintro polls m a n ⟨polled, sampled⟩ stepped
    exact ⟨polled.step stepped, sampled.step stepped⟩
  · exact ⟨⟨⟨by simp, .nil⟩, by simp, by simp, .nil, by simp [init]⟩, ⟨rfl, rfl⟩⟩

/-! ## What an ok run measures -/

/-- The two samples of an ok run, of a completion count that polls at most `gap`
    apart read, and what it measures with them. -/
structure Windowed (cfg : BenchmarkConfig) (count : ℚ → Nat) (gap : ℚ) (polls : List (Poll ℚ)) (d : Locals)
    (warmup last : Poll ℚ) : Prop where
  firstWarm : firstAt polls (warmupEnd cfg d.start) = some warmup
  warmupCount : d.warmupCount = some warmup.count
  firstOver : firstAt polls (measurementEnd cfg d.start) = some last
  endCount : d.endCount = last.count
  measured : (d.measuredTasks : ℤ) = last.count - warmup.count
  excluded : ∀ t ≤ warmupEnd cfg d.start, count t ≤ warmup.count
  least : (count (measurementEnd cfg d.start) : ℤ) - count (warmupEnd cfg d.start + 2 * gap) ≤ d.measuredTasks
  most : (d.measuredTasks : ℤ) ≤ count (measurementEnd cfg d.start + 2 * gap) - count (warmupEnd cfg d.start)

/-- An ok run was left at the first poll at or after the end of the window, and has
    the sample of the warm-up from a poll that came no later. -/
theorem LeftAt.samples {cfg : BenchmarkConfig} {polls : List (Poll ℚ)} {d : Locals} (left : LeftAt cfg polls d)
    (rising : polls.Pairwise (fun p q => p.count ≤ q.count)) (sampled : d.warmupCount.isSome)
    (measures : 0 ≤ cfg.steadyMeasurementSeconds) (ok : d.status = "ok") :
    ∃ warmup last, firstAt polls (warmupEnd cfg d.start) = some warmup ∧ d.warmupCount = some warmup.count ∧
      firstAt polls (measurementEnd cfg d.start) = some last ∧ d.endCount = last.count ∧ warmup.count ≤ last.count := by
  obtain ⟨⟨before, last, rfl, ended, early, late⟩, same⟩ := left
  have atEnd : firstAt (before ++ [last]) (measurementEnd cfg d.start) = some last := firstAt_snoc_late early (late ok)
  have later : warmupEnd cfg d.start ≤ measurementEnd cfg d.start := le_add_of_nonneg_right measures
  have taken : (firstAt (before ++ [last]) (warmupEnd cfg d.start)).isSome := by
    simpa [firstAt] using Or.inr (later.trans (late ok))
  obtain ⟨warmup, found⟩ := Option.isSome_iff_exists.mp taken
  obtain ⟨count, has⟩ := Option.isSome_iff_exists.mp sampled
  have counted : count = warmup.count := by simpa [sampleOf, found, has] using same
  refine ⟨warmup, last, found, has.trans (congrArg some counted), atEnd, ended.symm, ?_⟩
  rcases List.mem_append.mp (firstAt_some found).1 with old | new
  · exact (List.pairwise_append.mp rising).2.2 warmup old last (List.mem_singleton_self last)
  · rw [List.mem_singleton.mp new]

/-- In every steady run, whatever its status, what is measured lies between zero and
    the count at its end; and when the status is ok, it is the difference of the counts
    at the first polls at or after the end of the warm-up and the end of the window. -/
theorem steady_measures_window (counter : Counter σ α) (cfg : BenchmarkConfig) (clock gap : ℚ) (count : ℚ → Nat)
    (trace : List (Label ℚ (Action α) Reply)) (s : State ℚ (Shared σ) Locals) (d : Steady)
    (executed : run (system counter cfg).step (init counter clock) trace = some s)
    (ended : s.runner.output cfg = some (.steady d))
    (warms : 0 ≤ cfg.steadyWarmupSeconds) (measures : 0 ≤ cfg.steadyMeasurementSeconds)
    (rising : Monotone count)
    (reads : ∀ p ∈ seen (system counter cfg).step (pollOf counter) (init counter clock) trace, p.count = count p.readAt)
    (dense : Dense s.runner.start gap (seen (system counter cfg).step (pollOf counter) (init counter clock) trace)) :
    (d.status = "ok" → ∃ warmup last, Windowed cfg count gap
      (seen (system counter cfg).step (pollOf counter) (init counter clock) trace) s.runner warmup last) ∧
    d.measuredTasks = s.runner.measuredTasks ∧ 0 ≤ (d.measuredTasks : ℤ) ∧ d.measuredTasks ≤ d.endCount := by
  obtain ⟨polled, sampled⟩ := run_polled executed
  obtain ⟨done, printed⟩ := Option.ite_none_right_eq_some.mp ended
  obtain ⟨left, taken, measured⟩ : LeftAt cfg _ s.runner ∧ s.runner.warmupCount.isSome ∧
      s.runner.measuredTasks = s.runner.endCount - s.runner.warmupCount.getD 0 := by
    simpa [Sampled, done] using sampled
  cases printed
  refine ⟨fun ok => ?_, rfl, Int.natCast_nonneg _, ?_⟩
  · obtain ⟨warmup, last, found, has, atEnd, counted, ordered⟩ := left.samples polled.rising taken measures ok
    have begun : s.runner.start ≤ warmupEnd cfg s.runner.start := le_add_of_nonneg_right warms
    have later : warmupEnd cfg s.runner.start ≤ measurementEnd cfg s.runner.start := le_add_of_nonneg_right measures
    obtain ⟨least, most⟩ := dense.firstAt_count polled.ordered rising reads begun found
    obtain ⟨leastLast, mostLast⟩ := dense.firstAt_count polled.ordered rising reads (begun.trans later) atEnd
    have difference : (s.runner.measuredTasks : ℤ) = last.count - warmup.count := by
      rw [measured, counted, has, Option.getD_some]
      omega
    refine ⟨warmup, last, found, has, atEnd, counted, difference, fun t before => (rising before).trans least, ?_, ?_⟩
    · rw [difference, two_mul]
      omega
    · rw [difference, two_mul]
      omega
  · show s.runner.measuredTasks ≤ s.runner.endCount
    rw [measured]
    exact Nat.sub_le _ _

/-- A task that is completed within the window, between its two polls. -/
def completesWithin : List (Label ℚ (Action Unit) Reply) :=
  List.replicate 9 (.runner .returned) ++ [.pass (1 / 2), .work (.worker ()), .pass 1] ++
    List.replicate 6 (.runner .returned)

theorem steady_measures_task : ∃ s d,
    run (system valueCounter oneSecond).step (init valueCounter 0) completesWithin = some s ∧
    s.runner.output oneSecond = some (.steady d) ∧ d.status = "ok" ∧ d.measuredTasks = 1 ∧
    ∃ warmup last, Windowed oneSecond (fun t => if t < 1 / 2 then 0 else 1) 1
      (seen (system valueCounter oneSecond).step (pollOf valueCounter) (init valueCounter 0) completesWithin)
      s.runner warmup last := by
  have executed : (run (system valueCounter oneSecond).step (init valueCounter 0) completesWithin).map
      (fun s => (s.runner.phase, s.runner.status, s.runner.measuredTasks, s.runner.start)) =
        some (.done, "ok", 1, 0) := by decide +kernel
  have polls : seen (system valueCounter oneSecond).step (pollOf valueCounter) (init valueCounter 0) completesWithin =
      [⟨0, 0, 0⟩, ⟨1, 1, 1⟩] := by decide +kernel
  obtain ⟨s, reached, locals⟩ := Option.map_eq_some_iff.mp executed
  simp only [Prod.mk.injEq] at locals
  obtain ⟨phase, status, measured, start⟩ := locals
  have rising : Monotone (fun t : ℚ => if t < 1 / 2 then 0 else 1) := by
    intro t u before
    dsimp only
    split_ifs with early
    · exact le_rfl
    · exact Nat.zero_le 1
    · exact absurd (before.trans_lt ‹u < 1 / 2›) early
    · exact le_rfl
  refine ⟨s, _, reached, if_pos phase, status, measured, ?_⟩
  refine (steady_measures_window valueCounter oneSecond 0 1 (fun t => if t < 1 / 2 then 0 else 1) completesWithin s _
    reached (if_pos phase) le_rfl zero_le_one rising ?_ ?_).1 status
  · rw [polls]
    norm_num
  · rw [polls, start]
    constructor <;> norm_num

end RepidBench.SteadyWindow
