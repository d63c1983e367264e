import RepidBench.AtLeastOnce
import RepidBench.BurstRecovery
import RepidBench.Milestones

/-!
What the end of a loop says about the messages. The counter counts executions, and
no loop knows of which message: with a broker that delivers at least once, a loop
that has counted to the total leaves as many messages unfinished as executions were
repeated, at most.
-/
namespace RepidBench.Completion
open Transition Cutoff RunnerOutput RepidBench.Runtime Polling AtLeastOnce

variable {σ α : Type}

/-! ## Workers at a broker -/

/-- A step at the broker, a worker's step that counts nothing, or the end of the
    execution of a message, which counts it. -/
inductive Action (α : Type)
  | broker (e : Event)
  | work (a : α)
  | complete (message : Nat) (a : α)
  deriving DecidableEq

def Action.completes : Action α → Bool
  | .complete _ _ => true
  | _ => false

def step (base : Counter σ α) (total : Nat) (s : Broker × σ) : Action α → Option (Broker × σ)
  | .broker e => (s.1.step total e).map (fun broker => (broker, s.2))
  | .work a => if base.completes a then none else (base.step s.2 a).map (fun shared => (s.1, shared))
  | .complete message a =>
    if base.completes a then
      (s.1.complete message).bind (fun broker => (base.step s.2 a).map (fun shared => (broker, shared)))
    else none

/-- What one step does to the broker and to the counter. -/
theorem step_count {base : Counter σ α} {total : Nat} {s t : Broker × σ} {a : Action α}
    (stepped : step base total s a = some t) :
    base.count t.2 = base.count s.2 + (if a.completes then 1 else 0) ∧
    (s.1.Known total → t.1.Known total ∧
      t.1.completed.length = s.1.completed.length + if a.completes then 1 else 0) := by
  cases a with
  | broker e =>
    obtain ⟨broker, happened, rfl⟩ := Option.map_eq_some_iff.mp stepped
    refine ⟨rfl, fun known => ?_⟩
    obtain ⟨known, same⟩ := Broker.step_known known happened
    exact ⟨known, congrArg List.length same⟩
  | work a =>
    obtain ⟨silent, moved⟩ := Option.ite_none_left_eq_some.mp stepped
    obtain ⟨shared, worked, rfl⟩ := Option.map_eq_some_iff.mp moved
    have counted := base.step_count worked
    rw [if_neg silent] at counted
    exact ⟨counted, fun known => ⟨known, rfl⟩⟩
  | complete message a =>
    obtain ⟨counts, moved⟩ := Option.ite_none_right_eq_some.mp stepped
    obtain ⟨broker, ended, moved⟩ := Option.bind_eq_some_iff.mp moved
    obtain ⟨shared, worked, rfl⟩ := Option.map_eq_some_iff.mp moved
    have counted := base.step_count worked
    rw [if_pos counts] at counted
    refine ⟨counted, fun known => ?_⟩
    obtain ⟨known, more⟩ := Broker.complete_known known ended
    refine ⟨known, ?_⟩
    rw [more, List.length_append]
    rfl

/-- Workers that count their executions with `base`, of up to `total` messages of
    which `published` are there at the start. -/
def brokered (base : Counter σ α) (total published : Nat) : Counter (Broker × σ) (Action α) where
  start := (.holding published, base.start)
  step := step base total
  completes := Action.completes
  count s := base.count s.2
  start_count := base.start_count
  step_count := fun stepped => (step_count stepped).1

/-- Every completed execution is counted, and is of one of the messages. -/
def Accounted (base : Counter σ α) (total : Nat) (s : Broker × σ) : Prop :=
  s.1.Known total ∧ s.1.completed.length = base.count s.2

theorem accounted_start (base : Counter σ α) {total published : Nat} (few : published ≤ total) :
    Accounted base total (brokered base total published).start :=
  ⟨Broker.holding_known few, base.start_count.symm⟩

theorem accounted_step {base : Counter σ α} {total : Nat} {s t : Broker × σ} {a : Action α}
    (accounted : Accounted base total s) (stepped : step base total s a = some t) : Accounted base total t := by
  obtain ⟨counted, kept⟩ := step_count stepped
  obtain ⟨known, length⟩ := kept accounted.1
  refine ⟨known, ?_⟩
  rw [length, counted, accounted.2]

/-- What holds of the messages when `total` executions are counted: as many have no
    completed execution as executions are missing after the repeated ones, and none
    when no execution was of a message completed before. -/
structure Finished (total : Nat) (b : Broker) : Prop where
  enough : total ≤ b.completed.length
  missing : unfinished total b.completed ≤ repeats b.completed
  exactly : unfinished total b.completed + b.completed.length = total + repeats b.completed
  once : repeats b.completed = 0 → ∀ m < total, m ∈ b.completed

theorem Accounted.finished {base : Counter σ α} {total : Nat} {s : Broker × σ} (accounted : Accounted base total s)
    (enough : total ≤ base.count s.2) : Finished total s.1 := by
  obtain ⟨known, counted⟩ := accounted
  have few : ∀ m ∈ s.1.completed, m < total := fun m member => (known.completed m member).trans_le known.published
  have exactly := unfinished_add_length few
  exact ⟨by omega, by omega, exactly, fun once => unfinished_eq_zero.mp (by omega)⟩

/-! ## The loops -/

/-- The messages that a drain has published before its workers start. -/
def publishedFirst (cfg : BenchmarkConfig) : Nat := if Drain.publishFirst cfg then cfg.messages else 0

/-- The loop of a drain has ended, and not by its time limit. -/
def DrainEnded (d : Drain.Locals) : Prop :=
  d.phase ∈ [.takeEnd, .stopWorkers, .purge, .done] ∧ d.timedOut = false

/-- The loop of a burst has ended, and not by its time limit. -/
def BurstEnded (d : BurstRecovery.Locals) : Prop :=
  d.phase ∈ [.takeEnd, .purge, .queueAtEnd, .reread, .stopWorkers, .done] ∧ d.timedOut = false

/-- What the loop of a burst has read is still counted. -/
def BurstRead (cfg : BenchmarkConfig) (count : Nat) (d : BurstRecovery.Locals) : Prop :=
  match d.phase with
  | .record | .snapshots _ | .check => d.count ≤ count
  | .takeEnd | .purge | .queueAtEnd | .reread | .stopWorkers | .done =>
    d.timedOut = false → BurstRecovery.burstMessages cfg ≤ count
  | _ => True

theorem BurstRead.later {cfg : BenchmarkConfig} {count count' : Nat} {d : BurstRecovery.Locals}
    (read : BurstRead cfg count d) (grown : count ≤ count') : BurstRead cfg count' d := by
  unfold BurstRead at read ⊢
  split
  all_goals simp_all only
  all_goals first | exact read.trans grown | exact fun inTime => (read inTime).trans grown

theorem BurstRead.ran {cfg : BenchmarkConfig} {now : ℚ} {count : Nat} {d e : BurstRecovery.Locals} {reply : Reply}
    (read : BurstRead cfg count d) (ran : BurstRecovery.runner cfg now count d reply = some e) :
    BurstRead cfg count e := by
  unfold BurstRecovery.runner at ran
  split at ran
  -- the burst is done, the time limit is reached, or the runner polls again
  case h_15 phase =>
    have few : d.count ≤ count := by simpa [BurstRead, phase] using read
    by_cases reached : BurstRecovery.burstMessages cfg ≤ d.count
    · rw [if_pos reached] at ran
      cases ran
      exact fun _ => reached.trans few
    · rw [if_neg reached] at ran
      by_cases expired : cfg.timeLimit ≤ now - d.publishEnd
      · rw [if_pos expired] at ran
        cases ran
        exact fun inTime => absurd inTime (by simp)
      · rw [if_neg expired] at ran
        cases ran
        trivial
  -- a snapshot is due, or not
  case h_13 phase =>
    obtain ⟨_, made⟩ := Option.ite_none_right_eq_some.mp ran
    cases made
    simpa [BurstRead, phase] using read
  case h_14 phase =>
    obtain ⟨_, made⟩ := Option.ite_none_left_eq_some.mp ran
    cases made
    simpa [BurstRead, phase] using read
  -- the branch of the time limit purges the queue
  case h_16 phase =>
    cases ran
    by_cases late : d.timedOut = true <;> simp_all [BurstRead]
  all_goals cases ran
  all_goals simp_all [BurstRead]

theorem BurstRead.ended {cfg : BenchmarkConfig} {count : Nat} {d : BurstRecovery.Locals} (read : BurstRead cfg count d)
    (phase : d.phase ∈ [.takeEnd, .purge, .queueAtEnd, .reread, .stopWorkers, .done]) (inTime : d.timedOut = false) :
    BurstRecovery.burstMessages cfg ≤ count := by
  have enough : d.timedOut = false → BurstRecovery.burstMessages cfg ≤ count := by
    simp only [List.mem_cons, List.not_mem_nil, or_false] at phase
    rcases phase with phase | phase | phase | phase | phase | phase <;> simpa only [BurstRead, phase] using read
  exact enough inTime

/-- In every run of a drain and of a burst, with whatever broker that delivers at
    least once and whatever counter: when the loop has ended in time, the messages
    are finished up to the executions that were repeated. -/
theorem messages_finished (counter : Counter σ α) (cfg : BenchmarkConfig) (clock : ℚ) :
    (∀ trace s, run (Drain.system (brokered counter cfg.messages (publishedFirst cfg)) cfg).step
        (Drain.init (brokered counter cfg.messages (publishedFirst cfg)) cfg clock) trace = some s →
      DrainEnded s.runner → Finished cfg.messages s.shared.1) ∧
    (∀ trace s, run (BurstRecovery.system (brokered counter (BurstRecovery.burstMessages cfg) 0) cfg).step
        (BurstRecovery.init (brokered counter (BurstRecovery.burstMessages cfg) 0) cfg clock) trace = some s →
      BurstEnded s.runner → Finished (BurstRecovery.burstMessages cfg) s.shared.1) := by
  constructor
  · intro trace s executed ⟨phase, inTime⟩
    have few : publishedFirst cfg ≤ cfg.messages := by
      unfold publishedFirst
      split_ifs <;> omega
    have accounted : Accounted counter cfg.messages s.shared := by
      refine System.run_kept (fun shared _ => Accounted counter cfg.messages shared) ?_ ?_
        (accounted_start counter few) executed
      · exact fun accounted worked => accounted_step accounted worked
      · intro now shared d reply next accounted ran
        obtain ⟨e, _, rfl⟩ := Option.map_eq_some_iff.mp ran
        exact accounted
    have watched := Milestones.run_watched executed
    obtain ⟨before, last, same, complete⟩ := watched.left phase
    have counted := watched.counted last (by simp [same])
    exact accounted.finished ((complete inTime).2.trans counted)
  · intro trace s executed ⟨phase, inTime⟩
    obtain ⟨accounted, read⟩ : Accounted counter (BurstRecovery.burstMessages cfg) s.shared ∧
        BurstRead cfg (counter.count s.shared.2) s.runner := by
      refine System.run_kept (fun shared d => Accounted counter (BurstRecovery.burstMessages cfg) shared ∧
        BurstRead cfg (counter.count shared.2) d) ?_ ?_
        ⟨accounted_start counter (Nat.zero_le _), by simp [BurstRead, BurstRecovery.init, BurstRecovery.Locals.init]⟩
        executed
      · intro now shared d a next ⟨accounted, read⟩ worked
        have grown := (step_count worked).1
        exact ⟨accounted_step accounted worked, read.later (by omega)⟩
      · intro now shared d reply next ⟨accounted, read⟩ ran
        obtain ⟨e, moved, rfl⟩ := Option.map_eq_some_iff.mp ran
        exact ⟨accounted, read.ran moved⟩
    exact accounted.finished (read.ended phase inTime)

/-- Two messages, and one worker. -/
def twoMessages : BenchmarkConfig := { oneWorker with messages := 2 }

/-- A message is delivered, executed, and delivered again, as it was not acknowledged. -/
def redelivered (message : Nat) : List (Label ℚ (Action Unit) Reply) :=
  [.work (.broker (.deliver message)), .work (.complete message ()), .work (.broker (.requeue message))]

/-- A message is delivered, executed and acknowledged. -/
def executed (message : Nat) : List (Label ℚ (Action Unit) Reply) :=
  [.work (.broker (.deliver message)), .work (.complete message ()), .work (.broker (.acknowledge message))]

/-- The statements of a drain up to its first poll, and those of this poll. -/
def drained (work : List (Label ℚ (Action Unit) Reply)) : List (Label ℚ (Action Unit) Reply) :=
  [.runner (.published []), .runner .returned, .runner .returned] ++ work ++ List.replicate 4 (.runner .returned)

/-- A drain in which one message is executed twice, and then both are done. -/
theorem messages_finished_repeated :
    ∃ s, run (Drain.system (brokered valueCounter 2 (publishedFirst twoMessages)) twoMessages).step
        (Drain.init (brokered valueCounter 2 (publishedFirst twoMessages)) twoMessages 0)
        (drained (redelivered 0 ++ executed 0 ++ executed 1)) = some s ∧
      s.shared.1.completed = [0, 0, 1] ∧ Finished 2 s.shared.1 := by
  have ran : (run (Drain.system (brokered valueCounter 2 (publishedFirst twoMessages)) twoMessages).step
      (Drain.init (brokered valueCounter 2 (publishedFirst twoMessages)) twoMessages 0)
      (drained (redelivered 0 ++ executed 0 ++ executed 1))).map
      (fun s => (s.runner.phase, s.runner.timedOut, s.shared.1.completed)) =
      some (.takeEnd, false, [0, 0, 1]) := by decide +kernel
  obtain ⟨s, reached, locals⟩ := Option.map_eq_some_iff.mp ran
  simp only [Prod.mk.injEq] at locals
  obtain ⟨phase, inTime, completed⟩ := locals
  exact ⟨s, reached, completed, (messages_finished valueCounter twoMessages 0).1 _ s reached ⟨by simp [phase], inTime⟩⟩

/-- A drain that ends in time with one message executed twice and the other never. -/
theorem message_lost_to_repetition :
    ∃ s, run (Drain.system (brokered valueCounter 2 (publishedFirst twoMessages)) twoMessages).step
        (Drain.init (brokered valueCounter 2 (publishedFirst twoMessages)) twoMessages 0)
        (drained (redelivered 0 ++ executed 0)) = some s ∧
      DrainEnded s.runner ∧ s.shared.1.published = 2 ∧ 1 ∉ s.shared.1.completed := by
  have ran : (run (Drain.system (brokered valueCounter 2 (publishedFirst twoMessages)) twoMessages).step
      (Drain.init (brokered valueCounter 2 (publishedFirst twoMessages)) twoMessages 0)
      (drained (redelivered 0 ++ executed 0))).map
      (fun s => (s.runner.phase, s.runner.timedOut, s.shared.1.published, s.shared.1.completed)) =
      some (.takeEnd, false, 2, [0, 0]) := by decide +kernel
  obtain ⟨s, reached, locals⟩ := Option.map_eq_some_iff.mp ran
  simp only [Prod.mk.injEq] at locals
  obtain ⟨phase, inTime, published, completed⟩ := locals
  exact ⟨s, reached, ⟨by simp [phase], inTime⟩, published, by simp [completed]⟩

end RepidBench.Completion
