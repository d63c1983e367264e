import RepidBench.BurstRecovery
import RepidBench.ProcessGroups
import RepidBench.Publishers

/-!
The processes of one run: the runner that `run_once` starts, the publishers and
workers that the runner starts, and their own children. `run_once` waits for the
runner; when that wait expires it kills the group of the runner, and when it is
interrupted it kills nothing.
-/
namespace RepidBench.Lifetimes
open Transition Polling ProcessGroups RepidBench.Runtime

/-! ## What the runner starts -/

inductive Role
  | runner | publisher | worker
  deriving DecidableEq

/-- What a mode does with processes, one after another. `attend` stands for the
    statements that start none and wait for none. -/
inductive Stage
  | publish | startWorkers | attend | startPublishers | cleanupPublishers | stopWorkers
  deriving DecidableEq

/-- The statements of the run functions that `run` calls. -/
def stages : Mode → List Stage
  | .base | .hc | .cpu | .nogt => [.publish, .startWorkers, .attend, .stopWorkers]
  | .burst => [.startWorkers, .attend, .publish, .attend, .stopWorkers]
  | .latency => [.startWorkers, .attend, .stopWorkers]
  | .steady => [.startWorkers, .attend, .startPublishers, .attend, .cleanupPublishers, .stopWorkers]

/-- The statements of the `finally` blocks. -/
def Stage.cleans : Stage → Bool
  | .cleanupPublishers | .stopWorkers => true
  | .publish | .startWorkers | .attend | .startPublishers => false

/-- The chunks that are published, a burst being of its own size. -/
def chunkCount (cfg : BenchmarkConfig) : Nat :=
  (Publishers.splitMessages (if cfg.mode = .burst then BurstRecovery.burstMessages cfg else cfg.messages)
    cfg.publishProcesses).length

/-- The processes that `start_workers` of the adapter starts. -/
def workerCount (cfg : BenchmarkConfig) : Nat :=
  match cfg.framework with
  | .repid | .faststream | .taskiq => cfg.processes
  | .celery => if cfg.greenThreads then cfg.processes else 1
  | .dramatiq => 1

/-- `subprocess_kwargs` starts the workers of these adapters in sessions of their
    own; the others start theirs with `multiprocessing`. -/
def ownSessions : Framework → Bool
  | .celery | .dramatiq | .taskiq => true
  | .repid | .faststream => false

/-- The processes outside the group of the runner. -/
def escapes (framework : Framework) : Role → Bool
  | .runner => false
  | .publisher => true
  | .worker => ownSessions framework

/-! ## The runner -/

/-- The statements that are left, the processes that the first of them has started,
    and the lists `workers` and `publisher_procs`. -/
structure Runner where
  stages : List Stage
  starting : List Nat := []
  workers : List Nat := []
  publishers : List Nat := []
  deriving DecidableEq

namespace Runner

/-- The process that the runner starts next; `_publish` starts one for each chunk if
    there are several, and publishes a single chunk itself. -/
def starts (cfg : BenchmarkConfig) (r : Runner) : Option Role :=
  match r.stages with
  | .publish :: _ => if 1 < chunkCount cfg ∧ r.starting.length < chunkCount cfg then some .publisher else none
  | .startPublishers :: _ => if r.starting.length < chunkCount cfg then some .publisher else none
  | .startWorkers :: _ => if r.starting.length < workerCount cfg then some .worker else none
  | _ => none

/-- The first statement is done: every process is started, and those that it waits
    for or terminates have ended. -/
def next (cfg : BenchmarkConfig) (table : Table Role) (r : Runner) : Option Runner :=
  let ended (pids : List Nat) : Bool := pids.all (fun pid => !table.alive pid)
  if r.starts cfg ≠ none then none
  else
    match r.stages with
    | .publish :: rest => if ended r.starting then some { r with stages := rest, starting := [] } else none
    | .startWorkers :: rest => some { r with stages := rest, starting := [], workers := r.starting }
    | .attend :: rest => some { r with stages := rest }
    | .startPublishers :: rest => some { r with stages := rest, starting := [], publishers := r.starting }
    | .cleanupPublishers :: rest => if ended r.publishers then some { r with stages := rest } else none
    | .stopWorkers :: rest => if ended r.workers then some { r with stages := rest } else none
    | [] => none

/-- The first statement raises: `_publish` terminates its publishers, what else was
    being started is not known to the `finally` blocks. -/
def raise (r : Runner) : Option Runner :=
  match r.stages with
  | .publish :: rest => some { r with
      stages := .cleanupPublishers :: rest.filter Stage.cleans
      starting := []
      publishers := r.starting }
  | .startWorkers :: rest | .startPublishers :: rest | .attend :: rest =>
    some { r with stages := rest.filter Stage.cleans, starting := [] }
  | _ => none

end Runner

/-! ## The run -/

/-- Where `run_once` is: waiting, after the kill, or at its end. -/
inductive Outer
  | waiting | killed | timedOut | interrupted | exited
  deriving DecidableEq

structure State where
  table : Table Role
  runner : Runner
  outer : Outer
  deriving DecidableEq

/-- `Popen(..., start_new_session=True)`: the process 0 leads the group 0. -/
def init (cfg : BenchmarkConfig) : State where
  table := [⟨0, .runner, true⟩]
  runner := { stages := stages cfg.mode }
  outer := .waiting

inductive Label
  | start | next | raise
  | fork (pid : Nat)
  | exit (pid : Nat)
  | expire | interrupt | finish
  deriving DecidableEq

/-- A process that the runner starts, in the way of its kind. -/
def started (framework : Framework) (table : Table Role) (role : Role) : Option (Table Role) :=
  if escapes framework role then some (table.startSession role)
  else table[0]?.map (fun runner => table.startChild runner role)

/-- A step of the runner, of any other process, or of `run_once`. -/
def step (cfg : BenchmarkConfig) (s : State) : Label → Option State
  | .start =>
    if s.table.alive 0 then
      (s.runner.starts cfg).bind (fun role => (started cfg.framework s.table role).map (fun table =>
        { s with
          table := table
          runner := { s.runner with starting := s.runner.starting ++ [s.table.length] } }))
    else none
  | .next =>
    if s.table.alive 0 then (s.runner.next cfg s.table).map (fun runner => { s with runner := runner }) else none
  | .raise => if s.table.alive 0 then s.runner.raise.map (fun runner => { s with runner := runner }) else none
  | .fork pid =>
    match s.table[pid]? with
    | some parent => if parent.alive then some { s with table := s.table.startChild parent parent.role } else none
    | none => none
  | .exit pid => if s.table.alive pid then some { s with table := s.table.exit pid } else none
  | .expire => if s.outer = .waiting then some { s with table := s.table.killpg 0, outer := .killed } else none
  | .interrupt => if s.outer = .waiting then some { s with outer := .interrupted } else none
  | .finish =>
    if s.outer = .killed then some { s with outer := .timedOut }
    else if s.outer = .waiting ∧ s.table.alive 0 = false then some { s with outer := .exited }
    else none

/-- The steps of a run, one by one. -/
inductive Steps (cfg : BenchmarkConfig) (s : State) : State → Prop
  | start (role : Role) (table : Table Role) (starting : List Nat) (alive : s.table.alive 0 = true)
      (starts : s.runner.starts cfg = some role) (executed : started cfg.framework s.table role = some table) :
      Steps cfg s { s with table := table, runner := { s.runner with starting := starting } }
  | move (runner : Runner) (moved : s.runner.next cfg s.table = some runner ∨ s.runner.raise = some runner) :
      Steps cfg s { s with runner := runner }
  | fork (parent : Process Role) (member : parent ∈ s.table) (alive : parent.alive = true) :
      Steps cfg s { s with table := s.table.startChild parent parent.role }
  | exit (pid : Nat) : Steps cfg s { s with table := s.table.exit pid }
  | expire : Steps cfg s { s with table := s.table.killpg 0, outer := .killed }
  | timedOut (killed : s.outer = .killed) : Steps cfg s { s with outer := .timedOut }
  | leave (outer : Outer) (other : outer = .interrupted ∨ outer = .exited) : Steps cfg s { s with outer := outer }

theorem step_cases {cfg : BenchmarkConfig} {s t : State} {a : Label} (stepped : step cfg s a = some t) :
    Steps cfg s t := by
  cases a with
  | start =>
    obtain ⟨alive, moved⟩ := Option.ite_none_right_eq_some.mp stepped
    obtain ⟨role, starts, moved⟩ := Option.bind_eq_some_iff.mp moved
    obtain ⟨table, executed, rfl⟩ := Option.map_eq_some_iff.mp moved
    exact .start role table _ alive starts executed
  | next =>
    obtain ⟨_, moved⟩ := Option.ite_none_right_eq_some.mp stepped
    obtain ⟨runner, next, rfl⟩ := Option.map_eq_some_iff.mp moved
    exact .move runner (.inl next)
  | raise =>
    obtain ⟨_, moved⟩ := Option.ite_none_right_eq_some.mp stepped
    obtain ⟨runner, raised, rfl⟩ := Option.map_eq_some_iff.mp moved
    exact .move runner (.inr raised)
  | fork pid =>
    simp only [step] at stepped
    cases found : s.table[pid]? with
    | none =>
      rw [found] at stepped
      cases stepped
    | some parent =>
      rw [found] at stepped
      obtain ⟨alive, made⟩ := Option.ite_none_right_eq_some.mp stepped
      cases made
      exact .fork parent (List.mem_of_getElem? found) alive
  | exit pid =>
    obtain ⟨_, made⟩ := Option.ite_none_right_eq_some.mp stepped
    cases made
    exact .exit pid
  | expire =>
    obtain ⟨_, made⟩ := Option.ite_none_right_eq_some.mp stepped
    cases made
    exact .expire
  | interrupt =>
    obtain ⟨_, made⟩ := Option.ite_none_right_eq_some.mp stepped
    cases made
    exact .leave .interrupted (.inl rfl)
  | finish =>
    simp only [step] at stepped
    by_cases killed : s.outer = .killed
    · rw [if_pos killed] at stepped
      cases stepped
      exact .timedOut killed
    · rw [if_neg killed] at stepped
      obtain ⟨_, made⟩ := Option.ite_none_right_eq_some.mp stepped
      cases made
      exact .leave .exited (.inr rfl)

/-! ## Every run -/

/-- The group of the runner is split off from the processes that escape it, and once
    the outer wait has expired nobody is left in it. -/
structure Kept (cfg : BenchmarkConfig) (s : State) : Prop where
  split : Table.Split 0 (escapes cfg.framework) s.table
  runner : s.table[0]?.map Process.role = some .runner
  gone : s.outer = .killed ∨ s.outer = .timedOut → Table.Gone 0 s.table

section
variable {cfg : BenchmarkConfig} {s t : State}

theorem Kept.runner_member (kept : Kept cfg s) : ∃ p, s.table[0]? = some p ∧ p.group = 0 := by
  obtain ⟨p, found, role⟩ := Option.map_eq_some_iff.mp kept.runner
  refine ⟨p, found, (kept.split.members p (List.mem_of_getElem? found)).mpr ?_⟩
  rw [role]
  rfl

/-- Nobody is left who could start a process for the runner. -/
theorem Kept.runner_dead (kept : Kept cfg s) (expired : s.outer = .killed ∨ s.outer = .timedOut) :
    s.table.alive 0 = false := by
  obtain ⟨p, found, own⟩ := kept.runner_member
  simp [Table.alive, found, kept.gone expired p (List.mem_of_getElem? found) own]

theorem init_kept (cfg : BenchmarkConfig) : Kept cfg (init cfg) where
  split := ⟨Nat.one_pos, by simp [init, escapes]⟩
  runner := rfl
  gone expired := by rcases expired with expired | expired <;> cases expired

theorem Kept.started (kept : Kept cfg s) {table : Table Role} {role : Role}
    (executed : started cfg.framework s.table role = some table) :
    Table.Split 0 (escapes cfg.framework) table ∧ table[0]? = s.table[0]? := by
  unfold Lifetimes.started at executed
  by_cases escaping : escapes cfg.framework role = true
  · rw [if_pos escaping] at executed
    cases executed
    exact ⟨kept.split.startSession escaping, List.getElem?_append_left kept.split.used⟩
  · rw [if_neg escaping] at executed
    obtain ⟨parent, found, rfl⟩ := Option.map_eq_some_iff.mp executed
    obtain ⟨p, there, own⟩ := kept.runner_member
    cases found.symm.trans there
    have member := List.mem_of_getElem? found
    refine ⟨kept.split.startChild member ?_, List.getElem?_append_left kept.split.used⟩
    rw [(kept.split.members parent member).mp own]
    simpa using escaping

theorem Kept.step {a : Label} (kept : Kept cfg s) (stepped : step cfg s a = some t) : Kept cfg t := by
  cases step_cases stepped with
  | start role table starting alive starts executed =>
    obtain ⟨split, same⟩ := kept.started executed
    refine ⟨split, (congrArg (Option.map Process.role) same).trans kept.runner, fun expired => ?_⟩
    rw [kept.runner_dead expired] at alive
    cases alive
  | move runner moved => exact ⟨kept.split, kept.runner, kept.gone⟩
  | fork parent member alive =>
    refine ⟨kept.split.startChild member rfl, ?_, fun expired => ?_⟩
    · exact (congrArg (Option.map Process.role) (List.getElem?_append_left kept.split.used)).trans kept.runner
    · exact (kept.gone expired).startChild member alive parent.role
  | exit pid =>
    refine ⟨kept.split.exit pid, ?_, fun expired => (kept.gone expired).exit pid⟩
    obtain ⟨p, found, role⟩ := Option.map_eq_some_iff.mp kept.runner
    show (s.table.exit pid)[0]?.map Process.role = some .runner
    rw [Table.exit, List.getElem?_modify, found, ← role]
    by_cases first : pid = 0 <;> simp [first, Table.ended]
  | expire =>
    refine ⟨kept.split.killpg 0, ?_, fun _ => Table.gone_killpg s.table 0⟩
    obtain ⟨p, found, role⟩ := Option.map_eq_some_iff.mp kept.runner
    show (s.table.killpg 0)[0]?.map Process.role = some .runner
    rw [Table.killpg, List.getElem?_map, found, ← role]
    by_cases own : p.group = 0 <;> simp [own, Table.ended]
  | timedOut killed => exact ⟨kept.split, kept.runner, fun _ => kept.gone (.inl killed)⟩
  | leave outer other =>
    refine ⟨kept.split, kept.runner, fun expired => ?_⟩
    rcases other with rfl | rfl <;> simp at expired

theorem run_kept {trace : List Label} (executed : run (step cfg) (init cfg) trace = some s) : Kept cfg s :=
  run_invariant (Kept cfg) (fun _ _ _ kept stepped => kept.step stepped) (init_kept cfg) executed

theorem noneEscaped_iff (framework : Framework) (table : Table Role) :
    Table.NoneEscaped (escapes framework) table ↔
      (∀ p ∈ table, p.role = .publisher → p.alive = false) ∧
      (ownSessions framework = true → ∀ p ∈ table, p.role = .worker → p.alive = false) := by
  constructor
  · intro none
    refine ⟨fun p member role => none p member (by rw [role]; rfl), fun own p member role => none p member ?_⟩
    rw [role]
    exact own
  · rintro ⟨publishers, workers⟩ p member escaping
    cases role : p.role with
    | runner =>
      rw [role] at escaping
      cases escaping
    | publisher => exact publishers p member role
    | worker =>
      rw [role] at escaping
      exact workers escaping p member role

end

/-- For every framework and mode and at every point of every run. The kill after the
    outer wait leaves nobody alive exactly when no publisher process is, and no worker
    of a framework that gives it a session of its own; this is still so when `run_once`
    returns. An interrupted wait leaves everybody as they are. -/
theorem outlived_iff (cfg : BenchmarkConfig) (trace : List Label) (s : State)
    (executed : run (step cfg) (init cfg) trace = some s) :
    (∀ t, step cfg s .expire = some t →
      (t.table.Quiet ↔ (∀ p ∈ s.table, p.role = .publisher → p.alive = false) ∧
        (ownSessions cfg.framework = true → ∀ p ∈ s.table, p.role = .worker → p.alive = false))) ∧
    (s.outer = .timedOut →
      (s.table.Quiet ↔ (∀ p ∈ s.table, p.role = .publisher → p.alive = false) ∧
        (ownSessions cfg.framework = true → ∀ p ∈ s.table, p.role = .worker → p.alive = false))) ∧
    ∀ t, step cfg s .interrupt = some t → (t.table.Quiet ↔ s.table.Quiet) := by
  have kept := run_kept executed
  refine ⟨fun t stepped => ?_, fun expired => ?_, fun t stepped => ?_⟩
  · obtain ⟨_, made⟩ := Option.ite_none_right_eq_some.mp stepped
    cases made
    rw [← noneEscaped_iff, ← kept.split.noneEscaped_killpg]
    exact (kept.split.killpg 0).quiet_iff (Table.gone_killpg s.table 0)
  · rw [← noneEscaped_iff]
    exact kept.split.quiet_iff (kept.gone (.inr expired))
  · obtain ⟨_, made⟩ := Option.ite_none_right_eq_some.mp stepped
    cases made
    rfl

/-- The worker of a latency run is started, and the outer wait expires. -/
def expiresAttending : List Label := [.start, .next, .expire, .finish]

/-- Nobody outlives a latency run of repid that is killed while it attends its worker. -/
theorem outlived_attending : ∃ s,
    run (step { oneWorker with mode := .latency }) (init { oneWorker with mode := .latency }) expiresAttending =
      some s ∧ s.table.Quiet := by
  have executed : run (step { oneWorker with mode := .latency }) (init { oneWorker with mode := .latency })
      expiresAttending = some ⟨[⟨0, .runner, false⟩, ⟨0, .worker, false⟩],
        ⟨[.attend, .stopWorkers], [], [1], []⟩, .timedOut⟩ := by decide +kernel
  exact ⟨_, executed, ((outlived_iff _ expiresAttending _ executed).2.1 rfl).mpr (by simp [ownSessions, oneWorker])⟩

/-- Two messages, and a publisher process for each. -/
def twoPublishers : BenchmarkConfig := { oneWorker with messages := 2, publishProcesses := 2 }

/-- The outer wait expires while the publishers are waited for: they outlive the run. -/
def expiresPublishing : List Label := [.start, .start, .expire, .finish]

theorem publishers_outlive : ∃ s, run (step twoPublishers) (init twoPublishers) expiresPublishing = some s ∧
    s.outer = .timedOut ∧ ∃ p ∈ s.table, p.role = .publisher ∧ p.alive = true := by
  have executed : run (step twoPublishers) (init twoPublishers) expiresPublishing =
      some ⟨[⟨0, .runner, false⟩, ⟨1, .publisher, true⟩, ⟨2, .publisher, true⟩],
        ⟨[.publish, .startWorkers, .attend, .stopWorkers], [1, 2], [], []⟩, .timedOut⟩ := by decide +kernel
  exact ⟨_, executed, rfl, ⟨1, .publisher, true⟩, by simp, rfl, rfl⟩

/-! ## Runs that start no publisher process -/

/-- The messages are published by the runner itself. -/
def PublishesItself (cfg : BenchmarkConfig) : Prop := cfg.mode = .latency ∨ cfg.mode ≠ .steady ∧ chunkCount cfg ≤ 1

/-- No statement that is left starts a publisher process, and none has been started. -/
structure Alone (cfg : BenchmarkConfig) (s : State) : Prop where
  stages : ∀ stage ∈ s.runner.stages, stage ≠ .startPublishers ∧ (stage = .publish → chunkCount cfg ≤ 1)
  roles : ∀ p ∈ s.table, p.role ≠ .publisher

section
variable {cfg : BenchmarkConfig} {s t : State}

theorem init_alone (itself : PublishesItself cfg) : Alone cfg (init cfg) where
  stages := by
    intro stage member
    rcases itself with latency | ⟨unsteady, single⟩
    · simp only [init, latency, Lifetimes.stages, List.mem_cons, List.not_mem_nil, or_false] at member
      rcases member with rfl | rfl | rfl <;> simp
    · refine ⟨?_, fun _ => single⟩
      rintro rfl
      cases mode : cfg.mode <;> simp [init, mode, Lifetimes.stages] at member
      exact unsteady mode
  roles := by simp [init]

theorem starts_role (alone : Alone cfg s) {role : Role} (starts : s.runner.starts cfg = some role) :
    role ≠ .publisher := by
  unfold Runner.starts at starts
  split at starts
  case h_1 rest left =>
    obtain ⟨⟨several, _⟩, _⟩ := Option.ite_none_right_eq_some.mp starts
    have single := (alone.stages .publish (by simp [left])).2 rfl
    omega
  case h_2 rest left => exact absurd rfl (alone.stages .startPublishers (by simp [left])).1
  case h_3 =>
    obtain ⟨_, same⟩ := Option.ite_none_right_eq_some.mp starts
    cases same
    simp
  case h_4 => cases starts

/-- The statements that are left were left before, or clean up. -/
theorem next_stages {table : Table Role} {r e : Runner} (moved : r.next cfg table = some e) :
    ∀ stage ∈ e.stages, stage ∈ r.stages := by
  unfold Runner.next at moved
  intro stage member
  split at moved
  · cases moved
  · split at moved
    case h_7 => cases moved
    case h_1 | h_5 | h_6 =>
      obtain ⟨_, made⟩ := Option.ite_none_right_eq_some.mp moved
      cases made
      simp_all
    all_goals
      cases moved
      simp_all

theorem raise_stages {r e : Runner} (moved : r.raise = some e) :
    ∀ stage ∈ e.stages, stage ∈ r.stages ∨ stage = .cleanupPublishers := by
  unfold Runner.raise at moved
  intro stage member
  split at moved
  case h_1 rest left =>
    cases moved
    rcases List.mem_cons.mp member with same | kept
    · exact .inr same
    · exact .inl (left ▸ List.mem_cons_of_mem _ (List.mem_filter.mp kept).1)
  case h_5 => cases moved
  all_goals
    cases moved
    simp_all

/-- However a process is started, it is the new one. -/
theorem started_append {framework : Framework} {table after : Table Role} {role : Role}
    (executed : started framework table role = some after) : ∃ group, after = table ++ [⟨group, role, true⟩] := by
  unfold started at executed
  split_ifs at executed
  · cases executed
    exact ⟨_, rfl⟩
  · obtain ⟨parent, _, rfl⟩ := Option.map_eq_some_iff.mp executed
    exact ⟨_, rfl⟩

theorem Alone.step {a : Label} (alone : Alone cfg s) (stepped : step cfg s a = some t) : Alone cfg t := by
  cases step_cases stepped with
  | start role table starting _ starts executed =>
    obtain ⟨group, rfl⟩ := started_append executed
    refine ⟨alone.stages, fun p member => ?_⟩
    rcases List.mem_append.mp member with old | new
    · exact alone.roles p old
    · rw [List.mem_singleton.mp new]
      exact starts_role alone starts
  | move runner moved =>
    refine ⟨fun stage member => ?_, alone.roles⟩
    rcases moved with next | raised
    · exact alone.stages stage (next_stages next stage member)
    · rcases raise_stages raised stage member with left | rfl
      · exact alone.stages stage left
      · simp
  | fork parent inside _ =>
    refine ⟨alone.stages, fun p member => ?_⟩
    rcases List.mem_append.mp member with old | new
    · exact alone.roles p old
    · rw [List.mem_singleton.mp new]
      exact alone.roles parent inside
  | exit pid =>
    refine ⟨alone.stages, fun p member => ?_⟩
    rcases Table.mem_exit member with old | ⟨_, q, inside, rfl⟩
    · exact alone.roles p old
    · exact alone.roles q inside
  | expire =>
    refine ⟨alone.stages, fun p member => ?_⟩
    obtain ⟨q, inside, rfl⟩ := List.mem_map.mp member
    split_ifs
    · exact alone.roles q inside
    · exact alone.roles q inside
  | timedOut | leave => exact ⟨alone.stages, alone.roles⟩

end

/-- Runs of repid and faststream that start no publisher process leave nobody alive
    after the outer wait, wherever the runner was. -/
theorem timedOut_quiet {cfg : BenchmarkConfig} {trace : List Label} {s : State} (itself : PublishesItself cfg)
    (together : ownSessions cfg.framework = false) (executed : run (step cfg) (init cfg) trace = some s)
    (expired : s.outer = .timedOut) : s.table.Quiet := by
  have kept := run_kept executed
  have alone := run_invariant (Alone cfg) (fun _ _ _ alone stepped => alone.step stepped) (init_alone itself) executed
  refine (kept.split.quiet_iff (kept.gone (.inr expired))).mpr ((noneEscaped_iff cfg.framework s.table).mpr ⟨?_, ?_⟩)
  · exact fun p member role => absurd role (alone.roles p member)
  · intro own
    rw [together] at own
    cases own

end RepidBench.Lifetimes
