import RepidBench.SharedFiles

/-!
The two counters of a run, and what a worker that dies leaves behind. The file has
the lock of `flock`, which the kernel drops with the process. The `Value` of
`multiprocessing` has a recursive lock in shared memory, taken by `get_lock()` and
once more by each access to `.value`, and nobody releases it for a dead process.
-/
namespace RepidBench.CounterLock
open Transition

/-! ## A recursive lock -/

section
universe u
variable {P : Type u} [DecidableEq P]

/-- `RLock.acquire` of a lock that is free, or held by its owner to a depth. -/
def acquire (lock : Option (P × Nat)) (p : P) : Option (Option (P × Nat)) :=
  match lock with
  | none => some (some (p, 1))
  | some (owner, depth) => if owner = p then some (some (p, depth + 1)) else none

/-- `RLock.release`. -/
def release (lock : Option (P × Nat)) (p : P) : Option (Option (P × Nat)) :=
  match lock with
  | none => none
  | some (owner, depth) => if owner = p then some (if depth ≤ 1 then none else some (p, depth - 1)) else none

/-- How deep a party holds the lock. -/
def held (lock : Option (P × Nat)) (p : P) : Nat :=
  match lock with
  | none => 0
  | some (owner, depth) => if owner = p then depth else 0

/-- A lock that is held is held at least once. -/
def Proper (lock : Option (P × Nat)) : Prop := ∀ owner depth, lock = some (owner, depth) → 1 ≤ depth

variable {lock lock' : Option (P × Nat)} {p : P}

theorem held_pos (proper : Proper lock) : 1 ≤ held lock p ↔ ∃ depth, lock = some (p, depth) := by
  cases lock with
  | none => simp [held]
  | some entry =>
    obtain ⟨owner, depth⟩ := entry
    have positive := proper owner depth rfl
    by_cases own : owner = p
    · simp [held, own, positive]
    · simp [held, own]

theorem acquire_spec (proper : Proper lock) (acquired : acquire lock p = some lock') :
    Proper lock' ∧ held lock' p = held lock p + 1 ∧ (∀ q, q ≠ p → held lock q = 0 ∧ held lock' q = 0) ∧
      ∃ depth, lock' = some (p, depth) := by
  cases lock with
  | none =>
    cases acquired
    refine ⟨?_, ?_, fun q other => ⟨rfl, if_neg (Ne.symm other)⟩, _, rfl⟩
    · rintro _ _ ⟨⟩
      exact le_rfl
    · simp [held]
  | some entry =>
    obtain ⟨owner, depth⟩ := entry
    simp only [acquire, Option.ite_none_right_eq_some, Option.some.injEq] at acquired
    obtain ⟨rfl, rfl⟩ := acquired
    refine ⟨?_, ?_, fun q other => ⟨if_neg (Ne.symm other), if_neg (Ne.symm other)⟩, _, rfl⟩
    · rintro _ _ ⟨⟩
      exact Nat.le_add_left 1 depth
    · simp [held]

theorem release_spec (proper : Proper lock) (released : release lock p = some lock') :
    Proper lock' ∧ held lock' p + 1 = held lock p ∧ (∀ q, q ≠ p → held lock q = 0 ∧ held lock' q = 0) ∧
      ∃ depth, lock = some (p, depth) := by
  cases lock with
  | none => cases released
  | some entry =>
    obtain ⟨owner, depth⟩ := entry
    have positive := proper owner depth rfl
    simp only [release, Option.ite_none_right_eq_some, Option.some.injEq] at released
    obtain ⟨rfl, rfl⟩ := released
    by_cases once : depth ≤ 1
    · rw [if_pos once]
      refine ⟨by rintro _ _ ⟨⟩, ?_, fun q other => ⟨if_neg (Ne.symm other), rfl⟩, _, rfl⟩
      simp only [held, if_true]
      omega
    · rw [if_neg once]
      refine ⟨?_, ?_, fun q other => ⟨if_neg (Ne.symm other), if_neg (Ne.symm other)⟩, _, rfl⟩
      · rintro _ _ ⟨⟩
        omega
      · simp only [held, if_true]
        omega

/-- Acquiring blocks only where somebody else holds the lock. -/
theorem acquire_isSome : (acquire lock p).isSome ↔ ∀ owner depth, lock = some (owner, depth) → owner = p := by
  cases lock with
  | none => simp [acquire]
  | some entry =>
    obtain ⟨owner, depth⟩ := entry
    by_cases own : owner = p <;> simp [acquire, own]

theorem release_isSome (proper : Proper lock) (holds : 1 ≤ held lock p) : (release lock p).isSome := by
  obtain ⟨depth, rfl⟩ := (held_pos proper).mp holds
  simp [release]

end

/-! ## The `Value` -/

/-- Where a worker stands: between two increments, or in `with _counter.get_lock():
    _counter.value += 1`, whose read and write each take the lock again. -/
inductive Worker
  | idle
  | entered
  | getting
  | got (val : ℤ)
  | read (val : ℤ)
  | setting (val : ℤ)
  | stored
  | leaving
  | killed
  deriving DecidableEq, Repr

/-- Where the runner stands in its read of `counter.value`. -/
inductive Runner
  | idle
  | getting
  | got (val : ℤ)
  deriving DecidableEq, Repr

inductive Party
  | worker (w : Nat)
  | runner
  deriving DecidableEq, Repr

structure State where
  value : ℤ
  lock : Option (Party × Nat)
  workers : Nat → Worker
  runner : Runner

inductive Action
  | enter
  | acquire
  | load
  | store
  | release
  | leave
  | kill
  deriving DecidableEq, Repr

inductive RunnerAction
  | acquire
  | load
  | release
  deriving DecidableEq, Repr

inductive Label
  | worker (w : Nat) (a : Action)
  | runner (a : RunnerAction)
  deriving DecidableEq, Repr

/-- What a `c_long` holds after an assignment. -/
def cLong (value : ℤ) : ℤ := value.bmod (2 ^ 64)

def State.move (s : State) (w : Nat) (phase : Worker) : State :=
  { s with workers := Function.update s.workers w phase }

@[simp] theorem State.move_self (s : State) (w : Nat) (phase : Worker) : (s.move w phase).workers w = phase := by
  simp [State.move]

theorem State.move_other (s : State) {v w : Nat} (phase : Worker) (other : v ≠ w) :
    (s.move w phase).workers v = s.workers v := by
  simp [State.move, other]

/-- The worker goes on once the lock operation has been done. -/
def State.locked (s : State) (w : Nat) (phase : Worker)
    (operation : Option (Party × Nat) → Party → Option (Option (Party × Nat))) : Option State :=
  (operation s.lock (.worker w)).map (fun lock => { s.move w phase with lock := lock })

/-- One step of a worker. -/
def workerStep (s : State) (w : Nat) (a : Action) : Option State :=
  match s.workers w, a with
  | .idle, .enter => s.locked w .entered acquire
  | .entered, .acquire => s.locked w .getting acquire
  | .getting, .load => some (s.move w (.got s.value))
  | .got val, .release => s.locked w (.read val) release
  | .read val, .acquire => s.locked w (.setting val) acquire
  | .setting val, .store => some { s.move w .stored with value := cLong (val + 1) }
  | .stored, .release => s.locked w .leaving release
  | .leaving, .leave => s.locked w .idle release
  | .killed, _ => none
  | _, .kill => some (s.move w .killed)
  | _, _ => none

/-- One step of the runner. -/
def runnerStep (s : State) (a : RunnerAction) : Option State :=
  match s.runner, a with
  | .idle, .acquire => (acquire s.lock .runner).map (fun lock => { s with lock := lock, runner := .getting })
  | .getting, .load => some { s with runner := .got s.value }
  | .got _, .release => (release s.lock .runner).map (fun lock => { s with lock := lock, runner := .idle })
  | _, _ => none

def step (s : State) : Label → Option State
  | .worker w a => workerStep s w a
  | .runner a => runnerStep s a

/-- `Value(ctypes.c_long, 0)`. -/
def init : State := ⟨0, none, fun _ => .idle, .idle⟩

/-! ## What one step does -/

/-- How often the lock is held where a worker stands. -/
def Worker.depth : Worker → Nat
  | .idle | .killed => 0
  | .entered | .read _ | .leaving => 1
  | .getting | .got _ | .setting _ | .stored => 2

def Runner.depth : Runner → Nat
  | .idle => 0
  | .getting | .got _ => 1

section
variable {s t : State}

/-- A step of a worker that does not die: the lock follows its phase. -/
inductive Changes (s : State) (w : Nat) (phase : Worker) : State → Prop
  | acquires (lock : Option (Party × Nat)) (acquired : acquire s.lock (.worker w) = some lock)
      (deeper : phase.depth = (s.workers w).depth + 1) : Changes s w phase { s.move w phase with lock := lock }
  | releases (lock : Option (Party × Nat)) (released : release s.lock (.worker w) = some lock)
      (shallower : phase.depth + 1 = (s.workers w).depth) : Changes s w phase { s.move w phase with lock := lock }
  | keeps (value : ℤ) (same : phase.depth = (s.workers w).depth) :
      Changes s w phase { s.move w phase with value := value }

theorem workerStep_cases {w : Nat} {a : Action} (stepped : workerStep s w a = some t) :
    s.workers w ≠ .killed ∧
      ((a ≠ .kill ∧ ∃ phase, phase ≠ .killed ∧ Changes s w phase t) ∨ (a = .kill ∧ t = s.move w .killed)) := by
  have acquires {phase phase' : Worker} (here : s.workers w = phase) (deeper : phase'.depth = phase.depth + 1)
      (moved : s.locked w phase' acquire = some t) : Changes s w phase' t := by
    obtain ⟨lock, acquired, rfl⟩ := Option.map_eq_some_iff.mp moved
    exact .acquires lock acquired (by rw [here, deeper])
  have releases {phase phase' : Worker} (here : s.workers w = phase) (shallower : phase'.depth + 1 = phase.depth)
      (moved : s.locked w phase' release = some t) : Changes s w phase' t := by
    obtain ⟨lock, released, rfl⟩ := Option.map_eq_some_iff.mp moved
    exact .releases lock released (by rw [here, shallower])
  unfold workerStep at stepped
  split at stepped
  case h_1 here => exact ⟨by simp [here], .inl ⟨nofun, .entered, nofun, acquires here rfl stepped⟩⟩
  case h_2 here => exact ⟨by simp [here], .inl ⟨nofun, .getting, nofun, acquires here rfl stepped⟩⟩
  case h_3 here =>
    cases stepped
    exact ⟨by simp [here], .inl ⟨nofun, .got s.value, nofun, .keeps s.value (by rw [here]; rfl)⟩⟩
  case h_4 val here => exact ⟨by simp [here], .inl ⟨nofun, .read val, nofun, releases here rfl stepped⟩⟩
  case h_5 val here => exact ⟨by simp [here], .inl ⟨nofun, .setting val, nofun, acquires here rfl stepped⟩⟩
  case h_6 val here =>
    cases stepped
    exact ⟨by simp [here], .inl ⟨nofun, .stored, nofun, .keeps (cLong (val + 1)) (by rw [here]; rfl)⟩⟩
  case h_7 here => exact ⟨by simp [here], .inl ⟨nofun, .leaving, nofun, releases here rfl stepped⟩⟩
  case h_8 here => exact ⟨by simp [here], .inl ⟨nofun, .idle, nofun, releases here rfl stepped⟩⟩
  case h_9 | h_11 => cases stepped
  case h_10 alive =>
    cases stepped
    exact ⟨alive, .inr ⟨rfl, rfl⟩⟩

theorem runnerStep_cases {a : RunnerAction} (stepped : runnerStep s a = some t) : ∃ phase,
    (∃ lock, acquire s.lock .runner = some lock ∧ phase.depth = s.runner.depth + 1 ∧
      t = { s with lock := lock, runner := phase }) ∨
    (∃ lock, release s.lock .runner = some lock ∧ phase.depth + 1 = s.runner.depth ∧
      t = { s with lock := lock, runner := phase }) ∨
    (1 ≤ s.runner.depth ∧ phase.depth = s.runner.depth ∧ t = { s with runner := phase }) := by
  unfold runnerStep at stepped
  split at stepped
  case h_1 here =>
    obtain ⟨lock, acquired, rfl⟩ := Option.map_eq_some_iff.mp stepped
    exact ⟨.getting, .inl ⟨lock, acquired, by rw [here]; rfl, rfl⟩⟩
  case h_2 here =>
    cases stepped
    exact ⟨.got s.value, .inr (.inr ⟨by rw [here]; exact le_rfl, by rw [here]; rfl, rfl⟩)⟩
  case h_3 here =>
    obtain ⟨lock, released, rfl⟩ := Option.map_eq_some_iff.mp stepped
    exact ⟨.idle, .inr (.inl ⟨lock, released, by rw [here]; rfl, rfl⟩)⟩
  case h_4 => cases stepped

/-! ## The holder of the lock -/

/-- Each live party holds the lock to the depth of its place. -/
structure Inv (s : State) : Prop where
  proper : Proper s.lock
  workers : ∀ w, s.workers w ≠ .killed → held s.lock (.worker w) = (s.workers w).depth
  runner : held s.lock .runner = s.runner.depth

/-- The lock is held by a worker that is no longer alive. -/
def DeadHolds (s : State) : Prop := ∃ w depth, s.lock = some (.worker w, depth) ∧ s.workers w = .killed

/-- A worker dies while it holds the lock. -/
def killsHolder (s : State) (a : Label) : Prop := ∃ w depth, a = .worker w .kill ∧ s.lock = some (.worker w, depth)

theorem init_inv : Inv init := ⟨nofun, fun _ _ => rfl, rfl⟩

theorem deadHolds_iff (proper : Proper s.lock) :
    DeadHolds s ↔ ∃ w, 1 ≤ held s.lock (.worker w) ∧ s.workers w = .killed := by
  constructor
  · rintro ⟨w, depth, owned, dead⟩
    exact ⟨w, (held_pos proper).mpr ⟨depth, owned⟩, dead⟩
  · rintro ⟨w, holds, dead⟩
    obtain ⟨depth, owned⟩ := (held_pos proper).mp holds
    exact ⟨w, depth, owned, dead⟩

/-- The lock of a party that is alive is not held by a dead worker. -/
theorem not_deadHolds {w : Nat} (proper : Proper s.lock) (alive : s.workers w ≠ .killed)
    (others : ∀ q, q ≠ .worker w → held s.lock q = 0) : ¬ DeadHolds s := by
  rw [deadHolds_iff proper]
  rintro ⟨v, holds, dead⟩
  by_cases same : v = w
  · exact alive (same ▸ dead)
  · have nothing := others (.worker v) (fun equal => same (Party.worker.inj equal))
    omega

theorem worker_moved {w : Nat} {phase : Worker} {lock : Option (Party × Nat)} (inv : Inv s) (proper : Proper lock)
    (own : phase ≠ .killed → held lock (.worker w) = phase.depth)
    (others : ∀ q, q ≠ .worker w → held lock q = held s.lock q) {value : ℤ} :
    Inv { s.move w phase with lock := lock, value := value } := by
  refine ⟨proper, fun v alive => ?_, ?_⟩
  · by_cases same : v = w
    · subst same
      simp only [State.move_self] at alive ⊢
      exact own alive
    · simp only [s.move_other phase same] at alive ⊢
      rw [others _ (fun equal => same (Party.worker.inj equal))]
      exact inv.workers v alive
  · rw [others .runner nofun]
    exact inv.runner

/-- A worker that acquires or releases the lock is the only one that can hold it, before
    and after. -/
theorem worker_locked {w : Nat} {phase : Worker} {lock : Option (Party × Nat)} (inv : Inv s)
    (alive : s.workers w ≠ .killed) (living : phase ≠ .killed) (proper : Proper lock)
    (own : held lock (.worker w) = phase.depth)
    (others : ∀ q, q ≠ .worker w → held s.lock q = 0 ∧ held lock q = 0) :
    Inv { s.move w phase with lock := lock } ∧ ¬ DeadHolds { s.move w phase with lock := lock } ∧ ¬ DeadHolds s := by
  refine ⟨worker_moved inv proper (fun _ => own) ?_, ?_, ?_⟩
  · intro q other
    rw [(others q other).1, (others q other).2]
  · apply not_deadHolds proper
    · show (s.move w phase).workers w ≠ .killed
      rwa [State.move_self]
    · intro q other
      exact (others q other).2
  · apply not_deadHolds inv.proper alive
    intro q other
    exact (others q other).1

/-- While the runner acquires or releases the lock, no worker holds it. -/
theorem runner_locked {lock : Option (Party × Nat)} (inv : Inv s) (phase : Runner) (proper : Proper lock)
    (own : held lock .runner = phase.depth) (others : ∀ q, q ≠ .runner → held s.lock q = 0 ∧ held lock q = 0) :
    Inv { s with lock := lock, runner := phase } ∧ ¬ DeadHolds { s with lock := lock, runner := phase } ∧
      ¬ DeadHolds s := by
  refine ⟨⟨proper, ?_, own⟩, ?_, ?_⟩
  · intro w alive
    rw [← inv.workers w alive, (others (.worker w) nofun).1, (others (.worker w) nofun).2]
  · rw [deadHolds_iff proper]
    rintro ⟨v, holds, _⟩
    have nothing := (others (.worker v) nofun).2
    simp only [nothing] at holds
    omega
  · rw [deadHolds_iff inv.proper]
    rintro ⟨v, holds, _⟩
    have nothing := (others (.worker v) nofun).1
    omega

/-- A dead worker gets hold of the lock only by dying with it, and keeps it. -/
theorem step_inv {a : Label} (inv : Inv s) (stepped : step s a = some t) :
    Inv t ∧ (DeadHolds t ↔ DeadHolds s ∨ killsHolder s a) := by
  cases a with
  | worker w a =>
    obtain ⟨alive, ⟨live, phase, living, changes⟩ | ⟨rfl, rfl⟩⟩ := workerStep_cases stepped
    · have spared : ¬ killsHolder s (.worker w a) := by
        rintro ⟨_, _, ⟨⟩, _⟩
        exact live rfl
      have own := inv.workers w alive
      have stays : (s.move w phase).workers w ≠ .killed := by rwa [State.move_self]
      cases changes with
      | acquires lock acquired deeper =>
        obtain ⟨proper, grown, others, -⟩ := acquire_spec inv.proper acquired
        obtain ⟨kept, after, before⟩ := worker_locked inv alive living proper (by omega) others
        exact ⟨kept, iff_of_false after (not_or.mpr ⟨before, spared⟩)⟩
      | releases lock released shallower =>
        obtain ⟨proper, shrunk, others, -⟩ := release_spec inv.proper released
        obtain ⟨kept, after, before⟩ := worker_locked inv alive living proper (by omega) others
        exact ⟨kept, iff_of_false after (not_or.mpr ⟨before, spared⟩)⟩
      | keeps value same =>
        refine ⟨worker_moved inv inv.proper (fun _ => by omega) (fun _ _ => rfl), ?_⟩
        rw [or_iff_left spared]
        refine exists_congr (fun v => exists_congr (fun depth => and_congr_right (fun _ => ?_)))
        by_cases equal : v = w
        · subst equal
          exact iff_of_false stays alive
        · exact iff_of_eq (congrArg (· = _) (s.move_other phase equal))
    · refine ⟨worker_moved inv inv.proper (fun dies => absurd rfl dies) (fun _ _ => rfl), ?_⟩
      constructor
      · rintro ⟨v, depth, owned, dead⟩
        by_cases equal : v = w
        · subst equal
          exact .inr ⟨v, depth, rfl, owned⟩
        · exact .inl ⟨v, depth, owned, (s.move_other .killed equal).symm.trans dead⟩
      · rintro (⟨v, depth, owned, dead⟩ | ⟨v, depth, ⟨⟩, owned⟩)
        · by_cases equal : v = w
          · exact absurd (equal ▸ dead) alive
          · exact ⟨v, depth, owned, (s.move_other .killed equal).trans dead⟩
        · exact ⟨_, depth, owned, s.move_self _ .killed⟩
  | runner a =>
    have spared : ¬ killsHolder s (.runner a) := by
      rintro ⟨_, _, ⟨⟩, _⟩
    have own := inv.runner
    rw [or_iff_left spared]
    obtain ⟨phase, ⟨lock, acquired, deeper, rfl⟩ | ⟨lock, released, shallower, rfl⟩ | ⟨inside, same, rfl⟩⟩ :=
      runnerStep_cases stepped
    · obtain ⟨proper, grown, others, -⟩ := acquire_spec inv.proper acquired
      obtain ⟨kept, after, before⟩ := runner_locked inv phase proper (by omega) others
      exact ⟨kept, iff_of_false after before⟩
    · obtain ⟨proper, shrunk, others, -⟩ := release_spec inv.proper released
      obtain ⟨kept, after, before⟩ := runner_locked inv phase proper (by omega) others
      exact ⟨kept, iff_of_false after before⟩
    · exact ⟨⟨inv.proper, inv.workers, by simp only; omega⟩, Iff.rfl⟩

theorem run_dead {trace : List Label} (executed : run step init trace = some s) :
    Inv s ∧ (DeadHolds s ↔ Occurs step killsHolder init trace) := by
  apply marked_iff_occurs Inv DeadHolds (fun _ _ _ inv stepped => step_inv inv stepped) init_inv _ executed
  rintro ⟨_, _, ⟨⟩, _⟩

/-! ## The read of the runner -/

/-- The runner's read can be completed, without another death. -/
def CanRead (s : State) : Prop :=
  ∃ trace t, run step s (trace ++ [.runner .release]) = some t ∧ ∀ a ∈ trace, ∀ w, a ≠ .worker w .kill

/-- While a dead worker holds the lock, the runner does nothing. -/
theorem blocked {trace : List Label} (inv : Inv s) (dead : DeadHolds s) (executed : run step s trace = some t)
    (a : RunnerAction) : .runner a ∉ trace := by
  induction trace generalizing s with
  | nil => nofun
  | cons b rest ih =>
    obtain ⟨m, first, later⟩ := run_cons_iff.mp executed
    obtain ⟨kept, marks⟩ := step_inv inv first
    intro member
    rcases List.mem_cons.mp member with rfl | after
    · obtain ⟨w, holds, _⟩ := (deadHolds_iff inv.proper).mp dead
      obtain ⟨phase, ⟨lock, acquired, _⟩ | ⟨lock, released, _⟩ | ⟨inside, _⟩⟩ := runnerStep_cases first
      · have nothing := (acquire_spec inv.proper acquired).2.2.1 (.worker w) nofun
        omega
      · have nothing := (release_spec inv.proper released).2.2.1 (.worker w) nofun
        omega
      · obtain ⟨depth, owned⟩ := (held_pos inv.proper).mp holds
        have own := inv.runner
        rw [owned] at own
        simp only [held, reduceCtorEq, if_false] at own
        omega
    · exact ih kept (marks.mpr (.inl dead)) later after

/-- The steps that a worker has before it in its increment. -/
def Worker.left : Worker → Nat
  | .idle | .killed => 0
  | .leaving => 1
  | .stored => 2
  | .setting _ => 3
  | .read _ => 4
  | .got _ => 5
  | .getting => 6
  | .entered => 7

/-- A worker can make its next step, and is the only one that may hold the lock then. -/
def GoesOn (s : State) (w : Nat) : Prop :=
  ∃ a t, a ≠ .kill ∧ workerStep s w a = some t ∧ (t.workers w).left + 1 = (s.workers w).left ∧
    t.workers w ≠ .killed ∧ t.runner = s.runner ∧ ∀ owner depth, t.lock = some (owner, depth) → owner = .worker w

theorem holder_goes_on {w depth : Nat} (inv : Inv s) (alive : s.workers w ≠ .killed)
    (owned : s.lock = some (.worker w, depth)) : GoesOn s w := by
  have positive := inv.proper (.worker w) depth owned
  have own := inv.workers w alive
  have acquired : acquire s.lock (.worker w) = some (some (.worker w, depth + 1)) := by simp [acquire, owned]
  obtain ⟨lock, released, after⟩ : ∃ lock, release s.lock (.worker w) = some lock ∧
      ∀ owner depth, lock = some (owner, depth) → owner = .worker w := by
    refine ⟨_, by simp only [release, owned, if_true]; rfl, fun owner rest same => ?_⟩
    split_ifs at same
    cases same
    rfl
  have mine : ∀ owner rest, some (Party.worker w, depth + 1) = some (owner, rest) → owner = .worker w := by
    rintro _ _ ⟨⟩
    rfl
  have kept : ∀ owner rest, s.lock = some (owner, rest) → owner = .worker w := by
    rw [owned]
    rintro _ _ ⟨⟩
    rfl
  have goes {operation lock'} (phase : Worker) (a : Action) (live : a ≠ .kill)
      (done : operation s.lock (.worker w) = some lock')
      (own : ∀ owner rest, lock' = some (owner, rest) → owner = .worker w)
      (fewer : phase.left + 1 = (s.workers w).left) (living : phase ≠ .killed)
      (stepped : workerStep s w a = s.locked w phase operation) : GoesOn s w := by
    refine ⟨a, { s.move w phase with lock := lock' }, live, ?_, ?_, ?_, rfl, own⟩
    · rw [stepped, State.locked, done, Option.map_some]
    · rwa [show (_ : State).workers w = phase from s.move_self w phase]
    · rwa [show (_ : State).workers w = phase from s.move_self w phase]
  have stays (value : ℤ) (phase : Worker) (a : Action) (live : a ≠ .kill)
      (fewer : phase.left + 1 = (s.workers w).left) (living : phase ≠ .killed)
      (stepped : workerStep s w a = some { s.move w phase with value := value }) :
      GoesOn s w := by
    refine ⟨a, _, live, stepped, ?_, ?_, rfl, kept⟩
    · rwa [show (_ : State).workers w = phase from s.move_self w phase]
    · rwa [show (_ : State).workers w = phase from s.move_self w phase]
  cases here : s.workers w with
  | idle =>
    rw [here, owned] at own
    simp only [held, if_true, Worker.depth] at own
    omega
  | killed => exact absurd here alive
  | entered =>
    exact goes .getting .acquire nofun acquired mine (by rw [here]; rfl) nofun (by simp only [workerStep, here])
  | getting =>
    exact stays s.value (.got s.value) .load nofun (by rw [here]; rfl) nofun (by simp only [workerStep, here]; rfl)
  | got val =>
    exact goes (.read val) .release nofun released after (by rw [here]; rfl) nofun (by simp only [workerStep, here])
  | read val =>
    exact goes (.setting val) .acquire nofun acquired mine (by rw [here]; rfl) nofun (by simp only [workerStep, here])
  | setting val =>
    exact stays (cLong (val + 1)) .stored .store nofun (by rw [here]; rfl) nofun (by simp only [workerStep, here])
  | stored =>
    exact goes .leaving .release nofun released after (by rw [here]; rfl) nofun (by simp only [workerStep, here])
  | leaving =>
    exact goes .idle .leave nofun released after (by rw [here]; rfl) nofun (by simp only [workerStep, here])

theorem lock_freed {w : Nat} (inv : Inv s) (alive : s.workers w ≠ .killed)
    (own : ∀ owner depth, s.lock = some (owner, depth) → owner = .worker w) :
    ∃ trace t, run step s trace = some t ∧ (∀ a ∈ trace, ∀ v, a ≠ .worker v .kill) ∧ t.lock = none ∧
      t.runner = s.runner := by
  induction left : (s.workers w).left generalizing s with
  | zero =>
    have free : s.lock = none := by
      cases owned : s.lock with
      | none => rfl
      | some entry =>
        obtain ⟨owner, depth⟩ := entry
        obtain rfl := own owner depth owned
        obtain ⟨_, _, _, _, fewer, _⟩ := holder_goes_on inv alive owned
        omega
    exact ⟨[], s, rfl, nofun, free, rfl⟩
  | succ n ih =>
    cases owned : s.lock with
    | none => exact ⟨[], s, rfl, nofun, owned, rfl⟩
    | some entry =>
      obtain ⟨owner, depth⟩ := entry
      obtain rfl := own owner depth owned
      obtain ⟨a, m, live, stepped, fewer, alive', same, own'⟩ := holder_goes_on inv alive owned
      have kept := (step_inv (a := .worker w a) inv stepped).1
      obtain ⟨trace, t, executed, spared, free, same'⟩ := ih kept alive' own' (by omega)
      refine ⟨.worker w a :: trace, t, run_cons_iff.mpr ⟨m, stepped, executed⟩, ?_, free, same'.trans same⟩
      intro b member v equal
      rcases List.mem_cons.mp member with rfl | later
      · exact live (Label.worker.inj equal).2
      · exact spared b later v equal

theorem read_alone (inv : Inv s) (own : ∀ owner depth, s.lock = some (owner, depth) → owner = .runner) : CanRead s := by
  have finish {m : State} (value : ℤ) (got : m.runner = .got value) (inv : Inv m) :
      ∃ t, runnerStep m .release = some t := by
    have holds : 1 ≤ held m.lock .runner := by rw [inv.runner, got]; exact le_rfl
    obtain ⟨lock, released⟩ := Option.isSome_iff_exists.mp (release_isSome inv.proper holds)
    exact ⟨{ m with lock := lock, runner := .idle }, by simp only [runnerStep, got, released, Option.map_some]⟩
  have load {m : State} (getting : m.runner = .getting) (inv : Inv m) :
      ∃ t, run step m [.runner .load, .runner .release] = some t := by
    have stepped : step m (.runner .load) = some { m with runner := .got m.value } := by
      simp only [step, runnerStep, getting]
    obtain ⟨t, last⟩ := finish m.value rfl (step_inv inv stepped).1
    exact ⟨t, run_cons_iff.mpr ⟨_, stepped, run_cons_iff.mpr ⟨t, last, rfl⟩⟩⟩
  cases here : s.runner with
  | idle =>
    obtain ⟨lock, acquired⟩ := Option.isSome_iff_exists.mp (acquire_isSome.mpr own)
    have stepped : step s (.runner .acquire) = some { s with lock := lock, runner := .getting } := by
      simp only [step, runnerStep, here, acquired, Option.map_some]
    obtain ⟨t, later⟩ := load rfl (step_inv inv stepped).1
    refine ⟨[.runner .acquire, .runner .load], t, run_cons_iff.mpr ⟨_, stepped, later⟩, ?_⟩
    simp
  | getting =>
    obtain ⟨t, executed⟩ := load here inv
    exact ⟨[.runner .load], t, executed, by simp⟩
  | got value =>
    obtain ⟨t, last⟩ := finish value here inv
    exact ⟨[], t, run_cons_iff.mpr ⟨t, last, rfl⟩, nofun⟩

theorem canRead_iff (inv : Inv s) : CanRead s ↔ ¬ DeadHolds s := by
  constructor
  · rintro ⟨trace, t, executed, _⟩ dead
    apply blocked inv dead executed .release
    simp
  · intro free
    cases owned : s.lock with
    | none => exact read_alone inv (by simp [owned])
    | some entry =>
      obtain ⟨owner, depth⟩ := entry
      cases owner with
      | runner =>
        apply read_alone inv
        rw [owned]
        rintro _ _ ⟨⟩
        rfl
      | worker w =>
        have alive : s.workers w ≠ .killed := fun dead => free ⟨w, depth, owned, dead⟩
        have own : ∀ owner depth, s.lock = some (owner, depth) → owner = .worker w := by
          rw [owned]
          rintro _ _ ⟨⟩
          rfl
        obtain ⟨trace, m, executed, spared, unlocked, same⟩ := lock_freed inv alive own
        have kept := run_invariant Inv (fun _ _ _ inv stepped => (step_inv inv stepped).1) inv executed
        obtain ⟨rest, t, executed', spared'⟩ := read_alone kept (by simp [unlocked])
        refine ⟨trace ++ rest, t, ?_, ?_⟩
        · rw [List.append_assoc, run_append, executed]
          exact executed'
        · intro a member
          rcases List.mem_append.mp member with early | late
          · exact spared a early
          · exact spared' a late

end

/-! ## The file -/

section
universe u
variable {L : Type u}

/-- The worker is in its section of `counter_incr_mmap`. -/
def inCounter : SharedFiles.Worker L → Bool
  | .counterLocked | .counterLoaded _ | .counterClosing => true
  | _ => false

/-- The lock of the file is held by a worker in its section. -/
def FileHolder (s : SharedFiles.State L) : Prop := ∀ w, s.counterLock = some w → inCounter (s.workers w)

variable [DecidableEq L]

theorem file_step {s t : SharedFiles.State L} {a : SharedFiles.Label L} (holder : FileHolder s)
    (stepped : SharedFiles.step s a = some t) : FileHolder t := by
  cases a with
  | reader r a =>
    rcases SharedFiles.readerStep_cases stepped with ⟨_, _, _, rfl⟩ | ⟨_, _, _, rfl⟩ | ⟨_, _, _, rfl⟩ |
      ⟨_, _, _, _, _, _, _, rfl⟩ | ⟨_, rfl⟩ <;> exact holder
  | worker v a =>
    have moves := SharedFiles.workerStep_moves stepped
    intro w held
    have before := holder w
    by_cases own : w = v
    · subst own
      cases moves with
      | kill => simp [SharedFiles.dropped] at held
      | _ => simp_all [SharedFiles.State.move, inCounter]
    · cases moves with
      | lockCounter _ _ => simp_all [SharedFiles.State.move]
      | unlockCounter _ => simp at held
      | kill =>
        have earlier : s.counterLock = some w := by
          simp only [SharedFiles.dropped] at held
          split_ifs at held
          exact held
        simpa [SharedFiles.State.move, own] using before earlier
      | _ => simpa [SharedFiles.State.move, own] using before held

end

/-- In every run: the lock of the file is never held by a dead worker, so a read of
    the counter is always possible; the lock of the `Value` is held by a dead worker if
    and only if some worker died while it held the lock, and exactly then the read of
    the runner can no longer be completed. -/
theorem dead_holds_iff {L : Type} [DecidableEq L] (zero : L) (capacity : Nat)
    (fileTrace : List (SharedFiles.Label L)) (file : SharedFiles.State L)
    (fileReached : run SharedFiles.step (SharedFiles.init zero capacity) fileTrace = some file)
    (trace : List Label) (s : State) (reached : run step init trace = some s) :
    ((∀ w, file.counterLock = some w → file.workers w ≠ .killed) ∧
      ∀ r, file.readers r = .idle → (SharedFiles.step file (.reader r (.readCounter file.counter))).isSome) ∧
    (DeadHolds s ↔ Occurs step killsHolder init trace) ∧ (CanRead s ↔ ¬ DeadHolds s) := by
  obtain ⟨inv, marks⟩ := run_dead reached
  refine ⟨⟨fun w held dead => ?_, fun r idle => ?_⟩, marks, canRead_iff inv⟩
  · have start : FileHolder (SharedFiles.init zero capacity) := by
      intro w held
      cases held
    have holder := run_invariant FileHolder (fun _ _ _ inv stepped => file_step inv stepped) start fileReached
    have inside := holder w held
    rw [dead] at inside
    cases inside
  · simp [SharedFiles.step, SharedFiles.readerStep, idle]

/-- A worker is killed in its increment: of the file before its store, and of the
    `Value` just after it has entered. -/
theorem dead_holds_killed :
    ∃ file s, run SharedFiles.step (SharedFiles.init (0 : ℤ) 1)
        [.worker 0 .openCounter, .worker 0 .lockCounter, .worker 0 .kill] = some file ∧
      run step init [.worker 0 .enter, .worker 0 .kill] = some s ∧
      (∀ w, file.counterLock = some w → file.workers w ≠ .killed) ∧ ¬ CanRead s := by
  obtain ⟨file, fileReached⟩ : ∃ file, run SharedFiles.step (SharedFiles.init (0 : ℤ) 1)
      [.worker 0 .openCounter, .worker 0 .lockCounter, .worker 0 .kill] = some file := ⟨_, rfl⟩
  obtain ⟨s, reached⟩ : ∃ s, run step init [.worker 0 .enter, .worker 0 .kill] = some s := ⟨_, rfl⟩
  obtain ⟨⟨spared, -⟩, marks, reads⟩ := dead_holds_iff (0 : ℤ) 1 _ file fileReached _ s reached
  refine ⟨file, s, fileReached, reached, spared, fun possible => reads.mp possible (marks.mpr ?_)⟩
  exact ⟨[.worker 0 .enter], .worker 0 .kill, [], _, rfl, rfl, 0, 1, rfl, rfl⟩

/-- The lock of the `Value` stays with a worker that was killed between entering and
    leaving `get_lock()`, and no continuation lets the runner read. -/
theorem dead_holds_value :
    ∃ s, run step init [.worker 0 .enter, .worker 0 .kill] = some s ∧ DeadHolds s ∧
      ∀ trace t, run step s trace = some t → ∀ a, .runner a ∉ trace := by
  obtain ⟨s, reached⟩ : ∃ s, run step init [.worker 0 .enter, .worker 0 .kill] = some s := ⟨_, rfl⟩
  obtain ⟨inv, marks⟩ := run_dead reached
  have dead : DeadHolds s := marks.mpr ⟨[.worker 0 .enter], .worker 0 .kill, [], _, rfl, rfl, 0, 1, rfl, rfl⟩
  exact ⟨s, reached, dead, fun trace t executed a => blocked inv dead executed a⟩

end RepidBench.CounterLock
