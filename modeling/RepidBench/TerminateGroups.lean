import RepidBench.ProcessGroups
import RepidBench.Transition

/-!
`terminate_processes`, which sends SIGTERM to the groups of the given processes and
SIGKILL to those whose leader does not exit in time. It looks at the leaders only,
so a group whose leader has exited is left to itself, and a leader that cannot be
reaped after its SIGKILL ends the loop over the others.
-/
namespace RepidBench.TerminateGroups
open Transition ProcessGroups

universe u
variable {ρ : Type u}

/-! ## The two loops -/

/-- The statement that `terminate_processes` is at, with the processes left in its
    loop: `proc.poll()` and `os.killpg`, `proc.wait(timeout=remaining)`, the handler of
    `TimeoutExpired` and the `proc.wait(timeout=5)` in it. -/
inductive Phase
  | signalling (left : List Nat)
  | waiting (left : List Nat)
  | killing (pid : Nat) (left : List Nat)
  | reaping (pid : Nat) (left : List Nat)
  | returned
  | raised
  deriving DecidableEq, Repr

inductive Signal
  | term | kill
  deriving DecidableEq, Repr

/-- The processes, and the signals that have been sent to groups. -/
structure State (ρ : Type u) where
  table : Table ρ
  phase : Phase
  sent : List (Nat × Signal)
  deriving DecidableEq

/-- `skip` for a leader that `poll` finds exited, `denied` for an `OSError` of
    `os.killpg`, and the steps of the processes themselves, which may exit or not
    when they have been signalled. -/
inductive Label
  | skip | terminate | exited | expire | kill | denied | reaped | reapFails | done
  | exit (pid : Nat)
  | fork (pid : Nat)
  deriving DecidableEq, Repr

def step (procs : List Nat) (s : State ρ) (a : Label) : Option (State ρ) :=
  match s.phase, a with
  | .signalling (pid :: left), .skip =>
    if s.table.alive pid then none else some { s with phase := .signalling left }
  | .signalling (pid :: left), .terminate =>
    if s.table.alive pid then some { s with phase := .signalling left, sent := s.sent ++ [(pid, .term)] } else none
  | .signalling (pid :: left), .denied =>
    if s.table.alive pid then some { s with phase := .signalling left } else none
  | .signalling [], .done => some { s with phase := .waiting procs }
  | .waiting (pid :: left), .exited =>
    if s.table.alive pid then none else some { s with phase := .waiting left }
  | .waiting (pid :: left), .expire =>
    if s.table.alive pid then some { s with phase := .killing pid left } else none
  | .waiting [], .done => some { s with phase := .returned }
  | .killing pid left, .kill => some {
      table := s.table.killpg pid
      phase := .reaping pid left
      sent := s.sent ++ [(pid, .kill)] }
  | .killing pid left, .denied => some { s with table := s.table.exit pid, phase := .reaping pid left }
  | .reaping pid left, .reaped =>
    if s.table.alive pid then none else some { s with phase := .waiting left }
  | .reaping _ _, .reapFails => some { s with phase := .raised }
  | _, .exit pid => if s.table.alive pid then some { s with table := s.table.exit pid } else none
  | _, .fork pid =>
    match s.table[pid]? with
    | some parent => if parent.alive then some { s with table := s.table.startChild parent parent.role } else none
    | none => none
  | _, _ => none

def init (table : Table ρ) (procs : List Nat) : State ρ := ⟨table, .signalling procs, []⟩

/-! ## What one step does -/

/-- Where the loops go. -/
inductive Moves (procs : List Nat) (s : State ρ) : Label → State ρ → Prop
  | signal (a : Label) (pid : Nat) (left : List Nat) (sent : List (Nat × Signal))
      (here : s.phase = .signalling (pid :: left))
      (same : ∀ group, (group, Signal.kill) ∈ sent ↔ (group, .kill) ∈ s.sent) :
      Moves procs s a { s with phase := .signalling left, sent := sent }
  | signalled (here : s.phase = .signalling []) : Moves procs s .done { s with phase := .waiting procs }
  | exited (pid : Nat) (left : List Nat) (here : s.phase = .waiting (pid :: left)) :
      Moves procs s .exited { s with phase := .waiting left }
  | expire (pid : Nat) (left : List Nat) (here : s.phase = .waiting (pid :: left)) :
      Moves procs s .expire { s with phase := .killing pid left }
  | returned (here : s.phase = .waiting []) : Moves procs s .done { s with phase := .returned }
  | kill (pid : Nat) (left : List Nat) (here : s.phase = .killing pid left) :
      Moves procs s .kill ⟨s.table.killpg pid, .reaping pid left, s.sent ++ [(pid, .kill)]⟩
  | denied (pid : Nat) (left : List Nat) (here : s.phase = .killing pid left) :
      Moves procs s .denied { s with table := s.table.exit pid, phase := .reaping pid left }
  | reaped (pid : Nat) (left : List Nat) (here : s.phase = .reaping pid left) :
      Moves procs s .reaped { s with phase := .waiting left }
  | reapFails (pid : Nat) (left : List Nat) (here : s.phase = .reaping pid left) :
      Moves procs s .reapFails { s with phase := .raised }
  | exit (pid : Nat) : Moves procs s (.exit pid) { s with table := s.table.exit pid }
  | fork (pid : Nat) (parent : Process ρ) (member : parent ∈ s.table) (alive : parent.alive = true) :
      Moves procs s (.fork pid) { s with table := s.table.startChild parent parent.role }

theorem step_moves {procs : List Nat} {s t : State ρ} {a : Label} (stepped : step procs s a = some t) :
    Moves procs s a t := by
  unfold step at stepped
  split at stepped
  case h_1 pid left here =>
    obtain ⟨_, made⟩ := Option.ite_none_left_eq_some.mp stepped
    cases made
    exact .signal .skip pid left s.sent here (fun _ => Iff.rfl)
  case h_2 pid left here =>
    obtain ⟨_, made⟩ := Option.ite_none_right_eq_some.mp stepped
    cases made
    exact .signal .terminate pid left _ here (by simp)
  case h_3 pid left here =>
    obtain ⟨_, made⟩ := Option.ite_none_right_eq_some.mp stepped
    cases made
    exact .signal .denied pid left s.sent here (fun _ => Iff.rfl)
  case h_4 here =>
    cases stepped
    exact .signalled here
  case h_5 pid left here =>
    obtain ⟨_, made⟩ := Option.ite_none_left_eq_some.mp stepped
    cases made
    exact .exited pid left here
  case h_6 pid left here =>
    obtain ⟨_, made⟩ := Option.ite_none_right_eq_some.mp stepped
    cases made
    exact .expire pid left here
  case h_7 here =>
    cases stepped
    exact .returned here
  case h_8 pid left here =>
    cases stepped
    exact .kill pid left here
  case h_9 pid left here =>
    cases stepped
    exact .denied pid left here
  case h_10 pid left here =>
    obtain ⟨_, made⟩ := Option.ite_none_left_eq_some.mp stepped
    cases made
    exact .reaped pid left here
  case h_11 pid left here =>
    cases stepped
    exact .reapFails pid left here
  case h_12 pid =>
    obtain ⟨_, made⟩ := Option.ite_none_right_eq_some.mp stepped
    cases made
    exact .exit pid
  case h_13 pid =>
    cases found : s.table[pid]? with
    | none =>
      rw [found] at stepped
      cases stepped
    | some parent =>
      rw [found] at stepped
      obtain ⟨alive, made⟩ := Option.ite_none_right_eq_some.mp stepped
      cases made
      exact .fork pid parent (List.mem_of_getElem? found) alive
  case h_14 => cases stepped

/-! ## What is left of the groups -/

/-- The step leaves a process or the loop while somebody in a group that it should
    have ended is alive. -/
def spares (s : State ρ) (a : Label) : Prop :=
  match s.phase, a with
  | .waiting (pid :: _), .exited => ¬ Table.Gone pid s.table
  | .killing pid _, .denied => ¬ Table.Gone pid (s.table.exit pid)
  | .reaping _ left, .reapFails => ∃ pid ∈ left, ¬ Table.Gone pid s.table
  | _, _ => False

/-- All groups have ended. -/
def AllGone (procs : List Nat) (s : State ρ) : Prop := ∀ pid ∈ procs, Table.Gone pid s.table

/-- The groups of the processes that the loop is done with have ended. -/
def Ended (procs : List Nat) (s : State ρ) : Prop :=
  match s.phase with
  | .signalling _ => True
  | .waiting left => ∀ pid ∈ procs, pid ∉ left → Table.Gone pid s.table
  | .killing pid left => ∀ other ∈ procs, other ∉ pid :: left → Table.Gone other s.table
  | .reaping _ left => ∀ other ∈ procs, other ∉ left → Table.Gone other s.table
  | .returned | .raised => AllGone procs s

/-- The groups that were sent SIGKILL have ended. -/
def Killed (s : State ρ) : Prop := ∀ pid, (pid, Signal.kill) ∈ s.sent → Table.Gone pid s.table

section
variable {procs : List Nat} {s t : State ρ} {a : Label}

/-- A group that has ended stays so. -/
theorem step_gone (moves : Moves procs s a t) {pid : Nat} (gone : Table.Gone pid s.table) : Table.Gone pid t.table := by
  cases moves with
  | kill other => exact gone.killpg other
  | denied other | exit other => exact gone.exit other
  | fork _ parent member alive => exact gone.startChild member alive parent.role
  | _ => exact gone

theorem Ended.mono (ended : Ended procs s) (same : t.phase = s.phase)
    (keeps : ∀ pid, Table.Gone pid s.table → Table.Gone pid t.table) : Ended procs t := by
  unfold Ended at ended ⊢
  rw [same]
  cases here : s.phase with
  | signalling => trivial
  | waiting left | killing _ left | reaping _ left =>
    rw [here] at ended
    exact fun pid member done => keeps pid (ended pid member done)
  | returned | raised =>
    rw [here] at ended
    exact fun pid member => keeps pid (ended pid member)

theorem step_ended (ended : Ended procs s) (spared : ¬ spares s a) (moves : Moves procs s a t) : Ended procs t := by
  have keeps : ∀ pid, Table.Gone pid s.table → Table.Gone pid t.table := fun _ => step_gone moves
  unfold Ended at ended
  cases moves with
  | signal => trivial
  | signalled here => exact fun pid member outside => absurd member outside
  | exited pid left here =>
    rw [here] at ended
    have gone : Table.Gone pid s.table := by
      simpa [spares, here] using spared
    intro other member outside
    by_cases own : other = pid
    · exact own ▸ gone
    · exact ended other member (List.not_mem_cons_of_ne_of_not_mem own outside)
  | expire pid left here =>
    rw [here] at ended
    exact ended
  | returned here =>
    rw [here] at ended
    exact fun pid member => ended pid member List.not_mem_nil
  | kill pid left here =>
    rw [here] at ended
    intro other member outside
    by_cases own : other = pid
    · exact own ▸ Table.gone_killpg s.table pid
    · exact keeps other (ended other member (List.not_mem_cons_of_ne_of_not_mem own outside))
  | denied pid left here =>
    rw [here] at ended
    have gone : Table.Gone pid (s.table.exit pid) := by
      simpa [spares, here] using spared
    intro other member outside
    by_cases own : other = pid
    · exact own ▸ gone
    · exact keeps other (ended other member (List.not_mem_cons_of_ne_of_not_mem own outside))
  | reaped pid left here =>
    rw [here] at ended
    exact ended
  | reapFails pid left here =>
    rw [here] at ended
    have gone : ∀ other ∈ left, Table.Gone other s.table := by
      simpa [spares, here] using spared
    intro other member
    by_cases waits : other ∈ left
    · exact gone other waits
    · exact ended other member waits
  | exit pid => exact Ended.mono (t := { s with table := s.table.exit pid }) ended rfl keeps
  | fork _ parent =>
    exact Ended.mono (t := { s with table := s.table.startChild parent parent.role }) ended rfl keeps

theorem step_killed (killed : Killed s) (moves : Moves procs s a t) : Killed t := by
  have keeps : ∀ pid, Table.Gone pid s.table → Table.Gone pid t.table := fun _ => step_gone moves
  intro pid signalled
  cases moves with
  | signal _ _ _ _ _ same => exact killed pid ((same pid).mp signalled)
  | kill other _ _ =>
    rcases List.mem_append.mp signalled with earlier | now
    · exact keeps pid (killed pid earlier)
    · simp only [List.mem_singleton, Prod.mk.injEq, and_true] at now
      exact now ▸ Table.gone_killpg s.table other
  | _ => exact keeps pid (killed pid signalled)

end

/-- For all groups and whatever their members do, when `terminate_processes` has
    returned or raised. If no wait has ended for a leader that left somebody in its
    group, no SIGKILL was denied to a group that it would have ended, and no failed reap
    came before a group with somebody in it, then all groups have ended; and they have
    ended exactly if those have that were not sent SIGKILL. -/
theorem terminate_processes_reaches {ρ : Type} (procs : List Nat) (table : Table ρ) (trace : List Label) (s : State ρ)
    (executed : run (step procs) (init table procs) trace = some s)
    (left : s.phase = .returned ∨ s.phase = .raised) :
    (¬ Occurs (step procs) spares (init table procs) trace → AllGone procs s) ∧
    (AllGone procs s ↔ ∀ pid ∈ procs, (pid, Signal.kill) ∉ s.sent → Table.Gone pid s.table) := by
  constructor
  · have preserved : ∀ past m a n, (run (step procs) (init table procs) past = some m ∧
        (¬ Occurs (step procs) spares (init table procs) past → Ended procs m)) → step procs m a = some n →
        (run (step procs) (init table procs) (past ++ [a]) = some n ∧
          (¬ Occurs (step procs) spares (init table procs) (past ++ [a]) → Ended procs n)) := by
      rintro past m a n ⟨reached, ended⟩ stepped
      refine ⟨run_snoc_iff.mpr ⟨m, reached, stepped⟩, fun never => ?_⟩
      rw [occurs_snoc_iff reached, not_or] at never
      exact step_ended (ended never.1) never.2 (step_moves stepped)
    intro never
    have ended := (run_history _ preserved [] ⟨rfl, fun _ => trivial⟩ executed).2 never
    unfold Ended at ended
    rcases left with here | here <;> rw [here] at ended <;> exact ended
  · have start : Killed (init table procs) := nofun
    have killed := run_invariant Killed (fun _ _ _ killed stepped => step_killed killed (step_moves stepped)) start
      executed
    constructor
    · exact fun gone pid member _ => gone pid member
    · intro others pid member
      by_cases signalled : (pid, Signal.kill) ∈ s.sent
      · exact killed pid signalled
      · exact others pid member signalled

/-- A leader and its child; the child ignores SIGTERM. -/
def leaderAndChild : Table Unit := [⟨0, (), true⟩, ⟨0, (), true⟩]

/-- The leader ignores it as well, until it is killed with its child. -/
theorem terminate_processes_kills : ∃ s, run (step [0]) (init leaderAndChild [0])
      [.terminate, .done, .expire, .kill, .reaped, .done] = some s ∧ AllGone [0] s := by
  obtain ⟨s, executed, here⟩ : ∃ s, run (step [0]) (init leaderAndChild [0])
      [.terminate, .done, .expire, .kill, .reaped, .done] = some s ∧ s.phase = .returned := ⟨_, rfl, rfl⟩
  refine ⟨s, executed, (terminate_processes_reaches [0] leaderAndChild _ s executed (.inl here)).2.mpr ?_⟩
  cases executed
  simp [init]

/-- The child outlives a leader that exits on SIGTERM, and the second group one that
    cannot be reaped. -/
theorem terminate_processes_leaves :
    (∃ s, run (step [0]) (init leaderAndChild [0]) [.terminate, .exit 0, .done, .exited, .done] = some s ∧
      s.phase = .returned ∧ s.table.alive 1 = true) ∧
    (∃ s, run (step [0, 1]) (init [⟨0, (), true⟩, ⟨1, (), true⟩] [0, 1])
        [.terminate, .terminate, .done, .expire, .kill, .reapFails] = some s ∧
      s.phase = .raised ∧ (1, Signal.kill) ∉ s.sent ∧ s.table.alive 1 = true) := by
  refine ⟨⟨_, rfl, rfl, rfl⟩, ⟨_, rfl, rfl, ?_, rfl⟩⟩
  simp [init]

end RepidBench.TerminateGroups
