import Mathlib.Data.List.Basic

/-!
Processes and their groups. A process that is started in a session of its own leads
a new group; any other is in the group of its parent. A signal to a group reaches
its members and nobody else, so what a kill leaves is decided by how the processes
were started.
-/
namespace RepidBench.ProcessGroups

universe u
variable {ρ : Type u}

structure Process (ρ : Type u) where
  group : Nat
  role : ρ
  alive : Bool
  deriving DecidableEq

/-- The processes by their ids; an id is not used again. -/
abbrev Table (ρ : Type u) := List (Process ρ)

namespace Table

/-- `start_new_session=True`: the process leads the group with its own id. -/
def startSession (table : Table ρ) (role : ρ) : Table ρ := table ++ [⟨table.length, role, true⟩]

/-- A child in the group of its parent. -/
def startChild (table : Table ρ) (parent : Process ρ) (role : ρ) : Table ρ := table ++ [⟨parent.group, role, true⟩]

def ended (p : Process ρ) : Process ρ := { p with alive := false }

/-- The process `pid` ends. -/
def exit (table : Table ρ) (pid : Nat) : Table ρ := table.modify pid ended

/-- `os.killpg(group, signal.SIGKILL)`. -/
def killpg (table : Table ρ) (group : Nat) : Table ρ := table.map (fun p => if p.group = group then ended p else p)

def alive (table : Table ρ) (pid : Nat) : Bool := table[pid]?.any Process.alive

/-- No process is alive. -/
def Quiet (table : Table ρ) : Prop := ∀ p ∈ table, p.alive = false

/-! ## Who is in a group -/

/-- The group `group` exists, and its members are the processes whose role does not escape it. -/
structure Split (group : Nat) (escapes : ρ → Bool) (table : Table ρ) : Prop where
  used : group < table.length
  members : ∀ p ∈ table, p.group = group ↔ escapes p.role = false

/-- Every member of the group has ended. -/
def Gone (group : Nat) (table : Table ρ) : Prop := ∀ p ∈ table, p.group = group → p.alive = false

/-- Nobody whose role escapes is alive. -/
def NoneEscaped (escapes : ρ → Bool) (table : Table ρ) : Prop := ∀ p ∈ table, escapes p.role = true → p.alive = false

section
variable {table : Table ρ} {group pid : Nat} {escapes : ρ → Bool}

theorem Split.startSession (split : Split group escapes table) {role : ρ} (escaping : escapes role = true) :
    Split group escapes (table.startSession role) := by
  refine ⟨by simpa [Table.startSession] using Nat.lt_succ_of_lt split.used, fun p member => ?_⟩
  rcases List.mem_append.mp member with old | new
  · exact split.members p old
  · obtain rfl := List.mem_singleton.mp new
    exact iff_of_false (Nat.ne_of_gt split.used) (by simp [escaping])

theorem Split.startChild (split : Split group escapes table) {parent : Process ρ} (member : parent ∈ table) {role : ρ}
    (same : escapes role = escapes parent.role) : Split group escapes (table.startChild parent role) := by
  refine ⟨by simpa [Table.startChild] using Nat.lt_succ_of_lt split.used, fun p inside => ?_⟩
  rcases List.mem_append.mp inside with old | new
  · exact split.members p old
  · obtain rfl := List.mem_singleton.mp new
    rw [same]
    exact split.members parent member

/-- What ends stays in its group. -/
theorem mem_exit {p : Process ρ} (member : p ∈ table.exit pid) :
    p ∈ table ∨ p.alive = false ∧ ∃ q ∈ table, p = ended q := by
  obtain ⟨i, found⟩ := List.getElem?_of_mem member
  rw [exit, List.getElem?_modify] at found
  obtain ⟨q, there, same⟩ := Option.map_eq_some_iff.mp found
  have inside := List.mem_of_getElem? there
  split_ifs at same
  · exact .inr ⟨same ▸ rfl, q, inside, same.symm⟩
  · exact .inl (same ▸ inside)

theorem Split.exit (split : Split group escapes table) (pid : Nat) : Split group escapes (table.exit pid) := by
  refine ⟨by simpa [Table.exit] using split.used, fun p member => ?_⟩
  rcases mem_exit member with old | ⟨_, q, inside, rfl⟩
  · exact split.members p old
  · exact split.members q inside

theorem Split.killpg (split : Split group escapes table) (other : Nat) : Split group escapes (table.killpg other) := by
  refine ⟨by simpa [Table.killpg] using split.used, fun p member => ?_⟩
  obtain ⟨q, inside, rfl⟩ := List.mem_map.mp member
  split_ifs
  · exact split.members q inside
  · exact split.members q inside

theorem gone_killpg (table : Table ρ) (group : Nat) : Gone group (table.killpg group) := by
  intro p member own
  obtain ⟨q, _, rfl⟩ := List.mem_map.mp member
  split_ifs at own ⊢ with same
  · rfl
  · exact absurd own same

theorem Gone.killpg (gone : Gone group table) (other : Nat) : Gone group (table.killpg other) := by
  intro p member own
  obtain ⟨q, inside, rfl⟩ := List.mem_map.mp member
  split_ifs at own ⊢
  · rfl
  · exact gone q inside own

theorem Gone.exit (gone : Gone group table) (pid : Nat) : Gone group (table.exit pid) := by
  intro p member own
  rcases mem_exit member with old | ⟨dead, _⟩
  · exact gone p old own
  · exact dead

theorem Gone.startSession (gone : Gone group table) (used : group < table.length) (role : ρ) :
    Gone group (table.startSession role) := by
  intro p member own
  rcases List.mem_append.mp member with old | new
  · exact gone p old own
  · obtain rfl := List.mem_singleton.mp new
    exact absurd own (Nat.ne_of_gt used)

/-- A process that is alive is in another group, and so are its children. -/
theorem Gone.startChild (gone : Gone group table) {parent : Process ρ} (member : parent ∈ table)
    (running : parent.alive = true) (role : ρ) : Gone group (table.startChild parent role) := by
  intro p inside own
  rcases List.mem_append.mp inside with old | new
  · exact gone p old own
  · obtain rfl := List.mem_singleton.mp new
    rw [gone parent member own] at running
    cases running

/-- Once a group is gone, nobody is alive exactly when nobody escaped it. -/
theorem Split.quiet_iff (split : Split group escapes table) (gone : Gone group table) :
    Quiet table ↔ NoneEscaped escapes table := by
  refine ⟨fun quiet p member _ => quiet p member, fun none p member => ?_⟩
  cases kind : escapes p.role with
  | false => exact gone p member ((split.members p member).mpr kind)
  | true => exact none p member kind

/-- A kill of the group spares exactly those that escape it. -/
theorem Split.noneEscaped_killpg (split : Split group escapes table) :
    NoneEscaped escapes (table.killpg group) ↔ NoneEscaped escapes table := by
  simp only [NoneEscaped, Table.killpg, List.forall_mem_map]
  refine forall₂_congr (fun p member => ?_)
  by_cases own : p.group = group
  · have inside : escapes p.role = false := (split.members p member).mp own
    rw [if_pos own]
    simp [ended, inside]
  · rw [if_neg own]

end

end Table

end RepidBench.ProcessGroups
