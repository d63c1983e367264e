import Mathlib.Data.List.Dedup
import Mathlib.Data.List.Range

/-!
Delivery at least once. A broker hands a message out until it is acknowledged; when
a consumer is lost first, the message is ready again, while its execution may still
come to its end. Executions are counted against the messages that have one.
-/
namespace RepidBench.AtLeastOnce

/-! ## The broker -/

/-- Messages are numbered as they are published. A delivered one is unacknowledged
    and executing; `completed` has the message of each execution completed so far. -/
structure Broker where
  published : Nat := 0
  ready : List Nat := []
  unacknowledged : List Nat := []
  executing : List Nat := []
  completed : List Nat := []
  deriving DecidableEq

/-- A broker that holds the first `count` messages. -/
def Broker.holding (count : Nat) : Broker := { published := count, ready := List.range count }

/-- What happens to messages besides the end of an execution; `requeue` is the loss
    of the consumer that holds a message, `abandon` that of an execution. -/
inductive Event
  | publish
  | deliver (message : Nat)
  | acknowledge (message : Nat)
  | requeue (message : Nat)
  | abandon (message : Nat)
  deriving DecidableEq, Repr

/-- One event at a broker to which `total` messages are published at most. -/
def Broker.step (total : Nat) (b : Broker) : Event → Option Broker
  | .publish =>
    if b.published < total then some { b with published := b.published + 1, ready := b.ready ++ [b.published] } else none
  | .deliver message =>
    if message ∈ b.ready then
      some { b with
        ready := b.ready.erase message
        unacknowledged := message :: b.unacknowledged
        executing := message :: b.executing }
    else none
  | .acknowledge message =>
    if message ∈ b.unacknowledged then some { b with unacknowledged := b.unacknowledged.erase message } else none
  | .requeue message =>
    if message ∈ b.unacknowledged then
      some { b with unacknowledged := b.unacknowledged.erase message, ready := message :: b.ready }
    else none
  | .abandon message =>
    if message ∈ b.executing then some { b with executing := b.executing.erase message } else none

/-- An execution of a message comes to its end. -/
def Broker.complete (b : Broker) (message : Nat) : Option Broker :=
  if message ∈ b.executing then
    some { b with executing := b.executing.erase message, completed := b.completed ++ [message] }
  else none

/-- Only published messages are anywhere, and `total` of them at most. -/
structure Broker.Known (total : Nat) (b : Broker) : Prop where
  published : b.published ≤ total
  ready : ∀ m ∈ b.ready, m < b.published
  unacknowledged : ∀ m ∈ b.unacknowledged, m < b.published
  executing : ∀ m ∈ b.executing, m < b.published
  completed : ∀ m ∈ b.completed, m < b.published

theorem Broker.holding_known {total count : Nat} (few : count ≤ total) : (Broker.holding count).Known total :=
  ⟨few, fun _ => List.mem_range.mp, by simp [holding], by simp [holding], by simp [holding]⟩

/-- No event but the end of an execution completes one. -/
theorem Broker.step_known {total : Nat} {b c : Broker} {e : Event} (known : b.Known total)
    (stepped : b.step total e = some c) : c.Known total ∧ c.completed = b.completed := by
  obtain ⟨published, ready, unacknowledged, executing, completed⟩ := known
  cases e with
  | publish =>
    obtain ⟨room, made⟩ := Option.ite_none_right_eq_some.mp stepped
    cases made
    have later {l : List Nat} (below : ∀ m ∈ l, m < b.published) : ∀ m ∈ l, m < b.published + 1 :=
      fun m member => Nat.lt_succ_of_lt (below m member)
    refine ⟨⟨room, fun m member => ?_, later unacknowledged, later executing, later completed⟩, rfl⟩
    rcases List.mem_append.mp member with old | new
    · exact later ready m old
    · rw [List.mem_singleton.mp new]
      exact Nat.lt_succ_self _
  | deliver message =>
    obtain ⟨waits, made⟩ := Option.ite_none_right_eq_some.mp stepped
    cases made
    refine ⟨⟨published, fun m member => ready m (List.mem_of_mem_erase member), ?_, ?_, completed⟩, rfl⟩
    · simpa using ⟨ready message waits, unacknowledged⟩
    · simpa using ⟨ready message waits, executing⟩
  | acknowledge message =>
    obtain ⟨_, made⟩ := Option.ite_none_right_eq_some.mp stepped
    cases made
    exact ⟨⟨published, ready, fun m member => unacknowledged m (List.mem_of_mem_erase member), executing, completed⟩, rfl⟩
  | requeue message =>
    obtain ⟨held, made⟩ := Option.ite_none_right_eq_some.mp stepped
    cases made
    refine ⟨⟨published, ?_, fun m member => unacknowledged m (List.mem_of_mem_erase member), executing, completed⟩, rfl⟩
    simpa using ⟨unacknowledged message held, ready⟩
  | abandon message =>
    obtain ⟨_, made⟩ := Option.ite_none_right_eq_some.mp stepped
    cases made
    exact ⟨⟨published, ready, unacknowledged, fun m member => executing m (List.mem_of_mem_erase member), completed⟩, rfl⟩

theorem Broker.complete_known {total : Nat} {b c : Broker} {message : Nat} (known : b.Known total)
    (ended : b.complete message = some c) : c.Known total ∧ c.completed = b.completed ++ [message] := by
  obtain ⟨published, ready, unacknowledged, executing, completed⟩ := known
  obtain ⟨runs, made⟩ := Option.ite_none_right_eq_some.mp ended
  cases made
  refine ⟨⟨published, ready, unacknowledged, fun m member => executing m (List.mem_of_mem_erase member), ?_⟩, rfl⟩
  intro m member
  rcases List.mem_append.mp member with old | new
  · exact completed m old
  · rw [List.mem_singleton.mp new]
    exact executing message runs

/-! ## Executions and messages -/

/-- The completed executions of messages that had a completed one before. -/
def repeats (completed : List Nat) : Nat := completed.length - completed.dedup.length

/-- The messages among the first `total` that have no completed execution. -/
def unfinished (total : Nat) (completed : List Nat) : Nat := (List.range total).countP (fun m => m ∉ completed)

/-- Executions and messages without one make up all messages and the repeated executions. -/
theorem unfinished_add_length {total : Nat} {completed : List Nat} (known : ∀ m ∈ completed, m < total) :
    unfinished total completed + completed.length = total + repeats completed := by
  have same : completed.dedup.Perm ((List.range total).filter (fun m => m ∈ completed)) := by
    refine (List.perm_ext_iff_of_nodup (List.nodup_dedup completed) (List.nodup_range.filter _)).mpr (fun m => ?_)
    simpa using fun member => known m member
  have finished : completed.dedup.length = (List.range total).countP (fun m => m ∈ completed) := by
    rw [same.length_eq, List.countP_eq_length_filter]
  have split := List.length_eq_countP_add_countP (l := List.range total) (fun m => decide (m ∈ completed))
  have fewer := (List.dedup_sublist completed).length_le
  simp only [List.length_range, decide_eq_true_eq] at split
  simp only [unfinished, repeats]
  omega

theorem unfinished_eq_zero {total : Nat} {completed : List Nat} :
    unfinished total completed = 0 ↔ ∀ m < total, m ∈ completed := by
  simp [unfinished, List.countP_eq_zero]

end RepidBench.AtLeastOnce
