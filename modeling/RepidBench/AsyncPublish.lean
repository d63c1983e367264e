import RepidBench.Publishing

/-!
`publish_async`: a pool of coroutines that share `next_message` and `done`. The
event loop resumes them in any order, and each `send()` returns or raises; the
labels below are the points where one coroutine moves. A coroutine tests
`next_message` and starts its send without an await in between, and so does one
label here; between a send that returns and the next test the model lets other
coroutines run too, so its runs include every order of the event loop.
-/
namespace RepidBench.AsyncPublish
open Transition Publishing

/-- Where one `_worker` coroutine stands; `raised` and `cancelled` are the
    results that `gather(return_exceptions=True)` lists for it when its send
    raises an `Exception` or an `asyncio.CancelledError`. -/
inductive Coroutine
  | ready
  | sending
  | left
  | raised (error : String)
  | cancelled
  deriving DecidableEq, Repr

namespace Coroutine

def ended : Coroutine → Bool
  | .ready | .sending => false
  | .left | .raised _ | .cancelled => true

def isSending : Coroutine → Bool
  | .sending => true
  | _ => false

def isRaised : Coroutine → Bool
  | .raised _ => true
  | _ => false

def isCancelled : Coroutine → Bool
  | .cancelled => true
  | _ => false

/-- `isinstance(r, Exception)`: a `CancelledError` is a `BaseException` only. -/
def error? : Coroutine → Option String
  | .raised error => some error
  | _ => none

/-- Steps that the coroutine can make without starting another send. -/
def steps : Coroutine → Nat
  | .ready => 1
  | .sending => 2
  | .left | .raised _ | .cancelled => 0

end Coroutine

structure State where
  nextMessage : Nat
  done : Nat
  workers : List Coroutine
  printed : List Printed
  outcome : Option Outcome
  deriving DecidableEq, Repr

/-- What happens next, and to which coroutine. -/
inductive Label
  | send (worker : Nat)
  | leave (worker : Nat)
  | sent (worker : Nat)
  | failed (worker : Nat) (error : String)
  | cancelled (worker : Nat)
  | gathered
  deriving DecidableEq, Repr

/-- The statements after `await asyncio.gather(...)`. -/
def finish (messages : Nat) (s : State) : State :=
  match s.workers.filterMap Coroutine.error? with
  | [] => { s with printed := s.printed ++ [.enqueued messages messages], outcome := some .returned }
  | errors => { s with outcome := some (outcomeOf errors) }

def step (messages : Nat) (s : State) : Label → Option State
  | .send i =>
    if s.workers[i]? = some .ready ∧ s.nextMessage < messages then
      some { s with nextMessage := s.nextMessage + 1, workers := s.workers.set i .sending }
    else none
  | .leave i =>
    if s.workers[i]? = some .ready ∧ messages ≤ s.nextMessage then
      some { s with workers := s.workers.set i .left }
    else none
  | .sent i =>
    if s.workers[i]? = some .sending then
      some { s with
        done := s.done + 1
        workers := s.workers.set i .ready
        printed := if (s.done + 1) % 2000 = 0 then s.printed ++ [.enqueued (s.done + 1) messages] else s.printed }
    else none
  | .failed i error =>
    if s.workers[i]? = some .sending then some { s with workers := s.workers.set i (.raised error) } else none
  | .cancelled i =>
    if s.workers[i]? = some .sending then some { s with workers := s.workers.set i .cancelled } else none
  | .gathered =>
    if s.workers.all Coroutine.ended ∧ s.outcome = none then some (finish messages s) else none

/-- The statements before `gather`: the two early exits, and the tasks created. -/
def init (messages concurrency : Nat) : State :=
  if concurrency < 1 then ⟨0, 0, [], [], some (.valueError "publish concurrency must be at least 1")⟩
  else if messages < 1 then ⟨0, 0, [], [.enqueued messages messages], some .returned⟩
  else ⟨0, 0, List.replicate (min concurrency messages) .ready, [], none⟩

def publishAsync (messages concurrency : Nat) : Machine State Label Outcome where
  init := init messages concurrency
  step := step messages
  result s := s.outcome

/-! ## Counting labels -/

def sends : Label → Nat
  | .send _ => 1
  | _ => 0

def returns : Label → Nat
  | .sent _ => 1
  | _ => 0

def raises : Label → Nat
  | .failed _ _ => 1
  | _ => 0

/-- Every send returns or raises an `Exception`. -/
def NoCancel : Label → Prop
  | .cancelled _ => False
  | _ => True

/-- Every send returns. -/
def Clean : Label → Prop
  | .failed _ _ | .cancelled _ => False
  | _ => True

theorem Clean.noCancel {a : Label} (clean : Clean a) : NoCancel a := by
  cases a <;> simp_all [Clean, NoCancel]

/-- Sends started and neither returned nor failed yet. -/
def inFlight (s : State) : Nat := s.workers.countP Coroutine.isSending

/-! ## What one step can do -/

/-- A label moves one coroutine and at most one counter, or ends the call. -/
theorem step_cases {messages : Nat} {s t : State} {a : Label} (stepped : step messages s a = some t) :
    (∃ i, a = .send i ∧ s.workers[i]? = some .ready ∧ s.nextMessage < messages ∧
      t = { s with nextMessage := s.nextMessage + 1, workers := s.workers.set i .sending }) ∨
    (∃ i, a = .leave i ∧ s.workers[i]? = some .ready ∧ messages ≤ s.nextMessage ∧
      t = { s with workers := s.workers.set i .left }) ∨
    (∃ i printed, a = .sent i ∧ s.workers[i]? = some .sending ∧
      t = { s with done := s.done + 1, workers := s.workers.set i .ready, printed := printed }) ∨
    (∃ i error, a = .failed i error ∧ s.workers[i]? = some .sending ∧
      t = { s with workers := s.workers.set i (.raised error) }) ∨
    (∃ i, a = .cancelled i ∧ s.workers[i]? = some .sending ∧
      t = { s with workers := s.workers.set i .cancelled }) ∨
    (a = .gathered ∧ s.workers.all Coroutine.ended ∧ s.outcome = none ∧ t = finish messages s) := by
  cases a with
  | send i =>
    simp only [step, Option.ite_none_right_eq_some, Option.some.injEq] at stepped
    exact .inl ⟨i, rfl, stepped.1.1, stepped.1.2, stepped.2.symm⟩
  | leave i =>
    simp only [step, Option.ite_none_right_eq_some, Option.some.injEq] at stepped
    exact .inr (.inl ⟨i, rfl, stepped.1.1, stepped.1.2, stepped.2.symm⟩)
  | sent i =>
    simp only [step, Option.ite_none_right_eq_some, Option.some.injEq] at stepped
    exact .inr (.inr (.inl ⟨i, _, rfl, stepped.1, stepped.2.symm⟩))
  | failed i error =>
    simp only [step, Option.ite_none_right_eq_some, Option.some.injEq] at stepped
    exact .inr (.inr (.inr (.inl ⟨i, error, rfl, stepped.1, stepped.2.symm⟩)))
  | cancelled i =>
    simp only [step, Option.ite_none_right_eq_some, Option.some.injEq] at stepped
    exact .inr (.inr (.inr (.inr (.inl ⟨i, rfl, stepped.1, stepped.2.symm⟩))))
  | gathered =>
    simp only [step, Option.ite_none_right_eq_some, Option.some.injEq] at stepped
    exact .inr (.inr (.inr (.inr (.inr ⟨rfl, stepped.1.1, stepped.1.2, stepped.2.symm⟩))))

theorem finish_eq (messages : Nat) (s : State) :
    ∃ printed, finish messages s =
      { s with printed := printed, outcome := some (outcomeOf (s.workers.filterMap Coroutine.error?)) } := by
  unfold finish
  split
  · rename_i none
    exact ⟨_, by rw [none]; rfl⟩
  · exact ⟨_, rfl⟩

/-! ## The invariant -/

/-- What holds between two steps. Every message taken is in flight or done with,
    the pool keeps its size, a coroutine that left the loop saw the last message
    taken, and the outcome is decided by the results of the coroutines. -/
structure Inv (messages concurrency : Nat) (s : State) : Prop where
  balance : s.nextMessage = s.done + inFlight s + s.workers.countP Coroutine.isRaised +
    s.workers.countP Coroutine.isCancelled
  bounded : s.nextMessage ≤ messages
  width : s.workers.length = min concurrency messages
  exhausted : .left ∈ s.workers → s.nextMessage = messages
  gathered : ∀ outcome, s.outcome = some outcome →
    s.workers.all Coroutine.ended ∧ outcome = outcomeOf (s.workers.filterMap Coroutine.error?)

theorem init_inv {messages concurrency : Nat} (pool : 1 ≤ concurrency) :
    Inv messages concurrency (init messages concurrency) := by
  have notEmpty : ¬ concurrency < 1 := by omega
  by_cases nothing : messages < 1
  · rw [init, if_neg notEmpty, if_pos nothing]
    refine ⟨rfl, by simp, by simp; omega, by simp, ?_⟩
    intro outcome same
    cases same
    exact ⟨rfl, rfl⟩
  · rw [init, if_neg notEmpty, if_neg nothing]
    refine ⟨?_, by simp, by simp, ?_, by simp⟩
    · simp [inFlight, List.countP_replicate, Coroutine.isSending, Coroutine.isRaised, Coroutine.isCancelled]
    · intro member
      have impossible := List.eq_of_mem_replicate member
      cases impossible

/-- Replacing the state of one coroutine changes each count by its own part. -/
theorem counts_set {workers : List Coroutine} {i : Nat} {old : Coroutine} (found : workers[i]? = some old)
    (new : Coroutine) :
    (workers.set i new).countP Coroutine.isSending + old.isSending.toNat =
      workers.countP Coroutine.isSending + new.isSending.toNat ∧
    (workers.set i new).countP Coroutine.isRaised + old.isRaised.toNat =
      workers.countP Coroutine.isRaised + new.isRaised.toNat ∧
    (workers.set i new).countP Coroutine.isCancelled + old.isCancelled.toNat =
      workers.countP Coroutine.isCancelled + new.isCancelled.toNat := by
  have each (p : Coroutine → Bool) : (workers.set i new).countP p + (p old).toNat =
      workers.countP p + (p new).toNat := by
    have counted := countP_set_add p found new
    cases before : p old <;> cases after : p new <;> simp [before, after] at counted ⊢ <;> omega
  exact ⟨each _, each _, each _⟩

/-- No coroutine that is not at its end can move once the outcome is there. -/
theorem Inv.running {messages concurrency : Nat} {s : State} (inv : Inv messages concurrency s) {i : Nat}
    {worker : Coroutine} (found : s.workers[i]? = some worker) (active : worker.ended = false) :
    s.outcome = none := by
  cases outcome : s.outcome with
  | none => rfl
  | some result =>
    have all := List.all_eq_true.mp (inv.gathered result outcome).1
    have := all worker (List.mem_of_getElem? found)
    rw [active] at this
    contradiction

/-- A coroutine that is not at its end moves to `new`, and the counters with it:
    the invariant is kept when the counters account for the move. -/
theorem Inv.move {messages concurrency : Nat} {s : State} (inv : Inv messages concurrency s) {i : Nat}
    {old : Coroutine} (found : s.workers[i]? = some old) (active : old.ended = false) {new : Coroutine}
    {next done : Nat} (printed : List Printed)
    (paid : next + s.done + old.isSending.toNat =
      s.nextMessage + done + (new.isSending.toNat + new.isRaised.toNat + new.isCancelled.toNat))
    (room : next ≤ messages) (last : new = .left ∨ s.nextMessage = messages → next = messages) :
    Inv messages concurrency
      { s with nextMessage := next, done := done, workers := s.workers.set i new, printed := printed } := by
  obtain ⟨sending, raised, cancelled⟩ := counts_set found new
  have notRaised : old.isRaised = false := by cases old <;> simp_all [Coroutine.ended, Coroutine.isRaised]
  have notCancelled : old.isCancelled = false := by cases old <;> simp_all [Coroutine.ended, Coroutine.isCancelled]
  rw [notRaised] at raised
  rw [notCancelled] at cancelled
  have balance := inv.balance
  unfold inFlight at balance
  refine ⟨?_, room, by simp [inv.width], ?_, ?_⟩
  · simp only [Bool.toNat_false] at raised cancelled
    simp only [inFlight]
    omega
  · intro member
    rcases List.mem_or_eq_of_mem_set member with before | now
    · exact last (.inr (inv.exhausted before))
    · exact last (.inl now.symm)
  · intro outcome present
    simp [inv.running found active] at present

theorem step_inv {messages concurrency : Nat} {s t : State} {a : Label} (inv : Inv messages concurrency s)
    (stepped : step messages s a = some t) : Inv messages concurrency t := by
  rcases step_cases stepped with ⟨i, rfl, found, more, rfl⟩ | ⟨i, rfl, found, spent, rfl⟩ |
    ⟨i, printed, rfl, found, rfl⟩ | ⟨i, error, rfl, found, rfl⟩ | ⟨i, rfl, found, rfl⟩ |
    ⟨rfl, ended, running, rfl⟩
  · refine inv.move found rfl s.printed ?_ more ?_
    · simp [Coroutine.isSending, Coroutine.isRaised, Coroutine.isCancelled]
      omega
    · rintro (impossible | all)
      · cases impossible
      · omega
  · refine inv.move found rfl s.printed ?_ inv.bounded (fun _ => le_antisymm inv.bounded spent)
    simp [Coroutine.isSending, Coroutine.isRaised, Coroutine.isCancelled]
  · refine inv.move found rfl printed ?_ inv.bounded ?_
    · simp [Coroutine.isSending, Coroutine.isRaised, Coroutine.isCancelled]
      omega
    · rintro (impossible | all)
      · cases impossible
      · exact all
  · refine inv.move found rfl s.printed ?_ inv.bounded ?_
    · simp [Coroutine.isSending, Coroutine.isRaised, Coroutine.isCancelled]
    · rintro (impossible | all)
      · cases impossible
      · exact all
  · refine inv.move found rfl s.printed ?_ inv.bounded ?_
    · simp [Coroutine.isSending, Coroutine.isRaised, Coroutine.isCancelled]
    · rintro (impossible | all)
      · cases impossible
      · exact all
  · obtain ⟨printed, same⟩ := finish_eq messages s
    rw [same]
    refine ⟨inv.balance, inv.bounded, inv.width, inv.exhausted, ?_⟩
    intro outcome present
    cases present
    exact ⟨ended, rfl⟩

/-- The counters are the counts of the labels so far. -/
structure Counted (trace : List Label) (s : State) : Prop where
  started : total sends trace = s.nextMessage
  returned : total returns trace = s.done
  raised : total raises trace = s.workers.countP Coroutine.isRaised

theorem init_counted (messages concurrency : Nat) : Counted [] (init messages concurrency) := by
  unfold init
  split_ifs
  · exact ⟨rfl, rfl, rfl⟩
  · exact ⟨rfl, rfl, rfl⟩
  · refine ⟨rfl, rfl, ?_⟩
    simp [List.countP_replicate, Coroutine.isRaised]

theorem step_counted {messages : Nat} {past : List Label} {s t : State} {a : Label} (counted : Counted past s)
    (stepped : step messages s a = some t) : Counted (past ++ [a]) t := by
  obtain ⟨started, returned, raised⟩ := counted
  rcases step_cases stepped with ⟨i, rfl, found, _, rfl⟩ | ⟨i, rfl, found, _, rfl⟩ |
    ⟨i, printed, rfl, found, rfl⟩ | ⟨i, error, rfl, found, rfl⟩ | ⟨i, rfl, found, rfl⟩ | ⟨rfl, _, _, rfl⟩
  · have moved := (counts_set found .sending).2.1
    simp only [Coroutine.isRaised, Bool.toNat_false, Nat.add_zero] at moved
    exact ⟨by simp [sends, started], by simp [returns, returned], by simp [raises, raised, moved]⟩
  · have moved := (counts_set found .left).2.1
    simp only [Coroutine.isRaised, Bool.toNat_false, Nat.add_zero] at moved
    exact ⟨by simp [sends, started], by simp [returns, returned], by simp [raises, raised, moved]⟩
  · have moved := (counts_set found .ready).2.1
    simp only [Coroutine.isRaised, Bool.toNat_false, Nat.add_zero] at moved
    exact ⟨by simp [sends, started], by simp [returns, returned], by simp [raises, raised, moved]⟩
  · have moved := (counts_set found (.raised error)).2.1
    simp only [Coroutine.isRaised, Bool.toNat_false, Bool.toNat_true, Nat.add_zero] at moved
    exact ⟨by simp [sends, started], by simp [returns, returned], by simp [raises, raised, moved]⟩
  · have moved := (counts_set found .cancelled).2.1
    simp only [Coroutine.isRaised, Bool.toNat_false, Nat.add_zero] at moved
    exact ⟨by simp [sends, started], by simp [returns, returned], by simp [raises, raised, moved]⟩
  · obtain ⟨printed, same⟩ := finish_eq messages s
    rw [same]
    exact ⟨by simp [sends, started], by simp [returns, returned], by simp [raises, raised]⟩

theorem reaches_inv {messages concurrency : Nat} (pool : 1 ≤ concurrency) {trace : List Label} {s : State}
    (reached : (publishAsync messages concurrency).Reaches trace s) : Inv messages concurrency s :=
  run_invariant (Inv messages concurrency) (fun _ _ _ inv stepped => step_inv inv stepped) (init_inv pool) reached

theorem reaches_counted {messages concurrency : Nat} {trace : List Label} {s : State}
    (reached : (publishAsync messages concurrency).Reaches trace s) : Counted trace s :=
  run_history Counted (fun _ _ _ _ counted stepped => step_counted counted stepped) []
    (init_counted messages concurrency) reached

/-! ## Every schedule ends -/

/-- Steps that the call can still make: a send started and its return for each
    message not taken yet, and what each coroutine and `gather` have left. -/
def stepsLeft (messages : Nat) (s : State) : Nat :=
  2 * (messages - s.nextMessage) + (s.workers.map Coroutine.steps).sum + if s.outcome = none then 1 else 0

theorem step_stepsLeft {messages : Nat} {s t : State} {a : Label} (stepped : step messages s a = some t) :
    stepsLeft messages t + 1 ≤ stepsLeft messages s := by
  rcases step_cases stepped with ⟨i, rfl, found, more, rfl⟩ | ⟨i, rfl, found, _, rfl⟩ |
    ⟨i, printed, rfl, found, rfl⟩ | ⟨i, error, rfl, found, rfl⟩ | ⟨i, rfl, found, rfl⟩ | ⟨rfl, _, running, rfl⟩
  · have moved := sum_map_set Coroutine.steps found .sending
    simp only [Coroutine.steps] at moved
    simp only [stepsLeft]
    omega
  · have moved := sum_map_set Coroutine.steps found .left
    simp only [Coroutine.steps] at moved
    simp only [stepsLeft]
    omega
  · have moved := sum_map_set Coroutine.steps found .ready
    simp only [Coroutine.steps] at moved
    simp only [stepsLeft]
    omega
  · have moved := sum_map_set Coroutine.steps found (.raised error)
    simp only [Coroutine.steps] at moved
    simp only [stepsLeft]
    omega
  · have moved := sum_map_set Coroutine.steps found .cancelled
    simp only [Coroutine.steps] at moved
    simp only [stepsLeft]
    omega
  · obtain ⟨printed, same⟩ := finish_eq messages s
    rw [same]
    simp [stepsLeft, running]

theorem stepsLeft_init (messages concurrency : Nat) :
    stepsLeft messages (init messages concurrency) ≤ 2 * messages + min concurrency messages + 1 := by
  unfold init
  split_ifs
  · simp only [stepsLeft, List.map_nil, List.sum_nil, reduceCtorEq, ↓reduceIte]
    omega
  · simp only [stepsLeft, List.map_nil, List.sum_nil, reduceCtorEq, ↓reduceIte]
    omega
  · simp [stepsLeft, Coroutine.steps]

theorem length_le {messages concurrency : Nat} {trace : List Label} {s : State}
    (reached : (publishAsync messages concurrency).Reaches trace s) :
    trace.length ≤ 2 * messages + min concurrency messages + 1 := by
  have preserved : ∀ (past : List Label) s a t,
      past.length + stepsLeft messages s ≤ 2 * messages + min concurrency messages + 1 →
      step messages s a = some t →
      (past ++ [a]).length + stepsLeft messages t ≤ 2 * messages + min concurrency messages + 1 := by
    intro past s a t bound stepped
    have used := step_stepsLeft stepped
    rw [List.length_append, List.length_singleton]
    omega
  have start : ([] : List Label).length + stepsLeft messages (init messages concurrency) ≤
      2 * messages + min concurrency messages + 1 := by
    simpa using stepsLeft_init messages concurrency
  have bound := run_history _ preserved [] start reached
  rw [List.nil_append] at bound
  omega

/-- While the call has no outcome, some coroutine can move or `gather` returns;
    no send has to fail for it. -/
theorem live (messages : Nat) {s : State} (running : s.outcome = none) :
    ∃ a, Clean a ∧ (step messages s a).isSome := by
  by_cases all : s.workers.all Coroutine.ended
  · exact ⟨.gathered, trivial, by simp [step, all, running]⟩
  · simp only [List.all_eq_true, not_forall] at all
    obtain ⟨worker, member, active⟩ := all
    obtain ⟨i, found⟩ := List.mem_iff_getElem?.mp member
    cases worker with
    | ready =>
      by_cases more : s.nextMessage < messages
      · exact ⟨.send i, trivial, by simp [step, found, more]⟩
      · exact ⟨.leave i, trivial, by simp [step, found, not_lt.mp more]⟩
    | sending => exact ⟨.sent i, trivial, by simp [step, found]⟩
    | left | raised _ | cancelled => simp [Coroutine.ended] at active

/-! ## The results of the coroutines -/

theorem errors_nil_iff (workers : List Coroutine) :
    workers.filterMap Coroutine.error? = [] ↔ workers.countP Coroutine.isRaised = 0 := by
  rw [List.filterMap_eq_nil_iff, List.countP_eq_zero]
  refine forall₂_congr (fun worker _ => ?_)
  cases worker <;> simp [Coroutine.error?, Coroutine.isRaised]

theorem cancelled_zero {messages concurrency : Nat} {trace : List Label} {s : State}
    (noCancel : ∀ a ∈ trace, NoCancel a) (reached : (publishAsync messages concurrency).Reaches trace s) :
    s.workers.countP Coroutine.isCancelled = 0 := by
  have preserved : ∀ (past : List Label) s a t, s.workers.countP Coroutine.isCancelled = 0 → NoCancel a →
      step messages s a = some t → t.workers.countP Coroutine.isCancelled = 0 := by
    intro past s a t zero ok stepped
    rcases step_cases stepped with ⟨i, rfl, found, _, rfl⟩ | ⟨i, rfl, found, _, rfl⟩ |
      ⟨i, printed, rfl, found, rfl⟩ | ⟨i, error, rfl, found, rfl⟩ | ⟨i, rfl, found, rfl⟩ | ⟨rfl, _, _, rfl⟩
    · simpa [Coroutine.isCancelled, zero] using (counts_set found .sending).2.2
    · simpa [Coroutine.isCancelled, zero] using (counts_set found .left).2.2
    · simpa [Coroutine.isCancelled, zero] using (counts_set found .ready).2.2
    · simpa [Coroutine.isCancelled, zero] using (counts_set found (.raised error)).2.2
    · exact False.elim ok
    · obtain ⟨printed, same⟩ := finish_eq messages s
      rw [same]
      exact zero
  have start : (init messages concurrency).workers.countP Coroutine.isCancelled = 0 := by
    unfold init
    split_ifs <;> simp [List.countP_replicate, Coroutine.isCancelled]
  exact run_allowed (fun _ s => s.workers.countP Coroutine.isCancelled = 0) preserved [] start noCancel reached

/-- Once every coroutine of a pool is at its end, none of them cancelled, either
    one of them left the loop after the last message was taken, or all raised. -/
theorem all_taken_or_all_raised {messages concurrency : Nat} {s : State} (inv : Inv messages concurrency s)
    (notCancelled : s.workers.countP Coroutine.isCancelled = 0) (ended : s.workers.all Coroutine.ended) :
    s.nextMessage = messages ∨ ∀ worker ∈ s.workers, worker.isRaised := by
  by_cases left : .left ∈ s.workers
  · exact .inl (inv.exhausted left)
  · refine .inr (fun worker member => ?_)
    have atEnd := List.all_eq_true.mp ended worker member
    have alive := List.countP_eq_zero.mp notCancelled worker member
    cases worker with
    | ready | sending => simp [Coroutine.ended] at atEnd
    | left => exact absurd member left
    | raised error => rfl
    | cancelled => simp [Coroutine.isCancelled] at alive

theorem inFlight_ended {s : State} (ended : s.workers.all Coroutine.ended) : inFlight s = 0 := by
  refine List.countP_eq_zero.mpr (fun worker member => ?_)
  have atEnd := List.all_eq_true.mp ended worker member
  cases worker <;> simp_all [Coroutine.ended, Coroutine.isSending]

/-- A call with an outcome and no failed send has sent every message. -/
theorem outcome_complete {messages concurrency : Nat} {s : State} (pool : 1 ≤ concurrency)
    (inv : Inv messages concurrency s) (notCancelled : s.workers.countP Coroutine.isCancelled = 0)
    (notRaised : s.workers.countP Coroutine.isRaised = 0) {outcome : Outcome} (present : s.outcome = some outcome) :
    outcome = .returned ∧ s.nextMessage = messages ∧ s.done = messages := by
  obtain ⟨ended, same⟩ := inv.gathered outcome present
  have balance := inv.balance
  rw [inFlight_ended ended, notCancelled, notRaised] at balance
  have all : s.nextMessage = messages := by
    rcases all_taken_or_all_raised inv notCancelled ended with all | raised
    · exact all
    · have empty : s.workers = [] := by
        refine List.eq_nil_iff_forall_not_mem.mpr (fun worker member => ?_)
        exact List.countP_eq_zero.mp notRaised worker member (raised worker member)
      have width := inv.width
      have bounded := inv.bounded
      rw [empty, List.length_nil] at width
      omega
  refine ⟨?_, all, by omega⟩
  rw [same, outcomeOf_returned_iff, errors_nil_iff]
  exact notRaised

/-- `publish_async` under every order of its coroutines and every pattern of
    failing sends: never more sends than messages, never more in flight than the
    pool holds, `done` counts the sends that returned; when the pool is through,
    every message was taken or every coroutine failed; the call raises exactly
    when a send did, and returns only with every message sent. Every schedule is
    finite and runs on until there is an outcome. -/
theorem publish_async_every_schedule (messages concurrency : Nat) (pool : 1 ≤ concurrency)
    (trace : List Label) (s : State) (noCancel : ∀ a ∈ trace, NoCancel a)
    (reached : (publishAsync messages concurrency).Reaches trace s) :
    (total sends trace ≤ messages ∧ inFlight s ≤ min concurrency messages ∧
      total sends trace = total returns trace + total raises trace + inFlight s ∧
      s.done = total returns trace) ∧
    (s.workers.all Coroutine.ended → total sends trace = messages ∨ ∀ worker ∈ s.workers, worker.isRaised) ∧
    (∀ outcome, s.outcome = some outcome →
      ((∃ message, outcome = .runtimeError message) ↔ 1 ≤ total raises trace) ∧
      (outcome = .returned → total sends trace = messages ∧ total returns trace = messages)) ∧
    trace.length ≤ 2 * messages + min concurrency messages + 1 ∧
    (s.outcome = none → ∃ a t, NoCancel a ∧ (publishAsync messages concurrency).step s a = some t) := by
  have inv := reaches_inv pool reached
  obtain ⟨started, returned, raised⟩ := reaches_counted reached
  have notCancelled := cancelled_zero noCancel reached
  have balance := inv.balance
  rw [notCancelled] at balance
  refine ⟨⟨?_, ?_, ?_, returned.symm⟩, ?_, ?_, length_le reached, ?_⟩
  · rw [started]
    exact inv.bounded
  · rw [← inv.width]
    exact List.countP_le_length
  · omega
  · intro ended
    rw [started]
    exact all_taken_or_all_raised inv notCancelled ended
  · intro outcome present
    obtain ⟨ended, same⟩ := inv.gathered outcome present
    constructor
    · rw [same, outcomeOf_error_iff, ne_eq, errors_nil_iff, ← raised]
      omega
    · intro normal
      have notRaised : s.workers.countP Coroutine.isRaised = 0 := by
        rw [← errors_nil_iff, ← outcomeOf_returned_iff, ← same]
        exact normal
      obtain ⟨_, all, done⟩ := outcome_complete pool inv notCancelled notRaised present
      exact ⟨started.trans all, returned.trans done⟩
  · intro running
    obtain ⟨a, clean, enabled⟩ := live messages running
    obtain ⟨t, stepped⟩ := Option.isSome_iff_exists.mp enabled
    exact ⟨a, t, clean.noCancel, stepped⟩

/-- Two messages, one coroutine, the second send fails: the call raises. -/
theorem publish_async_second_send_fails :
    ((publishAsync 2 1).Reaches [.send 0, .sent 0, .send 0, .failed 0 "closed", .gathered]
      ⟨2, 1, [.raised "closed"], [], some (.runtimeError (failureText 1 "closed"))⟩) ∧
    ∃ message, Outcome.runtimeError (failureText 1 "closed") = .runtimeError message := by
  have reached : (publishAsync 2 1).Reaches [.send 0, .sent 0, .send 0, .failed 0 "closed", .gathered]
      ⟨2, 1, [.raised "closed"], [], some (.runtimeError (failureText 1 "closed"))⟩ := rfl
  have noCancel : ∀ a ∈ [Label.send 0, .sent 0, .send 0, .failed 0 "closed", .gathered], NoCancel a := by
    simp [NoCancel]
  have scheduled := publish_async_every_schedule 2 1 le_rfl _ _ noCancel reached
  exact ⟨reached, (scheduled.2.2.1 _ rfl).1.mpr (by decide)⟩

/-! ## The account of one call -/

/-- A step of a send that returns keeps every coroutine clear of errors. -/
theorem step_clean {messages : Nat} {s t : State} {a : Label} (clean : Clean a)
    (noErrors : s.workers.countP Coroutine.isRaised = 0 ∧ s.workers.countP Coroutine.isCancelled = 0)
    (stepped : step messages s a = some t) :
    (t.workers.countP Coroutine.isRaised = 0 ∧ t.workers.countP Coroutine.isCancelled = 0) ∧
      sends a + (messages - t.nextMessage) = messages - s.nextMessage := by
  rcases step_cases stepped with ⟨i, rfl, found, more, rfl⟩ | ⟨i, rfl, found, _, rfl⟩ |
    ⟨i, printed, rfl, found, rfl⟩ | ⟨i, error, rfl, found, rfl⟩ | ⟨i, rfl, found, rfl⟩ | ⟨rfl, _, _, rfl⟩
  · refine ⟨by simpa [Coroutine.isRaised, Coroutine.isCancelled, noErrors] using (counts_set found .sending).2, ?_⟩
    simp only [sends]
    omega
  · exact ⟨by simpa [Coroutine.isRaised, Coroutine.isCancelled, noErrors] using (counts_set found .left).2,
      by simp [sends]⟩
  · exact ⟨by simpa [Coroutine.isRaised, Coroutine.isCancelled, noErrors] using (counts_set found .ready).2,
      by simp [sends]⟩
  · exact False.elim clean
  · exact False.elim clean
  · obtain ⟨printed, same⟩ := finish_eq messages s
    rw [same]
    exact ⟨noErrors, by simp [sends]⟩

/-- `publish_async` sends as many messages as it is asked for. -/
def account (messages concurrency : Nat) (pool : 1 ≤ concurrency) :
    Account (publishAsync messages concurrency) sends Clean (fun _ => false) (· = .returned) messages where
  Inv s := Inv messages concurrency s ∧
    s.workers.countP Coroutine.isRaised = 0 ∧ s.workers.countP Coroutine.isCancelled = 0
  owed s := messages - s.nextMessage
  left := stepsLeft messages
  init_inv := by
    refine ⟨init_inv pool, ?_⟩
    show (init messages concurrency).workers.countP _ = 0 ∧ (init messages concurrency).workers.countP _ = 0
    unfold init
    split_ifs <;> simp [List.countP_replicate, Coroutine.isRaised, Coroutine.isCancelled]
  init_owed := by
    show messages - (init messages concurrency).nextMessage = messages
    unfold init
    split_ifs <;> rfl
  step_inv := by
    rintro s a t ⟨inv, noErrors⟩ clean stepped
    exact ⟨AsyncPublish.step_inv inv stepped, (step_clean clean noErrors stepped).1⟩
  step_owed := by
    rintro s a t ⟨_, noErrors⟩ clean stepped
    exact (step_clean clean noErrors stepped).2
  step_left := by
    intro s a t _ _ stepped
    have used := step_stepsLeft stepped
    simp only [Bool.false_eq_true, ↓reduceIte]
    omega
  ended := by
    rintro s outcome ⟨inv, notRaised, notCancelled⟩ present
    obtain ⟨returned, all, _⟩ := outcome_complete pool inv notCancelled notRaised present
    exact ⟨by omega, returned⟩
  live := by
    intro s _ running
    obtain ⟨a, clean, enabled⟩ := AsyncPublish.live messages running
    exact ⟨a, clean, rfl, enabled⟩

theorem account_left {messages concurrency : Nat} (pool : 1 ≤ concurrency) :
    ∀ count ≤ messages, (account count concurrency pool).left (publishAsync count concurrency).init ≤
      2 * messages + concurrency + 1 := by
  intro count le
  have bound : stepsLeft count (init count concurrency) ≤ _ := stepsLeft_init count concurrency
  show stepsLeft count (init count concurrency) ≤ _
  omega

end RepidBench.AsyncPublish
