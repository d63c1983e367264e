import RepidBench.Publishing

/-!
`publish_threaded` and `publish_threaded_chunks`: a pool of threads that share
`done[0]` and `errors` under a lock, each publishing its own share. The chunk
loops (`publish_chunk` inside `publish_threaded`, and the `_publish_chunk` of the
celery and the dramatiq adapter) are one loop; threads are preempted anywhere,
and each change of `done[0]` or `errors` under the lock is one step. The numbers
of workers and the batch size are at least 1 in every configuration.
-/
namespace RepidBench.ThreadedPublish
open Transition Publishing

/-- Where one thread stands in its chunk loop. -/
inductive Phase
  | looping
  | sending
  | adding
  | flushing (leftover : Nat)
  | finished
  | failed
  deriving DecidableEq, Repr

/-- One thread: its share, the loop variable `i`, and what it added to the
    progress already (`local_done`, `sent` in the adapters). -/
structure Thread where
  count : Nat
  tried : Nat
  localDone : Nat
  phase : Phase
  deriving DecidableEq, Repr

def Thread.ended (th : Thread) : Bool :=
  match th.phase with
  | .finished | .failed => true
  | _ => false

inductive ThreadLabel
  | send
  | sent
  | failed (error : String)
  | add
  | leave
  | flush
  deriving DecidableEq, Repr

/-- The chunk loop: the thread after the label, and what the label adds to the
    shared progress. -/
def chunkStep (batchSize : Nat) (th : Thread) : ThreadLabel → Option (Thread × Nat)
  | .send =>
    if th.phase = .looping ∧ th.tried < th.count then
      some ({ th with tried := th.tried + 1, phase := .sending }, 0)
    else none
  | .sent =>
    if th.phase = .sending then
      if th.tried % batchSize = 0 then
        some ({ th with localDone := th.localDone + batchSize, phase := .adding }, 0)
      else some ({ th with phase := .looping }, 0)
    else none
  | .failed _ => if th.phase = .sending then some ({ th with phase := .failed }, 0) else none
  | .add => if th.phase = .adding then some ({ th with phase := .looping }, batchSize) else none
  | .leave =>
    if th.phase = .looping ∧ th.count ≤ th.tried then
      if th.count - th.localDone = 0 then some ({ th with phase := .finished }, 0)
      else some ({ th with phase := .flushing (th.count - th.localDone) }, 0)
    else none
  | .flush =>
    match th.phase with
    | .flushing leftover => some ({ th with phase := .finished }, leftover)
    | _ => none

/-- What a chunk loop does with a thread. -/
abbrev ChunkLoop := Thread → ThreadLabel → Option (Thread × Nat)

/-- `publish_chunk`, the local function of `publish_threaded`. -/
def publishChunk (batchSize : Nat) : ChunkLoop := chunkStep batchSize
/-- `_publish_chunk` of `adapters/celery.py`. -/
def celeryPublishChunk (enqueueBatchSize : Nat) : ChunkLoop := chunkStep enqueueBatchSize
/-- `_publish_chunk` of `adapters/dramatiq.py`. -/
def dramatiqPublishChunk (enqueueBatchSize : Nat) : ChunkLoop := chunkStep enqueueBatchSize

structure State where
  done : Nat
  errors : List String
  threads : List Thread
  printed : List Printed
  outcome : Option Outcome
  deriving DecidableEq, Repr

/-- One step of a thread; the main thread polls, or has joined every thread. -/
inductive Label
  | thread (index : Nat) (a : ThreadLabel)
  | poll
  | joined
  deriving DecidableEq, Repr

/-- The exceptions that a label of a thread appends to `errors`. -/
def ThreadLabel.errors : ThreadLabel → List String
  | .failed error => [error]
  | _ => []

/-- The statements after the threads are joined. -/
def finish (messages : Nat) (s : State) : State :=
  match s.errors with
  | [] => { s with printed := s.printed ++ [.enqueued messages messages], outcome := some .returned }
  | errors => { s with outcome := some (outcomeOf errors) }

def step (messages : Nat) (chunk : ChunkLoop) (s : State) : Label → Option State
  | .thread i a =>
    match s.threads[i]? with
    | some th =>
      (chunk th a).map (fun next => { s with
        done := s.done + next.2
        errors := s.errors ++ a.errors
        threads := s.threads.set i next.1 })
    | none => none
  | .poll =>
    -- A thread was alive a moment ago; the last may have ended before `done[0]` is read.
    if s.outcome = none then
      some { s with printed := s.printed ++ [.enqueued s.done messages] }
    else none
  | .joined =>
    if s.threads.all Thread.ended ∧ s.outcome = none then some (finish messages s) else none

def threads (messages workers : Nat) (chunk : ChunkLoop) : Machine State Label Outcome where
  init := ⟨0, [], (shares messages workers).map (fun count => ⟨count, 0, 0, .looping⟩), [], none⟩
  step := step messages chunk
  result s := s.outcome

def publishThreaded (messages workers batchSize : Nat) : Machine State Label Outcome :=
  threads messages workers (publishChunk batchSize)

/-- The batch size is that of `publish_chunk`: the source passes its own on to
    nothing. -/
def publishThreadedChunks (messages workers : Nat) (publish_chunk : ChunkLoop) : Machine State Label Outcome :=
  threads messages workers publish_chunk

/-! ## Counting labels -/

def ThreadLabel.sends : ThreadLabel → Nat
  | .send => 1
  | _ => 0

def sends : Label → Nat
  | .thread _ a => a.sends
  | _ => 0

/-- Every send returns. -/
def Clean : Label → Prop
  | .thread _ (.failed _) => False
  | _ => True

/-- The main thread may poll as often as it likes. -/
def idle : Label → Bool
  | .poll => true
  | _ => false

/-! ## One thread -/

/-- What a label does to a thread of the chunk loop. -/
theorem chunk_cases {batchSize added : Nat} {th next : Thread} {a : ThreadLabel}
    (stepped : chunkStep batchSize th a = some (next, added)) :
    (a = .send ∧ th.phase = .looping ∧ th.tried < th.count ∧ added = 0 ∧
      next = { th with tried := th.tried + 1, phase := .sending }) ∨
    (a = .sent ∧ th.phase = .sending ∧ th.tried % batchSize = 0 ∧ added = 0 ∧
      next = { th with localDone := th.localDone + batchSize, phase := .adding }) ∨
    (a = .sent ∧ th.phase = .sending ∧ th.tried % batchSize ≠ 0 ∧ added = 0 ∧
      next = { th with phase := .looping }) ∨
    (∃ error, a = .failed error ∧ th.phase = .sending ∧ added = 0 ∧ next = { th with phase := .failed }) ∨
    (a = .add ∧ th.phase = .adding ∧ added = batchSize ∧ next = { th with phase := .looping }) ∨
    (a = .leave ∧ th.phase = .looping ∧ th.count ≤ th.tried ∧ added = 0 ∧ th.count - th.localDone = 0 ∧
      next = { th with phase := .finished }) ∨
    (a = .leave ∧ th.phase = .looping ∧ th.count ≤ th.tried ∧ added = 0 ∧ th.count - th.localDone ≠ 0 ∧
      next = { th with phase := .flushing (th.count - th.localDone) }) ∨
    (∃ leftover, a = .flush ∧ th.phase = .flushing leftover ∧ added = leftover ∧
      next = { th with phase := .finished }) := by
  cases a with
  | send =>
    simp only [chunkStep, Option.ite_none_right_eq_some, Option.some.injEq, Prod.mk.injEq] at stepped
    exact .inl ⟨rfl, stepped.1.1, stepped.1.2, stepped.2.2.symm, stepped.2.1.symm⟩
  | sent =>
    simp only [chunkStep, Option.ite_none_right_eq_some] at stepped
    obtain ⟨phase, stepped⟩ := stepped
    by_cases full : th.tried % batchSize = 0
    · simp only [full, ↓reduceIte, Option.some.injEq, Prod.mk.injEq] at stepped
      exact .inr (.inl ⟨rfl, phase, full, stepped.2.symm, stepped.1.symm⟩)
    · simp only [full, ↓reduceIte, Option.some.injEq, Prod.mk.injEq] at stepped
      exact .inr (.inr (.inl ⟨rfl, phase, full, stepped.2.symm, stepped.1.symm⟩))
  | failed error =>
    simp only [chunkStep, Option.ite_none_right_eq_some, Option.some.injEq, Prod.mk.injEq] at stepped
    exact .inr (.inr (.inr (.inl ⟨error, rfl, stepped.1, stepped.2.2.symm, stepped.2.1.symm⟩)))
  | add =>
    simp only [chunkStep, Option.ite_none_right_eq_some, Option.some.injEq, Prod.mk.injEq] at stepped
    exact .inr (.inr (.inr (.inr (.inl ⟨rfl, stepped.1, stepped.2.2.symm, stepped.2.1.symm⟩))))
  | leave =>
    simp only [chunkStep, Option.ite_none_right_eq_some] at stepped
    obtain ⟨⟨phase, spent⟩, stepped⟩ := stepped
    by_cases nothing : th.count - th.localDone = 0
    · simp only [nothing, ↓reduceIte, Option.some.injEq, Prod.mk.injEq] at stepped
      exact .inr (.inr (.inr (.inr (.inr (.inl ⟨rfl, phase, spent, stepped.2.symm, nothing, stepped.1.symm⟩)))))
    · simp only [nothing, ↓reduceIte, Option.some.injEq, Prod.mk.injEq] at stepped
      exact .inr (.inr (.inr (.inr (.inr (.inr (.inl
        ⟨rfl, phase, spent, stepped.2.symm, nothing, stepped.1.symm⟩))))))
  | flush =>
    cases phase : th.phase with
    | flushing leftover =>
      simp only [chunkStep, phase, Option.some.injEq, Prod.mk.injEq] at stepped
      exact .inr (.inr (.inr (.inr (.inr (.inr (.inr
        ⟨leftover, rfl, rfl, stepped.2.symm, stepped.1.symm⟩))))))
    | looping | sending | adding | finished | failed => simp [chunkStep, phase] at stepped

/-- A thread that met no failing send: it never passes its share, and only
    leaves the loop with its share done. -/
structure ThreadInv (th : Thread) : Prop where
  within : th.tried ≤ th.count
  unfailed : th.phase ≠ .failed
  flushed : ∀ leftover, th.phase = .flushing leftover → th.tried = th.count
  complete : th.phase = .finished → th.tried = th.count

/-- Steps a thread can still make within the current message. -/
def Phase.steps : Phase → Nat
  | .looping => 2
  | .sending => 4
  | .adding => 3
  | .flushing _ => 1
  | .finished | .failed => 0

/-- Steps a thread can still make. -/
def Thread.steps (th : Thread) : Nat := 4 * (th.count - th.tried) + th.phase.steps

/-- Only a thread that has not ended makes steps, and it has fewer left after each. -/
theorem chunk_steps {batchSize added : Nat} {th next : Thread} {a : ThreadLabel}
    (stepped : chunkStep batchSize th a = some (next, added)) : th.ended = false ∧ next.steps + 1 ≤ th.steps := by
  rcases chunk_cases stepped with ⟨_, phase, more, _, rfl⟩ | ⟨_, phase, _, _, rfl⟩ | ⟨_, phase, _, _, rfl⟩ |
    ⟨_, _, phase, _, rfl⟩ | ⟨_, phase, _, rfl⟩ | ⟨_, phase, _, _, _, rfl⟩ | ⟨_, phase, _, _, _, rfl⟩ |
    ⟨_, _, phase, _, rfl⟩
  all_goals
    constructor
    · simp [Thread.ended, phase]
    · simp only [Thread.steps, phase, Phase.steps]
      omega

theorem chunk_account {batchSize added : Nat} {th next : Thread} {a : ThreadLabel} (inv : ThreadInv th)
    (clean : ∀ error, a ≠ .failed error) (stepped : chunkStep batchSize th a = some (next, added)) :
    ThreadInv next ∧ next.count = th.count ∧ a.sends + (next.count - next.tried) = th.count - th.tried := by
  obtain ⟨within, unfailed, flushed, complete⟩ := inv
  rcases chunk_cases stepped with ⟨rfl, phase, more, _, rfl⟩ | ⟨rfl, phase, _, _, rfl⟩ |
    ⟨rfl, phase, _, _, rfl⟩ | ⟨error, rfl, _⟩ | ⟨rfl, phase, _, rfl⟩ | ⟨rfl, phase, spent, _, _, rfl⟩ |
    ⟨rfl, phase, spent, _, _, rfl⟩ | ⟨leftover, rfl, phase, _, rfl⟩
  · refine ⟨⟨more, by simp, by simp, by simp⟩, rfl, ?_⟩
    simp only [ThreadLabel.sends]
    omega
  · exact ⟨⟨within, by simp, by simp, by simp⟩, rfl, by simp [ThreadLabel.sends]⟩
  · exact ⟨⟨within, by simp, by simp, by simp⟩, rfl, by simp [ThreadLabel.sends]⟩
  · exact absurd rfl (clean error)
  · exact ⟨⟨within, by simp, by simp, by simp⟩, rfl, by simp [ThreadLabel.sends]⟩
  · exact ⟨⟨within, by simp, by simp, fun _ => le_antisymm within spent⟩, rfl, by simp [ThreadLabel.sends]⟩
  · exact ⟨⟨within, by simp, fun _ _ => le_antisymm within spent, by simp⟩, rfl, by simp [ThreadLabel.sends]⟩
  · exact ⟨⟨within, by simp, by simp, fun _ => flushed leftover phase⟩, rfl, by simp [ThreadLabel.sends]⟩

/-- A thread that has not ended can make a step without a failing send. -/
theorem chunk_live (batchSize : Nat) {th : Thread} (active : th.ended = false) :
    ∃ a, (∀ error, a ≠ ThreadLabel.failed error) ∧ (chunkStep batchSize th a).isSome := by
  cases phase : th.phase with
  | looping =>
    by_cases more : th.tried < th.count
    · exact ⟨.send, by simp, by simp [chunkStep, phase, more]⟩
    · refine ⟨.leave, by simp, ?_⟩
      simp only [chunkStep, phase, not_lt.mp more, and_self, ↓reduceIte]
      split_ifs <;> rfl
  | sending =>
    refine ⟨.sent, by simp, ?_⟩
    simp only [chunkStep, phase, ↓reduceIte]
    split_ifs <;> rfl
  | adding => exact ⟨.add, by simp, by simp [chunkStep, phase]⟩
  | flushing leftover => exact ⟨.flush, by simp, by simp [chunkStep, phase]⟩
  | finished | failed => simp [Thread.ended, phase] at active

/-! ## The account of one call -/

theorem step_cases {messages : Nat} {chunk : ChunkLoop} {s t : State} {a : Label}
    (stepped : step messages chunk s a = some t) :
    (∃ i b th next added, a = .thread i b ∧ s.threads[i]? = some th ∧ chunk th b = some (next, added) ∧
      t = { s with done := s.done + added, errors := s.errors ++ b.errors, threads := s.threads.set i next }) ∨
    (a = .poll ∧ t = { s with printed := s.printed ++ [.enqueued s.done messages] }) ∨
    (a = .joined ∧ s.threads.all Thread.ended ∧ s.outcome = none ∧ t = finish messages s) := by
  cases a with
  | thread i b =>
    cases found : s.threads[i]? with
    | none => simp [step, found] at stepped
    | some th =>
      simp only [step, found, Option.map_eq_some_iff] at stepped
      obtain ⟨⟨next, added⟩, executed, rfl⟩ := stepped
      exact .inl ⟨i, b, th, next, added, rfl, found, executed, rfl⟩
  | poll =>
    simp only [step, Option.ite_none_right_eq_some, Option.some.injEq] at stepped
    exact .inr (.inl ⟨rfl, stepped.2.symm⟩)
  | joined =>
    simp only [step, Option.ite_none_right_eq_some, Option.some.injEq] at stepped
    exact .inr (.inr ⟨rfl, stepped.1.1, stepped.1.2, stepped.2.symm⟩)

/-- What holds while no send fails. -/
structure Inv (s : State) : Prop where
  threads : ∀ th ∈ s.threads, ThreadInv th
  noErrors : s.errors = []
  joined : ∀ outcome, s.outcome = some outcome → s.threads.all Thread.ended ∧ outcome = .returned

/-- Messages of the shares not sent yet. -/
def owed (s : State) : Nat := (s.threads.map (fun th => th.count - th.tried)).sum

/-- Steps, other than polls, that the call can still make. -/
def stepsLeft (s : State) : Nat := (s.threads.map Thread.steps).sum + if s.outcome = none then 1 else 0

theorem step_account {messages batchSize : Nat} {s t : State} {a : Label} (inv : Inv s) (clean : Clean a)
    (stepped : step messages (chunkStep batchSize) s a = some t) :
    Inv t ∧ sends a + owed t = owed s ∧ (if idle a then 0 else 1) + stepsLeft t ≤ stepsLeft s := by
  rcases step_cases stepped with ⟨i, b, th, next, added, rfl, found, executed, rfl⟩ | ⟨rfl, rfl⟩ |
    ⟨rfl, ended, running, rfl⟩
  · have returns : ∀ error, b ≠ .failed error := by
      rintro error rfl
      exact clean
    obtain ⟨kept, _, paid⟩ := chunk_account (inv.threads th (List.mem_of_getElem? found)) returns executed
    obtain ⟨running, used⟩ := chunk_steps executed
    have owes := sum_map_set (fun th : Thread => th.count - th.tried) found next
    have steps := sum_map_set Thread.steps found next
    refine ⟨⟨?_, ?_, ?_⟩, ?_, ?_⟩
    · intro other member
      rcases List.mem_or_eq_of_mem_set member with before | now
      · exact inv.threads other before
      · exact now ▸ kept
    · cases b <;> simp_all [ThreadLabel.errors, inv.noErrors]
    · intro outcome present
      have active := List.all_eq_true.mp (inv.joined outcome present).1 th (List.mem_of_getElem? found)
      rw [running] at active
      cases active
    · simp only [sends, owed]
      omega
    · simp only [idle, stepsLeft, Bool.false_eq_true, ↓reduceIte]
      omega
  · exact ⟨⟨inv.threads, inv.noErrors, inv.joined⟩, by simp [sends, owed], by simp [idle, stepsLeft]⟩
  · simp only [finish, inv.noErrors]
    refine ⟨⟨inv.threads, rfl, ?_⟩, by simp [sends, owed], by simp [idle, stepsLeft, running]; omega⟩
    intro outcome present
    cases present
    exact ⟨ended, rfl⟩

/-- The threads publish as many messages as the call is asked for. -/
def account (messages workers batchSize : Nat) (pool : 1 ≤ workers) :
    Account (threads messages workers (chunkStep batchSize)) sends Clean idle (· = .returned) messages where
  Inv := Inv
  owed := owed
  left := stepsLeft
  init_inv := by
    refine ⟨?_, rfl, by simp [threads]⟩
    intro th member
    obtain ⟨count, _, rfl⟩ := List.mem_map.mp member
    exact ⟨Nat.zero_le _, by simp, by simp, by simp⟩
  init_owed := by
    simp only [threads, owed, List.map_map, Function.comp_def, Nat.sub_zero, List.map_id']
    exact shares_sum pool
  step_inv := fun inv clean stepped => (step_account inv clean stepped).1
  step_owed := fun inv clean stepped => (step_account inv clean stepped).2.1
  step_left := fun inv clean stepped => (step_account inv clean stepped).2.2
  ended := by
    intro s outcome inv present
    obtain ⟨ended, same⟩ := inv.joined outcome present
    refine ⟨?_, same⟩
    refine List.sum_eq_zero (fun rest member => ?_)
    obtain ⟨th, inPool, rfl⟩ := List.mem_map.mp member
    obtain ⟨_, unfailed, _, complete⟩ := inv.threads th inPool
    have atEnd := List.all_eq_true.mp ended th inPool
    cases phase : th.phase with
    | finished =>
      have := complete phase
      omega
    | failed => exact absurd phase unfailed
    | looping | sending | adding | flushing _ => simp [Thread.ended, phase] at atEnd
  live := by
    intro s _ running
    by_cases all : s.threads.all Thread.ended
    · exact ⟨.joined, trivial, rfl, by simpa [threads, step, all] using running⟩
    · simp only [List.all_eq_true, not_forall] at all
      obtain ⟨th, member, active⟩ := all
      obtain ⟨i, found⟩ := List.mem_iff_getElem?.mp member
      obtain ⟨a, returns, enabled⟩ := chunk_live batchSize (Bool.eq_false_iff.mpr active)
      refine ⟨.thread i a, ?_, rfl, by simpa [threads, step, found] using enabled⟩
      cases a <;> simp_all [Clean]

theorem account_left {messages workers batchSize : Nat} (pool : 1 ≤ workers) :
    ∀ count ≤ messages, (account count workers batchSize pool).left
      (threads count workers (chunkStep batchSize)).init ≤ 4 * messages + 2 * workers + 1 := by
  intro count le
  have dealt : ((shares count workers).map (fun share => 4 * share + 2)).sum = 4 * count + 2 * workers := by
    rw [List.sum_map_add, List.sum_map_mul_left, List.map_id', shares_sum pool]
    simp [Nat.mul_comm]
  have threads : stepsLeft (threads count workers (chunkStep batchSize)).init = 4 * count + 2 * workers + 1 := by
    rw [← dealt]
    simp [stepsLeft, ThreadedPublish.threads, Thread.steps, Phase.steps, Function.comp_def]
  show stepsLeft _ ≤ _
  omega

end RepidBench.ThreadedPublish
