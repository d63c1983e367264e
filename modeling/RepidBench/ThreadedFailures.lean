import Mathlib.Algebra.Order.BigOperators.Group.List
import Mathlib.Algebra.Order.Group.Nat
import RepidBench.ThreadedPublish

/-!
Threaded publishing whose sends may fail, in any order of the threads. Each thread
adds to the shared progress what it has sent, a batch at a time and what is over at
its end; the thread of a failed send ends there and adds nothing more.
-/
namespace RepidBench.ThreadedFailures
open Transition Publishing ThreadedPublish

/-! ## What is counted -/

def threadReturns : ThreadLabel → Nat
  | .sent => 1
  | _ => 0

/-- The sends that have returned. -/
def returns : Label → Nat
  | .thread _ a => threadReturns a
  | _ => 0

/-- Those of one thread. -/
def returnsOf (i : Nat) : Label → Nat
  | .thread j a => if j = i then threadReturns a else 0
  | _ => 0

/-- The exceptions of the sends, in their order. -/
def raised : Label → List String
  | .thread _ a => a.errors
  | _ => []

/-- The sends of a thread that have returned. -/
def threadReturned (th : Thread) : Nat :=
  match th.phase with
  | .sending | .failed => th.tried - 1
  | _ => th.tried

/-- What a thread has added to the progress. -/
def threadAdded (batchSize : Nat) (th : Thread) : Nat :=
  match th.phase with
  | .adding => th.localDone - batchSize
  | .finished => th.count
  | _ => th.localDone

/-! ## One thread -/

/-- A thread counts in whole batches what it has sent, within its share. -/
structure ThreadOk (batchSize : Nat) (th : Thread) : Prop where
  within : th.tried ≤ th.count
  aligned : batchSize ∣ th.localDone
  counted : th.localDone ≤ threadReturned th
  trying : th.phase = .sending ∨ th.phase = .failed → 1 ≤ th.tried
  adding : th.phase = .adding → batchSize ≤ th.localDone
  flushing : ∀ leftover, th.phase = .flushing leftover → th.tried = th.count ∧ leftover = th.count - th.localDone
  finished : th.phase = .finished → th.tried = th.count

theorem threadOk_init (batchSize count : Nat) : ThreadOk batchSize ⟨count, 0, 0, .looping⟩ :=
  ⟨Nat.zero_le _, Nat.dvd_zero _, Nat.zero_le _, by simp, by simp, by simp, by simp⟩

theorem ThreadOk.returned_le {batchSize : Nat} {th : Thread} (ok : ThreadOk batchSize th) :
    threadReturned th ≤ th.count := by
  have within := ok.within
  unfold threadReturned
  split <;> omega

/-- A thread never adds more than it has sent. -/
theorem ThreadOk.added_le {batchSize : Nat} {th : Thread} (ok : ThreadOk batchSize th) :
    threadAdded batchSize th ≤ threadReturned th := by
  have counted := ok.counted
  cases phase : th.phase with
  | finished =>
    have complete := ok.finished phase
    simp [threadAdded, threadReturned, phase, complete]
  | adding =>
    simp only [threadAdded, threadReturned, phase] at counted ⊢
    omega
  | looping | sending | flushing _ | failed =>
    simp only [threadAdded, phase]
    exact counted

/-- The next batch boundary is at most the number of sends that reaches one. -/
theorem next_batch_le {batchSize done tried : Nat} (aligned : batchSize ∣ done) (full : tried % batchSize = 0)
    (less : done < tried) : done + batchSize ≤ tried := by
  obtain ⟨batches, rfl⟩ := aligned
  obtain ⟨count, rfl⟩ := Nat.dvd_of_mod_eq_zero full
  have more : batches < count := Nat.lt_of_mul_lt_mul_left less
  calc batchSize * batches + batchSize = batchSize * (batches + 1) := (Nat.mul_succ batchSize batches).symm
    _ ≤ batchSize * count := Nat.mul_le_mul_left batchSize more

/-- One step of a thread, with a send that fails or without. -/
structure ThreadStep (batchSize : Nat) (th : Thread) (a : ThreadLabel) (next : Thread) (added : Nat) : Prop where
  ok : ThreadOk batchSize next
  count : next.count = th.count
  returned : threadReturned next = threadReturned th + threadReturns a
  added : threadAdded batchSize next = threadAdded batchSize th + added
  failed : next.phase = .failed ↔ ∃ error, a = .failed error

theorem chunk_step {batchSize added : Nat} {th next : Thread} {a : ThreadLabel} (ok : ThreadOk batchSize th)
    (stepped : chunkStep batchSize th a = some (next, added)) : ThreadStep batchSize th a next added := by
  obtain ⟨within, aligned, counted, trying, adding, flushing, finished⟩ := ok
  rcases chunk_cases stepped with ⟨rfl, phase, more, rfl, rfl⟩ | ⟨rfl, phase, full, rfl, rfl⟩ |
    ⟨rfl, phase, _, rfl, rfl⟩ | ⟨error, rfl, phase, rfl, rfl⟩ | ⟨rfl, phase, rfl, rfl⟩ |
    ⟨rfl, phase, spent, rfl, nothing, rfl⟩ | ⟨rfl, phase, spent, rfl, something, rfl⟩ | ⟨leftover, rfl, phase, rfl, rfl⟩
  · -- The loop goes on to the next send.
    simp only [threadReturned, phase] at counted
    refine ⟨⟨more, aligned, counted, by simp, by simp, by simp, by simp⟩, rfl, ?_, ?_, by simp⟩
    · simp [threadReturned, threadReturns, phase]
    · simp [threadAdded, phase]
  · -- A send that completes a batch has returned.
    have positive := trying (.inl phase)
    simp only [threadReturned, phase] at counted
    have batch : th.localDone + batchSize ≤ th.tried := next_batch_le aligned full (by omega)
    refine ⟨⟨within, aligned.add (dvd_refl batchSize), batch, by simp, by simp, by simp, by simp⟩, rfl, ?_, ?_,
      by simp⟩
    · simp only [threadReturned, threadReturns, phase]
      omega
    · simp [threadAdded, phase]
  · -- A send within a batch has returned.
    have positive := trying (.inl phase)
    simp only [threadReturned, phase] at counted
    refine ⟨⟨within, aligned, by simp only [threadReturned]; omega, by simp, by simp, by simp, by simp⟩, rfl, ?_, ?_,
      by simp⟩
    · simp only [threadReturned, threadReturns, phase]
      omega
    · simp [threadAdded, phase]
  · -- The send has raised, and nothing is added for the batch.
    have positive := trying (.inl phase)
    simp only [threadReturned, phase] at counted
    refine ⟨⟨within, aligned, counted, fun _ => positive, by simp, by simp, by simp⟩, rfl, ?_, ?_, by simp⟩
    · simp [threadReturned, threadReturns, phase]
    · simp [threadAdded, phase]
  · -- The batch is added to the progress.
    have batch := adding phase
    simp only [threadReturned, phase] at counted
    refine ⟨⟨within, aligned, counted, by simp, by simp, by simp, by simp⟩, rfl, ?_, ?_, by simp⟩
    · simp [threadReturned, threadReturns, phase]
    · simp only [threadAdded, phase]
      omega
  · -- The share is made of whole batches.
    have complete : th.tried = th.count := le_antisymm within spent
    simp only [threadReturned, phase] at counted
    refine ⟨⟨within, aligned, counted, by simp, by simp, by simp, fun _ => complete⟩, rfl, ?_, ?_, by simp⟩
    · simp [threadReturned, threadReturns, phase]
    · simp only [threadAdded, phase]
      omega
  · -- There are messages over.
    have complete : th.tried = th.count := le_antisymm within spent
    simp only [threadReturned, phase] at counted
    refine ⟨⟨within, aligned, counted, by simp, by simp, ?_, by simp⟩, rfl, ?_, ?_, by simp⟩
    · rintro leftover ⟨⟩
      exact ⟨complete, rfl⟩
    · simp [threadReturned, threadReturns, phase]
    · simp [threadAdded, phase]
  · -- They are added at the end.
    obtain ⟨complete, rest⟩ := flushing _ phase
    simp only [threadReturned, phase] at counted
    refine ⟨⟨within, aligned, counted, by simp, by simp, by simp, fun _ => complete⟩, rfl, ?_, ?_, by simp⟩
    · simp [threadReturned, threadReturns, phase]
    · simp only [threadAdded, phase]
      omega

/-! ## The whole call -/

/-- What the state says about the labels so far. -/
structure Tallied (messages workers batchSize : Nat) (past : List Label) (s : State) : Prop where
  threads : ∀ th ∈ s.threads, ThreadOk batchSize th
  shares : s.threads.map Thread.count = shares messages workers
  done : s.done = (s.threads.map (threadAdded batchSize)).sum
  returned : total returns past = (s.threads.map threadReturned).sum
  each : ∀ i th, s.threads[i]? = some th →
    total (returnsOf i) past = threadReturned th ∧ (th.phase = .failed ↔ ∃ error, .thread i (.failed error) ∈ past)
  errors : s.errors = past.flatMap raised
  outcome : ∀ outcome, s.outcome = some outcome → s.threads.all Thread.ended ∧ outcome = outcomeOf s.errors

section
variable {messages workers batchSize : Nat} {past : List Label} {s t : State} {a : Label}

theorem init_tallied (messages workers batchSize : Nat) :
    Tallied messages workers batchSize [] (threads messages workers (chunkStep batchSize)).init := by
  have none : ∀ counts : List Nat, ((counts.map (fun count => (⟨count, 0, 0, .looping⟩ : Thread))).map
      (threadAdded batchSize)).sum = 0 := by
    intro counts
    simp [threadAdded, Function.comp_def]
  refine ⟨?_, ?_, ?_, ?_, ?_, rfl, by simp [threads]⟩
  · intro th member
    obtain ⟨count, _, rfl⟩ := List.mem_map.mp member
    exact threadOk_init batchSize count
  · simp [threads, Function.comp_def]
  · exact (none _).symm
  · simp [threads, threadReturned, Function.comp_def]
  · intro i th found
    obtain ⟨count, _, rfl⟩ := List.mem_map.mp (List.mem_of_getElem? found)
    simp [threadReturned]

/-- A label that is not one of a thread changes only what is printed and the outcome. -/
theorem Tallied.quiet (tallied : Tallied messages workers batchSize past s)
    (notReturns : returns a = 0) (notOf : ∀ i, returnsOf i a = 0) (notRaised : raised a = [])
    (other : ∀ i b, a ≠ .thread i b) (done : t.done = s.done) (errors : t.errors = s.errors)
    (same : t.threads = s.threads)
    (outcome : ∀ outcome, t.outcome = some outcome → t.threads.all Thread.ended ∧ outcome = outcomeOf t.errors) :
    Tallied messages workers batchSize (past ++ [a]) t := by
  refine ⟨?_, ?_, ?_, ?_, ?_, ?_, outcome⟩
  · rw [same]
    exact tallied.threads
  · rw [same]
    exact tallied.shares
  · rw [same, done]
    exact tallied.done
  · rw [same, total_append, total_single, notReturns]
    exact tallied.returned
  · rw [same]
    intro i th found
    obtain ⟨returned, failed⟩ := tallied.each i th found
    refine ⟨by rw [total_append, total_single, notOf]; exact returned, failed.trans ?_⟩
    refine exists_congr (fun error => ?_)
    simp [Ne.symm (other i (.failed error))]
  · rw [errors, List.flatMap_append, tallied.errors]
    simp [notRaised]

theorem step_tallied (tallied : Tallied messages workers batchSize past s)
    (stepped : step messages (chunkStep batchSize) s a = some t) :
    Tallied messages workers batchSize (past ++ [a]) t ∧ s.done ≤ t.done ∧
      (if idle a then 0 else 1) + stepsLeft t ≤ stepsLeft s ∧
      ∀ j, (∀ b, a ≠ .thread j b) → t.threads[j]? = s.threads[j]? := by
  rcases step_cases stepped with ⟨i, b, th, next, added, rfl, found, executed, rfl⟩ | ⟨rfl, rfl⟩ |
    ⟨rfl, ended, running, rfl⟩
  · have moved := chunk_step (tallied.threads th (List.mem_of_getElem? found)) executed
    obtain ⟨active, less⟩ := chunk_steps executed
    obtain ⟨ownReturned, ownFailed⟩ := tallied.each i th found
    have inside : i < s.threads.length := (List.getElem?_eq_some_iff.mp found).1
    have stepsSum := sum_map_set Thread.steps found next
    refine ⟨⟨?_, ?_, ?_, ?_, ?_, ?_, ?_⟩, Nat.le_add_right _ _, ?_, ?_⟩
    · intro other member
      rcases List.mem_or_eq_of_mem_set member with before | now
      · exact tallied.threads other before
      · exact now ▸ moved.ok
    · have there : (s.threads.map Thread.count)[i]? = some next.count := by
        rw [List.getElem?_map, found, moved.count]
        rfl
      obtain ⟨short, same⟩ := List.getElem?_eq_some_iff.mp there
      rw [List.map_set, ← tallied.shares, ← same]
      exact List.set_getElem_self short
    · have sums := sum_map_set (threadAdded batchSize) found next
      have done := tallied.done
      have own := moved.added
      show s.done + added = ((s.threads.set i next).map (threadAdded batchSize)).sum
      omega
    · have sums := sum_map_set threadReturned found next
      have before := tallied.returned
      have own := moved.returned
      rw [total_append, total_single]
      show total returns past + threadReturns b = ((s.threads.set i next).map threadReturned).sum
      omega
    · intro j other there
      by_cases own : j = i
      · subst own
        rw [List.getElem?_set_self inside] at there
        cases there
        refine ⟨?_, ?_⟩
        · rw [total_append, total_single, ownReturned, moved.returned]
          simp [returnsOf]
        · have before : ¬ ∃ error, Label.thread j (.failed error) ∈ past := by
            rw [← ownFailed]
            intro failed
            simp [Thread.ended, failed] at active
          rw [moved.failed]
          constructor
          · rintro ⟨error, rfl⟩
            exact ⟨error, List.mem_append_right past (List.mem_singleton.mpr rfl)⟩
          · rintro ⟨error, member⟩
            rcases List.mem_append.mp member with earlier | now
            · exact absurd ⟨error, earlier⟩ before
            · cases List.mem_singleton.mp now
              exact ⟨error, rfl⟩
      · rw [List.getElem?_set_ne (Ne.symm own)] at there
        obtain ⟨returned, failed⟩ := tallied.each j other there
        refine ⟨?_, failed.trans ?_⟩
        · rw [total_append, total_single, returned]
          simp [returnsOf, Ne.symm own]
        · refine exists_congr (fun error => ?_)
          simp [own]
    · rw [List.flatMap_append, ← tallied.errors]
      simp [raised]
    · intro outcome present
      have all := List.all_eq_true.mp (tallied.outcome outcome present).1 th (List.mem_of_getElem? found)
      rw [active] at all
      cases all
    · simp only [idle, stepsLeft, Bool.false_eq_true, ↓reduceIte]
      omega
    · intro j other
      have apart : i ≠ j := by
        rintro rfl
        exact other b rfl
      exact List.getElem?_set_ne apart
  · refine ⟨tallied.quiet rfl (fun _ => rfl) rfl (by simp) rfl rfl rfl tallied.outcome, le_rfl, ?_, fun _ _ => rfl⟩
    simp [idle, stepsLeft]
  · have same : (finish messages s).threads = s.threads ∧ (finish messages s).done = s.done ∧
        (finish messages s).errors = s.errors ∧ (finish messages s).outcome = some (outcomeOf s.errors) := by
      unfold finish
      cases errors : s.errors <;> simp [outcomeOf]
    obtain ⟨threads, done, errors, outcome⟩ := same
    refine ⟨tallied.quiet rfl (fun _ => rfl) rfl (by simp) done errors threads ?_, done.ge, ?_, fun _ _ => by rw [threads]⟩
    · intro result present
      rw [outcome] at present
      cases present
      rw [threads, errors]
      exact ⟨ended, rfl⟩
    · simp only [idle, stepsLeft, threads, outcome, running, Bool.false_eq_true, ↓reduceIte, reduceCtorEq]
      omega

/-- Every run keeps the tally, and the steps other than polls use up what is left. -/
theorem reaches_tallied {trace : List Label}
    (reached : (threads messages workers (chunkStep batchSize)).Reaches trace s) :
    Tallied messages workers batchSize trace s ∧ trace.countP (fun a => !idle a) + stepsLeft s ≤
      stepsLeft (threads messages workers (chunkStep batchSize)).init := by
  refine run_history (fun past s => Tallied messages workers batchSize past s ∧
    past.countP (fun a => !idle a) + stepsLeft s ≤ stepsLeft (threads messages workers (chunkStep batchSize)).init)
    ?_ [] ⟨init_tallied messages workers batchSize, by simp⟩ reached
  rintro past s a t ⟨tallied, bound⟩ stepped
  obtain ⟨kept, _, used, _⟩ := step_tallied tallied stepped
  refine ⟨kept, ?_⟩
  rw [List.countP_append, List.countP_singleton]
  cases busy : idle a
  · simp only [busy, Bool.false_eq_true, ↓reduceIte, Bool.not_false] at used ⊢
    omega
  · simp only [busy, ↓reduceIte, Bool.not_true, Bool.false_eq_true] at used ⊢
    omega

/-- The progress counts sends that have returned. -/
theorem Tallied.done_le (tallied : Tallied messages workers batchSize past s) : s.done ≤ total returns past := by
  rw [tallied.done, tallied.returned]
  exact List.sum_le_sum (fun th member => (tallied.threads th member).added_le)

theorem Tallied.counts_sum (pool : 1 ≤ workers) (tallied : Tallied messages workers batchSize past s) :
    (s.threads.map Thread.count).sum = messages := by
  rw [tallied.shares]
  exact shares_sum pool

/-- No thread sends more than its share. -/
theorem Tallied.returned_le (pool : 1 ≤ workers) (tallied : Tallied messages workers batchSize past s) :
    total returns past ≤ messages := by
  rw [tallied.returned, ← tallied.counts_sum pool]
  exact List.sum_le_sum (fun th member => (tallied.threads th member).returned_le)

/-- The exceptions of the call are those of its failed sends. -/
theorem Tallied.errors_iff (tallied : Tallied messages workers batchSize past s) :
    s.errors ≠ [] ↔ ∃ i error, .thread i (.failed error) ∈ past := by
  rw [tallied.errors, ne_eq, List.flatMap_eq_nil_iff]
  constructor
  · intro some
    push Not at some
    obtain ⟨a, member, raises⟩ := some
    match a with
    | .thread i (.failed error) => exact ⟨i, error, member⟩
    | .thread _ .send | .thread _ .sent | .thread _ .add | .thread _ .leave | .thread _ .flush | .poll | .joined =>
      exact absurd rfl raises
  · rintro ⟨i, error, member⟩ none
    exact absurd (none _ member) (List.cons_ne_nil error [])

/-- A thread that has ended without a failed send has sent its share, and added it. -/
theorem ThreadOk.complete {th : Thread} (ok : ThreadOk batchSize th) (ended : th.ended = true)
    (unfailed : th.phase ≠ .failed) : threadReturned th = th.count ∧ threadAdded batchSize th = th.count := by
  cases phase : th.phase with
  | finished =>
    have complete := ok.finished phase
    simp [threadReturned, threadAdded, phase, complete]
  | failed => exact absurd phase unfailed
  | looping | sending | adding | flushing _ => simp [Thread.ended, phase] at ended

end

/-! ## The three calls -/

/-- Who publishes from threads: `publish_threaded`, or `publish_threaded_chunks` with the loop of an adapter. -/
inductive Call
  | threaded
  | celeryChunks
  | dramatiqChunks
  deriving DecidableEq, Repr

def Call.machine (messages workers batchSize : Nat) : Call → Machine State Label Outcome
  | .threaded => publishThreaded messages workers batchSize
  | .celeryChunks => publishThreadedChunks messages workers (celeryPublishChunk batchSize)
  | .dramatiqChunks => publishThreadedChunks messages workers (dramatiqPublishChunk batchSize)

theorem Call.machine_eq (messages workers batchSize : Nat) (call : Call) :
    call.machine messages workers batchSize = threads messages workers (chunkStep batchSize) := by
  cases call <;> rfl

/-- A send of the thread has raised. -/
def Failed (i : Nat) (trace : List Label) : Prop := ∃ error, .thread i (.failed error) ∈ trace

section
variable {messages workers batchSize : Nat} {trace : List Label} {s : State}

theorem Tallied.noErrors (tallied : Tallied messages workers batchSize trace s) (unfailed : ∀ i, ¬ Failed i trace) :
    s.errors = [] := by
  by_contra some
  obtain ⟨i, failed⟩ := tallied.errors_iff.mp some
  exact unfailed i failed

/-- A thread whose sends did not raise has sent its share by the time the call ends. -/
theorem Tallied.share_sent (tallied : Tallied messages workers batchSize trace s) {outcome : Outcome}
    (present : s.outcome = some outcome) {i share : Nat} (dealt : (Publishing.shares messages workers)[i]? = some share)
    (unfailed : ¬ Failed i trace) : total (returnsOf i) trace = share := by
  rw [← tallied.shares, List.getElem?_map, Option.map_eq_some_iff] at dealt
  obtain ⟨th, found, rfl⟩ := dealt
  obtain ⟨returned, failed⟩ := tallied.each i th found
  have member := List.mem_of_getElem? found
  have ended := List.all_eq_true.mp (tallied.outcome outcome present).1 th member
  rw [returned]
  exact ((tallied.threads th member).complete ended (fun phase => unfailed (failed.mp phase))).1

/-- A call that ends without a failed send has sent and counted every message. -/
theorem Tallied.all_sent (pool : 1 ≤ workers) (tallied : Tallied messages workers batchSize trace s)
    {outcome : Outcome} (present : s.outcome = some outcome) (unfailed : ∀ i, ¬ Failed i trace) :
    total returns trace = messages ∧ s.done = messages := by
  have complete : ∀ th ∈ s.threads, threadReturned th = th.count ∧ threadAdded batchSize th = th.count := by
    intro th member
    obtain ⟨i, found⟩ := List.mem_iff_getElem?.mp member
    have ended := List.all_eq_true.mp (tallied.outcome outcome present).1 th member
    exact (tallied.threads th member).complete ended
      (fun phase => unfailed i ((tallied.each i th found).2.mp phase))
  constructor
  · rw [tallied.returned, List.map_congr_left (fun th member => (complete th member).1)]
    exact tallied.counts_sum pool
  · rw [tallied.done, List.map_congr_left (fun th member => (complete th member).2)]
    exact tallied.counts_sum pool

/-- A call without its outcome can go on, with no send failing. -/
theorem live_of_running (messages batchSize : Nat) (running : s.outcome = none) :
    ∃ a, idle a = false ∧ (step messages (chunkStep batchSize) s a).isSome := by
  by_cases all : s.threads.all Thread.ended
  · exact ⟨.joined, rfl, by simp [step, all, running]⟩
  · simp only [List.all_eq_true, not_forall] at all
    obtain ⟨th, member, active⟩ := all
    obtain ⟨i, found⟩ := List.mem_iff_getElem?.mp member
    obtain ⟨a, _, enabled⟩ := chunk_live batchSize (Bool.eq_false_iff.mpr active)
    exact ⟨.thread i a, rfl, by simpa [step, found] using enabled⟩

end

/-- Whatever the schedule and whichever sends raise: the progress never falls and
    counts only sends that returned, a failed send ends its own thread and no other,
    the call raises exactly when a send did, and it returns with everything sent. -/
theorem threaded_failures (call : Call) (messages workers batchSize : Nat) (pool : 1 ≤ workers)
    (trace : List Label) (s : State)
    (reached : (call.machine messages workers batchSize).Reaches trace s) :
    (∀ a t, (call.machine messages workers batchSize).step s a = some t → s.done ≤ t.done) ∧
    s.done ≤ total returns trace ∧
    (∀ i b t, (call.machine messages workers batchSize).step s (.thread i b) = some t →
      ¬ Failed i trace ∧ ∀ j, j ≠ i → t.threads[j]? = s.threads[j]?) ∧
    (∀ outcome, s.outcome = some outcome →
      (∀ i share, (shares messages workers)[i]? = some share → ¬ Failed i trace →
        total (returnsOf i) trace = share) ∧
      ((∃ message, outcome = .runtimeError message) ↔ ∃ i, Failed i trace) ∧
      (outcome = .returned ↔ ¬ ∃ i, Failed i trace) ∧
      (outcome = .returned → total returns trace = messages ∧ s.done = messages)) ∧
    trace.countP (fun a => !idle a) ≤ 4 * messages + 2 * workers + 1 ∧
    (s.outcome = none →
      ∃ a t, idle a = false ∧ (call.machine messages workers batchSize).step s a = some t) := by
  rw [call.machine_eq] at *
  obtain ⟨tallied, bound⟩ := reaches_tallied reached
  have start : stepsLeft (threads messages workers (chunkStep batchSize)).init ≤ 4 * messages + 2 * workers + 1 :=
    account_left pool messages le_rfl
  refine ⟨?_, tallied.done_le, ?_, ?_, by omega, ?_⟩
  · intro a t stepped
    exact (step_tallied tallied stepped).2.1
  · intro i b t stepped
    have taken : step messages (chunkStep batchSize) s (.thread i b) = some t := stepped
    have others := (step_tallied tallied taken).2.2.2
    refine ⟨?_, fun j apart => others j ?_⟩
    · rintro ⟨error, member⟩
      rcases step_cases taken with ⟨_, _, th, next, added, ⟨⟩, found, executed, _⟩ | ⟨⟨⟩, _⟩ | ⟨⟨⟩, _⟩
      have phase := (tallied.each _ th found).2.mpr ⟨error, member⟩
      have active := (chunk_steps executed).1
      simp [Thread.ended, phase] at active
    · rintro c ⟨⟩
      exact apart rfl
  · intro outcome present
    obtain ⟨_, same⟩ := tallied.outcome outcome present
    have raised : (∃ message, outcome = .runtimeError message) ↔ ∃ i, Failed i trace := by
      rw [same, outcomeOf_error_iff, tallied.errors_iff]
      rfl
    have returned : outcome = .returned ↔ ¬ ∃ i, Failed i trace := by
      rw [same, outcomeOf_returned_iff, ← not_iff_not, not_not]
      exact tallied.errors_iff
    refine ⟨fun i share dealt => tallied.share_sent present dealt, raised, returned, ?_⟩
    intro normal
    exact tallied.all_sent pool present (not_exists.mp (returned.mp normal))
  · intro running
    obtain ⟨a, busy, enabled⟩ := live_of_running messages batchSize running
    obtain ⟨t, stepped⟩ := Option.isSome_iff_exists.mp enabled
    exact ⟨a, t, busy, stepped⟩

/-- Two threads with three messages: the first send of one raises, and the other still
    sends its message before the call raises. -/
theorem threaded_failures_one :
    let trace := [Label.thread 0 .send, .thread 0 (.failed "closed"), .poll, .thread 1 .send, .thread 1 .sent,
      .thread 1 .leave, .thread 1 .flush, .joined]
    let outcome := Outcome.runtimeError (failureText 1 "closed")
    (Call.threaded.machine 3 2 2).Reaches trace
        ⟨1, ["closed"], [⟨2, 1, 0, .failed⟩, ⟨1, 1, 0, .finished⟩], [.enqueued 0 3], some outcome⟩ ∧
      total (returnsOf 1) trace = 1 ∧ ∃ i, Failed i trace := by
  intro trace outcome
  have reached : (Call.threaded.machine 3 2 2).Reaches trace
      ⟨1, ["closed"], [⟨2, 1, 0, .failed⟩, ⟨1, 1, 0, .finished⟩], [.enqueued 0 3], some outcome⟩ := rfl
  have unfailed : ¬ Failed 1 trace := by
    rintro ⟨error, member⟩
    simp [trace] at member
  obtain ⟨shares, raised, _⟩ := (threaded_failures .threaded 3 2 2 (by omega) trace _ reached).2.2.2.1 outcome rfl
  exact ⟨reached, shares 1 1 rfl unfailed, raised.mp ⟨_, rfl⟩⟩

end RepidBench.ThreadedFailures
