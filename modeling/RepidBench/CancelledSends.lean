import RepidBench.AsyncPublish

/-!
`publish_async` when sends are cancelled. The list that `gather` returns names a
cancelled coroutine by an `asyncio.CancelledError`, which is no `Exception`: the
filter of `publish_async` passes over it, and the message it was sending is lost.
-/
namespace RepidBench.CancelledSends
open Transition Publishing AsyncPublish

def cancels : Label → Nat
  | .cancelled _ => 1
  | _ => 0

/-- The call returns only with every message sent, and raises otherwise. -/
def Honest (messages : Nat) (trace : List Label) (outcome : Outcome) : Prop :=
  (outcome = .returned → total returns trace = messages) ∧
  (outcome ≠ .returned → ∃ message, outcome = .runtimeError message)

theorem cancels_init (messages concurrency : Nat) :
    (init messages concurrency).workers.countP Coroutine.isCancelled = 0 := by
  unfold init
  split_ifs <;> simp [List.countP_replicate, Coroutine.isCancelled]

/-- A cancelled send leaves its coroutine cancelled, and nothing else does. -/
theorem cancels_step {messages : Nat} {s t : State} {a : Label} (stepped : step messages s a = some t) :
    t.workers.countP Coroutine.isCancelled = s.workers.countP Coroutine.isCancelled + cancels a := by
  rcases step_cases stepped with ⟨i, rfl, found, _, rfl⟩ | ⟨i, rfl, found, _, rfl⟩ |
    ⟨i, printed, rfl, found, rfl⟩ | ⟨i, error, rfl, found, rfl⟩ | ⟨i, rfl, found, rfl⟩ | ⟨rfl, _, _, rfl⟩
  · simpa [Coroutine.isCancelled, cancels] using (counts_set found .sending).2.2
  · simpa [Coroutine.isCancelled, cancels] using (counts_set found .left).2.2
  · simpa [Coroutine.isCancelled, cancels] using (counts_set found .ready).2.2
  · simpa [Coroutine.isCancelled, cancels] using (counts_set found (.raised error)).2.2
  · simpa [Coroutine.isCancelled, cancels] using (counts_set found .cancelled).2.2
  · obtain ⟨printed, same⟩ := finish_eq messages s
    rw [same]
    simp [cancels]

theorem cancels_counted {messages concurrency : Nat} {trace : List Label} {s : State}
    (reached : (publishAsync messages concurrency).Reaches trace s) :
    total cancels trace = s.workers.countP Coroutine.isCancelled := by
  have preserved : ∀ (past : List Label) s a t, total cancels past = s.workers.countP Coroutine.isCancelled →
      step messages s a = some t → total cancels (past ++ [a]) = t.workers.countP Coroutine.isCancelled := by
    intro past s a t counted stepped
    rw [total_append, total_single, counted, cancels_step stepped]
  exact run_history _ preserved [] (cancels_init messages concurrency).symm reached

/-- Whatever the schedule and however the sends end, every call ends, and it reports
    what it sent exactly when no send was cancelled or some send raised an
    `Exception`: a call that only had sends cancelled returns without them. -/
theorem publish_async_honest_iff (messages concurrency : Nat) (pool : 1 ≤ concurrency) (trace : List Label) (s : State)
    (reached : (publishAsync messages concurrency).Reaches trace s) :
    (∀ outcome, s.outcome = some outcome →
      (Honest messages trace outcome ↔ total cancels trace = 0 ∨ 1 ≤ total raises trace)) ∧
    trace.length ≤ 2 * messages + min concurrency messages + 1 ∧
    (s.outcome = none → ∃ a t, (publishAsync messages concurrency).step s a = some t) := by
  refine ⟨?_, length_le reached, ?_⟩
  · intro outcome present
    have inv := reaches_inv pool reached
    obtain ⟨_, returned, raised⟩ := reaches_counted reached
    have cancelled := cancels_counted reached
    obtain ⟨ended, same⟩ := inv.gathered outcome present
    have balance := inv.balance
    rw [inFlight_ended ended, ← raised, ← cancelled] at balance
    have returns_iff : outcome = .returned ↔ total raises trace = 0 := by
      rw [same, outcomeOf_returned_iff, errors_nil_iff, raised]
    constructor
    · rintro ⟨complete, _⟩
      by_cases failed : 1 ≤ total raises trace
      · exact .inr failed
      · have all := complete (returns_iff.mpr (by omega))
        have bounded := inv.bounded
        exact .inl (by omega)
    · intro allowed
      constructor
      · intro normal
        have notRaised := returns_iff.mp normal
        have notCancelled : total cancels trace = 0 := by omega
        rw [returned]
        exact (outcome_complete pool inv (cancelled ▸ notCancelled) (raised ▸ notRaised) present).2.2
      · rw [same, outcomeOf_error_iff, ne_eq, outcomeOf_returned_iff]
        exact id
  · intro running
    obtain ⟨a, _, enabled⟩ := live messages running
    obtain ⟨t, stepped⟩ := Option.isSome_iff_exists.mp enabled
    exact ⟨a, t, stepped⟩

/-- Three messages, two coroutines: one send is cancelled, another raises, and the
    call raises. -/
theorem publish_async_honest_failed :
    let trace := [Label.send 0, .send 1, .cancelled 0, .sent 1, .send 1, .failed 1 "closed", .gathered]
    let outcome := Outcome.runtimeError (failureText 1 "closed")
    (publishAsync 3 2).Reaches trace ⟨3, 1, [.cancelled, .raised "closed"], [], some outcome⟩ ∧
      Honest 3 trace outcome := by
  intro trace outcome
  have reached : (publishAsync 3 2).Reaches trace ⟨3, 1, [.cancelled, .raised "closed"], [], some outcome⟩ := rfl
  exact ⟨reached, ((publish_async_honest_iff 3 2 (by omega) trace _ reached).1 outcome rfl).mpr (.inr (by decide))⟩

/-- One message, whose send is cancelled: the call returns and reports it sent. -/
theorem publish_async_cancelled :
    let trace := [Label.send 0, .cancelled 0, .gathered]
    (publishAsync 1 1).Reaches trace ⟨1, 0, [.cancelled], [.enqueued 1 1], some .returned⟩ ∧
      total returns trace = 0 ∧ ¬ Honest 1 trace .returned := by
  refine ⟨rfl, rfl, ?_⟩
  rintro ⟨complete, _⟩
  exact absurd (complete rfl) (by decide)

end RepidBench.CancelledSends
