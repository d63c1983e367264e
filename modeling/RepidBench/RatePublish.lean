import Mathlib.Algebra.Order.Floor.Ring
import Mathlib.Data.List.Range
import Mathlib.Data.Rat.Floor
import Mathlib.Tactic.FieldSimp
import RepidBench.Pacing
import RepidBench.Publishing

/-!
Publishing at a given rate: `publish_sync_at_rate` and `publish_async_at_rate`, which
are the same loop around a call and around an awaited call. Each message has a
deadline, counted from the start, and the loop sleeps up to it. Time passes in the
sends and the sleeps.
-/
namespace RepidBench.RatePublish
open Pacing Publishing

/-- How long the send of a message takes, and how much the sleep after it oversleeps. -/
structure Timing where
  duration : Nat → ℚ
  overshoot : Nat → ℚ
  duration_nonneg : ∀ i, 0 ≤ duration i
  overshoot_nonneg : ∀ i, 0 ≤ overshoot i

/-- The instant, the instants at which sends have begun, and the lines printed. -/
structure State where
  clock : ℚ
  sends : List ℚ := []
  printed : List Printed := []
  deriving DecidableEq

/-- The body of the loop for the message `i`. -/
def iteration (messages : Nat) (interval start : ℚ) (timing : Timing) (s : State) (i : Nat) : State :=
  let sent := s.clock + timing.duration i
  let deadline := start + i * interval
  let delay := deadline - sent
  { clock := if 0 < delay then sent + (delay + timing.overshoot i) else sent
    sends := s.sends ++ [s.clock]
    printed := if i % 1000 = 0 then s.printed ++ [.enqueued i messages] else s.printed }

/-- The loop over the first `count` messages. -/
def loop (messages : Nat) (interval start : ℚ) (timing : Timing) (count : Nat) : State :=
  (List.range' 1 count).foldl (iteration messages interval start timing) { clock := start }

/-- The call, begun at `start`, or the text of its `ValueError`. -/
def publishAtRate (messages : Nat) (ratePerSecond : ℚ) (timing : Timing) (start : ℚ) : Except String State :=
  if ratePerSecond ≤ 0 then .error "arrival rate must be greater than 0"
  else
    let s := loop messages (1 / ratePerSecond) start timing messages
    .ok { s with printed := s.printed ++ [.enqueued messages messages] }

/-- `publish_sync_at_rate`. -/
def publishSyncAtRate (messages : Nat) (ratePerSecond : ℚ) (timing : Timing) (start : ℚ) : Except String State :=
  publishAtRate messages ratePerSecond timing start

/-- `publish_async_at_rate`. -/
def publishAsyncAtRate (messages : Nat) (ratePerSecond : ℚ) (timing : Timing) (start : ℚ) : Except String State :=
  publishAtRate messages ratePerSecond timing start

/-! ## The loop -/

section
variable (messages : Nat) (interval start : ℚ) (timing : Timing)

theorem loop_succ (count : Nat) : loop messages interval start timing (count + 1) =
    iteration messages interval start timing (loop messages interval start timing count) (count + 1) := by
  rw [loop, List.range'_1_concat, List.foldl_concat, Nat.add_comm 1 count]
  rfl

theorem iteration_clock (s : State) (i : Nat) :
    max (s.clock + timing.duration i) (start + i * interval) ≤ (iteration messages interval start timing s i).clock ∧
      (timing.overshoot i = 0 → (iteration messages interval start timing s i).clock =
        max (s.clock + timing.duration i) (start + i * interval)) := by
  have late := timing.overshoot_nonneg i
  simp only [iteration]
  by_cases early : 0 < start + i * interval - (s.clock + timing.duration i)
  · rw [if_pos early, max_eq_right (by linarith)]
    constructor
    · linarith
    · intro exact_
      linarith
  · rw [if_neg early, max_eq_left (by linarith)]
    exact ⟨le_rfl, fun _ => rfl⟩

theorem loop_paced : Paced start interval (fun i => timing.duration (i + 1))
    (fun i => (loop messages interval start timing i).clock) where
  begins := rfl
  waits := by
    intro i
    rw [loop_succ, nsmul_eq_mul]
    exact (iteration_clock messages interval start timing _ (i + 1)).1

theorem loop_prompt (exactSleeps : ∀ i, timing.overshoot i = 0) :
    Prompt start interval (fun i => timing.duration (i + 1))
      (fun i => (loop messages interval start timing i).clock) where
  begins := rfl
  next := by
    intro i
    rw [loop_succ, nsmul_eq_mul]
    exact (iteration_clock messages interval start timing _ (i + 1)).2 (exactSleeps (i + 1))

/-- A send begins where the iterations before it have ended. -/
theorem loop_sends (count : Nat) : (loop messages interval start timing count).sends =
    (List.range count).map (fun i => (loop messages interval start timing i).clock) := by
  induction count with
  | zero => rfl
  | succ count ih => rw [loop_succ, List.range_succ, List.map_append, ← ih]; rfl

end

/-- Of instants that are on time, few are within `t` of the start. -/
theorem started_within {clock : Nat → ℚ} {cost : Nat → ℚ} {start rate t : ℚ} (positive : 0 < rate) (later : 0 ≤ t)
    (paced : Paced start (1 / rate) cost clock) (count : Nat) :
    (((List.range count).map clock).countP (· ≤ start + t) : ℤ) ≤ 1 + ⌊t * rate⌋ := by
  have inside : ∀ i, clock i ≤ start + t → i ∈ Finset.range (⌊t * rate⌋.toNat + 1) := by
    intro i begun
    have onTime := paced.on_time i
    rw [nsmul_eq_mul, mul_one_div] at onTime
    have scaled : (i : ℚ) ≤ t * rate := (div_le_iff₀ positive).mp (by linarith)
    have whole : (i : ℤ) ≤ ⌊t * rate⌋ := Int.le_floor.mpr (by exact_mod_cast scaled)
    rw [Finset.mem_range]
    omega
  have few : ((List.range count).filter (fun i => clock i ≤ start + t)).length ≤ ⌊t * rate⌋.toNat + 1 := by
    rw [← List.toFinset_card_of_nodup (List.nodup_range.filter _), ← Finset.card_range (⌊t * rate⌋.toNat + 1)]
    apply Finset.card_le_card
    intro i member
    rw [List.mem_toFinset, List.mem_filter, decide_eq_true_eq] at member
    exact inside i member.2
  have nonneg : 0 ≤ ⌊t * rate⌋ := Int.floor_nonneg.mpr (mul_nonneg later positive.le)
  rw [List.countP_map, List.countP_eq_length_filter]
  have same : ((fun x => decide (x ≤ start + t)) ∘ clock) = fun i => decide (clock i ≤ start + t) := rfl
  rw [same]
  omega

/-- The clock after the sends of the first `i` messages and the sleeps that follow them. -/
def clockAfter (messages : Nat) (rate start : ℚ) (timing : Timing) (i : Nat) : ℚ :=
  (loop messages (1 / rate) start timing i).clock

/-- Whatever the sends take and however sleeps overshoot, every message is sent, none
    before its time, and few within any time from the start. With exact sleeps the
    call ends as early as it can, and its lag is what the recurrence gives. -/
theorem publish_at_rate_paced (messages : Nat) (rate : ℚ) (positive : 0 < rate) (timing : Timing) (start : ℚ) :
    ∀ publish ∈ [publishSyncAtRate, publishAsyncAtRate], ∃ s, publish messages rate timing start = .ok s ∧
      s.sends.length = messages ∧
      (∀ (i : Nat) (begun : ℚ), s.sends[i]? = some begun → start + i / rate ≤ begun) ∧
      (∀ t, 0 ≤ t → (s.sends.countP (fun begun => start ≤ begun ∧ begun ≤ start + t) : ℤ) ≤ 1 + ⌊t * rate⌋) ∧
      ((∀ i, timing.overshoot i = 0) →
        s.clock = (Finset.range (messages + 1)).sup' Finset.nonempty_range_add_one
          (fun j => start + j / rate + ∑ k ∈ Finset.Ico j messages, timing.duration (k + 1)) ∧
        s.clock = clockAfter messages rate start timing messages ∧
        ∀ i < messages, lag start (1 / rate) (clockAfter messages rate start timing) (i + 1) =
          max 0 (lag start (1 / rate) (clockAfter messages rate start timing) i + timing.duration (i + 1) - 1 / rate)) := by
  intro publish member
  have same : publish messages rate timing start = publishAtRate messages rate timing start := by
    simp only [List.mem_cons, List.not_mem_nil, or_false] at member
    rcases member with rfl | rfl <;> rfl
  have paced := loop_paced messages (1 / rate) start timing
  have sends := loop_sends messages (1 / rate) start timing messages
  refine ⟨_, same.trans (if_neg (not_le.mpr positive)), ?_, ?_, ?_, ?_⟩
  · show (loop messages (1 / rate) start timing messages).sends.length = messages
    rw [sends, List.length_map, List.length_range]
  · intro i begun found
    simp only [sends, List.getElem?_map, Option.map_eq_some_iff] at found
    obtain ⟨j, there, rfl⟩ := found
    have here : i = j := by
      obtain ⟨_, rfl⟩ := List.getElem?_eq_some_iff.mp there
      exact (List.getElem_range _).symm
    have onTime := paced.on_time i
    rw [nsmul_eq_mul, mul_one_div] at onTime
    exact here ▸ onTime
  · intro t later
    have few := started_within positive later paced messages
    rw [← sends] at few
    have fewer : (loop messages (1 / rate) start timing messages).sends.countP
        (fun begun => start ≤ begun ∧ begun ≤ start + t) ≤
        (loop messages (1 / rate) start timing messages).sends.countP (· ≤ start + t) := by
      apply List.countP_mono_left
      intro begun _ within
      simpa using (of_decide_eq_true within).2
    exact le_trans (by exact_mod_cast fewer) few
  · intro exactSleeps
    have prompt := loop_prompt messages (1 / rate) start timing exactSleeps
    refine ⟨?_, rfl, fun i _ => prompt.lag_succ i⟩
    have ends := prompt.clock_eq messages
    simp only [nsmul_eq_mul, mul_one_div] at ends
    exact ends

/-- The first send stalls for three seconds; oversleeping does not happen. -/
def stall : Timing where
  duration i := if i = 1 then 3 else 0
  overshoot _ := 0
  duration_nonneg i := by split_ifs <;> norm_num
  overshoot_nonneg _ := le_rfl

/-- Two messages at one a second: the second is sent late, at once after the stall. -/
theorem publish_at_rate_stalled : ∃ s, publishAsyncAtRate 2 1 stall 0 = .ok s ∧ s.sends.length = 2 ∧
    s.sends = [0, 3] := by
  obtain ⟨s, returned, length, _⟩ := publish_at_rate_paced 2 1 (by norm_num) stall 0 publishAsyncAtRate (by simp)
  refine ⟨s, returned, length, ?_⟩
  have executed : publishAsyncAtRate 2 1 stall 0 = .ok ⟨3, [0, 3], [.enqueued 2 2]⟩ := by decide +kernel
  rw [executed] at returned
  cases returned
  rfl

end RepidBench.RatePublish
