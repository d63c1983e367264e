import Mathlib.Algebra.BigOperators.Intervals
import Mathlib.Algebra.Order.Group.MinMax
import Mathlib.Data.Finset.Lattice.Fold
import Mathlib.Tactic.Abel

/-!
Work that is paced by absolute deadlines: each item costs some time, and the next
one waits for the deadline of the last if it is early. A stall delays later items
until the deadlines have caught up with it, and no item is ever early.
-/
namespace RepidBench.Pacing

universe u
variable {T : Type u} [AddCommGroup T] [LinearOrder T]

/-- The instants at which items begin: never before the last one is done, nor before
    its deadline. -/
structure Paced (start gap : T) (cost clock : Nat → T) : Prop where
  begins : clock 0 = start
  waits : ∀ i, max (clock i + cost i) (start + (i + 1) • gap) ≤ clock (i + 1)

/-- No item begins later than it must. -/
structure Prompt (start gap : T) (cost clock : Nat → T) : Prop where
  begins : clock 0 = start
  next : ∀ i, clock (i + 1) = max (clock i + cost i) (start + (i + 1) • gap)

/-- How far an item is behind its schedule. -/
def lag (start gap : T) (clock : Nat → T) (i : Nat) : T := clock i - (start + i • gap)

variable {start gap : T} {cost clock : Nat → T}

theorem Paced.on_time (paced : Paced start gap cost clock) (i : Nat) : start + i • gap ≤ clock i := by
  cases i with
  | zero => simp [paced.begins]
  | succ i => exact (le_max_right _ _).trans (paced.waits i)

variable [IsOrderedAddMonoid T]

/-- A lag grows by what an item costs beyond the gap, and is never negative. -/
theorem Prompt.lag_succ (prompt : Prompt start gap cost clock) (i : Nat) :
    lag start gap clock (i + 1) = max 0 (lag start gap clock i + cost i - gap) := by
  have late : clock i + cost i - (start + (i + 1) • gap) = lag start gap clock i + cost i - gap := by
    rw [lag, succ_nsmul]
    abel
  calc lag start gap clock (i + 1)
      = max (clock i + cost i - (start + (i + 1) • gap)) (start + (i + 1) • gap - (start + (i + 1) • gap)) := by
        rw [lag, prompt.next i, max_sub_sub_right]
    _ = max 0 (lag start gap clock i + cost i - gap) := by rw [late, sub_self, max_comm]

/-- The end of `n` items is that of the longest stretch of items from a deadline on. -/
theorem Prompt.clock_eq (prompt : Prompt start gap cost clock) (n : Nat) :
    clock n = (Finset.range (n + 1)).sup' Finset.nonempty_range_add_one
      (fun j => start + j • gap + ∑ k ∈ Finset.Ico j n, cost k) := by
  induction n with
  | zero => simp [prompt.begins]
  | succ n ih =>
    have longer (j : Nat) (le : j ≤ n) : start + j • gap + ∑ k ∈ Finset.Ico j (n + 1), cost k =
        start + j • gap + ∑ k ∈ Finset.Ico j n, cost k + cost n := by
      rw [Finset.sum_Ico_succ_top le, ← add_assoc]
    have last : start + (n + 1) • gap + ∑ k ∈ Finset.Ico (n + 1) (n + 1), cost k = start + (n + 1) • gap := by
      rw [Finset.Ico_self, Finset.sum_empty, add_zero]
    rw [prompt.next n]
    apply le_antisymm
    · apply max_le
      · obtain ⟨j, member, same⟩ := Finset.exists_mem_eq_sup' (Finset.nonempty_range_add_one (n := n))
          (fun j => start + j • gap + ∑ k ∈ Finset.Ico j n, cost k)
        have le : j ≤ n := Nat.lt_succ_iff.mp (Finset.mem_range.mp member)
        rw [ih, same, ← longer j le]
        exact Finset.le_sup' (fun j => start + j • gap + ∑ k ∈ Finset.Ico j (n + 1), cost k)
          (Finset.mem_range.mpr (by omega))
      · rw [← last]
        exact Finset.le_sup' (fun j => start + j • gap + ∑ k ∈ Finset.Ico j (n + 1), cost k)
          (Finset.self_mem_range_succ (n + 1))
    · apply Finset.sup'_le
      intro j member
      rcases Nat.lt_or_eq_of_le (Nat.lt_succ_iff.mp (Finset.mem_range.mp member)) with earlier | rfl
      · have le : j ≤ n := Nat.lt_succ_iff.mp earlier
        rw [longer j le, ih]
        apply le_max_of_le_left
        exact add_le_add_left (Finset.le_sup' (fun j => start + j • gap + ∑ k ∈ Finset.Ico j n, cost k)
          (Finset.mem_range.mpr earlier)) (cost n)
      · rw [last]
        exact le_max_right _ _

end RepidBench.Pacing
