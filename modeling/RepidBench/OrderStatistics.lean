import Mathlib.Data.List.Sort

/-!
Positions in a sorted list: how many of its entries are below the entry at a
position and how many are above it, whatever ties there are.
-/
namespace RepidBench.OrderStatistics

universe u
variable {α : Type u} [LinearOrder α] {values : List α} {i j : Nat}

theorem getElem_mono (sorted : values.Pairwise (· ≤ ·)) (le : i ≤ j) (inside : j < values.length) :
    values[i] ≤ values[j] := by
  rcases Nat.lt_or_eq_of_le le with lt | rfl
  · exact List.pairwise_iff_getElem.mp sorted i j (lt.trans inside) inside lt
  · exact le_rfl

/-- The entries below the one at `i` are among the first `i`. -/
theorem countP_lt_le (sorted : values.Pairwise (· ≤ ·)) (inside : i < values.length) :
    values.countP (· < values[i]) ≤ i := by
  have none : (values.drop i).countP (· < values[i]) = 0 := by
    apply List.countP_eq_zero.mpr
    intro value member
    obtain ⟨k, within, rfl⟩ := List.mem_iff_getElem.mp member
    rw [List.length_drop] at within
    have above : values[i] ≤ values[i + k] := getElem_mono sorted (Nat.le_add_right i k) (by omega)
    simpa using above
  have split : (values.take i).countP (· < values[i]) + (values.drop i).countP (· < values[i]) =
      values.countP (· < values[i]) := by
    rw [← List.countP_append, List.take_append_drop]
  have few : (values.take i).countP (· < values[i]) ≤ (values.take i).length := List.countP_le_length
  have length : (values.take i).length ≤ i := List.length_take_le i values
  omega

/-- The entries above the one at `i` are after it. -/
theorem countP_gt_le (sorted : values.Pairwise (· ≤ ·)) (inside : i < values.length) :
    values.countP (values[i] < ·) ≤ values.length - (i + 1) := by
  have none : (values.take (i + 1)).countP (values[i] < ·) = 0 := by
    apply List.countP_eq_zero.mpr
    intro value member
    obtain ⟨k, within, rfl⟩ := List.mem_iff_getElem.mp member
    rw [List.length_take] at within
    have below : values[k] ≤ values[i] := getElem_mono sorted (by omega) inside
    simpa using below
  have split : (values.take (i + 1)).countP (values[i] < ·) + (values.drop (i + 1)).countP (values[i] < ·) =
      values.countP (values[i] < ·) := by
    rw [← List.countP_append, List.take_append_drop]
  have few : (values.drop (i + 1)).countP (values[i] < ·) ≤ (values.drop (i + 1)).length := List.countP_le_length
  have length : (values.drop (i + 1)).length = values.length - (i + 1) := List.length_drop
  omega

end RepidBench.OrderStatistics
