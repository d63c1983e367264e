import Mathlib.Algebra.Order.Group.Defs
import Mathlib.Data.List.Chain
import Mathlib.Order.Monotone.Defs

/-!
Sampling a count that never falls. A poll reads the clock and then the count; when
the polls are dense, the first poll at or after an instant reads a count between
that of the instant and that of two gaps later.
-/
namespace RepidBench.Sampling

universe u

/-- One poll: what the clock showed, when the count was read, and the count. -/
structure Poll (T : Type u) where
  clock : T
  readAt : T
  count : Nat
  deriving DecidableEq

variable {T : Type u} [LinearOrder T]

/-- The first poll whose clock shows `instant` or later. -/
def firstAt (polls : List (Poll T)) (instant : T) : Option (Poll T) :=
  polls.find? (fun p => instant ≤ p.clock)

/-- Polls made one after another: each reads the count after the clock, and the
    clock after the count of the poll before. -/
structure InOrder (polls : List (Poll T)) : Prop where
  within : ∀ p ∈ polls, p.clock ≤ p.readAt
  between : polls.Pairwise (fun p q => p.readAt ≤ q.clock)

theorem firstAt_snoc_late {polls : List (Poll T)} {p : Poll T} {instant : T}
    (early : ∀ q ∈ polls, q.clock < instant) (late : instant ≤ p.clock) : firstAt (polls ++ [p]) instant = some p := by
  have none : polls.find? (fun q => decide (instant ≤ q.clock)) = none := by
    simpa using early
  simp [firstAt, List.find?_append, none, late]

theorem firstAt_snoc (polls : List (Poll T)) (p : Poll T) (instant : T) :
    firstAt (polls ++ [p]) instant = (firstAt polls instant).or (if instant ≤ p.clock then some p else none) := by
  by_cases late : instant ≤ p.clock <;> simp [firstAt, List.find?_append, late]

theorem firstAt_some {polls : List (Poll T)} {p : Poll T} {instant : T} (found : firstAt polls instant = some p) :
    p ∈ polls ∧ instant ≤ p.clock :=
  ⟨List.mem_of_find?_eq_some found, by simpa using List.find?_some found⟩

section
variable [AddCommGroup T] [IsOrderedAddMonoid T]

/-- The first poll is within `gap` of `start`, each poll within `gap` of the one
    before, and each count is read within `gap` of the clock. -/
structure Dense (start gap : T) (polls : List (Poll T)) : Prop where
  first : ∀ p ∈ polls.head?, p.clock ≤ start + gap
  next : polls.IsChain (fun p q => q.clock ≤ p.clock + gap)
  read : ∀ p ∈ polls, p.readAt ≤ p.clock + gap

variable {start gap : T} {polls : List (Poll T)}

/-- The first poll at or after an instant comes within a gap of it. -/
theorem Dense.firstAt_clock (dense : Dense start gap polls) {p : Poll T} {instant : T} (begun : start ≤ instant)
    (found : firstAt polls instant = some p) : p.clock ≤ instant + gap := by
  have first := dense.first
  have next := dense.next
  clear dense
  induction polls generalizing start with
  | nil => cases found
  | cons q rest ih =>
    by_cases late : instant ≤ q.clock
    · have same : q = p := by simpa [firstAt, late] using found
      subst same
      exact (first q rfl).trans (add_le_add_left begun gap)
    · refine @ih q.clock (not_le.mp late).le (by simpa [firstAt, late] using found) ?_ next.tail
      intro r member
      cases rest with
      | nil => cases member
      | cons s rest =>
        cases member
        exact (List.isChain_cons_cons.mp next).1

/-- What the first poll at or after an instant reads, of any count that never falls. -/
theorem Dense.firstAt_count (dense : Dense start gap polls) (ordered : InOrder polls) {count : T → Nat}
    (rising : Monotone count) (reads : ∀ p ∈ polls, p.count = count p.readAt) {p : Poll T} {instant : T}
    (begun : start ≤ instant) (found : firstAt polls instant = some p) :
    count instant ≤ p.count ∧ p.count ≤ count (instant + (gap + gap)) := by
  obtain ⟨member, late⟩ := firstAt_some found
  have soon := dense.firstAt_clock begun found
  have read := dense.read p member
  rw [reads p member]
  refine ⟨rising (late.trans (ordered.within p member)), rising ?_⟩
  rw [← add_assoc]
  exact read.trans (add_le_add_left soon gap)

end

end RepidBench.Sampling
