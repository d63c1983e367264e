import Mathlib.Algebra.Order.Group.Abs
import Mathlib.Data.List.Forall2
import Mathlib.Data.List.GetD
import Mathlib.Data.List.Pairwise
import Mathlib.Data.List.Sort

/-!
Placing items on a line, in an order that their values give, with a gap between each
two of them, and none below a place of its own. One sweep that moves an item up only
where it is too close to the last one gives the lowest such placement.
-/
namespace RepidBench.Spacing

universe u v w

/-! ## One sweep -/

section
variable {α : Type u} [AddCommGroup α] [LinearOrder α]

/-- The places after one at `previous`. -/
def sweepFrom (gap previous : α) : List α → List α
  | [] => []
  | natural :: rest => max natural (previous + gap) :: sweepFrom gap (max natural (previous + gap)) rest

/-- The first item has its own place. -/
def sweep (gap : α) : List α → List α
  | [] => []
  | natural :: rest => natural :: sweepFrom gap natural rest

variable {gap previous : α} {naturals : List α}

theorem sweepFrom_length : (sweepFrom gap previous naturals).length = naturals.length := by
  induction naturals generalizing previous with
  | nil => rfl
  | cons natural rest ih => simp [sweepFrom, ih]

theorem sweep_length : (sweep gap naturals).length = naturals.length := by
  cases naturals with
  | nil => rfl
  | cons natural rest => simp [sweep, sweepFrom_length]

theorem sweepFrom_above : List.Forall₂ (· ≤ ·) naturals (sweepFrom gap previous naturals) := by
  induction naturals generalizing previous with
  | nil => exact .nil
  | cons natural rest ih => exact .cons (le_max_left _ _) ih

/-- No item is below its own place. -/
theorem sweep_above : List.Forall₂ (· ≤ ·) naturals (sweep gap naturals) := by
  cases naturals with
  | nil => exact .nil
  | cons natural rest => exact .cons le_rfl sweepFrom_above

/-- What keeps its distances from `previous` on is nowhere below the sweep. -/
theorem sweepFrom_least {others : List α} (above : List.Forall₂ (· ≤ ·) naturals others)
    {last : α} (le : previous ≤ last) (after : (last :: others).IsChain (fun a b => a + gap ≤ b))
    [IsOrderedAddMonoid α] : List.Forall₂ (· ≤ ·) (sweepFrom gap previous naturals) others := by
  induction above generalizing previous last with
  | nil => exact .nil
  | cons natural_le _ ih =>
    obtain ⟨apart, later⟩ := List.isChain_cons_cons.mp after
    have placed := max_le natural_le ((add_le_add_left le gap).trans apart)
    exact .cons placed (ih placed later)

theorem sweepFrom_spaced : (previous :: sweepFrom gap previous naturals).IsChain (fun a b => a + gap ≤ b) := by
  induction naturals generalizing previous with
  | nil => exact .singleton previous
  | cons natural rest ih => exact .cons_cons (le_max_right _ _) ih

variable [IsOrderedAddMonoid α]

theorem sweep_least {others : List α} (above : List.Forall₂ (· ≤ ·) naturals others)
    (spaced : others.IsChain (fun a b => a + gap ≤ b)) : List.Forall₂ (· ≤ ·) (sweep gap naturals) others := by
  cases above with
  | nil => exact .nil
  | cons natural_le rest => exact .cons natural_le (sweepFrom_least rest natural_le spaced)

/-- Each two items are a gap apart, not only those next to each other. -/
theorem sweep_spaced (nonneg : 0 ≤ gap) : (sweep gap naturals).Pairwise (fun a b => a + gap ≤ b) := by
  have : IsTrans α (fun a b => a + gap ≤ b) :=
    ⟨fun a b c first second => (first.trans (le_add_of_nonneg_right nonneg)).trans second⟩
  cases naturals with
  | nil => exact .nil
  | cons natural rest => exact sweepFrom_spaced.pairwise

end

/-! ## Placements -/

section
variable {ι : Type u} {α : Type v} {β : Type w} [LinearOrder β] (value : ι → β)

/-- The items in the order of their values, those of one value as they are listed. -/
def ordered (items : List ι) : List ι := items.insertionSort (fun a b => value a ≤ value b)

variable {value} {items : List ι}

theorem ordered_perm : (ordered value items).Perm items := List.perm_insertionSort _ _

theorem mem_ordered {a : ι} : a ∈ ordered value items ↔ a ∈ items := ordered_perm.mem_iff

theorem orderedInsert_pairwise {R : ι → ι → Prop} {a : ι} (before : ∀ b ∈ items, R a b)
    (pairs : items.Pairwise (fun a b => value a ≤ value b ∧ (value a = value b → R a b))) :
    (items.orderedInsert (fun a b => value a ≤ value b) a).Pairwise
      (fun a b => value a ≤ value b ∧ (value a = value b → R a b)) := by
  induction items with
  | nil => exact List.pairwise_singleton _ a
  | cons b rest ih =>
    obtain ⟨first, later⟩ := List.pairwise_cons.mp pairs
    by_cases le : value a ≤ value b
    · rw [List.orderedInsert_cons_of_le _ rest le]
      refine List.pairwise_cons.mpr ⟨fun c member => ⟨?_, fun _ => before c member⟩, pairs⟩
      rcases List.mem_cons.mp member with rfl | inside
      · exact le
      · exact le.trans (first c inside).1
    · rw [List.orderedInsert_of_not_le _ rest le]
      refine List.pairwise_cons.mpr
        ⟨fun c member => ?_, ih (fun c inside => before c (List.mem_cons_of_mem b inside)) later⟩
      rcases (List.mem_orderedInsert _).mp member with rfl | inside
      · exact ⟨(not_le.mp le).le, fun same => absurd same.ge le⟩
      · exact first c inside

/-- What the list says of two items holds in the new order where their values are
    the same. -/
theorem ordered_pairwise {R : ι → ι → Prop} (pairs : items.Pairwise R) :
    (ordered value items).Pairwise (fun a b => value a ≤ value b ∧ (value a = value b → R a b)) := by
  unfold ordered
  induction items with
  | nil => exact .nil
  | cons a rest ih =>
    obtain ⟨first, later⟩ := List.pairwise_cons.mp pairs
    rw [List.insertionSort_cons]
    exact orderedInsert_pairwise (fun b member => first b ((List.mem_insertionSort _).mp member)) (ih later)

theorem ordered_sorted : (ordered value items).Pairwise (fun a b => value a ≤ value b) := by
  have pairs : items.Pairwise (fun _ _ => True) := List.pairwise_of_forall (fun _ _ => trivial)
  exact (ordered_pairwise pairs).imp And.left

variable [AddCommGroup α] [LinearOrder α]

/-- Places in the order of the values, each two of them a gap apart, and none below
    its own. -/
structure Placement (gap : α) (value : ι → β) (natural : ι → α) (items : List ι) (place : ι → α) : Prop where
  order : ∀ a ∈ items, ∀ b ∈ items, value a < value b → place a < place b
  apart : ∀ a ∈ items, ∀ b ∈ items, a ≠ b → gap ≤ |place a - place b|
  above : ∀ a ∈ items, natural a ≤ place a

/-- Items of the same value are placed as they are listed. -/
def TiesInOrder (value : ι → β) (items : List ι) (place : ι → α) : Prop :=
  items.Pairwise (fun a b => value a = value b → place a < place b)

/-- The lowest placement among those that keep the order of equal values. -/
structure LeastPlacement (gap : α) (value : ι → β) (natural : ι → α) (items : List ι) (place : ι → α) : Prop
    extends Placement gap value natural items place where
  ties : TiesInOrder value items place
  least : ∀ other, Placement gap value natural items other → TiesInOrder value items other →
    ∀ a ∈ items, place a ≤ other a

variable [IsOrderedAddMonoid α] {gap : α} {natural place : ι → α}

/-- Placements that keep the order of equal values are those with the gap between
    the items as they are ordered. -/
theorem placement_iff (distinct : items.Nodup) (positive : 0 < gap) :
    Placement gap value natural items place ∧ TiesInOrder value items place ↔
      (∀ a ∈ items, natural a ≤ place a) ∧
        (ordered value items).Pairwise (fun a b => place a + gap ≤ place b) := by
  constructor
  · rintro ⟨placement, ties⟩
    refine ⟨placement.above, ?_⟩
    have different : (ordered value items).Pairwise (· ≠ ·) := ordered_perm.nodup_iff.mpr distinct
    refine ((ordered_pairwise ties).and different).imp_of_mem ?_
    rintro a b first second ⟨⟨le, tie⟩, ne⟩
    have first := mem_ordered.mp first
    have second := mem_ordered.mp second
    have lt : place a < place b := by
      rcases le.lt_or_eq with below | same
      · exact placement.order a first b second below
      · exact tie same same
    have far := placement.apart a first b second ne
    rw [abs_sub_comm, abs_of_pos (sub_pos.mpr lt)] at far
    exact add_comm gap (place a) ▸ le_sub_iff_add_le.mp far
  · rintro ⟨above, spaced⟩
    have lower (a b : ι) (apart : place a + gap ≤ place b) : place a < place b :=
      (lt_add_of_pos_right _ positive).trans_le apart
    have either : ∀ a ∈ items, ∀ b ∈ items, a ≠ b →
        value a ≤ value b ∧ place a + gap ≤ place b ∨ value b ≤ value a ∧ place b + gap ≤ place a := by
      have symmetric : Std.Symm (fun a b : ι => value a ≤ value b ∧ place a + gap ≤ place b ∨
          value b ≤ value a ∧ place b + gap ≤ place a) := ⟨fun _ _ => Or.symm⟩
      have pairs : (ordered value items).Pairwise (fun a b => value a ≤ value b ∧ place a + gap ≤ place b ∨
          value b ≤ value a ∧ place b + gap ≤ place a) := (ordered_sorted.and spaced).imp Or.inl
      intro a first b second
      exact pairs.forall (mem_ordered.mpr first) (mem_ordered.mpr second)
    refine ⟨⟨?_, ?_, above⟩, ?_⟩
    · intro a first b second below
      rcases either a first b second (fun same => below.ne (congrArg value same)) with ⟨-, apart⟩ | ⟨le, -⟩
      · exact lower a b apart
      · exact absurd below (not_lt.mpr le)
    · intro a first b second ne
      rcases either a first b second ne with ⟨-, apart⟩ | ⟨-, apart⟩
      · rw [abs_sub_comm]
        exact (le_sub_iff_add_le'.mpr apart).trans (le_abs_self _)
      · exact (le_sub_iff_add_le'.mpr apart).trans (le_abs_self _)
    · refine List.pairwise_of_forall_sublist ?_
      intro a b listed same
      exact lower a b (spaced.forall_sublist (List.pair_sublist_insertionSort same.le listed))

/-- The sweep over the items as they are ordered gives the lowest placement. -/
theorem leastPlacement_of_sweep (distinct : items.Nodup) (positive : 0 < gap)
    (swept : (ordered value items).map place = sweep gap ((ordered value items).map natural)) :
    LeastPlacement gap value natural items place := by
  have above : ∀ a ∈ items, natural a ≤ place a := by
    have pairs : List.Forall₂ (· ≤ ·) ((ordered value items).map natural)
        (sweep gap ((ordered value items).map natural)) := sweep_above
    rw [← swept, List.forall₂_map_left_iff, List.forall₂_map_right_iff, List.forall₂_same] at pairs
    exact fun a member => pairs a (mem_ordered.mpr member)
  have spaced : (ordered value items).Pairwise (fun a b => place a + gap ≤ place b) := by
    have pairs : (sweep gap ((ordered value items).map natural)).Pairwise (fun a b => a + gap ≤ b) :=
      sweep_spaced positive.le
    rwa [← swept, List.pairwise_map] at pairs
  obtain ⟨placement, ties⟩ := (placement_iff distinct positive).mpr ⟨above, spaced⟩
  refine ⟨placement, ties, ?_⟩
  intro other placement' ties' a member
  obtain ⟨above', spaced'⟩ := (placement_iff distinct positive).mp ⟨placement', ties'⟩
  have others : List.Forall₂ (· ≤ ·) ((ordered value items).map natural) ((ordered value items).map other) := by
    rw [List.forall₂_map_left_iff, List.forall₂_map_right_iff, List.forall₂_same]
    exact fun b inside => above' b (mem_ordered.mp inside)
  have least := sweep_least others (List.pairwise_map.mpr spaced').isChain
  rw [← swept, List.forall₂_map_left_iff, List.forall₂_map_right_iff, List.forall₂_same] at least
  exact least a (mem_ordered.mpr member)

/-- There is a lowest placement, and it is the sweep. -/
theorem exists_leastPlacement (value : ι → β) (natural : ι → α) (distinct : items.Nodup) (positive : 0 < gap) :
    ∃ place, (ordered value items).map place = sweep gap ((ordered value items).map natural) ∧
      LeastPlacement gap value natural items place := by
  classical
  have length : (ordered value items).length = (sweep gap ((ordered value items).map natural)).length := by
    rw [sweep_length, List.length_map]
  have swept : (ordered value items).map (fun a => (sweep gap ((ordered value items).map natural)).getD
      ((ordered value items).idxOf a) 0) = sweep gap ((ordered value items).map natural) := by
    refine List.ext_getElem (by rw [List.length_map, length]) ?_
    intro i inside inside'
    rw [List.getElem_map, (ordered_perm.nodup_iff.mpr distinct).idxOf_getElem, List.getD_eq_getElem _ _ inside']
  exact ⟨_, swept, leastPlacement_of_sweep distinct positive swept⟩

end

/-! ## Even places -/

section
variable {ι : Type u} {α : Type v} {β : Type w} [LinearOrder β] [AddCommGroup α]

/-- The items in the order of their values, from `start` on a gap apart. -/
def evenly (gap start : α) (value : ι → β) (items : List ι) : List (ι × α) :=
  (ordered value items).zipIdx.map (fun entry => (entry.1, start + entry.2 • gap))

variable {gap start : α} {value : ι → β} {items : List ι}

theorem evenly_items : ((evenly gap start value items).map Prod.fst).Perm items := by
  have fsts : (evenly gap start value items).map Prod.fst = ordered value items := by
    rw [evenly, List.map_map]
    exact List.zipIdx_map_fst 0 _
  exact fsts ▸ ordered_perm

theorem evenly_places :
    (evenly gap start value items).map Prod.snd = (List.range items.length).map (fun i => start + i • gap) := by
  have snds : (ordered value items).zipIdx.map Prod.snd = List.range items.length := by
    rw [List.zipIdx_map_snd, ordered_perm.length_eq, List.range_eq_range']
  rw [evenly, ← snds, List.map_map, List.map_map]
  rfl

variable [LinearOrder α] [IsOrderedAddMonoid α]

/-- A smaller value is put below, and each two items are a gap apart. -/
theorem evenly_spaced (nonneg : 0 ≤ gap) {a b : ι × α} (first : a ∈ evenly gap start value items)
    (second : b ∈ evenly gap start value items) :
    (value a.1 < value b.1 → a.2 + gap ≤ b.2) ∧ (a.1 ≠ b.1 → gap ≤ |a.2 - b.2|) := by
  obtain ⟨⟨one, i⟩, atI, rfl⟩ := List.mem_map.mp first
  obtain ⟨⟨other, j⟩, atJ, rfl⟩ := List.mem_map.mp second
  have atI := List.mk_mem_zipIdx_iff_getElem?.mp atI
  have atJ := List.mk_mem_zipIdx_iff_getElem?.mp atJ
  have above : ∀ {i j : ℕ}, i < j → start + i • gap + gap ≤ start + j • gap := by
    intro i j less
    rw [add_assoc, ← succ_nsmul]
    exact add_le_add_right (nsmul_le_nsmul_left nonneg less) start
  constructor
  · intro less
    refine above ?_
    by_contra notLess
    obtain ⟨low, one_at⟩ := List.getElem?_eq_some_iff.mp atI
    obtain ⟨high, other_at⟩ := List.getElem?_eq_some_iff.mp atJ
    have sorted : (ordered value items).Pairwise (fun a b => value a ≤ value b) := ordered_sorted
    have le := sorted.rel_get_of_le (a := ⟨j, high⟩) (b := ⟨i, low⟩) (not_lt.mp notLess)
    simp only [List.get_eq_getElem, one_at, other_at] at le
    exact absurd less (not_lt.mpr le)
  · intro apart
    rcases Nat.lt_trichotomy i j with less | rfl | more
    · rw [abs_sub_comm]
      exact (le_sub_iff_add_le'.mpr (above less)).trans (le_abs_self _)
    · exact absurd (Option.some.inj (atI.symm.trans atJ)) apart
    · exact (le_sub_iff_add_le'.mpr (above more)).trans (le_abs_self _)

end

end RepidBench.Spacing
