import RepidBench.Dictionaries
import RepidBench.Spacing

/-!
Where `plot_benchmarks.py` puts the labels of a chart: at the points of one sleep
time, in points on the page, and behind the ends of the series, in the units of the
data. Both go through the labels from the lowest value on and move up those that
would be too close to the one before.
-/
namespace RepidBench.ChartLabels
open Dictionaries Spacing

/-! ## Labels of points -/

/-- What `add_point_labels` takes from the axes: the limits of the values and the
    height on the page. It returns at once when there is no range of values. -/
structure Axes where
  ymin : ℚ
  ymax : ℚ
  heightPts : ℚ
  range : 0 < ymax - ymin

/-- The loop of `deconflict`, from the position after one at `previous` on. -/
def pushFrom (gapPts previous : ℚ) : List ℚ → List ℚ
  | [] => []
  | p :: rest =>
    let p := if p - previous < gapPts then previous + gapPts else p
    p :: pushFrom gapPts p rest

/-- The loop of `deconflict`, which leaves the first position as it is. -/
def pushApart (gapPts : ℚ) : List ℚ → List ℚ
  | [] => []
  | p :: rest => p :: pushFrom gapPts p rest

namespace Axes

/-- `to_disp`. -/
def toDisp (axes : Axes) (y : ℚ) : ℚ := (y - axes.ymin) / (axes.ymax - axes.ymin) * axes.heightPts

/-- Where a label is put before any is moved. -/
def natural (axes : Axes) (basePts : ℚ) (centered : Bool) (item : String × ℚ) : ℚ :=
  axes.toDisp item.2 + if centered then 0 else basePts

/-- `deconflict`: the offset of each label from its point. -/
def deconflict (axes : Axes) (items : List (String × ℚ)) (basePts gapPts : ℚ) (centered : Bool) :
    List (String × ℚ) :=
  let ordered := items.insertionSort (fun a b => a.2 ≤ b.2)
  let pos := pushApart gapPts (ordered.map (axes.natural basePts centered))
  assigned ((ordered.zip pos).map (fun (item, p) => (item.1, p - axes.toDisp item.2)))

/-- Where `annotate` puts the label of an item: at its point, and `offsets[key]` above it. -/
def labelPosition (axes : Axes) (offsets : List (String × ℚ)) (item : String × ℚ) : Option ℚ :=
  (offsets.lookup item.1).map (fun offset => axes.toDisp item.2 + offset)

end Axes

/-- The defaults of `deconflict`. -/
def defaultBasePts : ℚ := 13
def defaultGapPts : ℚ := 11

/-! ## Labels of series -/

/-- An entry of `end_labels`. -/
structure EndLabel where
  framework : String
  x : ℚ
  y : ℚ
  color : String
  deriving DecidableEq

/-- An entry of `adjusted`. -/
structure PlacedLabel extends EndLabel where
  labelY : ℚ
  deriving DecidableEq

/-- One round of the loop of `plot_series` over its sorted labels. -/
def adjust (gap : ℚ) (adjusted : List PlacedLabel) (label : EndLabel) : List PlacedLabel :=
  adjusted ++ [{ label with
    labelY := match adjusted.getLast? with
      | none => label.y
      | some last => max label.y (last.labelY + gap) }]

/-- `adjusted` of `plot_series`. -/
def adjustLabels (gap : ℚ) (endLabels : List EndLabel) : List PlacedLabel :=
  (endLabels.insertionSort (fun a b => a.y ≤ b.y)).foldl (adjust gap) []

/-! ## Both are the sweep -/

theorem pushFrom_eq (gapPts previous : ℚ) (pos : List ℚ) :
    pushFrom gapPts previous pos = sweepFrom gapPts previous pos := by
  induction pos generalizing previous with
  | nil => rfl
  | cons p rest ih =>
    have moved : (if p - previous < gapPts then previous + gapPts else p) = max p (previous + gapPts) := by
      by_cases close : p - previous < gapPts
      · rw [if_pos close, max_eq_right (by linarith)]
      · rw [if_neg close, max_eq_left (by linarith)]
    rw [pushFrom, sweepFrom, moved, ih]

theorem pushApart_eq (gapPts : ℚ) (pos : List ℚ) : pushApart gapPts pos = sweep gapPts pos := by
  cases pos with
  | nil => rfl
  | cons p rest => rw [pushApart, sweep, pushFrom_eq]

/-- The loop of `plot_series` after a label at `last`. -/
theorem foldl_adjust (gap : ℚ) (before : List PlacedLabel) (last : PlacedLabel) (labels : List EndLabel) :
    (labels.foldl (adjust gap) (before ++ [last])).map PlacedLabel.labelY =
      (before ++ [last]).map PlacedLabel.labelY ++ sweepFrom gap last.labelY (labels.map EndLabel.y) := by
  induction labels generalizing before last with
  | nil => simp [sweepFrom]
  | cons label rest ih =>
    rw [List.foldl_cons, adjust, List.getLast?_concat, ih]
    simp [sweepFrom]

theorem foldl_labels (gap : ℚ) (before : List PlacedLabel) (labels : List EndLabel) :
    (labels.foldl (adjust gap) before).map PlacedLabel.toEndLabel = before.map PlacedLabel.toEndLabel ++ labels := by
  induction labels generalizing before with
  | nil => simp
  | cons label rest ih => simp [ih, adjust]

theorem adjustLabels_eq (gap : ℚ) (endLabels : List EndLabel) :
    (adjustLabels gap endLabels).map PlacedLabel.toEndLabel = ordered EndLabel.y endLabels ∧
    (adjustLabels gap endLabels).map PlacedLabel.labelY = sweep gap ((ordered EndLabel.y endLabels).map EndLabel.y) := by
  refine ⟨foldl_labels gap [] _, ?_⟩
  rw [adjustLabels, ← ordered]
  cases ordered EndLabel.y endLabels with
  | nil => rfl
  | cons first rest => exact foldl_adjust gap [] ⟨first, first.y⟩ rest

/-! ## The labels of a chart -/

/-- The offsets of `deconflict` put the labels of a sleep time at the lowest placement. -/
theorem deconflict_least (axes : Axes) {items : List (String × ℚ)} (basePts : ℚ) {gapPts : ℚ} (centered : Bool)
    (distinct : (items.map Prod.fst).Nodup) (positive : 0 < gapPts) :
    ∃ place, (∀ item ∈ items,
        axes.labelPosition (axes.deconflict items basePts gapPts centered) item = some (place item)) ∧
      LeastPlacement gapPts Prod.snd (axes.natural basePts centered) items place := by
  obtain ⟨place, swept, least⟩ :=
    exists_leastPlacement Prod.snd (axes.natural basePts centered) (distinct.of_map _) positive
  refine ⟨place, ?_, least⟩
  have pairs : (ordered Prod.snd items).zip ((ordered Prod.snd items).map place) =
      (ordered Prod.snd items).map (fun item => (item, place item)) := by
    rw [List.zip_eq_zipWith, List.zipWith_map_right, List.zipWith_self]
  have offsets : axes.deconflict items basePts gapPts centered =
      assigned ((ordered Prod.snd items).map (fun item => (item.1, place item - axes.toDisp item.2))) := by
    rw [Axes.deconflict, pushApart_eq, ← ordered, ← swept, pairs, List.map_map]
    rfl
  have keys : (((ordered Prod.snd items).map (fun item => (item.1, place item - axes.toDisp item.2))).reverse.map
      Prod.fst).Nodup := by
    rw [List.map_reverse, List.map_map, List.nodup_reverse]
    exact (ordered_perm.map Prod.fst).nodup_iff.mpr distinct
  intro item member
  have entry : (item.1, place item - axes.toDisp item.2) ∈
      ((ordered Prod.snd items).map (fun item => (item.1, place item - axes.toDisp item.2))).reverse :=
    List.mem_reverse.mpr (List.mem_map_of_mem (mem_ordered.mpr member))
  rw [Axes.labelPosition, offsets, lookup_assigned, lookup_of_mem keys entry, Option.map_some, add_sub_cancel]

/-- `plot_series` puts the labels behind its series at the lowest placement. -/
theorem adjustLabels_least {endLabels : List EndLabel} {gap : ℚ} (distinct : (endLabels.map EndLabel.framework).Nodup)
    (positive : 0 < gap) :
    ∃ place, (adjustLabels gap endLabels).Perm (endLabels.map (fun label => ⟨label, place label⟩)) ∧
      LeastPlacement gap EndLabel.y EndLabel.y endLabels place := by
  obtain ⟨place, swept, least⟩ := exists_leastPlacement EndLabel.y EndLabel.y (distinct.of_map _) positive
  refine ⟨place, ?_, least⟩
  obtain ⟨labels, places⟩ := adjustLabels_eq gap endLabels
  have placed : ∀ label ∈ adjustLabels gap endLabels, label.labelY = place label.toEndLabel := by
    rw [← swept, ← labels, List.map_map] at places
    exact List.map_inj_left.mp places
  have whole : adjustLabels gap endLabels =
      (ordered EndLabel.y endLabels).map (fun label => (⟨label, place label⟩ : PlacedLabel)) := by
    rw [← labels, List.map_map]
    conv_lhs => rw [← List.map_id (adjustLabels gap endLabels)]
    refine List.map_congr_left (fun label member => ?_)
    rw [id, Function.comp_apply, ← placed label member]
  rw [whole]
  exact ordered_perm.map _

/-- Of all placements in the order of the values, with the gap between the labels and
    none below its own place, both computations give the lowest one that keeps labels
    of the same value as they are listed. -/
theorem chart_labels_least :
    (∀ (axes : Axes) (items : List (String × ℚ)) (basePts gapPts : ℚ) (centered : Bool),
      (items.map Prod.fst).Nodup → 0 < gapPts →
      ∃ place, (∀ item ∈ items,
          axes.labelPosition (axes.deconflict items basePts gapPts centered) item = some (place item)) ∧
        LeastPlacement gapPts Prod.snd (axes.natural basePts centered) items place) ∧
    ∀ (endLabels : List EndLabel) (gap : ℚ), (endLabels.map EndLabel.framework).Nodup → 0 < gap →
      ∃ place, (adjustLabels gap endLabels).Perm (endLabels.map (fun label => ⟨label, place label⟩)) ∧
        LeastPlacement gap EndLabel.y EndLabel.y endLabels place :=
  ⟨fun axes _ basePts _ centered distinct positive => deconflict_least axes basePts centered distinct positive,
    fun _ _ distinct positive => adjustLabels_least distinct positive⟩

/-- An axis of a hundred points for the values up to a hundred. -/
def hundred : Axes := ⟨0, 100, 100, by norm_num⟩

/-- Two labels of the same value. -/
def tied : List (String × ℚ) := [("celery", 50), ("dramatiq", 50)]

theorem chart_labels_least_tied :
    ∃ place, (∀ item ∈ tied,
        hundred.labelPosition (hundred.deconflict tied defaultBasePts defaultGapPts false) item = some (place item)) ∧
      LeastPlacement defaultGapPts Prod.snd (hundred.natural defaultBasePts false) tied place :=
  chart_labels_least.1 hundred tied defaultBasePts defaultGapPts false (by decide) (by norm_num [defaultGapPts])

/-- The other label could have been the lower one of the two: without a rule for
    labels of the same value there is no lowest placement. -/
theorem tied_labels_not_least :
    ¬ ∃ place : String × ℚ → ℚ, (∀ item ∈ tied,
        hundred.labelPosition (hundred.deconflict tied defaultBasePts defaultGapPts false) item = some (place item)) ∧
      ∀ other, Placement defaultGapPts Prod.snd (hundred.natural defaultBasePts false) tied other →
        ∀ item ∈ tied, place item ≤ other item := by
  rintro ⟨place, positions, least⟩
  have computed : hundred.labelPosition (hundred.deconflict tied defaultBasePts defaultGapPts false) ("dramatiq", 50) = some 74 := by
    decide +kernel
  have placed : place ("dramatiq", 50) = 74 :=
    Option.some.inj ((positions ("dramatiq", 50) (by simp [tied])).symm.trans computed)
  have swapped : Placement defaultGapPts Prod.snd (hundred.natural defaultBasePts false) tied
      (fun item => if item.1 = "dramatiq" then 63 else 74) := by
    refine ⟨?_, ?_, ?_⟩
    · decide +kernel
    · decide +kernel
    · decide +kernel
  have le := least _ swapped ("dramatiq", 50) (by simp [tied])
  rw [placed] at le
  norm_num at le

end RepidBench.ChartLabels
