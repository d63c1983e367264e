import RepidBench.ChartAxes
import RepidBench.CompactNumbers

/-!
`add_base_summary_legend` of `plot_benchmarks.py`: a label for each framework of the
chart of base and one for the theoretical maximum, in the order of their peaks and
evenly around the middle of the axes.
-/
namespace RepidBench.BaseLegend
open ChartAxes ChartData ChartLabels ChartLoaders CompactNumbers Dictionaries Sessions Spacing

/-! ## The entries -/

/-- An entry of `final_items`. -/
structure FinalItem where
  framework : String
  termX : ℚ
  termY : ℚ
  peak : ℚ
  deriving DecidableEq

/-- `peak_y`: the value at the shortest sleep time of the chart, or at the end of the line. -/
def peakY (minSleep : ℚ) (points : List (ℚ × ℚ)) : Option ℚ :=
  match points.lookup minSleep with
  | some y => some y
  | none => points.getLast?.map Prod.snd

/-- An item of a framework; `none` is the `IndexError` for a line without points. -/
def finalItem (minSleep : ℚ) (line : String × List (ℚ × ℚ)) : Option FinalItem := do
  let terminus ← line.2.getLast?
  let peak ← peakY minSleep line.2
  return ⟨line.1, terminus.1, terminus.2, peak⟩

/-- `final_items`. -/
def finalItems (minSleep lastX : ℚ) (lines : Lines) : Option (List FinalItem) := do
  let items ← lines.mapM (finalItem minSleep)
  return items ++ [⟨theoreticalKey, lastX, ← theoreticalMax lastX, ← theoreticalMax minSleep⟩]

def labelGapPts : ℚ := 16

/-- `label_y`, where the labels are put in the units of the values. -/
def labelY (axes : Axes) (items : List FinalItem) : List (String × ℚ) :=
  let ordered := items.insertionSort (fun a b => a.peak ≤ b.peak)
  let totalPts := labelGapPts * (ordered.length - 1 : ℚ)
  let startPts := axes.heightPts / 2 - totalPts / 2
  assigned (ordered.zipIdx.map (fun entry => (entry.1.framework,
    axes.ymin + (startPts + entry.2 * labelGapPts) / axes.heightPts * (axes.ymax - axes.ymin))))

/-- `FRAMEWORK_DISPLAY`. -/
def frameworkDisplay (framework : String) : String :=
  ([("celery_nogt", "celery no-GT"), ("dramatiq_nogt", "dramatiq no-GT")].lookup framework).getD framework

/-- The text of a label. -/
def legendText (celeryPeak : Option ℚ) (item : FinalItem) : String :=
  let display := frameworkDisplay item.framework
  let peak := fmtCompact item.peak
  if item.framework = theoreticalKey then "  theoretical max   " ++ peak ++ "/s"
  else if item.framework = "celery" then "  " ++ display ++ "   " ++ peak ++ "/s  -  baseline"
  else
    let celery := celeryPeak.getD 0
    if celery ≠ 0 then
      let ratio := item.peak / celery
      "  " ++ display ++ "   " ++ peak ++ "/s  -  " ++
        (if ratio < 10 then Decimal.fixed 1 ratio else Decimal.fixed 0 ratio) ++ "x vs celery"
    else "  " ++ display ++ "   " ++ peak ++ "/s"

/-- A label of the legend, with the lines to it: from a line that ends before the last
    sleep time, and from a value that is at another height. -/
structure LegendLabel where
  item : FinalItem
  dispY : ℚ
  text : String
  continued : Bool
  joined : Bool

/-- `add_base_summary_legend`, for axes with a range of values. -/
def legendLabels (axes : Axes) (minSleep lastX : ℚ) (lines : Lines) : Option (List LegendLabel) := do
  let items ← finalItems minSleep lastX lines
  let gapData := 11 / axes.heightPts * (axes.ymax - axes.ymin)
  let celeryPeak := (lines.lookup "celery").bind (peakY minSleep)
  items.mapM (fun item => ((labelY axes items).lookup item.framework).map (fun dispY =>
    ⟨item, dispY, legendText celeryPeak item, item.termX < lastX, gapData * 0.1 < |dispY - item.termY|⟩))

/-- `add_base_summary_legend`. -/
def addBaseSummaryLegend (limits : ℚ × ℚ) (heightPts : ℚ) (lines : Lines) (times : List ℚ) : Option (List LegendLabel) :=
  if range : 0 < limits.2 - limits.1 then
    match times.min?, times.max? with
    | some minSleep, some lastX => legendLabels ⟨limits.1, limits.2, heightPts, range⟩ minSleep lastX lines
    | _, _ => some []
  else some []

/-- `plot_throughput_category`: the chart, and its legend if it has one of this kind. -/
def plotThroughputCategory (category : String) (data : Series) : Option (Chart × List LegendLabel) :=
  if category = "base" then do
    let chart ← plotBase data
    let legend ← addBaseSummaryLegend chart.limits (axesHeight 8) chart.lines (sleepTimes chart.lines)
    return (chart, legend)
  else (plotCategory data).map (fun chart => (chart, []))

/-! ## Evenly in the order of the peaks -/

/-- The first of some labels around the middle. -/
def startPts (axes : Axes) (labels : ℕ) : ℚ := axes.heightPts / 2 - labelGapPts * (labels - 1 : ℚ) / 2

/-- The labels of a legend: where they are on the page. -/
structure Placed (axes : Axes) (labels : List LegendLabel) : Prop where
  order : ∀ a ∈ labels, ∀ b ∈ labels, a.item.peak < b.item.peak → axes.toDisp a.dispY + labelGapPts ≤ axes.toDisp b.dispY
  apart : ∀ a ∈ labels, ∀ b ∈ labels, a.item ≠ b.item → labelGapPts ≤ |axes.toDisp a.dispY - axes.toDisp b.dispY|
  places : (labels.map (fun label => axes.toDisp label.dispY)).Perm
    ((List.range labels.length).map (fun (i : ℕ) => startPts axes labels.length + i * labelGapPts))

theorem labelY_evenly {axes : Axes} (height : 0 < axes.heightPts) {items : List FinalItem}
    (distinct : (items.map FinalItem.framework).Nodup) :
    ∃ dispY : FinalItem → ℚ, (∀ item ∈ items, (labelY axes items).lookup item.framework = some (dispY item)) ∧
      (items.map (fun item => (item, axes.toDisp (dispY item)))).Perm
        (evenly labelGapPts (startPts axes items.length) FinalItem.peak items) := by
  let yOf (p : ℚ) : ℚ := axes.ymin + p / axes.heightPts * (axes.ymax - axes.ymin)
  have back : ∀ p, axes.toDisp (yOf p) = p := by
    intro p
    have range := axes.range.ne'
    simp only [yOf, Axes.toDisp, add_sub_cancel_left, mul_div_cancel_right₀ _ range, div_mul_cancel₀ _ height.ne']
  let placed := evenly labelGapPts (startPts axes items.length) FinalItem.peak items
  have entries : labelY axes items = assigned (placed.map (fun entry => (entry.1.framework, yOf entry.2))) := by
    simp only [labelY, placed, evenly, ordered, List.map_map, startPts, List.length_insertionSort, nsmul_eq_mul, yOf]
    rfl
  have items_perm : (placed.map Prod.fst).Perm items := evenly_items
  have keys : ((placed.map (fun entry => (entry.1.framework, yOf entry.2))).map Prod.fst).Nodup := by
    have own : (placed.map (fun entry => (entry.1.framework, yOf entry.2))).map Prod.fst =
        (placed.map Prod.fst).map FinalItem.framework := by simp only [List.map_map, Function.comp_def]
    rw [own]
    exact (items_perm.map FinalItem.framework).nodup_iff.mpr distinct
  have once : (placed.map Prod.fst).Nodup := items_perm.nodup_iff.mpr distinct.of_map
  have self : (placed.map Prod.fst).map (fun item => (item, (placed.lookup item).getD 0)) = placed := by
    rw [List.map_map]
    refine (List.map_congr_left (fun entry member => ?_)).trans (List.map_id placed)
    rw [Function.comp_apply, lookup_of_mem once member, Option.getD_some, id]
  refine ⟨fun item => yOf ((placed.lookup item).getD 0), fun item member => ?_, ?_⟩
  · obtain ⟨entry, inside, rfl⟩ := List.mem_map.mp (items_perm.mem_iff.mpr member)
    have value : (placed.lookup entry.1).getD 0 = entry.2 := by rw [lookup_of_mem once inside, Option.getD_some]
    rw [entries, assigned_of_nodup keys]
    simp only [value]
    exact lookup_of_mem keys (List.mem_map.mpr ⟨entry, inside, rfl⟩)
  · simp only [back]
    exact (items_perm.symm.map _).trans (List.Perm.of_eq self)

/-- The labels of any items that do not share a name: in their order, and placed. -/
theorem legendLabels_placed {axes : Axes} (height : 0 < axes.heightPts) {minSleep lastX : ℚ} {lines : Lines}
    {items : List FinalItem} (computed : finalItems minSleep lastX lines = some items)
    (distinct : (items.map FinalItem.framework).Nodup) :
    ∃ labels, legendLabels axes minSleep lastX lines = some labels ∧ labels.map LegendLabel.item = items ∧
      Placed axes labels := by
  obtain ⟨dispY, found, placed⟩ := labelY_evenly height distinct
  let labelOf (item : FinalItem) : LegendLabel :=
    ⟨item, dispY item, legendText ((lines.lookup "celery").bind (peakY minSleep)) item, item.termX < lastX,
      11 / axes.heightPts * (axes.ymax - axes.ymin) * 0.1 < |dispY item - item.termY|⟩
  have spaced : ∀ a ∈ items, ∀ b ∈ items,
      (a.peak < b.peak → axes.toDisp (dispY a) + labelGapPts ≤ axes.toDisp (dispY b)) ∧
        (a ≠ b → labelGapPts ≤ |axes.toDisp (dispY a) - axes.toDisp (dispY b)|) := by
    intro a first b second
    have inA := placed.mem_iff.mp (List.mem_map_of_mem first)
    have inB := placed.mem_iff.mp (List.mem_map_of_mem second)
    exact evenly_spaced (by norm_num [labelGapPts]) inA inB
  refine ⟨items.map labelOf, ?_, ?_, ?_, ?_, ?_⟩
  · simp only [legendLabels, computed, Option.bind_eq_bind, Option.bind_some]
    refine mapM_eq_map (fun item member => ?_)
    rw [found item member, Option.map_some]
  · rw [List.map_map]
    exact List.map_id items
  · intro a first b second less
    obtain ⟨item, inItems, rfl⟩ := List.mem_map.mp first
    obtain ⟨other, inItems', rfl⟩ := List.mem_map.mp second
    exact (spaced item inItems other inItems').1 less
  · intro a first b second apart
    obtain ⟨item, inItems, rfl⟩ := List.mem_map.mp first
    obtain ⟨other, inItems', rfl⟩ := List.mem_map.mp second
    exact (spaced item inItems other inItems').2 apart
  · have heights := placed.map Prod.snd
    rw [List.map_map, evenly_places] at heights
    rw [List.map_map, List.length_map]
    simp only [nsmul_eq_mul] at heights
    exact heights

/-- The items of some lines. -/
theorem finalItems_eq {lines : Lines} (drawn : Drawn lines) {minSleep lastX : ℚ} (first : minSleep ≠ 0) (last : lastX ≠ 0) :
    ∃ items, finalItems minSleep lastX lines = some items ∧
      items.map FinalItem.framework = lines.map Prod.fst ++ [theoreticalKey] := by
  have each : ∀ line ∈ lines, ∃ item, finalItem minSleep line = some item := by
    intro line member
    have final := List.getLast?_eq_some_getLast (drawn.filled line member)
    cases found : line.2.lookup minSleep with
    | none => exact ⟨_, by rw [finalItem, peakY, final, found]; rfl⟩
    | some y => exact ⟨_, by rw [finalItem, peakY, final, found]; rfl⟩
  have computed : lines.mapM (finalItem minSleep) =
      some (lines.map (fun line => (finalItem minSleep line).getD ⟨"", 0, 0, 0⟩)) := by
    refine mapM_eq_map (fun line member => ?_)
    obtain ⟨item, found⟩ := each line member
    rw [found, Option.getD_some]
  refine ⟨_, by rw [finalItems, computed, theoreticalMax, theoreticalMax, if_neg first, if_neg last]; rfl, ?_⟩
  rw [List.map_append, map_of_mapM computed (fun line item found => ?_)]
  · rfl
  · obtain ⟨terminus, -, rest⟩ := Option.bind_eq_some_iff.mp found
    obtain ⟨peak, -, own⟩ := Option.bind_eq_some_iff.mp rest
    cases own
    rfl

/-! ## The legend of base -/

theorem axesHeight_base : axesHeight 8 = 397.44 := by norm_num [axesHeight]

/-- The labels around the middle of axes that have room for them are inside. -/
theorem Placed.inside {axes : Axes} {labels : List LegendLabel} (placed : Placed axes labels)
    (room : labelGapPts * (labels.length - 1 : ℚ) < axes.heightPts) {label : LegendLabel} (member : label ∈ labels) :
    0 < axes.toDisp label.dispY ∧ axes.toDisp label.dispY < axes.heightPts := by
  have there : axes.toDisp label.dispY ∈ labels.map (fun label => axes.toDisp label.dispY) := List.mem_map_of_mem member
  obtain ⟨i, inRange, same⟩ := List.mem_map.mp (placed.places.mem_iff.mp there)
  have less : (i : ℚ) + 1 ≤ labels.length := by exact_mod_cast List.mem_range.mp inRange
  have first : (0 : ℚ) ≤ i := Nat.cast_nonneg i
  rw [← same]
  unfold startPts labelGapPts at *
  constructor <;> linarith

/-- The legend of some lines, on axes of a range. -/
theorem addBaseSummaryLegend_placed {lines : Lines} (drawn : Drawn lines) (nonzero : ∀ time ∈ sleepTimes lines, time ≠ 0)
    (absent : theoreticalKey ∉ lines.map Prod.fst) (present : lines ≠ []) {limits : ℚ × ℚ}
    (range : 0 < limits.2 - limits.1) :
    ∃ minSleep lastX labels, (sleepTimes lines).min? = some minSleep ∧ (sleepTimes lines).max? = some lastX ∧
      addBaseSummaryLegend limits (axesHeight 8) lines (sleepTimes lines) = some labels ∧
      finalItems minSleep lastX lines = some (labels.map LegendLabel.item) ∧
      labels.map (fun label => label.item.framework) = lines.map Prod.fst ++ [theoreticalKey] ∧
      Placed ⟨limits.1, limits.2, axesHeight 8, range⟩ labels := by
  have some_time : sleepTimes lines ≠ [] := by
    obtain ⟨line, inLines⟩ := List.exists_mem_of_ne_nil _ present
    obtain ⟨place, inside⟩ := List.exists_mem_of_ne_nil _ (drawn.filled line inLines)
    exact List.ne_nil_of_mem (mem_sleepTimes.mpr ⟨(line.1, place), mem_pointsOf.mpr ⟨line, inLines, rfl, inside⟩, rfl⟩)
  obtain ⟨minSleep, least⟩ := Option.isSome_iff_exists.mp (List.isSome_min?_of_ne_nil some_time)
  obtain ⟨lastX, last⟩ := Option.isSome_iff_exists.mp (List.isSome_max?_of_ne_nil some_time)
  obtain ⟨items, computed, frameworks⟩ := finalItems_eq drawn (nonzero minSleep (List.min?_eq_some_iff.mp least).1)
    (nonzero lastX (List.max?_eq_some_iff.mp last).1)
  have distinct : (items.map FinalItem.framework).Nodup := by
    rw [frameworks, List.nodup_append]
    refine ⟨drawn.frameworks, List.nodup_singleton _, fun framework first key second => ?_⟩
    rw [List.mem_singleton.mp second]
    rintro rfl
    exact absent first
  have height : (0 : ℚ) < axesHeight 8 := by norm_num [axesHeight_base]
  obtain ⟨labels, labelled, own, placed⟩ :=
    @legendLabels_placed ⟨limits.1, limits.2, axesHeight 8, range⟩ height _ _ _ _ computed distinct
  refine ⟨minSleep, lastX, labels, least, last, ?_, own ▸ computed, ?_, placed⟩
  · rw [addBaseSummaryLegend, dif_pos range, least, last]
    exact labelled
  · rw [← frameworks, ← own, List.map_map]
    rfl

/-- Any lines that sleep can be drawn, with the legend too. -/
theorem plotThroughputCategory_drawn {category : String} {data : Series} {lines : Lines}
    (series : plotSeries data = some lines) (drawn : Drawn lines) (nonzero : ∀ time ∈ sleepTimes lines, time ≠ 0)
    (named : category = "base" → theoreticalKey ∉ lines.map Prod.fst) : ∃ drawing, plotThroughputCategory category data = some drawing := by
  unfold plotThroughputCategory
  by_cases base : category = "base"
  · obtain ⟨chart, plotted, rfl, readable, -⟩ := plotBase_readable series drawn nonzero (named base)
    obtain ⟨legend, labelled⟩ : ∃ legend,
        addBaseSummaryLegend chart.limits (axesHeight 8) chart.lines (sleepTimes chart.lines) = some legend := by
      by_cases present : chart.lines = []
      · refine ⟨[], ?_⟩
        have none : (sleepTimes chart.lines).min? = none := by
          rw [present]
          rfl
        rw [addBaseSummaryLegend, dif_pos readable.range, none]
      · obtain ⟨minSleep, lastX, labels, -, -, labelled, -⟩ :=
          addBaseSummaryLegend_placed drawn nonzero (named base) present readable.range
        exact ⟨labels, labelled⟩
    exact ⟨(chart, legend), by simp only [if_pos base, plotted, labelled, Option.bind_eq_bind, Option.bind_some, Option.pure_def]⟩
  · obtain ⟨chart, plotted, -⟩ := plotCategory_readable series drawn nonzero
    exact ⟨(chart, []), by rw [if_neg base, plotted, Option.map_some]⟩

/-- The legend of base, for any runs that sleep longer than not at all: one label for
    each framework of the chart and one for the theoretical maximum, at even distances
    around the middle of the axes, in the order of the peaks, and with at most 24
    frameworks inside of the axes. -/
theorem base_legend (value : Run → Option ℚ) (keep : String → Bool) (runs : List Run)
    (sleeps : ∀ run ∈ runs, run.task.sleepTime ≠ 0) (named : ∀ run ∈ runs, run.task.framework ≠ theoreticalKey) :
    ∃ chart, plotBase (((chartData value keep runs).lookup "base").getD []) = some chart ∧
      (chart.lines ≠ [] → ∃ range : 0 < chart.limits.2 - chart.limits.1, ∃ minSleep lastX labels,
        (sleepTimes chart.lines).min? = some minSleep ∧ (sleepTimes chart.lines).max? = some lastX ∧
        addBaseSummaryLegend chart.limits (axesHeight 8) chart.lines (sleepTimes chart.lines) = some labels ∧
        finalItems minSleep lastX chart.lines = some (labels.map LegendLabel.item) ∧
        labels.map (fun label => label.item.framework) = chart.lines.map Prod.fst ++ [theoreticalKey] ∧
        Placed ⟨chart.limits.1, chart.limits.2, axesHeight 8, range⟩ labels ∧
        (chart.lines.length ≤ 24 → ∀ label ∈ labels,
          0 < Axes.toDisp ⟨chart.limits.1, chart.limits.2, axesHeight 8, range⟩ label.dispY ∧
            Axes.toDisp ⟨chart.limits.1, chart.limits.2, axesHeight 8, range⟩ label.dispY < axesHeight 8)) := by
  obtain ⟨lines, series, -⟩ := draws_chartData value keep runs "base"
  have drawn := drawn_of_populated (NestedLists.populated_collect _) series
  have nonzero := sleepTimes_ne_zero series sleeps
  have absent : theoreticalKey ∉ lines.map Prod.fst := by
    intro member
    obtain ⟨run, inRuns, same⟩ := exists_run_of_base series rfl member
    exact named run inRuns same
  obtain ⟨chart, plotted, rfl, readable, -⟩ := plotBase_readable series drawn nonzero absent
  refine ⟨chart, plotted, fun present => ?_⟩
  obtain ⟨minSleep, lastX, labels, least, last, labelled, items, frameworks, placed⟩ :=
    addBaseSummaryLegend_placed drawn nonzero absent present readable.range
  refine ⟨readable.range, minSleep, lastX, labels, least, last, labelled, items, frameworks, placed,
    fun few label member => ?_⟩
  have length : labels.length = chart.lines.length + 1 := by
    have lengths := congrArg List.length frameworks
    rwa [List.length_map, List.length_append, List.length_map, List.length_singleton] at lengths
  have few : (chart.lines.length : ℚ) ≤ 24 := by exact_mod_cast few
  have room : labelGapPts * (labels.length - 1 : ℚ) < axesHeight 8 := by
    rw [length, axesHeight_base, labelGapPts]
    push_cast
    linarith
  exact placed.inside room member

/-- The legend of the runs of two benchmarks: the peak of each is at one second. -/
theorem base_legend_two : ∃ chart, plotBase (((chartData Run.throughput (fun _ => true) baseRuns).lookup "base").getD []) = some chart ∧
    ∃ labels, addBaseSummaryLegend chart.limits (axesHeight 8) chart.lines (sleepTimes chart.lines) = some labels ∧
      labels.map (fun label => (label.item.framework, label.item.peak)) =
        [("repid", 1500), ("celery", 900), (theoreticalKey, 16000)] := by
  obtain ⟨chart, plotted, present⟩ :=
    base_legend Run.throughput (fun _ => true) baseRuns (by decide +kernel) (by decide +kernel)
  have known : (plotBase (((chartData Run.throughput (fun _ => true) baseRuns).lookup "base").getD [])).map Chart.lines =
      some [("repid", [(1, 1500), (2, 7500)]), ("celery", [(1, 900)])] := by decide +kernel
  rw [plotted, Option.map_some, Option.some.injEq] at known
  obtain ⟨-, minSleep, lastX, labels, least, last, labelled, items, -⟩ := present (known ▸ List.cons_ne_nil _ _)
  have times : sleepTimes chart.lines = [1, 2] := by
    rw [known]
    decide +kernel
  rw [times] at least last
  cases least
  cases last
  have peaks : (finalItems 1 2 chart.lines).map (List.map (fun item => (item.framework, item.peak))) =
      some [("repid", 1500), ("celery", 900), (theoreticalKey, 16000)] := by
    rw [known]
    decide +kernel
  have items : finalItems 1 2 chart.lines = some (labels.map LegendLabel.item) := items
  rw [items, Option.map_some, List.map_map, Option.some.injEq] at peaks
  exact ⟨chart, plotted, labels, labelled, peaks⟩

end RepidBench.BaseLegend
