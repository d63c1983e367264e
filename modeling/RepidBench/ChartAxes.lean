import RepidBench.ChartLabels
import RepidBench.LatencyCharts

/-!
The axes of the charts of `plot_benchmarks.py`: the limits of the values, the labels
behind the ends of the lines, and the labels of the points. In the chart of a category
every point that is drawn has one label with its value, and no point and no label
behind a line lies above the limit of the axis.
-/
namespace RepidBench.ChartAxes
open ChartData ChartLabels ChartLoaders Dictionaries NestedLists Sessions Spacing

/-! ## What is drawn -/

/-- The lines of a chart: of each framework the points, from the left to the right. -/
abbrev Lines := List (String × List (ℚ × ℚ))

/-- The points of all lines. -/
def pointsOf (lines : Lines) : List (String × ℚ × ℚ) := lines.flatMap (fun line => line.2.map (line.1, ·))

/-- `sleep_times` of a chart: those of all frameworks, sorted, each once. -/
def sleepTimes (lines : Lines) : List ℚ :=
  (lines.flatMap (fun line => line.2.map Prod.fst)).dedup.insertionSort (· ≤ ·)

/-- `CONCURRENCY` and `WORKERS`. -/
def concurrency : ℚ := 2000
def workers : ℚ := 8

/-- `theoretical_max`; `none` is the `ZeroDivisionError` of no sleep at all. -/
def theoreticalMax (sleepTime : ℚ) : Option ℚ :=
  if sleepTime = 0 then none else some (concurrency * workers * (1 / sleepTime))

def theoreticalKey : String := "__theoretical_max__"
def baseThroughputYMax : ℚ := 60000

/-! ## `plot_series` -/

/-- The limits for the values; axes without any have those of zero and one. -/
def valueLimits (values : List ℚ) : ℚ × ℚ :=
  match values.max? with
  | none => (0, 1)
  | some top => (0, if 0 < top * 1.18 then top * 1.18 else 1)

/-- The colors of `FRAMEWORK_STYLES`. -/
def frameworkColor (framework : String) : String :=
  ([("repid", "#2563EB"), ("faststream", "#F59E0B"), ("dramatiq", "#10B981"), ("taskiq", "#EF4444"),
    ("celery", "#8B5CF6"), ("dramatiq_nogt", "#6EE7B7"), ("celery_nogt", "#C4B5FD")].lookup framework).getD "#64748B"

/-- `end_labels`; `none` is the `IndexError` for a line without points. -/
def endLabels (lines : Lines) : Option (List EndLabel) :=
  lines.mapM (fun line =>
    line.2.getLast?.map (fun last => ⟨line.1, last.1, last.2, frameworkColor line.1⟩))

/-- The distance that `plot_series` keeps between these labels. -/
def endGap (limits : ℚ × ℚ) : ℚ := (limits.2 - limits.1) * 0.045

/-- Where these labels are put, and the limits afterwards: they are widened when the
    highest label comes close to the upper one. -/
def placeEnds (limits : ℚ × ℚ) (ends : List EndLabel) : (ℚ × ℚ) × List PlacedLabel :=
  let adjusted := adjustLabels (endGap limits) ends
  match (adjusted.map PlacedLabel.labelY).max? with
  | none => (limits, adjusted)
  | some highest => (if limits.2 * 0.98 < highest then (limits.1, highest * 1.08) else limits, adjusted)

/-- What `plot_series` leaves on the axes. -/
structure Plot where
  lines : Lines
  limits : ℚ × ℚ
  ends : List PlacedLabel

/-- `plot_series`, to its labels. -/
def plotSeriesLabels (data : Series) (annotateEnd : Bool) : Option Plot := do
  let lines ← plotSeries data
  let limits := valueLimits (lines.flatMap (fun line => line.2.map Prod.snd))
  if annotateEnd then
    let placed := placeEnds limits (← endLabels lines)
    return ⟨lines, placed.1, placed.2⟩
  else
    return ⟨lines, limits, []⟩

/-! ## `add_point_labels` -/

/-- A label at a sleep time: the framework, its value, and how far above it, in
    points, the label is. -/
structure PointLabel where
  key : String
  sleepTime : ℚ
  rawY : ℚ
  offset : ℚ
  deriving DecidableEq

/-- Where a line may have an item: everywhere, or but at its end. -/
def mayLabel (labelSeriesEnd : Bool) (line : String × List (ℚ × ℚ)) (sleepTime : ℚ) : Bool :=
  labelSeriesEnd || line.2.getLast?.map Prod.fst ≠ some sleepTime

/-- `items` of a sleep time, as far as they are of the lines. -/
def itemsAt (lines : Lines) (labelSeriesEnd : Bool) (sleepTime : ℚ) : List (String × ℚ) :=
  lines.filterMap (fun line =>
    if mayLabel labelSeriesEnd line sleepTime then (line.2.lookup sleepTime).map (line.1, ·) else none)

/-- The item of the theoretical maximum, where it is inside of the axes. -/
def theoreticalItem (axes : Axes) (includeTheoretical : Bool) (tv : ℚ) : List (String × ℚ) :=
  if includeTheoretical ∧ axes.ymin ≤ tv ∧ tv ≤ axes.ymax then [(theoreticalKey, tv)] else []

/-- The labels of some items; `none` is the `KeyError` of one without an offset. -/
def annotate (axes : Axes) (centered : Bool) (sleepTime : ℚ) (items : List (String × ℚ)) : Option (List PointLabel) :=
  items.mapM (fun item => ((axes.deconflict items defaultBasePts defaultGapPts centered).lookup item.1).map
    (fun offset => ⟨item.1, sleepTime, item.2, offset⟩))

/-- One round of the loop over the sleep times. -/
def labelsAt (axes : Axes) (lines : Lines) (includeTheoretical labelSeriesEnd centered : Bool) (sleepTime : ℚ) :
    Option (List PointLabel) := do
  let tv ← theoreticalMax sleepTime
  annotate axes centered sleepTime (itemsAt lines labelSeriesEnd sleepTime ++ theoreticalItem axes includeTheoretical tv)

/-- `add_point_labels`. -/
def addPointLabels (limits : ℚ × ℚ) (heightPts : ℚ) (lines : Lines) (times : List ℚ)
    (includeTheoretical labelSeriesEnd : Bool) : Option (List PointLabel) :=
  if range : 0 < limits.2 - limits.1 then
    (times.mapM (fun sleepTime => labelsAt ⟨limits.1, limits.2, heightPts, range⟩ lines includeTheoretical labelSeriesEnd
      (times.max? = some sleepTime) sleepTime)).map List.flatten
  else some []

/-! ## The charts of a category -/

structure Chart where
  lines : Lines
  limits : ℚ × ℚ
  ends : List PlacedLabel
  labels : List PointLabel

/-- `ax_h_pts`, for a figure of this height in inches: the axes reach from 0.13 to 0.82 of it. -/
def axesHeight (figheight : ℚ) : ℚ := (0.82 - 0.13) * figheight * 72

/-- The part that `plot_tail_category`, `plot_recovery_category` and, but for base,
    `plot_throughput_category` share. -/
def plotCategory (data : Series) : Option Chart := do
  let plot ← plotSeriesLabels data true
  let labels ← addPointLabels plot.limits (axesHeight 7) plot.lines (sleepTimes plot.lines) false false
  return ⟨plot.lines, plot.limits, plot.ends, labels⟩

/-- The limits that `add_base_throughput_annotations` sets for the theoretical maxima. -/
def baseLimits (limits : ℚ × ℚ) (theoretical : List ℚ) : ℚ × ℚ :=
  match theoretical.max? with
  | none => limits
  | some top => (0, max limits.2 (min baseThroughputYMax top))

/-- `plot_throughput_category` of base, with `add_base_throughput_annotations` but for
    the legend. -/
def plotBase (data : Series) : Option Chart := do
  let plot ← plotSeriesLabels data false
  let theoretical ← (sleepTimes plot.lines).mapM theoreticalMax
  let limits := baseLimits plot.limits theoretical
  let labels ← addPointLabels limits (axesHeight 8) plot.lines (sleepTimes plot.lines) true true
  return ⟨plot.lines, limits, plot.ends, labels⟩

/-! ## The lines -/

/-- Lines as `plot_series` draws them: no framework twice, each with a point, and none
    with two points at one sleep time. -/
structure Drawn (lines : Lines) : Prop where
  frameworks : (lines.map Prod.fst).Nodup
  filled : ∀ line ∈ lines, line.2 ≠ []
  times : ∀ line ∈ lines, (line.2.map Prod.fst).Nodup

theorem drawn_of_series {data : Series} (frameworks : (data.map Prod.fst).Nodup) (filled : ∀ own ∈ data, own.2 ≠ [])
    (times : ∀ own ∈ data, (own.2.map Prod.fst).Nodup) {lines : Lines} (drawn : plotSeries data = some lines) : Drawn lines := by
  obtain ⟨same, each⟩ := drawLines_keys drawn
  refine ⟨same.nodup_iff.mpr frameworks, fun line member empty => ?_, fun line member => ?_⟩
  · obtain ⟨own, inData, keys⟩ := each line member
    rw [empty, List.map_nil] at keys
    exact filled own inData (List.map_eq_nil_iff.mp (List.perm_nil.mp keys.symm))
  · obtain ⟨own, inData, keys⟩ := each line member
    exact keys.nodup_iff.mpr (times own inData)

/-- Collected data is drawn in such lines. -/
theorem drawn_of_populated {data : CategoryData} (populated : Populated data) {category : String} {lines : Lines}
    (drawn : plotSeries ((data.lookup category).getD []) = some lines) : Drawn lines := by
  have inner : (data.lookup category).getD [] = [] ∨ Filled (Filled (· ≠ [])) ((data.lookup category).getD []) := by
    cases found : data.lookup category with
    | none => exact .inl rfl
    | some series =>
      rcases populated with rfl | filled
      · cases found
      · exact .inr (filled.values _ (mem_of_lookup found))
  rcases inner with none | filled
  · rw [none] at drawn
    exact @drawn_of_series [] List.nodup_nil (List.forall_mem_nil _) (List.forall_mem_nil _) lines drawn
  · exact drawn_of_series filled.keys (fun own member => (filled.values own member).present)
      (fun own member => (filled.values own member).keys) drawn

theorem mem_pointsOf {lines : Lines} {point : String × ℚ × ℚ} :
    point ∈ pointsOf lines ↔ ∃ line ∈ lines, line.1 = point.1 ∧ point.2 ∈ line.2 := by
  simp only [pointsOf, List.mem_flatMap, List.mem_map]
  constructor
  · rintro ⟨line, member, place, inside, rfl⟩
    exact ⟨line, member, rfl, inside⟩
  · rintro ⟨line, member, same, inside⟩
    exact ⟨line, member, point.2, inside, Prod.ext same rfl⟩

theorem mem_sleepTimes {lines : Lines} {time : ℚ} : time ∈ sleepTimes lines ↔ ∃ point ∈ pointsOf lines, point.2.1 = time := by
  simp only [sleepTimes, List.mem_insertionSort, List.mem_dedup, List.mem_flatMap, List.mem_map, mem_pointsOf]
  constructor
  · rintro ⟨line, member, place, inside, rfl⟩
    exact ⟨(line.1, place), ⟨line, member, rfl, inside⟩, rfl⟩
  · rintro ⟨point, ⟨line, member, -, inside⟩, rfl⟩
    exact ⟨line, member, point.2, inside, rfl⟩

theorem nodup_sleepTimes (lines : Lines) : (sleepTimes lines).Nodup :=
  (List.perm_insertionSort _ _).nodup_iff.mpr (List.nodup_dedup _)

/-! ## Every point once -/

section
variable {lines : Lines} (drawn : Drawn lines)
include drawn

omit drawn in
/-- Items of some lines have the frameworks of these. -/
theorem filterMap_frameworks {item : String × List (ℚ × ℚ) → Option (String × ℚ)}
    (own : ∀ line found, item line = some found → found.1 = line.1) :
    ((lines.filterMap item).map Prod.fst).Sublist (lines.map Prod.fst) := by
  induction lines with
  | nil => exact List.Sublist.refl _
  | cons line rest ih =>
    cases found : item line with
    | none =>
      rw [List.filterMap_cons_none found]
      exact ih.cons _
    | some entry =>
      rw [List.filterMap_cons_some found, List.map_cons, List.map_cons, own line entry found]
      exact ih.cons_cons _

/-- The items that some lines have at a sleep time. -/
theorem mem_taken {take : String × List (ℚ × ℚ) → ℚ → Bool} {time : ℚ} {item : String × ℚ} :
    item ∈ lines.filterMap (fun line => if take line time then (line.2.lookup time).map (line.1, ·) else none) ↔
      ∃ line ∈ lines, line.1 = item.1 ∧ take line time ∧ (time, item.2) ∈ line.2 := by
  rw [List.mem_filterMap]
  constructor
  · rintro ⟨line, member, found⟩
    split_ifs at found with taken
    obtain ⟨y, value, rfl⟩ := Option.map_eq_some_iff.mp found
    exact ⟨line, member, rfl, taken, mem_of_lookup value⟩
  · rintro ⟨line, member, same, taken, inside⟩
    refine ⟨line, member, ?_⟩
    rw [if_pos taken, lookup_of_mem (drawn.times line member) inside, Option.map_some, same]

theorem nodup_taken (take : String × List (ℚ × ℚ) → ℚ → Bool) (time : ℚ) :
    ((lines.filterMap (fun line => if take line time then (line.2.lookup time).map (line.1, ·) else none)).map
      Prod.fst).Nodup := by
  refine drawn.frameworks.sublist (filterMap_frameworks (fun line found taken => ?_))
  split_ifs at taken
  obtain ⟨y, -, rfl⟩ := Option.map_eq_some_iff.mp taken
  rfl

/-- What is taken of the lines, sleep time after sleep time, is what is taken of each. -/
theorem byTime_perm (take : String × List (ℚ × ℚ) → ℚ → Bool) :
    ((sleepTimes lines).flatMap (fun time =>
      (lines.filterMap (fun line => if take line time then (line.2.lookup time).map (line.1, ·) else none)).map
        (fun item => (item.1, time, item.2)))).Perm
      (lines.flatMap (fun line => (line.2.filter (fun place => take line place.1)).map (line.1, ·))) := by
  refine (List.perm_ext_iff_of_nodup ?_ ?_).mpr (fun point => ?_)
  · refine List.nodup_flatMap.mpr ⟨fun time _ => ?_, (nodup_sleepTimes lines).imp (fun {time other} apart => ?_)⟩
    · refine List.Nodup.of_map Prod.fst ?_
      rw [List.map_map]
      exact nodup_taken drawn take time
    · intro point first second
      obtain ⟨_, -, rfl⟩ := List.mem_map.mp first
      obtain ⟨_, -, same⟩ := List.mem_map.mp second
      exact apart (Prod.mk.inj (Prod.mk.inj same).2).1.symm
  · refine List.nodup_flatMap.mpr ⟨fun line member => ?_, ?_⟩
    · exact ((drawn.times line member).of_map.filter _).map (Prod.mk_right_injective _)
    · refine (List.pairwise_map.mp drawn.frameworks).imp (fun {line other} apart => ?_)
      intro point first second
      obtain ⟨_, -, rfl⟩ := List.mem_map.mp first
      obtain ⟨_, -, same⟩ := List.mem_map.mp second
      exact apart (Prod.mk.inj same).1.symm
  · constructor
    · intro member
      obtain ⟨time, -, inside⟩ := List.mem_flatMap.mp member
      obtain ⟨item, found, rfl⟩ := List.mem_map.mp inside
      obtain ⟨line, own, same, taken, value⟩ := (mem_taken drawn).mp found
      exact List.mem_flatMap.mpr ⟨line, own, List.mem_map.mpr ⟨_, List.mem_filter.mpr ⟨value, taken⟩, Prod.ext same rfl⟩⟩
    · intro member
      obtain ⟨line, own, inside⟩ := List.mem_flatMap.mp member
      obtain ⟨place, kept, rfl⟩ := List.mem_map.mp inside
      obtain ⟨value, taken⟩ := List.mem_filter.mp kept
      have time : place.1 ∈ sleepTimes lines :=
        mem_sleepTimes.mpr ⟨(line.1, place), mem_pointsOf.mpr ⟨line, own, rfl, value⟩, rfl⟩
      refine List.mem_flatMap.mpr ⟨place.1, time, List.mem_map.mpr ⟨(line.1, place.2), ?_, rfl⟩⟩
      exact (mem_taken drawn).mpr ⟨line, own, rfl, taken, value⟩

omit drawn in
/-- The last point of a line, which has a label behind it, and the others. -/
theorem last_and_others {line : String × List (ℚ × ℚ)} (times : (line.2.map Prod.fst).Nodup) {last : ℚ × ℚ}
    (final : line.2.getLast? = some last) :
    (line.2.map (line.1, ·)).Perm
      ((line.1, last) :: (line.2.filter (fun place => mayLabel false line place.1)).map (line.1, ·)) := by
  obtain ⟨before, whole⟩ := List.getLast?_eq_some_iff.mp final
  rw [whole, List.map_append, List.map_singleton, List.nodup_append] at times
  have mayAt : ∀ place : ℚ × ℚ, mayLabel false line place.1 = true ↔ last.1 ≠ place.1 := by
    intro place
    simp [mayLabel, final]
  have others : line.2.filter (fun place => mayLabel false line place.1) = before := by
    rw [whole, List.filter_append, List.filter_eq_self.mpr (fun place member => ?_), List.filter_eq_nil_iff.mpr ?_,
      List.append_nil]
    · intro place member
      rw [List.mem_singleton.mp member, mayAt]
      exact fun apart => apart rfl
    · exact (mayAt place).mpr (times.2.2 place.1 (List.mem_map_of_mem member) last.1 (List.mem_singleton.mpr rfl)).symm
  rw [others, whole, List.map_append]
  exact List.perm_append_comm

/-- With the labels behind the lines and those of the other points every point has one. -/
theorem ends_and_items_perm {ends : List EndLabel} (ended : endLabels lines = some ends) :
    (ends.map (fun label => (label.framework, label.x, label.y)) ++
      (sleepTimes lines).flatMap (fun time => (itemsAt lines false time).map (fun item => (item.1, time, item.2)))).Perm
      (pointsOf lines) := by
  let lastOf (line : String × List (ℚ × ℚ)) : String × ℚ × ℚ := (line.1, line.2.getLast?.getD (0, 0))
  have lasts : ends.map (fun label => (label.framework, label.x, label.y)) = lines.map lastOf := by
    refine map_of_mapM ended (fun line label computed => ?_)
    obtain ⟨last, final, rfl⟩ := Option.map_eq_some_iff.mp computed
    simp only [lastOf, final, Option.getD_some]
  have each : ∀ line ∈ lines, (line.2.map (line.1, ·)).Perm
      (lastOf line :: (line.2.filter (fun place => mayLabel false line place.1)).map (line.1, ·)) := by
    intro line member
    have final := List.getLast?_eq_some_getLast (drawn.filled line member)
    have split := last_and_others (drawn.times line member) final
    simpa only [lastOf, final, Option.getD_some] using split
  have others := (byTime_perm drawn (mayLabel false)).append_left (lines.map lastOf)
  rw [lasts]
  refine others.trans ((List.map_append_flatMap_perm lines lastOf _).trans ?_)
  exact (List.Perm.flatMap_left lines each).symm

/-- Without them the items are all points. -/
theorem items_perm :
    ((sleepTimes lines).flatMap (fun time => (itemsAt lines true time).map (fun item => (item.1, time, item.2)))).Perm
      (pointsOf lines) := by
  refine (byTime_perm drawn (mayLabel true)).trans ?_
  have all : ∀ line : String × List (ℚ × ℚ), line.2.filter (fun place => mayLabel true line place.1) = line.2 :=
    fun line => List.filter_eq_self.mpr (fun _ _ => rfl)
  simp only [all]
  exact List.Perm.refl _

end

/-! ## The labels at a sleep time -/

/-- What a label shows, and how high it is on the page. -/
def PointLabel.shows (label : PointLabel) : String × ℚ × ℚ := (label.key, label.sleepTime, label.rawY)
def PointLabel.height (axes : Axes) (label : PointLabel) : ℚ := axes.toDisp label.rawY + label.offset

theorem annotate_eq (axes : Axes) (centered : Bool) (time : ℚ) {items : List (String × ℚ)}
    (distinct : (items.map Prod.fst).Nodup) :
    ∃ labels, annotate axes centered time items = some labels ∧
      labels.map PointLabel.shows = items.map (fun item => (item.1, time, item.2)) ∧
      ∀ a ∈ labels, ∀ b ∈ labels, a ≠ b → defaultGapPts ≤ |a.height axes - b.height axes| := by
  have positive : 0 < defaultGapPts := by norm_num [defaultGapPts]
  obtain ⟨place, placed, least⟩ := deconflict_least axes defaultBasePts centered distinct positive
  let labelOf (item : String × ℚ) : PointLabel := ⟨item.1, time, item.2, place item - axes.toDisp item.2⟩
  have height : ∀ item, (labelOf item).height axes = place item := fun item => add_sub_cancel _ _
  refine ⟨items.map labelOf, mapM_eq_map (fun item member => ?_), ?_, ?_⟩
  · obtain ⟨offset, found, put⟩ := Option.map_eq_some_iff.mp (placed item member)
    rw [found, Option.map_some, ← add_sub_cancel_left (axes.toDisp item.2) offset, put]
  · rw [List.map_map]
    rfl
  · intro a first b second apart
    obtain ⟨item, inItems, rfl⟩ := List.mem_map.mp first
    obtain ⟨other, inItems', rfl⟩ := List.mem_map.mp second
    rw [height, height]
    exact least.apart item inItems other inItems' (fun same => apart (congrArg labelOf same))

/-- The theoretical maxima that are inside of the axes. -/
def theoreticalPoints (axes : Axes) (times : List ℚ) : List (String × ℚ × ℚ) :=
  times.flatMap (fun time => (theoreticalItem axes true (concurrency * workers * (1 / time))).map
    (fun item => (item.1, time, item.2)))

section
variable {lines : Lines} (drawn : Drawn lines) {times : List ℚ} (nonzero : ∀ time ∈ times, time ≠ 0)
  {includeTheoretical : Bool} (named : includeTheoretical = true → theoreticalKey ∉ lines.map Prod.fst)
include drawn nonzero named

/-- The labels of one sleep time. -/
theorem labelsAt_eq (axes : Axes) (labelSeriesEnd centered : Bool) {time : ℚ} (member : time ∈ times) :
    ∃ labels, labelsAt axes lines includeTheoretical labelSeriesEnd centered time = some labels ∧
      labels.map PointLabel.shows = (itemsAt lines labelSeriesEnd time ++
        theoreticalItem axes includeTheoretical (concurrency * workers * (1 / time))).map (fun item => (item.1, time, item.2)) ∧
      ∀ a ∈ labels, ∀ b ∈ labels, a ≠ b → defaultGapPts ≤ |a.height axes - b.height axes| := by
  have distinct : ((itemsAt lines labelSeriesEnd time ++
      theoreticalItem axes includeTheoretical (concurrency * workers * (1 / time))).map Prod.fst).Nodup := by
    rw [List.map_append, List.nodup_append]
    refine ⟨nodup_taken drawn (mayLabel labelSeriesEnd) time, ?_, ?_⟩
    · unfold theoreticalItem
      split_ifs <;> simp
    · intro framework first key second
      unfold theoreticalItem at second
      split_ifs at second with shown
      · rw [List.mem_singleton.mp second]
        rintro rfl
        refine named shown.1 ((filterMap_frameworks (fun line found taken => ?_)).subset first)
        split_ifs at taken
        obtain ⟨y, -, rfl⟩ := Option.map_eq_some_iff.mp taken
        rfl
      · cases second
  obtain ⟨labels, annotated, shows, apart⟩ := annotate_eq axes centered time distinct
  refine ⟨labels, ?_, shows, apart⟩
  rw [labelsAt, theoreticalMax, if_neg (nonzero time member)]
  exact annotated

/-- The labels of all sleep times: nothing is raised, they are of the items, and those
    at one sleep time are apart. -/
theorem addPointLabels_eq {limits : ℚ × ℚ} (range : 0 < limits.2 - limits.1) (heightPts : ℚ) (labelSeriesEnd : Bool) :
    ∃ labels, addPointLabels limits heightPts lines times includeTheoretical labelSeriesEnd = some labels ∧
      labels.map PointLabel.shows = times.flatMap (fun time => (itemsAt lines labelSeriesEnd time ++
        theoreticalItem ⟨limits.1, limits.2, heightPts, range⟩ includeTheoretical (concurrency * workers * (1 / time))).map
          (fun item => (item.1, time, item.2))) ∧
      ∀ a ∈ labels, ∀ b ∈ labels, a ≠ b → a.sleepTime = b.sleepTime → defaultGapPts ≤
        |a.height ⟨limits.1, limits.2, heightPts, range⟩ - b.height ⟨limits.1, limits.2, heightPts, range⟩| := by
  let axes : Axes := ⟨limits.1, limits.2, heightPts, range⟩
  let at' (time : ℚ) : List PointLabel :=
    (labelsAt axes lines includeTheoretical labelSeriesEnd (times.max? = some time) time).getD []
  have each : ∀ time ∈ times, labelsAt axes lines includeTheoretical labelSeriesEnd (times.max? = some time) time =
      some (at' time) := by
    intro time member
    obtain ⟨labels, computed, -⟩ := labelsAt_eq drawn nonzero named axes labelSeriesEnd (times.max? = some time) member
    simp only [at', computed, Option.getD_some]
  have shows : ∀ time ∈ times, (at' time).map PointLabel.shows = (itemsAt lines labelSeriesEnd time ++
      theoreticalItem axes includeTheoretical (concurrency * workers * (1 / time))).map (fun item => (item.1, time, item.2)) := by
    intro time member
    obtain ⟨labels, computed, shows, -⟩ := labelsAt_eq drawn nonzero named axes labelSeriesEnd (times.max? = some time) member
    rwa [← Option.some.inj ((each time member).symm.trans computed)] at shows
  have own : ∀ time ∈ times, ∀ label ∈ at' time, label.sleepTime = time := by
    intro time member label inside
    have shown : label.shows ∈ (at' time).map PointLabel.shows := List.mem_map_of_mem inside
    rw [shows time member] at shown
    obtain ⟨item, -, same⟩ := List.mem_map.mp shown
    exact (Prod.mk.inj (Prod.mk.inj same).2).1.symm
  refine ⟨times.flatMap at', ?_, ?_, ?_⟩
  · rw [addPointLabels, dif_pos range, mapM_eq_map each]
    rfl
  · rw [List.map_flatMap]
    exact List.flatMap_congr shows
  · intro a first b second apart together
    obtain ⟨time, member, inside⟩ := List.mem_flatMap.mp first
    obtain ⟨time', member', inside'⟩ := List.mem_flatMap.mp second
    rw [own time member a inside, own time' member' b inside'] at together
    subst together
    obtain ⟨labels, computed, -, spaced⟩ :=
      labelsAt_eq drawn nonzero named axes labelSeriesEnd (times.max? = some time) member
    rw [← Option.some.inj ((each time member).symm.trans computed)] at spaced
    exact spaced a inside b inside' apart

end

/-! ## The limits -/

theorem valueLimits_above (values : List ℚ) :
    (valueLimits values).1 = 0 ∧ 0 < (valueLimits values).2 ∧ ∀ value ∈ values, value < (valueLimits values).2 := by
  unfold valueLimits
  cases found : values.max? with
  | none =>
    rw [List.max?_eq_none_iff] at found
    subst found
    exact ⟨rfl, one_pos, List.forall_mem_nil _⟩
  | some top =>
    have below := (List.max?_eq_some_iff.mp found).2
    by_cases positive : 0 < top * 1.18
    · simp only [if_pos positive]
      refine ⟨trivial, positive, fun value member => ?_⟩
      have le := below value member
      norm_num at positive ⊢
      linarith
    · simp only [if_neg positive]
      refine ⟨trivial, one_pos, fun value member => ?_⟩
      have le := below value member
      norm_num at positive
      linarith

/-- The limits only grow, and every label is below the upper one. -/
theorem placeEnds_above {limits : ℚ × ℚ} (bottom : limits.1 = 0) (positive : 0 < limits.2) (ends : List EndLabel) :
    (placeEnds limits ends).1.1 = 0 ∧ limits.2 ≤ (placeEnds limits ends).1.2 ∧
      ∀ label ∈ (placeEnds limits ends).2, label.labelY < (placeEnds limits ends).1.2 := by
  cases found : ((adjustLabels (endGap limits) ends).map PlacedLabel.labelY).max? with
  | none =>
    simp only [placeEnds, found]
    rw [List.max?_eq_none_iff, List.map_eq_nil_iff] at found
    rw [found]
    exact ⟨bottom, le_rfl, List.forall_mem_nil _⟩
  | some highest =>
    have below : ∀ label ∈ adjustLabels (endGap limits) ends, label.labelY ≤ highest :=
      fun label member => (List.max?_eq_some_iff.mp found).2 _ (List.mem_map_of_mem member)
    by_cases close : limits.2 * 0.98 < highest
    · simp only [placeEnds, found, if_pos close]
      norm_num at close ⊢
      refine ⟨bottom, by linarith, fun label member => ?_⟩
      linarith [below label member]
    · simp only [placeEnds, found, if_neg close]
      norm_num at close
      refine ⟨bottom, le_rfl, fun label member => ?_⟩
      linarith [below label member]

theorem placeEnds_labels (limits : ℚ × ℚ) (ends : List EndLabel) :
    (placeEnds limits ends).2 = adjustLabels (endGap limits) ends := by
  cases found : ((adjustLabels (endGap limits) ends).map PlacedLabel.labelY).max? with
  | none => simp only [placeEnds, found]
  | some highest => simp only [placeEnds, found]

/-! ## The charts can be read -/

/-- A chart whose labels are those of its points, once each, and of what else is to be
    shown; nothing is above its axis, and labels at one sleep time are apart. -/
structure Readable (chart : Chart) (heightPts : ℚ) (others : Axes → List (String × ℚ × ℚ)) : Prop where
  bottom : chart.limits.1 = 0
  range : 0 < chart.limits.2 - chart.limits.1
  labelled : (chart.ends.map (fun label => (label.framework, label.x, label.y)) ++ chart.labels.map PointLabel.shows).Perm
    (pointsOf chart.lines ++ others ⟨chart.limits.1, chart.limits.2, heightPts, range⟩)
  inside : ∀ point ∈ pointsOf chart.lines, point.2.2 < chart.limits.2
  endsInside : ∀ label ∈ chart.ends, label.labelY < chart.limits.2
  apart : ∀ a ∈ chart.labels, ∀ b ∈ chart.labels, a ≠ b → a.sleepTime = b.sleepTime → defaultGapPts ≤
    |a.height ⟨chart.limits.1, chart.limits.2, heightPts, range⟩ - b.height ⟨chart.limits.1, chart.limits.2, heightPts, range⟩|

theorem mem_values {lines : Lines} {point : String × ℚ × ℚ} (member : point ∈ pointsOf lines) :
    point.2.2 ∈ lines.flatMap (fun line => line.2.map Prod.snd) := by
  obtain ⟨line, own, -, inside⟩ := mem_pointsOf.mp member
  exact List.mem_flatMap.mpr ⟨line, own, List.mem_map_of_mem inside⟩

theorem endLabels_eq {lines : Lines} (drawn : Drawn lines) :
    ∃ ends, endLabels lines = some ends ∧ ends.map EndLabel.framework = lines.map Prod.fst := by
  obtain ⟨ends, ended⟩ : ∃ ends, endLabels lines = some ends := by
    refine ⟨_, mapM_eq_map (g := fun line => ⟨line.1, (line.2.getLast?.getD (0, 0)).1, (line.2.getLast?.getD (0, 0)).2,
      frameworkColor line.1⟩) (fun line member => ?_)⟩
    rw [List.getLast?_eq_some_getLast (drawn.filled line member)]
    rfl
  refine ⟨ends, ended, map_of_mapM ended (fun line label computed => ?_)⟩
  obtain ⟨last, -, rfl⟩ := Option.map_eq_some_iff.mp computed
  rfl

theorem endGap_positive {limits : ℚ × ℚ} (range : 0 < limits.2 - limits.1) : 0 < endGap limits := by
  unfold endGap
  norm_num
  linarith

/-- What `plot_series` leaves on the axes: the limits are above all points and labels,
    and with `annotate_end` every line has its label. -/
structure PlotReadable (lines : Lines) (annotateEnd : Bool) (plot : Plot) : Prop where
  own : plot.lines = lines
  bottom : plot.limits.1 = 0
  positive : 0 < plot.limits.2
  inside : ∀ point ∈ pointsOf lines, point.2.2 < plot.limits.2
  endsInside : ∀ label ∈ plot.ends, label.labelY < plot.limits.2
  ends : ∃ ends, (if annotateEnd then endLabels lines else some []) = some ends ∧
    (plot.ends.map (fun label => (label.framework, label.x, label.y))).Perm
      (ends.map (fun label => (label.framework, label.x, label.y)))

theorem plotSeriesLabels_readable {data : Series} {lines : Lines} (series : plotSeries data = some lines)
    (drawn : Drawn lines) (annotateEnd : Bool) :
    ∃ plot, plotSeriesLabels data annotateEnd = some plot ∧ PlotReadable lines annotateEnd plot := by
  obtain ⟨bottom, positive, above⟩ := valueLimits_above (lines.flatMap (fun line => line.2.map Prod.snd))
  cases annotateEnd with
  | false =>
    refine ⟨⟨lines, valueLimits (lines.flatMap (fun line => line.2.map Prod.snd)), []⟩, ?_, rfl, bottom, positive,
      fun point member => above _ (mem_values member), List.forall_mem_nil _, [], rfl, List.Perm.refl _⟩
    simp only [plotSeriesLabels, series, Option.bind_eq_bind, Option.bind_some, Bool.false_eq_true, if_false, Option.pure_def]
  | true =>
    obtain ⟨ends, ended, frameworks⟩ := endLabels_eq drawn
    have distinct : (ends.map EndLabel.framework).Nodup := frameworks ▸ drawn.frameworks
    obtain ⟨place, placed, -⟩ := adjustLabels_least distinct (endGap_positive (by rwa [bottom, sub_zero]))
    obtain ⟨bottom', grown, endsInside⟩ := placeEnds_above bottom positive ends
    refine ⟨⟨lines, _, _⟩, ?_, rfl, bottom', positive.trans_le grown,
      fun point member => (above _ (mem_values member)).trans_le grown, endsInside, ends, ended, ?_⟩
    · simp only [plotSeriesLabels, series, ended, Option.bind_eq_bind, Option.bind_some, if_true, Option.pure_def]
    · have own := placed.map (fun label => (label.framework, label.x, label.y))
      rw [List.map_map, ← placeEnds_labels] at own
      exact own

section
variable {data : Series} {lines : Lines} (series : plotSeries data = some lines) (drawn : Drawn lines)
  (nonzero : ∀ time ∈ sleepTimes lines, time ≠ 0)
include series drawn nonzero

theorem plotCategory_readable :
    ∃ chart, plotCategory data = some chart ∧ chart.lines = lines ∧ Readable chart (axesHeight 7) (fun _ => []) := by
  obtain ⟨plot, plotted, rfl, bottom, positive, inside, endsInside, ends, ended, own⟩ :=
    plotSeriesLabels_readable series drawn true
  have range : 0 < plot.limits.2 - plot.limits.1 := by rwa [bottom, sub_zero]
  have without : false = true → theoreticalKey ∉ plot.lines.map Prod.fst := fun wrong => nomatch wrong
  obtain ⟨labels, labelled, shows, apart⟩ := addPointLabels_eq drawn nonzero without range (axesHeight 7) false
  refine ⟨⟨plot.lines, plot.limits, plot.ends, labels⟩, ?_, rfl, bottom, range, ?_, inside, endsInside, apart⟩
  · simp only [plotCategory, plotted, Option.bind_eq_bind, Option.bind_some, labelled, Option.pure_def]
  · rw [shows, List.append_nil]
    simp only [theoreticalItem, Bool.false_eq_true, false_and, if_false, List.append_nil]
    exact (own.append_right _).trans (ends_and_items_perm drawn ended)

/-- The chart of base also has the theoretical maxima inside of its axes, and reaches
    up to the highest one or to the constant. -/
theorem plotBase_readable (named : theoreticalKey ∉ lines.map Prod.fst) :
    ∃ chart, plotBase data = some chart ∧ chart.lines = lines ∧
      Readable chart (axesHeight 8) (fun axes => theoreticalPoints axes (sleepTimes lines)) ∧
      ∀ time ∈ sleepTimes lines, min baseThroughputYMax (concurrency * workers * (1 / time)) ≤ chart.limits.2 := by
  obtain ⟨plot, plotted, rfl, bottom, positive, inside, endsInside, ends, ended, own⟩ :=
    plotSeriesLabels_readable series drawn false
  let maxima := (sleepTimes plot.lines).map (fun time => concurrency * workers * (1 / time))
  have computed : (sleepTimes plot.lines).mapM theoreticalMax = some maxima :=
    mapM_eq_map (fun time member => if_neg (nonzero time member))
  obtain ⟨bottom', grown, reach⟩ : (baseLimits plot.limits maxima).1 = 0 ∧ plot.limits.2 ≤ (baseLimits plot.limits maxima).2 ∧
      ∀ top ∈ maxima, min baseThroughputYMax top ≤ (baseLimits plot.limits maxima).2 := by
    unfold baseLimits
    cases found : maxima.max? with
    | none =>
      rw [List.max?_eq_none_iff] at found
      exact ⟨bottom, le_rfl, found ▸ List.forall_mem_nil _⟩
    | some top =>
      refine ⟨rfl, le_max_left _ _, fun other member => le_max_of_le_right ?_⟩
      exact min_le_min_left _ ((List.max?_eq_some_iff.mp found).2 other member)
  have range : 0 < (baseLimits plot.limits maxima).2 - (baseLimits plot.limits maxima).1 := by
    rw [bottom', sub_zero]
    exact positive.trans_le grown
  have shown : true = true → theoreticalKey ∉ plot.lines.map Prod.fst := fun _ => named
  obtain ⟨labels, labelled, shows, apart⟩ := addPointLabels_eq drawn nonzero shown range (axesHeight 8) true
  refine ⟨⟨plot.lines, baseLimits plot.limits maxima, plot.ends, labels⟩, ?_, rfl, ⟨bottom', range, ?_, ?_, ?_, apart⟩, ?_⟩
  · simp only [plotBase, plotted, computed, Option.bind_eq_bind, Option.bind_some, labelled, Option.pure_def]
  · have noEnds : ends = [] := (Option.some.inj ended).symm
    subst noEnds
    have none : plot.ends = [] := List.map_eq_nil_iff.mp (List.perm_nil.mp own)
    rw [none, shows]
    simp only [List.map_append]
    exact (List.flatMap_append_perm _ _ _).symm.trans ((items_perm drawn).append_right _)
  · exact fun point member => (inside point member).trans_le grown
  · exact fun label member => (endsInside label member).trans_le grown
  · exact fun time member => reach _ (List.mem_map_of_mem member)

end

/-! ## The charts of some runs -/

section
variable {value : Run → Option ℚ} {keep : String → Bool} {runs : List Run} {category : String} {lines : Lines}
  (series : plotSeries (((chartData value keep runs).lookup category).getD []) = some lines)
include series

/-- A point that is drawn is of a run. -/
theorem exists_run_of_point {point : String × ℚ × ℚ} (member : point ∈ pointsOf lines) :
    ∃ run ∈ runs, run.status = "ok" ∧ chartKey run.task.toCell = (category, point.1, point.2.1) := by
  obtain ⟨own, drawn, points⟩ := draws_chartData value keep runs category
  cases series.symm.trans drawn
  obtain ⟨line, inLines, same, inside⟩ := mem_pointsOf.mp member
  have there : (point.1, line.2) ∈ lines := same ▸ inLines
  obtain ⟨cell, key, -, present, -⟩ := (points point.1 point.2.1 point.2.2).mp ⟨line.2, there, inside⟩
  obtain ⟨y, found⟩ := List.exists_mem_of_ne_nil _ present
  obtain ⟨run, inRuns, taken⟩ := List.mem_filterMap.mp found
  split_ifs at taken with ok
  exact ⟨run, inRuns, ok.2, ok.1 ▸ key⟩

theorem sleepTimes_ne_zero (sleeps : ∀ run ∈ runs, run.task.sleepTime ≠ 0) : ∀ time ∈ sleepTimes lines, time ≠ 0 := by
  intro time member
  obtain ⟨point, inLines, rfl⟩ := mem_sleepTimes.mp member
  obtain ⟨run, inRuns, -, key⟩ := exists_run_of_point series inLines
  obtain ⟨-, -, same⟩ : _ ∧ _ ∧ run.task.sleepTime = point.2.1 := by simpa only [chartKey, Prod.mk.injEq] using key
  exact same ▸ sleeps run inRuns

/-- A framework of the chart of base is the name of a benchmark. -/
theorem exists_run_of_base (base : category = "base") {framework : String} (member : framework ∈ lines.map Prod.fst) :
    ∃ run ∈ runs, run.task.framework = framework := by
  have drawn := drawn_of_populated (populated_collect _) series
  obtain ⟨line, inLines, rfl⟩ := List.mem_map.mp member
  obtain ⟨place, inside⟩ := List.exists_mem_of_ne_nil _ (drawn.filled line inLines)
  have drawnPoint : (line.1, place) ∈ pointsOf lines := mem_pointsOf.mpr ⟨line, inLines, rfl, inside⟩
  obtain ⟨run, inRuns, -, key⟩ := exists_run_of_point series drawnPoint
  obtain ⟨own, framework, -⟩ : _ ∧ _ ∧ _ := by simpa only [chartKey, Prod.mk.injEq] using key
  refine ⟨run, inRuns, ?_⟩
  rw [← joinFramework_splitFramework run.task.framework, joinFramework, if_pos (own.trans base)]
  exact framework

end

/-- The charts that are drawn of any runs that sleep at all: in that of a category
    every point has its value once, that of base shows the theoretical maxima too, no
    point and no label behind a line is above the axis, and the labels at a sleep time
    are apart. -/
theorem charts_readable (value : Run → Option ℚ) (keep : String → Bool) (runs : List Run)
    (sleeps : ∀ run ∈ runs, run.task.sleepTime ≠ 0) (named : ∀ run ∈ runs, run.task.framework ≠ theoreticalKey) :
    (∀ category, ∃ chart, plotCategory (((chartData value keep runs).lookup category).getD []) = some chart ∧
      plotSeries (((chartData value keep runs).lookup category).getD []) = some chart.lines ∧
      Readable chart (axesHeight 7) (fun _ => [])) ∧
    ∃ chart, plotBase (((chartData value keep runs).lookup "base").getD []) = some chart ∧
      plotSeries (((chartData value keep runs).lookup "base").getD []) = some chart.lines ∧
      Readable chart (axesHeight 8) (fun axes => theoreticalPoints axes (sleepTimes chart.lines)) ∧
      ∀ time ∈ sleepTimes chart.lines, min baseThroughputYMax (concurrency * workers * (1 / time)) ≤ chart.limits.2 := by
  constructor
  · intro category
    obtain ⟨lines, series, -⟩ := draws_chartData value keep runs category
    have drawn := drawn_of_populated (populated_collect _) series
    obtain ⟨chart, plotted, rfl, readable⟩ := plotCategory_readable series drawn (sleepTimes_ne_zero series sleeps)
    exact ⟨chart, plotted, series, readable⟩
  · obtain ⟨lines, series, -⟩ := draws_chartData value keep runs "base"
    have drawn := drawn_of_populated (populated_collect _) series
    have absent : theoreticalKey ∉ lines.map Prod.fst := by
      intro member
      obtain ⟨run, inRuns, same⟩ := exists_run_of_base series rfl member
      exact named run inRuns same
    obtain ⟨chart, plotted, rfl, readable⟩ := plotBase_readable series drawn (sleepTimes_ne_zero series sleeps) absent
    exact ⟨chart, plotted, series, readable⟩

/-- Two benchmarks at the same sleep times, one of which has only one run that is ok. -/
def baseRuns : List Run :=
  [("repid", 1, (1 : ℚ), "ok", (1500 : ℚ)), ("repid", 1, 2, "ok", 7500), ("celery", 1, 1, "ok", 900),
    ("celery", 2, 1, "timeout", 0)].map (fun (name, run, time, status, rate) =>
      ⟨⟨⟨⟨name, time⟩, run⟩, false⟩, some ⟨status, [("throughput", .float rate)]⟩⟩)

theorem charts_readable_base : ∃ chart,
    plotBase (((chartData Run.throughput (fun _ => true) baseRuns).lookup "base").getD []) = some chart ∧
      (chart.labels.map PointLabel.shows).Perm
        (pointsOf chart.lines ++ [(theoreticalKey, 1, 16000), (theoreticalKey, 2, 8000)]) := by
  obtain ⟨-, chart, plotted, series, readable, -⟩ :=
    charts_readable Run.throughput (fun _ => true) baseRuns (by decide +kernel) (by decide +kernel)
  have known : (plotBase (((chartData Run.throughput (fun _ => true) baseRuns).lookup "base").getD [])).map
      (fun chart => (chart.limits, chart.ends, sleepTimes chart.lines)) = some ((0, 16000), [], [1, 2]) := by
    decide +kernel
  simp only [plotted, Option.map_some, Option.some.injEq, Prod.mk.injEq] at known
  obtain ⟨limits, ends, times⟩ := known
  refine ⟨chart, plotted, ?_⟩
  have labelled := readable.labelled
  rw [ends, List.map_nil, List.nil_append] at labelled
  simp only [limits, times] at labelled
  have maxima : theoreticalPoints ⟨0, 16000, axesHeight 8, by norm_num⟩ [1, 2] =
      [(theoreticalKey, 1, 16000), (theoreticalKey, 2, 8000)] := by decide +kernel
  rwa [maxima] at labelled

end RepidBench.ChartAxes
