import RepidBench.BaseLegend

/-!
The charts that `main` of `plot_benchmarks.py` writes: one of throughput for each
category that has some, but the one of latency, one of tails for each category that
has some, the recovery of bursts, and two of latencies. Each chart gets a file of its
own, and a log without a run that is ok gives none.
-/
namespace RepidBench.ChartFiles
open BaseLegend ChartAxes ChartData ChartLoaders Dictionaries LatencyCharts LogText NestedLists ResultTables Sessions Specs
open ThroughputCsv

/-! ## The charts of `main` -/

/-- `category_sort_key`. -/
def categorySortKey (category : String) : ℕ ×ₗ String :=
  toLex (["base", "hc", "cpu", "burst", "steady", "latency"].idxOf category, category)

def throughputFile (category : String) : String := "throughput_" ++ category ++ ".svg"
def tailFile (category : String) : String := "tail_99_to_100_" ++ category ++ ".svg"
def recoveryFile (category : String) : String := "recovery_" ++ category ++ ".svg"
def latencyFiles : List String := ["latency_tradeoff.svg", "latency_tradeoff_scatter.svg"]

/-- The loops of `main` over the sorted categories: the files of the charts; `none` is
    the exception of one. -/
def plotCategories {α : Type} (plot : String → Series → Option α) (file : String → String) (take : String → Bool)
    (data : CategoryData) : Option (List String) :=
  (((data.map Prod.fst).insertionSort (fun a b => categorySortKey a ≤ categorySortKey b)).filter take).mapM
    (fun category => (plot category ((data.lookup category).getD [])).map (fun _ => file category))

/-- What stands for the page in `plot_latency_tradeoff`: the heights of the axes that
    its grid has for the metrics, and what axes make of limits that are set, of which
    they widen equal ones. -/
structure Page where
  heightPts : String → ℚ
  setYlim : ℚ × ℚ → ℚ × ℚ

/-- The limits of the axes of a percentile. -/
def percentileLimits (page : Page) (plot : Plot) : ℚ × ℚ :=
  match (plot.lines.flatMap (fun line => line.2.map Prod.snd)).max? with
  | none => plot.limits
  | some top => page.setYlim (0, top * 1.22)

/-- One of the axes of `plot_latency_tradeoff`. -/
def plotLatencyMetric (page : Page) (limits : Plot → ℚ × ℚ) (data : LatencyData) (metric : String) : Option Chart := do
  let plot ← plotSeriesLabels (latencyMetricSeries data metric) true
  let labels ← addPointLabels (limits plot) (page.heightPts metric) plot.lines (sleepTimes plot.lines) false false
  return ⟨plot.lines, limits plot, plot.ends, labels⟩

/-- `plot_latency_tradeoff` and `plot_latency_tradeoff_scatter`. -/
def plotLatency (page : Page) (data : LatencyData) : Option (List String) := do
  let _ ← plotLatencyMetric page Plot.limits data "throughput_msg_per_sec"
  let _ ← ["p50_ms", "p95_ms", "p99_ms"].mapM (plotLatencyMetric page (percentileLimits page) data)
  let _ ← scatterPoints data
  return latencyFiles

/-- The latency charts of `main`, if there is a log of latencies and it has data. -/
def latencyOutputs (page : Page) (latencyName : String) : Option (List Char) → Option (List String)
  | none => some []
  | some text => do
    let loaded ← (← loadLatencyText latencyName text).toOption
    if loaded.1 = [] then some [] else plotLatency page loaded.1

/-- `outputs` of `main`, for the texts of the two logs; the one of latencies may not be there. -/
def chartFiles (page : Page) (benchmarksName latencyName : String) (benchmarks : List Char) (latency : Option (List Char)) :
    Option (List String) := do
  let throughput ← (← loadThroughputText benchmarksName benchmarks).toOption
  let throughputs ← plotCategories plotThroughputCategory throughputFile (· ≠ "latency") throughput.1
  let tail ← loadTail tailMetric benchmarks
  let tails ← plotCategories (fun _ => plotCategory) tailFile (fun _ => true) tail
  let recovery ← loadCategoryMetric "burst_recovery_seconds" (some ["burst"]) benchmarks
  let recoveries ← plotCategories (fun _ => plotCategory) recoveryFile (fun _ => true) recovery
  let latencies ← latencyOutputs page latencyName latency
  return throughputs ++ tails ++ recoveries ++ latencies

/-! ## The categories of some data -/

section
variable {α : Type u} {β : Type v} {γ : Type w} {δ : Type x} [DecidableEq α] [DecidableEq β] [DecidableEq γ]

theorem mem_keys_collect {items : List ((α × β × γ) × δ)} {key : α} :
    key ∈ (collect items).map Prod.fst ↔ ∃ item ∈ items, item.1.1 = key := by
  induction items using List.reverseRecOn with
  | nil => simp [collect]
  | append_singleton items item ih =>
    rw [collect_snoc, append, Dictionaries.update, assign_keys, ih]
    simp only [List.mem_append, List.mem_singleton]
    constructor
    · rintro (rfl | ⟨other, member, same⟩)
      · exact ⟨item, .inr rfl, rfl⟩
      · exact ⟨other, .inl member, same⟩
    · rintro ⟨other, member | rfl, same⟩
      · exact .inr ⟨other, member, same⟩
      · exact .inl same.symm

end

/-- The category has an ok run with the value. -/
def HasValue (value : Run → Option ℚ) (category : String) (runs : List Run) : Prop :=
  ∃ run ∈ runs, run.status = "ok" ∧ (splitFramework run.task.framework).2 = category ∧ (value run).isSome

theorem mem_categories {value : Run → Option ℚ} {keep : String → Bool} {runs : List Run} {category : String} :
    category ∈ (chartData value keep runs).map Prod.fst ↔ keep category = true ∧ HasValue value category runs := by
  rw [chartData, mem_keys_collect]
  constructor
  · rintro ⟨item, collected, rfl⟩
    obtain ⟨run, member, taken⟩ := List.mem_filterMap.mp collected
    obtain ⟨ok, kept, key, found⟩ := chartItem_eq_some.mp taken
    rw [← key]
    exact ⟨kept, run, member, ok, rfl, Option.isSome_iff_exists.mpr ⟨_, found⟩⟩
  · rintro ⟨kept, run, member, ok, rfl, present⟩
    obtain ⟨y, found⟩ := Option.isSome_iff_exists.mp present
    refine ⟨(chartKey run.task.toCell, y), List.mem_filterMap.mpr ⟨run, member, ?_⟩, rfl⟩
    exact chartItem_eq_some.mpr ⟨ok, kept, rfl, found⟩

/-- Of collected data every category is drawn, if its lines can be. -/
theorem plotCategories_chartData {α : Type} {plot : String → Series → Option α} (file : String → String) (take : String → Bool)
    {value : Run → Option ℚ} {keep : String → Bool} {runs : List Run}
    (plots : ∀ category lines, plotSeries (((chartData value keep runs).lookup category).getD []) = some lines →
      ∃ drawing, plot category (((chartData value keep runs).lookup category).getD []) = some drawing) :
    ∃ files : List String, plotCategories plot file take (chartData value keep runs) = some (files.map file) ∧ files.Nodup ∧
      ∀ category, category ∈ files ↔ take category = true ∧ keep category = true ∧ HasValue value category runs := by
  refine ⟨_, mapM_eq_map (fun category _ => ?_), ?_, fun category => ?_⟩
  · obtain ⟨lines, series, -⟩ := draws_chartData value keep runs category
    obtain ⟨drawing, drawn⟩ := plots category lines series
    rw [drawn, Option.map_some]
  · refine ((List.perm_insertionSort _ _).nodup_iff.mpr ?_).filter take
    exact (populated_collect _).keys
  · rw [List.mem_filter, List.mem_insertionSort, mem_categories, and_comm]

/-! ## The files -/

theorem file_injective (start : String) : Function.Injective (fun category => start ++ category ++ ".svg") := by
  intro a b same
  have texts := congrArg String.toList same
  simp only [String.toList_append, List.append_assoc, List.append_cancel_left_eq, List.append_cancel_right_eq] at texts
  exact String.toList_injective texts

/-- Files of two kinds have different names. -/
theorem file_ne {start other : String} (differ : ¬ start.toList <+: other.toList) (differ' : ¬ other.toList <+: start.toList)
    (category category' : String) : start ++ category ++ ".svg" ≠ other ++ category' ++ ".svg" := by
  intro same
  have texts := congrArg String.toList same
  simp only [String.toList_append, List.append_assoc] at texts
  have first : start.toList <+: other.toList ++ (category'.toList ++ ".svg".toList) := ⟨_, texts⟩
  rcases List.prefix_or_prefix_of_prefix first (List.prefix_append _ _) with inside | inside
  · exact differ inside
  · exact differ' inside

theorem named_map (start : String) (categories : List String) :
    ∀ file ∈ categories.map (fun category => start ++ category ++ ".svg"), ∃ category, file = start ++ category ++ ".svg" := by
  intro file member
  obtain ⟨category, -, rfl⟩ := List.mem_map.mp member
  exact ⟨category, rfl⟩

/-- No file is in two groups, when no start of their names begins another. -/
theorem nodup_groups {groups : List (String × List String)}
    (starts : (groups.map Prod.fst).Pairwise (fun a b => ¬ a.toList <+: b.toList ∧ ¬ b.toList <+: a.toList))
    (nodup : ∀ group ∈ groups, group.2.Nodup)
    (named : ∀ group ∈ groups, ∀ file ∈ group.2, ∃ category, file = group.1 ++ category ++ ".svg") :
    (groups.flatMap Prod.snd).Nodup := by
  refine List.nodup_flatMap.mpr ⟨nodup, (List.pairwise_map.mp starts).imp_of_mem (fun {a b} inA inB apart => ?_)⟩
  intro file first second
  obtain ⟨category, rfl⟩ := named a inA file first
  obtain ⟨category', same⟩ := named b inB _ second
  exact file_ne apart.1 apart.2 category category' same

theorem drawn_latency {items : List ((String × ℚ × String) × ℚ)} {metric : String} {lines : Lines}
    (series : plotSeries (latencyMetricSeries (collect items) metric) = some lines) : Drawn lines := by
  have frameworks : (latencyMetricSeries (collect items) metric).map Prod.fst = (collect items).map Prod.fst := by
    rw [latencyMetricSeries, List.map_map]
    rfl
  rcases populated_collect items with none | filled
  · rw [none] at series
    exact @drawn_of_series [] List.nodup_nil (List.forall_mem_nil _) (List.forall_mem_nil _) lines series
  · refine drawn_of_series (frameworks ▸ filled.keys) (fun own member => ?_) (fun own member => ?_) series
    · obtain ⟨entry, inData, rfl⟩ := List.mem_map.mp member
      exact fun empty => (filled.values entry inData).present (List.map_eq_nil_iff.mp empty)
    · obtain ⟨entry, inData, rfl⟩ := List.mem_map.mp member
      rw [List.map_map]
      exact (filled.values entry inData).keys

section
variable {runs : List Run} (latency : ∀ run ∈ runs, isLatency run.task.framework)
  (rate : ∀ run ∈ runs, run.status = "ok" → run.throughput.isSome) (sleeps : ∀ run ∈ runs, run.task.sleepTime ≠ 0)
include latency rate sleeps

theorem plotLatencyMetric_drawn (page : Page) (limits : Plot → ℚ × ℚ) {metric : String} (known : metric ∈ latencyMetrics) :
    ∃ chart, plotLatencyMetric page limits (collect (runs.flatMap latencyItems)) metric = some chart := by
  obtain ⟨lines, series, points⟩ := plot_latency_metric latency rate known
  have drawn := drawn_latency series
  have nonzero : ∀ time ∈ sleepTimes lines, time ≠ 0 := by
    intro time member
    obtain ⟨point, inLines, rfl⟩ := mem_sleepTimes.mp member
    obtain ⟨line, inData, same, inside⟩ := mem_pointsOf.mp inLines
    obtain ⟨cell, ⟨-, -, time, run, inRuns, own, -⟩, -⟩ :=
      (points line.1 point.2.1 point.2.2).mp ⟨line.2, inData, inside⟩
    rw [← time, ← own]
    exact sleeps run inRuns
  obtain ⟨plot, plotted, rfl, -⟩ := plotSeriesLabels_readable series drawn true
  obtain ⟨labels, labelled⟩ : ∃ labels, addPointLabels (limits plot) (page.heightPts metric) plot.lines
      (sleepTimes plot.lines) false false = some labels := by
    by_cases range : 0 < (limits plot).2 - (limits plot).1
    · have without : false = true → theoreticalKey ∉ plot.lines.map Prod.fst := fun wrong => nomatch wrong
      obtain ⟨labels, labelled, -⟩ := addPointLabels_eq drawn nonzero without range (page.heightPts metric) false
      exact ⟨labels, labelled⟩
    · exact ⟨[], dif_neg range⟩
  refine ⟨⟨plot.lines, limits plot, plot.ends, labels⟩, ?_⟩
  simp only [plotLatencyMetric, plotted, labelled, Option.bind_eq_bind, Option.bind_some, Option.pure_def]

/-- The latency charts of a log. -/
theorem plotLatency_collect (page : Page) :
    plotLatency page (collect (runs.flatMap latencyItems)) = some latencyFiles := by
  have each := fun limits metric (known : metric ∈ latencyMetrics) =>
    plotLatencyMetric_drawn latency rate sleeps page limits known
  obtain ⟨first, plotted⟩ := each Plot.limits "throughput_msg_per_sec" (by decide)
  obtain ⟨p50, plotted50⟩ := each (percentileLimits page) "p50_ms" (by decide)
  obtain ⟨p95, plotted95⟩ := each (percentileLimits page) "p95_ms" (by decide)
  obtain ⟨p99, plotted99⟩ := each (percentileLimits page) "p99_ms" (by decide)
  obtain ⟨clouds, drawn, -⟩ := scatter_latency latency rate
  rw [plotLatency, plotted, drawn]
  simp only [List.mapM_cons, List.mapM_nil, plotted50, plotted95, plotted99]
  rfl

end

theorem collect_latency_eq_nil {runs : List Run} :
    collect (runs.flatMap latencyItems) = [] ↔ ∀ run ∈ runs, run.status ≠ "ok" := by
  have empty : collect (runs.flatMap latencyItems) = [] ↔ runs.flatMap latencyItems = [] := by
    constructor
    · intro none
      by_contra present
      obtain ⟨item, member⟩ := List.exists_mem_of_ne_nil _ present
      have key := mem_keys_collect.mpr ⟨item, member, rfl⟩
      rw [none] at key
      cases key
    · intro none
      rw [none]
      rfl
  rw [empty, List.flatMap_eq_nil_iff]
  constructor
  · intro none run member ok
    have items := none run member
    rw [latencyItems, if_pos ok] at items
    have p50 := List.filterMap_eq_nil_iff.mp items "p50_ms" (by decide)
    cases p50
  · intro failed run member
    rw [latencyItems, if_neg (failed run member)]

/-- A log of latency runs: its benchmarks are latency benchmarks that sleep, its ok runs
    have a throughput, and it can be read. -/
structure LatencyLog (str : ℚ → String) where
  runs : List Run
  latency : ∀ run ∈ runs, isLatency run.task.framework
  rate : ∀ run ∈ runs, run.status = "ok" → run.throughput.isSome
  sleeps : ∀ run ∈ runs, run.task.sleepTime ≠ 0
  printed : ∀ run ∈ runs, Decimal.readNumber (str run.task.sleepTime).toList = some run.task.sleepTime
  fit : FieldsFit (latencyRecords str runs)

def LatencyLog.text {str : ℚ → String} (log : LatencyLog str) : List Char := logText (latencyRecords str log.runs)

/-- The latency charts that `main` writes of a log, if there is one. -/
theorem latency_outputs {str : ℚ → String} (page : Page) (latencyName : String) (log : Option (LatencyLog str)) :
    ∃ latencies, latencyOutputs page latencyName (log.map LatencyLog.text) = some latencies ∧
      (latencies = [] ∨ latencies = latencyFiles) ∧
      ∀ file, file ∈ latencies ↔ (∃ own ∈ log, ∃ run ∈ own.runs, run.status = "ok") ∧ file ∈ latencyFiles := by
  cases log with
  | none => exact ⟨[], rfl, .inl rfl, fun file => by simp⟩
  | some own =>
    obtain ⟨attempted, loaded, -⟩ := loadLatency_records latencyName own.printed
    have text : loadLatencyText latencyName own.text = some (.ok (collect (own.runs.flatMap latencyItems), attempted)) := by
      rw [loadLatencyText, LatencyLog.text, readRecords_logText own.fit, Option.map_some, loaded]
    simp only [latencyOutputs, Option.map_some, text, Option.bind_eq_bind, Option.bind_some, Except.toOption, Option.mem_some_iff,
      exists_eq_left']
    by_cases none : collect (own.runs.flatMap latencyItems) = []
    · refine ⟨[], if_pos none, .inl rfl, fun file => ?_⟩
      have failed := collect_latency_eq_nil.mp none
      simp only [List.not_mem_nil, false_iff, not_and]
      rintro ⟨run, member, ok⟩
      exact absurd ok (failed run member)
    · refine ⟨latencyFiles, ?_, .inr rfl, fun file => ?_⟩
      · rw [if_neg none]
        exact plotLatency_collect own.latency own.rate own.sleeps page
      · refine (and_iff_right ?_).symm
        by_contra absent
        exact none (collect_latency_eq_nil.mpr (fun run member ok => absent ⟨run, member, ok⟩))

/-- Any runs that sleep can be drawn. -/
theorem plotCategory_chartData {value : Run → Option ℚ} {keep : String → Bool} {runs : List Run}
    (sleeps : ∀ run ∈ runs, run.task.sleepTime ≠ 0) {category : String} {lines : Lines}
    (series : plotSeries (((chartData value keep runs).lookup category).getD []) = some lines) :
    ∃ chart, plotCategory (((chartData value keep runs).lookup category).getD []) = some chart := by
  have drawn := drawn_of_populated (populated_collect _) series
  obtain ⟨chart, plotted, -⟩ := plotCategory_readable series drawn (sleepTimes_ne_zero series sleeps)
  exact ⟨chart, plotted⟩

/-- For the logs of any runs that sleep: `main` raises nothing, writes no file twice,
    and writes exactly these: throughput for each category but latency with an ok run
    that has one, tails for each category but steady with an ok run that has one,
    recovery when an ok burst run has one, and the latency charts when there is an ok
    latency run. -/
theorem charts_written (str : ℚ → String) (page : Page) (benchmarksName latencyName : String) (logged : List (Args × Run))
    (log : Option (LatencyLog str)) (sleeps : ∀ entry ∈ logged, entry.2.task.sleepTime ≠ 0)
    (named : ∀ entry ∈ logged, entry.2.task.framework ≠ theoreticalKey)
    (printed : ∀ entry ∈ logged, Decimal.readNumber (str entry.2.task.sleepTime).toList = some entry.2.task.sleepTime)
    (fit : FieldsFit (csvRecords str logged)) :
    ∃ outputs, chartFiles page benchmarksName latencyName (logText (csvRecords str logged)) (log.map LatencyLog.text) =
        some outputs ∧ outputs.Nodup ∧ ∀ file, file ∈ outputs ↔
      (∃ category, category ≠ "latency" ∧
        HasValue (fun run => run.throughput.map (Decimal.rounded 2)) category (logged.map Prod.snd) ∧
        file = throughputFile category) ∨
      (∃ category, category ≠ "steady" ∧ HasValue (fun run => run.column tailMetric) category (logged.map Prod.snd) ∧
        file = tailFile category) ∨
      (HasValue (fun run => run.column "burst_recovery_seconds") "burst" (logged.map Prod.snd) ∧
        file = recoveryFile "burst") ∨
      ((∃ own ∈ log, ∃ run ∈ own.runs, run.status = "ok") ∧ file ∈ latencyFiles) := by
  have read := readRecords_logText fit
  have throughput : loadThroughputText benchmarksName (logText (csvRecords str logged)) =
      some (.ok ((loggedRows logged).foldl addRow ([], []))) := by
    rw [loadThroughputText, read, Option.map_some, loadThroughput_records benchmarksName printed]
  have metric : ∀ metric ∈ secondsColumns, ∀ keep, (readRecords (logText (csvRecords str logged))).bind (loadMetric metric keep) =
      some (chartData (fun run => run.column metric) keep (logged.map Prod.snd)) := by
    intro metric column keep
    rw [read, Option.bind_some, loadMetric_records printed column]
  have runsSleep : ∀ run ∈ logged.map Prod.snd, run.task.sleepTime ≠ 0 := List.forall_mem_map.mpr sleeps
  have runsNamed : ∀ run ∈ logged.map Prod.snd, run.task.framework ≠ theoreticalKey := List.forall_mem_map.mpr named
  obtain ⟨first, firstFiles, firstNodup, inFirst⟩ := @plotCategories_chartData _ plotThroughputCategory throughputFile
    (· ≠ "latency") (fun run => run.throughput.map (Decimal.rounded 2)) (fun _ => true) (logged.map Prod.snd)
    (fun category lines series => by
      refine plotThroughputCategory_drawn series (drawn_of_populated (populated_collect _) series)
        (sleepTimes_ne_zero series runsSleep) (fun base member => ?_)
      obtain ⟨run, inRuns, same⟩ := exists_run_of_base series base member
      exact runsNamed run inRuns same)
  obtain ⟨second, secondFiles, secondNodup, inSecond⟩ := @plotCategories_chartData _ (fun _ => plotCategory) tailFile
    (fun _ => true) (fun run => run.column tailMetric) (· ≠ "steady") (logged.map Prod.snd)
    (fun _ _ series => plotCategory_chartData runsSleep series)
  obtain ⟨third, thirdFiles, thirdNodup, inThird⟩ := @plotCategories_chartData _ (fun _ => plotCategory) recoveryFile
    (fun _ => true) (fun run => run.column "burst_recovery_seconds") (fun category => (some ["burst"]).all (category ∈ ·))
    (logged.map Prod.snd) (fun _ _ series => plotCategory_chartData runsSleep series)
  obtain ⟨latencies, latencyDrawn, shape, inLatencies⟩ := latency_outputs page latencyName log
  refine ⟨first.map throughputFile ++ second.map tailFile ++ third.map recoveryFile ++ latencies, ?_, ?_, fun file => ?_⟩
  · rw [← loadThroughput_data] at firstFiles
    simp only [chartFiles, throughput, loadTail, loadCategoryMetric, metric tailMetric (by decide),
      metric "burst_recovery_seconds" (by decide), Except.toOption, Option.bind_eq_bind, Option.bind_some, firstFiles,
      secondFiles, thirdFiles, latencyDrawn]
    rfl
  · have latencyNodup : latencies.Nodup := by
      rcases shape with rfl | rfl
      · exact List.nodup_nil
      · decide
    have latencyNamed : ∀ file ∈ latencies, ∃ category, file = "latency_" ++ category ++ ".svg" := by
      intro file member
      have known := ((inLatencies file).mp member).2
      simp only [latencyFiles, List.mem_cons, List.not_mem_nil, or_false] at known
      rcases known with rfl | rfl
      · exact ⟨"tradeoff", rfl⟩
      · exact ⟨"tradeoff_scatter", rfl⟩
    have starts : ["throughput_", "tail_99_to_100_", "recovery_", "latency_"].Pairwise
        (fun a b => ¬ a.toList <+: b.toList ∧ ¬ b.toList <+: a.toList) := by decide
    have groups := @nodup_groups [("throughput_", first.map throughputFile), ("tail_99_to_100_", second.map tailFile),
      ("recovery_", third.map recoveryFile), ("latency_", latencies)] starts
    simp only [List.forall_mem_cons, List.not_mem_nil, false_implies, implies_true, and_true, List.flatMap_cons,
      List.flatMap_nil, List.append_nil, ← List.append_assoc] at groups
    exact groups ⟨firstNodup.map (file_injective "throughput_"), secondNodup.map (file_injective "tail_99_to_100_"),
        thirdNodup.map (file_injective "recovery_"), latencyNodup⟩
      ⟨named_map "throughput_" first, named_map "tail_99_to_100_" second, named_map "recovery_" third, latencyNamed⟩
  · simp only [List.mem_append, List.mem_map, inFirst, inSecond, inThird, inLatencies, decide_eq_true_eq, true_and,
      Option.all_some, List.mem_singleton]
    constructor
    · rintro (((⟨category, ⟨other, present⟩, rfl⟩ | ⟨category, ⟨other, present⟩, rfl⟩) | ⟨category, ⟨rfl, present⟩, rfl⟩) | latency)
      · exact .inl ⟨category, other, present, rfl⟩
      · exact .inr (.inl ⟨category, other, present, rfl⟩)
      · exact .inr (.inr (.inl ⟨present, rfl⟩))
      · exact .inr (.inr (.inr latency))
    · rintro (⟨category, other, present, rfl⟩ | ⟨category, other, present, rfl⟩ | ⟨present, rfl⟩ | latency)
      · exact .inl (.inl (.inl ⟨category, ⟨other, present⟩, rfl⟩))
      · exact .inl (.inl (.inr ⟨category, ⟨other, present⟩, rfl⟩))
      · exact .inl (.inr ⟨"burst", ⟨rfl, present⟩, rfl⟩)
      · exact .inr latency

/-- The log of three runs, of which two are ok. -/
def threeLatencies : LatencyLog (Decimal.fixed 1) where
  runs := latencyRuns
  latency := by decide +kernel
  rate := by decide +kernel
  sleeps := by decide +kernel
  printed := by decide +kernel
  fit := by
    unfold FieldsFit
    decide +kernel

/-- Axes that widen equal limits. -/
def widening : Page := ⟨fun _ => 200, fun limits => if limits.1 = limits.2 then (limits.1 - 1, limits.2 + 1) else limits⟩

theorem charts_written_burst : ∃ outputs,
    chartFiles widening "benchmarks_results.csv" "latency_results.csv" (logText (csvRecords (Decimal.fixed 1) burstRuns))
        (some threeLatencies.text) = some outputs ∧
      "recovery_burst.svg" ∈ outputs ∧ "latency_tradeoff.svg" ∈ outputs := by
  have printed : ∀ entry ∈ burstRuns,
      Decimal.readNumber (Decimal.fixed 1 entry.2.task.sleepTime).toList = some entry.2.task.sleepTime := by
    decide +kernel
  have fit : FieldsFit (csvRecords (Decimal.fixed 1) burstRuns) := by
    unfold FieldsFit
    decide +kernel
  obtain ⟨outputs, written, -, exactly⟩ := charts_written (Decimal.fixed 1) widening "benchmarks_results.csv"
    "latency_results.csv" burstRuns (some threeLatencies) (by decide +kernel) (by decide +kernel) printed fit
  have recovered : HasValue (fun run => run.column "burst_recovery_seconds") "burst" (burstRuns.map Prod.snd) := by
    unfold HasValue
    decide +kernel
  have ok : ∃ run ∈ threeLatencies.runs, run.status = "ok" := by decide +kernel
  refine ⟨outputs, written, (exactly _).mpr (.inr (.inr (.inl ⟨recovered, rfl⟩))), ?_⟩
  exact (exactly _).mpr (.inr (.inr (.inr ⟨⟨threeLatencies, rfl, ok⟩, List.mem_cons_self⟩)))

end RepidBench.ChartFiles
