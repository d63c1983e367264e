import Mathlib.Data.Prod.Lex
import Mathlib.Data.String.Basic
import RepidBench.LogText
import RepidBench.NestedLists
import RepidBench.ResultTables

/-!
From the text of `benchmarks_results.csv` to the points that `plot_series` draws: the
loaders of `plot_benchmarks.py` collect the values of the ok rows, `load_tail` and
`load_category_metric` of some categories only, and every point is the mean of the
values of one benchmark at one sleep time. A mean of nothing is never taken.
-/
namespace RepidBench.ChartLoaders
open ChartData Dictionaries LogText NestedLists ResultTables Sessions ThroughputCsv

/-! ## Loaders -/

/-- The body of the loop of `load_tail` and of `load_category_metric`, which differ in
    the categories that they keep. -/
def loadMetricRow (metric : String) (keep : String → Bool) (data : CategoryData) (row : DictRow) : Option CategoryData := do
  let series := splitFramework (← field row "framework")
  if !keep series.2 then return data
  let status := getField row "status" (some "ok")
  if status = some "ok" ∧ truthy (getField row metric (some "")) then
    let sleepTime ← floatField row "sleep_time"
    let value ← floatField row metric
    return appendThroughput data series sleepTime value
  else
    return data

/-- The file as a table with this metric; one without the columns has no data. -/
def loadMetric (metric : String) (keep : String → Bool) (records : List (List String)) : Option CategoryData :=
  if ["framework", "sleep_time", metric].all (· ∈ fieldnames records) then
    (dictRows records).foldlM (loadMetricRow metric keep) []
  else some []

/-- The default metric of `load_tail`. -/
def tailMetric : String := "tail_99_to_100_seconds"

/-- `load_tail` of the text of a file. -/
def loadTail (metric : String) (text : List Char) : Option CategoryData :=
  (readRecords text).bind (loadMetric metric (· ≠ "steady"))

/-- `load_category_metric` of the text of a file. -/
def loadCategoryMetric (metric : String) (categoryFilter : Option (List String)) (text : List Char) :
    Option CategoryData :=
  (readRecords text).bind (loadMetric metric (fun category => categoryFilter.all (category ∈ ·)))

/-! ## Points -/

/-- `average`; `none` is the `StatisticsError` for no values. -/
def average (values : List ℚ) : Option ℚ := if values = [] then none else some (mean values)

/-- `FRAMEWORK_ORDER`. -/
def frameworkOrder : List String :=
  ["repid", "faststream", "dramatiq", "dramatiq_nogt", "taskiq", "celery", "celery_nogt"]

/-- `framework_sort_key`. -/
def frameworkSortKey (framework : String) : ℕ ×ₗ String := toLex (frameworkOrder.idxOf framework, framework)

/-- The loops over the sorted frameworks and over the sorted sleep times of each, with
    what is computed at a place. -/
def drawLines {β γ : Type} (point : β → Option γ) (data : List (String × List (ℚ × β))) :
    Option (List (String × List (ℚ × γ))) :=
  (data.insertionSort (fun a b => frameworkSortKey a.1 ≤ frameworkSortKey b.1)).mapM (fun line =>
    ((line.2.insertionSort (fun a b => a.1 ≤ b.1)).mapM (fun place =>
      (point place.2).map (fun y => (place.1, y)))).map (fun points => (line.1, points)))

/-- The lines that `plot_series` draws, with their points. -/
def plotSeries (data : Series) : Option (List (String × List (ℚ × ℚ))) := drawLines average data

/-- Where every place has a point these are drawn, and no others. -/
theorem drawLines_eq {β γ : Type} {point : β → Option γ} {f : β → γ} {data : List (String × List (ℚ × β))}
    (each : ∀ line ∈ data, ∀ place ∈ line.2, point place.2 = some (f place.2)) :
    ∃ lines, drawLines point data = some lines ∧
      ∀ framework x y, (∃ points, (framework, points) ∈ lines ∧ (x, y) ∈ points) ↔
        ∃ line value, (framework, line) ∈ data ∧ (x, value) ∈ line ∧ y = f value := by
  let drawn (line : String × List (ℚ × β)) : String × List (ℚ × γ) :=
    (line.1, (line.2.insertionSort (fun a b => a.1 ≤ b.1)).map (fun place => (place.1, f place.2)))
  refine ⟨(data.insertionSort (fun a b => frameworkSortKey a.1 ≤ frameworkSortKey b.1)).map drawn, ?_, ?_⟩
  · refine mapM_eq_map (fun line inData => ?_)
    have points : (line.2.insertionSort (fun a b => a.1 ≤ b.1)).mapM
        (fun place => (point place.2).map (fun y => (place.1, y))) = some (drawn line).2 := by
      refine mapM_eq_map (fun place inLine => ?_)
      rw [each line ((List.mem_insertionSort _).mp inData) place ((List.mem_insertionSort _).mp inLine)]
      rfl
    rw [points]
    rfl
  · intro framework x y
    constructor
    · rintro ⟨points, inLines, inPoints⟩
      obtain ⟨line, inData, same⟩ := List.mem_map.mp inLines
      obtain ⟨rfl, rfl⟩ := Prod.mk.inj same
      obtain ⟨place, inLine, same⟩ := List.mem_map.mp inPoints
      obtain ⟨rfl, rfl⟩ := Prod.mk.inj same
      exact ⟨line.2, place.2, (List.mem_insertionSort _).mp inData, (List.mem_insertionSort _).mp inLine, rfl⟩
    · rintro ⟨line, value, inData, inLine, rfl⟩
      refine ⟨_, List.mem_map.mpr ⟨_, (List.mem_insertionSort _).mpr inData, rfl⟩, ?_⟩
      exact List.mem_map.mpr ⟨_, (List.mem_insertionSort _).mpr inLine, rfl⟩

/-- The lines have the frameworks and the sleep times of the data. -/
theorem drawLines_keys {β γ : Type} {point : β → Option γ} {data : List (String × List (ℚ × β))}
    {lines : List (String × List (ℚ × γ))} (drawn : drawLines point data = some lines) :
    (lines.map Prod.fst).Perm (data.map Prod.fst) ∧
      ∀ line ∈ lines, ∃ own ∈ data, (line.2.map Prod.fst).Perm (own.2.map Prod.fst) := by
  constructor
  · rw [map_of_mapM drawn (fun own line computed => ?_)]
    · exact (List.perm_insertionSort _ _).map Prod.fst
    · obtain ⟨points, -, rfl⟩ := Option.map_eq_some_iff.mp computed
      rfl
  · intro line member
    obtain ⟨own, inData, computed⟩ := exists_of_mapM drawn member
    obtain ⟨points, places, rfl⟩ := Option.map_eq_some_iff.mp computed
    refine ⟨own, (List.mem_insertionSort _).mp inData, ?_⟩
    rw [map_of_mapM places (fun place point computed => ?_)]
    · exact (List.perm_insertionSort _ _).map Prod.fst
    · obtain ⟨y, -, rfl⟩ := Option.map_eq_some_iff.mp computed
      rfl

/-- What is drawn of data without empty places: the mean of every list, at its keys. -/
theorem plotSeries_populated {data : CategoryData} (populated : Populated data) (category : String) :
    ∃ lines, plotSeries ((data.lookup category).getD []) = some lines ∧
      ∀ framework x y, (∃ points, (framework, points) ∈ lines ∧ (x, y) ∈ points) ↔
        NestedLists.held data (category, framework, x) ≠ [] ∧
          y = mean (NestedLists.held data (category, framework, x)) := by
  have each : ∀ line ∈ (data.lookup category).getD [], ∀ place ∈ line.2, average place.2 = some (mean place.2) := by
    intro line inSeries place inLine
    exact if_neg ((populated.mem_iff category line.1 place.1 place.2).mp ⟨line.2, inSeries, inLine⟩).2
  obtain ⟨lines, drawn, points⟩ := drawLines_eq each
  refine ⟨lines, drawn, fun framework x y => (points framework x y).trans ?_⟩
  constructor
  · rintro ⟨line, values, inSeries, inLine, rfl⟩
    obtain ⟨rfl, filled⟩ := (populated.mem_iff category framework x values).mp ⟨line, inSeries, inLine⟩
    exact ⟨filled, rfl⟩
  · rintro ⟨filled, rfl⟩
    obtain ⟨line, inSeries, inLine⟩ := (populated.mem_iff category framework x _).mpr ⟨rfl, filled⟩
    exact ⟨line, _, inSeries, inLine, rfl⟩

/-! ## What is collected -/

/-- The values that the ok runs of a cell have. -/
def okValues (value : Run → Option ℚ) (cell : Cell) (runs : List Run) : List ℚ :=
  runs.filterMap (fun run => if run.task.toCell = cell ∧ run.status = "ok" then value run else none)

/-- The category, the framework and the sleep time of a cell. -/
def chartKey (cell : Cell) : String × String × ℚ :=
  ((splitFramework cell.framework).2, (splitFramework cell.framework).1, cell.sleepTime)

theorem chartKey_injective : Function.Injective chartKey := by
  intro a b same
  obtain ⟨category, framework, time⟩ : _ ∧ _ ∧ _ := by simpa only [chartKey, Prod.mk.injEq] using same
  exact congrArg₂ Cell.mk (splitFramework_injective (Prod.ext framework category)) time

/-- What a loader collects of a run. -/
def chartItem (value : Run → Option ℚ) (keep : String → Bool) (run : Run) : Option ((String × String × ℚ) × ℚ) :=
  if run.status = "ok" ∧ keep (chartKey run.task.toCell).1 then
    (value run).map (fun y => (chartKey run.task.toCell, y))
  else none

/-- The data of the charts of some runs. -/
def chartData (value : Run → Option ℚ) (keep : String → Bool) (runs : List Run) : CategoryData :=
  collect (runs.filterMap (chartItem value keep))

theorem chartItem_eq_some {value : Run → Option ℚ} {keep : String → Bool} {run : Run} {key : String × String × ℚ} {y : ℚ} :
    chartItem value keep run = some (key, y) ↔
      run.status = "ok" ∧ keep (chartKey run.task.toCell).1 = true ∧ chartKey run.task.toCell = key ∧ value run = some y := by
  unfold chartItem
  split_ifs with taken
  · simp [taken, and_comm]
  · simpa using fun ok kept => absurd ⟨ok, kept⟩ taken

/-- Under the key of a cell are the values of its ok runs. -/
theorem held_chartData (value : Run → Option ℚ) (keep : String → Bool) (runs : List Run) (cell : Cell) :
    NestedLists.held (chartData value keep runs) (chartKey cell) =
      if keep (chartKey cell).1 then okValues value cell runs else [] := by
  rw [chartData, held_collect, List.filterMap_filterMap]
  by_cases kept : keep (chartKey cell).1 = true
  · rw [if_pos kept, okValues]
    refine List.filterMap_congr (fun run _ => ?_)
    by_cases same : run.task.toCell = cell
    · subst same
      by_cases ok : run.status = "ok"
      · cases found : value run <;> simp [chartItem, kept, ok, found]
      · simp [chartItem, ok]
    · rw [if_neg (fun both => same both.1)]
      cases taken : chartItem value keep run with
      | none => rfl
      | some item =>
        obtain ⟨-, -, key, -⟩ := chartItem_eq_some.mp taken
        rw [Option.bind_some, if_neg]
        exact fun keys => same (chartKey_injective (key.trans keys))
  · rw [if_neg kept, List.filterMap_eq_nil_iff]
    intro run _
    cases taken : chartItem value keep run with
    | none => rfl
    | some item =>
      obtain ⟨-, keeps, key, -⟩ := chartItem_eq_some.mp taken
      rw [Option.bind_some, if_neg]
      exact fun keys => kept (keys ▸ key ▸ keeps)

/-- What is held at all is held under the key of a cell. -/
theorem held_chartData_key {value : Run → Option ℚ} {keep : String → Bool} {runs : List Run} {key : String × String × ℚ}
    (present : NestedLists.held (chartData value keep runs) key ≠ []) : ∃ cell, chartKey cell = key := by
  rw [chartData, held_collect] at present
  obtain ⟨y, inside⟩ := List.exists_mem_of_ne_nil _ present
  obtain ⟨item, collected, same⟩ := List.mem_filterMap.mp inside
  obtain ⟨run, -, taken⟩ := List.mem_filterMap.mp collected
  split_ifs at same with keys
  obtain ⟨-, -, key, -⟩ := chartItem_eq_some.mp taken
  exact ⟨run.task.toCell, key.trans keys⟩

/-- The points that are drawn of some data are the means of the cells of the runs, and
    all of them. -/
def Draws (data : CategoryData) (keep : String → Bool) (value : Run → Option ℚ) (runs : List Run) : Prop :=
  ∀ category, ∃ lines, plotSeries ((data.lookup category).getD []) = some lines ∧
    ∀ framework x y, (∃ points, (framework, points) ∈ lines ∧ (x, y) ∈ points) ↔
      ∃ cell, chartKey cell = (category, framework, x) ∧ keep category = true ∧
        okValues value cell runs ≠ [] ∧ y = mean (okValues value cell runs)

theorem draws_chartData (value : Run → Option ℚ) (keep : String → Bool) (runs : List Run) :
    Draws (chartData value keep runs) keep value runs := by
  intro category
  obtain ⟨lines, drawn, points⟩ := plotSeries_populated (populated_collect (runs.filterMap (chartItem value keep))) category
  refine ⟨lines, drawn, fun framework x y => (points framework x y).trans ?_⟩
  rw [← chartData]
  constructor
  · rintro ⟨present, rfl⟩
    obtain ⟨cell, key⟩ := held_chartData_key present
    rw [← key, held_chartData] at present ⊢
    by_cases kept : keep (chartKey cell).1 = true
    · rw [if_pos kept] at present ⊢
      have category : (chartKey cell).1 = category := congrArg Prod.fst key
      exact ⟨cell, rfl, category ▸ kept, present, rfl⟩
    · exact absurd (if_neg kept) present
  · rintro ⟨cell, key, kept, present, rfl⟩
    have same := held_chartData value keep runs cell
    rw [key, if_pos kept] at same
    rw [same]
    exact ⟨present, rfl⟩

/-! ## From the file to the points -/

/-- The columns that are seconds with four decimals, named as in the result. -/
def secondsColumns : List String := [
  "duration_seconds", "tail_95_to_100_seconds", "tail_98_to_100_seconds", "tail_99_to_100_seconds",
  "tail_995_to_100_seconds", "burst_publish_seconds", "burst_recovery_seconds"]

section
variable {str : ℚ → String}

theorem dictRowOf_seconds (entry : Args × Run) {metric : String} (column : metric ∈ secondsColumns) :
    (dictRowOf str entry).lookup metric = some (some (columnText entry.2 4 metric)) := by
  have distinct : throughputCsvHeader.Nodup := by decide
  rw [dictRowOf]
  simp only [secondsColumns, List.mem_cons, List.not_mem_nil, or_false] at column
  rcases column with rfl | rfl | rfl | rfl | rfl | rfl | rfl
  · exact dictRow_lookup distinct 7 rfl rfl
  · exact dictRow_lookup distinct 8 rfl rfl
  · exact dictRow_lookup distinct 9 rfl rfl
  · exact dictRow_lookup distinct 10 rfl rfl
  · exact dictRow_lookup distinct 11 rfl rfl
  · exact dictRow_lookup distinct 12 rfl rfl
  · exact dictRow_lookup distinct 13 rfl rfl

/-- A row adds what is collected of its run. -/
theorem loadMetricRow_read {entry : Args × Run}
    (printed : Decimal.readNumber (str entry.2.task.sleepTime).toList = some entry.2.task.sleepTime) {metric : String}
    (column : metric ∈ secondsColumns) (keep : String → Bool) (data : CategoryData) :
    loadMetricRow metric keep data (dictRowOf str entry) =
      some ((chartItem (fun run => run.column metric) keep entry.2).elim data (fun item => append data item.1 item.2)) := by
  obtain ⟨framework, sleepTime, -, status, -⟩ := dictRowOf_lookup str entry
  have seconds : (dictRowOf str entry).lookup metric = some (some (columnText entry.2 4 metric)) :=
    dictRowOf_seconds entry column
  have name : field (dictRowOf str entry) "framework" = some entry.2.task.framework := by rw [field, framework]; rfl
  have time : floatField (dictRowOf str entry) "sleep_time" = some entry.2.task.sleepTime := by
    rw [floatField, field, sleepTime, Option.join_some, Option.bind_some, printed]
  have own : getField (dictRowOf str entry) "status" (some "ok") = some entry.2.status := by rw [getField, status]; rfl
  have text : getField (dictRowOf str entry) metric (some "") = some (columnText entry.2 4 metric) := by
    rw [getField, seconds]
    rfl
  simp only [loadMetricRow, name, own, text, Option.bind_eq_bind, Option.bind_some, Option.some.injEq, chartItem, chartKey]
  by_cases kept : keep (splitFramework entry.2.task.framework).2 = true
  · by_cases ok : entry.2.status = "ok"
    · cases found : entry.2.outcome.number metric with
      | none => simp [kept, columnText, found, truthy, Run.column]
      | some y =>
        have value : floatField (dictRowOf str entry) metric = some (Decimal.rounded 4 y) := by
          rw [floatField, field, seconds, Option.join_some, Option.bind_some, columnText, found]
          exact Decimal.readNumber_fixed (by decide) y
        simp [kept, ok, columnText, found, truthy, fixed_ne_empty, Run.column, time, value, append, appendThroughput]
    · simp [ok]
  · simp [kept]

/-- The loop over the rows of the log collects what its runs have. -/
theorem loadMetric_records {logged : List (Args × Run)}
    (printed : ∀ entry ∈ logged, Decimal.readNumber (str entry.2.task.sleepTime).toList = some entry.2.task.sleepTime)
    {metric : String} (column : metric ∈ secondsColumns) (keep : String → Bool) :
    loadMetric metric keep (csvRecords str logged) =
      some (chartData (fun run => run.column metric) keep (logged.map Prod.snd)) := by
  have names : fieldnames (csvRecords str logged) = throughputCsvHeader := rfl
  have columns : ∀ metric ∈ secondsColumns, ["framework", "sleep_time", metric].all (· ∈ throughputCsvHeader) = true := by
    decide
  rw [loadMetric, names, if_pos (columns metric column), dictRows_records, chartData, collect]
  -- The fold starts from any data that has been collected before.
  suffices all : ∀ data, (logged.map (dictRowOf str)).foldlM (loadMetricRow metric keep) data =
      some (((logged.map Prod.snd).filterMap (chartItem (fun run => run.column metric) keep)).foldl
        (fun data item => append data item.1 item.2) data) from all []
  induction logged with
  | nil => exact fun _ => rfl
  | cons entry rest ih =>
    intro data
    rw [List.map_cons, List.foldlM_cons, loadMetricRow_read (printed entry List.mem_cons_self) column]
    refine (ih (fun other member => printed other (List.mem_cons_of_mem entry member)) rfl _).trans ?_
    cases taken : chartItem (fun run => run.column metric) keep entry.2 <;> simp [taken]

/-- `load_throughput` collects the throughputs of the runs, of every category. -/
theorem loadThroughput_data (logged : List (Args × Run)) :
    ((loggedRows logged).foldl addRow ([], [])).1 =
      chartData (fun run => run.throughput.map (Decimal.rounded 2)) (fun _ => true) (logged.map Prod.snd) := by
  induction logged using List.reverseRecOn with
  | nil => rfl
  | append_singleton before entry ih =>
    have row : (entry.2.throughputRow entry.1).okThroughput =
        if entry.2.status = "ok" then entry.2.throughput.map (Decimal.rounded 2) else none := rfl
    rw [loggedRows, List.map_append, List.map_singleton, List.foldl_concat, ← loggedRows, addRow, ih, chartData,
      chartData, List.map_append, List.filterMap_append, row]
    by_cases ok : entry.2.status = "ok"
    · cases found : entry.2.throughput with
      | none => simp [chartItem, found]
      | some y =>
        have item : chartItem (fun run => run.throughput.map (Decimal.rounded 2)) (fun _ => true) entry.2 =
            some (chartKey entry.2.task.toCell, Decimal.rounded 2 y) := by
          simp [chartItem, ok, found]
        simp only [if_pos ok, Option.map_some, List.map_cons, List.map_nil, List.filterMap_cons_some item,
          List.filterMap_nil, collect_snoc]
        rfl
    · simp [chartItem, ok]

end

/-- From the characters of the log, whatever has been run: the charts of throughput,
    of tails and of burst recovery draw a point for every cell with an ok run that
    has the value, at the mean of these values, and no others. Tails are not drawn of
    steady benchmarks, recovery is drawn of bursts only, and no mean is taken of
    nothing. -/
theorem charts_draw_ok_runs (str : ℚ → String) (fileName : String) (logged : List (Args × Run))
    (printed : ∀ entry ∈ logged, Decimal.readNumber (str entry.2.task.sleepTime).toList = some entry.2.task.sleepTime)
    (fit : FieldsFit (csvRecords str logged)) :
    (∃ data attempted, loadThroughputText fileName (logText (csvRecords str logged)) = some (.ok (data, attempted)) ∧
      Draws data (fun _ => true) (fun run => run.throughput.map (Decimal.rounded 2)) (logged.map Prod.snd)) ∧
    (∀ metric ∈ secondsColumns, ∃ data, loadTail metric (logText (csvRecords str logged)) = some data ∧
      Draws data (· ≠ "steady") (fun run => run.column metric) (logged.map Prod.snd)) ∧
    ∀ metric ∈ secondsColumns, ∀ categoryFilter, ∃ data,
      loadCategoryMetric metric categoryFilter (logText (csvRecords str logged)) = some data ∧
        Draws data (fun category => categoryFilter.all (category ∈ ·)) (fun run => run.column metric)
          (logged.map Prod.snd) := by
  have read := readRecords_logText fit
  refine ⟨⟨_, ((loggedRows logged).foldl addRow ([], [])).2, ?_, draws_chartData _ _ _⟩, ?_, ?_⟩
  · rw [loadThroughputText, read, Option.map_some, loadThroughput_records fileName printed, ← loadThroughput_data]
  · intro metric column
    refine ⟨_, ?_, draws_chartData _ _ _⟩
    rw [loadTail, read, Option.bind_some, loadMetric_records printed column]
  · intro metric column categoryFilter
    refine ⟨_, ?_, draws_chartData _ _ _⟩
    rw [loadCategoryMetric, read, Option.bind_some, loadMetric_records printed column]

/-- Two ok runs of a burst benchmark and one of a steady one, which has a tail too. -/
def burstRuns : List (Args × Run) :=
  [("repid_burst", 1, (0.5 : ℚ)), ("repid_burst", 2, 0.25), ("repid_steady", 1, 2)].map (fun (name, run, seconds) =>
    (oneCell false name 2, ⟨⟨⟨⟨name, 1⟩, run⟩, false⟩, some ⟨"ok", [("throughput", .float 100),
      ("tail_99_to_100_seconds", .float seconds), ("burst_recovery_seconds", .float seconds)]⟩⟩))

theorem charts_draw_ok_runs_burst : ∃ data, loadTail tailMetric (logText (csvRecords (Decimal.fixed 1) burstRuns)) = some data ∧
    ∃ lines, plotSeries ((data.lookup "burst").getD []) = some lines ∧
      ∃ points, ("repid", points) ∈ lines ∧ (1, 0.375) ∈ points := by
  have printed : ∀ entry ∈ burstRuns,
      Decimal.readNumber (Decimal.fixed 1 entry.2.task.sleepTime).toList = some entry.2.task.sleepTime := by
    decide +kernel
  have fit : FieldsFit (csvRecords (Decimal.fixed 1) burstRuns) := by
    unfold FieldsFit
    decide +kernel
  obtain ⟨-, tails, -⟩ := charts_draw_ok_runs (Decimal.fixed 1) "benchmarks_results.csv" burstRuns printed fit
  obtain ⟨data, loaded, draws⟩ := tails tailMetric (by decide)
  obtain ⟨lines, drawn, points⟩ := draws "burst"
  have key : chartKey ⟨"repid_burst", 1⟩ = ("burst", "repid", 1) := by decide +kernel
  have values : okValues (fun run => run.column tailMetric) ⟨"repid_burst", 1⟩ (burstRuns.map Prod.snd) = [0.5, 0.25] := by
    decide +kernel
  refine ⟨data, loaded, lines, drawn, (points "repid" 1 0.375).mpr ⟨_, key, by decide, ?_, ?_⟩⟩
  · simp [values]
  · rw [values]
    norm_num [mean]

end RepidBench.ChartLoaders
