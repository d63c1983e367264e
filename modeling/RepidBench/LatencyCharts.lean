import RepidBench.ChartLoaders

/-!
`latency_results.csv`: the records that the task loop writes for the runs of latency
benchmarks, `load_latency`, which names its series by the framework alone, and the
points of the latency charts. They are the means of what the log holds, and agree
with the tables of the session that wrote it.
-/
namespace RepidBench.LatencyCharts
open ChartData ChartLoaders Decimal Dictionaries LogText NestedLists ParseOutput ResultTables Sessions Specs ThroughputCsv

/-! ## The records of the log -/

/-- `LATENCY_CSV_HEADER`. -/
def latencyCsvHeader : List String := [
  "framework", "sleep_time", "run", "status", "throughput_msg_per_sec", "p50_ms", "p95_ms", "p99_ms",
  "latency_samples", "duration_seconds", "offered_rate_msg_per_sec", "achieved_rate_msg_per_sec",
  "backlog_at_measurement_end", "drain_seconds"]

/-- `f"{p:.3f}" if p else "0"` for `p = result.get(key, 0)`. -/
def percentileText (run : Run) (key : String) : String :=
  let p := (run.outcome.number key).getD 0
  if p = 0 then "0" else fixed 3 p

/-- A value that counts as true. -/
def truthyValue : Value → Bool
  | .str word => word ≠ ""
  | .int n => n ≠ 0
  | .float x => x ≠ 0

section
-- How `str` prints a `float`.
variable (str : ℚ → String)

/-- The fields that the loop writes for a run of a latency benchmark. -/
def latencyRecord (run : Run) : List String :=
  if run.status = "ok" then [
    run.task.framework, str run.task.sleepTime, toString run.task.run, run.status, columnText run 2 "throughput",
    percentileText run "p50_ms", percentileText run "p95_ms", percentileText run "p99_ms",
    ((run.outcome.entries.lookup "latency_samples").filter truthyValue).elim "0" (valueText str),
    columnText run 4 "duration_seconds", columnText run 4 "latency_offered_rate", columnText run 4 "latency_achieved_rate",
    (run.outcome.entries.lookup "latency_backlog_at_measurement_end").elim "" (valueText str),
    columnText run 4 "latency_drain_seconds"]
  else [
    run.task.framework, str run.task.sleepTime, toString run.task.run, run.status, columnText run 2 "throughput",
    "", "", "", "", "", "", "", "", ""]

def latencyRecords (runs : List Run) : List (List String) := latencyCsvHeader :: runs.map (latencyRecord str)

end

/-! ## Loading -/

/-- The lists of the metrics of each framework at each sleep time. -/
abbrev LatencyData := Nested String ℚ String ℚ

/-- The columns that `load_latency` collects. -/
def latencyMetrics : List String := ["throughput_msg_per_sec", "p50_ms", "p95_ms", "p99_ms"]

/-- `required`, sorted. -/
def requiredLatency : List String :=
  ["framework", "p50_ms", "p95_ms", "p99_ms", "sleep_time", "throughput_msg_per_sec"]

/-- The body of the loop over the metrics. -/
def loadMetricField (row : DictRow) (framework : String) (sleepTime : ℚ) (data : LatencyData) (metric : String) :
    Option LatencyData :=
  if truthy (getField row metric (some "")) then
    (floatField row metric).map (append data (framework, sleepTime, metric))
  else some data

/-- The body of the loop over `reader`. -/
def loadLatencyRow (loaded : LatencyData × Attempted) (row : DictRow) : Option (LatencyData × Attempted) := do
  let framework := (splitFramework (← field row "framework")).1
  let sleepTime ← floatField row "sleep_time"
  let status := getField row "status" (some "ok")
  let attempted := countAttempt loaded.2 framework sleepTime
  if status = some "ok" then
    let data ← latencyMetrics.foldlM (loadMetricField row framework sleepTime) loaded.1
    return (data, attempted)
  else
    return (loaded.1, attempted)

/-- `load_latency` of the records of the file of this name. -/
def loadLatency (fileName : String) (records : List (List String)) : Except LoadError (LatencyData × Attempted) :=
  let missing := requiredLatency.filter (· ∉ fieldnames records)
  if missing ≠ [] then .error (.missingColumns (fileName ++ " is missing columns: " ++ ", ".intercalate missing))
  else
    match (dictRows records).foldlM loadLatencyRow ([], []) with
    | none => .error .row
    | some loaded => .ok loaded

def loadLatencyText (fileName : String) (text : List Char) : Option (Except LoadError (LatencyData × Attempted)) :=
  (readRecords text).map (loadLatency fileName)

/-! ## Charts -/

/-- `latency_metric_series`. -/
def latencyMetricSeries (data : LatencyData) (metric : String) : Series :=
  data.map (fun (framework, bySleep) =>
    (framework, bySleep.map (fun (sleepTime, values) => (sleepTime, (values.lookup metric).getD []))))

/-- A point of `plot_latency_tradeoff_scatter`. -/
def scatterPoint (values : List (String × List ℚ)) : Option (ℚ × ℚ) := do
  let x ← average ((values.lookup "p95_ms").getD [])
  let y ← average ((values.lookup "throughput_msg_per_sec").getD [])
  return (x, y)

/-- The points of the scatter, framework by framework, each with its sleep time. -/
def scatterPoints (data : LatencyData) : Option (List (String × List (ℚ × ℚ × ℚ))) := drawLines scatterPoint data

/-! ## What the log holds -/

/-- The value of a run in a column of the log. -/
def metricValue (metric : String) (run : Run) : Option ℚ :=
  if metric = "throughput_msg_per_sec" then run.throughput.map (rounded 2) else some (run.percentile metric)

/-- A cell is found by the framework and the sleep time. -/
def latencyKey (cell : Cell) (metric : String) : String × ℚ × String :=
  ((splitFramework cell.framework).1, cell.sleepTime, metric)

/-- What is collected of an ok run, in the order of the metrics. -/
def latencyItems (run : Run) : List ((String × ℚ × String) × ℚ) :=
  if run.status = "ok" then
    latencyMetrics.filterMap (fun metric => (metricValue metric run).map (fun y => (latencyKey run.task.toCell metric, y)))
  else []

section
variable {str : ℚ → String}

/-- The row of a run. -/
def latencyDictRow (str : ℚ → String) (run : Run) : DictRow := dictRow latencyCsvHeader (latencyRecord str run)

theorem dictRows_latencyRecords (runs : List Run) : dictRows (latencyRecords str runs) = runs.map (latencyDictRow str) := by
  have full : ∀ fields ∈ runs.map (latencyRecord str), decide (fields ≠ []) = true := by
    intro fields member
    obtain ⟨run, -, rfl⟩ := List.mem_map.mp member
    unfold latencyRecord
    split_ifs <;> simp
  have names : fieldnames (latencyRecords str runs) = latencyCsvHeader := rfl
  rw [dictRows, names, latencyRecords, List.tail_cons, List.filter_eq_self.mpr full, List.map_map]
  exact List.map_congr_left (fun run _ => rfl)

theorem latencyDictRow_lookup (run : Run) :
    (latencyDictRow str run).lookup "framework" = some (some run.task.framework) ∧
    (latencyDictRow str run).lookup "sleep_time" = some (some (str run.task.sleepTime)) ∧
    (latencyDictRow str run).lookup "status" = some (some run.status) := by
  have distinct : latencyCsvHeader.Nodup := by decide
  unfold latencyDictRow latencyRecord
  split_ifs
  · exact ⟨dictRow_lookup distinct 0 rfl rfl, dictRow_lookup distinct 1 rfl rfl, dictRow_lookup distinct 3 rfl rfl⟩
  · exact ⟨dictRow_lookup distinct 0 rfl rfl, dictRow_lookup distinct 1 rfl rfl, dictRow_lookup distinct 3 rfl rfl⟩

theorem percentileText_read (run : Run) (key : String) :
    percentileText run key ≠ "" ∧ readNumber (percentileText run key).toList = some (run.percentile key) := by
  unfold percentileText Run.percentile
  by_cases zero : (run.outcome.number key).getD 0 = 0
  · simp only [zero, ↓reduceIte]
    exact ⟨by decide, by decide +kernel⟩
  · simp only [zero, ↓reduceIte]
    exact ⟨fixed_ne_empty 3 _, readNumber_fixed (by decide) _⟩

/-- A metric of an ok run is read as it was, or it is not there. -/
theorem loadMetricField_read {run : Run} (ok : run.status = "ok") {metric : String} (known : metric ∈ latencyMetrics)
    (framework : String) (sleepTime : ℚ) (data : LatencyData) :
    loadMetricField (latencyDictRow str run) framework sleepTime data metric =
      some ((metricValue metric run).elim data (append data (framework, sleepTime, metric))) := by
  have distinct : latencyCsvHeader.Nodup := by decide
  have percentile {i : Nat} {key : String} (name : latencyCsvHeader[i]? = some key)
      (value : (latencyRecord str run)[i]? = some (percentileText run key)) (other : key ≠ "throughput_msg_per_sec") :
      loadMetricField (latencyDictRow str run) framework sleepTime data key =
        some ((metricValue key run).elim data (append data (framework, sleepTime, key))) := by
    have found : (latencyDictRow str run).lookup key = some (some (percentileText run key)) :=
      dictRow_lookup distinct i name value
    obtain ⟨present, read⟩ := percentileText_read run key
    have text : floatField (latencyDictRow str run) key = some (run.percentile key) := by
      rw [floatField, field, found, Option.join_some, Option.bind_some, read]
    rw [loadMetricField, getField, found, text, metricValue, if_neg other]
    simp [truthy, present]
  simp only [latencyMetrics, List.mem_cons, List.not_mem_nil, or_false] at known
  rcases known with rfl | rfl | rfl | rfl
  · have found : (latencyDictRow str run).lookup "throughput_msg_per_sec" = some (some (columnText run 2 "throughput")) :=
      dictRow_lookup distinct 4 rfl (by rw [latencyRecord, if_pos ok]; rfl)
    rw [loadMetricField, getField, found, metricValue, if_pos rfl, columnText, ← Run.throughput]
    cases present : run.throughput with
    | none => simp [truthy]
    | some value =>
      have text : floatField (latencyDictRow str run) "throughput_msg_per_sec" = some (rounded 2 value) := by
        rw [floatField, field, found, Option.join_some, Option.bind_some, columnText, ← Run.throughput, present]
        exact readNumber_fixed (by decide) value
      simp [truthy, fixed_ne_empty, text]
  · exact percentile (i := 5) rfl (by rw [latencyRecord, if_pos ok]; rfl) (by decide)
  · exact percentile (i := 6) rfl (by rw [latencyRecord, if_pos ok]; rfl) (by decide)
  · exact percentile (i := 7) rfl (by rw [latencyRecord, if_pos ok]; rfl) (by decide)

theorem loadMetricFields_read {run : Run} (ok : run.status = "ok") (data : LatencyData) :
    latencyMetrics.foldlM (loadMetricField (latencyDictRow str run) (splitFramework run.task.framework).1
        run.task.sleepTime) data =
      some ((latencyItems run).foldl (fun data item => append data item.1 item.2) data) := by
  rw [latencyItems, if_pos ok]
  suffices all : ∀ metrics ⊆ latencyMetrics, ∀ data, metrics.foldlM (loadMetricField (latencyDictRow str run)
      (splitFramework run.task.framework).1 run.task.sleepTime) data =
        some ((metrics.filterMap (fun metric => (metricValue metric run).map (fun y =>
          (latencyKey run.task.toCell metric, y)))).foldl (fun data item => append data item.1 item.2) data) from
    all latencyMetrics (List.Subset.refl _) data
  intro metrics
  induction metrics with
  | nil => exact fun _ _ => rfl
  | cons metric rest ih =>
    intro known data
    obtain ⟨first, others⟩ := List.cons_subset.mp known
    rw [List.foldlM_cons, loadMetricField_read ok first]
    refine (ih others _).trans ?_
    cases present : metricValue metric run <;> simp [present, latencyKey]

/-- A row adds what is collected of its run, and is counted. -/
theorem loadLatencyRow_read {run : Run} (printed : readNumber (str run.task.sleepTime).toList = some run.task.sleepTime)
    (loaded : LatencyData × Attempted) :
    loadLatencyRow loaded (latencyDictRow str run) =
      some ((latencyItems run).foldl (fun data item => append data item.1 item.2) loaded.1,
        countAttempt loaded.2 (splitFramework run.task.framework).1 run.task.sleepTime) := by
  obtain ⟨framework, sleepTime, status⟩ : _ ∧ _ ∧ _ := @latencyDictRow_lookup str run
  have name : field (latencyDictRow str run) "framework" = some run.task.framework := by rw [field, framework]; rfl
  have time : floatField (latencyDictRow str run) "sleep_time" = some run.task.sleepTime := by
    rw [floatField, field, sleepTime, Option.join_some, Option.bind_some, printed]
  have own : getField (latencyDictRow str run) "status" (some "ok") = some run.status := by rw [getField, status]; rfl
  simp only [loadLatencyRow, name, time, own, Option.bind_eq_bind, Option.bind_some, Option.some.injEq]
  by_cases ok : run.status = "ok"
  · rw [if_pos ok, loadMetricFields_read ok]
    rfl
  · rw [if_neg ok, latencyItems, if_neg ok]
    rfl

/-- The loop over the rows of the log. -/
theorem loadLatency_records (fileName : String) {runs : List Run}
    (printed : ∀ run ∈ runs, readNumber (str run.task.sleepTime).toList = some run.task.sleepTime) :
    ∃ attempted, loadLatency fileName (latencyRecords str runs) = .ok (collect (runs.flatMap latencyItems), attempted) ∧
      attemptsOf attempted = runs.length := by
  have names : fieldnames (latencyRecords str runs) = latencyCsvHeader := rfl
  have complete : requiredLatency.filter (· ∉ latencyCsvHeader) = [] := by decide
  suffices all : ∀ loaded : LatencyData × Attempted, ∃ attempted,
      (runs.map (latencyDictRow str)).foldlM loadLatencyRow loaded =
        some ((runs.flatMap latencyItems).foldl (fun data item => append data item.1 item.2) loaded.1, attempted) ∧
      attemptsOf attempted = attemptsOf loaded.2 + runs.length by
    obtain ⟨attempted, loaded, rows⟩ := all ([], [])
    refine ⟨attempted, ?_, rows.trans (Nat.zero_add _)⟩
    rw [loadLatency, names, complete, dictRows_latencyRecords, loaded]
    rfl
  induction runs with
  | nil => exact fun loaded => ⟨loaded.2, rfl, rfl⟩
  | cons run rest ih =>
    intro loaded
    obtain ⟨attempted, later, rows⟩ := ih (fun other member => printed other (List.mem_cons_of_mem run member)) rfl
      ((latencyItems run).foldl (fun data item => append data item.1 item.2) loaded.1,
        countAttempt loaded.2 (splitFramework run.task.framework).1 run.task.sleepTime)
    refine ⟨attempted, ?_, ?_⟩
    · rw [List.map_cons, List.foldlM_cons, loadLatencyRow_read (printed run List.mem_cons_self)]
      simpa [List.foldl_append] using later
    · rw [rows, attemptsOf_count, List.length_cons]
      omega

end

/-! ## What is collected -/

/-- The charts of latencies name a series by its framework alone, which is enough. -/
theorem splitFramework_latency {name : String} (latency : isLatency name) : (splitFramework name).2 = "latency" := by
  have all : ∀ spec ∈ specs, spec.mode = .latency → (splitFramework spec.name).2 = "latency" := by decide +kernel
  obtain ⟨spec, found, isMode⟩ := (Option.any_eq_true _ _).mp latency
  have named : spec.name = name := by simpa using List.find?_some found
  rw [← named]
  exact all spec (List.mem_of_find?_eq_some found) (by simpa using isMode)

theorem latencyKey_inj {a b : Cell} (first : isLatency a.framework) (second : isLatency b.framework) {metric other : String} :
    latencyKey a metric = latencyKey b other ↔ a = b ∧ metric = other := by
  constructor
  · intro same
    obtain ⟨framework, time, metrics⟩ : _ ∧ _ ∧ _ := by simpa only [latencyKey, Prod.mk.injEq] using same
    have category := (splitFramework_latency first).trans (splitFramework_latency second).symm
    exact ⟨congrArg₂ Cell.mk (splitFramework_injective (Prod.ext framework category)) time, metrics⟩
  · rintro ⟨rfl, rfl⟩
    rfl

/-- The item of one metric among those of a run. -/
theorem latencyItems_metric {run : Run} (own : isLatency run.task.framework) {cell : Cell} (latency : isLatency cell.framework)
    {metric : String} (known : metric ∈ latencyMetrics) :
    (latencyItems run).filterMap (fun item => if item.1 = latencyKey cell metric then some item.2 else none) =
      (if run.task.toCell = cell ∧ run.status = "ok" then metricValue metric run else none).toList := by
  by_cases ok : run.status = "ok"
  · rw [latencyItems, if_pos ok, List.filterMap_filterMap]
    have each : ∀ other, ((metricValue other run).map (fun y => (latencyKey run.task.toCell other, y))).bind
        (fun item => if item.1 = latencyKey cell metric then some item.2 else none) =
          if run.task.toCell = cell ∧ other = metric then metricValue other run else none := by
      intro other
      cases found : metricValue other run <;> simp [latencyKey_inj own latency]
    simp only [each]
    by_cases same : run.task.toCell = cell
    · simp only [latencyMetrics, List.mem_cons, List.not_mem_nil, or_false] at known
      rcases known with rfl | rfl | rfl | rfl
      all_goals
        simp only [latencyMetrics, same, ok, true_and, List.filterMap_cons, List.filterMap_nil, String.reduceEq,
          ↓reduceIte]
        cases metricValue _ run <;> rfl
    · simp [same]
  · simp [latencyItems, ok]

section
variable {runs : List Run} (latency : ∀ run ∈ runs, isLatency run.task.framework)
include latency

/-- Under the key of a cell are the values of its ok runs. -/
theorem held_latencyItems {cell : Cell} (own : isLatency cell.framework) {metric : String} (known : metric ∈ latencyMetrics) :
    NestedLists.held (collect (runs.flatMap latencyItems)) (latencyKey cell metric) =
      okValues (metricValue metric) cell runs := by
  rw [held_collect, List.filterMap_flatMap, okValues, List.filterMap_eq_flatMap_toList]
  exact List.flatMap_congr (fun run member => latencyItems_metric (latency run member) own known)

/-- What is held at all is held under the key of a cell, and comes from an ok run of it. -/
theorem held_latencyItems_key {framework : String} {time : ℚ} {metric : String}
    (present : NestedLists.held (collect (runs.flatMap latencyItems)) (framework, time, metric) ≠ []) :
    ∃ cell : Cell, isLatency cell.framework ∧ (splitFramework cell.framework).1 = framework ∧ cell.sleepTime = time ∧
      ∃ run ∈ runs, run.task.toCell = cell ∧ run.status = "ok" := by
  rw [held_collect] at present
  obtain ⟨y, inside⟩ := List.exists_mem_of_ne_nil _ present
  obtain ⟨item, collected, same⟩ := List.mem_filterMap.mp inside
  obtain ⟨run, member, taken⟩ := List.mem_flatMap.mp collected
  split_ifs at same with keys
  unfold latencyItems at taken
  split_ifs at taken with ok
  · obtain ⟨other, -, found⟩ := List.mem_filterMap.mp taken
    obtain ⟨_, -, rfl⟩ := Option.map_eq_some_iff.mp found
    obtain ⟨sameFramework, sameTime, -⟩ : _ ∧ _ ∧ _ := by simpa only [latencyKey, Prod.mk.injEq] using keys
    exact ⟨run.task.toCell, latency run member, sameFramework, sameTime, run, member, rfl, ok⟩
  · cases taken

end

/-- The cells whose ok runs a chart of latencies shows at this place. -/
def ShownAt (runs : List Run) (framework : String) (time : ℚ) (cell : Cell) : Prop :=
  isLatency cell.framework ∧ (splitFramework cell.framework).1 = framework ∧ cell.sleepTime = time ∧
    ∃ run ∈ runs, run.task.toCell = cell ∧ run.status = "ok"

section
variable {runs : List Run} (latency : ∀ run ∈ runs, isLatency run.task.framework)
include latency

/-- What is under the keys is what the ok runs of a cell have. -/
theorem latency_place {framework : String} {bySleep : List (ℚ × List (String × List ℚ))} {time : ℚ}
    {values : List (String × List ℚ)} (first : (framework, bySleep) ∈ collect (runs.flatMap latencyItems))
    (second : (time, values) ∈ bySleep) :
    ∃ cell, ShownAt runs framework time cell ∧
      ∀ metric ∈ latencyMetrics, (values.lookup metric).getD [] = okValues (metricValue metric) cell runs := by
  obtain ⟨under, other, present⟩ := (populated_collect (runs.flatMap latencyItems)).inner first second
  obtain ⟨cell, own, sameFramework, sameTime, run⟩ := held_latencyItems_key latency present
  refine ⟨cell, ⟨own, sameFramework, sameTime, run⟩, fun metric known => ?_⟩
  rw [under, ← sameFramework, ← sameTime]
  exact held_latencyItems latency own known

variable (rate : ∀ run ∈ runs, run.status = "ok" → run.throughput.isSome)
include rate

omit latency in
/-- An ok run has a value of every metric. -/
theorem ShownAt.present {framework : String} {time : ℚ} {cell : Cell} (shown : ShownAt runs framework time cell)
    (metric : String) : okValues (metricValue metric) cell runs ≠ [] := by
  obtain ⟨-, -, -, run, member, same, ok⟩ := shown
  have value : (metricValue metric run).isSome := by
    unfold metricValue
    split_ifs
    · rw [Option.isSome_map]
      exact rate run member ok
    · rfl
  obtain ⟨y, found⟩ := Option.isSome_iff_exists.mp value
  have inside : y ∈ okValues (metricValue metric) cell runs := by
    refine List.mem_filterMap.mpr ⟨run, member, ?_⟩
    rw [if_pos ⟨same, ok⟩, found]
  exact List.ne_nil_of_mem inside

/-- And it is under the keys. -/
theorem ShownAt.place {framework : String} {time : ℚ} {cell : Cell} (shown : ShownAt runs framework time cell) :
    ∃ bySleep values, (framework, bySleep) ∈ collect (runs.flatMap latencyItems) ∧ (time, values) ∈ bySleep ∧
      ∀ metric ∈ latencyMetrics, (values.lookup metric).getD [] = okValues (metricValue metric) cell runs := by
  have under : ∀ metric ∈ latencyMetrics, NestedLists.held (collect (runs.flatMap latencyItems)) (framework, time, metric) =
      okValues (metricValue metric) cell runs := by
    intro metric known
    rw [← shown.2.1, ← shown.2.2.1]
    exact held_latencyItems latency shown.1 known
  have present := under "p95_ms" (by decide) ▸ shown.present rate "p95_ms"
  obtain ⟨bySleep, values, first, second⟩ := exists_of_held present
  refine ⟨bySleep, values, first, second, fun metric known => ?_⟩
  rw [((populated_collect _).inner first second).1, under metric known]

/-- What is computed of the values at each place is computed for the cells with ok runs. -/
theorem latency_points {γ : Type} {f : List (String × List ℚ) → γ} {y : Cell → γ}
    (same : ∀ values cell, (∀ metric ∈ latencyMetrics,
      (values.lookup metric).getD [] = okValues (metricValue metric) cell runs) → f values = y cell)
    (framework : String) (time : ℚ) (point : γ) :
    (∃ bySleep values, (framework, bySleep) ∈ collect (runs.flatMap latencyItems) ∧ (time, values) ∈ bySleep ∧
      point = f values) ↔ ∃ cell, ShownAt runs framework time cell ∧ point = y cell := by
  constructor
  · rintro ⟨bySleep, values, first, second, rfl⟩
    obtain ⟨cell, shown, under⟩ := latency_place latency first second
    exact ⟨cell, shown, same values cell under⟩
  · rintro ⟨cell, shown, rfl⟩
    obtain ⟨bySleep, values, first, second, under⟩ := shown.place latency rate
    exact ⟨bySleep, values, first, second, (same values cell under).symm⟩

theorem plot_latency_metric {metric : String} (known : metric ∈ latencyMetrics) :
    ∃ lines, plotSeries (latencyMetricSeries (collect (runs.flatMap latencyItems)) metric) = some lines ∧
      ∀ framework x y, (∃ points, (framework, points) ∈ lines ∧ (x, y) ∈ points) ↔
        ∃ cell, ShownAt runs framework x cell ∧ y = mean (okValues (metricValue metric) cell runs) := by
  have inSeries : ∀ framework x list, (∃ line, (framework, line) ∈
      latencyMetricSeries (collect (runs.flatMap latencyItems)) metric ∧ (x, list) ∈ line) ↔
        ∃ bySleep values, (framework, bySleep) ∈ collect (runs.flatMap latencyItems) ∧ (x, values) ∈ bySleep ∧
          list = (values.lookup metric).getD [] := by
    intro framework x list
    constructor
    · rintro ⟨line, inData, inLine⟩
      obtain ⟨⟨_, bySleep⟩, first, same⟩ := List.mem_map.mp inData
      obtain ⟨rfl, rfl⟩ := Prod.mk.inj same
      obtain ⟨⟨_, values⟩, second, same⟩ := List.mem_map.mp inLine
      obtain ⟨rfl, rfl⟩ := Prod.mk.inj same
      exact ⟨bySleep, values, first, second, rfl⟩
    · rintro ⟨bySleep, values, first, second, rfl⟩
      exact ⟨_, List.mem_map.mpr ⟨_, first, rfl⟩, List.mem_map.mpr ⟨_, second, rfl⟩⟩
  have each : ∀ line ∈ latencyMetricSeries (collect (runs.flatMap latencyItems)) metric, ∀ place ∈ line.2,
      average place.2 = some (mean place.2) := by
    intro line inData place inLine
    obtain ⟨bySleep, values, first, second, same⟩ := (inSeries line.1 place.1 place.2).mp ⟨line.2, inData, inLine⟩
    obtain ⟨cell, shown, under⟩ := latency_place latency first second
    refine if_neg ?_
    rw [same, under metric known]
    exact shown.present rate metric
  obtain ⟨lines, drawn, points⟩ := drawLines_eq each
  have shows := latency_points latency rate (fun values cell under => congrArg mean (under metric known))
  refine ⟨lines, drawn, fun framework x y => (points framework x y).trans (Iff.trans ?_ (shows framework x y))⟩
  constructor
  · rintro ⟨line, list, inData, inLine, rfl⟩
    obtain ⟨bySleep, values, first, second, rfl⟩ := (inSeries framework x list).mp ⟨line, inData, inLine⟩
    exact ⟨bySleep, values, first, second, rfl⟩
  · rintro ⟨bySleep, values, first, second, rfl⟩
    obtain ⟨line, inData, inLine⟩ := (inSeries framework x _).mpr ⟨bySleep, values, first, second, rfl⟩
    exact ⟨line, _, inData, inLine, rfl⟩

theorem scatter_latency :
    ∃ clouds, scatterPoints (collect (runs.flatMap latencyItems)) = some clouds ∧
      ∀ framework time place, (∃ points, (framework, points) ∈ clouds ∧ (time, place) ∈ points) ↔
        ∃ cell, ShownAt runs framework time cell ∧ place = (mean (okValues (metricValue "p95_ms") cell runs),
          mean (okValues (metricValue "throughput_msg_per_sec") cell runs)) := by
  let means (values : List (String × List ℚ)) : ℚ × ℚ :=
    (mean ((values.lookup "p95_ms").getD []), mean ((values.lookup "throughput_msg_per_sec").getD []))
  have each : ∀ line ∈ collect (runs.flatMap latencyItems), ∀ place ∈ line.2,
      scatterPoint place.2 = some (means place.2) := by
    intro line first place second
    obtain ⟨cell, shown, under⟩ := latency_place latency first second
    have some_mean : ∀ metric ∈ latencyMetrics, average ((place.2.lookup metric).getD []) =
        some (mean ((place.2.lookup metric).getD [])) := by
      intro metric known
      rw [average, if_neg]
      rw [under metric known]
      exact shown.present rate metric
    rw [scatterPoint, some_mean "p95_ms" (by decide), some_mean "throughput_msg_per_sec" (by decide)]
    rfl
  obtain ⟨clouds, drawn, points⟩ := drawLines_eq each
  refine ⟨clouds, drawn, fun framework time place => (points framework time place).trans ?_⟩
  refine latency_points latency rate (fun values cell under => ?_) framework time place
  exact Prod.ext (congrArg mean (under "p95_ms" (by decide))) (congrArg mean (under "throughput_msg_per_sec" (by decide)))

end

/-! ## From the file to the points -/

/-- For every log of runs of latency benchmarks: the file is read back, no row is lost,
    and the lines of each metric and the points of the scatter are the means over the
    ok runs of a cell, one for each cell that has such runs. The mean of a cell never
    fails, and a framework is enough to tell two benchmarks apart. -/
theorem latency_charts_draw_ok_runs (str : ℚ → String) (fileName : String) (runs : List Run)
    (latency : ∀ run ∈ runs, isLatency run.task.framework)
    (rate : ∀ run ∈ runs, run.status = "ok" → run.throughput.isSome)
    (printed : ∀ run ∈ runs, readNumber (str run.task.sleepTime).toList = some run.task.sleepTime)
    (fit : FieldsFit (latencyRecords str runs)) :
    ∃ data attempted, loadLatencyText fileName (logText (latencyRecords str runs)) = some (.ok (data, attempted)) ∧
      attemptsOf attempted = runs.length ∧
      (∀ metric ∈ latencyMetrics, ∃ lines, plotSeries (latencyMetricSeries data metric) = some lines ∧
        ∀ framework x y, (∃ points, (framework, points) ∈ lines ∧ (x, y) ∈ points) ↔
          ∃ cell, ShownAt runs framework x cell ∧ y = mean (okValues (metricValue metric) cell runs)) ∧
      ∃ clouds, scatterPoints data = some clouds ∧
        ∀ framework time place, (∃ points, (framework, points) ∈ clouds ∧ (time, place) ∈ points) ↔
          ∃ cell, ShownAt runs framework time cell ∧ place = (mean (okValues (metricValue "p95_ms") cell runs),
            mean (okValues (metricValue "throughput_msg_per_sec") cell runs)) := by
  obtain ⟨attempted, loaded, attempts⟩ := loadLatency_records fileName printed
  refine ⟨_, attempted, ?_, attempts, fun metric known => plot_latency_metric latency rate known,
    scatter_latency latency rate⟩
  rw [loadLatencyText, readRecords_logText fit, Option.map_some, loaded]

/-- Two ok runs of a cell, one without samples, and a failed one. -/
def latencyRuns : List Run :=
  [("ok", 1, [("throughput", 100), ("p95_ms", (4 : ℚ))]), ("ok", 2, [("throughput", 120)]), ("timeout", 3, [])].map
    (fun (status, run, entries) => ⟨⟨⟨⟨"repid_latency", 1⟩, run⟩, false⟩,
      some ⟨status, entries.map (fun entry => (entry.1, .float entry.2))⟩⟩)

theorem latency_charts_draw_ok_runs_three : ∃ data attempted,
    loadLatencyText "latency_results.csv" (logText (latencyRecords (fixed 1) latencyRuns)) = some (.ok (data, attempted)) ∧
      attemptsOf attempted = 3 ∧ ∃ clouds, scatterPoints data = some clouds ∧
        ∃ points, ("repid", points) ∈ clouds ∧ (1, 2, 110) ∈ points := by
  have printed : ∀ run ∈ latencyRuns, readNumber (fixed 1 run.task.sleepTime).toList = some run.task.sleepTime := by
    decide +kernel
  have fit : FieldsFit (latencyRecords (fixed 1) latencyRuns) := by
    unfold FieldsFit
    decide +kernel
  obtain ⟨data, attempted, loaded, attempts, -, clouds, drawn, points⟩ :=
    latency_charts_draw_ok_runs (fixed 1) "latency_results.csv" latencyRuns (by decide +kernel) (by decide +kernel) printed fit
  have p95 : okValues (metricValue "p95_ms") ⟨"repid_latency", 1⟩ latencyRuns = [4, 0] := by decide +kernel
  have rates : okValues (metricValue "throughput_msg_per_sec") ⟨"repid_latency", 1⟩ latencyRuns = [100, 120] := by
    decide +kernel
  refine ⟨data, attempted, loaded, attempts, clouds, drawn, (points "repid" 1 (2, 110)).mpr ⟨⟨"repid_latency", 1⟩, ?_, ?_⟩⟩
  · unfold ShownAt
    decide +kernel
  · rw [p95, rates]
    norm_num [mean]

end RepidBench.LatencyCharts
