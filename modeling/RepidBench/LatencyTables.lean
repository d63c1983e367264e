import RepidBench.CsvAgreement
import RepidBench.LatencyCharts
import RepidBench.ResumeLatency

/-!
The two accounts of one session's latencies: the table that `main` prints of what it
kept in memory, and the charts of the log that it wrote. A run without a sample is
not in the table, but the log has a zero for it, which the charts average in.
-/
namespace RepidBench.LatencyTables
open ChartData ChartLoaders Decimal LatencyCharts LogText NestedLists ResultTables Sessions Specs

/-- The measured runs of latency benchmarks, in their order. -/
def latencyRunsOf (s : Session) : List Run := s.runs.filter (fun run => !run.task.warmup && isLatency run.task.framework)

/-- The row of the log for such a run. -/
def logRow (run : Run) : LatencyRow := if run.status = "ok" then run.latencyRow else run.failedLatencyRow

/-- The ok runs of a cell. -/
def okRuns (cell : Cell) (runs : List Run) : List Run :=
  runs.filter (fun run => run.task.toCell = cell ∧ run.status = "ok")

theorem okValues_eq (value : Run → Option ℚ) (cell : Cell) (runs : List Run) :
    okValues value cell runs = (okRuns cell runs).filterMap value := by
  simp only [okValues, okRuns, List.filterMap_filter, decide_eq_true_eq]

/-! ## The session -/

section
variable {args : Args} {run : Run} (inFrameworks : run.task.framework ∈ args.frameworks)
include inFrameworks

theorem latencyRecord_eq :
    run.latencyRecord args = if !run.task.warmup && isLatency run.task.framework then some (logRow run) else none := by
  by_cases ok : run.status = "ok" <;> cases warmup : run.task.warmup <;> cases latency : isLatency run.task.framework <;>
    simp [Run.latencyRecord, logRow, ok, warmup, latency, inFrameworks]

/-- What the loop keeps of a run for a metric of a cell. -/
theorem kept_metric (cell : Cell) (metric : Metric) :
    valuesAt (cell, metric) ((run.effects args).filterMap Effect.keptLatency) =
      if !run.task.warmup && isLatency run.task.framework then okValues (fun run => run.keptMetric metric) cell [run]
      else [] := by
  cases warmup : run.task.warmup with
  | true => simp [Run.effects, warmup, Effect.keptLatency, List.filterMap_cons]
  | false =>
    have first : (run.effects args).filterMap Effect.keptLatency =
        (run.latencyEffects args).filterMap Effect.keptLatency := by
      cases kept : run.keptThroughput <;>
        simp [Run.effects, Run.record, warmup, kept, Effect.keptLatency, List.filterMap_cons]
    rw [first]
    by_cases latency : isLatency run.task.framework = true
    · by_cases ok : run.status = "ok"
      · have taken : run.latencyEffects args =
            run.metricEffects ++ [.latency (.write (.row run.latencyRow)), .latency .flush] := by
          simp [Run.latencyEffects, latency, ok, inFrameworks]
        have others : [Effect.latency (.write (.row run.latencyRow)), .latency .flush].filterMap Effect.keptLatency = [] := rfl
        have each : ∀ other, (((run.keptMetric other).map (Effect.keepLatency run.task.toCell other)).bind
            Effect.keptLatency).bind (fun item => if item.1 = (cell, metric) then some item.2 else none) =
              if run.task.toCell = cell ∧ other = metric then run.keptMetric other else none := by
          intro other
          cases run.keptMetric other <;> simp [Effect.keptLatency]
        rw [taken, List.filterMap_append, others, List.append_nil, Run.metricEffects, List.filterMap_filterMap, valuesAt,
          List.filterMap_filterMap]
        simp only [each, latency, Bool.not_false, Bool.and_self, ↓reduceIte]
        by_cases same : run.task.toCell = cell
        · cases metric <;>
            simp [okValues, same, ok, List.filterMap_cons]
        · simp [okValues, same]
      · simp [Run.latencyEffects, latency, ok, Effect.keptLatency, okValues, List.filterMap_cons]
    · simp [Run.latencyEffects, latency]

end

section
variable {s : Session} {files : Files}

variable (admissible : s.Admissible files) (completed : s.ending = .completed)
include admissible completed

/-- The table of a session that is not interrupted. -/
theorem closed_table (cell : Cell) (metric : Metric) :
    (s.closed files).latencyResults (cell, metric) = okValues (fun run => run.keptMetric metric) cell (latencyRunsOf s) := by
  have all : ∀ runs : List Run, (∀ run ∈ runs, run.task.framework ∈ s.args.frameworks) →
      valuesAt (cell, metric) ((runs.flatMap (Run.effects s.args)).filterMap Effect.keptLatency) =
        okValues (fun run => run.keptMetric metric) cell
          (runs.filter (fun run => !run.task.warmup && isLatency run.task.framework)) := by
    intro runs
    induction runs with
    | nil => exact fun _ => rfl
    | cons run rest ih =>
      intro inFrameworks
      rw [List.flatMap_cons, List.filterMap_append, valuesAt_append, kept_metric (inFrameworks run List.mem_cons_self),
        ih (fun other member => inFrameworks other (List.mem_cons_of_mem run member)), List.filter_cons]
      split_ifs
      · exact List.filterMap_append.symm
      · rfl
  rw [Session.closed_latencyResults, Session.loop_completed completed]
  exact all s.runs (CsvAgreement.listed admissible)

/-- And its log. -/
theorem closed_log (fresh : s.args.resume = false) :
    csvRows (s.closed files).files.latency = (latencyRunsOf s).map logRow := by
  have holds : s.args.resume = true → Holds ([] : List LatencyRow) (latencyCsv.file files) := by simp [fresh]
  have left : csvRows (s.closed files).files.latency = latencyCsv.rows s s.leaves.1 s.leaves.2 := by
    have closes := (latencyCsv.closed_holds holds).csvRows
    rwa [fresh, continued, if_neg Bool.false_ne_true, List.nil_append] at closes
  have one : ∀ run ∈ s.runs, (run.effects s.args).filterMap latencyCsv.row =
      (if !run.task.warmup && isLatency run.task.framework then some (logRow run) else none).toList := by
    intro run member
    rw [latencyCsv.effects_row, ← latencyRecord_eq (CsvAgreement.listed admissible run member)]
    rfl
  rw [left, Csv.rows, Session.loop_completed completed, List.filterMap_flatMap, List.flatMap_congr one, latencyRunsOf,
    ← List.filterMap_eq_flatMap_toList, ← List.filterMap_eq_map, List.filterMap_filter]
  rfl

end

/-! ## The log and the table -/

/-- A run has a latency to report. -/
def Sampled (metric : Metric) (run : Run) : Prop := ∃ value, run.outcome.number metric.key = some value ∧ 0 < value

theorem keptMetric_isSome {run : Run} {metric : Metric} (isPercentile : metric ∈ percentiles) :
    (run.keptMetric metric).isSome ↔ Sampled metric run := by
  rw [Option.isSome_iff_exists]
  exact exists_congr (fun _ => ResumeLatency.keptMetric_percentile isPercentile)

/-- The log has a value for every ok run, so it has those of the table only if every
    ok run was sampled. -/
theorem percentiles_agree_iff {metric : Metric} (isPercentile : metric ∈ percentiles) (runs : List Run) (cell : Cell) :
    okValues (metricValue metric.key) cell runs =
        (okValues (fun run => run.keptMetric metric) cell runs).map (rounded 3) ↔
      ∀ run ∈ okRuns cell runs, Sampled metric run := by
  have inLog : ∀ run, metricValue metric.key run = some (run.percentile metric.key) := by
    intro run
    refine if_neg ?_
    simp only [percentiles, List.mem_cons, List.not_mem_nil, or_false] at isPercentile
    rcases isPercentile with rfl | rfl | rfl <;> decide
  have log : okValues (metricValue metric.key) cell runs = (okRuns cell runs).map (fun run => run.percentile metric.key) := by
    rw [okValues_eq, funext inLog]
    exact congrFun List.filterMap_eq_map' _
  rw [log, okValues_eq, List.map_filterMap]
  constructor
  · intro same run member
    have whole : ((okRuns cell runs).filterMap (fun run => (run.keptMetric metric).map (rounded 3))).length =
        (okRuns cell runs).length := by
      rw [← same, List.length_map]
    have present := List.filterMap_length_eq_length.mp whole run member
    rw [Option.isSome_map] at present
    exact (keptMetric_isSome isPercentile).mp present
  · intro sampled
    refine (List.filterMap_eq_map_iff_forall_eq_some.mpr (fun run member => ?_)).symm
    obtain ⟨value, found, positive⟩ := sampled run member
    rw [(ResumeLatency.keptMetric_percentile isPercentile).mpr ⟨found, positive⟩, Run.percentile, found]
    simp [positive.ne']

/-- For every session that is completed and did not resume: its log has one row for
    each of its measured runs of latency benchmarks. What the charts load of it are,
    for every cell, the throughputs that the session kept, and a percentile has the
    values of the table exactly when each ok run of the cell had samples of it. -/
theorem latency_chart_matches_table (str : ℚ → String) (fileName : String) {s : Session} {files : Files}
    (admissible : s.Admissible files) (fresh : s.args.resume = false) (completed : s.ending = .completed)
    (printed : ∀ run ∈ latencyRunsOf s, readNumber (str run.task.sleepTime).toList = some run.task.sleepTime)
    (fit : FieldsFit (latencyRecords str (latencyRunsOf s))) :
    csvRows (s.closed files).files.latency = (latencyRunsOf s).map logRow ∧
    ∃ data attempted, loadLatencyText fileName (logText (latencyRecords str (latencyRunsOf s))) =
        some (.ok (data, attempted)) ∧
      ∀ cell, isLatency cell.framework →
        NestedLists.held data (latencyKey cell "throughput_msg_per_sec") =
          ((s.closed files).latencyResults (cell, .throughput)).map (rounded 2) ∧
        ∀ metric ∈ percentiles,
          NestedLists.held data (latencyKey cell metric.key) =
              ((s.closed files).latencyResults (cell, metric)).map (rounded 3) ↔
            ∀ run ∈ okRuns cell (latencyRunsOf s), Sampled metric run := by
  have latency : ∀ run ∈ latencyRunsOf s, isLatency run.task.framework := by
    intro run member
    have both := (List.mem_filter.mp member).2
    simp only [Bool.and_eq_true] at both
    exact both.2
  obtain ⟨attempted, loaded, -⟩ := loadLatency_records fileName printed
  refine ⟨closed_log admissible completed fresh, collect ((latencyRunsOf s).flatMap latencyItems), attempted, ?_, ?_⟩
  · rw [loadLatencyText, readRecords_logText fit, Option.map_some, loaded]
  · intro cell own
    have held : ∀ metric ∈ latencyMetrics, NestedLists.held (collect ((latencyRunsOf s).flatMap latencyItems))
        (latencyKey cell metric) = okValues (metricValue metric) cell (latencyRunsOf s) :=
      fun metric known => held_latencyItems latency own known
    constructor
    · have kept : ∀ run : Run, run.keptMetric .throughput = run.throughput := by
        intro run
        cases rate : run.outcome.number "throughput" <;> simp [Run.keptMetric, Run.throughput, Metric.key, rate]
      have values : metricValue "throughput_msg_per_sec" =
          fun run => (run.keptMetric .throughput).map (rounded 2) := by
        funext run
        rw [kept]
        rfl
      rw [held _ (by decide), closed_table admissible completed, okValues_eq, okValues_eq, List.map_filterMap, values]
    · intro metric isPercentile
      have known : metric.key ∈ latencyMetrics := by
        simp only [percentiles, List.mem_cons, List.not_mem_nil, or_false] at isPercentile
        rcases isPercentile with rfl | rfl | rfl <;> decide
      rw [held _ known, closed_table admissible completed]
      exact percentiles_agree_iff isPercentile _ cell

/-- A session with two ok runs of a cell, of which one got no samples. -/
def halfSampled : Session where
  args := oneCell false "repid_latency" 2
  loaded := ⟨[], fun _ => []⟩
  runs := [("p95_ms", 1), ("other", 2)].map (fun (name, run) => ⟨⟨⟨⟨"repid_latency", 1⟩, run⟩, false⟩,
    some ⟨"ok", [("throughput", .float 100), (name, .float 4)]⟩⟩)
  ending := .completed

theorem latency_chart_matches_table_half : ∃ data attempted,
    loadLatencyText "latency_results.csv" (logText (latencyRecords (fixed 1) (latencyRunsOf halfSampled))) =
      some (.ok (data, attempted)) ∧
    NestedLists.held data (latencyKey ⟨"repid_latency", 1⟩ "p95_ms") ≠
      ((halfSampled.closed .absent).latencyResults (⟨"repid_latency", 1⟩, .p95Ms)).map (rounded 3) := by
  have measured : latencyRunsOf halfSampled = halfSampled.runs := by decide +kernel
  have admissible : halfSampled.Admissible .absent := by
    refine ⟨rfl, .inl ?_⟩
    decide +kernel
  have printed : ∀ run ∈ latencyRunsOf halfSampled,
      readNumber (fixed 1 run.task.sleepTime).toList = some run.task.sleepTime := by
    decide +kernel
  have fit : FieldsFit (latencyRecords (fixed 1) (latencyRunsOf halfSampled)) := by
    unfold FieldsFit
    decide +kernel
  obtain ⟨-, data, attempted, loaded, cells⟩ :=
    latency_chart_matches_table (fixed 1) "latency_results.csv" admissible rfl rfl printed fit
  refine ⟨data, attempted, loaded, fun same => ?_⟩
  have sampled := ((cells ⟨"repid_latency", 1⟩ (by decide +kernel)).2 .p95Ms (by decide)).mp same
  obtain ⟨value, found, -⟩ := sampled ⟨⟨⟨⟨"repid_latency", 1⟩, 2⟩, false⟩, some ⟨"ok", [("throughput", .float 100),
    ("other", .float 4)]⟩⟩ (by decide +kernel)
  have nothing : (⟨"ok", [("throughput", .float 100), ("other", .float 4)]⟩ : Result).number "p95_ms" = none := by
    decide +kernel
  cases found.symm.trans nothing

end RepidBench.LatencyTables
