import RepidBench.ResultTables
import RepidBench.ResumeThroughput

/-!
The latency results of a session that is interrupted between two tasks and then
resumed, against those of a session that is not interrupted. The resume reader
rebuilds the throughput results only, so the two agree exactly when the runs that
are not repeated had no percentile to report.
-/
namespace RepidBench.ResumeLatency
open BufferedLog Decimal ResultTables Sessions Specs

/-- The results of the measured runs are a function of their keys. -/
def Follows (outcome : Key → Option Result) (s : Session) : Prop :=
  ∀ run ∈ s.runs, run.task.warmup = false → run.result = outcome run.task.toKey

/-- The measured run of a key. -/
def runOf (outcome : Key → Option Result) (key : Key) : Run := ⟨⟨key, false⟩, outcome key⟩

/-- What the measured run of a key adds to `latency_results`. -/
def keptAt (args : Args) (outcome : Key → Option Result) (place : Cell × Metric) (key : Key) : List ℚ :=
  valuesAt place (((runOf outcome key).effects args).filterMap Effect.keptLatency)

theorem mem_valuesAt {κ β : Type} [DecidableEq κ] {key : κ} {items : List (κ × β)} {value : β} :
    value ∈ valuesAt key items ↔ (key, value) ∈ items := by
  simp only [valuesAt, List.mem_filterMap, Option.ite_none_right_eq_some, Option.some.injEq]
  constructor
  · rintro ⟨⟨key', value'⟩, member, rfl, rfl⟩
    exact member
  · exact fun member => ⟨(key, value), member, rfl, rfl⟩

theorem keepLatency_mem {args : Args} {run : Run} {cell : Cell} {metric : Metric} {value : ℚ} :
    .keepLatency cell metric value ∈ run.effects args ↔
      run.task.warmup = false ∧ isLatency run.task.framework ∧ run.task.framework ∈ args.frameworks ∧
      run.status = "ok" ∧ run.task.toCell = cell ∧ run.keptMetric metric = some value := by
  have metrics : metric ∈ [Metric.throughput, .p50Ms, .p95Ms, .p99Ms] := by cases metric <;> simp
  have inMetrics : .keepLatency cell metric value ∈ run.metricEffects ↔
      run.task.toCell = cell ∧ run.keptMetric metric = some value := by
    simp only [Run.metricEffects, List.mem_filterMap, Option.map_eq_some_iff, Effect.keepLatency.injEq]
    constructor
    · rintro ⟨_, -, _, kept, rfl, rfl, rfl⟩
      exact ⟨rfl, kept⟩
    · rintro ⟨rfl, kept⟩
      exact ⟨metric, metrics, value, kept, rfl, rfl, rfl⟩
  cases warmup : run.task.warmup with
  | true => simp [Run.effects, warmup]
  | false =>
    have first : .keepLatency cell metric value ∈ run.effects args ↔
        .keepLatency cell metric value ∈ run.latencyEffects args := by
      cases run.keptThroughput <;> simp [Run.effects, Run.record, warmup]
    rw [first]
    simp only [Run.latencyEffects]
    split
    · rename_i latency
      simp only [Bool.and_eq_true, List.contains_iff_mem, decide_eq_true_eq] at latency
      simp [inMetrics, latency]
    · rename_i other
      constructor
      · intro member
        split at member <;> simp at member
      · rintro ⟨-, latency, inFrameworks, ok, -⟩
        simp [latency, inFrameworks, ok] at other

theorem mem_keptAt {args : Args} {outcome : Key → Option Result} {cell : Cell} {metric : Metric} {key : Key}
    {value : ℚ} :
    value ∈ keptAt args outcome (cell, metric) key ↔
      isLatency key.framework ∧ key.framework ∈ args.frameworks ∧ (runOf outcome key).status = "ok" ∧
      key.toCell = cell ∧ (runOf outcome key).keptMetric metric = some value := by
  rw [keptAt, mem_valuesAt, List.mem_filterMap]
  have item : (∃ effect ∈ (runOf outcome key).effects args,
      effect.keptLatency = some ((cell, metric), value)) ↔
      .keepLatency cell metric value ∈ (runOf outcome key).effects args := by
    constructor
    · rintro ⟨effect, member, kept⟩
      cases effect <;> cases kept
      exact member
    · exact fun member => ⟨_, member, rfl⟩
  rw [item, keepLatency_mem]
  simp [runOf]

/-! ## A session that is completed -/

section
variable {s : Session} {outcome : Key → Option Result}

theorem run_kept (args : Args) {run : Run} (own : run.task.warmup = false → run.result = outcome run.task.toKey)
    (place : Cell × Metric) :
    valuesAt place ((run.effects args).filterMap Effect.keptLatency) =
      run.task.measuredKey.toList.flatMap (keptAt args outcome place) := by
  cases warmup : run.task.warmup with
  | true => simp [Run.effects, warmup, Effect.keptLatency, Task.measuredKey, valuesAt]
  | false =>
    have same : run = runOf outcome run.task.toKey := by
      obtain ⟨⟨key, isWarmup⟩, result⟩ := run
      cases warmup
      have result_eq : result = outcome key := own rfl
      subst result_eq
      rfl
    have key : run.task.measuredKey = some run.task.toKey := by simp [Task.measuredKey, warmup]
    rw [key, Option.toList_some, List.flatMap_singleton, keptAt, ← same]

/-- Its latency results, from the keys of its measured tasks. -/
theorem completed_results (follows : Follows outcome s) (completed : s.ending = .completed) (files : Files)
    (place : Cell × Metric) :
    (s.closed files).latencyResults place =
      ((s.runs.map Run.task).filterMap Task.measuredKey).flatMap (keptAt s.args outcome place) := by
  have all : ∀ runs : List Run, (∀ run ∈ runs, run.task.warmup = false → run.result = outcome run.task.toKey) →
      valuesAt place ((runs.flatMap (Run.effects s.args)).filterMap Effect.keptLatency) =
        ((runs.map Run.task).filterMap Task.measuredKey).flatMap (keptAt s.args outcome place) := by
    intro runs
    induction runs with
    | nil => exact fun _ => rfl
    | cons run rest ih =>
      intro own
      rw [List.flatMap_cons, List.filterMap_append, valuesAt_append, run_kept s.args (own run List.mem_cons_self),
        ih (fun other member => own other (List.mem_cons_of_mem run member)), List.map_cons, List.filterMap_cons]
      cases run.task.measuredKey <;> simp
  have loop : s.loop s.leaves.1 s.leaves.2 = s.runs.flatMap (Run.effects s.args) := by
    simp [Session.loop, Session.current, Session.leaves, completed]
  rw [Session.closed_latencyResults, loop, all s.runs follows]

end

/-! ## The tasks that are left -/

theorem measuredKeys_cell (args : Args) (skipSet : List Key) (cell : Cell) :
    (cellTasks args skipSet cell).filterMap Task.measuredKey =
      ((cellTasks args [] cell).filterMap Task.measuredKey).filter (· ∉ skipSet) := by
  unfold cellTasks
  split
  · rfl
  · simp only [List.filterMap_append, List.filterMap_map, List.filter_append]
    have warmups : ∀ runs : List Nat,
        runs.filterMap (Task.measuredKey ∘ fun run => ({ cell with run := run, warmup := true } : Task)) = [] := by
      intro runs
      simp [Task.measuredKey]
    have measured : ∀ runs : List Nat,
        runs.filterMap (Task.measuredKey ∘ fun run => ({ cell with run := run, warmup := false } : Task)) =
          runs.map (fun run => ({ cell with run := run } : Key)) := by
      intro runs
      simp [Task.measuredKey, Function.comp_def]
    rw [warmups, measured, measured, List.filter_map]
    simp [Function.comp_def]

/-- The keys that remain are those that are not skipped. -/
theorem measuredKeys_tasks (args : Args) (skipSet : List Key) :
    (tasks args skipSet).filterMap Task.measuredKey =
      ((tasks args []).filterMap Task.measuredKey).filter (· ∉ skipSet) := by
  simp only [tasks, List.filterMap_flatMap, List.filter_flatMap, measuredKeys_cell args skipSet]

/-- A flat map over a list, from its two parts. -/
theorem flatMap_parts {κ β : Type} (p : κ → Bool) (g : κ → List β) (keys : List κ) :
    (keys.flatMap g).Perm ((keys.filter p).flatMap g ++ (keys.filter (fun key => !p key)).flatMap g) := by
  rw [← List.flatMap_append]
  exact (List.filter_append_perm p keys).symm.flatMap_right g

/-! ## Interrupted and resumed, or not -/

/-- A session, interrupted after some tasks, the session that resumes it, and a session
    with the same arguments that is not interrupted. -/
structure Resumed (args : Args) (outcome : Key → Option Result) (finished : Nat) (files wholeFiles : Files)
    (first second whole : Session) : Prop where
  fresh : args.resume = false
  firstArgs : first.args = args
  secondArgs : second.args = { args with resume := true }
  wholeArgs : whole.args = args
  firstEnding : first.ending = .interrupted finished 0
  secondEnding : second.ending = .completed
  wholeEnding : whole.ending = .completed
  firstRuns : first.Admissible files
  secondRuns : second.Admissible (first.leftFiles files)
  wholeRuns : whole.Admissible wholeFiles
  firstFollows : Follows outcome first
  secondFollows : Follows outcome second
  wholeFollows : Follows outcome whole

/-- A measured run of a latency benchmark that is recorded as ok, and that had a
    percentile to report. -/
def Lost (run : Run) : Prop :=
  run.task.warmup = false ∧ isLatency run.task.framework ∧ run.status = "ok" ∧ run.throughput ≠ none ∧
  ∃ metric ∈ percentiles, ∃ value, run.outcome.number metric.key = some value ∧ 0 < value

/-- The same latency results, up to the three decimals of the log, and the same tables. -/
def SameTables (args : Args) (xs ys : Cell × Metric → List ℚ) : Prop :=
  (∀ fw ∈ latencyFrameworks args, ∀ st ∈ args.sleepTimesFor fw, ∀ metric ∈ percentiles,
    ((xs (⟨fw, st⟩, metric)).map (rounded 3)).Perm ((ys (⟨fw, st⟩, metric)).map (rounded 3))) ∧
  printLatencyTable args xs = printLatencyTable args ys

section
variable {args : Args} {outcome : Key → Option Result} {finished : Nat} {files wholeFiles : Files}
  {first second whole : Session}

/-- The resumed session skips the finished runs that are ok with a throughput. -/
theorem mem_skipSet (r : Resumed args outcome finished files wholeFiles first second whole) (key : Key) :
    key ∈ second.loaded.skipSet ↔ ∃ run ∈ first.runs.take finished,
      run.task.warmup = false ∧ run.status = "ok" ∧ run.throughput ≠ none ∧ run.task.toKey = key := by
  have survives : ∀ point, first.ending ≠ .killed point := by simp [r.firstEnding]
  have fresh : first.args.resume = false := by rw [r.firstArgs, r.fresh]
  have leaves : first.leaves = (finished, 0) := by simp [Session.leaves, r.firstEnding]
  have rows : throughputCsv.rows first finished 0 =
      (first.runs.take finished).filterMap (Run.throughputRecord first.args) := by
    have nothing : first.current finished 0 = [] := by
      unfold Session.current
      split <;> rfl
    rw [Csv.rows, Session.loop_filterMap throughputCsv.row (throughputCsv.record first.args)
      (throughputCsv.effects_row first.args), nothing]
    exact List.append_nil _
  have holds : Holds ((first.runs.take finished).filterMap (Run.throughputRecord first.args))
      (first.leftFiles files).throughput := by
    have unused : first.args.resume = true → Holds [] (throughputCsv.file files) := by simp [fresh]
    have closed := throughputCsv.closed_holds unused
    rw [ResumeThroughput.leftFiles_closed survives, ← rows]
    simpa [continued, fresh, leaves, throughputCsv] using closed
  rw [r.secondRuns.loaded_eq (fun _ => holds), loadRows_skipSet, r.secondArgs]
  simp only [continued, if_true, List.mem_filterMap, Option.map_eq_some_iff]
  constructor
  · rintro ⟨row, ⟨run, member, writes⟩, value, ok, rfl⟩
    refine ⟨run, member, ?_⟩
    by_cases warmup : run.task.warmup
    · simp [Run.throughputRecord, warmup] at writes
    · obtain rfl : run.throughputRow first.args = row := by simpa [Run.throughputRecord, warmup] using writes
      by_cases isOk : run.status = "ok"
      · refine ⟨by simpa using warmup, isOk, ?_, rfl⟩
        intro nothing
        simp [ThroughputRow.okThroughput, Run.throughputRow, nothing] at ok
      · simp [ThroughputRow.okThroughput, Run.throughputRow, isOk] at ok
  · rintro ⟨run, member, warmup, ok, throughput, rfl⟩
    obtain ⟨value, found⟩ := Option.ne_none_iff_exists'.mp throughput
    refine ⟨run.throughputRow first.args, ⟨run, member, by simp [Run.throughputRecord, warmup]⟩,
      rounded 2 value, ?_, rfl⟩
    simp [ThroughputRow.okThroughput, Run.throughputRow, ok, found]

/-- The keys that a session without `--resume` runs. -/
theorem fresh_keys {s : Session} {files : Files} (admissible : s.Admissible files) (fresh : s.args.resume = false) :
    ((s.runs.map Run.task).filterMap Task.measuredKey).Perm ((tasks s.args []).filterMap Task.measuredKey) := by
  have unused : s.args.resume = true → Holds [] files.throughput := by simp [fresh]
  have loaded := admissible.loaded_eq unused
  have order := admissible.order.perm
  rw [loaded, fresh] at order
  exact order.filterMap Task.measuredKey

/-- The results of the resumed session and of the other one, from the same keys. -/
theorem results_perm (r : Resumed args outcome finished files wholeFiles first second whole) (place : Cell × Metric) :
    let keys := (tasks args []).filterMap Task.measuredKey
    ((second.closed (first.leftFiles files)).latencyResults place).Perm
      ((keys.filter (· ∉ second.loaded.skipSet)).flatMap (keptAt args outcome place)) ∧
    ((whole.closed wholeFiles).latencyResults place).Perm (keys.flatMap (keptAt args outcome place)) := by
  constructor
  · have order := r.secondRuns.order.perm.filterMap Task.measuredKey
    rw [measuredKeys_tasks, r.secondArgs] at order
    rw [completed_results r.secondFollows r.secondEnding, r.secondArgs]
    exact order.flatMap_right (keptAt args outcome place)
  · have order := fresh_keys r.wholeRuns (by rw [r.wholeArgs, r.fresh])
    rw [completed_results r.wholeFollows r.wholeEnding]
    rw [r.wholeArgs] at order ⊢
    exact order.flatMap_right (keptAt args outcome place)

theorem keptMetric_percentile {run : Run} {metric : Metric} (isPercentile : metric ∈ percentiles) {value : ℚ} :
    run.keptMetric metric = some value ↔ run.outcome.number metric.key = some value ∧ 0 < value := by
  have other : metric ≠ .throughput := by
    rintro rfl
    simp [percentiles] at isPercentile
  simp [Run.keptMetric, Option.filter_eq_some_iff, other]

/-- A run that is lost is one of a skipped key, which would have added a value. -/
theorem lost_iff (r : Resumed args outcome finished files wholeFiles first second whole) :
    (∃ run ∈ first.runs.take finished, Lost run) ↔
    ∃ key ∈ (tasks args []).filterMap Task.measuredKey, key ∈ second.loaded.skipSet ∧
      ∃ metric ∈ percentiles, keptAt args outcome (key.toCell, metric) key ≠ [] := by
  have order := fresh_keys r.firstRuns (by rw [r.firstArgs, r.fresh])
  rw [r.firstArgs] at order
  have own : ∀ run ∈ first.runs.take finished, run.task.warmup = false →
      run.outcome = (runOf outcome run.task.toKey).outcome := by
    intro run member measured
    have result := r.firstFollows run (List.mem_of_mem_take member) measured
    simp [Run.outcome, runOf, result]
  constructor
  · rintro ⟨run, member, measured, latency, ok, throughput, metric, isPercentile, value, found⟩
    have inKeys : run.task.toKey ∈ (tasks args []).filterMap Task.measuredKey := by
      refine order.subset (List.mem_filterMap.mpr ⟨run.task, List.mem_map_of_mem (List.mem_of_mem_take member), ?_⟩)
      simp [Task.measuredKey, measured]
    refine ⟨run.task.toKey, inKeys, (mem_skipSet r _).mpr ⟨run, member, measured, ok, throughput, rfl⟩, metric,
      isPercentile, ?_⟩
    have inFrameworks : run.task.framework ∈ args.frameworks := (mem_measuredKeys.mp inKeys).1.1
    have status : (runOf outcome run.task.toKey).status = "ok" := by
      rw [Run.status, ← own run member measured]
      exact ok
    rw [own run member measured] at found
    exact List.ne_nil_of_mem
      (mem_keptAt.mpr ⟨latency, inFrameworks, status, rfl, (keptMetric_percentile isPercentile).mpr found⟩)
  · rintro ⟨key, inKeys, skipped, metric, isPercentile, nonempty⟩
    obtain ⟨run, member, measured, ok, throughput, rfl⟩ := (mem_skipSet r key).mp skipped
    obtain ⟨value, kept⟩ := List.exists_mem_of_ne_nil _ nonempty
    obtain ⟨latency, -, -, -, found⟩ := mem_keptAt.mp kept
    refine ⟨run, member, measured, latency, ok, throughput, metric, isPercentile, value, ?_⟩
    rw [own run member measured]
    exact (keptMetric_percentile isPercentile).mp found

/-- The resumed sessions report the same latency tables exactly when no run that is
    not repeated had a percentile to report. -/
theorem resumed_tables_iff (r : Resumed args outcome finished files wholeFiles first second whole) :
    SameTables args (second.closed (first.leftFiles files)).latencyResults (whole.closed wholeFiles).latencyResults ↔
      ∀ run ∈ first.runs.take finished, ¬ Lost run := by
  have lost := (lost_iff r).not
  push Not at lost
  rw [lost]
  constructor
  · rintro ⟨same, -⟩ key inKeys skipped metric isPercentile
    -- the lists of the two sessions differ in length by what the skipped keys add
    obtain ⟨resumed, notResumed⟩ := results_perm r (key.toCell, metric)
    by_contra nonempty
    obtain ⟨value, kept⟩ := List.exists_mem_of_ne_nil _ nonempty
    obtain ⟨latency, inFrameworks, -⟩ := mem_keptAt.mp kept
    have inTimes : key.sleepTime ∈ args.sleepTimesFor key.framework := (mem_measuredKeys.mp inKeys).1.2.1
    have listed : key.framework ∈ latencyFrameworks args := by simp [latencyFrameworks, latency, inFrameworks]
    have lengths := (same key.framework listed key.sleepTime inTimes metric isPercentile).length_eq
    have parts := (flatMap_parts (· ∉ second.loaded.skipSet) (keptAt args outcome (key.toCell, metric))
      ((tasks args []).filterMap Task.measuredKey)).length_eq
    rw [List.length_map, List.length_map, resumed.length_eq, notResumed.length_eq, parts, List.length_append] at lengths
    have member : value ∈ (((tasks args []).filterMap Task.measuredKey).filter
        (fun key => !decide (key ∉ second.loaded.skipSet))).flatMap (keptAt args outcome (key.toCell, metric)) :=
      List.mem_flatMap.mpr ⟨key, List.mem_filter.mpr ⟨inKeys, by simpa using skipped⟩, kept⟩
    have := List.length_pos_of_mem member
    omega
  · intro nothing
    have perm : ∀ fw ∈ latencyFrameworks args, ∀ st ∈ args.sleepTimesFor fw, ∀ metric ∈ percentiles,
        ((second.closed (first.leftFiles files)).latencyResults (⟨fw, st⟩, metric)).Perm
          ((whole.closed wholeFiles).latencyResults (⟨fw, st⟩, metric)) := by
      intro fw _ st _ metric isPercentile
      obtain ⟨resumed, notResumed⟩ := results_perm r (⟨fw, st⟩, metric)
      refine resumed.trans (List.Perm.trans ?_ notResumed.symm)
      have parts := flatMap_parts (· ∉ second.loaded.skipSet) (keptAt args outcome (⟨fw, st⟩, metric))
        ((tasks args []).filterMap Task.measuredKey)
      have skippedPart : (((tasks args []).filterMap Task.measuredKey).filter
          (fun key => !decide (key ∉ second.loaded.skipSet))).flatMap
            (keptAt args outcome (⟨fw, st⟩, metric)) = [] := by
        rw [List.flatMap_eq_nil_iff]
        intro key member
        obtain ⟨inKeys, skipped⟩ := List.mem_filter.mp member
        by_contra nonempty
        obtain ⟨value, kept⟩ := List.exists_mem_of_ne_nil _ nonempty
        have cell : key.toCell = ⟨fw, st⟩ := (mem_keptAt.mp kept).2.2.2.1
        rw [← cell] at nonempty
        exact nonempty (nothing key inKeys (by simpa using skipped) metric isPercentile)
      rw [skippedPart, List.append_nil] at parts
      exact parts.symm
    refine ⟨?_, printLatencyTable_perm perm⟩
    intro fw inFrameworks st inTimes metric isPercentile
    exact (perm fw inFrameworks st inTimes metric isPercentile).map (rounded 3)

end

/-! ## Two latency runs, interrupted between them -/

def latencyOutcome (key : Key) : Option Result :=
  some ⟨"ok", [("throughput", .float 100), ("p50_ms", .float (10 * key.run)), ("p95_ms", .float (20 * key.run)),
    ("p99_ms", .float (30 * key.run))]⟩

def latencyRun (run : Nat) : Run := runOf latencyOutcome ⟨⟨"repid_latency", 1⟩, run⟩

/-- A session with the two runs. -/
def twoRuns (ending : Ending) : Session where
  args := oneCell false "repid_latency" 2
  loaded := loadRows (oneCell false "repid_latency" 2) []
  runs := [latencyRun 1, latencyRun 2]
  ending := ending

def secondRun : Session where
  args := oneCell true "repid_latency" 2
  loaded := loadRows (oneCell true "repid_latency" 2) [(latencyRun 1).throughputRow (oneCell false "repid_latency" 2)]
  runs := [latencyRun 2]
  ending := .completed

theorem latencyRuns_follow {s : Session} (runs : ∀ run ∈ s.runs, ∃ n, latencyRun n = run) :
    Follows latencyOutcome s := by
  intro run member _
  obtain ⟨n, rfl⟩ := runs run member
  rfl

theorem twoRuns_resumed : Resumed (oneCell false "repid_latency" 2) latencyOutcome 1 .absent .absent
    (twoRuns (.interrupted 1 0)) secondRun (twoRuns .completed) := by
  have left : ((twoRuns (.interrupted 1 0)).leftFiles .absent).throughput.durable = some [.header,
      .row ((latencyRun 1).throughputRow (oneCell false "repid_latency" 2))] := by decide +kernel
  refine ⟨rfl, rfl, rfl, rfl, rfl, rfl, rfl, ⟨rfl, .inl (by decide +kernel)⟩, ⟨?_, .inl (by decide +kernel)⟩,
    ⟨rfl, .inl (by decide +kernel)⟩, ?_, ?_, ?_⟩
  · simp only [Session.resumeRows, left]
    rfl
  all_goals
    apply latencyRuns_follow
    simp [twoRuns, secondRun]

theorem resumed_tables_iff_twoRuns :
    SameTables (oneCell false "repid_latency" 2)
      (secondRun.closed ((twoRuns (.interrupted 1 0)).leftFiles .absent)).latencyResults
      ((twoRuns .completed).closed .absent).latencyResults ↔ ∀ run ∈ [latencyRun 1], ¬ Lost run :=
  resumed_tables_iff twoRuns_resumed

/-- The resumed session reports one value for p50 where the other reports two. -/
theorem resumed_tables_differ :
    let xs := (secondRun.closed ((twoRuns (.interrupted 1 0)).leftFiles .absent)).latencyResults
    let ys := ((twoRuns .completed).closed .absent).latencyResults
    Resumed (oneCell false "repid_latency" 2) latencyOutcome 1 .absent .absent
      (twoRuns (.interrupted 1 0)) secondRun (twoRuns .completed) ∧
    xs (⟨"repid_latency", 1⟩, .p50Ms) = [20] ∧ ys (⟨"repid_latency", 1⟩, .p50Ms) = [10, 20] ∧
    fmtCell (xs (⟨"repid_latency", 1⟩, .p50Ms)) = "20.0" ∧
    fmtCell (ys (⟨"repid_latency", 1⟩, .p50Ms)) = "15.0±7.1" ∧
    ¬ SameTables (oneCell false "repid_latency" 2) xs ys := by
  intro xs ys
  have resumed : xs (⟨"repid_latency", 1⟩, .p50Ms) = [20] := by decide +kernel
  have whole : ys (⟨"repid_latency", 1⟩, .p50Ms) = [10, 20] := by decide +kernel
  refine ⟨twoRuns_resumed, resumed, whole, ?_, ?_, ?_⟩
  · rw [resumed]
    decide +kernel
  · rw [whole]
    decide +kernel
  · rintro ⟨same, -⟩
    have lengths := (same "repid_latency" (by decide +kernel) 1 (by decide +kernel) .p50Ms (by decide)).length_eq
    rw [resumed, whole] at lengths
    cases lengths

end RepidBench.ResumeLatency
