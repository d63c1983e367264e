import Mathlib.Algebra.BigOperators.Group.Multiset.Basic
import RepidBench.NestedLists
import RepidBench.ThroughputCsv

/-!
The throughputs that `plot_benchmarks.py` reads from the log: `split_framework` makes
a chart and a series of the name of a benchmark, and `load_throughput` collects the
values of each series. They are those that the resume reader of `main` collects, and
no two benchmarks share a series.
-/
namespace RepidBench.ChartData
open Decimal Dictionaries Sessions ThroughputCsv

/-! ## Names -/

/-- `KNOWN_CATEGORIES`. -/
def knownCategories : List String := ["hc", "cpu", "burst", "latency", "steady"]

/-- The characters of `f"_{category}"`. -/
def suffixOf (category : String) : List Char := '_' :: category.toList

/-- `split_framework`: the framework, which names a series, and the category, which
    names a chart. -/
def splitFramework (raw : String) : String × String :=
  match knownCategories.find? (fun category => suffixOf category <:+ raw.toList) with
  | some category => (String.ofList (raw.toList.rdrop (suffixOf category).length), category)
  | none => (raw, "base")

/-- The name of the benchmark of a series. -/
def joinFramework (series : String × String) : String :=
  if series.2 = "base" then series.1 else String.ofList (series.1.toList ++ suffixOf series.2)

theorem joinFramework_splitFramework (raw : String) : joinFramework (splitFramework raw) = raw := by
  unfold splitFramework
  cases found : knownCategories.find? (fun category => suffixOf category <:+ raw.toList) with
  | none => rfl
  | some category =>
    have known : category ∈ knownCategories := List.mem_of_find?_eq_some found
    have notBase : category ≠ "base" := by
      rintro rfl
      exact absurd known (by decide)
    obtain ⟨framework, split⟩ : suffixOf category <:+ raw.toList := by simpa using List.find?_some found
    rw [joinFramework, if_neg notBase, String.toList_ofList, ← split, List.rdrop_append_length, split,
      String.ofList_toList]

theorem splitFramework_injective : Function.Injective splitFramework :=
  Function.LeftInverse.injective joinFramework_splitFramework

/-! ## Values -/

/-- The values of each framework at each sleep time. -/
abbrev Series := List (String × List (ℚ × List ℚ))

/-- The series of each category. -/
abbrev CategoryData := List (String × Series)

/-- The number of rows of each framework at each sleep time. -/
abbrev Attempted := List (String × List (ℚ × ℕ))

/-- `data[category][framework][sleep_time].append(throughput)`. -/
def appendThroughput (data : CategoryData) (series : String × String) (sleepTime throughput : ℚ) : CategoryData :=
  NestedLists.append data (series.2, series.1, sleepTime) throughput

/-- `attempted[framework][sleep_time] += 1`. -/
def countAttempt (attempted : Attempted) (framework : String) (sleepTime : ℚ) : Attempted :=
  update framework [] (update sleepTime 0 (· + 1)) attempted

/-- `data[category][framework][sleep_time]`. -/
def held (data : CategoryData) (series : String × String) (sleepTime : ℚ) : List ℚ :=
  NestedLists.held data (series.2, series.1, sleepTime)

/-- The values of a framework, of a category and of all categories. -/
def pointsOf (points : List (ℚ × List ℚ)) : Multiset ℚ := (points.map (fun point => (point.2 : Multiset ℚ))).sum
def seriesOf (series : Series) : Multiset ℚ := (series.map (fun points => pointsOf points.2)).sum
def throughputsOf (data : CategoryData) : Multiset ℚ := (data.map (fun series => seriesOf series.2)).sum

/-- The rows of a framework and of all frameworks. -/
def rowsOf (bySleep : List (ℚ × ℕ)) : ℕ := (bySleep.map (fun entry => entry.2)).sum
def attemptsOf (attempted : Attempted) : ℕ := (attempted.map (fun bySleep => rowsOf bySleep.2)).sum

/-! ## Loading -/

/-- The exceptions of `load_throughput`: its own `ValueError`, and those of a row. -/
inductive LoadError
  | missingColumns (message : String)
  | row
  deriving DecidableEq

/-- `required`, sorted. -/
def required : List String := ["framework", "sleep_time", "throughput_msg_per_sec"]

/-- The body of the loop over `reader`. -/
def loadRow (loaded : CategoryData × Attempted) (row : DictRow) : Option (CategoryData × Attempted) := do
  let series := splitFramework (← field row "framework")
  let sleepTime ← floatField row "sleep_time"
  let status := getField row "status" (some "ok")
  let attempted := countAttempt loaded.2 series.1 sleepTime
  if status = some "ok" ∧ truthy (getField row "throughput_msg_per_sec" none) then
    let throughput ← floatField row "throughput_msg_per_sec"
    return (appendThroughput loaded.1 series sleepTime throughput, attempted)
  else
    return (loaded.1, attempted)

/-- `load_throughput` of the file of this name. -/
def loadThroughput (fileName : String) (records : List (List String)) : Except LoadError (CategoryData × Attempted) :=
  let missing := required.filter (· ∉ fieldnames records)
  if missing ≠ [] then .error (.missingColumns (fileName ++ " is missing columns: " ++ ", ".intercalate missing))
  else
    match (dictRows records).foldlM loadRow ([], []) with
    | none => .error .row
    | some loaded => .ok loaded

/-- What a row of the log adds. -/
def addRow (loaded : CategoryData × Attempted) (row : ThroughputRow) : CategoryData × Attempted :=
  (match row.okThroughput with
    | none => loaded.1
    | some throughput =>
      appendThroughput loaded.1 (splitFramework row.key.framework) row.key.sleepTime throughput,
    countAttempt loaded.2 (splitFramework row.key.framework).1 row.key.sleepTime)

section
variable {str : ℚ → String}

theorem loadRow_read {row : DictRow} {written : ThroughputRow} (read : ReadBack row written)
    (loaded : CategoryData × Attempted) : loadRow loaded row = some (addRow loaded written) := by
  simp only [loadRow, read.framework, read.sleepTime, read.accepted, Option.bind_eq_bind, Option.bind_some]
  cases found : written.okThroughput with
  | none => simp [addRow, found]
  | some value => simp [addRow, found, read.throughput value found]

/-- From the records `load_throughput` loads what the rows add. -/
theorem loadThroughput_records (fileName : String) {logged : List (Args × Run)}
    (printed : ∀ entry ∈ logged, readNumber (str entry.2.task.sleepTime).toList = some entry.2.task.sleepTime) :
    loadThroughput fileName (csvRecords str logged) = .ok ((loggedRows logged).foldl addRow ([], [])) := by
  have names : fieldnames (csvRecords str logged) = throughputCsvHeader := rfl
  have complete : required.filter (· ∉ throughputCsvHeader) = [] := by decide
  have read : (dictRows (csvRecords str logged)).foldlM loadRow ([], []) =
      some ((loggedRows logged).foldl addRow ([], [])) :=
    foldlM_records id (fun _ _ loaded read => loadRow_read read loaded) printed ([], [])
  rw [loadThroughput, names, complete, read]
  rfl

end

/-! ## What is held -/

theorem held_append (data : CategoryData) (series other : String × String) (sleepTime time throughput : ℚ) :
    held (appendThroughput data series sleepTime throughput) other time =
      held data other time ++ if other = series ∧ time = sleepTime then [throughput] else [] := by
  have keys : (other.2, other.1, time) = (series.2, series.1, sleepTime) ↔ other = series ∧ time = sleepTime := by
    simp only [Prod.ext_iff]
    tauto
  rw [held, held, appendThroughput, NestedLists.held_append, if_congr keys rfl rfl]

theorem throughputsOf_append (data : CategoryData) (series : String × String) (sleepTime throughput : ℚ) :
    throughputsOf (appendThroughput data series sleepTime throughput) = throughputsOf data + {throughput} := by
  refine sum_update seriesOf rfl (fun _ => ?_)
  refine sum_update pointsOf rfl (fun _ => ?_)
  refine sum_update (fun values : List ℚ => (values : Multiset ℚ)) rfl (fun values => ?_)
  exact (Multiset.coe_add values [throughput]).symm

theorem attemptsOf_count (attempted : Attempted) (framework : String) (sleepTime : ℚ) :
    attemptsOf (countAttempt attempted framework sleepTime) = attemptsOf attempted + 1 :=
  sum_update rowsOf rfl (fun _ => sum_update id rfl (fun _ => rfl))

/-- What is held after some rows, of the throughputs and of the rows themselves. -/
structure HoldsRows (loaded : CategoryData × Attempted) (rows : List ThroughputRow) : Prop where
  series : ∀ cell, held loaded.1 (splitFramework cell.framework) cell.sleepTime = okThroughputs cell rows
  throughputs : throughputsOf loaded.1 = ↑(rows.filterMap ThroughputRow.okThroughput)
  attempts : attemptsOf loaded.2 = rows.length

theorem HoldsRows.grows {loaded : CategoryData × Attempted} {rows : List ThroughputRow} (holds : HoldsRows loaded rows)
    (row : ThroughputRow) : HoldsRows (addRow loaded row) (rows ++ [row]) := by
  have attempts : attemptsOf (addRow loaded row).2 = (rows ++ [row]).length := by
    rw [List.length_append, List.length_singleton, ← holds.attempts]
    exact attemptsOf_count _ _ _
  cases found : row.okThroughput with
  | none =>
    have same : (addRow loaded row).1 = loaded.1 := by simp [addRow, found]
    refine ⟨fun cell => ?_, ?_, attempts⟩
    · rw [same, holds.series]
      simp [okThroughputs, ThroughputRow.okItem, found]
    · rw [same, holds.throughputs]
      simp [found]
  | some throughput =>
    have more : (addRow loaded row).1 =
        appendThroughput loaded.1 (splitFramework row.key.framework) row.key.sleepTime throughput := by
      simp [addRow, found]
    refine ⟨fun cell => ?_, ?_, attempts⟩
    · have own : splitFramework cell.framework = splitFramework row.key.framework ∧ cell.sleepTime = row.key.sleepTime ↔
          row.key.toCell = cell := by
        rw [splitFramework_injective.eq_iff, ← Cell.mk.injEq]
        exact eq_comm
      have item : row.okItem = some (row.key.toCell, throughput) := by simp [ThroughputRow.okItem, found]
      rw [more, held_append, holds.series, okThroughputs, okThroughputs, List.filterMap_append, valuesAt_append,
        List.filterMap_cons_some item]
      by_cases same : row.key.toCell = cell
      · rw [if_pos (own.mpr same)]
        simp [valuesAt, same]
      · rw [if_neg (fun both => same (own.mp both))]
        simp [valuesAt, same]
    · have values : (rows ++ [row]).filterMap ThroughputRow.okThroughput =
          rows.filterMap ThroughputRow.okThroughput ++ [throughput] := by
        simp [found]
      rw [more, throughputsOf_append, holds.throughputs, values]
      exact Multiset.coe_add _ [throughput]

theorem holdsRows (rows : List ThroughputRow) : HoldsRows (rows.foldl addRow ([], [])) rows := by
  induction rows using List.reverseRecOn with
  | nil => exact ⟨fun _ => rfl, rfl, rfl⟩
  | append_singleton rows row ih =>
    rw [List.foldl_concat]
    exact ih.grows row

/-! ## Both readers of the log -/

/-- For every log of measured runs whose sleep times are read back as they are
    printed: no two benchmarks share a series; each series holds the throughputs of
    the ok rows of its benchmark in their order, which is also what the resume reader
    appends for it, if the session that resumes has it; and no row is lost. -/
theorem throughput_readers_agree (str : ℚ → String) (fileName : String) (logged : List (Args × Run))
    (printed : ∀ entry ∈ logged, readNumber (str entry.2.task.sleepTime).toList = some entry.2.task.sleepTime) :
    Function.Injective splitFramework ∧
    ∃ data attempted, loadThroughput fileName (csvRecords str logged) = .ok (data, attempted) ∧
      (∀ cell, held data (splitFramework cell.framework) cell.sleepTime = okThroughputs cell (loggedRows logged)) ∧
      (∀ args, ∃ resumed, resumeReader args (csvRecords str logged) = some resumed ∧
        ∀ cell, resumed.throughputResults cell =
          if args.hasCell cell then held data (splitFramework cell.framework) cell.sleepTime else []) ∧
      throughputsOf data = ↑((loggedRows logged).filterMap ThroughputRow.okThroughput) ∧
      attemptsOf attempted = logged.length := by
  have holds := holdsRows (loggedRows logged)
  refine ⟨splitFramework_injective, _, _, loadThroughput_records fileName printed, holds.series, ?_,
    holds.throughputs, ?_⟩
  · intro args
    refine ⟨_, resumeReader_records args printed, fun cell => ?_⟩
    rw [holds.series]
    by_cases inside : args.hasCell cell
    · rw [if_pos inside]
      exact loadRows_results inside _
    · rw [if_neg inside]
      exact loadRows_outside inside _
  · rw [holds.attempts, loggedRows, List.length_map]

/-- A log of two benchmarks of one framework; whole seconds have one decimal. -/
def twoBenchmarks : List (Args × Run) :=
  [(oneCell false "celery" 1, okRun "celery" 1 100), (oneCell false "celery_hc" 1, okRun "celery_hc" 1 110)]

theorem printed_twoBenchmarks : ∀ entry ∈ twoBenchmarks,
    readNumber (fixed 1 entry.2.task.sleepTime).toList = some entry.2.task.sleepTime := by
  decide +kernel

theorem throughput_readers_agree_two :
    ∃ data attempted, loadThroughput "benchmarks_results.csv" (csvRecords (fixed 1) twoBenchmarks) = .ok (data, attempted) ∧
      held data ("celery", "hc") 1 = [110] ∧ attemptsOf attempted = 2 := by
  obtain ⟨-, data, attempted, loaded, series, -, -, attempts⟩ :=
    throughput_readers_agree (fixed 1) "benchmarks_results.csv" twoBenchmarks printed_twoBenchmarks
  have name : splitFramework "celery_hc" = ("celery", "hc") := by decide +kernel
  have values : okThroughputs ⟨"celery_hc", 1⟩ (loggedRows twoBenchmarks) = [110] := by decide +kernel
  refine ⟨data, attempted, loaded, ?_, attempts⟩
  rw [← name, ← values]
  exact series ⟨"celery_hc", 1⟩

/-- A session that resumes with another benchmark takes nothing of these. -/
theorem resume_skips_other_benchmarks :
    ∃ data attempted resumed,
      loadThroughput "benchmarks_results.csv" (csvRecords (fixed 1) twoBenchmarks) = .ok (data, attempted) ∧
      resumeReader (oneCell true "repid" 1) (csvRecords (fixed 1) twoBenchmarks) = some resumed ∧
      held data (splitFramework "celery") 1 = [100] ∧ resumed.throughputResults ⟨"celery", 1⟩ = [] := by
  refine ⟨_, _, _, loadThroughput_records "benchmarks_results.csv" printed_twoBenchmarks,
    resumeReader_records (oneCell true "repid" 1) printed_twoBenchmarks, ?_, ?_⟩
  · decide +kernel
  · decide +kernel

end RepidBench.ChartData
