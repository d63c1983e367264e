import RepidBench.ChartData
import RepidBench.Csv

/-!
The logs as the text of their files. `csv.writer` quotes the fields that need it and
`csv.reader` reads every record back, so a log is continued by what is appended to
its text, and both readers of `benchmarks_results.csv` load from the characters of
the file what its rows hold.
-/
namespace RepidBench.LogText
open ChartData Csv Decimal Sessions ThroughputCsv

/-- What `csv.writer` writes for these records, one `writerow` after the other. -/
def logText (records : List (List String)) : List Char := writeRows (records.map (List.map String.toList))

/-- The records of a file, as `csv.reader` gives them; `none` is `csv.Error`. -/
def readRecords (text : List Char) : Option (List (List String)) :=
  (Csv.read text).map (List.map (List.map String.ofList))

/-- No field is longer than the reader allows. -/
def FieldsFit (records : List (List String)) : Prop :=
  ∀ fields ∈ records, ∀ text ∈ fields, text.length ≤ fieldSizeLimit

theorem readRecords_logText {records : List (List String)} (fit : FieldsFit records) :
    readRecords (logText records) = some records := by
  have short : ∀ fields ∈ records.map (List.map String.toList), ∀ text ∈ fields, text.length ≤ fieldSizeLimit := by
    intro fields member text inside
    obtain ⟨record, inRecords, rfl⟩ := List.mem_map.mp member
    obtain ⟨field, inRecord, rfl⟩ := List.mem_map.mp inside
    rw [String.length_toList]
    exact fit record inRecords field inRecord
  rw [readRecords, logText, read_writeRows short, Option.map_some, List.map_map]
  refine congrArg some (List.map_id'' (fun fields => ?_) records)
  rw [Function.comp_apply, List.map_map]
  exact List.map_id'' (fun text => String.ofList_toList) fields

/-- The resume reader of `main`, on the text of the file. -/
def resumeText (args : Args) (text : List Char) : Option Resumed := (readRecords text).bind (resumeReader args)

/-- `load_throughput`, on the text of the file of this name. -/
def loadThroughputText (fileName : String) (text : List Char) : Option (Except LoadError (CategoryData × Attempted)) :=
  (readRecords text).map (loadThroughput fileName)

/-- The names and statuses of a log may hold anything, commas, quotes and line ends
    included: from the characters of the file the resume reader loads what its rows
    hold, and each series of the charts has the throughputs of the ok rows of its
    benchmark, in their order. -/
theorem throughput_log_read_back (str : ℚ → String) (fileName : String) (logged : List (Args × Run))
    (printed : ∀ entry ∈ logged, readNumber (str entry.2.task.sleepTime).toList = some entry.2.task.sleepTime)
    (fit : FieldsFit (csvRecords str logged)) :
    readRecords (logText (csvRecords str logged)) = some (csvRecords str logged) ∧
    (∀ args, resumeText args (logText (csvRecords str logged)) = some (resumedOf (loadRows args (loggedRows logged)))) ∧
    ∃ data attempted, loadThroughputText fileName (logText (csvRecords str logged)) = some (.ok (data, attempted)) ∧
      (∀ cell, held data (splitFramework cell.framework) cell.sleepTime = okThroughputs cell (loggedRows logged)) ∧
      throughputsOf data = ↑((loggedRows logged).filterMap ThroughputRow.okThroughput) ∧
      attemptsOf attempted = logged.length := by
  have read := readRecords_logText fit
  have holds := holdsRows (loggedRows logged)
  refine ⟨read, fun args => ?_, _, ((loggedRows logged).foldl addRow ([], [])).2, ?_, holds.series, holds.throughputs, ?_⟩
  · rw [resumeText, read, Option.bind_some, resumeReader_records args printed]
  · rw [loadThroughputText, read, Option.map_some, loadThroughput_records fileName printed]
  · rw [holds.attempts, loggedRows, List.length_map]

/-- A status that would be two fields if it was not quoted. -/
def strangeStatus : List (Args × Run) :=
  [(oneCell false "repid" 1, okRun "repid" 1 100),
    (oneCell false "repid" 1, { okRun "repid" 2 100 with result := some ⟨"\"ok\",100", []⟩ })]

theorem throughput_log_read_back_quoted :
    ∃ data attempted, loadThroughputText "benchmarks_results.csv" (logText (csvRecords (fixed 1) strangeStatus)) =
      some (.ok (data, attempted)) ∧ attemptsOf attempted = 2 := by
  have printed : ∀ entry ∈ strangeStatus,
      readNumber (fixed 1 entry.2.task.sleepTime).toList = some entry.2.task.sleepTime := by
    decide +kernel
  have fit : FieldsFit (csvRecords (fixed 1) strangeStatus) := by
    unfold FieldsFit
    decide +kernel
  obtain ⟨-, -, data, attempted, loaded, -, -, attempts⟩ :=
    throughput_log_read_back (fixed 1) "benchmarks_results.csv" strangeStatus printed fit
  exact ⟨data, attempted, loaded, attempts⟩

end RepidBench.LogText
