import RepidBench.Dictionaries
import RepidBench.TaskList

/-!
`benchmarks_results.csv` as the fields of its records: the record that the task loop
writes for a run, and the resume reader of `main`, which finds the columns by their
names. From the records it loads what `loadRows` loads from the rows they stand for.
-/
namespace RepidBench.ThroughputCsv
open Decimal Dictionaries ParseOutput Sessions

/-! ## Records by the names of their fields -/

/-- A row of a `csv.DictReader`; a field that its record lacks is `None`. -/
abbrev DictRow := List (String × Option String)

/-- The row of a record. Fields beyond the names have no name to be found under. -/
def dictRow (fieldnames fields : List String) : DictRow :=
  assigned (fieldnames.zip (fields.map some ++ List.replicate (fieldnames.length - fields.length) none))

/-- `reader.fieldnames or []`. -/
def fieldnames (records : List (List String)) : List String := records.head?.getD []

/-- The rows of a `csv.DictReader`, which skips empty records. -/
def dictRows (records : List (List String)) : List DictRow :=
  (records.tail.filter (· ≠ [])).map (dictRow (fieldnames records))

/-- `row[key]`; `none` is the exception for a name that is missing, or for the use of
    a field that is `None`. -/
def field (row : DictRow) (key : String) : Option String := (row.lookup key).join

/-- `row.get(key, default)`. -/
def getField (row : DictRow) (key : String) (default : Option String) : Option String := (row.lookup key).getD default

/-- A field that counts as true. -/
def truthy : Option String → Bool
  | none => false
  | some text => text ≠ ""

/-- `float(row[key])`. -/
def floatField (row : DictRow) (key : String) : Option ℚ := (field row key).bind (fun text => readNumber text.toList)

/-- `int(row[key])`. -/
def intField (row : DictRow) (key : String) : Option ℤ := (field row key).bind (fun text => readInteger text.toList)

theorem dictRow_lookup {names fields : List String} (distinct : names.Nodup) {key text : String} (i : Nat)
    (name : names[i]? = some key) (value : fields[i]? = some text) :
    (dictRow names fields).lookup key = some (some text) := by
  rw [dictRow, lookup_assigned]
  refine lookup_of_mem ?_ ?_
  · rw [List.map_reverse, List.nodup_reverse, List.map_fst_zip]
    · exact distinct
    · rw [List.length_append, List.length_map, List.length_replicate]
      omega
  · refine List.mem_reverse.mpr (List.mem_of_getElem? (i := i) ?_)
    have inside : i < (fields.map some).length := by
      rw [List.length_map]
      exact (List.getElem?_eq_some_iff.mp value).1
    rw [List.getElem?_zip_eq_some, List.getElem?_append_left inside, List.getElem?_map, value]
    exact ⟨name, rfl⟩

/-! ## The records of the log -/

/-- `THROUGHPUT_CSV_HEADER`. -/
def throughputCsvHeader : List String := [
  "framework", "sleep_time", "run", "status", "throughput_msg_per_sec", "tasks_done", "total_messages",
  "duration_seconds", "tail_95_to_100_seconds", "tail_98_to_100_seconds", "tail_99_to_100_seconds",
  "tail_995_to_100_seconds", "burst_publish_seconds", "burst_recovery_seconds"]

section
-- How `str` prints a `float`.
variable (str : ℚ → String)

/-- A value as `csv` writes it. -/
def valueText : Value → String
  | .str word => word
  | .int n => toString n
  | .float x => str x

/-- `f"{x:.{places}f}"` for a number of the result, and nothing without it. -/
def columnText (run : Run) (places : Nat) (key : String) : String := (run.outcome.number key).elim "" (fixed places)

/-- The fields that the loop writes for a run. -/
def recordOf (args : Args) (run : Run) : List String := [
  run.task.framework,
  str run.task.sleepTime,
  toString run.task.run,
  run.status,
  columnText run 2 "throughput",
  (run.outcome.entries.lookup "tasks_done").elim "" (valueText str),
  (run.outcome.entries.lookup "total_messages").elim
    ((args.messagesFor run.task.framework run.task.sleepTime).elim "" toString) (valueText str),
  columnText run 4 "duration_seconds",
  columnText run 4 "tail_95_to_100_seconds",
  columnText run 4 "tail_98_to_100_seconds",
  columnText run 4 "tail_99_to_100_seconds",
  columnText run 4 "tail_995_to_100_seconds",
  columnText run 4 "burst_publish_seconds",
  columnText run 4 "burst_recovery_seconds"]

/-- The log of some measured runs, each with the arguments of its session. -/
def csvRecords (logged : List (Args × Run)) : List (List String) :=
  throughputCsvHeader :: logged.map (fun entry => recordOf str entry.1 entry.2)

/-- The rows of the log. -/
def loggedRows (logged : List (Args × Run)) : List ThroughputRow :=
  logged.map (fun entry => entry.2.throughputRow entry.1)

/-- The rows as a `csv.DictReader` gives them. -/
def dictRowOf (entry : Args × Run) : DictRow := dictRow throughputCsvHeader (recordOf str entry.1 entry.2)

theorem dictRows_records (logged : List (Args × Run)) : dictRows (csvRecords str logged) = logged.map (dictRowOf str) := by
  have full : ∀ fields ∈ logged.map (fun entry => recordOf str entry.1 entry.2), decide (fields ≠ []) = true := by
    intro fields member
    obtain ⟨entry, -, rfl⟩ := List.mem_map.mp member
    simp [recordOf]
  have names : fieldnames (csvRecords str logged) = throughputCsvHeader := rfl
  rw [dictRows, names, csvRecords, List.tail_cons, List.filter_eq_self.mpr full, List.map_map]
  refine List.map_congr_left (fun entry _ => ?_)
  rw [Function.comp_apply, dictRowOf]

/-- The fields that the readers look for. -/
theorem dictRowOf_lookup (entry : Args × Run) :
    (dictRowOf str entry).lookup "framework" = some (some entry.2.task.framework) ∧
    (dictRowOf str entry).lookup "sleep_time" = some (some (str entry.2.task.sleepTime)) ∧
    (dictRowOf str entry).lookup "run" = some (some (toString entry.2.task.run)) ∧
    (dictRowOf str entry).lookup "status" = some (some entry.2.status) ∧
    (dictRowOf str entry).lookup "throughput_msg_per_sec" = some (some (columnText entry.2 2 "throughput")) := by
  have distinct : throughputCsvHeader.Nodup := by decide
  rw [dictRowOf]
  exact ⟨dictRow_lookup distinct 0 rfl rfl, dictRow_lookup distinct 1 rfl rfl, dictRow_lookup distinct 2 rfl rfl,
    dictRow_lookup distinct 3 rfl rfl, dictRow_lookup distinct 4 rfl rfl⟩

end

/-! ## The resume reader -/

/-- What the resume reader has found; run numbers are any integers. -/
structure Resumed where
  skipSet : List (String × ℚ × ℤ)
  throughputResults : Cell → List ℚ

/-- The body of the loop over `reader`; `none` is an exception. -/
def resumeRow (args : Args) (resumed : Resumed) (row : DictRow) : Option Resumed := do
  let fw ← field row "framework"
  let st ← floatField row "sleep_time"
  let runNum ← intField row "run"
  let status := getField row "status" (some "ok")
  if status = some "ok" ∧ truthy (getField row "throughput_msg_per_sec" none) then
    let skipSet := resumed.skipSet ++ [(fw, st, runNum)]
    if args.hasCell ⟨fw, st⟩ then
      let value ← floatField row "throughput_msg_per_sec"
      return ⟨skipSet, appendAt resumed.throughputResults ⟨fw, st⟩ value⟩
    else
      return { resumed with skipSet }
  else
    return resumed

/-- The resume reader of `main`. -/
def resumeReader (args : Args) (records : List (List String)) : Option Resumed :=
  (dictRows records).foldlM (resumeRow args) ⟨[], fun _ => []⟩

/-- What has been loaded from the rows, with the run numbers as they are read. -/
def resumedOf (loaded : Loaded) : Resumed where
  skipSet := loaded.skipSet.map (fun key => (key.framework, key.sleepTime, (key.run : ℤ)))
  throughputResults := loaded.throughputResults

section
variable {str : ℚ → String}

/-- What the readers take from a record is what the row has. -/
structure ReadBack (row : DictRow) (written : ThroughputRow) : Prop where
  framework : field row "framework" = some written.key.framework
  sleepTime : floatField row "sleep_time" = some written.key.sleepTime
  runNum : intField row "run" = some (written.key.run : ℤ)
  accepted : getField row "status" (some "ok") = some "ok" ∧ truthy (getField row "throughput_msg_per_sec" none) ↔
    written.okThroughput.isSome
  throughput : ∀ value, written.okThroughput = some value → floatField row "throughput_msg_per_sec" = some value

theorem fixed_ne_empty (places : Nat) (q : ℚ) : fixed places q ≠ "" := by
  intro empty
  have text := congrArg String.toList empty
  rw [fixed, signed, String.toList_ofList] at text
  split_ifs at text
  · cases text
  · exact withPoint_ne_nil _ _ text

/-- A record is read back if its sleep time is. -/
theorem readBack {entry : Args × Run}
    (printed : readNumber (str entry.2.task.sleepTime).toList = some entry.2.task.sleepTime) :
    ReadBack (dictRowOf str entry) (entry.2.throughputRow entry.1) := by
  obtain ⟨framework, sleepTime, runNum, status, throughput⟩ := dictRowOf_lookup str entry
  have okThroughput : (entry.2.throughputRow entry.1).okThroughput =
      if entry.2.status = "ok" then entry.2.throughput.map (rounded 2) else none := rfl
  refine ⟨?_, ?_, ?_, ?_, ?_⟩
  · rw [field, framework, Option.join_some]
    rfl
  · rw [floatField, field, sleepTime, Option.join_some, Option.bind_some, printed]
    rfl
  · have digits : (toString entry.2.task.run).toList = Nat.toDigits 10 entry.2.task.run := String.toList_ofList
    rw [intField, field, runNum, Option.join_some, Option.bind_some, digits, readInteger_toDigits]
    rfl
  · rw [getField, status, Option.getD_some, Option.some.injEq, getField, throughput, Option.getD_some, okThroughput]
    by_cases ok : entry.2.status = "ok"
    · rw [if_pos ok, columnText, ← Run.throughput]
      cases entry.2.throughput with
      | none => simp [truthy]
      | some value => simp [truthy, ok, fixed_ne_empty]
    · simp [ok]
  · intro value found
    rw [okThroughput] at found
    by_cases ok : entry.2.status = "ok"
    · rw [if_pos ok] at found
      obtain ⟨exact_, present, rfl⟩ := Option.map_eq_some_iff.mp found
      rw [floatField, field, throughput, Option.join_some, Option.bind_some, columnText, ← Run.throughput, present]
      exact readNumber_fixed (by decide) exact_
    · simp [ok] at found

/-- A loop over the rows of the reader does what its body does for each row that was
    written. -/
theorem foldlM_records {σ τ : Type} (view : σ → τ) {body : τ → DictRow → Option τ} {add : σ → ThroughputRow → σ}
    (one : ∀ row written state, ReadBack row written → body (view state) row = some (view (add state written)))
    {logged : List (Args × Run)}
    (printed : ∀ entry ∈ logged, readNumber (str entry.2.task.sleepTime).toList = some entry.2.task.sleepTime)
    (state : σ) : (dictRows (csvRecords str logged)).foldlM body (view state) =
      some (view ((loggedRows logged).foldl add state)) := by
  rw [dictRows_records]
  induction logged generalizing state with
  | nil => rfl
  | cons entry rest ih =>
    have later := ih (fun other member => printed other (List.mem_cons_of_mem entry member))
    rw [List.map_cons, List.foldlM_cons, one _ _ state (readBack (printed entry List.mem_cons_self))]
    exact later _

theorem resumeRow_read {args : Args} {row : DictRow} {written : ThroughputRow} (read : ReadBack row written)
    (loaded : Loaded) : resumeRow args (resumedOf loaded) row = some (resumedOf (loadRow args loaded written)) := by
  simp only [resumeRow, read.framework, read.sleepTime, read.runNum, read.accepted, Option.bind_eq_bind,
    Option.bind_some]
  cases found : written.okThroughput with
  | none => simp [loadRow, found]
  | some value =>
    by_cases inside : args.hasCell written.key.toCell
    · simp [loadRow, found, inside, read.throughput value found, resumedOf]
    · simp [loadRow, found, inside, resumedOf]

/-- From the records the resume reader loads what it loads from the rows. -/
theorem resumeReader_records (args : Args) {logged : List (Args × Run)}
    (printed : ∀ entry ∈ logged, readNumber (str entry.2.task.sleepTime).toList = some entry.2.task.sleepTime) :
    resumeReader args (csvRecords str logged) = some (resumedOf (loadRows args (loggedRows logged))) :=
  foldlM_records resumedOf (fun _ _ loaded read => resumeRow_read read loaded) printed ⟨[], fun _ => []⟩

end

end RepidBench.ThroughputCsv
