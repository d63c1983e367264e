import Mathlib.Data.List.Sort
import RepidBench.BufferedLog
import RepidBench.ParseOutput
import RepidBench.Specs

/-!
The sessions of `main` in `run_all.py`: the resume reader, the task list, the task
loop and the closing of the files. A session is a list of effects on the files and
on the results kept in memory, so every point at which it can be interrupted or
killed is an initial part of that list.
-/
namespace RepidBench.Sessions
open BufferedLog Decimal ParseOutput Specs

universe u v

/-! ## Keys and tasks -/

/-- A benchmark, by its name, and a sleep time: one cell of the result tables. -/
structure Cell where
  framework : String
  sleepTime : ℚ
  deriving DecidableEq

structure Key extends Cell where
  run : Nat
  deriving DecidableEq

/-- An entry of `tasks`. -/
structure Task extends Key where
  warmup : Bool
  deriving DecidableEq

/-- Appending to the list under a key of a dictionary of lists. -/
def appendAt {κ : Type u} {β : Type v} [DecidableEq κ] (table : κ → List β) (key : κ) (value : β) : κ → List β :=
  fun other => if other = key then table other ++ [value] else table other

/-- Assigning to a key of a dictionary. -/
def assign {κ : Type u} {β : Type v} [DecidableEq κ] (key : κ) (value : β) : List (κ × β) → List (κ × β)
  | [] => [(key, value)]
  | entry :: rest => if entry.1 = key then (key, value) :: rest else entry :: assign key value rest

/-! ## Results of a run -/

/-- A dictionary that `run_once` returns: its status, and its other entries. -/
structure Result where
  status : String
  entries : List (String × Value)
  deriving DecidableEq

/-- The number that a value is, if it is an `int` or a `float`. -/
def numberOf : Value → Option ℚ
  | .str _ => none
  | .int n => some n
  | .float x => some x

def Result.number (result : Result) (key : String) : Option ℚ := (result.entries.lookup key).bind numberOf

/-- A task that has been run, with what `run_once` returned for it. -/
structure Run where
  task : Task
  result : Option Result
  deriving DecidableEq

namespace Run

/-- `if result is None: result = {"status": "error"}`. -/
def outcome (run : Run) : Result := run.result.getD ⟨"error", []⟩

def status (run : Run) : String := run.outcome.status

def throughput (run : Run) : Option ℚ := run.outcome.number "throughput"

end Run

/-! ## Rows of the logs -/

/-- A row of `benchmarks_results.csv`; `none` is an empty column. -/
structure ThroughputRow where
  key : Key
  status : String
  throughputMsgPerSec : Option ℚ
  tasksDone : Option ℚ
  totalMessages : Option ℚ
  durationSeconds : Option ℚ
  tail95To100Seconds : Option ℚ
  tail98To100Seconds : Option ℚ
  tail99To100Seconds : Option ℚ
  tail995To100Seconds : Option ℚ
  burstPublishSeconds : Option ℚ
  burstRecoverySeconds : Option ℚ
  deriving DecidableEq

/-- A row of `latency_results.csv`. -/
structure LatencyRow where
  key : Key
  status : String
  throughputMsgPerSec : Option ℚ
  p50Ms : Option ℚ
  p95Ms : Option ℚ
  p99Ms : Option ℚ
  latencySamples : Option ℚ
  durationSeconds : Option ℚ
  offeredRateMsgPerSec : Option ℚ
  achievedRateMsgPerSec : Option ℚ
  backlogAtMeasurementEnd : Option ℚ
  drainSeconds : Option ℚ
  deriving DecidableEq

/-- What identifies a record of `benchmarks_metadata.jsonl`. -/
structure MetadataRow where
  key : Key
  messages : Option Nat
  status : String
  deriving DecidableEq

/-- A line of a CSV file. -/
inductive Line (Row : Type)
  | header
  | row (row : Row)
  deriving DecidableEq

/-- The rows of the lines after the header; `none` is the `ValueError` of
    `float("sleep_time")`. -/
def rowsOf {Row : Type} : List (Line Row) → Option (List Row)
  | [] => some []
  | .header :: _ => none
  | .row row :: rest => (rowsOf rest).map (row :: ·)

/-- The rows that `csv.DictReader` gives, which takes the first line for the header:
    a row in its place is lost, and `row["framework"]` is a `KeyError` after it. -/
def readRows {Row : Type} : List (Line Row) → Option (List Row)
  | [] => some []
  | .header :: rest => rowsOf rest
  | .row _ :: [] => some []
  | .row _ :: _ :: _ => none

/-- The throughput of a row that the resume reader accepts. -/
def ThroughputRow.okThroughput (row : ThroughputRow) : Option ℚ :=
  if row.status = "ok" then row.throughputMsgPerSec else none

/-! ## Arguments and the task list -/

/-- The arguments that decide what is run. `messagesFor` is `messages_for`, which
    `main` computes from its other arguments. -/
structure Args where
  resume : Bool
  frameworks : List String
  sleepTimes : Option (List ℚ)
  runs : ℤ
  warmupRuns : ℤ
  messagesFor : String → ℚ → Option Nat

namespace Args

def sleepTimesFor (args : Args) (name : String) : List ℚ :=
  (args.sleepTimes.getD ((getSpec name).elim [] BenchmarkSpec.sleepTimes)).insertionSort (· ≤ ·)

/-- `throughput_results` has this cell. -/
def hasCell (args : Args) (cell : Cell) : Bool :=
  args.frameworks.contains cell.framework && (args.sleepTimesFor cell.framework).contains cell.sleepTime

end Args

/-- What the resume reader has found. -/
structure Loaded where
  skipSet : List Key
  throughputResults : Cell → List ℚ

def loadRow (args : Args) (loaded : Loaded) (row : ThroughputRow) : Loaded :=
  match row.okThroughput with
  | none => loaded
  | some value => {
      skipSet := loaded.skipSet ++ [row.key]
      throughputResults :=
        if args.hasCell row.key.toCell then appendAt loaded.throughputResults row.key.toCell value
        else loaded.throughputResults }

def loadRows (args : Args) (rows : List ThroughputRow) : Loaded :=
  rows.foldl (loadRow args) ⟨[], fun _ => []⟩

/-- The entries of `tasks` for a cell. -/
def cellTasks (args : Args) (skipSet : List Key) (cell : Cell) : List Task :=
  if args.messagesFor cell.framework cell.sleepTime = none then []
  else
    (List.range' 1 args.warmupRuns.toNat).map (fun run => { cell with run := run, warmup := true }) ++
    ((List.range' 1 args.runs.toNat).filter (fun run => { cell with run := run : Key } ∉ skipSet)).map
      (fun run => { cell with run := run, warmup := false })

def tasks (args : Args) (skipSet : List Key) : List Task :=
  args.frameworks.flatMap (fun fw => (args.sleepTimesFor fw).flatMap (fun st => cellTasks args skipSet ⟨fw, st⟩))

/-- The orders in which the tasks are run: as listed, or the warm-ups first and the
    measured tasks shuffled. -/
def TaskOrder (tasks order : List Task) : Prop :=
  order = tasks ∨ ∃ measured, measured.Perm (tasks.filter (fun task => !task.warmup)) ∧
    order = tasks.filter Task.warmup ++ measured

/-! ## Effects -/

inductive Metric
  | throughput | p50Ms | p95Ms | p99Ms
  deriving DecidableEq, Repr

def Metric.key : Metric → String
  | .throughput => "throughput"
  | .p50Ms => "p50_ms"
  | .p95Ms => "p95_ms"
  | .p99Ms => "p99_ms"

inductive Effect
  | throughput (op : Op (Line ThroughputRow))
  | latency (op : Op (Line LatencyRow))
  | metadata (op : Op MetadataRow)
  | finishRun (key : Key) (status : String)
  | keepThroughput (cell : Cell) (value : ℚ)
  | keepLatency (cell : Cell) (metric : Metric) (value : ℚ)
  deriving DecidableEq

structure Files where
  throughput : LogFile (Line ThroughputRow)
  latency : LogFile (Line LatencyRow)
  metadata : LogFile MetadataRow

/-- No session has run yet. -/
def Files.absent : Files := ⟨⟨none, []⟩, ⟨none, []⟩, ⟨none, []⟩⟩

def Files.crash (files : Files) : Files := ⟨files.throughput.crash, files.latency.crash, files.metadata.crash⟩

/-- The files, and what the process keeps in memory. -/
structure Progress where
  files : Files
  throughputResults : Cell → List ℚ
  latencyResults : Cell × Metric → List ℚ
  runStatus : List (Key × String)

def Progress.after (p : Progress) : Effect → Progress
  | .throughput op => { p with files.throughput := p.files.throughput.doOp op }
  | .latency op => { p with files.latency := p.files.latency.doOp op }
  | .metadata op => { p with files.metadata := p.files.metadata.doOp op }
  | .finishRun key status => { p with runStatus := assign key status p.runStatus }
  | .keepThroughput cell value => { p with throughputResults := appendAt p.throughputResults cell value }
  | .keepLatency cell metric value =>
    { p with latencyResults := appendAt p.latencyResults (cell, metric) value }

def Progress.afterAll (p : Progress) (effects : List Effect) : Progress := effects.foldl Progress.after p

/-! ## The body of the task loop -/

namespace Run

def metadataRow (args : Args) (run : Run) : MetadataRow where
  key := run.task.toKey
  messages := args.messagesFor run.task.framework run.task.sleepTime
  status := run.status

/-- `f"{x:.4f}" if isinstance(x, (int, float)) else ""`. -/
def column (run : Run) (key : String) : Option ℚ := (run.outcome.number key).map (rounded 4)

def throughputRow (args : Args) (run : Run) : ThroughputRow where
  key := run.task.toKey
  status := run.status
  throughputMsgPerSec := run.throughput.map (rounded 2)
  tasksDone := run.outcome.number "tasks_done"
  totalMessages := (run.outcome.number "total_messages").or
    ((args.messagesFor run.task.framework run.task.sleepTime).map Nat.cast)
  durationSeconds := run.column "duration_seconds"
  tail95To100Seconds := run.column "tail_95_to_100_seconds"
  tail98To100Seconds := run.column "tail_98_to_100_seconds"
  tail99To100Seconds := run.column "tail_99_to_100_seconds"
  tail995To100Seconds := run.column "tail_995_to_100_seconds"
  burstPublishSeconds := run.column "burst_publish_seconds"
  burstRecoverySeconds := run.column "burst_recovery_seconds"

/-- `f"{p:.3f}" if p else "0"` for `p = result.get(key, 0)`. -/
def percentile (run : Run) (key : String) : ℚ :=
  let p := (run.outcome.number key).getD 0
  if p = 0 then 0 else rounded 3 p

/-- The row of an ok run. -/
def latencyRow (run : Run) : LatencyRow where
  key := run.task.toKey
  status := run.status
  throughputMsgPerSec := run.throughput.map (rounded 2)
  p50Ms := some (run.percentile "p50_ms")
  p95Ms := some (run.percentile "p95_ms")
  p99Ms := some (run.percentile "p99_ms")
  latencySamples := some ((run.outcome.number "latency_samples").getD 0)
  durationSeconds := run.column "duration_seconds"
  offeredRateMsgPerSec := run.column "latency_offered_rate"
  achievedRateMsgPerSec := run.column "latency_achieved_rate"
  backlogAtMeasurementEnd := run.outcome.number "latency_backlog_at_measurement_end"
  drainSeconds := run.column "latency_drain_seconds"

/-- The row of a run that is not ok. -/
def failedLatencyRow (run : Run) : LatencyRow :=
  ⟨run.task.toKey, run.status, run.throughput.map (rounded 2), none, none, none, none, none, none, none, none, none⟩

/-- The value that is appended to `latency_results` for a metric. -/
def keptMetric (run : Run) (metric : Metric) : Option ℚ :=
  (run.outcome.number metric.key).filter (fun value => metric = .throughput || 0 < value)

/-- The appends to `latency_results`. -/
def metricEffects (run : Run) : List Effect :=
  [Metric.throughput, .p50Ms, .p95Ms, .p99Ms].filterMap (fun metric =>
    (run.keptMetric metric).map (.keepLatency run.task.toCell metric))

/-- What the loop keeps and writes for a latency benchmark. -/
def latencyEffects (args : Args) (run : Run) : List Effect :=
  let fw := run.task.framework
  if isLatency fw && args.frameworks.contains fw && run.status = "ok" then
    run.metricEffects ++ [.latency (.write (.row run.latencyRow)), .latency .flush]
  else if isLatency fw && run.status ≠ "ok" then
    [.latency (.write (.row run.failedLatencyRow)), .latency .flush]
  else []

/-- The throughput that is appended to `throughput_results`. -/
def keptThroughput (run : Run) : Option ℚ := if run.status = "ok" then run.throughput else none

/-- What the loop does after the run of a measured task. -/
def record (args : Args) (run : Run) : List Effect :=
  (run.keptThroughput.map (.keepThroughput run.task.toCell)).toList ++
  [.metadata (.write (run.metadataRow args)), .metadata .flush,
    .throughput (.write (.row (run.throughputRow args))), .throughput .flush] ++
  run.latencyEffects args

/-- The body of the task loop after `run_once`. -/
def effects (args : Args) (run : Run) : List Effect :=
  .finishRun run.task.toKey run.status :: if run.task.warmup then [] else run.record args

end Run

/-! ## Sessions -/

/-- Where a session is: in the opening of its files, in the body of the loop after
    `finished` tasks, or in the closing of the files after the loop was left there. -/
inductive Point
  | opening (done : Nat)
  | looping (finished within : Nat)
  | closing (finished within done : Nat)
  deriving DecidableEq, Repr

/-- How a session ends: after all tasks, by an exception in the loop, or killed. -/
inductive Ending
  | completed
  | interrupted (finished within : Nat)
  | killed (point : Point)
  deriving DecidableEq, Repr

/-- A session: what its resume reader has loaded, and its runs in the order of the
    tasks. -/
structure Session where
  args : Args
  loaded : Loaded
  runs : List Run
  ending : Ending

/-- Opening the files and writing the headers. -/
def opening (args : Args) (files : Files) : List Effect :=
  [.throughput (.openAs args.resume), .latency (.openAs (args.resume && files.latency.durable.isSome)),
    .metadata (.openAs args.resume)] ++
  (if !args.resume || files.throughput.durable.isNone then [.throughput (.write .header)] else []) ++
  (if !args.resume || files.latency.durable.isNone then [.latency (.write .header)] else [])

/-- The `finally` block. -/
def closing : List Effect := [.throughput .close, .latency .close, .metadata .close]

namespace Session

/-- The rows that the resume reader loads. -/
def resumeRows (args : Args) (files : Files) : Option (List ThroughputRow) :=
  if args.resume then readRows (files.throughput.durable.getD []) else some []

/-- The session can run on these files: its reader does not raise, and its runs are
    in an order of its task list. -/
structure Admissible (s : Session) (files : Files) : Prop where
  loaded : (resumeRows s.args files).map (loadRows s.args) = some s.loaded
  order : TaskOrder (tasks s.args s.loaded.skipSet) (s.runs.map Run.task)

def start (s : Session) (files : Files) : Progress where
  files := files
  throughputResults := s.loaded.throughputResults
  latencyResults := fun _ => []
  runStatus := []

/-- The effects of the task after the finished ones, as far as they are done. -/
def current (s : Session) (finished within : Nat) : List Effect :=
  match s.runs[finished]? with
  | none => []
  | some run => (run.effects s.args).take within

/-- The effects of the loop up to a point. -/
def loop (s : Session) (finished within : Nat) : List Effect :=
  (s.runs.take finished).flatMap (Run.effects s.args) ++ s.current finished within

def effectsTo (s : Session) (files : Files) : Point → List Effect
  | .opening done => (opening s.args files).take done
  | .looping finished within => opening s.args files ++ s.loop finished within
  | .closing finished within done =>
    opening s.args files ++ s.loop finished within ++ closing.take done

/-- The session at a point. -/
def reach (s : Session) (files : Files) (point : Point) : Progress :=
  (s.start files).afterAll (s.effectsTo files point)

/-- The tasks finished, and the effects of the next one, when the loop is left. -/
def leaves (s : Session) : Nat × Nat :=
  match s.ending with
  | .interrupted finished within => (finished, within)
  | _ => (s.runs.length, 0)

/-- The loop of a session that is not interrupted. -/
theorem loop_completed {s : Session} (completed : s.ending = .completed) :
    s.loop s.leaves.1 s.leaves.2 = s.runs.flatMap (Run.effects s.args) := by
  have leaves : s.leaves = (s.runs.length, 0) := by rw [Session.leaves, completed]
  rw [leaves, Session.loop, List.take_length]
  simp [Session.current]

/-- The session after the `finally` block. -/
def closed (s : Session) (files : Files) : Progress :=
  s.reach files (.closing s.leaves.1 s.leaves.2 closing.length)

/-- The files that the session leaves. -/
def leftFiles (s : Session) (files : Files) : Files :=
  match s.ending with
  | .killed point => (s.reach files point).files.crash
  | _ => (s.closed files).files

end Session

/-- The files after some sessions, each of which is allowed where it starts. -/
inductive History (allowed : Files → Session → Prop) : Files → Prop
  | start : History allowed Files.absent
  | next {files : Files} {s : Session} (before : History allowed files) (admissible : s.Admissible files)
      (fits : allowed files s) : History allowed (s.leftFiles files)

end RepidBench.Sessions
