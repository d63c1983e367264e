import RepidBench.Decimal
import RepidBench.Publishing

/-!
What `benchmarks/_runner.py` prints in each mode, print by print: progress that
ends with a carriage return, notes for people, and the result lines that
`run_all.py` looks for. The numbers printed are arguments here; which counts and
instants they are is the business of the machines of the runs.
-/
namespace RepidBench.RunnerOutput
open Text Decimal Publishing

inductive Number
  | count (n : Nat)
  | decimal (places : Nat) (value : ℚ)
  deriving DecidableEq

def Number.text : Number → String
  | .count n => toString n
  | .decimal places value => fixed places value

/-- One `print`: a note, a line of progress (`end="\r"`), the status line, or a
    result line `TAG: number`. -/
inductive Print
  | note (text : String)
  | progress (text : String)
  | status (word : String)
  | report (tag : String) (value : Number)
  deriving DecidableEq

namespace Print

def text : Print → String
  | .note text | .progress text => text
  | .status word => s!"STATUS: {word}"
  | .report tag value => s!"{tag}: {value.text}"

def fragment (print : Print) : Fragment where
  text := print.text.toList
  ending := match print with
    | .progress _ => '\r'
    | _ => '\n'

end Print

/-- The characters that the prints write to the standard output. -/
def stdoutOf (prints : List Print) : List Char := streamOf (prints.map Print.fragment)

/-- `print(" " * 80, end="\r")`. -/
def eraser : Print := .progress (String.ofList (List.replicate 80 ' '))

/-! ## Publishing -/

/-- A line that the publishing loops print. -/
def loopPrint : Printed → Print
  | .enqueued count total => .progress s!"Enqueued: {count}/{total}"
  | .burst number count remaining => .note s!"Burst {number}: published {count} messages ({remaining} remaining)"

/-- What `_publish` prints: the lines of its only publisher, or its own about the
    publisher processes. -/
inductive PublishPrint
  | loop (printed : Printed)
  | started (publishers : Nat)
  | publishers (enqueued messages done procs : Nat)
  deriving DecidableEq, Repr

def PublishPrint.print : PublishPrint → Print
  | .loop printed => loopPrint printed
  | .started count => .note s!"Starting {count} publisher processes."
  | .publishers enqueued messages done procs =>
    .progress s!"Enqueued: {enqueued}/{messages} (publishers done {done}/{procs})"

/-! ## Milestones and latencies -/

/-- The labels of `_milestone_thresholds`. -/
inductive Milestone
  | m50 | m90 | m95 | m98 | m99 | m995 | m100
  deriving DecidableEq, Repr

def Milestone.label : Milestone → String
  | .m50 => "50"
  | .m90 => "90"
  | .m95 => "95"
  | .m98 => "98"
  | .m99 => "99"
  | .m995 => "995"
  | .m100 => "100"

/-- The dictionary `milestones`. -/
abbrev Milestones := Milestone → Option ℚ

/-- `_print_milestones`. -/
def printMilestones (milestones : Milestones) : List Print :=
  [Milestone.m50, .m90, .m95, .m98, .m99, .m995, .m100].filterMap (fun m =>
    (milestones m).map (fun seconds => .report s!"MILESTONE_{m.label}_SECONDS" (.decimal 4 seconds))) ++
  match milestones .m100 with
  | none => []
  | some last => [Milestone.m95, .m98, .m99, .m995].filterMap (fun m =>
      (milestones m).map (fun seconds => .report s!"TAIL_{m.label}_TO_100_SECONDS" (.decimal 4 (last - seconds))))

/-- `values[min(int(n * fraction), n - 1)] * 1000`, in milliseconds. -/
def quantile (values : List ℚ) (fraction : ℚ) : ℚ :=
  values.getD (min ⌊values.length * fraction⌋.toNat (values.length - 1)) 0 * 1000

/-- `print_latency_results`. -/
def printLatencyResults (latencies : List ℚ) : List Print :=
  if latencies = [] then [.report "LATENCY_SAMPLES" (.count 0)]
  else
    let values := latencies.mergeSort (· ≤ ·)
    let n := values.length
    [.note s!"Latency samples: {n}",
      .note s!"Latency p50:    {fixed 2 (quantile values 0.5)} ms",
      .note s!"Latency p95:    {fixed 2 (quantile values 0.95)} ms",
      .note s!"Latency p99:    {fixed 2 (quantile values 0.99)} ms",
      .note s!"Latency p99.9:  {fixed 2 (quantile values 0.999)} ms",
      .report "LATENCY_P50" (.decimal 4 (quantile values 0.5)),
      .report "LATENCY_P95" (.decimal 4 (quantile values 0.95)),
      .report "LATENCY_P99" (.decimal 4 (quantile values 0.99)),
      .report "LATENCY_SAMPLES" (.count n)]

/-! ## The result blocks -/

/-- `print_results`. -/
def printResults (tasksDone total : Nat) (duration : ℚ) (status : String) : List Print :=
  let duration := max duration 0.000001
  let throughput := tasksDone / duration
  [.note "",
    .note "Benchmark ended.",
    .note s!"Took {fixed 2 duration} sec.",
    .note s!"Processed {tasksDone}/{total} tasks.",
    .note s!"Rate {fixed 2 throughput} msg/sec.",
    .status status,
    .report "TASKS_DONE" (.count tasksDone),
    .report "TOTAL_MESSAGES" (.count total),
    .report "DURATION_SECONDS" (.decimal 4 duration),
    .report "THROUGHPUT" (.decimal 2 throughput)]

/-- `_print_steady_results`. -/
def printSteadyResults (measuredTasks totalCount publishedLimit : Nat) (warmupSeconds measurementSeconds : ℚ)
    (status : String) : List Print :=
  let throughput := measuredTasks / max measurementSeconds 0.000001
  let duration := warmupSeconds + measurementSeconds
  [.note "",
    .note "Steady-state benchmark ended.",
    .note s!"Warmup {fixed 2 warmupSeconds} sec; measured {fixed 2 measurementSeconds} sec.",
    .note s!"Measured {measuredTasks} tasks; total completed {totalCount}/{publishedLimit}.",
    .note s!"Rate {fixed 2 throughput} msg/sec.",
    .status status,
    .report "TASKS_DONE" (.count measuredTasks),
    .report "TOTAL_MESSAGES" (.count publishedLimit),
    .report "DURATION_SECONDS" (.decimal 4 duration),
    .report "THROUGHPUT" (.decimal 2 throughput)]

/-- `_print_latency_controlled_results`. -/
def printLatencyControlledResults (samples measurementMessages : Nat) (offeredRate achievedRate : ℚ)
    (backlogAtMeasurementEnd : Nat) (drainSeconds duration : ℚ) (status : String) : List Print :=
  [.note "",
    .note "Controlled-arrival latency benchmark ended.",
    .note s!"Offered rate {fixed 2 offeredRate} msg/sec.",
    .note s!"Recorded {samples}/{measurementMessages} measured latency samples.",
    .note s!"Backlog at measurement end: {backlogAtMeasurementEnd}.",
    .note s!"Post-measurement drain: {fixed 2 drainSeconds} sec.",
    .status status,
    .report "TASKS_DONE" (.count samples),
    .report "TOTAL_MESSAGES" (.count measurementMessages),
    .report "DURATION_SECONDS" (.decimal 4 duration),
    .report "THROUGHPUT" (.decimal 2 achievedRate),
    .report "LATENCY_OFFERED_RATE" (.decimal 4 offeredRate),
    .report "LATENCY_ACHIEVED_RATE" (.decimal 4 achievedRate),
    .report "LATENCY_BACKLOG_AT_MEASUREMENT_END" (.count backlogAtMeasurementEnd),
    .report "LATENCY_DRAIN_SECONDS" (.decimal 4 drainSeconds)]

/-- `_print_burst_recovery_results`. -/
def printBurstRecoveryResults (tasksDone total : Nat) (publishSeconds recoverySeconds : ℚ) (status : String) :
    List Print :=
  let duration := max (publishSeconds + recoverySeconds) 0.000001
  let throughput := tasksDone / duration
  [.note "",
    .note "Burst recovery benchmark ended.",
    .note s!"Published burst in {fixed 2 publishSeconds} sec.",
    .note s!"Recovered in {fixed 2 recoverySeconds} sec after burst publish completed.",
    .note s!"Processed {tasksDone}/{total} tasks.",
    .note s!"End-to-end rate {fixed 2 throughput} msg/sec.",
    .status status,
    .report "TASKS_DONE" (.count tasksDone),
    .report "TOTAL_MESSAGES" (.count total),
    .report "DURATION_SECONDS" (.decimal 4 duration),
    .report "THROUGHPUT" (.decimal 2 throughput),
    .report "BURST_PUBLISH_SECONDS" (.decimal 4 publishSeconds),
    .report "BURST_RECOVERY_SECONDS" (.decimal 4 recoverySeconds)]

/-- What `queue_metrics` returns or raises. -/
inductive QueueReport
  | metrics (ready unacknowledged total consumers : Nat)
  | failed (error : String)
  deriving DecidableEq, Repr

/-- `_print_burst_queue_metrics`. -/
def printBurstQueueMetrics (label : String) : QueueReport → Print
  | .metrics ready unacknowledged total consumers => .note
      s!"BURST_QUEUE_{label}: ready={ready} unacknowledged={unacknowledged} total={total} consumers={consumers}"
  | .failed error => .note s!"BURST_QUEUE_{label}_ERROR: {error}"

/-! ## The output of a run, mode by mode -/

/-- What a run of the modes `base`, `hc`, `cpu` and `nogt` prints: polls with
    their count and time, and the time limit if it is reached. -/
structure Drain where
  publishFirst : Bool
  publishing : List PublishPrint
  polls : List (Nat × ℚ)
  milestones : Milestones
  timeLimit : Option ℚ
  tasksDone : Nat
  total : Nat
  duration : ℚ
  status : String

def Drain.prints (d : Drain) : List Print :=
  (if d.publishFirst then
    .note "Enqueueing messages..." :: d.publishing.map PublishPrint.print ++
      [.note "", .note "Done enqueueing.", .note "Starting workers.", .note "Starting benchmark."]
  else
    [.note "Starting workers.", .note "Publishing messages while workers are running..."] ++
      d.publishing.map PublishPrint.print) ++
  d.polls.map (fun (count, elapsed) => .progress s!"Tasks done: {count}/{d.total}. Elapsed: {fixed 2 elapsed}s.") ++
  printMilestones d.milestones ++
  (match d.timeLimit with
  | none => []
  | some elapsed =>
    [.note "", .note s!"Time limit reached ({fixed 1 elapsed}s). Processed: {d.tasksDone}/{d.total}."]) ++
  printResults d.tasksDone d.total d.duration d.status

/-- What a run of the mode `steady` prints; a poll tells whether the measurement
    has begun. -/
structure Steady where
  messages : Nat
  polls : List (Nat × Bool × ℚ)
  measuredTasks : Nat
  endCount : Nat
  warmupSeconds : ℚ
  measurementSeconds : ℚ
  status : String

def phaseName (measuring : Bool) : String := if measuring then "measure" else "warmup"

def Steady.prints (d : Steady) : List Print :=
  [.note "Starting workers.", .note "Starting steady-state publishers."] ++
  d.polls.map (fun (count, measuring, elapsed) =>
    .progress s!"Tasks done: {count}/{d.messages}. Phase: {phaseName measuring}. Elapsed: {fixed 2 elapsed}s.") ++
  eraser :: printSteadyResults d.measuredTasks d.endCount d.messages d.warmupSeconds d.measurementSeconds d.status

/-- What a run of the mode `latency` prints: the lines of `publish_latency` for the
    warm-up, if there is one, and for the measured messages, and the polls. -/
structure Latency where
  arrivalRate : ℚ
  warmup : Option (List Printed)
  measured : List Printed
  polls : List Nat
  samples : Nat
  measurementMessages : Nat
  achievedRate : ℚ
  backlogAtMeasurementEnd : Nat
  drainSeconds : ℚ
  duration : ℚ
  status : String
  latencies : List ℚ

def Latency.prints (d : Latency) : List Print :=
  [.note "Starting workers.", .note s!"Publishing latency warmup at {general d.arrivalRate} msg/sec."] ++
  (match d.warmup with
  | none => []
  | some lines => lines.map loopPrint ++ [.note "", .note "Done latency warmup."]) ++
  .note s!"Publishing measured latency traffic at {general d.arrivalRate} msg/sec." :: d.measured.map loopPrint ++
  d.polls.map (fun samples =>
    .progress s!"Latency samples: {samples}/{d.measurementMessages}. Draining measured traffic.") ++
  eraser :: printLatencyControlledResults d.samples d.measurementMessages d.arrivalRate d.achievedRate
    d.backlogAtMeasurementEnd d.drainSeconds d.duration d.status ++
  printLatencyResults d.latencies

/-- What the recovery loop of a burst prints at one poll. -/
inductive BurstPoll
  | queue (label : Milestone) (report : QueueReport)
  | progress (count : Nat) (elapsed : ℚ)
  deriving DecidableEq

/-- What a run of the mode `burst` prints. -/
structure Burst where
  messages : Nat
  publishing : List PublishPrint
  publishEnd : QueueReport
  polls : List BurstPoll
  last : QueueReport
  milestones : Milestones
  tasksDone : Nat
  publishSeconds : ℚ
  recoverySeconds : ℚ
  status : String

def Burst.pollPrint (d : Burst) : BurstPoll → Print
  | .queue label report => printBurstQueueMetrics label.label report
  | .progress count elapsed => .progress s!"Tasks done: {count}/{d.messages}. Recovery: {fixed 2 elapsed}s."

def Burst.prints (d : Burst) : List Print :=
  [.note "Starting workers.", .note s!"Publishing one burst of {d.messages} messages."] ++
  d.publishing.map PublishPrint.print ++
  printBurstQueueMetrics "PUBLISH_END" d.publishEnd :: d.polls.map d.pollPrint ++
  eraser :: printBurstQueueMetrics "100" d.last :: printMilestones d.milestones ++
  printBurstRecoveryResults d.tasksDone d.messages d.publishSeconds d.recoverySeconds d.status

/-- The output of a run in one of the four ways a run reports. -/
inductive Output
  | drain (d : Drain)
  | steady (d : Steady)
  | latency (d : Latency)
  | burst (d : Burst)

namespace Output

def prints : Output → List Print
  | .drain d => d.prints
  | .steady d => d.prints
  | .latency d => d.prints
  | .burst d => d.prints

def status : Output → String
  | .drain d => d.status
  | .steady d => d.status
  | .latency d => d.status
  | .burst d => d.status

def tasksDone : Output → Nat
  | .drain d => d.tasksDone
  | .steady d => d.measuredTasks
  | .latency d => d.samples
  | .burst d => d.tasksDone

end Output

end RepidBench.RunnerOutput
