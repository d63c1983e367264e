import Mathlib.Data.List.Nodup
import Mathlib.Data.Rat.Defs
import Mathlib.Tactic.NormNum
import RepidBench.Runtime

/-!
The benchmark definitions of `benchmarks/_specs.py`. Sleep times are the decimal
fractions that the source writes.
-/
namespace RepidBench.Specs
open RepidBench.Runtime

/-- A dictionary from sleep times to message counts. -/
abbrev MessageTable := List (ℚ × Nat)

def defaultSleepTimes : List ℚ := [0.01, 0.1, 0.5, 1, 5]
def latencySleepTimes : List ℚ := [0.01, 0.1, 0.5, 1]
def cpuSleepTimes : List ℚ := [0.01, 0.1]
def defaultTargetDuration : ℚ := 15
def highConcurrencyMessageCap : Nat := 75000
def burstMessageCap : Nat := 75000
def longTaskDrainMessages : Nat := 160000
def burstPrefetch : Nat := 100
def steadyMessages : MessageTable := [(0.01, 1000000), (0.1, 750000), (0.5, 400000), (1, 300000), (5, 200000)]

structure BenchmarkSpec where
  name : String
  framework : Framework
  mode : Mode
  taskKind : TaskKind := .io
  queueBase : String := "benchmark"
  processes : Nat := 8
  concurrency : Nat := 2000
  prefetchCount : Option Nat := none
  publishConcurrency : Nat := 10000
  publishWorkers : Nat := 8
  enqueueBatchSize : Nat := 1000
  greenThreads : Bool := true
  sleepTimes : List ℚ := defaultSleepTimes
  messages : Option MessageTable := none

/-- `BASE_MESSAGES` for the frameworks. -/
def baseMessages : Framework → MessageTable
  | .repid => [(0.01, 672000), (0.1, 643000), (0.5, 425000), (1, 220000), (5, 48000)]
  | .celery => [(0.01, 30000), (0.1, 28000), (0.5, 27000), (1, 23000), (5, 16000)]
  | .dramatiq => [(0.01, 115000), (0.1, 83000), (0.5, 130000), (1, 125000), (5, 16000)]
  | .faststream => [(0.01, 330000), (0.1, 310000), (0.5, 275000), (1, 195000), (5, 48000)]
  | .taskiq => [(0.01, 250000), (0.1, 250000), (0.5, 190000), (1, 150000), (5, 48000)]

/-- `BASE_MESSAGES["celery_nogt"]`. -/
def celeryNogtMessages : MessageTable := [(0.01, 20000), (0.1, 5000)]
/-- `BASE_MESSAGES["dramatiq_nogt"]`. -/
def dramatiqNogtMessages : MessageTable := [(0.01, 30000), (0.1, 10000), (0.5, 5000), (1, 2000)]
def cpuMessages : MessageTable := [(0.01, 4000), (0.1, 1000), (1, 250)]
def latencyMessages : MessageTable := [(0.01, 10000), (0.1, 10000), (0.5, 10000), (1, 10000)]

/-- `_cap_messages`. -/
def capMessages (messages : MessageTable) (cap : Nat) : MessageTable :=
  messages.map (fun entry => (entry.1, min entry.2 cap))

/-- `_long_task_drain_messages`. -/
def longTaskDrain (messages : MessageTable) (cap : Nat) : MessageTable :=
  (capMessages messages cap).map (fun entry => if entry.1 = 5 then (5, longTaskDrainMessages) else entry)

/-- `_queue`. -/
def queue (framework : Framework) (mode : Mode) : String :=
  if mode ∈ [Mode.base, .nogt, .hc, .cpu] then framework.name ++ "_benchmark"
  else framework.name ++ "_" ++ mode.name ++ "_bench"

/-- `_framework_specs`. -/
def frameworkSpecs (framework : Framework) (publishWorkers publishConcurrency : Nat) : List BenchmarkSpec :=
  let base : BenchmarkSpec := {
    name := framework.name, framework := framework, mode := .base, queueBase := queue framework .base,
    messages := some (baseMessages framework), publishWorkers := publishWorkers,
    publishConcurrency := publishConcurrency }
  let cpuConcurrency := if framework = .repid then 2000 else 1
  let cpuGreenThreads := decide (framework ≠ .celery ∧ framework ≠ .dramatiq)
  [base,
    { base with
      name := framework.name ++ "_hc", mode := .hc, queueBase := queue framework .hc, concurrency := 10000,
      messages := some (capMessages (baseMessages framework) highConcurrencyMessageCap) },
    { base with
      name := framework.name ++ "_cpu", mode := .cpu, queueBase := queue framework .cpu, taskKind := .cpu,
      sleepTimes := cpuSleepTimes, messages := some cpuMessages,
      concurrency := cpuConcurrency, greenThreads := cpuGreenThreads },
    { base with
      name := framework.name ++ "_burst", mode := .burst, queueBase := queue framework .burst,
      concurrency := burstPrefetch, prefetchCount := some burstPrefetch,
      messages := some (longTaskDrain (baseMessages framework) burstMessageCap) },
    { base with
      name := framework.name ++ "_latency", mode := .latency, queueBase := queue framework .latency,
      sleepTimes := latencySleepTimes, messages := some latencyMessages },
    { base with
      name := framework.name ++ "_steady", mode := .steady, queueBase := queue framework .steady,
      messages := some steadyMessages }]

/-- `SPECS`, in the order of its keys. -/
def specs : List BenchmarkSpec :=
  frameworkSpecs .repid 8 10000 ++ frameworkSpecs .celery 8 10000 ++ frameworkSpecs .dramatiq 16 10000 ++
  frameworkSpecs .faststream 8 10000 ++ frameworkSpecs .taskiq 8 2000 ++ [
    { name := "celery_nogt", framework := .celery, mode := .nogt, queueBase := queue .celery .nogt,
      greenThreads := false, messages := some celeryNogtMessages },
    { name := "dramatiq_nogt", framework := .dramatiq, mode := .nogt, queueBase := queue .dramatiq .nogt,
      greenThreads := false, publishWorkers := 16, messages := some dramatiqNogtMessages }]

/-- `ALL_BENCHMARKS`. -/
def allBenchmarks : List String := specs.map BenchmarkSpec.name

/-- `get_spec`; `none` is its `ValueError`. -/
def getSpec (name : String) : Option BenchmarkSpec := specs.find? (fun spec => spec.name = name)

/-- `_is_latency` of `run_all.py`. -/
def isLatency (name : String) : Bool := (getSpec name).any (fun spec => spec.mode = .latency)

/-- No two benchmarks share a name, so a name of the list finds its own entry. -/
theorem allBenchmarks_nodup : allBenchmarks.Nodup := by decide

/-- The sleep times of every benchmark are distinct. -/
theorem sleepTimes_nodup {spec : BenchmarkSpec} (member : spec ∈ specs) : spec.sleepTimes.Nodup := by
  have all : ∀ spec ∈ specs, spec.sleepTimes.Nodup := by decide +kernel
  exact all spec member

end RepidBench.Specs
