import Mathlib.Data.Rat.Init

/-!
The runtime configuration of one benchmark run, as `benchmarks/_runtime.py`
declares it. Seconds and rates are rationals.
-/
namespace RepidBench.Runtime

inductive Framework
  | repid | celery | dramatiq | faststream | taskiq
  deriving DecidableEq, Repr

inductive Mode
  | base | hc | cpu | burst | latency | steady | nogt
  deriving DecidableEq, Repr

inductive TaskKind
  | io | cpu
  deriving DecidableEq, Repr

def Framework.name : Framework → String
  | .repid => "repid"
  | .celery => "celery"
  | .dramatiq => "dramatiq"
  | .faststream => "faststream"
  | .taskiq => "taskiq"

def Mode.name : Mode → String
  | .base => "base"
  | .hc => "hc"
  | .cpu => "cpu"
  | .burst => "burst"
  | .latency => "latency"
  | .steady => "steady"
  | .nogt => "nogt"

/-- `BenchmarkConfig`, with the defaults of its optional fields. -/
structure BenchmarkConfig where
  name : String
  framework : Framework
  mode : Mode
  taskKind : TaskKind
  queueName : String
  messages : Nat
  sleepTime : ℚ
  timeLimit : ℚ
  processes : Nat
  concurrency : Nat
  publishConcurrency : Nat
  publishWorkers : Nat
  enqueueBatchSize : Nat
  greenThreads : Bool
  burstSize : Nat
  burstInterval : ℚ
  prefetchCount : Option Nat := none
  cpuWorkIterations : Option Nat := none
  counterPath : Option String := none
  latencyPath : Option String := none
  keepQueue : Bool := false
  publishProcesses : Nat := 1
  steadyWarmupSeconds : ℚ := 10
  steadyMeasurementSeconds : ℚ := 30
  latencyArrivalRate : ℚ := 1000
  latencyWarmupSeconds : ℚ := 10
  latencyMeasurementSeconds : ℚ := 30
  burstMultiplier : ℚ := 2

/-- The property `is_latency`. -/
def BenchmarkConfig.isLatency (cfg : BenchmarkConfig) : Bool := cfg.mode = .latency

end RepidBench.Runtime
