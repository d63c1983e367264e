import RepidBench.Orchestrator
import RepidBench.TaskList

/-!
The work size of the CPU tasks. Every task of the loop finds its iterations, as the
loop over the CPU benchmarks has seen its sleep time; a calibration run is configured
without them, and its tasks raise.
-/
namespace RepidBench.CpuWork
open RepidBench.Runtime Sessions Specs Orchestrator

/-- A CPU task with this configuration computes, after the way of the configuration
    through its file. -/
def HasWork (config : Config) : Prop :=
  config.taskKind = .cpu → config.cpuWorkIterations ≠ none ∧
    ∃ digests, (ofDict (asdict config)).map (fun config => cpuWork config.cpuWorkIterations) = some (.ok digests)

theorem hasWork_iff (config : Config) : HasWork config ↔ (config.taskKind = .cpu → config.cpuWorkIterations.isSome) := by
  unfold HasWork
  rw [ofDict_asdict]
  cases work : config.cpuWorkIterations with
  | none => simp
  | some count => simp [work, cpuWork]

/-- A CPU benchmark has configurations of CPU tasks, and no other has. -/
theorem isCpu_iff {name : String} {spec : BenchmarkSpec} (found : getSpec name = some spec) :
    isCpu name ↔ spec.taskKind = .cpu := by
  simp [isCpu, found]

/-! ## The task loop -/

/-- Every sleep time of a selected CPU benchmark has its iterations. -/
theorem cpuIterationsBySleep_isSome {o : Options} {sample : Nat → Nat → Nat × ℚ} {fw : String} {sleepTime : ℚ}
    (selected : fw ∈ o.frameworks) (cpu : isCpu fw) (listed : sleepTime ∈ o.sleepTimesFor fw) :
    (cpuIterationsBySleep o sample sleepTime).isSome := by
  obtain ⟨i, here⟩ := List.mem_iff_getElem?.mp selected
  obtain ⟨j, there⟩ := List.mem_iff_getElem?.mp listed
  refine List.lookup_isSome_iff.mpr ⟨(sleepTime, iterationsFor o sample i j sleepTime), ?_, beq_self_eq_true _⟩
  refine List.mem_flatMap.mpr ⟨(fw, i), List.mem_zipIdx_iff_getElem?.mpr here, ?_⟩
  show _ ∈ if isCpu fw then _ else _
  rw [if_pos cpu]
  exact List.mem_map.mpr ⟨(sleepTime, j), List.mem_zipIdx_iff_getElem?.mpr there, rfl⟩

theorem taskConfigs_hasWork {o : Options} {calibrated : Option Counts} {sample : Nat → Nat → Nat × ℚ}
    {suffix : Nat → String} {skipSet : List Key} {order : List Task}
    (ordered : TaskOrder (tasks (o.args calibrated) skipSet) order) {config : Config}
    (member : config ∈ taskConfigs o calibrated sample suffix order) : HasWork config := by
  obtain ⟨⟨task, i⟩, here, member⟩ := List.mem_flatMap.mp member
  obtain ⟨spec, known, member⟩ := List.mem_flatMap.mp member
  obtain ⟨messages, _, rfl⟩ := List.mem_map.mp member
  refine (hasWork_iff _).mpr (fun cpu => ?_)
  have inOrder : task ∈ order := List.mem_of_getElem? (List.mem_zipIdx_iff_getElem?.mp here)
  obtain ⟨inside, _⟩ := mem_tasks.mp (ordered.perm.mem_iff.mp inOrder)
  simp only [Args.hasCell, Bool.and_eq_true, List.contains_iff_mem] at inside
  have found : getSpec task.framework = some spec := Option.mem_toList.mp known
  exact cpuIterationsBySleep_isSome inside.1 ((isCpu_iff found).mpr cpu) inside.2

/-! ## The calibration phase -/

theorem calibrationConfigs_hasWork_iff (o : Options) (suffix : Nat → Nat → String) :
    (∀ config ∈ calibrationConfigs o suffix, HasWork config) ↔
      (o.calibrates = true → ∀ fw ∈ o.frameworks, isCpu fw → o.sleepTimesFor fw = []) := by
  unfold calibrationConfigs
  cases o.calibrates with
  | false => simp
  | true =>
    simp only [if_true, forall_const]
    constructor
    · intro work fw selected cpu
      by_contra listed
      obtain ⟨sleepTime, listed⟩ := List.exists_mem_of_ne_nil _ listed
      obtain ⟨i, here⟩ := List.mem_iff_getElem?.mp selected
      obtain ⟨j, there⟩ := List.mem_iff_getElem?.mp listed
      obtain ⟨spec, found, kind⟩ := (Option.any_eq_true _ _).mp cpu
      have config := work (calibrationConfig o spec fw s!"cal_{spec.framework.name}_{suffix i j}" sleepTime) (by
        refine List.mem_flatMap.mpr ⟨(fw, i), List.mem_zipIdx_iff_getElem?.mpr here, ?_⟩
        refine List.mem_flatMap.mpr ⟨spec, Option.mem_toList.mpr found, ?_⟩
        exact List.mem_map.mpr ⟨(sleepTime, j), List.mem_zipIdx_iff_getElem?.mpr there, rfl⟩)
      exact absurd ((hasWork_iff _).mp config (by simpa [calibrationConfig] using kind)) (by simp [calibrationConfig])
    · intro none config member
      obtain ⟨⟨fw, i⟩, here, member⟩ := List.mem_flatMap.mp member
      obtain ⟨spec, known, member⟩ := List.mem_flatMap.mp member
      obtain ⟨⟨sleepTime, j⟩, there, rfl⟩ := List.mem_map.mp member
      refine (hasWork_iff _).mpr (fun cpu => ?_)
      have selected : fw ∈ o.frameworks := List.mem_of_getElem? (List.mem_zipIdx_iff_getElem?.mp here)
      have empty := none fw selected ((isCpu_iff (Option.mem_toList.mp known)).mpr cpu)
      have listed : sleepTime ∈ o.sleepTimesFor fw := List.mem_of_getElem? (List.mem_zipIdx_iff_getElem?.mp there)
      rw [empty] at listed
      cases listed

/-- Whatever is selected and given, and in whatever order the tasks are run: every CPU
    configuration has its work size exactly when no CPU benchmark is calibrated. -/
theorem cpu_configs_have_work_iff (o : Options) (results : Nat → Nat → Option Result) (sample : Nat → Nat → Nat × ℚ)
    (calibrationSuffix : Nat → Nat → String) (suffix : Nat → String) (skipSet : List Key) (order : List Task)
    (ordered : TaskOrder (tasks (o.args (o.calibratedCounts results)) skipSet) order) :
    (∀ config ∈ calibrationConfigs o calibrationSuffix ++
        taskConfigs o (o.calibratedCounts results) sample suffix order, HasWork config) ↔
      (o.calibrates = true → ∀ fw ∈ o.frameworks, isCpu fw → o.sleepTimesFor fw = []) := by
  rw [← calibrationConfigs_hasWork_iff o calibrationSuffix]
  constructor
  · exact fun work config member => work config (List.mem_append_left _ member)
  · intro work config member
    rcases List.mem_append.mp member with calibration | task
    · exact work config calibration
    · exact taskConfigs_hasWork ordered task

/-- One CPU benchmark and one sleep time. -/
def oneCpu (calibrate : Bool) : Options where
  frameworks := ["repid_cpu"]
  sleepTimes := some [0.01]
  runs := 1
  calibrate := calibrate

/-- Without calibration, its configuration has the iterations that are measured. -/
theorem cpu_configs_uncalibrated : ∃ config,
    taskConfigs (oneCpu false) none (fun _ _ => (1000, 0.25)) (fun _ => "0") [⟨⟨⟨"repid_cpu", 0.01⟩, 1⟩, false⟩] =
      [config] ∧ HasWork config := by
  have single : (taskConfigs (oneCpu false) none (fun _ _ => (1000, 0.25)) (fun _ => "0")
      [⟨⟨⟨"repid_cpu", 0.01⟩, 1⟩, false⟩]).length = 1 := by decide +kernel
  obtain ⟨config, only⟩ := List.length_eq_one_iff.mp single
  refine ⟨config, only, ?_⟩
  refine (cpu_configs_have_work_iff (oneCpu false) (fun _ _ => none) (fun _ _ => (1000, 0.25)) (fun _ _ => "0")
    (fun _ => "0") [] [⟨⟨⟨"repid_cpu", 0.01⟩, 1⟩, false⟩] (.inl (by decide +kernel))).mpr
    (fun calibrates => absurd calibrates (by decide)) config (List.mem_append_right _ ?_)
  show config ∈ taskConfigs (oneCpu false) none _ _ _
  rw [only]
  exact List.mem_singleton_self config

/-- The calibration run has none, and its tasks raise. -/
theorem cpu_config_calibrated : ∃ config ∈ calibrationConfigs (oneCpu true) (fun _ _ => "0"),
    config.taskKind = .cpu ∧ config.cpuWorkIterations = none ∧
    (ofDict (asdict config)).map (fun config => cpuWork config.cpuWorkIterations) =
      some (.error "CPU work iterations are required for CPU benchmarks") := by
  have configs : (calibrationConfigs (oneCpu true) (fun _ _ => "0")).map
      (fun config => (config.taskKind, config.cpuWorkIterations)) = [(.cpu, none)] := by decide +kernel
  obtain ⟨config, member, facts⟩ := List.mem_map.mp (configs ▸ List.mem_singleton_self (TaskKind.cpu, (none : Option ℤ)))
  obtain ⟨cpu, without⟩ := Prod.mk.inj facts
  refine ⟨config, member, cpu, without, ?_⟩
  rw [ofDict_asdict, Option.map_some, without]
  rfl

end RepidBench.CpuWork
