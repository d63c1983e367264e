import RepidBench.BurstRecovery
import RepidBench.Exceptions
import RepidBench.LatencyRun
import RepidBench.Publishers

/-!
Runs in which the start of the workers or of the publishers fails. What
`start_workers` and `_start_publishers` have started is known to their callers by the
lists they return, so an exception in the middle leaves it running; `_publish` keeps
its lists where its own `finally` block finds them. A config file is in no list at all
until `write_config` has returned its path.
-/
namespace RepidBench.FailedStarts
open Exceptions Publishers RepidBench.Runtime

/-! ## Processes and files -/

inductive Process
  | worker (i : Nat)
  | publisher (i : Nat)
  deriving DecidableEq, Repr

/-- The processes that are running and the config files of publishers that exist,
    with the local variables of the run function and those of `_publish`. -/
structure State where
  running : List Process
  configFiles : List Nat
  workers : List Process
  publisherProcs : List Process
  publisherConfigPaths : List Nat
  procs : List Process
  configPaths : List Nat
  deriving DecidableEq

def State.initial : State := ⟨[], [], [], [], [], [], []⟩

/-- The calls that may raise; `mkstemp`, `closeFd` and `writeText` are those of
    `write_config`, and `attend` stands for the statements after everything is started. -/
inductive Call
  | kwargs (i : Nat)
  | spawnWorker (i : Nat)
  | mkstemp (i : Nat)
  | closeFd (i : Nat)
  | writeText (i : Nat)
  | stderrFile (i : Nat)
  | spawnPublisher (i : Nat)
  | readerThread (i : Nat)
  | waitForPublishers
  | publishHere
  | publishLatency (record : Bool)
  | checkPath
  | openCounter
  | rewriteConfig
  | waitForConsumers
  | attend
  deriving DecidableEq, Repr

abbrev Statement (α : Type) := Stmt State Call α

/-- `terminate_processes` or `terminate_multiprocessing`, which end what they are given. -/
def terminate (procs : List Process) (s : State) : State :=
  { s with running := s.running.filter (fun p => p ∉ procs) }

/-- `path.unlink()` for each path. -/
def unlink (paths : List Nat) (s : State) : State :=
  { s with configFiles := s.configFiles.filter (fun path => path ∉ paths) }

/-- `_cleanup_publishers`. -/
def cleanupPublishers (s : State) : State := unlink s.publisherConfigPaths (terminate s.publisherProcs s)

/-- `_stop_workers`. -/
def stopWorkers (s : State) : State := terminate s.workers s

/-! ## Starting -/

section
variable (failing : Call)

/-- A call that has its effect, or raises. -/
def call (c : Call) (effect : State → State) : Statement PUnit := fun s =>
  if c = failing then (.error c, s) else (.ok ⟨⟩, effect s)

/-- `subprocess_kwargs` where the adapter has it, and the start of the process. -/
def spawnWorker (kwargs : Bool) (i : Nat) : Statement Process := do
  Stmt.onlyIf kwargs (call failing (.kwargs i) id)
  call failing (.spawnWorker i) (fun s => { s with running := s.running ++ [.worker i] })
  pure (.worker i)

/-- The processes of an adapter, one after another. -/
def spawnWorkers (kwargs : Bool) (count : Nat) : Statement (List Process) :=
  Stmt.forRange count [] (fun procs i => do
    let proc ← spawnWorker failing kwargs i
    pure (procs ++ [proc]))

/-- `start_workers` of `adapters/repid.py`. -/
def Repid.startWorkers (cfg : BenchmarkConfig) : Statement (List Process) := spawnWorkers failing false cfg.processes

/-- `start_workers` of `adapters/faststream.py`. -/
def Faststream.startWorkers (cfg : BenchmarkConfig) : Statement (List Process) :=
  spawnWorkers failing false cfg.processes

/-- `start_workers` of `adapters/taskiq.py`. -/
def Taskiq.startWorkers (cfg : BenchmarkConfig) : Statement (List Process) := spawnWorkers failing true cfg.processes

/-- `start_workers` of `adapters/celery.py`. -/
def Celery.startWorkers (cfg : BenchmarkConfig) : Statement (List Process) :=
  if cfg.greenThreads then spawnWorkers failing true cfg.processes else spawnWorkers failing true 1

/-- `start_workers` of `adapters/dramatiq.py`. -/
def Dramatiq.startWorkers : Statement (List Process) := spawnWorkers failing true 1

def startWorkers (cfg : BenchmarkConfig) : Statement (List Process) :=
  match cfg.framework with
  | .repid => Repid.startWorkers failing cfg
  | .faststream => Faststream.startWorkers failing cfg
  | .taskiq => Taskiq.startWorkers failing cfg
  | .celery => Celery.startWorkers failing cfg
  | .dramatiq => Dramatiq.startWorkers failing

/-- `write_config(chunk_cfg)`, which makes a file of its own. -/
def writeConfig (i : Nat) : Statement PUnit := do
  call failing (.mkstemp i) (fun s => { s with configFiles := s.configFiles ++ [i] })
  call failing (.closeFd i) id
  call failing (.writeText i) id

def spawnPublisher (i : Nat) : Statement PUnit :=
  call failing (.spawnPublisher i) (fun s => { s with running := s.running ++ [.publisher i] })

/-- The messages of each publisher process. -/
def chunks (cfg : BenchmarkConfig) : List Nat := splitMessages cfg.messages cfg.publishProcesses

/-- `_start_publishers`, with its lists of processes and of config paths. -/
def startPublishers (cfg : BenchmarkConfig) : Statement (List Process × List Nat) :=
  Stmt.forRange (chunks cfg).length ([], []) (fun lists i => do
    writeConfig failing i
    let configPaths := lists.2 ++ [i]
    call failing (.stderrFile i) id
    spawnPublisher failing i
    pure (lists.1 ++ [.publisher i], configPaths))

/-- `_publish`. -/
def publish (cfg : BenchmarkConfig) : Statement PUnit :=
  if (chunks cfg).length ≤ 1 then call failing .publishHere id
  else do
    Stmt.change (fun s => { s with procs := [], configPaths := [] })
    Stmt.andFinally (do
        Stmt.forRange (chunks cfg).length PUnit.unit (fun _ i => do
          writeConfig failing i
          Stmt.change (fun s => { s with configPaths := s.configPaths ++ [i] })
          call failing (.stderrFile i) id
          spawnPublisher failing i
          Stmt.change (fun s => { s with procs := s.procs ++ [.publisher i] })
          call failing (.readerThread i) id)
        call failing .waitForPublishers id)
      (Stmt.change (fun s => unlink s.configPaths (terminate s.procs s)))

/-! ## The run functions -/

/-- `workers = _start_workers(...)`. -/
def assignWorkers (cfg : BenchmarkConfig) : Statement PUnit := do
  let workers ← startWorkers failing cfg
  Stmt.change (fun s => { s with workers := workers })

/-- `publisher_procs, publisher_config_paths, ... = _start_publishers(cfg)`. -/
def assignPublishers (cfg : BenchmarkConfig) : Statement PUnit := do
  let lists ← startPublishers failing cfg
  Stmt.change (fun s => { s with publisherProcs := lists.1, publisherConfigPaths := lists.2 })

/-- `_run_steady`. -/
def runSteady (cfg : BenchmarkConfig) : Statement PUnit :=
  Stmt.andFinally (do
      assignWorkers failing cfg
      call failing .waitForConsumers id
      assignPublishers failing cfg
      call failing .attend id)
    (do
      Stmt.change cleanupPublishers
      Stmt.change stopWorkers)

def publishFirst (cfg : BenchmarkConfig) : Bool := cfg.mode ∈ [.base, .hc, .cpu, .nogt]

/-- `_run_value_counter`. -/
def runValueCounter (cfg : BenchmarkConfig) : Statement PUnit := do
  Stmt.onlyIf (publishFirst cfg) (publish failing cfg)
  assignWorkers failing cfg
  Stmt.andFinally (do
      Stmt.onlyIf (!publishFirst cfg) (do
        call failing .waitForConsumers id
        publish failing cfg)
      call failing .attend id)
    (Stmt.change stopWorkers)

/-- `_run_mmap_counter`. -/
def runMmapCounter (cfg : BenchmarkConfig) : Statement PUnit := do
  call failing .checkPath id
  Stmt.onlyIf (publishFirst cfg) (publish failing cfg)
  call failing .openCounter id
  assignWorkers failing cfg
  Stmt.andFinally (do
      Stmt.onlyIf (!publishFirst cfg) (do
        call failing .waitForConsumers id
        publish failing cfg)
      call failing .attend id)
    (Stmt.change stopWorkers)

/-- `_run_latency_controlled`. -/
def runLatencyControlled (cfg : BenchmarkConfig) : Statement PUnit := do
  call failing .checkPath id
  Stmt.andFinally (do
      assignWorkers failing cfg
      call failing .waitForConsumers id
      Stmt.onlyIf (LatencyRun.warmupMessages cfg ≠ 0) (call failing (.publishLatency false) id)
      call failing (.publishLatency true) id
      call failing .attend id)
    (Stmt.change stopWorkers)

/-- `_run_burst_recovery`. -/
def runBurstRecovery (cfg : BenchmarkConfig) : Statement PUnit := do
  call failing .openCounter id
  Stmt.andFinally (do
      call failing .rewriteConfig id
      assignWorkers failing cfg
      call failing .waitForConsumers id
      publish failing { cfg with messages := BurstRecovery.burstMessages cfg }
      call failing .attend id)
    (Stmt.change stopWorkers)

end

/-! ## What is left after an exception -/

inductive Caller
  | steady | valueCounter | mmapCounter | latencyControlled | burstRecovery
  deriving DecidableEq, Repr

/-- The run function of a caller, in which the call `failing` raises. -/
def Caller.run (caller : Caller) (cfg : BenchmarkConfig) (failing : Call) : Statement PUnit :=
  match caller with
  | .steady => runSteady failing cfg
  | .valueCounter => runValueCounter failing cfg
  | .mmapCounter => runMmapCounter failing cfg
  | .latencyControlled => runLatencyControlled failing cfg
  | .burstRecovery => runBurstRecovery failing cfg

/-- No process is running, and no config file is left. -/
def Clean (s : State) : Prop := s.running = [] ∧ s.configFiles = []

instance (s : State) : Decidable (Clean s) := inferInstanceAs (Decidable (_ ∧ _))

/-- The calls whose exception finds something started, or a file made, that is in no
    list of the caller or of `_publish`. -/
def Leaks (caller : Caller) : Call → Prop
  | .kwargs i | .spawnWorker i => 0 < i
  | .mkstemp i => caller = .steady ∧ 0 < i
  | .closeFd _ | .writeText _ => True
  | .stderrFile _ | .spawnPublisher _ => caller = .steady
  | _ => False

/-- Only the workers that the caller knows are running. -/
structure Working (s : State) : Prop where
  running : s.running = s.workers
  workers : ∀ i, .publisher i ∉ s.workers
  configFiles : s.configFiles = []
  publisherProcs : s.publisherProcs = []
  publisherConfigPaths : s.publisherConfigPaths = []

/-- The start of the workers has failed after the first `count`. -/
structure Interrupted (count : Nat) (s : State) : Prop where
  running : s.running = (List.range count).map .worker
  workers : s.workers = []
  configFiles : s.configFiles = []
  publisherProcs : s.publisherProcs = []
  publisherConfigPaths : s.publisherConfigPaths = []

/-- The call that raises is one of the start of the workers. -/
def WorkerCall (failing : Call) (i : Nat) (c : Call) : Prop := c = failing ∧ (c = .kwargs i ∨ c = .spawnWorker i)

/-- A call of `_publish` that finds all that is made in its lists. -/
def PublishCall (c : Call) : Prop :=
  c = .publishHere ∨ c = .waitForPublishers ∨
    ∃ i, c = .mkstemp i ∨ c = .stderrFile i ∨ c = .spawnPublisher i ∨ c = .readerThread i

/-- A call of `write_config` after its file is made. -/
def FileCall (i : Nat) (c : Call) : Prop := c = .closeFd i ∨ c = .writeText i

/-! ## What is stopped -/

section
universe u
variable {β : Type u} [DecidableEq β]

theorem filter_self_notMem (xs : List β) : xs.filter (fun x => x ∉ xs) = [] := by
  rw [List.filter_eq_nil_iff]
  intro x member
  simpa using member

theorem filter_notMem_nil (xs : List β) : xs.filter (fun x => x ∉ ([] : List β)) = xs := by
  rw [List.filter_eq_self]
  intro x _
  simp

/-- What is stopped goes, what is apart from it stays. -/
theorem filter_notMem_append {xs ys : List β} (apart : ∀ y ∈ ys, y ∉ xs) : (xs ++ ys).filter (fun x => x ∉ xs) = ys := by
  rw [List.filter_append, filter_self_notMem, List.nil_append, List.filter_eq_self]
  intro y member
  simpa using apart y member

theorem filter_append_notMem {xs ys : List β} (apart : ∀ x ∈ xs, x ∉ ys) : (xs ++ ys).filter (fun x => x ∉ ys) = xs := by
  rw [List.filter_append, filter_self_notMem, List.append_nil, List.filter_eq_self]
  intro x member
  simpa using apart x member

end

theorem Working.stop {s : State} (working : Working s) : Clean (stopWorkers s) := by
  refine ⟨?_, working.configFiles⟩
  show s.running.filter _ = []
  rw [working.running]
  exact filter_self_notMem s.workers

theorem cleanupPublishers_none {s : State} (procs : s.publisherProcs = []) (paths : s.publisherConfigPaths = []) :
    cleanupPublishers s = s := by
  cases s
  cases procs
  cases paths
  simp only [cleanupPublishers, terminate, unlink, filter_notMem_nil]

theorem Interrupted.clean_iff {s : State} {count : Nat} (interrupted : Interrupted count s) :
    Clean s ↔ ¬ 0 < count := by
  unfold Clean
  rw [interrupted.running, interrupted.configFiles, List.map_eq_nil_iff, List.range_eq_nil, and_iff_left rfl]
  omega

theorem Interrupted.stop {s : State} {count : Nat} (interrupted : Interrupted count s) : stopWorkers s = s := by
  cases s
  cases interrupted.workers
  simp only [stopWorkers, terminate, filter_notMem_nil]

theorem Interrupted.leaks_iff {s : State} {i : Nat} (caller : Caller) (interrupted : Interrupted i s)
    {failing c : Call} (own : WorkerCall failing i c) : Clean s ↔ ¬ Leaks caller c := by
  rw [interrupted.clean_iff]
  rcases own with ⟨_, rfl | rfl⟩ <;> rfl

theorem publishCall_clean {caller : Caller} (other : caller ≠ .steady) {c : Call} (own : PublishCall c) :
    ¬ Leaks caller c := by
  rcases own with rfl | rfl | ⟨i, rfl | rfl | rfl | rfl⟩ <;> simp [Leaks, other]

theorem fileCall_leaks {i : Nat} {c : Call} (own : FileCall i c) (caller : Caller) : Leaks caller c := by
  rcases own with rfl | rfl <;> trivial

/-! ## The statements -/

section
variable {failing : Call}

theorem call_spec {c : Call} {effect : State → State} {P : State → Prop} {Q : PUnit → State → Prop}
    {E : Call → State → Prop} (returns : ∀ s, P s → Q ⟨⟩ (effect s)) (raises : c = failing → ∀ s, P s → E c s) :
    Triple P (call failing c effect) Q E := by
  intro s pre
  unfold call
  by_cases fails : c = failing
  · rw [if_pos fails]
    exact raises fails s pre
  · rw [if_neg fails]
    exact returns s pre

theorem spawnWorker_spec (kwargs : Bool) (i : Nat) (s : State) :
    Triple (· = s) (spawnWorker failing kwargs i)
      (fun proc t => proc = .worker i ∧ t = { s with running := s.running ++ [.worker i] })
      (fun e t => WorkerCall failing i e ∧ t = s) := by
  refine .bind (Q := fun _ t => t = s) (.onlyIf (fun _ => call_spec (fun t here => here) (fun fails => ?_))
    (fun _ _ same => same)) (fun _ => ?_)
  · rintro t rfl
    exact ⟨⟨fails, .inl rfl⟩, rfl⟩
  refine .bind (Q := fun _ t => t = { s with running := s.running ++ [.worker i] })
    (call_spec ?_ (fun fails => ?_)) (fun _ => .pure (fun t after => ⟨rfl, after⟩))
  · rintro t rfl
    rfl
  · rintro t rfl
    exact ⟨⟨fails, .inr rfl⟩, rfl⟩

/-- The state when the first `count` workers of a start are running. -/
def State.withWorkers (s : State) (count : Nat) : State :=
  { s with running := s.running ++ (List.range count).map .worker }

theorem spawnWorkers_spec (kwargs : Bool) (count : Nat) (s : State) :
    Triple (· = s) (spawnWorkers failing kwargs count)
      (fun procs t => procs = (List.range count).map .worker ∧ t = s.withWorkers count)
      (fun e t => ∃ i, WorkerCall failing i e ∧ t = s.withWorkers i) := by
  have each (i : Nat) (procs : List Process) :
      Triple (fun t => procs = (List.range i).map .worker ∧ t = s.withWorkers i)
        (do
          let proc ← spawnWorker failing kwargs i
          pure (procs ++ [proc]))
        (fun procs t => procs = (List.range (i + 1)).map .worker ∧ t = s.withWorkers (i + 1))
        (fun e t => ∃ i, WorkerCall failing i e ∧ t = s.withWorkers i) := by
    rintro _ ⟨rfl, rfl⟩
    refine Triple.bind ((spawnWorker_spec kwargs i (s.withWorkers i)).weaken (fun _ same => same)
      (fun _ _ post => post) (fun e t raised => ⟨i, raised⟩)) (fun proc => .pure ?_) _ rfl
    rintro t ⟨rfl, rfl⟩
    simp [State.withWorkers, List.range_succ]
  refine (Triple.forRange _ (fun i _ procs => each i procs)).weaken ?_ (fun _ _ post => post) (fun _ _ post => post)
  rintro t rfl
  exact ⟨rfl, by simp [State.withWorkers]⟩

/-- Every adapter starts some number of workers. -/
theorem startWorkers_spec (cfg : BenchmarkConfig) (s : State) :
    Triple (· = s) (startWorkers failing cfg)
      (fun procs t => ∃ count, procs = (List.range count).map .worker ∧ t = s.withWorkers count)
      (fun e t => ∃ i, WorkerCall failing i e ∧ t = s.withWorkers i) := by
  have spawned (kwargs : Bool) (count : Nat) :
      Triple (· = s) (spawnWorkers failing kwargs count)
        (fun procs t => ∃ count, procs = (List.range count).map .worker ∧ t = s.withWorkers count)
        (fun e t => ∃ i, WorkerCall failing i e ∧ t = s.withWorkers i) :=
    (spawnWorkers_spec kwargs count s).weaken (fun _ same => same) (fun _ _ post => ⟨count, post⟩) (fun _ _ post => post)
  unfold startWorkers
  cases cfg.framework with
  | repid => exact spawned false cfg.processes
  | faststream => exact spawned false cfg.processes
  | taskiq => exact spawned true cfg.processes
  | celery =>
    show Triple _ (if cfg.greenThreads = true then _ else _) _ _
    split_ifs
    · exact spawned true cfg.processes
    · exact spawned true 1
  | dramatiq => exact spawned true 1

theorem assignWorkers_spec (cfg : BenchmarkConfig) :
    Triple (Interrupted 0) (assignWorkers failing cfg) (fun _ => Working)
      (fun e t => ∃ i, WorkerCall failing i e ∧ Interrupted i t) := by
  intro s fresh
  have empty : s.running = [] := fresh.running
  refine Triple.bind ((startWorkers_spec cfg s).weaken (fun _ same => same) (fun _ _ post => post) ?_)
    (fun procs => .change ?_) s rfl
  · rintro e t ⟨i, own, rfl⟩
    refine ⟨i, own, ?_, fresh.workers, fresh.configFiles, fresh.publisherProcs, fresh.publisherConfigPaths⟩
    simp [State.withWorkers, empty]
  · rintro t ⟨count, rfl, rfl⟩
    refine ⟨?_, ?_, fresh.configFiles, fresh.publisherProcs, fresh.publisherConfigPaths⟩
    · simp [State.withWorkers, empty]
    · simp

/-! ## `_publish` -/

/-- The same processes and files, and the same variables of the run function. -/
structure Same (s t : State) : Prop where
  running : t.running = s.running
  configFiles : t.configFiles = s.configFiles
  workers : t.workers = s.workers
  publisherProcs : t.publisherProcs = s.publisherProcs
  publisherConfigPaths : t.publisherConfigPaths = s.publisherConfigPaths

theorem Same.working {s t : State} (same : Same s t) (working : Working s) : Working t where
  running := by rw [same.running, same.workers, working.running]
  workers := by rw [same.workers]; exact working.workers
  configFiles := by rw [same.configFiles, working.configFiles]
  publisherProcs := by rw [same.publisherProcs, working.publisherProcs]
  publisherConfigPaths := by rw [same.publisherConfigPaths, working.publisherConfigPaths]

theorem Same.interrupted {s t : State} (same : Same s t) {count : Nat} (interrupted : Interrupted count s) :
    Interrupted count t where
  running := by rw [same.running, interrupted.running]
  workers := by rw [same.workers, interrupted.workers]
  configFiles := by rw [same.configFiles, interrupted.configFiles]
  publisherProcs := by rw [same.publisherProcs, interrupted.publisherProcs]
  publisherConfigPaths := by rw [same.publisherConfigPaths, interrupted.publisherConfigPaths]

/-- The state when `write_config` has made its file for chunk `i`. -/
def State.withConfig (s : State) (i : Nat) : State := { s with configFiles := s.configFiles ++ [i] }

theorem writeConfig_spec (i : Nat) (s : State) :
    Triple (· = s) (writeConfig failing i) (fun _ t => t = s.withConfig i)
      (fun e t => e = failing ∧ (e = .mkstemp i ∧ t = s ∨ FileCall i e ∧ t = s.withConfig i)) := by
  refine .bind (Q := fun _ t => t = s.withConfig i) (call_spec ?_ (fun fails => ?_)) (fun _ => ?_)
  · rintro t rfl
    rfl
  · rintro t rfl
    exact ⟨fails, .inl ⟨rfl, rfl⟩⟩
  refine .bind (Q := fun _ t => t = s.withConfig i) (call_spec (fun _ same => same) (fun fails t same => ?_)) (fun _ => ?_)
  · exact ⟨fails, .inr ⟨.inl rfl, same⟩⟩
  · exact call_spec (fun _ same => same) (fun fails t same => ⟨fails, .inr ⟨.inr rfl, same⟩⟩)

/-- The publishers and files that `_publish` has made for its first `count` chunks are
    those in its lists. -/
structure Publishing (s : State) (count : Nat) (t : State) : Prop where
  running : t.running = s.running ++ t.procs
  procs : ∀ p ∈ t.procs, ∃ i, p = .publisher i
  configFiles : t.configFiles = t.configPaths
  configPaths : t.configPaths = List.range count
  workers : t.workers = s.workers
  publisherProcs : t.publisherProcs = s.publisherProcs
  publisherConfigPaths : t.publisherConfigPaths = s.publisherConfigPaths

theorem Publishing.writeConfig {s t : State} {i : Nat} (publishing : Publishing s i t) :
    Publishing s (i + 1) { t.withConfig i with configPaths := t.configPaths ++ [i] } where
  running := publishing.running
  procs := publishing.procs
  configFiles := by rw [State.withConfig, publishing.configFiles]
  configPaths := by rw [publishing.configPaths, List.range_succ]
  workers := publishing.workers
  publisherProcs := publishing.publisherProcs
  publisherConfigPaths := publishing.publisherConfigPaths

theorem Publishing.spawnPublisher {s t : State} {count : Nat} (publishing : Publishing s count t) (i : Nat) :
    Publishing s count { t with running := t.running ++ [.publisher i], procs := t.procs ++ [.publisher i] } where
  running := by rw [publishing.running, List.append_assoc]
  procs := by
    intro p member
    rcases List.mem_append.mp member with earlier | now
    · exact publishing.procs p earlier
    · exact ⟨i, List.mem_singleton.mp now⟩
  configFiles := publishing.configFiles
  configPaths := publishing.configPaths
  workers := publishing.workers
  publisherProcs := publishing.publisherProcs
  publisherConfigPaths := publishing.publisherConfigPaths

theorem Publishing.cleaned {s t : State} {count : Nat} (publishing : Publishing s count t) (apart : ∀ i, .publisher i ∉ s.running)
    (none : s.configFiles = []) : Same s (unlink t.configPaths (terminate t.procs t)) where
  running := by
    show t.running.filter _ = s.running
    rw [publishing.running]
    refine filter_append_notMem (fun p member started => ?_)
    obtain ⟨i, rfl⟩ := publishing.procs p started
    exact apart i member
  configFiles := by
    show t.configFiles.filter _ = s.configFiles
    rw [publishing.configFiles, none]
    exact filter_self_notMem t.configPaths
  workers := publishing.workers
  publisherProcs := publishing.publisherProcs
  publisherConfigPaths := publishing.publisherConfigPaths

/-- A file that `_publish` has not in its list yet is left. -/
theorem Publishing.unlisted {s t : State} {i : Nat} (publishing : Publishing s i t) :
    (unlink (t.withConfig i).configPaths (terminate (t.withConfig i).procs (t.withConfig i))).configFiles = [i] := by
  show (t.configFiles ++ [i]).filter (fun path => path ∉ t.configPaths) = [i]
  rw [publishing.configFiles]
  refine filter_notMem_append (fun path own => ?_)
  rw [List.mem_singleton.mp own, publishing.configPaths]
  exact fun listed => Nat.lt_irrefl i (List.mem_range.mp listed)

/-- What `_publish` leaves when it raises: what was there, and a file that is not in its
    list when it has just been made. -/
def PublishFailed (failing : Call) (s : State) (e : Call) (t : State) : Prop :=
  e = failing ∧ (PublishCall e ∧ Same s t ∨ ∃ i, FileCall i e ∧ t.configFiles = [i])

/-- One round of the loop of `_publish`. -/
theorem publishChunk_spec (i : Nat) (s : State) :
    Triple (Publishing s i) (do
        writeConfig failing i
        Stmt.change (fun s => { s with configPaths := s.configPaths ++ [i] })
        call failing (.stderrFile i) id
        spawnPublisher failing i
        Stmt.change (fun s => { s with procs := s.procs ++ [.publisher i] })
        call failing (.readerThread i) id)
      (fun _ => Publishing s (i + 1))
      (fun e t => e = failing ∧ (PublishCall e ∧ (∃ count, Publishing s count t) ∨
        ∃ i, FileCall i e ∧ ∃ u, Publishing s i u ∧ t = u.withConfig i)) := by
  intro u publishing
  refine Triple.bind (P := (· = u)) (Q := fun _ t => t = u.withConfig i) ((writeConfig_spec i u).weaken (fun _ same => same)
    (fun _ _ post => post) ?_) (fun _ => ?_) u rfl
  · rintro e t ⟨fails, ⟨own, rfl⟩ | ⟨own, rfl⟩⟩
    · exact ⟨fails, .inl ⟨.inr (.inr ⟨i, .inl own⟩), i, publishing⟩⟩
    · exact ⟨fails, .inr ⟨i, own, u, publishing, rfl⟩⟩
  refine .bind (Q := fun _ => Publishing s (i + 1)) (.change ?_) (fun _ => ?_)
  · rintro t rfl
    exact publishing.writeConfig
  refine .bind (Q := fun _ => Publishing s (i + 1))
    (call_spec (fun _ same => same) (fun fails t listed => ⟨fails, .inl ⟨?_, _, listed⟩⟩)) (fun _ => ?_)
  · exact .inr (.inr ⟨i, .inr (.inl rfl)⟩)
  refine .bind (Q := fun _ t => Publishing s (i + 1) { t with procs := t.procs ++ [.publisher i] })
    (call_spec (fun t listed => listed.spawnPublisher i) (fun fails t listed => ⟨fails, .inl ⟨?_, _, listed⟩⟩)) (fun _ => ?_)
  · exact .inr (.inr ⟨i, .inr (.inr (.inl rfl))⟩)
  refine .bind (Q := fun _ => Publishing s (i + 1)) (.change (fun _ spawned => spawned)) (fun _ => ?_)
  refine call_spec (fun _ same => same) (fun fails t listed => ⟨fails, .inl ⟨?_, _, listed⟩⟩)
  exact .inr (.inr ⟨i, .inr (.inr (.inr rfl))⟩)

/-- `_publish` leaves what was there, unless a config file is made and not written. -/
theorem publish_spec (cfg : BenchmarkConfig) (s : State) (apart : ∀ i, .publisher i ∉ s.running)
    (none : s.configFiles = []) :
    Triple (· = s) (publish failing cfg) (fun _ t => Same s t) (PublishFailed failing s) := by
  have unchanged : Same s s := ⟨rfl, rfl, rfl, rfl, rfl⟩
  unfold publish
  split_ifs
  · refine call_spec ?_ (fun fails => ?_)
    · rintro t rfl
      exact unchanged
    · rintro t rfl
      exact ⟨fails, .inl ⟨.inl rfl, unchanged⟩⟩
  · refine .bind (Q := fun _ => Publishing s 0) (.change ?_) (fun _ => ?_)
    · rintro t rfl
      exact ⟨(List.append_nil _).symm, nofun, none, rfl, rfl, rfl, rfl⟩
    refine .andFinally (Q := fun _ t => ∃ count, Publishing s count t) (E := fun e t => e = failing ∧
        (PublishCall e ∧ (∃ count, Publishing s count t) ∨ ∃ i, FileCall i e ∧ ∃ u, Publishing s i u ∧ t = u.withConfig i))
      ?_ (fun _ => .change ?_) (fun e => .change ?_)
    · refine .bind (Triple.forRange (fun i _ => Publishing s i) (fun i _ _ => publishChunk_spec i s)) (fun _ => ?_)
      exact call_spec (fun t publishing => ⟨_, publishing⟩)
        (fun fails t publishing => ⟨fails, .inl ⟨.inr (.inl rfl), _, publishing⟩⟩)
    · rintro t ⟨count, publishing⟩
      exact publishing.cleaned apart none
    · rintro t ⟨fails, ⟨own, count, publishing⟩ | ⟨i, own, u, publishing, rfl⟩⟩
      · exact ⟨fails, .inl ⟨own, publishing.cleaned apart none⟩⟩
      · exact ⟨fails, .inr ⟨i, own, publishing.unlisted⟩⟩

/-! ## `_start_publishers` -/

/-- The state when a start has made so many config files and publishers. -/
def State.withPublishers (s : State) (paths procs : Nat) : State :=
  { s with
    running := s.running ++ (List.range procs).map .publisher
    configFiles := s.configFiles ++ List.range paths }

/-- Where `_start_publishers` fails for its chunk `i`. -/
def PublishersFailed (failing : Call) (s : State) (e : Call) (t : State) : Prop :=
  e = failing ∧ ∃ i, e = .mkstemp i ∧ t = s.withPublishers i i ∨
    (FileCall i e ∨ e = .stderrFile i ∨ e = .spawnPublisher i) ∧ t = s.withPublishers (i + 1) i

theorem withPublishers_withConfig (s : State) (i : Nat) : (s.withPublishers i i).withConfig i = s.withPublishers (i + 1) i := by
  simp [State.withPublishers, State.withConfig, List.range_succ]

theorem startPublishers_spec (cfg : BenchmarkConfig) (s : State) :
    Triple (· = s) (startPublishers failing cfg)
      (fun lists t => ∃ count, lists = ((List.range count).map .publisher, List.range count) ∧
        t = s.withPublishers count count)
      (PublishersFailed failing s) := by
  refine (Triple.forRange (fun i lists t => lists = ((List.range i).map .publisher, List.range i) ∧
    t = s.withPublishers i i) (fun i _ lists => ?_)).weaken ?_ (fun lists t post => ⟨_, post⟩) (fun _ _ post => post)
  · rintro _ ⟨rfl, rfl⟩
    have written := @writeConfig_spec failing i (s.withPublishers i i)
    rw [withPublishers_withConfig] at written
    refine Triple.bind (P := (· = s.withPublishers i i)) (written.weaken (fun _ same => same) (fun _ _ post => post) ?_)
      (fun _ => ?_) _ rfl
    · rintro e t ⟨fails, ⟨own, rfl⟩ | ⟨own, rfl⟩⟩
      · exact ⟨fails, i, .inl ⟨own, rfl⟩⟩
      · exact ⟨fails, i, .inr ⟨.inl own, rfl⟩⟩
    refine .bind (Q := fun _ t => t = s.withPublishers (i + 1) i) (call_spec (fun _ same => same) (fun fails => ?_))
      (fun _ => ?_)
    · rintro t rfl
      exact ⟨fails, i, .inr ⟨.inr (.inl rfl), rfl⟩⟩
    refine .bind (Q := fun _ t => t = s.withPublishers (i + 1) (i + 1)) (call_spec ?_ (fun fails => ?_))
      (fun _ => .pure ?_)
    · rintro t rfl
      simp [State.withPublishers, List.range_succ]
    · rintro t rfl
      exact ⟨fails, i, .inr ⟨.inr (.inr rfl), rfl⟩⟩
    · rintro t rfl
      exact ⟨by simp [List.range_succ], rfl⟩
  · rintro t rfl
    exact ⟨rfl, by simp [State.withPublishers]⟩

/-- Workers and publishers are running, and the caller has both lists. -/
structure Attended (s : State) : Prop where
  running : s.running = s.workers ++ s.publisherProcs
  workers : ∀ i, .publisher i ∉ s.workers
  publishers : ∀ p ∈ s.publisherProcs, ∃ i, p = .publisher i
  configFiles : s.configFiles = s.publisherConfigPaths

theorem assignPublishers_spec (cfg : BenchmarkConfig) :
    Triple Working (assignPublishers failing cfg) (fun _ => Attended)
      (fun e t => ∃ s, Working s ∧ PublishersFailed failing s e t) := by
  intro s working
  refine Triple.bind ((startPublishers_spec cfg s).weaken (fun _ same => same) (fun _ _ post => post)
    (fun e t failed => ⟨s, working, failed⟩)) (fun lists => .change ?_) s rfl
  rintro t ⟨count, rfl, rfl⟩
  refine ⟨?_, working.workers, ?_, ?_⟩
  · simp [State.withPublishers, working.running]
  · simp
  · simp [State.withPublishers, working.configFiles]

/-! ## The run functions -/

/-- What each of them leaves when it is left by the exception. -/
def Ends (failing : Call) (caller : Caller) (e : Call) (t : State) : Prop :=
  e = failing ∧ (Clean t ↔ ¬ Leaks caller e)

theorem ends_clean {failing : Call} {caller : Caller} {e : Call} {t : State} (fails : e = failing) (clean : Clean t)
    (spared : ¬ Leaks caller e) : Ends failing caller e t := ⟨fails, iff_of_true clean spared⟩

theorem ends_leaked {failing : Call} {caller : Caller} {e : Call} {t : State} {i : Nat} (fails : e = failing)
    (files : t.configFiles = [i]) (leaks : Leaks caller e) : Ends failing caller e t := by
  refine ⟨fails, iff_of_false (fun clean => ?_) (not_not.mpr leaks)⟩
  rw [clean.2] at files
  cases files

theorem Attended.cleaned {s : State} (attended : Attended s) : Clean (stopWorkers (cleanupPublishers s)) := by
  have started : s.running.filter (fun p => p ∉ s.publisherProcs) = s.workers := by
    rw [attended.running]
    refine filter_append_notMem (fun p member started => ?_)
    obtain ⟨i, rfl⟩ := attended.publishers p started
    exact attended.workers i member
  constructor
  · show (s.running.filter (fun p => p ∉ s.publisherProcs)).filter (fun p => p ∉ s.workers) = []
    rw [started]
    exact filter_self_notMem s.workers
  · show s.configFiles.filter _ = []
    rw [attended.configFiles]
    exact filter_self_notMem s.publisherConfigPaths

/-- The publishers that were started before a failure are not in the lists of `_run_steady`. -/
theorem publishersFailed_ends {s t : State} {e : Call} (working : Working s) (failed : PublishersFailed failing s e t) :
    Ends failing .steady e (stopWorkers (cleanupPublishers t)) := by
  have left (paths procs : Nat) : Clean (stopWorkers (cleanupPublishers (s.withPublishers paths procs))) ↔
      procs = 0 ∧ paths = 0 := by
    have kept : cleanupPublishers (s.withPublishers paths procs) = s.withPublishers paths procs :=
      cleanupPublishers_none working.publisherProcs working.publisherConfigPaths
    have running : (stopWorkers (s.withPublishers paths procs)).running = (List.range procs).map .publisher := by
      show (s.running ++ _).filter (fun p => p ∉ s.workers) = _
      rw [working.running]
      refine filter_notMem_append (fun p started => ?_)
      obtain ⟨i, _, rfl⟩ := List.mem_map.mp started
      exact working.workers i
    have files : (stopWorkers (s.withPublishers paths procs)).configFiles = List.range paths := by
      show s.configFiles ++ _ = _
      rw [working.configFiles, List.nil_append]
    rw [kept, Clean, running, files, List.map_eq_nil_iff, List.range_eq_nil, List.range_eq_nil]
  obtain ⟨fails, i, ⟨rfl, rfl⟩ | ⟨(rfl | rfl) | rfl | rfl, rfl⟩⟩ := failed
  all_goals
    refine ⟨fails, ?_⟩
    rw [left, Leaks]
    simp

theorem runSteady_spec (cfg : BenchmarkConfig) :
    Triple (Interrupted 0) (runSteady failing cfg) (fun _ _ => True) (Ends failing .steady) := by
  refine .andFinally (Q := fun _ _ => True) (E := fun e t => Ends failing .steady e (stopWorkers (cleanupPublishers t))) ?_
    (fun _ => ?_) (fun e => ?_)
  · refine .bind (Q := fun _ => Working) ((assignWorkers_spec cfg).weaken (fun _ pre => pre) (fun _ _ post => post) ?_)
      (fun _ => ?_)
    · rintro e t ⟨i, own, interrupted⟩
      rw [cleanupPublishers_none interrupted.publisherProcs interrupted.publisherConfigPaths, interrupted.stop]
      exact ⟨own.1, interrupted.leaks_iff .steady own⟩
    refine .bind (Q := fun _ => Working) (call_spec (fun _ same => same) (fun fails t working => ?_)) (fun _ => ?_)
    · rw [cleanupPublishers_none working.publisherProcs working.publisherConfigPaths]
      exact ends_clean fails working.stop nofun
    refine .bind (Q := fun _ => Attended) ((assignPublishers_spec cfg).weaken (fun _ pre => pre) (fun _ _ post => post)
      ?_) (fun _ => ?_)
    · rintro e t ⟨s, working, failed⟩
      exact publishersFailed_ends working failed
    · exact call_spec (fun _ _ => trivial) (fun fails t attended => ends_clean fails attended.cleaned nofun)
  · exact .bind (Q := fun _ _ => True) (.change (fun _ _ => trivial)) (fun _ => .change (fun _ _ => trivial))
  · exact .bind (Q := fun _ t => Ends failing .steady e (stopWorkers t)) (.change (fun _ ends => ends))
      (fun _ => .change (fun _ ends => ends))

/-! Outside of its `try` block a run function is left as it is, inside of one its
workers are stopped. -/

variable {caller : Caller}

theorem call_idle {c : Call} (spared : ¬ Leaks caller c) :
    Triple (Interrupted 0) (call failing c id) (fun _ => Interrupted 0) (Ends failing caller) :=
  call_spec (fun _ same => same) (fun fails _ idle => ends_clean fails (idle.clean_iff.mpr (Nat.lt_irrefl 0)) spared)

theorem call_working {c : Call} (spared : ¬ Leaks caller c) :
    Triple Working (call failing c id) (fun _ => Working) (fun e t => Ends failing caller e (stopWorkers t)) :=
  call_spec (fun _ same => same) (fun fails _ working => ends_clean fails working.stop spared)

theorem publish_idle (cfg : BenchmarkConfig) (other : caller ≠ .steady) :
    Triple (Interrupted 0) (publish failing cfg) (fun _ => Interrupted 0) (Ends failing caller) := by
  intro s idle
  refine (publish_spec cfg s (by simp [idle.running]) idle.configFiles).weaken (fun _ same => same)
    (fun _ t same => same.interrupted idle) ?_ s rfl
  rintro e t ⟨fails, ⟨own, same⟩ | ⟨i, own, files⟩⟩
  · exact ends_clean fails ((same.interrupted idle).clean_iff.mpr (Nat.lt_irrefl 0)) (publishCall_clean other own)
  · exact ends_leaked fails files (fileCall_leaks own caller)

theorem publish_working (cfg : BenchmarkConfig) (other : caller ≠ .steady) :
    Triple Working (publish failing cfg) (fun _ => Working) (fun e t => Ends failing caller e (stopWorkers t)) := by
  intro s working
  have apart : ∀ i, .publisher i ∉ s.running := by
    rw [working.running]
    exact working.workers
  refine (publish_spec cfg s apart working.configFiles).weaken (fun _ same => same)
    (fun _ t same => same.working working) ?_ s rfl
  rintro e t ⟨fails, ⟨own, same⟩ | ⟨i, own, files⟩⟩
  · exact ends_clean fails (same.working working).stop (publishCall_clean other own)
  · exact ends_leaked fails files (fileCall_leaks own caller)

theorem assign_outside (cfg : BenchmarkConfig) :
    Triple (Interrupted 0) (assignWorkers failing cfg) (fun _ => Working) (Ends failing caller) := by
  refine (assignWorkers_spec cfg).weaken (fun _ pre => pre) (fun _ _ post => post) ?_
  rintro e t ⟨i, own, interrupted⟩
  exact ⟨own.1, interrupted.leaks_iff caller own⟩

theorem assign_inside (cfg : BenchmarkConfig) :
    Triple (Interrupted 0) (assignWorkers failing cfg) (fun _ => Working)
      (fun e t => Ends failing caller e (stopWorkers t)) := by
  refine (assignWorkers_spec cfg).weaken (fun _ pre => pre) (fun _ _ post => post) ?_
  rintro e t ⟨i, own, interrupted⟩
  rw [interrupted.stop]
  exact ⟨own.1, interrupted.leaks_iff caller own⟩

theorem stopped_finally {P : State → Prop} {body : Statement PUnit}
    (before : Triple P body (fun _ _ => True) (fun e t => Ends failing caller e (stopWorkers t))) :
    Triple P (body.andFinally (Stmt.change stopWorkers)) (fun _ _ => True) (Ends failing caller) :=
  before.andFinally (fun _ => .change (fun _ _ => trivial)) (fun _ => .change (fun _ ends => ends))

/-- The `try` block that `_run_value_counter` and `_run_mmap_counter` have in common. -/
theorem report_spec (cfg : BenchmarkConfig) (other : caller ≠ .steady) :
    Triple Working (Stmt.andFinally (do
        Stmt.onlyIf (!publishFirst cfg) (do
          call failing .waitForConsumers id
          publish failing cfg)
        call failing .attend id)
      (Stmt.change stopWorkers)) (fun _ _ => True) (Ends failing caller) := by
  refine stopped_finally (.bind (Q := fun _ => Working) (.onlyIf (fun _ => ?_) (fun _ _ same => same)) (fun _ => ?_))
  · exact (call_working (by nofun)).bind (fun _ => publish_working cfg other)
  · exact (call_working (by nofun)).weaken (fun _ pre => pre) (fun _ _ _ => trivial) (fun _ _ post => post)

theorem runValueCounter_spec (cfg : BenchmarkConfig) :
    Triple (Interrupted 0) (runValueCounter failing cfg) (fun _ _ => True) (Ends failing .valueCounter) := by
  refine .bind (Q := fun _ => Interrupted 0)
    (.onlyIf (fun _ => publish_idle cfg (by nofun)) (fun _ _ same => same)) (fun _ => ?_)
  exact (assign_outside cfg).bind (fun _ => report_spec cfg (by nofun))

theorem runMmapCounter_spec (cfg : BenchmarkConfig) :
    Triple (Interrupted 0) (runMmapCounter failing cfg) (fun _ _ => True) (Ends failing .mmapCounter) := by
  refine (call_idle (by nofun)).bind (fun _ => ?_)
  refine .bind (Q := fun _ => Interrupted 0)
    (.onlyIf (fun _ => publish_idle cfg (by nofun)) (fun _ _ same => same)) (fun _ => ?_)
  refine (call_idle (by nofun)).bind (fun _ => ?_)
  exact (assign_outside cfg).bind (fun _ => report_spec cfg (by nofun))

theorem runLatencyControlled_spec (cfg : BenchmarkConfig) :
    Triple (Interrupted 0) (runLatencyControlled failing cfg) (fun _ _ => True) (Ends failing .latencyControlled) := by
  refine (call_idle (by nofun)).bind (fun _ => stopped_finally ?_)
  refine (assign_inside cfg).bind (fun _ => (call_working (by nofun)).bind (fun _ => ?_))
  refine .bind (Q := fun _ => Working) (.onlyIf (fun _ => call_working (by nofun)) (fun _ _ same => same)) (fun _ => ?_)
  refine (call_working (by nofun)).bind (fun _ => ?_)
  exact (call_working (by nofun)).weaken (fun _ pre => pre) (fun _ _ _ => trivial) (fun _ _ post => post)

theorem runBurstRecovery_spec (cfg : BenchmarkConfig) :
    Triple (Interrupted 0) (runBurstRecovery failing cfg) (fun _ _ => True) (Ends failing .burstRecovery) := by
  refine (call_idle (by nofun)).bind (fun _ => stopped_finally ?_)
  have rewritten : Triple (Interrupted 0) (call failing .rewriteConfig id) (fun _ => Interrupted 0)
      (fun e t => Ends failing .burstRecovery e (stopWorkers t)) := by
    refine call_spec (fun _ same => same) (fun fails t idle => ?_)
    rw [idle.stop]
    exact ends_clean fails (idle.clean_iff.mpr (Nat.lt_irrefl 0)) nofun
  refine rewritten.bind (fun _ => (assign_inside cfg).bind (fun _ => (call_working (by nofun)).bind (fun _ => ?_)))
  refine (publish_working _ (by nofun)).bind (fun _ => ?_)
  exact (call_working (by nofun)).weaken (fun _ pre => pre) (fun _ _ _ => trivial) (fun _ _ post => post)

end

theorem initial_idle : Interrupted 0 .initial := ⟨rfl, rfl, rfl, rfl, rfl⟩

/-- Two workers and two publishers of a latency or a steady run. -/
def twoOfEach : BenchmarkConfig :=
  { Polling.oneWorker with framework := .taskiq, processes := 2, messages := 2, publishProcesses := 2 }

end RepidBench.FailedStarts
