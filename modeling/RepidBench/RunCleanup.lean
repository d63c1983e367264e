import RepidBench.Exceptions
import RepidBench.Polling

/-!
What `run` leaves behind when one of its calls raises: the queue of the run, its
counter file and its latency file. Everything after the start of the `try` block is
cleaned up. Before it, a call that raises finds what the calls before it have made.
-/
namespace RepidBench.RunCleanup
open Exceptions RepidBench.Runtime

/-! ## What `run` makes -/

/-- The run queue: not made by this run, made by it, or made and then deleted or purged,
    with or without success. -/
inductive Queue
  | absent | created | removed
  deriving DecidableEq, Repr

/-- A deletion or a purge is attempted. -/
def Queue.remove : Queue → Queue
  | .absent => .absent
  | .created | .removed => .removed

inductive Path
  | counter | latency
  deriving DecidableEq, Repr

structure State where
  queue : Queue
  files : List Path
  cleanupPaths : List Path
  deriving DecidableEq

def State.initial : State := ⟨.absent, [], []⟩

/-- The calls that may raise. `declareAnswer` is the answer to the declaration of the
    queue, and `runMode` the run function of the selected mode. -/
inductive Call
  | resetDelete | declareQueue | declareAnswer | resetPurge
  | deleteQueue (name : String)
  | createCounter | writeCounter | closeCounter
  | mkstemp | closeFd | initLatency
  | writeConfig | importAdapter
  | openCounter | runMode | printResults
  | purgeTimedOut (name : String)
  | finalDelete (name : String)
  | finalPurge (name : String)
  deriving DecidableEq, Repr

abbrev Statement := Stmt State Call PUnit

/-- `_auxiliary_queue_names`. -/
def auxiliaryQueueNames (cfg : BenchmarkConfig) : List String :=
  match cfg.framework with
  | .dramatiq => [cfg.queueName ++ ".DQ", cfg.queueName ++ ".XQ"]
  | .taskiq => [cfg.queueName ++ ".dead_letter", "taskiq.dead_letter"]
  | _ => []

/-- `_run_queue_names`. -/
def runQueueNames (cfg : BenchmarkConfig) : List String := cfg.queueName :: auxiliaryQueueNames cfg

/-- `_needs_counter_file`. -/
def needsCounterFile (cfg : BenchmarkConfig) : Bool :=
  cfg.framework ∈ [.celery, .dramatiq, .taskiq] || (cfg.framework = .repid && cfg.taskKind = .cpu)

/-- `COUNTER_KIND == "value"`. -/
def countsInValue (cfg : BenchmarkConfig) : Bool :=
  match cfg.framework with
  | .repid => cfg.taskKind ≠ .cpu
  | .faststream => true
  | .celery | .dramatiq | .taskiq => false

/-! ## `run` -/

section
variable (raises : Call → Bool)

/-- A call that has its effect, or raises. -/
def call (c : Call) (effect : State → State) : Statement := fun s =>
  if raises c then (.error c, s) else (.ok ⟨⟩, effect s)

/-- `reset_queue`. -/
def resetQueue : Statement := do
  call raises .resetDelete id
  call raises .declareQueue (fun s => { s with queue := .created })
  call raises .declareAnswer id
  call raises .resetPurge id

/-- `_delete_run_queues` and `_purge_run_queues`, by the call for each queue. -/
def removeQueues (cfg : BenchmarkConfig) (remove : String → Call) (bestEffort : Bool) : Statement :=
  Stmt.forEach (runQueueNames cfg) (fun name => do
    Stmt.change (fun s => { s with queue := if name = cfg.queueName then s.queue.remove else s.queue })
    Stmt.andExcept (call raises (remove name) id) (fun e => if bestEffort then pure ⟨⟩ else Stmt.raise e))

def register (path : Path) (s : State) : State := { s with cleanupPaths := s.cleanupPaths ++ [path] }

/-- `create_counter_file`, and the registration of the file. -/
def addCounterFile : Statement := do
  call raises .createCounter (fun s => { s with files := s.files ++ [.counter] })
  call raises .writeCounter id
  call raises .closeCounter id
  Stmt.change (register .counter)

/-- The latency file is registered after it is initialised. -/
def addLatencyFile : Statement := do
  call raises .mkstemp (fun s => { s with files := s.files ++ [.latency] })
  call raises .closeFd id
  call raises .initLatency id
  Stmt.change (register .latency)

def prepareQueue (cfg : BenchmarkConfig) : Statement :=
  if cfg.framework = .repid then resetQueue raises else removeQueues raises cfg .deleteQueue false

/-- The statements of `run` before its `try` block. -/
def prepare (cfg : BenchmarkConfig) : Statement := do
  prepareQueue raises cfg
  Stmt.onlyIf (needsCounterFile cfg) (addCounterFile raises)
  Stmt.onlyIf cfg.isLatency (addLatencyFile raises)
  call raises .writeConfig id
  call raises .importAdapter id

/-- The `try` block, in which the workers and the publishers make the queue. -/
def selectedMode (cfg : BenchmarkConfig) (timedOut : Bool) : Statement := do
  Stmt.change (fun s => { s with queue := .created })
  match cfg.mode with
  | .steady => do
    Stmt.onlyIf (!countsInValue cfg) (call raises .openCounter id)
    call raises .runMode id
  | .latency => call raises .runMode id
  | .burst => do
    call raises .runMode id
    call raises .printResults id
  | .base | .hc | .cpu | .nogt => do
    call raises .runMode id
    Stmt.onlyIf timedOut (removeQueues raises cfg .purgeTimedOut true)
    call raises .printResults id

def cleanupQueues (cfg : BenchmarkConfig) : Statement :=
  if cfg.keepQueue then removeQueues raises cfg .finalPurge true else removeQueues raises cfg .finalDelete true

/-- The `finally` block. -/
def cleanup (cfg : BenchmarkConfig) : Statement := do
  cleanupQueues raises cfg
  Stmt.change (fun s => { s with files := s.files.filter (fun path => path ∉ s.cleanupPaths) })

def run (cfg : BenchmarkConfig) (timedOut : Bool) : Statement := do
  prepare raises cfg
  Stmt.andFinally (selectedMode raises cfg timedOut) (cleanup raises cfg)

end

/-! ## What must be cleaned up -/

/-- No counter or latency file is left, and a queue that was made has been deleted or
    purged, as far as that was possible. -/
def Clean (s : State) : Prop := s.files = [] ∧ s.queue ≠ .created

/-- The calls before the `try` block, in their order. -/
def prepareCalls (cfg : BenchmarkConfig) : List Call :=
  (if cfg.framework = .repid then [.resetDelete, .declareQueue, .declareAnswer, .resetPurge]
    else (runQueueNames cfg).map .deleteQueue) ++
  ((if needsCounterFile cfg then [.createCounter, .writeCounter, .closeCounter] else []) ++
  ((if cfg.isLatency then [.mkstemp, .closeFd, .initLatency] else []) ++
  [.writeConfig, .importAdapter]))

/-- The calls before which something has been made that only the `finally` block removes. -/
def Harmful (cfg : BenchmarkConfig) : Call → Prop
  | .declareAnswer | .resetPurge | .writeCounter | .closeCounter | .closeFd | .initLatency => True
  | .createCounter => cfg.framework = .repid
  | .mkstemp => cfg.framework = .repid ∨ needsCounterFile cfg = true
  | .writeConfig | .importAdapter => cfg.framework = .repid ∨ needsCounterFile cfg = true ∨ cfg.isLatency = true
  | _ => False

/-- Every file is registered. -/
def Registered (s : State) : Prop := s.files = s.cleanupPaths

section
variable {raises : Call → Bool} {cfg : BenchmarkConfig}

theorem call_spec {c : Call} {effect : State → State} {P : State → Prop} {Q : PUnit → State → Prop}
    {E : Call → State → Prop} (returns : raises c = false → ∀ s, P s → Q ⟨⟩ (effect s))
    (fails : raises c = true → ∀ s, P s → E c s) : Triple P (call raises c effect) Q E := by
  intro s pre
  unfold call
  cases here : raises c with
  | true => exact fails here s pre
  | false => exact returns here s pre

/-! ## The `try` block and its `finally` block -/

/-- Calls without an effect keep whatever holds. -/
theorem call_keeps {P : State → Prop} (c : Call) : Triple P (call raises c id) (fun _ => P) (fun _ => P) :=
  call_spec (fun _ _ holds => holds) (fun _ _ holds => holds)

/-- A removal with best effort does not raise, and tries the run queue. -/
theorem removeQueues_spec (remove : String → Call) :
    Triple Registered (removeQueues raises cfg remove true) (fun _ s => Registered s ∧ s.queue ≠ .created)
      (fun _ _ => False) := by
  refine (Triple.forEach (fun rest s => Registered s ∧ (cfg.queueName ∈ rest ∨ s.queue ≠ .created))
    (fun name rest _ => ?_)).weaken (fun s registered => ⟨registered, .inl List.mem_cons_self⟩) ?_ (fun _ _ post => post)
  · refine .bind (Q := fun _ s => Registered s ∧ (cfg.queueName ∈ rest ∨ s.queue ≠ .created)) (.change ?_) (fun _ => ?_)
    · rintro s ⟨registered, waits⟩
      refine ⟨registered, ?_⟩
      by_cases own : name = cfg.queueName
      · right
        simp only [own, if_true]
        cases s.queue <;> nofun
      · rw [if_neg own]
        rcases waits with member | removed
        · exact .inl ((List.mem_cons.mp member).resolve_left (fun same => own same.symm))
        · exact .inr removed
    · exact .andExcept (call_keeps _) (fun _ => .pure (fun _ holds => holds))
  · rintro _ s ⟨registered, member | removed⟩
    · cases member
    · exact ⟨registered, removed⟩

theorem selectedMode_spec (timedOut : Bool) :
    Triple Registered (selectedMode raises cfg timedOut) (fun _ => Registered) (fun _ => Registered) := by
  refine .bind (Q := fun _ => Registered) (.change (fun _ registered => registered)) (fun _ => ?_)
  have purged : Triple Registered (removeQueues raises cfg .purgeTimedOut true) (fun _ => Registered)
      (fun _ => Registered) :=
    (removeQueues_spec _).weaken (fun _ pre => pre) (fun _ _ post => post.1) (fun _ _ never => never.elim)
  cases cfg.mode with
  | steady =>
    exact .bind (Q := fun _ => Registered) (.onlyIf (fun _ => call_keeps _) (fun _ _ same => same))
      (fun _ => call_keeps _)
  | latency => exact call_keeps _
  | burst => exact (call_keeps _).bind (fun _ => call_keeps _)
  | base | hc | cpu | nogt =>
    refine (call_keeps _).bind (fun _ => .bind (Q := fun _ => Registered) ?_ (fun _ => call_keeps _))
    exact .onlyIf (fun _ => purged) (fun _ _ same => same)

theorem cleanup_spec : Triple Registered (cleanup raises cfg) (fun _ => Clean) (fun _ => Clean) := by
  have removed : Triple Registered (cleanupQueues raises cfg) (fun _ s => Registered s ∧ s.queue ≠ .created)
      (fun _ => Clean) := by
    unfold cleanupQueues
    split <;>
      exact (removeQueues_spec _).weaken (fun _ pre => pre) (fun _ _ post => post) (fun _ _ never => never.elim)
  refine removed.bind (fun _ => .change ?_)
  rintro s ⟨registered, gone⟩
  refine ⟨?_, gone⟩
  rw [List.filter_eq_nil_iff]
  intro path member
  rw [registered] at member
  simpa using member

/-! ## Before the `try` block -/

/-- The calls that are left, of which the first to raise is the first of all. -/
def Awaits (raises : Call → Bool) (cfg : BenchmarkConfig) (calls : List Call) : Prop :=
  (prepareCalls cfg).find? raises = calls.find? raises

/-- The first call to raise has raised. -/
def Stopped (raises : Call → Bool) (cfg : BenchmarkConfig) (e : Call) (t : State) : Prop :=
  (prepareCalls cfg).find? raises = some e ∧ (Clean t ↔ ¬ Harmful cfg e)

theorem call_next {c : Call} {rest : List Call} {effect : State → State} {s : State}
    (harm : Clean s ↔ ¬ Harmful cfg c) :
    Triple (fun t => Awaits raises cfg (c :: rest) ∧ t = s) (call raises c effect)
      (fun _ t => Awaits raises cfg rest ∧ t = effect s) (Stopped raises cfg) := by
  refine call_spec (fun passes => ?_) (fun fails => ?_)
  · rintro t ⟨awaits, rfl⟩
    refine ⟨awaits.trans ?_, rfl⟩
    rw [List.find?_cons, passes]
  · rintro t ⟨awaits, rfl⟩
    refine ⟨awaits.trans ?_, harm⟩
    rw [List.find?_cons, fails]

/-- The queue when the resets are done. -/
def queueAfter (cfg : BenchmarkConfig) : Queue := if cfg.framework = .repid then .created else .absent

def counterFiles (cfg : BenchmarkConfig) : List Path := if needsCounterFile cfg then [.counter] else []

def latencyFiles (cfg : BenchmarkConfig) : List Path := if cfg.isLatency then [.latency] else []

theorem queueAfter_created : queueAfter cfg = .created ↔ cfg.framework = .repid := by
  unfold queueAfter
  split <;> simp [*]

theorem counterFiles_nil : counterFiles cfg = [] ↔ ¬ needsCounterFile cfg = true := by
  unfold counterFiles
  split <;> simp [*]

theorem latencyFiles_nil : latencyFiles cfg = [] ↔ ¬ cfg.isLatency = true := by
  unfold latencyFiles
  split <;> simp [*]

theorem resetQueue_spec (later : List Call) (own : cfg.framework = .repid) :
    Triple (fun t => Awaits raises cfg ([.resetDelete, .declareQueue, .declareAnswer, .resetPurge] ++ later) ∧
        t = .initial)
      (resetQueue raises) (fun _ t => Awaits raises cfg later ∧ t = ⟨queueAfter cfg, [], []⟩)
      (Stopped raises cfg) := by
  rw [queueAfter_created.mpr own]
  refine (call_next (by simp [Clean, Harmful, State.initial])).bind (fun _ => ?_)
  refine (call_next (by simp [Clean, Harmful, State.initial])).bind (fun _ => ?_)
  refine (call_next (by simp [Clean, Harmful])).bind (fun _ => ?_)
  exact call_next (by simp [Clean, Harmful])

theorem deleteRunQueues_spec (later : List Call) (other : cfg.framework ≠ .repid) :
    Triple (fun t => Awaits raises cfg ((runQueueNames cfg).map .deleteQueue ++ later) ∧ t = .initial)
      (removeQueues raises cfg .deleteQueue false)
      (fun _ t => Awaits raises cfg later ∧ t = ⟨queueAfter cfg, [], []⟩) (Stopped raises cfg) := by
  have absent : queueAfter cfg = .absent := if_neg other
  rw [absent]
  refine Triple.forEach (fun rest t => Awaits raises cfg (rest.map Call.deleteQueue ++ later) ∧ t = State.initial)
    (fun name rest _ => ?_)
  refine .bind (Q := fun _ t => Awaits raises cfg (.deleteQueue name :: (rest.map .deleteQueue ++ later)) ∧
    t = .initial) (.change ?_) (fun _ => ?_)
  · rintro t ⟨awaits, rfl⟩
    refine ⟨awaits, ?_⟩
    split <;> rfl
  · exact .andExcept (call_next (by simp [Clean, Harmful, State.initial])) (fun _ => fun _ stopped => stopped)

theorem addCounterFile_spec (later : List Call) :
    Triple (fun t => Awaits raises cfg ([.createCounter, .writeCounter, .closeCounter] ++ later) ∧
        t = ⟨queueAfter cfg, [], []⟩)
      (addCounterFile raises)
      (fun _ t => Awaits raises cfg later ∧ t = ⟨queueAfter cfg, [.counter], [.counter]⟩) (Stopped raises cfg) := by
  refine (call_next (by simp [Clean, Harmful, queueAfter_created])).bind (fun _ => ?_)
  refine (call_next (by simp [Clean, Harmful])).bind (fun _ => ?_)
  refine (call_next (by simp [Clean, Harmful])).bind (fun _ => .change ?_)
  rintro t ⟨awaits, rfl⟩
  exact ⟨awaits, rfl⟩

theorem addLatencyFile_spec (later : List Call) :
    Triple (fun t => Awaits raises cfg ([.mkstemp, .closeFd, .initLatency] ++ later) ∧
        t = ⟨queueAfter cfg, counterFiles cfg, counterFiles cfg⟩)
      (addLatencyFile raises)
      (fun _ t => Awaits raises cfg later ∧
        t = ⟨queueAfter cfg, counterFiles cfg ++ [.latency], counterFiles cfg ++ [.latency]⟩)
      (Stopped raises cfg) := by
  refine (call_next ?_).bind (fun _ => ?_)
  · simp only [Clean, Harmful, ne_eq, queueAfter_created, counterFiles_nil]
    rw [not_or, and_comm]
  refine (call_next (by simp [Clean, Harmful])).bind (fun _ => ?_)
  refine (call_next (by simp [Clean, Harmful])).bind (fun _ => .change ?_)
  rintro t ⟨awaits, rfl⟩
  exact ⟨awaits, rfl⟩

theorem prepareQueue_spec (later : List Call) :
    Triple (fun t => Awaits raises cfg
        ((if cfg.framework = .repid then [.resetDelete, .declareQueue, .declareAnswer, .resetPurge]
          else (runQueueNames cfg).map .deleteQueue) ++ later) ∧ t = .initial)
      (prepareQueue raises cfg) (fun _ t => Awaits raises cfg later ∧ t = ⟨queueAfter cfg, [], []⟩)
      (Stopped raises cfg) := by
  unfold prepareQueue
  by_cases own : cfg.framework = .repid
  · rw [if_pos own, if_pos own]
    exact resetQueue_spec later own
  · rw [if_neg own, if_neg own]
    exact deleteRunQueues_spec later own

theorem prepareCounter_spec (later : List Call) :
    Triple (fun t => Awaits raises cfg
        ((if needsCounterFile cfg then [.createCounter, .writeCounter, .closeCounter] else []) ++ later) ∧
        t = ⟨queueAfter cfg, [], []⟩)
      (Stmt.onlyIf (needsCounterFile cfg) (addCounterFile raises))
      (fun _ t => Awaits raises cfg later ∧ t = ⟨queueAfter cfg, counterFiles cfg, counterFiles cfg⟩)
      (Stopped raises cfg) := by
  unfold counterFiles
  refine .onlyIf (fun needed => ?_) (fun needless => ?_)
  · rw [if_pos needed, if_pos needed]
    exact addCounterFile_spec later
  · rw [needless]
    exact fun _ here => here

theorem prepareLatency_spec (later : List Call) :
    Triple (fun t => Awaits raises cfg
        ((if cfg.isLatency then [.mkstemp, .closeFd, .initLatency] else []) ++ later) ∧
        t = ⟨queueAfter cfg, counterFiles cfg, counterFiles cfg⟩)
      (Stmt.onlyIf cfg.isLatency (addLatencyFile raises))
      (fun _ t => Awaits raises cfg later ∧
        t = ⟨queueAfter cfg, counterFiles cfg ++ latencyFiles cfg, counterFiles cfg ++ latencyFiles cfg⟩)
      (Stopped raises cfg) := by
  unfold latencyFiles
  refine .onlyIf (fun latency => ?_) (fun other => ?_)
  · rw [if_pos latency, if_pos latency]
    exact addLatencyFile_spec later
  · rw [other]
    rintro t ⟨awaits, rfl⟩
    exact ⟨awaits, by simp⟩

/-- Before the `try` block everything made is registered, and until then nothing is
    removed. -/
theorem prepare_spec :
    Triple (· = .initial) (prepare raises cfg)
      (fun _ t => (prepareCalls cfg).find? raises = none ∧ Registered t) (Stopped raises cfg) := by
  have harm (c : Call) (last : c = .writeConfig ∨ c = .importAdapter) :
      Clean ⟨queueAfter cfg, counterFiles cfg ++ latencyFiles cfg, counterFiles cfg ++ latencyFiles cfg⟩ ↔
        ¬ Harmful cfg c := by
    rcases last with rfl | rfl <;>
      simp only [Clean, Harmful, ne_eq, queueAfter_created, List.append_eq_nil_iff, counterFiles_nil, latencyFiles_nil,
        not_or] <;>
      exact ⟨fun ⟨⟨counter, latency⟩, queue⟩ => ⟨queue, counter, latency⟩,
        fun ⟨queue, counter, latency⟩ => ⟨⟨counter, latency⟩, queue⟩⟩
  have start : Triple (fun t => Awaits raises cfg (prepareCalls cfg) ∧ t = .initial) (prepare raises cfg)
      (fun _ t => Awaits raises cfg [] ∧
        t = ⟨queueAfter cfg, counterFiles cfg ++ latencyFiles cfg, counterFiles cfg ++ latencyFiles cfg⟩)
      (Stopped raises cfg) := by
    refine (prepareQueue_spec _).bind (fun _ => (prepareCounter_spec _).bind (fun _ => ?_))
    refine (prepareLatency_spec _).bind (fun _ => ?_)
    exact (call_next (harm .writeConfig (.inl rfl))).bind (fun _ => call_next (harm .importAdapter (.inr rfl)))
  refine start.weaken (fun s same => ⟨rfl, same⟩) ?_ (fun _ _ post => post)
  rintro _ t ⟨awaits, rfl⟩
  exact ⟨awaits, rfl⟩

theorem run_spec (timedOut : Bool) :
    Triple (· = .initial) (run raises cfg timedOut) (fun _ t => (prepareCalls cfg).find? raises = none ∧ Clean t)
      (fun e t => (prepareCalls cfg).find? raises = none ∧ Clean t ∨ Stopped raises cfg e t) := by
  refine .bind (prepare_spec.weaken (fun _ pre => pre) (fun _ _ post => post) (fun _ _ stopped => .inr stopped))
    (fun _ => ?_)
  rintro s ⟨passed, registered⟩
  have ended : Triple Registered (Stmt.andFinally (selectedMode raises cfg timedOut) (cleanup raises cfg))
      (fun _ => Clean) (fun _ => Clean) :=
    (selectedMode_spec timedOut).andFinally (fun _ => cleanup_spec) (fun _ => cleanup_spec)
  exact (ended.weaken (fun _ pre => pre) (fun _ _ clean => ⟨passed, clean⟩)
    (fun _ _ clean => .inl ⟨passed, clean⟩)) s registered

end

/-- For every configuration, and whichever of its calls raise: when `run` has returned or
    raised, everything that it made is cleaned up if and only if no call before its `try`
    block raised, or the first of them that did came before anything was made. -/
theorem run_clean_iff (cfg : BenchmarkConfig) (timedOut : Bool) (raises : Call → Bool) :
    Clean (run raises cfg timedOut .initial).2 ↔
      ∀ c, (prepareCalls cfg).find? raises = some c → ¬ Harmful cfg c := by
  have spec : Triple (· = .initial) (run raises cfg timedOut) _ _ := run_spec timedOut
  cases result : run raises cfg timedOut .initial with
  | mk outcome t =>
    cases outcome with
    | ok _ =>
      obtain ⟨passed, clean⟩ := spec.returned rfl result
      refine iff_of_true clean (fun c first => ?_)
      rw [passed] at first
      cases first
    | error e =>
      rcases spec.raised rfl result with ⟨passed, clean⟩ | ⟨first, harm⟩
      · refine iff_of_true clean (fun c first => ?_)
        rw [passed] at first
        cases first
      · refine harm.trans ⟨fun harmless c found => ?_, fun harmless => harmless e first⟩
        cases first.symm.trans found
        exact harmless

/-- A latency run of repid that does CPU work. -/
def cpuLatency : BenchmarkConfig := { Polling.oneWorker with mode := .latency, taskKind := .cpu }

/-- The latency file cannot be initialised: it is left there, with the counter file and
    the queue. -/
theorem run_leaves :
    (run (· = .initLatency) cpuLatency false .initial).2 = ⟨.created, [.counter, .latency], [.counter]⟩ ∧
    ¬ Clean (run (· = .initLatency) cpuLatency false .initial).2 := by
  have left : (run (· = .initLatency) cpuLatency false .initial).2 = ⟨.created, [.counter, .latency], [.counter]⟩ := rfl
  refine ⟨left, fun clean => ?_⟩
  rw [left] at clean
  cases clean.1

end RepidBench.RunCleanup
