import Mathlib.Data.List.GetD
import RepidBench.Runtime
import RepidBench.AsyncPublish
import RepidBench.ThreadedPublish

/-!
How `benchmarks/_runner.py` publishes the messages of a run: `_split_messages`
deals them out over publisher processes, each process has its own
`_publisher_config` and publishes through its adapter, and `_publish` waits for
all of them. Message counts are never negative here.
-/
namespace RepidBench.Publishers
open Transition Publishing RepidBench.Runtime

/-! ## The split and the configurations -/

/-- `_split_messages`. -/
def splitMessages (messages processes : Nat) : List Nat :=
  if messages = 0 then [] else shares messages (max 1 (min processes messages))

/-- `_per_publisher`. -/
def perPublisher (value processes : Nat) : Nat := max 1 ((value + processes - 1) / processes)

/-- `_publisher_config`. -/
def publisherConfig (cfg : BenchmarkConfig) (messages processes : Nat) : BenchmarkConfig :=
  { cfg with
    messages := messages
    publishProcesses := 1
    publishConcurrency := perPublisher cfg.publishConcurrency processes
    publishWorkers := perPublisher cfg.publishWorkers processes
    burstSize := if cfg.mode = .burst then perPublisher cfg.burstSize processes else cfg.burstSize }

/-- The configurations of the publishers that `_publish` starts: one in its own
    process when there is at most one chunk, else a process for each chunk. -/
def publisherConfigs (cfg : BenchmarkConfig) : List BenchmarkConfig :=
  let chunks := splitMessages cfg.messages cfg.publishProcesses
  if chunks.length ≤ 1 then [publisherConfig cfg (chunks.headD 0) 1]
  else chunks.map (fun messages => publisherConfig cfg messages chunks.length)

/-- What `run_all.py` and the benchmark specs give every run. -/
structure Valid (cfg : BenchmarkConfig) : Prop where
  processes : 1 ≤ cfg.publishProcesses
  concurrency : 1 ≤ cfg.publishConcurrency
  workers : 1 ≤ cfg.publishWorkers
  batch : 1 ≤ cfg.enqueueBatchSize
  burst : 1 ≤ cfg.burstSize

theorem one_le_perPublisher (value processes : Nat) : 1 ≤ perPublisher value processes := le_max_left _ _

theorem Valid.publisher {cfg : BenchmarkConfig} (valid : Valid cfg) (messages processes : Nat) :
    Valid (publisherConfig cfg messages processes) where
  processes := le_rfl
  concurrency := one_le_perPublisher _ _
  workers := one_le_perPublisher _ _
  batch := valid.batch
  burst := by
    unfold publisherConfig
    split_ifs
    · exact one_le_perPublisher _ _
    · exact valid.burst

/-- The chunks are never empty, share the messages out, and differ by at most one. -/
theorem splitMessages_fair (messages processes : Nat) :
    (splitMessages messages processes).sum = messages ∧
    (∀ count ∈ splitMessages messages processes, 1 ≤ count) ∧
    (∀ a ∈ splitMessages messages processes, ∀ b ∈ splitMessages messages processes, a ≤ b + 1) := by
  unfold splitMessages
  by_cases nothing : messages = 0
  · simp [nothing]
  · rw [if_neg nothing]
    refine ⟨shares_sum (le_max_left _ _), ?_, ?_⟩
    · intro count member
      have few : max 1 (min processes messages) ≤ messages := by omega
      have share := (mem_shares member).1
      have full : 1 ≤ messages / max 1 (min processes messages) :=
        (Nat.one_le_div_iff (by omega)).mpr few
      omega
    · intro a first b second
      have low := (mem_shares second).1
      have high := (mem_shares first).2
      omega

theorem publisherConfigs_cases (cfg : BenchmarkConfig) :
    ((splitMessages cfg.messages cfg.publishProcesses).length ≤ 1 ∧
      publisherConfigs cfg = [publisherConfig cfg cfg.messages 1]) ∨
    (1 < (splitMessages cfg.messages cfg.publishProcesses).length ∧
      publisherConfigs cfg = (splitMessages cfg.messages cfg.publishProcesses).map
        (fun messages => publisherConfig cfg messages (splitMessages cfg.messages cfg.publishProcesses).length)) := by
  have sum := (splitMessages_fair cfg.messages cfg.publishProcesses).1
  unfold publisherConfigs
  by_cases few : (splitMessages cfg.messages cfg.publishProcesses).length ≤ 1
  · refine .inl ⟨few, ?_⟩
    rw [if_pos few]
    cases chunks : splitMessages cfg.messages cfg.publishProcesses with
    | nil =>
      rw [chunks] at sum
      rw [← sum]
      rfl
    | cons count rest =>
      rw [chunks] at few sum
      have nothing : rest = [] := List.length_eq_zero_iff.mp (by simpa using few)
      subst nothing
      rw [← show count = cfg.messages by simpa using sum]
      rfl
  · exact .inr ⟨by omega, if_neg few⟩

/-- The publishers together have the messages of the run. -/
theorem publisherConfigs_sum (cfg : BenchmarkConfig) :
    ((publisherConfigs cfg).map BenchmarkConfig.messages).sum = cfg.messages := by
  rcases publisherConfigs_cases cfg with ⟨_, configs⟩ | ⟨_, configs⟩
  · simp [configs, publisherConfig]
  · rw [configs, List.map_map]
    show ((splitMessages cfg.messages cfg.publishProcesses).map id).sum = _
    rw [List.map_id]
    exact (splitMessages_fair cfg.messages cfg.publishProcesses).1

theorem Valid.publishers {cfg chunk : BenchmarkConfig} (valid : Valid cfg) (member : chunk ∈ publisherConfigs cfg) :
    Valid chunk := by
  rcases publisherConfigs_cases cfg with ⟨_, configs⟩ | ⟨_, configs⟩
  · rw [configs, List.mem_singleton] at member
    exact member ▸ valid.publisher _ _
  · rw [configs] at member
    obtain ⟨messages, _, rfl⟩ := List.mem_map.mp member
    exact valid.publisher _ _

/-! ## What an adapter does -/

/-- The four ways in which an adapter's `publish` sends its messages. -/
inductive Path
  | async
  | asyncBursts
  | threadedChunks
  | threadedBursts
  deriving DecidableEq, Repr

/-- The `publish` of `adapters/{cfg.framework}.py` tests `cfg.mode == "burst"`. -/
def adapterPath (cfg : BenchmarkConfig) : Path :=
  match cfg.framework with
  | .celery | .dramatiq => if cfg.mode = .burst then .threadedBursts else .threadedChunks
  | .repid | .faststream | .taskiq => if cfg.mode = .burst then .asyncBursts else .async

def Path.State : Path → Type
  | .async => AsyncPublish.State
  | .asyncBursts => BurstState AsyncPublish.State
  | .threadedChunks => ThreadedPublish.State
  | .threadedBursts => BurstState ThreadedPublish.State

def Path.Label : Path → Type
  | .async => AsyncPublish.Label
  | .asyncBursts => BurstLabel AsyncPublish.Label
  | .threadedChunks => ThreadedPublish.Label
  | .threadedBursts => BurstLabel ThreadedPublish.Label

/-- The `_publish_chunk` of the framework's adapter. -/
def adapterChunk (cfg : BenchmarkConfig) : ThreadedPublish.ChunkLoop :=
  if cfg.framework = .celery then ThreadedPublish.celeryPublishChunk cfg.enqueueBatchSize
  else ThreadedPublish.dramatiqPublishChunk cfg.enqueueBatchSize

theorem adapterChunk_eq (cfg : BenchmarkConfig) :
    adapterChunk cfg = ThreadedPublish.chunkStep cfg.enqueueBatchSize := by
  unfold adapterChunk
  split_ifs <;> rfl

def adapterPublish (cfg : BenchmarkConfig) : (path : Path) → Machine path.State path.Label Outcome
  | .async => AsyncPublish.publishAsync cfg.messages cfg.publishConcurrency
  | .asyncBursts =>
    bursts (fun count => AsyncPublish.publishAsync count cfg.publishConcurrency) cfg.messages cfg.burstSize
  | .threadedChunks => ThreadedPublish.publishThreadedChunks cfg.messages cfg.publishWorkers (adapterChunk cfg)
  | .threadedBursts =>
    bursts (fun count => ThreadedPublish.publishThreaded count cfg.publishWorkers cfg.enqueueBatchSize)
      cfg.messages cfg.burstSize

/-- How often a label starts a send. -/
def Path.sends : (path : Path) → path.Label → Nat
  | .async => AsyncPublish.sends
  | .asyncBursts => BurstLabel.weight AsyncPublish.sends
  | .threadedChunks => ThreadedPublish.sends
  | .threadedBursts => BurstLabel.weight ThreadedPublish.sends

/-- No send fails. -/
def Path.Clean : (path : Path) → path.Label → Prop
  | .async => AsyncPublish.Clean
  | .asyncBursts => BurstLabel.Allowed AsyncPublish.Clean
  | .threadedChunks => ThreadedPublish.Clean
  | .threadedBursts => BurstLabel.Allowed ThreadedPublish.Clean

/-- The polls of the main thread of a thread pool. -/
def Path.idle : (path : Path) → path.Label → Bool
  | .async => fun _ => false
  | .asyncBursts => BurstLabel.idle (fun _ => false)
  | .threadedChunks => ThreadedPublish.idle
  | .threadedBursts => BurstLabel.idle ThreadedPublish.idle

/-- One publisher sends the messages of its configuration, on every path. -/
def adapterAccount {cfg : BenchmarkConfig} (valid : Valid cfg) : (path : Path) →
    Account (adapterPublish cfg path) path.sends path.Clean path.idle (· = .returned) cfg.messages
  | .async => AsyncPublish.account cfg.messages cfg.publishConcurrency valid.concurrency
  | .asyncBursts =>
    Account.bursts (fun count => AsyncPublish.account count cfg.publishConcurrency valid.concurrency)
      cfg.messages valid.burst (AsyncPublish.account_left valid.concurrency)
  | .threadedChunks => by
    show Account (ThreadedPublish.threads cfg.messages cfg.publishWorkers (adapterChunk cfg)) ThreadedPublish.sends
      ThreadedPublish.Clean ThreadedPublish.idle (· = .returned) cfg.messages
    rw [adapterChunk_eq]
    exact ThreadedPublish.account cfg.messages cfg.publishWorkers cfg.enqueueBatchSize valid.workers
  | .threadedBursts =>
    Account.bursts (fun count => ThreadedPublish.account count cfg.publishWorkers cfg.enqueueBatchSize valid.workers)
      cfg.messages valid.burst (ThreadedPublish.account_left valid.workers)

/-! ## All the publishers of a run -/

/-- The line of `errors` for a publisher process that failed; `traceback` is what
    the interpreter writes to the standard error for the exception. -/
def publisherError (traceback : Outcome → String) (outcome : Outcome) (index : Nat) : Option String :=
  match outcome with
  | .returned => none
  | error =>
    let stderr := (traceback error).toList
    some s!"publisher {index + 1} exited with 1:\n{String.ofList (stderr.drop (stderr.length - 4000))}"

/-- How `_publish` ends: as its only publisher, or with an error that reports the
    publisher processes that failed. -/
def publishOutcome (traceback : Outcome → String) : List Outcome → Outcome
  | [outcome] => outcome
  | outcomes =>
    match (outcomes.zipIdx.filterMap (fun p => publisherError traceback p.1 p.2)) with
    | [] => .returned
    | first :: rest => .runtimeError
        s!"Publishing failed in {rest.length + 1} publisher process(es). First error:\n{first}"

/-- `_publish`: the publishers share nothing, and proceed in any order. -/
def publish (traceback : Outcome → String) (cfg : BenchmarkConfig) :
    Machine (Fin (publisherConfigs cfg).length → (adapterPath cfg).State)
      (Fin (publisherConfigs cfg).length × (adapterPath cfg).Label) Outcome :=
  parallel (fun i => adapterPublish ((publisherConfigs cfg).get i) (adapterPath cfg))
    (fun outcomes => publishOutcome traceback (List.ofFn outcomes))

/-- A chunk has the path of the run it belongs to. -/
theorem adapterPath_publisher {cfg chunk : BenchmarkConfig} (member : chunk ∈ publisherConfigs cfg) :
    adapterPath chunk = adapterPath cfg := by
  rcases publisherConfigs_cases cfg with ⟨_, configs⟩ | ⟨_, configs⟩
  · rw [configs, List.mem_singleton] at member
    rw [member]
    rfl
  · rw [configs] at member
    obtain ⟨messages, _, rfl⟩ := List.mem_map.mp member
    rfl

theorem publishOutcome_returned (traceback : Outcome → String) {outcomes : List Outcome}
    (returned : ∀ outcome ∈ outcomes, outcome = .returned) : publishOutcome traceback outcomes = .returned := by
  have silent : outcomes.zipIdx.filterMap (fun p => publisherError traceback p.1 p.2) = [] := by
    refine List.filterMap_eq_nil_iff.mpr ?_
    rintro ⟨outcome, index⟩ member
    rw [returned outcome (List.fst_mem_of_mem_zipIdx member)]
    rfl
  unfold publishOutcome
  split
  · exact returned _ (by simp)
  · rw [silent]

/-- The publishers together send the messages of the run. -/
def publishAccount (traceback : Outcome → String) {cfg : BenchmarkConfig} (valid : Valid cfg) :
    Account (publish traceback cfg) (fun a => (adapterPath cfg).sends a.2) (fun a => (adapterPath cfg).Clean a.2)
      (fun a => (adapterPath cfg).idle a.2) (· = .returned) (∑ i, ((publisherConfigs cfg).get i).messages) :=
  Account.parallel (fun i => adapterAccount (valid.publishers (List.get_mem _ i)) (adapterPath cfg)) (by
    intro outcomes returned
    refine publishOutcome_returned traceback (fun outcome member => ?_)
    obtain ⟨i, rfl⟩ := (List.mem_ofFn' _ _).mp member
    exact returned i)

/-- Whatever the configuration, its publishers together start exactly as many
    sends as the run has messages, in every order of publishers, threads and
    coroutines: never more, all of them when `_publish` ends, and it ends, since it
    can go on while it has not ended and makes only so many steps. -/
theorem publish_sends_every_message (traceback : Outcome → String) (cfg : BenchmarkConfig) (valid : Valid cfg) :
    (∃ bound, ∀ trace s, (∀ a ∈ trace, (adapterPath cfg).Clean a.2) → (publish traceback cfg).Reaches trace s →
      total (fun a => (adapterPath cfg).sends a.2) trace ≤ cfg.messages ∧
      (∀ outcome, (publish traceback cfg).result s = some outcome →
        outcome = .returned ∧ total (fun a => (adapterPath cfg).sends a.2) trace = cfg.messages) ∧
      ((publish traceback cfg).result s = none → ∃ a t, (adapterPath cfg).Clean a.2 ∧
        (adapterPath cfg).idle a.2 = false ∧ (publish traceback cfg).step s a = some t) ∧
      trace.countP (fun a => !(adapterPath cfg).idle a.2) ≤ bound) ∧
    (∀ chunk ∈ publisherConfigs cfg, adapterPath chunk = adapterPath cfg) ∧
    (∀ count ∈ splitMessages cfg.messages cfg.publishProcesses, 1 ≤ count) ∧
    (∀ a ∈ splitMessages cfg.messages cfg.publishProcesses,
      ∀ b ∈ splitMessages cfg.messages cfg.publishProcesses, a ≤ b + 1) ∧
    (1 < (publisherConfigs cfg).length →
      (publisherConfigs cfg).map BenchmarkConfig.messages = splitMessages cfg.messages cfg.publishProcesses) := by
  have sum : ∑ i, ((publisherConfigs cfg).get i).messages = cfg.messages := by
    rw [← publisherConfigs_sum cfg]
    exact Fin.sum_univ_fun_getElem _ _
  obtain ⟨_, full, fair⟩ := splitMessages_fair cfg.messages cfg.publishProcesses
  refine ⟨⟨(publishAccount traceback valid).left (publish traceback cfg).init, ?_⟩, ?_, full, fair, ?_⟩
  · intro trace s clean reached
    refine ⟨?_, ?_, ?_, (publishAccount traceback valid).busy_le clean reached⟩
    · exact sum ▸ (publishAccount traceback valid).total_le clean reached
    · intro outcome present
      obtain ⟨all, returned⟩ := (publishAccount traceback valid).total_eq clean reached present
      exact ⟨returned, all.trans sum⟩
    · intro running
      obtain ⟨a, ok, busy, enabled⟩ := (publishAccount traceback valid).can_continue clean reached running
      obtain ⟨t, stepped⟩ := Option.isSome_iff_exists.mp enabled
      exact ⟨a, t, ok, busy, stepped⟩
  · exact fun chunk member => adapterPath_publisher member
  · intro many
    rcases publisherConfigs_cases cfg with ⟨_, configs⟩ | ⟨_, configs⟩
    · simp [configs] at many
    · rw [configs, List.map_map]
      exact List.map_id _

/-- Two messages for two publisher processes. -/
def twoMessages : BenchmarkConfig where
  name := "repid"
  framework := .repid
  mode := .base
  taskKind := .io
  queueName := "repid_bench"
  messages := 2
  sleepTime := 0
  timeLimit := 300
  processes := 2
  concurrency := 1
  publishConcurrency := 1
  publishWorkers := 1
  enqueueBatchSize := 1
  greenThreads := false
  burstSize := 1
  burstInterval := 0
  publishProcesses := 2

/-- The standard error of a publisher that does not fail. -/
def noTraceback : Outcome → String := fun _ => ""

/-- Each of the two processes sends its message while the other is sending. -/
theorem publish_two_messages : ∃ trace s,
    (publish noTraceback twoMessages).Reaches trace s ∧
    (publish noTraceback twoMessages).result s = some .returned ∧
    total (fun a => (adapterPath twoMessages).sends a.2) trace = 2 := by
  let first : Fin (publisherConfigs twoMessages).length := ⟨0, by decide⟩
  let second : Fin (publisherConfigs twoMessages).length := ⟨1, by decide⟩
  let trace : List (Fin (publisherConfigs twoMessages).length × AsyncPublish.Label) :=
    [(first, .send 0), (second, .send 0), (first, .sent 0), (second, .sent 0),
      (second, .leave 0), (second, .gathered), (first, .leave 0), (first, .gathered)]
  have valid : Valid twoMessages := ⟨by decide, by decide, by decide, by decide, by decide⟩
  have labels : ∀ a ∈ trace.map Prod.snd, AsyncPublish.Clean a := by simp [trace, AsyncPublish.Clean]
  have clean : ∀ a ∈ trace, (adapterPath twoMessages).Clean a.2 :=
    fun a member => labels a.2 (List.mem_map_of_mem member)
  have executed : ∃ s, (publish noTraceback twoMessages).Reaches trace s ∧
      (publish noTraceback twoMessages).result s = some .returned := ⟨_, rfl, rfl⟩
  obtain ⟨s, reached, present⟩ := executed
  obtain ⟨⟨bound, runs⟩, _⟩ := publish_sends_every_message noTraceback twoMessages valid
  exact ⟨trace, s, reached, present, ((runs trace s clean reached).2.1 _ present).2⟩

end RepidBench.Publishers
