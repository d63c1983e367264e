import RepidBench.Polling

/-!
The run at a controlled arrival rate: `_run_latency_controlled` with the latency
file that `run` lays out for it. The publisher stamps the messages to measure and
no others, workers record a latency for a message that carries a stamp, and the
runner reads the count of the file four times while they still write.
-/
namespace RepidBench.LatencyRun
open Transition Cutoff Decimal Publishing RunnerOutput RepidBench.Runtime Polling

/-! ## Messages and their samples -/

/-- A message of `publish_latency`: it carries an enqueue time when its latency is
    to be recorded, and no warm-up message does. -/
structure Message where
  number : Nat
  record : Bool
  enqueueTime : Option ℚ
  stamped : enqueueTime.isSome = record
  deriving DecidableEq

/-- `time.perf_counter() if record else None`, in the message of that number. -/
def Message.stamp (number : Nat) (record : Bool) (now : ℚ) : Message where
  number := number
  record := record
  enqueueTime := if record then some now else none
  stamped := by cases record <;> rfl

/-- A slot of the latency file, with the message it was recorded for; the slots
    that are still zero bytes have none. -/
structure Sample where
  message : Option Message
  latency : ℚ
  deriving DecidableEq

/-- `time.perf_counter() - enqueue_time`, if the message carries one. -/
def Message.sample (message : Message) (now : ℚ) : Option Sample :=
  message.enqueueTime.map (fun time => ⟨some message, now - time⟩)

/-- `max(0, round(cfg.latency_arrival_rate * cfg.latency_warmup_seconds))`. -/
def warmupMessages (cfg : BenchmarkConfig) : Nat :=
  (max 0 (roundHalfEven (cfg.latencyArrivalRate * cfg.latencyWarmupSeconds))).toNat

/-- `max(1, round(cfg.latency_arrival_rate * cfg.latency_measurement_seconds))`,
    which `run` and `_run_latency_controlled` each compute. -/
def measurementMessages (cfg : BenchmarkConfig) : Nat :=
  (max 1 (roundHalfEven (cfg.latencyArrivalRate * cfg.latencyMeasurementSeconds))).toNat

/-- What the workers and the runner share: the latency file, and the messages
    published so far. -/
structure Shared where
  files : SharedFiles.State Sample
  published : List Message

/-- `record_latency_to_file` is called for a published message that carries an
    enqueue time, and with the time since then. -/
def Stamped (now : ℚ) (published : List Message) : SharedFiles.Action Sample → Prop
  | .openLatency sample => sample ∈ published.filterMap (·.sample now)
  | _ => True

instance (now : ℚ) (published : List Message) (a : SharedFiles.Action Sample) : Decidable (Stamped now published a) :=
  match a with
  | .openLatency sample => inferInstanceAs (Decidable (sample ∈ published.filterMap (·.sample now)))
  | .openCounter | .lockCounter | .loadCounter | .storeCounter | .unlockCounter | .lockLatency _ | .loadHeader
  | .storeSlot | .storeHeader _ | .unlockLatency | .raise | .kill => inferInstanceAs (Decidable True)

/-- A step of worker `a.1`. -/
def work (now : ℚ) (s : Shared) (a : Nat × SharedFiles.Action Sample) : Option Shared :=
  if Stamped now s.published a.2 then
    (SharedFiles.workerStep s.files a.1 a.2).map (fun files => { s with files := files })
  else none

/-- A sample counts when its header store is executed. -/
def completes (a : Nat × SharedFiles.Action Sample) : Bool := (SharedFiles.headerStore (.worker a.1 a.2)).isSome

/-! ## The runner -/

/-- The statement that the runner is at: in `publish_latency`, before message
    `sent + 1` or sending it. -/
inductive Phase
  | begin | startWorkers | waitForConsumers
  | publish (record : Bool) (sent : Nat)
  | sending (record : Bool) (sent : Nat) (message : Message)
  | measureStart | measurementEnd | backlog
  | poll | takeEnd | deadline | purge | reread | beginRead | readSlots
  | stopWorkers | done | failed
  deriving DecidableEq

/-- The locals of `_run_latency_controlled`; `stop` is `end`, and the backlog is
    unbound until it is computed. -/
structure Locals where
  phase : Phase := .begin
  start : ℚ := 0
  warmup : List Printed := []
  measured : List Printed := []
  measureStart : ℚ := 0
  measurementEnd : ℚ := 0
  samplesAtMeasurementEnd : ℤ := 0
  backlogAtMeasurementEnd : Option ℤ := none
  polls : List Nat := []
  samples : ℤ := 0
  timedOut : Bool := false
  stop : ℚ := 0
  latencies : List Sample := []

def messagesOf (cfg : BenchmarkConfig) (record : Bool) : Nat :=
  if record then measurementMessages cfg else warmupMessages cfg

/-- The lines of progress of `publish_latency`. -/
def Locals.print (d : Locals) (record : Bool) (lines : List Printed) : Locals :=
  if record then { d with measured := d.measured ++ lines } else { d with warmup := d.warmup ++ lines }

/-- One statement of the runner at the instant `now`. How long the publisher sleeps
    between two sends is left to the clock. -/
def runner (cfg : BenchmarkConfig) (now : ℚ) (s : Shared) (d : Locals) (reply : Reply) : Option (Shared × Locals) :=
  match d.phase, reply with
  | .begin, .returned => some (s, { d with phase := .startWorkers, start := now, measurementEnd := now, stop := now })
  | .startWorkers, .returned => some (s, { d with phase := .waitForConsumers })
  | .waitForConsumers, .returned =>
    some (s, { d with phase := if warmupMessages cfg = 0 then .measureStart else .publish false 0 })
  | .startWorkers, .raised | .waitForConsumers, .raised => some (s, { d with phase := .failed })
  | .publish record sent, .returned =>
    let total := messagesOf cfg record
    if cfg.latencyArrivalRate ≤ 0 then some (s, { d with phase := .failed })
    else if sent < total then
      some (s, { d with phase := .sending record sent (.stamp (sent + 1) record now) })
    else
      some (s, { d.print record [.enqueued total total] with
        phase := if record then .measurementEnd else .measureStart })
  | .sending record sent message, .returned =>
    let total := messagesOf cfg record
    some ({ s with published := s.published ++ [message] },
      { d.print record (if (sent + 1) % 1000 = 0 then [.enqueued (sent + 1) total] else []) with
        phase := .publish record (sent + 1) })
  | .sending _ _ _, .raised => some (s, { d with phase := .failed })
  | .measureStart, .returned => some (s, { d with phase := .publish true 0, measureStart := now })
  | .measurementEnd, .returned => some (s, { d with phase := .backlog, measurementEnd := now })
  | .backlog, .returned =>
    let samples := s.files.header
    some (s, { d with
      phase := .poll
      samplesAtMeasurementEnd := samples
      backlogAtMeasurementEnd := some (max 0 (measurementMessages cfg - samples)) })
  | .poll, .returned =>
    let samples := s.files.header
    some (s, { d with
      phase := if measurementMessages cfg ≤ samples then .takeEnd else .deadline
      samples := samples })
  | .takeEnd, .returned => some (s, { d with phase := .reread, stop := now })
  | .deadline, .returned =>
    if d.measurementEnd + cfg.timeLimit ≤ now then
      some (s, { d with phase := .purge, timedOut := true, stop := now })
    else some (s, { d with phase := .poll, polls := d.polls ++ [d.samples.toNat] })
  | .purge, .returned => some (s, { d with phase := .reread })
  | .reread, .returned => some (s, { d with phase := .beginRead, samples := s.files.header })
  | .beginRead, .returned =>
    (SharedFiles.readerStep s.files 0 (.beginRead s.files.header)).map (fun files =>
      ({ s with files := files }, { d with phase := .readSlots }))
  | .readSlots, .returned =>
    match s.files.readers 0 with
    | .idle => none
    | .reading n values =>
      if (values.length : ℤ) < n then
        (SharedFiles.readerStep s.files 0 .readSlot).map (fun files => ({ s with files := files }, d))
      else
        (SharedFiles.readerStep s.files 0 .endRead).map (fun files =>
          ({ s with files := files }, { d with phase := .stopWorkers, latencies := values }))
  | .stopWorkers, .returned => some (s, { d with phase := .done })
  -- the file of latencies cannot be read, or a worker is not reaped
  | .backlog, .raised | .poll, .raised | .reread, .raised | .beginRead, .raised | .readSlots, .raised
  | .stopWorkers, .raised => some (s, { d with phase := .failed })
  | _, _ => none

/-- Worker processes are there from `_start_workers` to `_stop_workers`. -/
def running (d : Locals) : Bool := d.phase ∉ [Phase.begin, .done, .failed]

/-- What the runner has printed at its end. -/
def Locals.output (cfg : BenchmarkConfig) (d : Locals) : Option Output :=
  match d.phase, d.backlogAtMeasurementEnd with
  | .done, some backlog =>
    some (.latency {
      arrivalRate := cfg.latencyArrivalRate
      warmup := if warmupMessages cfg = 0 then none else some d.warmup
      measured := d.measured
      polls := d.polls
      samples := d.samples.toNat
      measurementMessages := measurementMessages cfg
      achievedRate := d.samples / max (d.stop - d.measureStart) 0.000001
      backlogAtMeasurementEnd := backlog.toNat
      drainSeconds := max 0 (d.stop - d.measurementEnd)
      duration := d.stop - d.start
      status := if d.timedOut then "timeout" else "ok"
      latencies := d.latencies.map Sample.latency })
  | _, _ => none

def system (cfg : BenchmarkConfig) : System ℚ Shared (Nat × SharedFiles.Action Sample) Locals Reply where
  work := work
  completes := completes
  count s := s.files.header.toNat
  runner := runner cfg
  running := running

/-- The file that `run` lays out, and nothing published yet. -/
def init (cfg : BenchmarkConfig) (clock : ℚ) : State ℚ Shared Locals :=
  ⟨clock, ⟨SharedFiles.init ⟨none, 0⟩ (measurementMessages cfg), []⟩, {}, []⟩

/-! ## What the files hold -/

/-- The sample that a worker carries inside `record_latency_to_file`. -/
def carried : SharedFiles.Worker Sample → Option Sample
  | .latencyOpen sample | .latencyLocked sample | .latencyLoaded sample _ | .slotStored sample _ => some sample
  | _ => none

/-- The sample is of a published message that the publisher was to record. -/
def OfMeasured (published : List Message) (sample : Sample) : Prop :=
  ∃ message ∈ published, message.record = true ∧ sample.message = some message

theorem sample_ofMeasured {published : List Message} {now : ℚ} {sample : Sample}
    (stamped : sample ∈ published.filterMap (·.sample now)) : OfMeasured published sample := by
  obtain ⟨message, member, taken⟩ := List.mem_filterMap.mp stamped
  obtain ⟨time, stamp, rfl⟩ := Option.map_eq_some_iff.mp taken
  refine ⟨message, member, ?_, rfl⟩
  rw [← message.stamped, stamp]
  rfl

/-- A worker carries what it was called with. -/
theorem moves_carried {s t : SharedFiles.State Sample} {w : Nat} {a : SharedFiles.Action Sample}
    (moves : SharedFiles.Moves s w a t) {v : Nat} {sample : Sample} (carries : carried (t.workers v) = some sample) :
    carried (s.workers v) = some sample ∨ a = .openLatency sample := by
  by_cases own : v = w
  · subst own
    cases moves <;> simp_all [SharedFiles.State.move, carried]
  · refine .inl ?_
    cases moves <;> simpa [SharedFiles.State.move, own] using carries

/-- A worker stores the header for the sample that it carries. -/
theorem moves_stored {s t : SharedFiles.State Sample} {w : Nat} {a : SharedFiles.Action Sample}
    (moves : SharedFiles.Moves s w a t) {sample : Sample}
    (stored : SharedFiles.headerStore (.worker w a) = some sample) : carried (s.workers w) = some sample := by
  cases moves <;> simp_all [SharedFiles.headerStore, carried]

theorem moves_readers {s t : SharedFiles.State Sample} {w : Nat} {a : SharedFiles.Action Sample}
    (moves : SharedFiles.Moves s w a t) : t.readers = s.readers := by
  cases moves <;> rfl

/-- The latency file is that of the measured messages, and no sample is of another. -/
structure Kept (cfg : BenchmarkConfig) (s : Shared) : Prop where
  files : SharedFiles.Inv s.files
  capacity : s.files.slots.length = measurementMessages cfg
  carried : ∀ w sample, carried (s.files.workers w) = some sample → OfMeasured s.published sample
  recorded : ∀ sample ∈ s.files.recorded, OfMeasured s.published sample

theorem init_kept (cfg : BenchmarkConfig) (clock : ℚ) : Kept cfg (init cfg clock).shared where
  files := SharedFiles.init_inv _ _
  capacity := List.length_replicate
  carried := by simp [init, SharedFiles.init, LatencyRun.carried]
  recorded := by simp [init, SharedFiles.init, SharedFiles.State.recorded]

theorem Kept.header_le {cfg : BenchmarkConfig} {s : Shared} (kept : Kept cfg s) :
    0 ≤ s.files.header ∧ s.files.header ≤ measurementMessages cfg := by
  have within := kept.files.within
  rw [kept.capacity] at within
  exact ⟨kept.files.nonneg, within⟩

/-- What a step of a worker leaves alone, and what it adds. -/
structure Worked (s t : Shared) (completed : Bool) : Prop where
  published : t.published = s.published
  readers : t.files.readers = s.files.readers
  header : t.files.header = s.files.header + if completed then 1 else 0
  recorded : s.files.recorded <+: t.files.recorded

theorem Kept.worked {cfg : BenchmarkConfig} {now : ℚ} {s t : Shared} {a : Nat × SharedFiles.Action Sample}
    (kept : Kept cfg s) (stepped : work now s a = some t) : Kept cfg t ∧ Worked s t (completes a) := by
  obtain ⟨stamped, moved⟩ := Option.ite_none_right_eq_some.mp stepped
  obtain ⟨files, executed, rfl⟩ := Option.map_eq_some_iff.mp moved
  have moves := SharedFiles.workerStep_moves executed
  obtain ⟨inv, grows⟩ := moves.inv kept.files
  have stores : files.recorded = s.files.recorded ++ (SharedFiles.headerStore (.worker a.1 a.2)).toList :=
    (SharedFiles.step_stores kept.files (a := .worker a.1 a.2) executed).2
  have measured : ∀ w sample, LatencyRun.carried (files.workers w) = some sample →
      OfMeasured s.published sample := by
    intro w sample carries
    rcases moves_carried moves carries with before | opened
    · exact kept.carried w sample before
    · rw [opened] at stamped
      exact sample_ofMeasured stamped
  refine ⟨⟨inv, grows.size.trans kept.capacity, measured, ?_⟩, rfl, moves_readers moves, ?_, ?_⟩
  · intro sample member
    rw [stores] at member
    rcases List.mem_append.mp member with before | stored
    · exact kept.recorded sample before
    · exact kept.carried a.1 sample (moves_stored moves (Option.mem_toList.mp stored))
  · have before := kept.files.recorded_length
    have after := inv.recorded_length
    rw [stores, List.length_append] at after
    show files.header = s.files.header + _
    rw [← after, ← before, completes]
    cases SharedFiles.headerStore (.worker a.1 a.2) <;> simp
  · exact ⟨_, stores.symm⟩

/-! ## What the runner knows -/

/-- What the runner knows where it stands, unless it gave up at the time limit: it
    has seen the file full, and reads all of it. -/
def Full (cfg : BenchmarkConfig) (files : SharedFiles.State Sample) (d : Locals) : Phase → Prop
  | .purge => False
  | .takeEnd | .reread => files.header = measurementMessages cfg
  | .beginRead => files.header = measurementMessages cfg ∧ d.samples = measurementMessages cfg
  | .readSlots => files.header = measurementMessages cfg ∧ d.samples = measurementMessages cfg ∧
      ∃ values, files.readers 0 = .reading (measurementMessages cfg) values
  | .stopWorkers | .done => files.header = measurementMessages cfg ∧ d.samples = measurementMessages cfg ∧
      d.latencies = files.recorded
  | _ => True

structure Knows (cfg : BenchmarkConfig) (files : SharedFiles.State Sample) (d : Locals) : Prop where
  samples : 0 ≤ d.samples ∧ d.samples ≤ measurementMessages cfg
  samplesAtEnd : 0 ≤ d.samplesAtMeasurementEnd ∧ d.samplesAtMeasurementEnd ≤ measurementMessages cfg
  backlog : ∀ backlog, d.backlogAtMeasurementEnd = some backlog →
    backlog = measurementMessages cfg - d.samplesAtMeasurementEnd
  latencies : d.latencies <+: files.recorded
  full : d.timedOut = false → Full cfg files d d.phase

theorem Knows.worked {cfg : BenchmarkConfig} {s t : Shared} {d : Locals} {completed : Bool}
    (knows : Knows cfg s.files d) (before : Kept cfg s) (after : Kept cfg t) (worked : Worked s t completed) :
    Knows cfg t.files d := by
  refine ⟨knows.samples, knows.samplesAtEnd, knows.backlog, knows.latencies.trans worked.recorded, ?_⟩
  intro inTime
  have full := knows.full inTime
  have still (all : s.files.header = measurementMessages cfg) : t.files.header = measurementMessages cfg := by
    have grown := worked.header
    have within := after.header_le.2
    split_ifs at grown <;> omega
  cases phase : d.phase with
  | purge =>
    rw [phase] at full
    exact full
  | takeEnd | reread =>
    rw [phase] at full
    exact still full
  | beginRead =>
    rw [phase] at full
    exact ⟨still full.1, full.2⟩
  | readSlots =>
    rw [phase] at full
    obtain ⟨all, read, values, reading⟩ := full
    exact ⟨still all, read, values, worked.readers ▸ reading⟩
  | stopWorkers | done =>
    rw [phase] at full
    obtain ⟨all, read, same⟩ := full
    refine ⟨still all, read, same.trans (worked.recorded.eq_of_length ?_)⟩
    have lengthBefore := before.files.recorded_length
    have lengthAfter := after.files.recorded_length
    have stillAll := still all
    omega
  | _ => trivial

/-- A statement that reads no count, where nothing is known of the file yet. -/
theorem Knows.moved {cfg : BenchmarkConfig} {files : SharedFiles.State Sample} {d e : Locals}
    (knows : Knows cfg files d) (samples : e.samples = d.samples)
    (atEnd : e.samplesAtMeasurementEnd = d.samplesAtMeasurementEnd)
    (backlog : e.backlogAtMeasurementEnd = d.backlogAtMeasurementEnd) (latencies : e.latencies = d.latencies)
    (full : e.timedOut = false → Full cfg files e e.phase) : Knows cfg files e := by
  refine ⟨samples ▸ knows.samples, atEnd ▸ knows.samplesAtEnd, ?_, latencies ▸ knows.latencies, full⟩
  intro value bound
  rw [atEnd]
  exact knows.backlog value (backlog ▸ bound)

theorem OfMeasured.published {published : List Message} {sample : Sample} (measured : OfMeasured published sample)
    (message : Message) : OfMeasured (published ++ [message]) sample := by
  obtain ⟨own, member, record, same⟩ := measured
  exact ⟨own, List.mem_append_left _ member, record, same⟩

theorem Kept.published {cfg : BenchmarkConfig} {s : Shared} (kept : Kept cfg s) (message : Message) :
    Kept cfg { s with published := s.published ++ [message] } where
  files := kept.files
  capacity := kept.capacity
  carried w sample carries := (kept.carried w sample carries).published message
  recorded sample member := (kept.recorded sample member).published message

/-- Reading changes nothing but where the runner's reader is. -/
theorem Kept.read {cfg : BenchmarkConfig} {s : Shared} {files : SharedFiles.State Sample} {a : SharedFiles.ReaderAction}
    (kept : Kept cfg s) (stepped : SharedFiles.readerStep s.files 0 a = some files) :
    Kept cfg { s with files := files } ∧ files = { s.files with readers := files.readers } := by
  obtain ⟨inv, same⟩ := SharedFiles.readerStep_inv kept.files stepped
  refine ⟨⟨inv, ?_, ?_, ?_⟩, same⟩
  · rw [same]
    exact kept.capacity
  · rw [same]
    exact kept.carried
  · rw [same]
    exact kept.recorded

/-- How far the runner is with its end and its samples. -/
def view (d : Locals) : View ℚ :=
  match d.phase with
  | .purge | .reread => .late d.stop
  | .beginRead | .readSlots | .stopWorkers | .done => .reported d.stop d.samples.toNat
  | .failed => .failed
  | _ => .before

/-- The runner's reader has the header, then one slot more, then nothing to read. -/
theorem beginRead_reader {s t : SharedFiles.State Sample} {n : ℤ}
    (stepped : SharedFiles.readerStep s 0 (.beginRead n) = some t) : t.readers 0 = .reading s.header [] := by
  rcases SharedFiles.readerStep_cases stepped with ⟨_, same, _⟩ | ⟨_, same, _⟩ | ⟨_, same, observed, rfl⟩ |
    ⟨_, _, _, same, _⟩ | ⟨same, _⟩ <;> cases same
  simp [← observed]

theorem readSlot_reader {s t : SharedFiles.State Sample} {n : ℤ} {values : List Sample}
    (reading : s.readers 0 = .reading n values) (stepped : SharedFiles.readerStep s 0 .readSlot = some t) :
    ∃ longer, t.readers 0 = .reading n longer := by
  rcases SharedFiles.readerStep_cases stepped with ⟨_, same, _⟩ | ⟨_, same, _⟩ | ⟨_, same, _⟩ |
    ⟨_, _, _, same, phase, _, _, rfl⟩ | ⟨same, _⟩ <;> cases same
  cases reading.symm.trans phase
  simp

/-- What a reader has read are the first of the recorded samples. -/
theorem reading_prefix {s : SharedFiles.State Sample} (inv : SharedFiles.Inv s) {r : Nat} {n : ℤ}
    {values : List Sample} (reading : s.readers r = .reading n values) : values <+: s.recorded := by
  have read := inv.readers r
  rw [reading] at read
  obtain ⟨observed, short, same⟩ := read
  rw [same]
  exact List.take_prefix_take_left (by omega)

/-- What a statement of the runner keeps, and what it does to the view. -/
structure Ran (cfg : BenchmarkConfig) (now : ℚ) (s : Shared) (d : Locals) (next : Shared × Locals) : Prop where
  kept : Kept cfg next.1
  knows : Knows cfg next.1.files next.2
  header : next.1.files.header = s.files.header
  view : View.Next now s.files.header.toNat (measurementMessages cfg) (view d) (view next.2)

theorem runner_ran {cfg : BenchmarkConfig} {now : ℚ} {s : Shared} {d : Locals} {reply : Reply}
    {next : Shared × Locals} (kept : Kept cfg s) (knows : Knows cfg s.files d)
    (ran : runner cfg now s d reply = some next) : Ran cfg now s d next := by
  have ⟨nonneg, within⟩ := kept.header_le
  unfold runner at ran
  split at ran
  -- the warm-up is left out when it has no message
  case h_3 phase =>
    cases ran
    by_cases cold : warmupMessages cfg = 0
    all_goals exact ⟨kept, knows.moved rfl rfl rfl rfl (by simp [cold, Full]), rfl, by simp [view, phase, cold]⟩
  -- the publisher raises, stamps its next message or is done
  case h_6 record sent phase =>
    by_cases silent : cfg.latencyArrivalRate ≤ 0
    · simp only [if_pos silent] at ran
      cases ran
      exact ⟨kept, knows.moved rfl rfl rfl rfl (fun _ => trivial), rfl, by simp [view, phase]⟩
    · by_cases more : sent < messagesOf cfg record
      · simp only [if_neg silent, if_pos more] at ran
        cases ran
        exact ⟨kept, knows.moved rfl rfl rfl rfl (fun _ => trivial), rfl, by simp [view, phase]⟩
      · simp only [if_neg silent, if_neg more] at ran
        cases ran
        cases record
        all_goals exact ⟨kept, knows.moved rfl rfl rfl rfl (fun _ => trivial), rfl, by simp [view, phase]⟩
  case h_7 record sent message phase =>
    cases ran
    cases record
    all_goals exact ⟨kept.published message, knows.moved rfl rfl rfl rfl (fun _ => trivial), rfl,
      by simp [view, phase]⟩
  -- the three reads of the header: for the backlog, at a poll, and the last one
  case h_11 phase =>
    cases ran
    refine ⟨kept, ⟨knows.samples, kept.header_le, ?_, knows.latencies, fun _ => trivial⟩, rfl, by simp [view, phase]⟩
    intro backlog bound
    cases bound
    exact max_eq_right (by omega)
  case h_12 phase =>
    cases ran
    refine ⟨kept, ⟨kept.header_le, knows.samplesAtEnd, knows.backlog, knows.latencies, ?_⟩, rfl, ?_⟩
    · intro _
      by_cases all : (measurementMessages cfg : ℤ) ≤ s.files.header
      · simp only [if_pos all]
        exact le_antisymm within all
      · simp only [if_neg all]
        trivial
    · by_cases all : (measurementMessages cfg : ℤ) ≤ s.files.header <;> simp [view, phase, all]
  case h_13 phase =>
    cases ran
    refine ⟨kept, knows.moved rfl rfl rfl rfl (fun inTime => ?_), rfl, by simpa [view, phase] using View.Next.stop⟩
    have full := knows.full inTime
    rwa [phase] at full
  case h_14 phase =>
    by_cases expired : d.measurementEnd + cfg.timeLimit ≤ now
    · rw [if_pos expired] at ran
      cases ran
      exact ⟨kept, knows.moved rfl rfl rfl rfl (by simp), rfl, by simpa [view, phase] using View.Next.stop⟩
    · rw [if_neg expired] at ran
      cases ran
      exact ⟨kept, knows.moved rfl rfl rfl rfl (fun _ => trivial), rfl, by simp [view, phase]⟩
  case h_15 phase =>
    cases ran
    refine ⟨kept, knows.moved rfl rfl rfl rfl (fun inTime => ?_), rfl, by simp [view, phase]⟩
    have full := knows.full inTime
    rw [phase] at full
    exact full.elim
  case h_16 phase =>
    cases ran
    refine ⟨kept, ⟨kept.header_le, knows.samplesAtEnd, knows.backlog, knows.latencies, fun inTime => ?_⟩, rfl, ?_⟩
    · have full := knows.full inTime
      rw [phase] at full
      exact ⟨full, full⟩
    · have few : min s.files.header.toNat (measurementMessages cfg) = s.files.header.toNat := by omega
      have next : View.Next now s.files.header.toNat (measurementMessages cfg) (.late d.stop)
          (.reported d.stop (min s.files.header.toNat (measurementMessages cfg))) := .reread d.stop
      rw [few] at next
      simpa [view, phase] using next
  -- `read_latencies_from_file` reads a header of its own, and then slot by slot
  case h_17 phase =>
    obtain ⟨files, executed, rfl⟩ := Option.map_eq_some_iff.mp ran
    obtain ⟨after, same⟩ := kept.read executed
    have header : files.header = s.files.header := by rw [same]
    have recorded : files.recorded = s.files.recorded := by rw [same]; rfl
    have samples : Knows cfg files { d with phase := .readSlots } := by
      refine ⟨knows.samples, knows.samplesAtEnd, knows.backlog, recorded ▸ knows.latencies, fun inTime => ?_⟩
      have full := knows.full inTime
      rw [phase] at full
      exact ⟨header.trans full.1, full.2, [], full.1 ▸ beginRead_reader executed⟩
    exact ⟨after, samples, header, by simp [view, phase]⟩
  case h_18 phase =>
    split at ran
    · cases ran
    case h_2 n values reading =>
      by_cases more : (values.length : ℤ) < n
      · rw [if_pos more] at ran
        obtain ⟨files, executed, rfl⟩ := Option.map_eq_some_iff.mp ran
        obtain ⟨after, same⟩ := kept.read executed
        have header : files.header = s.files.header := by rw [same]
        have recorded : files.recorded = s.files.recorded := by rw [same]; rfl
        refine ⟨after, ?_, header, by simp⟩
        refine ⟨knows.samples, knows.samplesAtEnd, knows.backlog, recorded ▸ knows.latencies, fun inTime => ?_⟩
        have full := knows.full inTime
        show Full cfg files d d.phase
        rw [phase] at full ⊢
        obtain ⟨all, read, _, own⟩ := full
        cases reading.symm.trans own
        exact ⟨header.trans all, read, readSlot_reader reading executed⟩
      · rw [if_neg more] at ran
        obtain ⟨files, executed, rfl⟩ := Option.map_eq_some_iff.mp ran
        obtain ⟨after, same⟩ := kept.read executed
        have header : files.header = s.files.header := by rw [same]
        have recorded : files.recorded = s.files.recorded := by rw [same]; rfl
        have first := reading_prefix kept.files reading
        refine ⟨after, ?_, header, by simp [view, phase]⟩
        refine ⟨knows.samples, knows.samplesAtEnd, knows.backlog, recorded ▸ first, fun inTime => ?_⟩
        have full := knows.full inTime
        rw [phase] at full
        obtain ⟨all, read, _, own⟩ := full
        cases reading.symm.trans own
        have length := kept.files.recorded_length
        refine ⟨header.trans all, read, ?_⟩
        rw [recorded]
        exact first.eq_of_length_le (by omega)
  case h_19 phase =>
    cases ran
    refine ⟨kept, knows.moved rfl rfl rfl rfl (fun inTime => ?_), rfl, by simp [view, phase]⟩
    have full := knows.full inTime
    rwa [phase] at full
  all_goals cases ran
  all_goals exact ⟨kept, knows.moved rfl rfl rfl rfl (fun _ => trivial), rfl, by simp_all [view]⟩

/-! ## Every run -/

/-- A latency run takes its end before the last count of samples. -/
def polls (cfg : BenchmarkConfig) : Polls (system cfg) (measurementMessages cfg) where
  view := view
  Inv s d := Kept cfg s ∧ Knows cfg s.files d
  worked := by
    rintro now s d a t ⟨kept, knows⟩ stepped
    obtain ⟨after, worked⟩ := kept.worked stepped
    refine ⟨⟨after, knows.worked kept after worked⟩, ?_⟩
    have nonneg := kept.files.nonneg
    show t.files.header.toNat = s.files.header.toNat + if completes a = true then 1 else 0
    rw [worked.header]
    split_ifs <;> omega
  ran := by
    rintro now s d reply next ⟨kept, knows⟩ moved
    have ran := runner_ran kept knows moved
    exact ⟨⟨ran.kept, ran.knows⟩, congrArg Int.toNat ran.header, ran.view⟩

theorem init_knows (cfg : BenchmarkConfig) (clock : ℚ) :
    Knows cfg (init cfg clock).shared.files (init cfg clock).runner where
  samples := ⟨le_rfl, Int.natCast_nonneg _⟩
  samplesAtEnd := ⟨le_rfl, Int.natCast_nonneg _⟩
  backlog := by simp [init]
  latencies := List.nil_prefix
  full _ := trivial

theorem run_kept {cfg : BenchmarkConfig} {clock : ℚ} {trace : List (Label ℚ (Nat × SharedFiles.Action Sample) Reply)}
    {s : State ℚ Shared Locals} (executed : run (system cfg).step (init cfg clock) trace = some s) :
    Kept cfg s.shared ∧ Knows cfg s.shared.files s.runner := by
  refine System.run_kept (fun s d => Kept cfg s ∧ Knows cfg s.files d) ?_ ?_
    ⟨init_kept cfg clock, init_knows cfg clock⟩ executed
  · intro now s d a next inv stepped
    exact ((polls cfg).worked inv stepped).1
  · intro now s d reply next inv moved
    exact ((polls cfg).ran inv moved).1

/-- The backlog is computed once, from the header as it is then. -/
theorem runner_backlog {cfg : BenchmarkConfig} {now : ℚ} {s : Shared} {d : Locals} {reply : Reply}
    {next : Shared × Locals} (ran : runner cfg now s d reply = some next) :
    next.2.backlogAtMeasurementEnd = d.backlogAtMeasurementEnd ∨
    ∃ backlog, next.2.backlogAtMeasurementEnd = some backlog ∧
      d.phase = .backlog ∧ backlog = max 0 (measurementMessages cfg - s.files.header) := by
  unfold runner at ran
  split at ran
  case h_6 record sent phase =>
    refine .inl ?_
    by_cases silent : cfg.latencyArrivalRate ≤ 0
    · simp only [if_pos silent] at ran
      cases ran
      rfl
    · by_cases more : sent < messagesOf cfg record
      · simp only [if_neg silent, if_pos more] at ran
        cases ran
        rfl
      · simp only [if_neg silent, if_neg more] at ran
        cases ran
        cases record <;> rfl
  case h_7 record sent message phase =>
    cases ran
    cases record <;> exact .inl rfl
  case h_11 phase =>
    cases ran
    exact .inr ⟨_, rfl, phase, rfl⟩
  case h_14 phase =>
    by_cases expired : d.measurementEnd + cfg.timeLimit ≤ now
    · rw [if_pos expired] at ran
      cases ran
      exact .inl rfl
    · rw [if_neg expired] at ran
      cases ran
      exact .inl rfl
  case h_17 phase =>
    obtain ⟨files, _, rfl⟩ := Option.map_eq_some_iff.mp ran
    exact .inl rfl
  case h_18 phase =>
    split at ran
    · cases ran
    · split_ifs at ran
      all_goals
        obtain ⟨files, _, rfl⟩ := Option.map_eq_some_iff.mp ran
        exact .inl rfl
  all_goals cases ran
  all_goals exact .inl rfl

end RepidBench.LatencyRun
