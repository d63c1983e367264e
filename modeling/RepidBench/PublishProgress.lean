import Mathlib.Algebra.Order.BigOperators.Group.Finset
import RepidBench.ProgressLines

/-!
`_publish` with several publisher processes: each prints its progress into a pipe, a
reader thread for each keeps its entry of `progress`, and the main loop prints their
sum, in any order of processes, threads and the main loop. `proc.poll()` is taken
of all processes at one moment: a process ends once, so every sum that the loop can
see is the number of those that had ended at some moment of it.
-/
namespace RepidBench.PublishProgress
open Transition Publishing Text RunnerOutput Publishers ProgressLines RepidBench.Runtime

/-! ## Publishers, readers and the main loop -/

/-- A line in the pipe, with the number of sends that had returned when it was printed. -/
structure Written where
  line : Printed
  sent : Nat
  deriving DecidableEq, Repr

/-- A publisher process; the number of its sends that have returned is kept beside it. -/
structure Publisher (path : Path) where
  call : path.State
  sent : Nat
  stdout : List Written
  exited : Bool

namespace Publisher
variable {path : Path}

/-- What the process has written to its standard output. -/
def stream (publisher : Publisher path) : List Char :=
  stdoutOf (publisher.stdout.map (fun written => loopPrint written.line))

def start (cfg : BenchmarkConfig) (path : Path) : Publisher path where
  call := (adapterPublish cfg path).init
  sent := 0
  stdout := (startLines path (adapterPublish cfg path).init).map (fun line => ⟨line, 0⟩)
  exited := false

/-- The publisher after a step of its call. -/
def next (publisher : Publisher path) (a : path.Label) (call : path.State) : Publisher path where
  call := call
  sent := publisher.sent + returns path a
  stdout := publisher.stdout ++
    (emitted path publisher.call a call).map (fun line => ⟨line, publisher.sent + returns path a⟩)
  exited := publisher.exited

end Publisher

/-- A reader thread: how many lines it has read, and the entries it keeps. -/
structure Reader where
  consumed : Nat
  counts : Counts
  deriving DecidableEq, Repr

/-- The reader of a publisher with `chunk` messages, after a line. -/
def Reader.next (chunk : Nat) (line : List Char) (reader : Reader) : Reader where
  consumed := reader.consumed + 1
  counts := readLine chunk line reader.counts

/-- What `_publish` prints. -/
inductive TotalPrint
  | started (publishers : Nat)
  | progress (enqueued : ℤ) (messages done publishers : Nat)
  | enqueued (count messages : Nat)
  deriving DecidableEq, Repr

/-- The total that a line shows. -/
def TotalPrint.total? : TotalPrint → Option ℤ
  | .started _ => none
  | .progress sum _ _ _ => some sum
  | .enqueued count _ => some count

inductive Phase
  | looping
  | polled (done : Nat)
  | joining
  | ended (outcome : Outcome)
  deriving DecidableEq, Repr

structure Main where
  phase : Phase
  lastDone : ℤ
  lastEnqueued : ℤ
  printed : List TotalPrint
  deriving DecidableEq, Repr

namespace Main

/-- The main loop after `enqueued = sum(progress)`. -/
def report (messages publishers done : Nat) (enqueued : ℤ) (main : Main) : Main :=
  let changed := (done : ℤ) ≠ main.lastDone ∨ enqueued ≠ main.lastEnqueued
  { phase := if done = publishers then .joining else .looping
    lastDone := if changed then done else main.lastDone
    lastEnqueued := if changed then enqueued else main.lastEnqueued
    printed := if changed then main.printed ++ [.progress enqueued messages done publishers] else main.printed }

/-- The statements after the threads are joined, or their joins have timed out. -/
def finish (messages : Nat) (outcome : Outcome) (main : Main) : Main :=
  match outcome with
  | .returned => { main with phase := .ended .returned, printed := main.printed ++ [.enqueued messages messages] }
  | error => { main with phase := .ended error }

/-- The totals printed so far. -/
def totals (main : Main) : List ℤ := main.printed.filterMap TotalPrint.total?

end Main

/-- Publisher processes and reader threads by their index, and the main loop. -/
structure State (path : Path) (count : Nat) where
  publishers : Fin count → Publisher path
  readers : Fin count → Reader
  main : Main

/-- What happens next: a step of a publisher, the end of its process, a line read by its
    reader, or a statement of the main loop. -/
inductive Label (path : Path) (count : Nat)
  | publish (i : Fin count) (a : path.Label)
  | exit (i : Fin count)
  | read (i : Fin count)
  | poll
  | total
  | join

section
variable (traceback : Outcome → String) (messages : Nat) (path : Path) (chunks : List BenchmarkConfig)

/-- The outcomes of the publishers that have one. -/
def outcomes (s : State path chunks.length) : List Outcome :=
  (List.finRange chunks.length).filterMap
    (fun i => (adapterPublish (chunks.get i) path).result (s.publishers i).call)

def step (s : State path chunks.length) : Label path chunks.length → Option (State path chunks.length)
  | .publish i a =>
    if (s.publishers i).exited = true then none
    else
      ((adapterPublish (chunks.get i) path).step (s.publishers i).call a).map (fun call =>
        { s with publishers := Function.update s.publishers i ((s.publishers i).next a call) })
  | .exit i =>
    if ((adapterPublish (chunks.get i) path).result (s.publishers i).call).isSome ∧ (s.publishers i).exited = false then
      some { s with publishers := Function.update s.publishers i { s.publishers i with exited := true } }
    else none
  | .read i =>
    (readLines (s.publishers i).stream)[(s.readers i).consumed]?.map (fun line =>
      { s with readers := Function.update s.readers i ((s.readers i).next (chunks.get i).messages line) })
  | .poll =>
    if s.main.phase = .looping then
      some { s with main := { s.main with phase := .polled (∑ i, (s.publishers i).exited.toNat) } }
    else none
  | .total =>
    match s.main.phase with
    | .polled done =>
      some { s with main := s.main.report messages chunks.length done (∑ i, (s.readers i).counts.progress) }
    | _ => none
  | .join =>
    if s.main.phase = .joining then
      some { s with main := s.main.finish messages (publishOutcome traceback (outcomes path chunks s)) }
    else none

/-- `_publish`, once the publishers of `chunks` have been started. -/
def publishing : Machine (State path chunks.length) (Label path chunks.length) Outcome where
  init := ⟨fun i => .start (chunks.get i) path, fun _ => ⟨0, ⟨0, 0, 0⟩⟩,
    ⟨.looping, -1, -1, [.started chunks.length]⟩⟩
  step := step traceback messages path chunks
  result s :=
    match s.main.phase with
    | .ended outcome => some outcome
    | _ => none

end

/-- No send fails. -/
def Label.Clean {path : Path} {count : Nat} : Label path count → Prop
  | .publish _ a => path.Clean a
  | _ => True

/-- How often a label lets a send of one publisher return. -/
def returnsOf {path : Path} {count : Nat} (i : Fin count) : Label path count → Nat
  | .publish j a => if j = i then returns path a else 0
  | _ => 0

/-- The messages of a run, dealt out over two or more publishers. -/
structure Split (cfg : BenchmarkConfig) (chunks : List BenchmarkConfig) : Prop where
  many : 2 ≤ chunks.length
  valid : ∀ chunk ∈ chunks, Valid chunk
  sum : (chunks.map BenchmarkConfig.messages).sum = cfg.messages

/-- The publishers that `_publish` starts. -/
theorem publisherConfigs_split {cfg : BenchmarkConfig} (valid : Valid cfg) (many : 2 ≤ (publisherConfigs cfg).length) :
    Split cfg (publisherConfigs cfg) where
  many := many
  valid _ member := valid.publishers member
  sum := publisherConfigs_sum cfg

/-! ## One publisher and its reader -/

/-- What the first `count` lines are read as. -/
def tallyAt (stdout : List Written) (count : Nat) : Tally :=
  Tally.zero.readAll ((stdout.take count).map Written.line)

theorem tallyAt_length (stdout : List Written) :
    tallyAt stdout stdout.length = Tally.zero.readAll (stdout.map Written.line) := by
  rw [tallyAt, List.take_length]

theorem tallyAt_append {stdout : List Written} {count : Nat} (there : count ≤ stdout.length) (more : List Written) :
    tallyAt (stdout ++ more) count = tallyAt stdout count := by
  rw [tallyAt, List.take_append_of_le_length there]
  rfl

theorem tallyAt_succ {stdout : List Written} {count : Nat} {written : Written}
    (found : stdout[count]? = some written) :
    tallyAt stdout (count + 1) = (tallyAt stdout count).read written.line := by
  rw [tallyAt, List.take_add_one, found, List.map_append, Tally.readAll_append]
  rfl

/-- Each line lifts the value it is read as, to no more than had been sent. -/
def Honest (stdout : List Written) (sent : Nat) : Prop :=
  ∀ count written, stdout[count]? = some written →
    (tallyAt stdout count).value ≤ (tallyAt stdout (count + 1)).value ∧
    (tallyAt stdout (count + 1)).value ≤ written.sent ∧ written.sent ≤ sent

theorem honest_nil (sent : Nat) : Honest [] sent := by
  intro count written found
  simp at found

theorem Honest.mono {stdout : List Written} {sent limit : Nat} (honest : Honest stdout sent) (le : sent ≤ limit) :
    Honest stdout limit := by
  intro count written found
  obtain ⟨grows, below, before⟩ := honest count written found
  exact ⟨grows, below, before.trans le⟩

theorem Honest.snoc {stdout : List Written} {sent : Nat} (honest : Honest stdout sent) {line : Printed}
    (grows : (tallyAt stdout stdout.length).value ≤ ((tallyAt stdout stdout.length).read line).value)
    (below : ((tallyAt stdout stdout.length).read line).value ≤ sent) : Honest (stdout ++ [⟨line, sent⟩]) sent := by
  intro count written found
  by_cases earlier : count < stdout.length
  · rw [List.getElem?_append_left earlier] at found
    rw [tallyAt_append earlier.le, tallyAt_append earlier]
    exact honest count written found
  · have short : count < (stdout ++ [Written.mk line sent]).length := (List.getElem?_eq_some_iff.mp found).1
    rw [List.length_append, List.length_singleton] at short
    obtain rfl : count = stdout.length := by omega
    rw [tallyAt_succ found, tallyAt_append le_rfl]
    rw [List.getElem?_concat_length] at found
    cases found
    exact ⟨grows, below, le_rfl⟩

/-- Lines that rise may be printed after lines that do. -/
theorem Honest.append {stdout : List Written} {sent : Nat} (honest : Honest stdout sent) {lines : List Printed}
    (rises : (tallyAt stdout stdout.length).Rises sent lines) :
    Honest (stdout ++ lines.map (fun line => ⟨line, sent⟩)) sent := by
  induction lines generalizing stdout with
  | nil =>
    rw [List.map_nil, List.append_nil]
    exact honest
  | cons line rest ih =>
    obtain ⟨grows, below, later⟩ := rises
    have next : tallyAt (stdout ++ [⟨line, sent⟩]) (stdout ++ [Written.mk line sent]).length =
        (tallyAt stdout stdout.length).read line := by
      rw [tallyAt_length, tallyAt_length, List.map_append, Tally.readAll_append]
      rfl
    have more := ih (honest.snoc grows below) (next ▸ later)
    rw [List.append_assoc] at more
    exact more

/-- The lines are read back as they were printed. -/
theorem readLines_stream {path : Path} (publisher : Publisher path) :
    readLines publisher.stream = publisher.stdout.map (fun written => (loopPrint written.line).text.toList) := by
  have formed : ∀ print ∈ publisher.stdout.map (fun written => loopPrint written.line), ParseOutput.Formed print := by
    intro print member
    obtain ⟨written, _, rfl⟩ := List.mem_map.mp member
    exact (RoundTrip.loopPrint_quiet written.line).1
  rw [Publisher.stream, stdoutOf, readLines_present (ParseOutput.fragments_wellFormed formed)]
  · simp only [List.map_map]
    rfl
  · intro fragment member
    obtain ⟨print, inside, rfl⟩ := List.mem_map.mp member
    obtain ⟨⟨line, _⟩, _, rfl⟩ := List.mem_map.mp inside
    show (loopPrint line).text.toList ≠ []
    cases line with
    | enqueued count total => simp [enqueued_text]
    | burst number count remaining => simp [burst_text]

/-- A publisher, what it has printed, and what its reader has made of it. -/
structure Linked {cfg : BenchmarkConfig} {path : Path} (valid : Valid cfg) (publisher : Publisher path)
    (reader : Reader) : Prop where
  certified : (adapterReporting valid path).Inv (tallyAt publisher.stdout publisher.stdout.length) publisher.sent
    publisher.call
  honest : Honest publisher.stdout publisher.sent
  within : reader.consumed ≤ publisher.stdout.length
  shows : reader.counts.Shows (tallyAt publisher.stdout reader.consumed)
  exited : publisher.exited = true → ((adapterPublish cfg path).result publisher.call).isSome

section
variable {cfg : BenchmarkConfig} {path : Path} {valid : Valid cfg} {publisher : Publisher path} {reader : Reader}

theorem start_linked (valid : Valid cfg) (path : Path) : Linked valid (.start cfg path) ⟨0, ⟨0, 0, 0⟩⟩ := by
  have started := (adapterReporting valid path).started
  have lines : (startLines path (adapterPublish cfg path).init).map
      (Written.line ∘ fun line => (⟨line, 0⟩ : Written)) = startLines path (adapterPublish cfg path).init :=
    List.map_id _
  refine ⟨?_, ?_, Nat.zero_le _, ⟨rfl, rfl, rfl⟩, by simp [Publisher.start]⟩
  · rw [tallyAt_length, Publisher.start, List.map_map, lines]
    exact (adapterReporting valid path).init_inv
  · have honest := (honest_nil 0).append started
    rw [List.nil_append] at honest
    exact honest

/-- A step of the publisher leaves what its reader has read. -/
theorem Linked.next (linked : Linked valid publisher reader) {a : path.Label} {call : path.State}
    (clean : path.Clean a) (running : publisher.exited = false)
    (stepped : (adapterPublish cfg path).step publisher.call a = some call) :
    Linked valid (publisher.next a call) reader := by
  obtain ⟨certified, honest, within, shows, _⟩ := linked
  obtain ⟨rises, kept⟩ := (adapterReporting valid path).step_inv certified clean stepped
  have lines : (emitted path publisher.call a call).map
      (Written.line ∘ fun line => (⟨line, publisher.sent + returns path a⟩ : Written)) =
      emitted path publisher.call a call := List.map_id _
  refine ⟨?_, ?_, ?_, ?_, ?_⟩
  · rw [tallyAt_length, Publisher.next, List.map_append, Tally.readAll_append, List.map_map, lines, ← tallyAt_length]
    exact kept
  · exact (honest.mono (Nat.le_add_right publisher.sent (returns path a))).append rises
  · rw [Publisher.next, List.length_append]
    exact within.trans (Nat.le_add_right _ _)
  · rw [Publisher.next, tallyAt_append within]
    exact shows
  · intro ended
    rw [Publisher.next, running] at ended
    cases ended

/-- Reading a line lifts the progress, to no more than had been sent when it was printed. -/
theorem Linked.read (linked : Linked valid publisher reader) {line : List Char}
    (found : (readLines publisher.stream)[reader.consumed]? = some line) :
    Linked valid publisher (reader.next cfg.messages line) ∧
      reader.counts.progress ≤ (reader.next cfg.messages line).counts.progress := by
  obtain ⟨certified, honest, within, shows, exited⟩ := linked
  rw [readLines_stream, List.getElem?_map, Option.map_eq_some_iff] at found
  obtain ⟨written, there, rfl⟩ := found
  obtain ⟨grows, below, before⟩ := honest reader.consumed written there
  have most := ((adapterReporting valid path).bounded certified).2
  have inside : (tallyAt publisher.stdout (reader.consumed + 1)).value ≤ cfg.messages := by omega
  have reads : (reader.next cfg.messages (loopPrint written.line).text.toList).counts.Shows
      (tallyAt publisher.stdout (reader.consumed + 1)) := by
    rw [tallyAt_succ there] at inside ⊢
    exact shows.read written.line inside
  refine ⟨⟨certified, honest, (List.getElem?_eq_some_iff.mp there).1, reads, exited⟩, ?_⟩
  rw [shows.progress, reads.progress]
  exact_mod_cast grows

/-- The number of sends that had returned when the line read last was printed. -/
def lastSent (publisher : Publisher path) (reader : Reader) : Nat :=
  match reader.consumed with
  | 0 => 0
  | count + 1 => (publisher.stdout[count]?.map Written.sent).getD 0

/-- The progress is never more than what had been sent, nor than the chunk. -/
theorem Linked.bounded (linked : Linked valid publisher reader) :
    reader.counts.progress ≤ lastSent publisher reader ∧ lastSent publisher reader ≤ publisher.sent ∧
      publisher.sent ≤ cfg.messages := by
  obtain ⟨certified, honest, within, shows, _⟩ := linked
  have most := ((adapterReporting valid path).bounded certified).2
  rw [shows.progress]
  unfold lastSent
  split
  · rename_i none
    rw [none]
    exact ⟨le_rfl, Nat.zero_le _, most⟩
  · rename_i count consumed
    rw [consumed] at within ⊢
    have there : publisher.stdout[count]? = some publisher.stdout[count] := List.getElem?_eq_getElem within
    obtain ⟨_, below, before⟩ := honest count _ there
    rw [there]
    exact ⟨by exact_mod_cast below, before, most⟩

/-- Once a publisher has its outcome, it has returned, and its lines make the whole chunk. -/
theorem Linked.complete (linked : Linked valid publisher reader) {outcome : Outcome}
    (present : (adapterPublish cfg path).result publisher.call = some outcome) :
    outcome = .returned ∧ (reader.consumed = publisher.stdout.length → reader.counts.progress = cfg.messages) := by
  obtain ⟨returned, all⟩ := (adapterReporting valid path).ended linked.certified present
  refine ⟨returned, fun consumed => ?_⟩
  rw [linked.shows.progress, consumed, all]

end

/-! ## The whole of `_publish` -/

/-- `sum(progress)`. -/
def State.sum {path : Path} {count : Nat} (s : State path count) : ℤ := ∑ i, (s.readers i).counts.progress

/-- `sum(proc.poll() is not None for proc in procs)`. -/
def State.exits {path : Path} {count : Nat} (s : State path count) : Nat := ∑ i, (s.publishers i).exited.toNat

/-- As many exits as publishers are the exits of all. -/
theorem all_exited {path : Path} {count : Nat} {s : State path count} (all : count ≤ s.exits) (i : Fin count) :
    (s.publishers i).exited = true := by
  by_contra running
  have alive : (s.publishers i).exited.toNat < 1 := by simpa using running
  have fewer : s.exits < ∑ _ : Fin count, 1 :=
    Finset.sum_lt_sum (fun j _ => Bool.toNat_le _) ⟨i, Finset.mem_univ i, alive⟩
  simp at fewer
  omega

section
variable {traceback : Outcome → String} {cfg : BenchmarkConfig} {path : Path} {chunks : List BenchmarkConfig}
  {s t : State path chunks.length} {a : Label path chunks.length}

/-- What a step can do: one publisher or one reader moves, or the main loop alone. -/
theorem step_cases {messages : Nat} (stepped : step traceback messages path chunks s a = some t) :
    (∃ i b call, a = .publish i b ∧ (s.publishers i).exited = false ∧
      (adapterPublish (chunks.get i) path).step (s.publishers i).call b = some call ∧
      t = { s with publishers := Function.update s.publishers i ((s.publishers i).next b call) }) ∨
    (∃ i, a = .exit i ∧ ((adapterPublish (chunks.get i) path).result (s.publishers i).call).isSome ∧
      (s.publishers i).exited = false ∧
      t = { s with publishers := Function.update s.publishers i { s.publishers i with exited := true } }) ∨
    (∃ i line, a = .read i ∧ (readLines (s.publishers i).stream)[(s.readers i).consumed]? = some line ∧
      t = { s with readers := Function.update s.readers i ((s.readers i).next (chunks.get i).messages line) }) ∨
    (a = .poll ∧ s.main.phase = .looping ∧ t = { s with main := { s.main with phase := .polled s.exits } }) ∨
    (∃ done, a = .total ∧ s.main.phase = .polled done ∧
      t = { s with main := s.main.report messages chunks.length done s.sum }) ∨
    (a = .join ∧ s.main.phase = .joining ∧
      t = { s with main := s.main.finish messages (publishOutcome traceback (outcomes path chunks s)) }) := by
  cases a with
  | publish i b =>
    simp only [step, Option.ite_none_left_eq_some, Option.map_eq_some_iff] at stepped
    obtain ⟨running, call, executed, rfl⟩ := stepped
    exact .inl ⟨i, b, call, rfl, by simpa using running, executed, rfl⟩
  | exit i =>
    simp only [step, Option.ite_none_right_eq_some, Option.some.injEq] at stepped
    exact .inr (.inl ⟨i, rfl, stepped.1.1, stepped.1.2, stepped.2.symm⟩)
  | read i =>
    simp only [step, Option.map_eq_some_iff] at stepped
    obtain ⟨line, found, rfl⟩ := stepped
    exact .inr (.inr (.inl ⟨i, line, rfl, found, rfl⟩))
  | poll =>
    simp only [step, Option.ite_none_right_eq_some, Option.some.injEq] at stepped
    exact .inr (.inr (.inr (.inl ⟨rfl, stepped.1, stepped.2.symm⟩)))
  | total =>
    cases phase : s.main.phase with
    | polled done =>
      simp only [step, phase, Option.some.injEq] at stepped
      exact .inr (.inr (.inr (.inr (.inl ⟨done, rfl, rfl, stepped.symm⟩))))
    | looping | joining | ended _ => simp [step, phase] at stepped
  | join =>
    simp only [step, Option.ite_none_right_eq_some, Option.some.injEq] at stepped
    exact .inr (.inr (.inr (.inr (.inr ⟨rfl, stepped.1, stepped.2.symm⟩))))

/-- What a publisher has printed can be read. -/
theorem readable (traceback : Outcome → String) (messages : Nat) {i : Fin chunks.length}
    (unread : (s.readers i).consumed < (s.publishers i).stdout.length) :
    ∃ t, step traceback messages path chunks s (.read i) = some t := by
  have there : (s.readers i).consumed < (readLines (s.publishers i).stream).length := by
    rw [readLines_stream, List.length_map]
    exact unread
  rw [step, List.getElem?_eq_getElem there]
  exact ⟨_, rfl⟩

variable (split : Split cfg chunks)

/-- Every publisher and its reader. -/
def Sound (s : State path chunks.length) : Prop :=
  ∀ i, Linked (split.valid (chunks.get i) (List.get_mem chunks i)) (s.publishers i) (s.readers i)

/-- A step keeps every publisher and its reader, and lowers no entry of `progress`. -/
theorem step_sound (sound : Sound split s) (clean : a.Clean)
    (stepped : step traceback cfg.messages path chunks s a = some t) :
    Sound split t ∧ ∀ i, (s.readers i).counts.progress ≤ (t.readers i).counts.progress := by
  rcases step_cases stepped with ⟨i, b, call, rfl, running, executed, rfl⟩ | ⟨i, rfl, ended, _, rfl⟩ |
    ⟨i, line, rfl, found, rfl⟩ | ⟨rfl, _, rfl⟩ | ⟨done, rfl, _, rfl⟩ | ⟨rfl, _, rfl⟩
  · refine ⟨?_, fun _ => le_rfl⟩
    apply (Function.forall_update_iff s.publishers (fun j publisher => Linked _ publisher (s.readers j))).mpr
    exact ⟨(sound i).next clean running executed, fun j _ => sound j⟩
  · refine ⟨?_, fun _ => le_rfl⟩
    apply (Function.forall_update_iff s.publishers (fun j publisher => Linked _ publisher (s.readers j))).mpr
    obtain ⟨certified, honest, within, shows, _⟩ := sound i
    exact ⟨⟨certified, honest, within, shows, fun _ => ended⟩, fun j _ => sound j⟩
  · obtain ⟨kept, grows⟩ := (sound i).read found
    constructor
    · apply (Function.forall_update_iff s.readers (fun j reader => Linked _ (s.publishers j) reader)).mpr
      exact ⟨kept, fun j _ => sound j⟩
    · apply (Function.forall_update_iff s.readers
        (fun j reader => (s.readers j).counts.progress ≤ reader.counts.progress)).mpr
      exact ⟨grows, fun j _ => le_rfl⟩
  · exact ⟨sound, fun _ => le_rfl⟩
  · exact ⟨sound, fun _ => le_rfl⟩
  · exact ⟨sound, fun _ => le_rfl⟩

/-- The entries of `progress` are never more than the messages of the run. -/
theorem Sound.sum_le (sound : Sound split s) : s.sum ≤ cfg.messages := by
  have each : ∀ i, (s.readers i).counts.progress ≤ ((chunks.get i).messages : ℤ) := by
    intro i
    obtain ⟨shown, sent, most⟩ := (sound i).bounded
    omega
  have total : ∑ i, ((chunks.get i).messages : ℤ) = cfg.messages := by
    rw [← split.sum, ← Fin.sum_univ_fun_getElem chunks BenchmarkConfig.messages]
    push_cast
    rfl
  rw [State.sum, ← total]
  exact Finset.sum_le_sum (fun i _ => each i)

/-- What the main loop has printed, and what it knows of the processes. -/
structure Totals (messages : Nat) (s : State path chunks.length) : Prop where
  ordered : s.main.totals.Pairwise (· ≤ ·)
  below : ∀ total ∈ s.main.totals, total ≤ messages
  current : (∀ outcome, s.main.phase ≠ .ended outcome) → ∀ total ∈ s.main.totals, total ≤ s.sum
  polled : ∀ done, s.main.phase = .polled done → done ≤ s.exits
  joining : s.main.phase = .joining → ∀ i, (s.publishers i).exited = true
  ended : ∀ outcome, s.main.phase = .ended outcome →
    outcome = .returned ∧ s.main.totals.getLast? = some (messages : ℤ)

theorem init_totals (messages : Nat) : Totals messages (publishing traceback messages path chunks).init := by
  have none : (publishing traceback messages path chunks).init.main.totals = [] := rfl
  constructor
  · rw [none]
    exact List.Pairwise.nil
  · simp [none]
  · simp [none]
  · simp [publishing]
  · simp [publishing]
  · simp [publishing]

/-- Publishers and readers that go on leave what the main loop knows. -/
theorem Totals.later {messages : Nat} (totals : Totals messages s) (same : t.main = s.main) (grows : s.sum ≤ t.sum)
    (stays : ∀ i, (s.publishers i).exited = true → (t.publishers i).exited = true) : Totals messages t := by
  have exits : s.exits ≤ t.exits := by
    apply Finset.sum_le_sum
    intro i _
    cases before : (s.publishers i).exited with
    | false => exact Nat.zero_le _
    | true => rw [stays i before]
  constructor
  · rw [same]
    exact totals.ordered
  · rw [same]
    exact totals.below
  · rw [same]
    intro running total member
    exact (totals.current running total member).trans grows
  · rw [same]
    intro done phase
    exact (totals.polled done phase).trans exits
  · rw [same]
    intro phase i
    exact stays i (totals.joining phase i)
  · rw [same]
    exact totals.ended

/-- The main loop prints the sum when it has changed, and never a smaller one. -/
theorem Totals.report {messages done : Nat} (totals : Totals messages s) (phase : s.main.phase = .polled done)
    (bounded : s.sum ≤ messages) :
    Totals messages { s with main := s.main.report messages chunks.length done s.sum } := by
  have running : ∀ outcome, s.main.phase ≠ .ended outcome := by
    intro outcome here
    rw [phase] at here
    cases here
  have current := totals.current running
  have printed : (s.main.report messages chunks.length done s.sum).totals = s.main.totals ∨
      (s.main.report messages chunks.length done s.sum).totals = s.main.totals ++ [s.sum] := by
    by_cases changed : (done : ℤ) ≠ s.main.lastDone ∨ s.sum ≠ s.main.lastEnqueued
    · right
      simp [Main.report, Main.totals, changed, TotalPrint.total?]
    · left
      simp only [Main.report, Main.totals, if_neg changed]
  have sorted : (s.main.report messages chunks.length done s.sum).totals.Pairwise (· ≤ ·) ∧
      ∀ total ∈ (s.main.report messages chunks.length done s.sum).totals, total ≤ s.sum := by
    rcases printed with same | more
    · rw [same]
      exact ⟨totals.ordered, current⟩
    · rw [more]
      constructor
      · rw [List.pairwise_append]
        refine ⟨totals.ordered, List.pairwise_singleton _ _, ?_⟩
        intro total member last here
        rw [List.mem_singleton.mp here]
        exact current total member
      · intro total member
        rcases List.mem_append.mp member with earlier | now
        · exact current total earlier
        · exact (List.mem_singleton.mp now).le
  have phases : (s.main.report messages chunks.length done s.sum).phase =
      if done = chunks.length then .joining else .looping := rfl
  refine ⟨sorted.1, fun total member => (sorted.2 total member).trans bounded, fun _ => sorted.2, ?_, ?_, ?_⟩
  · intro other here
    rw [phases] at here
    split_ifs at here
  · intro here
    by_cases all : done = chunks.length
    · exact all_exited (all ▸ totals.polled done phase)
    · rw [phases, if_neg all] at here
      cases here
  · intro outcome here
    rw [phases] at here
    split_ifs at here

/-- The main loop ends with the messages of the run. -/
theorem Totals.finish {messages : Nat} (totals : Totals messages s) :
    Totals messages { s with main := s.main.finish messages .returned } := by
  have printed : (s.main.finish messages .returned).totals = s.main.totals ++ [(messages : ℤ)] := by
    simp [Main.finish, Main.totals, TotalPrint.total?]
  refine ⟨?_, ?_, fun running => absurd rfl (running .returned), by simp [Main.finish], by simp [Main.finish], ?_⟩
  · rw [printed, List.pairwise_append]
    refine ⟨totals.ordered, List.pairwise_singleton _ _, ?_⟩
    intro total member last here
    rw [List.mem_singleton.mp here]
    exact totals.below total member
  · rw [printed]
    intro total member
    rcases List.mem_append.mp member with earlier | now
    · exact totals.below total earlier
    · exact (List.mem_singleton.mp now).le
  · intro outcome here
    cases here
    rw [printed]
    exact ⟨rfl, List.getLast?_concat⟩

/-- Publishers that have all exited have all returned. -/
theorem Sound.returned (sound : Sound split s) :
    publishOutcome traceback (outcomes path chunks s) = .returned := by
  apply publishOutcome_returned
  intro outcome member
  obtain ⟨i, _, present⟩ := List.mem_filterMap.mp member
  exact ((sound i).complete present).1

/-- What is known at every moment of a run. -/
structure Known (past : List (Label path chunks.length)) (s : State path chunks.length) : Prop where
  sound : Sound split s
  totals : Totals cfg.messages s
  sent : ∀ i, (s.publishers i).sent = total (returnsOf i) past

theorem init_known : Known split [] (publishing traceback cfg.messages path chunks).init where
  sound _ := start_linked _ path
  totals := init_totals cfg.messages
  sent _ := rfl

theorem Known.step {past : List (Label path chunks.length)} (known : Known split past s) (clean : a.Clean)
    (stepped : step traceback cfg.messages path chunks s a = some t) : Known split (past ++ [a]) t := by
  obtain ⟨sound, grows⟩ := step_sound split known.sound clean stepped
  have sums : s.sum ≤ t.sum := Finset.sum_le_sum (fun i _ => grows i)
  have paid : ∀ i, returnsOf i a = 0 → (t.publishers i).sent = (s.publishers i).sent →
      (t.publishers i).sent = total (returnsOf i) (past ++ [a]) := by
    intro i nothing same
    rw [total_append, total_single, nothing, same, known.sent i, Nat.add_zero]
  rcases step_cases stepped with ⟨i, b, call, rfl, running, executed, rfl⟩ | ⟨i, rfl, ended, _, rfl⟩ |
    ⟨i, line, rfl, found, rfl⟩ | ⟨rfl, phase, rfl⟩ | ⟨done, rfl, phase, rfl⟩ | ⟨rfl, phase, rfl⟩
  · refine ⟨sound, known.totals.later rfl sums ?_, ?_⟩
    · apply (Function.forall_update_iff s.publishers
        (fun j publisher => (s.publishers j).exited = true → publisher.exited = true)).mpr
      exact ⟨id, fun j _ => id⟩
    · intro j
      by_cases own : j = i
      · subst own
        rw [total_append, total_single, ← known.sent j]
        simp [returnsOf, Publisher.next]
      · apply paid j
        · simp [returnsOf, Ne.symm own]
        · simp [own]
  · refine ⟨sound, known.totals.later rfl sums ?_, ?_⟩
    · apply (Function.forall_update_iff s.publishers
        (fun j publisher => (s.publishers j).exited = true → publisher.exited = true)).mpr
      exact ⟨fun _ => rfl, fun j _ => id⟩
    · intro j
      apply paid j rfl
      by_cases own : j = i
      · subst own
        simp
      · simp [own]
  · exact ⟨sound, known.totals.later rfl sums (fun _ => id), fun j => paid j rfl rfl⟩
  · refine ⟨sound, ?_, fun j => paid j rfl rfl⟩
    have running : ∀ outcome, s.main.phase ≠ .ended outcome := by
      intro outcome here
      rw [phase] at here
      cases here
    obtain ⟨ordered, below, current, _, _, _⟩ := known.totals
    refine ⟨ordered, below, fun _ => current running, ?_, by simp, by simp⟩
    intro done here
    cases here
    exact le_rfl
  · exact ⟨sound, known.totals.report phase (Sound.sum_le split known.sound), fun j => paid j rfl rfl⟩
  · rw [Sound.returned split known.sound] at sound ⊢
    exact ⟨sound, known.totals.finish, fun j => paid j rfl rfl⟩

end

/-- However the messages are split, and whatever the order of the publishers, the readers
    and the main loop while no send fails: no entry of `progress` ever falls, or exceeds
    its chunk or what its publisher had sent when it printed the line read last, and it is
    the chunk when all has been read. The totals printed rise to the messages of the run. -/
theorem publish_progress (traceback : Outcome → String) (cfg : BenchmarkConfig) (path : Path)
    (chunks : List BenchmarkConfig) (split : Split cfg chunks) (trace : List (Label path chunks.length))
    (s : State path chunks.length) (clean : ∀ a ∈ trace, a.Clean)
    (reached : (publishing traceback cfg.messages path chunks).Reaches trace s) :
    (∀ i,
      (∀ a t, a.Clean → (publishing traceback cfg.messages path chunks).step s a = some t →
        (s.readers i).counts.progress ≤ (t.readers i).counts.progress) ∧
      (s.readers i).counts.progress ≤ (chunks.get i).messages ∧
      (s.readers i).counts.progress ≤ lastSent (s.publishers i) (s.readers i) ∧
      lastSent (s.publishers i) (s.readers i) ≤ (s.publishers i).sent ∧
      (s.publishers i).sent = total (returnsOf i) trace ∧
      (∀ outcome, (adapterPublish (chunks.get i) path).result (s.publishers i).call = some outcome →
        (s.readers i).consumed = (s.publishers i).stdout.length →
        (s.readers i).counts.progress = (chunks.get i).messages) ∧
      ((s.readers i).consumed < (s.publishers i).stdout.length →
        ∃ t, (publishing traceback cfg.messages path chunks).step s (.read i) = some t)) ∧
    s.main.totals.Pairwise (· ≤ ·) ∧ (∀ total ∈ s.main.totals, total ≤ cfg.messages) ∧
    (∀ outcome, (publishing traceback cfg.messages path chunks).result s = some outcome →
      outcome = .returned ∧ s.main.totals.getLast? = some (cfg.messages : ℤ)) := by
  have preserved : ∀ past s a t, Known split past s → Label.Clean a →
      step traceback cfg.messages path chunks s a = some t → Known split (past ++ [a]) t :=
    fun _ _ _ _ known clean stepped => known.step split clean stepped
  obtain ⟨sound, totals, sent⟩ := run_allowed (Known split) preserved [] (init_known split) clean reached
  refine ⟨fun i => ?_, totals.ordered, totals.below, ?_⟩
  · obtain ⟨shown, before, most⟩ := (sound i).bounded
    refine ⟨?_, by omega, shown, before, sent i, ?_, ?_⟩
    · intro a t ok stepped
      exact (step_sound split sound ok stepped).2 i
    · intro outcome present
      exact ((sound i).complete present).2
    · exact readable traceback cfg.messages
  · intro outcome present
    cases phase : s.main.phase with
    | ended last =>
      simp only [publishing, phase, Option.some.injEq] at present
      exact present ▸ totals.ended last phase
    | looping | polled _ | joining => simp [publishing, phase] at present

/-- One message, published in bursts. -/
def oneBurst : BenchmarkConfig := { twoMessages with mode := .burst, messages := 1, publishProcesses := 1 }

/-- The labels of its publisher, up to the line of its burst. -/
def burstLabels : List (BurstLabel AsyncPublish.Label) :=
  [.publish (.send 0), .publish (.sent 0), .publish (.leave 0), .publish .gathered, .published]

theorem burstLabels_clean : ∀ b ∈ burstLabels, b.Allowed AsyncPublish.Clean := by
  simp [burstLabels, BurstLabel.Allowed, AsyncPublish.Clean]

/-- Two publishers of one burst each: the first is read while it is running and when it
    is over, and is counted once; of the second only the running progress is read. -/
theorem publish_progress_bursts : ∃ trace s,
    (publishing noTraceback twoMessages.messages .asyncBursts [oneBurst, oneBurst]).Reaches trace s ∧
    (publishing noTraceback twoMessages.messages .asyncBursts [oneBurst, oneBurst]).result s = some .returned ∧
    s.main.totals = [1, 2, 2] ∧ (s.readers 0).counts = ⟨1, 0, 1⟩ ∧ (s.readers 1).counts = ⟨0, 1, 1⟩ ∧
    s.main.totals.Pairwise (· ≤ ·) ∧ s.main.totals.getLast? = some 2 := by
  have valid : Valid oneBurst := ⟨by decide, by decide, by decide, by decide, by decide⟩
  have split : Split twoMessages [oneBurst, oneBurst] := ⟨by decide, by simp [valid], by decide⟩
  let own (i : Fin 2) : List (Label .asyncBursts 2) := burstLabels.map (fun b => .publish i b)
  let trace := own 0 ++ [.read 0, .poll, .total, .read 0] ++ own 1 ++ [.exit 0, .exit 1, .read 1, .poll, .total, .join]
  have ownClean : ∀ i, ∀ a ∈ own i, a.Clean := by
    intro i a member
    obtain ⟨b, inside, rfl⟩ := List.mem_map.mp member
    exact burstLabels_clean b inside
  have clean : ∀ a ∈ trace, a.Clean := by
    intro a member
    simp only [trace, List.mem_append, List.mem_cons, List.not_mem_nil, or_false] at member
    rcases member with ((first | reads) | second) | others
    · exact ownClean 0 a first
    · rcases reads with rfl | rfl | rfl | rfl <;> trivial
    · exact ownClean 1 a second
    · rcases others with rfl | rfl | rfl | rfl | rfl | rfl <;> trivial
  obtain ⟨s, reached, result, totals, first, second⟩ : ∃ s,
      (publishing noTraceback twoMessages.messages .asyncBursts [oneBurst, oneBurst]).Reaches trace s ∧
      (publishing noTraceback twoMessages.messages .asyncBursts [oneBurst, oneBurst]).result s = some .returned ∧
      s.main.totals = [1, 2, 2] ∧ (s.readers 0).counts = ⟨1, 0, 1⟩ ∧ (s.readers 1).counts = ⟨0, 1, 1⟩ :=
    ⟨_, rfl, rfl, rfl, rfl, rfl⟩
  obtain ⟨_, ordered, _, ended⟩ := publish_progress noTraceback twoMessages .asyncBursts [oneBurst, oneBurst] split
    trace s clean reached
  exact ⟨trace, s, reached, result, totals, first, second, ordered, (ended _ result).2⟩

end RepidBench.PublishProgress
