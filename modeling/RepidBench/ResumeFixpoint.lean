import RepidBench.ResumeThroughput

/-!
What resuming leads to. The keys that a log lacks are those that the next session with
`--resume` measures. A session that is completed leaves out exactly those that it ran
ok, so they get fewer; once there is none, every later session that resumes measures
nothing, leaves the rows as they are, and shows the results of the log.
-/
namespace RepidBench.ResumeFixpoint
open BufferedLog Decimal ResumeThroughput Sessions

/-! ## Missing keys -/

/-- The arguments ask for the key, and the rows have no ok run of it. -/
structure Missing (args : Args) (rows : List ThroughputRow) (key : Key) : Prop where
  inRange : args.InRange key
  messages : args.messagesFor key.framework key.sleepTime ≠ none
  notOk : ∀ row ∈ rows, row.okKey ≠ some key

/-- The arguments ask for the same keys, and give them the same numbers of messages. -/
structure SameRange (args other : Args) : Prop where
  frameworks : other.frameworks = args.frameworks
  sleepTimes : other.sleepTimes = args.sleepTimes
  runs : other.runs = args.runs
  messagesFor : other.messagesFor = args.messagesFor

section
variable {args other : Args} {rows more : List ThroughputRow} {key : Key}

theorem missing_append : Missing args (rows ++ more) key ↔ Missing args rows key ∧ ∀ row ∈ more, row.okKey ≠ some key := by
  constructor
  · rintro ⟨inRange, messages, notOk⟩
    exact ⟨⟨inRange, messages, fun row member => notOk row (List.mem_append_left more member)⟩,
      fun row member => notOk row (List.mem_append_right rows member)⟩
  · rintro ⟨⟨inRange, messages, before⟩, after⟩
    refine ⟨inRange, messages, fun row member => ?_⟩
    rcases List.mem_append.mp member with old | new
    · exact before row old
    · exact after row new

theorem SameRange.sleepTimesFor (same : SameRange args other) (name : String) :
    other.sleepTimesFor name = args.sleepTimesFor name := by
  rw [Args.sleepTimesFor, Args.sleepTimesFor, same.sleepTimes]

theorem SameRange.hasCell (same : SameRange args other) (cell : Cell) : other.hasCell cell = args.hasCell cell := by
  rw [Args.hasCell, Args.hasCell, same.frameworks, same.sleepTimesFor]

theorem SameRange.missing (same : SameRange args other) : Missing other rows key ↔ Missing args rows key := by
  have inRange : other.InRange key ↔ args.InRange key := by
    rw [Args.InRange, Args.InRange, same.frameworks, same.sleepTimesFor, same.runs]
  constructor
  · rintro ⟨own, messages, notOk⟩
    exact ⟨inRange.mp own, same.messagesFor ▸ messages, notOk⟩
  · rintro ⟨own, messages, notOk⟩
    exact ⟨inRange.mpr own, same.messagesFor ▸ messages, notOk⟩

end

/-! ## One session -/

/-- A session that is not killed, and whose ok runs have a throughput. -/
structure Measuring (s : Session) : Prop where
  survives : ∀ point, s.ending ≠ .killed point
  measured : OkMeasured s

section
variable {s : Session} {files : Files} {old : List ThroughputRow}

theorem left_rows (measuring : Measuring s) (holds : s.args.resume = true → Holds old files.throughput) :
    csvRows (s.leftFiles files).throughput =
      continued s.args.resume old ++ throughputCsv.rows s s.leaves.1 s.leaves.2 := by
  rw [leftFiles_closed measuring.survives]
  exact (throughputCsv.closed_holds holds).csvRows

/-- A session measures what its log lacks. -/
theorem measured_iff_missing (admissible : s.Admissible files)
    (holds : s.args.resume = true → Holds old files.throughput) (measured : Measured old) {key : Key} :
    (⟨key, false⟩ : Task) ∈ s.runs.map Run.task ↔ Missing s.args (continued s.args.resume old) key := by
  have listed : (⟨key, false⟩ : Task) ∈ s.runs.map Run.task ↔ key ∈ (s.runs.map Run.task).filterMap Task.measuredKey := by
    simp [List.mem_filterMap, measuredKey_eq_some]
  rw [listed, ((scheduled admissible holds measured).filterMap Task.measuredKey).mem_iff, mem_measuredKeys]
  constructor
  · rintro ⟨inRange, messages, absent⟩
    exact ⟨inRange, messages, fun row member ok => absent (List.mem_filterMap.mpr ⟨row, member, ok⟩)⟩
  · rintro ⟨inRange, messages, notOk⟩
    refine ⟨inRange, messages, fun present => ?_⟩
    obtain ⟨row, member, ok⟩ := List.mem_filterMap.mp present
    exact notOk row member ok

/-- The ok rows of a completed session are those of its ok runs. -/
theorem completed_okKey (completed : s.ending = .completed) (key : Key) :
    (∀ row ∈ throughputCsv.rows s s.leaves.1 s.leaves.2, row.okKey ≠ some key) ↔
      ∀ run ∈ s.runs, run.task = ⟨key, false⟩ → run.status ≠ "ok" := by
  have rows : throughputCsv.rows s s.leaves.1 s.leaves.2 = s.runs.filterMap (Run.throughputRecord s.args) := by
    rw [Csv.rows, Session.loop_filterMap throughputCsv.row (throughputCsv.record s.args) (throughputCsv.effects_row s.args)]
    simp [Session.leaves, Session.current, completed]
    rfl
  rw [rows]
  constructor
  · intro none run member task ok
    refine none (run.throughputRow s.args) (List.mem_filterMap.mpr ⟨run, member, ?_⟩) ?_
    · rw [Run.throughputRecord, task]
      rfl
    · rw [ThroughputRow.okKey, Run.throughputRow, ok, task]
      rfl
  · intro notOk row member okKey
    obtain ⟨run, inRuns, written⟩ := List.mem_filterMap.mp member
    rw [Run.throughputRecord] at written
    split_ifs at written with warmup
    obtain rfl := Option.some.inj written
    rw [ThroughputRow.okKey] at okKey
    split_ifs at okKey with ok
    refine notOk run inRuns ?_ ok
    obtain ⟨⟨own, measured⟩, result⟩ := run
    obtain rfl : own = key := Option.some.inj okKey
    simp only [Bool.not_eq_true] at warmup
    rw [show measured = false from warmup]

/-- Without a missing key a session writes no row. -/
theorem rows_of_none_missing (admissible : s.Admissible files)
    (holds : s.args.resume = true → Holds old files.throughput) (measured : Measured old)
    (none : ∀ key, ¬Missing s.args (continued s.args.resume old) key) :
    (∀ run ∈ s.runs, run.task.warmup = true) ∧ throughputCsv.rows s s.leaves.1 s.leaves.2 = [] := by
  have warmups : ∀ run ∈ s.runs, run.task.warmup = true := by
    intro run member
    by_contra measuredRun
    rw [Bool.not_eq_true] at measuredRun
    refine none run.task.toKey ((measured_iff_missing admissible holds measured).mp (List.mem_map.mpr ⟨run, member, ?_⟩))
    exact congrArg (Task.mk run.task.toKey) measuredRun
  refine ⟨warmups, List.sublist_nil.mp ?_⟩
  have nothing : s.runs.filterMap (Run.throughputRecord s.args) = [] :=
    List.filterMap_eq_nil_iff.mpr (fun run member => by rw [Run.throughputRecord, if_pos (warmups run member)])
  rw [← nothing]
  exact rows_inside s _ _

/-- Warm-ups keep nothing. -/
theorem unlogged_warmups (warmups : ∀ run ∈ s.runs, run.task.warmup = true) : unlogged s = [] := by
  have kept : (s.current s.leaves.1 s.leaves.2).filterMap Effect.kept = [] := by
    unfold Session.current
    cases found : s.runs[s.leaves.1]? with
    | none => rfl
    | some run =>
      have none : run.keptItem = none := if_pos (warmups run (List.mem_of_getElem? found))
      have inside := (List.take_prefix s.leaves.2 (run.effects s.args)).filterMap Effect.kept
      rw [effects_kept, none] at inside
      exact List.prefix_nil.mp inside
  simp [unlogged, kept]

end

/-! ## Sessions that resume -/

/-- The log that such sessions leave: its ok rows have a throughput. -/
theorem history_measured {files : Files} (history : History (fun _ s => Measuring s) files) :
    ∃ rows, Holds rows files.throughput ∧ Measured rows := by
  induction history with
  | start => exact ⟨[], ⟨rfl, .inl ⟨rfl, rfl⟩⟩, List.forall_mem_nil _⟩
  | next _ _ measuring ih =>
    obtain ⟨rows, holds, measured⟩ := ih
    rw [leftFiles_closed measuring.survives]
    exact ⟨_, throughputCsv.closed_holds (fun _ => holds), measured.grows measuring.measured (rows_inside _ _ _)⟩

/-- The files after some sessions that resume for the same keys. -/
inductive Resumes (args : Args) (files : Files) : Files → Prop
  | refl : Resumes args files files
  | next {after : Files} {t : Session} (before : Resumes args files after) (admissible : t.Admissible after)
      (measuring : Measuring t) (resume : t.args.resume = true) (range : SameRange args t.args) :
      Resumes args files (t.leftFiles after)

section
variable {args : Args} {files after : Files}

theorem Resumes.history (resumes : Resumes args files after) (history : History (fun _ s => Measuring s) files) :
    History (fun _ s => Measuring s) after := by
  induction resumes with
  | refl => exact history
  | next _ admissible measuring _ _ ih => exact .next ih admissible measuring

/-- What one more session that resumes does with the rows. -/
theorem resumed_rows (history : History (fun _ s => Measuring s) after) {t : Session} (measuring : Measuring t)
    (resume : t.args.resume = true) :
    csvRows (t.leftFiles after).throughput = csvRows after.throughput ++ throughputCsv.rows t t.leaves.1 t.leaves.2 := by
  obtain ⟨old, holds, -⟩ := history_measured history
  rw [left_rows measuring (fun _ => holds), holds.csvRows, resume]
  rfl

/-- Keys are never missing again. -/
theorem Resumes.missing (resumes : Resumes args files after) (history : History (fun _ s => Measuring s) files) {key : Key}
    (missing : Missing args (csvRows after.throughput) key) : Missing args (csvRows files.throughput) key := by
  induction resumes with
  | refl => exact missing
  | next before _ measuring resume _ ih =>
    rw [resumed_rows (before.history history) measuring resume] at missing
    exact ih (missing_append.mp missing).1

/-- A log that lacks nothing stays as it is. -/
theorem Resumes.rows (resumes : Resumes args files after) (history : History (fun _ s => Measuring s) files)
    (none : ∀ key, ¬Missing args (csvRows files.throughput) key) :
    csvRows after.throughput = csvRows files.throughput := by
  induction resumes with
  | refl => rfl
  | next before admissible measuring resume range ih =>
    obtain ⟨old, holds, measured⟩ := history_measured (before.history history)
    have nothing := rows_of_none_missing admissible (fun _ => holds) measured (fun key missing => by
      rw [resume, ← holds.csvRows, ih] at missing
      exact none key (range.missing.mp missing))
    rw [resumed_rows (before.history history) measuring resume, nothing.2, List.append_nil, ih]

end

/-- Over every sequence of sessions that are completed or interrupted: a session that is
    completed leaves missing what was missing and did not run ok; a later session that
    resumes measures exactly what is missing; and when nothing is, then after any number
    of sessions that resume the rows are the same, and the next one runs no measured
    task and shows the throughputs of the log. -/
theorem resume_converges {files : Files} (history : History (fun _ s => Measuring s) files) {s : Session}
    (admissible : s.Admissible files) (measuring : Measuring s) :
    let left := csvRows (s.leftFiles files).throughput
    (s.ending = .completed → ∀ key, Missing s.args left key ↔
      Missing s.args (continued s.args.resume (csvRows files.throughput)) key ∧
        ∀ run ∈ s.runs, run.task = ⟨key, false⟩ → run.status ≠ "ok") ∧
    ∀ after, Resumes s.args (s.leftFiles files) after → ∀ t : Session, t.Admissible after → Measuring t →
      t.args.resume = true → SameRange s.args t.args →
      (∀ key, (⟨key, false⟩ : Task) ∈ t.runs.map Run.task ↔ Missing s.args (csvRows after.throughput) key) ∧
      (∀ key, Missing s.args (csvRows after.throughput) key → Missing s.args left key) ∧
      ((∀ key, ¬Missing s.args left key) → csvRows after.throughput = left ∧ csvRows (t.leftFiles after).throughput = left ∧
        (∀ run ∈ t.runs, run.task.warmup = true) ∧
        ∀ cell, s.args.hasCell cell → (t.closed after).throughputResults cell = okThroughputs cell left) := by
  obtain ⟨old, holds, -⟩ := history_measured history
  have later : History (fun _ s => Measuring s) (s.leftFiles files) := .next history admissible measuring
  refine ⟨fun completed key => ?_, fun after resumes t fits measuringT resume range => ?_⟩
  · rw [left_rows measuring (fun _ => holds), missing_append, completed_okKey completed, holds.csvRows]
  · obtain ⟨rows, holdsAfter, measured⟩ := history_measured (resumes.history later)
    have measures : ∀ key, (⟨key, false⟩ : Task) ∈ t.runs.map Run.task ↔ Missing s.args (csvRows after.throughput) key := by
      intro key
      rw [measured_iff_missing fits (fun _ => holdsAfter) measured, resume, holdsAfter.csvRows]
      exact range.missing
    refine ⟨measures, fun key missing => resumes.missing later missing, fun none => ?_⟩
    have same := resumes.rows later none
    have nothing := rows_of_none_missing fits (fun _ => holdsAfter) measured (fun key missing => by
      rw [resume, ← holdsAfter.csvRows, same] at missing
      exact none key (range.missing.mp missing))
    have leftT : csvRows (t.leftFiles after).throughput = csvRows (s.leftFiles files).throughput := by
      rw [resumed_rows (resumes.history later) measuringT resume, nothing.2, List.append_nil, same]
    refine ⟨same, leftT, nothing.1, fun cell inside => ?_⟩
    rw [closed_results measuringT.measured fits (fun _ => holdsAfter) ((range.hasCell cell).trans inside),
      unlogged_warmups nothing.1, ← leftFiles_closed measuringT.survives, leftT]
    exact List.append_nil _

/-- A session of two ok runs. -/
def completedTwo : Session := { interruptedBetween with ending := .completed }

/-- A session that resumes it, with a warm-up. -/
def resumedWarmup : Session where
  args := { oneCell true "repid" 2 with warmupRuns := 1 }
  loaded := loadRows { oneCell true "repid" 2 with warmupRuns := 1 }
    [(okRun "repid" 1 100).throughputRow (oneCell false "repid" 2), (okRun "repid" 2 110).throughputRow (oneCell false "repid" 2)]
  runs := [⟨⟨⟨⟨"repid", 1⟩, 1⟩, true⟩, none⟩]
  ending := .completed

theorem completedTwo_measuring : Measuring completedTwo := by
  refine ⟨by rintro _ ⟨⟩, ?_⟩
  intro run member _ _
  simp only [completedTwo, interruptedBetween, List.mem_cons, List.not_mem_nil, or_false] at member
  rcases member with rfl | rfl
  · exact ⟨100, rfl, rounded_ofNat 2 100⟩
  · exact ⟨110, rfl, rounded_ofNat 2 110⟩

theorem resumedWarmup_admissible : resumedWarmup.Admissible (completedTwo.leftFiles .absent) := by
  have left : (completedTwo.leftFiles .absent).throughput.durable = some [.header,
      .row ((okRun "repid" 1 100).throughputRow (oneCell false "repid" 2)),
      .row ((okRun "repid" 2 110).throughputRow (oneCell false "repid" 2))] := by decide +kernel
  refine ⟨?_, .inl (by decide +kernel)⟩
  simp only [Session.resumeRows, left]
  rfl

theorem resume_converges_two :
    (resumedWarmup.closed (completedTwo.leftFiles .absent)).throughputResults ⟨"repid", 1⟩ = [100, 110] := by
  obtain ⟨completed, later⟩ := resume_converges .start ⟨rfl, .inl rfl⟩ completedTwo_measuring
  have none : ∀ key, ¬Missing completedTwo.args (csvRows (completedTwo.leftFiles .absent).throughput) key := by
    intro key missing
    obtain ⟨⟨inRange, messages, -⟩, notOk⟩ := (completed rfl key).mp missing
    obtain ⟨⟨framework, sleepTime⟩, run⟩ := key
    obtain ⟨inFrameworks, inTimes, low, high⟩ := inRange
    obtain rfl : framework = "repid" := List.mem_singleton.mp inFrameworks
    obtain rfl : sleepTime = 1 := List.mem_singleton.mp inTimes
    have above : 1 ≤ run := low
    have below : (run : ℤ) ≤ 2 := high
    obtain rfl | rfl : run = 1 ∨ run = 2 := by omega
    · exact notOk (okRun "repid" 1 100) List.mem_cons_self rfl rfl
    · exact notOk (okRun "repid" 2 110) (List.mem_cons_of_mem _ List.mem_cons_self) rfl rfl
  have measuring : Measuring resumedWarmup := by
    refine ⟨by rintro _ ⟨⟩, ?_⟩
    intro run member measured
    obtain rfl := List.mem_singleton.mp member
    cases measured
  obtain ⟨-, -, fixed⟩ := later _ .refl resumedWarmup resumedWarmup_admissible measuring rfl ⟨rfl, rfl, rfl, rfl⟩
  rw [(fixed none).2.2.2 ⟨"repid", 1⟩ (by decide +kernel)]
  decide +kernel

end RepidBench.ResumeFixpoint
