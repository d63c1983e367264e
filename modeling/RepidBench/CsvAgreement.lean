import RepidBench.ResumeThroughput

/-!
The two logs against each other. A run of a latency benchmark is recorded by two
rows in two files, and `--resume` reads the first file only: the logs agree as long
as no session is interrupted between the two rows of an ok run, and no session has
two ok runs of one key.
-/
namespace RepidBench.CsvAgreement
open BufferedLog Decimal ResumeThroughput Sessions Specs

/-- The key, if it is one of a latency benchmark. -/
def latencyKey (key : Key) : Option Key := if isLatency key.framework then some key else none

/-- The key of a measured run of a latency benchmark that is ok. -/
def okLatencyKey (run : Run) : Option Key :=
  if run.task.warmup = false ∧ run.status = "ok" then latencyKey run.task.toKey else none

/-- The key of an ok row in the throughput log, if it is a latency key. -/
def rowLatencyKey (row : ThroughputRow) : Option Key := row.okKey.bind latencyKey

/-- The session leaves its loop after the throughput row of an ok run of a latency
    benchmark, and before the latency row of that run. -/
def HalfRecorded (s : Session) : Prop :=
  let effects := s.current s.leaves.1 s.leaves.2
  effects.filterMap throughputCsv.row ≠ [] ∧ effects.filterMap latencyCsv.row = [] ∧
    ∃ run, s.runs[s.leaves.1]? = some run ∧ okLatencyKey run ≠ none

/-- A session that is not killed, that has one ok run of a latency key at most, and
    that is not interrupted between the two rows of such a run. -/
structure Recording (s : Session) : Prop where
  survives : ∀ point, s.ending ≠ .killed point
  measured : OkMeasured s
  once : (s.runs.filterMap okLatencyKey).Nodup
  whole : ¬ HalfRecorded s

theorem latencyKey_eq_some {key other : Key} : latencyKey key = some other ↔ key = other ∧ isLatency key.framework := by
  unfold latencyKey
  split
  · rename_i latency
    simp [latency]
  · rename_i latency
    simp [latency]

theorem rowLatencyKey_eq_some {row : ThroughputRow} {key : Key} :
    rowLatencyKey row = some key ↔ row.okKey = some key ∧ isLatency key.framework := by
  simp only [rowLatencyKey, Option.bind_eq_some_iff, latencyKey_eq_some]
  constructor
  · rintro ⟨k, ok, rfl, latency⟩
    exact ⟨ok, latency⟩
  · rintro ⟨ok, latency⟩
    exact ⟨key, ok, rfl, latency⟩

section
variable {s : Session} {files : Files}

theorem throughputRecord_key (args : Args) (run : Run) :
    (run.throughputRecord args).bind rowLatencyKey = okLatencyKey run := by
  cases warmup : run.task.warmup with
  | true => simp [Run.throughputRecord, okLatencyKey, warmup]
  | false =>
    by_cases ok : run.status = "ok"
    · simp [Run.throughputRecord, okLatencyKey, warmup, rowLatencyKey, ThroughputRow.okKey, Run.throughputRow, ok]
    · simp [Run.throughputRecord, okLatencyKey, warmup, rowLatencyKey, ThroughputRow.okKey, Run.throughputRow, ok]

theorem latencyRecord_key {args : Args} {run : Run} (listed : run.task.framework ∈ args.frameworks) :
    (run.latencyRecord args).bind LatencyRow.okKey = okLatencyKey run := by
  cases warmup : run.task.warmup with
  | true => simp [Run.latencyRecord, okLatencyKey, warmup]
  | false =>
    by_cases ok : run.status = "ok"
    · by_cases latency : isLatency run.task.framework
      · simp [Run.latencyRecord, okLatencyKey, latencyKey, warmup, ok, latency, listed, LatencyRow.okKey,
          Run.latencyRow]
      · simp [Run.latencyRecord, okLatencyKey, latencyKey, warmup, ok, latency]
    · by_cases latency : isLatency run.task.framework
      · simp [Run.latencyRecord, okLatencyKey, warmup, ok, latency, LatencyRow.okKey, Run.failedLatencyRow]
      · simp [Run.latencyRecord, okLatencyKey, warmup, ok, latency]

/-- In the body of the loop the throughput row is written before the latency row. -/
theorem row_before_latency (args : Args) (run : Run) (within : Nat) :
    ((run.effects args).take within).filterMap latencyCsv.row = [] ∨
    ((run.effects args).take within).filterMap throughputCsv.row = (run.throughputRecord args).toList := by
  cases warmup : run.task.warmup with
  | true =>
    right
    rw [warmup_row warmup within]
    simp [Run.throughputRecord, warmup]
  | false =>
    have split : run.effects args = (beforeRow args run ++ [.throughput (.write (.row (run.throughputRow args)))]) ++
        (Effect.throughput .flush :: run.latencyEffects args) := by
      simp [effects_split warmup, fromRow]
    have whole := throughputCsv.effects_row args run
    rw [split] at whole ⊢
    have later : (beforeRow args run ++ [Effect.throughput (.write (.row (run.throughputRow args)))]).filterMap
        latencyCsv.row = [] := by
      unfold beforeRow
      cases run.keptThroughput <;> rfl
    have earlier : (Effect.throughput .flush :: run.latencyEffects args).filterMap throughputCsv.row = [] := by
      have ignored := run.latencyEffects_ignored throughputCsv.row args (fun _ _ _ => rfl) (fun _ => rfl)
      rw [List.filterMap_cons_none rfl, ignored]
    have record : (run.throughputRecord args).toList = (throughputCsv.record args run).toList := rfl
    rw [record, ← whole]
    exact take_ordered later earlier within

/-! ## The rows of a session -/

theorem listed (admissible : s.Admissible files) : ∀ run ∈ s.runs, run.task.framework ∈ s.args.frameworks := by
  intro run member
  have inTasks := admissible.order.perm.mem_iff.mp (List.mem_map_of_mem member)
  exact List.contains_iff_mem.mp (Bool.and_eq_true_iff.mp (mem_tasks.mp inTasks).1).1

theorem toList_filterMap {α β : Type} (x : Option α) (f : α → Option β) :
    x.toList.filterMap f = (x.bind f).toList := by
  cases x with
  | none => rfl
  | some a => cases own : f a <;> simp [own]

/-- For the run in which the session leaves the loop, both rows are written or none,
    as far as they are those of an ok run of a latency benchmark. -/
theorem current_agrees (admissible : s.Admissible files) (recording : Recording s) :
    ((s.current s.leaves.1 s.leaves.2).filterMap latencyCsv.row).filterMap LatencyRow.okKey =
      ((s.current s.leaves.1 s.leaves.2).filterMap throughputCsv.row).filterMap rowLatencyKey := by
  cases found : s.runs[s.leaves.1]? with
  | none => simp [Session.current, found]
  | some run =>
    have current : s.current s.leaves.1 s.leaves.2 = (run.effects s.args).take s.leaves.2 := by
      simp [Session.current, found]
    have row := Session.current_filterMap throughputCsv.row (throughputCsv.record s.args)
      (throughputCsv.effects_row s.args) s.leaves.1 s.leaves.2
    have latencyRow := Session.current_filterMap latencyCsv.row (latencyCsv.record s.args)
      (latencyCsv.effects_row s.args) s.leaves.1 s.leaves.2
    rw [found, Option.bind_some] at row latencyRow
    by_cases notWritten : (s.current s.leaves.1 s.leaves.2).filterMap latencyCsv.row = []
    · rw [notWritten]
      by_cases noRow : (s.current s.leaves.1 s.leaves.2).filterMap throughputCsv.row = []
      · rw [noRow]
        rfl
      · -- only the throughput row is written, so it is not that of an ok latency run
        have other : okLatencyKey run = none := by
          by_contra isOk
          exact recording.whole ⟨noRow, notWritten, run, found, isOk⟩
        rw [row.resolve_left noRow, toList_filterMap]
        exact (congrArg Option.toList ((throughputRecord_key s.args run).trans other)).symm
    · have first := (row_before_latency s.args run s.leaves.2).resolve_left (by rwa [← current])
      have keys := (latencyRecord_key (listed admissible run (List.mem_of_getElem? found))).trans
        (throughputRecord_key s.args run).symm
      rw [latencyRow.resolve_left notWritten, current, first, toList_filterMap, toList_filterMap]
      exact congrArg Option.toList keys

/-- The keys of the ok rows that a session writes to the two logs. -/
theorem rows_agree (admissible : s.Admissible files) (recording : Recording s) :
    (latencyCsv.rows s s.leaves.1 s.leaves.2).filterMap LatencyRow.okKey =
      (throughputCsv.rows s s.leaves.1 s.leaves.2).filterMap rowLatencyKey := by
  have finished : ((s.runs.take s.leaves.1).filterMap (Run.latencyRecord s.args)).filterMap LatencyRow.okKey =
      ((s.runs.take s.leaves.1).filterMap (Run.throughputRecord s.args)).filterMap rowLatencyKey := by
    rw [List.filterMap_filterMap, List.filterMap_filterMap]
    apply List.filterMap_congr
    intro run member
    rw [throughputRecord_key, latencyRecord_key (listed admissible run (List.mem_of_mem_take member))]
  rw [Csv.rows, Csv.rows,
    Session.loop_filterMap latencyCsv.row (latencyCsv.record s.args) (latencyCsv.effects_row s.args),
    Session.loop_filterMap throughputCsv.row (throughputCsv.record s.args) (throughputCsv.effects_row s.args),
    List.filterMap_append, List.filterMap_append, current_agrees admissible recording]
  exact congrArg (· ++ _) finished

/-! ## Sequences of sessions -/

/-- What the two logs keep. -/
structure Agreed (rows : List ThroughputRow) (latencyRows : List LatencyRow) : Prop where
  measured : Measured rows
  same : latencyRows.filterMap LatencyRow.okKey = rows.filterMap rowLatencyKey
  once : (rows.filterMap rowLatencyKey).Nodup

theorem Agreed.grows {old : List ThroughputRow} {oldLatency : List LatencyRow} (agreed : Agreed old oldLatency)
    (recording : Recording s) (admissible : s.Admissible files)
    (holds : s.args.resume = true → Holds old files.throughput) :
    Agreed (continued s.args.resume old ++ throughputCsv.rows s s.leaves.1 s.leaves.2)
      (continued s.args.resume oldLatency ++ latencyCsv.rows s s.leaves.1 s.leaves.2) := by
  have inside := rows_inside s s.leaves.1 s.leaves.2
  refine ⟨agreed.measured.grows recording.measured inside, ?_, ?_⟩
  · rw [List.filterMap_append, List.filterMap_append, rows_agree admissible recording]
    cases s.args.resume
    · rfl
    · exact congrArg (· ++ _) agreed.same
  · have before : ((continued s.args.resume old).filterMap rowLatencyKey).Nodup := by
      cases s.args.resume
      · exact List.nodup_nil
      · exact agreed.once
    have all : (s.runs.filterMap (Run.throughputRecord s.args)).filterMap rowLatencyKey =
        s.runs.filterMap okLatencyKey := by
      rw [List.filterMap_filterMap]
      exact List.filterMap_congr (fun run _ => throughputRecord_key s.args run)
    have written := inside.filterMap rowLatencyKey
    rw [List.filterMap_append]
    refine List.Nodup.append before (written.nodup (all ▸ recording.once)) ?_
    intro key known new
    have okKey : ∀ {rows : List ThroughputRow}, key ∈ rows.filterMap rowLatencyKey →
        key ∈ rows.filterMap ThroughputRow.okKey := by
      intro rows member
      obtain ⟨row, inRows, own⟩ := List.mem_filterMap.mp member
      exact List.mem_filterMap.mpr ⟨row, inRows, (rowLatencyKey_eq_some.mp own).1⟩
    exact record_fresh admissible holds agreed.measured (okKey (written.subset new)) (okKey known)

theorem history_agreed {files : Files} (history : History (fun _ s => Recording s) files) :
    ∃ rows latencyRows, Holds rows files.throughput ∧ Holds latencyRows files.latency ∧ Agreed rows latencyRows := by
  induction history with
  | start =>
    exact ⟨[], [], ⟨rfl, .inl ⟨rfl, rfl⟩⟩, ⟨rfl, .inl ⟨rfl, rfl⟩⟩, List.forall_mem_nil _, rfl, List.nodup_nil⟩
  | next _ admissible recording ih =>
    obtain ⟨rows, latencyRows, holds, holdsLatency, agreed⟩ := ih
    rw [leftFiles_closed recording.survives]
    exact ⟨_, _, throughputCsv.closed_holds (fun _ => holds), latencyCsv.closed_holds (fun _ => holdsLatency),
      agreed.grows recording admissible (fun _ => holds)⟩

/-- In every sequence of sessions that record whole runs, the two logs have the same
    ok rows of latency keys, one for each key at most, and `--resume` skips no latency
    key that the latency log lacks. -/
theorem logs_agree {files : Files} (history : History (fun _ s => Recording s) files) :
    (∀ key, isLatency key.framework →
      (csvRows files.latency).countP (fun row => row.okKey = some key) =
        (csvRows files.throughput).countP (fun row => row.okKey = some key) ∧
      (csvRows files.throughput).countP (fun row => row.okKey = some key) ≤ 1) ∧
    ∀ s : Session, s.Admissible files → ∀ key ∈ s.loaded.skipSet, isLatency key.framework →
      (csvRows files.latency).countP (fun row => row.okKey = some key) = 1 := by
  obtain ⟨rows, latencyRows, holds, holdsLatency, agreed⟩ := history_agreed history
  rw [holds.csvRows, holdsLatency.csvRows]
  have counts : ∀ key, isLatency key.framework →
      latencyRows.countP (fun row => row.okKey = some key) = rows.countP (fun row => row.okKey = some key) ∧
      rows.countP (fun row => row.okKey = some key) ≤ 1 := by
    intro key latency
    have latencyCount : latencyRows.countP (fun row => row.okKey = some key) =
        (rows.filterMap rowLatencyKey).count key := by
      rw [← agreed.same, List.count_filterMap]
      simp [beq_eq_decide]
    have count : rows.countP (fun row => row.okKey = some key) = (rows.filterMap rowLatencyKey).count key := by
      rw [List.count_filterMap]
      apply List.countP_congr
      intro row _
      simp [rowLatencyKey_eq_some, latency]
    rw [latencyCount, count]
    exact ⟨rfl, List.nodup_iff_count_le_one.mp agreed.once key⟩
  refine ⟨counts, ?_⟩
  intro s admissible key skipped latency
  obtain ⟨same, most⟩ := counts key latency
  rw [admissible.loaded_eq (fun _ => holds), (agreed.measured.continued s.args.resume).skipSet] at skipped
  have known : key ∈ rows.filterMap ThroughputRow.okKey := by
    cases resume : s.args.resume
    · simp [resume, continued] at skipped
    · simpa [resume, continued] using skipped
  obtain ⟨row, inRows, ok⟩ := List.mem_filterMap.mp known
  have positive : 0 < rows.countP (fun row => row.okKey = some key) :=
    List.countP_pos_iff.mpr ⟨row, inRows, by simpa using ok⟩
  omega

end

/-! ## An interruption after both rows, and one between them -/

def latencyArgs (resume : Bool) : Args := oneCell resume "repid_latency" 2

/-- A session with two latency runs that is interrupted in its first or second one. -/
def interruptedAt (finished within : Nat) : Session where
  args := latencyArgs false
  loaded := loadRows (latencyArgs false) []
  runs := [okRun "repid_latency" 1 100, okRun "repid_latency" 2 110]
  ending := .interrupted finished within

/-- The session that resumes it, which runs the second task only. -/
def resumedRest : Session where
  args := latencyArgs true
  loaded := loadRows (latencyArgs true) [(okRun "repid_latency" 1 100).throughputRow (latencyArgs false)]
  runs := [okRun "repid_latency" 2 110]
  ending := .completed

theorem interruptedAt_measured (finished within : Nat) : OkMeasured (interruptedAt finished within) := by
  intro run member _ _
  simp only [interruptedAt, List.mem_cons, List.not_mem_nil, or_false] at member
  rcases member with rfl | rfl
  · exact ⟨100, rfl, rounded_ofNat 2 100⟩
  · exact ⟨110, rfl, rounded_ofNat 2 110⟩

theorem logs_agree_interrupted :
    let files := (interruptedAt 1 0).leftFiles .absent
    (csvRows files.latency).countP (fun row => row.okKey = some ⟨⟨"repid_latency", 1⟩, 1⟩) =
      (csvRows files.throughput).countP (fun row => row.okKey = some ⟨⟨"repid_latency", 1⟩, 1⟩) := by
  have recording : Recording (interruptedAt 1 0) := by
    refine ⟨by rintro _ ⟨⟩, interruptedAt_measured 1 0, by decide +kernel, ?_⟩
    rintro ⟨written, -⟩
    exact written rfl
  have history : History (fun _ s => Recording s) ((interruptedAt 1 0).leftFiles .absent) :=
    .next .start ⟨rfl, .inl rfl⟩ recording
  exact ((logs_agree history).1 ⟨⟨"repid_latency", 1⟩, 1⟩ (by decide +kernel)).1

/-- After an interruption between the two rows of a run, the resumed session skips the
    run, and its latency row is missing for ever. -/
theorem interrupted_between_rows :
    let half := interruptedAt 0 6
    let files := resumedRest.leftFiles (half.leftFiles .absent)
    half.Admissible .absent ∧ half.args.resume = false ∧ OkMeasured half ∧ half.args.Distinct ∧
    resumedRest.Admissible (half.leftFiles .absent) ∧ resumedRest.args.resume = true ∧ resumedRest.ending = .completed ∧
    ⟨⟨"repid_latency", 1⟩, 1⟩ ∈ resumedRest.loaded.skipSet ∧
    (csvRows files.throughput).countP (fun row => row.okKey = some ⟨⟨"repid_latency", 1⟩, 1⟩) = 1 ∧
    (csvRows files.latency).countP (fun row => row.okKey = some ⟨⟨"repid_latency", 1⟩, 1⟩) = 0 := by
  have left : ((interruptedAt 0 6).leftFiles .absent).throughput.durable = some [.header,
      .row ((okRun "repid_latency" 1 100).throughputRow (latencyArgs false))] := by decide +kernel
  refine ⟨⟨rfl, .inl rfl⟩, rfl, interruptedAt_measured 0 6, oneCell_distinct _ _ _, ⟨?_, .inl (by decide +kernel)⟩,
    rfl, rfl, by decide +kernel, by decide +kernel, by decide +kernel⟩
  simp only [Session.resumeRows, left]
  rfl

end RepidBench.CsvAgreement
