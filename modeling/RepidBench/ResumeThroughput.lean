import RepidBench.TaskList

/-!
The throughput log and the results in memory, over sessions that resume each other:
a key is ok at most once in the log, the tasks of a session are those that the log
does not have, and the results are the throughputs in the log, up to the one value
that is appended just before an interruption.
-/
namespace RepidBench.ResumeThroughput
open BufferedLog Decimal Sessions

/-- The ok runs of a session have a throughput, with two decimals. -/
def OkMeasured (s : Session) : Prop :=
  ∀ run ∈ s.runs, run.task.warmup = false → run.status = "ok" →
    ∃ value, run.throughput = some value ∧ rounded 2 value = value

/-- A session that is not killed, whose arguments name nothing twice. -/
structure Orderly (s : Session) : Prop where
  survives : ∀ point, s.ending ≠ .killed point
  distinct : s.args.Distinct
  measured : OkMeasured s

/-- The ok rows have a throughput. -/
def Measured (rows : List ThroughputRow) : Prop :=
  ∀ row ∈ rows, row.status = "ok" → row.throughputMsgPerSec ≠ none

theorem Measured.continued {rows : List ThroughputRow} (measured : Measured rows) (resume : Bool) :
    Measured (continued resume rows) := by
  cases resume
  · exact List.forall_mem_nil _
  · exact measured

/-- All ok rows are skipped. -/
theorem Measured.skipSet {rows : List ThroughputRow} (measured : Measured rows) (args : Args) :
    (loadRows args rows).skipSet = rows.filterMap ThroughputRow.okKey := by
  rw [loadRows_skipSet]
  apply List.filterMap_congr
  intro row member
  by_cases ok : row.status = "ok"
  · obtain ⟨value, found⟩ := Option.ne_none_iff_exists'.mp (measured row member ok)
    simp [ThroughputRow.okThroughput, ThroughputRow.okKey, ok, found]
  · simp [ThroughputRow.okThroughput, ThroughputRow.okKey, ok]

/-- What the log keeps: ok rows have a throughput, and different keys. -/
structure OkLogged (rows : List ThroughputRow) : Prop where
  measured : Measured rows
  once : (rows.filterMap ThroughputRow.okKey).Nodup

theorem filterMap_fewer {α β : Type} {f g : α → Option β} (fewer : ∀ a, f a = none ∨ f a = g a) (l : List α) :
    (l.filterMap f).Sublist (l.filterMap g) := by
  induction l with
  | nil => exact List.Sublist.slnil
  | cons a rest ih =>
    rcases fewer a with nothing | same
    · rw [List.filterMap_cons_none nothing]
      exact ih.trans ((List.sublist_cons_self a rest).filterMap g)
    · simp only [List.filterMap_cons, same]
      cases g a with
      | none => exact ih
      | some b => exact ih.cons_cons b

/-! ## The tasks of a session -/

section
variable {s : Session} {files : Files} {old : List ThroughputRow}

theorem scheduled (admissible : s.Admissible files) (holds : s.args.resume = true → Holds old files.throughput)
    (measured : Measured old) :
    (s.runs.map Run.task).Perm (tasks s.args ((continued s.args.resume old).filterMap ThroughputRow.okKey)) := by
  rw [← (measured.continued s.args.resume).skipSet s.args, ← admissible.loaded_eq holds]
  exact admissible.order.perm

/-- The ok rows that the runs of a session write have the keys of its measured tasks. -/
theorem record_keys (s : Session) :
    ((s.runs.filterMap (Run.throughputRecord s.args)).filterMap ThroughputRow.okKey).Sublist
      ((s.runs.map Run.task).filterMap Task.measuredKey) := by
  rw [List.filterMap_filterMap, List.filterMap_map]
  apply filterMap_fewer
  intro run
  by_cases warmup : run.task.warmup
  · simp [Run.throughputRecord, warmup]
  · by_cases ok : run.status = "ok"
    · simp [Run.throughputRecord, warmup, ThroughputRow.okKey, Run.throughputRow, ok, Task.measuredKey]
    · simp [Run.throughputRecord, warmup, ThroughputRow.okKey, Run.throughputRow, ok]

/-- A key that is ok in the log is not run again. -/
theorem record_fresh (admissible : s.Admissible files) (holds : s.args.resume = true → Holds old files.throughput)
    (measured : Measured old) {key : Key}
    (written : key ∈ (s.runs.filterMap (Run.throughputRecord s.args)).filterMap ThroughputRow.okKey) :
    key ∉ (continued s.args.resume old).filterMap ThroughputRow.okKey := by
  have listed := ((scheduled admissible holds measured).filterMap Task.measuredKey).mem_iff.mp
    ((record_keys s).subset written)
  exact (mem_measuredKeys.mp listed).2.2

theorem Measured.grows (measured : Measured old) (okMeasured : OkMeasured s) {rows : List ThroughputRow}
    (inside : rows.Sublist (s.runs.filterMap (Run.throughputRecord s.args))) :
    Measured (Sessions.continued s.args.resume old ++ rows) := by
  intro row member ok
  rcases List.mem_append.mp member with before | written
  · exact measured.continued s.args.resume row before ok
  · obtain ⟨run, inRuns, writes⟩ := List.mem_filterMap.mp (inside.subset written)
    by_cases warmup : run.task.warmup
    · simp [Run.throughputRecord, warmup] at writes
    · obtain rfl : run.throughputRow s.args = row := by simpa [Run.throughputRecord, warmup] using writes
      obtain ⟨value, found, -⟩ := okMeasured run inRuns (by simpa using warmup) ok
      simp [Run.throughputRow, found]

/-- The log stays in order with the rows that a session has written so far. -/
theorem OkLogged.grows (logged : OkLogged old) (orderly : Orderly s) (admissible : s.Admissible files)
    (holds : s.args.resume = true → Holds old files.throughput) {rows : List ThroughputRow}
    (inside : rows.Sublist (s.runs.filterMap (Run.throughputRecord s.args))) :
    OkLogged (Sessions.continued s.args.resume old ++ rows) := by
  refine ⟨logged.measured.grows orderly.measured inside, ?_⟩
  have keys := inside.filterMap ThroughputRow.okKey
  have distinct : ((s.runs.map Run.task).filterMap Task.measuredKey).Nodup :=
    ((scheduled admissible holds logged.measured).filterMap Task.measuredKey).nodup_iff.mpr
      (measuredKeys_nodup (tasks_nodup orderly.distinct _))
  have before : ((continued s.args.resume old).filterMap ThroughputRow.okKey).Nodup := by
    cases s.args.resume
    · exact List.nodup_nil
    · exact logged.once
  rw [List.filterMap_append]
  refine List.Nodup.append before ((keys.trans (record_keys s)).nodup distinct) ?_
  exact fun key known written => record_fresh admissible holds logged.measured (keys.subset written) known

/-! ## The results in memory -/

theorem record_item {args : Args} {run : Run}
    (measured : run.task.warmup = false → run.status = "ok" →
      ∃ value, run.throughput = some value ∧ rounded 2 value = value) :
    (run.throughputRecord args).bind ThroughputRow.okItem = run.keptItem := by
  by_cases warmup : run.task.warmup
  · simp [Run.throughputRecord, Run.keptItem, warmup]
  · by_cases ok : run.status = "ok"
    · obtain ⟨value, found, exact_⟩ := measured (by simpa using warmup) ok
      simp [Run.throughputRecord, Run.keptItem, Run.keptThroughput, warmup, ThroughputRow.okItem,
        ThroughputRow.okThroughput, Run.throughputRow, ok, found, exact_]
    · simp [Run.throughputRecord, Run.keptItem, Run.keptThroughput, warmup, ThroughputRow.okItem,
        ThroughputRow.okThroughput, Run.throughputRow, ok]

/-- The body of the loop for a measured run, before the throughput row is written. -/
def beforeRow (args : Args) (run : Run) : List Effect :=
  .finishRun run.task.toKey run.status :: (run.keptThroughput.map (.keepThroughput run.task.toCell)).toList ++
  [.metadata (.write (run.metadataRow args)), .metadata .flush]

/-- The body of the loop from the throughput row on. -/
def fromRow (args : Args) (run : Run) : List Effect :=
  [.throughput (.write (.row (run.throughputRow args))), .throughput .flush] ++ run.latencyEffects args

theorem effects_split {args : Args} {run : Run} (measured : run.task.warmup = false) :
    run.effects args = beforeRow args run ++ fromRow args run := by
  simp [Run.effects, Run.record, measured, beforeRow, fromRow]

theorem beforeRow_row (args : Args) (run : Run) : (beforeRow args run).filterMap throughputCsv.row = [] := by
  unfold beforeRow
  cases run.keptThroughput <;> rfl

theorem fromRow_kept (args : Args) (run : Run) : (fromRow args run).filterMap Effect.kept = [] := by
  rw [fromRow, List.filterMap_append, run.latencyEffects_ignored Effect.kept args (fun _ _ _ => rfl) (fun _ => rfl)]
  rfl

/-- When what `f` concerns comes after all that `g` concerns, an initial part has
    none of the one or all of the other. -/
theorem take_ordered {α β γ : Type} {f : α → Option β} {g : α → Option γ} {xs ys : List α}
    (later : xs.filterMap f = []) (earlier : ys.filterMap g = []) (n : Nat) :
    ((xs ++ ys).take n).filterMap f = [] ∨ ((xs ++ ys).take n).filterMap g = (xs ++ ys).filterMap g := by
  rw [List.take_append]
  by_cases early : n ≤ xs.length
  · left
    have nothing : n - xs.length = 0 := by omega
    have inside := (List.take_prefix n xs).filterMap f
    rw [later] at inside
    simpa [nothing] using inside
  · right
    have inside := (List.take_prefix (n - xs.length) ys).filterMap g
    rw [earlier] at inside
    rw [List.take_of_length_le (by omega), List.filterMap_append, List.filterMap_append, List.prefix_nil.mp inside,
      earlier]

theorem warmup_row {args : Args} {run : Run} (warmup : run.task.warmup = true) (within : Nat) :
    ((run.effects args).take within).filterMap throughputCsv.row = [] := by
  have inside := (List.take_prefix within (run.effects args)).filterMap throughputCsv.row
  rw [throughputCsv.effects_row args run] at inside
  simpa [throughputCsv, Run.throughputRecord, warmup] using inside

/-- In the body of the loop the value is appended before the row is written. -/
theorem kept_before_row (args : Args) (run : Run) (within : Nat) :
    ((run.effects args).take within).filterMap throughputCsv.row = [] ∨
    ((run.effects args).take within).filterMap Effect.kept = run.keptItem.toList := by
  cases warmup : run.task.warmup with
  | true => exact .inl (warmup_row warmup within)
  | false =>
    rw [← effects_kept args run, effects_split warmup]
    exact take_ordered (beforeRow_row args run) (fromRow_kept args run) within

/-- What has been appended to `throughput_results` for the run in which the session
    leaves the loop, when the row of that run is not written. -/
def unlogged (s : Session) : List (Cell × ℚ) :=
  let effects := s.current s.leaves.1 s.leaves.2
  if effects.filterMap throughputCsv.row = [] then effects.filterMap Effect.kept else []

/-- What a session keeps is what it logs, and the value that is not logged. -/
theorem kept_eq (measured : OkMeasured s) :
    (s.loop s.leaves.1 s.leaves.2).filterMap Effect.kept =
      (throughputCsv.rows s s.leaves.1 s.leaves.2).filterMap ThroughputRow.okItem ++ unlogged s := by
  have items : ∀ run ∈ s.runs, (run.throughputRecord s.args).bind ThroughputRow.okItem = run.keptItem :=
    fun run member => record_item (measured run member)
  have finished : (s.runs.take s.leaves.1).filterMap Run.keptItem =
      ((s.runs.take s.leaves.1).filterMap (Run.throughputRecord s.args)).filterMap ThroughputRow.okItem := by
    rw [List.filterMap_filterMap]
    apply List.filterMap_congr
    intro run member
    exact (items run (List.mem_of_mem_take member)).symm
  have current : (s.current s.leaves.1 s.leaves.2).filterMap Effect.kept =
      ((s.current s.leaves.1 s.leaves.2).filterMap throughputCsv.row).filterMap ThroughputRow.okItem ++ unlogged s := by
    unfold unlogged
    by_cases notWritten : (s.current s.leaves.1 s.leaves.2).filterMap throughputCsv.row = []
    · simp [notWritten]
    · have row := (Session.current_filterMap throughputCsv.row (throughputCsv.record s.args)
        (throughputCsv.effects_row s.args) s.leaves.1 s.leaves.2).resolve_left notWritten
      rw [if_neg notWritten, List.append_nil, row]
      cases found : s.runs[s.leaves.1]? with
      | none => simp [Session.current, found] at notWritten
      | some run =>
        have kept := (kept_before_row s.args run s.leaves.2).resolve_left
          (by simpa [Session.current, found] using notWritten)
        simp only [Session.current, found]
        rw [kept, ← items run (List.mem_of_getElem? found)]
        simp only [Option.bind_some, throughputCsv]
        cases run.throughputRecord s.args with
        | none => rfl
        | some row => cases item : row.okItem <;> simp [item]
  rw [Session.loop_filterMap Effect.kept Run.keptItem (effects_kept s.args), Csv.rows,
    Session.loop_filterMap throughputCsv.row (throughputCsv.record s.args) (throughputCsv.effects_row s.args),
    List.filterMap_append, finished, current]
  exact (List.append_assoc _ _ _).symm

theorem closed_results (measured : OkMeasured s) (admissible : s.Admissible files)
    (holds : s.args.resume = true → Holds old files.throughput)
    {cell : Cell} (inside : s.args.hasCell cell) :
    (s.closed files).throughputResults cell =
      okThroughputs cell (csvRows (s.closed files).files.throughput) ++ valuesAt cell (unlogged s) := by
  have left : csvRows (s.closed files).files.throughput =
      continued s.args.resume old ++ throughputCsv.rows s s.leaves.1 s.leaves.2 :=
    (throughputCsv.closed_holds holds).csvRows
  rw [Session.closed_throughputResults, kept_eq measured, left, admissible.loaded_eq holds, loadRows_results inside]
  simp [okThroughputs]

end

/-! ## Sequences of sessions -/

theorem leftFiles_closed {s : Session} (survives : ∀ point, s.ending ≠ .killed point) (files : Files) :
    s.leftFiles files = (s.closed files).files := by
  unfold Session.leftFiles
  cases ending : s.ending with
  | killed point => exact absurd ending (survives point)
  | completed => rfl
  | interrupted finished within => rfl

theorem rows_inside (s : Session) (finished within : Nat) :
    (throughputCsv.rows s finished within).Sublist (s.runs.filterMap (Run.throughputRecord s.args)) :=
  Session.loop_sublist throughputCsv.row (throughputCsv.record s.args) (throughputCsv.effects_row s.args)
    finished within

theorem history_logged {files : Files} (history : History (fun _ s => Orderly s) files) :
    ∃ rows, Holds rows files.throughput ∧ OkLogged rows := by
  induction history with
  | start => exact ⟨[], ⟨rfl, .inl ⟨rfl, rfl⟩⟩, List.forall_mem_nil _, List.nodup_nil⟩
  | next _ admissible orderly ih =>
    obtain ⟨rows, holds, logged⟩ := ih
    rw [leftFiles_closed orderly.survives]
    exact ⟨_, throughputCsv.closed_holds (fun _ => holds),
      logged.grows orderly admissible (fun _ => holds) (rows_inside _ _ _)⟩

theorem OkLogged.countP_le {rows some_ : List ThroughputRow} (logged : OkLogged rows) (inside : some_.Sublist rows)
    (key : Key) : some_.countP (fun row => row.okKey = some key) ≤ 1 := by
  have once := List.nodup_iff_count_le_one.mp ((inside.filterMap ThroughputRow.okKey).nodup logged.once) key
  rw [List.count_filterMap] at once
  simpa [beq_eq_decide] using once

/-- Over every sequence of sessions that are completed or interrupted in their loop:
    at any point a key has one ok row at most; a session runs the keys of its range
    that have messages and had no ok row; and in the end its results are the
    throughputs of the ok rows in the log, with the one that an interruption has kept
    from being logged. -/
theorem resume_invariant {files : Files} (history : History (fun _ s => Orderly s) files) {s : Session}
    (admissible : s.Admissible files) (orderly : Orderly s) :
    (∀ point key, (csvRows (s.reach files point).files.throughput).countP (fun row => row.okKey = some key) ≤ 1) ∧
    (∀ key, s.args.InRange key →
      ((⟨key, false⟩ : Task) ∈ s.runs.map Run.task ↔ s.args.messagesFor key.framework key.sleepTime ≠ none ∧
        ∀ row ∈ continued s.args.resume (csvRows files.throughput), row.okKey ≠ some key)) ∧
    (∀ cell, s.args.hasCell cell → (s.closed files).throughputResults cell =
      okThroughputs cell (csvRows (s.leftFiles files).throughput) ++ valuesAt cell (unlogged s)) ∧
    (s.ending = .completed → unlogged s = []) := by
  obtain ⟨old, holds, logged⟩ := history_logged history
  refine ⟨?_, ?_, ?_, ?_⟩
  · intro point key
    rcases throughputCsv.reach_contents (fun _ => holds) point with same | ⟨-, finished, within, initial⟩
    · have rows : csvRows (s.reach files point).files.throughput = old :=
        (congrArg csvRows same).trans holds.csvRows
      rw [rows]
      exact logged.countP_le (List.Sublist.refl old) key
    · have inside := (initial.filterMap Line.row?).sublist
      rw [List.filterMap_cons_none rfl, row?_rows] at inside
      exact (logged.grows orderly admissible (fun _ => holds) (rows_inside s finished within)).countP_le inside key
  · intro key inRange
    have listed : (⟨key, false⟩ : Task) ∈ s.runs.map Run.task ↔
        key ∈ (s.runs.map Run.task).filterMap Task.measuredKey := by
      simp [List.mem_filterMap, measuredKey_eq_some]
    rw [listed, ((scheduled admissible (fun _ => holds) logged.measured).filterMap Task.measuredKey).mem_iff,
      mem_measuredKeys, holds.csvRows]
    simp [inRange, List.mem_filterMap]
  · intro cell inside
    rw [leftFiles_closed orderly.survives]
    exact closed_results orderly.measured admissible (fun _ => holds) inside
  · intro completed
    simp [unlogged, Session.current, Session.leaves, completed]

/-! ## An interruption between two runs, and one inside a run -/

/-- A session that is interrupted after its first run. -/
def interruptedBetween : Session where
  args := oneCell false "repid" 2
  loaded := loadRows (oneCell false "repid" 2) []
  runs := [okRun "repid" 1 100, okRun "repid" 2 110]
  ending := .interrupted 1 0

/-- The session that resumes it. -/
def resumedSecond : Session where
  args := oneCell true "repid" 2
  loaded := loadRows (oneCell true "repid" 2) [(okRun "repid" 1 100).throughputRow (oneCell false "repid" 2)]
  runs := [okRun "repid" 2 110]
  ending := .completed

/-- A session that is interrupted while the metadata of its run are written. -/
def interruptedInside : Session := { interruptedBetween with ending := .interrupted 0 2 }

theorem oneCell_orderly {s : Session} {resume : Bool} {name : String} {runs : ℤ}
    (survives : ∀ point, s.ending ≠ .killed point) (args : s.args = oneCell resume name runs)
    (ok : ∀ run ∈ s.runs, ∃ value, run.throughput = some value ∧ rounded 2 value = value) : Orderly s := by
  refine ⟨survives, ?_, fun run member _ _ => ok run member⟩
  rw [args]
  exact oneCell_distinct resume name runs

theorem interruptedBetween_history :
    History (fun _ s => Orderly s) (interruptedBetween.leftFiles .absent) := by
  refine .next .start ⟨rfl, .inl rfl⟩ (oneCell_orderly (by rintro _ ⟨⟩) rfl ?_)
  intro run member
  simp only [interruptedBetween, List.mem_cons, List.not_mem_nil, or_false] at member
  rcases member with rfl | rfl
  · exact ⟨100, rfl, rounded_ofNat 2 100⟩
  · exact ⟨110, rfl, rounded_ofNat 2 110⟩

theorem resume_invariant_resumed :
    let files := interruptedBetween.leftFiles .absent
    (csvRows (resumedSecond.reach files (.looping 1 0)).files.throughput).countP
      (fun row => row.okKey = some ⟨⟨"repid", 1⟩, 2⟩) ≤ 1 ∧
    (resumedSecond.closed files).throughputResults ⟨"repid", 1⟩ =
      okThroughputs ⟨"repid", 1⟩ (csvRows (resumedSecond.leftFiles files).throughput) ++
        valuesAt ⟨"repid", 1⟩ (unlogged resumedSecond) := by
  have orderly : Orderly resumedSecond := by
    refine oneCell_orderly (by rintro _ ⟨⟩) rfl ?_
    intro run member
    obtain rfl : run = okRun "repid" 2 110 := by simpa [resumedSecond] using member
    exact ⟨110, rfl, rounded_ofNat 2 110⟩
  have resumes : resumedSecond.Admissible (interruptedBetween.leftFiles .absent) := by
    have left : (interruptedBetween.leftFiles .absent).throughput.durable = some [.header,
        .row ((okRun "repid" 1 100).throughputRow (oneCell false "repid" 2))] := by decide +kernel
    refine ⟨?_, .inl (by decide +kernel)⟩
    simp only [Session.resumeRows, left]
    rfl
  obtain ⟨once, -, results, -⟩ := resume_invariant interruptedBetween_history resumes orderly
  exact ⟨once (.looping 1 0) _, results ⟨"repid", 1⟩ (by decide +kernel)⟩

/-- The results of an interrupted session can hold a throughput that its log lacks. -/
theorem interrupted_inside_results :
    Orderly interruptedInside ∧ interruptedInside.Admissible .absent ∧ interruptedInside.args.resume = false ∧
    (interruptedInside.closed .absent).throughputResults ⟨"repid", 1⟩ = [100] ∧
    okThroughputs ⟨"repid", 1⟩ (csvRows (interruptedInside.leftFiles .absent).throughput) = [] ∧
    ¬ ((interruptedInside.closed .absent).throughputResults ⟨"repid", 1⟩).Perm
      (okThroughputs ⟨"repid", 1⟩ (csvRows (interruptedInside.leftFiles .absent).throughput)) := by
  have results : (interruptedInside.closed .absent).throughputResults ⟨"repid", 1⟩ = [100] := by decide +kernel
  have logged : okThroughputs ⟨"repid", 1⟩ (csvRows (interruptedInside.leftFiles .absent).throughput) = [] := by
    decide +kernel
  have orderly : Orderly interruptedInside := by
    refine oneCell_orderly (by rintro _ ⟨⟩) rfl ?_
    intro run member
    simp only [interruptedInside, interruptedBetween, List.mem_cons, List.not_mem_nil, or_false] at member
    rcases member with rfl | rfl
    · exact ⟨100, rfl, rounded_ofNat 2 100⟩
    · exact ⟨110, rfl, rounded_ofNat 2 110⟩
  refine ⟨orderly, ⟨rfl, .inl rfl⟩, rfl, results, logged, ?_⟩
  rw [results, logged]
  exact fun same => absurd same.length_eq (by decide)

end RepidBench.ResumeThroughput
