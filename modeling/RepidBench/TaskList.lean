import RepidBench.SessionLogs

/-!
What the resume reader loads and which tasks follow from it: the skip set, the
results that are taken over, and, for lists of benchmarks and sleep times without
duplicates, one measured task for each key that is not skipped.
-/
namespace RepidBench.Sessions
open BufferedLog Specs

/-! ## Rows -/

/-- The key of an ok row. -/
def ThroughputRow.okKey (row : ThroughputRow) : Option Key := if row.status = "ok" then some row.key else none

def LatencyRow.okKey (row : LatencyRow) : Option Key := if row.status = "ok" then some row.key else none

/-- The cell and the throughput of an ok row. -/
def ThroughputRow.okItem (row : ThroughputRow) : Option (Cell × ℚ) :=
  row.okThroughput.map (fun value => (row.key.toCell, value))

/-- The throughputs of the ok rows of a cell. -/
def okThroughputs (cell : Cell) (rows : List ThroughputRow) : List ℚ :=
  valuesAt cell (rows.filterMap ThroughputRow.okItem)

section
variable {Row : Type}

def Line.row? : Line Row → Option Row
  | .header => none
  | .row written => some written

/-- The rows that a log holds, on disk or in its buffer. -/
def csvRows (f : LogFile (Line Row)) : List Row := f.contents.filterMap Line.row?

@[simp] theorem row?_rows (rows : List Row) : (rows.map Line.row).filterMap Line.row? = rows := by
  rw [List.filterMap_map]
  exact List.filterMap_some

theorem csvRows_header {f : LogFile (Line Row)} {rows : List Row} (contents : f.contents = .header :: rows.map .row) :
    csvRows f = rows := by
  rw [csvRows, contents, List.filterMap_cons_none rfl, row?_rows]

theorem Holds.csvRows {rows : List Row} {f : LogFile (Line Row)} (holds : Holds rows f) : csvRows f = rows := by
  obtain ⟨buffer, ⟨absent, rfl⟩ | present⟩ := holds
  · simp [Sessions.csvRows, LogFile.contents, buffer, absent]
  · exact csvRows_header (by simp [LogFile.contents, buffer, present])

end

/-! ## The resume reader -/

theorem loadRows_skipSet (args : Args) (rows : List ThroughputRow) :
    (loadRows args rows).skipSet = rows.filterMap (fun row => row.okThroughput.map (fun _ => row.key)) := by
  have step : ∀ loaded : Loaded, (rows.foldl (loadRow args) loaded).skipSet =
      loaded.skipSet ++ rows.filterMap (fun row => row.okThroughput.map (fun _ => row.key)) := by
    induction rows with
    | nil => simp
    | cons row rest ih =>
      intro loaded
      rw [List.foldl_cons, ih]
      cases found : row.okThroughput <;> simp [loadRow, found]
  exact step ⟨[], fun _ => []⟩

theorem loadRows_results {args : Args} {cell : Cell} (inside : args.hasCell cell) (rows : List ThroughputRow) :
    (loadRows args rows).throughputResults cell = okThroughputs cell rows := by
  have step : ∀ loaded : Loaded, (rows.foldl (loadRow args) loaded).throughputResults cell =
      loaded.throughputResults cell ++ okThroughputs cell rows := by
    induction rows with
    | nil => simp [okThroughputs]
    | cons row rest ih =>
      intro loaded
      rw [List.foldl_cons, ih]
      cases found : row.okThroughput with
      | none => simp [loadRow, found, okThroughputs, ThroughputRow.okItem]
      | some value =>
        have item : row.okItem = some (row.key.toCell, value) := by simp [ThroughputRow.okItem, found]
        have whole : okThroughputs cell (row :: rest) =
            valuesAt cell [(row.key.toCell, value)] ++ okThroughputs cell rest := by
          rw [okThroughputs, List.filterMap_cons_some item, ← List.singleton_append, valuesAt_append]
          rfl
        rw [whole, ← List.append_assoc]
        congr 1
        by_cases own : args.hasCell row.key.toCell
        · simp [loadRow, found, own, appendAt_apply]
        · have other : row.key.toCell ≠ cell := by
            rintro rfl
            exact own inside
          simp [loadRow, found, own, valuesAt, other]
  exact step ⟨[], fun _ => []⟩

/-- The reader ignores the rows of other cells. -/
theorem loadRows_outside {args : Args} {cell : Cell} (outside : ¬args.hasCell cell) (rows : List ThroughputRow) :
    (loadRows args rows).throughputResults cell = [] := by
  induction rows using List.reverseRecOn with
  | nil => rfl
  | append_singleton rows row ih =>
    have last : loadRows args (rows ++ [row]) = loadRow args (loadRows args rows) row := List.foldl_concat _ _ _ _
    rw [last]
    cases found : row.okThroughput with
    | none => simp [loadRow, found, ih]
    | some value =>
      by_cases own : args.hasCell row.key.toCell
      · have other : row.key.toCell ≠ cell := by
          rintro rfl
          exact outside own
        simp [loadRow, found, own, appendAt_apply, ih, valuesAt, other]
      · simp [loadRow, found, own, ih]

/-- What a session has loaded from a log of rows. -/
theorem Session.Admissible.loaded_eq {s : Session} {files : Files} (admissible : s.Admissible files)
    {rows : List ThroughputRow} (holds : s.args.resume = true → Holds rows files.throughput) :
    s.loaded = loadRows s.args (continued s.args.resume rows) := by
  have found := admissible.loaded
  unfold Session.resumeRows at found
  cases resume : s.args.resume
  · simpa [resume, continued] using found.symm
  · simpa [resume, continued, (holds resume).readRows] using found.symm

/-! ## The task list -/

/-- The lists of the arguments name nothing twice. -/
def Args.Distinct (args : Args) : Prop := args.frameworks.Nodup ∧ ∀ times, args.sleepTimes = some times → times.Nodup

theorem oneCell_distinct (resume : Bool) (name : String) (runs : ℤ) : (oneCell resume name runs).Distinct := by
  refine ⟨List.nodup_singleton name, ?_⟩
  intro times given
  cases given
  exact List.nodup_singleton 1

/-- The key is one of those that the arguments ask for. -/
def Args.InRange (args : Args) (key : Key) : Prop :=
  key.framework ∈ args.frameworks ∧ key.sleepTime ∈ args.sleepTimesFor key.framework ∧
    1 ≤ key.run ∧ (key.run : ℤ) ≤ args.runs

theorem mem_range (run : Nat) (count : ℤ) : run ∈ List.range' 1 count.toNat ↔ 1 ≤ run ∧ (run : ℤ) ≤ count := by
  rw [List.mem_range'_1]
  omega

theorem mem_cellTasks {args : Args} {skipSet : List Key} {cell : Cell} {task : Task} :
    task ∈ cellTasks args skipSet cell ↔
      task.toCell = cell ∧ args.messagesFor cell.framework cell.sleepTime ≠ none ∧ 1 ≤ task.run ∧
      if task.warmup then (task.run : ℤ) ≤ args.warmupRuns else (task.run : ℤ) ≤ args.runs ∧ task.toKey ∉ skipSet := by
  obtain ⟨⟨own, run⟩, warmup⟩ := task
  unfold cellTasks
  by_cases noMessages : args.messagesFor cell.framework cell.sleepTime = none
  · simp [noMessages]
  · simp only [noMessages, if_false, List.mem_append, List.mem_map, List.mem_filter, mem_range, decide_eq_true_eq]
    cases warmup with
    | true =>
      constructor
      · rintro (⟨run', ⟨low, high⟩, same⟩ | ⟨run', -, same⟩)
        · cases same
          exact ⟨rfl, noMessages, low, by simpa using high⟩
        · cases same
      · rintro ⟨rfl, -, low, high⟩
        exact .inl ⟨run, ⟨low, by simpa using high⟩, rfl⟩
    | false =>
      constructor
      · rintro (⟨run', -, same⟩ | ⟨run', ⟨⟨low, high⟩, fresh⟩, same⟩)
        · cases same
        · cases same
          exact ⟨rfl, noMessages, low, by simpa using ⟨high, fresh⟩⟩
      · rintro ⟨rfl, -, low, high⟩
        obtain ⟨small, fresh⟩ : (run : ℤ) ≤ args.runs ∧ (⟨own, run⟩ : Key) ∉ skipSet := by simpa using high
        exact .inr ⟨run, ⟨⟨low, small⟩, fresh⟩, rfl⟩

theorem mem_tasks {args : Args} {skipSet : List Key} {task : Task} :
    task ∈ tasks args skipSet ↔
      args.hasCell task.toCell ∧ args.messagesFor task.framework task.sleepTime ≠ none ∧ 1 ≤ task.run ∧
      if task.warmup then (task.run : ℤ) ≤ args.warmupRuns else (task.run : ℤ) ≤ args.runs ∧ task.toKey ∉ skipSet := by
  simp only [tasks, List.mem_flatMap, mem_cellTasks, Args.hasCell, Bool.and_eq_true, List.contains_iff_mem]
  constructor
  · rintro ⟨fw, inFrameworks, st, inTimes, same, rest⟩
    rw [same]
    exact ⟨⟨inFrameworks, inTimes⟩, rest⟩
  · rintro ⟨⟨inFrameworks, inTimes⟩, rest⟩
    exact ⟨task.framework, inFrameworks, task.sleepTime, inTimes, rfl, rest⟩

theorem sleepTimesFor_nodup {args : Args} (distinct : args.Distinct) (name : String) :
    (args.sleepTimesFor name).Nodup := by
  refine (List.perm_insertionSort _ _).nodup_iff.mpr ?_
  cases given : args.sleepTimes with
  | some times => exact distinct.2 times given
  | none =>
    cases found : getSpec name with
    | none => simp
    | some spec => simpa [found] using sleepTimes_nodup (List.mem_of_find?_eq_some found)

theorem cellTasks_nodup (args : Args) (skipSet : List Key) (cell : Cell) : (cellTasks args skipSet cell).Nodup := by
  unfold cellTasks
  split
  · exact List.nodup_nil
  · apply List.Nodup.append
    · exact (List.nodup_range').map (fun a b same => by cases same; rfl)
    · exact ((List.nodup_range').filter _).map (fun a b same => by cases same; rfl)
    · intro task warmup measured
      obtain ⟨_, -, rfl⟩ := List.mem_map.mp warmup
      obtain ⟨_, -, same⟩ := List.mem_map.mp measured
      cases same

theorem tasks_nodup {args : Args} (distinct : args.Distinct) (skipSet : List Key) : (tasks args skipSet).Nodup := by
  unfold tasks
  rw [List.nodup_flatMap]
  constructor
  · intro fw _
    rw [List.nodup_flatMap]
    refine ⟨fun st _ => cellTasks_nodup args skipSet ⟨fw, st⟩, ?_⟩
    refine (sleepTimesFor_nodup distinct fw).imp ?_
    intro a b different task inFirst inSecond
    have first := (mem_cellTasks.mp inFirst).1
    rw [(mem_cellTasks.mp inSecond).1] at first
    cases first
    exact different rfl
  · refine distinct.1.imp ?_
    intro a b different task inFirst inSecond
    obtain ⟨_, -, inFirst⟩ := List.mem_flatMap.mp inFirst
    obtain ⟨_, -, inSecond⟩ := List.mem_flatMap.mp inSecond
    have first := (mem_cellTasks.mp inFirst).1
    rw [(mem_cellTasks.mp inSecond).1] at first
    cases first
    exact different rfl

theorem TaskOrder.perm {tasks order : List Task} (ordered : TaskOrder tasks order) : order.Perm tasks := by
  rcases ordered with rfl | ⟨measured, shuffled, rfl⟩
  · exact List.Perm.refl _
  · refine (shuffled.append_left _).trans ?_
    exact List.filter_append_perm Task.warmup tasks

/-- The key of a measured task. -/
def Task.measuredKey (task : Task) : Option Key := if task.warmup then none else some task.toKey

theorem measuredKey_eq_some {task : Task} {key : Key} : task.measuredKey = some key ↔ task = ⟨key, false⟩ := by
  obtain ⟨own, warmup⟩ := task
  cases warmup <;> simp [Task.measuredKey]

theorem mem_measuredKeys {args : Args} {skipSet : List Key} {key : Key} :
    key ∈ (tasks args skipSet).filterMap Task.measuredKey ↔
      args.InRange key ∧ args.messagesFor key.framework key.sleepTime ≠ none ∧ key ∉ skipSet := by
  have task : key ∈ (tasks args skipSet).filterMap Task.measuredKey ↔ ⟨key, false⟩ ∈ tasks args skipSet := by
    simp [List.mem_filterMap, measuredKey_eq_some]
  rw [task, mem_tasks]
  simp only [Args.hasCell, Args.InRange, Bool.and_eq_true, List.contains_iff_mem, Bool.false_eq_true, if_false]
  tauto

theorem measuredKeys_nodup {tasks : List Task} (distinct : tasks.Nodup) : (tasks.filterMap Task.measuredKey).Nodup := by
  refine distinct.filterMap ?_
  rintro ⟨key, warmup⟩ ⟨key', warmup'⟩ k first second
  cases warmup
  · cases warmup'
    · simp only [Task.measuredKey] at first second
      cases first
      cases second
      rfl
    · cases second
  · cases first

end RepidBench.Sessions
