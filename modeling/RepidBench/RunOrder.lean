import RepidBench.Orchestrator
import RepidBench.ResultTables

/-!
Two sessions over one task list, in two of its orders, whose runs have the same
outcomes. All but one of the stores of the loop grow by what each run adds, so their
contents differ in order only. `run_status` is overwritten: there the last run of a
key counts, and that is the measured one in every order.
-/
namespace RepidBench.RunOrder
open BufferedLog Decimal Dictionaries Orchestrator ResultTables Sessions Specs

/-! ## What `main` prints after its loop -/

/-- `table_sleep_times`. -/
def tableSleepTimes (args : Args) : List ℚ := (args.frameworks.flatMap args.sleepTimesFor).dedup.insertionSort (· ≤ ·)

/-- The line of `suggest_message_counts` for the throughputs of a cell: the sleep
    time, the count and the mean. -/
def suggestMessageCount (cell : Cell) (vals : List ℚ) (targetSeconds steadyWindowSeconds : ℚ) :
    Option (ℚ × ℤ × String) :=
  if vals = [] then none
  else
    let avg := mean vals
    let n := max 1000 (roundHalfEven (avg * targetSeconds / 1000) * 1000)
    let n := match steadyMessageFloor cell.framework cell.sleepTime steadyWindowSeconds with
      | some steadyFloor => max n steadyFloor
      | none => n
    some (cell.sleepTime, n, fixed 0 avg)

/-- `suggest_message_counts`. -/
def suggestMessageCounts (frameworks : List String) (sleepTimes : List ℚ) (results : Cell → List ℚ)
    (targetSeconds steadyWindowSeconds : ℚ) : List (String × List (ℚ × ℤ × String)) :=
  frameworks.map (fun fw => (fw, sleepTimes.filterMap (fun st =>
    suggestMessageCount ⟨fw, st⟩ (results ⟨fw, st⟩) targetSeconds steadyWindowSeconds)))

/-- The details of the warning: `sorted(non_ok.items())`. -/
def nonOk (runStatus : List (Key × String)) : List (String × Nat) :=
  let statuses := (runStatus.map Prod.snd).filter (· ≠ "ok")
  (statuses.dedup.insertionSort (· ≤ ·)).map (fun status => (status, statuses.count status))

/-- The entry of `run_status` that an effect makes. -/
def finished : Effect → Option (Key × String)
  | .finishRun key status => some (key, status)
  | _ => none

/-! ## The last run of a key -/

section
variable {key : Key}

/-- Of the tasks with this key, if there is any, the last one is measured. -/
def EndsMeasured (key : Key) (tasks : List Task) : Prop :=
  (∃ task ∈ tasks, task.toKey = key) → tasks.reverse.find? (fun task => task.toKey = key) = some ⟨key, false⟩

theorem EndsMeasured.append {first second : List Task} (ends : EndsMeasured key first)
    (ends' : EndsMeasured key second) : EndsMeasured key (first ++ second) := by
  rintro ⟨task, member, own⟩
  rw [List.reverse_append, List.find?_append]
  by_cases later : ∃ task ∈ second, task.toKey = key
  · rw [ends' later]
    rfl
  · have none : second.reverse.find? (fun task => task.toKey = key) = none := by
      simp only [List.find?_eq_none, List.mem_reverse, decide_eq_true_eq]
      exact fun task member own => later ⟨task, member, own⟩
    rw [none, Option.none_or]
    rcases List.mem_append.mp member with here | there
    · exact ends ⟨task, here, own⟩
    · exact absurd ⟨task, there, own⟩ later

theorem endsMeasured_flatMap {α : Type} {parts : List α} {tasksOf : α → List Task}
    (ends : ∀ part ∈ parts, EndsMeasured key (tasksOf part)) : EndsMeasured key (parts.flatMap tasksOf) := by
  induction parts with
  | nil => rintro ⟨_, member, _⟩; cases member
  | cons part rest ih =>
    rw [List.flatMap_cons]
    exact (ends part List.mem_cons_self).append (ih (fun other member => ends other (List.mem_cons_of_mem part member)))

/-- Measured tasks after any others, if the one with this key is among them. -/
theorem endsMeasured_of_mem (before : List Task) {measured : List Task} (only : ∀ task ∈ measured, task.warmup = false)
    (member : ⟨key, false⟩ ∈ measured) : EndsMeasured key (before ++ measured) := by
  intro _
  rw [List.reverse_append, List.find?_append]
  obtain ⟨task, found⟩ : ∃ task, measured.reverse.find? (fun task => task.toKey = key) = some task := by
    rw [← Option.isSome_iff_exists, List.find?_isSome]
    exact ⟨_, List.mem_reverse.mpr member, by simp⟩
  rw [found, Option.some_or]
  have own : task.toKey = key := by simpa using List.find?_some found
  have isMeasured := only task (List.mem_reverse.mp (List.mem_of_find?_eq_some found))
  obtain ⟨taskKey, warmup⟩ := task
  subst own
  cases isMeasured
  rfl

theorem cellTasks_ends {args : Args} {skipSet : List Key} (listed : ⟨key, false⟩ ∈ tasks args skipSet) (cell : Cell) :
    EndsMeasured key (cellTasks args skipSet cell) := by
  by_cases own : key.toCell = cell
  · have member : ⟨key, false⟩ ∈ cellTasks args skipSet cell := by
      rw [mem_tasks] at listed
      rw [mem_cellTasks]
      exact ⟨own, own ▸ listed.2⟩
    unfold cellTasks at member ⊢
    by_cases noMessages : args.messagesFor cell.framework cell.sleepTime = none
    · simp [noMessages] at member
    · rw [if_neg noMessages] at member ⊢
      refine endsMeasured_of_mem _ (fun task inside => ?_) (by simpa using member)
      obtain ⟨run, _, rfl⟩ := List.mem_map.mp inside
      rfl
  · rintro ⟨task, member, rfl⟩
    exact absurd (mem_cellTasks.mp member).1 own

/-- In every order the measured task of a key comes after its warm-ups. -/
theorem order_ends {args : Args} {skipSet : List Key} {order : List Task}
    (ordered : TaskOrder (tasks args skipSet) order) (listed : ⟨key, false⟩ ∈ tasks args skipSet) :
    EndsMeasured key order := by
  rcases ordered with rfl | ⟨measured, shuffled, rfl⟩
  · refine endsMeasured_flatMap (fun fw _ => ?_)
    exact endsMeasured_flatMap (fun st _ => cellTasks_ends listed ⟨fw, st⟩)
  · refine endsMeasured_of_mem _ (fun task member => ?_) ?_
    · simpa using (List.mem_filter.mp (shuffled.mem_iff.mp member)).2
    · exact shuffled.mem_iff.mpr (List.mem_filter.mpr ⟨listed, rfl⟩)

/-- So the last task of a key depends on the list only. -/
theorem last_of_order {args : Args} {skipSet : List Key} {order : List Task}
    (ordered : TaskOrder (tasks args skipSet) order) (key : Key) :
    order.reverse.find? (fun task => task.toKey = key) =
      if ⟨key, false⟩ ∈ tasks args skipSet then some ⟨key, false⟩
      else if ⟨key, true⟩ ∈ tasks args skipSet then some ⟨key, true⟩
      else none := by
  by_cases listed : ⟨key, false⟩ ∈ tasks args skipSet
  · rw [if_pos listed]
    exact order_ends ordered listed ⟨_, ordered.perm.mem_iff.mpr listed, rfl⟩
  · rw [if_neg listed]
    cases found : order.reverse.find? (fun task => task.toKey = key) with
    | none =>
      have unlisted : ⟨key, true⟩ ∉ tasks args skipSet := by
        intro member
        have other := List.find?_eq_none.mp found _ (List.mem_reverse.mpr (ordered.perm.mem_iff.mpr member))
        simp at other
      rw [if_neg unlisted]
    | some task =>
      have own : task.toKey = key := by simpa using List.find?_some found
      have member := ordered.perm.mem_iff.mp (List.mem_reverse.mp (List.mem_of_find?_eq_some found))
      obtain ⟨taskKey, warmup⟩ := task
      subst own
      cases warmup with
      | false => exact absurd member listed
      | true => rw [if_pos member]

end

/-! ## Sessions in two orders -/

/-- The session that runs the tasks in an order to the end, where what `run_once`
    returns depends on the task only. -/
def sessionOf (args : Args) (loaded : Loaded) (outcome : Task → Option Result) (order : List Task) : Session where
  args := args
  loaded := loaded
  runs := order.map (fun task => ⟨task, outcome task⟩)
  ending := .completed

/-- Two sessions end with the same results: the same rows in any order, the same
    mean and deviation in every cell, the same suggestions and the same warning. -/
structure SameResults (args : Args) (p q : Progress) : Prop where
  throughputRows : (csvRows p.files.throughput).Perm (csvRows q.files.throughput)
  latencyRows : (csvRows p.files.latency).Perm (csvRows q.files.latency)
  throughputMean : ∀ cell, mean (p.throughputResults cell) = mean (q.throughputResults cell)
  throughputVariance : ∀ cell, variance (p.throughputResults cell) = variance (q.throughputResults cell)
  latencyMean : ∀ place, mean (p.latencyResults place) = mean (q.latencyResults place)
  latencyVariance : ∀ place, variance (p.latencyResults place) = variance (q.latencyResults place)
  suggested : ∀ targetSeconds steadyWindowSeconds,
    suggestMessageCounts args.frameworks (tableSleepTimes args) p.throughputResults targetSeconds
      steadyWindowSeconds =
    suggestMessageCounts args.frameworks (tableSleepTimes args) q.throughputResults targetSeconds
      steadyWindowSeconds
  warned : nonOk p.runStatus = nonOk q.runStatus

section
variable {args : Args} {loaded : Loaded} {outcome : Task → Option Result} {order order' : List Task}

/-- The loop of a session that is not interrupted. -/
theorem loop_completed (args : Args) (loaded : Loaded) (outcome : Task → Option Result) (order : List Task) :
    (sessionOf args loaded outcome order).loop (sessionOf args loaded outcome order).leaves.1
      (sessionOf args loaded outcome order).leaves.2 =
      order.flatMap (fun task => Run.effects args ⟨task, outcome task⟩) := by
  have all : (sessionOf args loaded outcome order).runs.take (sessionOf args loaded outcome order).runs.length =
      order.map (fun task => ⟨task, outcome task⟩) := List.take_length
  have none : (sessionOf args loaded outcome order).current (sessionOf args loaded outcome order).runs.length 0 = [] := by
    simp [Session.current]
  rw [Session.loop, Session.leaves]
  show _ ++ _ = _
  simp only [sessionOf] at all none ⊢
  rw [all, none, List.append_nil, List.flatMap_map]

theorem loop_perm (args : Args) (loaded : Loaded) (outcome : Task → Option Result) (same : order.Perm order') :
    ((sessionOf args loaded outcome order).loop (sessionOf args loaded outcome order).leaves.1
      (sessionOf args loaded outcome order).leaves.2).Perm
    ((sessionOf args loaded outcome order').loop (sessionOf args loaded outcome order').leaves.1
      (sessionOf args loaded outcome order').leaves.2) := by
  rw [loop_completed, loop_completed]
  exact same.flatMap_right _

/-- A log that is opened and closed has the appended rows after those it was opened with. -/
theorem csvRows_closed {Row : Type} {f : LogFile (Line Row)} {resume append : Bool} {ops : List (Op (Line Row))}
    (appends : AppendsRows ops) :
    csvRows (f.doAll (openOps resume append f ++ ops ++ [.close])) =
      csvRows (f.doAll (openOps resume append f)) ++ ops.filterMap appendedRow := by
  have opened := openOps_staysOpen resume append f
  have present : (f.doOp (.openAs append)).durable = some (if append then f.durable.getD [] else []) := rfl
  have stays : StaysOpen ((openOps resume append f).tail ++ ops ++ [.close]) :=
    (opened.append appends.staysOpen).append (by intro again member; simp at member)
  have first : (f.doAll (openOps resume append f)).contents = (f.doOp (.openAs append)).contents ++
      written (openOps resume append f).tail := LogFile.doAll_contents present opened
  have last : (f.doAll (openOps resume append f ++ ops ++ [.close])).contents = (f.doOp (.openAs append)).contents ++
      written ((openOps resume append f).tail ++ ops ++ [.close]) := LogFile.doAll_contents present stays
  rw [csvRows, csvRows, first, last, written_append, written_append, appends.written_eq, ← List.append_assoc,
    ← List.append_assoc, List.filterMap_append, List.filterMap_append, row?_rows]
  exact List.append_nil _

theorem closed_csvRows {Row : Type} (csv : Csv Row) (s : Session) (files : Files) :
    csvRows (csv.file (s.closed files).files) =
      csvRows ((csv.file files).doAll (openOps s.args.resume (csv.append s.args files) (csv.file files))) ++
        csv.rows s s.leaves.1 s.leaves.2 := by
  rw [Session.closed, Session.reach, csv.afterAll, Session.effectsTo, List.filterMap_append, List.filterMap_append,
    List.take_length, csv.opens, csv.closes, Csv.rows_eq]
  exact csvRows_closed (csv.loop_appends s s.leaves.1 s.leaves.2)

theorem effects_finished (args : Args) (run : Run) :
    (run.effects args).filterMap finished = [(run.task.toKey, run.status)] := by
  have ignored := run.latencyEffects_ignored finished args (fun _ _ _ => rfl) (fun _ => rfl)
  by_cases warmup : run.task.warmup
  · simp [Run.effects, warmup, finished]
  · cases kept : run.keptThroughput <;>
      simp [Run.effects, Run.record, warmup, kept, ignored, List.filterMap_cons, finished]

/-- `run_status` has been assigned the statuses of the runs in their order. -/
theorem closed_runStatus (s : Session) (files : Files) :
    (s.closed files).runStatus = assigned ((s.loop s.leaves.1 s.leaves.2).filterMap finished) := by
  have opens : (opening s.args files).filterMap finished = [] := by
    simp only [opening]
    split <;> split <;> rfl
  have closes : closing.filterMap finished = [] := rfl
  rw [Session.closed, Session.reach, Session.effectsTo, List.take_length,
    Progress.afterAll_part Progress.runStatus finished (fun entries item => assign item.1 item.2 entries)
      (by intro p effect; cases effect <;> rfl),
    List.filterMap_append, List.filterMap_append, opens, closes, List.nil_append, List.append_nil]
  rfl

theorem finished_loop (args : Args) (loaded : Loaded) (outcome : Task → Option Result) (order : List Task) :
    ((sessionOf args loaded outcome order).loop (sessionOf args loaded outcome order).leaves.1
      (sessionOf args loaded outcome order).leaves.2).filterMap finished =
      order.map (fun task => (task.toKey, Run.status ⟨task, outcome task⟩)) := by
  rw [loop_completed]
  induction order with
  | nil => rfl
  | cons task rest ih => rw [List.flatMap_cons, List.filterMap_append, effects_finished, ih]; rfl

theorem lookup_map_find? {α κ β : Type} [DecidableEq κ] (keyOf : α → κ) (valueOf : α → β) (l : List α) (key : κ) :
    (l.map (fun a => (keyOf a, valueOf a))).lookup key = (l.find? (fun a => keyOf a = key)).map valueOf := by
  induction l with
  | nil => rfl
  | cons a rest ih =>
    rw [List.map_cons, lookup_cons, ih, List.find?_cons]
    by_cases own : keyOf a = key
    · rw [if_pos own.symm, decide_eq_true own]
      rfl
    · rw [if_neg (fun same => own same.symm), decide_eq_false own]

theorem runStatus_perm (ordered : TaskOrder (tasks args loaded.skipSet) order)
    (ordered' : TaskOrder (tasks args loaded.skipSet) order') (files : Files) :
    ((sessionOf args loaded outcome order).closed files).runStatus.Perm
      ((sessionOf args loaded outcome order').closed files).runStatus := by
  rw [closed_runStatus, closed_runStatus, finished_loop, finished_loop]
  refine perm_of_lookup (assigned_nodup _) (assigned_nodup _) (fun key => ?_)
  rw [lookup_assigned, lookup_assigned, ← List.map_reverse, ← List.map_reverse, lookup_map_find?, lookup_map_find?,
    last_of_order ordered, last_of_order ordered']

theorem nonOk_perm {xs ys : List (Key × String)} (same : xs.Perm ys) : nonOk xs = nonOk ys := by
  have statuses : ((xs.map Prod.snd).filter (· ≠ "ok")).Perm ((ys.map Prod.snd).filter (· ≠ "ok")) :=
    (same.map Prod.snd).filter _
  have sorted : ((xs.map Prod.snd).filter (· ≠ "ok")).dedup.insertionSort (· ≤ ·) =
      ((ys.map Prod.snd).filter (· ≠ "ok")).dedup.insertionSort (· ≤ ·) := by
    refine List.Perm.eq_of_pairwise' (List.pairwise_insertionSort _ _) (List.pairwise_insertionSort _ _) ?_
    exact ((List.perm_insertionSort _ _).trans statuses.dedup).trans (List.perm_insertionSort _ _).symm
  simp only [nonOk, sorted, statuses.count_eq]

theorem suggestMessageCount_perm {xs ys : List ℚ} (same : xs.Perm ys) (cell : Cell)
    (targetSeconds steadyWindowSeconds : ℚ) :
    suggestMessageCount cell xs targetSeconds steadyWindowSeconds =
      suggestMessageCount cell ys targetSeconds steadyWindowSeconds := by
  have empty : xs = [] ↔ ys = [] := by
    rw [← List.length_eq_zero_iff, same.length_eq, List.length_eq_zero_iff]
  simp only [suggestMessageCount, empty, mean_perm same]

/-- Whatever the outcomes of the tasks are, and whatever was there before: every two
    orders of a task list lead to the same results. -/
theorem run_order_irrelevant (args : Args) (files : Files) (loaded : Loaded) (outcome : Task → Option Result)
    (order order' : List Task) (ordered : TaskOrder (tasks args loaded.skipSet) order)
    (ordered' : TaskOrder (tasks args loaded.skipSet) order') :
    SameResults args ((sessionOf args loaded outcome order).closed files)
      ((sessionOf args loaded outcome order').closed files) := by
  have loops := loop_perm args loaded outcome (ordered.perm.trans ordered'.perm.symm)
  have rows {Row : Type} (csv : Csv Row) :
      (csvRows (csv.file ((sessionOf args loaded outcome order).closed files).files)).Perm
        (csvRows (csv.file ((sessionOf args loaded outcome order').closed files).files)) := by
    rw [closed_csvRows, closed_csvRows]
    exact (loops.filterMap csv.row).append_left _
  have throughputs (cell : Cell) :
      (((sessionOf args loaded outcome order).closed files).throughputResults cell).Perm
        (((sessionOf args loaded outcome order').closed files).throughputResults cell) := by
    rw [Session.closed_throughputResults, Session.closed_throughputResults]
    exact ((loops.filterMap Effect.kept).filterMap _).append_left _
  have latencies (place : Cell × Metric) :
      (((sessionOf args loaded outcome order).closed files).latencyResults place).Perm
        (((sessionOf args loaded outcome order').closed files).latencyResults place) := by
    rw [Session.closed_latencyResults, Session.closed_latencyResults]
    exact (loops.filterMap Effect.keptLatency).filterMap _
  refine ⟨rows throughputCsv, rows latencyCsv, fun cell => mean_perm (throughputs cell),
    fun cell => variance_perm (throughputs cell), fun place => mean_perm (latencies place),
    fun place => variance_perm (latencies place), fun targetSeconds steadyWindowSeconds => ?_,
    nonOk_perm (runStatus_perm ordered ordered' files)⟩
  simp only [suggestMessageCounts, suggestMessageCount_perm (throughputs _)]

end

/-- One warm-up and two measured runs of a cell. -/
def threeTasks : Args := { oneCell false "repid" 2 with warmupRuns := 1 }

def threeTask (run : Nat) (warmup : Bool) : Task := ⟨⟨⟨"repid", 1⟩, run⟩, warmup⟩

/-- The warm-up is too slow, and the measured runs have throughputs of their own. -/
def threeOutcomes (task : Task) : Option Result :=
  if task.warmup then some ⟨"timeout", []⟩ else some ⟨"ok", [("throughput", .float task.run)]⟩

theorem run_order_irrelevant_three :
    SameResults threeTasks
      ((sessionOf threeTasks ⟨[], fun _ => []⟩ threeOutcomes (tasks threeTasks [])).closed .absent)
      ((sessionOf threeTasks ⟨[], fun _ => []⟩ threeOutcomes
        [threeTask 1 true, threeTask 2 false, threeTask 1 false]).closed .absent) := by
  have measured : (tasks threeTasks []).filter (fun task => !task.warmup) = [threeTask 1 false, threeTask 2 false] := by
    decide +kernel
  have warmups : (tasks threeTasks []).filter Task.warmup = [threeTask 1 true] := by decide +kernel
  refine run_order_irrelevant threeTasks .absent ⟨[], fun _ => []⟩ threeOutcomes _ _ (.inl rfl)
    (.inr ⟨[threeTask 2 false, threeTask 1 false], ?_, ?_⟩)
  · rw [measured]
    exact .swap _ _ _
  · rw [warmups]
    rfl

end RepidBench.RunOrder
