import RepidBench.RunOrder

/-!
The warning at the end of a session, about its runs with a non-ok status. It counts
the entries of `run_status`, in which a run overwrites an earlier one with its key:
a measured run overwrites the warm-up with its index, but a warm-up whose index is
not measured in the session stays, and is counted.
-/
namespace RepidBench.NonOkSummary
open BufferedLog Dictionaries RunOrder Sessions Specs

/-! ## What the warning says -/

/-- `sum(non_ok.values())`. -/
def warnedTotal (runStatus : List (Key × String)) : Nat := ((nonOk runStatus).map Prod.snd).sum

/-- The number given for a status. -/
def warned (runStatus : List (Key × String)) (status : String) : Nat := ((nonOk runStatus).lookup status).getD 0

theorem warned_eq (runStatus : List (Key × String)) {status : String} (bad : status ≠ "ok") :
    warned runStatus status = (runStatus.map Prod.snd).count status := by
  have same : ((runStatus.map Prod.snd).filter (· ≠ "ok")).count status = (runStatus.map Prod.snd).count status :=
    List.count_filter (by simpa using bad)
  rw [← same, warned, nonOk]
  generalize (runStatus.map Prod.snd).filter (· ≠ "ok") = statuses
  have listed := (List.perm_insertionSort (· ≤ ·) statuses.dedup).mem_iff (a := status)
  have entry : ((statuses.dedup.insertionSort (· ≤ ·)).map (fun other => (other, statuses.count other))).lookup status =
      ((statuses.dedup.insertionSort (· ≤ ·)).find? (fun other => other = status)).map statuses.count :=
    lookup_map_find? id statuses.count _ status
  rw [entry]
  cases found : (statuses.dedup.insertionSort (· ≤ ·)).find? (fun other => other = status) with
  | none =>
    have absent : status ∉ statuses := by
      intro member
      have other := List.find?_eq_none.mp found status (listed.mpr (List.mem_dedup.mpr member))
      simp at other
    exact (List.count_eq_zero.mpr absent).symm
  | some other =>
    obtain rfl : other = status := by simpa using List.find?_some found
    rfl

theorem warnedTotal_eq (runStatus : List (Key × String)) :
    warnedTotal runStatus = (runStatus.map Prod.snd).countP (· ≠ "ok") := by
  rw [warnedTotal, nonOk, List.map_map, List.countP_eq_length_filter]
  generalize (runStatus.map Prod.snd).filter (· ≠ "ok") = statuses
  have sorted := (List.perm_insertionSort (· ≤ ·) statuses.dedup).map statuses.count
  exact sorted.sum_eq.trans (List.sum_map_count_dedup_eq_length statuses)

/-- The statuses in the throughput rows that a session has written: those of the
    measured runs it has executed. -/
def measuredStatuses (s : Session) : List String :=
  (throughputCsv.rows s s.leaves.1 s.leaves.2).map ThroughputRow.status

/-- The warning counts the measured runs, all of them and status by status. -/
structure CountsMeasured (s : Session) (files : Files) : Prop where
  total : warnedTotal (s.closed files).runStatus = (measuredStatuses s).countP (· ≠ "ok")
  breakdown : ∀ status, status ≠ "ok" →
    warned (s.closed files).runStatus status = (measuredStatuses s).count status

/-! ## The runs of a session -/

def runKey (run : Run) : Key := run.task.toKey

/-- A warm-up run that ended with the status. -/
def warmupWith (status : String) (run : Run) : Bool := run.task.warmup && run.status = status

/-- A measured run that ended with the status. -/
def measuredWith (status : String) (run : Run) : Bool := !run.task.warmup && run.status = status

section
variable {s : Session} {files : Files}

theorem completed_runStatus (completed : s.ending = .completed) (files : Files) :
    (s.closed files).runStatus = assigned (s.runs.map (fun run => (runKey run, run.status))) := by
  have each (runs : List Run) : (runs.flatMap (Run.effects s.args)).filterMap finished =
      runs.map (fun run => (runKey run, run.status)) := by
    induction runs with
    | nil => rfl
    | cons run rest ih => rw [List.flatMap_cons, List.filterMap_append, effects_finished, ih]; rfl
  rw [closed_runStatus, Session.loop_completed completed, each]

theorem completed_measured (completed : s.ending = .completed) :
    measuredStatuses s = (s.runs.filter (fun run => !run.task.warmup)).map Run.status := by
  have each (runs : List Run) : ((runs.flatMap (Run.effects s.args)).filterMap throughputCsv.row).map
      ThroughputRow.status = (runs.filter (fun run => !run.task.warmup)).map Run.status := by
    induction runs with
    | nil => rfl
    | cons run rest ih =>
      rw [List.flatMap_cons, List.filterMap_append, List.map_append, ih, Csv.effects_row]
      by_cases warmup : run.task.warmup = true
      · have none : throughputCsv.record s.args run = none := if_pos warmup
        simp [none, warmup]
      · have row : throughputCsv.record s.args run = some (run.throughputRow s.args) := if_neg warmup
        simp [row, warmup, Run.throughputRow]
  rw [measuredStatuses, Csv.rows, Session.loop_completed completed, each]

/-! ## When the warning counts the measured runs -/

theorem completed_statuses (completed : s.ending = .completed) (files : Files) :
    ((s.closed files).runStatus.map Prod.snd).Perm ((kept runKey s.runs).map Run.status) := by
  rw [completed_runStatus completed]
  have entries := (assigned_perm runKey Run.status s.runs).map Prod.snd
  rwa [List.map_map] at entries

/-- The runs with a status that the warning counts: the last run of each key. -/
theorem warned_runs (completed : s.ending = .completed) (files : Files) {status : String} (bad : status ≠ "ok") :
    warned (s.closed files).runStatus status =
      (kept runKey s.runs).countP (warmupWith status) + (kept runKey s.runs).countP (measuredWith status) := by
  rw [warned_eq _ bad, (completed_statuses completed files).count_eq]
  induction kept runKey s.runs with
  | nil => rfl
  | cons run rest ih =>
    rw [List.map_cons, List.count_cons, List.countP_cons, List.countP_cons, ih]
    cases warmup : run.task.warmup <;> simp [warmupWith, measuredWith, warmup] <;> omega

/-- The rows with a status: those of all measured runs. -/
theorem measured_runs (completed : s.ending = .completed) (status : String) :
    (measuredStatuses s).count status =
      (kept runKey s.runs).countP (measuredWith status) + (overwritten runKey s.runs).countP (measuredWith status) := by
  have all : (measuredStatuses s).count status = s.runs.countP (measuredWith status) := by
    rw [completed_measured completed]
    induction s.runs with
    | nil => rfl
    | cons run rest ih =>
      rw [List.filter_cons, List.countP_cons, ← ih]
      cases warmup : run.task.warmup <;> simp [measuredWith, warmup, List.count_cons]
  rw [all, ← List.countP_append, (kept_append_overwritten runKey s.runs).countP_eq]

/-- The statuses decide the total. -/
theorem countsMeasured_iff (s : Session) (files : Files) :
    CountsMeasured s files ↔ ∀ status, status ≠ "ok" →
      warned (s.closed files).runStatus status = (measuredStatuses s).count status := by
  constructor
  · exact CountsMeasured.breakdown
  · intro breakdown
    refine ⟨?_, breakdown⟩
    rw [warnedTotal_eq, List.countP_eq_length_filter, List.countP_eq_length_filter]
    apply List.Perm.length_eq
    refine List.perm_iff_count.mpr (fun status => ?_)
    by_cases ok : status = "ok"
    · subst ok
      rw [List.count_eq_zero.mpr (by simp), List.count_eq_zero.mpr (by simp)]
    · have kept (statuses : List String) : (statuses.filter (· ≠ "ok")).count status = statuses.count status :=
        List.count_filter (by simpa using ok)
      rw [kept, kept, ← warned_eq _ ok]
      exact breakdown status ok

theorem countsMeasured_iff_runs (completed : s.ending = .completed) (files : Files) :
    CountsMeasured s files ↔ ∀ status, status ≠ "ok" →
      (kept runKey s.runs).countP (warmupWith status) = (overwritten runKey s.runs).countP (measuredWith status) := by
  rw [countsMeasured_iff]
  refine forall_congr' (fun status => imp_congr_right (fun bad => ?_))
  rw [warned_runs completed files bad, measured_runs completed]
  omega

end

/-! ## Sessions whose arguments name nothing twice -/

section
variable {s : Session} {files : Files} (distinct : s.args.Distinct) (admissible : s.Admissible files)
include distinct admissible

theorem runs_nodup : (s.runs.map Run.task).Nodup :=
  admissible.order.perm.nodup_iff.mpr (tasks_nodup distinct s.loaded.skipSet)

theorem apart {before after : List Run} {run other : Run} (split : s.runs = before ++ run :: after)
    (later : other ∈ after) : other.task ≠ run.task := by
  have nodup := runs_nodup distinct admissible
  rw [split, List.map_append, List.map_cons] at nodup
  have absent := (List.nodup_cons.mp (List.nodup_append.mp nodup).2.1).1
  intro same
  exact absent (List.mem_map.mpr ⟨other, later, same⟩)

/-- No run follows the measured one of its key. -/
theorem measured_last {before after : List Run} {run other : Run} (split : s.runs = before ++ run :: after)
    (measured : run.task.warmup = false) (later : other ∈ after) : runKey other ≠ runKey run := by
  intro same
  have own : run.task = ⟨runKey run, false⟩ := by rw [← measured]; rfl
  have listed : ⟨runKey run, false⟩ ∈ tasks s.args s.loaded.skipSet := by
    refine admissible.order.perm.mem_iff.mp (List.mem_map.mpr ⟨run, ?_, own⟩)
    rw [split]
    exact List.mem_append_right before List.mem_cons_self
  have ends := order_ends admissible.order listed ⟨_, admissible.order.perm.mem_iff.mpr listed, rfl⟩
  rw [split, List.map_append, List.map_cons, List.reverse_append, List.reverse_cons, List.find?_append,
    List.find?_append] at ends
  have found : ∃ task, (after.map Run.task).reverse.find? (fun task => task.toKey = runKey run) = some task := by
    rw [← Option.isSome_iff_exists, List.find?_isSome]
    exact ⟨other.task, List.mem_reverse.mpr (List.mem_map.mpr ⟨other, later, rfl⟩), decide_eq_true same⟩
  obtain ⟨task, last⟩ := found
  rw [last, Option.some_or, Option.some_or, Option.some.injEq] at ends
  obtain ⟨again, inside, isTask⟩ := List.mem_map.mp (List.mem_reverse.mp (List.mem_of_find?_eq_some last))
  exact apart distinct admissible split inside (isTask.trans (ends.trans own.symm))

theorem overwritten_warmup {run : Run} (member : run ∈ overwritten runKey s.runs) : run.task.warmup = true := by
  obtain ⟨before, after, split, other, later, same⟩ := mem_of_overwritten member
  by_contra measured
  exact measured_last distinct admissible split (by simpa using measured) later same

/-- A warm-up keeps its entry if the measured run of its key is not in the session. -/
theorem warmup_kept {run : Run} (warmup : run.task.warmup = true) :
    run ∈ kept runKey s.runs ↔ run ∈ s.runs ∧ ∀ other ∈ s.runs, other.task ≠ ⟨runKey run, false⟩ := by
  rw [mem_kept]
  constructor
  · rintro ⟨before, after, split, last⟩
    have inside : run ∈ s.runs := by
      rw [split]
      exact List.mem_append_right before List.mem_cons_self
    refine ⟨inside, fun other member own => ?_⟩
    have key : runKey other = runKey run := by rw [runKey, own]
    rw [split, List.mem_append, List.mem_cons] at member
    rcases member with earlier | rfl | later
    · -- The warm-up would come after the measured run.
      obtain ⟨front, rest, rfl⟩ := List.append_of_mem earlier
      have split' : s.runs = front ++ other :: (rest ++ run :: after) := by rw [split]; simp
      apply measured_last distinct admissible split' (congrArg Task.warmup own) _ key.symm
      exact List.mem_append_right rest List.mem_cons_self
    · rw [own] at warmup
      cases warmup
    · exact last other later key
  · rintro ⟨member, alone⟩
    obtain ⟨before, after, split⟩ := List.append_of_mem member
    refine ⟨before, after, split, fun other later same => ?_⟩
    have inside : other ∈ s.runs := by
      rw [split]
      exact List.mem_append_right before (List.mem_cons_of_mem run later)
    cases kind : other.task.warmup with
    | false =>
      apply alone other inside
      rw [← same, ← kind]
      rfl
    | true =>
      apply apart distinct admissible split later
      have own : other.task = ⟨runKey other, true⟩ := by rw [← kind]; rfl
      rw [own, same, ← warmup]
      rfl

theorem unmatched_iff :
    (∀ status, status ≠ "ok" →
      (kept runKey s.runs).countP (warmupWith status) = (overwritten runKey s.runs).countP (measuredWith status)) ↔
    ∀ run ∈ s.runs, run.task.warmup = true → (∀ other ∈ s.runs, other.task ≠ ⟨run.task.toKey, false⟩) →
      run.status = "ok" := by
  have none (status : String) : (overwritten runKey s.runs).countP (measuredWith status) = 0 := by
    refine List.countP_eq_zero.mpr (fun run member => ?_)
    simp [measuredWith, overwritten_warmup distinct admissible member]
  simp only [none, List.countP_eq_zero]
  constructor
  · intro ok run member warmup alone
    by_contra bad
    apply ok run.status bad run ((warmup_kept distinct admissible warmup).mpr ⟨member, alone⟩)
    simp [warmupWith, warmup]
  · intro ok status bad run member ended
    obtain ⟨warmup, own⟩ : run.task.warmup = true ∧ run.status = status := by simpa [warmupWith] using ended
    obtain ⟨inside, alone⟩ := (warmup_kept distinct admissible warmup).mp member
    exact bad (own.symm.trans (ok run inside warmup alone))

end

/-- After every session that is not interrupted: the warning counts the measured runs if
    and only if, for each non-ok status, as many warm-ups keep their entry with it as
    measured runs lose theirs. Where the arguments name nothing twice, no measured run
    loses its entry, and the warning is right if and only if every warm-up run with an
    index that is not measured in the session is ok. -/
theorem non_ok_counts_iff (s : Session) (files : Files) (completed : s.ending = .completed) :
    (CountsMeasured s files ↔ ∀ status, status ≠ "ok" →
      (kept runKey s.runs).countP (warmupWith status) = (overwritten runKey s.runs).countP (measuredWith status)) ∧
    (s.args.Distinct → s.Admissible files →
      (CountsMeasured s files ↔
        ∀ run ∈ s.runs, run.task.warmup = true → (∀ other ∈ s.runs, other.task ≠ ⟨run.task.toKey, false⟩) →
          run.status = "ok")) := by
  constructor
  · exact countsMeasured_iff_runs completed files
  · intro distinct admissible
    rw [countsMeasured_iff_runs completed files, unmatched_iff distinct admissible]

def twoWarmupsArgs : Args := { oneCell false "repid" 1 with warmupRuns := 2 }

/-- One measured run after two warm-ups, of which one ended with the status. -/
def twoWarmups (slow : String) : Session where
  args := twoWarmupsArgs
  loaded := ⟨[], fun _ => []⟩
  runs := [⟨⟨⟨⟨"repid", 1⟩, 1⟩, true⟩, some ⟨"ok", []⟩⟩, ⟨⟨⟨⟨"repid", 1⟩, 2⟩, true⟩, some ⟨slow, []⟩⟩,
    okRun "repid" 1 100]
  ending := .completed

theorem twoWarmups_admissible (slow : String) : (twoWarmups slow).Admissible .absent := by
  refine ⟨rfl, .inl ?_⟩
  have listed : tasks twoWarmupsArgs [] = [⟨⟨⟨"repid", 1⟩, 1⟩, true⟩, ⟨⟨⟨"repid", 1⟩, 2⟩, true⟩,
      ⟨⟨⟨"repid", 1⟩, 1⟩, false⟩] := by decide +kernel
  exact listed.symm

theorem non_ok_counts_two : CountsMeasured (twoWarmups "ok") .absent := by
  refine ((non_ok_counts_iff (twoWarmups "ok") .absent rfl).2 (oneCell_distinct false "repid" 1)
    (twoWarmups_admissible "ok")).mpr ?_
  intro run member
  simp only [twoWarmups, List.mem_cons, List.not_mem_nil, or_false] at member
  rcases member with rfl | rfl | rfl <;> simp [Run.status, Run.outcome, okRun]

/-- The one measured run is ok, and the warning says that a run timed out. -/
theorem non_ok_counts_warmup :
    (twoWarmups "timeout").Admissible .absent ∧ measuredStatuses (twoWarmups "timeout") = ["ok"] ∧
    nonOk ((twoWarmups "timeout").closed .absent).runStatus = [("timeout", 1)] ∧
    ¬ CountsMeasured (twoWarmups "timeout") .absent := by
  have measured : measuredStatuses (twoWarmups "timeout") = ["ok"] := by decide +kernel
  have warning : nonOk ((twoWarmups "timeout").closed .absent).runStatus = [("timeout", 1)] := by decide +kernel
  refine ⟨twoWarmups_admissible "timeout", measured, warning, fun counts => ?_⟩
  have total := counts.total
  rw [warnedTotal, warning, measured] at total
  simp at total

end RepidBench.NonOkSummary
