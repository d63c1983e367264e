import RepidBench.Sessions

/-!
What the effects of a session do to the two logs and to the results in memory: the
logs grow by the rows of the runs, after their header, and the tables grow by the
values that the loop keeps.
-/
namespace RepidBench.Sessions
open BufferedLog Specs

universe u v

/-! ## The parts that an effect concerns -/

namespace Effect

def throughputOp : Effect → Option (Op (Line ThroughputRow))
  | .throughput op => some op
  | _ => none

def latencyOp : Effect → Option (Op (Line LatencyRow))
  | .latency op => some op
  | _ => none

/-- The cell and the value that are kept in `throughput_results`. -/
def kept : Effect → Option (Cell × ℚ)
  | .keepThroughput cell value => some (cell, value)
  | _ => none

def keptLatency : Effect → Option ((Cell × Metric) × ℚ)
  | .keepLatency cell metric value => some ((cell, metric), value)
  | _ => none

end Effect

/-- The values of the items under a key. -/
def valuesAt {κ : Type u} {β : Type v} [DecidableEq κ] (key : κ) (items : List (κ × β)) : List β :=
  items.filterMap (fun item => if item.1 = key then some item.2 else none)

section
variable {κ : Type u} {β : Type v} [DecidableEq κ]

@[simp] theorem valuesAt_nil (key : κ) : valuesAt key ([] : List (κ × β)) = [] := rfl

@[simp] theorem valuesAt_append (key : κ) (xs ys : List (κ × β)) :
    valuesAt key (xs ++ ys) = valuesAt key xs ++ valuesAt key ys :=
  List.filterMap_append

theorem foldl_valuesAt (key : κ) (items : List (κ × β)) (values : List β) :
    items.foldl (fun values item => values ++ valuesAt key [item]) values = values ++ valuesAt key items := by
  induction items generalizing values with
  | nil => simp
  | cons item rest ih => rw [List.foldl_cons, ih, List.append_assoc, ← valuesAt_append, List.singleton_append]

theorem appendAt_apply (table : κ → List β) (key other : κ) (value : β) :
    appendAt table key value other = table other ++ valuesAt other [(key, value)] := by
  by_cases same : other = key
  · simp [appendAt, valuesAt, same]
  · simp [appendAt, valuesAt, same, Ne.symm same]

end

namespace Progress

@[simp] theorem afterAll_nil (p : Progress) : p.afterAll [] = p := rfl
@[simp] theorem afterAll_cons (p : Progress) (effect : Effect) (rest : List Effect) :
    p.afterAll (effect :: rest) = (p.after effect).afterAll rest := rfl

/-- A part of the progress that only some effects change follows these effects. -/
theorem afterAll_part {β : Type u} {γ : Type v} (part : Progress → β) (concerns : Effect → Option γ)
    (change : β → γ → β) (one : ∀ p effect, part (p.after effect) = (concerns effect).elim (part p) (change (part p)))
    (p : Progress) (effects : List Effect) :
    part (p.afterAll effects) = (effects.filterMap concerns).foldl change (part p) := by
  induction effects generalizing p with
  | nil => rfl
  | cons effect rest ih =>
    rw [afterAll_cons, ih, one]
    cases found : concerns effect with
    | none => simp [found]
    | some x => simp [found]

theorem afterAll_throughputResults (p : Progress) (effects : List Effect) (cell : Cell) :
    (p.afterAll effects).throughputResults cell =
      p.throughputResults cell ++ valuesAt cell (effects.filterMap Effect.kept) := by
  rw [← foldl_valuesAt]
  apply afterAll_part (fun p => p.throughputResults cell)
  intro p effect
  cases effect with
  | keepThroughput target value => exact appendAt_apply p.throughputResults target cell value
  | _ => rfl

theorem afterAll_latencyResults (p : Progress) (effects : List Effect) (place : Cell × Metric) :
    (p.afterAll effects).latencyResults place =
      p.latencyResults place ++ valuesAt place (effects.filterMap Effect.keptLatency) := by
  rw [← foldl_valuesAt]
  apply afterAll_part (fun p => p.latencyResults place)
  intro p effect
  cases effect with
  | keepLatency target metric value => exact appendAt_apply p.latencyResults (target, metric) place value
  | _ => rfl

end Progress

/-! ## A log of rows -/

section
variable {Row : Type}

/-- The row that an operation appends. -/
def appendedRow : Op (Line Row) → Option Row
  | .write (.row row) => some row
  | _ => none

/-- The operations append rows, and flush. -/
def AppendsRows (ops : List (Op (Line Row))) : Prop := ∀ op ∈ ops, op = .flush ∨ ∃ row, op = .write (.row row)

theorem AppendsRows.staysOpen {ops : List (Op (Line Row))} (appends : AppendsRows ops) : StaysOpen ops := by
  intro append member
  rcases appends _ member with flush | ⟨row, write⟩
  · cases flush
  · cases write

theorem AppendsRows.written_eq {ops : List (Op (Line Row))} (appends : AppendsRows ops) :
    written ops = (ops.filterMap appendedRow).map .row := by
  induction ops with
  | nil => rfl
  | cons op rest ih =>
    have later := ih (fun other member => appends other (List.mem_cons_of_mem op member))
    rcases appends op List.mem_cons_self with rfl | ⟨row, rfl⟩
    · simpa [List.filterMap_cons, Op.line, appendedRow] using later
    · simpa [Op.line, appendedRow] using later

/-- A closed file that holds these rows after its header, or that does not exist
    and would hold none. -/
def Holds (rows : List Row) (f : LogFile (Line Row)) : Prop :=
  f.buffer = [] ∧ (f.durable = none ∧ rows = [] ∨ f.durable = some (.header :: rows.map .row))

theorem rowsOf_rows (rows : List Row) : rowsOf (rows.map Line.row) = some rows := by
  induction rows with
  | nil => rfl
  | cons row rest ih => simp [rowsOf, ih]

theorem Holds.readRows {rows : List Row} {f : LogFile (Line Row)} (holds : Holds rows f) :
    readRows (f.durable.getD []) = some rows := by
  obtain ⟨-, ⟨absent, rfl⟩ | present⟩ := holds
  · simp [absent, Sessions.readRows]
  · simp [present, Sessions.readRows, rowsOf_rows]

/-- The operations that open a log and write its header where the session does. -/
def openOps (resume append : Bool) (f : LogFile (Line Row)) : List (Op (Line Row)) :=
  .openAs append :: if !resume || f.durable.isNone then [.write .header] else []

/-- The rows that a session continues. -/
def continued (resume : Bool) (rows : List Row) : List Row := if resume then rows else []

theorem openOps_staysOpen (resume append : Bool) (f : LogFile (Line Row)) :
    StaysOpen (openOps resume append f).tail := by
  intro again member
  simp only [openOps, List.tail_cons] at member
  split at member <;> simp at member

/-- Both ways in which `main` opens its logs give the header and the rows that are
    continued. -/
theorem opened_lines {rows : List Row} {f : LogFile (Line Row)} {resume append : Bool}
    (holds : resume = true → Holds rows f)
    (mode : append = resume ∨ append = (resume && f.durable.isSome)) :
    (f.doOp (.openAs append)).contents ++ written (openOps resume append f).tail =
      .header :: (continued resume rows).map .row := by
  cases resume with
  | false =>
    obtain rfl : append = false := by simpa using mode
    simp [openOps, LogFile.doOp, LogFile.contents, Op.line, continued]
  | true =>
    obtain ⟨-, ⟨absent, rfl⟩ | present⟩ := holds rfl
    · simp [absent, openOps, LogFile.doOp, LogFile.contents, Op.line, continued]
    · obtain rfl : append = true := by simpa [present] using mode
      simp [present, openOps, LogFile.doOp, LogFile.contents, continued]

/-- The log while it is open. -/
theorem opened_contents {rows : List Row} {f : LogFile (Line Row)} {resume append : Bool}
    (holds : resume = true → Holds rows f)
    (mode : append = resume ∨ append = (resume && f.durable.isSome)) {ops : List (Op (Line Row))}
    (appends : AppendsRows ops) :
    (∃ durable, (f.doAll (openOps resume append f ++ ops)).durable = some durable) ∧
    (f.doAll (openOps resume append f ++ ops)).contents =
      .header :: (continued resume rows ++ ops.filterMap appendedRow).map .row := by
  have stays := (openOps_staysOpen resume append f).append appends.staysOpen
  have present : (f.doOp (.openAs append)).durable = some (if append then f.durable.getD [] else []) := rfl
  have split : f.doAll (openOps resume append f ++ ops) =
      (f.doOp (.openAs append)).doAll ((openOps resume append f).tail ++ ops) := rfl
  constructor
  · obtain ⟨after, durable, -⟩ := LogFile.doAll_keeps present stays
    exact ⟨after, split ▸ durable⟩
  · rw [split, LogFile.doAll_contents present stays, written_append, appends.written_eq, ← List.append_assoc,
      opened_lines holds mode, List.map_append, List.cons_append]

/-- The log when it is closed. -/
theorem closed_holds {rows : List Row} {f : LogFile (Line Row)} {resume append : Bool}
    (holds : resume = true → Holds rows f)
    (mode : append = resume ∨ append = (resume && f.durable.isSome)) {ops : List (Op (Line Row))}
    (appends : AppendsRows ops) :
    Holds (continued resume rows ++ ops.filterMap appendedRow)
      (f.doAll (openOps resume append f ++ ops ++ [.close])) := by
  rw [LogFile.doAll_append]
  refine ⟨rfl, .inr ?_⟩
  exact congrArg some (opened_contents holds mode appends).2

/-- A log at any time of a session: as it was, or an initial part of the header and
    the rows. -/
theorem contents_cases {rows : List Row} {f : LogFile (Line Row)} {resume append : Bool}
    (holds : resume = true → Holds rows f)
    (mode : append = resume ∨ append = (resume && f.durable.isSome)) {ops done : List (Op (Line Row))}
    (appends : AppendsRows ops) (initial : done <+: openOps resume append f ++ ops ++ [.close]) :
    f.doAll done = f ∨
    (∃ after, (f.doAll done).durable = some after) ∧
      (f.doAll done).contents <+: .header :: (continued resume rows ++ ops.filterMap appendedRow).map .row := by
  cases done with
  | nil => exact .inl rfl
  | cons first rest =>
    right
    obtain ⟨rfl, inside⟩ : first = .openAs append ∧ rest <+: (openOps resume append f).tail ++ ops ++ [.close] := by
      simpa [openOps] using initial
    have present : (f.doOp (.openAs append)).durable = some (if append then f.durable.getD [] else []) := rfl
    have stays : StaysOpen ((openOps resume append f).tail ++ ops ++ [.close]) := by
      apply ((openOps_staysOpen resume append f).append appends.staysOpen).append
      intro again member
      simp at member
    have staysRest := stays.sublist inside.sublist
    have lines : (f.doOp (.openAs append)).contents ++ written ((openOps resume append f).tail ++ ops ++ [.close]) =
        .header :: (continued resume rows ++ ops.filterMap appendedRow).map .row := by
      rw [written_append, written_append, appends.written_eq, ← List.append_assoc, ← List.append_assoc,
        opened_lines holds mode]
      simp [Op.line]
    constructor
    · obtain ⟨after, durable, -⟩ := LogFile.doAll_keeps present staysRest
      exact ⟨after, durable⟩
    · rw [LogFile.doAll_cons, LogFile.doAll_contents present staysRest, ← lines]
      exact (List.prefix_append_right_inj _).mpr (inside.filterMap Op.line)

end

/-! ## The two logs of a session -/

namespace Run

/-- The row that the loop writes to the throughput log for a run. -/
def throughputRecord (args : Args) (run : Run) : Option ThroughputRow :=
  if run.task.warmup then none else some (run.throughputRow args)

/-- The row that the loop writes to the latency log for a run. -/
def latencyRecord (args : Args) (run : Run) : Option LatencyRow :=
  let fw := run.task.framework
  if run.task.warmup then none
  else if isLatency fw && args.frameworks.contains fw && run.status = "ok" then some run.latencyRow
  else if isLatency fw && run.status ≠ "ok" then some run.failedLatencyRow
  else none

/-- What the loop keeps of a run in `throughput_results`. -/
def keptItem (run : Run) : Option (Cell × ℚ) :=
  if run.task.warmup then none else run.keptThroughput.map (fun value => (run.task.toCell, value))

theorem metricEffects_ignored {γ : Type} (f : Effect → Option γ) (run : Run)
    (ignored : ∀ cell metric value, f (.keepLatency cell metric value) = none) :
    run.metricEffects.filterMap f = [] := by
  rw [List.filterMap_eq_nil_iff]
  intro effect member
  obtain ⟨metric, -, keeps⟩ := List.mem_filterMap.mp member
  obtain ⟨value, -, rfl⟩ := Option.map_eq_some_iff.mp keeps
  exact ignored _ metric value

/-- The effects for a latency benchmark leave everything else as it is. -/
theorem latencyEffects_ignored {γ : Type} (f : Effect → Option γ) (args : Args) (run : Run)
    (keeps : ∀ cell metric value, f (.keepLatency cell metric value) = none) (writes : ∀ op, f (.latency op) = none) :
    (run.latencyEffects args).filterMap f = [] := by
  simp only [latencyEffects]
  split
  · simp [List.filterMap_append, metricEffects_ignored f run keeps, writes]
  · split <;> simp [writes]

end Run

/-- The operations that write a row and flush it. -/
def recordOps {Row : Type} (row : Option Row) : List (Op (Line Row)) :=
  row.elim [] (fun row => [.write (.row row), .flush])

/-- One of the CSV files: the effects on it, the mode in which it is opened, and the
    row that is written for a run. -/
structure Csv (Row : Type) where
  file : Files → LogFile (Line Row)
  op : Effect → Option (Op (Line Row))
  append : Args → Files → Bool
  record : Args → Run → Option Row
  mode : ∀ args files, append args files = args.resume ∨
    append args files = (args.resume && (file files).durable.isSome)
  crashes : ∀ files : Files, file files.crash = (file files).crash
  change : ∀ (p : Progress) effect, file (p.after effect).files = (op effect).elim (file p.files) (file p.files).doOp
  opens : ∀ args files, (opening args files).filterMap op = openOps args.resume (append args files) (file files)
  closes : closing.filterMap op = [.close]
  records : ∀ args run, (run.effects args).filterMap op = recordOps (record args run)

def throughputCsv : Csv ThroughputRow where
  file := Files.throughput
  op := Effect.throughputOp
  append := fun args _ => args.resume
  record := Run.throughputRecord
  mode := fun _ _ => .inl rfl
  crashes := fun _ => rfl
  change := by intro p effect; cases effect <;> rfl
  opens := by
    intro args files
    simp only [opening, openOps]
    split <;> split <;> rfl
  closes := rfl
  records := by
    intro args run
    have ignored := run.latencyEffects_ignored Effect.throughputOp args (fun _ _ _ => rfl) (fun _ => rfl)
    by_cases warmup : run.task.warmup
    · simp [Run.effects, Run.throughputRecord, warmup, recordOps, Effect.throughputOp, List.filterMap_cons]
    · cases run.keptThroughput <;>
        simp [Run.effects, Run.record, Run.throughputRecord, warmup, recordOps, List.filterMap_cons,
          List.filterMap_append, ignored, Effect.throughputOp]

def latencyCsv : Csv LatencyRow where
  file := Files.latency
  op := Effect.latencyOp
  append := fun args files => args.resume && files.latency.durable.isSome
  record := Run.latencyRecord
  mode := fun _ _ => .inr rfl
  crashes := fun _ => rfl
  change := by intro p effect; cases effect <;> rfl
  opens := by
    intro args files
    simp only [opening, openOps]
    split <;> split <;> rfl
  closes := rfl
  records := by
    intro args run
    have ignored := run.metricEffects_ignored Effect.latencyOp (fun _ _ _ => rfl)
    by_cases warmup : run.task.warmup
    · simp [Run.effects, Run.latencyRecord, warmup, recordOps, Effect.latencyOp, List.filterMap_cons]
    · have first : (run.effects args).filterMap Effect.latencyOp =
          (run.latencyEffects args).filterMap Effect.latencyOp := by
        cases kept : run.keptThroughput <;>
          simp [Run.effects, Run.record, warmup, kept, Effect.latencyOp, List.filterMap_cons]
      rw [first]
      simp only [Run.latencyEffects, Run.latencyRecord, warmup]
      split
      · simp [List.filterMap_append, ignored, recordOps, Effect.latencyOp]
      · split <;> simp [recordOps, Effect.latencyOp]

/-! ## The loop, run by run -/

theorem effects_kept (args : Args) (run : Run) : (run.effects args).filterMap Effect.kept = run.keptItem.toList := by
  have ignored := run.latencyEffects_ignored Effect.kept args (fun _ _ _ => rfl) (fun _ => rfl)
  by_cases warmup : run.task.warmup
  · simp [Run.effects, Run.keptItem, warmup, Effect.kept]
  · cases kept : run.keptThroughput <;>
      simp [Run.effects, Run.record, Run.keptItem, warmup, kept, ignored, List.filterMap_cons, Effect.kept]

namespace Session

section
variable {γ : Type u} (concerns : Effect → Option γ) (ofRun : Run → Option γ) {s : Session}

/-- A part of the effects that each run has at most once. -/
theorem loop_filterMap (one : ∀ run, (run.effects s.args).filterMap concerns = (ofRun run).toList)
    (finished within : Nat) :
    (s.loop finished within).filterMap concerns =
      (s.runs.take finished).filterMap ofRun ++ (s.current finished within).filterMap concerns := by
  have all : ∀ runs : List Run, (runs.flatMap (Run.effects s.args)).filterMap concerns = runs.filterMap ofRun := by
    intro runs
    induction runs with
    | nil => rfl
    | cons run rest ih =>
      rw [List.flatMap_cons, List.filterMap_append, one, ih, List.filterMap_cons]
      cases ofRun run <;> rfl
  rw [loop, List.filterMap_append, all]

theorem current_filterMap (one : ∀ run, (run.effects s.args).filterMap concerns = (ofRun run).toList)
    (finished within : Nat) :
    (s.current finished within).filterMap concerns = [] ∨
    (s.current finished within).filterMap concerns = (s.runs[finished]?.bind ofRun).toList := by
  unfold current
  cases found : s.runs[finished]? with
  | none => exact .inl rfl
  | some run =>
    have inside := (List.take_prefix within (run.effects s.args)).filterMap concerns
    rw [one] at inside
    cases own : ofRun run with
    | none => exact .inl (by simpa [own] using inside)
    | some x => simpa [own, List.prefix_cons_iff] using inside

/-- At any point of the loop, what it has done is part of what all runs do. -/
theorem loop_sublist (one : ∀ run, (run.effects s.args).filterMap concerns = (ofRun run).toList)
    (finished within : Nat) :
    ((s.loop finished within).filterMap concerns).Sublist (s.runs.filterMap ofRun) := by
  rw [loop_filterMap concerns ofRun one]
  have whole : s.runs.take finished ++ s.runs[finished]?.toList = s.runs.take (finished + 1) := by
    rw [List.take_add_one]
  have more : ((s.runs.take finished).filterMap ofRun ++ (s.current finished within).filterMap concerns).Sublist
      ((s.runs.take (finished + 1)).filterMap ofRun) := by
    rw [← whole, List.filterMap_append]
    apply List.Sublist.append_left
    rcases current_filterMap concerns ofRun one finished within with nothing | done
    · simp [nothing]
    · rw [done]
      cases s.runs[finished]? with
      | none => simp
      | some run => cases own : ofRun run <;> simp [own]
  exact more.trans ((List.take_sublist _ _).filterMap ofRun)

end

@[simp] theorem opening_kept (args : Args) (files : Files) : (opening args files).filterMap Effect.kept = [] := by
  simp only [opening]
  split <;> split <;> rfl

@[simp] theorem opening_keptLatency (args : Args) (files : Files) :
    (opening args files).filterMap Effect.keptLatency = [] := by
  simp only [opening]
  split <;> split <;> rfl

/-- The effects up to a point are an initial part of those of a session that leaves
    its loop somewhere. -/
theorem effectsTo_initial (s : Session) (files : Files) (point : Point) :
    ∃ finished within, s.effectsTo files point <+: opening s.args files ++ s.loop finished within ++ closing := by
  cases point with
  | opening done =>
    refine ⟨0, 0, (List.take_prefix done _).trans ?_⟩
    rw [List.append_assoc]
    exact List.prefix_append _ _
  | looping finished within => exact ⟨finished, within, List.prefix_append _ _⟩
  | closing finished within done =>
    exact ⟨finished, within, (List.prefix_append_right_inj _).mpr (List.take_prefix done closing)⟩

theorem closed_throughputResults (s : Session) (files : Files) (cell : Cell) :
    (s.closed files).throughputResults cell = s.loaded.throughputResults cell ++
      valuesAt cell ((s.loop s.leaves.1 s.leaves.2).filterMap Effect.kept) := by
  have closes : closing.filterMap Effect.kept = [] := rfl
  simp [closed, reach, effectsTo, Progress.afterAll_throughputResults, start, closes]

theorem closed_latencyResults (s : Session) (files : Files) (place : Cell × Metric) :
    (s.closed files).latencyResults place =
      valuesAt place ((s.loop s.leaves.1 s.leaves.2).filterMap Effect.keptLatency) := by
  have closes : closing.filterMap Effect.keptLatency = [] := rfl
  simp [closed, reach, effectsTo, Progress.afterAll_latencyResults, start, closes]

end Session

/-! ## The contents of a log -/

theorem recordOps_appends {Row : Type} (row : Option Row) : AppendsRows (recordOps row) := by
  intro op member
  cases row with
  | none => simp [recordOps] at member
  | some row =>
    rcases (by simpa [recordOps] using member : op = .write (.row row) ∨ op = .flush) with rfl | rfl
    · exact .inr ⟨row, rfl⟩
    · exact .inl rfl

namespace Csv
variable {Row : Type} (csv : Csv Row) {s : Session} {files : Files} {old : List Row}

/-- The row that an effect writes. -/
def row (effect : Effect) : Option Row := (csv.op effect).bind appendedRow

/-- The rows written up to a point of the loop. -/
def rows (s : Session) (finished within : Nat) : List Row := (s.loop finished within).filterMap csv.row

theorem afterAll (p : Progress) (effects : List Effect) :
    csv.file (p.afterAll effects).files = (csv.file p.files).doAll (effects.filterMap csv.op) :=
  Progress.afterAll_part (fun p => csv.file p.files) csv.op LogFile.doOp csv.change p effects

theorem effects_row (args : Args) (run : Run) :
    (run.effects args).filterMap csv.row = (csv.record args run).toList := by
  have split : (run.effects args).filterMap csv.row = ((run.effects args).filterMap csv.op).filterMap appendedRow :=
    List.filterMap_filterMap.symm
  rw [split, csv.records]
  cases csv.record args run <;> simp [recordOps, List.filterMap_cons, appendedRow]

theorem loop_appends (s : Session) (finished within : Nat) :
    AppendsRows ((s.loop finished within).filterMap csv.op) := by
  have whole : ∀ run : Run, AppendsRows ((run.effects s.args).filterMap csv.op) := by
    intro run
    rw [csv.records]
    exact recordOps_appends _
  intro op member
  obtain ⟨effect, inLoop, found⟩ := List.mem_filterMap.mp member
  obtain ⟨run, inEffects⟩ : ∃ run, effect ∈ Run.effects s.args run := by
    rcases List.mem_append.mp inLoop with finishedRun | unfinished
    · obtain ⟨run, -, inside⟩ := List.mem_flatMap.mp finishedRun
      exact ⟨run, inside⟩
    · unfold Session.current at unfinished
      split at unfinished
      · simp at unfinished
      · exact ⟨_, List.mem_of_mem_take unfinished⟩
  exact whole run op (List.mem_filterMap.mpr ⟨effect, inEffects, found⟩)

theorem rows_eq (s : Session) (finished within : Nat) :
    csv.rows s finished within = ((s.loop finished within).filterMap csv.op).filterMap appendedRow :=
  List.filterMap_filterMap.symm

/-- A session that is not killed leaves its logs complete. -/
theorem closed_holds (holds : s.args.resume = true → Holds old (csv.file files)) :
    Holds (continued s.args.resume old ++ csv.rows s s.leaves.1 s.leaves.2) (csv.file (s.closed files).files) := by
  rw [Session.closed, Session.reach, csv.afterAll, Session.effectsTo, List.filterMap_append, List.filterMap_append,
    List.take_length, csv.opens, csv.closes, rows_eq]
  exact Sessions.closed_holds holds (csv.mode s.args files) (csv.loop_appends s _ _)

/-- A log at any point of a session. -/
theorem reach_contents (holds : s.args.resume = true → Holds old (csv.file files)) (point : Point) :
    csv.file (s.reach files point).files = csv.file files ∨
    (∃ after, (csv.file (s.reach files point).files).durable = some after) ∧
    ∃ finished within, (csv.file (s.reach files point).files).contents <+:
      .header :: (continued s.args.resume old ++ csv.rows s finished within).map .row := by
  obtain ⟨finished, within, initial⟩ := s.effectsTo_initial files point
  have ops := initial.filterMap csv.op
  rw [List.filterMap_append, List.filterMap_append, csv.opens, csv.closes] at ops
  rw [Session.reach, csv.afterAll]
  rcases contents_cases holds (csv.mode s.args files) (csv.loop_appends s finished within) ops with same | started
  · exact .inl same
  · exact .inr ⟨started.1, finished, within, by rw [rows_eq]; exact started.2⟩

end Csv

/-! ## Small sessions for examples -/

/-- One benchmark at one sleep time. -/
def oneCell (resume : Bool) (name : String) (runs : ℤ) : Args where
  resume := resume
  frameworks := [name]
  sleepTimes := some [1]
  runs := runs
  warmupRuns := 0
  messagesFor := fun _ _ => some 1000

def okRun (name : String) (run : Nat) (throughput : ℚ) : Run :=
  ⟨⟨⟨⟨name, 1⟩, run⟩, false⟩, some ⟨"ok", [("throughput", .float throughput)]⟩⟩

end RepidBench.Sessions
