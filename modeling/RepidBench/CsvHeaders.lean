import RepidBench.SessionLogs

/-!
What a killed session leaves on disk. Whether a header is written is decided by the
existence of the file, while the header itself waits in the buffer for the first
flush: a log can be resumed as long as no session is killed while one of its files
exists and is empty.
-/
namespace RepidBench.CsvHeaders
open BufferedLog Sessions

section
variable {Row : Type}

/-- The first line is the header, and no other line is. -/
def HeaderOnce [DecidableEq Row] (lines : List (Line Row)) : Prop :=
  lines ≠ [] → lines.head? = some .header ∧ lines.count .header = 1

/-- The reader finds the columns and loses no row. -/
def Readable (lines : List (Line Row)) : Prop :=
  ∃ rows, readRows lines = some rows ∧ ∀ row, .row row ∈ lines → row ∈ rows

/-- The content on disk has its header once, and can be read. -/
def Resumable [DecidableEq Row] (f : LogFile (Line Row)) : Prop :=
  HeaderOnce (f.durable.getD []) ∧ Readable (f.durable.getD [])

theorem header_rows [DecidableEq Row] (rows : List Row) : HeaderOnce (.header :: rows.map Line.row) := by
  intro _
  refine ⟨rfl, ?_⟩
  rw [List.count_cons_self, List.count_eq_zero.mpr (by simp)]

theorem readable_rows (rows : List Row) : Readable (.header :: rows.map Line.row) := by
  refine ⟨rows, rowsOf_rows rows, ?_⟩
  intro row member
  simpa using member

/-- An initial part of a header and rows is of that form, or empty. -/
theorem initial_cases {lines : List (Line Row)} {rows : List Row} (initial : lines <+: .header :: rows.map .row) :
    lines = [] ∨ ∃ kept : List Row, lines = .header :: kept.map .row := by
  cases lines with
  | nil => exact .inl rfl
  | cons first rest =>
    right
    obtain ⟨rfl, inside⟩ := List.cons_prefix_cons.mp initial
    refine ⟨rows.take rest.length, ?_⟩
    rw [List.prefix_iff_eq_take.mp inside, List.map_take, List.length_take]
    congr 2
    have := inside.length_le
    omega

theorem resumable_of_holds [DecidableEq Row] {rows : List Row} {f : LogFile (Line Row)} (holds : Holds rows f) :
    Resumable f := by
  unfold Resumable
  obtain ⟨-, ⟨absent, -⟩ | present⟩ := holds
  · rw [absent]
    exact ⟨fun nonempty => absurd rfl nonempty, [], rfl, by simp⟩
  · rw [present]
    exact ⟨header_rows rows, readable_rows rows⟩

end

/-- The session is not killed while the log exists and is empty on disk. -/
def KilledLate {Row : Type} (csv : Csv Row) (files : Files) (s : Session) : Prop :=
  ∀ point, s.ending = .killed point → (csv.file (s.reach files point).files).durable ≠ some []

section
variable {Row : Type} (csv : Csv Row) {s : Session} {files : Files} {old : List Row}

/-- At any point a log can be resumed, were the session killed there. -/
theorem reach_resumable [DecidableEq Row] (holds : Holds old (csv.file files)) (point : Point) :
    Resumable (csv.file (s.reach files point).files) := by
  rcases csv.reach_contents (fun _ => holds) point with same | ⟨⟨after, durable⟩, _, _, initial⟩
  · rw [same]
    exact resumable_of_holds holds
  · unfold Resumable
    rw [durable, Option.getD_some]
    rcases initial_cases ((LogFile.durable_contents durable).trans initial) with rfl | ⟨rows, rfl⟩
    · exact ⟨fun nonempty => absurd rfl nonempty, [], rfl, by simp⟩
    · exact ⟨header_rows rows, readable_rows rows⟩

/-- A kill keeps the form of a log that is not empty. -/
theorem crash_holds (holds : Holds old (csv.file files)) (point : Point)
    (late : (csv.file (s.reach files point).files).durable ≠ some []) :
    ∃ rows, Holds rows (csv.file (s.reach files point).files).crash := by
  rcases csv.reach_contents (fun _ => holds) point with same | ⟨⟨after, durable⟩, _, _, initial⟩
  · refine ⟨old, rfl, ?_⟩
    rw [LogFile.crash, same]
    exact holds.2
  · rcases initial_cases ((LogFile.durable_contents durable).trans initial) with rfl | ⟨rows, rfl⟩
    · exact absurd durable late
    · exact ⟨rows, rfl, .inr durable⟩

/-- What every session keeps, unless it is killed too early. -/
theorem left_holds (holds : Holds old (csv.file files)) (late : KilledLate csv files s) :
    ∃ rows, Holds rows (csv.file (s.leftFiles files)) := by
  unfold Session.leftFiles
  cases ending : s.ending with
  | killed point =>
    rw [csv.crashes]
    exact crash_holds csv holds point (late point ending)
  | completed | interrupted _ _ => exact ⟨_, csv.closed_holds (fun _ => holds)⟩

theorem history_holds (empty : csv.file .absent = ⟨none, []⟩) {files : Files} (history : History (KilledLate csv) files) :
    ∃ rows, Holds rows (csv.file files) := by
  induction history with
  | start => exact ⟨[], by rw [empty]; exact ⟨rfl, .inl ⟨rfl, rfl⟩⟩⟩
  | next _ _ late ih =>
    obtain ⟨rows, holds⟩ := ih
    exact left_holds csv holds late

end

/-- In every sequence of sessions, none of them killed while the log exists and is empty
    on disk, the log has its header once and can be read at every point of every
    session. This is so of each log for itself. -/
theorem logs_resumable {files : Files} (s : Session) (point : Point) :
    (History (KilledLate throughputCsv) files → Resumable (s.reach files point).files.throughput) ∧
    (History (KilledLate latencyCsv) files → Resumable (s.reach files point).files.latency) := by
  constructor
  · intro history
    obtain ⟨rows, holds⟩ := history_holds throughputCsv rfl history
    exact reach_resumable throughputCsv holds point
  · intro history
    obtain ⟨rows, holds⟩ := history_holds latencyCsv rfl history
    exact reach_resumable latencyCsv holds point

/-! ## A kill after the first flush, and one before it -/

/-- A session that is killed after its first run. -/
def killedLater : Session where
  args := oneCell false "repid_latency" 2
  loaded := loadRows (oneCell false "repid_latency" 2) []
  runs := [okRun "repid_latency" 1 100, okRun "repid_latency" 2 100]
  ending := .killed (.looping 1 0)

/-- The session that resumes it. -/
def resumedLater : Session where
  args := oneCell true "repid_latency" 2
  loaded := loadRows (oneCell true "repid_latency" 2)
    [(okRun "repid_latency" 1 100).throughputRow (oneCell false "repid_latency" 2)]
  runs := [okRun "repid_latency" 2 100]
  ending := .completed

theorem logs_resumable_killed_later :
    Resumable (resumedLater.reach (killedLater.leftFiles .absent) (.looping 1 0)).files.throughput ∧
    Resumable (resumedLater.reach (killedLater.leftFiles .absent) (.looping 1 0)).files.latency := by
  have late : KilledLate throughputCsv .absent killedLater ∧ KilledLate latencyCsv .absent killedLater := by
    constructor <;>
    · intro point killed
      cases killed
      decide +kernel
  have resumable := @logs_resumable (killedLater.leftFiles .absent) resumedLater (.looping 1 0)
  exact ⟨resumable.1 (.next .start ⟨rfl, .inl rfl⟩ late.1), resumable.2 (.next .start ⟨rfl, .inl rfl⟩ late.2)⟩

/-- A session that is killed in its first run, after the files were opened. -/
def killedEarly : Session := ⟨oneCell false "repid" 1, ⟨[], fun _ => []⟩, [okRun "repid" 1 100], .killed (.looping 0 0)⟩

/-- The session that resumes it. -/
def resumedAfter : Session := ⟨oneCell true "repid" 1, ⟨[], fun _ => []⟩, [okRun "repid" 1 100], .completed⟩

/-- The resumed session leaves a log without a header, whose only row the next
    reader takes for the header. -/
theorem killed_before_first_flush :
    killedEarly.Admissible .absent ∧ killedEarly.args.resume = false ∧
    resumedAfter.Admissible (killedEarly.leftFiles .absent) ∧ resumedAfter.args.resume = true ∧
    let left := resumedAfter.leftFiles (killedEarly.leftFiles .absent)
    left.throughput.durable = some [.row ((okRun "repid" 1 100).throughputRow (oneCell true "repid" 1))] ∧
    ¬ HeaderOnce (left.throughput.durable.getD []) ∧ ¬ Readable (left.throughput.durable.getD []) := by
  have first : killedEarly.leftFiles .absent = ⟨⟨some [], []⟩, ⟨some [], []⟩, ⟨some [], []⟩⟩ := rfl
  have second : (resumedAfter.leftFiles ⟨⟨some [], []⟩, ⟨some [], []⟩, ⟨some [], []⟩⟩).throughput.durable =
      some [.row ((okRun "repid" 1 100).throughputRow (oneCell true "repid" 1))] := rfl
  rw [first]
  refine ⟨⟨rfl, .inl rfl⟩, rfl, ⟨rfl, .inl rfl⟩, rfl, second, ?_, ?_⟩
  · rw [second]
    intro once
    cases (once (by simp)).1
  · rw [second]
    rintro ⟨rows, read, complete⟩
    cases read
    exact absurd (complete _ List.mem_cons_self) List.not_mem_nil

end RepidBench.CsvHeaders
