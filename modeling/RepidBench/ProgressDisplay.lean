import RepidBench.Terminal

/-!
What `run_all.py` shows while its runs go on. `_read_stdout` prints the progress lines
of the runner over each other in one line of the terminal, padded with blanks to the
line before; `run_once` erases that line, and `main` prints the result below the label
of the task. Whatever the runner prints, the line always shows its latest progress and
nothing of an earlier one, and in the end the terminal has the lines that were meant to
stay and no others. The terminal is wide enough for every line that is printed, and each
character takes one column of it.
-/
namespace RepidBench.ProgressDisplay
open Terminal Text

/-! ## The lines of a stream -/

theorem translate_noReturn (afterReturn : Bool) (stream : List Char) : '\r' ∉ Text.translate afterReturn stream := by
  induction stream generalizing afterReturn with
  | nil => exact List.not_mem_nil
  | cons c rest ih =>
    rw [Text.translate]
    split_ifs with skipped isReturn
    · exact ih false
    · intro member
      rcases List.mem_cons.mp member with same | later
      · cases same
      · exact ih true later
    · intro member
      rcases List.mem_cons.mp member with same | later
      · exact isReturn same.symm
      · exact ih false later

/-- A line of a file has its newline at its end, if it has one. -/
theorem fileLines_body {text line : List Char} (member : line ∈ fileLines text) :
    ∃ body, '\n' ∉ body ∧ (line = body ∨ line = body ++ ['\n']) ∧ ∀ c ∈ body, c ∈ text := by
  induction text generalizing line with
  | nil => cases member
  | cons c rest ih =>
    rw [fileLines] at member
    split_ifs at member with newline
    · rcases List.mem_cons.mp member with rfl | later
      · exact ⟨[], List.not_mem_nil, .inr (by rw [newline]; rfl), fun d inside => absurd inside List.not_mem_nil⟩
      · obtain ⟨body, plain, shape, inside⟩ := ih later
        exact ⟨body, plain, shape, fun d member => List.mem_cons_of_mem c (inside d member)⟩
    · have extended : ∀ {body : List Char}, '\n' ∉ body → '\n' ∉ c :: body := by
        intro body plain member
        rcases List.mem_cons.mp member with same | later
        · exact newline same.symm
        · exact plain later
      cases lines : fileLines rest with
      | nil =>
        rw [lines] at member
        obtain rfl := List.mem_singleton.mp member
        refine ⟨[c], extended List.not_mem_nil, .inl rfl, fun d inside => ?_⟩
        rw [List.mem_singleton.mp inside]
        exact List.mem_cons_self
      | cons first more =>
        rw [lines] at member
        rcases List.mem_cons.mp member with rfl | later
        · obtain ⟨body, plain, shape, inside⟩ := ih (lines ▸ List.mem_cons_self : first ∈ fileLines rest)
          refine ⟨c :: body, extended plain, ?_, fun d member => ?_⟩
          · rcases shape with rfl | rfl
            · exact .inl rfl
            · exact .inr rfl
          · rcases List.mem_cons.mp member with rfl | later
            · exact List.mem_cons_self
            · exact List.mem_cons_of_mem c (inside d later)
        · obtain ⟨body, plain, shape, inside⟩ := ih (lines ▸ List.mem_cons_of_mem first later : line ∈ fileLines rest)
          exact ⟨body, plain, shape, fun d member => List.mem_cons_of_mem c (inside d member)⟩

/-- Whatever a stream holds, no line end is left in the lines that are read of it. -/
theorem readLines_single {stream line : List Char} (member : line ∈ readLines stream) : SingleLine line := by
  obtain ⟨raw, inFile, rfl⟩ := List.mem_map.mp member
  obtain ⟨body, plain, shape, inside⟩ := fileLines_body inFile
  have single : SingleLine body := by
    intro c inBody
    have notNewline : c ≠ '\n' := fun same => plain (same ▸ inBody)
    have notReturn : c ≠ '\r' := fun same => translate_noReturn false stream (same ▸ inside c inBody)
    simp [isLineEnd, notNewline, notReturn]
  rcases shape with rfl | rfl
  · exact fun c kept => single c ((List.rdropWhile_prefix isLineEnd raw).subset kept)
  · rw [rdropWhile_text single]
    exact single

/-! ## The progress line -/

/-- `line.startswith(("Enqueued:", "Tasks done:"))`. -/
def isProgress (line : List Char) : Bool :=
  "Enqueued:".toList.isPrefixOf line || "Tasks done:".toList.isPrefixOf line

/-- `progress` for a line. -/
def progressOf (line : List Char) : List Char := ' ' :: ' ' :: line ++ [' ', ' ']

/-- The body of the loop of `_read_stdout`: `progress_width[0]` after a line, and what is printed. -/
def readStep (progressWidth : Nat) (line : List Char) : Nat × List Char :=
  if isProgress line then
    let progress := progressOf line
    let padding := List.replicate (progressWidth - progress.length) ' '
    (progress.length, progress ++ padding ++ ['\r'])
  else (progressWidth, [])

/-- `_read_stdout` over some lines. -/
def readStdout (progressWidth : Nat) : List (List Char) → Nat × List Char
  | [] => (progressWidth, [])
  | line :: rest =>
    let (width, printed) := readStep progressWidth line
    let (last, more) := readStdout width rest
    (last, printed ++ more)

/-- What `run_once` prints of the stream of a runner: its progress, and the blanks that erase it. -/
def runPrints (stream : List Char) : List Char :=
  let (width, printed) := readStdout 0 (readLines stream)
  printed ++ List.replicate (max 80 width) ' ' ++ ['\r']

/-- The progress that is to be seen after some lines. -/
def latest (text : List Char) (lines : List (List Char)) : List Char :=
  lines.foldl (fun text line => if isProgress line then progressOf line else text) text

/-- The cursor is at the start of a line that shows the text. -/
structure Shows (screen : Screen) (text : List Char) : Prop where
  cursor : screen.cursor = 0
  line : ∃ n, screen.line = text ++ List.replicate n ' '

section
variable {screen : Screen} {text new : List Char}

theorem singleLine_blanks (n : Nat) : SingleLine (List.replicate n ' ') := by
  intro c member
  rw [List.eq_of_mem_replicate member]
  rfl

/-- A text that is padded to the width of the one before takes its place. -/
theorem Shows.overwrite (shows : Shows screen text) (single : SingleLine new) {padding : Nat}
    (covers : text.length ≤ new.length + padding) :
    (screen.print (new ++ List.replicate padding ' ' ++ ['\r'])).finished = screen.finished ∧
      Shows (screen.print (new ++ List.replicate padding ' ' ++ ['\r'])) new := by
  obtain ⟨n, line⟩ := shows.line
  have padded : SingleLine (new ++ List.replicate padding ' ') := singleLine_append.mpr ⟨single, singleLine_blanks padding⟩
  obtain ⟨finished, after, cursor⟩ := print_return screen shows.cursor padded
  refine ⟨finished, cursor, padding + (n - (new.length + padding - text.length)), ?_⟩
  have width : (new ++ List.replicate padding ' ').length = new.length + padding := by
    rw [List.length_append, List.length_replicate]
  rw [after, line, width, List.drop_append, List.drop_eq_nil_of_le covers, List.nil_append, List.drop_replicate,
    List.append_assoc, List.replicate_append_replicate]

/-- What is printed of a line, when the width is that of the text that is seen. -/
theorem Shows.afterStep (shows : Shows screen text) {line : List Char} (single : SingleLine line) :
    (screen.print (readStep text.length line).2).finished = screen.finished ∧
      Shows (screen.print (readStep text.length line).2) (if isProgress line then progressOf line else text) ∧
      (readStep text.length line).1 = (if isProgress line then progressOf line else text).length := by
  unfold readStep
  split_ifs with progress
  · have plain : SingleLine (progressOf line) := by simp [progressOf, single, isLineEnd]
    have covers : text.length ≤ (progressOf line).length + (text.length - (progressOf line).length) := by omega
    obtain ⟨finished, after⟩ := shows.overwrite plain covers
    exact ⟨finished, after, rfl⟩
  · exact ⟨rfl, shows, rfl⟩

theorem Shows.afterLines (shows : Shows screen text) {lines : List (List Char)} (single : ∀ line ∈ lines, SingleLine line) :
    (screen.print (readStdout text.length lines).2).finished = screen.finished ∧
      Shows (screen.print (readStdout text.length lines).2) (latest text lines) ∧
      (readStdout text.length lines).1 = (latest text lines).length := by
  induction lines generalizing screen text with
  | nil => exact ⟨rfl, shows, rfl⟩
  | cons line rest ih =>
    obtain ⟨finished, after, width⟩ := shows.afterStep (single line List.mem_cons_self)
    obtain ⟨finishedRest, afterRest, widthRest⟩ := ih after (fun other member => single other (List.mem_cons_of_mem line member))
    rw [← width] at finishedRest afterRest widthRest
    have printed : (readStdout text.length (line :: rest)).2 = (readStep text.length line).2 ++
        (readStdout (readStep text.length line).1 rest).2 := rfl
    rw [printed, print_append]
    exact ⟨finishedRest.trans finished, afterRest, widthRest⟩

theorem Shows.afterRun (shows : Shows screen []) (stream : List Char) :
    (screen.print (runPrints stream)).finished = screen.finished ∧ Shows (screen.print (runPrints stream)) [] := by
  obtain ⟨finished, after, width⟩ := shows.afterLines (fun line member => readLines_single member : ∀ line ∈ readLines stream, _)
  have printed : runPrints stream = (readStdout 0 (readLines stream)).2 ++
      ([] ++ List.replicate (max 80 (readStdout 0 (readLines stream)).1) ' ' ++ ['\r']) := by
    simp [runPrints]
  have covers : (latest [] (readLines stream)).length ≤
      ([] : List Char).length + max 80 (readStdout 0 (readLines stream)).1 := by
    have same : (readStdout 0 (readLines stream)).1 = (latest [] (readLines stream)).length := width
    rw [same, List.length_nil]
    omega
  obtain ⟨finishedRun, erased⟩ := after.overwrite singleLine_nil covers
  rw [printed, print_append]
  exact ⟨finishedRun.trans finished, erased⟩

/-- Nothing is printed of a runner that is not started. -/
theorem Shows.afterStream (shows : Shows screen []) (stream : Option (List Char)) :
    (screen.print (stream.elim [] runPrints)).finished = screen.finished ∧
      Shows (screen.print (stream.elim [] runPrints)) [] := by
  cases stream with
  | none => exact ⟨rfl, shows⟩
  | some stream => exact shows.afterRun stream

end

/-! ## The task loop -/

/-- What `main` prints for a task, around what its runner does: the label, the stream
    of the runner, if it could be started, the lines that `run_once` prints of its end,
    and the suffix. -/
structure Shown where
  label : List Char
  stream : Option (List Char)
  notes : List (List Char)
  suffix : List Char
  label_single : SingleLine label
  notes_single : ∀ note ∈ notes, SingleLine note
  suffix_single : SingleLine suffix

/-- The line with the result: `f"{'':>{len(label)}}{suffix}"`. -/
def Shown.result (shown : Shown) : List Char := List.replicate shown.label.length ' ' ++ shown.suffix

/-- `print(label, "...")`. -/
def Shown.header (shown : Shown) : List Char := shown.label ++ [' ', '.', '.', '.']

def Shown.prints (shown : Shown) : List Char :=
  shown.header ++ ['\n'] ++ shown.stream.elim [] runPrints ++ shown.notes.flatMap (fun note => note ++ ['\n']) ++
    shown.result ++ ['\n']

/-- The lines that stay. -/
def Shown.lines (shown : Shown) : List (List Char) := shown.header :: shown.notes ++ [shown.result]

section
variable {screen : Screen} {text : List Char}

theorem shows_start (cursor : screen.cursor = 0) (line : screen.line = []) : Shows screen [] := ⟨cursor, 0, line⟩

/-- A line that is printed where nothing is to be seen. -/
theorem Shows.printLine (shows : Shows screen []) (single : SingleLine text) :
    (screen.print (text ++ ['\n'])).finished.map seen = screen.finished.map seen ++ [seen text] ∧
      Shows (screen.print (text ++ ['\n'])) [] := by
  obtain ⟨n, blanks⟩ := shows.line
  obtain ⟨finished, line, cursor⟩ := print_line screen shows.cursor single
  refine ⟨?_, shows_start cursor line⟩
  rw [finished, List.map_append, blanks, List.nil_append, List.drop_replicate, List.map_singleton, seen_blanks]

theorem Shows.printLines (shows : Shows screen []) {lines : List (List Char)} (single : ∀ line ∈ lines, SingleLine line) :
    (screen.print (lines.flatMap (fun line => line ++ ['\n']))).finished.map seen =
        screen.finished.map seen ++ lines.map seen ∧
      Shows (screen.print (lines.flatMap (fun line => line ++ ['\n']))) [] := by
  induction lines generalizing screen with
  | nil => exact ⟨(List.append_nil _).symm, shows⟩
  | cons line rest ih =>
    obtain ⟨finished, after⟩ := shows.printLine (single line List.mem_cons_self)
    obtain ⟨finishedRest, afterRest⟩ := ih after (fun other member => single other (List.mem_cons_of_mem line member))
    rw [List.flatMap_cons, print_append]
    refine ⟨?_, afterRest⟩
    rw [finishedRest, finished, List.append_assoc]
    rfl

theorem Shows.task (shows : Shows screen []) (shown : Shown) :
    (screen.print shown.prints).finished.map seen = screen.finished.map seen ++ shown.lines.map seen ∧
      Shows (screen.print shown.prints) [] := by
  have header : SingleLine shown.header := singleLine_append.mpr ⟨shown.label_single, by decide⟩
  have result : SingleLine shown.result := singleLine_append.mpr ⟨singleLine_blanks _, shown.suffix_single⟩
  obtain ⟨finishedHeader, afterHeader⟩ := shows.printLine header
  obtain ⟨finishedRun, afterRun⟩ := afterHeader.afterStream shown.stream
  obtain ⟨finishedNotes, afterNotes⟩ := afterRun.printLines shown.notes_single
  obtain ⟨finishedResult, afterResult⟩ := afterNotes.printLine result
  have order : shown.prints = (shown.header ++ ['\n']) ++ (shown.stream.elim [] runPrints ++
      (shown.notes.flatMap (fun note => note ++ ['\n']) ++ (shown.result ++ ['\n']))) := by
    simp [Shown.prints]
  rw [order, print_append, print_append, print_append]
  refine ⟨?_, afterResult⟩
  rw [finishedResult, finishedNotes, finishedRun, finishedHeader]
  simp [Shown.lines]

end

/-- For every task list and every stream of every runner, cut into lines anywhere: while
    `_read_stdout` has read some lines of a run, the current line shows the latest progress
    among them, and nothing else of an earlier one; and the lines that are finished in the
    end are the labels, the notes of `run_once` and the results, each of them whole. -/
theorem progress_display (tasks : List Shown) :
    (∀ before shown after stream, tasks = before ++ shown :: after → shown.stream = some stream →
      ∀ read, read <+: readLines stream →
      let screen := Screen.blank.print (before.flatMap Shown.prints ++ shown.header ++ ['\n'] ++ (readStdout 0 read).2)
      screen.finished.map seen = (before.flatMap Shown.lines ++ [shown.header]).map seen ∧ screen.cursor = 0 ∧
        seen screen.line = seen (latest [] read)) ∧
    (Screen.blank.print (tasks.flatMap Shown.prints)).finished.map seen = (tasks.flatMap Shown.lines).map seen ∧
      seen (Screen.blank.print (tasks.flatMap Shown.prints)).line = [] := by
  have whole : ∀ tasks : List Shown,
      (Screen.blank.print (tasks.flatMap Shown.prints)).finished.map seen = (tasks.flatMap Shown.lines).map seen ∧
        Shows (Screen.blank.print (tasks.flatMap Shown.prints)) [] := by
    intro tasks
    induction tasks using List.reverseRecOn with
    | nil => exact ⟨rfl, shows_start rfl rfl⟩
    | append_singleton tasks shown ih =>
      obtain ⟨finished, shows⟩ := ih
      obtain ⟨more, after⟩ := shows.task shown
      rw [List.flatMap_append, print_append, List.flatMap_append, List.map_append, ← finished]
      simp only [List.flatMap_singleton]
      exact ⟨more, after⟩
  refine ⟨fun before shown after stream _ _ read inside => ?_, (whole tasks).1, ?_⟩
  · obtain ⟨finished, shows⟩ := whole before
    have header : SingleLine shown.header := singleLine_append.mpr ⟨shown.label_single, by decide⟩
    obtain ⟨finishedHeader, afterHeader⟩ := shows.printLine header
    have single : ∀ line ∈ read, SingleLine line := fun line member => readLines_single (inside.subset member)
    obtain ⟨finishedRead, afterRead, -⟩ := afterHeader.afterLines single
    obtain ⟨n, line⟩ := afterRead.line
    have order : before.flatMap Shown.prints ++ shown.header ++ ['\n'] ++ (readStdout 0 read).2 =
        before.flatMap Shown.prints ++ ((shown.header ++ ['\n']) ++ (readStdout ([] : List Char).length read).2) := by
      simp
    dsimp only
    rw [order, print_append, print_append]
    refine ⟨?_, afterRead.cursor, ?_⟩
    · rw [finishedRead, finishedHeader, finished, List.map_append]
      rfl
    · rw [line, seen_blanks]
  · obtain ⟨n, line⟩ := (whole tasks).2.line
    rw [line, seen_blanks]
    rfl

end RepidBench.ProgressDisplay
