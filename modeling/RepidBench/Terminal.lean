import RepidBench.Text

/-!
A terminal that is wide enough: the lines that are finished, and the current line with
its cursor. A carriage return moves the cursor back and leaves what the line shows, so
what is printed then overwrites it character by character.
-/
namespace RepidBench.Terminal
open Text

/-- What a terminal shows; the cursor is in the current line, or right after it. -/
structure Screen where
  finished : List (List Char)
  line : List Char
  cursor : Nat
  inside : cursor ≤ line.length

namespace Screen

/-- Before anything is printed. -/
def blank : Screen := ⟨[], [], 0, Nat.le_refl 0⟩

def put (screen : Screen) (c : Char) : Screen :=
  if c = '\r' then ⟨screen.finished, screen.line, 0, Nat.zero_le _⟩
  else if c = '\n' then ⟨screen.finished ++ [screen.line], [], 0, Nat.le_refl 0⟩
  else {
    finished := screen.finished
    line := screen.line.take screen.cursor ++ c :: screen.line.drop (screen.cursor + 1)
    cursor := screen.cursor + 1
    inside := by
      have inside := screen.inside
      simp only [List.length_append, List.length_take, List.length_cons, List.length_drop]
      omega }

def print (screen : Screen) (text : List Char) : Screen := text.foldl put screen

end Screen

@[simp] theorem print_nil (screen : Screen) : screen.print [] = screen := rfl

theorem print_append (screen : Screen) (first second : List Char) :
    screen.print (first ++ second) = (screen.print first).print second := List.foldl_append

/-- A text without line ends overwrites as many characters as it has. -/
theorem print_text (screen : Screen) {text : List Char} (single : SingleLine text) :
    (screen.print text).finished = screen.finished ∧
      (screen.print text).line = screen.line.take screen.cursor ++ text ++ screen.line.drop (screen.cursor + text.length) ∧
      (screen.print text).cursor = screen.cursor + text.length := by
  induction text generalizing screen with
  | nil => simp
  | cons c rest ih =>
    obtain ⟨plain, others⟩ := singleLine_cons.mp single
    have notReturn : c ≠ '\r' := by
      rintro rfl
      cases plain
    have notNewline : c ≠ '\n' := by
      rintro rfl
      cases plain
    have inside := screen.inside
    have printed : screen.print (c :: rest) = (screen.put c).print rest := rfl
    obtain ⟨finished, line, cursor⟩ := ih (screen.put c) others
    have putFinished : (screen.put c).finished = screen.finished := by simp [Screen.put, notReturn, notNewline]
    have putLine : (screen.put c).line = (screen.line.take screen.cursor ++ [c]) ++ screen.line.drop (screen.cursor + 1) := by
      simp [Screen.put, notReturn, notNewline]
    have putCursor : (screen.put c).cursor = screen.cursor + 1 := by simp [Screen.put, notReturn, notNewline]
    have before : (screen.line.take screen.cursor ++ [c]).length = screen.cursor + 1 := by
      rw [List.length_append, List.length_take, List.length_singleton]
      omega
    have kept : (screen.put c).line.take (screen.cursor + 1) = screen.line.take screen.cursor ++ [c] := by
      rw [putLine, List.take_left' before]
    have later : (screen.put c).line.drop (screen.cursor + 1 + rest.length) =
        screen.line.drop (screen.cursor + (rest.length + 1)) := by
      rw [putLine, List.drop_append, List.drop_eq_nil_of_le (by omega), List.nil_append, before, List.drop_drop]
      congr 1
      omega
    rw [printed, finished, line, cursor, putFinished, putCursor, kept, later]
    refine ⟨rfl, by simp, ?_⟩
    rw [List.length_cons]
    omega

/-- What is printed at the start of a line overwrites the start of it. -/
theorem print_return (screen : Screen) (start : screen.cursor = 0) {text : List Char} (single : SingleLine text) :
    (screen.print (text ++ ['\r'])).finished = screen.finished ∧
      (screen.print (text ++ ['\r'])).line = text ++ screen.line.drop text.length ∧
      (screen.print (text ++ ['\r'])).cursor = 0 := by
  obtain ⟨finished, line, -⟩ := print_text screen single
  rw [print_append]
  refine ⟨finished, ?_, rfl⟩
  show (screen.print text).line = _
  rw [line, start, List.take_zero, List.nil_append, Nat.zero_add]

/-- A line that is printed whole over blanks. -/
theorem print_line (screen : Screen) (start : screen.cursor = 0) {text : List Char} (single : SingleLine text) :
    (screen.print (text ++ ['\n'])).finished = screen.finished ++ [text ++ screen.line.drop text.length] ∧
      (screen.print (text ++ ['\n'])).line = [] ∧ (screen.print (text ++ ['\n'])).cursor = 0 := by
  obtain ⟨finished, line, -⟩ := print_text screen single
  rw [print_append]
  refine ⟨?_, rfl, rfl⟩
  show (screen.print text).finished ++ [(screen.print text).line] = _
  rw [finished, line, start, List.take_zero, List.nil_append, Nat.zero_add]

/-- What is seen of a line: not the blanks that end it. -/
def seen (line : List Char) : List Char := line.rdropWhile (fun c => c = ' ')

theorem seen_blanks (text : List Char) (n : Nat) : seen (text ++ List.replicate n ' ') = seen text := by
  induction n with
  | zero => rw [List.replicate_zero, List.append_nil]
  | succ n ih =>
    rw [List.replicate_succ', ← List.append_assoc, seen, List.rdropWhile_concat_pos _ _ _ (by simp)]
    exact ih

end RepidBench.Terminal
