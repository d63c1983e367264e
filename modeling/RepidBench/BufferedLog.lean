import Mathlib.Data.List.Basic

/-!
A log file with a write buffer: what is written waits in the buffer until a flush
or a close, and is lost when the process is killed before. Whatever is done to an
open log, its durable content starts with what it was and ends before what has
been written.
-/
namespace RepidBench.BufferedLog

universe u
variable {α : Type u}

/-- `durable` is `none` as long as there is no such file. -/
structure LogFile (α : Type u) where
  durable : Option (List α)
  buffer : List α
  deriving DecidableEq, Repr

/-- What a process does to a log file; `openAs append` truncates the file, or keeps
    its content to append to. -/
inductive Op (α : Type u)
  | openAs (append : Bool)
  | write (line : α)
  | flush
  | close
  deriving DecidableEq, Repr

namespace LogFile

/-- The lines that are in the file after a flush. -/
def contents (f : LogFile α) : List α := f.durable.getD [] ++ f.buffer

/-- The process is killed. -/
def crash (f : LogFile α) : LogFile α := { f with buffer := [] }

def doOp (f : LogFile α) : Op α → LogFile α
  | .openAs append => { durable := some (if append then f.durable.getD [] else []), buffer := [] }
  | .write line => { f with buffer := f.buffer ++ [line] }
  | .flush | .close => { durable := some f.contents, buffer := [] }

def doAll (f : LogFile α) (ops : List (Op α)) : LogFile α := ops.foldl doOp f

@[simp] theorem doAll_nil (f : LogFile α) : f.doAll [] = f := rfl
@[simp] theorem doAll_cons (f : LogFile α) (op : Op α) (rest : List (Op α)) :
    f.doAll (op :: rest) = (f.doOp op).doAll rest := rfl
theorem doAll_append (f : LogFile α) (xs ys : List (Op α)) : f.doAll (xs ++ ys) = (f.doAll xs).doAll ys :=
  List.foldl_append

end LogFile

/-- The line that an operation writes. -/
def Op.line : Op α → Option α
  | .write line => some line
  | _ => none

/-- The lines that the operations write. -/
def written (ops : List (Op α)) : List α := ops.filterMap Op.line

@[simp] theorem written_nil : written ([] : List (Op α)) = [] := rfl
@[simp] theorem written_cons (op : Op α) (rest : List (Op α)) :
    written (op :: rest) = op.line.toList ++ written rest := by
  cases op <;> rfl
theorem written_append (xs ys : List (Op α)) : written (xs ++ ys) = written xs ++ written ys :=
  List.filterMap_append

/-- The operations do not open the file again. -/
def StaysOpen (ops : List (Op α)) : Prop := ∀ append, .openAs append ∉ ops

theorem StaysOpen.append {xs ys : List (Op α)} (first : StaysOpen xs) (second : StaysOpen ys) :
    StaysOpen (xs ++ ys) := by
  intro append member
  rcases List.mem_append.mp member with inFirst | inSecond
  · exact first append inFirst
  · exact second append inSecond

theorem StaysOpen.sublist {xs ys : List (Op α)} (stays : StaysOpen ys) (inside : xs.Sublist ys) : StaysOpen xs :=
  fun append member => stays append (inside.subset member)

/-- An open file keeps its durable content, and loses nothing of what is written. -/
theorem LogFile.doAll_keeps {f : LogFile α} {before : List α} {ops : List (Op α)} (present : f.durable = some before)
    (stays : StaysOpen ops) :
    ∃ after, (f.doAll ops).durable = some after ∧ before <+: after ∧
      after ++ (f.doAll ops).buffer = before ++ f.buffer ++ written ops := by
  induction ops generalizing f before with
  | nil => exact ⟨before, present, List.prefix_rfl, by simp⟩
  | cons op rest ih =>
    have staysRest : StaysOpen rest := stays.sublist (List.sublist_cons_self op rest)
    cases op with
    | openAs append => exact absurd (List.mem_cons_self) (stays append)
    | write line =>
      obtain ⟨after, durable, grown, all⟩ := ih (f := f.doOp (.write line)) present staysRest
      exact ⟨after, durable, grown, by simpa [doOp, Op.line] using all⟩
    | flush | close =>
      all_goals
        obtain ⟨after, durable, grown, all⟩ := ih (f := ⟨some f.contents, []⟩) rfl staysRest
        refine ⟨after, durable, ?_, ?_⟩
        · apply List.IsPrefix.trans _ grown
          simp [contents, present]
        · simpa [doOp, contents, present, Op.line] using all

theorem LogFile.doAll_contents {f : LogFile α} {before : List α} {ops : List (Op α)}
    (present : f.durable = some before) (stays : StaysOpen ops) :
    (f.doAll ops).contents = f.contents ++ written ops := by
  obtain ⟨after, durable, -, all⟩ := f.doAll_keeps present stays
  simpa [contents, durable, present] using all

/-- What a kill leaves is an initial part of what has been written. -/
theorem LogFile.durable_contents {f : LogFile α} {lines : List α} (present : f.durable = some lines) :
    lines <+: f.contents := by
  rw [contents, present]
  exact List.prefix_append lines f.buffer

end RepidBench.BufferedLog
