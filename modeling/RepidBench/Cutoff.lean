import Mathlib.Order.Defs.LinearOrder
import RepidBench.Transition

/-!
Workers that complete tasks while a runner polls how many there are. The runner
takes an instant as its end and reports a number of completions; between the two
the workers go on. What it reports is at most what was completed by that instant
exactly when no completion that it could count came between them.
-/
namespace RepidBench.Cutoff
open Transition

universe u v w x y

/-! ## Workers, a clock and a runner -/

/-- Workers that share `σ` and complete tasks by the labels `completes`, and a
    runner with locals `ρ` whose steps get a reply `β` from outside. Either may
    read the clock; the workers run while `running`. -/
structure System (T : Type u) (σ : Type v) (α : Type w) (ρ : Type x) (β : Type y) where
  work : T → σ → α → Option σ
  completes : α → Bool
  count : σ → Nat
  runner : T → σ → ρ → β → Option (σ × ρ)
  running : ρ → Bool

/-- The state of both, with the instants of the completions so far. -/
structure State (T : Type u) (σ : Type v) (ρ : Type x) where
  clock : T
  shared : σ
  runner : ρ
  completions : List T

inductive Label (T : Type u) (α : Type w) (β : Type y)
  | pass (now : T)
  | work (a : α)
  | runner (reply : β)
  deriving DecidableEq

variable {T : Type u} {σ : Type v} {α : Type w} {ρ : Type x} {β : Type y} [LinearOrder T]

namespace System

/-- A step: the clock passes and never goes back, a worker proceeds, or the runner does. -/
def step (sys : System T σ α ρ β) (s : State T σ ρ) : Label T α β → Option (State T σ ρ)
  | .pass now => if s.clock ≤ now then some { s with clock := now } else none
  | .work a =>
    if sys.running s.runner then
      (sys.work s.clock s.shared a).map (fun shared =>
        { s with
          shared := shared
          completions := s.completions ++ if sys.completes a then [s.clock] else [] })
    else none
  | .runner reply =>
    (sys.runner s.clock s.shared s.runner reply).map (fun next =>
      { s with shared := next.1, runner := next.2 })

/-- The steps of `System.step`, one by one. -/
inductive Steps (sys : System T σ α ρ β) (s : State T σ ρ) : Label T α β → State T σ ρ → Prop
  | pass (now : T) (later : s.clock ≤ now) : Steps sys s (.pass now) { s with clock := now }
  | work (a : α) (shared : σ) (worked : sys.work s.clock s.shared a = some shared) :
      Steps sys s (.work a) { s with
        shared := shared
        completions := s.completions ++ if sys.completes a then [s.clock] else [] }
  | runner (reply : β) (shared : σ) (runner : ρ)
      (ran : sys.runner s.clock s.shared s.runner reply = some (shared, runner)) :
      Steps sys s (.runner reply) { s with shared := shared, runner := runner }

theorem step_cases {sys : System T σ α ρ β} {s t : State T σ ρ} {a : Label T α β} (stepped : sys.step s a = some t) :
    Steps sys s a t := by
  cases a with
  | pass now =>
    simp only [step, Option.ite_none_right_eq_some, Option.some.injEq] at stepped
    obtain ⟨later, rfl⟩ := stepped
    exact .pass now later
  | work a =>
    simp only [step, Option.ite_none_right_eq_some, Option.map_eq_some_iff] at stepped
    obtain ⟨_, shared, worked, rfl⟩ := stepped
    exact .work a shared worked
  | runner reply =>
    obtain ⟨⟨shared, runner⟩, ran, rfl⟩ := Option.map_eq_some_iff.mp stepped
    exact .runner reply shared runner ran

/-- What the steps of the workers and of the runner keep of the shared state and
    the runner's locals holds along every run. -/
theorem run_kept {sys : System T σ α ρ β} (Inv : σ → ρ → Prop)
    (worked : ∀ {now shared runner a next}, Inv shared runner → sys.work now shared a = some next → Inv next runner)
    (ran : ∀ {now shared runner reply next}, Inv shared runner → sys.runner now shared runner reply = some next →
      Inv next.1 next.2)
    {trace : List (Label T α β)} {s t : State T σ ρ} (inv : Inv s.shared s.runner)
    (executed : run sys.step s trace = some t) : Inv t.shared t.runner := by
  refine run_invariant (fun m => Inv m.shared m.runner) (fun m a n kept stepped => ?_) inv executed
  cases step_cases stepped with
  | pass now _ => exact kept
  | work a shared done => exact worked kept done
  | runner reply shared runner done => exact ran kept done

end System

/-! ## What a runner reports -/

/-- How far the runner is: it has no end yet, it has taken `stop` as its end, or
    it has also reported a number of completions; or it has failed. -/
inductive View (T : Type u)
  | before
  | late (stop : T)
  | reported (stop : T) (done : Nat)
  | failed
  deriving DecidableEq

/-- What one step of the runner may do to its view: take the end after the number
    it reports, or before it; the number is then read up to `cap`. -/
inductive View.Next (now : T) (count cap : Nat) : View T → View T → Prop
  | same (view : View T) : Next now count cap view view
  | stop : Next now count cap .before (.late now)
  | report (done : Nat) (read : done ≤ count) : Next now count cap .before (.reported now done)
  | reread (stop : T) : Next now count cap (.late stop) (.reported stop (min count cap))
  | fail (view : View T) : Next now count cap view .failed

omit [LinearOrder T] in
@[simp] theorem View.next_same {now : T} {count cap : Nat} (view : View T) : View.Next now count cap view view :=
  .same view

omit [LinearOrder T] in
@[simp] theorem View.next_failed {now : T} {count cap : Nat} (view : View T) : View.Next now count cap view .failed :=
  .fail view

/-- The completions stamped by the instant `stop`. -/
def State.completedBy (s : State T σ ρ) (stop : T) : Nat := s.completions.countP (· ≤ stop)

/-- A runner that polls a count of completions: what it keeps, and how it comes
    to report a number of at most `cap`. -/
structure Polls (sys : System T σ α ρ β) (cap : Nat) where
  view : ρ → View T
  Inv : σ → ρ → Prop
  worked : ∀ {now shared runner a next}, Inv shared runner → sys.work now shared a = some next →
    Inv next runner ∧ sys.count next = sys.count shared + if sys.completes a then 1 else 0
  ran : ∀ {now shared runner reply next}, Inv shared runner → sys.runner now shared runner reply = some next →
    Inv next.1 next.2 ∧ sys.count next.1 = sys.count shared ∧
      View.Next now (sys.count shared) cap (view runner) (view next.2)

namespace Polls
variable {sys : System T σ α ρ β} {cap : Nat}

/-- A completion after the end and before the number reported is read, of a task
    that this number can still count. -/
def Late (polls : Polls sys cap) (s : State T σ ρ) (a : Label T α β) : Prop :=
  ∃ b stop, a = .work b ∧ sys.completes b = true ∧ polls.view s.runner = .late stop ∧
    stop < s.clock ∧ sys.count s.shared < cap

/-- The number `done` is completed by `stop`, unless there was a late completion:
    then it is not, and no later completion can make up for it. -/
def Fits (lateOne : Prop) (s : State T σ ρ) (stop : T) (done : Nat) : Prop :=
  ¬ lateOne ∧ done ≤ s.completedBy stop ∨ lateOne ∧ s.completedBy stop < done ∧ stop < s.clock

/-- What the runner has reported, or would if it read the count `count` now, fits its end. -/
def ViewFits (lateOne : Prop) (s : State T σ ρ) (count cap : Nat) : View T → Prop
  | .before => ¬ lateOne
  | .late stop => stop ≤ s.clock ∧ Fits lateOne s stop (min count cap)
  | .reported stop done => Fits lateOne s stop done
  | .failed => True

/-- The invariant of a run, which had a late completion or not: completions are
    counted and stamped in the past, and what the runner reports fits its end. -/
structure Kept (polls : Polls sys cap) (lateOne : Prop) (s : State T σ ρ) : Prop where
  inv : polls.Inv s.shared s.runner
  counted : sys.count s.shared = s.completions.length
  stamped : ∀ instant ∈ s.completions, instant ≤ s.clock
  fits : ViewFits lateOne s (sys.count s.shared) cap (polls.view s.runner)

theorem completedBy_all {s : State T σ ρ} {stop : T} (stamped : ∀ instant ∈ s.completions, instant ≤ s.clock)
    (same : s.clock ≤ stop) : s.completedBy stop = s.completions.length := by
  refine List.countP_eq_length.mpr (fun instant member => ?_)
  simpa using (stamped instant member).trans same

theorem Fits.passed {lateOne : Prop} {s : State T σ ρ} {stop now : T} {done : Nat} (fits : Fits lateOne s stop done)
    (later : s.clock ≤ now) : Fits lateOne { s with clock := now } stop done := by
  rcases fits with ⟨clean, enough⟩ | ⟨late, short, after⟩
  · exact .inl ⟨clean, enough⟩
  · exact .inr ⟨late, short, after.trans_le later⟩

theorem completedBy_snoc {s : State T σ ρ} {shared : σ} (stop : T) :
    ({ s with shared := shared, completions := s.completions ++ [s.clock] } : State T σ ρ).completedBy stop =
    s.completedBy stop + if s.clock ≤ stop then 1 else 0 := by
  simp [State.completedBy, List.countP_append, List.countP_singleton]

theorem completedBy_le (s : State T σ ρ) (stop : T) : s.completedBy stop ≤ s.completions.length :=
  List.countP_le_length

/-- A number that is reported is not touched by what the workers do later. -/
theorem Fits.reported {lateOne : Prop} {s : State T σ ρ} {shared : σ} {stop : T} {done : Nat} (completes : Bool)
    (fits : Fits lateOne s stop done) :
    Fits lateOne { s with
      shared := shared
      completions := s.completions ++ if completes then [s.clock] else [] } stop done := by
  cases completes with
  | false => simpa [Fits, State.completedBy] using fits
  | true =>
    simp only [Fits, if_true, completedBy_snoc]
    rcases fits with ⟨clean, enough⟩ | ⟨late, short, after⟩
    · exact .inl ⟨clean, enough.trans (Nat.le_add_right _ _)⟩
    · refine .inr ⟨late, ?_, after⟩
      rw [if_neg (not_le.mpr after)]
      exact short

/-- A completion before the number is read is by the end, or late, or of a task that
    the number does not count any more. -/
theorem Fits.completed {lateOne : Prop} {s : State T σ ρ} {shared : σ} {stop : T}
    (stamped : ∀ instant ∈ s.completions, instant ≤ s.clock) (fits : Fits lateOne s stop (min s.completions.length cap)) :
    Fits (lateOne ∨ stop < s.clock ∧ s.completions.length < cap)
      { s with shared := shared, completions := s.completions ++ [s.clock] } stop
      (min (s.completions.length + 1) cap) := by
  simp only [Fits, completedBy_snoc]
  by_cases after : stop < s.clock
  · rw [if_neg (not_le.mpr after)]
    by_cases room : s.completions.length < cap
    · have few := completedBy_le s stop
      exact .inr ⟨.inr ⟨after, room⟩, by omega, after⟩
    · have full : min (s.completions.length + 1) cap = min s.completions.length cap := by omega
      simpa [full, room, Fits] using fits
  · have all := completedBy_all stamped (not_lt.mp after)
    have clean : ¬ lateOne := by
      rcases fits with ⟨clean, _⟩ | ⟨_, _, passed⟩
      · exact clean
      · exact absurd passed after
    rw [if_pos (not_lt.mp after)]
    exact .inl ⟨by simp [clean, after], by omega⟩

theorem Kept.work {polls : Polls sys cap} {lateOne : Prop} {s : State T σ ρ} {b : α} {shared : σ}
    (kept : Kept polls lateOne s) (worked : sys.work s.clock s.shared b = some shared) :
    Kept polls (lateOne ∨ polls.Late s (.work b)) { s with
      shared := shared
      completions := s.completions ++ if sys.completes b then [s.clock] else [] } := by
  obtain ⟨inv, counted⟩ := polls.worked kept.inv worked
  have before := kept.counted
  refine ⟨inv, ?_, ?_, ?_⟩
  · rw [counted, before, List.length_append]
    split_ifs <;> simp
  · intro instant member
    rcases List.mem_append.mp member with old | new
    · exact kept.stamped instant old
    · split_ifs at new
      · exact (List.mem_singleton.mp new).le
      · simp at new
  · have fits := kept.fits
    -- only while the number is still to be read can a completion be a late one
    have silent (view : View T) (same : polls.view s.runner = view) (quiet : ∀ stop, view ≠ .late stop) :
        (lateOne ∨ polls.Late s (.work b)) = lateOne := by
      refine propext (or_iff_left ?_)
      rintro ⟨_, stop, _, _, late, _⟩
      exact quiet stop (same.symm.trans late)
    cases view : polls.view s.runner with
    | before =>
      rw [view] at fits
      rw [silent _ view (by simp)]
      exact fits
    | reported stop done =>
      rw [view] at fits
      rw [silent _ view (by simp)]
      exact fits.reported (sys.completes b)
    | failed => trivial
    | late stop =>
      rw [view, before] at fits
      refine ⟨fits.1, ?_⟩
      rw [counted, before]
      cases completes : sys.completes b with
      | false =>
        have quiet : (lateOne ∨ polls.Late s (.work b)) = lateOne := by
          simp [Late, completes]
        rw [quiet]
        exact fits.2.reported false
      | true =>
        have lateNow : polls.Late s (.work b) = (stop < s.clock ∧ s.completions.length < cap) := by
          simp [Late, completes, view, before]
        rw [lateNow]
        exact fits.2.completed kept.stamped

theorem Kept.step {polls : Polls sys cap} {lateOne : Prop} {s t : State T σ ρ} {a : Label T α β}
    (kept : Kept polls lateOne s) (stepped : sys.step s a = some t) :
    Kept polls (lateOne ∨ polls.Late s a) t := by
  have quiet (still : ∀ b, a ≠ .work b) : (lateOne ∨ polls.Late s a) = lateOne := by
    refine propext (or_iff_left ?_)
    rintro ⟨b, _, same, _⟩
    exact still b same
  cases System.step_cases stepped with
  | work b shared worked => exact kept.work worked
  | pass now later =>
    rw [quiet (by simp)]
    refine ⟨kept.inv, kept.counted, fun instant member => (kept.stamped instant member).trans later, ?_⟩
    have fits := kept.fits
    cases view : polls.view s.runner with
    | before =>
      rw [view] at fits
      exact fits
    | late stop =>
      rw [view] at fits
      exact ⟨fits.1.trans later, fits.2.passed later⟩
    | reported stop done =>
      rw [view] at fits
      exact fits.passed later
    | failed => trivial
  | runner reply shared runner ran =>
    rw [quiet (by simp)]
    obtain ⟨inv, same, next⟩ := polls.ran kept.inv ran
    refine ⟨inv, same.trans kept.counted, kept.stamped, ?_⟩
    have all := completedBy_all kept.stamped le_rfl
    have counted := kept.counted
    have fits := kept.fits
    generalize polls.view s.runner = view at fits next
    generalize polls.view runner = view' at next
    show ViewFits lateOne s (sys.count shared) cap view'
    rw [same]
    cases next with
    | same => exact fits
    | stop => exact ⟨le_rfl, .inl ⟨fits, by omega⟩⟩
    | report done read => exact .inl ⟨fits, by omega⟩
    | reread stop => exact fits.2
    | fail => trivial

/-- Whatever the workers do, and however they are interleaved with the runner: the
    number it reports is at most the completions by its end, exactly when the run
    had no late completion. -/
theorem reported_iff (polls : Polls sys cap) {trace : List (Label T α β)} {s t : State T σ ρ}
    (executed : run sys.step s trace = some t) (inv : polls.Inv s.shared s.runner) (fresh : s.completions = [])
    (uncounted : sys.count s.shared = 0) (begins : polls.view s.runner = .before) {stop : T} {done : Nat}
    (reported : polls.view t.runner = .reported stop done) :
    done ≤ t.completedBy stop ↔ ¬ Occurs sys.step polls.Late s trace := by
  have start : Kept polls (Occurs sys.step polls.Late s []) s :=
    ⟨inv, by rw [uncounted, fresh]; rfl, by simp [fresh], by rw [begins]; exact not_occurs_nil⟩
  have preserved : ∀ past m a n,
      (run sys.step s past = some m ∧ Kept polls (Occurs sys.step polls.Late s past) m) →
      sys.step m a = some n →
      (run sys.step s (past ++ [a]) = some n ∧ Kept polls (Occurs sys.step polls.Late s (past ++ [a])) n) := by
    rintro past m a n ⟨reached, kept⟩ stepped
    refine ⟨run_snoc_iff.mpr ⟨m, reached, stepped⟩, ?_⟩
    rw [propext (occurs_snoc_iff reached)]
    exact kept.step stepped
  have ended := (run_history _ preserved [] ⟨rfl, start⟩ executed).2.fits
  rw [reported] at ended
  rcases ended with ⟨clean, enough⟩ | ⟨late, short, _⟩
  · exact iff_of_true enough clean
  · exact iff_of_false (not_le.mpr short) (not_not.mpr late)

/-- A runner that never waits between its end and its number reports what fits. -/
theorem reported_le (polls : Polls sys cap) (prompt : ∀ runner stop, polls.view runner ≠ .late stop)
    {trace : List (Label T α β)} {s t : State T σ ρ}
    (executed : run sys.step s trace = some t) (inv : polls.Inv s.shared s.runner) (fresh : s.completions = [])
    (uncounted : sys.count s.shared = 0) (begins : polls.view s.runner = .before) {stop : T} {done : Nat}
    (reported : polls.view t.runner = .reported stop done) : done ≤ t.completedBy stop := by
  refine (polls.reported_iff executed inv fresh uncounted begins reported).mpr ?_
  rintro ⟨_, _, _, m, _, _, _, stop', _, _, late, _⟩
  exact prompt _ _ late

end Polls

end RepidBench.Cutoff
