import Mathlib.Algebra.BigOperators.Fin
import Mathlib.Data.Fintype.BigOperators

/-!
Machines whose steps are named by labels: what a machine does is the set of its
runs, one label after another, so a theorem about every run is a theorem about
every order in which the parts of the machine proceed. An `Account` proves, from
one step at a time, that every run makes exactly the counted events it owes and
ends; accounts add up over machines that run in parallel.
-/
namespace RepidBench.Transition

universe u v w x
variable {σ : Type u} {α : Type v} {ρ : Type w}

/-- Carrying out labels in order; `none` when one of them is not enabled. -/
def run (step : σ → α → Option σ) : σ → List α → Option σ
  | s, [] => some s
  | s, a :: rest => (step s a).bind (fun t => run step t rest)

section
variable {step : σ → α → Option σ}

@[simp] theorem run_nil (s : σ) : run step s [] = some s := rfl

theorem run_cons_iff {s t : σ} {a : α} {rest : List α} :
    run step s (a :: rest) = some t ↔ ∃ m, step s a = some m ∧ run step m rest = some t := by
  simp [run, Option.bind_eq_some_iff]

theorem run_append (s : σ) (xs ys : List α) :
    run step s (xs ++ ys) = (run step s xs).bind (fun t => run step t ys) := by
  induction xs generalizing s with
  | nil => rfl
  | cons a rest ih =>
    simp only [List.cons_append, run]
    cases step s a with
    | none => rfl
    | some m => exact ih m

theorem run_snoc_iff {s t : σ} {a : α} {past : List α} :
    run step s (past ++ [a]) = some t ↔ ∃ m, run step s past = some m ∧ step m a = some t := by
  rw [run_append]
  cases run step s past with
  | none => simp
  | some m => simp [run]

/-- What every step keeps, knowing the labels so far, holds along every run. -/
theorem run_history (Inv : List α → σ → Prop)
    (preserved : ∀ past s a t, Inv past s → step s a = some t → Inv (past ++ [a]) t)
    (past : List α) {trace : List α} {s t : σ} (inv : Inv past s) (executed : run step s trace = some t) :
    Inv (past ++ trace) t := by
  induction trace generalizing past s with
  | nil =>
    cases executed
    simpa using inv
  | cons a rest ih =>
    obtain ⟨m, first, later⟩ := run_cons_iff.mp executed
    simpa using ih (past ++ [a]) (preserved past s a m inv first) later

/-- What every step keeps holds along every run. -/
theorem run_invariant (Inv : σ → Prop) (preserved : ∀ s a t, Inv s → step s a = some t → Inv t)
    {trace : List α} {s t : σ} (inv : Inv s) (executed : run step s trace = some t) : Inv t :=
  run_history (fun _ => Inv) (fun _ s a t => preserved s a t) [] inv executed

/-- What every step allowed by `allowed` keeps holds along every run of allowed labels. -/
theorem run_allowed (Inv : List α → σ → Prop) {allowed : α → Prop}
    (preserved : ∀ past s a t, Inv past s → allowed a → step s a = some t → Inv (past ++ [a]) t)
    (past : List α) {trace : List α} {s t : σ} (inv : Inv past s) (clean : ∀ a ∈ trace, allowed a)
    (executed : run step s trace = some t) : Inv (past ++ trace) t := by
  induction trace generalizing past s with
  | nil =>
    cases executed
    simpa using inv
  | cons a rest ih =>
    obtain ⟨m, first, later⟩ := run_cons_iff.mp executed
    have next := preserved past s a m inv (clean a (by simp)) first
    simpa using ih (past ++ [a]) next (fun b member => clean b (by simp [member])) later

/-- What is observed of a value that no step lowers is in order, and never above
    the value. -/
theorem run_observed {β : Type x} [Preorder β] (Inv : σ → Prop) (value : σ → β) (observe : α → Option β)
    (keeps : ∀ {s a t}, Inv s → step s a = some t →
      Inv t ∧ value s ≤ value t ∧ ∀ b, observe a = some b → b = value s)
    {trace : List α} {s t : σ} (inv : Inv s) (executed : run step s trace = some t) :
    (trace.filterMap observe).Pairwise (· ≤ ·) ∧ ∀ b ∈ trace.filterMap observe, b ≤ value t := by
  have preserved : ∀ past s a t,
      (Inv s ∧ (past.filterMap observe).Pairwise (· ≤ ·) ∧ ∀ b ∈ past.filterMap observe, b ≤ value s) →
      step s a = some t →
      (Inv t ∧ ((past ++ [a]).filterMap observe).Pairwise (· ≤ ·) ∧
        ∀ b ∈ (past ++ [a]).filterMap observe, b ≤ value t) := by
    rintro past s a t ⟨inv, ordered, below⟩ stepped
    obtain ⟨kept, grows, sees⟩ := keeps inv stepped
    rw [List.filterMap_append]
    cases seen : observe a with
    | none =>
      simp only [List.filterMap_cons, seen, List.filterMap_nil, List.append_nil]
      exact ⟨kept, ordered, fun b member => (below b member).trans grows⟩
    | some b =>
      obtain rfl := sees b seen
      simp only [List.filterMap_cons, seen, List.filterMap_nil, List.pairwise_append, List.mem_append,
        List.mem_singleton]
      refine ⟨kept, ⟨ordered, List.pairwise_singleton _ _, ?_⟩, ?_⟩
      · rintro c member _ rfl
        exact below c member
      · rintro c (member | rfl)
        · exact (below c member).trans grows
        · exact grows
  have ended := run_history _ preserved [] ⟨inv, by simp, by simp⟩ executed
  exact ended.2

end

/-! ## Steps that occur in a run -/

section
variable {step : σ → α → Option σ} {event : σ → α → Prop}

/-- Some step of the run that `trace` describes is an `event`. -/
def Occurs (step : σ → α → Option σ) (event : σ → α → Prop) (s : σ) (trace : List α) : Prop :=
  ∃ past a rest m, trace = past ++ a :: rest ∧ run step s past = some m ∧ event m a

theorem not_occurs_nil {s : σ} : ¬ Occurs step event s [] := by
  rintro ⟨past, a, rest, m, split, _⟩
  simp at split

theorem occurs_snoc_iff {s m : σ} {a : α} {past : List α} (executed : run step s past = some m) :
    Occurs step event s (past ++ [a]) ↔ Occurs step event s past ∨ event m a := by
  constructor
  · rintro ⟨before, b, rest, n, split, reached, occurred⟩
    rcases List.eq_nil_or_concat rest with rfl | ⟨rest, c, rfl⟩
    · obtain ⟨rfl, same⟩ := List.append_inj' split rfl
      cases same
      rw [executed] at reached
      cases reached
      exact .inr occurred
    · have whole : past ++ [a] = (before ++ b :: rest) ++ [c] := by simpa using split
      obtain ⟨shorter, _⟩ := List.append_inj' whole rfl
      exact .inl ⟨before, b, rest, n, shorter, reached, occurred⟩
  · rintro (⟨before, b, rest, n, rfl, reached, occurred⟩ | occurred)
    · exact ⟨before, b, rest ++ [a], n, by simp, reached, occurred⟩
    · exact ⟨past, a, [], m, rfl, executed, occurred⟩

theorem Occurs.mono {other : σ → α → Prop} {s : σ} {trace : List α} (occurs : Occurs step event s trace)
    (implies : ∀ past m a, run step s past = some m → event m a → other m a) : Occurs step other s trace := by
  obtain ⟨past, a, rest, m, split, reached, occurred⟩ := occurs
  exact ⟨past, a, rest, m, split, reached, implies past m a reached occurred⟩

/-- A mark that the steps with the event set, and no other steps, is there at the end
    of a run exactly when the event occurred in it. -/
theorem marked_iff_occurs (Inv marked : σ → Prop)
    (keeps : ∀ s a t, Inv s → step s a = some t → Inv t ∧ (marked t ↔ marked s ∨ event s a))
    {trace : List α} {s t : σ} (inv : Inv s) (clean : ¬ marked s) (executed : run step s trace = some t) :
    Inv t ∧ (marked t ↔ Occurs step event s trace) := by
  have preserved : ∀ past m a n,
      (run step s past = some m ∧ Inv m ∧ (marked m ↔ Occurs step event s past)) → step m a = some n →
      (run step s (past ++ [a]) = some n ∧ Inv n ∧ (marked n ↔ Occurs step event s (past ++ [a]))) := by
    rintro past m a n ⟨reached, inv, same⟩ stepped
    obtain ⟨kept, marks⟩ := keeps m a n inv stepped
    refine ⟨run_snoc_iff.mpr ⟨m, reached, stepped⟩, kept, ?_⟩
    rw [marks, same, occurs_snoc_iff reached]
  have start : marked s ↔ Occurs step event s [] := iff_of_false clean not_occurs_nil
  exact (run_history _ preserved [] ⟨rfl, inv, start⟩ executed).2

/-- A value that is bound at the end of a run was assigned by a step of it. -/
theorem occurs_assigned {β : Type x} (value : σ → Option β) (assigns : σ → α → β → Prop)
    (keeps : ∀ s a t, step s a = some t → value t = value s ∨ ∃ b, value t = some b ∧ assigns s a b)
    {trace : List α} {s t : σ} (unbound : value s = none) (executed : run step s trace = some t) {b : β}
    (bound : value t = some b) : Occurs step (fun m a => assigns m a b) s trace := by
  have preserved : ∀ past m a n,
      (run step s past = some m ∧ ∀ b, value m = some b → Occurs step (fun m a => assigns m a b) s past) →
      step m a = some n →
      (run step s (past ++ [a]) = some n ∧
        ∀ b, value n = some b → Occurs step (fun m a => assigns m a b) s (past ++ [a])) := by
    rintro past m a n ⟨reached, earlier⟩ stepped
    refine ⟨run_snoc_iff.mpr ⟨m, reached, stepped⟩, fun c bound => (occurs_snoc_iff reached).mpr ?_⟩
    rcases keeps m a n stepped with same | ⟨d, assigned, assigns⟩
    · exact .inl (earlier c (same ▸ bound))
    · cases Option.some.inj (assigned.symm.trans bound)
      exact .inr assigns
  have start : ∀ b, value s = some b → Occurs step (fun m a => assigns m a b) s [] := by
    intro b bound
    rw [unbound] at bound
    cases bound
  exact (run_history _ preserved [] ⟨rfl, start⟩ executed).2 b bound

end

/-! ## What is seen along a run -/

section
variable {β : Type x} {step : σ → α → Option σ} {see : σ → α → Option β}

/-- What is seen of the steps of a run, one after another. -/
def seen (step : σ → α → Option σ) (see : σ → α → Option β) : σ → List α → List β
  | _, [] => []
  | s, a :: rest => (see s a).toList ++ (step s a).elim [] (fun t => seen step see t rest)

@[simp] theorem seen_nil (s : σ) : seen step see s [] = [] := rfl

theorem seen_snoc {s m : σ} {past : List α} (executed : run step s past = some m) (a : α) :
    seen step see s (past ++ [a]) = seen step see s past ++ (see m a).toList := by
  induction past generalizing s with
  | nil =>
    cases executed
    cases next : step m a <;> simp [seen, next]
  | cons b rest ih =>
    obtain ⟨t, first, later⟩ := run_cons_iff.mp executed
    simp only [List.cons_append, seen, first, Option.elim_some, ih later, List.append_assoc]

/-- An invariant of the state and of what was seen on the way to it holds along every run. -/
theorem run_seen (Inv : List β → σ → Prop)
    (preserved : ∀ before s a t, Inv before s → step s a = some t → Inv (before ++ (see s a).toList) t)
    {trace : List α} {s t : σ} (inv : Inv [] s) (executed : run step s trace = some t) :
    Inv (seen step see s trace) t := by
  have kept : ∀ past m a n, (run step s past = some m ∧ Inv (seen step see s past) m) → step m a = some n →
      (run step s (past ++ [a]) = some n ∧ Inv (seen step see s (past ++ [a])) n) := by
    rintro past m a n ⟨reached, inv⟩ stepped
    refine ⟨run_snoc_iff.mpr ⟨m, reached, stepped⟩, ?_⟩
    rw [seen_snoc reached]
    exact preserved _ m a n inv stepped
  exact (run_history _ kept [] ⟨rfl, inv⟩ executed).2

end

/-! ## Counting along a list with one entry replaced -/

theorem sum_map_set {β : Type u} (f : β → Nat) {l : List β} {i : Nat} {a : β} (found : l[i]? = some a) (b : β) :
    ((l.set i b).map f).sum + f a = (l.map f).sum + f b := by
  induction l generalizing i with
  | nil => simp at found
  | cons head tail ih =>
    cases i with
    | zero =>
      simp only [List.getElem?_cons_zero, Option.some.injEq] at found
      subst found
      simp only [List.set_cons_zero, List.map_cons, List.sum_cons]
      omega
    | succ j =>
      have step := ih (by simpa using found)
      simp only [List.set_cons_succ, List.map_cons, List.sum_cons]
      omega

theorem countP_eq_sum {β : Type u} (p : β → Bool) (l : List β) :
    l.countP p = (l.map (fun b => if p b then 1 else 0)).sum := by
  induction l with
  | nil => rfl
  | cons head tail ih =>
    rw [List.countP_cons, List.map_cons, List.sum_cons, ih]
    omega

theorem countP_set_add {β : Type u} (p : β → Bool) {l : List β} {i : Nat} {a : β} (found : l[i]? = some a) (b : β) :
    (l.set i b).countP p + (if p a then 1 else 0) = l.countP p + (if p b then 1 else 0) := by
  rw [countP_eq_sum, countP_eq_sum]
  exact sum_map_set (fun b => if p b then 1 else 0) found b

/-! ## Machines -/

/-- A call that makes labelled steps until it has a result. -/
structure Machine (σ : Type u) (α : Type v) (ρ : Type w) where
  init : σ
  step : σ → α → Option σ
  result : σ → Option ρ

/-- Reached from the initial state by the labels of `trace`. -/
def Machine.Reaches (m : Machine σ α ρ) (trace : List α) (s : σ) : Prop :=
  run m.step m.init trace = some s

/-- The call comes to a result, unless idle labels are repeated for ever. -/
def Machine.Ends (m : Machine σ α ρ) (allowed : α → Prop) (idle : α → Bool) : Prop :=
  ∃ bound, ∀ trace s, (∀ a ∈ trace, allowed a) → m.Reaches trace s →
    (m.result s = none → ∃ a, allowed a ∧ idle a = false ∧ (m.step s a).isSome) ∧
    trace.countP (fun a => !idle a) ≤ bound

/-- How often the counted event happens along a trace. -/
def total (weight : α → Nat) (trace : List α) : Nat := (trace.map weight).sum

@[simp] theorem total_nil (weight : α → Nat) : total weight [] = 0 := rfl
@[simp] theorem total_append (weight : α → Nat) (xs ys : List α) :
    total weight (xs ++ ys) = total weight xs + total weight ys := by
  simp [total]
@[simp] theorem total_single (weight : α → Nat) (a : α) : total weight [a] = weight a := by
  simp [total]

/-- A certificate that every run of allowed labels makes exactly `n` counted
    events before it has a result, that the result is good, and that only idle
    labels can be repeated for ever: each step pays from what is `owed` for the
    events it makes, and from what is `left` for not being idle. -/
structure Account (m : Machine σ α ρ) (weight : α → Nat) (allowed : α → Prop) (idle : α → Bool)
    (good : ρ → Prop) (n : Nat) where
  Inv : σ → Prop
  owed : σ → Nat
  left : σ → Nat
  init_inv : Inv m.init
  init_owed : owed m.init = n
  step_inv : ∀ {s a t}, Inv s → allowed a → m.step s a = some t → Inv t
  step_owed : ∀ {s a t}, Inv s → allowed a → m.step s a = some t → weight a + owed t = owed s
  step_left : ∀ {s a t}, Inv s → allowed a → m.step s a = some t → (if idle a then 0 else 1) + left t ≤ left s
  ended : ∀ {s r}, Inv s → m.result s = some r → owed s = 0 ∧ good r
  live : ∀ {s}, Inv s → m.result s = none → ∃ a, allowed a ∧ idle a = false ∧ (m.step s a).isSome

namespace Account
variable {m : Machine σ α ρ} {weight : α → Nat} {allowed : α → Prop} {idle : α → Bool}
  {good : ρ → Prop} {n : Nat}

/-- The events made and the events owed add up to `n`, and the steps that are not
    idle are bounded. -/
def Balance (acc : Account m weight allowed idle good n) (trace : List α) (s : σ) : Prop :=
  acc.Inv s ∧ total weight trace + acc.owed s = n ∧
    trace.countP (fun a => !idle a) + acc.left s ≤ acc.left m.init

theorem balance (acc : Account m weight allowed idle good n) {trace : List α} {s : σ}
    (clean : ∀ a ∈ trace, allowed a) (reached : m.Reaches trace s) : acc.Balance trace s := by
  have preserved : ∀ past s a t, acc.Balance past s → allowed a → m.step s a = some t →
      acc.Balance (past ++ [a]) t := by
    rintro past s a t ⟨inv, sum, bound⟩ ok stepped
    have paid := acc.step_owed inv ok stepped
    have used := acc.step_left inv ok stepped
    refine ⟨acc.step_inv inv ok stepped, ?_, ?_⟩
    · rw [total_append, total_single]
      omega
    · rw [List.countP_append, List.countP_singleton]
      cases busy : idle a <;> simp only [busy] at used ⊢ <;> simp at used ⊢ <;> omega
  have start : acc.Balance [] m.init := ⟨acc.init_inv, by simp [acc.init_owed], by simp⟩
  exact run_allowed acc.Balance preserved [] start clean reached

theorem total_le (acc : Account m weight allowed idle good n) {trace : List α} {s : σ}
    (clean : ∀ a ∈ trace, allowed a) (reached : m.Reaches trace s) : total weight trace ≤ n := by
  have := (acc.balance clean reached).2.1
  omega

theorem total_eq (acc : Account m weight allowed idle good n) {trace : List α} {s : σ} {r : ρ}
    (clean : ∀ a ∈ trace, allowed a) (reached : m.Reaches trace s) (result : m.result s = some r) :
    total weight trace = n ∧ good r := by
  obtain ⟨inv, sum, _⟩ := acc.balance clean reached
  obtain ⟨nothing, good⟩ := acc.ended inv result
  exact ⟨by omega, good⟩

theorem can_continue (acc : Account m weight allowed idle good n) {trace : List α} {s : σ}
    (clean : ∀ a ∈ trace, allowed a) (reached : m.Reaches trace s) (running : m.result s = none) :
    ∃ a, allowed a ∧ idle a = false ∧ (m.step s a).isSome :=
  acc.live (acc.balance clean reached).1 running

theorem busy_le (acc : Account m weight allowed idle good n) {trace : List α} {s : σ}
    (clean : ∀ a ∈ trace, allowed a) (reached : m.Reaches trace s) :
    trace.countP (fun a => !idle a) ≤ acc.left m.init := by
  have := (acc.balance clean reached).2.2
  omega

/-- Every run of allowed labels ends: it can go on while there is no result, and has
    only so many steps that are not idle. -/
theorem ends (acc : Account m weight allowed idle good n) : m.Ends allowed idle :=
  ⟨acc.left m.init, fun _ _ clean reached => ⟨acc.can_continue clean reached, acc.busy_le clean reached⟩⟩

end Account

/-! ## Parallel composition -/

section
variable {count : Nat} {ρ' : Type w}

/-- Machines that share nothing, in any order of their steps; the result is
    there once every machine has its own. -/
def parallel (ms : Fin count → Machine σ α ρ) (combine : (Fin count → ρ) → ρ') :
    Machine (Fin count → σ) (Fin count × α) ρ' where
  init i := (ms i).init
  step s a := ((ms a.1).step (s a.1) a.2).map (Function.update s a.1)
  result s :=
    if all : ∀ i, ((ms i).result (s i)).isSome then some (combine (fun i => ((ms i).result (s i)).get (all i)))
    else none

theorem sum_update (f : Fin count → σ → Nat) (s : Fin count → σ) (i : Fin count) (t : σ) :
    (∑ j, f j (Function.update s i t j)) + f i (s i) = (∑ j, f j (s j)) + f i t := by
  rw [← Finset.add_sum_erase Finset.univ (fun j => f j (Function.update s i t j)) (Finset.mem_univ i),
    ← Finset.add_sum_erase Finset.univ (fun j => f j (s j)) (Finset.mem_univ i)]
  have others : ∑ j ∈ Finset.univ.erase i, f j (Function.update s i t j) =
      ∑ j ∈ Finset.univ.erase i, f j (s j) := by
    refine Finset.sum_congr rfl (fun j member => ?_)
    rw [Function.update_of_ne (Finset.ne_of_mem_erase member)]
  rw [others, Function.update_self]
  omega

variable {ms : Fin count → Machine σ α ρ} {combine : (Fin count → ρ) → ρ'}
  {weight : α → Nat} {allowed : α → Prop} {idle : α → Bool} {good : ρ → Prop} {good' : ρ' → Prop}
  {n : Fin count → Nat}

theorem parallel_step {s t : Fin count → σ} {a : Fin count × α} (stepped : (parallel ms combine).step s a = some t) :
    ∃ next, (ms a.1).step (s a.1) a.2 = some next ∧ t = Function.update s a.1 next := by
  obtain ⟨next, executed, same⟩ := Option.map_eq_some_iff.mp stepped
  exact ⟨next, executed, same.symm⟩

/-- Machines in parallel owe what they owe together. -/
def Account.parallel (acc : ∀ i, Account (ms i) weight allowed idle good (n i))
    (combines : ∀ results, (∀ i, good (results i)) → good' (combine results)) :
    Account (Transition.parallel ms combine) (fun a => weight a.2) (fun a => allowed a.2) (fun a => idle a.2)
      good' (∑ i, n i) where
  Inv s := ∀ i, (acc i).Inv (s i)
  owed s := ∑ i, (acc i).owed (s i)
  left s := ∑ i, (acc i).left (s i)
  init_inv i := (acc i).init_inv
  init_owed := Finset.sum_congr rfl (fun i _ => (acc i).init_owed)
  step_inv := by
    intro s a t inv ok stepped
    obtain ⟨next, executed, rfl⟩ := parallel_step stepped
    intro j
    by_cases same : j = a.1
    · subst same
      rw [Function.update_self]
      exact (acc a.1).step_inv (inv a.1) ok executed
    · rw [Function.update_of_ne same]
      exact inv j
  step_owed := by
    intro s a t inv ok stepped
    obtain ⟨next, executed, rfl⟩ := parallel_step stepped
    have paid := (acc a.1).step_owed (inv a.1) ok executed
    have sums := sum_update (fun i => (acc i).owed) s a.1 next
    omega
  step_left := by
    intro s a t inv ok stepped
    obtain ⟨next, executed, rfl⟩ := parallel_step stepped
    have used := (acc a.1).step_left (inv a.1) ok executed
    have sums := sum_update (fun i => (acc i).left) s a.1 next
    omega
  ended := by
    intro s r inv result
    by_cases all : ∀ i, ((ms i).result (s i)).isSome
    · simp only [Transition.parallel, all, implies_true, ↓reduceDIte, Option.some.injEq] at result
      have each (i : Fin count) := (acc i).ended (inv i) (Option.some_get (all i)).symm
      refine ⟨Finset.sum_eq_zero (fun i _ => (each i).1), ?_⟩
      rw [← result]
      exact combines _ (fun i => (each i).2)
    · simp [Transition.parallel, all] at result
  live := by
    intro s inv running
    by_cases all : ∀ i, ((ms i).result (s i)).isSome
    · simp [Transition.parallel, all] at running
    · obtain ⟨i, waiting⟩ := not_forall.mp all
      have pending : (ms i).result (s i) = none := by simpa using waiting
      obtain ⟨a, ok, busy, enabled⟩ := (acc i).live (inv i) pending
      exact ⟨(i, a), ok, busy, by simpa [Transition.parallel] using enabled⟩

end

end RepidBench.Transition
