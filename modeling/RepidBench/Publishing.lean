import RepidBench.Transition

/-!
What the publishing loops of `benchmarks/_publishing.py` share: the lines they
print, how a call ends, how a count is dealt out over workers, and the loop that
publishes one burst after another. The loop is the same around `publish_async`
and around `publish_threaded`, so it is written once, over any call that
publishes a given number of messages.
-/
namespace RepidBench.Publishing
open Transition

/-- A line of progress: `Enqueued: count/total`, or
    `Burst number: published count messages (remaining remaining)`. -/
inductive Printed
  | enqueued (count total : Nat)
  | burst (number count remaining : Nat)
  deriving DecidableEq, Repr

/-- How a call ends. -/
inductive Outcome
  | returned
  | valueError (message : String)
  | runtimeError (message : String)
  deriving DecidableEq, Repr

/-- The message of the `RuntimeError` that reports failed sends. -/
def failureText (errors : Nat) (first : String) : String :=
  s!"Publishing failed: {errors} error(s), first: {first}"

/-- The outcome of a call whose workers collected `errors`, in order. -/
def outcomeOf : List String → Outcome
  | [] => .returned
  | first :: rest => .runtimeError (failureText (rest.length + 1) first)

theorem outcomeOf_returned_iff (errors : List String) : outcomeOf errors = .returned ↔ errors = [] := by
  cases errors <;> simp [outcomeOf]

theorem outcomeOf_error_iff (errors : List String) :
    (∃ message, outcomeOf errors = .runtimeError message) ↔ errors ≠ [] := by
  cases errors <;> simp [outcomeOf]

/-! ## Dealing out a count -/

/-- `[per + (1 if i < remainder else 0) for i in range(parts)]`, with `per` and
    `remainder` the quotient and the remainder of `count` by `parts`. -/
def shares (count parts : Nat) : List Nat :=
  (List.range parts).map (fun i => count / parts + if i < count % parts then 1 else 0)

@[simp] theorem shares_length (count parts : Nat) : (shares count parts).length = parts := by
  simp [shares]

theorem sum_range_add_ite (base extra parts : Nat) :
    ((List.range parts).map (fun i => base + if i < extra then 1 else 0)).sum = base * parts + min extra parts := by
  induction parts with
  | zero => simp
  | succ parts ih =>
    rw [List.range_succ, List.map_append, List.sum_append, ih, List.map_singleton, List.sum_singleton, Nat.mul_succ]
    by_cases below : parts < extra
    · rw [if_pos below]
      omega
    · rw [if_neg below]
      omega

/-- Nothing is lost or doubled in dealing out. -/
theorem shares_sum {count parts : Nat} (positive : 1 ≤ parts) : (shares count parts).sum = count := by
  have short : count % parts < parts := Nat.mod_lt _ positive
  rw [shares, sum_range_add_ite, Nat.min_eq_left short.le]
  rw [Nat.mul_comm]
  exact Nat.div_add_mod count parts

theorem mem_shares {count parts share : Nat} (member : share ∈ shares count parts) :
    count / parts ≤ share ∧ share ≤ count / parts + 1 := by
  obtain ⟨i, _, rfl⟩ := List.mem_map.mp member
  split_ifs <;> omega

/-! ## One burst after another -/

/-- Where the burst loop stands: publishing `count` messages, asleep between two
    bursts, or ended. -/
inductive BurstPhase (σ : Type)
  | publishing (count : Nat) (call : σ)
  | sleeping
  | ended (outcome : Outcome)
  deriving DecidableEq, Repr

structure BurstState (σ : Type) where
  remaining : Nat
  burstNum : Nat
  phase : BurstPhase σ
  printed : List Printed
  deriving DecidableEq, Repr

inductive BurstLabel (α : Type)
  | publish (a : α)
  | published
  | wake
  deriving DecidableEq, Repr

section
variable {σ α : Type}

/-- The test of `while remaining > 0` and the start of the call it leads to. -/
def burstHead (call : Nat → Machine σ α Outcome) (burstSize remaining : Nat) : BurstPhase σ :=
  if 0 < remaining then .publishing (min burstSize remaining) (call (min burstSize remaining)).init
  else .ended .returned

def burstStep (call : Nat → Machine σ α Outcome) (burstSize : Nat) (s : BurstState σ) :
    BurstLabel α → Option (BurstState σ)
  | .publish a =>
    match s.phase with
    | .publishing count inner =>
      ((call count).step inner a).map (fun next => { s with phase := .publishing count next })
    | _ => none
  | .published =>
    match s.phase with
    | .publishing count inner =>
      match (call count).result inner with
      | none => none
      | some .returned =>
        let remaining := s.remaining - count
        some {
          remaining := remaining
          burstNum := s.burstNum + 1
          phase := if 0 < remaining then .sleeping else .ended .returned
          printed := s.printed ++ [.burst (s.burstNum + 1) count remaining] }
      | some error => some { s with phase := .ended error }
    | _ => none
  | .wake =>
    match s.phase with
    | .sleeping => some { s with phase := burstHead call burstSize s.remaining }
    | _ => none

/-- The loop of `publish_async_bursts` and `publish_threaded_bursts`. -/
def bursts (call : Nat → Machine σ α Outcome) (messages burstSize : Nat) :
    Machine (BurstState σ) (BurstLabel α) Outcome where
  init := ⟨messages, 0, burstHead call burstSize messages, []⟩
  step := burstStep call burstSize
  result s :=
    match s.phase with
    | .ended outcome => some outcome
    | _ => none

/-- How often a label of the loop makes the counted event of the inner call. -/
def BurstLabel.weight (weight : α → Nat) : BurstLabel α → Nat
  | .publish a => weight a
  | .published => 0
  | .wake => 0

def BurstLabel.Allowed (allowed : α → Prop) : BurstLabel α → Prop
  | .publish a => allowed a
  | .published => True
  | .wake => True

def BurstLabel.idle (idle : α → Bool) : BurstLabel α → Bool
  | .publish a => idle a
  | .published => false
  | .wake => false

variable {call : Nat → Machine σ α Outcome} {weight : α → Nat} {allowed : α → Prop} {idle : α → Bool}

/-- What is known of the loop between two steps, given the accounts of the calls
    it makes: the burst being published is part of what remains. -/
def BurstInv (acc : ∀ count, Account (call count) weight allowed idle (· = .returned) count)
    (s : BurstState σ) : Prop :=
  match s.phase with
  | .publishing count inner => (acc count).Inv inner ∧ 1 ≤ count ∧ count ≤ s.remaining
  | .sleeping => 0 < s.remaining
  | .ended outcome => s.remaining = 0 ∧ outcome = .returned

/-- Messages that the loop still has to send. -/
def burstOwed (acc : ∀ count, Account (call count) weight allowed idle (· = .returned) count)
    (s : BurstState σ) : Nat :=
  match s.phase with
  | .publishing count inner => (acc count).owed inner + (s.remaining - count)
  | .sleeping => s.remaining
  | .ended _ => 0

/-- Steps that the loop can still make: those of the calls for the bursts to
    come, at most `cost` each, and two of its own for every burst. -/
def burstLeft (acc : ∀ count, Account (call count) weight allowed idle (· = .returned) count)
    (cost : Nat) (s : BurstState σ) : Nat :=
  match s.phase with
  | .publishing count inner => (acc count).left inner + 2 + (s.remaining - count) * (cost + 2)
  | .sleeping => 1 + s.remaining * (cost + 2)
  | .ended _ => 0

theorem burstHead_cases (call : Nat → Machine σ α Outcome) {burstSize : Nat} (positive : 1 ≤ burstSize)
    (remaining : Nat) :
    (remaining = 0 ∧ burstHead call burstSize remaining = .ended .returned) ∨
    ∃ count, 1 ≤ count ∧ count ≤ remaining ∧
      burstHead call burstSize remaining = .publishing count (call count).init := by
  by_cases more : 0 < remaining
  · refine .inr ⟨min burstSize remaining, by omega, by omega, ?_⟩
    rw [burstHead, if_pos more]
  · refine .inl ⟨by omega, ?_⟩
    rw [burstHead, if_neg more]

/-- What one step of the loop can do. -/
theorem burstStep_cases {burstSize : Nat} {s t : BurstState σ} {a : BurstLabel α}
    (stepped : burstStep call burstSize s a = some t) :
    (∃ b count inner next, a = .publish b ∧ s.phase = .publishing count inner ∧
      (call count).step inner b = some next ∧ t = { s with phase := .publishing count next }) ∨
    (∃ count inner, a = .published ∧ s.phase = .publishing count inner ∧
      (call count).result inner = some .returned ∧
      t = ⟨s.remaining - count, s.burstNum + 1,
        if 0 < s.remaining - count then .sleeping else .ended .returned,
        s.printed ++ [.burst (s.burstNum + 1) count (s.remaining - count)]⟩) ∨
    (∃ count inner error, a = .published ∧ s.phase = .publishing count inner ∧ error ≠ .returned ∧
      (call count).result inner = some error ∧ t = { s with phase := .ended error }) ∨
    (a = .wake ∧ s.phase = .sleeping ∧ t = { s with phase := burstHead call burstSize s.remaining }) := by
  cases a with
  | publish b =>
    cases phase : s.phase with
    | publishing count inner =>
      simp only [burstStep, phase, Option.map_eq_some_iff] at stepped
      obtain ⟨next, executed, rfl⟩ := stepped
      exact .inl ⟨b, count, inner, next, rfl, rfl, executed, rfl⟩
    | sleeping => simp [burstStep, phase] at stepped
    | ended outcome => simp [burstStep, phase] at stepped
  | published =>
    cases phase : s.phase with
    | publishing count inner =>
      cases result : (call count).result inner with
      | none => simp [burstStep, phase, result] at stepped
      | some outcome =>
        cases outcome with
        | returned =>
          simp only [burstStep, phase, result, Option.some.injEq] at stepped
          exact .inr (.inl ⟨count, inner, rfl, rfl, result, stepped.symm⟩)
        | valueError message =>
          simp only [burstStep, phase, result, Option.some.injEq] at stepped
          exact .inr (.inr (.inl ⟨count, inner, _, rfl, rfl, by simp, result, stepped.symm⟩))
        | runtimeError message =>
          simp only [burstStep, phase, result, Option.some.injEq] at stepped
          exact .inr (.inr (.inl ⟨count, inner, _, rfl, rfl, by simp, result, stepped.symm⟩))
    | sleeping => simp [burstStep, phase] at stepped
    | ended outcome => simp [burstStep, phase] at stepped
  | wake =>
    cases phase : s.phase with
    | publishing count inner => simp [burstStep, phase] at stepped
    | sleeping =>
      simp only [burstStep, phase, Option.some.injEq] at stepped
      exact .inr (.inr (.inr ⟨rfl, rfl, stepped.symm⟩))
    | ended outcome => simp [burstStep, phase] at stepped

theorem burstHead_inv (acc : ∀ count, Account (call count) weight allowed idle (· = .returned) count)
    {burstSize : Nat} (positive : 1 ≤ burstSize) (remaining number : Nat) (printed : List Printed) :
    BurstInv acc ⟨remaining, number, burstHead call burstSize remaining, printed⟩ ∧
      burstOwed acc ⟨remaining, number, burstHead call burstSize remaining, printed⟩ = remaining := by
  rcases burstHead_cases call positive remaining with
    ⟨nothing, head⟩ | ⟨count, low, high, head⟩
  · simp only [BurstInv, burstOwed, head]
    exact ⟨⟨nothing, trivial⟩, nothing.symm⟩
  · simp only [BurstInv, burstOwed, head]
    refine ⟨⟨(acc count).init_inv, low, high⟩, ?_⟩
    rw [(acc count).init_owed]
    omega

/-- A burst that is at most `cost` to publish pays for itself and for the two
    steps of the loop around it. -/
theorem burstHead_left (acc : ∀ count, Account (call count) weight allowed idle (· = .returned) count)
    {burstSize remaining cost : Nat} (positive : 1 ≤ burstSize)
    (cheap : ∀ count ≤ remaining, (acc count).left (call count).init ≤ cost)
    (number : Nat) (printed : List Printed) :
    burstLeft acc cost ⟨remaining, number, burstHead call burstSize remaining, printed⟩ ≤
      remaining * (cost + 2) := by
  rcases burstHead_cases call positive remaining with
    ⟨nothing, head⟩ | ⟨count, low, high, head⟩
  · simp [burstLeft, head]
  · have first := cheap count high
    have once : 1 * (cost + 2) ≤ count * (cost + 2) := Nat.mul_le_mul_right _ low
    have split : (remaining - count) * (cost + 2) + count * (cost + 2) = remaining * (cost + 2) := by
      rw [← Nat.add_mul, Nat.sub_add_cancel high]
    simp only [burstLeft, head]
    omega

section
variable (acc : ∀ count, Account (call count) weight allowed idle (· = .returned) count)
  {burstSize cost : Nat} {messages : Nat} {s t : BurstState σ} {a : BurstLabel α}

/-- A step of the loop keeps the invariant, pays for the messages it sends, and
    uses up a step of the loop unless it is idle. -/
theorem burstStep_account (positive : 1 ≤ burstSize)
    (cheap : ∀ count ≤ s.remaining, (acc count).left (call count).init ≤ cost)
    (inv : BurstInv acc s) (ok : a.Allowed allowed) (stepped : burstStep call burstSize s a = some t) :
    BurstInv acc t ∧ t.remaining ≤ s.remaining ∧ a.weight weight + burstOwed acc t = burstOwed acc s ∧
      (if a.idle idle then 0 else 1) + burstLeft acc cost t ≤ burstLeft acc cost s := by
  rcases burstStep_cases stepped with ⟨b, count, inner, next, rfl, phase, executed, rfl⟩ |
    ⟨count, inner, rfl, phase, result, rfl⟩ | ⟨count, inner, error, rfl, phase, failed, result, rfl⟩ |
    ⟨rfl, phase, rfl⟩
  · simp only [BurstInv, phase] at inv
    have kept := (acc count).step_inv inv.1 ok executed
    have paid := (acc count).step_owed inv.1 ok executed
    have used := (acc count).step_left inv.1 ok executed
    refine ⟨⟨kept, inv.2⟩, le_rfl, ?_, ?_⟩
    · simp only [BurstLabel.weight, burstOwed, phase]
      omega
    · show (if idle b then 0 else 1) + _ ≤ _
      simp only [burstLeft, phase]
      omega
  · simp only [BurstInv, phase] at inv
    have nothing := ((acc count).ended inv.1 result).1
    have rest : 0 < s.remaining - count ∨ s.remaining - count = 0 := by omega
    rcases rest with more | spent
    · simp only [BurstInv, burstOwed, burstLeft, BurstLabel.weight, BurstLabel.idle, phase, if_pos more]
      refine ⟨more, by omega, by omega, ?_⟩
      simp only [Bool.false_eq_true, ↓reduceIte]
      omega
    · have none : ¬ 0 < s.remaining - count := by omega
      simp only [BurstInv, burstOwed, burstLeft, BurstLabel.weight, BurstLabel.idle, phase, if_neg none]
      refine ⟨⟨spent, trivial⟩, by omega, by omega, ?_⟩
      simp only [Bool.false_eq_true, ↓reduceIte]
      omega
  · simp only [BurstInv, phase] at inv
    exact absurd ((acc count).ended inv.1 result).2 failed
  · obtain ⟨kept, owed⟩ := burstHead_inv acc positive s.remaining s.burstNum s.printed
    have left := burstHead_left acc positive cheap s.burstNum s.printed
    refine ⟨kept, le_rfl, ?_, ?_⟩
    · simp only [BurstLabel.weight]
      rw [owed]
      simp only [burstOwed, phase]
      omega
    · simp only [BurstLabel.idle, Bool.false_eq_true, ↓reduceIte]
      simp only [burstLeft, phase] at left ⊢
      omega

/-- The loop has its result, or one of its steps is enabled. -/
theorem burst_live (inv : BurstInv acc s) (running : (bursts call messages burstSize).result s = none) :
    ∃ a : BurstLabel α, a.Allowed allowed ∧ a.idle idle = false ∧ (burstStep call burstSize s a).isSome := by
  cases phase : s.phase with
  | publishing count inner =>
    simp only [BurstInv, phase] at inv
    cases result : (call count).result inner with
    | none =>
      obtain ⟨b, ok, busy, enabled⟩ := (acc count).live inv.1 result
      exact ⟨.publish b, ok, busy, by simpa [burstStep, phase] using enabled⟩
    | some outcome =>
      refine ⟨.published, trivial, rfl, ?_⟩
      cases outcome <;> simp [burstStep, phase, result]
  | sleeping => exact ⟨.wake, trivial, rfl, by simp [burstStep, phase]⟩
  | ended outcome => simp [bursts, phase] at running

/-- Publishing in bursts sends every message once, whatever the inner call is,
    when each inner call sends the number it is asked for. -/
def Account.bursts (messages : Nat) (positive : 1 ≤ burstSize)
    (cheap : ∀ count ≤ messages, (acc count).left (call count).init ≤ cost) :
    Account (Publishing.bursts call messages burstSize) (BurstLabel.weight weight) (BurstLabel.Allowed allowed)
      (BurstLabel.idle idle) (· = .returned) messages where
  Inv s := BurstInv acc s ∧ s.remaining ≤ messages
  owed := burstOwed acc
  left := burstLeft acc cost
  init_inv := ⟨(burstHead_inv acc positive messages 0 []).1, le_rfl⟩
  init_owed := (burstHead_inv acc positive messages 0 []).2
  step_inv := by
    rintro s a t ⟨inv, within⟩ ok stepped
    obtain ⟨kept, fewer, _⟩ :=
      burstStep_account acc positive (fun count le => cheap count (le.trans within)) inv ok stepped
    exact ⟨kept, fewer.trans within⟩
  step_owed := by
    rintro s a t ⟨inv, within⟩ ok stepped
    exact (burstStep_account acc positive (fun count le => cheap count (le.trans within)) inv ok stepped).2.2.1
  step_left := by
    rintro s a t ⟨inv, within⟩ ok stepped
    exact (burstStep_account acc positive (fun count le => cheap count (le.trans within)) inv ok stepped).2.2.2
  ended := by
    rintro s r ⟨inv, _⟩ result
    cases phase : s.phase with
    | publishing count inner => simp [Publishing.bursts, phase] at result
    | sleeping => simp [Publishing.bursts, phase] at result
    | ended outcome =>
      simp only [Publishing.bursts, phase, Option.some.injEq] at result
      simp only [BurstInv, phase] at inv
      exact ⟨by simp [burstOwed, phase], result ▸ inv.2⟩
  live := by
    rintro s ⟨inv, _⟩ running
    exact burst_live acc inv running

end

end

end RepidBench.Publishing
