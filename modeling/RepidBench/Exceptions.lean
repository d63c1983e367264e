/-!
Statements that change a state and may raise, with `try ... finally` and
`try ... except`, and Hoare triples with a postcondition for each of the two ways in
which a statement ends.
-/
namespace RepidBench.Exceptions

universe u
variable {σ ε α β : Type u}

/-- A statement: it returns or raises, and the state it leaves is there in both cases. -/
def Stmt (σ ε α : Type u) : Type u := σ → Except ε α × σ

namespace Stmt

def bind (first : Stmt σ ε α) (next : α → Stmt σ ε β) : Stmt σ ε β := fun s =>
  match first s with
  | (.ok a, t) => next a t
  | (.error e, t) => (.error e, t)

instance : Monad (Stmt σ ε) where
  pure a := fun s => (.ok a, s)
  bind := bind

def raise (e : ε) : Stmt σ ε α := fun s => (.error e, s)

/-- An assignment. -/
def change (f : σ → σ) : Stmt σ ε PUnit := fun s => (.ok ⟨⟩, f s)

/-- `if condition: body`. -/
def onlyIf (condition : Bool) (body : Stmt σ ε PUnit) : Stmt σ ε PUnit :=
  match condition with
  | true => body
  | false => pure ⟨⟩

/-- `try: body finally: last`; what `last` raises replaces what `body` raised. -/
def andFinally (body : Stmt σ ε α) (last : Stmt σ ε PUnit) : Stmt σ ε α := fun s =>
  match body s with
  | (result, t) =>
    match last t with
    | (.ok _, u) => (result, u)
    | (.error e, u) => (.error e, u)

/-- `try: body except Exception as e: handler(e)`. -/
def andExcept (body : Stmt σ ε α) (handler : ε → Stmt σ ε α) : Stmt σ ε α := fun s =>
  match body s with
  | (.ok a, t) => (.ok a, t)
  | (.error e, t) => handler e t

/-- `for i in range(n)`, with what the body accumulates. -/
def forRange (n : Nat) (start : β) (body : β → Nat → Stmt σ ε β) : Stmt σ ε β :=
  match n with
  | 0 => pure start
  | n + 1 => do
    let acc ← forRange n start body
    body acc n

/-- `for x in xs`. -/
def forEach (xs : List α) (body : α → Stmt σ ε PUnit) : Stmt σ ε PUnit :=
  match xs with
  | [] => pure ⟨⟩
  | x :: rest => do
    body x
    forEach rest body

end Stmt

/-- Where `P` holds, the statement returns with `Q` or raises with `E`. -/
def Triple (P : σ → Prop) (stmt : Stmt σ ε α) (Q : α → σ → Prop) (E : ε → σ → Prop) : Prop :=
  ∀ s, P s →
    match stmt s with
    | (.ok a, t) => Q a t
    | (.error e, t) => E e t

namespace Triple
variable {P P' : σ → Prop} {Q Q' : α → σ → Prop} {R : β → σ → Prop} {E E' : ε → σ → Prop}

theorem returned {stmt : Stmt σ ε α} (triple : Triple P stmt Q E) {s t : σ} {a : α} (pre : P s)
    (ends : stmt s = (.ok a, t)) : Q a t := by
  have post := triple s pre
  rwa [ends] at post

theorem raised {stmt : Stmt σ ε α} (triple : Triple P stmt Q E) {s t : σ} {e : ε} (pre : P s)
    (ends : stmt s = (.error e, t)) : E e t := by
  have post := triple s pre
  rwa [ends] at post

theorem weaken {stmt : Stmt σ ε α} (triple : Triple P stmt Q E) (pre : ∀ s, P' s → P s)
    (post : ∀ a t, Q a t → Q' a t) (raises : ∀ e t, E e t → E' e t) : Triple P' stmt Q' E' := by
  intro s holds
  have ends := triple s (pre s holds)
  cases result : stmt s with
  | mk outcome t =>
    rw [result] at ends
    cases outcome with
    | ok a => exact post a t ends
    | error e => exact raises e t ends

theorem pure {a : α} (post : ∀ s, P s → Q a s) : Triple P (Pure.pure a : Stmt σ ε α) Q E := post

theorem change {f : σ → σ} {Q : PUnit → σ → Prop} (post : ∀ s, P s → Q ⟨⟩ (f s)) :
    Triple P (Stmt.change f : Stmt σ ε PUnit) Q E := post

theorem onlyIf {condition : Bool} {body : Stmt σ ε PUnit} {Q : PUnit → σ → Prop}
    (holds : condition = true → Triple P body Q E) (fails : condition = false → ∀ s, P s → Q ⟨⟩ s) :
    Triple P (Stmt.onlyIf condition body) Q E := by
  cases condition with
  | true => exact holds rfl
  | false => exact fails rfl

theorem bind {first : Stmt σ ε α} {next : α → Stmt σ ε β} (before : Triple P first Q E)
    (after : ∀ a, Triple (Q a) (next a) R E) : Triple P (first >>= next) R E := by
  intro s holds
  have ends := before s holds
  show match Stmt.bind first next s with
    | (.ok b, t) => R b t
    | (.error e, t) => E e t
  unfold Stmt.bind
  cases result : first s with
  | mk outcome t =>
    rw [result] at ends
    cases outcome with
    | ok a => exact after a t ends
    | error e => exact ends

/-- The last statement gets what the body leaves, however it ends. -/
theorem andFinally {body : Stmt σ ε α} {last : Stmt σ ε PUnit} (before : Triple P body Q E)
    (returns : ∀ a, Triple (Q a) last (fun _ => Q' a) E') (raises : ∀ e, Triple (E e) last (fun _ => E' e) E') :
    Triple P (body.andFinally last) Q' E' := by
  intro s holds
  have ends := before s holds
  unfold Stmt.andFinally
  cases result : body s with
  | mk outcome t =>
    rw [result] at ends
    cases outcome with
    | ok a =>
      have finished := returns a t ends
      cases cleaned : last t with
      | mk outcome u =>
        rw [cleaned] at finished
        simp only [cleaned]
        cases outcome <;> exact finished
    | error e =>
      have finished := raises e t ends
      cases cleaned : last t with
      | mk outcome u =>
        rw [cleaned] at finished
        simp only [cleaned]
        cases outcome <;> exact finished

theorem andExcept {body : Stmt σ ε α} {handler : ε → Stmt σ ε α} (before : Triple P body Q E)
    (handles : ∀ e, Triple (E e) (handler e) Q E') : Triple P (body.andExcept handler) Q E' := by
  intro s holds
  have ends := before s holds
  unfold Stmt.andExcept
  cases result : body s with
  | mk outcome t =>
    rw [result] at ends
    cases outcome with
    | ok a => exact ends
    | error e => exact handles e t ends

theorem forRange {n : Nat} {start : β} {body : β → Nat → Stmt σ ε β} (Inv : Nat → β → σ → Prop)
    (each : ∀ i, i < n → ∀ acc, Triple (Inv i acc) (body acc i) (Inv (i + 1)) E) :
    Triple (Inv 0 start) (Stmt.forRange n start body) (Inv n) E := by
  induction n with
  | zero => exact pure (fun _ holds => holds)
  | succ n ih =>
    refine bind (ih (fun i less acc => each i (Nat.lt_succ_of_lt less) acc)) (fun acc => ?_)
    exact each n (Nat.lt_succ_self n) acc

theorem forEach {xs : List α} {body : α → Stmt σ ε PUnit} (Inv : List α → σ → Prop)
    (each : ∀ x rest, x :: rest <:+ xs → Triple (Inv (x :: rest)) (body x) (fun _ => Inv rest) E) :
    Triple (Inv xs) (Stmt.forEach xs body) (fun _ => Inv []) E := by
  induction xs with
  | nil => exact pure (fun _ holds => holds)
  | cons x rest ih =>
    refine bind (each x rest List.suffix_rfl) (fun _ => ?_)
    exact ih (fun y later tail => each y later (tail.trans (List.suffix_cons x rest)))

end Triple

end RepidBench.Exceptions
