import Mathlib.Data.Int.Order.Basic
import Mathlib.Data.List.GetD
import RepidBench.Transition

/-!
The counter file and the latency file that the worker processes of a run share:
`counter_incr_mmap` and `record_latency_to_file`, step by step under `flock`,
beside readers that take no lock (`read_counter_mmap`, `read_latency_count`,
`read_latencies_from_file`). Every load and store of 8 bytes is one step, and a
worker may be killed between any two; the kernel then drops the locks it holds.
-/
namespace RepidBench.SharedFiles
open Transition

universe u
variable {L : Type u}

/-- Where a worker process stands: between two calls, or at a statement of one.
    In a call that holds a lock, `closing` is its `finally` clause. -/
inductive Worker (L : Type u)
  | idle
  | counterOpen
  | counterLocked
  | counterLoaded (val : ℤ)
  | counterClosing
  | latencyOpen (latency : L)
  | latencyLocked (latency : L)
  | latencyLoaded (latency : L) (idx : ℤ)
  | slotStored (latency : L) (idx : ℤ)
  | latencyClosing
  | killed
  deriving DecidableEq, Repr

/-- A reader between two calls, or inside `read_latencies_from_file` with the
    header it observed and the values it has read. -/
inductive Reader (L : Type u)
  | idle
  | reading (n : ℤ) (values : List L)
  deriving DecidableEq, Repr

/-- The bytes of both files, their locks, and the processes. -/
structure State (L : Type u) where
  counter : ℤ
  counterLock : Option Nat
  header : ℤ
  slots : List L
  latencyLock : Option Nat
  workers : Nat → Worker L
  readers : Nat → Reader L

inductive Action (L : Type u)
  | openCounter
  | lockCounter
  | loadCounter
  | storeCounter
  | unlockCounter
  | openLatency (latency : L)
  | lockLatency (latency : L)
  | loadHeader
  | storeSlot
  | storeHeader (latency : L)
  | unlockLatency
  | raise
  | kill
  deriving DecidableEq, Repr

/-- What a reader does, with the value it observes. -/
inductive ReaderAction
  | readCounter (value : ℤ)
  | readCount (n : ℤ)
  | beginRead (n : ℤ)
  | readSlot
  | endRead
  deriving DecidableEq, Repr

inductive Label (L : Type u)
  | worker (w : Nat) (a : Action L)
  | reader (r : Nat) (a : ReaderAction)
  deriving DecidableEq, Repr

/-- What `struct.pack_into("q", ...)` can store; it raises for other values. -/
def Fits (value : ℤ) : Prop := -2 ^ 63 ≤ value ∧ value < 2 ^ 63

instance (value : ℤ) : Decidable (Fits value) := inferInstanceAs (Decidable (_ ∧ _))

/-- `max(0, (len(mm) - 8) // 8)`, for a file of a header and the slots. -/
def State.capacity (s : State L) : ℤ := max 0 (((8 + 8 * s.slots.length : ℤ) - 8) / 8)

@[simp] theorem State.capacity_eq (s : State L) : s.capacity = s.slots.length := by
  unfold capacity
  omega

def State.move (s : State L) (w : Nat) (phase : Worker L) : State L :=
  { s with workers := Function.update s.workers w phase }

/-- The locks that a process holds are dropped when it dies. -/
def dropped (lock : Option Nat) (w : Nat) : Option Nat := if lock = some w then none else lock

section
variable [DecidableEq L]

/-- One step of a worker process. -/
def workerStep (s : State L) (w : Nat) (a : Action L) : Option (State L) :=
  match s.workers w, a with
  | .idle, .openCounter => some (s.move w .counterOpen)
  | .counterOpen, .lockCounter =>
    if s.counterLock = none then some { s.move w .counterLocked with counterLock := some w } else none
  | .counterLocked, .loadCounter => some (s.move w (.counterLoaded s.counter))
  | .counterLoaded val, .storeCounter =>
    if Fits (val + 1) then some { s.move w .counterClosing with counter := val + 1 } else none
  | .counterLoaded val, .raise => if Fits (val + 1) then none else some (s.move w .counterClosing)
  | .counterClosing, .unlockCounter => some { s.move w .idle with counterLock := none }
  | .idle, .openLatency latency => some (s.move w (.latencyOpen latency))
  | .latencyOpen latency, .lockLatency argument =>
    if latency = argument ∧ s.latencyLock = none then
      some { s.move w (.latencyLocked latency) with latencyLock := some w }
    else none
  | .latencyLocked latency, .loadHeader =>
    some (s.move w (if s.capacity ≤ s.header then .latencyClosing else .latencyLoaded latency s.header))
  | .latencyLoaded latency idx, .storeSlot =>
    some { s.move w (.slotStored latency idx) with slots := s.slots.set idx.toNat latency }
  | .slotStored latency idx, .storeHeader argument =>
    if latency = argument ∧ Fits (idx + 1) then some { s.move w .latencyClosing with header := idx + 1 } else none
  | .slotStored _ idx, .raise => if Fits (idx + 1) then none else some (s.move w .latencyClosing)
  | .latencyClosing, .unlockLatency => some { s.move w .idle with latencyLock := none }
  | .killed, _ => none
  | _, .kill => some { s.move w .killed with
      counterLock := dropped s.counterLock w
      latencyLock := dropped s.latencyLock w }
  | _, _ => none

/-- One step of a reader; `[... for i in range(n)]` reads the slots one by one. -/
def readerStep (s : State L) (r : Nat) (a : ReaderAction) : Option (State L) :=
  match s.readers r, a with
  | .idle, .readCounter value => if value = s.counter then some s else none
  | .idle, .readCount n => if n = s.header then some s else none
  | .idle, .beginRead n =>
    if n = s.header then some { s with readers := Function.update s.readers r (.reading n []) } else none
  | .reading n values, .readSlot =>
    if (values.length : ℤ) < n then
      s.slots[values.length]?.map (fun value =>
        { s with readers := Function.update s.readers r (.reading n (values ++ [value])) })
    else none
  | .reading n values, .endRead =>
    if n ≤ values.length then some { s with readers := Function.update s.readers r .idle } else none
  | _, _ => none

def step (s : State L) : Label L → Option (State L)
  | .worker w a => workerStep s w a
  | .reader r a => readerStep s r a

end

/-- The files as `create_counter_file` and `init_latency_file` leave them, with
    any number of processes about to use them; the slots are zero bytes. -/
def init (zero : L) (capacity : Nat) : State L :=
  ⟨0, none, 0, List.replicate capacity zero, none, fun _ => .idle, fun _ => .idle⟩

/-! ## What a worker's step does -/

/-- The steps of `workerStep`, one by one. -/
inductive Moves (s : State L) (w : Nat) : Action L → State L → Prop
  | openCounter (phase : s.workers w = .idle) : Moves s w .openCounter (s.move w .counterOpen)
  | lockCounter (phase : s.workers w = .counterOpen) (unlocked : s.counterLock = none) :
      Moves s w .lockCounter { s.move w .counterLocked with counterLock := some w }
  | loadCounter (phase : s.workers w = .counterLocked) :
      Moves s w .loadCounter (s.move w (.counterLoaded s.counter))
  | storeCounter (val : ℤ) (phase : s.workers w = .counterLoaded val) :
      Moves s w .storeCounter { s.move w .counterClosing with counter := val + 1 }
  | raiseCounter (val : ℤ) (phase : s.workers w = .counterLoaded val) :
      Moves s w .raise (s.move w .counterClosing)
  | unlockCounter (phase : s.workers w = .counterClosing) :
      Moves s w .unlockCounter { s.move w .idle with counterLock := none }
  | openLatency (latency : L) (phase : s.workers w = .idle) :
      Moves s w (.openLatency latency) (s.move w (.latencyOpen latency))
  | lockLatency (latency : L) (phase : s.workers w = .latencyOpen latency) (unlocked : s.latencyLock = none) :
      Moves s w (.lockLatency latency) { s.move w (.latencyLocked latency) with latencyLock := some w }
  | full (latency : L) (phase : s.workers w = .latencyLocked latency) (full : (s.slots.length : ℤ) ≤ s.header) :
      Moves s w .loadHeader (s.move w .latencyClosing)
  | loadHeader (latency : L) (phase : s.workers w = .latencyLocked latency)
      (room : s.header < (s.slots.length : ℤ)) :
      Moves s w .loadHeader (s.move w (.latencyLoaded latency s.header))
  | storeSlot (latency : L) (idx : ℤ) (phase : s.workers w = .latencyLoaded latency idx) :
      Moves s w .storeSlot { s.move w (.slotStored latency idx) with slots := s.slots.set idx.toNat latency }
  | storeHeader (latency : L) (idx : ℤ) (phase : s.workers w = .slotStored latency idx) :
      Moves s w (.storeHeader latency) { s.move w .latencyClosing with header := idx + 1 }
  | raiseLatency (latency : L) (idx : ℤ) (phase : s.workers w = .slotStored latency idx) :
      Moves s w .raise (s.move w .latencyClosing)
  | unlockLatency (phase : s.workers w = .latencyClosing) :
      Moves s w .unlockLatency { s.move w .idle with latencyLock := none }
  | kill : Moves s w .kill { s.move w .killed with
      counterLock := dropped s.counterLock w
      latencyLock := dropped s.latencyLock w }

theorem workerStep_moves [DecidableEq L] {s t : State L} {w : Nat} {a : Action L}
    (stepped : workerStep s w a = some t) : Moves s w a t := by
  unfold workerStep at stepped
  split at stepped
  · cases stepped
    exact .openCounter ‹_›
  · simp only [Option.ite_none_right_eq_some, Option.some.injEq] at stepped
    obtain ⟨unlocked, rfl⟩ := stepped
    exact .lockCounter ‹_› unlocked
  · cases stepped
    exact .loadCounter ‹_›
  · simp only [Option.ite_none_right_eq_some, Option.some.injEq] at stepped
    obtain ⟨_, rfl⟩ := stepped
    exact .storeCounter _ ‹_›
  · simp only [Option.ite_none_left_eq_some, Option.some.injEq] at stepped
    obtain ⟨_, rfl⟩ := stepped
    exact .raiseCounter _ ‹_›
  · cases stepped
    exact .unlockCounter ‹_›
  · cases stepped
    exact .openLatency _ ‹_›
  · simp only [Option.ite_none_right_eq_some, Option.some.injEq] at stepped
    obtain ⟨⟨rfl, unlocked⟩, rfl⟩ := stepped
    exact .lockLatency _ ‹_› unlocked
  · rw [State.capacity_eq] at stepped
    by_cases full : (s.slots.length : ℤ) ≤ s.header
    · rw [if_pos full] at stepped
      cases stepped
      exact .full _ ‹_› full
    · rw [if_neg full] at stepped
      cases stepped
      exact .loadHeader _ ‹_› (not_le.mp full)
  · cases stepped
    exact .storeSlot _ _ ‹_›
  · simp only [Option.ite_none_right_eq_some, Option.some.injEq] at stepped
    obtain ⟨⟨rfl, _⟩, rfl⟩ := stepped
    exact .storeHeader _ _ ‹_›
  · simp only [Option.ite_none_left_eq_some, Option.some.injEq] at stepped
    obtain ⟨_, rfl⟩ := stepped
    exact .raiseLatency _ _ ‹_›
  · cases stepped
    exact .unlockLatency ‹_›
  · cases stepped
  · cases stepped
    exact .kill
  · cases stepped

/-- What one step of a reader can do. -/
theorem readerStep_cases [DecidableEq L] {s t : State L} {r : Nat} {a : ReaderAction}
    (stepped : readerStep s r a = some t) :
    (∃ value, a = .readCounter value ∧ value = s.counter ∧ t = s) ∨
    (∃ n, a = .readCount n ∧ n = s.header ∧ t = s) ∨
    (∃ n, a = .beginRead n ∧ n = s.header ∧
      t = { s with readers := Function.update s.readers r (.reading n []) }) ∨
    (∃ n values value, a = .readSlot ∧ s.readers r = .reading n values ∧ (values.length : ℤ) < n ∧
      s.slots[values.length]? = some value ∧
      t = { s with readers := Function.update s.readers r (.reading n (values ++ [value])) }) ∨
    (a = .endRead ∧ t = { s with readers := Function.update s.readers r .idle }) := by
  unfold readerStep at stepped
  split at stepped
  · simp only [Option.ite_none_right_eq_some, Option.some.injEq] at stepped
    exact .inl ⟨_, rfl, stepped.1, stepped.2.symm⟩
  · simp only [Option.ite_none_right_eq_some, Option.some.injEq] at stepped
    exact .inr (.inl ⟨_, rfl, stepped.1, stepped.2.symm⟩)
  · simp only [Option.ite_none_right_eq_some, Option.some.injEq] at stepped
    exact .inr (.inr (.inl ⟨_, rfl, stepped.1, stepped.2.symm⟩))
  · simp only [Option.ite_none_right_eq_some, Option.map_eq_some_iff] at stepped
    obtain ⟨more, value, found, rfl⟩ := stepped
    exact .inr (.inr (.inr (.inl ⟨_, _, value, rfl, ‹_›, more, found, rfl⟩)))
  · simp only [Option.ite_none_right_eq_some, Option.some.injEq] at stepped
    exact .inr (.inr (.inr (.inr ⟨rfl, stepped.2.symm⟩)))
  · cases stepped

/-! ## The invariant -/

/-- What is known where a worker stands: it holds the lock of its section, what
    it has loaded is still there, and the slot it stored holds its latency. -/
def WorkerInv (s : State L) (w : Nat) : Worker L → Prop
  | .counterLocked | .counterClosing => s.counterLock = some w
  | .counterLoaded val => s.counterLock = some w ∧ val = s.counter
  | .latencyLocked _ | .latencyClosing => s.latencyLock = some w
  | .latencyLoaded _ idx => s.latencyLock = some w ∧ idx = s.header ∧ s.header < s.slots.length
  | .slotStored latency idx => s.latencyLock = some w ∧ idx = s.header ∧ s.slots[idx.toNat]? = some latency
  | .idle | .counterOpen | .latencyOpen _ | .killed => True

/-- A reader has the first values of the slots below the header it observed. -/
def ReaderInv (s : State L) : Reader L → Prop
  | .idle => True
  | .reading n values => n ≤ s.header ∧ (values.length : ℤ) ≤ n ∧ values = s.slots.take values.length

structure Inv (s : State L) : Prop where
  nonneg : 0 ≤ s.header
  within : s.header ≤ s.slots.length
  workers : ∀ w, WorkerInv s w (s.workers w)
  readers : ∀ r, ReaderInv s (s.readers r)

theorem init_inv (zero : L) (capacity : Nat) : Inv (init zero capacity) :=
  ⟨le_rfl, by simp [init], fun _ => trivial, fun _ => trivial⟩

/-- The latencies below the header. -/
def State.recorded (s : State L) : List L := s.slots.take s.header.toNat

theorem Inv.recorded_length {s : State L} (inv : Inv s) : (s.recorded.length : ℤ) = s.header := by
  have nonneg := inv.nonneg
  have within := inv.within
  rw [State.recorded, List.length_take]
  omega

/-- The entries below the header stay as they are, and the header never falls. -/
structure Grows (s t : State L) : Prop where
  size : t.slots.length = s.slots.length
  header : s.header ≤ t.header
  counter : s.counter ≤ t.counter
  kept : t.slots.take s.header.toNat = s.recorded

theorem ReaderInv.grows {s t : State L} {reader : Reader L} (inv : ReaderInv s reader) (grows : Grows s t) :
    ReaderInv t reader := by
  cases reader with
  | idle => trivial
  | reading n values =>
    obtain ⟨observed, read, same⟩ := inv
    refine ⟨observed.trans grows.header, read, ?_⟩
    have short : values.length ≤ s.header.toNat := by omega
    have before : (s.slots.take s.header.toNat).take values.length = s.slots.take values.length := by
      rw [List.take_take, Nat.min_eq_left short]
    calc values = s.slots.take values.length := same
      _ = (t.slots.take s.header.toNat).take values.length := by rw [grows.kept, State.recorded, before]
      _ = t.slots.take values.length := by rw [List.take_take, Nat.min_eq_left short]

/-- A worker is not concerned by a step of another that leaves alone what is
    behind the locks it holds. -/
theorem WorkerInv.frame {s t : State L} {w : Nat} {phase : Worker L} (inv : WorkerInv s w phase)
    (counter : s.counterLock = some w → t.counterLock = some w ∧ t.counter = s.counter)
    (latency : s.latencyLock = some w → t.latencyLock = some w ∧ t.header = s.header ∧ t.slots = s.slots) :
    WorkerInv t w phase := by
  cases phase with
  | idle | counterOpen | latencyOpen _ | killed => trivial
  | counterLocked | counterClosing => exact (counter inv).1
  | counterLoaded val =>
    obtain ⟨locked, same⟩ := counter inv.1
    exact ⟨locked, inv.2.trans same.symm⟩
  | latencyLocked _ | latencyClosing => exact (latency inv).1
  | latencyLoaded _ idx =>
    obtain ⟨locked, header, slots⟩ := latency inv.1
    exact ⟨locked, header ▸ inv.2.1, by rw [header, slots]; exact inv.2.2⟩
  | slotStored x idx =>
    obtain ⟨locked, header, slots⟩ := latency inv.1
    exact ⟨locked, header ▸ inv.2.1, slots ▸ inv.2.2⟩

/-- The invariant after a step of worker `w`, from what the step does to it and
    to the two files. -/
theorem Inv.moved {s t : State L} {w : Nat} {phase : Worker L} (inv : Inv s) (grows : Grows s t)
    (moved : t.workers = Function.update s.workers w phase) (readers : t.readers = s.readers)
    (within : t.header ≤ t.slots.length) (own : WorkerInv t w phase)
    (counter : ∀ v ≠ w, s.counterLock = some v → t.counterLock = some v ∧ t.counter = s.counter)
    (latency : ∀ v ≠ w, s.latencyLock = some v →
      t.latencyLock = some v ∧ t.header = s.header ∧ t.slots = s.slots) : Inv t ∧ Grows s t := by
  refine ⟨⟨inv.nonneg.trans grows.header, within, ?_, ?_⟩, grows⟩
  · intro v
    rw [moved]
    by_cases same : v = w
    · subst same
      rw [Function.update_self]
      exact own
    · rw [Function.update_of_ne same]
      exact (inv.workers v).frame (counter v same) (latency v same)
  · intro r
    rw [readers]
    exact (inv.readers r).grows grows

/-- The entry at the header is not below it. -/
theorem take_set_self (slots : List L) (n : Nat) (x : L) : (slots.set n x).take n = slots.take n := by
  rw [List.take_set, List.set_eq_of_length_le (by simp)]

theorem dropped_other {lock : Option Nat} {v w : Nat} (other : v ≠ w) (held : lock = some v) :
    dropped lock w = some v := by
  subst held
  rw [dropped, if_neg (by simpa using other)]

/-- A step of a worker keeps the invariant, and only adds to what is recorded. -/
theorem Moves.inv {s t : State L} {w : Nat} {a : Action L} (inv : Inv s) (moves : Moves s w a t) :
    Inv t ∧ Grows s t := by
  have own := inv.workers w
  have counterSame : ∀ v ≠ w, s.counterLock = some v → s.counterLock = some v ∧ s.counter = s.counter :=
    fun _ _ held => ⟨held, rfl⟩
  have latencySame : ∀ v ≠ w, s.latencyLock = some v →
      s.latencyLock = some v ∧ s.header = s.header ∧ s.slots = s.slots := fun _ _ held => ⟨held, rfl, rfl⟩
  have single {lock : Option Nat} {v : Nat} (mine : lock = some w) (other : v ≠ w) (held : lock = some v) : False :=
    other (Option.some.inj (held.symm.trans mine))
  cases moves with
  | openCounter phase =>
    exact inv.moved ⟨rfl, le_rfl, le_rfl, rfl⟩ rfl rfl inv.within trivial counterSame latencySame
  | lockCounter phase unlocked =>
    refine inv.moved ⟨rfl, le_rfl, le_rfl, rfl⟩ rfl rfl inv.within rfl ?_ latencySame
    intro v _ held
    exact absurd held (by simp [unlocked])
  | loadCounter phase =>
    rw [phase] at own
    exact inv.moved ⟨rfl, le_rfl, le_rfl, rfl⟩ rfl rfl inv.within ⟨own, rfl⟩ counterSame latencySame
  | storeCounter val phase =>
    rw [phase] at own
    obtain ⟨locked, loaded⟩ := own
    have more : s.counter ≤ val + 1 := by omega
    exact inv.moved ⟨rfl, le_rfl, more, rfl⟩ rfl rfl inv.within locked
      (fun v other held => (single locked other held).elim) latencySame
  | raiseCounter val phase =>
    rw [phase] at own
    exact inv.moved ⟨rfl, le_rfl, le_rfl, rfl⟩ rfl rfl inv.within own.1 counterSame latencySame
  | unlockCounter phase =>
    rw [phase] at own
    exact inv.moved ⟨rfl, le_rfl, le_rfl, rfl⟩ rfl rfl inv.within trivial
      (fun v other held => (single own other held).elim) latencySame
  | openLatency latency phase =>
    exact inv.moved ⟨rfl, le_rfl, le_rfl, rfl⟩ rfl rfl inv.within trivial counterSame latencySame
  | lockLatency latency phase unlocked =>
    refine inv.moved ⟨rfl, le_rfl, le_rfl, rfl⟩ rfl rfl inv.within rfl counterSame ?_
    intro v _ held
    exact absurd held (by simp [unlocked])
  | full latency phase full =>
    rw [phase] at own
    exact inv.moved ⟨rfl, le_rfl, le_rfl, rfl⟩ rfl rfl inv.within own counterSame latencySame
  | loadHeader latency phase room =>
    rw [phase] at own
    exact inv.moved ⟨rfl, le_rfl, le_rfl, rfl⟩ rfl rfl inv.within ⟨own, rfl, room⟩ counterSame latencySame
  | storeSlot latency idx phase =>
    rw [phase] at own
    obtain ⟨locked, rfl, room⟩ := own
    have nonneg := inv.nonneg
    have inside : s.header.toNat < s.slots.length := by omega
    refine inv.moved ⟨List.length_set, le_rfl, le_rfl, take_set_self _ _ _⟩ rfl rfl ?_ ?_ counterSame
      (fun v other held => (single locked other held).elim)
    · show s.header ≤ ((s.slots.set s.header.toNat latency).length : ℤ)
      rw [List.length_set]
      exact inv.within
    · exact ⟨locked, rfl, by simp [inside]⟩
  | storeHeader latency idx phase =>
    rw [phase] at own
    obtain ⟨locked, rfl, stored⟩ := own
    have nonneg := inv.nonneg
    have inside := (List.getElem?_eq_some_iff.mp stored).1
    have filled : s.header + 1 ≤ s.slots.length := by omega
    exact inv.moved ⟨rfl, by simp, le_rfl, rfl⟩ rfl rfl filled locked counterSame
      (fun v other held => (single locked other held).elim)
  | raiseLatency latency idx phase =>
    rw [phase] at own
    exact inv.moved ⟨rfl, le_rfl, le_rfl, rfl⟩ rfl rfl inv.within own.1 counterSame latencySame
  | unlockLatency phase =>
    rw [phase] at own
    exact inv.moved ⟨rfl, le_rfl, le_rfl, rfl⟩ rfl rfl inv.within trivial counterSame
      (fun v other held => (single own other held).elim)
  | kill =>
    exact inv.moved ⟨rfl, le_rfl, le_rfl, rfl⟩ rfl rfl inv.within trivial
      (fun v other held => ⟨dropped_other other held, rfl⟩)
      (fun v other held => ⟨dropped_other other held, rfl, rfl⟩)

/-- A step of a reader changes neither file, and only the reader. -/
theorem readerStep_inv [DecidableEq L] {s t : State L} {r : Nat} {a : ReaderAction} (inv : Inv s)
    (stepped : readerStep s r a = some t) :
    Inv t ∧ t = { s with readers := t.readers } := by
  have others {reader : Reader L} (own : ReaderInv s reader) :
      Inv { s with readers := Function.update s.readers r reader } := by
    refine ⟨inv.nonneg, inv.within, inv.workers, fun q => ?_⟩
    show ReaderInv s (Function.update s.readers r reader q)
    by_cases same : q = r
    · subst same
      rwa [Function.update_self]
    · rw [Function.update_of_ne same]
      exact inv.readers q
  rcases readerStep_cases stepped with ⟨value, rfl, _, rfl⟩ | ⟨n, rfl, _, rfl⟩ | ⟨n, rfl, rfl, rfl⟩ |
    ⟨n, values, value, rfl, phase, more, found, rfl⟩ | ⟨rfl, rfl⟩
  · exact ⟨inv, rfl⟩
  · exact ⟨inv, rfl⟩
  · exact ⟨others ⟨le_rfl, by simpa using inv.nonneg, rfl⟩, rfl⟩
  · have reading := inv.readers r
    rw [phase] at reading
    obtain ⟨observed, _, same⟩ := reading
    refine ⟨others ⟨observed, by simp; omega, ?_⟩, rfl⟩
    rw [List.length_append, List.length_singleton, List.take_add_one, found, ← same]
    rfl
  · exact ⟨others trivial, rfl⟩

theorem step_inv [DecidableEq L] {s t : State L} {a : Label L} (inv : Inv s) (stepped : step s a = some t) :
    Inv t ∧ Grows s t := by
  cases a with
  | worker w action => exact (workerStep_moves stepped).inv inv
  | reader r action =>
    obtain ⟨kept, same⟩ := readerStep_inv inv stepped
    exact ⟨kept, by rw [same]; exact ⟨rfl, le_rfl, le_rfl, rfl⟩⟩

/-! ## What a trace records -/

/-- Increment stores. -/
def increments : Label L → Nat
  | .worker _ .storeCounter => 1
  | _ => 0

/-- The latency whose header store a label is. -/
def headerStore : Label L → Option L
  | .worker _ (.storeHeader latency) => some latency
  | _ => none

/-- The section that worker `w` is in gets as far as its header store. -/
def storesNext (w : Nat) : List (Label L) → Bool
  | [] => false
  | .worker v (.storeHeader _) :: rest => v = w || storesNext w rest
  | .worker v .unlockLatency :: rest => v ≠ w && storesNext w rest
  | .worker v .kill :: rest => v ≠ w && storesNext w rest
  | _ :: rest => storesNext w rest

/-- The latencies whose header store is executed, in the order in which their
    writers take the lock. -/
def inLockOrder : List (Label L) → List L
  | [] => []
  | .worker w (.lockLatency latency) :: rest =>
    if storesNext w rest then latency :: inLockOrder rest else inLockOrder rest
  | _ :: rest => inLockOrder rest

/-- A header that a reader observes. -/
def observedHeader : Label L → Option ℤ
  | .reader _ (.readCount n) | .reader _ (.beginRead n) => some n
  | _ => none

/-- A counter that a reader observes. -/
def observedCounter : Label L → Option ℤ
  | .reader _ (.readCounter value) => some value
  | _ => none

/-- The latency that a worker holding the lock may still record. -/
def Worker.recording : Worker L → Option L
  | .latencyLocked latency | .latencyLoaded latency _ | .slotStored latency _ => some latency
  | _ => none

def State.pending (s : State L) : Option (Nat × L) :=
  s.latencyLock.bind (fun w => (s.workers w).recording.map (fun latency => (w, latency)))

/-- What the labels to come record, given the section that has been entered. -/
def State.expected (s : State L) (trace : List (Label L)) : List L :=
  (match s.pending with
  | some (w, latency) => if storesNext w trace then [latency] else []
  | none => []) ++ inLockOrder trace

theorem pending_move {s t : State L} {w : Nat} {phase : Worker L} (lock : t.latencyLock = s.latencyLock)
    (moved : t.workers = Function.update s.workers w phase) (same : phase.recording = (s.workers w).recording) :
    t.pending = s.pending := by
  unfold State.pending
  rw [lock, moved]
  congr 1
  funext v
  by_cases own : v = w
  · subst own
    rw [Function.update_self, same]
  · rw [Function.update_of_ne own]

theorem pending_moved (s t : State L) {w : Nat} (phase : Worker L) (held : t.latencyLock = some w)
    (moved : t.workers = Function.update s.workers w phase) :
    t.pending = phase.recording.map (fun latency => (w, latency)) := by
  rw [State.pending, held, moved, Option.bind_some, Function.update_self]

theorem pending_held {s : State L} {w : Nat} (held : s.latencyLock = some w) :
    s.pending = (s.workers w).recording.map (fun latency => (w, latency)) := by
  rw [State.pending, held]
  rfl

theorem expected_nil (s : State L) : s.expected [] = [] := by
  unfold State.expected
  cases s.pending <;> rfl

/-- A label that leaves the pending section alone changes nothing expected. -/
theorem expected_quiet {s t : State L} {a : Label L} {rest : List (Label L)} (pending : t.pending = s.pending)
    (next : ∀ w latency, s.pending = some (w, latency) → storesNext w (a :: rest) = storesNext w rest)
    (order : inLockOrder (a :: rest) = inLockOrder rest) : s.expected (a :: rest) = t.expected rest := by
  unfold State.expected
  rw [pending, order]
  cases inside : s.pending with
  | none => rfl
  | some entered =>
    have same := next entered.1 entered.2 inside
    simp only [same]

/-- Nothing more is expected of a section that is left without a header store. -/
theorem expected_abandoned {s t : State L} {w : Nat} {latency : L} {a : Label L} {rest : List (Label L)}
    (inside : s.pending = some (w, latency)) (outside : t.pending = none)
    (next : storesNext w (a :: rest) = false) (order : inLockOrder (a :: rest) = inLockOrder rest) :
    s.expected (a :: rest) = t.expected rest := by
  simp [State.expected, inside, outside, next, order]

section
variable [DecidableEq L] {s t : State L}

theorem step_others {w : Nat} {a : Label L} (other : ∀ b, a ≠ .worker w b) (stepped : step s a = some t) :
    t.workers w = s.workers w := by
  cases a with
  | reader r b =>
    rcases readerStep_cases stepped with ⟨_, _, _, rfl⟩ | ⟨_, _, _, rfl⟩ | ⟨_, _, _, rfl⟩ |
      ⟨_, _, _, _, _, _, _, rfl⟩ | ⟨_, rfl⟩ <;> rfl
  | worker v b =>
    have apart : w ≠ v := by
      rintro rfl
      exact other b rfl
    cases workerStep_moves stepped <;> exact Function.update_of_ne apart _ _

/-- A worker at its `finally` clause stores no header before it has left. -/
theorem closing_stores_nothing {w : Nat} {trace : List (Label L)} (phase : s.workers w = .latencyClosing)
    (executed : run step s trace = some t) : storesNext w trace = false := by
  induction trace generalizing s with
  | nil => rfl
  | cons a rest ih =>
    obtain ⟨m, first, later⟩ := run_cons_iff.mp executed
    by_cases own : ∃ b, a = .worker w b
    · obtain ⟨b, rfl⟩ := own
      cases workerStep_moves first <;> simp_all [storesNext]
    · have other : ∀ b, a ≠ .worker w b := fun b same => own ⟨b, same⟩
      have rest' := ih ((step_others other first).trans phase) later
      cases a with
      | reader r b => exact rest'
      | worker v b =>
        have apart : v ≠ w := by
          rintro rfl
          exact other b rfl
        cases b <;> simp [storesNext, rest', apart]

/-- What is recorded and what is still expected together stay the same. -/
theorem step_expected {last : State L} {a : Label L} {rest : List (Label L)} (inv : Inv s)
    (stepped : step s a = some t) (later : run step t rest = some last) :
    s.recorded ++ s.expected (a :: rest) = t.recorded ++ t.expected rest := by
  cases a with
  | reader r b =>
    obtain ⟨_, same⟩ := readerStep_inv inv stepped
    have pending : t.pending = s.pending := by rw [same]; rfl
    have recorded : t.recorded = s.recorded := by rw [same]; rfl
    rw [recorded, expected_quiet pending (by intros; rfl) rfl]
  | worker w b =>
    have own := inv.workers w
    cases workerStep_moves stepped with
    | openCounter phase | lockCounter phase _ | loadCounter phase | storeCounter _ phase | raiseCounter _ phase
    | unlockCounter phase | openLatency _ phase | loadHeader _ phase _ =>
      exact congrArg _ (expected_quiet (pending_move rfl rfl (by rw [phase]; rfl)) (fun _ _ _ => rfl) rfl)
    | lockLatency latency phase unlocked =>
      have outside : s.pending = none := by rw [State.pending, unlocked]; rfl
      have inside : { s.move w (.latencyLocked latency) with latencyLock := some w }.pending = some (w, latency) :=
        pending_moved s _ (.latencyLocked latency) rfl rfl
      refine congrArg _ ?_
      simp only [State.expected, outside, inside, inLockOrder, List.nil_append]
      split_ifs <;> rfl
    | full latency phase _ =>
      rw [phase] at own
      have inside : s.pending = some (w, latency) := by rw [pending_held own, phase]; rfl
      refine congrArg _ (expected_abandoned inside (pending_moved s _ .latencyClosing own rfl) ?_ rfl)
      show storesNext w rest = false
      exact closing_stores_nothing (Function.update_self _ _ _) later
    | storeSlot latency idx phase =>
      rw [phase] at own
      obtain ⟨_, rfl, _⟩ := own
      have recorded : s.recorded = (s.slots.set s.header.toNat latency).take s.header.toNat :=
        (take_set_self _ _ _).symm
      rw [recorded]
      exact congrArg _ (expected_quiet (pending_move rfl rfl (by rw [phase]; rfl)) (fun _ _ _ => rfl) rfl)
    | storeHeader latency idx phase =>
      rw [phase] at own
      obtain ⟨locked, rfl, stored⟩ := own
      have nonneg := inv.nonneg
      have inside : s.pending = some (w, latency) := by rw [pending_held locked, phase]; rfl
      have longer : s.slots.take (s.header + 1).toNat = s.recorded ++ [latency] := by
        rw [Int.toNat_add nonneg (by decide), Int.toNat_one, List.take_add_one, stored]
        rfl
      have outside : { s.move w .latencyClosing with header := s.header + 1 }.pending = none :=
        pending_moved s _ .latencyClosing locked rfl
      show s.recorded ++ _ = s.slots.take (s.header + 1).toNat ++ _
      simp [State.expected, inside, outside, storesNext, inLockOrder, longer]
    | raiseLatency latency idx phase =>
      rw [phase] at own
      have inside : s.pending = some (w, latency) := by rw [pending_held own.1, phase]; rfl
      refine congrArg _ (expected_abandoned inside (pending_moved s _ .latencyClosing own.1 rfl) ?_ rfl)
      show storesNext w rest = false
      exact closing_stores_nothing (Function.update_self _ _ _) later
    | unlockLatency phase =>
      rw [phase] at own
      have outside : s.pending = none := by rw [pending_held own, phase]; rfl
      refine congrArg _ (expected_quiet ?_ (fun v latency inside => ?_) rfl)
      · rw [outside]
        rfl
      · simp [outside] at inside
    | kill =>
      by_cases inside : ∃ latency, s.pending = some (w, latency)
      · obtain ⟨latency, inside⟩ := inside
        have locked : s.latencyLock = some w := by
          obtain ⟨v, held, found⟩ := Option.bind_eq_some_iff.mp inside
          obtain ⟨_, _, same⟩ := Option.map_eq_some_iff.mp found
          cases same
          exact held
        refine congrArg _ (expected_abandoned inside ?_ ?_ rfl)
        · simp [State.pending, dropped, locked]
        · simp [storesNext]
      · refine congrArg _ (expected_quiet ?_ (fun v latency entered => ?_) rfl)
        · cases lock : s.latencyLock with
          | none => simp [State.pending, dropped, lock]
          | some v =>
            by_cases same : v = w
            · subst same
              have silent : (s.workers v).recording = none := by
                cases found : (s.workers v).recording with
                | none => rfl
                | some latency => exact absurd ⟨latency, by simp [pending_held lock, found]⟩ inside
              simp [State.pending, dropped, lock, silent]
            · simp [State.pending, dropped, lock, same, State.move]
        · have apart : w ≠ v := by
            rintro rfl
            exact inside ⟨latency, entered⟩
          simp [storesNext, apart]

/-! ## Every run -/

/-- The counter counts the increment stores, and header stores record in order. -/
theorem step_stores {a : Label L} (inv : Inv s) (stepped : step s a = some t) :
    t.counter = s.counter + increments a ∧ t.recorded = s.recorded ++ (headerStore a).toList := by
  cases a with
  | reader r b =>
    rw [(readerStep_inv inv stepped).2]
    exact ⟨(add_zero _).symm, (List.append_nil _).symm⟩
  | worker w b =>
    have own := inv.workers w
    cases workerStep_moves stepped with
    | storeCounter val phase =>
      rw [phase] at own
      obtain ⟨_, rfl⟩ := own
      exact ⟨rfl, (List.append_nil _).symm⟩
    | storeSlot latency idx phase =>
      rw [phase] at own
      obtain ⟨_, rfl, _⟩ := own
      exact ⟨(add_zero _).symm, (take_set_self _ _ _).trans (List.append_nil _).symm⟩
    | storeHeader latency idx phase =>
      rw [phase] at own
      obtain ⟨_, rfl, stored⟩ := own
      refine ⟨(add_zero _).symm, ?_⟩
      show s.slots.take (s.header + 1).toNat = s.slots.take s.header.toNat ++ [latency]
      rw [Int.toNat_add inv.nonneg (by decide), Int.toNat_one, List.take_add_one, stored]
      rfl
    | _ => exact ⟨(add_zero _).symm, (List.append_nil _).symm⟩

theorem run_inv {trace : List (Label L)} (inv : Inv s) (executed : run step s trace = some t) : Inv t :=
  run_invariant Inv (fun _ _ _ kept stepped => (step_inv kept stepped).1) inv executed

theorem run_size {trace : List (Label L)} (inv : Inv s) (executed : run step s trace = some t) :
    t.slots.length = s.slots.length := by
  have kept : ∀ (m : State L) a n, (Inv m ∧ m.slots.length = s.slots.length) → step m a = some n →
      (Inv n ∧ n.slots.length = s.slots.length) := by
    rintro m a n ⟨before, length⟩ stepped
    obtain ⟨after, grows⟩ := step_inv before stepped
    exact ⟨after, grows.size.trans length⟩
  exact (run_invariant _ kept ⟨inv, rfl⟩ executed).2

theorem run_expected {trace : List (Label L)} (inv : Inv s) (executed : run step s trace = some t) :
    t.recorded = s.recorded ++ s.expected trace := by
  induction trace generalizing s with
  | nil =>
    cases executed
    rw [expected_nil, List.append_nil]
  | cons a rest ih =>
    obtain ⟨m, first, later⟩ := run_cons_iff.mp executed
    rw [ih (step_inv inv first).1 later]
    exact (step_expected inv first later).symm

theorem run_stores {trace : List (Label L)} (inv : Inv s) (executed : run step s trace = some t) :
    t.counter = s.counter + total increments trace ∧ t.recorded = s.recorded ++ trace.filterMap headerStore := by
  induction trace generalizing s with
  | nil =>
    cases executed
    simp
  | cons a rest ih =>
    obtain ⟨m, first, later⟩ := run_cons_iff.mp executed
    obtain ⟨counted, stored⟩ := step_stores inv first
    obtain ⟨counter, recorded⟩ := ih (step_inv inv first).1 later
    constructor
    · simp only [counter, counted, total, List.map_cons, List.sum_cons, Nat.cast_add, add_assoc]
    · rw [recorded, stored]
      cases seen : headerStore a <;> simp [seen]

theorem step_observed {a : Label L} (stepped : step s a = some t) :
    (∀ n, observedHeader a = some n → n = s.header) ∧
    (∀ value, observedCounter a = some value → value = s.counter) := by
  cases a with
  | worker w b => simp [observedHeader, observedCounter]
  | reader r b =>
    rcases readerStep_cases stepped with ⟨value, rfl, same, _⟩ | ⟨n, rfl, same, _⟩ | ⟨n, rfl, same, _⟩ |
      ⟨_, _, _, rfl, _⟩ | ⟨rfl, _⟩ <;> simp_all [observedHeader, observedCounter]

/-- In every reachable state, whatever the workers call, however they and the
    readers are interleaved and whichever of them are killed: the counter is the
    number of increment stores; the header is within the file; the slots below it
    hold the latencies whose header store was executed, in lock order and in the
    order of the stores, each once; a reader that observed header `n` gets the first
    `n` of them and is never short of one; and observed values never decrease. -/
theorem shared_files_consistent (zero : L) (capacity : Nat) (trace : List (Label L)) (s : State L)
    (reached : run step (init zero capacity) trace = some s) :
    s.counter = total increments trace ∧
    (0 ≤ s.header ∧ s.header ≤ capacity) ∧
    (s.slots.take s.header.toNat = inLockOrder trace ∧ trace.filterMap headerStore = inLockOrder trace ∧
      s.header = (inLockOrder trace).length) ∧
    (∀ r n values, s.readers r = .reading n values →
      0 ≤ n ∧ n ≤ s.header ∧ values = (inLockOrder trace).take values.length ∧
      ((values.length : ℤ) < n → (readerStep s r .readSlot).isSome) ∧
      (n ≤ values.length → values = (inLockOrder trace).take n.toNat ∧ (values.length : ℤ) = n)) ∧
    (trace.filterMap observedHeader).Pairwise (· ≤ ·) ∧
    (trace.filterMap observedCounter).Pairwise (· ≤ ·) := by
  have start := init_inv zero capacity
  have inv := run_inv start reached
  have nonneg := inv.nonneg
  have within := inv.within
  obtain ⟨counter, stores⟩ := run_stores start reached
  have size : s.slots.length = capacity := by
    rw [run_size start reached]
    simp [init]
  have recorded : s.recorded = inLockOrder trace := by
    rw [run_expected start reached]
    simp [State.expected, State.pending, State.recorded, init]
  have length : (s.header : ℤ) = (inLockOrder trace).length := by
    rw [← recorded]
    exact inv.recorded_length.symm
  refine ⟨?_, ⟨nonneg, by omega⟩, ⟨recorded, ?_, length⟩, ?_, ?_, ?_⟩
  · rw [counter]
    exact zero_add _
  · rw [← recorded, stores]
    simp [State.recorded, init]
  · intro r n values phase
    have reading := inv.readers r
    rw [phase] at reading
    obtain ⟨observed, read, same⟩ := reading
    have short : values.length ≤ s.header.toNat := by omega
    have first : values = (inLockOrder trace).take values.length := by
      rw [← recorded, State.recorded, List.take_take, Nat.min_eq_left short]
      exact same
    refine ⟨by omega, observed, first, ?_, ?_⟩
    · intro more
      have inside : values.length < s.slots.length := by omega
      simp [readerStep, phase, more, inside]
    · intro complete
      have all : n.toNat = values.length := by omega
      rw [all]
      exact ⟨first, by omega⟩
  · refine (run_observed Inv State.header observedHeader (fun before stepped => ?_) start reached).1
    obtain ⟨after, grows⟩ := step_inv before stepped
    exact ⟨after, grows.header, (step_observed stepped).1⟩
  · refine (run_observed Inv State.counter observedCounter (fun before stepped => ?_) start reached).1
    obtain ⟨after, grows⟩ := step_inv before stepped
    exact ⟨after, grows.counter, (step_observed stepped).2⟩

/-- Worker 0 is killed between its slot store and its header store; worker 1 then
    takes the lock and records its latency in the same slot. -/
theorem shared_files_writer_killed : ∃ s, run step (init (0 : ℤ) 1)
      [.worker 0 (.openLatency 5), .worker 0 (.lockLatency 5), .worker 0 .loadHeader, .worker 0 .storeSlot,
        .worker 1 (.openLatency 7), .worker 0 .kill, .reader 0 (.beginRead 0), .worker 1 (.lockLatency 7),
        .worker 1 .loadHeader, .worker 1 .storeSlot, .worker 1 (.storeHeader 7), .worker 1 .unlockLatency] = some s ∧
    s.slots.take s.header.toNat = [7] := by
  have executed : ∃ s, run step (init (0 : ℤ) 1)
      [.worker 0 (.openLatency 5), .worker 0 (.lockLatency 5), .worker 0 .loadHeader, .worker 0 .storeSlot,
        .worker 1 (.openLatency 7), .worker 0 .kill, .reader 0 (.beginRead 0), .worker 1 (.lockLatency 7),
        .worker 1 .loadHeader, .worker 1 .storeSlot, .worker 1 (.storeHeader 7), .worker 1 .unlockLatency] = some s :=
    ⟨_, rfl⟩
  obtain ⟨s, reached⟩ := executed
  exact ⟨s, reached, (shared_files_consistent 0 1 _ s reached).2.2.1.1⟩

end

end RepidBench.SharedFiles
