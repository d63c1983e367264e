import RepidBench.Publishers
import RepidBench.RoundTrip
import RepidBench.ThreadedFailures

/-!
The progress lines of the publishing loops, as `_publish` reads them back: two
parsers, and what is kept for each publisher of the lines read so far. A running
burst is counted by its `Enqueued:` lines, and by its `Burst` line once it is over;
a `Reporting` proves of a loop that no line makes the count fall or exceed what has
been sent, and that all lines together make it the number of messages.
-/
namespace RepidBench.ProgressLines
open Transition Text Decimal Publishing RunnerOutput Publishers

/-! ## Reading a line -/

/-- `_parse_enqueued_count`. -/
def parseEnqueuedCount (line : List Char) : Option ℤ :=
  if "Enqueued:".toList <+: line then
    readInteger ((strip (line.drop "Enqueued:".toList.length)).takeWhile (· ≠ '/'))
  else none

/-- `_parse_burst_count`. -/
def parseBurstCount (line : List Char) : Option ℤ :=
  if "Burst ".toList <+: line then
    (afterFirst ": published ".toList line).bind (fun rest => readInteger (rest.takeWhile (· ≠ ' ')))
  else none

/-- The entries of `completed_bursts`, `current_burst_counts` and `progress` for one publisher. -/
structure Counts where
  completedBursts : ℤ
  currentBurstCount : ℤ
  progress : ℤ
  deriving DecidableEq, Repr

/-- The body of the loop of `_read_stdout`, for a publisher with `chunk` messages. -/
def readLine (chunk : Nat) (line : List Char) (counts : Counts) : Counts :=
  let count := parseEnqueuedCount line
  let burstCount := if count = none then parseBurstCount line else none
  if count = none ∧ burstCount = none then counts
  else
    let (completed, current) := match burstCount with
      | none => (counts.completedBursts, count.getD 0)
      | some burst => (counts.completedBursts + burst, 0)
    ⟨completed, current, min (completed + current) chunk⟩

theorem takeWhile_digits {stop : Char} (other : stop.isDigit = false) (n : Nat) (rest : List Char) :
    (Nat.toDigits 10 n ++ stop :: rest).takeWhile (· ≠ stop) = Nat.toDigits 10 n := by
  rw [List.takeWhile_append_of_pos]
  · simp
  · intro c member
    simp only [decide_eq_true_eq]
    rintro rfl
    exact toDigits_notMem other n member

theorem enqueued_text (count total : Nat) : (loopPrint (.enqueued count total)).text.toList =
    "Enqueued:".toList ++ ' ' :: (Nat.toDigits 10 count ++ '/' :: Nat.toDigits 10 total) := by
  simp [loopPrint, Print.text]

theorem burst_text (number count remaining : Nat) : (loopPrint (.burst number count remaining)).text.toList =
    "Burst ".toList ++ (Nat.toDigits 10 number ++ (": published ".toList ++ (Nat.toDigits 10 count ++
      ' ' :: ("messages (".toList ++ (Nat.toDigits 10 remaining ++ " remaining)".toList))))) := by
  simp [loopPrint, Print.text]

/-- A line of the progress of a call is read as the count it shows. -/
theorem parse_enqueued (count total : Nat) :
    parseEnqueuedCount (loopPrint (.enqueued count total)).text.toList = some (count : ℤ) := by
  have stripped : strip (' ' :: (Nat.toDigits 10 count ++ '/' :: Nat.toDigits 10 total)) =
      Nat.toDigits 10 count ++ '/' :: Nat.toDigits 10 total := by
    have blank : strip (' ' :: (Nat.toDigits 10 count ++ '/' :: Nat.toDigits 10 total)) =
        strip (Nat.toDigits 10 count ++ '/' :: Nat.toDigits 10 total) := by
      rw [strip, strip, List.dropWhile_cons_of_pos (by decide)]
    rw [blank]
    apply strip_eq
    · intro c head
      rw [List.head?_append_of_ne_nil _ Nat.toDigits_ne_nil] at head
      exact isSpace_ascii (toDigits_isDigit (List.mem_of_head? head))
    · intro c last
      rw [List.getLast?_append_of_ne_nil _ (List.cons_ne_nil _ _), List.getLast?_cons_of_ne_nil Nat.toDigits_ne_nil]
        at last
      exact isSpace_ascii (toDigits_isDigit (List.mem_of_getLast? last))
  rw [enqueued_text, parseEnqueuedCount, if_pos (List.prefix_append _ _), List.drop_left, stripped,
    takeWhile_digits (by decide), readInteger_toDigits]

/-- The line of a burst is no line of the progress of a call, and is read as the
    number of messages of the burst. -/
theorem parse_burst (number count remaining : Nat) :
    parseEnqueuedCount (loopPrint (.burst number count remaining)).text.toList = none ∧
    parseBurstCount (loopPrint (.burst number count remaining)).text.toList = some (count : ℤ) := by
  rw [burst_text]
  constructor
  · rw [parseEnqueuedCount, if_neg]
    rintro ⟨tail, same⟩
    simp at same
  · rw [parseBurstCount, if_pos (List.prefix_append _ _), ← List.append_assoc]
    have apart : ':' ∉ "Burst ".toList ++ Nat.toDigits 10 number := by
      rw [List.mem_append, not_or]
      exact ⟨by decide, toDigits_notMem (by decide) number⟩
    have found := afterFirst_append apart " published ".toList (Nat.toDigits 10 count ++
      ' ' :: ("messages (".toList ++ (Nat.toDigits 10 remaining ++ " remaining)".toList)))
    have marker : ": published ".toList = ':' :: " published ".toList := by decide
    rw [marker, found, Option.bind_some, takeWhile_digits (by decide), readInteger_toDigits]

/-! ## What has been read of a publisher -/

/-- The bursts read to their end, and the progress read since then. -/
structure Tally where
  completed : Nat
  current : Nat
  deriving DecidableEq, Repr

namespace Tally

def zero : Tally := ⟨0, 0⟩

/-- The messages that the lines read so far say are sent. -/
def value (tally : Tally) : Nat := tally.completed + tally.current

def read (tally : Tally) : Printed → Tally
  | .enqueued count _ => { tally with current := count }
  | .burst _ count _ => ⟨tally.completed + count, 0⟩

def readAll (tally : Tally) (lines : List Printed) : Tally := lines.foldl read tally

@[simp] theorem readAll_nil (tally : Tally) : tally.readAll [] = tally := rfl
@[simp] theorem readAll_cons (tally : Tally) (line : Printed) (rest : List Printed) :
    tally.readAll (line :: rest) = (tally.read line).readAll rest := rfl
theorem readAll_append (tally : Tally) (lines more : List Printed) :
    tally.readAll (lines ++ more) = (tally.readAll lines).readAll more := List.foldl_append ..

/-- No line read makes the value fall, or lifts it above `limit`. -/
def Rises (limit : Nat) : Tally → List Printed → Prop
  | _, [] => True
  | tally, line :: rest =>
    tally.value ≤ (tally.read line).value ∧ (tally.read line).value ≤ limit ∧ Rises limit (tally.read line) rest

theorem rises_single {limit : Nat} {tally : Tally} {line : Printed} (grows : tally.value ≤ (tally.read line).value)
    (bounded : (tally.read line).value ≤ limit) : Rises limit tally [line] := ⟨grows, bounded, trivial⟩

/-- The lines of a call that has sent nothing, after a burst or at the beginning. -/
theorem rises_zero {limit : Nat} {tally : Tally} {lines : List Printed} (between : tally.current = 0)
    (bounded : tally.value ≤ limit) (nothing : ∀ line ∈ lines, ∃ total, line = .enqueued 0 total) :
    Rises limit tally lines ∧ tally.readAll lines = tally := by
  induction lines with
  | nil => exact ⟨trivial, rfl⟩
  | cons line rest ih =>
    obtain ⟨total, rfl⟩ := nothing line List.mem_cons_self
    have same : tally.read (.enqueued 0 total) = tally := by
      rw [read, ← between]
    obtain ⟨rises, stays⟩ := ih (fun other member => nothing other (List.mem_cons_of_mem _ member))
    rw [Rises, readAll_cons, same]
    exact ⟨⟨le_rfl, bounded, rises⟩, stays⟩

/-- A call that starts has shown nothing. -/
theorem zero_rises {lines : List Printed} (nothing : ∀ line ∈ lines, ∃ total, line = .enqueued 0 total) :
    Rises 0 zero lines ∧ zero.readAll lines = zero := rises_zero rfl le_rfl nothing

end Tally

/-- The entries of a publisher whose lines up to `tally` have been read. -/
structure Counts.Shows (counts : Counts) (tally : Tally) : Prop where
  completed : counts.completedBursts = tally.completed
  current : counts.currentBurstCount = tally.current
  progress : counts.progress = tally.value

/-- The next line is read as it was meant, while the value is within the chunk. -/
theorem Counts.Shows.read {counts : Counts} {tally : Tally} (shows : counts.Shows tally) {chunk : Nat}
    (line : Printed) (bounded : (tally.read line).value ≤ chunk) :
    (readLine chunk (loopPrint line).text.toList counts).Shows (tally.read line) := by
  obtain ⟨completed, _, _⟩ := shows
  cases line with
  | enqueued count total =>
    have capped : tally.completed + count ≤ chunk := bounded
    simp only [readLine, parse_enqueued, reduceCtorEq, ↓reduceIte, and_true, Option.getD_some, completed]
    refine ⟨rfl, rfl, ?_⟩
    show min ((tally.completed : ℤ) + count) chunk = ((tally.completed + count : Nat) : ℤ)
    omega
  | burst number count remaining =>
    have capped : tally.completed + count + 0 ≤ chunk := bounded
    obtain ⟨other, own⟩ := parse_burst number count remaining
    simp only [readLine, other, own, reduceCtorEq, ↓reduceIte, and_false, completed]
    refine ⟨?_, rfl, ?_⟩
    · show (tally.completed : ℤ) + count = ((tally.completed + count : Nat) : ℤ)
      omega
    · show min ((tally.completed : ℤ) + count + 0) chunk = ((tally.completed + count + 0 : Nat) : ℤ)
      omega

/-! ## What a call prints -/

section
variable {σ α : Type}

/-- The lines printed since a call had printed `before`. -/
def newLines (before after : List Printed) : List Printed := after.drop before.length

theorem newLines_append (before lines : List Printed) : newLines before (before ++ lines) = lines :=
  List.drop_left

/-- A certificate for a single call, which prints progress only: `Inv` is about the count
    shown last and the number of sends that have returned. -/
structure Counting (m : Machine σ α Outcome) (printed : σ → List Printed) (allowed : α → Prop) (returns : α → Nat)
    (n : Nat) where
  Inv : Nat → Nat → σ → Prop
  started : ∀ line ∈ printed m.init, ∃ total, line = .enqueued 0 total
  init_inv : Inv 0 0 m.init
  step_inv : ∀ {shown returned s a t}, Inv shown returned s → allowed a → m.step s a = some t →
    (printed t = printed s ∧ Inv shown (returned + returns a) t) ∨
    ∃ count total, printed t = printed s ++ [.enqueued count total] ∧ shown ≤ count ∧
      Inv count (returned + returns a) t
  bounded : ∀ {shown returned s}, Inv shown returned s → shown ≤ returned ∧ returned ≤ n
  ended : ∀ {shown returned s outcome}, Inv shown returned s → m.result s = some outcome →
    outcome = .returned ∧ shown = n

/-- A certificate for any publishing loop, over what has been read of its lines and the
    number of sends that have returned. -/
structure Reporting (m : Machine σ α Outcome) (start : List Printed) (emitted : σ → α → σ → List Printed)
    (allowed : α → Prop) (returns : α → Nat) (n : Nat) where
  Inv : Tally → Nat → σ → Prop
  started : Tally.Rises 0 .zero start
  init_inv : Inv (Tally.zero.readAll start) 0 m.init
  step_inv : ∀ {tally returned s a t}, Inv tally returned s → allowed a → m.step s a = some t →
    tally.Rises (returned + returns a) (emitted s a t) ∧
      Inv (tally.readAll (emitted s a t)) (returned + returns a) t
  bounded : ∀ {tally returned s}, Inv tally returned s → tally.value ≤ returned ∧ returned ≤ n
  ended : ∀ {tally returned s outcome}, Inv tally returned s → m.result s = some outcome →
    outcome = .returned ∧ tally.value = n

section
variable {m : Machine σ α Outcome} {printed : σ → List Printed} {allowed : α → Prop} {returns : α → Nat} {n : Nat}

/-- What a single call prints is read as its progress. -/
theorem Counting.rises (counting : Counting m printed allowed returns n) {tally : Tally} {limit returned back : Nat}
    {s t : σ} {a : α} (inv : counting.Inv tally.current returned s) (ok : allowed a) (stepped : m.step s a = some t)
    (paid : limit = tally.completed + back) (back_eq : back = returned + returns a) :
    ∃ next, tally.readAll (newLines (printed s) (printed t)) = ⟨tally.completed, next⟩ ∧
      tally.Rises limit (newLines (printed s) (printed t)) ∧ counting.Inv next back t := by
  subst back_eq
  rcases counting.step_inv inv ok stepped with ⟨same, kept⟩ | ⟨count, total, same, grows, kept⟩
  · rw [same, newLines, List.drop_length]
    exact ⟨tally.current, rfl, trivial, kept⟩
  · rw [same, newLines_append]
    refine ⟨count, rfl, Tally.rises_single ?_ ?_, kept⟩
    · exact Nat.add_le_add_left grows tally.completed
    · have below := (counting.bounded kept).1
      show tally.completed + count ≤ limit
      omega

/-- A single call reports its progress. -/
def Counting.reporting (counting : Counting m printed allowed returns n) :
    Reporting m (printed m.init) (fun s _ t => newLines (printed s) (printed t)) allowed returns n where
  Inv tally returned s := tally.completed = 0 ∧ counting.Inv tally.current returned s
  started := (Tally.zero_rises counting.started).1
  init_inv := by
    rw [(Tally.zero_rises counting.started).2]
    exact ⟨rfl, counting.init_inv⟩
  step_inv := by
    rintro tally returned s a t ⟨single, inv⟩ ok stepped
    obtain ⟨next, read, rises, kept⟩ := counting.rises inv ok stepped (by rw [single, Nat.zero_add]) rfl
    refine ⟨rises, ?_⟩
    rw [read]
    exact ⟨single, kept⟩
  bounded := by
    rintro tally returned s ⟨single, inv⟩
    rw [Tally.value, single, Nat.zero_add]
    exact counting.bounded inv
  ended := by
    rintro tally returned s outcome ⟨single, inv⟩ result
    rw [Tally.value, single, Nat.zero_add]
    exact counting.ended inv result

end

/-! ## One burst after another -/

section
variable (printed : σ → List Printed)

/-- What the call for the current burst has printed. -/
def callLines (s : BurstState σ) : List Printed :=
  match s.phase with
  | .publishing _ inner => printed inner
  | _ => []

/-- What a step of the burst loop prints: the lines of the call that makes it, or the
    loop's own line, or what the next call prints as it starts. -/
def burstEmitted (s : BurstState σ) : BurstLabel α → BurstState σ → List Printed
  | .publish _, t => newLines (callLines printed s) (callLines printed t)
  | .published, t => newLines s.printed t.printed
  | .wake, t => callLines printed t

end

section
variable {call : Nat → Machine σ α Outcome} {printed : σ → List Printed} {allowed : α → Prop} {returns : α → Nat}
  (counting : ∀ count, Counting (call count) printed allowed returns count) {messages burstSize : Nat}

/-- The bursts that are over are read as completed, and of the current one its progress. -/
def BurstRead (messages : Nat) (tally : Tally) (returned : Nat) (s : BurstState σ) : Prop :=
  tally.completed + s.remaining = messages ∧
  match s.phase with
  | .publishing count inner => count ≤ s.remaining ∧
      ∃ back, returned = tally.completed + back ∧ (counting count).Inv tally.current back inner
  | .sleeping => tally.current = 0 ∧ returned = tally.completed
  | .ended outcome => outcome = .returned ∧ s.remaining = 0 ∧ tally.current = 0 ∧ returned = tally.completed

/-- A call that starts has sent and shown nothing. -/
theorem burstHead_read (positive : 1 ≤ burstSize) (tally : Tally) {remaining : Nat} (number : Nat)
    (own : List Printed) (split : tally.completed + remaining = messages) (between : tally.current = 0) :
    let s : BurstState σ := ⟨remaining, number, burstHead call burstSize remaining, own⟩
    tally.Rises tally.completed (callLines printed s) ∧ tally.readAll (callLines printed s) = tally ∧
      BurstRead counting messages tally tally.completed s := by
  have bounded : tally.value ≤ tally.completed := by
    rw [Tally.value, between, Nat.add_zero]
  rcases burstHead_cases call positive remaining with ⟨nothing, head⟩ | ⟨count, low, high, head⟩
  · simp only [callLines, BurstRead, head]
    exact ⟨trivial, rfl, split, trivial, nothing, between, trivial⟩
  · simp only [callLines, BurstRead, head]
    obtain ⟨rises, stays⟩ := Tally.rises_zero between bounded (counting count).started
    refine ⟨rises, stays, split, high, 0, rfl, ?_⟩
    rw [between]
    exact (counting count).init_inv

/-- A step of the loop: a call counts up within its burst, and its burst is then read
    as completed without being counted twice. -/
theorem burstStep_read (positive : 1 ≤ burstSize) {tally : Tally} {returned : Nat} {s t : BurstState σ}
    {a : BurstLabel α} (inv : BurstRead counting messages tally returned s) (ok : a.Allowed allowed)
    (stepped : burstStep call burstSize s a = some t) :
    tally.Rises (returned + a.weight returns) (burstEmitted printed s a t) ∧
      BurstRead counting messages (tally.readAll (burstEmitted printed s a t)) (returned + a.weight returns) t := by
  obtain ⟨split, at_⟩ := inv
  rcases burstStep_cases stepped with ⟨b, count, inner, next, rfl, phase, executed, rfl⟩ |
    ⟨count, inner, rfl, phase, result, rfl⟩ | ⟨count, inner, error, rfl, phase, failed, result, rfl⟩ |
    ⟨rfl, phase, rfl⟩
  · simp only [phase] at at_
    obtain ⟨high, back, rfl, inside⟩ := at_
    have whole : tally.completed + back + returns b = tally.completed + (back + returns b) := Nat.add_assoc _ _ _
    obtain ⟨shown, read, rises, kept⟩ := (counting count).rises inside ok executed whole rfl
    simp only [burstEmitted, callLines, phase, BurstLabel.weight]
    refine ⟨rises, ?_⟩
    rw [read, whole]
    exact ⟨split, high, back + returns b, rfl, kept⟩
  · simp only [phase] at at_
    obtain ⟨high, back, rfl, inside⟩ := at_
    obtain ⟨_, shown⟩ := (counting count).ended inside result
    obtain ⟨low, most⟩ := (counting count).bounded inside
    have all : back = count := by omega
    simp only [burstEmitted, newLines_append, BurstLabel.weight, Tally.readAll_cons, Tally.readAll_nil, Tally.read]
    refine ⟨Tally.rises_single ?_ ?_, ?_⟩
    · simp only [Tally.value, Tally.read]
      omega
    · simp only [Tally.value, Tally.read]
      omega
    · have rest : tally.completed + count + (s.remaining - count) = messages := by omega
      refine ⟨rest, ?_⟩
      by_cases more : 0 < s.remaining - count
      · simp only [more, ↓reduceIte, true_and]
        omega
      · simp only [more, ↓reduceIte, true_and]
        omega
  · simp only [phase] at at_
    obtain ⟨_, back, _, inside⟩ := at_
    exact absurd ((counting count).ended inside result).1 failed
  · simp only [phase] at at_
    obtain ⟨between, rfl⟩ := at_
    obtain ⟨rises, stays, kept⟩ := burstHead_read counting positive tally s.burstNum s.printed split between
    simp only [burstEmitted, BurstLabel.weight, Nat.add_zero]
    refine ⟨rises, ?_⟩
    rw [stays]
    exact kept

theorem burstStart_read (positive : 1 ≤ burstSize) :
    BurstRead counting messages
      (Tally.zero.readAll (callLines printed (Publishing.bursts call messages burstSize).init)) 0
      (Publishing.bursts call messages burstSize).init := by
  obtain ⟨_, stays, kept⟩ := burstHead_read counting positive .zero 0 [] (Nat.zero_add messages) rfl
  show BurstRead counting messages
    (Tally.zero.readAll (callLines printed ⟨messages, 0, burstHead call burstSize messages, []⟩)) 0 _
  rw [stays]
  exact kept

theorem burstRead_bounded {tally : Tally} {returned : Nat} {s : BurstState σ}
    (inv : BurstRead counting messages tally returned s) : tally.value ≤ returned ∧ returned ≤ messages := by
  obtain ⟨split, at_⟩ := inv
  rw [Tally.value]
  cases phase : s.phase with
  | publishing count inner =>
    simp only [phase] at at_
    obtain ⟨high, back, rfl, inside⟩ := at_
    obtain ⟨low, most⟩ := (counting count).bounded inside
    omega
  | sleeping =>
    simp only [phase] at at_
    omega
  | ended outcome =>
    simp only [phase] at at_
    omega

theorem burstRead_ended {tally : Tally} {returned : Nat} {s : BurstState σ} {outcome : Outcome}
    (inv : BurstRead counting messages tally returned s)
    (result : (Publishing.bursts call messages burstSize).result s = some outcome) :
    outcome = .returned ∧ tally.value = messages := by
  obtain ⟨split, at_⟩ := inv
  cases phase : s.phase with
  | publishing count inner => simp [Publishing.bursts, phase] at result
  | sleeping => simp [Publishing.bursts, phase] at result
  | ended last =>
    simp only [Publishing.bursts, phase, Option.some.injEq] at result
    simp only [phase] at at_
    refine ⟨result ▸ at_.1, ?_⟩
    rw [Tally.value]
    omega

/-- Publishing in bursts reports its progress, when each call does. -/
def Counting.bursts (positive : 1 ≤ burstSize) :
    Reporting (Publishing.bursts call messages burstSize)
      (callLines printed (Publishing.bursts call messages burstSize).init) (burstEmitted printed)
      (BurstLabel.Allowed allowed) (BurstLabel.weight returns) messages where
  Inv := BurstRead counting messages
  started := (burstHead_read counting positive .zero 0 [] (Nat.zero_add messages) rfl).1
  init_inv := burstStart_read counting positive
  step_inv := burstStep_read counting positive
  bounded := burstRead_bounded counting
  ended := burstRead_ended counting

end

end

/-! ## The four loops -/

/-- What a step of `publish_async` prints while no send fails: nothing, the number of
    sends that have returned, or all messages at the end. -/
theorem async_printed {messages : Nat} {s t : AsyncPublish.State} {a : AsyncPublish.Label}
    (clean : AsyncPublish.Clean a) (notRaised : s.workers.countP AsyncPublish.Coroutine.isRaised = 0)
    (stepped : AsyncPublish.step messages s a = some t) :
    (t.printed = s.printed ∧ t.done = s.done + AsyncPublish.returns a ∧ t.outcome = s.outcome) ∨
    (∃ i : Nat, s.workers[i]? = some AsyncPublish.Coroutine.sending ∧ t.printed = s.printed ++ [.enqueued t.done messages] ∧
      t.done = s.done + AsyncPublish.returns a ∧ t.outcome = s.outcome) ∨
    (AsyncPublish.returns a = 0 ∧ s.outcome = none ∧ t.printed = s.printed ++ [.enqueued messages messages] ∧
      t.done = s.done ∧ t.outcome = some .returned) := by
  cases a with
  | send i =>
    simp only [AsyncPublish.step, Option.ite_none_right_eq_some, Option.some.injEq] at stepped
    obtain ⟨_, rfl⟩ := stepped
    exact .inl ⟨rfl, rfl, rfl⟩
  | leave i =>
    simp only [AsyncPublish.step, Option.ite_none_right_eq_some, Option.some.injEq] at stepped
    obtain ⟨_, rfl⟩ := stepped
    exact .inl ⟨rfl, rfl, rfl⟩
  | sent i =>
    simp only [AsyncPublish.step, Option.ite_none_right_eq_some, Option.some.injEq] at stepped
    obtain ⟨found, rfl⟩ := stepped
    by_cases shown : (s.done + 1) % 2000 = 0
    · exact .inr (.inl ⟨i, found, if_pos shown, rfl, rfl⟩)
    · exact .inl ⟨if_neg shown, rfl, rfl⟩
  | failed i error => exact False.elim clean
  | cancelled i => exact False.elim clean
  | gathered =>
    simp only [AsyncPublish.step, Option.ite_none_right_eq_some, Option.some.injEq] at stepped
    obtain ⟨⟨_, running⟩, rfl⟩ := stepped
    have none := (AsyncPublish.errors_nil_iff s.workers).mpr notRaised
    refine .inr (.inr ⟨rfl, running, ?_⟩)
    rw [AsyncPublish.finish, none]
    exact ⟨rfl, rfl, rfl⟩

/-- A pool of coroutines shows how many of its sends have returned. -/
def asyncCounting {concurrency : Nat} (pool : 1 ≤ concurrency) (messages : Nat) :
    Counting (AsyncPublish.publishAsync messages concurrency) AsyncPublish.State.printed AsyncPublish.Clean
      AsyncPublish.returns messages where
  Inv shown returned s := (AsyncPublish.account messages concurrency pool).Inv s ∧ returned = s.done ∧
    shown ≤ s.done ∧ (s.outcome.isSome → shown = messages)
  started := by
    show ∀ line ∈ (AsyncPublish.init messages concurrency).printed, _
    unfold AsyncPublish.init
    split_ifs with none nothing
    · simp
    · obtain rfl : messages = 0 := by omega
      simp
    · simp
  init_inv := by
    refine ⟨(AsyncPublish.account messages concurrency pool).init_inv, ?_⟩
    show 0 = (AsyncPublish.init messages concurrency).done ∧ 0 ≤ (AsyncPublish.init messages concurrency).done ∧
      ((AsyncPublish.init messages concurrency).outcome.isSome → 0 = messages)
    unfold AsyncPublish.init
    split_ifs with none nothing
    · omega
    · exact ⟨rfl, le_rfl, fun _ => by omega⟩
    · exact ⟨rfl, le_rfl, by simp⟩
  step_inv := by
    rintro shown returned s a t ⟨⟨inv, notRaised, notCancelled⟩, rfl, below, all⟩ clean stepped
    have kept := (AsyncPublish.account messages concurrency pool).step_inv ⟨inv, notRaised, notCancelled⟩ clean stepped
    rcases async_printed clean notRaised stepped with ⟨same, done, outcome⟩ | ⟨i, found, same, done, outcome⟩ |
      ⟨nothing, _, same, done, outcome⟩
    · refine .inl ⟨same, kept, done.symm, by omega, ?_⟩
      rw [outcome]
      exact all
    · refine .inr ⟨t.done, messages, same, by omega, kept, done.symm, le_rfl, ?_⟩
      rw [outcome, inv.running found rfl]
      simp
    · have complete := (AsyncPublish.outcome_complete pool kept.1 kept.2.2 kept.2.1 outcome).2.2
      refine .inr ⟨messages, messages, same, by omega, kept, by omega, complete.ge, fun _ => rfl⟩
  bounded := by
    rintro shown returned s ⟨⟨inv, _⟩, rfl, below, _⟩
    have balance := inv.balance
    have bounded := inv.bounded
    omega
  ended := by
    rintro shown returned s outcome ⟨⟨inv, notRaised, notCancelled⟩, _, _, all⟩ present
    have there : s.outcome = some outcome := present
    exact ⟨(AsyncPublish.outcome_complete pool inv notCancelled notRaised there).1, all (by rw [there]; rfl)⟩

/-- A pool of threads shows what has been added to its progress. -/
def threadedCounting {workers : Nat} (pool : 1 ≤ workers) (batchSize messages : Nat) :
    Counting (ThreadedPublish.threads messages workers (ThreadedPublish.chunkStep batchSize))
      ThreadedPublish.State.printed ThreadedPublish.Clean ThreadedFailures.returns messages where
  Inv shown returned s := ∃ past, ThreadedFailures.Tallied messages workers batchSize past s ∧
    (∀ i, ¬ ThreadedFailures.Failed i past) ∧ returned = total ThreadedFailures.returns past ∧
    shown ≤ s.done ∧ (s.outcome.isSome → shown = messages)
  started := by simp [ThreadedPublish.threads]
  init_inv := by
    refine ⟨[], ThreadedFailures.init_tallied messages workers batchSize, ?_, rfl, le_rfl, ?_⟩
    · rintro i ⟨error, member⟩
      cases member
    · simp [ThreadedPublish.threads]
  step_inv := by
    rintro shown returned s a t ⟨past, tallied, unfailed, rfl, below, all⟩ clean stepped
    obtain ⟨kept, grows, _, _⟩ := ThreadedFailures.step_tallied tallied stepped
    have still : ∀ i, ¬ ThreadedFailures.Failed i (past ++ [a]) := by
      rintro i ⟨error, member⟩
      rcases List.mem_append.mp member with earlier | now
      · exact unfailed i ⟨error, earlier⟩
      · cases List.mem_singleton.mp now
        exact clean
    have paid : total ThreadedFailures.returns past + ThreadedFailures.returns a =
        total ThreadedFailures.returns (past ++ [a]) := by
      rw [total_append, total_single]
    rcases ThreadedPublish.step_cases stepped with ⟨i, b, th, next, added, rfl, found, executed, rfl⟩ | ⟨rfl, rfl⟩ |
      ⟨rfl, ended, running, rfl⟩
    · exact .inl ⟨rfl, past ++ [.thread i b], kept, still, paid, below.trans grows, all⟩
    · refine .inr ⟨s.done, messages, rfl, below, past ++ [.poll], kept, still, paid, le_rfl, ?_⟩
      intro present
      obtain ⟨outcome, there⟩ := Option.isSome_iff_exists.mp present
      exact (kept.all_sent pool there still).2
    · have ends : ThreadedPublish.finish messages s =
          { s with printed := s.printed ++ [.enqueued messages messages], outcome := some .returned } := by
        rw [ThreadedPublish.finish, tallied.noErrors unfailed]
      rw [ends] at kept ⊢
      have sent := (kept.all_sent pool rfl still).2
      refine .inr ⟨messages, messages, rfl, ?_, past ++ [.joined], kept, still, paid, sent.ge, fun _ => rfl⟩
      exact below.trans sent.le
  bounded := by
    rintro shown returned s ⟨past, tallied, _, rfl, below, _⟩
    exact ⟨below.trans tallied.done_le, tallied.returned_le pool⟩
  ended := by
    rintro shown returned s outcome ⟨past, tallied, unfailed, _, _, all⟩ present
    have there : s.outcome = some outcome := present
    refine ⟨?_, all (by rw [there]; rfl)⟩
    rw [(tallied.outcome outcome there).2, outcomeOf_returned_iff]
    exact tallied.noErrors unfailed

/-- How often a label lets a send return. -/
def returns : (path : Path) → path.Label → Nat
  | .async => AsyncPublish.returns
  | .asyncBursts => BurstLabel.weight AsyncPublish.returns
  | .threadedChunks => ThreadedFailures.returns
  | .threadedBursts => BurstLabel.weight ThreadedFailures.returns

/-- What a publisher prints before its first step. -/
def startLines : (path : Path) → path.State → List Printed
  | .async => AsyncPublish.State.printed
  | .asyncBursts => callLines AsyncPublish.State.printed
  | .threadedChunks => ThreadedPublish.State.printed
  | .threadedBursts => callLines ThreadedPublish.State.printed

/-- What a step of a publisher prints. -/
def emitted : (path : Path) → path.State → path.Label → path.State → List Printed
  | .async => fun s _ t => newLines (AsyncPublish.State.printed s) (AsyncPublish.State.printed t)
  | .asyncBursts => burstEmitted AsyncPublish.State.printed
  | .threadedChunks => fun s _ t => newLines (ThreadedPublish.State.printed s) (ThreadedPublish.State.printed t)
  | .threadedBursts => burstEmitted ThreadedPublish.State.printed

/-- Every publisher reports the messages of its configuration, on every path. -/
def adapterReporting {cfg : Runtime.BenchmarkConfig} (valid : Valid cfg) : (path : Path) →
    Reporting (adapterPublish cfg path) (startLines path (adapterPublish cfg path).init) (emitted path) path.Clean
      (returns path) cfg.messages
  | .async => (asyncCounting valid.concurrency cfg.messages).reporting
  | .asyncBursts => Counting.bursts (asyncCounting valid.concurrency) valid.burst
  | .threadedChunks => by
    have same : adapterPublish cfg .threadedChunks =
        ThreadedPublish.threads cfg.messages cfg.publishWorkers (ThreadedPublish.chunkStep cfg.enqueueBatchSize) := by
      show ThreadedPublish.threads cfg.messages cfg.publishWorkers (adapterChunk cfg) = _
      rw [adapterChunk_eq]
    rw [same]
    exact (threadedCounting valid.workers cfg.enqueueBatchSize cfg.messages).reporting
  | .threadedBursts => Counting.bursts (threadedCounting valid.workers cfg.enqueueBatchSize) valid.burst

end RepidBench.ProgressLines
