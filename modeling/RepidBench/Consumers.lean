import RepidBench.ConfigFile
import RepidBench.Polling

/-!
The queue as the management API describes it, and the wait for its consumers. The loop
of `wait_for_consumers` ends after a bounded number of requests; it returns only when
it has seen the consumers, and does not give up when they were there for as long as
one round takes.
-/
namespace RepidBench.Consumers
open ConfigFile JsonText RepidBench.Runtime

/-! ## Requests -/

/-- What a `GET` of the queue gives: a body, the code of an `HTTPError`, or another
    exception. -/
inductive Response
  | body (text : List Char)
  | httpError (code : Nat)
  | failed
  deriving DecidableEq, Repr

/-- `int(data.get(key, default))`; `none` is its exception. -/
def getInt (data : Value) (key : String) (default : ℤ) : Option ℤ :=
  match data with
  | .object entries => (entries.lookup key).elim (some default) intOf
  | _ => none

/-- `queue_consumer_count`: a queue that is not there has no consumers. -/
def queueConsumerCount : Response → Option ℤ
  | .body raw => (loads raw).bind (fun data => getInt data "consumers" 0)
  | .httpError code => if code = 404 then some 0 else none
  | .failed => none

structure Metrics where
  ready : ℤ
  unacknowledged : ℤ
  total : ℤ
  consumers : ℤ
  deriving DecidableEq, Repr

/-- `queue_metrics`. -/
def queueMetrics : Response → Option Metrics
  | .body raw => do
    let data ← loads raw
    let ready ← getInt data "messages_ready" 0
    let unacknowledged ← getInt data "messages_unacknowledged" 0
    let total ← getInt data "messages" (ready + unacknowledged)
    let consumers ← getInt data "consumers" 0
    return ⟨ready, unacknowledged, total, consumers⟩
  | .httpError code => if code = 404 then some ⟨0, 0, 0, 0⟩ else none
  | .failed => none

/-- The two readers of the queue agree on its consumers. -/
theorem queueMetrics_consumers {response : Response} {metrics : Metrics} (read : queueMetrics response = some metrics) :
    queueConsumerCount response = some metrics.consumers := by
  cases response with
  | body raw =>
    obtain ⟨data, loaded, read⟩ := Option.bind_eq_some_iff.mp read
    obtain ⟨ready, _, read⟩ := Option.bind_eq_some_iff.mp read
    obtain ⟨unacknowledged, _, read⟩ := Option.bind_eq_some_iff.mp read
    obtain ⟨total, _, read⟩ := Option.bind_eq_some_iff.mp read
    obtain ⟨consumers, found, read⟩ := Option.bind_eq_some_iff.mp read
    cases read
    exact Option.bind_eq_some_iff.mpr ⟨data, loaded, found⟩
  | httpError code =>
    obtain ⟨missing, read⟩ := Option.ite_none_right_eq_some.mp read
    cases read
    exact if_pos missing
  | failed => cases read

/-- The counts of a queue that its description has. -/
theorem queueMetrics_body {layout : Layout} {str : ℚ → String} {entries : List (String × Value)}
    (readable : Readable str (.object entries)) {ready unacknowledged total consumers : ℤ}
    (first : entries.lookup "messages_ready" = some (.int ready))
    (second : entries.lookup "messages_unacknowledged" = some (.int unacknowledged))
    (third : entries.lookup "messages" = some (.int total)) (fourth : entries.lookup "consumers" = some (.int consumers)) :
    queueMetrics (.body (dumps layout str (.object entries))) = some ⟨ready, unacknowledged, total, consumers⟩ := by
  simp only [queueMetrics, loads_dumps readable, getInt, first, second, third, fourth, Option.elim_some, intOf,
    Option.bind_eq_bind, Option.bind_some, Option.pure_def]

/-! ## Waiting -/

/-- `_consumer_target`. -/
def consumerTarget (cfg : BenchmarkConfig) : Nat :=
  if cfg.framework ∈ [.celery, .dramatiq] ∧ ¬ cfg.greenThreads then 1 else cfg.processes

/-- A round of the loop: what the clock says at its head, and what the request gives,
    which the broker answers at another instant. -/
structure Look where
  now : ℚ
  answered : ℚ
  response : Response
  deriving DecidableEq, Repr

inductive Waited
  | returned | timeoutError | raised
  deriving DecidableEq, Repr

/-- The loop of `wait_for_consumers`, round by round; `none` is that there are too few. -/
def waitUntil (deadline : ℚ) (minimum : ℤ) : List Look → Option Waited
  | [] => none
  | look :: looks =>
    if look.now < deadline then
      match queueConsumerCount look.response with
      | none => some .raised
      | some count => if minimum ≤ count then some .returned else waitUntil deadline minimum looks
    else some .timeoutError

/-- `wait_for_consumers` that is called at `start`. -/
def waitForConsumers (start : ℚ) (minimum : ℤ) (timeout : ℚ) (looks : List Look) : Option Waited :=
  waitUntil (start + timeout) minimum looks

/-- A round after which the loop goes on. -/
def GoesOn (deadline : ℚ) (minimum : ℤ) (look : Look) : Prop :=
  look.now < deadline ∧ ∃ count, queueConsumerCount look.response = some count ∧ count < minimum

/-- A round that ends the loop. -/
inductive Ends (deadline : ℚ) (minimum : ℤ) (look : Look) : Waited → Prop
  | returned (count : ℤ) (inTime : look.now < deadline) (read : queueConsumerCount look.response = some count)
      (enough : minimum ≤ count) : Ends deadline minimum look .returned
  | timeoutError (late : deadline ≤ look.now) : Ends deadline minimum look .timeoutError
  | raised (inTime : look.now < deadline) (failed : queueConsumerCount look.response = none) :
      Ends deadline minimum look .raised

theorem Ends.late {deadline : ℚ} {minimum : ℤ} {look : Look} (ended : Ends deadline minimum look .timeoutError) :
    deadline ≤ look.now := by
  cases ended
  assumption

section
variable {deadline : ℚ} {minimum : ℤ}

theorem goesOn_or_ends (look : Look) : GoesOn deadline minimum look ∨ ∃ waited, Ends deadline minimum look waited := by
  by_cases inTime : look.now < deadline
  · cases read : queueConsumerCount look.response with
    | none => exact .inr ⟨_, .raised inTime read⟩
    | some count =>
      by_cases enough : minimum ≤ count
      · exact .inr ⟨_, .returned count inTime read enough⟩
      · exact .inl ⟨inTime, count, read, not_le.mp enough⟩
  · exact .inr ⟨_, .timeoutError (not_lt.mp inTime)⟩

theorem waitUntil_goesOn {look : Look} (on : GoesOn deadline minimum look) (looks : List Look) :
    waitUntil deadline minimum (look :: looks) = waitUntil deadline minimum looks := by
  obtain ⟨inTime, count, read, few⟩ := on
  rw [waitUntil, if_pos inTime, read]
  exact if_neg (not_le.mpr few)

theorem waitUntil_ends {look : Look} {waited : Waited} (ended : Ends deadline minimum look waited) (looks : List Look) :
    waitUntil deadline minimum (look :: looks) = some waited := by
  cases ended with
  | returned count inTime read enough =>
    rw [waitUntil, if_pos inTime, read]
    exact if_pos enough
  | timeoutError late => rw [waitUntil, if_neg (not_lt.mpr late)]
  | raised inTime failed => rw [waitUntil, if_pos inTime, failed]

/-- The loop is ended by its first round that can end it. -/
theorem waitUntil_eq_some {looks : List Look} {waited : Waited}
    (decided : waitUntil deadline minimum looks = some waited) :
    ∃ before look after, looks = before ++ look :: after ∧ (∀ other ∈ before, GoesOn deadline minimum other) ∧
      Ends deadline minimum look waited := by
  induction looks with
  | nil => cases decided
  | cons look looks ih =>
    rcases goesOn_or_ends look with on | ⟨other, ended⟩
    · rw [waitUntil_goesOn on] at decided
      obtain ⟨before, last, after, rfl, earlier, ended⟩ := ih decided
      refine ⟨look :: before, last, after, rfl, ?_, ended⟩
      intro other member
      rcases List.mem_cons.mp member with rfl | member
      · exact on
      · exact earlier other member
    · rw [waitUntil_ends ended] at decided
      cases decided
      exact ⟨[], look, looks, rfl, by simp, ended⟩

end

/-! ## The clock and the workers -/

/-- The rounds that a clock makes: an answer takes at most `latency`, and from an answer
    to the next round it is at least what the loop sleeps and at most `pause`. -/
structure Clocked (latency pause : ℚ) (looks : List Look) : Prop where
  answers : ∀ look ∈ looks, look.now ≤ look.answered ∧ look.answered ≤ look.now + latency
  sleeps : looks.IsChain (fun look next => look.answered + 1 / 5 ≤ next.now ∧ next.now ≤ look.answered + pause)

theorem Clocked.tail {latency pause : ℚ} {look : Look} {looks : List Look}
    (clocked : Clocked latency pause (look :: looks)) : Clocked latency pause looks :=
  ⟨fun other member => clocked.answers other (List.mem_cons_of_mem _ member), clocked.sleeps.tail⟩

/-- After as many rounds as the loop can sleep before its deadline, it has ended. -/
theorem waitUntil_isSome {latency pause deadline : ℚ} {minimum : ℤ} {n : Nat} {look : Look} {looks : List Look}
    (clocked : Clocked latency pause (look :: looks)) (last : deadline ≤ look.now + n * (1 / 5))
    (rounds : n ≤ looks.length) : (waitUntil deadline minimum (look :: looks)).isSome := by
  induction looks generalizing n look with
  | nil =>
    obtain rfl : n = 0 := Nat.le_zero.mp rounds
    have late : deadline ≤ look.now := by simpa using last
    rw [waitUntil_ends (.timeoutError late)]
    rfl
  | cons next looks ih =>
    rcases @goesOn_or_ends deadline minimum look with on | ⟨waited, ended⟩
    · rw [waitUntil_goesOn on]
      have asked := (clocked.answers look List.mem_cons_self).1
      have slept := (List.isChain_cons_cons.mp clocked.sleeps).1.1
      cases n with
      | zero => exact absurd on.1 (not_lt.mpr (by simpa using last))
      | succ n =>
        refine ih clocked.tail ?_ (Nat.le_of_succ_le_succ rounds)
        push_cast at last
        linarith only [last, asked, slept]
    · rw [waitUntil_ends ended]
      rfl

/-- A loop that is early sees what is there for a round from `since` on, and does not
    end at its deadline. -/
theorem waitUntil_present {consumers : ℚ → ℤ} {latency pause deadline since : ℚ} {minimum : ℤ} {look : Look}
    {looks : List Look} (clocked : Clocked latency pause (look :: looks)) (soon : since + (pause + latency) < deadline)
    (present : ∀ t, since ≤ t → t ≤ since + (pause + latency) → minimum ≤ consumers t)
    (counted : ∀ other ∈ look :: looks, ∀ count,
      queueConsumerCount other.response = some count → count = consumers other.answered)
    (early : look.now ≤ since + pause) :
    waitUntil deadline minimum (look :: looks) ≠ some .timeoutError := by
  induction looks generalizing look with
  | nil =>
    obtain ⟨asked, answered⟩ := clocked.answers look List.mem_cons_self
    rcases @goesOn_or_ends deadline minimum look with on | ⟨waited, ended⟩
    · rw [waitUntil_goesOn on]
      nofun
    · rw [waitUntil_ends ended]
      rintro ⟨⟩
      linarith only [ended.late, early, soon, asked, answered]
  | cons next looks ih =>
    obtain ⟨asked, answered⟩ := clocked.answers look List.mem_cons_self
    rcases @goesOn_or_ends deadline minimum look with on | ⟨waited, ended⟩
    · have before : look.answered < since := by
        by_contra there
        obtain ⟨_, count, read, few⟩ := on
        have seen := present look.answered (not_lt.mp there) (by linarith only [answered, early])
        rw [counted look List.mem_cons_self count read] at few
        exact absurd seen (not_le.mpr few)
      rw [waitUntil_goesOn on]
      have slept := (List.isChain_cons_cons.mp clocked.sleeps).1.2
      exact ih clocked.tail (fun other member => counted other (List.mem_cons_of_mem _ member))
        (by linarith only [before, slept])
    · rw [waitUntil_ends ended]
      rintro ⟨⟩
      linarith only [ended.late, early, soon, asked, answered]

/-! ## The wait of a run -/

theorem consumerTarget_bounds {cfg : BenchmarkConfig} (workers : 1 ≤ cfg.processes) :
    1 ≤ consumerTarget cfg ∧ consumerTarget cfg ≤ cfg.processes := by
  unfold consumerTarget
  split_ifs <;> omega

/-- A positive count is of a queue that is there. -/
theorem body_of_pos {response : Response} {count : ℤ} (read : queueConsumerCount response = some count)
    (positive : 0 < count) : ∃ raw, response = .body raw := by
  cases response with
  | body raw => exact ⟨raw, rfl⟩
  | httpError code =>
    obtain ⟨_, same⟩ := Option.ite_none_right_eq_some.mp read
    cases same
    omega
  | failed => cases read

/-- The wait of a run for its workers, whose `consumers` the broker reports at every
    instant, ends when the rounds that fit before its deadline are over. It returns at
    the first answer that has the consumers of the run, and never for a queue that is
    not there; it gives up only when there was no round from which on they were there
    for as long as a round takes. -/
theorem wait_for_consumers (cfg : BenchmarkConfig) (workers : 1 ≤ cfg.processes) (consumers : ℚ → ℤ)
    (start timeout latency pause : ℚ) (looks : List Look) (clocked : Clocked latency pause looks)
    (began : ∀ look ∈ looks.head?, start ≤ look.now ∧ look.now ≤ start + pause)
    (counted : ∀ look ∈ looks, ∀ count, queueConsumerCount look.response = some count → count = consumers look.answered) :
    (∀ n : Nat, timeout ≤ n * (1 / 5) → n < looks.length →
      (waitForConsumers start (consumerTarget cfg) timeout looks).isSome) ∧
    (waitForConsumers start (consumerTarget cfg) timeout looks = some .returned → ∃ before look after,
      looks = before ++ look :: after ∧ look.now < start + timeout ∧ (∃ raw, look.response = .body raw) ∧
      consumerTarget cfg ≤ consumers look.answered ∧ ∀ other ∈ before, consumers other.answered < consumerTarget cfg) ∧
    (waitForConsumers start (consumerTarget cfg) timeout looks = some .timeoutError →
      (∃ look ∈ looks, start + timeout ≤ look.now) ∧
      ∀ since, start ≤ since → since + (pause + latency) < start + timeout →
        ∃ t, since ≤ t ∧ t ≤ since + (pause + latency) ∧ consumers t < consumerTarget cfg) ∧
    (waitForConsumers start (consumerTarget cfg) timeout looks = some .raised →
      ∃ look ∈ looks, look.now < start + timeout ∧ queueConsumerCount look.response = none) := by
  refine ⟨?_, ?_, ?_, ?_⟩
  · intro n fits rounds
    cases looks with
    | nil => exact absurd rounds (Nat.not_lt_zero n)
    | cons look looks =>
      have first := (began look rfl).1
      exact waitUntil_isSome clocked (by linarith only [first, fits]) (Nat.le_of_lt_succ rounds)
  · intro returned
    obtain ⟨before, look, after, rfl, earlier, ended⟩ := waitUntil_eq_some returned
    cases ended with
    | returned count inTime read enough =>
      have positive := (consumerTarget_bounds workers).1
      refine ⟨before, look, after, rfl, inTime, body_of_pos read (by omega), ?_, fun other member => ?_⟩
      · rwa [← counted look (by simp) count read]
      · obtain ⟨_, fewer, other_read, few⟩ := earlier other member
        rwa [← counted other (List.mem_append_left _ member) fewer other_read]
  · intro expired
    refine ⟨?_, fun since after soon => ?_⟩
    · obtain ⟨before, look, after, rfl, _, ended⟩ := waitUntil_eq_some expired
      exact ⟨look, by simp, ended.late⟩
    · by_contra absent
      push Not at absent
      cases looks with
      | nil => cases expired
      | cons look looks =>
        have first := (began look rfl).2
        exact waitUntil_present clocked soon absent counted (by linarith only [first, after]) expired
  · intro failed
    obtain ⟨before, look, after, rfl, _, ended⟩ := waitUntil_eq_some failed
    cases ended with
    | raised inTime unread => exact ⟨look, by simp, inTime, unread⟩

/-- Two processes, which are there one after the other. -/
def twoStarts (t : ℚ) : ℤ := if t < 1 / 4 then 0 else if t < 1 then 1 else 2

/-- Three rounds; in the first one there is no queue yet. -/
def threeRounds : List Look := [
  ⟨0, 1 / 10, .httpError 404⟩,
  ⟨1 / 2, 3 / 5, .body (dumps oneLine (Decimal.fixed 1) (.object [("consumers", .int 1)]))⟩,
  ⟨1, 11 / 10, .body (dumps oneLine (Decimal.fixed 1) (.object [("consumers", .int 2)]))⟩]

theorem wait_for_consumers_two : waitForConsumers 0 2 30 threeRounds = some .returned ∧
    ∃ before look after, threeRounds = before ++ look :: after ∧ look.now < 30 ∧ (∃ raw, look.response = .body raw) ∧
      2 ≤ twoStarts look.answered ∧ ∀ other ∈ before, twoStarts other.answered < 2 := by
  have returned : waitForConsumers 0 2 30 threeRounds = some .returned := by decide +kernel
  have answers : threeRounds.all (fun look => look.now ≤ look.answered ∧ look.answered ≤ look.now + 1) = true := by
    decide +kernel
  have read : threeRounds.all (fun look => queueConsumerCount look.response = some (twoStarts look.answered)) = true := by
    decide +kernel
  have clocked : Clocked 1 1 threeRounds :=
    ⟨fun look member => by simpa using List.all_eq_true.mp answers look member, by norm_num [threeRounds]⟩
  have target : consumerTarget { Polling.oneWorker with processes := 2 } = 2 := by decide
  have waited := wait_for_consumers { Polling.oneWorker with processes := 2 } (by decide) twoStarts 0 30 1 1 threeRounds
    clocked (by norm_num [threeRounds]) (fun look member count found => by
      have known := List.all_eq_true.mp read look member
      rw [found] at known
      simpa using known)
  rw [target, zero_add] at waited
  exact ⟨returned, waited.2.1 returned⟩

end RepidBench.Consumers
