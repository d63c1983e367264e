import RepidBench.ParseOutput

/-!
Every mode's output is read back: each result line gives its field, and neither
progress text nor a line for people is taken for a result line.
-/
namespace RepidBench.RoundTrip
open Text Decimal Publishing RunnerOutput ParseOutput

/-! ## What the outputs may hold -/

/-- Milestones are reached at times that are not negative, the last at the end. -/
structure ValidMilestones (milestones : Milestones) : Prop where
  nonneg : ∀ m seconds, milestones m = some seconds → 0 ≤ seconds
  ordered : ∀ m seconds last, milestones m = some seconds → milestones .m100 = some last → seconds ≤ last

/-- An error text is a single line. -/
def ValidReport : QueueReport → Prop
  | .metrics _ _ _ _ => True
  | .failed error => SingleLine error.toList

def ValidPoll : BurstPoll → Prop
  | .queue _ report => ValidReport report
  | .progress _ _ => True

/-- A status is a word, times and rates are not negative, error texts are single
    lines. -/
def Valid : Output → Prop
  | .drain d => Word d.status ∧ ValidMilestones d.milestones
  | .steady d => Word d.status ∧ 0 ≤ d.warmupSeconds ∧ 0 ≤ d.measurementSeconds
  | .latency d => Word d.status ∧ 0 ≤ d.arrivalRate ∧ 0 ≤ d.achievedRate ∧ 0 ≤ d.drainSeconds ∧ 0 ≤ d.duration ∧
      ∀ latency ∈ d.latencies, 0 ≤ latency
  | .burst d => Word d.status ∧ 0 ≤ d.publishSeconds ∧ 0 ≤ d.recoverySeconds ∧ ValidMilestones d.milestones ∧
      ValidReport d.publishEnd ∧ ValidReport d.last ∧ ∀ poll ∈ d.polls, ValidPoll poll

/-! ## The prints are well formed -/

/-- A well formed print that is not the status line. -/
def Quiet (print : Print) : Prop := Formed print ∧ ∀ word, print ≠ .status word

theorem note_quiet {text : String} (single : SingleLine text.toList) (apart : Apart text.toList) :
    Quiet (.note text) := ⟨⟨single, apart.foreign⟩, by simp⟩

/-- A note that is one string is apart from the result lines by its second character. -/
theorem constant_quiet {text : String} (single : SingleLine text.toList)
    (second : (text.toList[1]?).any (fun c => !c.isUpper) = true) : Quiet (.note text) :=
  note_quiet single (apart_of_second second)

theorem progress_quiet {text : String} (single : SingleLine text.toList) (apart : Apart text.toList) :
    Quiet (.progress text) := ⟨⟨single, apart.foreign⟩, by simp⟩

/-- The empty line starts with no tag. -/
theorem foreign_nil : Foreign [] := by
  intro tag _ begins
  have nothing : tagLiteral tag = [] := List.prefix_nil.mp begins
  simp [tagLiteral] at nothing

theorem blank_quiet : Quiet (.note "") := ⟨⟨singleLine_nil, foreign_nil⟩, by simp⟩

theorem eraser_quiet : Quiet eraser :=
  progress_quiet (by simp [SingleLine, isLineEnd]) (apart_of_second (by simp))

/-- The tags printed with a count, and those printed with decimals. -/
def countTags : List String :=
  ["TASKS_DONE", "TOTAL_MESSAGES", "LATENCY_SAMPLES", "LATENCY_BACKLOG_AT_MEASUREMENT_END"]
def decimalTags : List String :=
  ["DURATION_SECONDS", "THROUGHPUT", "LATENCY_P50", "LATENCY_P95", "LATENCY_P99", "LATENCY_OFFERED_RATE",
    "LATENCY_ACHIEVED_RATE", "LATENCY_DRAIN_SECONDS", "BURST_PUBLISH_SECONDS", "BURST_RECOVERY_SECONDS"]

theorem count_quiet {tag : String} (member : tag ∈ countTags) (n : Nat) : Quiet (.report tag (.count n)) := by
  have formed : ∀ tag ∈ countTags, TagFormed tag .int := by decide
  exact ⟨⟨formed tag member, trivial⟩, by simp⟩

theorem number_quiet {tag : String} (formed : TagFormed tag .float) {places : Nat} {value : ℚ} (nonneg : 0 ≤ value) :
    Quiet (.report tag (.decimal (places + 1) value)) :=
  ⟨⟨formed, Nat.succ_pos places, nonneg⟩, by simp⟩

theorem decimal_quiet {tag : String} (member : tag ∈ decimalTags) {places : Nat} {value : ℚ} (nonneg : 0 ≤ value) :
    Quiet (.report tag (.decimal (places + 1) value)) := by
  have formed : ∀ tag ∈ decimalTags, TagFormed tag .float := by decide
  exact number_quiet (formed tag member) nonneg

theorem loopPrint_quiet (printed : Printed) : Quiet (loopPrint printed) := by
  cases printed with
  | enqueued count total =>
    exact progress_quiet (by simp [isLineEnd]) (apart_of_second (by decide)).append.extend
  | burst number count remaining =>
    exact note_quiet (by simp [isLineEnd]) (apart_of_second (by decide)).extend.extend.extend

theorem publishPrint_quiet (print : PublishPrint) : Quiet print.print := by
  cases print with
  | loop printed => exact loopPrint_quiet printed
  | started count => exact note_quiet (by simp [isLineEnd]) (apart_of_second (by decide)).extend
  | publishers enqueued messages done procs =>
    exact progress_quiet (by simp [isLineEnd]) (apart_of_second (by decide)).extend.extend.extend.extend

theorem milestoneTag_formed (m : Milestone) : TagFormed s!"MILESTONE_{m.label}_SECONDS" .float := by
  cases m <;> decide

theorem tailTag_formed (m : Milestone) : TagFormed s!"TAIL_{m.label}_TO_100_SECONDS" .float := by
  cases m <;> decide

theorem printMilestones_quiet {milestones : Milestones} (valid : ValidMilestones milestones) :
    ∀ print ∈ printMilestones milestones, Quiet print := by
  intro print member
  rcases List.mem_append.mp member with each | tails
  · obtain ⟨m, _, found⟩ := List.mem_filterMap.mp each
    obtain ⟨seconds, reached, rfl⟩ := Option.map_eq_some_iff.mp found
    exact number_quiet (milestoneTag_formed m) (valid.nonneg m seconds reached)
  · cases last : milestones .m100 with
    | none => simp [last] at tails
    | some final =>
      simp only [last] at tails
      obtain ⟨m, _, found⟩ := List.mem_filterMap.mp tails
      obtain ⟨seconds, reached, rfl⟩ := Option.map_eq_some_iff.mp found
      exact number_quiet (tailTag_formed m) (sub_nonneg.mpr (valid.ordered m seconds final reached last))

theorem queue_apart : Apart "BURST_QUEUE_".toList := by decide

theorem printBurstQueueMetrics_quiet {label : String} (single : SingleLine label.toList) {report : QueueReport}
    (valid : ValidReport report) : Quiet (printBurstQueueMetrics label report) := by
  cases report with
  | metrics ready unacknowledged total consumers =>
    refine note_quiet (by simpa [isLineEnd] using single) ?_
    exact queue_apart.append.extend.extend.extend.extend
  | failed error =>
    refine note_quiet (by simpa [isLineEnd] using ⟨single, valid⟩) ?_
    exact queue_apart.append.extend

theorem quantile_nonneg {values : List ℚ} (nonneg : ∀ value ∈ values, 0 ≤ value) (fraction : ℚ) :
    0 ≤ quantile values fraction := by
  unfold quantile
  rw [List.getD_eq_getElem?_getD]
  cases found : values[min ⌊values.length * fraction⌋.toNat (values.length - 1)]? with
  | none => simp
  | some value =>
    have here := nonneg value (List.mem_of_getElem? found)
    simp only [Option.getD_some]
    linarith

theorem printLatencyResults_quiet {latencies : List ℚ} (nonneg : ∀ latency ∈ latencies, 0 ≤ latency) :
    ∀ print ∈ printLatencyResults latencies, Quiet print := by
  have sorted : ∀ value ∈ latencies.mergeSort (· ≤ ·), 0 ≤ value :=
    fun value member => nonneg value (List.mem_mergeSort.mp member)
  unfold printLatencyResults
  split_ifs
  · simp only [List.mem_singleton, forall_eq]
    exact count_quiet (by simp [countTags]) 0
  · simp only [List.forall_mem_cons, List.not_mem_nil, false_implies, implies_true, and_true]
    refine ⟨?_, ?_, ?_, ?_, ?_, ?_, ?_, ?_, count_quiet (by simp [countTags]) _⟩
    · exact note_quiet (by simp [isLineEnd]) (apart_of_second (by decide)).append
    · exact note_quiet (by simp [isLineEnd]) (apart_of_second (by decide)).extend
    · exact note_quiet (by simp [isLineEnd]) (apart_of_second (by decide)).extend
    · exact note_quiet (by simp [isLineEnd]) (apart_of_second (by decide)).extend
    · exact note_quiet (by simp [isLineEnd]) (apart_of_second (by decide)).extend
    · exact decimal_quiet (by simp [decimalTags]) (quantile_nonneg sorted _)
    · exact decimal_quiet (by simp [decimalTags]) (quantile_nonneg sorted _)
    · exact decimal_quiet (by simp [decimalTags]) (quantile_nonneg sorted _)

/-- A result block: quiet lines, the status, quiet lines. -/
def Block (status : String) (prints : List Print) : Prop :=
  ∃ before after, prints = before ++ .status status :: after ∧
    (∀ print ∈ before, Quiet print) ∧ ∀ print ∈ after, Quiet print

theorem printResults_block {status : String} (tasksDone total : Nat) (duration : ℚ) :
    Block status (printResults tasksDone total duration status) := by
  have positive : 0 < max duration 0.000001 := lt_max_of_lt_right (by norm_num)
  have rate : 0 ≤ (tasksDone : ℚ) / max duration 0.000001 := by positivity
  refine ⟨[_, _, _, _, _], [_, _, _, _], rfl, ?_, ?_⟩
  · simp only [List.forall_mem_cons, List.not_mem_nil, false_implies, implies_true, and_true]
    refine ⟨blank_quiet, constant_quiet (by decide) (by decide), ?_, ?_, ?_⟩
    · exact note_quiet (by simp [isLineEnd]) (apart_of_second (by decide)).extend
    · exact note_quiet (by simp [isLineEnd]) (apart_of_second (by decide)).extend.extend
    · exact note_quiet (by simp [isLineEnd]) (apart_of_second (by decide)).extend
  · simp only [List.forall_mem_cons, List.not_mem_nil, false_implies, implies_true, and_true]
    exact ⟨count_quiet (by simp [countTags]) _, count_quiet (by simp [countTags]) _,
      decimal_quiet (by simp [decimalTags]) positive.le, decimal_quiet (by simp [decimalTags]) rate⟩

theorem printSteadyResults_block {status : String} (measuredTasks totalCount publishedLimit : Nat)
    {warmupSeconds measurementSeconds : ℚ} (warmup : 0 ≤ warmupSeconds) (measurement : 0 ≤ measurementSeconds) :
    Block status
      (printSteadyResults measuredTasks totalCount publishedLimit warmupSeconds measurementSeconds status) := by
  have positive : 0 < max measurementSeconds 0.000001 := lt_max_of_lt_right (by norm_num)
  have rate : 0 ≤ (measuredTasks : ℚ) / max measurementSeconds 0.000001 := by positivity
  refine ⟨[_, _, _, _, _], [_, _, _, _], rfl, ?_, ?_⟩
  · simp only [List.forall_mem_cons, List.not_mem_nil, false_implies, implies_true, and_true]
    refine ⟨blank_quiet, constant_quiet (by decide) (by decide), ?_, ?_, ?_⟩
    · exact note_quiet (by simp [isLineEnd]) (apart_of_second (by decide)).extend.extend
    · exact note_quiet (by simp [isLineEnd]) (apart_of_second (by decide)).extend.extend.extend
    · exact note_quiet (by simp [isLineEnd]) (apart_of_second (by decide)).extend
  · simp only [List.forall_mem_cons, List.not_mem_nil, false_implies, implies_true, and_true]
    exact ⟨count_quiet (by simp [countTags]) _, count_quiet (by simp [countTags]) _,
      decimal_quiet (by simp [decimalTags]) (add_nonneg warmup measurement),
      decimal_quiet (by simp [decimalTags]) rate⟩

theorem printLatencyControlledResults_block {status : String} (samples measurementMessages backlog : Nat)
    {offeredRate achievedRate drainSeconds duration : ℚ} (offered : 0 ≤ offeredRate) (achieved : 0 ≤ achievedRate)
    (drain : 0 ≤ drainSeconds) (nonneg : 0 ≤ duration) :
    Block status (printLatencyControlledResults samples measurementMessages offeredRate achievedRate backlog
      drainSeconds duration status) := by
  refine ⟨[_, _, _, _, _, _], [_, _, _, _, _, _, _, _], rfl, ?_, ?_⟩
  · simp only [List.forall_mem_cons, List.not_mem_nil, false_implies, implies_true, and_true]
    refine ⟨blank_quiet, constant_quiet (by decide) (by decide), ?_, ?_, ?_, ?_⟩
    · exact note_quiet (by simp [isLineEnd]) (apart_of_second (by decide)).extend
    · exact note_quiet (by simp [isLineEnd]) (apart_of_second (by decide)).extend.extend
    · exact note_quiet (by simp [isLineEnd]) (apart_of_second (by decide)).extend
    · exact note_quiet (by simp [isLineEnd]) (apart_of_second (by decide)).extend
  · simp only [List.forall_mem_cons, List.not_mem_nil, false_implies, implies_true, and_true]
    exact ⟨count_quiet (by simp [countTags]) _, count_quiet (by simp [countTags]) _,
      decimal_quiet (by simp [decimalTags]) nonneg,
      decimal_quiet (by simp [decimalTags]) achieved, decimal_quiet (by simp [decimalTags]) offered,
      decimal_quiet (by simp [decimalTags]) achieved, count_quiet (by simp [countTags]) _,
      decimal_quiet (by simp [decimalTags]) drain⟩

theorem printBurstRecoveryResults_block {status : String} (tasksDone total : Nat)
    {publishSeconds recoverySeconds : ℚ} (publish : 0 ≤ publishSeconds) (recovery : 0 ≤ recoverySeconds) :
    Block status (printBurstRecoveryResults tasksDone total publishSeconds recoverySeconds status) := by
  have positive : 0 < max (publishSeconds + recoverySeconds) 0.000001 := lt_max_of_lt_right (by norm_num)
  have rate : 0 ≤ (tasksDone : ℚ) / max (publishSeconds + recoverySeconds) 0.000001 := by positivity
  refine ⟨[_, _, _, _, _, _], [_, _, _, _, _, _], rfl, ?_, ?_⟩
  · simp only [List.forall_mem_cons, List.not_mem_nil, false_implies, implies_true, and_true]
    refine ⟨blank_quiet, constant_quiet (by decide) (by decide), ?_, ?_, ?_, ?_⟩
    · exact note_quiet (by simp [isLineEnd]) (apart_of_second (by decide)).extend
    · exact note_quiet (by simp [isLineEnd]) (apart_of_second (by decide)).extend
    · exact note_quiet (by simp [isLineEnd]) (apart_of_second (by decide)).extend.extend
    · exact note_quiet (by simp [isLineEnd]) (apart_of_second (by decide)).extend
  · simp only [List.forall_mem_cons, List.not_mem_nil, false_implies, implies_true, and_true]
    exact ⟨count_quiet (by simp [countTags]) _, count_quiet (by simp [countTags]) _,
      decimal_quiet (by simp [decimalTags]) positive.le,
      decimal_quiet (by simp [decimalTags]) rate, decimal_quiet (by simp [decimalTags]) publish,
      decimal_quiet (by simp [decimalTags]) recovery⟩

/-! ## Whole outputs -/

section
variable {status : String} {prints others : List Print}

theorem Block.after (block : Block status prints) (quiet : ∀ print ∈ others, Quiet print) :
    Block status (others ++ prints) := by
  obtain ⟨before, after, rfl, first, second⟩ := block
  refine ⟨others ++ before, after, by simp, ?_, second⟩
  exact List.forall_mem_append.mpr ⟨quiet, first⟩

theorem Block.cons {print : Print} (block : Block status prints) (quiet : Quiet print) :
    Block status (print :: prints) := by
  obtain ⟨before, after, rfl, first, second⟩ := block
  exact ⟨print :: before, after, rfl, List.forall_mem_cons.mpr ⟨quiet, first⟩, second⟩

theorem Block.before (block : Block status prints) (quiet : ∀ print ∈ others, Quiet print) :
    Block status (prints ++ others) := by
  obtain ⟨before, after, rfl, first, second⟩ := block
  refine ⟨before, after ++ others, by simp, first, ?_⟩
  exact List.forall_mem_append.mpr ⟨second, quiet⟩

theorem Quiet.wordOf_status {print : Print} (quiet : Quiet print) : wordOf "STATUS" print = none := by
  cases print with
  | note text | progress text => rfl
  | status word => exact absurd rfl (quiet.2 word)
  | report tag value => simp [wordOf, entry, quiet.1.1.2.2.1]

theorem Block.parsed (block : Block status prints) (word : Word status) :
    parseRunnerOutput (readStdout (stdoutOf prints)) = .result (("status", .str status) ::
      fields.filterMap (fun field => ((reported prints).lookup field.tag).map (fun value => (field.key, value)))) := by
  obtain ⟨before, after, rfl, first, second⟩ := block
  refine parse_prints ?_ ?_
  · intro print member
    rcases List.mem_append.mp member with early | rest
    · exact (first print early).1
    · rcases List.mem_cons.mp rest with rfl | late
      · exact word
      · exact (second print late).1
  · have nothing : before.findSome? (wordOf "STATUS") = none :=
      List.findSome?_eq_none_iff.mpr (fun print member => (first print member).wordOf_status)
    simp [List.findSome?_append, nothing, wordOf, entry]

end

theorem map_quiet {α : Type} {print : α → Print} {l : List α} (quiet : ∀ a ∈ l, Quiet (print a)) :
    ∀ p ∈ l.map print, Quiet p := by
  intro p member
  obtain ⟨a, inside, rfl⟩ := List.mem_map.mp member
  exact quiet a inside

theorem Drain.block {d : Drain} (milestones : ValidMilestones d.milestones) : Block d.status d.prints := by
  refine (printResults_block _ _ _).after ?_
  simp only [List.forall_mem_append]
  refine ⟨⟨⟨?_, ?_⟩, printMilestones_quiet milestones⟩, ?_⟩
  · split_ifs
    · simp only [List.forall_mem_append, List.forall_mem_cons, List.not_mem_nil, false_implies, implies_true, and_true]
      exact ⟨⟨constant_quiet (by decide) (by decide), map_quiet (fun a _ => publishPrint_quiet a)⟩, blank_quiet,
        constant_quiet (by decide) (by decide), constant_quiet (by decide) (by decide),
        constant_quiet (by decide) (by decide)⟩
    · simp only [List.forall_mem_append, List.forall_mem_cons, List.not_mem_nil, false_implies, implies_true, and_true]
      exact ⟨⟨constant_quiet (by decide) (by decide), constant_quiet (by decide) (by decide)⟩,
        map_quiet (fun a _ => publishPrint_quiet a)⟩
  · refine map_quiet (fun poll _ => ?_)
    exact progress_quiet (by simp [isLineEnd]) (apart_of_second (by decide)).extend.extend.extend
  · cases d.timeLimit with
    | none => simp
    | some elapsed =>
      simp only [List.forall_mem_cons, List.not_mem_nil, false_implies, implies_true, and_true]
      refine ⟨blank_quiet, ?_⟩
      exact note_quiet (by simp [isLineEnd]) (apart_of_second (by decide)).extend.extend.extend

theorem phaseName_single (measuring : Bool) : SingleLine (phaseName measuring).toList := by
  cases measuring <;> decide

theorem Steady.block {d : Steady} (warmup : 0 ≤ d.warmupSeconds) (measurement : 0 ≤ d.measurementSeconds) :
    Block d.status d.prints := by
  refine Block.after ((printSteadyResults_block _ _ _ warmup measurement).cons eraser_quiet) ?_
  simp only [List.forall_mem_append, List.forall_mem_cons, List.not_mem_nil, false_implies, implies_true, and_true]
  refine ⟨⟨constant_quiet (by decide) (by decide), constant_quiet (by decide) (by decide)⟩,
    map_quiet (fun poll _ => ?_)⟩
  exact progress_quiet (by simp [isLineEnd, phaseName_single]) (apart_of_second (by decide)).extend.extend.extend.extend

theorem Latency.block {d : Latency} (arrival : 0 ≤ d.arrivalRate) (achieved : 0 ≤ d.achievedRate)
    (drain : 0 ≤ d.drainSeconds) (duration : 0 ≤ d.duration) (latencies : ∀ latency ∈ d.latencies, 0 ≤ latency) :
    Block d.status d.prints := by
  refine Block.before (Block.after ?_ ?_) (printLatencyResults_quiet latencies)
  · exact (printLatencyControlledResults_block _ _ _ arrival achieved drain duration).cons eraser_quiet
  · simp only [List.forall_mem_append, List.forall_mem_cons, List.not_mem_nil, false_implies, implies_true, and_true]
    refine ⟨⟨⟨⟨constant_quiet (by decide) (by decide), ?_⟩, ?_⟩, ?_, map_quiet (fun a _ => loopPrint_quiet a)⟩,
      map_quiet (fun samples _ => ?_)⟩
    · exact note_quiet (by simp [isLineEnd]) (apart_of_second (by decide)).extend
    · cases d.warmup with
      | none => simp
      | some lines =>
        simp only [List.forall_mem_append, List.forall_mem_cons, List.not_mem_nil, false_implies, implies_true,
          and_true]
        exact ⟨map_quiet (fun a _ => loopPrint_quiet a), blank_quiet, constant_quiet (by decide) (by decide)⟩
    · exact note_quiet (by simp [isLineEnd]) (apart_of_second (by decide)).extend
    · exact progress_quiet (by simp [isLineEnd]) (apart_of_second (by decide)).extend.extend

theorem Burst.block {d : Burst} (publish : 0 ≤ d.publishSeconds) (recovery : 0 ≤ d.recoverySeconds)
    (milestones : ValidMilestones d.milestones) (publishEnd : ValidReport d.publishEnd) (last : ValidReport d.last)
    (polls : ∀ poll ∈ d.polls, ValidPoll poll) : Block d.status d.prints := by
  refine (printBurstRecoveryResults_block _ _ publish recovery).after ?_
  simp only [List.forall_mem_append, List.forall_mem_cons, List.not_mem_nil, false_implies, implies_true, and_true]
  refine ⟨⟨⟨⟨constant_quiet (by decide) (by decide), ?_⟩, map_quiet (fun a _ => publishPrint_quiet a)⟩,
    printBurstQueueMetrics_quiet (by decide) publishEnd, map_quiet (fun poll member => ?_)⟩, eraser_quiet,
    printBurstQueueMetrics_quiet (by decide) last, printMilestones_quiet milestones⟩
  · exact note_quiet (by simp [isLineEnd]) (apart_of_second (by decide)).extend
  · have valid := polls poll member
    cases poll with
    | queue label report =>
      exact printBurstQueueMetrics_quiet (by cases label <;> decide) valid
    | progress count elapsed =>
      exact progress_quiet (by simp [isLineEnd]) (apart_of_second (by decide)).extend.extend.extend

theorem Output.block {o : Output} (valid : Valid o) : Block o.status o.prints ∧ Word o.status := by
  cases o with
  | drain d => exact ⟨Drain.block valid.2, valid.1⟩
  | steady d => exact ⟨Steady.block valid.2.1 valid.2.2, valid.1⟩
  | latency d =>
    obtain ⟨word, arrival, achieved, drain, duration, latencies⟩ := valid
    exact ⟨Latency.block arrival achieved drain duration latencies, word⟩
  | burst d =>
    obtain ⟨word, publish, recovery, milestones, publishEnd, last, polls⟩ := valid
    exact ⟨Burst.block publish recovery milestones publishEnd last polls, word⟩

/-! ## No tag is printed twice -/

/-- The tags of the result lines, in order. -/
def tagsOf (prints : List Print) : List String :=
  prints.filterMap (fun print => match print with
    | .report tag _ => some tag
    | _ => none)

theorem tagsOf_reported (prints : List Print) : (reported prints).map Prod.fst = tagsOf prints := by
  rw [reported, tagsOf, List.map_filterMap]
  congr 1
  funext print
  cases print <;> rfl

@[simp] theorem tagsOf_append (a b : List Print) : tagsOf (a ++ b) = tagsOf a ++ tagsOf b := List.filterMap_append

/-- A print that is no result line. -/
def Silent (print : Print) : Prop := ∀ tag value, print ≠ .report tag value

theorem tagsOf_silent {prints : List Print} (silent : ∀ print ∈ prints, Silent print) :
    (tagsOf prints).Sublist [] := by
  have nothing : tagsOf prints = [] := by
    refine List.filterMap_eq_nil_iff.mpr (fun print member => ?_)
    cases print with
    | report tag value => exact absurd rfl (silent _ member tag value)
    | _ => rfl
  rw [nothing]

theorem tagsOf_map_silent {α : Type} {print : α → Print} (silent : ∀ a, Silent (print a)) (l : List α) :
    (tagsOf (l.map print)).Sublist [] := by
  refine tagsOf_silent (fun p member => ?_)
  obtain ⟨a, _, rfl⟩ := List.mem_map.mp member
  exact silent a

theorem loopPrint_silent (printed : Printed) : Silent (loopPrint printed) := by
  cases printed <;> simp [Silent, loopPrint]

theorem publishPrint_silent (print : PublishPrint) : Silent print.print := by
  cases print with
  | loop printed => exact loopPrint_silent printed
  | started count | publishers enqueued messages done procs => simp [Silent, PublishPrint.print]

theorem printBurstQueueMetrics_silent (label : String) (report : QueueReport) :
    Silent (printBurstQueueMetrics label report) := by
  cases report <;> simp [Silent, printBurstQueueMetrics]

theorem filterMap_sublist {α : Type} (kept : α → Option ℚ) (name : α → String) (number : ℚ → Number) (l : List α) :
    (tagsOf (l.filterMap (fun a => (kept a).map (fun seconds => .report (name a) (number seconds))))).Sublist
      (l.map name) := by
  induction l with
  | nil => exact List.Sublist.slnil
  | cons a rest ih =>
    cases found : kept a with
    | none =>
      simp only [List.filterMap_cons, found, Option.map_none, List.map_cons]
      exact ih.cons _
    | some seconds =>
      simp only [List.filterMap_cons, found, Option.map_some, List.map_cons]
      exact ih.cons_cons _

/-- The tags that `_print_milestones` may print. -/
def milestoneTags : List String :=
  [Milestone.m50, .m90, .m95, .m98, .m99, .m995, .m100].map (fun m => s!"MILESTONE_{m.label}_SECONDS") ++
    [Milestone.m95, .m98, .m99, .m995].map (fun m => s!"TAIL_{m.label}_TO_100_SECONDS")

theorem printMilestones_tags (milestones : Milestones) :
    (tagsOf (printMilestones milestones)).Sublist milestoneTags := by
  rw [printMilestones, tagsOf_append]
  refine (filterMap_sublist _ _ _ _).append ?_
  cases milestones .m100 with
  | none => exact List.nil_sublist _
  | some last => exact filterMap_sublist _ _ (fun seconds => .decimal 4 (last - seconds)) _

/-- The tags of a result block. -/
def blockTags : List String := ["TASKS_DONE", "TOTAL_MESSAGES", "DURATION_SECONDS", "THROUGHPUT"]

theorem Drain.tags (d : Drain) :
    (tagsOf d.prints).Sublist ([] ++ [] ++ milestoneTags ++ [] ++ blockTags) := by
  unfold Drain.prints
  rw [tagsOf_append, tagsOf_append, tagsOf_append, tagsOf_append]
  refine ((((?_ : List.Sublist _ _).append ?_).append (printMilestones_tags _)).append ?_).append
    (List.Sublist.refl _)
  · split_ifs
    · rw [tagsOf_append]
      exact (tagsOf_map_silent publishPrint_silent d.publishing).append (List.Sublist.refl [])
    · rw [tagsOf_append]
      exact (List.Sublist.refl []).append (tagsOf_map_silent publishPrint_silent d.publishing)
  · exact tagsOf_map_silent (fun _ => by simp [Silent]) _
  · cases d.timeLimit <;> exact List.Sublist.refl []

theorem Steady.tags (d : Steady) : (tagsOf d.prints).Sublist ([] ++ [] ++ blockTags) := by
  unfold Steady.prints
  rw [tagsOf_append, tagsOf_append]
  exact ((List.Sublist.refl []).append (tagsOf_map_silent (fun _ => by simp [Silent]) _)).append
    (List.Sublist.refl _)

/-- The tags that `_print_latency_controlled_results` adds, and those of
    `print_latency_results`. -/
def latencyTags : List String :=
  ["LATENCY_OFFERED_RATE", "LATENCY_ACHIEVED_RATE", "LATENCY_BACKLOG_AT_MEASUREMENT_END", "LATENCY_DRAIN_SECONDS"]
def quantileTags : List String := ["LATENCY_P50", "LATENCY_P95", "LATENCY_P99", "LATENCY_SAMPLES"]

theorem printLatencyResults_tags (latencies : List ℚ) :
    (tagsOf (printLatencyResults latencies)).Sublist quantileTags := by
  unfold printLatencyResults
  split_ifs
  · show List.Sublist ["LATENCY_SAMPLES"] quantileTags
    decide
  · exact List.Sublist.refl _

theorem Latency.tags (d : Latency) :
    (tagsOf d.prints).Sublist ([] ++ [] ++ [] ++ [] ++ (blockTags ++ latencyTags) ++ quantileTags) := by
  unfold Latency.prints
  rw [tagsOf_append, tagsOf_append, tagsOf_append, tagsOf_append, tagsOf_append]
  refine ((((List.Sublist.refl []).append ?_).append ?_).append ?_).append (List.Sublist.refl _) |>.append
    (printLatencyResults_tags _)
  · cases d.warmup with
    | none => exact List.Sublist.refl []
    | some lines =>
      show (tagsOf (lines.map loopPrint ++ _)).Sublist []
      rw [tagsOf_append]
      exact (tagsOf_map_silent loopPrint_silent lines).append (List.Sublist.refl [])
  · exact tagsOf_map_silent loopPrint_silent d.measured
  · exact tagsOf_map_silent (fun _ => by simp [Silent]) _

theorem Burst.tags (d : Burst) : (tagsOf d.prints).Sublist
    ([] ++ [] ++ [] ++ milestoneTags ++ (blockTags ++ ["BURST_PUBLISH_SECONDS", "BURST_RECOVERY_SECONDS"])) := by
  have pollSilent (poll : BurstPoll) : Silent (d.pollPrint poll) := by
    cases poll with
    | queue label report => exact printBurstQueueMetrics_silent _ report
    | progress count elapsed => simp [Silent, Burst.pollPrint]
  unfold Burst.prints
  rw [tagsOf_append, tagsOf_append, tagsOf_append, tagsOf_append]
  refine ((((List.Sublist.refl []).append (tagsOf_map_silent publishPrint_silent _)).append ?_).append ?_).append
    (List.Sublist.refl _)
  · refine tagsOf_silent (List.forall_mem_cons.mpr ⟨printBurstQueueMetrics_silent _ _, fun p member => ?_⟩)
    obtain ⟨poll, _, rfl⟩ := List.mem_map.mp member
    exact pollSilent poll
  · have queue : tagsOf [printBurstQueueMetrics "100" d.last] = [] := by
      cases d.last <;> rfl
    show (tagsOf ([printBurstQueueMetrics "100" d.last] ++ printMilestones d.milestones)).Sublist _
    rw [tagsOf_append, queue]
    exact printMilestones_tags _

theorem Output.tags_nodup (o : Output) : (tagsOf o.prints).Nodup := by
  cases o with
  | drain d => exact List.Nodup.sublist (Drain.tags d) (by decide)
  | steady d => exact List.Nodup.sublist (Steady.tags d) (by decide)
  | latency d => exact List.Nodup.sublist (Latency.tags d) (by decide)
  | burst d => exact List.Nodup.sublist (Burst.tags d) (by decide)

theorem mem_tagsOf {prints : List Print} {tag : String} {value : Number} (printed : .report tag value ∈ prints) :
    tag ∈ tagsOf prints := List.mem_filterMap.mpr ⟨_, printed, rfl⟩

/-- A tag that one line has stands for one number. -/
theorem report_unique {prints : List Print} (distinct : (tagsOf prints).Nodup) {tag : String} {value other : Number}
    (printed : .report tag value ∈ prints) : .report tag other ∈ prints ↔ other = value := by
  induction prints with
  | nil => cases printed
  | cons print rest ih =>
    have whole : tagsOf (print :: rest) = tagsOf [print] ++ tagsOf rest := tagsOf_append [print] rest
    obtain ⟨_, distinctRest, apart⟩ := List.nodup_append.mp (whole ▸ distinct)
    have alone {number : Number} (same : Print.report tag number = print) : tag ∉ tagsOf rest := by
      intro later
      exact apart tag (mem_tagsOf (List.mem_singleton.mpr same)) tag later rfl
    rcases List.mem_cons.mp printed with same | later
    · constructor
      · intro again
        rcases List.mem_cons.mp again with first | second
        · cases same.trans first.symm
          rfl
        · exact absurd (mem_tagsOf second) (alone same)
      · rintro rfl
        exact printed
    · rw [← ih distinctRest later, List.mem_cons, or_iff_right]
      intro first
      exact alone first (mem_tagsOf later)

/-- In every mode, what `run_all.py` reads from the output of a runner is the
    status it printed and, in the order of the fields, the number printed on the
    line of each field, rounded as printed; a field without a line has no entry.
    No two lines have a tag in common, and no two fields a tag or a key. -/
theorem runner_output_round_trip (o : Output) (valid : Valid o) :
    parseRunnerOutput (readStdout (stdoutOf o.prints)) = .result (("status", .str o.status) ::
      fields.filterMap (fun field => ((reported o.prints).lookup field.tag).map (fun value => (field.key, value)))) ∧
    ((reported o.prints).map Prod.fst).Nodup ∧
    (fields.map Field.tag).Nodup ∧ ("status" :: fields.map Field.key).Nodup := by
  obtain ⟨block, word⟩ := Output.block valid
  refine ⟨block.parsed word, ?_, by decide, by decide⟩
  rw [tagsOf_reported]
  exact Output.tags_nodup o

/-- A burst with a progress line, an error text that looks like a result line, and
    milestones. -/
def disguisedBurst : Burst where
  messages := 20
  publishing := [.loop (.enqueued 20 20), .loop (.burst 1 20 0)]
  publishEnd := .metrics 15 5 20 4
  polls := [.progress 10 0.05, .queue .m90 (.failed "STATUS: timeout THROUGHPUT: 1.00")]
  last := .metrics 0 0 0 4
  milestones := fun m => match m with
    | .m95 => some 0
    | .m100 => some 0.25
    | _ => none
  tasksDone := 20
  publishSeconds := 0.25
  recoverySeconds := 0.25
  status := "ok"

theorem disguisedBurst_milestones : ValidMilestones disguisedBurst.milestones := by
  constructor
  · intro m seconds reached
    cases m <;> simp [disguisedBurst] at reached <;> subst reached <;> norm_num
  · intro m seconds last reached final
    simp only [disguisedBurst, Option.some.injEq] at final
    subst final
    cases m <;> simp [disguisedBurst] at reached <;> subst reached <;> norm_num

theorem disguisedBurst_valid : Valid (.burst disguisedBurst) := by
  have word : Word "ok" := ⟨by decide, by simp [isSpace]⟩
  have seconds : (0 : ℚ) ≤ 0.25 := by norm_num
  have single : SingleLine "STATUS: timeout THROUGHPUT: 1.00".toList := by decide
  refine ⟨word, seconds, seconds, disguisedBurst_milestones, trivial, trivial, ?_⟩
  simp only [disguisedBurst, List.forall_mem_cons, List.not_mem_nil, false_implies, implies_true, and_true]
  exact ⟨trivial, single⟩

/-- Every number of it is read from its own line. -/
theorem runner_output_burst : ∃ o, Valid o ∧ parseRunnerOutput (readStdout (stdoutOf o.prints)) =
    .result [("status", .str "ok"), ("throughput", .float 40), ("tasks_done", .int 20), ("total_messages", .int 20),
      ("duration_seconds", .float 0.5), ("tail_95_to_100_seconds", .float 0.25),
      ("burst_publish_seconds", .float 0.25), ("burst_recovery_seconds", .float 0.25)] := by
  refine ⟨_, disguisedBurst_valid, (runner_output_round_trip (.burst disguisedBurst) disguisedBurst_valid).1.trans ?_⟩
  decide +kernel

end RepidBench.RoundTrip
