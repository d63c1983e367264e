import RepidBench.Polling

/-!
Milestones of a drain. The thresholds of `_milestone_thresholds` grow strictly, so
each count that the loop reads takes a first part of those that are left; what is
recorded in the end is, for each threshold, the first poll that reached it.
-/
namespace RepidBench.Milestones
open Transition Cutoff Decimal RunnerOutput RepidBench.Runtime Polling

/-! ## Thresholds -/

/-- The threshold of a fraction, before those that are there already are left out. -/
def thresholdAt (total : Nat) (fraction : ℚ) : Nat := min total (max 1 (partOf total fraction))

theorem thresholdAt_mono (total : Nat) : Monotone (thresholdAt total) := by
  intro low high below
  have parts : partOf total low ≤ partOf total high :=
    Int.toNat_le_toNat (roundHalfEven_mono (mul_le_mul_of_nonneg_left below (Nat.cast_nonneg total)))
  unfold thresholdAt
  omega

theorem thresholdsOf_mem {total : Nat} {points : List (Milestone × ℚ)} {seen : List Nat} {p : Milestone × Nat}
    (member : p ∈ thresholdsOf total seen points) :
    (∃ fraction, (p.1, fraction) ∈ points ∧ p.2 = thresholdAt total fraction) ∧ p.2 ∉ seen ∧ p.2 < total := by
  induction points generalizing seen with
  | nil => cases member
  | cons point rest ih =>
    obtain ⟨label, fraction⟩ := point
    have later {seen' : List Nat} (member : p ∈ thresholdsOf total seen' rest) :
        ∃ fraction', (p.1, fraction') ∈ (label, fraction) :: rest ∧ p.2 = thresholdAt total fraction' := by
      obtain ⟨⟨fraction', found, same⟩, _⟩ := ih member
      exact ⟨fraction', List.mem_cons_of_mem _ found, same⟩
    simp only [thresholdsOf] at member
    split_ifs at member with fresh
    · rcases List.mem_cons.mp member with rfl | member
      · exact ⟨⟨fraction, List.mem_cons_self, rfl⟩, fresh⟩
      · obtain ⟨_, unseen, below⟩ := ih member
        exact ⟨later member, fun old => unseen (List.mem_cons_of_mem _ old), below⟩
    · exact ⟨later member, (ih member).2⟩

theorem thresholdsOf_pairwise (total : Nat) {points : List (Milestone × ℚ)} (seen : List Nat)
    (sorted : points.Pairwise (fun p q => p.2 ≤ q.2)) :
    (thresholdsOf total seen points).Pairwise (fun p q => p.2 < q.2) := by
  induction points generalizing seen with
  | nil => exact .nil
  | cons point rest ih =>
    obtain ⟨label, fraction⟩ := point
    obtain ⟨first, sorted⟩ := List.pairwise_cons.mp sorted
    simp only [thresholdsOf]
    split_ifs
    · refine List.pairwise_cons.mpr ⟨fun p member => ?_, ih _ sorted⟩
      obtain ⟨⟨fraction', found, same⟩, unseen, _⟩ := thresholdsOf_mem member
      have grown : thresholdAt total fraction ≤ p.2 := same ▸ thresholdAt_mono total (first _ found)
      have other : p.2 ≠ thresholdAt total fraction := fun equal => unseen (equal ▸ List.mem_cons_self)
      show thresholdAt total fraction < p.2
      omega
    · exact ih _ sorted

theorem thresholdsOf_labels (total : Nat) (points : List (Milestone × ℚ)) (seen : List Nat) :
    ((thresholdsOf total seen points).map Prod.fst).Sublist (points.map Prod.fst) := by
  induction points generalizing seen with
  | nil => exact .slnil
  | cons point rest ih =>
    simp only [thresholdsOf]
    split_ifs
    · exact (ih _).cons_cons _
    · exact (ih _).cons _

theorem milestoneThresholds_pairwise (total : Nat) :
    (milestoneThresholds total).Pairwise (fun p q => p.2 < q.2) := by
  refine List.pairwise_append.mpr ⟨thresholdsOf_pairwise total [] ?_, List.pairwise_singleton _ _, ?_⟩
  · norm_num [milestonePoints]
  · intro p member q last
    rw [List.mem_singleton.mp last]
    exact (thresholdsOf_mem member).2.2

/-- Thresholds have labels of their own. -/
theorem milestoneThresholds_label {total : Nat} {p q : Milestone × Nat} (here : p ∈ milestoneThresholds total)
    (there : q ∈ milestoneThresholds total) (same : p.1 = q.1) : p = q := by
  have labels : ((milestoneThresholds total).map Prod.fst).Sublist (milestonePoints.map Prod.fst ++ [.m100]) := by
    rw [milestoneThresholds, List.map_append]
    exact (thresholdsOf_labels total milestonePoints []).append_right _
  exact List.inj_on_of_nodup_map (labels.nodup (by decide)) here there same

theorem milestoneThresholds_bounds {total : Nat} (some : 1 ≤ total) {p : Milestone × Nat}
    (member : p ∈ milestoneThresholds total) : 1 ≤ p.2 ∧ p.2 ≤ total := by
  rcases List.mem_append.mp member with early | last
  · obtain ⟨⟨fraction, _, same⟩, _⟩ := thresholdsOf_mem early
    unfold thresholdAt at same
    omega
  · rw [List.mem_singleton.mp last]
    exact ⟨some, le_rfl⟩

theorem m100_mem (total : Nat) : (.m100, total) ∈ milestoneThresholds total :=
  List.mem_append_right _ (List.mem_singleton_self _)

/-! ## Polls -/

/-- A count that is handed to `_record_milestones`, and the time that it is stamped with. -/
structure Stamp where
  count : Nat
  elapsed : ℚ
  deriving DecidableEq

/-- The time of the first poll whose count reached a threshold. -/
def reached (polls : List Stamp) (threshold : Nat) : Option ℚ :=
  (polls.find? (fun p => threshold ≤ p.count)).map Stamp.elapsed

theorem reached_snoc (polls : List Stamp) (p : Stamp) (threshold : Nat) :
    reached (polls ++ [p]) threshold = (reached polls threshold).or (if threshold ≤ p.count then some p.elapsed else none) := by
  unfold reached
  rw [List.find?_append]
  cases polls.find? (fun p => decide (threshold ≤ p.count)) with
  | some q => rfl
  | none => by_cases enough : threshold ≤ p.count <;> simp [enough]

/-- Counts and times do not fall from one poll to the next. -/
structure Rising (polls : List Stamp) : Prop where
  counts : polls.Pairwise (fun p q => p.count ≤ q.count)
  times : polls.Pairwise (fun p q => p.elapsed ≤ q.elapsed)

theorem Rising.snoc {polls : List Stamp} (rising : Rising polls) {p : Stamp} (counted : ∀ q ∈ polls, q.count ≤ p.count)
    (past : ∀ q ∈ polls, q.elapsed ≤ p.elapsed) : Rising (polls ++ [p]) :=
  ⟨List.pairwise_append.mpr ⟨rising.counts, List.pairwise_singleton _ _, by simpa using counted⟩,
    List.pairwise_append.mpr ⟨rising.times, List.pairwise_singleton _ _, by simpa using past⟩⟩

/-- The last poll reaches what any poll reaches. -/
theorem Rising.reached_iff {before : List Stamp} {last : Stamp} (rising : Rising (before ++ [last])) (threshold : Nat) :
    (reached (before ++ [last]) threshold).isSome ↔ threshold ≤ last.count := by
  simp only [reached, Option.isSome_map, List.find?_isSome, decide_eq_true_eq]
  constructor
  · rintro ⟨p, member, enough⟩
    rcases List.mem_append.mp member with old | new
    · exact enough.trans ((List.pairwise_append.mp rising.counts).2.2 p old last (List.mem_singleton_self last))
    · rwa [← List.mem_singleton.mp new]
  · exact fun enough => ⟨last, by simp, enough⟩

/-- A smaller threshold is reached no later. -/
theorem Rising.reached_mono {polls : List Stamp} (rising : Rising polls) {low high : Nat} (below : low ≤ high)
    {early late : ℚ} (first : reached polls low = some early) (second : reached polls high = some late) : early ≤ late := by
  induction polls with
  | nil => cases first
  | cons p rest ih =>
    obtain ⟨counts, counted⟩ := List.pairwise_cons.mp rising.counts
    obtain ⟨times, timed⟩ := List.pairwise_cons.mp rising.times
    simp only [reached, List.find?_cons] at first second
    by_cases enough : low ≤ p.count
    · simp only [enough, decide_true, Option.map_some, Option.some.injEq] at first
      subst first
      by_cases more : high ≤ p.count
      · simp only [more, decide_true, Option.map_some, Option.some.injEq] at second
        exact second.le
      · simp only [more, decide_false] at second
        obtain ⟨q, found, rfl⟩ := Option.map_eq_some_iff.mp second
        exact times q (List.mem_of_find?_eq_some found)
    · simp only [enough, decide_false] at first
      have more : ¬ high ≤ p.count := by omega
      simp only [more, decide_false] at second
      exact ih ⟨counted, timed⟩ first second

/-! ## One poll -/

/-- One poll takes all the thresholds up to its count, and stamps them. -/
theorem recordMilestones_spec (count : Nat) (elapsed : ℚ) {thresholds : List (Milestone × Nat)}
    (sorted : thresholds.Pairwise (fun p q => p.2 < q.2)) (milestones : Milestones) :
    (recordMilestones count elapsed thresholds milestones).1 = thresholds.filter (fun p => count < p.2) ∧
    ∀ label, (recordMilestones count elapsed thresholds milestones).2 label =
      if ∃ p ∈ thresholds, p.1 = label ∧ p.2 ≤ count then some elapsed else milestones label := by
  induction thresholds generalizing milestones with
  | nil => simp [recordMilestones]
  | cons point rest ih =>
    obtain ⟨label, threshold⟩ := point
    obtain ⟨first, sorted⟩ := List.pairwise_cons.mp sorted
    by_cases enough : threshold ≤ count
    · obtain ⟨left, stamped⟩ := ih sorted (Function.update milestones label (some elapsed))
      rw [recordMilestones, if_pos enough]
      refine ⟨by simpa [not_lt.mpr enough] using left, fun other => ?_⟩
      rw [stamped other]
      by_cases later : ∃ p ∈ rest, p.1 = other ∧ p.2 ≤ count
      · obtain ⟨p, member, found⟩ := later
        rw [if_pos ⟨p, member, found⟩, if_pos ⟨p, List.mem_cons_of_mem _ member, found⟩]
      · rw [if_neg later]
        by_cases same : other = label
        · subst same
          rw [Function.update_self, if_pos ⟨_, List.mem_cons_self, rfl, enough⟩]
        · rw [Function.update_of_ne same, if_neg]
          rintro ⟨p, member, named, below⟩
          rcases List.mem_cons.mp member with rfl | member
          · exact same named.symm
          · exact later ⟨p, member, named, below⟩
    · have above : ∀ p ∈ (label, threshold) :: rest, count < p.2 := by
        intro p member
        rcases List.mem_cons.mp member with rfl | member
        · exact not_le.mp enough
        · exact (not_le.mp enough).trans (first p member)
      rw [recordMilestones, if_neg enough]
      refine ⟨(List.filter_eq_self.mpr (fun p member => by simpa using above p member)).symm, fun other => ?_⟩
      rw [if_neg]
      rintro ⟨p, member, _, below⟩
      exact absurd below (not_le.mpr (above p member))

/-- What some polls have recorded, and what they have left. -/
structure Recorded (total : Nat) (polls : List Stamp) (thresholds : List (Milestone × Nat)) (milestones : Milestones) :
    Prop where
  left : thresholds = (milestoneThresholds total).filter (fun p => reached polls p.2 = none)
  stamped : ∀ p ∈ milestoneThresholds total, milestones p.1 = reached polls p.2
  others : ∀ label, (∀ p ∈ milestoneThresholds total, p.1 ≠ label) → milestones label = none

theorem Recorded.record {total : Nat} {polls : List Stamp} {thresholds : List (Milestone × Nat)}
    {milestones : Milestones} (recorded : Recorded total polls thresholds milestones) (p : Stamp) :
    Recorded total (polls ++ [p]) (recordMilestones p.count p.elapsed thresholds milestones).1
      (recordMilestones p.count p.elapsed thresholds milestones).2 := by
  obtain ⟨rfl, stamped, others⟩ := recorded
  obtain ⟨left, marks⟩ := recordMilestones_spec p.count p.elapsed
    ((milestoneThresholds_pairwise total).filter (fun q => reached polls q.2 = none)) milestones
  refine ⟨?_, fun q member => ?_, fun label unknown => ?_⟩
  · rw [left, List.filter_filter]
    refine List.filter_congr (fun q _ => ?_)
    rw [reached_snoc, ← Bool.decide_and, decide_eq_decide, Option.or_eq_none_iff]
    by_cases enough : q.2 ≤ p.count
    · simp [enough]
    · simp [enough, not_le.mp enough]
  · rw [marks q.1, stamped q member, reached_snoc]
    cases old : reached polls q.2 with
    | some elapsed =>
      rw [if_neg, Option.some_or]
      rintro ⟨r, here, same, _⟩
      obtain ⟨here, fresh⟩ := List.mem_filter.mp here
      rw [milestoneThresholds_label here member same, old] at fresh
      simp at fresh
    | none =>
      by_cases enough : q.2 ≤ p.count
      · have left : q ∈ (milestoneThresholds total).filter (fun q => reached polls q.2 = none) :=
          List.mem_filter.mpr ⟨member, by simp [old]⟩
        rw [if_pos ⟨q, left, rfl, enough⟩, if_pos enough, Option.none_or]
      · rw [if_neg, if_neg enough, Option.none_or]
        rintro ⟨r, here, same, below⟩
        rw [milestoneThresholds_label (List.mem_filter.mp here).1 member same] at below
        exact enough below
  · rw [marks label, others label unknown, if_neg]
    rintro ⟨q, member, same, _⟩
    exact unknown q (List.mem_filter.mp member).1 same

/-! ## Every run -/

variable {σ α : Type}

/-- A poll, seen when its count is handed to `_record_milestones`. -/
def stampOf (m : State ℚ σ Drain.Locals) : Label ℚ α Reply → Option Stamp
  | .runner .returned =>
    if m.runner.phase = .record then some ⟨m.runner.count, m.clock - m.runner.start⟩
    else if m.runner.phase = .rerecord then some ⟨m.runner.tasksDone, m.clock - m.runner.start⟩
    else none
  | _ => none

/-- What the loop of a drain knows of its polls, where it stands. -/
def Stage (total count : Nat) (polls : List Stamp) (d : Drain.Locals) : Prop :=
  match d.phase with
  | .enqueue | .startWorkers | .waitForConsumers | .start | .publish => polls = [] ∧ d.timedOut = false
  | .poll => d.timedOut = false
  | .record => d.timedOut = false ∧ d.count ≤ count ∧ ∀ p ∈ polls, p.count ≤ d.count
  | .first | .check => d.timedOut = false ∧ ∃ before last, polls = before ++ [last] ∧ last.count = d.count
  | .reread => d.timedOut = true
  | .rerecord => d.timedOut = true ∧ d.tasksDone ≤ count ∧ ∀ p ∈ polls, p.count ≤ d.tasksDone
  | .takeEnd | .stopWorkers | .purge | .done => ∃ before last, polls = before ++ [last] ∧
      (d.timedOut = false → d.tasksDone = total ∧ total ≤ last.count)
  | .failed => True

/-- The polls so far rise, in count up to `count` and in time up to `now`, and what
    the loop has recorded is of them. -/
structure Watched (total count : Nat) (now : ℚ) (polls : List Stamp) (d : Drain.Locals) : Prop where
  recorded : Recorded total polls d.thresholds d.milestones
  rising : Rising polls
  counted : ∀ p ∈ polls, p.count ≤ count
  past : ∀ p ∈ polls, p.elapsed ≤ now - d.start
  stage : Stage total count polls d

theorem Stage.later {total count count' : Nat} {polls : List Stamp} {d : Drain.Locals}
    (stage : Stage total count polls d) (grown : count ≤ count') : Stage total count' polls d := by
  cases phase : d.phase
  case record =>
    obtain ⟨inTime, still, most⟩ : d.timedOut = false ∧ d.count ≤ count ∧ ∀ p ∈ polls, p.count ≤ d.count := by
      simpa only [Stage, phase] using stage
    simpa only [Stage, phase] using ⟨inTime, still.trans grown, most⟩
  case rerecord =>
    obtain ⟨late, still, most⟩ : d.timedOut = true ∧ d.tasksDone ≤ count ∧ ∀ p ∈ polls, p.count ≤ d.tasksDone := by
      simpa only [Stage, phase] using stage
    simpa only [Stage, phase] using ⟨late, still.trans grown, most⟩
  case failed => simp only [Stage, phase]
  all_goals simpa only [Stage, phase] using stage

/-- The workers and the clock take nothing back. -/
theorem Watched.later {total count count' : Nat} {now now' : ℚ} {polls : List Stamp} {d : Drain.Locals}
    (watched : Watched total count now polls d) (grown : count ≤ count') (passed : now ≤ now') :
    Watched total count' now' polls d :=
  ⟨watched.recorded, watched.rising, fun p member => (watched.counted p member).trans grown,
    fun p member => (watched.past p member).trans (sub_le_sub_right passed _), watched.stage.later grown⟩

theorem Watched.record {total count : Nat} {now : ℚ} {polls : List Stamp} {d : Drain.Locals} {read : Nat}
    (watched : Watched total count now polls d) (still : read ≤ count) (most : ∀ p ∈ polls, p.count ≤ read) :
    let p : Stamp := ⟨read, now - d.start⟩
    Recorded total (polls ++ [p]) (d.recorded now read).thresholds (d.recorded now read).milestones ∧
    Rising (polls ++ [p]) ∧ (∀ q ∈ polls ++ [p], q.count ≤ count) ∧ ∀ q ∈ polls ++ [p], q.elapsed ≤ now - d.start := by
  refine ⟨watched.recorded.record _, watched.rising.snoc most watched.past, fun q member => ?_, fun q member => ?_⟩
  · rcases List.mem_append.mp member with old | new
    · exact watched.counted q old
    · exact (List.mem_singleton.mp new) ▸ still
  · rcases List.mem_append.mp member with old | new
    · exact watched.past q old
    · rw [List.mem_singleton.mp new]

/-- The poll that a statement of the runner is. -/
def stampAt (now : ℚ) (d : Drain.Locals) : List Stamp :=
  if d.phase = .record then [⟨d.count, now - d.start⟩]
  else if d.phase = .rerecord then [⟨d.tasksDone, now - d.start⟩]
  else []

theorem Watched.ran {cfg : BenchmarkConfig} {now : ℚ} {count : Nat} {d e : Drain.Locals} {polls : List Stamp}
    (watched : Watched cfg.messages count now polls d) (ran : Drain.Ran cfg now count d e) :
    Watched cfg.messages count now (polls ++ stampAt now d) e := by
  have recording := @Watched.record cfg.messages count now polls d
  obtain ⟨recorded, rising, counted, past, stage⟩ := watched
  have quiet (silent : d.phase ≠ .record ∧ d.phase ≠ .rerecord) : polls ++ stampAt now d = polls := by
    simp [stampAt, silent]
  cases ran with
  | before next publishing at_ after =>
    have none : polls = [] ∧ d.timedOut = false := by
      rcases at_ with at_ | at_ | at_ <;> simpa [Stage, at_] using stage
    rw [quiet (by rcases at_ with at_ | at_ | at_ <;> simp [at_])]
    refine ⟨recorded, rising, counted, past, ?_⟩
    rcases after with rfl | rfl | rfl | rfl <;> simp [Stage, none]
  | start next at_ after =>
    have none : polls = [] ∧ d.timedOut = false := by simpa [Stage, at_] using stage
    rw [quiet (by simp [at_])]
    refine ⟨recorded, rising, counted, by simp [none], ?_⟩
    rcases after with rfl | rfl <;> simp [Stage, none]
  | publish next publishing at_ after =>
    have none : polls = [] ∧ d.timedOut = false := by simpa [Stage, at_] using stage
    rw [quiet (by simp [at_])]
    refine ⟨recorded, rising, counted, past, ?_⟩
    rcases after with rfl | rfl <;> simp [Stage, none]
  | poll at_ =>
    have inTime : d.timedOut = false := by simpa [Stage, at_] using stage
    rw [quiet (by simp [at_])]
    exact ⟨recorded, rising, counted, past, inTime, le_rfl, counted⟩
  | record at_ =>
    obtain ⟨inTime, still, most⟩ : d.timedOut = false ∧ d.count ≤ count ∧ ∀ p ∈ polls, p.count ≤ d.count := by
      simpa [Stage, at_] using stage
    obtain ⟨recorded, rising, counted, past⟩ := recording ⟨recorded, rising, counted, past, stage⟩ still most
    rw [stampAt, if_pos at_]
    exact ⟨recorded, rising, counted, past, inTime, polls, _, rfl, rfl⟩
  | first firstMessageTime at_ =>
    rw [quiet (by simp [at_])]
    exact ⟨recorded, rising, counted, past, by simpa [Stage, at_] using stage⟩
  | reached at_ enough =>
    obtain ⟨inTime, before, last, same, read⟩ : d.timedOut = false ∧ ∃ before last, polls = before ++ [last] ∧
        last.count = d.count := by simpa [Stage, at_] using stage
    rw [quiet (by simp [at_])]
    exact ⟨recorded, rising, counted, past, before, last, same, fun _ => ⟨rfl, read ▸ enough⟩⟩
  | expired elapsed at_ few =>
    rw [quiet (by simp [at_])]
    exact ⟨recorded, rising, counted, past, rfl⟩
  | again elapsed printed at_ few =>
    obtain ⟨inTime, _⟩ : d.timedOut = false ∧ ∃ before last, polls = before ++ [last] ∧ last.count = d.count := by
      simpa [Stage, at_] using stage
    rw [quiet (by simp [at_])]
    exact ⟨recorded, rising, counted, past, inTime⟩
  | reread at_ =>
    have late : d.timedOut = true := by simpa [Stage, at_] using stage
    rw [quiet (by simp [at_])]
    exact ⟨recorded, rising, counted, past, late, le_rfl, counted⟩
  | rerecord at_ =>
    obtain ⟨late, still, most⟩ : d.timedOut = true ∧ d.tasksDone ≤ count ∧ ∀ p ∈ polls, p.count ≤ d.tasksDone := by
      simpa [Stage, at_] using stage
    obtain ⟨recorded, rising, counted, past⟩ := recording ⟨recorded, rising, counted, past, stage⟩ still most
    rw [stampAt, if_neg (by simp [at_]), if_pos at_]
    refine ⟨recorded, rising, counted, past, polls, _, rfl, fun inTime => ?_⟩
    rw [show d.timedOut = false from inTime] at late
    cases late
  | takeEnd at_ =>
    rw [quiet (by simp [at_])]
    exact ⟨recorded, rising, counted, past, by simpa [Stage, at_] using stage⟩
  | after next at_ after =>
    have ended : ∃ before last, polls = before ++ [last] ∧
        (d.timedOut = false → d.tasksDone = cfg.messages ∧ cfg.messages ≤ last.count) := by
      rcases at_ with at_ | at_ <;> simpa [Stage, at_] using stage
    rw [quiet (by rcases at_ with at_ | at_ <;> simp [at_])]
    refine ⟨recorded, rising, counted, past, ?_⟩
    rcases after with rfl | rfl | rfl
    · exact ended
    · exact ended
    · trivial

/-- The loop was left after its last poll, which found the total unless the time was over. -/
theorem Watched.left {total count : Nat} {now : ℚ} {polls : List Stamp} {d : Drain.Locals}
    (watched : Watched total count now polls d) (phase : d.phase ∈ [.takeEnd, .stopWorkers, .purge, .done]) :
    ∃ before last, polls = before ++ [last] ∧ (d.timedOut = false → d.tasksDone = total ∧ total ≤ last.count) := by
  have stage := watched.stage
  simp only [List.mem_cons, List.not_mem_nil, or_false] at phase
  rcases phase with phase | phase | phase | phase <;> simpa only [Stage, phase] using stage

theorem stampOf_runner {cfg : BenchmarkConfig} {m : State ℚ σ Drain.Locals} {reply : Reply}
    {count : Nat} {e : Drain.Locals} (ran : Drain.runner cfg m.clock count m.runner reply = some e) :
    (stampOf m (.runner reply : Label ℚ α Reply)).toList = stampAt m.clock m.runner := by
  unfold stampAt
  split_ifs with record rerecord
  · cases reply <;> simp_all [stampOf, Drain.runner]
  · cases reply <;> simp_all [stampOf, Drain.runner]
  · cases reply <;> simp [stampOf, record, rerecord]

theorem run_watched {counter : Counter σ α} {cfg : BenchmarkConfig} {clock : ℚ} {trace : List (Label ℚ α Reply)}
    {s : State ℚ σ Drain.Locals}
    (executed : run (Drain.system counter cfg).step (Drain.init counter cfg clock) trace = some s) :
    Watched cfg.messages (counter.count s.shared) s.clock
      (seen (Drain.system counter cfg).step stampOf (Drain.init counter cfg clock) trace) s.runner := by
  refine run_seen (fun polls m => Watched cfg.messages (counter.count m.shared) m.clock polls m.runner) ?_ ?_ executed
  · intro polls m a n watched stepped
    cases System.step_cases stepped with
    | pass now later => simpa [stampOf] using watched.later le_rfl later
    | work b shared worked =>
      have grown := counter.step_count worked
      simpa [stampOf] using watched.later (by omega) le_rfl
    | runner reply shared d ran =>
      obtain ⟨e, moved, same⟩ := Option.map_eq_some_iff.mp ran
      cases same
      rw [stampOf_runner moved]
      exact watched.ran (Drain.runner_cases moved)
  · refine ⟨⟨?_, fun p _ => rfl, fun _ _ => rfl⟩, ⟨.nil, .nil⟩, by simp, by simp, ?_⟩
    · exact (List.filter_eq_self.mpr (fun _ _ => rfl)).symm
    · by_cases first : Drain.publishFirst cfg = true <;> simp [Stage, Drain.init, Drain.Locals.init, first]

/-! ## Tails -/

/-- The labels of the lines `TAIL_x_TO_100_SECONDS`, in the order of their printing. -/
def tailLabels : List Milestone := [.m95, .m98, .m99, .m995]

/-- A line of a tail is of a milestone that is recorded, as the last one is. -/
theorem tail_printed {milestones : Milestones} {m : Milestone} {v : ℚ}
    (printed : .report s!"TAIL_{m.label}_TO_100_SECONDS" (.decimal 4 v) ∈ printMilestones milestones) :
    m ∈ tailLabels ∧ ∃ last seconds, milestones .m100 = some last ∧ milestones m = some seconds ∧ v = last - seconds := by
  have other (l : Milestone) : s!"MILESTONE_{l.label}_SECONDS" ≠ s!"TAIL_{m.label}_TO_100_SECONDS" := by
    cases l <;> cases m <;> decide
  have own (l : Milestone) (same : s!"TAIL_{l.label}_TO_100_SECONDS" = s!"TAIL_{m.label}_TO_100_SECONDS") : l = m := by
    cases l <;> cases m <;> first | rfl | exact absurd same (by decide)
  rcases List.mem_append.mp printed with line | line
  · obtain ⟨l, _, stamped⟩ := List.mem_filterMap.mp line
    obtain ⟨seconds, _, same⟩ := Option.map_eq_some_iff.mp stamped
    exact absurd (Print.report.inj same).1 (other l)
  · cases ended : milestones .m100 with
    | none => simp [ended] at line
    | some last =>
      simp only [ended] at line
      obtain ⟨l, member, stamped⟩ := List.mem_filterMap.mp line
      obtain ⟨seconds, found, same⟩ := Option.map_eq_some_iff.mp stamped
      obtain ⟨tag, value⟩ := Print.report.inj same
      obtain rfl := own l tag
      exact ⟨member, last, seconds, rfl, found, (Number.decimal.inj value).2.symm⟩

/-- The recorded milestones of two labels, in the order of their fractions. -/
theorem threshold_le {total : Nat} {p q : Milestone × Nat} (here : p ∈ milestoneThresholds total)
    (there : q ∈ milestoneThresholds total) (order : [p.1, q.1].Sublist tailLabels) : p.2 ≤ q.2 := by
  have part {p : Milestone × Nat} (member : p ∈ milestoneThresholds total) (tail : p.1 ∈ tailLabels) :
      ∃ fraction, (p.1, fraction) ∈ milestonePoints ∧ p.2 = thresholdAt total fraction := by
    rcases List.mem_append.mp member with early | last
    · exact (thresholdsOf_mem early).1
    · rw [List.mem_singleton.mp last] at tail
      simp [tailLabels] at tail
  obtain ⟨low, first, lower⟩ := part here (order.subset (by simp))
  obtain ⟨high, second, higher⟩ := part there (order.subset (by simp))
  rw [lower, higher]
  refine thresholdAt_mono total ?_
  obtain ⟨l, _⟩ := p
  obtain ⟨m, _⟩ := q
  have points : ∀ x ∈ milestonePoints, ∀ y ∈ milestonePoints, [x.1, y.1].Sublist tailLabels → x.2 ≤ y.2 := by
    decide +kernel
  exact points _ first _ second order

/-! ## What a drain has recorded -/

/-- What `report_value` and `report_mmap` have recorded and printed of their polls, at
    their end. -/
structure Ended (total : Nat) (polls : List Stamp) (last : Stamp) (d : Drain.Locals) : Prop where
  ends : polls.getLast? = some last
  recorded : ∀ label, (d.milestones label).isSome ↔
    ∃ threshold ≤ last.count, (label, threshold) ∈ milestoneThresholds total
  stamped : ∀ label threshold, (label, threshold) ∈ milestoneThresholds total → threshold ≤ last.count →
    d.milestones label = reached polls threshold
  ordered : ∀ p ∈ milestoneThresholds total, ∀ q ∈ milestoneThresholds total, p.2 ≤ q.2 →
    ∀ early ∈ d.milestones p.1, ∀ late ∈ d.milestones q.1, early ≤ late
  complete : d.timedOut = false → (d.milestones .m100).isSome ∧ d.tasksDone = total
  tails : ∀ (m : Milestone) (v : ℚ), .report s!"TAIL_{m.label}_TO_100_SECONDS" (.decimal 4 v) ∈ printMilestones d.milestones →
    0 ≤ v ∧ 0 ≤ rounded 4 v
  falling : ∀ (l m : Milestone) (v w : ℚ), [l, m].Sublist tailLabels →
    .report s!"TAIL_{l.label}_TO_100_SECONDS" (.decimal 4 v) ∈ printMilestones d.milestones →
    .report s!"TAIL_{m.label}_TO_100_SECONDS" (.decimal 4 w) ∈ printMilestones d.milestones →
    w ≤ v ∧ rounded 4 w ≤ rounded 4 v

theorem Recorded.known {total : Nat} {polls : List Stamp} {thresholds : List (Milestone × Nat)}
    {milestones : Milestones} (recorded : Recorded total polls thresholds milestones) {label : Milestone} {seconds : ℚ}
    (stamped : milestones label = some seconds) :
    ∃ threshold, (label, threshold) ∈ milestoneThresholds total ∧ reached polls threshold = some seconds := by
  by_cases known : ∀ p ∈ milestoneThresholds total, p.1 ≠ label
  · rw [recorded.others label known] at stamped
    cases stamped
  · simp only [not_forall, ne_eq, not_not] at known
    obtain ⟨⟨_, threshold⟩, member, rfl⟩ := known
    exact ⟨threshold, member, (recorded.stamped _ member).symm.trans stamped⟩

theorem Watched.ended {total count : Nat} {now : ℚ} {polls : List Stamp} {d : Drain.Locals}
    (watched : Watched total count now polls d) (phase : d.phase ∈ [.takeEnd, .stopWorkers, .purge, .done]) :
    ∃ last, Ended total polls last d := by
  obtain ⟨before, last, rfl, complete⟩ := watched.left phase
  obtain ⟨recorded, rising, _, _, _⟩ := watched
  have ordered : ∀ p ∈ milestoneThresholds total, ∀ q ∈ milestoneThresholds total, p.2 ≤ q.2 →
      ∀ early ∈ d.milestones p.1, ∀ late ∈ d.milestones q.1, early ≤ late := by
    intro p here q there below early first late second
    rw [recorded.stamped p here] at first
    rw [recorded.stamped q there] at second
    exact rising.reached_mono below first second
  have tail {m : Milestone} {v : ℚ}
      (printed : .report s!"TAIL_{m.label}_TO_100_SECONDS" (.decimal 4 v) ∈ printMilestones d.milestones) :
      ∃ threshold end_ seconds, (m, threshold) ∈ milestoneThresholds total ∧ d.milestones .m100 = some end_ ∧
        d.milestones m = some seconds ∧ v = end_ - seconds := by
    obtain ⟨_, end_, seconds, hundred, found, same⟩ := tail_printed printed
    obtain ⟨threshold, member, _⟩ := recorded.known found
    exact ⟨threshold, end_, seconds, member, hundred, found, same⟩
  refine ⟨last, List.getLast?_concat, fun label => ?_, fun label threshold member _ => recorded.stamped _ member, ordered,
    fun inTime => ?_, fun m v printed => ?_, fun l m v w order first second => ?_⟩
  · constructor
    · intro present
      obtain ⟨seconds, stamped⟩ := Option.isSome_iff_exists.mp present
      obtain ⟨threshold, member, first⟩ := recorded.known stamped
      exact ⟨threshold, (rising.reached_iff threshold).mp (first ▸ rfl), member⟩
    · rintro ⟨threshold, enough, member⟩
      rw [recorded.stamped _ member]
      exact (rising.reached_iff threshold).mpr enough
  · obtain ⟨done, enough⟩ := complete inTime
    have stamped := recorded.stamped _ (m100_mem total)
    exact ⟨stamped ▸ (rising.reached_iff total).mpr enough, done⟩
  · obtain ⟨threshold, end_, seconds, member, hundred, found, rfl⟩ := tail printed
    have below : threshold ≤ total := by
      rcases List.mem_append.mp member with early | last
      · exact (thresholdsOf_mem early).2.2.le
      · rw [(Prod.mk.inj (List.mem_singleton.mp last)).2]
    have order : seconds ≤ end_ := ordered _ member _ (m100_mem total) below _ found _ hundred
    have nonneg : 0 ≤ end_ - seconds := sub_nonneg.mpr order
    exact ⟨nonneg, (rounded_ofNat 4 0).ge.trans (rounded_mono 4 nonneg)⟩
  · obtain ⟨low, end_, early, here, hundred, found, rfl⟩ := tail first
    obtain ⟨high, end', late, there, hundred', found', rfl⟩ := tail second
    obtain rfl : end_ = end' := Option.some.inj (hundred.symm.trans hundred')
    have order : early ≤ late := ordered _ here _ there (threshold_le here there order) _ found _ found'
    have shorter : end_ - late ≤ end_ - early := sub_le_sub_left order _
    exact ⟨shorter, rounded_mono 4 shorter⟩

/-- The thresholds of every total grow strictly, up to the total; and when the loop
    of a drain has ended, however its polls fell, what it has recorded is of these. -/
theorem drain_milestones (counter : Counter σ α) (cfg : BenchmarkConfig) (clock : ℚ) (trace : List (Label ℚ α Reply))
    (s : State ℚ σ Drain.Locals)
    (executed : run (Drain.system counter cfg).step (Drain.init counter cfg clock) trace = some s) :
    (milestoneThresholds cfg.messages).Pairwise (fun p q => p.2 < q.2) ∧
    (1 ≤ cfg.messages → ∀ p ∈ milestoneThresholds cfg.messages, 1 ≤ p.2 ∧ p.2 ≤ cfg.messages) ∧
    (milestoneThresholds cfg.messages).getLast? = some (.m100, cfg.messages) ∧
    (s.runner.phase ∈ [.takeEnd, .stopWorkers, .purge, .done] → ∃ last, Ended cfg.messages
      (seen (Drain.system counter cfg).step stampOf (Drain.init counter cfg clock) trace) last s.runner) :=
  ⟨milestoneThresholds_pairwise cfg.messages, fun some _ member => milestoneThresholds_bounds some member,
    List.getLast?_concat, (run_watched executed).ended⟩

/-- Four messages, of which the first poll finds two completed and the second one all. -/
def twoPolls : List (Label ℚ Unit Reply) :=
  [.runner (.published []), .runner .returned, .runner .returned, .work (), .work (), .pass (1 / 2)] ++
    List.replicate 4 (.runner .returned) ++ [.work (), .work (), .pass (3 / 4)] ++ List.replicate 4 (.runner .returned)

theorem drain_milestones_two : ∃ s last,
    run (Drain.system valueCounter { oneWorker with messages := 4 }).step
      (Drain.init valueCounter { oneWorker with messages := 4 } 0) twoPolls = some s ∧
    Ended 4 [⟨2, 1 / 2⟩, ⟨4, 3 / 4⟩] last s.runner := by
  have executed : (run (Drain.system valueCounter { oneWorker with messages := 4 }).step
      (Drain.init valueCounter { oneWorker with messages := 4 } 0) twoPolls).map (fun s => s.runner.phase) =
      some .takeEnd := by decide +kernel
  obtain ⟨s, reached, phase⟩ := Option.map_eq_some_iff.mp executed
  have polls : seen (Drain.system valueCounter { oneWorker with messages := 4 }).step stampOf
      (Drain.init valueCounter { oneWorker with messages := 4 } 0) twoPolls = [⟨2, 1 / 2⟩, ⟨4, 3 / 4⟩] := by
    decide +kernel
  obtain ⟨last, ended⟩ := (drain_milestones valueCounter { oneWorker with messages := 4 } 0 twoPolls s reached).2.2.2
    (by simp [phase])
  rw [polls] at ended
  exact ⟨s, last, reached, ended⟩

end RepidBench.Milestones
