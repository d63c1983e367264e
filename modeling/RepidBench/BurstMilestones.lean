import RepidBench.BurstRecovery
import RepidBench.Milestones

/-!
What a burst prints of its polls: the snapshots of its queue at 90, 99 and 99.5 percent
and the milestones. However the workers and the polls fall, the snapshots are printed
in this order and once each, exactly as far as the polls got, and every milestone is
within the recovery that is reported.
-/
namespace RepidBench.BurstMilestones
open Transition Cutoff Decimal RunnerOutput RepidBench.Runtime Polling BurstRecovery Milestones

/-! ## The statements of the runner -/

/-- The statements of the runner, one by one. -/
inductive Ran (cfg : BenchmarkConfig) (now : ℚ) (count : Nat) (d : Locals) : Locals → Prop
  | before (next : Phase) (publishing : List PublishPrint) (publishStart : ℚ)
      (at_ : d.phase ∈ [.startWorkers, .waitForConsumers, .publishStart, .publish])
      (after : next ∈ [.waitForConsumers, .publishStart, .publish, .publishEnd, .failed]) :
      Ran cfg now count d { d with phase := next, publishing := publishing, publishStart := publishStart }
  | publishEnd (at_ : d.phase = .publishEnd) :
      Ran cfg now count d { d with phase := .queueAtPublishEnd, publishEnd := now }
  | queueAtPublishEnd (report : QueueReport) (at_ : d.phase = .queueAtPublishEnd) :
      Ran cfg now count d { d with phase := .poll, publishEndQueue := report }
  | poll (at_ : d.phase = .poll) : Ran cfg now count d { d with phase := .record, count := count }
  | record (at_ : d.phase = .record) :
      Ran cfg now count d { d with
        phase := .snapshots snapshotPoints
        thresholds := (recordMilestones d.count (now - d.publishEnd) d.thresholds d.milestones).1
        milestones := (recordMilestones d.count (now - d.publishEnd) d.thresholds d.milestones).2 }
  | snapshot (p : Milestone × ℚ) (points : List (Milestone × ℚ)) (report : QueueReport)
      (at_ : d.phase = .snapshots (p :: points)) (fresh : p.1 ∉ d.queueSnapshots)
      (due : partOf (burstMessages cfg) p.2 ≤ d.count) :
      Ran cfg now count d { d with
        phase := .snapshots points
        polls := d.polls ++ [.queue p.1 report]
        queueSnapshots := p.1 :: d.queueSnapshots }
  | skip (p : Milestone × ℚ) (points : List (Milestone × ℚ)) (at_ : d.phase = .snapshots (p :: points))
      (not_due : ¬ (p.1 ∉ d.queueSnapshots ∧ partOf (burstMessages cfg) p.2 ≤ d.count)) :
      Ran cfg now count d { d with phase := .snapshots points }
  | checked (at_ : d.phase = .snapshots []) : Ran cfg now count d { d with phase := .check }
  | reached (at_ : d.phase = .check) (enough : burstMessages cfg ≤ d.count) :
      Ran cfg now count d { d with phase := .takeEnd }
  | expired (at_ : d.phase = .check) (few : d.count < burstMessages cfg) :
      Ran cfg now count d { d with phase := .takeEnd, timedOut := true }
  | again (elapsed : ℚ) (at_ : d.phase = .check) (few : d.count < burstMessages cfg) :
      Ran cfg now count d { d with phase := .poll, polls := d.polls ++ [.progress d.count elapsed] }
  | takeEnd (next : Phase) (at_ : d.phase = .takeEnd) (after : next ∈ [.purge, .queueAtEnd]) :
      Ran cfg now count d { d with phase := next, stop := now }
  | after (next : Phase) (lastQueue : QueueReport) (tasksDone : Nat)
      (at_ : d.phase ∈ [.purge, .queueAtEnd, .reread, .stopWorkers])
      (after : next ∈ [.queueAtEnd, .reread, .stopWorkers, .done, .failed]) :
      Ran cfg now count d { d with phase := next, lastQueue := lastQueue, tasksDone := tasksDone }

theorem runner_cases {cfg : BenchmarkConfig} {now : ℚ} {count : Nat} {d e : Locals} {reply : Reply}
    (ran : runner cfg now count d reply = some e) : Ran cfg now count d e := by
  unfold runner at ran
  split at ran
  case h_1 phase => cases ran; exact .before _ _ _ (by simp [phase]) (by simp)
  case h_2 phase => cases ran; exact .before _ _ _ (by simp [phase]) (by simp)
  case h_3 phase => cases ran; exact .before _ _ _ (by simp [phase]) (by simp)
  case h_4 phase => cases ran; exact .before _ _ _ (by simp [phase]) (by simp)
  case h_5 phase => cases ran; exact .before _ _ _ (by simp [phase]) (by simp)
  case h_6 phase => cases ran; exact .before _ _ _ (by simp [phase]) (by simp)
  case h_7 phase => cases ran; exact .before _ _ _ (by simp [phase]) (by simp)
  case h_8 phase => cases ran; exact .publishEnd phase
  case h_9 phase => cases ran; exact .queueAtPublishEnd _ phase
  case h_10 phase => cases ran; exact .poll phase
  case h_11 phase => cases ran; exact .record phase
  case h_12 phase => cases ran; exact .checked phase
  case h_13 label threshold points report phase =>
    obtain ⟨⟨fresh, due⟩, made⟩ := Option.ite_none_right_eq_some.mp ran
    cases made
    exact .snapshot (label, threshold) points report phase fresh due
  case h_14 label threshold points phase =>
    obtain ⟨not_due, made⟩ := Option.ite_none_left_eq_some.mp ran
    cases made
    exact .skip (label, threshold) points phase not_due
  case h_15 phase =>
    by_cases enough : burstMessages cfg ≤ d.count
    · rw [if_pos enough] at ran
      cases ran
      exact .reached phase enough
    · rw [if_neg enough] at ran
      by_cases late : cfg.timeLimit ≤ now - d.publishEnd
      · rw [if_pos late] at ran
        cases ran
        exact .expired phase (not_le.mp enough)
      · rw [if_neg late] at ran
        cases ran
        exact .again _ phase (not_le.mp enough)
  case h_16 phase => cases ran; exact .takeEnd _ phase (by split_ifs <;> simp)
  case h_17 phase => cases ran; exact .after _ _ _ (by simp [phase]) (by simp)
  case h_18 phase => cases ran; exact .after _ _ _ (by simp [phase]) (by simp)
  case h_19 phase => cases ran; exact .after _ _ _ (by simp [phase]) (by simp)
  case h_20 phase => cases ran; exact .after _ _ _ (by simp [phase]) (by simp)
  case h_21 phase => cases ran; exact .after _ _ _ (by simp [phase]) (by simp)
  case h_22 => cases ran

/-! ## The snapshots of the queue -/

/-- The labels of the snapshots that were printed. -/
def printedSnapshots (polls : List BurstPoll) : List Milestone :=
  polls.filterMap (fun poll => match poll with
    | .queue label _ => some label
    | .progress _ _ => none)

/-- Some poll got to the part of a snapshot. -/
def isReached (total : Nat) (polls : List Stamp) (p : Milestone × ℚ) : Bool := (reached polls (partOf total p.2)).isSome

/-- The labels, of some snapshots, that some polls got to. -/
def dueSnapshots (total : Nat) (polls : List Stamp) (points : List (Milestone × ℚ)) : List Milestone :=
  (points.filter (isReached total polls)).map Prod.fst

theorem partOf_mono (total : Nat) : Monotone (partOf total) := fun _ _ below =>
  Int.toNat_le_toNat (roundHalfEven_mono (mul_le_mul_of_nonneg_left below (Nat.cast_nonneg total)))

theorem partOf_le {total : Nat} {fraction : ℚ} (part : fraction ≤ 1) : partOf total fraction ≤ total := by
  have whole : partOf total 1 = total := by
    rw [partOf, mul_one, ← Int.cast_natCast, roundHalfEven_int, Int.toNat_natCast]
  exact (partOf_mono total part).trans_eq whole

theorem isReached_snoc {total : Nat} {polls : List Stamp} {p : Milestone × ℚ} (before : isReached total polls p = true)
    (last : Stamp) : isReached total (polls ++ [last]) p = true := by
  unfold isReached at *
  rw [reached_snoc, Option.isSome_or, before, Bool.true_or]

/-- What got to a part got to every smaller one. -/
theorem isReached_mono {total : Nat} {polls : List Stamp} {p q : Milestone × ℚ} (below : p.2 ≤ q.2)
    (far : isReached total polls q = true) : isReached total polls p = true := by
  simp only [isReached, reached, Option.isSome_map, List.find?_isSome, decide_eq_true_eq] at far ⊢
  obtain ⟨stamp, member, enough⟩ := far
  exact ⟨stamp, member, (partOf_mono total below).trans enough⟩

theorem snapshotPoints_sorted : snapshotPoints.Pairwise (fun p q => p.1 ≠ q.1 ∧ p.2 ≤ q.2) := by decide +kernel

/-- Of a loop over the snapshots that is at `p`: it is after those done, and before the
    others. -/
theorem at_point {done points : List (Milestone × ℚ)} {p : Milestone × ℚ} (whole : done ++ p :: points = snapshotPoints) :
    (∀ q ∈ done, q.1 ≠ p.1) ∧ ∀ q ∈ points, p.1 ≠ q.1 ∧ p.2 ≤ q.2 := by
  have sorted := snapshotPoints_sorted
  rw [← whole, List.pairwise_append, List.pairwise_cons] at sorted
  exact ⟨fun q member => (sorted.2.2 q member p List.mem_cons_self).1, sorted.2.1.1⟩

section
variable {total : Nat} {before : List Stamp} {last : Stamp} (rising : Rising (before ++ [last]))
  {done points : List (Milestone × ℚ)} {p : Milestone × ℚ} (whole : done ++ p :: points = snapshotPoints)
  {printed : List Milestone}
  (snaps : printed = dueSnapshots total (before ++ [last]) done ++ dueSnapshots total before (p :: points))
include rising whole snaps

/-- A snapshot that is due and was not printed comes after all that were. -/
theorem printed_snapshot (fresh : p.1 ∉ printed) (due : partOf total p.2 ≤ last.count) :
    printed ++ [p.1] = dueSnapshots total (before ++ [last]) (done ++ [p]) ++ dueSnapshots total before points := by
  have now : isReached total (before ++ [last]) p = true := (rising.reached_iff _).mpr due
  have first : isReached total before p = false := by
    by_contra early
    refine fresh (snaps ▸ List.mem_append_right _ ?_)
    exact List.mem_map_of_mem (List.mem_filter.mpr ⟨List.mem_cons_self, by simpa using early⟩)
  have later : points.filter (isReached total before) = [] := by
    refine List.filter_eq_nil_iff.mpr (fun q member far => ?_)
    rw [isReached_mono ((at_point whole).2 q member).2 far] at first
    cases first
  rw [snaps]
  simp only [dueSnapshots, List.filter_append, List.filter_cons, List.filter_nil, first, now, later, if_true, List.map_append,
    List.map_cons, List.map_nil, List.append_nil, Bool.false_eq_true, if_false]

/-- A snapshot that is passed over was printed, or is not due. -/
theorem passed_snapshot (not_due : ¬ (p.1 ∉ printed ∧ partOf total p.2 ≤ last.count)) :
    printed = dueSnapshots total (before ++ [last]) (done ++ [p]) ++ dueSnapshots total before points := by
  have same : isReached total (before ++ [last]) p = isReached total before p := by
    by_cases due : partOf total p.2 ≤ last.count
    · have old : p.1 ∈ printed := by
        by_contra fresh
        exact not_due ⟨fresh, due⟩
      rw [snaps] at old
      rcases List.mem_append.mp old with early | late
      · obtain ⟨q, inDone, label⟩ := List.mem_map.mp early
        exact absurd label ((at_point whole).1 q (List.mem_filter.mp inDone).1)
      · obtain ⟨q, inRest, label⟩ := List.mem_map.mp late
        obtain ⟨member, reached⟩ := List.mem_filter.mp inRest
        rcases List.mem_cons.mp member with rfl | inPoints
        · rw [reached, isReached_snoc reached]
        · exact absurd label.symm ((at_point whole).2 q inPoints).1
    · have no : isReached total (before ++ [last]) p = false := by
        by_contra far
        rw [Bool.not_eq_false] at far
        exact due ((rising.reached_iff _).mp far)
      have earlier : isReached total before p = false := by
        by_contra far
        rw [isReached_snoc (by simpa using far)] at no
        cases no
      rw [no, earlier]
  rw [snaps]
  cases early : isReached total before p
  · rw [early] at same
    simp only [dueSnapshots, List.filter_append, List.filter_cons, List.filter_nil, early, same, Bool.false_eq_true, if_false,
      List.append_nil]
  · rw [early] at same
    simp only [dueSnapshots, List.filter_append, List.filter_cons, List.filter_nil, early, same, if_true, List.map_append,
      List.map_cons, List.map_nil, List.append_assoc, List.singleton_append]

end

/-! ## Every run -/

/-- The snapshots that the loop of one poll has left. -/
def pending : Phase → List (Milestone × ℚ)
  | .snapshots points => points
  | _ => []

/-- What the loop of a burst knows of its polls, where it stands. -/
def Stage (total count : Nat) (now : ℚ) (polls : List Stamp) (d : Locals) : Prop :=
  match d.phase with
  | .startWorkers | .waitForConsumers | .publishStart | .publish | .publishEnd => polls = [] ∧ d.timedOut = false
  | .queueAtPublishEnd | .poll => d.timedOut = false ∧ d.publishEnd ≤ now
  | .record => d.timedOut = false ∧ d.publishEnd ≤ now ∧ d.count ≤ count ∧ ∀ p ∈ polls, p.count ≤ d.count
  | .snapshots _ | .check => d.timedOut = false ∧ d.publishEnd ≤ now ∧
      ∃ before last, polls = before ++ [last] ∧ last.count = d.count
  | .takeEnd => ∃ before last, polls = before ++ [last] ∧ (d.timedOut = false ↔ total ≤ last.count)
  | .purge | .queueAtEnd | .reread | .stopWorkers | .done => (∃ before last, polls = before ++ [last] ∧
      (d.timedOut = false ↔ total ≤ last.count)) ∧ ∀ p ∈ polls, p.elapsed ≤ d.stop - d.publishEnd
  | .failed => True

/-- The polls so far rise, in count up to `count` and in time from the end of the burst
    up to `now`; what the loop has recorded is of them, and so is what it has printed. -/
structure Watched (total count : Nat) (now : ℚ) (polls : List Stamp) (d : Locals) : Prop where
  recorded : Recorded total polls d.thresholds d.milestones
  rising : Rising polls
  counted : ∀ p ∈ polls, p.count ≤ count
  past : ∀ p ∈ polls, 0 ≤ p.elapsed ∧ p.elapsed ≤ now - d.publishEnd
  printed : printedSnapshots d.polls = d.queueSnapshots.reverse
  snaps : ∃ done, done ++ pending d.phase = snapshotPoints ∧
    d.queueSnapshots.reverse = dueSnapshots total polls done ++ dueSnapshots total polls.dropLast (pending d.phase)
  stage : Stage total count now polls d

theorem Stage.later {total count count' : Nat} {now now' : ℚ} {polls : List Stamp} {d : Locals}
    (stage : Stage total count now polls d) (grown : count ≤ count') (passed : now ≤ now') :
    Stage total count' now' polls d := by
  cases phase : d.phase
  case record =>
    obtain ⟨inTime, since, still, most⟩ : d.timedOut = false ∧ d.publishEnd ≤ now ∧ d.count ≤ count ∧
        ∀ p ∈ polls, p.count ≤ d.count := by simpa only [Stage, phase] using stage
    simpa only [Stage, phase] using ⟨inTime, since.trans passed, still.trans grown, most⟩
  case queueAtPublishEnd =>
    obtain ⟨inTime, since⟩ : d.timedOut = false ∧ d.publishEnd ≤ now := by simpa only [Stage, phase] using stage
    simpa only [Stage, phase] using ⟨inTime, since.trans passed⟩
  case poll =>
    obtain ⟨inTime, since⟩ : d.timedOut = false ∧ d.publishEnd ≤ now := by simpa only [Stage, phase] using stage
    simpa only [Stage, phase] using ⟨inTime, since.trans passed⟩
  case snapshots points =>
    obtain ⟨inTime, since, last⟩ : d.timedOut = false ∧ d.publishEnd ≤ now ∧
        ∃ before last, polls = before ++ [last] ∧ last.count = d.count := by simpa only [Stage, phase] using stage
    simpa only [Stage, phase] using ⟨inTime, since.trans passed, last⟩
  case check =>
    obtain ⟨inTime, since, last⟩ : d.timedOut = false ∧ d.publishEnd ≤ now ∧
        ∃ before last, polls = before ++ [last] ∧ last.count = d.count := by simpa only [Stage, phase] using stage
    simpa only [Stage, phase] using ⟨inTime, since.trans passed, last⟩
  case failed => simp only [Stage, phase]
  all_goals simpa only [Stage, phase] using stage

/-- The workers and the clock take nothing back. -/
theorem Watched.later {total count count' : Nat} {now now' : ℚ} {polls : List Stamp} {d : Locals}
    (watched : Watched total count now polls d) (grown : count ≤ count') (passed : now ≤ now') :
    Watched total count' now' polls d :=
  ⟨watched.recorded, watched.rising, fun p member => (watched.counted p member).trans grown,
    fun p member => ⟨(watched.past p member).1, (watched.past p member).2.trans (sub_le_sub_right passed _)⟩,
    watched.printed, watched.snaps, watched.stage.later grown passed⟩

/-- The poll that a statement of the runner is. -/
def stampAt (now : ℚ) (d : Locals) : List Stamp := if d.phase = .record then [⟨d.count, now - d.publishEnd⟩] else []

theorem Watched.ran {cfg : BenchmarkConfig} {now : ℚ} {count : Nat} {d e : Locals} {polls : List Stamp}
    (watched : Watched (burstMessages cfg) count now polls d) (ran : Ran cfg now count d e) :
    Watched (burstMessages cfg) count now (polls ++ stampAt now d) e := by
  obtain ⟨recorded, rising, counted, past, printed, snaps, stage⟩ := watched
  have quiet (silent : d.phase ≠ .record) : polls ++ stampAt now d = polls := by
    rw [stampAt, if_neg silent, List.append_nil]
  cases ran with
  | before next publishing publishStart at_ after =>
    simp only [List.mem_cons, List.not_mem_nil, or_false] at at_ after
    have none : polls = [] ∧ d.timedOut = false := by
      rcases at_ with at_ | at_ | at_ | at_ <;> simpa only [Stage, at_] using stage
    have noPending : pending d.phase = [] := by rcases at_ with at_ | at_ | at_ | at_ <;> rw [at_] <;> rfl
    rw [quiet (by rcases at_ with at_ | at_ | at_ | at_ <;> simp [at_])]
    rw [noPending] at snaps
    refine ⟨recorded, rising, counted, past, printed, ?_, ?_⟩
    · rcases after with rfl | rfl | rfl | rfl | rfl <;> exact snaps
    · rcases after with rfl | rfl | rfl | rfl | rfl <;> simp [Stage, none]
  | publishEnd at_ =>
    have none : polls = [] ∧ d.timedOut = false := by simpa only [Stage, at_] using stage
    rw [quiet (by simp [at_])]
    rw [at_] at snaps
    exact ⟨recorded, rising, counted, by simp [none], printed, snaps, none.2, le_rfl⟩
  | queueAtPublishEnd report at_ =>
    have since : d.timedOut = false ∧ d.publishEnd ≤ now := by simpa only [Stage, at_] using stage
    rw [quiet (by simp [at_])]
    rw [at_] at snaps
    exact ⟨recorded, rising, counted, past, printed, snaps, since⟩
  | poll at_ =>
    have since : d.timedOut = false ∧ d.publishEnd ≤ now := by simpa only [Stage, at_] using stage
    rw [quiet (by simp [at_])]
    rw [at_] at snaps
    exact ⟨recorded, rising, counted, past, printed, snaps, since.1, since.2, le_rfl, counted⟩
  | record at_ =>
    obtain ⟨inTime, since, still, most⟩ : d.timedOut = false ∧ d.publishEnd ≤ now ∧ d.count ≤ count ∧
        ∀ p ∈ polls, p.count ≤ d.count := by simpa only [Stage, at_] using stage
    obtain ⟨done, whole, printedSoFar⟩ := snaps
    have noPending : pending d.phase = [] := by rw [at_]; rfl
    rw [noPending, List.append_nil] at whole
    rw [noPending, whole] at printedSoFar
    rw [stampAt, if_pos at_]
    refine ⟨recorded.record ⟨d.count, now - d.publishEnd⟩, rising.snoc most (fun q member => (past q member).2), ?_, ?_,
      printed, ⟨[], rfl, ?_⟩, inTime, since, polls, ⟨d.count, now - d.publishEnd⟩, rfl, rfl⟩
    · intro p member
      rcases List.mem_append.mp member with old | new
      · exact counted p old
      · exact (List.mem_singleton.mp new) ▸ still
    · intro p member
      rcases List.mem_append.mp member with old | new
      · exact past p old
      · rw [List.mem_singleton.mp new]
        exact ⟨sub_nonneg.mpr since, le_rfl⟩
    · rw [printedSoFar, List.dropLast_concat]
      exact List.append_nil _
  | snapshot p points report at_ fresh due =>
    obtain ⟨inTime, since, before, last, rfl, same⟩ : d.timedOut = false ∧ d.publishEnd ≤ now ∧
        ∃ before last, polls = before ++ [last] ∧ last.count = d.count := by simpa only [Stage, at_] using stage
    obtain ⟨done, whole, printedSoFar⟩ := snaps
    rw [at_, pending, List.dropLast_concat] at printedSoFar
    rw [at_, pending] at whole
    rw [quiet (by simp [at_])]
    refine ⟨recorded, rising, counted, past, ?_, ⟨done ++ [p], ?_, ?_⟩, inTime, since, before, last, rfl, same⟩
    · rw [printedSnapshots, List.filterMap_append, ← printedSnapshots, printed, List.reverse_cons]
      rfl
    · rw [pending, List.append_assoc]
      exact whole
    · rw [List.reverse_cons, pending, List.dropLast_concat]
      exact printed_snapshot rising whole printedSoFar (by simpa using fresh) (same ▸ due)
  | skip p points at_ not_due =>
    obtain ⟨inTime, since, before, last, rfl, same⟩ : d.timedOut = false ∧ d.publishEnd ≤ now ∧
        ∃ before last, polls = before ++ [last] ∧ last.count = d.count := by simpa only [Stage, at_] using stage
    obtain ⟨done, whole, printedSoFar⟩ := snaps
    rw [at_, pending, List.dropLast_concat] at printedSoFar
    rw [at_, pending] at whole
    rw [quiet (by simp [at_])]
    refine ⟨recorded, rising, counted, past, printed, ⟨done ++ [p], ?_, ?_⟩, inTime, since, before, last, rfl, same⟩
    · rw [pending, List.append_assoc]
      exact whole
    · rw [pending, List.dropLast_concat]
      exact passed_snapshot rising whole printedSoFar (by simpa [same] using not_due)
  | checked at_ =>
    have last : d.timedOut = false ∧ d.publishEnd ≤ now ∧ ∃ before last, polls = before ++ [last] ∧ last.count = d.count := by
      simpa only [Stage, at_] using stage
    rw [quiet (by simp [at_])]
    rw [at_] at snaps
    exact ⟨recorded, rising, counted, past, printed, snaps, last⟩
  | reached at_ enough =>
    obtain ⟨inTime, since, before, last, rfl, same⟩ : d.timedOut = false ∧ d.publishEnd ≤ now ∧
        ∃ before last, polls = before ++ [last] ∧ last.count = d.count := by simpa only [Stage, at_] using stage
    rw [quiet (by simp [at_])]
    rw [at_] at snaps
    exact ⟨recorded, rising, counted, past, printed, snaps, before, last, rfl, by simp [inTime, same, enough]⟩
  | expired at_ few =>
    obtain ⟨inTime, since, before, last, rfl, same⟩ : d.timedOut = false ∧ d.publishEnd ≤ now ∧
        ∃ before last, polls = before ++ [last] ∧ last.count = d.count := by simpa only [Stage, at_] using stage
    rw [quiet (by simp [at_])]
    rw [at_] at snaps
    exact ⟨recorded, rising, counted, past, printed, snaps, before, last, rfl, by simp [same, few]⟩
  | again elapsed at_ few =>
    obtain ⟨inTime, since, before, last, rfl, same⟩ : d.timedOut = false ∧ d.publishEnd ≤ now ∧
        ∃ before last, polls = before ++ [last] ∧ last.count = d.count := by simpa only [Stage, at_] using stage
    rw [quiet (by simp [at_])]
    rw [at_] at snaps
    refine ⟨recorded, rising, counted, past, ?_, snaps, inTime, since⟩
    rw [printedSnapshots, List.filterMap_append, ← printedSnapshots, printed]
    exact List.append_nil _
  | takeEnd next at_ after =>
    have last : ∃ before last, polls = before ++ [last] ∧ (d.timedOut = false ↔ burstMessages cfg ≤ last.count) := by
      simpa only [Stage, at_] using stage
    simp only [List.mem_cons, List.not_mem_nil, or_false] at after
    rw [quiet (by simp [at_])]
    rw [at_] at snaps
    rcases after with rfl | rfl
    · exact ⟨recorded, rising, counted, past, printed, snaps, last, fun p member => (past p member).2⟩
    · exact ⟨recorded, rising, counted, past, printed, snaps, last, fun p member => (past p member).2⟩
  | after next lastQueue tasksDone at_ after =>
    simp only [List.mem_cons, List.not_mem_nil, or_false] at at_ after
    have ended : (∃ before last, polls = before ++ [last] ∧ (d.timedOut = false ↔ burstMessages cfg ≤ last.count)) ∧
        ∀ p ∈ polls, p.elapsed ≤ d.stop - d.publishEnd := by
      rcases at_ with at_ | at_ | at_ | at_ <;> simpa only [Stage, at_] using stage
    have noPending : pending d.phase = [] := by rcases at_ with at_ | at_ | at_ | at_ <;> rw [at_] <;> rfl
    rw [quiet (by rcases at_ with at_ | at_ | at_ | at_ <;> simp [at_])]
    rw [noPending] at snaps
    refine ⟨recorded, rising, counted, past, printed, ?_, ?_⟩
    · rcases after with rfl | rfl | rfl | rfl | rfl <;> exact snaps
    · rcases after with rfl | rfl | rfl | rfl | rfl <;> first | exact ended | trivial

variable {σ α : Type}

/-- A poll, seen when its count is handed to `_record_milestones`. -/
def stampOf (m : State ℚ σ Locals) : Label ℚ α Reply → Option Stamp
  | .runner .returned => if m.runner.phase = .record then some ⟨m.runner.count, m.clock - m.runner.publishEnd⟩ else none
  | _ => none

theorem stampOf_runner {cfg : BenchmarkConfig} {m : State ℚ σ Locals} {reply : Reply} {count : Nat} {e : Locals}
    (ran : runner cfg m.clock count m.runner reply = some e) :
    (stampOf m (.runner reply : Label ℚ α Reply)).toList = stampAt m.clock m.runner := by
  by_cases record : m.runner.phase = .record
  · cases reply <;> simp_all [stampOf, stampAt, runner]
  · cases reply <;> simp [stampOf, stampAt, record]

theorem run_watched {counter : Counter σ α} {cfg : BenchmarkConfig} {clock : ℚ} {trace : List (Label ℚ α Reply)}
    {s : State ℚ σ Locals} (executed : run (system counter cfg).step (init counter cfg clock) trace = some s) :
    Watched (burstMessages cfg) (counter.count s.shared) s.clock
      (seen (system counter cfg).step stampOf (init counter cfg clock) trace) s.runner := by
  refine run_seen (fun polls m => Watched (burstMessages cfg) (counter.count m.shared) m.clock polls m.runner) ?_ ?_ executed
  · intro polls m a n watched stepped
    cases System.step_cases stepped with
    | pass now later => simpa [stampOf] using watched.later le_rfl later
    | work b shared worked =>
      have grown := counter.step_count worked
      simpa [stampOf] using watched.later (by omega) le_rfl
    | runner reply shared d ran =>
      obtain ⟨e, moved, same⟩ := Option.map_eq_some_iff.mp ran
      cases same
      rw [stampOf_runner moved]
      exact watched.ran (runner_cases moved)
  · refine ⟨⟨?_, fun p _ => rfl, fun _ _ => rfl⟩, ⟨.nil, .nil⟩, by simp, by simp, rfl, ⟨snapshotPoints, rfl, rfl⟩, rfl, rfl⟩
    exact (List.filter_eq_self.mpr (fun _ _ => rfl)).symm

/-! ## What a burst has printed -/

/-- What a burst has printed of its polls, of which `last` is the last one. -/
structure Printed (b : Burst) (polls : List Stamp) (last : Stamp) : Prop where
  ends : polls.getLast? = some last
  status : b.status = "ok" ↔ b.messages ≤ last.count
  snapshots : printedSnapshots b.polls =
    (snapshotPoints.filter (fun p => partOf b.messages p.2 ≤ last.count)).map Prod.fst
  complete : b.status = "ok" → printedSnapshots b.polls = [.m90, .m99, .m995] ∧ (b.milestones .m100).isSome
  recorded : ∀ label, (b.milestones label).isSome ↔
    ∃ threshold ≤ last.count, (label, threshold) ∈ milestoneThresholds b.messages
  within : ∀ label, ∀ seconds ∈ b.milestones label, 0 ≤ seconds ∧ seconds ≤ b.recoverySeconds
  ordered : ∀ p ∈ milestoneThresholds b.messages, ∀ q ∈ milestoneThresholds b.messages, p.2 ≤ q.2 →
    ∀ early ∈ b.milestones p.1, ∀ late ∈ b.milestones q.1, early ≤ late

theorem snapshotPoints_part : ∀ p ∈ snapshotPoints, p.2 ≤ 1 := by norm_num [snapshotPoints]

theorem Watched.ended {total count : Nat} {now : ℚ} {polls : List Stamp} {d : Locals}
    (watched : Watched total count now polls d) (phase : d.phase = .done) : (∃ before last, polls = before ++ [last] ∧
      (d.timedOut = false ↔ total ≤ last.count)) ∧ ∀ p ∈ polls, p.elapsed ≤ d.stop - d.publishEnd := by
  have stage := watched.stage
  simpa only [Stage, phase] using stage

theorem Watched.output {cfg : BenchmarkConfig} {count : Nat} {now : ℚ} {polls : List Stamp} {d : Locals} {b : Burst}
    (watched : Watched (burstMessages cfg) count now polls d) (out : d.output cfg = some (.burst b)) :
    ∃ last, Printed b polls last := by
  obtain ⟨done, same⟩ := Option.ite_none_right_eq_some.mp out
  cases same
  obtain ⟨⟨before, last, rfl, inTime⟩, within⟩ := watched.ended done
  obtain ⟨recorded, rising, _, past, printed, snaps, _⟩ := watched
  have ok : (if d.timedOut then "timeout" else "ok") = "ok" ↔ burstMessages cfg ≤ last.count := by
    rw [← inTime]
    cases d.timedOut <;> simp
  have snapshots : printedSnapshots d.polls =
      (snapshotPoints.filter (fun p => partOf (burstMessages cfg) p.2 ≤ last.count)).map Prod.fst := by
    obtain ⟨points, whole, labels⟩ := snaps
    have noPending : pending d.phase = [] := by rw [done]; rfl
    rw [noPending, List.append_nil] at whole
    have same : ∀ p ∈ snapshotPoints, isReached (burstMessages cfg) (before ++ [last]) p =
        decide (partOf (burstMessages cfg) p.2 ≤ last.count) := by
      intro p _
      rw [Bool.eq_iff_iff, decide_eq_true_iff]
      exact rising.reached_iff _
    rw [printed, labels, noPending, whole, dueSnapshots, List.filter_congr same]
    exact List.append_nil _
  have ordered : ∀ p ∈ milestoneThresholds (burstMessages cfg), ∀ q ∈ milestoneThresholds (burstMessages cfg), p.2 ≤ q.2 →
      ∀ early ∈ d.milestones p.1, ∀ late ∈ d.milestones q.1, early ≤ late := by
    intro p here q there below early first late second
    rw [recorded.stamped p here] at first
    rw [recorded.stamped q there] at second
    exact rising.reached_mono below first second
  refine ⟨last, List.getLast?_concat, ok, snapshots, fun succeeded => ⟨?_, ?_⟩, fun label => ?_,
    fun label seconds stamped => ?_, ordered⟩
  · have enough := ok.mp succeeded
    have due : ∀ p ∈ snapshotPoints, decide (partOf (burstMessages cfg) p.2 ≤ last.count) = true := fun p member =>
      decide_eq_true ((partOf_le (snapshotPoints_part p member)).trans enough)
    rw [snapshots, List.filter_eq_self.mpr due]
    rfl
  · show (d.milestones .m100).isSome
    rw [recorded.stamped _ (m100_mem _)]
    exact (rising.reached_iff _).mpr (ok.mp succeeded)
  · constructor
    · intro present
      obtain ⟨seconds, stamped⟩ := Option.isSome_iff_exists.mp present
      obtain ⟨threshold, member, first⟩ := recorded.known stamped
      exact ⟨threshold, (rising.reached_iff threshold).mp (first ▸ rfl), member⟩
    · rintro ⟨threshold, enough, member⟩
      show (d.milestones label).isSome
      rw [recorded.stamped _ member]
      exact (rising.reached_iff threshold).mpr enough
  · obtain ⟨threshold, _, first⟩ := recorded.known stamped
    obtain ⟨poll, found, rfl⟩ := Option.map_eq_some_iff.mp first
    have member := List.mem_of_find?_eq_some found
    exact ⟨(past poll member).1, within poll member⟩

/-- Of every burst that returns: its status is of its last poll, and so are the
    snapshots that it has printed, in their order and once each, all of them when it
    did not time out; its milestones are those that this poll got to, each within the
    recovery and none before one of a smaller part. -/
theorem burst_milestones (counter : Counter σ α) (cfg : BenchmarkConfig) (clock : ℚ) (trace : List (Label ℚ α Reply))
    (s : State ℚ σ Locals) (b : Burst)
    (executed : run (system counter cfg).step (init counter cfg clock) trace = some s)
    (returned : s.runner.output cfg = some (.burst b)) :
    ∃ last, Printed b (seen (system counter cfg).step stampOf (init counter cfg clock) trace) last :=
  (run_watched executed).output returned

/-- Two messages, the second of which is completed only when the first poll is over. -/
def lateBurst : List (Label ℚ Unit Reply) :=
  List.replicate 3 (.runner .returned) ++ [.runner (.published []), .runner .returned, .runner (.metrics (.failed "")),
    .work (), .pass (1 / 2)] ++ List.replicate 7 (.runner .returned) ++ [.work (), .pass (3 / 4)] ++
    List.replicate 2 (.runner .returned) ++ List.replicate 3 (.runner (.metrics (.failed ""))) ++
    List.replicate 3 (.runner .returned) ++ [.runner (.metrics (.failed "")), .runner .returned, .runner .returned]

theorem burst_milestones_late : ∃ s b last,
    run (system valueCounter oneWorker).step (init valueCounter oneWorker 0) lateBurst = some s ∧
    s.runner.output oneWorker = some (.burst b) ∧ Printed b [⟨1, 1 / 2⟩, ⟨2, 3 / 4⟩] last := by
  have executed : (run (system valueCounter oneWorker).step (init valueCounter oneWorker 0) lateBurst).map
      (fun s => s.runner.phase) = some .done := by decide +kernel
  obtain ⟨s, reached, phase⟩ := Option.map_eq_some_iff.mp executed
  have polls : seen (system valueCounter oneWorker).step stampOf (init valueCounter oneWorker 0) lateBurst =
      [⟨1, 1 / 2⟩, ⟨2, 3 / 4⟩] := by decide +kernel
  obtain ⟨b, returned⟩ : ∃ b, s.runner.output oneWorker = some (.burst b) := ⟨_, if_pos phase⟩
  obtain ⟨last, printed⟩ := burst_milestones valueCounter oneWorker 0 lateBurst s b reached returned
  rw [polls] at printed
  exact ⟨s, b, last, reached, returned, printed⟩

end RepidBench.BurstMilestones
