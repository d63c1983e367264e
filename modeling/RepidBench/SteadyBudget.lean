import RepidBench.Orchestrator

/-!
The source budget of a steady run. The floor of `steady_message_floor` covers the
window at the base rate; a calibrated count is for the target duration, and covers
the window at the measured rate only as far as that duration goes, or when the base
rate with its margin is the higher one.
-/
namespace RepidBench.SteadyBudget
open Decimal Dictionaries Sessions Specs Orchestrator

/-! ## Explicit counts -/

/-- The count that `--messages-per-framework` gives for a benchmark: the last one. -/
def givenFor (o : Options) (name : String) : Option ℤ :=
  if name ∈ o.frameworks then o.messagesPerFramework.reverse.lookup name else none

theorem fwOverrides_lookup (o : Options) (name : String) : o.fwOverrides.lookup name = givenFor o name := by
  unfold Options.fwOverrides givenFor
  induction o.messagesPerFramework using List.reverseRecOn with
  | nil => simp
  | append_singleton given entry ih =>
    rw [List.foldl_append, List.foldl_cons, List.foldl_nil, List.reverse_append, List.reverse_singleton,
      List.singleton_append, lookup_cons]
    by_cases selected : entry.1 ∈ o.frameworks
    · rw [if_pos selected, lookup_assign, ih]
      by_cases same : name = entry.1
      · rw [if_pos same, if_pos same, if_pos (same ▸ selected)]
      · rw [if_neg same, if_neg same]
    · rw [if_neg selected, ih]
      by_cases same : name = entry.1
      · rw [if_neg (same ▸ selected), if_neg (same ▸ selected)]
      · rw [if_neg same]

/-! ## The budget -/

theorem recommended_ge (throughput targetDuration : ℚ) :
    throughput * targetDuration - 250 ≤ (recommended throughput targetDuration : ℚ) := by
  have near := roundHalfEven_ge (throughput * targetDuration / 500)
  have most : roundHalfEven (throughput * targetDuration / 500) * 500 ≤ recommended throughput targetDuration :=
    le_max_right _ _
  have cast : (roundHalfEven (throughput * targetDuration / 500) : ℚ) * 500 ≤ recommended throughput targetDuration := by
    exact_mod_cast most
  linarith

/-- The floor of a window is at least what the base rate needs for it, with the margin. -/
theorem steadyMessageFloor_ge {name : String} {spec : BenchmarkSpec} {sleepTime window : ℚ} {base : Nat}
    (found : getSpec name = some spec) (steady : spec.mode = .steady) (known : baseCount spec sleepTime = some base)
    (nonneg : 0 ≤ window) :
    ∃ least, steadyMessageFloor name sleepTime window = some least ∧ (base : ℚ) / 15 * window * 1.25 ≤ least := by
  have same : steadyMessageFloor name sleepTime window =
      some (max 1000 (⌈(base : ℚ) * max window 0 / defaultTargetDuration * steadyMessageMargin / 1000⌉ * 1000)) := by
    simp [steadyMessageFloor, found, steady, known]
  refine ⟨_, same, ?_⟩
  have up := Int.le_ceil ((base : ℚ) * max window 0 / defaultTargetDuration * steadyMessageMargin / 1000)
  have cast : (⌈(base : ℚ) * max window 0 / defaultTargetDuration * steadyMessageMargin / 1000⌉ : ℚ) * 1000 ≤
      ((max 1000 (⌈(base : ℚ) * max window 0 / defaultTargetDuration * steadyMessageMargin / 1000⌉ * 1000) : ℤ) : ℚ) := by
    exact_mod_cast le_max_right _ _
  rw [max_eq_left nonneg] at up cast ⊢
  unfold defaultTargetDuration steadyMessageMargin at up cast ⊢
  linarith

/-- A steady benchmark has counts of its own wherever its framework has base counts. -/
theorem steady_table {name : String} {spec : BenchmarkSpec} {sleepTime : ℚ} {base : Nat}
    (found : getSpec name = some spec) (steady : spec.mode = .steady) (known : baseCount spec sleepTime = some base) :
    ∃ count, (spec.messages.getD []).lookup sleepTime = some count := by
  have keys : ∀ spec ∈ specs, spec.mode = .steady →
      ((getSpec spec.framework.name).elim [] (fun base => base.messages.getD [])).map Prod.fst =
        (spec.messages.getD []).map Prod.fst := by decide +kernel
  have own := keys spec (List.mem_of_find?_eq_some found) steady
  obtain ⟨other, framework, present⟩ := Option.bind_eq_some_iff.mp known
  rw [framework, Option.elim_some] at own
  obtain ⟨entry, member, same⟩ := List.lookup_isSome_iff.mp (Option.isSome_of_eq_some present)
  have listed : entry.1 ∈ (spec.messages.getD []).map Prod.fst := own ▸ List.mem_map_of_mem member
  obtain ⟨count, inTable, key⟩ := List.mem_map.mp listed
  have found := List.lookup_isSome_iff.mpr ⟨count, inTable, by rw [key]; exact same⟩
  exact Option.isSome_iff_exists.mp found

/-- What `messages_for` returns when no count is given: what is calibrated or in the
    table, raised to the floor. -/
theorem messagesFor_budget {o : Options} (calibrated : Option Counts) {name : String} {spec : BenchmarkSpec}
    {sleepTime : ℚ} {base : Nat} (ungiven : givenFor o name = none) (implicit : o.messages = none)
    (found : getSpec name = some spec) (steady : spec.mode = .steady) (known : baseCount spec sleepTime = some base)
    (nonneg : 0 ≤ o.steadyWarmupSeconds + o.steadyMeasurementSeconds) :
    ∃ count, messagesFor o calibrated name sleepTime = some count ∧
      (base : ℚ) / 15 * (o.steadyWarmupSeconds + o.steadyMeasurementSeconds) * 1.25 ≤ count ∧
      ∀ inForce, calibrated.bind (fun counts => counts.get name sleepTime) = some inForce → inForce ≤ count := by
  obtain ⟨least, raised, enough⟩ := steadyMessageFloor_ge found steady known nonneg
  obtain ⟨own, listed⟩ := steady_table found steady known
  have above (count : ℤ) : (least : ℚ) ≤ (max count least : ℤ) := by exact_mod_cast le_max_right _ _
  cases set : calibrated.bind (fun counts => counts.get name sleepTime) with
  | some count =>
    refine ⟨max count least, ?_, enough.trans (above count), ?_⟩
    · simp [messagesFor, fwOverrides_lookup, ungiven, implicit, set, raised]
    · rintro _ ⟨⟩
      exact le_max_left _ _
  | none =>
    refine ⟨max own least, ?_, enough.trans (above own), ?_⟩
    · simp [messagesFor, fwOverrides_lookup, ungiven, implicit, set, raised, found, listed]
    · simp

/-- Counts that are given are returned as they are. Otherwise the count of a steady
    run covers its window at the base rate with the margin; and a count calibrated at
    some rate covers the target duration at that rate, up to its rounding, so the window
    when it is no longer, and in any case when the base rate with its margin is higher. -/
theorem messages_for_budget (o : Options) (results : Nat → Nat → Option Result) (name : String) (sleepTime : ℚ) :
    (∀ count, givenFor o name = some count → messagesFor o (o.calibratedCounts results) name sleepTime = some count) ∧
    (∀ count, givenFor o name = none → o.messages = some count →
      messagesFor o (o.calibratedCounts results) name sleepTime = some count) ∧
    (∀ spec base, givenFor o name = none → o.messages = none → getSpec name = some spec → spec.mode = .steady →
      baseCount spec sleepTime = some base → 0 ≤ o.steadyWarmupSeconds + o.steadyMeasurementSeconds →
      ∃ count, messagesFor o (o.calibratedCounts results) name sleepTime = some count ∧
        (base : ℚ) / 15 * (o.steadyWarmupSeconds + o.steadyMeasurementSeconds) * 1.25 ≤ count ∧
        ∀ rate target : ℚ, 0 ≤ rate →
          (o.calibratedCounts results).bind (fun counts => counts.get name sleepTime) = some (recommended rate target) →
          rate * target - 250 ≤ count ∧
          (o.steadyWarmupSeconds + o.steadyMeasurementSeconds ≤ target →
            rate * (o.steadyWarmupSeconds + o.steadyMeasurementSeconds) - 250 ≤ count) ∧
          (rate ≤ base / 15 * 1.25 → rate * (o.steadyWarmupSeconds + o.steadyMeasurementSeconds) ≤ count)) := by
  refine ⟨fun count given => ?_, fun count ungiven given => ?_, ?_⟩
  · simp [messagesFor, fwOverrides_lookup, given]
  · simp [messagesFor, fwOverrides_lookup, ungiven, given]
  · intro spec base ungiven implicit found steady known nonneg
    obtain ⟨count, returned, covers, calibrated⟩ :=
      messagesFor_budget (o.calibratedCounts results) ungiven implicit found steady known nonneg
    refine ⟨count, returned, covers, fun rate target positive set => ?_⟩
    have least : (recommended rate target : ℚ) ≤ count := by exact_mod_cast calibrated _ set
    have lasts := (recommended_ge rate target).trans least
    refine ⟨lasts, fun short => ?_, fun slower => ?_⟩
    · have window := mul_le_mul_of_nonneg_left short positive
      linarith
    · have window := mul_le_mul_of_nonneg_right slower nonneg
      linarith

/-- Steady runs of one benchmark, with counts calibrated at a rate for the default duration. -/
def calibratedAt (rate : ℚ) : Options where
  frameworks := ["repid_steady"]
  countsFile := some (some [("repid_steady", [(0.01, recommended rate defaultTargetDuration)])])

/-- A rate below the base rate with its margin is covered. -/
theorem messages_for_budget_slow : ∃ count,
    messagesFor (calibratedAt 50000) ((calibratedAt 50000).calibratedCounts (fun _ _ => none)) "repid_steady" 0.01 =
      some count ∧ 50000 * (10 + 30) ≤ (count : ℚ) := by
  obtain ⟨_, _, budget⟩ := messages_for_budget (calibratedAt 50000) (fun _ _ => none) "repid_steady" 0.01
  have spec : ((getSpec "repid_steady").map (fun spec => (spec.mode, baseCount spec 0.01))) =
      some (.steady, some 672000) := by decide +kernel
  obtain ⟨spec, found, facts⟩ := Option.map_eq_some_iff.mp spec
  simp only [Prod.mk.injEq] at facts
  obtain ⟨count, returned, _, calibrated⟩ := budget spec 672000 (by decide +kernel) rfl found facts.1 facts.2
    (by norm_num [calibratedAt])
  have covers := (calibrated 50000 defaultTargetDuration (by norm_num) (by decide +kernel)).2.2 (by norm_num)
  exact ⟨count, returned, covers⟩

/-- A count calibrated at a rate above the base rate does not cover a window that is
    longer than the target duration. -/
theorem calibrated_short_of_window : ∃ count,
    messagesFor (calibratedAt 100000) ((calibratedAt 100000).calibratedCounts (fun _ _ => none)) "repid_steady" 0.01 =
      some count ∧
    ((calibratedAt 100000).calibratedCounts (fun _ _ => none)).bind (fun counts => counts.get "repid_steady" 0.01) =
      some (recommended 100000 defaultTargetDuration) ∧
    (count : ℚ) < 100000 * ((calibratedAt 100000).steadyWarmupSeconds + (calibratedAt 100000).steadyMeasurementSeconds) :=
  ⟨2240000, by decide +kernel, by decide +kernel, by norm_num [calibratedAt]⟩

end RepidBench.SteadyBudget
