import RepidBench.BurstRecovery
import RepidBench.Publishers

/-!
The burst of a recovery run is one burst for each of its publishers: the chunk that
`_split_messages` gives a publisher is at most the burst size that `_publisher_config`
gives it, so the burst loop has one iteration and never sleeps.
-/
namespace RepidBench.OneBurst
open Transition Publishing Publishers RepidBench.Runtime

/-- `replace(cfg, burst_size=messages, burst_interval=0.0)`, after `cfg.messages = messages`. -/
def burstConfig (cfg : BenchmarkConfig) : BenchmarkConfig :=
  { cfg with
    messages := BurstRecovery.burstMessages cfg
    burstSize := BurstRecovery.burstMessages cfg
    burstInterval := 0 }

/-! ## The sizes -/

/-- No share is larger than the quotient rounded up. -/
theorem share_le {count parts share : Nat} (positive : 1 ≤ parts) (member : share ∈ shares count parts) :
    share ≤ (count + parts - 1) / parts := by
  obtain ⟨i, _, rfl⟩ := List.mem_map.mp member
  apply (Nat.le_div_iff_mul_le positive).mpr
  have whole : count / parts * parts + count % parts = count := Nat.div_add_mod' count parts
  by_cases extra : i < count % parts
  · rw [if_pos extra, Nat.add_mul]
    omega
  · rw [if_neg extra, Nat.add_zero]
    omega

/-- Every publisher of a burst has its chunk for a burst size that is no smaller. -/
theorem chunk_le_burst (cfg : BenchmarkConfig) {chunk : BenchmarkConfig} (burst : cfg.mode = .burst)
    (whole : cfg.burstSize = cfg.messages) (present : 1 ≤ cfg.messages) (member : chunk ∈ publisherConfigs cfg) :
    1 ≤ chunk.messages ∧ chunk.messages ≤ chunk.burstSize := by
  rcases publisherConfigs_cases cfg with ⟨_, configs⟩ | ⟨_, configs⟩
  · rw [configs, List.mem_singleton] at member
    subst member
    refine ⟨present, ?_⟩
    simp only [publisherConfig, burst, if_true, perPublisher, whole, Nat.add_sub_cancel, Nat.div_one]
    exact le_max_right _ _
  · rw [configs] at member
    obtain ⟨messages, share, rfl⟩ := List.mem_map.mp member
    refine ⟨(splitMessages_fair _ _).2.1 messages share, ?_⟩
    have nonempty : cfg.messages ≠ 0 := by omega
    simp only [publisherConfig, burst, if_true, perPublisher, whole]
    rw [splitMessages, if_neg nonempty] at share ⊢
    rw [shares_length]
    exact (share_le (le_max_left _ _) share).trans (le_max_right _ _)

theorem one_le_burstMessages (cfg : BenchmarkConfig) : 1 ≤ BurstRecovery.burstMessages cfg := by
  unfold BurstRecovery.burstMessages
  omega

/-! ## The loop -/

/-- The loop is publishing its whole chunk, or it is left: after the one burst, or by
    an error in it. -/
inductive Once {σ : Type} (messages : Nat) : BurstState σ → Prop
  | publishing (call : σ) : Once messages ⟨messages, 0, .publishing messages call, []⟩
  | finished : Once messages ⟨0, 1, .ended .returned, [.burst 1 messages 0]⟩
  | failed (error : Outcome) (raised : error ≠ .returned) : Once messages ⟨messages, 0, .ended error, []⟩

/-- The step of the inner call that a step of the loop is. -/
def innerLabel {α : Type} : BurstLabel α → Option α
  | .publish a => some a
  | .published => none
  | .wake => none

/-- The steps of the inner call in the trace are a run of it, and the loop is in this call
    or was left with its outcome. -/
inductive InCall {σ α : Type} (m : Machine σ α Outcome) (messages : Nat) (trace : List (BurstLabel α)) (s : BurstState σ) :
    Prop
  | publishing (inner : σ) (reached : m.Reaches (trace.filterMap innerLabel) inner)
      (phase : s.phase = .publishing messages inner)
  | ended (inner : σ) (outcome : Outcome) (reached : m.Reaches (trace.filterMap innerLabel) inner)
      (result : m.result inner = some outcome) (phase : s.phase = .ended outcome)

section
variable {σ α : Type} {call : Nat → Machine σ α Outcome} {messages burstSize : Nat}

theorem init_once (present : 1 ≤ messages) (fits : messages ≤ burstSize) :
    Once messages (bursts call messages burstSize).init := by
  have head : burstHead call burstSize messages = .publishing messages (call messages).init := by
    rw [burstHead, if_pos (Nat.pos_of_ne_zero (by omega)), Nat.min_eq_right fits]
  show Once messages ⟨messages, 0, burstHead call burstSize messages, []⟩
  rw [head]
  exact .publishing _

theorem step_once {s t : BurstState σ} {a : BurstLabel α} (once : Once messages s)
    (stepped : burstStep call burstSize s a = some t) : a ≠ .wake ∧ Once messages t := by
  rcases burstStep_cases stepped with ⟨b, count, inner, next, rfl, phase, _, rfl⟩ |
    ⟨count, inner, rfl, phase, _, rfl⟩ | ⟨count, inner, error, rfl, phase, raised, _, rfl⟩ | ⟨rfl, phase, _⟩
  · cases once with
    | publishing call =>
      cases phase
      exact ⟨by simp, .publishing next⟩
    | finished => cases phase
    | failed => cases phase
  · cases once with
    | publishing call =>
      cases phase
      refine ⟨by simp, ?_⟩
      simpa using Once.finished
    | finished => cases phase
    | failed => cases phase
  · cases once with
    | publishing call =>
      cases phase
      exact ⟨by simp, .failed error raised⟩
    | finished => cases phase
    | failed => cases phase
  · cases once <;> cases phase

theorem step_inCall {past : List (BurstLabel α)} {s t : BurstState σ} {a : BurstLabel α} (once : Once messages s)
    (inCall : InCall (call messages) messages past s) (stepped : burstStep call burstSize s a = some t) :
    InCall (call messages) messages (past ++ [a]) t := by
  have same : ∀ b : BurstLabel α, innerLabel b = none →
      (past ++ [b]).filterMap innerLabel = past.filterMap innerLabel := by
    intro b none
    simp [none]
  rcases burstStep_cases stepped with ⟨b, count, inner, next, rfl, phase, executed, rfl⟩ |
    ⟨count, inner, rfl, phase, result, rfl⟩ | ⟨count, inner, error, rfl, phase, -, result, rfl⟩ | ⟨rfl, phase, _⟩
  · cases inCall with
    | publishing own reached stands =>
      cases phase.symm.trans stands
      refine .publishing next ?_ rfl
      rw [List.filterMap_append]
      exact run_snoc_iff.mpr ⟨inner, reached, executed⟩
    | ended _ _ _ _ stands => cases phase.symm.trans stands
  · cases inCall with
    | publishing own reached stands =>
      cases phase.symm.trans stands
      have nothing : ¬ 0 < s.remaining - messages := by
        cases once with
        | publishing => simp
        | finished => cases phase
        | failed => cases phase
      exact .ended inner .returned (by rw [same _ rfl]; exact reached) result (if_neg nothing)
    | ended _ _ _ _ stands => cases phase.symm.trans stands
  · cases inCall with
    | publishing own reached stands =>
      cases phase.symm.trans stands
      exact .ended inner error (by rw [same _ rfl]; exact reached) result rfl
    | ended _ _ _ _ stands => cases phase.symm.trans stands
  · cases once <;> cases phase

/-- Along every run of the loop it has one iteration and is never woken, and what it does
    in between is a run of the one call. -/
theorem run_once (present : 1 ≤ messages) (fits : messages ≤ burstSize) {trace : List (BurstLabel α)} {s : BurstState σ}
    (reached : (bursts call messages burstSize).Reaches trace s) :
    .wake ∉ trace ∧ Once messages s ∧ InCall (call messages) messages trace s := by
  have preserved : ∀ past s a t, (.wake ∉ past ∧ Once messages s ∧ InCall (call messages) messages past s) →
      burstStep call burstSize s a = some t →
      (.wake ∉ past ++ [a] ∧ Once messages t ∧ InCall (call messages) messages (past ++ [a]) t) := by
    rintro past s a t ⟨awake, once, inCall⟩ stepped
    obtain ⟨other, after⟩ := step_once once stepped
    refine ⟨?_, after, step_inCall once inCall stepped⟩
    simp only [List.mem_append, List.mem_singleton, not_or]
    exact ⟨awake, other.symm⟩
  have first : InCall (call messages) messages [] (bursts call messages burstSize).init := by
    refine .publishing (call messages).init rfl ?_
    show burstHead call burstSize messages = .publishing messages (call messages).init
    rw [burstHead, if_pos (Nat.pos_of_ne_zero (by omega)), Nat.min_eq_right fits]
  exact run_history (fun past s => .wake ∉ past ∧ Once messages s ∧ InCall (call messages) messages past s) preserved []
    ⟨by simp, init_once present fits, first⟩ reached

end

/-- What a run has is also valid for its burst. -/
theorem valid_burstConfig {cfg : BenchmarkConfig} (valid : Valid cfg) : Valid (burstConfig cfg) :=
  { valid with burst := one_le_burstMessages cfg }

/-- Whatever the burst and the number of publishers: each publisher of the burst goes
    once through the burst loop of its adapter, with its whole chunk, and does not
    sleep. Its steps are those of the one call, with whose outcome it ends; and if no
    send fails, it does end. -/
theorem one_burst (cfg : BenchmarkConfig) (burst : cfg.mode = .burst) :
    ∀ chunk ∈ publisherConfigs (burstConfig cfg), 1 ≤ chunk.messages ∧
      adapterPath chunk ∈ [Path.asyncBursts, Path.threadedBursts] ∧
      (∀ trace s, (adapterPublish chunk .asyncBursts).Reaches trace s → .wake ∉ trace ∧ Once chunk.messages s ∧
        InCall (AsyncPublish.publishAsync chunk.messages chunk.publishConcurrency) chunk.messages trace s) ∧
      (∀ trace s, (adapterPublish chunk .threadedBursts).Reaches trace s → .wake ∉ trace ∧ Once chunk.messages s ∧
        InCall (ThreadedPublish.publishThreaded chunk.messages chunk.publishWorkers chunk.enqueueBatchSize)
          chunk.messages trace s) ∧
      (Valid cfg → ∀ path, (adapterPublish chunk path).Ends path.Clean path.idle) := by
  intro chunk member
  obtain ⟨present, fits⟩ := chunk_le_burst (burstConfig cfg) burst rfl (one_le_burstMessages cfg) member
  refine ⟨present, ?_, ?_, ?_, ?_⟩
  · rw [adapterPath_publisher member]
    have mode : (burstConfig cfg).mode = .burst := burst
    cases framework : (burstConfig cfg).framework <;> simp [adapterPath, framework, mode]
  · intro trace s reached
    exact run_once present fits reached
  · intro trace s reached
    exact run_once present fits reached
  · intro valid path
    exact (adapterAccount ((valid_burstConfig valid).publishers member) path).ends

/-- A burst of two for three publisher processes: one message each for two of them. -/
def twoBurst : BenchmarkConfig := { twoMessages with mode := .burst, publishProcesses := 3, burstMultiplier := 1 }

theorem one_burst_two : publisherConfigs (burstConfig twoBurst) ≠ [] ∧
    ∀ chunk ∈ publisherConfigs (burstConfig twoBurst), ∀ trace s,
      (adapterPublish chunk .asyncBursts).Reaches trace s → .wake ∉ trace ∧ Once chunk.messages s := by
  refine ⟨by decide +kernel, fun chunk member trace s reached => ?_⟩
  obtain ⟨-, -, runs, -⟩ := one_burst twoBurst rfl chunk member
  exact ⟨(runs trace s reached).1, (runs trace s reached).2.1⟩

end RepidBench.OneBurst
