import RepidBench.ConfigFile
import RepidBench.Encodings
import RepidBench.Text

/-!
`benchmarks_metadata.jsonl`: one line of JSON for each measured run, with the hash by
which runs of one configuration are found. A line is read back as what was logged of
its run, and tells nothing of the user and the password of the broker. The hash is
taken of a text that two tasks share just when they are of one benchmark and were
measured with the same settings.
-/
namespace RepidBench.Metadata
open ConfigFile Decimal Dictionaries JsonText Orchestrator Sessions Specs Text

/-! ## The hash of a configuration -/

/-- The fields that `config_hash` takes, in the order of the source. -/
def hashedFields (config : Config) : List (String × Orchestrator.Json) := [
  ("framework", JsonField.toJson config.framework),
  ("mode", JsonField.toJson config.mode),
  ("task_kind", JsonField.toJson config.taskKind),
  ("processes", JsonField.toJson config.processes),
  ("concurrency", JsonField.toJson config.concurrency),
  ("prefetch_count", JsonField.toJson config.prefetchCount),
  ("publish_concurrency", JsonField.toJson config.publishConcurrency),
  ("publish_workers", JsonField.toJson config.publishWorkers),
  ("publish_processes", JsonField.toJson config.publishProcesses),
  ("green_threads", JsonField.toJson config.greenThreads),
  ("steady_warmup_seconds", JsonField.toJson config.steadyWarmupSeconds),
  ("steady_measurement_seconds", JsonField.toJson config.steadyMeasurementSeconds),
  ("latency_arrival_rate", JsonField.toJson config.latencyArrivalRate),
  ("latency_warmup_seconds", JsonField.toJson config.latencyWarmupSeconds),
  ("latency_measurement_seconds", JsonField.toJson config.latencyMeasurementSeconds),
  ("burst_multiplier", JsonField.toJson config.burstMultiplier)]

/-- `sort_keys=True`, for a dictionary without dictionaries in it. -/
def sortKeys (entries : List (String × Value)) : List (String × Value) :=
  entries.insertionSort (fun a b => a.1 ≤ b.1)

theorem sortKeys_perm (entries : List (String × Value)) : (sortKeys entries).Perm entries := List.perm_insertionSort _ _

/-- The text that is hashed. -/
def rawConfig (str : ℚ → String) (config : Config) : List Char :=
  dumps oneLine str (.object (sortKeys ((hashedFields config).map (fun entry => (entry.1, jsonValue entry.2)))))

/-- `config_hash`; `sha256` gives the hexadecimal digest of a text. -/
def configHash (sha256 : List Char → List Char) (str : ℚ → String) (config : Config) : String :=
  String.ofList ((sha256 (rawConfig str config)).take 12)

/-- Two dictionaries with the same keys in the same order, of which one is a
    rearrangement of the other, are the same. -/
theorem eq_of_perm_of_keys {κ : Type u} {ν : Type v} [DecidableEq κ] {xs ys : List (κ × ν)}
    (distinct : (xs.map Prod.fst).Nodup) (keys : xs.map Prod.fst = ys.map Prod.fst) (rearranged : xs.Perm ys) : xs = ys := by
  induction xs generalizing ys with
  | nil => exact (List.map_eq_nil_iff.mp keys.symm).symm
  | cons first rest ih =>
    obtain ⟨other, others, rfl⟩ : ∃ other others, ys = other :: others := by
      cases ys with
      | nil => cases keys
      | cons other others => exact ⟨other, others, rfl⟩
    obtain ⟨firstKey, otherKeys⟩ := List.cons.inj keys
    obtain ⟨absent, distinctRest⟩ := List.nodup_cons.mp distinct
    have same : first = other := by
      rcases List.mem_cons.mp (rearranged.subset List.mem_cons_self) with same | later
      · exact same
      · have inRest : first.1 ∈ rest.map Prod.fst := by
          rw [otherKeys]
          exact List.mem_map_of_mem later
        exact absurd inRest absent
    subst same
    rw [ih distinctRest otherKeys (List.perm_cons first |>.mp rearranged)]

theorem jsonValue_injective : Function.Injective jsonValue := by
  intro a b same
  have back : ∀ field, jsonField (jsonValue field) = some field := by
    intro field
    cases field <;> rfl
  exact Option.some.inj ((back a).symm.trans ((congrArg jsonField same).trans (back b)))

theorem hashedFields_nodup (config : Config) : ((hashedFields config).map Prod.fst).Nodup := by
  show ["framework", "mode", "task_kind", "processes", "concurrency", "prefetch_count", "publish_concurrency",
    "publish_workers", "publish_processes", "green_threads", "steady_warmup_seconds", "steady_measurement_seconds",
    "latency_arrival_rate", "latency_warmup_seconds", "latency_measurement_seconds", "burst_multiplier"].Nodup
  decide

section
variable {str : ℚ → String} {a b : Config}

theorem readable_hashed (printed : ∀ q ∈ floatsOf (hashedFields a), printsFloat str q) :
    Readable str (.object (sortKeys ((hashedFields a).map (fun entry => (entry.1, jsonValue entry.2))))) := by
  have sorted := sortKeys_perm ((hashedFields a).map (fun entry => (entry.1, jsonValue entry.2)))
  refine .object ?_ (fun entry member => ?_)
  · refine (sorted.map Prod.fst).nodup_iff.mpr ?_
    rw [List.map_map]
    exact hashedFields_nodup a
  · obtain ⟨field, inFields, rfl⟩ := List.mem_map.mp (sorted.mem_iff.mp member)
    exact readable_jsonValue printed inFields

/-- The hashed text tells the hashed fields, although they are sorted in it. -/
theorem rawConfig_eq (printedA : ∀ q ∈ floatsOf (hashedFields a), printsFloat str q)
    (printedB : ∀ q ∈ floatsOf (hashedFields b), printsFloat str q) :
    rawConfig str a = rawConfig str b ↔ hashedFields a = hashedFields b := by
  constructor
  · intro same
    have read := @loads_dumps oneLine str _ (readable_hashed printedA)
    rw [← rawConfig, same, rawConfig, loads_dumps (readable_hashed printedB)] at read
    obtain sorted : sortKeys ((hashedFields b).map _) = sortKeys ((hashedFields a).map _) :=
      Value.object.inj (Option.some.inj read)
    have rearranged : ((hashedFields a).map (fun entry => (entry.1, jsonValue entry.2))).Perm
        ((hashedFields b).map (fun entry => (entry.1, jsonValue entry.2))) := by
      refine (sortKeys_perm _).symm.trans ?_
      rw [← sorted]
      exact sortKeys_perm _
    refine List.map_injective_iff.mpr ?_ (eq_of_perm_of_keys ?_ rfl rearranged)
    · intro x y same
      obtain ⟨key, value⟩ := Prod.ext_iff.mp same
      exact Prod.ext key (jsonValue_injective value)
    · rw [List.map_map]
      show ["framework", "mode", "task_kind", "processes", "concurrency", "prefetch_count", "publish_concurrency",
        "publish_workers", "publish_processes", "green_threads", "steady_warmup_seconds", "steady_measurement_seconds",
        "latency_arrival_rate", "latency_warmup_seconds", "latency_measurement_seconds", "burst_multiplier"].Nodup
      decide
  · intro same
    rw [rawConfig, rawConfig, same]

/-- The settings of a session that the hash takes. -/
structure SameSettings (a b : Config) : Prop where
  publishProcesses : a.publishProcesses = b.publishProcesses
  steadyWarmupSeconds : a.steadyWarmupSeconds = b.steadyWarmupSeconds
  steadyMeasurementSeconds : a.steadyMeasurementSeconds = b.steadyMeasurementSeconds
  latencyArrivalRate : a.latencyArrivalRate = b.latencyArrivalRate
  latencyWarmupSeconds : a.latencyWarmupSeconds = b.latencyWarmupSeconds
  latencyMeasurementSeconds : a.latencyMeasurementSeconds = b.latencyMeasurementSeconds
  burstMultiplier : a.burstMultiplier = b.burstMultiplier

/-- A benchmark is its framework and its mode. -/
theorem spec_unique {spec other : BenchmarkSpec} (first : spec ∈ specs) (second : other ∈ specs)
    (framework : spec.framework = other.framework) (mode : spec.mode = other.mode) : spec = other := by
  have distinct : (specs.map (fun spec => (spec.framework, spec.mode))).Nodup := by decide
  exact List.inj_on_of_nodup_map distinct first second (Prod.ext framework mode)

/-- The benchmark of a configuration of the task loop, and what the configuration takes of it. -/
theorem mem_taskConfigs {o : Options} {calibrated : Option Counts} {sample : Nat → Nat → Nat × ℚ} {suffix : Nat → String}
    {order : List Task} (member : a ∈ taskConfigs o calibrated sample suffix order) :
    ∃ spec ∈ specs, a.name = spec.name ∧ ∃ messages queueName task,
      a = taskConfig o (cpuIterationsBySleep o sample) messages spec queueName task := by
  obtain ⟨⟨task, i⟩, _, inSpecs⟩ := List.mem_flatMap.mp member
  obtain ⟨spec, found, inCounts⟩ := List.mem_flatMap.mp inSpecs
  obtain ⟨messages, _, rfl⟩ := List.mem_map.mp inCounts
  have own : getSpec task.framework = some spec := Option.mem_toList.mp found
  refine ⟨spec, List.mem_of_find?_eq_some own, ?_, messages, _, task, rfl⟩
  have named := List.find?_some own
  exact (of_decide_eq_true named).symm

/-- For the configurations of any two sessions: the texts that are hashed are the same
    exactly when the runs are of one benchmark and have the same settings, whatever their
    queues, sleep times, message counts and CPU iterations. So a session never gives two
    benchmarks one text, nor one benchmark two. -/
theorem config_hash_tells_benchmark {o later : Options} {calibrated laterCounts : Option Counts}
    {sample laterSample : Nat → Nat → Nat × ℚ} {suffix laterSuffix : Nat → String} {order laterOrder : List Task}
    (first : a ∈ taskConfigs o calibrated sample suffix order)
    (second : b ∈ taskConfigs later laterCounts laterSample laterSuffix laterOrder)
    (printedA : ∀ q ∈ floatsOf (hashedFields a), printsFloat str q)
    (printedB : ∀ q ∈ floatsOf (hashedFields b), printsFloat str q) :
    (rawConfig str a = rawConfig str b ↔ a.name = b.name ∧ SameSettings a b) ∧
      (o = later → (rawConfig str a = rawConfig str b ↔ a.name = b.name)) ∧
      ∀ sha256, a.name = b.name → SameSettings a b → configHash sha256 str a = configHash sha256 str b := by
  obtain ⟨spec, inSpecs, named, messages, queueName, task, made⟩ := mem_taskConfigs first
  obtain ⟨other, otherInSpecs, otherNamed, otherMessages, otherQueue, otherTask, otherMade⟩ := mem_taskConfigs second
  have tells : rawConfig str a = rawConfig str b ↔ a.name = b.name ∧ SameSettings a b := by
    rw [rawConfig_eq printedA printedB]
    constructor
    · intro same
      have field : ∀ {α : Type} [JsonField α] (i : Nat) {x y : α} {key : String},
          (hashedFields a)[i]? = some (key, JsonField.toJson x) → (hashedFields b)[i]? = some (key, JsonField.toJson y) →
          x = y := by
        intro α _ i x y key ofA ofB
        rw [same, ofB] at ofA
        have json : JsonField.toJson y = JsonField.toJson x := congrArg Prod.snd (Option.some.inj ofA)
        have read := congrArg (JsonField.ofJson (α := α)) json
        rw [JsonField.ofJson_toJson, JsonField.ofJson_toJson] at read
        exact (Option.some.inj read).symm
      have framework : a.framework = b.framework := field 0 rfl rfl
      have mode : a.mode = b.mode := field 1 rfl rfl
      refine ⟨?_, field 8 rfl rfl, field 10 rfl rfl, field 11 rfl rfl, field 12 rfl rfl, field 13 rfl rfl,
        field 14 rfl rfl, field 15 rfl rfl⟩
      subst made otherMade
      rw [named, otherNamed, spec_unique inSpecs otherInSpecs framework mode]
    · rintro ⟨sameName, settings⟩
      have own : spec = other := List.inj_on_of_nodup_map allBenchmarks_nodup inSpecs otherInSpecs
        (named.symm.trans (sameName.trans otherNamed))
      subst made otherMade own
      simp only [hashedFields, settings.publishProcesses, settings.steadyWarmupSeconds, settings.steadyMeasurementSeconds,
        settings.latencyArrivalRate, settings.latencyWarmupSeconds, settings.latencyMeasurementSeconds,
        settings.burstMultiplier]
      rfl
  refine ⟨tells, ?_, ?_⟩
  · rintro rfl
    rw [tells, and_iff_left_iff_imp]
    intro sameName
    have own : spec = other := List.inj_on_of_nodup_map allBenchmarks_nodup inSpecs otherInSpecs
      (named.symm.trans (sameName.trans otherNamed))
    subst made otherMade own
    exact ⟨rfl, rfl, rfl, rfl, rfl, rfl, rfl⟩
  · intro sha256 sameName settings
    rw [configHash, configHash, tells.mpr ⟨sameName, settings⟩]

/-- Two benchmarks of one framework. -/
def twoModes : Options where
  frameworks := ["repid", "repid_hc"]
  sleepTimes := some [0.5]

def twoTasks : List Task := [⟨⟨⟨"repid", 0.5⟩, 1⟩, false⟩, ⟨⟨⟨"repid_hc", 0.5⟩, 1⟩, false⟩]

def twoConfigs : List Config := taskConfigs twoModes none (fun _ _ => (0, 0)) (fun i => toString i) twoTasks

theorem config_hash_tells_benchmark_two :
    ∃ base ∈ twoConfigs, ∃ hc ∈ twoConfigs, base.name = "repid" ∧ hc.name = "repid_hc" ∧
      rawConfig (fixed 1) base ≠ rawConfig (fixed 1) hc := by
  have names : twoConfigs.map Config.name = ["repid", "repid_hc"] := by decide +kernel
  have printed : ∀ config ∈ twoConfigs, ∀ q ∈ floatsOf (hashedFields config), printsFloat (fixed 1) q := by decide +kernel
  obtain ⟨base, first, baseName⟩ := List.mem_map.mp (names ▸ List.mem_cons_self : "repid" ∈ twoConfigs.map Config.name)
  obtain ⟨hc, second, hcName⟩ := List.mem_map.mp
    (names ▸ List.mem_cons_of_mem _ List.mem_cons_self : "repid_hc" ∈ twoConfigs.map Config.name)
  refine ⟨base, first, hc, second, baseName, hcName, fun same => ?_⟩
  have named := ((config_hash_tells_benchmark first second (printed base first) (printed hc second)).2.1 rfl).mp same
  rw [baseName, hcName] at named
  exact absurd named (by decide)

end

/-! ## The lines of the file -/

/-- `amqp_url.split("@")[-1].split("/")[0]`. -/
def amqpHost (url : String) : String :=
  String.ofList ((url.toList.rtakeWhile (fun c => c ≠ '@')).takeWhile (fun c => c ≠ '/'))

/-- A measured run, with what `main` has when it writes the record of it. -/
structure Logged where
  spec : BenchmarkSpec
  config : Config
  messages : ℤ
  run : Run
  timestamp : ℚ

/-- A value of a result as a value of JSON. -/
def resultValue : ParseOutput.Value → Value
  | .str word => .str word
  | .int n => .int n
  | .float x => .float x

/-- `result.get(key)`. -/
def resultField (run : Run) (key : String) : Value := (run.outcome.entries.lookup key).elim .null resultValue

section
variable (sha256 : List Char → List Char) (python : String) (str : ℚ → String)

/-- The dictionary that is logged of a run; `python` is `platform.python_version()`. -/
def metadataRecord (logged : Logged) : List (String × Value) := [
  ("benchmark", .str logged.run.task.framework),
  ("framework", .str logged.spec.framework.name),
  ("mode", .str logged.spec.mode.name),
  ("task_kind", jsonValue (JsonField.toJson logged.spec.taskKind)),
  ("sleep_time", .float logged.run.task.sleepTime),
  ("messages", .int logged.messages),
  ("run", .int logged.run.task.run),
  ("status", .str logged.run.status),
  ("amqp_host", .str (amqpHost logged.config.amqpUrl)),
  ("processes", .int logged.config.processes),
  ("concurrency", .int logged.config.concurrency),
  ("prefetch_count", jsonValue (JsonField.toJson logged.config.prefetchCount)),
  ("publish_concurrency", .int logged.config.publishConcurrency),
  ("publish_workers", .int logged.config.publishWorkers),
  ("publish_processes", .int logged.config.publishProcesses),
  ("green_threads", .bool logged.config.greenThreads),
  ("python", .str python),
  ("timestamp", .float logged.timestamp),
  ("config_hash", .str (configHash sha256 str logged.config)),
  ("tail_95_to_100_seconds", resultField logged.run "tail_95_to_100_seconds"),
  ("tail_98_to_100_seconds", resultField logged.run "tail_98_to_100_seconds"),
  ("tail_99_to_100_seconds", resultField logged.run "tail_99_to_100_seconds"),
  ("tail_995_to_100_seconds", resultField logged.run "tail_995_to_100_seconds"),
  ("latency_offered_rate", resultField logged.run "latency_offered_rate"),
  ("latency_achieved_rate", resultField logged.run "latency_achieved_rate"),
  ("latency_backlog_at_measurement_end", resultField logged.run "latency_backlog_at_measurement_end"),
  ("latency_drain_seconds", resultField logged.run "latency_drain_seconds"),
  ("burst_publish_seconds", resultField logged.run "burst_publish_seconds"),
  ("burst_recovery_seconds", resultField logged.run "burst_recovery_seconds")]

def metadataLine (logged : Logged) : List Char :=
  dumps oneLine str (.object (metadataRecord sha256 python str logged)) ++ ['\n']

/-- What the runs of some sessions add to the file. -/
def metadataText (logged : List Logged) : List Char := logged.flatMap (metadataLine sha256 python str)

end

/-- Neither a list nor a dictionary. -/
def isScalar : Value → Bool
  | .array _ => false
  | .object _ => false
  | _ => true

/-- The `float`s among some values. -/
def floatValues (entries : List (String × Value)) : List ℚ :=
  entries.filterMap (fun entry =>
    match entry.2 with
    | .float q => some q
    | _ => none)

section
variable {sha256 : List Char → List Char} {python : String} {str : ℚ → String}

/-- A dictionary of values that are neither lists nor dictionaries is read back. -/
theorem readable_scalars {entries : List (String × Value)} (distinct : (entries.map Prod.fst).Nodup)
    (scalars : ∀ entry ∈ entries, isScalar entry.2 = true) (printed : ∀ q ∈ floatValues entries, printsFloat str q) :
    Readable str (.object entries) := by
  refine .object distinct (fun entry member => ?_)
  have scalar := scalars entry member
  obtain ⟨key, value⟩ := entry
  cases value with
  | null => exact .null
  | bool b => exact .bool b
  | int n => exact .int n
  | float q => exact .float (scanNumber_float (printed q (List.mem_filterMap.mpr ⟨_, member, rfl⟩)))
  | str text => exact .str text
  | array items => cases scalar
  | object entries => cases scalar

@[simp] theorem isScalar_str (text : String) : isScalar (.str text) = true := rfl

@[simp] theorem isScalar_int (n : ℤ) : isScalar (.int n) = true := rfl

@[simp] theorem isScalar_float (q : ℚ) : isScalar (.float q) = true := rfl

@[simp] theorem isScalar_bool (b : Bool) : isScalar (.bool b) = true := rfl

@[simp] theorem isScalar_jsonValue (field : Orchestrator.Json) : isScalar (jsonValue field) = true := by cases field <;> rfl

@[simp] theorem isScalar_resultField (run : Run) (key : String) : isScalar (resultField run key) = true := by
  rw [resultField]
  cases run.outcome.entries.lookup key with
  | none => rfl
  | some value => cases value <;> rfl

theorem readable_record {logged : Logged}
    (printed : ∀ q ∈ floatValues (metadataRecord sha256 python str logged), printsFloat str q) :
    Readable str (.object (metadataRecord sha256 python str logged)) := by
  refine readable_scalars ?_ ?_ printed
  · show ["benchmark", "framework", "mode", "task_kind", "sleep_time", "messages", "run", "status", "amqp_host",
      "processes", "concurrency", "prefetch_count", "publish_concurrency", "publish_workers", "publish_processes",
      "green_threads", "python", "timestamp", "config_hash", "tail_95_to_100_seconds", "tail_98_to_100_seconds",
      "tail_99_to_100_seconds", "tail_995_to_100_seconds", "latency_offered_rate", "latency_achieved_rate",
      "latency_backlog_at_measurement_end", "latency_drain_seconds", "burst_publish_seconds",
      "burst_recovery_seconds"].Nodup
    decide
  · simp [metadataRecord]

/-- The line of a record is one line. -/
theorem singleLine_record {value : Value} (readable : Readable str value) : SingleLine (dumps oneLine str value) := by
  have visible : ∀ c, ' ' ≤ c → c ≤ '~' → isLineEnd c = false := by
    intro c above _
    have notReturn : c ≠ '\r' := by
      rintro rfl
      exact absurd above (by decide)
    have notNewline : c ≠ '\n' := by
      rintro rfl
      exact absurd above (by decide)
    simp [isLineEnd, notReturn, notNewline]
  refine dump_chars visible (fun c member => ?_) (fun level c member => absurd member List.not_mem_nil) readable 0
  rw [List.mem_singleton.mp member]
  rfl

/-- The host is what stands between the credentials and the virtual host. -/
theorem amqpHost_of (credentials : List Char) {host : List Char} (plain : '@' ∉ host) :
    amqpHost (String.ofList (credentials ++ '@' :: host)) = String.ofList (host.takeWhile (fun c => c ≠ '/')) := by
  have last : (credentials ++ '@' :: host).rtakeWhile (fun c => c ≠ '@') = host :=
    Encodings.rtakeWhile_stop credentials rfl (fun c member => decide_eq_true (fun same => plain (same ▸ member)))
  rw [amqpHost, String.toList_ofList, last]

/-- The configuration with the URL of a broker for some credentials: `amqp://user:password`,
    and the host and virtual host after the `@`. -/
def withUrl (logged : Logged) (credentials host : List Char) : Logged :=
  { logged with config.amqpUrl := String.ofList (credentials ++ '@' :: host) }

/-- Each line that the file gets, `json.loads` reads as the record of its run, in the
    order of the runs, whatever the names, statuses and URLs hold. A line is the same for
    all credentials of the broker. -/
theorem metadata_read_back (sha256 : List Char → List Char) (python : String) (str : ℚ → String) (logged : List Logged)
    (printed : ∀ l ∈ logged, ∀ q ∈ floatValues (metadataRecord sha256 python str l), printsFloat str q) :
    (fileLines (metadataText sha256 python str logged)).map loads =
      logged.map (fun l => some (.object (metadataRecord sha256 python str l))) ∧
    ∀ l credentials other host, '@' ∉ host →
      metadataLine sha256 python str (withUrl l credentials host) = metadataLine sha256 python str (withUrl l other host) := by
  refine ⟨?_, fun l credentials other host plain => ?_⟩
  · induction logged with
    | nil => rfl
    | cons l rest ih =>
      have readable := readable_record (printed l List.mem_cons_self)
      have text : metadataText sha256 python str (l :: rest) =
          dumps oneLine str (.object (metadataRecord sha256 python str l)) ++ '\n' :: metadataText sha256 python str rest := by
        rw [metadataText, List.flatMap_cons, metadataLine, List.append_assoc]
        rfl
      have newline : ∀ c ∈ ['\n'], isBlank c = true := by simp [isBlank]
      rw [text, fileLines_text (singleLine_record readable), List.map_cons, List.map_cons,
        loads_dumps_blanks readable newline, ih (fun other member => printed other (List.mem_cons_of_mem l member))]
  · have same : metadataRecord sha256 python str (withUrl l credentials host) =
        metadataRecord sha256 python str (withUrl l other host) := by
      have hosts : amqpHost (withUrl l credentials host).config.amqpUrl = amqpHost (withUrl l other host).config.amqpUrl :=
        (amqpHost_of credentials plain).trans (amqpHost_of other plain).symm
      rw [metadataRecord, hosts]
      rfl
    rw [metadataLine, metadataLine, same]

/-- The digest of the text that is hashed for the base benchmark of repid. -/
def repidDigest (_ : List Char) : List Char := "f067bf08959b9900c8c322f1024448557254e0837ae436a3732571165c37ef10".toList

/-- A run of it that is not ok, on a broker whose password holds a slash. -/
def oneLogged : List Logged := twoConfigs.take 1 |>.map (fun config => {
  spec := { name := "repid", framework := .repid, mode := .base, messages := some (baseMessages .repid) }
  config := { config with amqpUrl := "amqp://user:te/st@localhost:5672/%2F" }
  messages := 425000
  run := ⟨⟨⟨⟨"repid", 0.5⟩, 1⟩, false⟩, some ⟨"aborted", [("tail_99_to_100_seconds", .float 0.5)]⟩⟩
  timestamp := 1700000000.5 })

theorem metadata_read_back_aborted :
    (fileLines (metadataText repidDigest "3.12.4" (fixed 1) oneLogged)).map loads =
      oneLogged.map (fun l => some (.object (metadataRecord repidDigest "3.12.4" (fixed 1) l))) ∧
    oneLogged.map (fun l => amqpHost l.config.amqpUrl) = ["localhost:5672"] :=
  ⟨(metadata_read_back repidDigest "3.12.4" (fixed 1) oneLogged (by decide +kernel)).1, by decide +kernel⟩

end

end RepidBench.Metadata
