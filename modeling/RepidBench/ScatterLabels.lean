import RepidBench.LatencyCharts

/-!
The labels of `plot_latency_tradeoff_scatter`. Each point has one with its sleep time;
they are put one after the other to the first of twelve places around their points that
is free of the markers, of the texts in the corners and of the labels before. So where
two labels overlap, the later one had no free place.
-/
namespace RepidBench.ScatterLabels
open ChartLoaders LatencyCharts NestedLists ResultTables Sessions Specs

/-! ## Labels -/

/-- One of `corner_labels`. -/
structure Corner where
  x : ℚ
  y : ℚ
  text : String
  ha : String
  va : String
  deriving DecidableEq, Repr

def cornerLabels : List Corner := [
  ⟨0.02, 0.97, "higher throughput\nlower latency", "left", "top"⟩,
  ⟨0.98, 0.97, "higher throughput\nhigher latency", "right", "top"⟩,
  ⟨0.02, 0.03, "lower throughput\nlower latency", "left", "bottom"⟩,
  ⟨0.98, 0.03, "lower throughput\nhigher latency", "right", "bottom"⟩]

/-- An offset from a point, in points. -/
abbrev Offset := ℤ × ℤ

/-- `xytext` of a label that is not placed yet. -/
def original : Offset := (5, 4)

def candidateOffsets : List Offset := [
  (6, 5), (6, -13), (-24, 5), (-24, -13), (12, 16), (-32, 16), (12, -25), (-32, -25), (0, 28), (0, -34), (34, 0), (-48, 0)]

/-- `fmt_sleep`, for what `format` makes of a float with `g`. -/
def fmtSleep (general : ℚ → String) (value : ℚ) : String := general value ++ "s"

/-- The label of a point: `xy` is its latency and its throughput. -/
structure Label where
  framework : String
  sleepTime : ℚ
  xy : ℚ × ℚ
  deriving DecidableEq, Repr

/-- `point_labels` of the points, framework by framework; the texts of the corners are
    added to them later. -/
def pointLabels (clouds : List (String × List (ℚ × ℚ × ℚ))) : List Label :=
  clouds.flatMap (fun cloud => cloud.2.map (fun point => ⟨cloud.1, point.1, point.2⟩))

universe u

/-- What is asked of the figure when it has been drawn: window extents of a text at a
    point and of a text in a corner, the pixel of a point, and boxes. -/
structure Canvas (β : Type u) where
  extent : String → ℚ × ℚ → Offset → β
  cornerExtent : Corner → β
  transform : ℚ × ℚ → ℚ × ℚ
  fromBounds : ℚ → ℚ → ℚ → ℚ → β
  expanded : β → ℚ → ℚ → β
  overlaps : β → β → Bool
  overlaps_comm : ∀ a b, overlaps a b = overlaps b a

/-- Where no framework has two clouds, and no cloud two points at one sleep time, no
    framework and sleep time have two labels. -/
theorem nodup_pointLabels {clouds : List (String × List (ℚ × ℚ × ℚ))} (frameworks : (clouds.map Prod.fst).Nodup)
    (times : ∀ cloud ∈ clouds, (cloud.2.map Prod.fst).Nodup) :
    ((pointLabels clouds).map (fun label => (label.framework, label.sleepTime))).Nodup := by
  rw [pointLabels, List.map_flatMap, List.nodup_flatMap]
  constructor
  · intro cloud member
    rw [List.map_map]
    have named : (cloud.2.map Prod.fst).map (cloud.1, ·) =
        cloud.2.map ((fun label : Label => (label.framework, label.sleepTime)) ∘ fun point => ⟨cloud.1, point.1, point.2⟩) := by
      rw [List.map_map]
      rfl
    exact named ▸ (times cloud member).map (Prod.mk_right_injective cloud.1)
  · refine (List.pairwise_map.mp frameworks).imp (fun {cloud other} apart => ?_)
    intro key first second
    obtain ⟨_, own, rfl⟩ := List.mem_map.mp first
    obtain ⟨_, others, same⟩ := List.mem_map.mp second
    obtain ⟨_, _, rfl⟩ := List.mem_map.mp own
    obtain ⟨_, _, rfl⟩ := List.mem_map.mp others
    exact apart (congrArg Prod.fst same).symm

/-! ## Placing -/

/-- A label at its place. -/
structure Placed (β : Type u) where
  label : Label
  chosen : Offset
  box : β

/-- A label that was moved has a line to its point. -/
def Placed.moved {β : Type u} (p : Placed β) : Prop := p.chosen ≠ original

section
variable {β : Type u} (canvas : Canvas β) (general : ℚ → String)

/-- `static_obstacles`: the texts in the corners, and the markers of the points. -/
def staticObstacles (labels : List Label) : List β :=
  cornerLabels.map (fun corner => canvas.expanded (canvas.cornerExtent corner) 1.04 1.08) ++
    labels.map (fun label =>
      canvas.fromBounds ((canvas.transform label.xy).1 - 7) ((canvas.transform label.xy).2 - 7) 14 14)

/-- The box of a label at an offset. -/
def labelBox (label : Label) (offset : Offset) : β :=
  canvas.expanded (canvas.extent (fmtSleep general label.sleepTime) label.xy offset) 1.08 1.15

/-- A place of a label that overlaps none of these boxes. -/
def isFree (taken : List β) (label : Label) (offset : Offset) : Bool :=
  !taken.any (fun obstacle => canvas.overlaps (labelBox canvas general label offset) obstacle)

/-- The offset that is chosen for a label: the first free one, or that it has. -/
def chooseOffset (taken : List β) (label : Label) : Offset :=
  (candidateOffsets.find? (isFree canvas general taken label)).getD original

/-- The loop over `sleep_labels`, after those that are `placed`. -/
def placeLabels (static placed : List β) : List Label → List (Placed β)
  | [] => []
  | label :: labels =>
    let chosen := chooseOffset canvas general (static ++ placed) label
    let box := labelBox canvas general label chosen
    ⟨label, chosen, box⟩ :: placeLabels static (placed ++ [box]) labels

variable {canvas general}

theorem isFree_iff {taken : List β} {label : Label} {offset : Offset} : isFree canvas general taken label offset = true ↔
    ∀ obstacle ∈ taken, canvas.overlaps (labelBox canvas general label offset) obstacle = false := by
  simp [isFree]

theorem not_isFree_iff {taken : List β} {label : Label} {offset : Offset} : ¬ isFree canvas general taken label offset = true ↔
    ∃ obstacle ∈ taken, canvas.overlaps (labelBox canvas general label offset) obstacle = true := by
  simp [isFree]

/-- A label that is moved is moved to the first free place. -/
theorem chooseOffset_moved {taken : List β} {label : Label} (moved : chooseOffset canvas general taken label ≠ original) :
    isFree canvas general taken label (chooseOffset canvas general taken label) = true ∧
    ∃ skipped rest, candidateOffsets = skipped ++ chooseOffset canvas general taken label :: rest ∧
      ∀ offset ∈ skipped, ¬ isFree canvas general taken label offset = true := by
  unfold chooseOffset at *
  cases found : candidateOffsets.find? (isFree canvas general taken label) with
  | none => simp [found] at moved
  | some offset =>
    obtain ⟨free, skipped, rest, whole, not_free⟩ := List.find?_eq_some_iff_append.mp found
    exact ⟨free, skipped, rest, whole, fun other member => by simpa using not_free other member⟩

/-- A label is left where it is when it has no free place, as none is where it is. -/
theorem chooseOffset_stuck {taken : List β} {label : Label} (stuck : chooseOffset canvas general taken label = original) :
    ∀ offset ∈ candidateOffsets, ¬ isFree canvas general taken label offset = true := by
  unfold chooseOffset at stuck
  cases found : candidateOffsets.find? (isFree canvas general taken label) with
  | none => exact List.find?_eq_none.mp found
  | some offset =>
    rw [found, Option.getD_some] at stuck
    have own := List.mem_of_find?_eq_some found
    rw [stuck] at own
    exact absurd own (by decide)

/-- Every label is placed, in this order. -/
theorem placeLabels_labels (static placed : List β) (labels : List Label) :
    (placeLabels canvas general static placed labels).map Placed.label = labels := by
  induction labels generalizing placed with
  | nil => rfl
  | cons label labels ih => rw [placeLabels, List.map_cons, ih]

/-- A label is placed against all that is there before it. -/
theorem placeLabels_at {static placed : List β} {labels : List Label} {before after : List (Placed β)} {p : Placed β}
    (whole : placeLabels canvas general static placed labels = before ++ p :: after) :
    p.chosen = chooseOffset canvas general (static ++ (placed ++ before.map Placed.box)) p.label ∧
      p.box = labelBox canvas general p.label p.chosen := by
  induction labels generalizing placed before with
  | nil => exact absurd whole (by simp [placeLabels])
  | cons label labels ih =>
    rw [placeLabels] at whole
    cases before with
    | nil =>
      obtain ⟨rfl, -⟩ := List.cons.inj whole
      exact ⟨by rw [List.map_nil, List.append_nil], rfl⟩
    | cons first before =>
      obtain ⟨rfl, later⟩ := List.cons.inj whole
      rw [List.map_cons, List.append_cons]
      exact ih later

/-! ## What can be read -/

/-- What is always left of the places: a moved label hides no marker, no text in a corner
    and no label before it, and took its first such place; another one had none. -/
structure Legible (canvas : Canvas β) (general : ℚ → String) (static : List β) (placed : List (Placed β)) : Prop where
  boxes : ∀ p ∈ placed, p.box = labelBox canvas general p.label p.chosen
  clear : ∀ p ∈ placed, p.moved → ∀ obstacle ∈ static, canvas.overlaps p.box obstacle = false
  apart : placed.Pairwise (fun p q => q.moved → canvas.overlaps p.box q.box = false)
  first : ∀ before p after, placed = before ++ p :: after → p.moved → ∃ skipped rest,
    candidateOffsets = skipped ++ p.chosen :: rest ∧ ∀ offset ∈ skipped,
      ∃ obstacle ∈ static ++ before.map Placed.box, canvas.overlaps (labelBox canvas general p.label offset) obstacle = true
  stuck : ∀ before p after, placed = before ++ p :: after → ¬ p.moved → ∀ offset ∈ candidateOffsets,
    ∃ obstacle ∈ static ++ before.map Placed.box, canvas.overlaps (labelBox canvas general p.label offset) obstacle = true

theorem pairwise_of_splits {α : Type*} {R : α → α → Prop} {l : List α}
    (later : ∀ before p after, l = before ++ p :: after → ∀ q ∈ before, R q p) : l.Pairwise R := by
  induction l using List.reverseRecOn with
  | nil => exact .nil
  | append_singleton l last ih =>
    refine List.pairwise_append.mpr ⟨ih ?_, List.pairwise_singleton _ _, ?_⟩
    · rintro before p after rfl
      exact later before p (after ++ [last]) (by simp)
    · intro q member p same
      rw [List.mem_singleton.mp same]
      exact later l last [] rfl q member

theorem legible_placeLabels (static : List β) (labels : List Label) :
    Legible canvas general static (placeLabels canvas general static [] labels) := by
  have free {before after : List (Placed β)} {p : Placed β}
      (whole : placeLabels canvas general static [] labels = before ++ p :: after) (moved : p.moved) :
      ∀ obstacle ∈ static ++ before.map Placed.box, canvas.overlaps p.box obstacle = false := by
    obtain ⟨chosen, box⟩ := placeLabels_at whole
    rw [Placed.moved, chosen] at moved
    have found := isFree_iff.mp (chooseOffset_moved moved).1
    rw [box, chosen]
    exact found
  refine ⟨fun p member => ?_, fun p member moved obstacle here => ?_, pairwise_of_splits ?_, ?_, ?_⟩
  · obtain ⟨before, after, whole⟩ := List.append_of_mem member
    exact (placeLabels_at whole).2
  · obtain ⟨before, after, whole⟩ := List.append_of_mem member
    exact free whole moved obstacle (List.mem_append_left _ here)
  · intro before p after whole q member moved
    rw [canvas.overlaps_comm]
    exact free whole moved q.box (List.mem_append_right _ (List.mem_map_of_mem member))
  · intro before p after whole moved
    obtain ⟨chosen, -⟩ := placeLabels_at whole
    rw [Placed.moved, chosen] at moved
    obtain ⟨-, skipped, rest, same, taken⟩ := chooseOffset_moved moved
    rw [← chosen] at same
    exact ⟨skipped, rest, same, fun offset member => not_isFree_iff.mp (taken offset member)⟩
  · intro before p after whole left offset member
    obtain ⟨chosen, -⟩ := placeLabels_at whole
    rw [Placed.moved, not_not, chosen] at left
    exact not_isFree_iff.mp (chooseOffset_stuck left offset member)

end

/-- For every log of runs of latency benchmarks, and whatever the figure makes of texts
    and points: the scatter has one label for each cell with ok runs, at its point; these
    are placed so that a label with a line to its point hides nothing that was there,
    and two labels overlap only if the later one had no free place at all. -/
theorem scatter_labels {β : Type u} (canvas : Canvas β) (general : ℚ → String) (runs : List Run)
    (latency : ∀ run ∈ runs, isLatency run.task.framework)
    (rate : ∀ run ∈ runs, run.status = "ok" → run.throughput.isSome) :
    ∃ clouds, scatterPoints (collect (runs.flatMap latencyItems)) = some clouds ∧
      (∀ label, label ∈ pointLabels clouds ↔ ∃ cell, ShownAt runs label.framework label.sleepTime cell ∧
        label.xy = (mean (okValues (metricValue "p95_ms") cell runs),
          mean (okValues (metricValue "throughput_msg_per_sec") cell runs))) ∧
      ((pointLabels clouds).map (fun label => (label.framework, label.sleepTime))).Nodup ∧
      (placeLabels canvas general (staticObstacles canvas (pointLabels clouds)) [] (pointLabels clouds)).map Placed.label =
        pointLabels clouds ∧
      Legible canvas general (staticObstacles canvas (pointLabels clouds))
        (placeLabels canvas general (staticObstacles canvas (pointLabels clouds)) [] (pointLabels clouds)) := by
  obtain ⟨clouds, drawn, points⟩ := scatter_latency latency rate
  have populated := populated_collect (runs.flatMap latencyItems)
  obtain ⟨frameworks, times⟩ := drawLines_keys drawn
  have once := nodup_pointLabels (frameworks.nodup_iff.mpr populated.keys) (fun cloud member => by
    obtain ⟨own, inData, keys⟩ := times cloud member
    exact keys.nodup_iff.mpr (populated.inner_keys inData))
  refine ⟨clouds, drawn, fun label => ?_, once, placeLabels_labels _ _ _, legible_placeLabels _ _⟩
  rw [← points label.framework label.sleepTime label.xy]
  constructor
  · intro member
    obtain ⟨cloud, inClouds, inside⟩ := List.mem_flatMap.mp member
    obtain ⟨point, inCloud, rfl⟩ := List.mem_map.mp inside
    exact ⟨cloud.2, inClouds, inCloud⟩
  · rintro ⟨cloud, inClouds, inCloud⟩
    exact List.mem_flatMap.mpr ⟨(label.framework, cloud), inClouds, List.mem_map.mpr ⟨_, inCloud, rfl⟩⟩

/-- Boxes by their left, lower, right and upper ends; every text is 20 wide and 8 high,
    and a point is at the pixel of its latency and its throughput. -/
def plainCanvas : Canvas (ℚ × ℚ × ℚ × ℚ) where
  extent _ xy offset := (xy.1 + offset.1, xy.2 + offset.2, xy.1 + offset.1 + 20, xy.2 + offset.2 + 8)
  cornerExtent corner := (1000 * corner.x, 1000 * corner.y, 1000 * corner.x + 20, 1000 * corner.y + 8)
  transform xy := xy
  fromBounds x y width height := (x, y, x + width, y + height)
  expanded box sw sh :=
    let width := (sw - 1) * (box.2.2.1 - box.1) / 2
    let height := (sh - 1) * (box.2.2.2 - box.2.1) / 2
    (box.1 - width, box.2.1 - height, box.2.2.1 + width, box.2.2.2 + height)
  overlaps a b := a.1 ≤ b.2.2.1 && b.1 ≤ a.2.2.1 && a.2.1 ≤ b.2.2.2 && b.2.1 ≤ a.2.2.2
  overlaps_comm a b := by
    rw [Bool.and_comm (decide (a.1 ≤ b.2.2.1)), Bool.and_assoc, Bool.and_comm (decide (a.2.1 ≤ b.2.2.2)), ← Bool.and_assoc]

/-- Two sleep times with one latency and one throughput. -/
def sameRuns : List Run :=
  [1, 2].map (fun sleepTime => ⟨⟨⟨⟨"repid_latency", sleepTime⟩, 1⟩, false⟩,
    some ⟨"ok", [("throughput", .float 100), ("p95_ms", .float 4)]⟩⟩)

theorem scatter_labels_same : ∃ clouds, scatterPoints (collect (sameRuns.flatMap latencyItems)) = some clouds ∧
    (placeLabels plainCanvas (fun _ => "1") (staticObstacles plainCanvas (pointLabels clouds)) []
      (pointLabels clouds)).map Placed.chosen = [(12, 16), (-32, 16)] ∧
    Legible plainCanvas (fun _ => "1") (staticObstacles plainCanvas (pointLabels clouds))
      (placeLabels plainCanvas (fun _ => "1") (staticObstacles plainCanvas (pointLabels clouds)) [] (pointLabels clouds)) := by
  obtain ⟨clouds, drawn, -, -, -, legible⟩ :=
    scatter_labels plainCanvas (fun _ => "1") sameRuns (by decide +kernel) (by decide +kernel)
  have known : scatterPoints (collect (sameRuns.flatMap latencyItems)) = some [("repid", [(1, 4, 100), (2, 4, 100)])] := by
    decide +kernel
  obtain rfl := Option.some.inj (drawn.symm.trans known)
  exact ⟨_, drawn, by decide +kernel, legible⟩

end RepidBench.ScatterLabels
