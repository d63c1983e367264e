import RepidBench.Dictionaries

/-!
Lists under three keys: dictionaries of dictionaries of dictionaries of lists that are
filled only by appending, as nested `defaultdict`s are. What is held under the keys
is what was appended under them, and no key has nothing under it.
-/
namespace RepidBench.NestedLists
open Dictionaries Sessions

universe u v w x
variable {α : Type u} {β : Type v} {γ : Type w} {δ : Type x} [DecidableEq α] [DecidableEq β] [DecidableEq γ]

abbrev Nested (α : Type u) (β : Type v) (γ : Type w) (δ : Type x) := List (α × List (β × List (γ × List δ)))

/-- `data[a][b][c].append(x)`. -/
def append (data : Nested α β γ δ) (key : α × β × γ) (value : δ) : Nested α β γ δ :=
  update key.1 [] (update key.2.1 [] (update key.2.2 [] (· ++ [value]))) data

/-- `data[a][b][c]`. -/
def held (data : Nested α β γ δ) (key : α × β × γ) : List δ :=
  (((((data.lookup key.1).getD []).lookup key.2.1).getD []).lookup key.2.2).getD []

/-- What these appends make of an empty dictionary. -/
def collect (items : List ((α × β × γ) × δ)) : Nested α β γ δ :=
  items.foldl (fun data item => append data item.1 item.2) []

theorem collect_snoc (items : List ((α × β × γ) × δ)) (item : (α × β × γ) × δ) :
    collect (items ++ [item]) = append (collect items) item.1 item.2 := List.foldl_concat _ _ _ _

theorem held_append (data : Nested α β γ δ) (key other : α × β × γ) (value : δ) :
    held (append data key value) other = held data other ++ if other = key then [value] else [] := by
  unfold held append
  rw [lookup_update]
  by_cases first : other.1 = key.1
  · rw [if_pos first, lookup_update, first]
    by_cases second : other.2.1 = key.2.1
    · rw [if_pos second, lookup_update, second]
      by_cases third : other.2.2 = key.2.2
      · rw [if_pos third, if_pos (Prod.ext first (Prod.ext second third)), third]
      · rw [if_neg third, if_neg (fun same => third (congrArg (fun k => k.2.2) same)), List.append_nil]
    · rw [if_neg second, if_neg (fun same => second (congrArg (fun k => k.2.1) same)), List.append_nil]
  · rw [if_neg first, if_neg (fun same => first (congrArg Prod.fst same)), List.append_nil]

/-- What is held under the keys, in the order of the appends. -/
theorem held_collect (items : List ((α × β × γ) × δ)) (key : α × β × γ) :
    held (collect items) key = items.filterMap (fun item => if item.1 = key then some item.2 else none) := by
  induction items using List.reverseRecOn with
  | nil => rfl
  | append_singleton items item ih =>
    rw [collect_snoc, held_append, ih, List.filterMap_append]
    by_cases same : item.1 = key
    · rw [if_pos same.symm]
      simp [same]
    · rw [if_neg (Ne.symm same)]
      simp [same]

/-! ## No empty places -/

/-- A dictionary that is not empty, with good values only. -/
structure Filled {κ : Type u} {ν : Type v} (good : ν → Prop) (entries : List (κ × ν)) : Prop where
  present : entries ≠ []
  keys : (entries.map Prod.fst).Nodup
  values : ∀ entry ∈ entries, good entry.2

theorem assign_values {κ : Type u} {ν : Type v} [DecidableEq κ] {good : ν → Prop} {entries : List (κ × ν)}
    (values : ∀ entry ∈ entries, good entry.2) (key : κ) {value : ν} (new : good value) :
    ∀ entry ∈ assign key value entries, good entry.2 := by
  induction entries with
  | nil =>
    intro entry member
    obtain rfl : entry = (key, value) := List.mem_singleton.mp member
    exact new
  | cons first rest ih =>
    have later := ih (fun entry member => values entry (List.mem_cons_of_mem first member))
    intro entry member
    rw [assign] at member
    split_ifs at member
    · rcases List.mem_cons.mp member with rfl | inRest
      · exact new
      · exact values entry (List.mem_cons_of_mem first inRest)
    · rcases List.mem_cons.mp member with rfl | inRest
      · exact values _ List.mem_cons_self
      · exact later entry inRest

/-- A change that makes a value good, or leaves it good, fills the dictionary. -/
theorem Filled.update {κ : Type u} {ν : Type v} [DecidableEq κ] {good : ν → Prop} {default : ν} {f : ν → ν}
    {entries : List (κ × ν)} (before : entries = [] ∨ Filled good entries)
    (makes : ∀ value, value = default ∨ good value → good (f value)) (key : κ) :
    Filled good (update key default f entries) := by
  have keys : (entries.map Prod.fst).Nodup := by
    rcases before with rfl | filled
    · exact List.nodup_nil
    · exact filled.keys
  have values : ∀ entry ∈ entries, good entry.2 := by
    rcases before with rfl | filled
    · exact fun _ member => absurd member List.not_mem_nil
    · exact filled.values
  have found : (entries.lookup key).getD default = default ∨ good ((entries.lookup key).getD default) := by
    cases found : entries.lookup key with
    | none => exact .inl rfl
    | some value => exact .inr (values _ (mem_of_lookup found))
  refine ⟨?_, assign_nodup keys key _, assign_values values key (makes _ found)⟩
  unfold Dictionaries.update
  cases entries with
  | nil => exact List.cons_ne_nil _ _
  | cons entry rest =>
    rw [assign]
    split_ifs <;> exact List.cons_ne_nil _ _

/-- Every dictionary in it has an entry, and every list a value. -/
def Populated (data : Nested α β γ δ) : Prop := data = [] ∨ Filled (Filled (Filled (· ≠ []))) data

theorem populated_collect (items : List ((α × β × γ) × δ)) : Populated (collect items) := by
  induction items using List.reverseRecOn with
  | nil => exact .inl rfl
  | append_singleton items item ih =>
    rw [collect_snoc, append]
    refine .inr (Filled.update ih (fun bs whole => ?_) _)
    refine Filled.update whole (fun cs part => ?_) _
    exact Filled.update part (fun values _ => List.append_ne_nil_of_right_ne_nil values (List.cons_ne_nil _ [])) _

/-- A list inside is what is held under its keys, and it is not empty. -/
theorem Populated.mem_iff {data : Nested α β γ δ} (populated : Populated data) (a : α) (b : β) (c : γ) (values : List δ) :
    (∃ cs, (b, cs) ∈ (data.lookup a).getD [] ∧ (c, values) ∈ cs) ↔ held data (a, b, c) = values ∧ values ≠ [] := by
  constructor
  · rintro ⟨cs, second, third⟩
    cases first : data.lookup a with
    | none => simp [first] at second
    | some bs =>
      rw [first, Option.getD_some] at second
      rcases populated with rfl | whole
      · cases first
      · have part := whole.values _ (mem_of_lookup first)
        have last := part.values _ second
        refine ⟨?_, last.values _ third⟩
        simp only [held, first, lookup_of_mem part.keys second, lookup_of_mem last.keys third, Option.getD_some]
  · rintro ⟨rfl, present⟩
    unfold held at present ⊢
    cases first : data.lookup a with
    | none => simp [first] at present
    | some bs =>
      cases second : bs.lookup b with
      | none => simp [first, second] at present
      | some cs =>
        cases third : cs.lookup c with
        | none => simp [first, second, third] at present
        | some values =>
          refine ⟨cs, mem_of_lookup second, ?_⟩
          simpa only [second, third, Option.getD_some] using mem_of_lookup third

omit [DecidableEq α] [DecidableEq β] [DecidableEq γ] in
/-- No key is there twice. -/
theorem Populated.keys {data : Nested α β γ δ} (populated : Populated data) : (data.map Prod.fst).Nodup := by
  rcases populated with rfl | whole
  · exact List.nodup_nil
  · exact whole.keys

omit [DecidableEq α] [DecidableEq β] [DecidableEq γ] in
theorem Populated.inner_keys {data : Nested α β γ δ} (populated : Populated data) {entry : α × List (β × List (γ × List δ))}
    (member : entry ∈ data) : (entry.2.map Prod.fst).Nodup := by
  rcases populated with rfl | whole
  · cases member
  · exact (whole.values entry member).keys

/-- Inside two dictionaries is what is held under their keys, and something is. -/
theorem Populated.inner {data : Nested α β γ δ} (populated : Populated data) {a : α} {bs : List (β × List (γ × List δ))}
    {b : β} {cs : List (γ × List δ)} (first : (a, bs) ∈ data) (second : (b, cs) ∈ bs) :
    (∀ c, (cs.lookup c).getD [] = held data (a, b, c)) ∧ ∃ c, held data (a, b, c) ≠ [] := by
  rcases populated with rfl | whole
  · cases first
  · have part := whole.values _ first
    have last := part.values _ second
    have under : ∀ c, (cs.lookup c).getD [] = held data (a, b, c) := by
      intro c
      simp only [held, lookup_of_mem whole.keys first, lookup_of_mem part.keys second, Option.getD_some]
    refine ⟨under, ?_⟩
    obtain ⟨⟨c, values⟩, inside⟩ := List.exists_mem_of_ne_nil _ last.present
    refine ⟨c, ?_⟩
    rw [← under, lookup_of_mem last.keys inside]
    exact last.values _ inside

/-- What is held is inside two dictionaries. -/
theorem exists_of_held {data : Nested α β γ δ} {a : α} {b : β} {c : γ} (present : held data (a, b, c) ≠ []) :
    ∃ bs cs, (a, bs) ∈ data ∧ (b, cs) ∈ bs := by
  unfold held at present
  cases first : data.lookup a with
  | none => simp [first] at present
  | some bs =>
    cases second : bs.lookup b with
    | none => simp [first, second] at present
    | some cs => exact ⟨bs, cs, mem_of_lookup first, mem_of_lookup second⟩

end RepidBench.NestedLists
