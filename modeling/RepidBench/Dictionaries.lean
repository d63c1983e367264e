import RepidBench.Sessions

/-!
Dictionaries as lists of entries: what is found in one after a number of
assignments is what was assigned last.
-/
namespace RepidBench.Dictionaries
open Sessions (assign)

universe u v
variable {κ : Type u} {β : Type v} [DecidableEq κ]

/-! ## Entries without a duplicate key -/

theorem lookup_cons (entry : κ × β) (rest : List (κ × β)) (key : κ) :
    (entry :: rest).lookup key = if key = entry.1 then some entry.2 else rest.lookup key := by
  rw [List.lookup_cons]
  by_cases same : key = entry.1
  · rw [if_pos same, beq_iff_eq.mpr same]
  · rw [if_neg same, beq_false_of_ne same]

theorem mem_of_lookup {entries : List (κ × β)} {key : κ} {value : β} (found : entries.lookup key = some value) :
    (key, value) ∈ entries := by
  obtain ⟨before, after, rfl, _⟩ := List.lookup_eq_some_iff.mp found
  simp

theorem lookup_of_mem {entries : List (κ × β)} (distinct : (entries.map Prod.fst).Nodup) {key : κ} {value : β}
    (member : (key, value) ∈ entries) : entries.lookup key = some value := by
  induction entries with
  | nil => cases member
  | cons entry rest ih =>
    obtain ⟨absent, distinctRest⟩ := List.nodup_cons.mp distinct
    rcases List.mem_cons.mp member with rfl | later
    · exact List.lookup_cons_self
    · have other : key ≠ entry.1 := by
        rintro rfl
        exact absent (List.mem_map.mpr ⟨_, later, rfl⟩)
      rw [lookup_cons, if_neg other]
      exact ih distinctRest later

/-- Dictionaries with the same values have the same entries. -/
theorem perm_of_lookup {xs ys : List (κ × β)} (distinct : (xs.map Prod.fst).Nodup)
    (distinct' : (ys.map Prod.fst).Nodup) (same : ∀ key, xs.lookup key = ys.lookup key) : xs.Perm ys := by
  refine (List.perm_ext_iff_of_nodup distinct.of_map distinct'.of_map).mpr ?_
  rintro ⟨key, value⟩
  constructor
  · intro member
    exact mem_of_lookup ((same key).symm.trans (lookup_of_mem distinct member))
  · intro member
    exact mem_of_lookup ((same key).trans (lookup_of_mem distinct' member))

/-! ## Assignments -/

theorem lookup_assign (entries : List (κ × β)) (key other : κ) (value : β) :
    (assign key value entries).lookup other = if other = key then some value else entries.lookup other := by
  induction entries with
  | nil => rw [assign, lookup_cons]
  | cons entry rest ih =>
    unfold assign
    by_cases here : entry.1 = key
    · rw [if_pos here, lookup_cons, lookup_cons, here]
      split_ifs <;> rfl
    · rw [if_neg here, lookup_cons, lookup_cons, ih]
      by_cases found : other = entry.1
      · have apart : other ≠ key := fun same => here (found.symm.trans same)
        rw [if_pos found, if_neg apart, if_pos found]
      · rw [if_neg found, if_neg found]

theorem assign_keys (entries : List (κ × β)) (key other : κ) (value : β) :
    other ∈ (assign key value entries).map Prod.fst ↔ other = key ∨ other ∈ entries.map Prod.fst := by
  induction entries with
  | nil => simp [assign]
  | cons entry rest ih =>
    unfold assign
    by_cases here : entry.1 = key
    · rw [if_pos here, List.map_cons, List.map_cons, List.mem_cons, List.mem_cons, here]
      tauto
    · rw [if_neg here, List.map_cons, List.map_cons, List.mem_cons, List.mem_cons, ih]
      tauto

theorem assign_nodup {entries : List (κ × β)} (distinct : (entries.map Prod.fst).Nodup) (key : κ) (value : β) :
    ((assign key value entries).map Prod.fst).Nodup := by
  induction entries with
  | nil => exact List.nodup_singleton key
  | cons entry rest ih =>
    obtain ⟨absent, distinctRest⟩ := List.nodup_cons.mp distinct
    unfold assign
    by_cases here : entry.1 = key
    · rw [if_pos here, List.map_cons]
      exact List.nodup_cons.mpr ⟨here ▸ absent, distinctRest⟩
    · rw [if_neg here, List.map_cons]
      refine List.nodup_cons.mpr ⟨fun member => ?_, ih distinctRest⟩
      rcases (assign_keys rest key entry.1 value).mp member with same | later
      · exact here same
      · exact absent later

/-- The dictionary after some assignments. -/
def assigned (items : List (κ × β)) : List (κ × β) := items.foldl (fun entries item => assign item.1 item.2 entries) []

theorem assigned_snoc (items : List (κ × β)) (item : κ × β) :
    assigned (items ++ [item]) = assign item.1 item.2 (assigned items) := List.foldl_concat _ _ _ _

theorem lookup_assigned (items : List (κ × β)) (key : κ) : (assigned items).lookup key = items.reverse.lookup key := by
  induction items using List.reverseRecOn with
  | nil => rfl
  | append_singleton items item ih =>
    rw [assigned_snoc, lookup_assign, ih, List.reverse_append, List.reverse_singleton, List.singleton_append,
      lookup_cons]

theorem assigned_nodup (items : List (κ × β)) : ((assigned items).map Prod.fst).Nodup := by
  induction items using List.reverseRecOn with
  | nil => exact List.nodup_nil
  | append_singleton items item ih =>
    rw [assigned_snoc]
    exact assign_nodup ih item.1 item.2

/-! ## Values that are changed -/

/-- `d[key] = f(d[key])`, where a missing key has the default value. -/
def update (key : κ) (default : β) (f : β → β) (entries : List (κ × β)) : List (κ × β) :=
  assign key (f ((entries.lookup key).getD default)) entries

theorem lookup_update (entries : List (κ × β)) (key other : κ) (default : β) (f : β → β) :
    ((update key default f entries).lookup other).getD default =
      if other = key then f ((entries.lookup key).getD default) else (entries.lookup other).getD default := by
  rw [update, lookup_assign]
  split_ifs <;> rfl

/-- What a change adds to one value it adds to the sum over all. -/
theorem sum_update {M : Type*} [AddCommMonoid M] (g : β → M) {key : κ} {default : β} {f : β → β}
    {entries : List (κ × β)} {added : M} (zero : g default = 0)
    (adds : ∀ value, g (f value) = g value + added) :
    ((update key default f entries).map (fun entry => g entry.2)).sum =
      (entries.map (fun entry => g entry.2)).sum + added := by
  unfold update
  induction entries with
  | nil => simp [assign, adds, zero]
  | cons entry rest ih =>
    rw [assign, lookup_cons]
    by_cases here : entry.1 = key
    · simp only [if_pos here, if_pos here.symm, Option.getD_some, List.map_cons, List.sum_cons, adds]
      exact add_right_comm _ _ _
    · simp only [if_neg here, if_neg (fun same => here (Eq.symm same)), List.map_cons, List.sum_cons, ih]
      exact (add_assoc _ _ _).symm

/-! ## What is overwritten -/

section
universe w
variable {α : Type w} (keyOf : α → κ)

/-- The assignments that no later one overwrites. -/
def kept : List α → List α
  | [] => []
  | a :: rest => if ∃ b ∈ rest, keyOf b = keyOf a then kept rest else a :: kept rest

/-- The others. -/
def overwritten : List α → List α
  | [] => []
  | a :: rest => if ∃ b ∈ rest, keyOf b = keyOf a then a :: overwritten rest else overwritten rest

variable {keyOf}

theorem mem_kept {l : List α} {a : α} :
    a ∈ kept keyOf l ↔ ∃ before after, l = before ++ a :: after ∧ ∀ b ∈ after, keyOf b ≠ keyOf a := by
  induction l with
  | nil => simp [kept]
  | cons c rest ih =>
    have shifted : (∃ before after, c :: rest = before ++ a :: after ∧ ∀ b ∈ after, keyOf b ≠ keyOf a) ↔
        (c = a ∧ ∀ b ∈ rest, keyOf b ≠ keyOf a) ∨ a ∈ kept keyOf rest := by
      rw [ih]
      constructor
      · rintro ⟨before, after, split, last⟩
        cases before with
        | nil =>
          cases split
          exact .inl ⟨rfl, last⟩
        | cons d before =>
          cases split
          exact .inr ⟨before, after, rfl, last⟩
      · rintro (⟨rfl, last⟩ | ⟨before, after, rfl, last⟩)
        · exact ⟨[], rest, rfl, last⟩
        · exact ⟨c :: before, after, rfl, last⟩
    rw [shifted, kept]
    by_cases again : ∃ b ∈ rest, keyOf b = keyOf c
    · rw [if_pos again]
      constructor
      · exact .inr
      · rintro (⟨rfl, last⟩ | later)
        · obtain ⟨b, member, same⟩ := again
          exact absurd same (last b member)
        · exact later
    · rw [if_neg again, List.mem_cons]
      constructor
      · rintro (rfl | later)
        · exact .inl ⟨rfl, fun b member same => again ⟨b, member, same⟩⟩
        · exact .inr later
      · rintro (⟨rfl, _⟩ | later)
        · exact .inl rfl
        · exact .inr later

theorem mem_of_overwritten {l : List α} {a : α} (member : a ∈ overwritten keyOf l) :
    ∃ before after, l = before ++ a :: after ∧ ∃ b ∈ after, keyOf b = keyOf a := by
  induction l with
  | nil => cases member
  | cons c rest ih =>
    rw [overwritten] at member
    by_cases again : ∃ b ∈ rest, keyOf b = keyOf c
    · rw [if_pos again] at member
      rcases List.mem_cons.mp member with rfl | later
      · exact ⟨[], rest, rfl, again⟩
      · obtain ⟨before, after, rfl, overwrites⟩ := ih later
        exact ⟨c :: before, after, rfl, overwrites⟩
    · rw [if_neg again] at member
      obtain ⟨before, after, rfl, overwrites⟩ := ih member
      exact ⟨c :: before, after, rfl, overwrites⟩

variable (keyOf)

theorem kept_append_overwritten (l : List α) : (kept keyOf l ++ overwritten keyOf l).Perm l := by
  induction l with
  | nil => exact .nil
  | cons a rest ih =>
    rw [kept, overwritten]
    by_cases again : ∃ b ∈ rest, keyOf b = keyOf a
    · rw [if_pos again, if_pos again]
      exact List.perm_middle.trans (ih.cons a)
    · rw [if_neg again, if_neg again]
      exact ih.cons a

theorem kept_sublist (l : List α) : (kept keyOf l).Sublist l := by
  induction l with
  | nil => exact .slnil
  | cons a rest ih =>
    rw [kept]
    split_ifs
    · exact ih.cons a
    · exact ih.cons_cons a

theorem kept_nodup (l : List α) : ((kept keyOf l).map keyOf).Nodup := by
  induction l with
  | nil => exact List.nodup_nil
  | cons a rest ih =>
    rw [kept]
    by_cases again : ∃ b ∈ rest, keyOf b = keyOf a
    · rw [if_pos again]
      exact ih
    · rw [if_neg again, List.map_cons]
      refine List.nodup_cons.mpr ⟨fun member => ?_, ih⟩
      obtain ⟨b, inside, same⟩ := List.mem_map.mp member
      exact again ⟨b, (kept_sublist keyOf rest).mem inside, same⟩

theorem kept_keys (l : List α) (key : κ) : key ∈ (kept keyOf l).map keyOf ↔ key ∈ l.map keyOf := by
  induction l with
  | nil => rfl
  | cons a rest ih =>
    rw [kept, List.map_cons, List.mem_cons]
    by_cases again : ∃ b ∈ rest, keyOf b = keyOf a
    · rw [if_pos again, ih]
      constructor
      · exact .inr
      · rintro (rfl | later)
        · obtain ⟨b, member, same⟩ := again
          exact List.mem_map.mpr ⟨b, member, same⟩
        · exact later
    · rw [if_neg again, List.map_cons, List.mem_cons, ih]

/-- A dictionary has the entries that were not overwritten. -/
theorem assigned_perm (valueOf : α → β) (l : List α) :
    (assigned (l.map (fun a => (keyOf a, valueOf a)))).Perm ((kept keyOf l).map (fun a => (keyOf a, valueOf a))) := by
  have distinct : (((kept keyOf l).map (fun a => (keyOf a, valueOf a))).map Prod.fst).Nodup := by
    rw [List.map_map]
    exact kept_nodup keyOf l
  refine perm_of_lookup (assigned_nodup _) distinct (fun key => ?_)
  rw [lookup_assigned]
  induction l with
  | nil => rfl
  | cons a rest ih =>
    have ih := ih (by rw [List.map_map]; exact kept_nodup keyOf rest)
    rw [List.map_cons, List.reverse_cons, List.lookup_append, ih, kept, lookup_cons]
    have found : (((kept keyOf rest).map (fun a => (keyOf a, valueOf a))).lookup key).isSome ↔ key ∈ rest.map keyOf := by
      rw [← kept_keys keyOf rest, List.lookup_isSome_iff, List.mem_map]
      constructor
      · rintro ⟨entry, member, same⟩
        obtain ⟨b, inside, rfl⟩ := List.mem_map.mp member
        exact ⟨b, inside, (beq_iff_eq.mp same).symm⟩
      · rintro ⟨b, inside, rfl⟩
        exact ⟨_, List.mem_map.mpr ⟨b, inside, rfl⟩, beq_self_eq_true _⟩
    by_cases again : ∃ b ∈ rest, keyOf b = keyOf a
    · rw [if_pos again]
      by_cases own : key = keyOf a
      · obtain ⟨b, member, same⟩ := again
        obtain ⟨value, there⟩ := Option.isSome_iff_exists.mp
          (found.mpr (List.mem_map.mpr ⟨b, member, same.trans own.symm⟩))
        rw [there, Option.some_or]
      · rw [if_neg own, List.lookup_nil, Option.or_none]
    · rw [if_neg again, List.map_cons, lookup_cons]
      by_cases own : key = keyOf a
      · have absent : key ∉ rest.map keyOf := by
          intro member
          obtain ⟨b, inside, same⟩ := List.mem_map.mp member
          exact again ⟨b, inside, same.trans own⟩
        rw [if_pos own, if_pos own, Option.not_isSome_iff_eq_none.mp (fun there => absent (found.mp there)), Option.none_or]
      · rw [if_neg own, if_neg own, List.lookup_nil, Option.or_none]

/-- Assigning to keys that are distinct keeps every item, in its place. -/
theorem assigned_of_nodup {items : List (κ × β)} (distinct : (items.map Prod.fst).Nodup) : assigned items = items := by
  have last : ∀ (entries : List (κ × β)) (key : κ) (value : β), key ∉ entries.map Prod.fst →
      assign key value entries = entries ++ [(key, value)] := by
    intro entries key value absent
    induction entries with
    | nil => rfl
    | cons entry rest ih =>
      obtain ⟨other, absent⟩ := List.ne_and_not_mem_of_not_mem_cons absent
      rw [assign, if_neg other.symm, ih absent, List.cons_append]
  induction items using List.reverseRecOn with
  | nil => rfl
  | append_singleton items item ih =>
    rw [List.map_append, List.nodup_append] at distinct
    obtain ⟨before, -, apart⟩ := distinct
    have absent : item.1 ∉ items.map Prod.fst := fun member => apart _ member _ (List.mem_singleton.mpr rfl) rfl
    rw [assigned_snoc, ih before, last _ _ _ absent]

end

/-- A comprehension that fails at no item. -/
theorem mapM_eq_map {α : Type u} {β : Type v} {f : α → Option β} {g : α → β} {l : List α}
    (each : ∀ a ∈ l, f a = some (g a)) : l.mapM f = some (l.map g) := by
  induction l with
  | nil => rfl
  | cons a l ih =>
    rw [List.mapM_cons, each a List.mem_cons_self, ih (fun b member => each b (List.mem_cons_of_mem a member))]
    rfl

/-- Where each result keeps something of its item, so do all. -/
theorem map_of_mapM {α : Type u} {β : Type v} {γ : Type w} {f : α → Option β} {g : α → γ} {h : β → γ} {l : List α}
    {results : List β} (computed : l.mapM f = some results) (keeps : ∀ a b, f a = some b → h b = g a) :
    results.map h = l.map g := by
  induction l generalizing results with
  | nil =>
    cases computed
    rfl
  | cons a l ih =>
    rw [List.mapM_cons] at computed
    obtain ⟨b, first, rest⟩ := Option.bind_eq_some_iff.mp computed
    obtain ⟨others, later, whole⟩ := Option.bind_eq_some_iff.mp rest
    cases whole
    rw [List.map_cons, List.map_cons, keeps a b first, ih later]

/-- Each result is of an item. -/
theorem exists_of_mapM {α : Type u} {β : Type v} {f : α → Option β} {l : List α} {results : List β}
    (computed : l.mapM f = some results) {b : β} (member : b ∈ results) : ∃ a ∈ l, f a = some b := by
  induction l generalizing results with
  | nil =>
    cases computed
    cases member
  | cons a l ih =>
    rw [List.mapM_cons] at computed
    obtain ⟨c, first, rest⟩ := Option.bind_eq_some_iff.mp computed
    obtain ⟨others, later, whole⟩ := Option.bind_eq_some_iff.mp rest
    cases whole
    rcases List.mem_cons.mp member with rfl | member
    · exact ⟨a, List.mem_cons_self, first⟩
    · obtain ⟨own, inside, computed⟩ := ih later member
      exact ⟨own, List.mem_cons_of_mem a inside, computed⟩

end RepidBench.Dictionaries
