import HostPrereqs.Proofs.Requirements.Order
import HostPrereqs.Proofs.Requirements.Rebuilding

/-!
# Requirements — merging at once and in turn

Requirements that are merged can be read back from data after every step (`mergeAsData`).  Tidy
requirements come through that unchanged, so it makes no difference whether others are merged at
once or one after the other (`foldlM_merge`), nor whether what is made is read back in between
(`foldlM_mergeAsData`).

An addition leaves the slots, phases and relations that are there where they stand, and adds those
of its item (`slots_sublist_put`, `lists_put`).  `Combines` says what follows for the requirements
that come out of a merge.

* `combines_of_merge`: requirements that come out of a merge combine what went into it.
-/

namespace HostPrereqs

namespace Table

variable {α β : Type} {t : Table α} {k n : String}

theorem mem_names_alter (f : Option α → α) :
    n ∈ (alter k f t).names ↔ n ∈ t.names ∨ n = k := by
  induction t with
  | nil => simp [alter, names]
  | cons e t ih =>
      obtain ⟨k', v⟩ := e
      rw [names, names] at ih
      by_cases hk : k' = k
      · subst hk
        simp only [alter, if_true, names, List.map_cons, List.mem_cons]
        grind
      · simp only [alter, if_neg hk, names, List.map_cons, List.mem_cons, ih, or_assoc]

/-- What the entries of a table give keeps its order when one of them is altered to give more. -/
theorem flatMap_sublist_alter {f : Option α → α} {g : String → α → List β}
    (h : ∀ v, (g k v).Sublist (g k (f (some v)))) :
    (t.flatMap fun e => g e.1 e.2).Sublist ((alter k f t).flatMap fun e => g e.1 e.2) := by
  induction t with
  | nil => exact List.nil_sublist _
  | cons e t ih =>
      obtain ⟨k', v⟩ := e
      by_cases hk : k' = k
      · subst hk
        simp only [alter, if_true, List.flatMap_cons]
        exact (h v).append_right _
      · simp only [alter, if_neg hk, List.flatMap_cons]
        exact ih.append_left _

end Table

namespace Requirements

variable {a r r' : Requirements} {bs others : List Requirements} {s : Slot}
  {phase relation text : String}

/-! ### Reading back after each step -/

/-- Merges requirements and reads what comes out back from data. -/
def mergeAsData (r : Requirements) (others : List Requirements) :
    Except FragmentError Requirements := do
  let merged : Requirements ← (others.foldlM (fun (r other : Requirements) =>
    other.items.foldlM add r) r).mapError FragmentError.badRange
  ofValue merged.toValue

/-- Tidy requirements are read back as they were, so reading them back makes no difference. -/
theorem Tidy.mergeAsData_eq (h : r.Tidy) (hothers : ∀ b ∈ others, b.Tidy) :
    r.mergeAsData others = (r.merge others).mapError .badRange := by
  rw [mergeAsData, foldlM_items, merge_eq h.valid fun b hb => (hothers b hb).valid]
  cases hadd : (others.flatMap items).foldlM add r with
  | error e => rfl
  | ok merged => exact (h.foldlM_add (kept_of_mem_flatMap hothers) hadd).ofValue_toValue

theorem foldlM_mergeAsData (h : ∀ b ∈ r :: others, b.Tidy) :
    others.foldlM (fun r b => r.mergeAsData [b]) r = (r.merge others).mapError .badRange := by
  rw [← foldlM_merge fun b hb => (h b hb).valid]
  induction others generalizing r with
  | nil => rfl
  | cons b others ih =>
      obtain ⟨hr, hrest⟩ := List.forall_mem_cons.1 h
      obtain ⟨hb, hothers⟩ := List.forall_mem_cons.1 hrest
      have hone : ∀ c ∈ [b], c.Tidy := List.forall_mem_singleton.2 hb
      rw [List.foldlM_cons, List.foldlM_cons, Result.mapError_bind, hr.mergeAsData_eq hone]
      refine Result.bind_congr fun merged hmerged => ?_
      have hmerged := hr.merge hone (Result.mapError_eq_ok.1 hmerged)
      exact ih (List.forall_mem_cons.2 ⟨hmerged, hothers⟩)

/-! ### What an addition leaves in place -/

/-- The slots that are listed, in order. -/
def slots (r : Requirements) : List Slot := r.items.map (·.slot)

/-- The relations that are listed under a phase, in order. -/
def relations (r : Requirements) (phase : String) : List String :=
  ((r.phases.get? phase).getD []).names

theorem slots_eq (r : Requirements) : r.slots = r.phases.flatMap fun e =>
    e.2.flatMap fun e' => e'.2.flatMap fun e'' => [⟨e.1, e'.1, e''.1⟩] := by
  simp only [slots, items, List.map_flatMap, List.map_map, ← List.map_eq_flatMap]
  rfl

/-- The slots that are listed keep their order. -/
theorem slots_sublist_put (r : Requirements) (s : Slot) (text : String) :
    r.slots.Sublist (r.put s text).slots := by
  rw [slots_eq, slots_eq]
  -- at each level one entry is altered, and lists at least what it listed
  refine Table.flatMap_sublist_alter (g := fun phase (relations : Table (Table String)) =>
    relations.flatMap fun e' => e'.2.flatMap fun e'' => [(⟨phase, e'.1, e''.1⟩ : Slot)])
    fun relations => ?_
  refine Table.flatMap_sublist_alter (g := fun relation (modules : Table String) =>
    modules.flatMap fun e'' => [(⟨s.phase, relation, e''.1⟩ : Slot)]) fun modules => ?_
  exact Table.flatMap_sublist_alter (g := fun module _ =>
    [(⟨s.phase, s.relation, module⟩ : Slot)]) fun _ => .refl _

theorem mem_phases_put : phase ∈ (r.put s text).phases.names ↔
    phase ∈ r.phases.names ∨ s.phase = phase := by
  rw [put, alterAt, Table.mem_names_alter, eq_comm (a := phase)]

theorem mem_relations_put : relation ∈ (r.put s text).relations phase ↔
    relation ∈ r.relations phase ∨ s.phase = phase ∧ s.relation = relation := by
  simp only [relations, put, alterAt, Table.get?_alter]
  by_cases hphase : phase = s.phase
  · subst hphase
    simp [Table.mem_names_alter, eq_comm]
  · simp [hphase, Ne.symm hphase]

theorem isSome_at?_put {s' : Slot} :
    ((r.put s text).at? s').isSome ↔ (r.at? s').isSome ∨ s = s' := by
  rw [at?_put]
  by_cases hs : s' = s
  · simp [hs]
  · simp [hs, Ne.symm hs]

/-- What additions bring about holds if it held before or an item brings it about. -/
theorem foldlM_add_iff {P : Requirements → Prop} {Q : Slot → Prop}
    (hput : ∀ (r : Requirements) (s : Slot) (text : String), P (r.put s text) ↔ P r ∨ Q s)
    {added : List Requirement} (hr' : added.foldlM add r = .ok r') :
    P r' ↔ P r ∨ ∃ item ∈ added, Q item.slot := by
  induction added generalizing r with
  | nil =>
      obtain rfl := Except.ok.inj hr'
      simp
  | cons item added ih =>
      obtain ⟨text, -, hrest⟩ := foldlM_add_cons_eq_ok.1 hr'
      rw [ih hrest, hput, or_assoc]
      simp

theorem merge_iff {P : Requirements → Prop} {Q : Slot → Prop}
    (hput : ∀ (r : Requirements) (s : Slot) (text : String), P (r.put s text) ↔ P r ∨ Q s)
    (h : ∀ b ∈ a :: bs, b.Valid) (hr : a.merge bs = .ok r) :
    P r ↔ P a ∨ ∃ b ∈ bs, ∃ item ∈ b.items, Q item.slot := by
  obtain ⟨ha, hbs⟩ := List.forall_mem_cons.1 h
  rw [foldlM_add_iff hput ((merge_eq_ok ha hbs).1 hr)]
  simp only [List.mem_flatMap]
  grind

/-- What requirements that come out of a merge owe to those that went into it. -/
structure Combines (a : Requirements) (bs : List Requirements) (r : Requirements) : Prop where
  /-- The slots are those of all of them. -/
  mem_slots : ∀ s, s ∈ r.slots ↔ ∃ b ∈ a :: bs, s ∈ b.slots
  /-- A range whose slot no other of them lists is kept as it is written. -/
  verbatim : ∀ before b after, a :: bs = before ++ b :: after → ∀ item ∈ b.items,
    (∀ c ∈ before ++ after, item.slot ∉ c.slots) → item ∈ r.items
  /-- The slots of the first keep their order. -/
  slots_sublist : a.slots.Sublist r.slots
  /-- A phase is added only for an item. -/
  mem_phases : ∀ phase, phase ∈ r.phases.names ↔
    phase ∈ a.phases.names ∨ ∃ b ∈ bs, ∃ item ∈ b.items, item.phase = phase
  /-- So is a relation. -/
  mem_relations : ∀ phase relation, relation ∈ r.relations phase ↔
    relation ∈ a.relations phase ∨
      ∃ b ∈ bs, ∃ item ∈ b.items, item.phase = phase ∧ item.relation = relation

theorem rangesOf_eq_nil {rs : List Requirements} (h : ∀ c ∈ rs, c.Valid)
    (hs : ∀ c ∈ rs, s ∉ c.slots) : rangesOf s rs = [] := by
  refine List.filterMap_eq_nil_iff.2 fun c hc => ?_
  have hnone := hs c hc
  rwa [slots, (h c hc).mem_slots_iff, Option.not_isSome_iff_eq_none] at hnone

/-- A slot that only one of the merged requirements lists has a single range to gather. -/
theorem mem_items_of_only {before after : List Requirements} {b : Requirements}
    {item : Requirement} (h : ∀ c ∈ a :: bs, c.Valid) (hr : a.merge bs = .ok r)
    (hsplit : a :: bs = before ++ b :: after) (hitem : item ∈ b.items)
    (honly : ∀ c ∈ before ++ after, item.slot ∉ c.slots) : item ∈ r.items := by
  obtain ⟨ha, hbs⟩ := List.forall_mem_cons.1 h
  have hgather := merge_at? h hr item.slot
  rw [hsplit] at h hgather
  have hb : b.Valid := h b (List.mem_append_right _ List.mem_cons_self)
  have hbefore : rangesOf item.slot before = [] :=
    rangesOf_eq_nil (fun c hc => h c (List.mem_append_left _ hc))
      fun c hc => honly c (List.mem_append_left _ hc)
  have hafter : rangesOf item.slot after = [] :=
    rangesOf_eq_nil (fun c hc => h c (List.mem_append_right _ (List.mem_cons_of_mem b hc)))
      fun c hc => honly c (List.mem_append_right _ hc)
  have hranges : rangesOf item.slot (before ++ b :: after) = [item.range] := by
    rw [rangesOf] at hbefore hafter ⊢
    rw [List.filterMap_append, List.filterMap_cons, hbefore, hafter, hb.mem_items_iff.1 hitem]
    rfl
  rw [hranges] at hgather
  exact (ha.merge hbs hr).mem_items_iff.2 (Except.ok.inj hgather).symm

theorem mem_slots_merge (h : ∀ b ∈ a :: bs, b.Valid) (hr : a.merge bs = .ok r) (s : Slot) :
    s ∈ r.slots ↔ ∃ b ∈ a :: bs, s ∈ b.slots := by
  obtain ⟨ha, hbs⟩ := List.forall_mem_cons.1 h
  have hmerged := merge_iff (P := fun r => (r.at? s).isSome) (fun _ _ _ => isSome_at?_put) h hr
  rw [← ha.mem_slots_iff, ← (ha.merge hbs hr).mem_slots_iff] at hmerged
  simpa [slots] using hmerged

theorem slots_sublist_merge (h : ∀ b ∈ a :: bs, b.Valid) (hr : a.merge bs = .ok r) :
    a.slots.Sublist r.slots := by
  obtain ⟨ha, hbs⟩ := List.forall_mem_cons.1 h
  refine foldlM_add_keeps (C := fun r => a.slots.Sublist r.slots) (P := fun _ => True)
    (fun {r item text} hbefore _ _ => ?_) (.refl _) (fun _ _ => trivial)
    ((merge_eq_ok ha hbs).1 hr)
  exact hbefore.trans (slots_sublist_put r item.slot text)

theorem combines_of_merge (h : ∀ b ∈ a :: bs, b.Valid) (hr : a.merge bs = .ok r) :
    Combines a bs r where
  mem_slots := mem_slots_merge h hr
  verbatim _ _ _ hsplit _ := mem_items_of_only h hr hsplit
  slots_sublist := slots_sublist_merge h hr
  mem_phases phase := merge_iff (P := fun r => phase ∈ r.phases.names)
    (fun _ _ _ => mem_phases_put) h hr
  mem_relations phase relation := merge_iff (P := fun r => relation ∈ r.relations phase)
    (fun _ _ _ => mem_relations_put) h hr

end Requirements

end HostPrereqs
