import HostPrereqs.Proofs.Requirements.Rebuilding
import Mathlib.Data.List.Nodup

/-!
# Requirements — merging into nothing

Items that have slots of their own are added by putting them down one after the other
(`foldlM_add_of_new`).  Reading what requirements are shown as puts the same items down in the same
order, and lists phases and relations besides, which matters only where they are empty
(`addPhases_shownPhases`).  So tidy requirements in which nothing is empty are copied when they
are merged into nothing (`Tidy.merge_empty`).
-/

namespace HostPrereqs

namespace Table

variable {α : Type} {t : Table α} {k : String} {f g : Option α → α}

theorem alter_alter : alter k g (alter k f t) = alter k (fun o => g (some (f o))) t := by
  induction t with
  | nil => simp [alter]
  | cons e t ih =>
      obtain ⟨k', v⟩ := e
      by_cases hk : k' = k
      · simp [alter, hk]
      · simp [alter, hk, ih]

end Table

namespace Requirements

variable {r : Requirements} {phase relation : String} {added : List Requirement}

theorem alterAt_alterAt (r : Requirements) (f g : Table String → Table String) :
    (r.alterAt phase relation f).alterAt phase relation g = r.alterAt phase relation (g ∘ f) := by
  simp only [alterAt, Table.alter_alter, Option.getD_some, Function.comp_apply]

/-- Puts items down one after the other. -/
def putAll (r : Requirements) (added : List Requirement) : Requirements :=
  added.foldl (fun r item => r.put item.slot item.range) r

@[simp] theorem putAll_nil (r : Requirements) : r.putAll [] = r := rfl

@[simp] theorem putAll_cons (r : Requirements) (item : Requirement) (added : List Requirement) :
    r.putAll (item :: added) = (r.put item.slot item.range).putAll added := rfl

theorem putAll_append (r : Requirements) (added added' : List Requirement) :
    r.putAll (added ++ added') = (r.putAll added).putAll added' := List.foldl_append

/-! ### Adding what is new -/

theorem add_of_new {item : Requirement} (h : r.at? item.slot = none) :
    r.add item = .ok (r.put item.slot item.range) := by
  rw [add_eq, h]
  rfl

/-- Items with slots of their own are put down one after the other. -/
theorem foldlM_add_of_new (hslots : (added.map Requirement.slot).Nodup)
    (hnew : ∀ item ∈ added, r.at? item.slot = none) :
    added.foldlM add r = .ok (r.putAll added) := by
  induction added generalizing r with
  | nil => rfl
  | cons item added ih =>
      rw [List.map_cons, List.nodup_cons] at hslots
      obtain ⟨hslot, hslots⟩ := hslots
      rw [List.foldlM_cons, add_of_new (hnew item List.mem_cons_self)]
      refine ih hslots fun other hother => ?_
      have hne : other.slot ≠ item.slot := fun heq => hslot (heq ▸ List.mem_map_of_mem hother)
      rw [at?_put, if_neg hne]
      exact hnew other (List.mem_cons_of_mem _ hother)

/-- A slot has a range for each item that is about it. -/
theorem count_slot (s : Slot) (added : List Requirement) :
    (added.map Requirement.slot).count s = (rangesAt s added).length := by
  induction added with
  | nil => rfl
  | cons item added ih =>
      by_cases hs : item.slot = s
      · simp [rangesAt_cons, hs, ih]
      · simp [rangesAt_cons, hs, ih]

/-- No slot of valid requirements has two items. -/
theorem Valid.nodup_slots (h : r.Valid) : (r.items.map Requirement.slot).Nodup := by
  refine List.nodup_iff_count_le_one.2 fun s => ?_
  rw [count_slot, h.rangesAt_items]
  cases r.at? s <;> simp

/-! ### Reading what is not empty -/

/-- No phase and no relation is empty. -/
def Full (r : Requirements) : Prop :=
  ∀ phase ∈ r.phases, phase.2 ≠ [] ∧ ∀ relation ∈ phase.2, relation.2 ≠ []

instance (r : Requirements) : Decidable r.Full :=
  inferInstanceAs (Decidable (∀ phase ∈ r.phases,
    phase.2 ≠ [] ∧ ∀ relation ∈ phase.2, relation.2 ≠ []))

/-- The items of a relation. -/
def itemsOf (phase relation : String) (modules : Table String) : List Requirement :=
  modules.map fun (module, range) => ⟨phase, relation, module, range⟩

theorem itemsOf_cons (phase relation module range : String) (modules : Table String) :
    itemsOf phase relation ((module, range) :: modules) =
      ⟨phase, relation, module, range⟩ :: itemsOf phase relation modules := rfl

theorem addModules_shownModules {modules : Table String}
    (h : ∀ module ∈ modules, Range.Kept module.2) (r : Requirements) :
    addModules phase relation (shownModules modules) r =
      .ok (r.putAll (itemsOf phase relation modules)) := by
  induction modules generalizing r with
  | nil => rfl
  | cons module modules ih =>
      obtain ⟨module, range⟩ := module
      rw [List.forall_mem_cons] at h
      rw [shownModules, List.map_cons, addModules_cons h.1]
      exact ih h.2 _

/-- A relation need not be listed before its modules, if it has any. -/
theorem putAll_alterAt_id {modules : Table String} (h : modules ≠ []) (r : Requirements) :
    (r.alterAt phase relation id).putAll (itemsOf phase relation modules) =
      r.putAll (itemsOf phase relation modules) := by
  obtain ⟨⟨module, range⟩, modules, rfl⟩ := List.exists_cons_of_ne_nil h
  rw [itemsOf_cons, putAll_cons, putAll_cons, put]
  dsimp only [Requirement.slot]
  rw [alterAt_alterAt]
  rfl

theorem addRelations_shownRelations {relations : Table (Table String)}
    (h : ∀ relation ∈ relations, relation.2 ≠ [] ∧ ∀ module ∈ relation.2, Range.Kept module.2)
    (r : Requirements) : addRelations phase (shownRelations relations) r =
      .ok (r.putAll (relations.flatMap fun (relation, modules) =>
        itemsOf phase relation modules)) := by
  induction relations generalizing r with
  | nil => rfl
  | cons relation relations ih =>
      obtain ⟨relation, modules⟩ := relation
      rw [List.forall_mem_cons] at h
      obtain ⟨⟨hne, hmodules⟩, hrest⟩ := h
      rw [shownRelations, List.map_cons, addRelations, List.flatMap_cons, putAll_append]
      refine Result.bind_eq_ok.2 ⟨_, addModules_shownModules hmodules _, ?_⟩
      rw [Value.text, putAll_alterAt_id hne]
      exact ih hrest _

theorem addPhases_shownPhases {phases : Table (Table (Table String))}
    (h : ∀ phase ∈ phases, ∀ relation ∈ phase.2,
      relation.2 ≠ [] ∧ ∀ module ∈ relation.2, Range.Kept module.2) (r : Requirements) :
    addPhases (shownPhases phases) r = .ok (r.putAll (items ⟨phases⟩)) := by
  induction phases generalizing r with
  | nil => rfl
  | cons phase phases ih =>
      obtain ⟨phase, relations⟩ := phase
      rw [List.forall_mem_cons] at h
      rw [shownPhases, List.map_cons, addPhases, items, List.flatMap_cons, putAll_append]
      exact Result.bind_eq_ok.2 ⟨_, addRelations_shownRelations h.1 _, ih h.2 _⟩

/-- Tidy requirements in which nothing is empty are copied when they are merged into nothing. -/
theorem Tidy.merge_empty (h : r.Tidy) (hfull : r.Full) : empty.merge [r] = .ok r := by
  have hread : addPhases (shownPhases r.phases) empty = .ok r :=
    (congrArg ofValue r.toValue_eq).symm.trans h.ofValue_toValue
  have hkept : ∀ phase ∈ r.phases, ∀ relation ∈ phase.2,
      relation.2 ≠ [] ∧ ∀ module ∈ relation.2, Range.Kept module.2 := fun phase hphase =>
    fun relation hrelation => ⟨(hfull phase hphase).2 relation hrelation,
      (((h.values phase hphase).2).values relation hrelation).values⟩
  have hput : empty.putAll r.items = r :=
    Except.ok.inj ((addPhases_shownPhases hkept empty).symm.trans hread)
  have hadd : r.items.foldlM add empty = .ok (empty.putAll r.items) :=
    foldlM_add_of_new h.valid.nodup_slots fun _ _ => rfl
  refine (merge_eq_ok valid_empty (List.forall_mem_singleton.2 h.valid)).2 ?_
  rw [List.flatMap_cons, List.flatMap_nil, List.append_nil, hadd, hput]

end Requirements

end HostPrereqs
