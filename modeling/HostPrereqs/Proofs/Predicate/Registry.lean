import HostPrereqs.Predicate.Registry
import HostPrereqs.Proofs.Result
import Mathlib.Data.List.Nodup

/-!
# Predicate — registries that grow

A predicate is registered under a name that is a word, not reserved and not taken
(`register_eq_ok`), behind the predicates that are there already.  So no registration changes what
is found under a name that was taken before (`get?_registerAll`).

The names of a registry are then different words, and none of them is reserved (`WellNamed`).  In
such a registry a predicate is found under its own name and under no other (`get?_eq_some_iff`), and
the lists of names and predicates hold the same (`names_pairwise`, `map_name_sorted`).
-/

namespace HostPrereqs.Registry

variable {r r' : Registry} {p q : Predicate} {name : String}

/-- A predicate is registered under a word that is free, and after all others. -/
theorem register_eq_ok : r.register p = .ok r' ↔ Junction.ofName? p.name = none ∧
    isBareWord p.name = true ∧ r.get? p.name = none ∧ r' = ⟨r.predicates ++ [p]⟩ := by
  unfold register
  constructor
  · intro h
    split at h
    · cases h
    · rename_i hfree
      split at h
      · cases h
      · rename_i hword
        split at h
        · cases h
        · rename_i hnew
          cases h
          exact ⟨by simpa using hfree, by simpa using hword, by simpa [has] using hnew, rfl⟩
  · rintro ⟨hfree, hword, hnew, rfl⟩
    simp [hfree, hword, hnew, has]

/-- What was found before is found after a registration. -/
theorem get?_register (h : r.register p = .ok r') (hq : r.get? name = some q) :
    r'.get? name = some q := by
  obtain ⟨-, -, -, rfl⟩ := register_eq_ok.1 h
  rw [get?] at hq
  rw [get?, List.find?_append, hq]
  rfl

/-- A registered predicate is found under its name. -/
theorem get?_register_self (h : r.register p = .ok r') : r'.get? p.name = some p := by
  obtain ⟨-, -, hnew, rfl⟩ := register_eq_ok.1 h
  rw [get?] at hnew
  rw [get?, List.find?_append, hnew]
  simp

/-- Adds predicates in their order. -/
def registerAll (r : Registry) (ps : List Predicate) : Except RegistryError Registry :=
  ps.foldlM register r

theorem get?_registerAll {ps : List Predicate} (h : r.registerAll ps = .ok r')
    (hq : r.get? name = some q) : r'.get? name = some q := by
  induction ps generalizing r with
  | nil =>
      cases h
      exact hq
  | cons p ps ih =>
      rw [registerAll, List.foldlM_cons] at h
      obtain ⟨r₁, hfirst, hrest⟩ := Result.bind_eq_ok.1 h
      exact ih hrest (get?_register hfirst hq)

/-! ### Names -/

/-- Different words, of which none is reserved. -/
structure WellNamed (r : Registry) : Prop where
  distinct : (r.predicates.map (·.name)).Nodup
  words : ∀ p ∈ r.predicates, isBareWord p.name = true
  free : ∀ p ∈ r.predicates, Junction.ofName? p.name = none

theorem wellNamed_empty : WellNamed .empty := ⟨.nil, nofun, nofun⟩

theorem get?_eq_none_iff : r.get? name = none ↔ ∀ p ∈ r.predicates, p.name ≠ name := by
  simp [get?]

/-- Registering keeps names apart and words free. -/
theorem WellNamed.register (hr : r.WellNamed) (h : r.register p = .ok r') : r'.WellNamed := by
  obtain ⟨hfree, hword, hnew, rfl⟩ := register_eq_ok.1 h
  refine ⟨?_, ?_, ?_⟩
  · rw [List.map_append, List.nodup_append]
    refine ⟨hr.distinct, List.nodup_singleton _, ?_⟩
    intro a ha b hb
    obtain ⟨q, hq, rfl⟩ := List.mem_map.1 ha
    obtain rfl : b = p.name := List.mem_singleton.1 hb
    exact get?_eq_none_iff.1 hnew q hq
  · simpa [or_imp, forall_and] using ⟨hr.words, hword⟩
  · simpa [or_imp, forall_and] using ⟨hr.free, hfree⟩

theorem of_get?_eq_some (h : r.get? name = some p) : p ∈ r.predicates ∧ p.name = name :=
  ⟨List.mem_of_find?_eq_some h, by simpa using List.find?_some h⟩

/-- A predicate is found under its own name, and under no other. -/
theorem WellNamed.get?_eq_some_iff (hr : r.WellNamed) :
    r.get? name = some p ↔ p ∈ r.predicates ∧ p.name = name := by
  constructor
  · exact of_get?_eq_some
  · rintro ⟨hp, rfl⟩
    cases hget : r.get? p.name with
    | none => exact absurd rfl (get?_eq_none_iff.1 hget p hp)
    | some q =>
        have hq : q.name = p.name := by simpa using List.find?_some hget
        rw [List.inj_on_of_nodup_map hr.distinct (List.mem_of_find?_eq_some hget) hp hq]

/-- The names are those of the predicates. -/
theorem mem_names : name ∈ r.names ↔ ∃ p ∈ r.predicates, p.name = name := by
  rw [names, (List.mergeSort_perm _ _).mem_iff, List.mem_map]

theorem has_iff : r.has name = true ↔ name ∈ r.names := by
  rw [has, Option.isSome_iff_ne_none, ne_eq, get?_eq_none_iff, mem_names]
  simp

/-- There are as many names as predicates. -/
theorem length_names (r : Registry) : r.names.length = r.size := by
  rw [names, List.length_mergeSort, List.length_map, size]

/-- The names stand in the order of their code points, and no name stands there twice. -/
theorem WellNamed.names_pairwise (hr : r.WellNamed) : r.names.Pairwise (· < ·) := by
  have hle : r.names.Pairwise fun a b => decide (a ≤ b) = true :=
    List.pairwise_mergeSort (fun a b c hab hbc => by
      simp only [decide_eq_true_eq] at hab hbc ⊢
      exact String.le_trans hab hbc) (fun a b => by simpa using String.le_total a b) _
  have hne : r.names.Pairwise (· ≠ ·) := (List.mergeSort_perm _ _).nodup_iff.2 hr.distinct
  refine (hle.and hne).imp fun {a b} h => ?_
  exact Std.lt_of_le_of_ne (of_decide_eq_true h.1) h.2

theorem map_name_filterMap (ns : List String) (h : ∀ n ∈ ns, ∃ p, r.get? n = some p) :
    (ns.filterMap r.get?).map (·.name) = ns := by
  induction ns with
  | nil => rfl
  | cons n ns ih =>
      obtain ⟨⟨p, hp⟩, hns⟩ := List.forall_mem_cons.1 h
      have hname : p.name = n := by simpa using List.find?_some hp
      rw [List.filterMap_cons_some hp, List.map_cons, ih hns, hname]

theorem WellNamed.exists_get? (hr : r.WellNamed) (h : name ∈ r.names) :
    ∃ p, r.get? name = some p := by
  obtain ⟨p, hp, hname⟩ := mem_names.1 h
  exact ⟨p, hr.get?_eq_some_iff.2 ⟨hp, hname⟩⟩

/-- The predicates are listed in the order of their names. -/
theorem WellNamed.map_name_sorted (hr : r.WellNamed) : r.sorted.map (·.name) = r.names :=
  map_name_filterMap r.names fun _ => hr.exists_get?

/-- All predicates are listed, and no others. -/
theorem WellNamed.mem_sorted (hr : r.WellNamed) : p ∈ r.sorted ↔ p ∈ r.predicates := by
  rw [sorted, List.mem_filterMap]
  constructor
  · rintro ⟨name, -, hget⟩
    exact (hr.get?_eq_some_iff.1 hget).1
  · intro hp
    exact ⟨p.name, mem_names.2 ⟨p, hp, rfl⟩, hr.get?_eq_some_iff.2 ⟨hp, rfl⟩⟩

/-! ### Names that are taken away -/

/-- The predicates of the other names. -/
def without (r : Registry) (name : String) : Registry := ⟨r.predicates.filter (·.name ≠ name)⟩

theorem get?_without_self (r : Registry) (name : String) : (r.without name).get? name = none := by
  simp [get?, without]

/-- Leaving out a name leaves what is found under the others. -/
theorem get?_without_of_ne (r : Registry) {name other : String} (h : other ≠ name) :
    (r.without name).get? other = r.get? other := by
  rw [get?, get?, without, List.find?_filter]
  congr 1
  funext p
  by_cases hp : p.name = other
  · simp [hp, h]
  · simp [hp]

end HostPrereqs.Registry
