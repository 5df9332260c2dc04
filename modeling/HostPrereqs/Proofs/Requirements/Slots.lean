import HostPrereqs.Proofs.Range.RoundTrip
import HostPrereqs.Proofs.Result
import HostPrereqs.Requirements.Fragment

/-!
# Requirements — slots

A module under a phase and relation is a slot of requirements (`Slot`), and requirements are a
partial function from slots to ranges (`Requirements.at?`).

Requirements are *valid* when no name stands twice at one level and every range can be read
(`Requirements.Valid`), and *tidy* when besides no phase is without relations and no range has
blanks around it (`Requirements.Tidy`).  Whatever is read from data is tidy (`tidy_ofValue`), and a
change of one slot to a range that may be kept keeps it so (`Tidy.put`).  The items of valid
requirements are the slots with their ranges (`Valid.mem_items_iff`).
-/

namespace HostPrereqs

/-! ### Tables -/

namespace Table

variable {α : Type} {P : α → Prop} {t : Table α} {k n : String} {v : α}

/-- No name stands twice, and the values satisfy `P`. -/
structure Valid (P : α → Prop) (t : Table α) : Prop where
  nodup : t.names.Nodup
  values : ∀ e ∈ t, P e.2

theorem valid_nil : Valid P [] := ⟨.nil, fun _ h => absurd h List.not_mem_nil⟩

@[simp] theorem get?_nil : get? ([] : Table α) n = none := rfl

/-- The first entry of a name counts. -/
theorem get?_cons : get? ((k, v) :: t) n = if k = n then some v else get? t n := by
  rw [get?, List.lookup_cons]
  by_cases h : k = n
  · simp [h]
  · have h' : (n == k) = false := by simpa using Ne.symm h
    rw [h', if_neg h]
    rfl

/-- Altering the entry of one name leaves those of all others. -/
theorem get?_alter (f : Option α → α) :
    get? (alter k f t) n = if n = k then some (f (get? t k)) else get? t n := by
  induction t with
  | nil => simp [alter, get?_cons, eq_comm]
  | cons e t ih =>
      obtain ⟨k', v⟩ := e
      by_cases hk : k' = k
      · subst hk
        simp only [alter, if_true, get?_cons]
        by_cases hn : k' = n
        · simp [hn]
        · simp [hn, Ne.symm hn]
      · simp only [alter, if_neg hk, get?_cons, ih]
        by_cases hn : k' = n
        · subst hn
          simp [hk]
        · simp [hn]

/-- What is found is an entry. -/
theorem mem_of_get? (h : get? t k = some v) : (k, v) ∈ t := by
  induction t with
  | nil => cases h
  | cons e t ih =>
      obtain ⟨k', v'⟩ := e
      rw [get?_cons] at h
      split at h
      · rename_i hk
        obtain rfl := Option.some.inj h
        rw [hk]
        exact List.mem_cons_self
      · exact List.mem_cons_of_mem _ (ih h)

/-- Where no name stands twice, every entry is found. -/
theorem Valid.get?_eq_some_iff (h : t.Valid P) : get? t k = some v ↔ (k, v) ∈ t := by
  refine ⟨mem_of_get?, fun hmem => ?_⟩
  obtain ⟨hnodup, -⟩ := h
  induction t with
  | nil => cases hmem
  | cons e t ih =>
      obtain ⟨k', v'⟩ := e
      rw [names, List.map_cons, List.nodup_cons] at hnodup
      rw [get?_cons]
      rcases List.mem_cons.1 hmem with heq | hmem
      · cases heq
        rw [if_pos rfl]
      · have hne : k' ≠ k := fun he => hnodup.1 (he ▸ List.mem_map_of_mem (f := (·.1)) hmem)
        rw [if_neg hne, ih hmem hnodup.2]

/-- The entries after altering one are the entries before and the altered one. -/
theorem mem_alter {f : Option α → α} {e : String × α} (h : e ∈ alter k f t) :
    e ∈ t ∨ e = (k, f (get? t k)) := by
  induction t with
  | nil => exact .inr (List.mem_singleton.1 h)
  | cons e' t ih =>
      obtain ⟨k', v⟩ := e'
      rw [alter] at h
      split at h
      · rename_i hk
        rw [get?_cons, if_pos hk]
        rcases List.mem_cons.1 h with rfl | h
        · exact .inr (by rw [hk])
        · exact .inl (List.mem_cons_of_mem _ h)
      · rename_i hk
        rw [get?_cons, if_neg hk]
        rcases List.mem_cons.1 h with rfl | h
        · exact .inl List.mem_cons_self
        · exact (ih h).imp_left (List.mem_cons_of_mem _)

/-- Altering an entry puts no name twice into a table. -/
theorem nodup_names_alter (f : Option α → α) (h : t.names.Nodup) : (alter k f t).names.Nodup := by
  induction t with
  | nil => simp [alter, names]
  | cons e t ih =>
      obtain ⟨k', v⟩ := e
      rw [names, List.map_cons, List.nodup_cons] at h
      rw [alter]
      split
      · rw [names, List.map_cons, List.nodup_cons]
        exact h
      · rename_i hk
        rw [names, List.map_cons, List.nodup_cons]
        refine ⟨fun hmem => ?_, ih h.2⟩
        obtain ⟨e, he, hek⟩ := List.mem_map.1 hmem
        rcases mem_alter he with he | rfl
        · exact h.1 (List.mem_map.2 ⟨e, he, hek⟩)
        · exact hk hek.symm

/-- What only the entry of one name contributes to. -/
theorem Valid.flatMap_eq {β : Type} (h : t.Valid P) (f : String × α → List β)
    (hf : ∀ e ∈ t, e.1 ≠ k → f e = []) :
    t.flatMap f = (get? t k).toList.flatMap fun v => f (k, v) := by
  obtain ⟨hnodup, -⟩ := h
  induction t with
  | nil => rfl
  | cons e t ih =>
      obtain ⟨k', v⟩ := e
      rw [names, List.map_cons, List.nodup_cons] at hnodup
      have hrest : ∀ e ∈ t, e.1 ≠ k → f e = [] := fun e he => hf e (List.mem_cons_of_mem _ he)
      rw [List.flatMap_cons, get?_cons]
      by_cases hk : k' = k
      · subst hk
        have hnone : ∀ e ∈ t, f e = [] := fun e he => hrest e he fun heq =>
          hnodup.1 (List.mem_map.2 ⟨e, he, heq⟩)
        rw [List.flatMap_eq_nil_iff.2 hnone]
        simp
      · rw [hf _ List.mem_cons_self hk, if_neg hk, List.nil_append, ih hrest hnodup.2]

theorem Valid.mono {Q : α → Prop} (h : t.Valid P) (hPQ : ∀ v, P v → Q v) : t.Valid Q :=
  ⟨h.nodup, fun e he => hPQ e.2 (h.values e he)⟩

/-- An altered table is not empty, since an entry that is missing is made. -/
theorem alter_ne_nil (k : String) (f : Option α → α) (t : Table α) : alter k f t ≠ [] := by
  cases t with
  | nil => exact List.cons_ne_nil _ _
  | cons e t =>
      rw [alter]
      split <;> exact List.cons_ne_nil _ _

/-- Setting one name to a value that satisfies `P` keeps a table valid. -/
theorem Valid.alter (h : t.Valid P) {f : Option α → α}
    (hf : ∀ o, (∀ v, o = some v → P v) → P (f o)) : (alter k f t).Valid P := by
  refine ⟨nodup_names_alter f h.nodup, fun e he => ?_⟩
  rcases mem_alter he with he | rfl
  · exact h.values e he
  · exact hf _ fun v hv => h.values (k, v) (mem_of_get? hv)

end Table

/-- A text that denotes a range. -/
def Range.Readable (text : String) : Prop := ∃ r, Range.parse text = .ok r

/-- A range as requirements keep it: it can be read and has no blanks around it. -/
structure Range.Kept (text : String) : Prop where
  readable : Readable text
  stripped : Text.strip text = text

/-- A module under a phase and relation. -/
structure Slot where
  phase : String
  relation : String
  module : String
deriving DecidableEq, Repr

/-- The slot that a requirement is about. -/
def Requirement.slot (item : Requirement) : Slot := ⟨item.phase, item.relation, item.module⟩

namespace Requirements

variable {r : Requirements} {s : Slot} {item : Requirement} {text : String}

/-- The range of a slot. -/
def at? (r : Requirements) (s : Slot) : Option String :=
  (r.modules s.phase s.relation).get? s.module

/-- Sets the range of a slot. -/
abbrev put (r : Requirements) (s : Slot) (text : String) : Requirements :=
  r.alterAt s.phase s.relation (·.put s.module text)

/-- No name stands twice at one level, and every range can be read. -/
def Valid (r : Requirements) : Prop :=
  Table.Valid (Table.Valid (Table.Valid Range.Readable)) r.phases

/-- No name stands twice at one level, no phase is without relations, and every range is as
requirements keep it. -/
def Tidy (r : Requirements) : Prop :=
  Table.Valid (fun relations => relations ≠ [] ∧ Table.Valid (Table.Valid Range.Kept) relations)
    r.phases

/-! ### The ranges of slots -/

/-- Altering the modules under one phase and relation leaves those under all others. -/
theorem modules_alterAt (r : Requirements) (phase relation : String)
    (f : Table String → Table String) (phase' relation' : String) :
    (r.alterAt phase relation f).modules phase' relation' =
      if phase' = phase ∧ relation' = relation then f (r.modules phase relation)
      else r.modules phase' relation' := by
  simp only [modules, alterAt, Table.get?_alter]
  by_cases hp : phase' = phase
  · subst hp
    by_cases hr : relation' = relation
    · subst hr
      cases hphase : r.phases.get? phase' <;> simp [Table.get?_alter]
    · cases hphase : r.phases.get? phase' <;> simp [Table.get?_alter, hr]
  · simp [hp]

/-- Setting the range of a slot leaves the ranges of all other slots. -/
theorem at?_put (r : Requirements) (s s' : Slot) (text : String) :
    (r.put s text).at? s' = if s' = s then some text else r.at? s' := by
  obtain ⟨p, q, m⟩ := s
  obtain ⟨p', q', m'⟩ := s'
  simp only [at?, put, modules_alterAt, Slot.mk.injEq]
  by_cases h : p' = p ∧ q' = q
  · obtain ⟨rfl, rfl⟩ := h
    simp [Table.put, Table.get?_alter]
  · rw [if_neg h, if_neg fun h' => h ⟨h'.1, h'.2.1⟩]

/-! ### Validity -/

theorem valid_empty : empty.Valid := Table.valid_nil

/-- Altering the modules under a phase and relation keeps requirements valid, if it keeps these so.
-/
theorem Valid.alterAt (h : r.Valid) (phase relation : String) {f : Table String → Table String}
    (hf : ∀ t, Table.Valid Range.Readable t → Table.Valid Range.Readable (f t)) :
    (r.alterAt phase relation f).Valid := by
  refine Table.Valid.alter h fun relations hrelations => ?_
  refine Table.Valid.alter ?_ fun modules hmodules => hf _ ?_
  · cases relations with
    | none => exact Table.valid_nil
    | some t => exact hrelations t rfl
  · cases modules with
    | none => exact Table.valid_nil
    | some t => exact hmodules t rfl

/-- Setting a slot to a range that can be read keeps requirements valid. -/
theorem Valid.put (h : r.Valid) (s : Slot) (ht : Range.Readable text) : (r.put s text).Valid :=
  h.alterAt s.phase s.relation fun _ hmodules => hmodules.alter fun _ _ => ht

/-- The requirements of one slot. -/
def single (s : Slot) (text : String) : Requirements := empty.put s text

theorem valid_single (s : Slot) (ht : Range.Readable text) : (single s text).Valid :=
  valid_empty.put s ht

/-- The items are the entries at the innermost level, with the names of the levels around them. -/
theorem mem_items : item ∈ r.items ↔ ∃ relations modules, (item.phase, relations) ∈ r.phases ∧
    (item.relation, modules) ∈ relations ∧ (item.module, item.range) ∈ modules := by
  simp only [items, List.mem_flatMap, List.mem_map]
  constructor
  · rintro ⟨⟨phase, relations⟩, hphase, ⟨relation, modules⟩, hrelation, ⟨module, range⟩, hmodule,
      rfl⟩
    exact ⟨relations, modules, hphase, hrelation, hmodule⟩
  · rintro ⟨relations, modules, hphase, hrelation, hmodule⟩
    exact ⟨_, hphase, _, hrelation, _, hmodule, rfl⟩

/-- The range of a slot is found level by level. -/
theorem at?_eq_some_iff : r.at? s = some text ↔ ∃ relations modules,
    r.phases.get? s.phase = some relations ∧ relations.get? s.relation = some modules ∧
      modules.get? s.module = some text := by
  rw [at?, modules]
  cases hphase : r.phases.get? s.phase with
  | none => simp
  | some relations => cases hrelation : relations.get? s.relation <;> simp [hrelation]

/-- The items of valid requirements are the slots with their ranges. -/
theorem Valid.mem_items_iff (h : r.Valid) : item ∈ r.items ↔ r.at? item.slot = some item.range := by
  rw [mem_items, at?_eq_some_iff]
  constructor
  · rintro ⟨relations, modules, hphase, hrelation, hmodule⟩
    have hrelations := h.values _ hphase
    have hmodules := hrelations.values _ hrelation
    exact ⟨relations, modules, h.get?_eq_some_iff.2 hphase,
      hrelations.get?_eq_some_iff.2 hrelation, hmodules.get?_eq_some_iff.2 hmodule⟩
  · rintro ⟨relations, modules, hphase, hrelation, hmodule⟩
    exact ⟨relations, modules, Table.mem_of_get? hphase, Table.mem_of_get? hrelation,
      Table.mem_of_get? hmodule⟩

/-- Every range of valid requirements can be read. -/
theorem Valid.readable (h : r.Valid) (hitem : item ∈ r.items) : Range.Readable item.range := by
  obtain ⟨relations, modules, hphase, hrelation, hmodule⟩ := mem_items.1 hitem
  have hrelations := h.values _ hphase
  have hmodules := hrelations.values _ hrelation
  have hrange := hmodules.values _ hmodule
  exact hrange

theorem Valid.readable_at (h : r.Valid) (ht : r.at? s = some text) : Range.Readable text := by
  have hmem : ⟨s.phase, s.relation, s.module, text⟩ ∈ r.items := h.mem_items_iff.2 ht
  have hrange := h.readable hmem
  exact hrange

/-- The ranges that items give a slot. -/
def rangesAt (s : Slot) (items : List Requirement) : List String :=
  items.flatMap fun item => if item.slot = s then [item.range] else []

/-- A slot has at most one range. -/
theorem Valid.rangesAt_items (h : r.Valid) (s : Slot) :
    rangesAt s r.items = (r.at? s).toList := by
  obtain ⟨phase, relation, module⟩ := s
  simp only [rangesAt, items, List.flatMap_assoc, List.flatMap_map, Slot.mk.injEq,
    Requirement.slot]
  -- at each level only the entry with the name of the slot contributes
  rw [h.flatMap_eq (k := phase) _ fun e _ hne => by simp [hne], at?, modules]
  cases hphase : r.phases.get? phase with
  | none => rfl
  | some relations =>
      have hrelations := h.values _ (Table.mem_of_get? hphase)
      simp only [Option.toList_some, List.flatMap_cons, List.flatMap_nil, List.append_nil]
      rw [hrelations.flatMap_eq (k := relation) _ fun e _ hne => by simp [hne]]
      cases hrelation : relations.get? relation with
      | none => rfl
      | some modules =>
          have hmodules := hrelations.values _ (Table.mem_of_get? hrelation)
          simp only [Option.toList_some, List.flatMap_cons, List.flatMap_nil, List.append_nil]
          rw [hmodules.flatMap_eq (k := module) _ fun e _ hne => by simp [hne]]
          cases hmodule : modules.get? module <;> simp [hmodule]

/-! ### Requirements that are read from data -/

theorem tidy_empty : empty.Tidy := Table.valid_nil

/-- Tidy requirements are valid. -/
theorem Tidy.valid (h : r.Tidy) : r.Valid :=
  h.mono fun _ hrelations => hrelations.2.mono fun _ hmodules => hmodules.mono fun _ hrange =>
    hrange.readable

/-- Every range of tidy requirements is as requirements keep it. -/
theorem Tidy.kept (h : r.Tidy) (hitem : item ∈ r.items) : Range.Kept item.range := by
  obtain ⟨relations, modules, hphase, hrelation, hmodule⟩ := mem_items.1 hitem
  have hrelations := (h.values _ hphase).2
  have hmodules := hrelations.values _ hrelation
  have hrange := hmodules.values _ hmodule
  exact hrange

/-- Altering the modules under a phase and relation keeps requirements tidy, if it keeps these so.
-/
theorem Tidy.alterAt (h : r.Tidy) (phase relation : String) {f : Table String → Table String}
    (hf : ∀ t, Table.Valid Range.Kept t → Table.Valid Range.Kept (f t)) :
    (r.alterAt phase relation f).Tidy := by
  refine Table.Valid.alter h fun relations hrelations => ⟨Table.alter_ne_nil _ _ _, ?_⟩
  refine Table.Valid.alter ?_ fun modules hmodules => hf _ ?_
  · cases relations with
    | none => exact Table.valid_nil
    | some t => exact (hrelations t rfl).2
  · cases modules with
    | none => exact Table.valid_nil
    | some t => exact hmodules t rfl

/-- Setting a slot to a range that may be kept keeps requirements tidy. -/
theorem Tidy.put (h : r.Tidy) (s : Slot) (ht : Range.Kept text) : (r.put s text).Tidy :=
  h.alterAt s.phase s.relation fun _ hmodules => hmodules.alter fun _ _ => ht

theorem strip_strip (text : String) : Text.strip (Text.strip text) = Text.strip text := by
  simp only [Text.strip, String.toList_ofList, Text.trim_trim]

/-- Blanks around a range do not matter. -/
theorem parse_strip (text : String) : Range.parse (Text.strip text) = Range.parse text := by
  simp only [Range.parse, Text.strip, String.toList_ofList, Text.trim_trim]

/-- The text of a range that is read from data may be kept. -/
theorem kept_rangeText {v : Value} {range : Range} (h : Range.ofValue v = .ok range) :
    Range.Kept (rangeText v) := by
  by_cases hnull : v = .null
  · subst hnull
    exact ⟨⟨.any, rfl⟩, rfl⟩
  · have hread : Range.parse v.text = .ok range := by
      rw [Range.ofValue] at h
      · split at h
        · exact h
        · cases h
      · exact hnull
    rw [rangeText]
    · exact ⟨⟨range, (parse_strip _).trans hread⟩, strip_strip _⟩
    · exact hnull

/-- A module is added by setting its slot to the text of a range. -/
theorem addModules_cons_eq_ok {phase relation : String} {module version : Value}
    {modules : List (Value × Value)} {r r' : Requirements}
    (h : addModules phase relation ((module, version) :: modules) r = .ok r') :
    ∃ range, Range.ofValue version = .ok range ∧ addModules phase relation modules
      (r.put ⟨phase, relation, module.text⟩ (rangeText version)) = .ok r' := by
  rw [addModules] at h
  cases hv : standsForRange version with
  | false => rw [hv] at h; cases h
  | true =>
      cases hrange : Range.ofValue version with
      | error cause => rw [hv, hrange] at h; cases h
      | ok range =>
          rw [hv, hrange] at h
          exact ⟨range, rfl, h⟩

/-- Adding the modules of a relation keeps requirements tidy. -/
theorem tidy_addModules {phase relation : String} {modules : List (Value × Value)}
    {r r' : Requirements} (h : r.Tidy) (hr' : addModules phase relation modules r = .ok r') :
    r'.Tidy := by
  induction modules generalizing r with
  | nil => exact Except.ok.inj hr' ▸ h
  | cons e modules ih =>
      obtain ⟨range, hrange, hr'⟩ := addModules_cons_eq_ok hr'
      exact ih (h.put _ (kept_rangeText hrange)) hr'

/-- So does adding the relations of a phase, even one without modules. -/
theorem tidy_addRelations {phase : String} {relations : List (Value × Value)}
    {r r' : Requirements} (h : r.Tidy) (hr' : addRelations phase relations r = .ok r') :
    r'.Tidy := by
  induction relations generalizing r with
  | nil => exact Except.ok.inj hr' ▸ h
  | cons e relations ih =>
      obtain ⟨relation, modules⟩ := e
      cases modules with
      | map modules =>
          rw [addRelations] at hr'
          obtain ⟨r₁, hm, hr'⟩ := Result.bind_eq_ok.1 hr'
          exact ih (tidy_addModules (h.alterAt _ _ fun _ ht => ht) hm) hr'
      | null | bool _ | int _ | float _ | str _ | bytes _ | date _ | moment _ | list _ | tuple _
        | set _ | condition _ | entry _ => cases hr'

/-- So does adding phases; one without relations adds nothing. -/
theorem tidy_addPhases {phases : List (Value × Value)} {r r' : Requirements} (h : r.Tidy)
    (hr' : addPhases phases r = .ok r') : r'.Tidy := by
  induction phases generalizing r with
  | nil => exact Except.ok.inj hr' ▸ h
  | cons e phases ih =>
      obtain ⟨phase, relations⟩ := e
      cases relations with
      | map relations =>
          rw [addPhases] at hr'
          obtain ⟨r₁, hm, hr'⟩ := Result.bind_eq_ok.1 hr'
          exact ih (tidy_addRelations h hm) hr'
      | null | bool _ | int _ | float _ | str _ | bytes _ | date _ | moment _ | list _ | tuple _
        | set _ | condition _ | entry _ => cases hr'

/-- Requirements that are read from data are tidy. -/
theorem tidy_ofValue {v : Value} (h : ofValue v = .ok r) : r.Tidy := by
  unfold ofValue at h
  split at h
  · exact tidy_addPhases tidy_empty h
  · split at h
    · cases h
    · exact Except.ok.inj h ▸ tidy_empty

/-- The requirements of an entry are tidy. -/
theorem tidy_ofFragment {v : Value} {phase relation : String}
    (h : ofFragment v phase relation = .ok r) : r.Tidy := by
  unfold ofFragment at h
  obtain ⟨nested, -, h⟩ := Result.bind_eq_ok.1 h
  cases nested with
  | true => exact tidy_ofValue h
  | false => exact tidy_ofValue (v := .record [(phase, .record [(relation, v)])]) h

end Requirements

end HostPrereqs
