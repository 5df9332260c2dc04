import HostPrereqs.Proofs.Requirements.Merging

/-!
# Requirements — rebuilding

Requirements can be shown as data (`Requirements.toValue`) and read from data again.  Tidy
requirements are rebuilt as they were, with the order of their items and their empty phases and
relations (`Tidy.ofValue_toValue`): each name is read after the names before it, which are
different, so it is put at the end.

Merging keeps requirements tidy (`Tidy.merge`), and fails only where the range of an item
contradicts the one that its module has by then (`Clashes`, `merge_eq_error`).
-/

namespace HostPrereqs

namespace Table

variable {α : Type} {P : α → Prop} {t u : Table α} {k : String} {f : Option α → α}

@[simp] theorem alter_nil : alter k f ([] : Table α) = [(k, f none)] := rfl

theorem alter_append (h : k ∉ t.names) (u : Table α) : alter k f (t ++ u) = t ++ alter k f u := by
  induction t with
  | nil => rfl
  | cons e t ih =>
      obtain ⟨k', v⟩ := e
      rw [names, List.map_cons, List.mem_cons, not_or] at h
      rw [List.cons_append, alter, if_neg (Ne.symm h.1), ih h.2, List.cons_append]

/-- The last entry of a table is altered where it stands. -/
theorem alter_concat (h : k ∉ t.names) (v : α) :
    alter k f (t ++ [(k, v)]) = t ++ [(k, f (some v))] := by
  rw [alter_append h, alter, if_pos rfl]

theorem names_append (t u : Table α) : (t ++ u).names = t.names ++ u.names := List.map_append

/-- A name that comes after others is none of them. -/
theorem not_mem_names_of_nodup {v : α} (h : (t ++ (k, v) :: u).names.Nodup) : k ∉ t.names := by
  rw [names_append, List.nodup_append] at h
  exact fun hk => h.2.2 k hk k List.mem_cons_self rfl

/-- A valid table has the same entries as itself, if the values are the same as themselves. -/
theorem Valid.sameBy_self {same : α → α → Bool} (h : t.Valid P)
    (hsame : ∀ v, P v → same v v = true) : t.sameBy same t = true := by
  rw [sameBy, Bool.and_eq_true, List.all_eq_true]
  refine ⟨decide_eq_true rfl, fun ⟨k, v⟩ he => ?_⟩
  have hv := h.get?_eq_some_iff.2 he
  change (t.get? k).any (same v) = true
  rw [hv, Option.any_some]
  exact hsame v (h.values _ he)

end Table

namespace Requirements

open Range

variable {r r' : Requirements} {phase relation : String}
  {done todo : Table (Table (Table String))} {relations relations' : Table (Table String)}
  {modules modules' : Table String} {others : List Requirements} {item : Requirement}
  {e : RangeError}

/-! ### Reading back what is shown -/

/-- Modules with their ranges as data. -/
def shownModules (modules : Table String) : List (Value × Value) :=
  modules.map fun (module, range) => (.str module, .str range)

/-- Relations with their modules as data. -/
def shownRelations (relations : Table (Table String)) : List (Value × Value) :=
  relations.map fun (relation, modules) => (.str relation, .map (shownModules modules))

/-- Phases with their relations as data. -/
def shownPhases (phases : Table (Table (Table String))) : List (Value × Value) :=
  phases.map fun (phase, relations) => (.str phase, .map (shownRelations relations))

theorem toValue_eq (r : Requirements) : r.toValue = .map (shownPhases r.phases) := by
  simp only [toValue, Value.record, shownPhases, shownRelations, shownModules, List.map_map,
    Function.comp_def]

theorem rangeText_str {text : String} (h : Text.strip text = text) :
    rangeText (.str text) = text := h

/-- A kept range is put where its module says. -/
theorem addModules_cons {module text : String} (h : Kept text) (todo : List (Value × Value))
    (r : Requirements) :
    addModules phase relation ((.str module, .str text) :: todo) r =
      addModules phase relation todo (r.put ⟨phase, relation, module⟩ text) := by
  obtain ⟨range, hrange⟩ := h.readable
  have hvalue : Range.ofValue (.str text) = .ok range := hrange
  rw [addModules, hvalue, rangeText_str h.stripped]
  rfl

/-- What is listed last is altered where it stands. -/
theorem alterAt_concat (hphase : phase ∉ done.names) (hrelation : relation ∉ relations.names)
    (f : Table String → Table String) :
    alterAt ⟨done ++ [(phase, relations ++ [(relation, modules)])]⟩ phase relation f =
      ⟨done ++ [(phase, relations ++ [(relation, f modules)])]⟩ := by
  rw [alterAt, Table.alter_concat hphase, Option.getD_some, Table.alter_concat hrelation]
  rfl

/-- A new relation of the last phase is listed last. -/
theorem alterAt_new (hphase : phase ∉ done.names) (hrelation : relation ∉ relations.names)
    (f : Table String → Table String) :
    alterAt ⟨done ++ [(phase, relations)]⟩ phase relation f =
      ⟨done ++ [(phase, relations ++ [(relation, f [])])]⟩ := by
  have hnew := Table.alter_append (f := fun modules => f (modules.getD [])) hrelation []
  rw [List.append_nil] at hnew
  rw [alterAt, Table.alter_concat hphase, Option.getD_some, hnew]
  rfl

/-- A new phase is the same as one without relations. -/
theorem alterAt_empty_phase (hphase : phase ∉ done.names) (f : Table String → Table String) :
    alterAt ⟨done⟩ phase relation f = alterAt ⟨done ++ [(phase, [])]⟩ phase relation f := by
  have hnew := Table.alter_append (f := fun relations : Option (Table (Table String)) =>
    (relations.getD []).alter relation fun modules => f (modules.getD [])) hphase []
  rw [List.append_nil] at hnew
  rw [alterAt, hnew, alterAt, Table.alter_concat hphase]
  rfl

/-- Modules that are shown are read after those that are there. -/
theorem addModules_shown (hphase : phase ∉ done.names) (hrelation : relation ∉ relations.names)
    (h : Table.Valid Kept (modules ++ modules')) :
    addModules phase relation (shownModules modules')
        ⟨done ++ [(phase, relations ++ [(relation, modules)])]⟩ =
      .ok ⟨done ++ [(phase, relations ++ [(relation, modules ++ modules')])]⟩ := by
  induction modules' generalizing modules with
  | nil =>
      rw [List.append_nil]
      rfl
  | cons entry modules' ih =>
      obtain ⟨module, range⟩ := entry
      have hkept : Kept range :=
        h.values (module, range) (List.mem_append_right _ List.mem_cons_self)
      have hlast : modules.put module range = modules ++ [(module, range)] := by
        have hput := Table.alter_append (f := fun _ => range)
          (Table.not_mem_names_of_nodup h.nodup) []
        rwa [List.append_nil] at hput
      have hsplit : modules ++ (module, range) :: modules' =
          modules ++ [(module, range)] ++ modules' := by simp
      rw [hsplit] at h ⊢
      rw [shownModules, List.map_cons, addModules_cons hkept, put,
        alterAt_concat hphase hrelation, hlast]
      exact ih h

/-- Relations that are shown are read after those that the phase has. -/
theorem addRelations_shown (hphase : phase ∉ done.names)
    (h : Table.Valid (Table.Valid Kept) (relations ++ relations')) :
    addRelations phase (shownRelations relations') ⟨done ++ [(phase, relations)]⟩ =
      .ok ⟨done ++ [(phase, relations ++ relations')]⟩ := by
  induction relations' generalizing relations with
  | nil =>
      rw [List.append_nil]
      rfl
  | cons entry relations' ih =>
      obtain ⟨relation, modules⟩ := entry
      have hmodules : Table.Valid Kept ([] ++ modules) :=
        h.values (relation, modules) (List.mem_append_right _ List.mem_cons_self)
      have hrelation : relation ∉ relations.names := Table.not_mem_names_of_nodup h.nodup
      have hsplit : relations ++ (relation, modules) :: relations' =
          relations ++ [(relation, modules)] ++ relations' := by simp
      rw [hsplit] at h ⊢
      rw [shownRelations, List.map_cons, addRelations, Value.text, alterAt_new hphase hrelation]
      refine Result.bind_eq_ok.2 ⟨_, addModules_shown hphase hrelation hmodules, ?_⟩
      exact ih h

/-- The first relation of a phase brings the phase with it. -/
theorem addRelations_new (hphase : phase ∉ done.names) {shown : List (Value × Value)}
    (hshown : shown ≠ []) :
    addRelations phase shown ⟨done⟩ = addRelations phase shown ⟨done ++ [(phase, [])]⟩ := by
  obtain ⟨⟨relation, modules⟩, more, rfl⟩ := List.exists_cons_of_ne_nil hshown
  cases modules with
  | map modules => rw [addRelations, addRelations, alterAt_empty_phase hphase]
  | null | bool _ | int _ | float _ | str _ | bytes _ | date _ | moment _ | list _ | tuple _
    | set _ | condition _ | entry _ => rfl

/-- Phases that are shown are read after those that are there. -/
theorem addPhases_shown (h : Tidy ⟨done ++ todo⟩) :
    addPhases (shownPhases todo) ⟨done⟩ = .ok ⟨done ++ todo⟩ := by
  induction todo generalizing done with
  | nil =>
      rw [List.append_nil]
      rfl
  | cons entry todo ih =>
      obtain ⟨phase, relations⟩ := entry
      obtain ⟨hne, hrelations⟩ := h.values (phase, relations)
        (List.mem_append_right _ List.mem_cons_self)
      have hphase : phase ∉ done.names := Table.not_mem_names_of_nodup h.nodup
      have hsplit : done ++ (phase, relations) :: todo = done ++ [(phase, relations)] ++ todo := by
        simp
      rw [hsplit] at h ⊢
      have hshown : shownRelations relations ≠ [] := by simpa [shownRelations] using hne
      rw [shownPhases, List.map_cons, addPhases, Value.text, addRelations_new hphase hshown]
      refine Result.bind_eq_ok.2 ⟨_, addRelations_shown hphase hrelations, ?_⟩
      exact ih h

/-- Tidy requirements are rebuilt as they were. -/
theorem Tidy.ofValue_toValue (h : r.Tidy) : ofValue r.toValue = .ok r := by
  rw [toValue_eq]
  exact addPhases_shown h

theorem Tidy.same_self (h : r.Tidy) : r.same r = true :=
  Table.Valid.sameBy_self h fun _ hrelations => hrelations.2.sameBy_self fun _ hmodules =>
    hmodules.sameBy_self fun _ _ => decide_eq_true rfl

/-! ### Merging tidy requirements -/

theorem kept_of_mem_flatMap (h : ∀ b ∈ others, b.Tidy) :
    ∀ item ∈ others.flatMap items, Kept item.range := by
  intro item hitem
  obtain ⟨b, hb, hitem⟩ := List.mem_flatMap.1 hitem
  have hrange := (h b hb).kept hitem
  exact hrange

theorem Tidy.merge (h : r.Tidy) (hothers : ∀ b ∈ others, b.Tidy)
    (hr' : r.merge others = .ok r') : r'.Tidy :=
  h.foldlM_add (kept_of_mem_flatMap hothers)
    ((merge_eq_ok h.valid fun b hb => (hothers b hb).valid).1 hr')

/-- The range of an item contradicts the range that its module has under the same phase and
relation. -/
def Clashes (r : Requirements) (item : Requirement) (e : RangeError) : Prop :=
  ∃ t a b conflict, r.at? item.slot = some t ∧ Range.parse t = .ok a ∧
    Range.parse item.range = .ok b ∧ Range.ofClauses (a.clauses ++ b.clauses) = .error conflict ∧
    e = .ofModule item.module item.phase item.relation (.conflict conflict s!"{a} & {b}")

/-- An item cannot be added only if it clashes. -/
theorem add_eq_error (h : r.Valid) (hitem : Readable item.range) :
    r.add item = .error e ↔ r.Clashes item e := by
  obtain ⟨b, hb⟩ := hitem
  have hadd : r.add item = .error e ↔ ∃ cause, join (r.at? item.slot) item.range = .error cause ∧
      RangeError.inModule item.module item.phase item.relation cause = e := by
    rw [add_eq, Result.bind_eq_error, Result.mapError_eq_error, or_iff_left]
    rintro ⟨range, -, hput⟩
    cases hput
  rw [hadd]
  cases hat : r.at? item.slot with
  | none =>
      -- a new item is put as it is
      constructor
      · rintro ⟨cause, hjoin, -⟩
        cases hjoin
      · rintro ⟨t, -, -, -, ht, -⟩
        rw [hat] at ht
        cases ht
  | some t =>
      obtain ⟨a, ha⟩ := h.readable_at hat
      have hjoin : join (some t) item.range = (a.intersect b).map Range.text := by
        rw [join, intersectTexts, ha, hb]
        rfl
      rw [hjoin, Range.intersect, Range.ofClausesOf]
      constructor
      · rintro ⟨cause, hcause, rfl⟩
        cases hclauses : Range.ofClauses (a.clauses ++ b.clauses) with
        | ok x =>
            rw [hclauses] at hcause
            cases hcause
        | error conflict =>
            rw [hclauses] at hcause
            obtain rfl := Except.error.inj hcause
            exact ⟨t, a, b, conflict, hat, ha, hb, hclauses, rfl⟩
      · rintro ⟨t', a', b', conflict, ht', ha', hb', hclauses, rfl⟩
        obtain rfl := Option.some.inj (hat.symm.trans ht')
        obtain rfl := Except.ok.inj (ha.symm.trans ha')
        obtain rfl := Except.ok.inj (hb.symm.trans hb')
        rw [hclauses]
        exact ⟨_, rfl, rfl⟩

/-- Merging fails exactly where an item clashes with what the items before it have made. -/
theorem merge_eq_error (h : r.Valid) (hothers : ∀ b ∈ others, b.Valid) :
    r.merge others = .error e ↔ ∃ before item after merged,
      others.flatMap items = before ++ item :: after ∧ before.foldlM add r = .ok merged ∧
        merged.Clashes item e := by
  have hread := readable_of_mem_flatMap hothers
  rw [merge_eq h hothers, Result.foldlM_eq_error]
  refine exists_congr fun before => exists_congr fun item => exists_congr fun after =>
    exists_congr fun merged => and_congr_right fun hsplit => and_congr_right fun hbefore => ?_
  rw [hsplit] at hread
  have hitem : Readable item.range :=
    hread item (List.mem_append_right _ List.mem_cons_self)
  exact add_eq_error (h.foldlM_add (fun i hi => hread i (List.mem_append_left _ hi)) hbefore) hitem

end Requirements

end HostPrereqs
