import HostPrereqs.Proofs.Resolution.Validation

/-!
# Resolution — ways to give a list of entries

A list of values can be resolved as it is, in a mapping beside the usual version, or as the
document that is read from it (`Presents`).  A document checks the shapes of all values before it is
resolved, and a list checks each value on its own, together with the rule that it gives exactly one
of requirements and an error; `ofValues_iff_readEntries` says that both read the same entries.

`resolve_presents`: a list of good values is resolved in the same way however it is given, and a
list with a bad one fails in each way, before anything has happened to the host.
-/

namespace HostPrereqs

/-! ### Entries read in two steps -/

namespace Entry

open Document (readEntries)

variable {v : Value} {vs : List Value} {e : Entry} {es : List Entry} {start : Nat}

/-- The entry that a value of the right shape stands for, whatever it gives. -/
def shape? : Value → Option Entry
  | .entry e    => some e
  | .map fields => (ofMapping fields).toOption
  | _           => none

/-- A document reads the shape of each value. -/
theorem readEntries_cons_eq_ok : readEntries start (v :: vs) = .ok es ↔
    ∃ e rest, shape? v = some e ∧ readEntries (start + 1) vs = .ok rest ∧ e :: rest = es := by
  cases v with
  | entry e =>
      rw [readEntries, Result.bind_eq_ok]
      simp only [Result.bind_eq_ok, shape?, Option.some.injEq]
      constructor
      · rintro ⟨e', he, rest, hrest, heq⟩
        exact ⟨e', rest, Except.ok.inj he, hrest, Except.ok.inj heq⟩
      · rintro ⟨e', rest, rfl, hrest, rfl⟩
        exact ⟨e, rfl, rest, hrest, rfl⟩
  | map fields =>
      rw [readEntries, Result.bind_eq_ok]
      simp only [Result.bind_eq_ok, Result.mapError_eq_ok, shape?, Result.toOption_eq_some]
      constructor
      · rintro ⟨e, he, rest, hrest, heq⟩
        exact ⟨e, rest, he, hrest, Except.ok.inj heq⟩
      · rintro ⟨e, rest, he, hrest, rfl⟩
        exact ⟨e, he, rest, hrest, rfl⟩
  | null | bool _ | int _ | float _ | str _ | bytes _ | date _ | moment _ | list _ | tuple _
    | set _ | condition _ =>
      simp only [shape?, reduceCtorEq, false_and, exists_false, iff_false]
      intro hread
      cases hread

/-- A list reads the shape of each value, and checks that it gives exactly one of the two. -/
theorem ofValue_eq_ok_iff : ofValue v = .ok e ↔ shape? v = some e ∧ e.checked = .ok e := by
  cases v with
  | entry e' =>
      rw [ofValue, shape?, Option.some.injEq, checked_eq_ok_iff]
      constructor
      · rintro ⟨rfl, hone⟩
        exact ⟨rfl, checked_eq_ok_iff.2 ⟨rfl, hone⟩⟩
      · rintro ⟨rfl, hchecked⟩
        exact checked_eq_ok_iff.1 hchecked
  | map fields =>
      rw [ofValue, Result.bind_eq_ok, shape?, Result.toOption_eq_some]
      simp only [Result.mapError_eq_ok]
      constructor
      · rintro ⟨e', he', hchecked⟩
        obtain ⟨rfl, -⟩ := checked_eq_ok_iff.1 hchecked
        exact ⟨he', hchecked⟩
      · rintro ⟨he, hchecked⟩
        exact ⟨e, he, hchecked⟩
  | null | bool _ | int _ | float _ | str _ | bytes _ | date _ | moment _ | list _ | tuple _
    | set _ | condition _ => simp [ofValue, shape?]

/-- A list of values is read as a list exactly if it is read as the entries of a document and these
are read as a list. -/
theorem ofValues_iff_readEntries (start : Nat) : ofValues vs = .ok es ↔
    readEntries start vs = .ok es ∧ ofValues (es.map .entry) = .ok es := by
  have hentry : ∀ e : Entry, ofValue (.entry e) = e.checked := fun _ => rfl
  simp only [ofValues_eq_ok_iff]
  induction vs generalizing start es with
  | nil => cases es <;> simp [readEntries]
  | cons v vs ih =>
      rw [readEntries_cons_eq_ok]
      cases es with
      | nil => simp
      | cons e es =>
          simp only [List.map_cons, List.cons.injEq, ofValue_eq_ok_iff, hentry,
            ih (start + 1)]
          constructor
          · rintro ⟨⟨hshape, hone⟩, hread, hchecked⟩
            exact ⟨⟨e, es, hshape, hread, rfl, rfl⟩, hone, hchecked⟩
          · rintro ⟨⟨e', es', hshape, hread, rfl, rfl⟩, hone, hchecked⟩
            exact ⟨⟨hshape, hone⟩, hread, hchecked⟩

theorem eq_of_ofValues_map_entry {es' : List Entry} (h : ofValues (es.map .entry) = .ok es') :
    es = es' := by
  rw [ofValues_eq_ok_iff, List.map_map] at h
  induction es generalizing es' with
  | nil => cases es' with
    | nil => rfl
    | cons e' es' => cases h
  | cons e es ih => cases es' with
    | nil => cases h
    | cons e' es' =>
        obtain ⟨he, hes⟩ := List.cons.inj h
        have hsame : e = e' := (checked_eq_ok_iff.1 he).1
        rw [hsame, ih hes]

theorem not_bad_of_ofValues (h : ofValues vs = .ok es) : ∀ v ∈ vs, ¬ Bad v := by
  intro v hv
  have hread : ofValue v ∈ es.map .ok := ofValues_eq_ok_iff.1 h ▸ List.mem_map_of_mem hv
  obtain ⟨e, -, he⟩ := List.mem_map.1 hread
  exact (ofValue_spec he.symm).1

end Entry

/-! ### Ways to give a list -/

namespace Document

theorem ofMapping_eq {fields : List (Value × Value)} {vs : List Value}
    (hversion : readVersion (Value.find? fields "version") = .ok usualVersion)
    (hvs : Value.find? fields "expressions" = some (.list vs)) :
    ofMapping fields =
      ((readEntries 0 vs).mapError DocumentFault.invalid).map (Document.mk usualVersion) := by
  have hread : readExpressions (some (.list vs)) = readEntries 0 vs := rfl
  rw [ofMapping, hversion, hvs, hread]
  cases readEntries 0 vs <;> rfl

theorem ofValue_list (vs : List Value) : ofValue (.list vs) =
    ((readEntries 0 vs).mapError DocumentFault.invalid).map (Document.mk usualVersion) :=
  ofMapping_eq rfl rfl

end Document

/-- The failure is that data are no document or no entry. -/
def ResolutionError.IsInvalid : ResolutionError → Prop
  | document _ | entry _ _ => True
  | _ => False

namespace Resolver

open Entry Document

variable {r : Resolver} {seed : Value} {s : Requirements} {vs : List Value} {es : List Entry}
  {expressions : Expressions} {h : Host}

/-- The values beside the usual version. -/
def versioned (vs : List Value) : Value :=
  .record [("version", .int usualVersion), ("expressions", .list vs)]

/-- The ways to give a list of values to be resolved. -/
inductive Presents (vs : List Value) : Expressions → Prop where
  | list : Presents vs (.data (.list vs))
  | mapping : Presents vs (.data (versioned vs))
  | document {d : Document} (read : Document.ofValue (.list vs) = .ok d) :
      Presents vs (.document d)

/-- A mapping with expressions is read as a document. -/
theorem elementsOf_mapping {fields : List (Value × Value)}
    (hgiven : (Value.find? fields "expressions").isSome = true) : elementsOf (.data (.map fields)) =
    ((Document.ofMapping fields).map (·.expressions.map .entry)).mapError .document := by
  rw [elementsOf, if_pos hgiven]
  cases Document.ofMapping fields <;> rfl

theorem elementsOf_versioned (vs : List Value) : elementsOf (.data (versioned vs)) =
    ((readEntries 0 vs).map (·.map .entry)).mapError (.document <| .invalid ·) := by
  refine (elementsOf_mapping rfl).trans ?_
  rw [ofMapping_eq rfl rfl]
  cases readEntries 0 vs <;> rfl

/-- However a list is given, the elements are read as the same entries, unless the document is
refused; then the list cannot be read as entries either. -/
theorem Presents.elementsOf (hp : Presents vs expressions) :
    (∃ ws, Resolver.elementsOf expressions = .ok ws ∧
      ∀ es, ofValues ws = .ok es ↔ ofValues vs = .ok es) ∨
    (∃ cause, Resolver.elementsOf expressions = .error (.document cause) ∧
      ∀ es, ofValues vs ≠ .ok es) := by
  -- entries that have been read are read as themselves
  have hsame : ∀ {es'}, readEntries 0 vs = .ok es' →
      ∀ es, ofValues (es'.map .entry) = .ok es ↔ ofValues vs = .ok es := by
    intro es' hread es
    refine Iff.trans ?_ (ofValues_iff_readEntries 0).symm
    rw [hread]
    constructor
    · intro h
      obtain rfl := eq_of_ofValues_map_entry h
      exact ⟨rfl, h⟩
    · rintro ⟨heq, h⟩
      rw [Except.ok.inj heq]
      exact h
  cases hp with
  | list => exact .inl ⟨vs, rfl, fun es => Iff.rfl⟩
  | mapping =>
      rw [elementsOf_versioned]
      cases hread : readEntries 0 vs with
      | ok es' => exact .inl ⟨es'.map .entry, rfl, hsame hread⟩
      | error cause =>
          refine .inr ⟨.invalid cause, rfl, fun es hes => ?_⟩
          rw [(ofValues_iff_readEntries 0).1 hes |>.1] at hread
          cases hread
  | @document d read =>
      rw [ofValue_list, Result.map_eq_ok] at read
      obtain ⟨es', hread, rfl⟩ := read
      exact .inl ⟨es'.map .entry, rfl, hsame (Result.mapError_eq_ok.1 hread)⟩

/-- A list of good values is resolved in the same way however it is given, and the document can be
read from it: the same requirements or the same error come out, and the host is left the same.  A
list with a bad value fails however it is given, because of the seed or because some data are no
document or no entry, and the host is as it was: no condition has been evaluated. -/
theorem resolve_presents (r : Resolver) (seed : Value) (vs : List Value) (h : Host) :
    ((∀ v ∈ vs, ¬ Bad v) → (∃ d, Document.ofValue (.list vs) = .ok d) ∧
      ∀ expressions, Presents vs expressions →
        r.resolve expressions seed h = r.resolve (.data (.list vs)) seed h) ∧
    ((∃ v ∈ vs, Bad v) → ∀ expressions, Presents vs expressions →
      ∃ cause, r.resolve expressions seed h = (.error cause, h) ∧
        (r.seedOf seed = .error cause ∨ (∃ s, r.seedOf seed = .ok s) ∧ cause.IsInvalid)) := by
  constructor
  · intro hgood
    obtain ⟨es, hes⟩ := exists_ofValues hgood
    refine ⟨⟨⟨usualVersion, es⟩, ?_⟩, fun expressions hp => ?_⟩
    · rw [ofValue_list, ((ofValues_iff_readEntries 0).1 hes).1]
      rfl
    · cases hseed : r.seedOf seed with
      | error cause => rw [resolve_of_seedOf_error hseed, resolve_of_seedOf_error hseed]
      | ok s =>
          rcases hp.elementsOf with ⟨ws, hws, hsame⟩ | ⟨cause, -, hnone⟩
          · rw [resolve_of_ok hseed hws ((hsame es).2 hes), resolve_list_of_ok hseed hes]
          · exact absurd hes (hnone es)
  · rintro ⟨v, hv, hbad⟩ expressions hp
    cases hseed : r.seedOf seed with
    | error cause => exact ⟨cause, resolve_of_seedOf_error hseed expressions, .inl rfl⟩
    | ok s =>
        rcases hp.elementsOf with ⟨ws, hws, hsame⟩ | ⟨cause, hcause, -⟩
        · cases hes : ofValues ws with
          | ok es => exact absurd hbad (not_bad_of_ofValues ((hsame es).1 hes) v hv)
          | error fault => exact ⟨_, resolve_of_error hseed hws hes, .inr ⟨⟨s, rfl⟩, trivial⟩⟩
        · exact ⟨_, resolve_of_elementsOf_error hseed hcause, .inr ⟨⟨s, rfl⟩, trivial⟩⟩

/-- A value that gives requirements, though empty ones, beside an empty error. -/
def emptyGiven : Value :=
  .record [("condition", .str "can_cc"), ("prereqs", .map []), ("error", .str "")]

/-- A good value, and the same with a value behind it that gives neither of the two. -/
theorem resolve_presents_emptyGiven :
    let r : Resolver := ⟨.empty, ⟨⟨[]⟩, none⟩, .empty⟩
    let neither : Value := .record [("condition", .str "can_cc")]
    (∀ v ∈ [emptyGiven], ¬ Bad v) ∧
      r.resolve (.data (versioned [emptyGiven])) .null .bare =
        r.resolve (.data (.list [emptyGiven])) .null .bare ∧
      (∃ v ∈ [emptyGiven, neither], Bad v) ∧
      ∃ cause, r.resolve (.data (versioned [emptyGiven, neither])) .null .bare =
        (.error cause, .bare) ∧ cause.IsInvalid := by
  intro r neither
  have hread : ofValues [emptyGiven] =
      .ok [⟨.text "can_cc", some [], "runtime", "requires", some ""⟩] := rfl
  have hgood := not_bad_of_ofValues hread
  have hbad : ∃ v ∈ [emptyGiven, neither], Bad v := by
    refine ⟨neither, by simp, ?_⟩
    refine Classical.byContradiction fun hnot => ?_
    obtain ⟨e, he⟩ := exists_ofValue hnot
    cases he
  obtain ⟨cause, hrun, hseed | ⟨-, hinvalid⟩⟩ :=
    (resolve_presents r .null [emptyGiven, neither] .bare).2 hbad _ .mapping
  · cases hseed
  · exact ⟨hgood, ((resolve_presents r .null [emptyGiven] .bare).1 hgood).2 _ .mapping, hbad, cause,
      hrun, hinvalid⟩

end Resolver

end HostPrereqs
