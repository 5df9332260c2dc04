import HostPrereqs.Entry.Validation
import HostPrereqs.Proofs.Result

/-!
# Entry — validation

What a value has to be like to be read as an entry, in terms of its fields: it is well shaped
(`WellShaped`), and it gives either requirements or an error that is not empty (`GivesFragment`,
`GivesError`).  Any other value is bad (`Bad`).

* `exists_ofValue`, `ofValue_spec`: a value that is not bad is read, and what is read gives exactly
  one of the two.
* `ofValue_of_bad`: a bad value fails, and one that gives neither fails in its own way.
* `ofValues_eq_ok_iff`: a list is read when every value is, so that reading does not depend on
  where a list is cut (`ofValues_append_eq_ok`).
* `ofValuesFrom_eq_error`: the first bad value (`FirstBad`) is reported with its number.
-/

namespace HostPrereqs.Entry

variable {v w : Value} {vs ws : List Value} {e : Entry} {es : List Entry} {i : Nat}
variable {fields : List (Value × Value)}

/-! ### Fields -/

/-- The value is a text, or bytes that encode it. -/
def Denotes (v : Value) (s : String) : Prop :=
  v = .str s ∨ ∃ bs, v = .bytes bs ∧ String.fromUTF8? ⟨bs.toArray⟩ = some s

def IsText (v : Value) : Prop := ∃ s, Denotes v s

/-- The value is a sequence or set of some kind. -/
def IsList (v : Value) : Prop := ∃ xs, v = .list xs ∨ v = .tuple xs ∨ v = .set xs

/-- What can be read as a text, and as which. -/
theorem readText_eq_ok_iff {s : String} : readText v = .ok s ↔ Denotes v s := by
  cases v with
  | str t => simp [readText, Denotes]
  | bytes bs =>
      rw [readText, Denotes]
      cases h : String.fromUTF8? ⟨bs.toArray⟩ <;> simp [h]
  | null | bool _ | int _ | float _ | date _ | moment _ | list _ | tuple _ | set _ | map _
    | condition _ | entry _ => simp [readText, Denotes]

theorem exists_readList_iff : (∃ xs, readList v = .ok xs) ↔ IsList v := by
  cases v <;> simp [readList, IsList]

theorem exists_atPlace_readText_iff {place : List String} :
    (∃ s, atPlace place (readText v) = .ok s) ↔ IsText v := by
  simp only [atPlace, Result.mapError_eq_ok, readText_eq_ok_iff, IsText]

/-- A condition is there, and is a text or a list. -/
theorem exists_readCondition_iff {o : Option Value} :
    (∃ c, readCondition o = .ok c) ↔ ∃ v, o = some v ∧ (IsText v ∨ IsList v) := by
  cases o with
  | none => simp [readCondition]
  | some v =>
      rw [readCondition]
      simp only [Option.some.injEq, exists_eq_left', ← exists_readList_iff]
      cases readList v with
      | ok xs => exact ⟨fun _ => .inr ⟨xs, rfl⟩, fun _ => ⟨_, rfl⟩⟩
      | error fault =>
          rw [Result.exists_map_eq_ok, exists_atPlace_readText_iff]
          exact (or_iff_left fun ⟨_, h⟩ => nomatch h).symm

/-- A field that is absent, null or a text. -/
def OptionalText (o : Option Value) : Prop := ∀ v, o = some v → v = .null ∨ IsText v

theorem optionalText_some : OptionalText (some v) ↔ v = .null ∨ IsText v := by
  simp [OptionalText]

theorem exists_readName_iff {field usual : String} {o : Option Value} :
    (∃ s, readName field usual o = .ok s) ↔ OptionalText o := by
  unfold readName
  split
  · simp [OptionalText]
  · simp [OptionalText]
  · simp [optionalText_some, IsText, Denotes]
  · rename_i v hnull _
    have hne : v ≠ .null := fun h => hnull (h ▸ rfl)
    rw [exists_atPlace_readText_iff, optionalText_some, or_iff_right hne]

theorem readError_eq_some_iff {o : Option Value} {s : String} :
    readError o = .ok (some s) ↔ ∃ v, o = some v ∧ Denotes v s := by
  unfold readError
  split
  · simp
  · simp [Denotes]
  · simp only [Result.map_eq_ok, atPlace, Result.mapError_eq_ok, readText_eq_ok_iff]
    simp

theorem exists_readError_iff {o : Option Value} :
    (∃ s, readError o = .ok s) ↔ OptionalText o := by
  unfold readError
  split
  · simp [OptionalText]
  · simp [OptionalText]
  · rename_i v hnull
    have hne : v ≠ .null := fun h => hnull (h ▸ rfl)
    rw [Result.exists_map_eq_ok, exists_atPlace_readText_iff, optionalText_some, or_iff_right hne]

theorem exists_readNamed_iff {kvs : List (Value × Value)} :
    (∃ named, readNamed kvs = .ok named) ↔ ∀ kv ∈ kvs, IsText kv.1 := by
  induction kvs with
  | nil => simp [readNamed]
  | cons kv kvs ih =>
      obtain ⟨k, v⟩ := kv
      have hkey : (∃ s, atPlace [keyPlace k, "[key]"] (readText k) = .ok s) ↔ IsText k :=
        exists_atPlace_readText_iff
      rw [List.forall_mem_cons, ← ih, ← hkey, readNamed]
      simp only [Result.bind_eq_ok]
      constructor
      · rintro ⟨named, name, hname, rest, hrest, -⟩
        exact ⟨⟨name, hname⟩, rest, hrest⟩
      · rintro ⟨⟨name, hname⟩, rest, hrest⟩
        exact ⟨(name, v) :: rest, name, hname, rest, hrest, rfl⟩

/-- A field that is absent, null, or a mapping from texts. -/
def OptionalMapping (o : Option Value) : Prop :=
  ∀ v, o = some v → v = .null ∨ ∃ kvs, v = .map kvs ∧ ∀ kv ∈ kvs, IsText kv.1

/-- Requirements are not there, null, or a mapping. -/
theorem exists_readPrereqs_iff {o : Option Value} :
    (∃ p, readPrereqs o = .ok p) ↔ OptionalMapping o := by
  unfold readPrereqs
  split
  · simp [OptionalMapping]
  · simp [OptionalMapping]
  · rename_i kvs
    simp only [OptionalMapping, Option.some.injEq, forall_eq', reduceCtorEq, false_or,
      Value.map.injEq, exists_eq_left', ← exists_readNamed_iff, Result.exists_map_eq_ok,
      Result.mapError_eq_ok]
  · rename_i v hnull hmap
    simp only [OptionalMapping, Option.some.injEq, forall_eq', reduceCtorEq, exists_false,
      false_iff, not_or, not_exists, not_and]
    exact ⟨fun h => hnull (h ▸ rfl), fun kvs h => absurd (h ▸ rfl) (hmap kvs)⟩

theorem isSome_of_readPrereqs {o : Option Value} {p : Option (List (String × Value))}
    (h : readPrereqs o = .ok p) : p.isSome ↔ ∃ kvs, o = some (.map kvs) := by
  unfold readPrereqs at h
  split at h
  · obtain rfl := Except.ok.inj h
    simp
  · obtain rfl := Except.ok.inj h
    simp
  · obtain ⟨named, -, rfl⟩ := Result.map_eq_ok.1 h
    simp
  · cases h

/-- An entry is read field by field, and each field by itself. -/
theorem ofMapping_eq_ok_iff : ofMapping fields = .ok e ↔
    readCondition (Value.find? fields "condition") = .ok e.condition ∧
    readPrereqs (Value.find? fields "prereqs") = .ok e.prereqs ∧
    readName "phase" Requirements.defaultPhase (Value.find? fields "phase") = .ok e.phase ∧
    readName "relation" Requirements.defaultRelation (Value.find? fields "relation") =
      .ok e.relation ∧
    readError (Value.find? fields "error") = .ok e.error := by
  obtain ⟨condition, prereqs, phase, relation, error⟩ := e
  unfold ofMapping
  -- no reader looks at what another has read
  generalize readCondition _ = c
  generalize readPrereqs _ = p
  generalize readName "phase" _ _ = n
  generalize readName "relation" _ _ = m
  generalize readError _ = x
  cases c <;> cases p <;> cases n <;> cases m <;> cases x <;>
    simp [bind, Except.bind, pure, Except.pure]

/-! ### Good and bad values -/

/-- The fields of a mapping are of their kinds. -/
structure WellShaped (fields : List (Value × Value)) : Prop where
  condition : ∃ v, Value.find? fields "condition" = some v ∧ (IsText v ∨ IsList v)
  prereqs : OptionalMapping (Value.find? fields "prereqs")
  phase : OptionalText (Value.find? fields "phase")
  relation : OptionalText (Value.find? fields "relation")
  error : OptionalText (Value.find? fields "error")

/-- An entry is read exactly if its fields have the right shapes. -/
theorem exists_ofMapping_iff : (∃ e, ofMapping fields = .ok e) ↔ WellShaped fields := by
  simp only [ofMapping_eq_ok_iff]
  constructor
  · rintro ⟨e, hcondition, hprereqs, hphase, hrelation, herror⟩
    exact ⟨exists_readCondition_iff.1 ⟨_, hcondition⟩, exists_readPrereqs_iff.1 ⟨_, hprereqs⟩,
      exists_readName_iff.1 ⟨_, hphase⟩, exists_readName_iff.1 ⟨_, hrelation⟩,
      exists_readError_iff.1 ⟨_, herror⟩⟩
  · rintro ⟨hcondition, hprereqs, hphase, hrelation, herror⟩
    obtain ⟨condition, hcondition⟩ := exists_readCondition_iff.2 hcondition
    obtain ⟨prereqs, hprereqs⟩ := exists_readPrereqs_iff.2 hprereqs
    obtain ⟨phase, hphase⟩ := exists_readName_iff.2 hphase
    obtain ⟨relation, hrelation⟩ := exists_readName_iff.2 hrelation
    obtain ⟨error, herror⟩ := exists_readError_iff.2 herror
    exact ⟨⟨condition, prereqs, phase, relation, error⟩, hcondition, hprereqs, hphase, hrelation,
      herror⟩

/-- The value is an entry, or a mapping whose fields are of their kinds. -/
def IsShaped : Value → Prop
  | .entry _ => True
  | .map fields => WellShaped fields
  | _ => False

/-- The value gives requirements, if only empty ones. -/
def GivesFragment : Value → Prop
  | .entry e => e.prereqs.isSome
  | .map fields => ∃ kvs, Value.find? fields "prereqs" = some (.map kvs)
  | _ => False

/-- The value gives an error that is not empty. -/
def GivesError : Value → Prop
  | .entry e => ∃ s, e.error = some s ∧ s ≠ ""
  | .map fields => ∃ v s, Value.find? fields "error" = some v ∧ Denotes v s ∧ s ≠ ""
  | _ => False

/-- The value is no entry, or gives both requirements and an error, or neither. -/
def Bad (v : Value) : Prop := ¬ IsShaped v ∨ (GivesFragment v ↔ GivesError v)

/-- The value could be an entry but gives neither requirements nor an error. -/
def SetsNeither (v : Value) : Prop := IsShaped v ∧ ¬ GivesFragment v ∧ ¬ GivesError v

theorem isSome_fatal?_iff : e.fatal?.isSome ↔ ∃ s, e.error = some s ∧ s ≠ "" := by
  rw [fatal?]
  cases e.error <;> simp [Option.filter]

/-- A shaped value is read before it is checked that it gives exactly one of the two. -/
theorem ofValue_of_isShaped (h : IsShaped v) : ∃ e : Entry, ofValue v = e.checked ∧
    (e.prereqs.isSome ↔ GivesFragment v) ∧ (e.fatal?.isSome ↔ GivesError v) := by
  cases v with
  | entry e => exact ⟨e, rfl, Iff.rfl, isSome_fatal?_iff⟩
  | map fields =>
      obtain ⟨e, he⟩ := exists_ofMapping_iff.2 h
      have hread : ofValue (.map fields) = e.checked := by rw [ofValue, he]; rfl
      obtain ⟨-, hprereqs, -, -, herror⟩ := ofMapping_eq_ok_iff.1 he
      refine ⟨e, hread, isSome_of_readPrereqs hprereqs, ?_⟩
      rw [isSome_fatal?_iff]
      constructor
      · rintro ⟨s, hs, hne⟩
        rw [hs] at herror
        obtain ⟨v, hv, hdenotes⟩ := readError_eq_some_iff.1 herror
        exact ⟨v, s, hv, hdenotes, hne⟩
      · rintro ⟨v, s, hv, hdenotes, hne⟩
        rw [readError_eq_some_iff.2 ⟨v, hv, hdenotes⟩] at herror
        exact ⟨s, (Except.ok.inj herror).symm, hne⟩
  | null | bool _ | int _ | float _ | str _ | bytes _ | date _ | moment _ | list _ | tuple _
    | set _ | condition _ => exact absurd h id

/-- A value that is not shaped fails in another way than by giving neither. -/
theorem ofValue_of_not_isShaped (h : ¬ IsShaped v) :
    ∃ cause, ofValue v = .error cause ∧ cause ≠ .neither := by
  cases v with
  | entry e => exact absurd trivial h
  | map fields =>
      cases hread : ofMapping fields with
      | ok e => exact absurd (exists_ofMapping_iff.1 ⟨e, hread⟩) h
      | error cause => exact ⟨.invalid cause, by rw [ofValue, hread]; rfl, nofun⟩
  | null | bool _ | int _ | float _ | str _ | bytes _ | date _ | moment _ | list _ | tuple _
    | set _ | condition _ => exact ⟨.notAMapping _, rfl, nofun⟩

/-- An entry passes the check if it has either requirements or an error, and is the same after it.
-/
theorem checked_eq_ok_iff {e' : Entry} :
    e.checked = .ok e' ↔ e = e' ∧ ¬ (e.prereqs.isSome ↔ e.fatal?.isSome) := by
  rw [checked]
  cases e.prereqs <;> cases e.fatal? <;> simp

theorem checked_eq_neither_iff :
    e.checked = .error .neither ↔ e.prereqs.isSome = false ∧ e.fatal?.isSome = false := by
  rw [checked]
  cases e.prereqs <;> cases e.fatal? <;> simp

/-- What is read gives what the value gives, and exactly one of the two. -/
theorem ofValue_spec (h : ofValue v = .ok e) : ¬ Bad v ∧
    (e.prereqs.isSome ↔ GivesFragment v) ∧ (e.fatal?.isSome ↔ GivesError v) := by
  by_cases hv : IsShaped v
  · obtain ⟨e', hread, hfragment, herror⟩ := ofValue_of_isShaped hv
    obtain ⟨rfl, hone⟩ := checked_eq_ok_iff.1 (hread ▸ h)
    rw [hfragment, herror] at hone
    exact ⟨fun hbad => hbad.elim (absurd hv) hone, hfragment, herror⟩
  · obtain ⟨cause, hread, -⟩ := ofValue_of_not_isShaped hv
    rw [hread] at h
    cases h

theorem exists_ofValue (h : ¬ Bad v) : ∃ e, ofValue v = .ok e := by
  by_cases hv : IsShaped v
  · obtain ⟨e, hread, hfragment, herror⟩ := ofValue_of_isShaped hv
    refine ⟨e, hread ▸ checked_eq_ok_iff.2 ⟨rfl, fun hone => h (.inr ?_)⟩⟩
    rwa [hfragment, herror] at hone
  · exact absurd (.inl hv) h

/-- A bad value fails, and in the way of giving neither exactly if it could be an entry and gives
neither. -/
theorem ofValue_of_bad (h : Bad v) :
    ∃ cause, ofValue v = .error cause ∧ (cause = .neither ↔ SetsNeither v) := by
  by_cases hv : IsShaped v
  · obtain ⟨e, hread, hfragment, herror⟩ := ofValue_of_isShaped hv
    cases hchecked : e.checked with
    | ok e' =>
        obtain ⟨-, hone⟩ := checked_eq_ok_iff.1 hchecked
        rw [hfragment, herror] at hone
        exact absurd (h.resolve_left fun hn => hn hv) hone
    | error cause =>
        refine ⟨cause, hread.trans hchecked, ?_⟩
        rw [SetsNeither, ← hfragment, ← herror, Bool.not_eq_true, Bool.not_eq_true,
          ← checked_eq_neither_iff, hchecked]
        constructor
        · rintro rfl
          exact ⟨hv, rfl⟩
        · rintro ⟨-, hcause⟩
          exact Except.error.inj hcause
  · obtain ⟨cause, hread, hne⟩ := ofValue_of_not_isShaped hv
    exact ⟨cause, hread, fun h => absurd h hne, fun h => absurd h.1 hv⟩

/-! ### Lists -/

/-- Values are read one by one. -/
theorem ofValuesFrom_eq_ok_iff {start : Nat} :
    ofValuesFrom start vs = .ok es ↔ vs.map ofValue = es.map .ok := by
  induction vs generalizing start es with
  | nil => simp [ofValuesFrom, eq_comm]
  | cons v vs ih =>
      rw [ofValuesFrom]
      simp only [Result.bind_eq_ok, Result.mapError_eq_ok, ih]
      constructor
      · rintro ⟨e, he, rest, hrest, heq⟩
        obtain rfl := Except.ok.inj heq
        rw [List.map_cons, List.map_cons, he, hrest]
      · intro h
        cases es with
        | nil => cases h
        | cons e rest =>
            obtain ⟨he, hrest⟩ := List.cons.inj h
            exact ⟨e, he, rest, hrest, rfl⟩

theorem ofValues_eq_ok_iff : ofValues vs = .ok es ↔ vs.map ofValue = es.map .ok :=
  ofValuesFrom_eq_ok_iff

/-- A list of values is read when both its parts are. -/
theorem ofValues_append_eq_ok : ofValues (vs ++ ws) = .ok es ↔
    ∃ es₁ es₂, ofValues vs = .ok es₁ ∧ ofValues ws = .ok es₂ ∧ es₁ ++ es₂ = es := by
  simp only [ofValues_eq_ok_iff, List.map_append, List.append_eq_map_iff]
  constructor
  · rintro ⟨es₁, es₂, rfl, h₁, h₂⟩
    exact ⟨es₁, es₂, h₁.symm, h₂.symm, rfl⟩
  · rintro ⟨es₁, es₂, h₁, h₂, rfl⟩
    exact ⟨es₁, es₂, rfl, h₁.symm, h₂.symm⟩

theorem exists_ofValues (h : ∀ v ∈ vs, ¬ Bad v) : ∃ es, ofValues vs = .ok es := by
  simp only [ofValues_eq_ok_iff]
  induction vs with
  | nil => exact ⟨[], rfl⟩
  | cons v vs ih =>
      obtain ⟨hv, hvs⟩ := List.forall_mem_cons.1 h
      obtain ⟨e, he⟩ := exists_ofValue hv
      obtain ⟨es, hes⟩ := ih hvs
      exact ⟨e :: es, by rw [List.map_cons, List.map_cons, he, hes]⟩

/-- The value with number `i` is bad, and none before it is. -/
def FirstBad (vs : List Value) (i : Nat) (v : Value) : Prop :=
  vs[i]? = some v ∧ Bad v ∧ ∀ j < i, ∀ w, vs[j]? = some w → ¬ Bad w

theorem FirstBad.cons (h : FirstBad vs i v) (hw : ¬ Bad w) : FirstBad (w :: vs) (i + 1) v := by
  obtain ⟨hv, hbad, hbefore⟩ := h
  refine ⟨hv, hbad, fun j hj u hu => ?_⟩
  cases j with
  | zero => exact Option.some.inj hu ▸ hw
  | succ j => exact hbefore j (Nat.lt_of_succ_lt_succ hj) u hu

/-- Among values of which some are bad there is a first bad one. -/
theorem exists_firstBad (h : ∃ v ∈ vs, Bad v) : ∃ i v, FirstBad vs i v := by
  induction vs with
  | nil =>
      obtain ⟨v, hv, -⟩ := h
      exact absurd hv List.not_mem_nil
  | cons w vs ih =>
      by_cases hw : Bad w
      · exact ⟨0, w, rfl, hw, fun j hj => absurd hj (Nat.not_lt_zero j)⟩
      · obtain ⟨v, hv, hbad⟩ := h
        have htail : v ∈ vs := (List.mem_cons.1 hv).resolve_left fun heq => hw (heq ▸ hbad)
        obtain ⟨i, u, hfirst⟩ := ih ⟨v, htail, hbad⟩
        exact ⟨i + 1, u, hfirst.cons hw⟩

/-- The first bad value is reported with its number. -/
theorem ofValuesFrom_eq_error {start : Nat} {cause : EntryFault} (h : FirstBad vs i v)
    (hcause : ofValue v = .error cause) :
    ofValuesFrom start vs = .error (start + i, cause) := by
  obtain ⟨hv, hbad, hbefore⟩ := h
  induction vs generalizing start i with
  | nil => cases hv
  | cons w vs ih =>
      rw [ofValuesFrom]
      cases i with
      | zero =>
          obtain rfl := Option.some.inj hv
          rw [hcause]
          rfl
      | succ i =>
          -- the values before the bad one are read
          obtain ⟨e, he⟩ := exists_ofValue (hbefore 0 (Nat.succ_pos i) w rfl)
          have hrest : ofValuesFrom (start + 1) vs = .error (start + 1 + i, cause) :=
            ih hv fun j hj u hu => hbefore (j + 1) (Nat.succ_lt_succ hj) u hu
          rw [he, hrest, Nat.add_right_comm]
          rfl

end HostPrereqs.Entry
