import HostPrereqs.Proofs.Host.Similar
import HostPrereqs.Proofs.Settings.Overlay

/-!
# Settings — the layers that are read

Whatever is read from a text has distinct keys: an object of JSON (`Json.distinct_of_read`), and a
mapping of YAML with all mappings in it (`Yaml.Node.distinct_of_data`).  So the settings of a file
and those of the environment are layers (`layer_of_fileLayer`, `layer_of_environmentLayer`).
-/

namespace HostPrereqs

open Value (Distinct find?)

/-! ### Objects of JSON -/

namespace Json

theorem not_map_of_numeral {negative : Bool} {s r : List Char} {v : Value}
    (h : numeral negative s = some (v, r)) (es : List (Value × Value)) : v ≠ .map es := by
  unfold numeral at h
  obtain ⟨⟨whole, afterWhole⟩, -, h⟩ := Option.bind_eq_some_iff.1 h
  dsimp only at h
  split at h
  · cases h
    exact nofun
  · cases h
    exact nofun

theorem not_map_of_scalar? {s r : List Char} {v : Value} (h : scalar? s = some (v, r))
    (es : List (Value × Value)) : v ≠ .map es := by
  unfold scalar? at h
  dsimp only at h
  rw [Option.orElse_eq_orElse, Option.orElse_eq_or, Option.or_eq_some_iff] at h
  rcases h with h | ⟨-, h⟩
  · obtain ⟨⟨word, value⟩, hmem, h⟩ := List.exists_of_findSome?_eq_some h
    obtain ⟨rest, -, h⟩ := Option.map_eq_some_iff.1 h
    cases h
    simp only [constants, List.mem_cons, Prod.mk.injEq, List.not_mem_nil, or_false] at hmem
    rcases hmem with ⟨-, rfl⟩ | ⟨-, rfl⟩ | ⟨-, rfl⟩ | ⟨-, rfl⟩ | ⟨-, rfl⟩ | ⟨-, rfl⟩ <;> exact nofun
  · split at h
    · exact not_map_of_numeral h es
    · exact not_map_of_numeral h es

theorem distinct_of_value {s : List Char} {es : List (Value × Value)} {rest : Rest s}
    (h : value s = .ok (.map es, rest)) : Distinct es := by
  unfold value at h
  split at h
  · obtain ⟨⟨cs, rest'⟩, -, h⟩ := Result.map_eq_ok.1 h
    cases h
  · split at h
    · cases h
    · obtain ⟨⟨xs, rest'⟩, -, h⟩ := Result.map_eq_ok.1 h
      cases h
  · split at h
    · cases h
      exact Value.distinct_nil
    · obtain ⟨⟨pairs, rest'⟩, -, h⟩ := Result.map_eq_ok.1 h
      exact Value.distinct_ofPairs (congrArg Prod.fst h)
  · unfold scalar at h
    split at h
    · rename_i v r hscalar
      split at h
      · dsimp only at h
        split at h
        · cases h
        · cases h
          exact absurd rfl (not_map_of_scalar? hscalar es)
      · cases h
    · cases h

/-- Keys of an object that is read are distinct. -/
theorem distinct_of_read {text : String} {es : List (Value × Value)}
    (h : read text = .ok (.map es)) : Distinct es := by
  have hchars := Result.mapError_eq_ok.1 h
  unfold readChars at hchars
  split at hchars
  · cases hchars
  · split at hchars
    · cases hchars
    · rename_i v rest hvalue
      dsimp only at hchars
      split at hchars
      · obtain rfl := Except.ok.inj hchars
        exact distinct_of_value hvalue
      · cases hchars

end Json

/-! ### Mappings of YAML -/

namespace Yaml

theorem Scalar.not_map_of_value {tag : Tag} {text : String} {v : Value}
    (h : Scalar.value tag text = .ok v) (es : List (Value × Value)) : v ≠ .map es := by
  rintro rfl
  unfold Scalar.value at h
  split at h
  · cases h
  · split at h <;> cases h
  · obtain ⟨i, -, heq⟩ := Result.map_eq_ok.1 h
    cases heq
  · obtain ⟨x, -, heq⟩ := Result.map_eq_ok.1 h
    cases heq
  · unfold Scalar.timestamp at h
    split at h
    · cases h
    · obtain ⟨-, -, h⟩ := Result.bind_eq_ok.1 h
      cases h
    · dsimp only at h
      split at h
      · split at h
        · cases h
        · obtain ⟨-, -, h⟩ := Result.bind_eq_ok.1 h
          cases h
      · obtain ⟨-, -, h⟩ := Result.bind_eq_ok.1 h
        cases h
  · obtain ⟨bs, -, heq⟩ := Result.map_eq_ok.1 h
    cases heq
  · cases h
  · cases h

namespace Node

theorem not_map_of_scalarValue (n : Node) (es : List (Value × Value)) :
    (n.scalarValue.toOption).getD .null ≠ .map es := by
  cases h : n.scalarValue with
  | error e => exact nofun
  | ok v =>
      unfold scalarValue at h
      split at h
      · exact Scalar.not_map_of_value h es
      · cases h

theorem distinct_entriesOf (ps : List (Value × Value)) : Distinct (entriesOf ps) :=
  Value.distinct_nil.foldl_insert

/-- The keys of a mapping are distinct. -/
theorem distinct_of_data {n : Node} {es : List (Value × Value)} (h : n.data = .map es) :
    Distinct es := by
  cases n with
  | scalar t s =>
      rw [data] at h
      exact absurd h (not_map_of_scalarValue _ es)
  | sequence t items =>
      rw [data] at h
      split at h <;> cases h
  | mapping t pairs =>
      unfold data at h
      split at h
      · obtain rfl := Value.map.inj h
        exact distinct_entriesOf _
      · cases h
      · exact absurd h (not_map_of_scalarValue _ es)

theorem exists_of_mem_dataOfPairs {ps : List (Node × Node)} {e : Value × Value}
    (h : e ∈ dataOfPairs ps) : ∃ n : Node, e.2 = n.data := by
  induction ps with
  | nil => cases h
  | cons p ps ih =>
      obtain ⟨k, v⟩ := p
      unfold dataOfPairs at h
      rcases List.mem_cons.1 h with rfl | h
      · exact ⟨v, rfl⟩
      · exact ih h

theorem mem_entriesOf {ps : List (Value × Value)} {e : Value × Value} (h : e ∈ entriesOf ps) :
    ∃ p ∈ ps, e.2 = p.2 := by
  suffices hall : ∀ e ∈ entriesOf ps, ∃ p ∈ ps, e.2 = p.2 from hall e h
  refine List.foldlRecOn
    (motive := fun es : List (Value × Value) => ∀ e ∈ es, ∃ p ∈ ps, e.2 = p.2) ps _
    (fun _ he => absurd he List.not_mem_nil) fun es hes p hp e he => ?_
  rcases Value.mem_insert he with he | ⟨heq, -⟩
  · exact hes e he
  · exact ⟨p, hp, heq⟩

end Node

end Yaml

namespace Settings

variable {es nested : List (Value × Value)}

/-- A mapping that is read is a layer. -/
theorem layer_of_data {n : Yaml.Node} (h : n.data = .map es) : Layer es := by
  refine ⟨Yaml.Node.distinct_of_data h, fun e he inner hinner => ?_⟩
  cases n with
  | scalar t s =>
      rw [Yaml.Node.data] at h
      exact absurd h (Yaml.Node.not_map_of_scalarValue _ es)
  | sequence t items =>
      rw [Yaml.Node.data] at h
      split at h <;> cases h
  | mapping t pairs =>
      unfold Yaml.Node.data at h
      split at h
      · obtain rfl := Value.map.inj h
        obtain ⟨p, hp, heq⟩ := Yaml.Node.mem_entriesOf he
        obtain ⟨v, hv⟩ := Yaml.Node.exists_of_mem_dataOfPairs hp
        exact Yaml.Node.distinct_of_data (hv ▸ heq ▸ hinner)
      · cases h
      · exact absurd h (Yaml.Node.not_map_of_scalarValue _ es)

theorem layer_of_read {text : String} (h : Yaml.read text = .ok (.map es)) : Layer es := by
  unfold Yaml.read at h
  obtain ⟨ts, -, h⟩ := Result.bind_eq_ok.1 h
  obtain ⟨n?, -, h⟩ := Result.bind_eq_ok.1 h
  cases n? with
  | none => cases h
  | some n =>
      change n.toValue = _ at h
      unfold Yaml.Node.toValue at h
      split at h
      · cases h
      · exact layer_of_data (Except.ok.inj h)

/-- The settings of a file are a layer. -/
theorem layer_of_fileLayer {files : Files} {path : String} {h h' : Host}
    (hfile : fileLayer files path h = (.ok es, h')) : Layer es := by
  unfold fileLayer at hfile
  split at hfile
  · cases hfile
    exact .nil
  · obtain ⟨text, h₁, -, hfile⟩ := Host.run_bind_eq_ok.1 hfile
    obtain ⟨v, h₂, hread, hfile⟩ := Host.run_bind_eq_ok.1 hfile
    split at hfile
    · cases hfile
      exact layer_of_read (Result.mapError_eq_ok.1 (Host.run_ofExcept_eq_ok.1 hread).1)
    · obtain ⟨-, h₃, -, hfile⟩ := Host.run_bind_eq_ok.1 hfile
      cases hfile
      exact .nil
    · cases hfile

/-! ### The environment -/

theorem distinct_setNested {keys : List String} {v : Value} (h : Distinct es) :
    Distinct (setNested keys v es) := by
  rcases keys with _ | ⟨key, _ | ⟨next, more⟩⟩
  · exact h
  · exact h.insert _ _
  · unfold setNested
    split
    · exact h.insert _ _
    · exact h.insert _ _
    · exact h

theorem distinct_nestedEntries (start : String) (environment : List (Value × Value)) :
    Distinct (nestedEntries start environment) := by
  refine List.foldlRecOn environment _ Value.distinct_nil fun es hes e _ => ?_
  dsimp only
  split
  · exact distinct_setNested hes
  · exact hes

theorem distinct_environmentBuildConfig {environment : List (Value × Value)}
    (h : environmentBuildConfig environment = .ok (some (.map es))) : Distinct es := by
  unfold environmentBuildConfig at h
  dsimp only at h
  split at h
  · split at h
    · cases h
    · cases h
      exact distinct_nestedEntries _ _
  · split at h
    · cases h
    · rename_i inner hread
      cases h
      exact distinct_overlay (Json.distinct_of_read hread) _
    · cases h
    · rename_i v hnot _ _
      cases h
      exact absurd rfl (hnot es)

/-- A variable of the environment is a text. -/
theorem str_of_find?_lowered {environment : List (String × String)} {name : String} {v : Value}
    (h : find? (lowered environment) name = some v) : ∃ s, v = .str s := by
  suffices hall : ∀ e ∈ lowered environment, ∃ s, e.2 = .str s from
    hall _ (Value.mem_of_find? h)
  refine List.foldlRecOn
    (motive := fun es : List (Value × Value) => ∀ e ∈ es, ∃ s, e.2 = .str s) environment _
    (fun _ he => absurd he List.not_mem_nil) fun es hes e _ e' he' => ?_
  rcases Value.mem_insert he' with he' | ⟨heq, -⟩
  · exact hes e' he'
  · exact ⟨_, heq⟩

/-- No other spelling of a name is set, nor is the name set twice. -/
def SpelledOnce (environment : List (String × String)) (name : String) : Prop :=
  ∀ e ∈ environment, Text.lower e.1 = Text.lower name →
    e.1 = name ∧ environment.lookup name = some e.2

/-- A variable as an entry with its name in small letters. -/
def loweredEntry (e : String × String) : Value × Value := (.str (Text.lower e.1), .str e.2)

/-- A variable whose name is spelled once is found in small letters. -/
theorem find?_lowered {environment : List (String × String)} {name : String}
    (honce : SpelledOnce environment name) :
    find? (lowered environment) (Text.lower name) = (environment.lookup name).map .str := by
  have hset := @Value.find?_foldl_insert (Text.lower name) [] (environment.map loweredEntry)
  rw [List.foldl_map, Value.find?_nil, Option.or_none, ← List.map_reverse] at hset
  refine Eq.trans hset ?_
  cases hlookup : environment.lookup name with
  | none =>
      refine Value.find?_eq_none fun e he hkey => ?_
      obtain ⟨e', he', rfl⟩ := List.mem_map.1 he
      obtain ⟨-, hsome⟩ := honce e' (List.mem_reverse.1 he') (Value.str.inj hkey)
      cases hlookup.symm.trans hsome
  | some text =>
      obtain ⟨before, after, rfl, -⟩ := List.lookup_eq_some_iff.1 hlookup
      obtain ⟨v, hv⟩ := Value.exists_find? ⟨loweredEntry (name, text), List.mem_map_of_mem
        (List.mem_reverse.2 (List.mem_append_right before List.mem_cons_self)), rfl⟩
      obtain ⟨e, he, heq⟩ := List.mem_map.1 (Value.mem_of_find? hv)
      obtain ⟨hkey, hvalue⟩ := Prod.mk.inj heq
      obtain ⟨-, hsome⟩ := honce e (List.mem_reverse.1 he) (Value.str.inj hkey)
      rw [hv, ← hvalue, Option.some.inj (hlookup.symm.trans hsome)]
      rfl

/-- Names that some values are given to are names. -/
theorem keys_filterMap_sublist (fields : List String) (value? : String → Option Value) :
    ((fields.filterMap fun field => (value? field).map fun v => (Value.str field, v)).map
      (·.1)).Sublist (fields.map .str) := by
  induction fields with
  | nil => exact .slnil
  | cons field fields ih =>
      cases h : value? field with
      | none =>
          rw [List.filterMap_cons_none (by rw [h]; rfl)]
          exact ih.cons _
      | some v =>
          rw [List.filterMap_cons_some (by rw [h]; rfl)]
          exact ih.cons_cons _

theorem find?_filterMap (fields : List String) (value? : String → Option Value) (field : String) :
    find? (fields.filterMap fun field => (value? field).map fun v => (Value.str field, v)) field =
      if field ∈ fields then value? field else none := by
  induction fields with
  | nil => rfl
  | cons first fields ih =>
      by_cases hfirst : first = field
      · subst hfirst
        rw [if_pos List.mem_cons_self]
        cases h : value? first with
        | none =>
            rw [List.filterMap_cons_none (by rw [h]; rfl), ih, h, ite_self]
        | some v =>
            rw [List.filterMap_cons_some (by rw [h]; rfl), Value.find?_cons,
              if_pos (Value.sameKey_str.2 rfl)]
      · have hmem : field ∈ first :: fields ↔ field ∈ fields := by simp [Ne.symm hfirst]
        simp only [hmem]
        cases h : value? first with
        | none => rw [List.filterMap_cons_none (by rw [h]; rfl), ih]
        | some v =>
            rw [List.filterMap_cons_some (by rw [h]; rfl), Value.find?_cons, if_neg, ih]
            exact fun hsame => hfirst (Value.str.inj (Value.sameKey_str.1 hsame))

/-- A setting that is a single value is in the environment under its own name. -/
theorem find?_environmentLayer {environment : List (String × String)}
    (h : environmentLayer environment = .ok es) {field : String} (hfield : field ∈ scalarFields) :
    find? es field = find? (lowered environment) (variableStart ++ field) := by
  unfold environmentLayer at h
  obtain ⟨config, -, h⟩ := Result.bind_eq_ok.1 h
  obtain rfl := Except.ok.inj h
  have hconfig : find? (config.map fun v => (Value.str "build_config", v)).toList field = none := by
    refine Value.find?_eq_none fun e he hkey => ?_
    obtain ⟨v, -, rfl⟩ := List.mem_map.1 (Option.toList_map ▸ he)
    obtain rfl := Value.str.inj hkey
    exact absurd hfield (by decide)
  rw [Value.find?_append, find?_filterMap, if_pos hfield, hconfig, Option.or_none]

/-- The settings of the environment are a layer. -/
theorem layer_of_environmentLayer {environment : List (String × String)}
    (h : environmentLayer environment = .ok es) : Layer es := by
  unfold environmentLayer at h
  obtain ⟨config, hconfig, h⟩ := Result.bind_eq_ok.1 h
  obtain rfl := Except.ok.inj h
  constructor
  · -- the names are some of all names, in their order
    have hnames : ((scalarFields ++ ["build_config"]).map Value.str).Pairwise
        fun k l => k.sameKey l = false := by decide +kernel
    refine List.Pairwise.sublist ?_ hnames
    rw [List.map_append, List.map_append]
    refine (keys_filterMap_sublist _ _).append ?_
    cases config with
    | none => exact List.nil_sublist _
    | some v => exact List.Sublist.refl _
  · intro e he inner hinner
    rcases List.mem_append.1 he with he | he
    · obtain ⟨field, -, he⟩ := List.mem_filterMap.1 he
      obtain ⟨v, hfind, rfl⟩ := Option.map_eq_some_iff.1 he
      obtain ⟨s, rfl⟩ := str_of_find?_lowered hfind
      cases hinner
    · obtain ⟨v, hv, rfl⟩ := List.mem_map.1 (Option.toList_map ▸ he)
      obtain rfl := Option.mem_toList.1 hv
      obtain rfl : v = .map inner := hinner
      exact distinct_environmentBuildConfig hconfig

end Settings

end HostPrereqs
