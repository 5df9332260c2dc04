import HostPrereqs.Proofs.Host.Keeping
import HostPrereqs.Proofs.Settings.Layers

/-!
# Settings — precedence

The three layers of settings (`Layers`) are overlaid, and the settings are read from the overlay.
A setting that is a single value is read from the first layer that names it, also where that value
is empty or false (`Layers.Sound.decide`).  Where the build configurations give texts single values
(`Plain`), each key has the text of its value in the first layer that names it
(`Layers.Sound.unite`).

`load_spec` says what layers settings are loaded from, and `load_of_given` that they are loaded from
them.
-/

namespace HostPrereqs.Settings

open Value (Distinct find?)

variable {low high es : List (Value × Value)} {v : Value} {field key : String} {α : Type}

/-- The entries of the three layers. -/
structure Layers where
  environment : List (Value × Value)
  project : List (Value × Value)
  user : List (Value × Value)

/-! ### Mappings of single values -/

/-- Entries that give single values to texts. -/
def Plain (es : List (Value × Value)) : Prop :=
  ∀ e ∈ es, (∃ s, e.1 = .str s) ∧ ∀ inner, e.2 ≠ .map inner

theorem Plain.overlayAt (hlow : Plain low) {s : String} (hv : ∀ inner, v ≠ .map inner) :
    Plain (overlayAt (.str s) v low) := by
  rw [overlayAt_eq, laidOver_of_not_map hv]
  intro e he
  rcases Value.mem_insert he with he | ⟨hvalue, hkey⟩
  · exact hlow e he
  · refine ⟨?_, hvalue ▸ hv⟩
    rcases hkey with hkey | ⟨w, hw⟩
    · exact ⟨s, hkey⟩
    · exact (hlow _ hw).1

theorem Plain.overlay (hlow : Plain low) (hhigh : Plain high) : Plain (overlay low high) := by
  induction high generalizing low with
  | nil =>
      rw [overlay_nil]
      exact hlow
  | cons e high ih =>
      obtain ⟨k, v⟩ := e
      obtain ⟨⟨⟨s, rfl⟩, hv⟩, hrest⟩ := List.forall_mem_cons.1 hhigh
      rw [overlay_cons]
      exact ih (hlow.overlayAt hv) hrest

theorem Plain.find?_overlay (hhigh : Plain high) (hkeys : Distinct high)
    (low : List (Value × Value)) (key : String) :
    find? (Settings.overlay low high) key = (find? high key).or (find? low key) := by
  rw [Settings.find?_overlay hkeys]
  cases hfind : find? high key with
  | none => rfl
  | some v =>
      have hv := (hhigh _ (Value.mem_of_find? hfind)).2
      rw [Option.map_some, laidOver_of_not_map hv]

/-! ### The build configuration of a layer -/

/-- The build configuration that entries give, if it is a mapping. -/
def configOf (es : List (Value × Value)) : List (Value × Value) :=
  match find? es "build_config" with
  | some (.map config) => config
  | _ => []

theorem Layer.configOf (h : Layer es) : Distinct (configOf es) := by
  unfold Settings.configOf
  split
  · rename_i config hfind
    exact h.find? hfind
  · exact Value.distinct_nil

theorem configOf_eq {config : List (Value × Value)}
    (h : find? es "build_config" = some (.map config)) : configOf es = config := by
  rw [configOf, h]

/-- Where upper entries give no other build configuration than a mapping, it is overlaid. -/
theorem configOf_overlay (hhigh : Layer high)
    (hmap : ∀ v, find? high "build_config" = some v → ∃ config, v = .map config)
    (low : List (Value × Value)) :
    configOf (overlay low high) = overlay (configOf low) (configOf high) ∨
      configOf low = [] ∧ configOf (overlay low high) = configOf high := by
  have hfind : find? (overlay low high) "build_config" = _ := find?_overlay hhigh.keys
  cases hconfig : find? high "build_config" with
  | none =>
      refine .inl ?_
      rw [hconfig, Option.map_none, Option.none_or] at hfind
      have hnone : configOf high = [] := by rw [configOf, hconfig]
      rw [hnone, overlay_nil, configOf, hfind, configOf]
  | some v =>
      obtain ⟨config, rfl⟩ := hmap v hconfig
      rw [hconfig, Option.map_some, Option.some_or] at hfind
      rw [configOf_eq hconfig]
      -- the mapping is laid over one below it, and stands alone over anything else
      unfold laidOver at hfind
      split at hfind
      · rename_i inner outer hlower hv
        obtain rfl := Value.map.inj hv
        rw [configOf_eq hfind, configOf_eq hlower]
        exact .inl rfl
      · rename_i hother
        refine .inr ⟨?_, configOf_eq hfind⟩
        unfold configOf
        split
        · rename_i inner hlower
          exact absurd rfl (hother inner config hlower)
        · rfl

theorem find?_configOf_overlay (hhigh : Layer high) (hplain : Plain (configOf high))
    (hmap : ∀ v, find? high "build_config" = some v → ∃ config, v = .map config)
    (low : List (Value × Value)) (key : String) :
    find? (configOf (overlay low high)) key =
      (find? (configOf high) key).or (find? (configOf low) key) := by
  rcases configOf_overlay hhigh hmap low with heq | ⟨hnone, heq⟩
  · rw [heq, hplain.find?_overlay hhigh.configOf]
  · rw [heq, hnone, Value.find?_nil, Option.or_none]

theorem plain_configOf_overlay (hhigh : Layer high)
    (hmap : ∀ v, find? high "build_config" = some v → ∃ config, v = .map config)
    (hl : Plain (configOf low)) (hh : Plain (configOf high)) :
    Plain (configOf (overlay low high)) := by
  rcases configOf_overlay hhigh hmap low with heq | ⟨-, heq⟩
  · rw [heq]
    exact hl.overlay hh
  · rw [heq]
    exact hh

/-- A value that is laid over others and becomes a mapping is one. -/
theorem map_of_overlay (hhigh : Distinct high)
    (hmap : ∀ v, find? (overlay low high) field = some v → ∃ config, v = .map config) :
    ∀ v, find? high field = some v → ∃ config, v = .map config := by
  intro v hv
  have hfind : find? (overlay low high) field = _ := find?_overlay hhigh
  rw [hv, Option.map_some, Option.some_or] at hfind
  obtain ⟨config, heq⟩ := hmap _ hfind
  by_cases hany : ∃ outer, v = .map outer
  · exact hany
  · rw [laidOver_of_not_map fun outer heq => hany ⟨outer, heq⟩] at heq
    exact ⟨config, heq⟩

/-! ### Reading settings -/

/-- A setting has its usual value if it is not named, and else the value that is read. -/
def Decides (named : Option Value) (usual : α) (read : Value → Except SettingFault α) (a : α) :
    Prop :=
  match named with
  | none => a = usual
  | some v => read v = .ok a

theorem readField_eq_ok {usual a : α} {read : Value → Except SettingFault α} :
    readField es field usual read = .ok a ↔ Decides (find? es field) usual read a := by
  unfold readField Decides
  cases find? es field with
  | none =>
      dsimp only
      rw [Except.ok.injEq, eq_comm]
  | some v => exact Result.mapError_eq_ok

/-- What is read as a single value from an overlay is read from the upper entries if they name
it. -/
theorem decides_overlay {usual a : α} {read : Value → Except SettingFault α}
    (hread : ∀ inner, read (.map inner) ≠ .ok a) (hhigh : Distinct high) {named : Option Value}
    (h : Decides ((find? (overlay low high) field).or named) usual read a) :
    Decides ((find? high field).or ((find? low field).or named)) usual read a := by
  rw [find?_overlay hhigh] at h
  cases hfind : find? high field with
  | none =>
      rwa [hfind, Option.map_none, Option.none_or] at h
  | some v =>
      rw [hfind, Option.map_some, Option.some_or, Option.some_or] at h
      rw [Option.some_or]
      by_cases hv : ∃ outer, v = .map outer
      · obtain ⟨outer, rfl⟩ := hv
        obtain ⟨entries, heq⟩ := laidOver_map (find? low field) outer
        rw [heq] at h
        exact absurd h (hread entries)
      · rwa [laidOver_of_not_map fun outer heq => hv ⟨outer, heq⟩] at h

/-- What the first of the layers says that names a setting. -/
def Layers.named? (l : Layers) (field : String) : Option Value :=
  (find? l.environment field).or ((find? l.project field).or (find? l.user field))

/-- What the first of the layers says that names a key of the build configuration. -/
def Layers.config? (l : Layers) (key : String) : Option Value :=
  (find? (configOf l.environment) key).or
    ((find? (configOf l.project) key).or (find? (configOf l.user) key))

/-- The overlay of layers. -/
def Layers.merged (l : Layers) : List (Value × Value) :=
  overlay l.user (overlay l.project l.environment)

/-- The build configurations of layers give single values to texts. -/
structure Layers.Plain (l : Layers) : Prop where
  environment : Settings.Plain (configOf l.environment)
  project : Settings.Plain (configOf l.project)
  user : Settings.Plain (configOf l.user)

/-- No key stands twice in a layer. -/
structure Layers.Sound (l : Layers) : Prop where
  environment : Layer l.environment
  project : Layer l.project
  user : Layer l.user

namespace Layers

variable {l : Layers}

theorem Sound.upper (h : l.Sound) : Layer (overlay l.project l.environment) :=
  h.project.overlay h.environment

/-- A single value that is read from the overlay is read from the first layer that names it. -/
theorem Sound.decides (h : l.Sound) {usual a : α} {read : Value → Except SettingFault α}
    (hread : ∀ inner, read (.map inner) ≠ .ok a)
    (hmerged : readField l.merged field usual read = .ok a) :
    Decides (l.named? field) usual read a := by
  have hfound : Decides ((find? l.merged field).or none) usual read a := by
    rw [Option.or_none]
    exact readField_eq_ok.1 hmerged
  have hupper := decides_overlay hread h.upper.keys hfound
  rw [Option.or_none] at hupper
  exact decides_overlay hread h.environment.keys hupper

end Layers

/-! ### Reading the build configuration -/

theorem readBuildConfig_eq_ok {config : List (Value × Value)}
    (h : readBuildConfig v = .ok config) : ∃ es, v = .map es ∧
      es.foldl (fun out (k, v) => Value.insert (.str k.text) (.str (configText v)) out) [] =
        config := by
  unfold readBuildConfig at h
  split at h
  · exact ⟨_, rfl, Except.ok.inj h⟩
  · cases h

/-- Single values are found as texts. -/
theorem find?_texts (hplain : Plain es) (hkeys : Distinct es) (out : List (Value × Value)) :
    find? (es.foldl (fun out (k, v) =>
        Value.insert (.str k.text) (.str (configText v)) out) out) key =
      ((find? es key).map fun v => .str (configText v)).or (find? out key) := by
  induction es generalizing out with
  | nil => rfl
  | cons e es ih =>
      obtain ⟨k, v⟩ := e
      obtain ⟨⟨⟨s, rfl⟩, -⟩, hrest⟩ := List.forall_mem_cons.1 hplain
      rw [List.foldl_cons, ih hrest (List.pairwise_cons.1 hkeys).2, Value.find?_insert,
        Value.find?_cons, Value.text]
      split
      · rename_i hs
        obtain rfl := Value.str.inj (Value.sameKey_str.1 hs)
        rw [hkeys.find?_tail]
        rfl
      · rfl

/-- A mapping of texts to texts. -/
structure TextMap (es : List (Value × Value)) : Prop where
  keys : Distinct es
  texts : ∀ e ∈ es, ∃ key text, e = (.str key, .str text)

theorem textMap_nil : TextMap [] := ⟨Value.distinct_nil, fun _ he => absurd he List.not_mem_nil⟩

theorem TextMap.insert (h : TextMap es) (key text : String) :
    TextMap (Value.insert (.str key) (.str text) es) := by
  refine ⟨h.keys.insert _ _, fun e he => ?_⟩
  rcases Value.mem_insert he with he | ⟨hvalue, hkey | ⟨w, hw⟩⟩
  · exact h.texts e he
  · exact ⟨key, text, Prod.ext hkey hvalue⟩
  · obtain ⟨key', text', heq⟩ := h.texts _ hw
    exact ⟨key', text, Prod.ext (Prod.mk.inj heq).1 hvalue⟩

theorem textMap_texts (es : List (Value × Value)) {out : List (Value × Value)} (h : TextMap out) :
    TextMap (es.foldl (fun out (k, v) =>
      Value.insert (.str k.text) (.str (configText v)) out) out) := by
  induction es generalizing out with
  | nil => exact h
  | cons e es ih => exact ih (h.insert _ _)

/-- A build configuration in which each key that a layer names stands once, with the text of its
value in the first such layer, and no other key stands. -/
structure Layers.Unite (l : Layers) (config : List (Value × Value)) : Prop where
  texts : TextMap config
  find?_eq : ∀ key, find? config key = (l.config? key).map fun v => .str (configText v)

theorem Layers.Sound.unite {l : Layers} (h : l.Sound) (hplain : l.Plain)
    {config : List (Value × Value)}
    (hmerged : readField l.merged "build_config" [] readBuildConfig = .ok config) :
    l.Unite config := by
  have hfound := readField_eq_ok.1 hmerged
  have hupper := h.upper
  unfold Decides at hfound
  -- whatever a higher layer gives is a mapping, since the overlay is
  have hmap : ∀ v, find? l.merged "build_config" = some v → ∃ es, v = .map es := by
    intro v hv
    rw [hv] at hfound
    obtain ⟨es, rfl, -⟩ := readBuildConfig_eq_ok hfound
    exact ⟨es, rfl⟩
  have hmapUpper := map_of_overlay hupper.keys hmap
  have hmapEnvironment := map_of_overlay h.environment.keys hmapUpper
  have hplainUpper := plain_configOf_overlay h.environment hmapEnvironment hplain.project
    hplain.environment
  have hplainMerged : Settings.Plain (configOf l.merged) :=
    plain_configOf_overlay hupper hmapUpper hplain.user hplainUpper
  have hkey : ∀ key, find? (configOf l.merged) key = l.config? key := by
    intro key
    rw [merged, find?_configOf_overlay hupper hplainUpper hmapUpper,
      find?_configOf_overlay h.environment hplain.environment hmapEnvironment, Option.or_assoc]
    rfl
  cases hfind : find? l.merged "build_config" with
  | none =>
      rw [hfind] at hfound
      obtain rfl : config = [] := hfound
      refine ⟨textMap_nil, fun key => ?_⟩
      rw [← hkey, configOf, hfind]
      rfl
  | some v =>
      rw [hfind] at hfound
      obtain ⟨es, rfl, rfl⟩ := readBuildConfig_eq_ok hfound
      refine ⟨textMap_texts es textMap_nil, fun key => ?_⟩
      rw [configOf_eq hfind] at hplainMerged hkey
      have hkeys : Distinct es := (h.user.overlay hupper).find? hfind
      rw [find?_texts hplainMerged hkeys, Value.find?_nil, Option.or_none, hkey]

/-! ### Loading -/

/-- What a file gives does not depend on the host. -/
theorem fst_fileLayer (files : Files) (path : String) (h k : Host) :
    (fileLayer files path h).1 = (fileLayer files path k).1 := by
  unfold fileLayer
  split
  · rfl
  · rw [Host.run_bind, Host.run_bind, Host.run_ofExcept, Host.run_ofExcept]
    cases readFile files path with
    | error e => rfl
    | ok text =>
        dsimp only
        rw [Host.run_bind, Host.run_bind, Host.run_ofExcept, Host.run_ofExcept]
        generalize (Yaml.read text).mapError _ = x
        cases x with
        | error e => rfl
        | ok v => cases v <;> rfl

theorem fileLayer_of_absent {files : Files} {path : String} (h : files.isThere path = false)
    (host : Host) : fileLayer files path host = (.ok [], host) := by
  unfold fileLayer
  rw [h]
  rfl

theorem fileLayer_of_read {files : Files} {path text : String} (hthere : files.isThere path = true)
    (hfile : readFile files path = .ok text) (hread : Yaml.read text = .ok (.map es))
    (host : Host) : fileLayer files path host = (.ok es, host) := by
  have hthere' : ¬ (!files.isThere path) = true := by simp [hthere]
  unfold fileLayer
  rw [if_neg hthere', hfile, Host.run_bind, Host.run_ofExcept]
  dsimp only
  rw [hread, Host.run_bind, Host.run_ofExcept]
  rfl

/-- Reading a file changes nothing but the log. -/
theorem keeps_fileLayer (files : Files) (path : String) :
    Host.Keeps Host.unlogged (fileLayer files path) := by
  unfold fileLayer
  split
  · exact .pure _
  · refine .bind (.ofExcept _) fun text => .bind (.ofExcept _) fun v => ?_
    split
    · exact .pure _
    · exact .bind (.lift fun _ => rfl) fun _ => .pure _
    · exact .throw _

/-- The path of the project's file. -/
def projectFile (locations : Locations) : Option String → String
  | some path => Path.normal path
  | none => locations.projectFile

/-- The layers that settings are loaded from: the environment of the host, the project's file, and
the user's file. -/
structure Layers.Given (l : Layers) (files : Files) (locations : Locations) (config : Option String)
    (h : Host) : Prop where
  environment : environmentLayer h.environment = .ok l.environment
  project : ∀ host, (fileLayer files (projectFile locations config) host).1 = .ok l.project
  user : ∀ host, (fileLayer files locations.userFile host).1 = .ok l.user

theorem Layers.Given.unique {l k : Layers} {files : Files} {locations : Locations}
    {config : Option String} {h : Host} (hl : l.Given files locations config h)
    (hk : k.Given files locations config h) : l = k := by
  obtain ⟨environment, project, user⟩ := l
  obtain rfl := Except.ok.inj (hk.environment.symm.trans hl.environment)
  obtain rfl := Except.ok.inj ((hk.project h).symm.trans (hl.project h))
  obtain rfl := Except.ok.inj ((hk.user h).symm.trans (hl.user h))
  rfl

/-- Reads the settings once it is known where the project's file is. -/
def loadFrom (files : Files) (locations : Locations) (projectFile : String) :
    ExceptT SettingsError OnHost Settings := do
  let project ← fileLayer files projectFile
  let user ← fileLayer files locations.userFile
  let environment ← MonadExcept.ofExcept (environmentLayer (← get).environment)
  let merged := overlay user (overlay project environment)
  if merged.any fun (k, _) => k.str?.isNone then throw .oddKey
  MonadExcept.ofExcept ((ofMapping merged).mapError SettingsError.invalid)

/-- The project's file is found without a change of anything but the log. -/
theorem loadFrom_of_load {files : Files} {locations : Locations} {config : Option String}
    {h h' : Host} {settings : Settings}
    (hload : load files locations config h = (.ok settings, h')) :
    ∃ h₁, h₁.unlogged = h.unlogged ∧
      loadFrom files locations (projectFile locations config) h₁ = (.ok settings, h') := by
  unfold load at hload
  cases config with
  | some path =>
      dsimp only at hload
      split at hload
      · rw [pure_bind] at hload
        exact ⟨h, rfl, hload⟩
      · cases hload
  | none =>
      dsimp only at hload
      split at hload
      · obtain ⟨_, h₁, hreport, hrest⟩ := Host.run_bind_eq_ok.1 hload
        have hsame : h₁.unlogged = h.unlogged := by
          cases hreport
          rfl
        rw [pure_bind] at hrest
        exact ⟨h₁, hsame, hrest⟩
      · rw [pure_bind] at hload
        exact ⟨h, rfl, hload⟩

/-- Settings that are loaded are read from the overlay of three layers. -/
theorem load_spec {files : Files} {locations : Locations} {config : Option String} {h h' : Host}
    {settings : Settings} (hload : load files locations config h = (.ok settings, h')) :
    h'.unlogged = h.unlogged ∧ ∃ l : Layers, l.Given files locations config h ∧ l.Sound ∧
      ofMapping l.merged = .ok settings := by
  obtain ⟨h₁, hsame₁, hfrom⟩ := loadFrom_of_load hload
  obtain ⟨project, h₂, hproject, hrest⟩ := Host.run_bind_eq_ok.1 hfrom
  obtain ⟨user, h₃, huser, hrest⟩ := Host.run_bind_eq_ok.1 hrest
  obtain ⟨host, h₄, hget, hrest⟩ := Host.run_bind_eq_ok.1 hrest
  cases hget
  obtain ⟨environment, h₅, henvironment, hmerged⟩ := Host.run_bind_eq_ok.1 hrest
  obtain ⟨henvironment, rfl⟩ := Host.run_ofExcept_eq_ok.1 henvironment
  obtain ⟨hread, rfl⟩ : ofMapping (overlay user (overlay project environment)) = .ok settings ∧
      h' = h₅ := by
    dsimp only at hmerged
    split at hmerged
    · cases hmerged
    · obtain ⟨hread, heq⟩ := Host.run_ofExcept_eq_ok.1 hmerged
      exact ⟨Result.mapError_eq_ok.1 hread, heq⟩
  have hsame₂ : h₂.unlogged = h₁.unlogged := by
    have hsame := keeps_fileLayer files (projectFile locations config) h₁
    rwa [hproject] at hsame
  have hsame₃ : h'.unlogged = h₂.unlogged := by
    have hsame := keeps_fileLayer files locations.userFile h₂
    rwa [huser] at hsame
  -- what the layers are does not depend on what was logged when they were read
  have hsame := hsame₃.trans (hsame₂.trans hsame₁)
  refine ⟨hsame, ⟨environment, project, user⟩, ⟨?_, fun k => ?_, fun k => ?_⟩, ⟨?_, ?_, ?_⟩, hread⟩
  · exact congrArg Host.environment hsame ▸ henvironment
  · rw [fst_fileLayer _ _ k h₁, hproject]
  · rw [fst_fileLayer _ _ k h₂, huser]
  · exact layer_of_environmentLayer henvironment
  · exact layer_of_fileLayer hproject
  · exact layer_of_fileLayer huser

/-- Whatever has been logged before, settings are loaded from the overlay of their layers once it
is known which file is the project's. -/
theorem loadFrom_of_given {l : Layers} {files : Files} {locations : Locations}
    {config : Option String} {h h₁ : Host} {settings : Settings}
    (hgiven : l.Given files locations config h)
    (htexts : ∀ e ∈ l.merged, e.1.str?.isNone = false) (hread : ofMapping l.merged = .ok settings)
    (hsame : h₁.unlogged = h.unlogged) :
    ∃ h', loadFrom files locations (projectFile locations config) h₁ = (.ok settings, h') := by
  have hproject := hgiven.project h₁
  have hkept := keeps_fileLayer files (projectFile locations config) h₁
  generalize hp : fileLayer files (projectFile locations config) h₁ = p at hproject hkept
  obtain ⟨_, h₂⟩ := p
  obtain rfl := hproject
  have huser := hgiven.user h₂
  have hkept' := keeps_fileLayer files locations.userFile h₂
  generalize hu : fileLayer files locations.userFile h₂ = p at huser hkept'
  obtain ⟨_, h₃⟩ := p
  obtain rfl := huser
  -- reading files has only logged, so the environment is still the one of the layers
  have hsame₃ : h₃.unlogged = h.unlogged := (hkept'.trans hkept).trans hsame
  have henvironment : environmentLayer h₃.environment = .ok l.environment :=
    (congrArg environmentLayer (congrArg Host.environment hsame₃)).trans hgiven.environment
  refine ⟨h₃, ?_⟩
  have hget : (get : ExceptT SettingsError OnHost Host) h₃ = (.ok h₃, h₃) := rfl
  rw [loadFrom, Host.run_bind_of_ok _ hp, Host.run_bind_of_ok _ hu, Host.run_bind_of_ok _ hget,
    Host.run_bind_of_ok _ (Host.run_ofExcept_eq_ok.2 ⟨henvironment, rfl⟩)]
  dsimp only
  rw [if_neg]
  · exact Host.run_ofExcept_eq_ok.2 ⟨Result.mapError_eq_ok.2 hread, rfl⟩
  · rw [Bool.not_eq_true, List.any_eq_false]
    intro e he
    rw [htexts e he]
    exact Bool.false_ne_true

/-- Settings are loaded from the overlay of their layers. -/
theorem load_of_given {l : Layers} {files : Files} {locations : Locations} {config : Option String}
    {h : Host} {settings : Settings} (hgiven : l.Given files locations config h)
    (hthere : ∀ path, config = some path → files.isThere path = true)
    (htexts : ∀ e ∈ l.merged, e.1.str?.isNone = false) (hread : ofMapping l.merged = .ok settings) :
    ∃ h', load files locations config h = (.ok settings, h') := by
  have hfrom : ∀ h₁ : Host, h₁.unlogged = h.unlogged → ∃ h',
      loadFrom files locations (projectFile locations config) h₁ = (.ok settings, h') :=
    fun _ => loadFrom_of_given hgiven htexts hread
  unfold load
  cases config with
  | some path =>
      dsimp only
      rw [if_pos (hthere path rfl), pure_bind]
      exact hfrom h rfl
  | none =>
      dsimp only
      split
      · rw [Host.run_bind, pure_bind]
        exact hfrom _ rfl
      · rw [pure_bind]
        exact hfrom h rfl

/-- Settings that are read from a mapping are read one by one. -/
theorem ofMapping_eq_ok {settings : Settings} (h : ofMapping es = .ok settings) :
    readField es "pureperl_only" usual.pureOnly readOptionalBool = .ok settings.pureOnly ∧
    readField es "use_default" usual.useDefault readBool = .ok settings.useDefault ∧
    readField es "build_config" usual.buildConfig readBuildConfig = .ok settings.buildConfig ∧
    readField es "output_format" usual.outputFormat readFormat = .ok settings.outputFormat ∧
    readField es "verbosity" usual.verbosity readLevel = .ok settings.verbosity := by
  unfold ofMapping at h
  obtain ⟨pureOnly, hpure, h⟩ := Result.bind_eq_ok.1 h
  obtain ⟨useDefault, hdefault, h⟩ := Result.bind_eq_ok.1 h
  obtain ⟨buildConfig, hconfig, h⟩ := Result.bind_eq_ok.1 h
  obtain ⟨outputFormat, hformat, h⟩ := Result.bind_eq_ok.1 h
  obtain ⟨verbosity, hlevel, h⟩ := Result.bind_eq_ok.1 h
  obtain rfl := Except.ok.inj h
  exact ⟨hpure, hdefault, hconfig, hformat, hlevel⟩

/-- The settings that are single values are those of the first layers that name them. -/
structure Layers.Decide (l : Layers) (settings : Settings) : Prop where
  pureOnly : Decides (l.named? "pureperl_only") usual.pureOnly readOptionalBool settings.pureOnly
  useDefault : Decides (l.named? "use_default") usual.useDefault readBool settings.useDefault
  outputFormat : Decides (l.named? "output_format") usual.outputFormat readFormat
    settings.outputFormat
  verbosity : Decides (l.named? "verbosity") usual.verbosity readLevel settings.verbosity

theorem Layers.Sound.decide {l : Layers} (h : l.Sound) {settings : Settings}
    (hread : ofMapping l.merged = .ok settings) : l.Decide settings := by
  obtain ⟨hpure, hdefault, -, hformat, hlevel⟩ := ofMapping_eq_ok hread
  -- no mapping is read as a single value
  exact ⟨h.decides nofun hpure, h.decides nofun hdefault, h.decides nofun hformat,
    h.decides nofun hlevel⟩

end HostPrereqs.Settings
