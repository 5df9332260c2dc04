import HostPrereqs.File.Basic
import HostPrereqs.Host.Basic
import HostPrereqs.Json.Reader
import HostPrereqs.Settings.Basic
import HostPrereqs.Text.Casing
import HostPrereqs.Yaml.Reader

/-!
# Settings — layers

Settings come from three layers: the environment, the project's file, and the user's file.  What
a higher layer names wins, also where it is empty or false; mappings that stand at the same place
are merged key by key (`overlay`).

A variable of the environment names a setting after a common beginning, in any case.  The build
configuration is a variable of JSON, or variables of single keys after two underscores, where
further underscores lead to mappings inside.
-/

namespace HostPrereqs

/-- What loading settings can fail at. -/
inductive SettingsError where
  | missingFile (path : String)
  | badYaml (path : String) (cause : Yaml.Fault)
  | notMapping (path : String)
  | invalid (cause : InvalidSetting)
  /-- A variable that should hold JSON does not. -/
  | badVariable
  /-- A key of a file that is no text. -/
  | oddKey
  | isDirectory
  | notText
  | noSuchValue (cause : Yaml.Fault)

namespace Settings

def logger : String := "dynreqs.config"

/-! ### Merging -/

mutual

/-- The entries of `low` under those of `high`, which win. -/
def overlay (low : List (Value × Value)) : (high : List (Value × Value)) → List (Value × Value)
  | [] => low
  | (k, v) :: high => overlay (overlayAt k v low) high
termination_by high => (sizeOf high, 0)

/-- Sets a key; mappings are merged. -/
def overlayAt (key value : Value) (low : List (Value × Value)) : List (Value × Value) :=
  match low.find? fun (k, _) => k.sameKey key, value with
  | some (_, .map inner), .map outer => Value.insert key (.map (overlay inner outer)) low
  | _, _ => Value.insert key value low
termination_by (sizeOf value, 1)

end

/-! ### The environment -/

/-- What names of variables for settings start with, in small letters. -/
def variableStart : String := "dynreqs_"

/-- What stands between the keys of a nested setting. -/
def delimiter : List Char := ['_', '_']

/-- The environment with names in small letters; of names that become the same, the last value
counts. -/
def lowered (environment : List (String × String)) : List (Value × Value) :=
  environment.foldl (fun es (name, value) =>
    Value.insert (.str (Text.lower name)) (.str value) es) []

/-- Cuts a name at its double underscores. -/
def keysOf (name : List Char) : List (List Char) :=
  match name with
  | '_' :: '_' :: r => [] :: keysOf r
  | c :: r =>
      match keysOf r with
      | first :: more => (c :: first) :: more
      | [] => [[c]]
  | [] => [[]]

/-- Sets a value under keys, one inside the other.  A key that holds no mapping leads nowhere. -/
def setNested (keys : List String) (value : Value) (es : List (Value × Value)) :
    List (Value × Value) :=
  match keys with
  | [] => es
  | [key] => Value.insert (.str key) value es
  | key :: more =>
      match Value.find? es key with
      | none => Value.insert (.str key) (.map (setNested more value [])) es
      | some (.map inner) => Value.insert (.str key) (.map (setNested more value inner)) es
      | some _ => es

/-- The entries that variables of single keys give to a setting. -/
def nestedEntries (start : String) (environment : List (Value × Value)) : List (Value × Value) :=
  environment.foldl (fun es (name, value) =>
    match Json.after? (start.toList ++ delimiter) name.text.toList with
    | some keys => setNested ((keysOf keys).map String.ofList) value es
    | none => es) []

/-- The settings that are a single value in the environment. -/
def scalarFields : List String := ["pureperl_only", "use_default", "output_format", "verbosity"]

/-- The build configuration of the environment, if there is any.  A variable that holds null counts
as nothing, whatever variables there are for single keys. -/
def environmentBuildConfig (environment : List (Value × Value)) :
    Except SettingsError (Option Value) := do
  let name := variableStart ++ "build_config"
  let nested := nestedEntries name environment
  match Value.find? environment name with
  | none => return if nested.isEmpty then none else some (.map nested)
  | some v =>
      match Json.read v.text with
      | .error _ => throw .badVariable
      | .ok (.map es) => return some (.map (overlay es nested))
      | .ok .null => return none
      | .ok v => return some v

/-- The layer of the environment. -/
def environmentLayer (environment : List (String × String)) :
    Except SettingsError (List (Value × Value)) := do
  let environment := lowered environment
  let scalars := scalarFields.filterMap fun field =>
    (Value.find? environment (variableStart ++ field)).map fun v => (Value.str field, v)
  let config ← environmentBuildConfig environment
  return scalars ++ (config.map fun v => (Value.str "build_config", v)).toList

/-! ### Files -/

/-- The text of a settings file. -/
def readFile (files : Files) (path : String) : Except SettingsError String := do
  match files.readBytes path with
  | .error _ => throw .isDirectory
  | .ok content =>
      match Files.textOf? content with
      | some text => return text
      | none => throw .notText

/-- The layer of a file.  A file that is not there gives nothing, and neither does an empty one,
which is reported. -/
def fileLayer (files : Files) (path : String) :
    ExceptT SettingsError OnHost (List (Value × Value)) := do
  if !files.isThere path then return []
  let text ← MonadExcept.ofExcept (readFile files path)
  let v ← MonadExcept.ofExcept ((Yaml.read text).mapError fun e =>
    if e.isOfText then SettingsError.badYaml path e else .noSuchValue e)
  match v with
  | .map es => return es
  | .null =>
      Host.report ⟨.warning, logger, "config_file_empty", [("path", .str path)]⟩
      return []
  | _ => throw (.notMapping path)

/-! ### Loading -/

/-- Where settings files are looked for. -/
structure Locations where
  projectDirectory : String
  homeDirectory : String

def Locations.projectFile (l : Locations) : String := l.projectDirectory ++ "/dynreqs.yaml"

def Locations.userFile (l : Locations) : String :=
  l.homeDirectory ++ "/.config/dynreqs/config.yaml"

/-- The file of assignments for the environment. -/
def Locations.environmentFile (l : Locations) : String := l.projectDirectory ++ "/.env"

/-- Loads the settings.  A project file that is named has to be there. -/
def load (files : Files) (locations : Locations) (config : Option String) :
    ExceptT SettingsError OnHost Settings := do
  let projectFile ← match config with
    | some path =>
        if files.isThere path then pure (Path.normal path)
        else throw (.missingFile (Path.normal path))
    | none => do
        if !files.isThere locations.projectFile then
          Host.report ⟨.debug, logger, "no_project_config", []⟩
        pure locations.projectFile
  let project ← fileLayer files projectFile
  let user ← fileLayer files locations.userFile
  let environment ← MonadExcept.ofExcept (environmentLayer (← get).environment)
  let merged := overlay user (overlay project environment)
  if merged.any fun (k, _) => k.str?.isNone then throw .oddKey
  MonadExcept.ofExcept ((ofMapping merged).mapError SettingsError.invalid)

end Settings

end HostPrereqs
