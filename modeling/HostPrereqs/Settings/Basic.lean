import HostPrereqs.Log.Record
import HostPrereqs.Output.Format
import HostPrereqs.Value.Literal

/-!
# Settings — settings

Five settings, each with a usual value.  They are read from a mapping of names to data in their
order, and the first one that is wrong is reported with its value.  Truth values may be written
in words and numbers; values of the build configuration are turned into texts.
-/

namespace HostPrereqs

/-- The settings of the program. -/
structure Settings where
  /-- A build without native code, with it, or no preference. -/
  pureOnly : Option Bool
  /-- Every question takes its default. -/
  useDefault : Bool
  /-- Overrides of the build configuration. -/
  buildConfig : List (Value × Value)
  outputFormat : OutputFormat
  /-- The least important level of records that are shown. -/
  verbosity : Log.Level

/-- What a setting has to be. -/
inductive SettingFault where
  | notBoolean
  | unclearBoolean
  | notDictionary
  | noFormat
  | noLevel
deriving DecidableEq, Repr

def SettingFault.message : SettingFault → String
  | notBoolean => "Input should be a valid boolean"
  | unclearBoolean => "Input should be a valid boolean, unable to interpret input"
  | notDictionary => "Input should be a valid dictionary"
  | noFormat => "Input should be 'json' or 'yaml'"
  | noLevel => "Input should be 'error', 'warning', 'info' or 'debug'"

/-- A setting that is wrong, and its value. -/
structure InvalidSetting where
  field : String
  fault : SettingFault
  value : Value

namespace Settings

/-- The usual settings. -/
def usual : Settings := ⟨none, false, [], .json, .warning⟩

/-- The words for truth values, in small letters. -/
def boolWords : List (String × Bool) :=
  [("0", false), ("off", false), ("f", false), ("false", false), ("n", false), ("no", false),
    ("1", true), ("on", true), ("t", true), ("true", true), ("y", true), ("yes", true)]

/-- Reads a truth value from a word. -/
def readBoolWord (s : String) : Except SettingFault Bool :=
  match boolWords.lookup (s.map Char.toLower) with
  | some b => .ok b
  | none => .error .unclearBoolean

/-- Numbers of this size and more are never read as truth values. -/
def sizeLimit : Nat := Nat.pow 2 63

/-- Reads a truth value from a whole number. -/
def readBoolNumber (i : Int) : Except SettingFault Bool :=
  if i = 0 then .ok false
  else if i = 1 then .ok true
  else if i.natAbs < sizeLimit then .error .unclearBoolean
  else .error .notBoolean

/-- Reads a truth value from data. -/
def readBool : Value → Except SettingFault Bool
  | .bool b => .ok b
  | .int i => readBoolNumber i
  | .float x =>
      match x.toInt? with
      | some i => readBoolNumber i
      | none => .error .notBoolean
  | .str s => readBoolWord s
  | .bytes bs =>
      match String.fromUTF8? ⟨bs.toArray⟩ with
      | some s => readBoolWord s
      | none => .error .unclearBoolean
  | _ => .error .notBoolean

def readOptionalBool : Value → Except SettingFault (Option Bool)
  | .null => .ok none
  | v => (readBool v).map some

/-- The text of a value of the build configuration. -/
def configText : Value → String
  | .bool b => if b then "1" else "0"
  | v => v.text

/-- Reads overrides of the build configuration. -/
def readBuildConfig : Value → Except SettingFault (List (Value × Value))
  | .map es =>
      .ok (es.foldl (fun out (k, v) => Value.insert (.str k.text) (.str (configText v)) out) [])
  | _ => .error .notDictionary

def readFormat (v : Value) : Except SettingFault OutputFormat :=
  match v.str?.bind OutputFormat.ofName? with
  | some f => .ok f
  | none => .error .noFormat

/-- The levels that the verbosity may be. -/
def levels : List (String × Log.Level) :=
  [("error", .error), ("warning", .warning), ("info", .info), ("debug", .debug)]

def readLevel (v : Value) : Except SettingFault Log.Level :=
  match v.str?.bind fun s => levels.lookup s with
  | some l => .ok l
  | none => .error .noLevel

/-- Reads one setting; the usual value stands for one that is not named. -/
def readField {α : Type} (es : List (Value × Value)) (field : String) (usual : α)
    (read : Value → Except SettingFault α) : Except InvalidSetting α :=
  match Value.find? es field with
  | none => .ok usual
  | some v => (read v).mapError (⟨field, ·, v⟩)

/-- Reads the settings from a mapping. -/
def ofMapping (es : List (Value × Value)) : Except InvalidSetting Settings := do
  let pureOnly ← readField es "pureperl_only" usual.pureOnly readOptionalBool
  let useDefault ← readField es "use_default" usual.useDefault readBool
  let buildConfig ← readField es "build_config" usual.buildConfig readBuildConfig
  let outputFormat ← readField es "output_format" usual.outputFormat readFormat
  let verbosity ← readField es "verbosity" usual.verbosity readLevel
  return ⟨pureOnly, useDefault, buildConfig, outputFormat, verbosity⟩

end Settings

end HostPrereqs
