import HostPrereqs.Json.Writer
import HostPrereqs.Log.Record
import HostPrereqs.Text.Casing

/-!
# Log — showing records

A display says which records are shown and in which form (`Display`): as one JSON object a line,
or as a line for people with the fields of a record in the order of their names.  A context adds
its fields to every record that does not have them itself (`Record.within`).
-/

namespace HostPrereqs.Log

namespace Record

/-- The record with the fields of a context; its own fields win. -/
def within (context : List (String × Value)) (r : Record) : Record :=
  { r with fields := r.fields ++ context.filter fun (k, _) => !(r.fields.any (·.1 = k)) }

/-- The names of what every record has. -/
def ownNames : List String := ["event", "level", "logger", "timestamp"]

/-- The fields that only some records have. -/
def details (r : Record) : List (String × Value) :=
  r.fields.filter fun (k, _) => !ownNames.contains k

/-- Everything that a record says. -/
def members (r : Record) : List (String × Value) :=
  r.details ++ [("event", .str r.event), ("level", .str r.level.name), ("logger", .str r.logger)]

/-! ### Lines -/

/-- The record as a JSON object. -/
def jsonLine (time : String) (r : Record) : String :=
  Json.compact (.record (r.members ++ [("timestamp", .str time)])) ++ "\n"

/-- The characters that a text is quoted for. -/
def isQuoted (c : Char) : Bool := [' ', '\t', '=', '\r', '\n', '"', '\''].contains c

/-- The text of a field's value; a text is quoted only where it has to be. -/
def valueText : Value → String
  | .str s => if s.toList.any isQuoted then Text.literal s else s
  | v => v.literal

/-- A text with blanks up to a width. -/
def pad (width : Nat) (s : String) : String :=
  s ++ String.ofList (List.replicate (width - s.length) ' ')

/-- The columns of levels and events are as wide as their longest usual names. -/
def levelWidth : Nat := 9

def eventWidth : Nat := 30

/-- The record as a line for people. -/
def consoleLine (time : String) (r : Record) : String :=
  let fields := (r.details.mergeSort fun a b => a.1 ≤ b.1).map fun (k, v) => s!"{k}={valueText v}"
  " ".intercalate (time :: s!"[{pad levelWidth r.level.name}]" :: pad eventWidth r.event
    :: s!"[{r.logger}]" :: fields) ++ "\n"

end Record

/-! ### Displays -/

/-- The forms of records. -/
inductive Form where
  | json
  | console
deriving DecidableEq, Repr

/-- Which records are shown, and how. -/
structure Display where
  form : Form
  /-- The least number of the level of a record that is shown. -/
  least : Nat
deriving DecidableEq, Repr

/-- The numbers of level names, in capitals. -/
def levelNumbers : List (String × Nat) :=
  [("NOTSET", 0), ("DEBUG", 10), ("INFO", 20), ("WARN", 30), ("WARNING", 30), ("ERROR", 40),
    ("FATAL", 50), ("CRITICAL", 50)]

/-- The number of a level's name in any case. -/
def levelNumber? (name : String) : Option Nat := levelNumbers.lookup (name.map Char.toUpper)

namespace Display

/-- The variable that names the form. -/
def formVariable : String := "DYNREQS_LOG_FORMAT"

/-- The variable that names the least level. -/
def levelVariable : String := "DYNREQS_LOG_LEVEL"

/-- The form that an environment asks for. -/
def formOf (environment : List (String × String)) : Form :=
  if (environment.lookup formVariable).any (Text.lower · = "json") then .json else .console

/-- The least level that an environment asks for, or else that of warnings. -/
def leastOf (environment : List (String × String)) : Nat :=
  ((environment.lookup levelVariable).bind levelNumber?).getD Level.warning.number

def shows (d : Display) (r : Record) : Bool := d.least ≤ r.level.number

/-- The line of a record. -/
def line (d : Display) (time : String) (r : Record) : String :=
  match d.form with
  | .json    => r.jsonLine time
  | .console => r.consoleLine time

end Display

end HostPrereqs.Log
