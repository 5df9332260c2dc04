import HostPrereqs.Json.Writer
import HostPrereqs.Yaml.Writer

/-!
# Output — formats

Data are shown as indented JSON or as block-style YAML without line ends at its end.
-/

namespace HostPrereqs

/-- The formats of output. -/
inductive OutputFormat where
  | json
  | yaml
deriving DecidableEq, Repr

namespace OutputFormat

def name : OutputFormat → String
  | json => "json"
  | yaml => "yaml"

/-- The format of a name. -/
def ofName? (s : String) : Option OutputFormat :=
  if s = "json" then some json else if s = "yaml" then some yaml else none

/-- What is said of a name without a format. -/
def unknownMessage (name : Value) : String := s!"{name.literal} is not a valid OutputFormat"

/-- A text without the line feeds at its end. -/
def dropLineFeeds (s : String) : String :=
  String.ofList (s.toList.reverse.dropWhile (· = '\n')).reverse

/-- Data in a format. -/
def render (f : OutputFormat) (v : Value) : String :=
  match f with
  | json => Json.indented v
  | yaml => dropLineFeeds (Yaml.write v)

end OutputFormat

/-- The text of an error, with details and a suggestion on lines of their own. -/
def errorText (message : String) (details : List String) (suggestion : Option String) : String :=
  "\n".intercalate (s!"Error: {message}" :: details.map ("  " ++ ·)
    ++ (suggestion.filter (· != "")).toList.map ("Suggestion: " ++ ·))

end HostPrereqs
