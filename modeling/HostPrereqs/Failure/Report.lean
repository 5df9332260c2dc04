import HostPrereqs.Value.Literal

/-!
# Failure — reports

A report is how a failure is told to the outside: what kind of failure it is, its text, and what
it is about (`Report`).  A failure in a file or an entry starts with the place.
-/

namespace HostPrereqs

/-- The kinds of failures. -/
inductive ErrorKind where
  | general
  | condition
  | unknownCommand
  | malformedCondition
  | predicateArgument
  | config
  | document
  | versionRange
  | prereqs
  | user
  | malformedEntry
  | missingFragment
deriving DecidableEq, Repr

namespace ErrorKind

/-- The name of a kind in records. -/
def name : ErrorKind → String
  | general            => "DynreqsError"
  | condition          => "ConditionError"
  | unknownCommand     => "UnknownCommandError"
  | malformedCondition => "MalformedConditionError"
  | predicateArgument  => "PredicateArgumentError"
  | config             => "ConfigError"
  | document           => "DocumentError"
  | versionRange       => "VersionRangeError"
  | prereqs            => "PrereqsError"
  | user               => "UserError"
  | malformedEntry     => "MalformedEntryError"
  | missingFragment    => "MissingFragmentError"

/-- Kinds that are about a condition. -/
def isAboutCondition : ErrorKind → Bool
  | condition | unknownCommand | malformedCondition | predicateArgument => true
  | _ => false

end ErrorKind

/-- A failure as it is told to the outside. -/
structure Report where
  kind : ErrorKind
  message : String
  condition : Option Value := none
  predicate : Option String := none
  name : Option String := none
  index : Option Int := none
  range : Option String := none
  field : Option String := none
  value : Option Value := none
  path : Option String := none

namespace Report

def general (message : String) : Report := { kind := .general, message }

def ofCondition (message : String) (condition : Option Value) : Report :=
  { kind := .condition, message, condition }

def unknownCommand (name : String) (condition : Option Value) : Report :=
  { kind := .unknownCommand, message := s!"No such command {name}", name, condition }

def malformedCondition (message : String) (condition : Option Value) : Report :=
  { kind := .malformedCondition, message, condition }

def predicateArgument (message predicate : String) (condition : Option Value) : Report :=
  { kind := .predicateArgument, message, predicate, condition }

def configuration (message : String) (field : Option String) (value : Option Value) : Report :=
  { kind := .config, message, field, value }

/-- The text starts with the path of the file, if there is one. -/
def document (message : String) (path : Option String) : Report :=
  let message := match path with
    | some p => s!"{p}: {message}"
    | none => message
  { kind := .document, message, path }

def versionRange (message : String) (range : Option String) : Report :=
  { kind := .versionRange, message, range }

def ofPrereqs (message : String) : Report := { kind := .prereqs, message }

def user (message : String) : Report := { kind := .user, message }

/-- The text starts with the number of the entry, if there is one. -/
def malformedEntry (message : String) (index : Option Int) : Report :=
  let message := match index with
    | some i => s!"Expression entry {i}: {message}"
    | none => message
  { kind := .malformedEntry, message, index }

def missingFragment (index : Option Int) : Report :=
  { malformedEntry "entry must set one of 'prereqs' or 'error'" index with
    kind := .missingFragment }

/-- The texts by which a user says that the system is not supported at all. -/
def unsupportedMessages : List String := ["No support for OS", "OS unsupported"]

/-- Whether a user's failure says that the system is not supported at all. -/
def isUnsupportedPlatform (r : Report) : Bool :=
  r.kind = .user && unsupportedMessages.contains r.message

end Report

end HostPrereqs
