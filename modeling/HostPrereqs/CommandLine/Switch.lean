/-!
# Command line — switches and commands

A command line names the program's switches, a command, the command's switches, and its operands.
`Scope` is the program itself or one of its commands; each scope has its own switches.
-/

namespace HostPrereqs.CommandLine

/-- The name that the program goes by. -/
def programName : String := "dynreqs"

def programVersion : String := "0.1.0"

/-- The switches of the program and of its commands. -/
inductive Switch where
  | version
  | config
  | verbose
  | quiet
  | metadata
  | seed
  | pureOnly
  | compiled
  | define
  | useDefault
  | format
  | json
  | help
deriving DecidableEq, Repr

namespace Switch

/-- How a switch is written; the short form comes first. -/
def spellings : Switch → List String
  | version    => ["--version"]
  | config     => ["-c", "--config"]
  | verbose    => ["-v", "--verbose"]
  | quiet      => ["-q", "--quiet"]
  | metadata   => ["--meta"]
  | seed       => ["--seed"]
  | pureOnly   => ["--pure-only"]
  | compiled   => ["--compiled"]
  | define     => ["-D", "--define"]
  | useDefault => ["--use-default"]
  | format     => ["-f", "--format"]
  | json       => ["--json"]
  | help       => ["--help"]

/-- What the value of a switch is called, if it takes one. -/
def valueName? : Switch → Option String
  | config => some "PATH"
  | seed   => some "FILE"
  | define => some "KEY=VALUE"
  | format => some "[json|yaml]"
  | _      => none

def takesValue (s : Switch) : Bool := s.valueName?.isSome

/-- What a switch is for. -/
def purpose : Switch → String
  | version    => "Show the version and exit."
  | config     => "Path to config file (overrides ./dynreqs.yaml)."
  | verbose    => "Increase verbosity (-v for INFO, -vv for DEBUG)."
  | quiet      => "Suppress non-essential output (ERROR level only)."
  | metadata   =>
      "FILE is distribution metadata with 'prereqs' and 'x_dynamic_prerequisites' sections."
  | seed       => "File with static prerequisites to merge into."
  | pureOnly   => "Request a build without native code."
  | compiled   => "Request an explicitly compiled build."
  | define     => "Override a build configuration value (repeatable)."
  | useDefault => "Answer interactive prompts with their defaults."
  | format     => "Output format (default from settings: json)."
  | json       => "Output as JSON."
  | help       => "Show this message and exit."

/-- A switch as errors refer to it. -/
def hint (s : Switch) : String := " / ".intercalate (s.spellings.map fun n => s!"'{n}'")

end Switch

/-- The commands of the program. -/
inductive Command where
  | check
  | predicates
  | resolve
deriving DecidableEq, Repr

namespace Command

/-- The commands in the order of their names. -/
def all : List Command := [check, predicates, resolve]

def name : Command → String
  | check      => "check"
  | predicates => "predicates"
  | resolve    => "resolve"

def ofName? (s : String) : Option Command := all.find? (·.name = s)

theorem ofName?_name (c : Command) : ofName? c.name = some c := by cases c <;> decide

def switches : Command → List Switch
  | check      => [.pureOnly, .compiled, .define, .useDefault, .help]
  | predicates => [.json, .help]
  | resolve    =>
      [.metadata, .seed, .pureOnly, .compiled, .define, .useDefault, .format, .help]

/-- What the operands of a command are called. -/
def operands : Command → List String
  | check      => ["CONDITION..."]
  | predicates => []
  | resolve    => ["FILE"]

/-- What a command does. -/
def purpose : Command → String
  | check      => "Evaluate a single condition on this host."
  | predicates => "List the predicates available in conditions."
  | resolve    => "Resolve the prerequisites that apply to this host."

end Command

/-- Where switches are given. -/
inductive Scope where
  | program
  | command (c : Command)
deriving DecidableEq, Repr

namespace Scope

def switches : Scope → List Switch
  | program   => [.version, .config, .verbose, .quiet, .help]
  | command c => c.switches

/-- The words that lead to a scope. -/
def path : Scope → String
  | program   => programName
  | command c => s!"{programName} {c.name}"

/-- What can be written after the path. -/
def synopsis : Scope → String
  | program   => "[OPTIONS] [COMMAND] [ARGS]..."
  | command c => " ".intercalate ("[OPTIONS]" :: c.operands)

def usage (s : Scope) : String := s!"Usage: {s.path} {s.synopsis}\n"

def purpose : Scope → String
  | program   => "dynreqs - conditional prerequisites resolved against this host."
  | command c => c.purpose

/-- The switch of this scope that is written so. -/
def switch? (s : Scope) (spelling : String) : Option Switch :=
  s.switches.find? (·.spellings.contains spelling)

/-- The spellings in words, of all switches of this scope. -/
def longSpellings (s : Scope) : List String :=
  (s.switches.flatMap (·.spellings)).filter fun n => "--".toList.isPrefixOf n.toList

end Scope

end HostPrereqs.CommandLine
