import HostPrereqs.CommandLine.Switch
import HostPrereqs.Output.Format
import HostPrereqs.Text.Escape
import HostPrereqs.Text.Literal

/-!
# Command line — wrong command lines

What is wrong with a command line is told under the usage of its scope, except where a switch is
given a value that it does not take, or none where it takes one.
-/

namespace HostPrereqs.CommandLine

/-- What names a value on the command line. -/
inductive ValuePlace where
  | switch (s : Switch)
  | operand (name : String)
deriving DecidableEq, Repr

def ValuePlace.hint : ValuePlace → String
  | switch s     => s.hint
  | operand name => s!"'{name}'"

/-- What is wrong with a value. -/
inductive ValueFault where
  | notAnAssignment (value : String)
  | notAFormat (value : String)
  | missingFile (path : String)
  | isDirectory (path : String)
deriving DecidableEq, Repr

def ValueFault.message : ValueFault → String
  | notAnAssignment value => s!"expected KEY=VALUE, got {Text.literal value}"
  | notAFormat value      => s!"{Text.literal value} is not one of 'json', 'yaml'."
  | missingFile path      => s!"File {Text.literal path} does not exist."
  | isDirectory path      => s!"File {Text.literal path} is a directory."

/-- What is wrong with a command line. -/
inductive UsageFault where
  | noSuchSwitch (spelling : String) (similar : List String)
  | noSuchCommand (name : String) (similar : List String)
  | noValue (spelling : String)
  | unwantedValue (spelling : String)
  | noOperand (name : String)
  | tooManyOperands (rest : List String)
  | badValue (place : ValuePlace) (fault : ValueFault)
deriving DecidableEq, Repr

namespace UsageFault

/-- What a misspelled word may have been meant to be. -/
def proposal : List String → String
  | []  => ""
  | [w] => s!" Did you mean {Text.literal w}?"
  | ws  =>
      let list := ", ".intercalate (ws.map Text.literal)
      s!" (Did you mean one of: {list}?)"

def message : UsageFault → String
  | noSuchSwitch spelling similar =>
      s!"No such option {Text.literal spelling}.{proposal similar}"
  | noSuchCommand name similar => s!"No such command {Text.literal name}.{proposal similar}"
  | noValue spelling => s!"Option {Text.literal spelling} requires an argument."
  | unwantedValue spelling => s!"Option {Text.literal spelling} does not take a value."
  | noOperand name => s!"Missing argument '{name}'."
  | tooManyOperands rest =>
      let noun := if rest.length = 1 then "argument" else "arguments"
      let list := " ".intercalate rest
      s!"Got unexpected extra {noun} ({list})"
  | badValue place fault => s!"Invalid value for {place.hint}: {fault.message}"

/-- Whether the usage is shown with the fault. -/
def showsUsage : UsageFault → Bool
  | noValue _ | unwantedValue _ => false
  | _ => true

/-- What is said of a wrong command line. -/
def errorOutput (scope : Scope) (f : UsageFault) : String :=
  let usage :=
    if f.showsUsage then s!"{scope.usage}Try '{scope.path} --help' for help.\n\n" else ""
  Text.stripEscapes (usage ++ errorText f.message [] none ++ "\n")

end UsageFault

end HostPrereqs.CommandLine
