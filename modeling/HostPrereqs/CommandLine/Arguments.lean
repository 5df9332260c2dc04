import HostPrereqs.CommandLine.UsageFault
import HostPrereqs.Text.Similarity

/-!
# Command line — switches and operands

Arguments are read from left to right (`Arguments.read`).  A switch in words may have its value
after an equals sign; switches of one letter may be joined, and the last of these may have its
value in the same argument.  A value that is not in the argument is the next argument, whatever
it looks like.  Two hyphens end the switches.

The program reads its switches up to the first operand, which names the command; a command may
have its switches between and after its operands.
-/

namespace HostPrereqs.CommandLine

/-- A switch that is given, with its value; one that takes no value has the empty text. -/
structure Given where
  switch : Switch
  value : String
deriving DecidableEq, Repr

/-- Arguments in the order in which they are given. -/
structure Arguments where
  given : List Given
  operands : List String
deriving DecidableEq, Repr

namespace Arguments

/-- What one argument is. -/
inductive Item where
  | operand
  | endOfSwitches
  | complete (given : List Given)
  /-- The value of the last switch is the next argument. -/
  | waiting (given : List Given) (switch : Switch) (spelling : String)

/-- Reads a switch in words, if the scope has one of that spelling. -/
def readLong (scope : Scope) (spelling : String) (value : Option String) :
    Except UsageFault (Option Item) :=
  match (scope.switch? spelling).filter fun _ => scope.longSpellings.contains spelling with
  | some s =>
      match s.takesValue, value with
      | true, some v  => .ok (some (.complete [⟨s, v⟩]))
      | true, none    => .ok (some (.waiting [] s spelling))
      | false, some _ => .error (.unwantedValue spelling)
      | false, none   => .ok (some (.complete [⟨s, ""⟩]))
  | none => .ok none

/-- Reads joined switches of one letter. -/
def readJoined (scope : Scope) (before : List Given) : List Char → Except UsageFault Item
  | [] => .ok (.complete before)
  | c :: r =>
      let spelling := String.ofList ['-', c]
      match scope.switch? spelling with
      | none => .error (.noSuchSwitch spelling [])
      | some s =>
          if !s.takesValue then readJoined scope (before ++ [⟨s, ""⟩]) r
          else if r.isEmpty then .ok (.waiting before s spelling)
          else .ok (.complete (before ++ [⟨s, String.ofList r⟩]))

/-- The part of a text before the first equals sign, and the part after it. -/
def splitValue (s : List Char) : String × Option String :=
  (String.ofList (s.takeWhile (· ≠ '=')),
    match s.dropWhile (· ≠ '=') with
    | _ :: value => some (String.ofList value)
    | [] => none)

/-- Reads one argument. -/
def readItem (scope : Scope) (arg : String) : Except UsageFault Item :=
  match arg.toList with
  | ['-', '-'] => .ok .endOfSwitches
  | '-' :: c :: r => do
      let (spelling, value) := splitValue ('-' :: c :: r)
      match ← readLong scope spelling value with
      | some item => return item
      | none =>
          if c = '-' then
            throw (.noSuchSwitch spelling (Text.similarWords spelling scope.longSpellings))
          readJoined scope [] (c :: r)
  | _ => .ok .operand

/-- Puts switches before the rest of the arguments. -/
def after (given : List Given) (a : Arguments) : Arguments := { a with given := given ++ a.given }

/-- Reads arguments.  Where switches and operands may be mixed, switches are read everywhere, and
else up to the first operand. -/
def read (scope : Scope) (mixed : Bool) : List String → Except UsageFault Arguments
  | [] => .ok ⟨[], []⟩
  | arg :: rest =>
      match readItem scope arg with
      | .error e => .error e
      | .ok .operand =>
          if mixed then
            (read scope mixed rest).map fun a => { a with operands := arg :: a.operands }
          else .ok ⟨[], arg :: rest⟩
      | .ok .endOfSwitches => .ok ⟨[], rest⟩
      | .ok (.complete given) => (read scope mixed rest).map (after given)
      | .ok (.waiting given s spelling) =>
          match rest with
          | [] => .error (.noValue spelling)
          | value :: rest => (read scope mixed rest).map (after (given ++ [⟨s, value⟩]))

/-- The last value of a switch. -/
def last? (a : Arguments) (s : Switch) : Option String :=
  (a.given.reverse.find? (·.switch = s)).map (·.value)

/-- All values of a switch. -/
def values (a : Arguments) (s : Switch) : List String :=
  (a.given.filter (·.switch = s)).map (·.value)

def has (a : Arguments) (s : Switch) : Bool := a.given.any (·.switch = s)

end Arguments

end HostPrereqs.CommandLine
