import HostPrereqs.CommandLine.Arguments
import HostPrereqs.File.Basic
import HostPrereqs.Host.BuildConfig

/-!
# Command line — what is asked for

The arguments of a scope are checked switch by switch in the order in which they are given, then
the operands.  What remains are the choices of the program (`ProgramChoices`) and the task of a
command (`Task`).  A switch that asks for help or for the version comes before everything else.
-/

namespace HostPrereqs.CommandLine

/-- What ends a run before anything is done. -/
inductive Notice where
  | help
  | version
deriving DecidableEq, Repr

/-- The first notice that arguments ask for. -/
def Arguments.notice? (a : Arguments) : Option Notice :=
  a.given.findSome? fun g =>
    match g.switch with
    | .help => some .help
    | .version => some .version
    | _ => none

/-- The choices that hold for every command. -/
structure ProgramChoices where
  config : Option String
  verbosity : Nat
  quiet : Bool
deriving DecidableEq, Repr

def ProgramChoices.ofArguments (a : Arguments) : ProgramChoices where
  config := (a.last? .config).filter (· != "")
  verbosity := (a.values .verbose).length
  quiet := a.has .quiet

/-- The choices about how conditions are evaluated. -/
structure HostChoices where
  pureOnly : Option Bool
  defines : List (String × String)
  useDefault : Bool
deriving DecidableEq, Repr

/-- What is asked of a command. -/
inductive Task where
  | check (words : List String) (choices : HostChoices)
  | predicates (asJson : Bool)
  | resolve (file : String) (isMetadata : Bool) (seed : Option String)
      (format : Option OutputFormat) (choices : HostChoices)

/-- The name and the value of a definition. -/
def readDefine (s : String) : Option (String × String) :=
  match Arguments.splitValue s.toList with
  | (key, some value) => if key.isEmpty then none else some (key, value)
  | _ => none

/-- The last of the two opposite wishes. -/
def pureOnlyOf (a : Arguments) : Option Bool :=
  a.given.reverse.findSome? fun g =>
    match g.switch with
    | .pureOnly => some true
    | .compiled => some false
    | _ => none

def HostChoices.ofArguments (a : Arguments) : HostChoices where
  pureOnly := pureOnlyOf a
  defines := (a.values .define).filterMap readDefine
  useDefault := a.has .useDefault

/-! ### Checks -/

/-- Whether a path can only lead to a directory. -/
def namesDirectory (path : String) : Bool :=
  let last := (Path.parts path.toList).getLastD []
  last.isEmpty || last = ['.']

/-- What is wrong with the path of a file that has to be there. -/
def pathFault? (files : Files) (path : String) : Option ValueFault :=
  if path.isEmpty then some (.missingFile path)
  else
    match files.look path with
    | .ok (.bytes _) => if namesDirectory path then some (.missingFile path) else none
    | .ok .directory => some (.isDirectory path)
    | .error _ => some (.missingFile path)

/-- What is wrong with the values of a switch. -/
def valueFault? (files : Files) (a : Arguments) (s : Switch) : Option ValueFault :=
  match s with
  | .define =>
      ((a.values .define).find? fun v => (readDefine v).isNone).map ValueFault.notAnAssignment
  | .format =>
      ((a.last? .format).filter fun v => (OutputFormat.ofName? v).isNone).map ValueFault.notAFormat
  | .seed => (a.last? .seed).bind (pathFault? files)
  | _ => none

/-- Checks the values of switches in the order in which the switches are given. -/
def checkValues (files : Files) (a : Arguments) : Except UsageFault Unit :=
  a.given.forM fun g =>
    match valueFault? files a g.switch with
    | some fault => throw (.badValue (.switch g.switch) fault)
    | none => pure ()

/-- Checks that no operands are left. -/
def checkRest (rest : List String) : Except UsageFault Unit :=
  if rest.isEmpty then pure () else throw (.tooManyOperands rest)

/-- Reads the task of a command. -/
def Task.ofArguments (files : Files) (c : Command) (a : Arguments) : Except UsageFault Task := do
  checkValues files a
  match c with
  | .check =>
      if a.operands.isEmpty then throw (.noOperand "CONDITION...")
      return .check a.operands (.ofArguments a)
  | .predicates =>
      checkRest a.operands
      return .predicates (a.has .json)
  | .resolve =>
      match a.operands with
      | [] => throw (.noOperand "FILE")
      | file :: rest =>
          match pathFault? files file with
          | some fault => throw (.badValue (.operand "FILE") fault)
          | none => pure ()
          checkRest rest
          return .resolve file (a.has .metadata) (a.last? .seed)
            ((a.last? .format).bind OutputFormat.ofName?) (.ofArguments a)

end HostPrereqs.CommandLine
