import HostPrereqs.Host.Family
import HostPrereqs.Predicate.Question
import HostPrereqs.Predicate.Registry

/-!
# Predicate — the built-in predicates

What cannot be found out counts as false: a module that is missing, an installed version that is
none, a system of no known family.  A range is read before anything is looked for, so that a
bad one fails in any case.  What goes wrong on the host is an error of the test.
-/

namespace HostPrereqs.Builtin

/-- A test of the host. -/
abbrev Test := ExceptT PredicateError OnHost Bool

def debug (event : String) (fields : List (String × Value)) : Test := do
  Host.report ⟨.debug, "dynreqs.predicates.builtins", event, fields⟩
  return false

/-- A test of the machine alone. -/
def ofMachine (test : Machine → Bool) : Test := return test (← get).machine

/-- A test in which something can go wrong on the host. -/
def ofAction (action : HostAction Bool) : Test := action.adapt .hostFault

/-- A version that is found lies in a range. -/
def liesIn (wanted : Range) (version : String) : Test :=
  ofAction (MonadExcept.ofExcept ((wanted.accepts version).mapError HostFault.hugeNumber))

def readRange (text : String) : ExceptT PredicateError OnHost Range :=
  MonadExcept.ofExcept ((Range.parse text).mapError PredicateError.badRange)

/-- The interpreter's version lies in a range. -/
def hasInterpreter (range : String) : Test := do
  let wanted ← readRange range
  liesIn wanted (← get).machine.interpreterVersion

/-- A module is installed. -/
def hasModule (module : String) : Test := ofAction (Host.moduleExists module)

/-- A module is installed at a version in a range that says something of versions. -/
def hasVersion (module : String) (wanted : Range) : Test := do
  let version ← (MonadExcept.ofExcept
    (Host.installedVersion (← get).machine module) : HostAction _).adapt PredicateError.hostFault
  match version with
  | none => debug "module_not_installed" [("module", .str module)]
  | some version => liesIn wanted version

/-- A module is installed at a version in a range.  The version does not matter to the range of
all versions. -/
def hasModuleAt (module range : String) : Test := do
  let wanted ← readRange range
  if wanted.isAny then hasModule module else hasVersion module wanted

def configEnabled (s : Setting) (key : String) : Test :=
  ofMachine fun m => Host.isOn (s.config.get m key)

def hasVariable (name : String) : Test :=
  return Host.isOnVariable ((← get).valueOf? name)

/-- The system belongs to a family. -/
def isOsType (family : String) : Test := do
  let osName := (← get).machine.osName
  match Host.family? osName with
  | none => debug "os_type_unknown" [("os_name", .str osName)]
  | some actual => return actual = family

/-- A predicate that takes no arguments. -/
def nullary (name description : String) (test : Setting → Test) : Predicate :=
  ⟨name, 0, some 0, description, fun s _ => test s⟩

/-- A predicate that takes one argument. -/
def unary (name description : String) (test : Setting → String → Test) : Predicate :=
  ⟨name, 1, some 1, description, fun s args => test s (args.headD "")⟩

/-- The built-in predicates. -/
def all : List Predicate :=
  [nullary "can_xs" "A native compiler builds extensions for this interpreter"
      fun s => ofAction (Host.canCompile s.config),
    unary "can_run" "Named executable resolves on the search path"
      fun _ command => ofMachine fun m => (Host.which? m command).isSome,
    unary "has_perl" "Interpreter version satisfies range" fun _ => hasInterpreter,
    unary "has_python" "Interpreter version satisfies range (alias of has_perl)"
      fun _ => hasInterpreter,
    ⟨"has_module", 1, some 2, "Named module installed, optionally at a version",
      fun _ args => match args with
        | [module, range] => hasModuleAt module range
        | _ => hasModule (args.headD "")⟩,
    unary "config_enabled" "Named build-configuration flag is true" configEnabled,
    unary "has_env" "Named environment variable is true" fun _ => hasVariable,
    unary "is_os" "Current OS identifier equals name"
      fun _ name => ofMachine fun m => m.osName = name,
    unary "is_os_type" "Current OS classifies under type (e.g. \"Unix\")" fun _ => isOsType,
    nullary "want_pureperl" "Caller requested a build without native code"
      fun s => return s.pureOnly = some true,
    nullary "want_compiled" "Caller explicitly requested a native build"
      fun s => return s.pureOnly = some false,
    ⟨"y_n", 2, some 2, "Interactively confirm; answers the default when unattended",
      fun _ args => match args with
        | [prompt, default] => Question.run prompt default
        | _ => throw .noPrompt⟩]

/-- The registry of the built-in predicates. -/
def registry : Registry := ⟨all⟩

end HostPrereqs.Builtin
