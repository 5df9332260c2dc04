import HostPrereqs.CommandLine.Help
import HostPrereqs.CommandLine.Request
import HostPrereqs.Environment.Assignments
import HostPrereqs.Failure.Basic
import HostPrereqs.Failure.Told
import HostPrereqs.Log.Display
import HostPrereqs.Output.Grid
import HostPrereqs.Predicate.Builtin

/-!
# Command line — runs

A run reads its arguments, loads the settings, does the task of its command on the host, and ends
with an outcome: a status, a text for the error stream, and how its records are shown
(`Outcome`).  What it writes to the output is on the host.

The program's own switches and the name of the command are read before the settings are loaded,
and the arguments of the command after that.  Records from before the settings are known are not
shown.
-/

namespace HostPrereqs.CommandLine

/-- A failure that no report is made of. -/
inductive Crash where
  | settings (cause : SettingsError)
  | loading (cause : LoadError)
  | fragment (cause : FragmentError)
  | resolution (cause : ResolutionError)
  | host (cause : HostFault)

/-- What ends a run early. -/
inductive Stop where
  | usage (scope : Scope) (fault : UsageFault)
  | settings (cause : Report)
  | failure (cause : Report)
  | crash (cause : Crash)

namespace Stop

def status : Stop → ExitStatus
  | usage _ _     => .usage
  | settings _    => .failure
  | failure cause => cause.status
  | crash _       => .failure

def errorOutput : Stop → String
  | usage scope fault => fault.errorOutput scope
  | settings cause    => cause.settingsOutput
  | failure cause     => cause.errorOutput
  | crash _           => ""

def crash? : Stop → Option Crash
  | crash cause => some cause
  | _           => none

end Stop

/-- What can be stopped. -/
abbrev Step (α : Type) := ExceptT Stop OnHost α

/-- Stops with a report, or with a crash where there is none. -/
def stopped {ε α : Type} (report? : ε → Option Report) (crash : ε → Crash) (e : Except ε α) :
    Step α :=
  match e with
  | .ok a => return a
  | .error cause =>
      match report? cause with
      | some r => throw (.failure r)
      | none => throw (.crash (crash cause))

def printed (text : String) : Step Unit := (Host.write text).adapt fun cause => .crash (.host cause)

/-! ### The bound context -/

/-- The fields that are bound to all records for the time being. -/
abbrev Context := List (String × Value)

/-- Adds the fields of a context to all records of an action. -/
def within {α : Type} (context : Context) (action : OnHost α) : OnHost α := do
  let earlier := (← get).log.length
  let a ← action
  modify fun h =>
    { h with log := h.log.take earlier ++ (h.log.drop earlier).map (·.within context) }
  return a

/-- An action on a host and on the bound context. -/
abbrev InContext (α : Type) := StateT Context OnHost α

namespace InContext

/-- Binds fields.  A field that is bound already has its new value from then on. -/
def bindFields (fields : Context) : InContext Unit :=
  modify fun context => context.filter (fun (k, _) => !(fields.any (·.1 = k))) ++ fields

/-- Unbinds all fields. -/
def clear : InContext Unit := set ([] : Context)

/-- Does an action with the bound fields in all its records. -/
def recording {α : Type} (action : OnHost α) : InContext α := do
  let context ← get
  liftM (within context action)

end InContext

/-! ### Tasks -/

/-- What a task finds out: whether a condition holds, or requirements and the format to show them
in. -/
inductive Finding where
  | answer (holds : Bool)
  | requirements (result : Requirements) (format : OutputFormat)

namespace Finding

def text : Finding → String
  | answer holds => if holds then "true\n" else "false\n"
  | requirements result format => format.render result.toValue ++ "\n"

def status : Finding → ExitStatus
  | answer holds => if holds then .success else .failure
  | requirements _ _ => .success

end Finding

/-- Prints a finding and ends with its status. -/
def announce (finding : Finding) : Step ExitStatus := do
  printed finding.text
  return finding.status

/-- Records what failed. -/
def recordingFailure {α : Type} (step : Step α) : Step α :=
  tryCatch step fun stop => do
    match stop with
    | .failure cause => cause.record?.forM fun r => (Host.report r : Step Unit)
    | _ => pure ()
    throw stop

/-- What conditions are evaluated with, under choices and settings. -/
def resolverOf (settings : Settings) (choices : HostChoices) (seed : Requirements) : Resolver where
  registry := Builtin.registry
  setting :=
    { config := BuildConfig.withValues ⟨settings.buildConfig⟩
        (choices.defines.map fun (key, value) => (.str key, .str value))
      pureOnly := choices.pureOnly.or settings.pureOnly }
  seed

/-- Has every question take its default, where choices or settings say so. -/
def takeDefaults (settings : Settings) (choices : HostChoices) : OnHost Unit :=
  modify fun h => { h with defaultsOnly := choices.useDefault || settings.useDefault }

/-- The condition that words write: one word is its text, several are its list. -/
def conditionOf : List String → Value
  | [word] => .str word
  | words  => .strs words

/-- Whether a condition holds. -/
def conditionHolds (settings : Settings) (words : List String) (choices : HostChoices) :
    Step Bool := do
  takeDefaults settings choices
  let r := resolverOf settings choices .empty
  stopped EvaluationError.report? (fun cause => .resolution (.evaluation cause))
    (← (r.evaluate (conditionOf words)).run)

/-- Evaluates a condition and tells whether it holds. -/
def checkCondition (settings : Settings) (words : List String) (choices : HostChoices) :
    Step ExitStatus := do
  announce (.answer (← recordingFailure (conditionHolds settings words choices)))

/-- The heads of the columns of the list of predicates. -/
def predicateHeads : List String := ["Name", "Arguments", "Description"]

/-- Lists the predicates. -/
def listPredicates (asJson : Bool) : Step ExitStatus := do
  let ps := Builtin.registry.sorted
  if asJson then
    let items := ps.map fun p =>
      Value.record [("name", .str p.name), ("arity", .str p.arity),
        ("description", .str p.description)]
    printed (OutputFormat.json.render (.list items) ++ "\n")
  else
    printed (Grid.render predicateHeads (ps.map fun p => [p.name, p.arity, p.description]))
  return .success

/-- The requirements of a file that lists the seed. -/
def readSeed (files : Files) (path : String) : Except LoadError Requirements := do
  match ← Loading.readData files path with
  | .null => return .empty
  | v =>
      if Requirements.isMapping v then (Requirements.ofValue v).mapError .badSeed
      else throw (.inFile (Path.normal path) .seedNotMapping)

/-- Loads the seed and the document of a file. -/
def loadFile (files : Files) (file : String) (isMetadata : Bool) :
    Step (Requirements × Document) := do
  let loaded : Except LoadError (Requirements × Document) ←
    if isMetadata then (Loading.loadMetadata files file).run
    else ((fun d => (Requirements.empty, d)) <$> Loading.loadDocument files file).run
  stopped LoadError.report? .loading loaded

def resolveLogger : String := "dynreqs.cli.commands.resolve"

/-- Loads the document of a file, and what it is resolved over: its seed and the seed of another
file. -/
def prepare (files : Files) (file : String) (isMetadata : Bool) (seed : Option String) :
    Step (Requirements × Document) := do
  let (own, document) ← loadFile files file isMetadata
  match seed with
  | none => return (own, document)
  | some path =>
      let given ← stopped LoadError.report? .loading (readSeed files path)
      let start ← stopped RangeError.report? (fun e => .resolution (.badRange e))
        (own.merge [given])
      return (start, document)

/-- Resolves a document over a seed. -/
def resolveOver (settings : Settings) (choices : HostChoices) (start : Requirements)
    (document : Document) : Step Requirements := do
  takeDefaults settings choices
  let r := resolverOf settings choices start
  let result ← stopped ResolutionError.report? .resolution (← (r.resolve (.document document)).run)
  Host.report ⟨.info, resolveLogger, "document_resolved", [("phases", .strs result.phases.names)]⟩
  return result

/-- Resolves the document of a file. -/
def resolved (settings : Settings) (files : Files) (file : String) (isMetadata : Bool)
    (seed : Option String) (choices : HostChoices) : Step Requirements := do
  let (start, document) ← prepare files file isMetadata seed
  resolveOver settings choices start document

/-- Resolves a document while its file is bound to the records.  Whatever comes of it, nothing is
bound afterwards. -/
def resolveBound (settings : Settings) (files : Files) (file : String) (isMetadata : Bool)
    (seed : Option String) (choices : HostChoices) : InContext (Except Stop Requirements) := do
  InContext.bindFields [("document", .str (Path.normal file))]
  let result ← InContext.recording
    (recordingFailure (resolved settings files file isMetadata seed choices)).run
  InContext.clear
  return result

/-- Resolves a document and prints the requirements.  Nothing is bound when a run begins. -/
def resolveFile (settings : Settings) (files : Files) (file : String) (isMetadata : Bool)
    (seed : Option String) (format : Option OutputFormat) (choices : HostChoices) :
    Step ExitStatus := do
  let result : Requirements ←
    ExceptT.mk ((resolveBound settings files file isMetadata seed choices).run' [])
  announce (.requirements result (format.getD settings.outputFormat))

/-- Does a task. -/
def Task.perform (settings : Settings) (files : Files) : Task → Step ExitStatus
  | .check words choices => checkCondition settings words choices
  | .predicates asJson => listPredicates asJson
  | .resolve file isMetadata seed format choices =>
      resolveFile settings files file isMetadata seed format choices

/-! ### Runs -/

/-- The least level of the records that are shown: wishes on the command line come before the
settings. -/
def leastLevel (settings : Settings) (choices : ProgramChoices) : Log.Level :=
  if choices.quiet then .error
  else
    match choices.verbosity with
    | 0 => settings.verbosity
    | 1 => .info
    | _ => .debug

/-- Gives a notice instead of doing anything. -/
def giveNotice (scope : Scope) : Notice → Step ExitStatus
  | .help => do
      printed (Help.text (Help.width (← get).environment) scope)
      return .success
  | .version => do
      printed s!"{programName}, version {programVersion}\n"
      return .success

/-- What the first arguments ask for: a notice, or a command with its arguments, if there is one. -/
inductive Start where
  | notice (n : Notice)
  | go (choices : ProgramChoices) (command : Option (Command × List String))

/-- Reads the program's own arguments. -/
def readStart (args : List String) : Except UsageFault Start := do
  let a ← Arguments.read .program false args
  if let some n := a.notice? then return .notice n
  let choices := ProgramChoices.ofArguments a
  match a.operands with
  | [] => return .go choices none
  | name :: rest =>
      match Command.ofName? name with
      | some c => return .go choices (some (c, rest))
      | none =>
          let again ← Arguments.read .program false a.operands
          match again.notice? with
          | some n => return .notice n
          | none =>
              throw (.noSuchCommand name (Text.similarWords name (Command.all.map (·.name))))

/-- Loads the settings; what is recorded meanwhile is not kept. -/
def loadSettings (files : Files) (locations : Settings.Locations) (config : Option String) :
    Step Settings := do
  let earlier := (← get).log
  let loaded ← (Settings.load files locations config).run
  modify fun h => { h with log := earlier }
  match loaded with
  | .ok s => return s
  | .error cause =>
      match cause.report? with
      | some r => throw (.settings r)
      | none => throw (.crash (.settings cause))

/-- Does what the arguments of a command ask for. -/
def runCommand (settings : Settings) (files : Files) (c : Command) (args : List String) :
    Step ExitStatus := do
  match Arguments.read (.command c) true args with
  | .error fault => throw (.usage (.command c) fault)
  | .ok a =>
      if let some n := a.notice? then return ← giveNotice (.command c) n
      match Task.ofArguments files c a with
      | .error fault => throw (.usage (.command c) fault)
      | .ok task => task.perform settings files

/-- How a run ends. -/
structure Outcome where
  status : ExitStatus
  /-- What is written to the error stream after the records. -/
  errors : String
  display : Log.Display
  crash : Option Crash

/-- The outcome of steps whose records are shown in a display. -/
def Outcome.of (display : Log.Display) : Except Stop ExitStatus → Outcome
  | .ok status  => ⟨status, "", display, none⟩
  | .error stop => ⟨stop.status, stop.errorOutput, display, stop.crash?⟩

/-- Puts the assignments of the project's environment file into the environment. -/
def loadEnvironment (files : Files) (locations : Settings.Locations) : OnHost Unit := do
  match (files.readBytes locations.environmentFile).toOption.bind Files.textOf? with
  | some text => modify fun h => { h with environment := Assignments.addTo h.environment text }
  | none => return ()

/-- Runs the program with arguments. -/
def run (files : Files) (locations : Settings.Locations) (args : List String) : OnHost Outcome := do
  loadEnvironment files locations
  let form := Log.Display.formOf (← get).environment
  let early : Log.Display := ⟨form, Log.Level.warning.number⟩
  match readStart args with
  | .error fault => return .of early (.error (.usage .program fault))
  | .ok (.notice n) => return .of early (← (giveNotice .program n).run)
  | .ok (.go choices command) =>
      match ← (loadSettings files locations choices.config).run with
      | .error stop => return .of early (.error stop)
      | .ok settings =>
          let work := match command with
            | none           => giveNotice .program .help
            | some (c, rest) => runCommand settings files c rest
          return .of ⟨form, (leastLevel settings choices).number⟩ (← work.run)

end HostPrereqs.CommandLine
