import HostPrereqs.Host.BuildConfig
import HostPrereqs.Text.Casing
import HostPrereqs.Text.Escape
import HostPrereqs.Text.Words

/-!
# Host — questions

What predicates ask the host: commands on the search path, installed distributions and modules,
whether the compiler builds an extension, and a line of input.

Nothing is read while every question is to be answered with its default.  Input that does not
come from a person at a terminal is echoed, because no terminal does it.

* `length_readLine`: an answer shortens the unread input.
-/

namespace HostPrereqs.Host

/-- The part of the program that the records here come from. -/
def logger : String := "dynreqs.host"

def debug (event : String) (fields : List (String × Value)) : OnHost Unit :=
  report ⟨.debug, logger, event, fields⟩

/-! ### What is installed -/

/-- The path of a command on the search path. -/
def which? (m : Machine) (command : String) : Option String :=
  if m.commands.contains command then some ("/usr/bin/" ++ command) else none

/-- The first part of a dotted name. -/
def topLevel (module : String) : String :=
  String.ofList (module.toList.takeWhile (· ≠ '.'))

/-- The version of the first of some distributions that is not missing. -/
def firstVersion (m : Machine) : List String → Except HostFault (Option String)
  | [] => .ok none
  | d :: ds =>
      match (m.distributions.lookup d).getD .missing with
      | .installed version => .ok version
      | .missing => firstVersion m ds
      | .breaks => .error .lookup

/-- The version of the distribution of that name, and otherwise of the first installed
distribution that provides the module's top-level package.  A distribution may have none. -/
def installedVersion (m : Machine) (module : String) : Except HostFault (Option String) :=
  match (m.distributions.lookup module).getD .missing, m.providers with
  | .installed version, _ => .ok version
  | .missing, some providers => firstVersion m ((providers.lookup (topLevel module)).getD [])
  | .missing, none | .breaks, _ => .error .lookup

/-- Whether a module is installed. -/
def moduleExists (module : String) : HostAction Bool := do
  let m := (← get).machine
  if (← MonadExcept.ofExcept (installedVersion m module)).isSome then return true
  match (m.modules.lookup module).getD .missing with
  | .found => return true
  | .missing => return false
  | .fails reason =>
      debug "module_lookup_failed" [("module", .str module), ("error", .str reason)]
      return false
  | .breaks => throw .lookup

/-! ### The compiler -/

/-- The extension that is compiled as a test. -/
def testSource : String :=
  "#include <Python.h>\n\nint dynreqs_compile_check(void) \x7b return PY_MAJOR_VERSION; \x7d\n"

/-- The seconds a test may take. -/
def testTimeout : Nat := 60

/-- The part of a path after its last slash. -/
def baseName (path : String) : String :=
  String.ofList (path.toList.reverse.takeWhile (· ≠ '/')).reverse

/-- The arguments that make a compiler compile the test. -/
def testArguments (m : Machine) (compiler : String) : List String :=
  let source := m.scratchDirectory ++ "/check.c"
  if ["cl", "cl.exe"].contains (Text.lower (baseName compiler)) then
    ["/nologo", "/I" ++ m.includeDirectory, "/c", source,
      "/Fo" ++ m.scratchDirectory ++ "/check.obj"]
  else
    ["-I", m.includeDirectory, "-c", source, "-o", m.scratchDirectory ++ "/check.o"]

/-- The compiler that is asked for: by the environment, else by the build configuration, else the
usual one on Windows. -/
def chosenCompiler (h : Host) (config : BuildConfig) : Value :=
  let environment := ((h.valueOf? "CC").map Value.str).getD .null
  let chosen := if environment.truthy then environment else config.get h.machine "CC"
  if !chosen.truthy && h.machine.osName = "win32" then .str "cl" else chosen

/-- Starts the compiler on the test, and notes what it leaves of the input. -/
def startCompiler (argv : List String) : OnHost Compilation := do
  let m := (← get).machine
  modify fun h => { h with compilerRuns := h.compilerRuns ++ [⟨argv, testTimeout, testSource⟩] }
  let compilation := m.compilation argv
  match compilation with
  | .cannotStart _ => return compilation
  | _ =>
      modify fun h => { h with input := m.compilerLeaves argv h.input }
      return compilation

/-- Runs the compiler on the test. -/
def compileTest (compiler : Value) (argv : List String) : HostAction Bool := do
  match ← startCompiler argv with
  | .timesOut =>
      debug "compile_check_timed_out" [("compiler", compiler)]
      return false
  | .cannotStart reason =>
      debug "compile_check_failed" [("compiler", compiler), ("error", .str reason)]
      return false
  | .exits status diagnosis =>
      if status ≠ 0 then
        debug "compile_check_failed" [("compiler", compiler), ("stderr", .str diagnosis)]
        return false
      return true
  | .breaks => throw .compiler

/-- Whether a compiler builds extensions.  One whose text cannot be written or split does not. -/
def canCompile (config : BuildConfig) : HostAction Bool := do
  let h ← get
  let compiler := chosenCompiler h config
  if !compiler.truthy || !compiler.isWritable then return false
  match Words.split compiler.text with
  | .error _ => return false
  | .ok words =>
      match words with
      | command :: args =>
          if (which? h.machine command).isSome then
            compileTest compiler (command :: args ++ testArguments h.machine command)
          else
            debug "compiler_not_found" [("compiler", compiler)]
            return false
      | [] =>
          debug "compiler_not_found" [("compiler", compiler)]
          return false

/-! ### Lines -/

/-- The variables that make every question take its default. -/
def defaultVariables : List String := ["DYNREQS_USE_DEFAULT", "PERL_MM_USE_DEFAULT"]

/-- Whether every question takes its default. -/
def usesDefaults (h : Host) : Bool :=
  h.defaultsOnly || defaultVariables.any fun name => isOnVariable (h.valueOf? name)

/-- Whether a person is at the other end: the input is a terminal, and the output is one too or
is piped on. -/
def isInteractive (h : Host) : Bool :=
  h.streams.inputKind = .terminal &&
    (h.streams.outputKind = .terminal || h.streams.outputKind = .pipe)

/-- A text as it reaches the output: escape sequences are for terminals only. -/
def shown (h : Host) (text : String) : String :=
  if h.streams.outputKind = .terminal then text else Text.stripEscapes text

/-- The host after writing a text. -/
def wrote (h : Host) (text : String) : Host := { h with written := h.written ++ h.shown text }

/-- The host after writing a text of which only the first characters were written. -/
def wroteStart (h : Host) (text : String) (n : Nat) : Host :=
  { h with written := h.written ++ String.ofList ((h.shown text).toList.take n) }

/-- How many characters of a text are written, if writing it fails. -/
def stops? (h : Host) (text : String) : Option Nat :=
  h.streams.outputStops h.written (h.shown text)

/-- Writes a text. -/
def write (text : String) : HostAction Unit := fun h =>
  match h.stops? text with
  | none => (.ok (), h.wrote text)
  | some n => (.error .output, h.wroteStart text n)

/-- Whether reading fails at the end of a text: nothing follows its last line feed any more. -/
def breaksOff (line rest : List Char) : Bool := rest.isEmpty && line.getLast? != some '\n'

/-- Takes a line off the input; at its end there is none. -/
def takeInput : HostAction (Option (List Char)) := fun h =>
  let (line, rest) := takeLine h.streams.lineEnds h.input
  if h.streams.inputFails && breaksOff line rest then (.error .input, h)
  else if line.isEmpty then (.ok none, h)
  else (.ok (some line), { h with input := rest })

theorem input_write (text : String) (h : Host) : (write text h).2.input = h.input := by
  unfold write
  split <;> rfl

/-- A line that is taken shortens the unread input. -/
theorem length_takeInput {h h' : Host} {line : List Char}
    (ht : takeInput h = (.ok (some line), h')) : h'.input.length < h.input.length := by
  unfold takeInput at ht
  dsimp only at ht
  split at ht
  · cases ht
  · split at ht
    · cases ht
    · rename_i hne
      obtain ⟨-, rfl⟩ := Prod.mk.inj ht
      exact length_takeLine_snd (by simpa using hne)

/-- What becomes of a line that was read.  A person is not answered; an empty line of anyone else is
no answer, and any other is echoed. -/
def acknowledge (interactive : Bool) (answer : String) : HostAction (Option String) := do
  if interactive then return some answer
  if answer.isEmpty then return none
  write (answer ++ "\n")
  return some answer

/-- Reads a line of input.  No answer means that the default is to be used: always, at the end of
input, or for an empty line that does not come from a person. -/
def readLine : HostAction (Option String) := do
  let h ← get
  if h.usesDefaults then return none
  match ← takeInput with
  | none => return none
  | some line => acknowledge h.isInteractive (String.ofList (lineText line))

theorem input_acknowledge (interactive : Bool) (answer : String) (h : Host) :
    (acknowledge interactive answer h).2.input = h.input := by
  rw [acknowledge]
  split
  · rfl
  · split
    · rfl
    · have hwrite := input_write (answer ++ "\n") h
      rw [run_bind]
      generalize write (answer ++ "\n") h = p at hwrite
      obtain ⟨_ | _, h₁⟩ := p <;> exact hwrite

/-- Reading a line, step by step. -/
theorem run_readLine (h : Host) : readLine h =
    if h.usesDefaults then (.ok none, h)
    else
      match takeInput h with
      | (.error e, h₁) => (.error e, h₁)
      | (.ok none, h₁) => (.ok none, h₁)
      | (.ok (some line), h₁) =>
          acknowledge h.isInteractive (String.ofList (lineText line)) h₁ := by
  change (if h.usesDefaults then pure none else do
    match ← takeInput with
    | none => return none
    | some line => acknowledge h.isInteractive (String.ofList (lineText line)) :
      HostAction (Option String)) h = _
  split
  · rfl
  · rw [run_bind]
    rcases takeInput h with ⟨_ | _ | line, h₁⟩ <;> rfl

/-- An answer shortens the unread input. -/
theorem length_readLine {h h' : Host} {answer : String}
    (hr : readLine h = (.ok (some answer), h')) : h'.input.length < h.input.length := by
  rw [run_readLine] at hr
  split at hr
  · cases hr
  · split at hr
    · cases hr
    · cases hr
    · rename_i line h₁ htake
      have hinput := input_acknowledge h.isInteractive (String.ofList (lineText line)) h₁
      rw [hr] at hinput
      rw [hinput]
      exact length_takeInput htake

end HostPrereqs.Host
