import HostPrereqs.CommandLine.Run
import HostPrereqs.Host.Description
import HostPrereqs.Json.Reader

/-!
# The program

Takes a snapshot of what a run may look at (the environment, the files that its arguments name,
the settings files, and a description of the machine), runs, and shows the outcome.

A run is a function of all its input, but a person answers one question at a time.  So a run is
first tried with the lines that are known and one that nobody would write; where it asks for that
one, what it has written so far is shown, the next line is read, and it is tried again.
-/

namespace HostPrereqs.Program

open CommandLine

/-- The variable that names the file with the description of the machine. -/
def machineVariable : String := "DYNREQS_MACHINE"

/-- The variables of a process, each of them closed by a null character. -/
def environmentOf (text : String) : List (String × String) :=
  (text.splitOn "\x00").filterMap fun assignment =>
    match Arguments.splitValue assignment.toList with
    | (name, some value) => some (name, value)
    | _ => none

/-! ### Files -/

/-- The paths that an argument may name. -/
def pathsOf (arg : String) : List String :=
  match Arguments.splitValue arg.toList with
  | (_, some value) => [arg, value, String.ofList (arg.toList.drop 2)]
  | _ => [arg, String.ofList (arg.toList.drop 2)]

/-- The directories on the way to a path, and the path where it leads to. -/
def wayTo (path : String) : List String × String :=
  let absolute := Path.isAbsolute path
  let (directories, last) := (Path.steps path).foldl (fun (passed, here) step =>
    let next := if step = ['.', '.'] && here.getLast?.any (· != ['.', '.']) then here.dropLast
      else here ++ [step]
    (passed ++ [Path.ofParts absolute here], next)) ([], [])
  (directories, Path.ofParts absolute last)

/-- What is at a path, and the directories on the way to it. -/
def entriesAt (path : String) : IO (List (String × FileEntry)) := do
  let (directories, last) := wayTo path
  let found (e : FileEntry) := (last, e) :: directories.map (·, FileEntry.directory)
  try
    return found (.bytes (← IO.FS.readBinFile path))
  catch
    | .inappropriateType .. => return found .directory
    | _ => return []

/-- What a run may look at. -/
def snapshot (locations : Settings.Locations) (args : List String) : IO Files := do
  let own := [locations.projectFile, locations.userFile, locations.environmentFile]
  return ⟨(← (own ++ args.flatMap pathsOf).mapM entriesAt).flatten⟩

/-! ### The host -/

/-- The machine that the environment names a description of. -/
def describedMachine (environment : List (String × String)) : IO Machine := do
  match environment.lookup machineVariable with
  | none => return .ofDescription (.map [])
  | some path =>
      match Json.read (← IO.FS.readFile path) with
      | .ok description => return .ofDescription description
      | .error _ => return .ofDescription (.map [])

def streamKind (isTerminal : Bool) : StreamKind := if isTerminal then .terminal else .pipe

/-- The host before a run. -/
def hostNow (environment : List (String × String)) : IO Host := do
  return {
    machine := ← describedMachine environment
    environment
    streams := ⟨streamKind (← (← IO.getStdin).isTty), streamKind (← (← IO.getStdout).isTty),
      .lineFeed, false, fun _ _ => none⟩
    defaultsOnly := false
    input := []
    written := ""
    compilerRuns := []
    calls := []
    log := [] }

/-! ### Runs -/

/-- What two texts begin with alike. -/
def commonStart : List Char → List Char → List Char
  | a :: as, b :: bs => if a = b then a :: commonStart as bs else []
  | _, _ => []

/-- A line that nobody would write. -/
def trialLine : List Char := ['?', '\n']

/-- Shows what has been written beyond what is shown already. -/
def showFrom (shown : Nat) (written : List Char) : IO Unit := do
  let stdout ← IO.getStdout
  stdout.putStr (String.ofList (written.drop shown))
  stdout.flush

/-- Runs on lines that are known, and reads more of them where they are asked for. -/
partial def converse (work : List Char → Outcome × Host) (known : List Char) (shown : Nat) :
    IO (Outcome × Host) := do
  let (outcome, host) := work known
  let (_, trial) := work (known ++ trialLine)
  let common := commonStart host.written.toList trial.written.toList
  let line ← if trial.input = trialLine then pure "" else do
    showFrom shown common
    (← IO.getStdin).getLine
  if line.isEmpty then
    showFrom (if trial.input = trialLine then shown else common.length) host.written.toList
    return (outcome, host)
  converse work (known ++ line.toList) common.length

/-- Runs the program, and gives the status that it ends with. -/
def runProgram (args : List String) : IO UInt32 := do
  let environment := environmentOf (← IO.FS.readFile "/proc/self/environ")
  let locations : Settings.Locations :=
    ⟨(environment.lookup "PWD").getD ".", (environment.lookup "HOME").getD "/"⟩
  let files ← snapshot locations args
  let start ← hostNow environment
  let work (input : List Char) : Outcome × Host :=
    (run files locations args).run { start with input }
  let (outcome, host) ← converse work [] 0
  let stderr ← IO.getStderr
  for r in host.log.filter outcome.display.shows do
    stderr.putStr (outcome.display.line (toString (← IO.monoMsNow)) r)
  stderr.putStr outcome.errors
  if outcome.crash.isSome then stderr.putStr "Error: the input cannot be used\n"
  return UInt32.ofNat outcome.status.code

end HostPrereqs.Program

def main (args : List String) : IO UInt32 := HostPrereqs.Program.runProgram args
