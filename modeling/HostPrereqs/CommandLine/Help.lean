import HostPrereqs.CommandLine.Switch
import HostPrereqs.Text.Wrap

/-!
# Command line — help

The help of a scope shows its usage, what it is for, its switches, and for the program its
commands, in lines that fit the terminal: two columns less than it has, at most 78 and at least 50.
A purpose that does not fit its line in the list of commands is cut short (`shortened`).
-/

namespace HostPrereqs.CommandLine.Help

/-- Reads a whole number; single underscores may stand between digits. -/
def readNumber (s : List Char) : Option Nat :=
  digits none s
where
  /-- Reads digits after a number, if there is one yet. -/
  digits : Option Nat → List Char → Option Nat
    | n, [] => n
    | some n, '_' :: c :: r =>
        if c.isDigit then digits (some (10 * n + (c.toNat - '0'.toNat))) r else none
    | n, c :: r =>
        if c.isDigit then digits (some (10 * n.getD 0 + (c.toNat - '0'.toNat))) r else none

/-- The columns of the terminal that an environment names, or else 80. -/
def columns (environment : List (String × String)) : Nat :=
  match (environment.lookup "COLUMNS").map fun s => Text.trim s.toList with
  | some ('+' :: s) => known (readNumber s)
  | some s => known (readNumber s)
  | none => 80
where
  known : Option Nat → Nat
    | some (n + 1) => n + 1
    | _ => 80

/-- How wide the lines of the help are. -/
def width (environment : List (String × String)) : Nat := max (min (columns environment) 80 - 2) 50

theorem width_mem (environment : List (String × String)) :
    50 ≤ width environment ∧ width environment ≤ 78 := by
  unfold width
  omega

def spaces (n : Nat) : String := String.ofList (List.replicate n ' ')

/-- The widest first column of a list. -/
def firstColumn : Nat := 30

/-- The lines of a list of terms and what they mean. -/
def list (width : Nat) (rows : List (String × String)) : List String :=
  let column := min ((rows.map (·.1.length)).foldl max 0) firstColumn + 2
  rows.flatMap fun (term, meaning) =>
    let lines := Text.wrap (max (width - column - 2) 10) meaning
    let start := spaces (column + 2)
    if term.length + 2 ≤ column then
      ("  " ++ term ++ spaces (column - term.length) ++ lines.headD "")
        :: lines.tail.map (start ++ ·)
    else ("  " ++ term) :: lines.map (start ++ ·)

/-- How many of the first words fit, with blanks between them. -/
def fitting (room : Nat) : List String → Nat
  | [] => 0
  | w :: ws => if w.length ≤ room then 1 + fitting (room - w.length - 1) ws else 0

/-- A sentence as it is, or if it is too long its first words and three points. -/
def shortened (limit : Nat) (s : String) : String :=
  if s.length ≤ limit then s
  else
    let ws := (Text.words s.toList).map String.ofList
    " ".intercalate (ws.take (fitting (limit - 3) ws)) ++ "..."

/-- A switch as the help lists it. -/
def term (s : Switch) : String :=
  ", ".intercalate s.spellings ++ (match s.valueName? with | some v => s!" {v}" | none => "")

/-- The list of commands. -/
def commandLines (width : Nat) : List String :=
  let widest := (Command.all.map (·.name.length)).foldl max 0
  list width (Command.all.map fun c => (c.name, shortened (width - 6 - widest) c.purpose))

/-- The help of a scope. -/
def text (width : Nat) (scope : Scope) : String :=
  let purpose := (Text.wrap (width - 2) scope.purpose).map ("  " ++ ·)
  let switches := list width (scope.switches.map fun s => (term s, s.purpose))
  let commands := match scope with
    | .program => ["", "Commands:"] ++ commandLines width
    | .command _ => []
  "\n".intercalate ([scope.usage] ++ purpose ++ ["", "Options:"] ++ switches ++ commands) ++ "\n"

end HostPrereqs.CommandLine.Help
