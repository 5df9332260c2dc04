import HostPrereqs.Host.Basic
import HostPrereqs.Requirements.Table
import HostPrereqs.Text.Blank

/-!
# Environment — files of assignments

A file of assignments gives values to variables, one a line, for an environment that does not
have them yet.  A value is bare up to a comment, or quoted, and then may run over several lines.
`$` with a name in braces stands for the value of a variable, in the environment or above in the
file, and may give another text for a name without one.  A line that is no assignment is passed
over.
-/

namespace HostPrereqs.Assignments

/-- A name, and its value if the line gives one. -/
structure Assignment where
  name : String
  value : Option String
deriving DecidableEq, Repr

/-! ### Values -/

/-- Blanks that do not end a line. -/
def isInline (c : Char) : Bool := Text.isBlank c && c != '\n'

def skipInline (s : List Char) : List Char := s.dropWhile isInline

/-- Reads up to the quote that closes a value: the first one without a backslash before it, or
else the last one. -/
def closing (quote : Char) : List Char → Option (List Char × List Char)
  | [] => none
  | [c] => if c = quote then some ([], []) else none
  | c :: d :: r =>
      if c = quote then some ([], d :: r)
      else if c = '\\' && d = quote then
        match closing quote r with
        | some (value, rest) => some (c :: d :: value, rest)
        | none => some ([c], r)
      else (closing quote (d :: r)).map fun (value, rest) => (c :: value, rest)

/-- What characters mean after a backslash. -/
def escapes : List (Char × Char) :=
  [('\\', '\\'), ('\'', '\''), ('"', '"'), ('a', '\x07'), ('b', '\x08'), ('f', '\x0c'),
    ('n', '\n'), ('r', '\r'), ('t', '\t'), ('v', '\x0b')]

/-- What characters mean after a backslash in a value in single quotes. -/
def singleEscapes : List (Char × Char) := [('\\', '\\'), ('\'', '\'')]

/-- Replaces what is escaped. -/
def unescape (table : List (Char × Char)) : List Char → List Char
  | '\\' :: c :: r =>
      match table.lookup c with
      | some d => d :: unescape table r
      | none => '\\' :: unescape table (c :: r)
  | c :: r => c :: unescape table r
  | [] => []
termination_by s => s.length

/-- A bare value without the comment after it. -/
def cutComment : List Char → List Char
  | [] => []
  | c :: r =>
      if Text.isBlank c && (r.dropWhile Text.isBlank).head? = some '#' then []
      else c :: cutComment r

/-- Reads a value, if it is well formed, and what is after it. -/
def readValue (s : List Char) : Option (List Char × List Char) :=
  match s with
  | '\'' :: r => (closing '\'' r).map fun (value, rest) => (unescape singleEscapes value, rest)
  | '"' :: r => (closing '"' r).map fun (value, rest) => (unescape escapes value, rest)
  | _ =>
      some (Text.dropEndWhile Text.isBlank (cutComment (s.takeWhile (· ≠ '\n'))),
        s.dropWhile (· ≠ '\n'))

/-! ### Lines -/

/-- Whether a character may be in a bare name. -/
def isNameChar (c : Char) : Bool := c != '=' && c != '#' && !Text.isBlank c

/-- Reads a name; a comment has none. -/
def readName (s : List Char) : Option (Option (List Char) × List Char) :=
  match s with
  | '#' :: _ => some (none, s)
  | '\'' :: r =>
      match r.takeWhile (· ≠ '\''), r.dropWhile (· ≠ '\'') with
      | c :: name, _ :: rest => some (some (c :: name), rest)
      | _, _ => none
  | _ =>
      match s.takeWhile isNameChar with
      | [] => none
      | name => some (some name, s.dropWhile isNameChar)

/-- Passes over the word that may stand before a name. -/
def skipExport (s : List Char) : List Char :=
  match s with
  | 'e' :: 'x' :: 'p' :: 'o' :: 'r' :: 't' :: c :: r =>
      if isInline c then skipInline r else s
  | _ => s

/-- Passes over a comment. -/
def skipComment (s : List Char) : List Char :=
  match skipInline s with
  | '#' :: r => r.dropWhile (· ≠ '\n')
  | _ => s

/-- What is after the end of a line. -/
def afterLine (s : List Char) : List Char := (s.dropWhile (· ≠ '\n')).drop 1

/-- Reads the value of a name, if there is one. -/
def readRest (name : Option (List Char)) (s : List Char) : Option Assignment × List Char :=
  let finish (value : Option (List Char)) (s : List Char) : Option Assignment × List Char :=
    let s := skipComment s
    match skipInline s with
    | [] => (name.map fun n => ⟨String.ofList n, value.map String.ofList⟩, [])
    | '\n' :: r => (name.map fun n => ⟨String.ofList n, value.map String.ofList⟩, r)
    | _ => (none, afterLine s)
  match s with
  | '=' :: r =>
      let r := skipInline r
      match readValue r with
      | some (value, rest) => finish (some value) rest
      | none => (none, afterLine r)
  | _ => finish none s

/-- Reads one assignment, if the next line holds one. -/
def readLine (s : List Char) : Option Assignment × List Char :=
  match s.dropWhile Text.isBlank with
  | [] => (none, [])
  | s =>
      let s := skipExport s
      match readName s with
      | none => (none, afterLine s)
      | some (name, rest) => readRest name (skipInline rest)

/-- The assignments of a text. -/
def read (s : List Char) : List Assignment :=
  if s.isEmpty then []
  else
    let line := readLine s
    line.1.toList ++ (if line.2.length < s.length then read line.2 else [])
termination_by s.length

/-! ### Variables in values -/

/-- The value of a variable: that of the environment, or else that of the file. -/
def look (environment : List (String × String)) (above : Table (Option String)) (name : String) :
    Option (Option String) :=
  match environment.lookup name with
  | some value => some (some value)
  | none => above.get? name

/-- Reads a variable after its opening brace: the name, the text for a name without a value, and
what is after the brace that closes it. -/
def readVariable (s : List Char) : Option (List Char × List Char × List Char) :=
  let name := s.takeWhile fun c => c ≠ '}' && c ≠ ':'
  match s.dropWhile fun c => c ≠ '}' && c ≠ ':' with
  | '}' :: rest => some (name, [], rest)
  | ':' :: '-' :: r =>
      match r.dropWhile (· ≠ '}') with
      | _ :: rest => some (name, r.takeWhile (· ≠ '}'), rest)
      | [] => none
  | _ => none

/-- Puts in the values of variables. -/
def expand (value : String → Option (Option String)) : List Char → List Char
  | '$' :: '{' :: s =>
      match readVariable s with
      | some (name, default, rest) =>
          let text := match value (String.ofList name) with
            | some found => (found.getD "").toList
            | none => default
          text ++ (if rest.length < s.length then expand value rest else [])
      | none => '$' :: expand value ('{' :: s)
  | c :: s => c :: expand value s
  | [] => []
termination_by s => s.length

/-- The values that assignments give to names, in order. -/
def resolve (environment : List (String × String)) (assignments : List Assignment) :
    Table (Option String) :=
  assignments.foldl (fun above a =>
    above.put a.name (a.value.map fun v =>
      String.ofList (expand (look environment above) v.toList))) []

/-- The environment with the assignments of a text to variables that it does not have. -/
def addTo (environment : List (String × String)) (text : String) : List (String × String) :=
  environment ++ (resolve environment (read text.toList)).filterMap fun (name, value) =>
    if (environment.lookup name).isSome then none else value.map (name, ·)

end HostPrereqs.Assignments
