import HostPrereqs.Text.Literal

/-!
# File — files by path

What is known of files is a list of paths with what is there: bytes or a directory (`Files`).
Paths are compared without empty parts and parts that stay where they are, and a part that goes
up cancels out with the directory before it.

Texts are read as UTF-8, and every line end becomes a line feed.
-/

namespace HostPrereqs

/-- What is at a path. -/
inductive FileEntry where
  | bytes (content : ByteArray)
  | directory

/-- What is at which path. -/
structure Files where
  entries : List (String × FileEntry)

/-- Why there are no bytes to read at a path. -/
inductive FileFault where
  | missing (path : String)
  | isDirectory (path : String)
  | notADirectory (path : String)
  /-- A name that no file can have, because there is a null character in it. -/
  | noFileName
deriving DecidableEq, Repr

namespace FileFault

def message : FileFault → String
  | missing path => s!"[Errno 2] No such file or directory: {Text.literal path}"
  | isDirectory path => s!"[Errno 21] Is a directory: {Text.literal path}"
  | notADirectory path => s!"[Errno 20] Not a directory: {Text.literal path}"
  | noFileName => "embedded null byte"

/-- Whether the fault is told as a fault of the file. -/
def isOfFile : FileFault → Bool
  | missing _ | isDirectory _ | notADirectory _ => true
  | noFileName => false

end FileFault

namespace Path

/-- The parts of a path between its slashes. -/
def parts : List Char → List (List Char)
  | [] => [[]]
  | c :: s =>
      if c = '/' then [] :: parts s
      else
        match parts s with
        | first :: more => (c :: first) :: more
        | [] => [[c]]

def isAbsolute (path : String) : Bool := path.toList.head? = some '/'

/-- A path of parts. -/
def ofParts (absolute : Bool) (ps : List (List Char)) : String :=
  let joined := "/".intercalate (ps.map String.ofList)
  if absolute then "/" ++ joined else if joined.isEmpty then "." else joined

/-- The parts that lead somewhere. -/
def steps (path : String) : List (List Char) :=
  (parts path.toList).filter fun p => !p.isEmpty && p != ['.']

/-- A path without empty parts and parts that stay where they are. -/
def normal (path : String) : String := ofParts (isAbsolute path) (steps path)

/-- The last part of a path. -/
def name (path : String) : String := String.ofList ((steps path).getLastD [])

/-- The ending of the last part of a path: its last point, which is neither first nor last, and
what follows. -/
def suffix (path : String) : String :=
  let s := (name path).toList
  let ending := (s.reverse.takeWhile (· ≠ '.')).reverse
  let before := s.length - ending.length
  if ending.isEmpty || before ≤ 1 then "" else String.ofList ('.' :: ending)

end Path

namespace Files

/-- What is at a normal path.  A directory is where something else is below it. -/
def entryAt? (f : Files) (path : String) : Option FileEntry :=
  match f.entries.lookup path with
  | some e => some e
  | none =>
      if path = "." || f.entries.any fun (p, _) => (path ++ "/").toList.isPrefixOf p.toList then
        some .directory
      else none

/-- Goes along the parts of a path that was reached at `here`. -/
def walk (f : Files) (path : String) (absolute : Bool) (here : List (List Char)) :
    List (List Char) → Except FileFault FileEntry
  | [] =>
      match f.entryAt? (Path.ofParts absolute here) with
      | some e => .ok e
      | none => .error (.missing path)
  | step :: more =>
      match f.entryAt? (Path.ofParts absolute here) with
      | some (.bytes _) => .error (.notADirectory path)
      | some .directory =>
          if step = ['.', '.'] && here.getLast?.any (· != ['.', '.']) then
            walk f path absolute here.dropLast more
          else walk f path absolute (here ++ [step]) more
      | none =>
          if absolute then walk f path absolute (here ++ [step]) more
          else .error (.missing path)

/-- What is at a path. -/
def look (f : Files) (path : String) : Except FileFault FileEntry :=
  if path.toList.contains '\x00' then .error .noFileName
  else f.walk path (Path.isAbsolute path) [] (Path.steps path)

def isThere (f : Files) (path : String) : Bool := (f.look path).isOk

/-- The bytes of a file. -/
def readBytes (f : Files) (path : String) : Except FileFault ByteArray := do
  match ← f.look path with
  | .bytes content => return content
  | .directory => throw (.isDirectory path)

/-- Makes every line end a line feed. -/
def unifyLines : List Char → List Char
  | '\r' :: '\n' :: s => '\n' :: unifyLines s
  | '\r' :: s => '\n' :: unifyLines s
  | c :: s => c :: unifyLines s
  | [] => []

/-- The text of bytes, if they encode one. -/
def textOf? (content : ByteArray) : Option String :=
  (String.fromUTF8? content).map fun s => String.ofList (unifyLines s.toList)

end Files

end HostPrereqs
