import HostPrereqs.Number.Shortest
import HostPrereqs.Value.Literal

/-!
# Json — writing

Texts are written in basic characters only: everything else is escaped by its UTF-16 codes.
`compact` writes a value on one line; `indented` gives every item of a list and every member of
an object a line of its own, two blanks deeper than what holds it.  A value that JSON has no
form for is written as its text.
-/

namespace HostPrereqs.Json

/-- An escape by one UTF-16 code. -/
def unitEscape (n : Nat) : List Char := '\\' :: 'u' :: Text.hex 4 n

/-- The escape of any character: two codes beyond the sixteen-bit ones. -/
def codeEscape (n : Nat) : List Char :=
  if n < 0x10000 then unitEscape n
  else
    unitEscape (0xd800 + (n - 0x10000) / 0x400) ++ unitEscape (0xdc00 + (n - 0x10000) % 0x400)

/-- A character inside a string. -/
def stringChar (c : Char) : List Char :=
  if c = '"' then ['\\', '"']
  else if c = '\\' then ['\\', '\\']
  else if c = '\n' then ['\\', 'n']
  else if c = '\r' then ['\\', 'r']
  else if c = '\t' then ['\\', 't']
  else if c = '\x08' then ['\\', 'b']
  else if c = '\x0c' then ['\\', 'f']
  else if 32 ≤ c.toNat && c.toNat < 127 then [c]
  else codeEscape c.toNat

def stringChars (s : List Char) : List Char := '"' :: (s.flatMap stringChar ++ ['"'])

def string (s : String) : String := String.ofList (stringChars s.toList)

def number (x : Double) : String :=
  if x.isNaN then "NaN"
  else if x.isFinite then x.text
  else if x.isNegative then "-Infinity"
  else "Infinity"

/-- A value that has no parts. -/
def scalarText : Value → String
  | .null    => "null"
  | .bool b  => if b then "true" else "false"
  | .int i   => toString i
  | .float x => number x
  | v        => string v.text

/-- A key, which is always a string. -/
def keyText : Value → String
  | .str s => string s
  | k      => string (scalarText k)

mutual

/-- A value on one line. -/
def compact : Value → String
  | .list xs  => "[" ++ ", ".intercalate (compacts xs) ++ "]"
  | .tuple xs => "[" ++ ", ".intercalate (compacts xs) ++ "]"
  | .map es   => "\x7b" ++ ", ".intercalate (compactMembers es) ++ "\x7d"
  | v         => scalarText v

def compacts : List Value → List String
  | []      => []
  | x :: xs => compact x :: compacts xs

def compactMembers : List (Value × Value) → List String
  | []           => []
  | (k, v) :: es => (keyText k ++ ": " ++ compact v) :: compactMembers es

end

/-- A line end and the blanks of a depth. -/
def lineStart (depth : Nat) : String := "\n" ++ String.ofList (List.replicate (2 * depth) ' ')

/-- Parts between brackets, each on a line of its own. -/
def block (depth : Nat) (opening closing : String) (parts : List String) : String :=
  if parts.isEmpty then opening ++ closing
  else
    opening ++ lineStart (depth + 1) ++ ("," ++ lineStart (depth + 1)).intercalate parts
      ++ lineStart depth ++ closing

mutual

/-- A value whose lists and objects are blocks. -/
def indentedAt (depth : Nat) : Value → String
  | .list xs  => block depth "[" "]" (indentedItems (depth + 1) xs)
  | .tuple xs => block depth "[" "]" (indentedItems (depth + 1) xs)
  | .map es   => block depth "\x7b" "\x7d" (indentedMembers (depth + 1) es)
  | v         => scalarText v

def indentedItems (depth : Nat) : List Value → List String
  | []      => []
  | x :: xs => indentedAt depth x :: indentedItems depth xs

def indentedMembers (depth : Nat) : List (Value × Value) → List String
  | []           => []
  | (k, v) :: es => (keyText k ++ ": " ++ indentedAt depth v) :: indentedMembers depth es

end

/-- A value as a block of lines. -/
def indented (v : Value) : String := indentedAt 0 v

end HostPrereqs.Json
