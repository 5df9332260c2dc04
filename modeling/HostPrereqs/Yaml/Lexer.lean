import HostPrereqs.Json.Reader
import HostPrereqs.Yaml.Cursor
import HostPrereqs.Yaml.Fault
import HostPrereqs.Yaml.Token

/-!
# Yaml — the state of reading tokens

`Lexer` is the cursor with the tokens read so far and what decides about the next one: the
indentation of the open block collections, the number of open flow collections, whether a key
may start here, and the places where one may have started.

A node on one line, of at most 1024 characters, may turn out to be a key when a colon follows
it; until then its place is remembered (`PossibleKey`), and the tokens of a mapping are put in
front of it afterwards.

Loops run on fuel, of which the length of the text is always enough, because every turn moves
the cursor.
-/

namespace HostPrereqs.Yaml

/-- A place where a key may have started. -/
structure PossibleKey where
  /-- How many tokens were before it. -/
  position : Nat
  /-- The indentation allows nothing but a key there. -/
  required : Bool
  index : Nat
  line : Nat
  column : Nat

structure Lexer where
  cursor : Cursor
  tokens : Array Token
  /-- The number of open flow collections. -/
  depth : Nat
  indent : Int
  indents : List Int
  keyAllowed : Bool
  /-- The last place in each open flow collection, and in the block outside, by depth. -/
  possibleKeys : List (Nat × PossibleKey)

/-- A step of reading tokens. -/
abbrev Lex (α : Type) := StateT Lexer (Except Fault) α

namespace Lex

def peek : Lex Char := return (← get).cursor.peek

def peekAt (distance : Nat) : Lex Char := return (← get).cursor.peekAt distance

/-- Turns enough for any loop over the rest of the text. -/
def fuel : Lex Nat := return (← get).cursor.rest.length + 1

def inFlow : Lex Bool := return (← get).depth != 0

def advance (n : Nat) : Lex Unit := modify fun s => { s with cursor := s.cursor.advance n }

/-- Takes the characters that satisfy `p`. -/
def takeWhile (p : Char → Bool) : Lex (List Char) := do
  let taken := (← get).cursor.rest.takeWhile p
  advance taken.length
  return taken

def skipWhile (p : Char → Bool) : Lex Unit := discard (takeWhile p)

/-- Takes a line end, if there is one.  The usual ones count as a line feed. -/
def lineBreak : Lex (List Char) := do
  let c ← peek
  if c = '\r' && (← peekAt 1) = '\n' then
    advance 2
    return ['\n']
  else if c = '\r' || c = '\n' || c = '\x85' then
    advance 1
    return ['\n']
  else if isBreak c then
    advance 1
    return [c]
  else return []

/-- Takes a character that has to be there. -/
def expect (p : Char → Bool) : Lex Unit := do
  if p (← peek) then advance 1 else throw .badToken

/-- Makes sure that a character is next, without taking it. -/
def require (p : Char → Bool) : Lex Unit := do if !p (← peek) then throw .badToken

def atDocumentMark : Lex Bool := return (← get).cursor.atDocumentMark

def allowKey (allowed : Bool) : Lex Unit := modify fun s => { s with keyAllowed := allowed }

def emit (t : Token) : Lex Unit := modify fun s => { s with tokens := s.tokens.push t }

/-! ### Indentation -/

/-- Opens a block collection if the column is beyond the indentation. -/
def openBlock (column : Nat) : Lex Bool := do
  let s ← get
  if s.indent < column then
    set { s with indent := column, indents := s.indent :: s.indents }
    return true
  else return false

/-- Closes the block collections that are indented beyond a column. -/
def closeBlocks (column : Int) : Lex Unit :=
  modify fun s =>
    if s.depth != 0 then s
    else
      let rec close (indent : Int) (tokens : Array Token) : List Int → Lexer
        | [] => { s with indent, tokens, indents := [] }
        | outer :: more =>
            if column < indent then close outer (tokens.push .blockEnd) more
            else { s with indent, tokens, indents := outer :: more }
      close s.indent s.tokens s.indents

/-! ### Possible keys -/

/-- The possible key of the innermost open collection. -/
def possibleKey? : Lex (Option PossibleKey) := do
  let s ← get
  return s.possibleKeys.lookup s.depth

def forgetKey : Lex Unit := modify fun s =>
  { s with possibleKeys := s.possibleKeys.filter (·.1 != s.depth) }

/-- Gives up the possible key, which must not be one that is required. -/
def dropKey : Lex Unit := do
  match ← possibleKey? with
  | some k => if k.required then throw .badToken else forgetKey
  | none => return

/-- Gives up the places that are on another line or too far back. -/
def dropStaleKeys : Lex Unit := do
  let s ← get
  let stale (k : PossibleKey) : Bool :=
    k.line != s.cursor.line || 1024 < s.cursor.index - k.index
  if s.possibleKeys.any fun (_, k) => stale k && k.required then throw .badToken
  set { s with possibleKeys := s.possibleKeys.filter fun (_, k) => !stale k }

/-- Remembers that a key may start here. -/
def saveKey : Lex Unit := do
  let s ← get
  if s.keyAllowed then
    dropKey
    let k : PossibleKey :=
      { position := s.tokens.size
        required := s.depth = 0 && s.indent = s.cursor.column
        index := s.cursor.index
        line := s.cursor.line
        column := s.cursor.column }
    modify fun s => { s with possibleKeys := (s.depth, k) :: s.possibleKeys }

end Lex

end HostPrereqs.Yaml
