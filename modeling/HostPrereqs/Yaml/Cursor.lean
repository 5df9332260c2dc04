/-!
# Yaml — characters and places

The classes of characters that the format distinguishes, and a place in a text (`Cursor`): what
is left of the text, and the line and column it starts in.  At the end of the text the cursor
shows the null character, which no text holds.
-/

namespace HostPrereqs.Yaml

/-! ### Characters -/

/-- Characters that end a line. -/
def isBreak (c : Char) : Bool :=
  c = '\n' || c = '\r' || c = '\x85' || c = '\u2028' || c = '\u2029'

/-- The end of a line or of the text. -/
def endsLine (c : Char) : Bool := c = '\x00' || isBreak c

/-- The end of a line or of the text, or a space. -/
def endsWord (c : Char) : Bool := c = ' ' || endsLine c

/-- What separates tokens: a space, a tab, or the end of a line or of the text. -/
def separates (c : Char) : Bool := c = '\t' || endsWord c

def isSpaceOrTab (c : Char) : Bool := c = ' ' || c = '\t'

/-- Characters of names. -/
def isNameChar (c : Char) : Bool := c.isAlphanum || c = '-' || c = '_'

/-- Characters of tags and their prefixes. -/
def isTagChar (c : Char) : Bool := c.isAlphanum || "-;/?:@&=+$,_.!~*'()[]%".toList.contains c

/-- Characters that may stand in a text. -/
def isAllowed (c : Char) : Bool :=
  let n := c.toNat
  n = 9 || n = 10 || n = 13 || (32 ≤ n && n ≤ 126) || n = 0x85 || (0xa0 ≤ n && n ≤ 0xfffd)
    || 0x10000 ≤ n

/-! ### Cursors -/

/-- A place in a text. -/
structure Cursor where
  rest : List Char
  index : Nat
  line : Nat
  column : Nat
deriving Repr

namespace Cursor

/-- The beginning of a text. -/
def start (text : List Char) : Cursor := ⟨text, 0, 0, 0⟩

/-- The character at a distance from the cursor. -/
def peekAt (c : Cursor) (distance : Nat) : Char := c.rest.getD distance '\x00'

def peek (c : Cursor) : Char := c.peekAt 0

/-- Moves over one character.  A carriage return before a line feed does not end the line yet. -/
def next (c : Cursor) : Cursor :=
  match c.rest with
  | [] => c
  | ch :: rest =>
      if isBreak ch && !(ch = '\r' && rest.head? = some '\n') then
        ⟨rest, c.index + 1, c.line + 1, 0⟩
      else ⟨rest, c.index + 1, c.line, if ch = '\ufeff' then c.column else c.column + 1⟩

/-- Moves over a number of characters. -/
def advance (c : Cursor) : Nat → Cursor
  | 0 => c
  | n + 1 => c.next.advance n

/-- A line that starts with three hyphens or points and a separator. -/
def atMarker (c : Cursor) (mark : Char) : Bool :=
  c.peekAt 0 = mark && c.peekAt 1 = mark && c.peekAt 2 = mark && separates (c.peekAt 3)

/-- A mark between documents. -/
def atDocumentMark (c : Cursor) : Bool := c.atMarker '-' || c.atMarker '.'

end Cursor

end HostPrereqs.Yaml
