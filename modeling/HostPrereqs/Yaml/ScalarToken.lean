import HostPrereqs.Yaml.Lexer

/-!
# Yaml — reading scalars

Scalars come in five styles.  Plain and quoted ones may go over several lines, which are joined by
a space, or by the empty lines between them.  Block scalars keep their lines (`|`) or join them
(`>`) and end with the indentation; indicators after the sign say how the last line ends and how
far the block is indented.

As in JSON, an escape for one half of a surrogate pair is read as U+FFFD.  Here this is so for two
escapes that make up a pair, too.
-/

namespace HostPrereqs.Yaml.Lex

/-- A line end and the empty lines after it, joined. -/
def folded (lineEnd breaks : List Char) : List Char :=
  if lineEnd != ['\n'] then lineEnd ++ breaks
  else if breaks.isEmpty then [' ']
  else breaks

/-! ### Quoted scalars -/

/-- The character of an escape by one letter. -/
def letterEscape? : Char → Option Char
  | '0'  => some '\x00'
  | 'a'  => some '\x07'
  | 'b'  => some '\x08'
  | 't'  => some '\t'
  | '\t' => some '\t'
  | 'n'  => some '\n'
  | 'v'  => some '\x0b'
  | 'f'  => some '\x0c'
  | 'r'  => some '\r'
  | 'e'  => some '\x1b'
  | ' '  => some ' '
  | '"'  => some '"'
  | '\\' => some '\\'
  | '/'  => some '/'
  | 'N'  => some '\x85'
  | '_'  => some '\xa0'
  | 'L'  => some '\u2028'
  | 'P'  => some '\u2029'
  | _    => none

/-- The number of digits of an escape by code point. -/
def codeLength? : Char → Option Nat
  | 'x' => some 2
  | 'u' => some 4
  | 'U' => some 8
  | _   => none

/-- The character of a code point that was escaped. -/
def escapedCode (digits : List Char) : Except Fault Char := do
  let some values := digits.mapM Json.hexDigit? | throw .badToken
  let n := values.foldl (fun n d => n * 16 + d) 0
  if n < 0x110000 then return Json.codeChar n
  else if n < Nat.pow 2 31 then throw (.noSuchValue "chr() arg not in range(0x110000)")
  else throw .tooBig

/-- Line ends and blanks inside quotes.  A mark between documents may not stand there. -/
def quotedBreaks : Nat → Lex (List Char)
  | 0 => return []
  | fuel + 1 => do
      if ← atDocumentMark then throw .badToken
      skipWhile isSpaceOrTab
      let b ← lineBreak
      if b.isEmpty then return []
      return b ++ (← quotedBreaks fuel)

/-- Blanks and line ends inside quotes. -/
def quotedSpaces : Lex (List Char) := do
  let blanks ← takeWhile isSpaceOrTab
  if (← peek) = '\x00' then throw .badToken
  let lineEnd ← lineBreak
  if lineEnd.isEmpty then return blanks
  return folded lineEnd (← quotedBreaks (← fuel))

/-- Characters that stand for themselves between both kinds of quotes. -/
def isQuotedChar (c : Char) : Bool := !(c = '\'' || c = '"' || c = '\\' || separates c)

/-- What a backslash between double quotes starts. -/
def escapeSequence : Lex (List Char) := do
  advance 1
  let c ← peek
  match letterEscape? c, codeLength? c with
  | some e, _ =>
      advance 1
      return [e]
  | none, some n =>
      advance 1
      let digits := (← get).cursor.rest.take n
      if digits.length < n then throw .badToken
      let e ← escapedCode digits
      advance n
      return [e]
  | none, none =>
      let lineEnd ← lineBreak
      if lineEnd.isEmpty then throw .badToken
      quotedBreaks (← fuel)

/-- Characters inside quotes up to the next blank or the closing quote. -/
def quotedWord (double : Bool) : Nat → Lex (List Char)
  | 0 => return []
  | fuel + 1 => do
      let word ← takeWhile isQuotedChar
      let c ← peek
      if !double && c = '\'' && (← peekAt 1) = '\'' then
        advance 2
        return word ++ '\'' :: (← quotedWord double fuel)
      else if (double && c = '\'') || (!double && (c = '"' || c = '\\')) then
        advance 1
        return word ++ c :: (← quotedWord double fuel)
      else if double && c = '\\' then
        let e ← escapeSequence
        return word ++ e ++ (← quotedWord double fuel)
      else return word

/-- Words and blanks up to the closing quote. -/
def quotedRest (double : Bool) (quote : Char) : Nat → Lex (List Char)
  | 0 => throw .badToken
  | turns + 1 => do
      if (← peek) = quote then
        advance 1
        return []
      let spaces ← quotedSpaces
      let word ← quotedWord double (← fuel)
      return spaces ++ word ++ (← quotedRest double quote turns)

/-- Reads a quoted scalar. -/
def quotedScalar (double : Bool) : Lex Token := do
  let quote ← peek
  advance 1
  let word ← quotedWord double (← fuel)
  let rest ← quotedRest double quote (← fuel)
  return .scalar (String.ofList (word ++ rest)) false

/-! ### Plain scalars -/

/-- Indicators of flow collections, where plain scalars end. -/
def isFlowIndicator (c : Char) : Bool := ",?[]\x7b\x7d".toList.contains c

/-- What a colon before ends a plain scalar. -/
def endsAfterColon (flow : Bool) (c : Char) : Bool :=
  separates c || (flow && ",[]\x7b\x7d".toList.contains c)

/-- The characters of a plain scalar up to the next blank. -/
def plainWord (flow : Bool) : List Char → List Char
  | [] => []
  | c :: rest =>
      if separates c || (c = ':' && endsAfterColon flow (rest.headD '\x00'))
          || (flow && isFlowIndicator c) then []
      else c :: plainWord flow rest

/-- Spaces and line ends, of which the line ends are kept. -/
def plainBreaks : Nat → Lex (Option (List Char))
  | 0 => return some []
  | fuel + 1 => do
      skipWhile (· = ' ')
      let b ← lineBreak
      if b.isEmpty then return some []
      if ← atDocumentMark then return none
      return (← plainBreaks fuel).map (b ++ ·)

/-- Spaces and line ends inside a plain scalar, or nothing where it ends. -/
def plainSpaces : Lex (List Char) := do
  let spaces ← takeWhile (· = ' ')
  let lineEnd ← lineBreak
  if lineEnd.isEmpty then return spaces
  allowKey true
  if ← atDocumentMark then return []
  match ← plainBreaks (← fuel) with
  | none => return []
  | some breaks => return folded lineEnd breaks

/-- Words of a plain scalar after the blanks `spaces`. -/
def plainRest (indent : Int) (spaces : List Char) : Nat → Lex (List Char)
  | 0 => return []
  | turns + 1 => do
      if (← peek) = '#' then return []
      let flow ← inFlow
      let word := plainWord flow (← get).cursor.rest
      if word.isEmpty then return []
      allowKey false
      advance word.length
      let more ← plainSpaces
      let c := (← get).cursor
      if more.isEmpty || c.peek = '#' || (!flow && (c.column : Int) < indent) then
        return spaces ++ word
      return spaces ++ word ++ (← plainRest indent more turns)

/-- Reads a plain scalar. -/
def plainScalar : Lex Token := do
  let text ← plainRest ((← get).indent + 1) [] (← fuel)
  return .scalar (String.ofList text) true

/-! ### Block scalars -/

/-- What becomes of the line ends at the end of a block. -/
inductive Chomping where
  | strip
  | clip
  | keep
deriving DecidableEq, Repr

def chomping? : Char → Option Chomping
  | '+' => some .keep
  | '-' => some .strip
  | _   => none

/-- Reads a digit that says how far a block is indented. -/
def blockIncrement : Lex (Option Nat) := do
  let c ← peek
  if !c.isDigit then return none
  if c = '0' then throw .badToken
  advance 1
  return some (c.toNat - 48)

/-- Reads the sign that says how a block ends. -/
def blockChomping : Lex (Option Chomping) := do
  match chomping? (← peek) with
  | some chomping =>
      advance 1
      return some chomping
  | none => return none

/-- Reads the indicators of a block, in either order. -/
def blockIndicators : Lex (Chomping × Option Nat) := do
  let early ← blockChomping
  let increment ← blockIncrement
  let late ← if early.isNone && increment.isSome then blockChomping else pure none
  require endsWord
  return ((early <|> late).getD .clip, increment)

/-- Skips the rest of a line, which holds at most a comment. -/
def emptyLineEnd : Lex Unit := do
  skipWhile (· = ' ')
  if (← peek) = '#' then skipWhile fun c => !endsLine c
  require endsLine
  discard lineBreak

/-- Empty lines at the start of a block: their line ends, and the greatest column in them. -/
def leadingBreaks (widest : Nat) : Nat → Lex (List Char × Nat)
  | 0 => return ([], widest)
  | fuel + 1 => do
      let c ← peek
      if c = ' ' then
        advance 1
        leadingBreaks (max widest (← get).cursor.column) fuel
      else if isBreak c then
        let b ← lineBreak
        let (more, widest) ← leadingBreaks widest fuel
        return (b ++ more, widest)
      else return ([], widest)

/-- Skips spaces up to a column. -/
def skipIndent (indent : Nat) : Nat → Lex Unit
  | 0 => return
  | fuel + 1 => do
      let c := (← get).cursor
      if c.column < indent && c.peek = ' ' then
        advance 1
        skipIndent indent fuel

/-- Empty lines in a block of a given indentation. -/
def blockBreaks (indent : Nat) : Nat → Lex (List Char)
  | 0 => return []
  | turns + 1 => do
      skipIndent indent (← fuel)
      let b ← lineBreak
      if b.isEmpty then return []
      return b ++ (← blockBreaks indent turns)

/-- The lines of a block after the line ends `breaks`, the last line end, and the empty lines
after that. -/
def blockLines (fold : Bool) (indent : Nat) (breaks : List Char) :
    Nat → Lex (List Char × List Char × List Char)
  | 0 => return ([], [], breaks)
  | turns + 1 => do
      let startsBlank := isSpaceOrTab (← peek)
      let line ← takeWhile fun c => !endsLine c
      let lineEnd ← lineBreak
      let more ← blockBreaks indent (← fuel)
      let c := (← get).cursor
      if c.column = indent && c.peek != '\x00' then
        let join :=
          if fold && lineEnd = ['\n'] && !startsBlank && !isSpaceOrTab c.peek then
            if more.isEmpty then [' '] else []
          else lineEnd
        let (text, last, after) ← blockLines fold indent more turns
        return (breaks ++ line ++ join ++ text, last, after)
      else return (breaks ++ line, lineEnd, more)

/-- Reads a block scalar. -/
def blockScalar (fold : Bool) : Lex Token := do
  advance 1
  let (chomping, increment) ← blockIndicators
  emptyLineEnd
  let least := (max ((← get).indent + 1) 1).toNat
  let (breaks, indent) ← match increment with
    | none => do
        let (breaks, widest) ← leadingBreaks 0 (← fuel)
        pure (breaks, max least widest)
    | some n => do
        let indent := least + n - 1
        pure (← blockBreaks indent (← fuel), indent)
  let c := (← get).cursor
  let (text, last, after) ←
    if c.column = indent && c.peek != '\x00' then blockLines fold indent breaks (← fuel)
    else pure ([], [], breaks)
  let tail := match chomping with
    | .strip => []
    | .clip => last
    | .keep => last ++ after
  return .scalar (String.ofList (text ++ tail)) false

end HostPrereqs.Yaml.Lex
