import HostPrereqs.Yaml.ScalarToken
import HostPrereqs.Yaml.TagToken

/-!
# Yaml — the tokens of a text

`tokens` reads a text token by token.  What a token is follows from its first character, from
what comes after it, and from whether a flow collection is open.
-/

namespace HostPrereqs.Yaml

namespace Lex

/-- Moves to the next token, over spaces, comments and line ends.  After a line end outside of
flow collections a key may start. -/
def skipToToken : Nat → Lex Unit
  | 0 => return
  | fuel + 1 => do
      skipWhile (· = ' ')
      if (← peek) = '#' then skipWhile fun c => !endsLine c
      let b ← lineBreak
      if b.isEmpty then return
      if !(← inFlow) then allowKey true
      skipToToken fuel

/-- Skips a byte order mark at the beginning. -/
def skipMark : Lex Unit := do
  if (← get).cursor.index = 0 && (← peek) = '\ufeff' then advance 1

/-- A mark between documents closes everything. -/
def documentMark (t : Token) : Lex Unit := do
  closeBlocks (-1)
  dropKey
  allowKey false
  advance 3
  emit t

def directiveToken : Lex Unit := do
  closeBlocks (-1)
  dropKey
  allowKey false
  emit (← directive)

def openFlow (t : Token) : Lex Unit := do
  saveKey
  modify fun s => { s with depth := s.depth + 1 }
  allowKey true
  advance 1
  emit t

def closeFlow (t : Token) : Lex Unit := do
  if !(← inFlow) then throw .badToken
  dropKey
  modify fun s => { s with depth := s.depth - 1 }
  allowKey false
  advance 1
  emit t

def flowEntry : Lex Unit := do
  allowKey true
  dropKey
  advance 1
  emit .flowEntry

/-- Starts a block collection at the cursor if the indentation grows there. -/
def openBlockHere (t : Token) : Lex Unit := do
  if !(← inFlow) then
    let s ← get
    if !s.keyAllowed then throw .badToken
    if ← openBlock s.cursor.column then emit t

def blockEntry : Lex Unit := do
  openBlockHere .blockSequenceStart
  allowKey true
  dropKey
  advance 1
  emit .blockEntry

def keyToken : Lex Unit := do
  openBlockHere .blockMappingStart
  allowKey !(← inFlow)
  dropKey
  advance 1
  emit .key

/-- Puts a token in front of those that were read since a position. -/
def insertAt (position : Nat) (t : Token) : Lex Unit :=
  modify fun s => { s with tokens := s.tokens.insertIdxIfInBounds position t }

def valueToken : Lex Unit := do
  match ← possibleKey? with
  | some k => do
      forgetKey
      insertAt k.position .key
      if !(← inFlow) then
        if ← openBlock k.column then insertAt k.position .blockMappingStart
      allowKey false
  | none => do
      openBlockHere .blockMappingStart
      allowKey !(← inFlow)
      dropKey
  advance 1
  emit .value

/-- A token that may be a key. -/
def nodeToken (read : Lex Token) : Lex Unit := do
  saveKey
  allowKey false
  emit (← read)

def blockScalarToken (fold : Bool) : Lex Unit := do
  allowKey true
  dropKey
  emit (← blockScalar fold)

/-- Whether a plain scalar starts with `c` when `after` follows. -/
def startsPlain (flow : Bool) (c after : Char) : Bool :=
  !(separates c || "-?:,[]\x7b\x7d#&*!|>'\"%@\x60".toList.contains c)
    || (!separates after && (c = '-' || (!flow && (c = '?' || c = ':'))))

/-- Reads one token, or several that stand for one another.  False at the end of the text. -/
def step : Lex Bool := do
  skipMark
  skipToToken (← fuel)
  dropStaleKeys
  closeBlocks (← get).cursor.column
  let c ← peek
  let after ← peekAt 1
  let flow ← inFlow
  let atLineStart := (← get).cursor.column = 0
  let cursor := (← get).cursor
  if c = '\x00' then
    closeBlocks (-1)
    dropKey
    return false
  else if c = '%' && atLineStart then directiveToken
  else if atLineStart && cursor.atMarker '-' then documentMark .documentStart
  else if atLineStart && cursor.atMarker '.' then documentMark .documentEnd
  else if c = '[' then openFlow .flowSequenceStart
  else if c = '\x7b' then openFlow .flowMappingStart
  else if c = ']' then closeFlow .flowSequenceEnd
  else if c = '\x7d' then closeFlow .flowMappingEnd
  else if c = ',' then flowEntry
  else if c = '-' && separates after then blockEntry
  else if c = '?' && (flow || separates after) then keyToken
  else if c = ':' && (flow || separates after) then valueToken
  else if c = '*' then nodeToken (return .alias (← anchorName))
  else if c = '&' then nodeToken (return .anchor (← anchorName))
  else if c = '!' then nodeToken tag
  else if c = '|' && !flow then blockScalarToken false
  else if c = '>' && !flow then blockScalarToken true
  else if c = '\'' then nodeToken (quotedScalar false)
  else if c = '"' then nodeToken (quotedScalar true)
  else if startsPlain flow c after then nodeToken plainScalar
  else throw .badToken
  return true

/-- Reads tokens to the end of the text. -/
def steps : Nat → Lex Unit
  | 0 => return
  | fuel + 1 => do if ← step then steps fuel

end Lex

/-- The tokens of a text. -/
def tokens (text : List Char) : Except Fault (List Token) := do
  if !text.all isAllowed then throw .badCharacter
  let start : Lexer := ⟨.start text, #[], 0, -1, [], true, []⟩
  let ((), last) ← (Lex.steps (text.length + 1)).run start
  return last.tokens.toList

end HostPrereqs.Yaml
