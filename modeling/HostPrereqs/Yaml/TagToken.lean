import HostPrereqs.Yaml.Lexer

/-!
# Yaml — reading directives, tags and anchors

A tag is written out between angle brackets, or as a handle and a suffix; a percent sign in it
starts the bytes of an encoded character.
-/

namespace HostPrereqs.Yaml.Lex

/-- Decodes the percent signs of a tag. -/
def decodeTag (s : List Char) : Except Fault (List Char) :=
  match s with
  | [] => .ok []
  | '%' :: a :: b :: r => do
      let (bytes, rest) ← encodedBytes ('%' :: a :: b :: r)
      match String.fromUTF8? ⟨bytes.toArray⟩ with
      | some t => return t.toList ++ rest
      | none => throw .badToken
  | '%' :: _ => .error .badToken
  | c :: r => do return c :: (← decodeTag r)
where
  /-- The bytes at the front of a text, and the decoded rest. -/
  encodedBytes (s : List Char) : Except Fault (List UInt8 × List Char) :=
    match s with
    | '%' :: a :: b :: r => do
        let some high := Json.hexDigit? a | throw .badToken
        let some low := Json.hexDigit? b | throw .badToken
        let (bytes, rest) ← encodedBytes r
        return (UInt8.ofNat (high * 16 + low) :: bytes, rest)
    | '%' :: _ => .error .badToken
    | [] => .ok ([], [])
    | c :: r => do return ([], c :: (← decodeTag r))

/-- Reads the characters of a tag, of which there has to be one. -/
def tagText : Lex String := do
  let text ← takeWhile isTagChar
  if text.isEmpty then throw .badToken
  return String.ofList (← decodeTag text)

/-- Reads a handle: an exclamation mark, or name characters between two of them. -/
def tagHandle : Lex String := do
  expect (· = '!')
  if (← peek) = ' ' then return "!"
  let name ← takeWhile isNameChar
  if name.isEmpty && (← peek) != '!' then throw .badToken
  expect (· = '!')
  return String.ofList ('!' :: name ++ ['!'])

/-- Whether the tag at the cursor has a second exclamation mark. -/
def hasHandle : Lex Bool := do
  let word := ((← get).cursor.rest.drop 1).takeWhile fun c => !endsWord c
  return word.contains '!'

/-- Reads a tag. -/
def tag : Lex Token := do
  let c ← peekAt 1
  let t ←
    if c = '<' then do
      advance 2
      let suffix ← tagText
      expect (· = '>')
      pure (Token.tag none suffix)
    else if separates c then do
      advance 1
      pure (Token.tag none "!")
    else if ← hasHandle then do
      let handle ← tagHandle
      pure (Token.tag (some handle) (← tagText))
    else do
      advance 1
      pure (Token.tag (some "!") (← tagText))
  require endsWord
  return t

/-- Reads the name of an anchor or alias after its indicator. -/
def anchorName : Lex String := do
  advance 1
  let name ← takeWhile isNameChar
  if name.isEmpty then throw .badToken
  require fun c => separates c || "?:,]\x7d%@\x60".toList.contains c
  return String.ofList name

/-- Skips the rest of the line of a directive, which holds at most a comment. -/
def directiveEnd : Lex Unit := do
  skipWhile (· = ' ')
  if (← peek) = '#' then skipWhile fun c => !endsLine c
  require endsLine
  discard lineBreak

def directiveNumber : Lex Nat := do
  let ds ← takeWhile Char.isDigit
  if ds.isEmpty then throw .badToken
  if Numeral.digitLimit < ds.length then throw (.noSuchValue (Numeral.tooLong ds.length))
  return Json.digitsValue ds

/-- Reads a directive. -/
def directive : Lex Token := do
  advance 1
  let name ← takeWhile isNameChar
  if name.isEmpty then throw .badToken
  require endsWord
  let d ←
    match String.ofList name with
    | "YAML" => do
        skipWhile (· = ' ')
        let major ← directiveNumber
        expect (· = '.')
        discard directiveNumber
        require endsWord
        pure (Directive.version major)
    | "TAG" => do
        skipWhile (· = ' ')
        let handle ← tagHandle
        require (· = ' ')
        skipWhile (· = ' ')
        let taken ← tagText
        require endsWord
        pure (Directive.tagHandle handle taken)
    | _ => do
        skipWhile fun c => !endsLine c
        pure Directive.other
  directiveEnd
  return .directive d

end HostPrereqs.Yaml.Lex
