import HostPrereqs.Text.Printable

/-!
# Text — literals

A literal shows a text between quotes: single ones, or double ones when the text has a single
quote and no double quote.  The quote, the backslash and the characters that cannot be printed
are escaped, so that a literal is one line of printable characters.
-/

namespace HostPrereqs.Text

/-- A number in hexadecimal, with zeros in front up to a width. -/
def hex (width n : Nat) : List Char :=
  let ds := Nat.toDigits 16 n
  List.replicate (width - ds.length) '0' ++ ds

/-- The quote that a literal stands between. -/
def quoteFor (s : List Char) : Char := if s.contains '\'' && !s.contains '"' then '"' else '\''

/-- An escape by code point, as short as the code point allows. -/
def escapeCode (n : Nat) : List Char :=
  if n < 0x100 then '\\' :: 'x' :: hex 2 n
  else if n < 0x10000 then '\\' :: 'u' :: hex 4 n
  else '\\' :: 'U' :: hex 8 n

/-- A character inside a literal. -/
def literalChar (quote c : Char) : List Char :=
  if c = quote || c = '\\' then ['\\', c]
  else if c = '\n' then ['\\', 'n']
  else if c = '\r' then ['\\', 'r']
  else if c = '\t' then ['\\', 't']
  else if isPrintable c then [c]
  else escapeCode c.toNat

/-- The literal of a text. -/
def literal (s : String) : String :=
  let quote := quoteFor s.toList
  String.ofList (quote :: (s.toList.flatMap (literalChar quote) ++ [quote]))

/-- The literal of a sequence of bytes: only basic characters stand for themselves. -/
def bytesLiteral (bs : List UInt8) : String :=
  let cs := bs.map fun b => Char.ofNat b.toNat
  let quote := quoteFor cs
  let shown (c : Char) : List Char :=
    if c.toNat < 0x7f then literalChar quote c else escapeCode c.toNat
  String.ofList ('b' :: quote :: (cs.flatMap shown ++ [quote]))

/-- Items between parentheses; a lone item is followed by a comma. -/
def tupleLiteral : List String → String
  | [x] => "(" ++ x ++ ",)"
  | xs  => "(" ++ ", ".intercalate xs ++ ")"

end HostPrereqs.Text
