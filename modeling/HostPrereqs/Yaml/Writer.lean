import HostPrereqs.Number.Shortest
import HostPrereqs.Text.Literal
import HostPrereqs.Value.Literal
import HostPrereqs.Yaml.Cursor
import HostPrereqs.Yaml.Tag

/-!
# Yaml — writing

Lists and mappings are written as blocks, and empty ones between brackets.  A text stands as it
is where it can be read back so, else between single quotes, and between double quotes where
these cannot hold it; beyond the basic characters everything is escaped.  Lines are broken at
blanks beyond eighty columns, except in keys.  A key that is empty, goes over several lines or is
long follows a question mark.

The writer keeps the column, and whether blanks or indentation were written last (`Pen`).
-/

namespace HostPrereqs.Yaml

/-- What was written, and where the writer stands. -/
structure Pen where
  text : String
  column : Nat
  /-- A blank or a line end was written last. -/
  afterBlank : Bool
  /-- Nothing but indentation and indicators is on the line. -/
  atIndent : Bool
  /-- The text needs a mark at its end. -/
  openEnded : Bool

namespace Pen

def start : Pen := ⟨"", 0, true, true, false⟩

/-- Columns after which lines are broken. -/
def width : Nat := 80

def step : Nat := 2

def put (p : Pen) (s : List Char) : Pen :=
  { p with text := p.text ++ String.ofList s, column := p.column + s.length }

def lineEnd (p : Pen) : Pen :=
  { p with text := p.text ++ "\n", column := 0, afterBlank := true, atIndent := true }

/-- A line end that is not a line feed. -/
def lineEndAs (p : Pen) (c : Char) : Pen :=
  { p with text := p.text.push c, column := 0, afterBlank := true, atIndent := true }

/-- Starts a line at an indentation, unless that is where the pen stands. -/
def newLine (p : Pen) (indent : Nat) : Pen :=
  let p :=
    if !p.atIndent || indent < p.column || (p.column = indent && !p.afterBlank) then p.lineEnd
    else p
  if p.column < indent then
    { p.put (List.replicate (indent - p.column) ' ') with afterBlank := true }
  else p

/-- Writes an indicator, after a blank if it needs one. -/
def indicator (p : Pen) (s : String) (needsBlank : Bool) (blank : Bool) (indents : Bool) : Pen :=
  let p' := p.put (if p.afterBlank || !needsBlank then s.toList else ' ' :: s.toList)
  { p' with afterBlank := blank, atIndent := p.atIndent && indents, openEnded := false }

end Pen

/-! ### Analysis -/

/-- What a text allows. -/
structure Analysis where
  empty : Bool
  multiline : Bool
  plain : Bool
  singleQuoted : Bool
deriving DecidableEq, Repr

/-- Line ends that a text may keep. -/
def isKeptBreak (c : Char) : Bool := isBreak c && c != '\r'

/-- Indicators that start something else than a plain scalar. -/
def startsOther (c : Char) : Bool := "#,[]\x7b\x7d&*!|>'\"%@\x60".toList.contains c

/-- A plain scalar cannot hold what is here: `before` is the character before, if there is one. -/
def breaksPlain (before : Option Char) (c : Char) (after : Char) : Bool :=
  match before with
  | none => startsOther c || ((c = '?' || c = ':' || c = '-') && separates after)
  | some b => (c = ':' && separates after) || (c = '#' && separates b)

/-- Whether any place of a text breaks plain scalars. -/
def hasIndicator (before : Option Char) : List Char → Bool
  | [] => false
  | c :: r => breaksPlain before c (r.headD '\x00') || hasIndicator (some c) r

/-- Whether some character is followed by one of another kind. -/
def hasPair (p q : Char → Bool) : List Char → Bool
  | a :: b :: r => (p a && q b) || hasPair p q (b :: r)
  | _ => false

def isSpecial (c : Char) : Bool := !(c = '\n' || (32 ≤ c.toNat && c.toNat ≤ 126))

def isSpace (c : Char) : Bool := c = ' '

def isMark (s : List Char) : Bool :=
  let start := s.take 3
  start = "---".toList || start = "...".toList

def analyse (s : List Char) : Analysis :=
  if s.isEmpty then ⟨true, false, true, true⟩
  else
    let blankEnds := [s.head?, s.getLast?].any fun c => c.any fun c => isSpace c || isKeptBreak c
    let multiline := s.any isKeptBreak
    let breakSpace := hasPair isKeptBreak isSpace s
    let spaceBreak := hasPair isSpace isKeptBreak s
    let special := s.any isSpecial
    { empty := false
      multiline
      plain := !(blankEnds || multiline || breakSpace || spaceBreak || special || isMark s
        || hasIndicator none s)
      singleQuoted := !(breakSpace || spaceBreak || special) }

/-! ### Scalars -/

/-- Writes line ends inside single quotes, of which the first line feed counts twice. -/
def writeBreaks (p : Pen) (breaks : List Char) : Pen :=
  let p := if breaks.head? = some '\n' then p.lineEnd else p
  breaks.foldl (fun p c => if c = '\n' then p.lineEnd else p.lineEndAs c) p

/-- Writes a text of words, where a line may be broken at a lone blank between two of them.
Between quotes a single quote is written twice.  `first` is true at the beginning. -/
def writeWords (quoted : Bool) (indent : Nat) (split : Bool) (first : Bool) (p : Pen)
    (s : List Char) : Pen :=
  match s with
  | [] => p
  | c :: r =>
      if c = ' ' then
        let more := r.dropWhile isSpace
        let run := ' ' :: r.takeWhile isSpace
        let breaks := run.length = 1 && Pen.width < p.column && split && !first && !more.isEmpty
        writeWords quoted indent split false (if breaks then p.newLine indent else p.put run) more
      else if isKeptBreak c then
        let breaks := c :: r.takeWhile isKeptBreak
        writeWords quoted indent split false ((writeBreaks p breaks).newLine indent)
          (r.dropWhile isKeptBreak)
      else
        let written := if quoted && c = '\'' then ['\'', '\''] else [c]
        writeWords quoted indent split false (p.put written) r
termination_by s.length
decreasing_by
  · have := Json.length_dropWhile_le isSpace r
    simp only [List.length_cons]
    omega
  · have := Json.length_dropWhile_le isKeptBreak r
    simp only [List.length_cons]
    omega
  · simp

/-- Writes a plain scalar after a blank. -/
def writePlain (indent : Nat) (split : Bool) (p : Pen) (s : List Char) : Pen :=
  let p := if p.afterBlank then p else p.put [' ']
  { writeWords false indent split true { p with atIndent := false } s with
    afterBlank := false
    atIndent := false }

/-- The letter that a character is escaped by. -/
def escapeLetter? : Char → Option Char
  | '\x00'   => some '0'
  | '\x07'   => some 'a'
  | '\x08'   => some 'b'
  | '\t'     => some 't'
  | '\n'     => some 'n'
  | '\x0b'   => some 'v'
  | '\x0c'   => some 'f'
  | '\r'     => some 'r'
  | '\x1b'   => some 'e'
  | '"'      => some '"'
  | '\\'     => some '\\'
  | '\x85'   => some 'N'
  | '\xa0'   => some '_'
  | '\u2028' => some 'L'
  | '\u2029' => some 'P'
  | _        => none

def capitalHex (width n : Nat) : List Char := (Text.hex width n).map Char.toUpper

/-- A character between double quotes. -/
def doubleChar (c : Char) : List Char :=
  match escapeLetter? c with
  | some e => ['\\', e]
  | none =>
      let n := c.toNat
      if 32 ≤ n && n ≤ 126 then [c]
      else if n ≤ 0xff then '\\' :: 'x' :: capitalHex 2 n
      else if n ≤ 0xffff then '\\' :: 'u' :: capitalHex 4 n
      else '\\' :: 'U' :: capitalHex 8 n

/-- Ends a line between double quotes with a backslash; one more stands before a blank at the
start of the next line. -/
def breakDouble (indent : Nat) (p : Pen) (next : Char) : Pen :=
  let p := { (p.put ['\\']).newLine indent with afterBlank := false, atIndent := false }
  if next = ' ' then p.put ['\\'] else p

/-- Writes what stands between double quotes.  A line may be broken before a blank and after an
escape.  `first` is true at the beginning, and `fresh` after an escape. -/
def writeDouble (indent : Nat) (split first fresh : Bool) (p : Pen) : List Char → Pen
  | [] => p
  | c :: r =>
      let written := doubleChar c
      let mayBreak := !first && !r.isEmpty && split
      if written.length = 1 then
        let breaks := mayBreak && (c = ' ' || fresh) && Pen.width < p.column
        let p := if breaks then breakDouble indent p c else p
        writeDouble indent split false false (p.put written) r
      else
        let p := p.put written
        let breaks := mayBreak && Pen.width + 1 < p.column
        let p := if breaks then breakDouble indent p (r.headD 'x') else p
        writeDouble indent split false true p r

/-- Where a scalar stands. -/
structure Context where
  root : Bool
  simpleKey : Bool

/-- Writes a scalar.  `bare` says that its text has its own meaning without quotes. -/
def writeScalar (ctx : Context) (indent : Nat) (text : String) (bare : Bool) (p : Pen) : Pen :=
  let s := text.toList
  let a := analyse s
  let split := !ctx.simpleKey
  if bare && a.plain && !(ctx.simpleKey && (a.empty || a.multiline)) then
    let p := writePlain indent split p s
    if ctx.root then { p with openEnded := true } else p
  else if a.singleQuoted && !(ctx.simpleKey && a.multiline) then
    (writeWords true indent split true (p.indicator "'" true false false) s).indicator
      "'" false false false
  else
    (writeDouble indent split true false (p.indicator "\"" true false false) s).indicator
      "\"" false false false

/-- The text of a number with a point. -/
def floatText (x : Double) : String :=
  if x.isNaN then ".nan"
  else if !x.isFinite then if x.isNegative then "-.inf" else ".inf"
  else
    let s := x.text.toList
    if s.contains '.' then x.text
    else
      let digits := s.takeWhile (· ≠ 'e')
      String.ofList (digits ++ ".0".toList ++ s.drop digits.length)

/-- Whether a text without quotes is read as a text. -/
def readsAsText (s : String) : Bool := Tag.ofPlain s = .str

/-- The text of a value without parts, and whether it has its own meaning without quotes. -/
def scalarOf : Value → String × Bool
  | .null => ("null", true)
  | .bool b => (if b then "true" else "false", true)
  | .int i => (toString i, true)
  | .float x => (floatText x, true)
  | v => (v.text, readsAsText v.text)

/-- Keys of this length and more follow a question mark, where their tag counts too. -/
def keyLimit : Nat := 128

/-- The length of the tag of a text. -/
def tagLength : Nat := 5

/-- Whether a key stands on one line with its value. -/
def isSimpleKey (text : String) : Bool :=
  let a := analyse text.toList
  text.length + tagLength < keyLimit && !a.empty && !a.multiline

/-! ### Blocks -/

/-- The indentation inside a block that stands at an indentation, if it stands in any. -/
def inner (indent : Option Nat) (indentless : Bool) : Nat :=
  match indent with
  | none => 0
  | some n => if indentless then n else n + Pen.step

/-- The indentation of the further lines of a scalar. -/
def scalarIndent (indent : Option Nat) : Nat := indent.getD 0 + Pen.step

mutual

/-- Writes a value. -/
def writeValue (root inMapping : Bool) (indent : Option Nat) (v : Value) (p : Pen) : Pen :=
  match v with
  | .list [] | .tuple [] => (p.indicator "[" true true false).indicator "]" false false false
  | .map [] => (p.indicator "\x7b" true true false).indicator "\x7d" false false false
  | .list xs => writeItems (inner indent (inMapping && !p.atIndent)) xs p
  | .tuple xs => writeItems (inner indent (inMapping && !p.atIndent)) xs p
  | .map es => writePairs (inner indent false) es p
  | v =>
      let (text, bare) := scalarOf v
      writeScalar ⟨root, false⟩ (scalarIndent indent) text bare p

def writeItems (indent : Nat) (xs : List Value) (p : Pen) : Pen :=
  match xs with
  | [] => p
  | x :: xs =>
      let p := (p.newLine indent).indicator "-" true false true
      writeItems indent xs (writeValue false false (some indent) x p)

def writePairs (indent : Nat) (es : List (Value × Value)) (p : Pen) : Pen :=
  match es with
  | [] => p
  | (k, v) :: es =>
      let (text, bare) := scalarOf k
      let p := p.newLine indent
      let p :=
        if isSimpleKey text then
          let p := writeScalar ⟨false, true⟩ (scalarIndent (some indent)) text bare p
          p.indicator ":" false false false
        else
          let p := p.indicator "?" true false true
          let p := writeScalar ⟨false, false⟩ (scalarIndent (some indent)) text bare p
          (p.newLine indent).indicator ":" true false true
      writePairs indent es (writeValue false true (some indent) v p)

end

/-- The text of a value. -/
def write (v : Value) : String :=
  let p := (writeValue true false none v .start).newLine 0
  if p.openEnded then ((p.indicator "..." true false false).newLine 0).text else p.text

end HostPrereqs.Yaml
