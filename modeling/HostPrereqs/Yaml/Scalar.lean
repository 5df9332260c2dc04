import HostPrereqs.Number.Numeral
import HostPrereqs.Text.Casing
import HostPrereqs.Value.Literal
import HostPrereqs.Yaml.Fault
import HostPrereqs.Yaml.Tag

/-!
# Yaml — the values of scalars

What the text of a scalar means under its tag.  Numbers may have underscores between their
digits; the form of a whole number says its base, and colons make it a number of sixtieths.
-/

namespace HostPrereqs.Yaml.Scalar

/-! ### Numbers -/

def withoutUnderscores (s : List Char) : List Char := s.filter (· ≠ '_')

/-- Takes a sign off a text; true if it is negative. -/
def takeSign : List Char → Bool × List Char
  | '-' :: r => (true, r)
  | '+' :: r => (false, r)
  | r => (false, r)

/-- The natural that digits of a base denote. -/
def natOf? (base : Nat) (s : List Char) : Option Nat := do
  if s.isEmpty then none
  let digits ← s.mapM Json.hexDigit?
  if digits.any (base ≤ ·) then none
  return digits.foldl (fun n d => n * base + d) 0

/-- The letter that a numeral of a base may start with after a zero. -/
def baseLetter (base : Nat) : Char := if base = 2 then 'b' else if base = 8 then 'o' else 'x'

/-- Takes the mark of a base off a numeral. -/
def dropBaseMark (base : Nat) (s : List Char) : List Char :=
  match s with
  | '0' :: c :: r => if base ≠ 10 && c.toLower = baseLetter base then r else s
  | _ => s

/-- What is said of a text that is no numeral of a base.  A long text is not shown as a whole. -/
def noNumeral (base : Nat) (s : List Char) : String :=
  let shown := String.ofList ((Text.literal (String.ofList s)).toList.take 200)
  s!"invalid literal for int() with base {base}: {shown}"

/-- Reads a numeral of a base, with spaces around it and a sign.  The digits of a decimal numeral
are counted first. -/
def numeral (base : Nat) (s : List Char) : Except Fault Int := do
  let (negative, digits) := takeSign (Numeral.plain s)
  let count := (digits.takeWhile Char.isDigit).length
  if base = 10 && Numeral.digitLimit < count then throw (.noSuchValue (Numeral.tooLong count))
  match natOf? base (dropBaseMark base digits) with
  | none => throw (.noSuchValue (noNumeral base s))
  | some n => return if negative then -n else n

/-- Cuts a text at its colons. -/
def splitColons : List Char → List (List Char)
  | [] => [[]]
  | c :: s =>
      if c = ':' then [] :: splitColons s
      else
        match splitColons s with
        | first :: more => (c :: first) :: more
        | [] => [[c]]

/-- Reads a whole number without its sign. -/
def magnitude (s : List Char) : Except Fault Int :=
  match s with
  | [] => .error .noDigits
  | ['0'] => .ok 0
  | '0' :: 'b' :: r => numeral 2 r
  | '0' :: 'x' :: r => numeral 16 r
  | '0' :: _ => numeral 8 s
  | _ =>
      if s.contains ':' then do
        let parts ← (splitColons s).mapM (numeral 10)
        return parts.foldl (fun n part => n * 60 + part) 0
      else numeral 10 s

def int (text : String) : Except Fault Int := do
  let s := withoutUnderscores text.toList
  if s.isEmpty then throw .noDigits
  let (negative, digits) := takeSign s
  let n ← magnitude digits
  return if negative then -n else n

/-- The words for numbers beyond all others and for what is no number. -/
def floatWords : List (String × Double) :=
  [("inf", .infinity false), ("infinity", .infinity false), ("nan", .nan)]

/-- Reads a decimal numeral without its sign. -/
def decimal? (negative : Bool) (s : List Char) : Option Double := do
  let (whole, afterWhole) := Json.spanDigits s
  let (frac, afterPoint) := match afterWhole with
    | '.' :: r => Json.spanDigits r
    | r => ([], r)
  if whole.isEmpty && frac.isEmpty then none
  let (power, rest) := Json.exponent afterPoint
  if !rest.isEmpty then none
  return .ofDecimal negative (Json.digitsValue (whole ++ frac)) (power.getD 0 - frac.length)

/-- Reads a number with a point, with spaces around it and a sign. -/
def decimal (s : List Char) : Except Fault Double := do
  let (negative, digits) := takeSign (Numeral.plain s)
  match floatWords.lookup (String.ofList (digits.map Char.toLower)), decimal? negative digits with
  | some x, _ => return if negative then x.neg else x
  | none, some x => return x
  | none, none =>
      throw (.noSuchValue s!"could not convert string to float: {Text.literal (String.ofList s)}")

/-- The double nearest to a natural. -/
def ofNat (n : Nat) : Double := .ofRatio false n 1

/-- The number of sixtieths, the last part counting once.  What the first part counts must not be
beyond all numbers. -/
def sixtieths (parts : List Double) : Except Fault Double := do
  if !(ofNat (Nat.pow 60 (parts.length - 1))).isFinite then throw .tooBig
  return (parts.reverse.foldl
    (fun (sum, base) part => (sum.add (part.mul (ofNat base)), base * 60)) (ofNat 0, 1)).1

def float (text : String) : Except Fault Double := do
  let s := (Text.lower (String.ofList (withoutUnderscores text.toList))).toList
  if s.isEmpty then throw .noDigits
  let (negative, digits) := takeSign s
  let x ←
    if digits = ".inf".toList then pure (Double.infinity false)
    else if digits = ".nan".toList then return .nan
    else if digits.contains ':' then do sixtieths (← (splitColons digits).mapM decimal)
    else decimal digits
  return if negative then x.neg else x

/-! ### Days and times -/

def isLeapYear (y : Nat) : Bool := y % 4 = 0 && (y % 100 ≠ 0 || y % 400 = 0)

def daysInMonth (y m : Nat) : Nat :=
  if m = 2 then if isLeapYear y then 29 else 28
  else if [4, 6, 9, 11].contains m then 30
  else 31

/-- Makes sure that a day exists. -/
def checkDate (d : Date) : Except Fault Unit := do
  if d.year = 0 then throw (.noSuchValue "year 0 is out of range")
  if d.month = 0 || 12 < d.month then throw (.noSuchValue "month must be in 1..12")
  if d.day = 0 || daysInMonth d.year d.month < d.day then
    throw (.noSuchValue "day is out of range for month")

/-- Makes sure that a time of day exists. -/
def checkTime (m : Moment) : Except Fault Unit := do
  checkDate m.date
  if 23 < m.hour then throw (.noSuchValue "hour must be in 0..23")
  if 59 < m.minute then throw (.noSuchValue "minute must be in 0..59")
  if 59 < m.second then throw (.noSuchValue "second must be in 0..59")

/-- One or two digits, and what is left. -/
def shortNumber? : List Char → Option (Nat × List Char)
  | a :: b :: r =>
      if a.isDigit && b.isDigit then some (Json.digitsValue [a, b], r)
      else if a.isDigit then some (Json.digitsValue [a], b :: r)
      else none
  | [a] => if a.isDigit then some (Json.digitsValue [a], []) else none
  | [] => none

/-- Exactly two digits, and what is left. -/
def twoDigits? : List Char → Option (Nat × List Char)
  | a :: b :: r => if a.isDigit && b.isDigit then some (Json.digitsValue [a, b], r) else none
  | _ => none

def expect? (c : Char) : List Char → Option (List Char)
  | d :: r => if c = d then some r else none
  | [] => none

/-- A day, and what is left. -/
def date? (s : List Char) : Option (Date × List Char) := do
  let year := s.take 4
  if year.length < 4 || !year.all Char.isDigit then none
  let r ← expect? '-' (s.drop 4)
  let (month, r) ← shortNumber? r
  let r ← expect? '-' r
  let (day, r) ← shortNumber? r
  return (⟨Json.digitsValue year, month, day⟩, r)

/-- The first six digits of a fraction, as millionths. -/
def microseconds (ds : List Char) : Nat :=
  let ds := ds.take 6
  Json.digitsValue ds * Nat.pow 10 (6 - ds.length)

/-- A distance from universal time, in seconds, to the end of the text. -/
def zone? (s : List Char) : Option (Option Int) :=
  match s.dropWhile fun c => c = ' ' || c = '\t' with
  | [] => if s.isEmpty then some none else none
  | ['Z'] => some (some 0)
  | c :: r =>
      if c = '+' || c = '-' then do
        let (hours, r) ← shortNumber? r
        let minutes ← match r with
          | [] => some 0
          | ':' :: r => do
              let (minutes, r) ← twoDigits? r
              if r.isEmpty then some minutes else none
          | _ => none
        let seconds : Int := hours * 3600 + minutes * 60
        return some (if c = '-' then -seconds else seconds)
      else none

/-- A day, or a day and a time. -/
def timestamp? (s : List Char) : Option (Date × Option Moment) := do
  let (date, r) ← date? s
  if r.isEmpty then return (date, none)
  let r ← match r with
    | c :: r =>
        if c = 'T' || c = 't' then some r
        else if c = ' ' || c = '\t' then some (r.dropWhile fun c => c = ' ' || c = '\t')
        else none
    | [] => none
  let (hour, r) ← shortNumber? r
  let r ← expect? ':' r
  let (minute, r) ← twoDigits? r
  let r ← expect? ':' r
  let (second, r) ← twoDigits? r
  let (fraction, r) := match r with
    | '.' :: r => Json.spanDigits r
    | r => ([], r)
  let offset ← zone? r
  return (date, some ⟨date, hour, minute, second, microseconds fraction, offset⟩)

/-- The seconds of a day. -/
def daySeconds : Int := 86400

/-- What is said of an offset of a day or more. -/
def hugeOffset (seconds : Int) : String :=
  "offset must be a timedelta strictly between -timedelta(hours=24) and timedelta(hours=24), "
    ++ s!"not {Moment.deltaLiteral seconds}."

def timestamp (text : String) : Except Fault Value := do
  match timestamp? (Tag.formed text.toList) with
  | none => throw .noDate
  | some (d, none) =>
      checkDate d
      return .date d
  | some (_, some m) =>
      match m.offset with
      | some o =>
          if o ≤ -daySeconds || daySeconds ≤ o then
            throw (.noSuchValue (hugeOffset o))
      | none => pure ()
      checkTime m
      return .moment m

/-! ### Bytes -/

/-- The number that a character stands for in the base of 64. -/
def sextet? (c : Char) : Option Nat :=
  if 'A' ≤ c ∧ c ≤ 'Z' then some (c.toNat - 65)
  else if 'a' ≤ c ∧ c ≤ 'z' then some (c.toNat - 71)
  else if c.isDigit then some (c.toNat + 4)
  else if c = '+' then some 62
  else if c = '/' then some 63
  else none

/-- Decodes bytes.  `place` characters of four were read, `left` is what they left over, and
`pads` equals signs followed them.  Other characters do not count. -/
def decodeBytes (place left pads : Nat) : List Char → Option (List UInt8)
  | [] => if place = 0 then some [] else none
  | c :: s =>
      if c = '=' then
        if 2 ≤ place && 4 ≤ place + (pads + 1) then some []
        else decodeBytes place left (if 2 ≤ place then pads + 1 else pads) s
      else
        match sextet? c with
        | none => decodeBytes place left pads s
        | some n =>
            match place with
            | 0 => decodeBytes 1 n 0 s
            | 1 => (decodeBytes 2 (n % 16) 0 s).map (UInt8.ofNat (left * 4 + n / 16) :: ·)
            | 2 => (decodeBytes 3 (n % 4) 0 s).map (UInt8.ofNat (left * 16 + n / 4) :: ·)
            | _ => (decodeBytes 0 0 0 s).map (UInt8.ofNat (left * 64 + n) :: ·)

def binary (text : String) : Except Fault (List UInt8) :=
  if text.toList.all fun c => c.toNat < 128 then
    match decodeBytes 0 0 0 text.toList with
    | some bs => .ok bs
    | none => .error .badValue
  else .error .badValue

/-! ### Values -/

/-- The value of a scalar under its tag. -/
def value (tag : Tag) (text : String) : Except Fault Value :=
  match tag with
  | .null => .ok .null
  | .bool =>
      match Tag.boolWords.lookup (text.map Char.toLower) with
      | some b => .ok (.bool b)
      | none => .error .noTruthValue
  | .int => (int text).map .int
  | .float => (float text).map .float
  | .timestamp => timestamp text
  | .binary => (binary text).map .bytes
  | .str => .ok (.str text)
  | _ => .error .badValue

end HostPrereqs.Yaml.Scalar
