import HostPrereqs.Number.Numeral
import HostPrereqs.Number.Shortest
import HostPrereqs.Value.Basic

/-!
# Value — how data is shown

Messages show data as literals (`Value.literal`): texts between quotes, lists between square
brackets, mappings between braces.  The text of data (`Value.text`) is the literal too, except
that a text stands for itself, days and times are written with numbers alone, and conditions
as words.  A number that is too long is not written, so that there is no text of data that have
one (`Value.isWritable`).
-/

namespace HostPrereqs

/-- A number with zeros in front up to a width. -/
def padded (width n : Nat) : String :=
  let ds := Nat.toDigits 10 n
  String.ofList (List.replicate (width - ds.length) '0' ++ ds)

namespace Date

def literal (d : Date) : String := s!"datetime.date({d.year}, {d.month}, {d.day})"

def text (d : Date) : String := s!"{padded 4 d.year}-{padded 2 d.month}-{padded 2 d.day}"

end Date

namespace Moment

/-- A distance of time in days, which may be negative, and seconds of a day. -/
def deltaLiteral (seconds : Int) : String :=
  let days := seconds.fdiv 86400
  let rest := seconds.fmod 86400
  let parts := (if days = 0 then [] else [s!"days={days}"])
    ++ (if rest = 0 then [] else [s!"seconds={rest}"])
  "datetime.timedelta(" ++ ", ".intercalate parts ++ ")"

def zoneLiteral (offset : Int) : String :=
  if offset = 0 then "datetime.timezone.utc" else s!"datetime.timezone({deltaLiteral offset})"

def literal (m : Moment) : String :=
  let tail := if m.microsecond ≠ 0 then [m.second, m.microsecond]
    else if m.second ≠ 0 then [m.second] else []
  let numbers := [m.date.year, m.date.month, m.date.day, m.hour, m.minute] ++ tail
  let zone := match m.offset with
    | some o => [s!"tzinfo={zoneLiteral o}"]
    | none   => []
  "datetime.datetime(" ++ ", ".intercalate (numbers.map toString ++ zone) ++ ")"

def offsetText (offset : Int) : String :=
  let n := offset.natAbs
  let seconds := if n % 60 = 0 then "" else ":" ++ padded 2 (n % 60)
  (if offset < 0 then "-" else "+") ++ padded 2 (n / 3600) ++ ":" ++ padded 2 (n / 60 % 60)
    ++ seconds

def text (m : Moment) : String :=
  let fraction := if m.microsecond = 0 then "" else "." ++ padded 6 m.microsecond
  let zone := match m.offset with
    | some o => offsetText o
    | none   => ""
  s!"{m.date.text} {padded 2 m.hour}:{padded 2 m.minute}:{padded 2 m.second}{fraction}{zone}"

end Moment

namespace Value

def optionLiteral : Option String → String
  | none   => "None"
  | some s => Text.literal s

/-- Items between braces. -/
def braced (items : List String) : String := "\x7b" ++ ", ".intercalate items ++ "\x7d"

/-- The fields of an entry with their names. -/
def fieldLiterals (condition prereqs phase relation : String) (error : Option String) :
    List String :=
  ["condition=" ++ condition, "prereqs=" ++ prereqs, "phase=" ++ Text.literal phase,
    "relation=" ++ Text.literal relation, "error=" ++ optionLiteral error]

mutual

/-- Data as a literal. -/
def literal : Value → String
  | null        => "None"
  | bool b      => Condition.boolLiteral b
  | int i       => toString i
  | float x     => x.text
  | str s       => Text.literal s
  | bytes bs    => Text.bytesLiteral bs
  | date d      => d.literal
  | moment m    => m.literal
  | list xs     => "[" ++ ", ".intercalate (literals xs) ++ "]"
  | tuple xs    => Text.tupleLiteral (literals xs)
  | set xs      => if xs.isEmpty then "set()" else braced (literals xs)
  | map es      => braced (pairLiterals es)
  | condition c => c.literal
  | entry e     => "ExpressionEntry(" ++ ", ".intercalate (entryLiterals e) ++ ")"

def literals : List Value → List String
  | []      => []
  | x :: xs => literal x :: literals xs

def pairLiterals : List (Value × Value) → List String
  | []           => []
  | (k, v) :: es => (literal k ++ ": " ++ literal v) :: pairLiterals es

def phraseLiteral : Phrase Value → String
  | .text s   => Text.literal s
  | .words xs => "[" ++ ", ".intercalate (literals xs) ++ "]"

def namedLiterals : List (String × Value) → List String
  | []           => []
  | (k, v) :: es => (Text.literal k ++ ": " ++ literal v) :: namedLiterals es

def fragmentLiteral : Option (List (String × Value)) → String
  | none    => "None"
  | some es => braced (namedLiterals es)

def entryLiterals : EntryOf Value → List String
  | ⟨phrase, prereqs, phase, relation, error⟩ =>
      fieldLiterals (phraseLiteral phrase) (fragmentLiteral prereqs) phase relation error

end

/-- Data as text. -/
def text : Value → String
  | str s       => s
  | date d      => d.text
  | moment m    => m.text
  | condition c => c.text
  | entry e     => " ".intercalate (entryLiterals e)
  | v           => literal v

instance : ToString Value := ⟨text⟩

/-! ### Numbers that are too long -/

mutual

/-- Whether all numbers in data can be written. -/
def isWritable : Value → Bool
  | int i                         => Numeral.Fits i.natAbs
  | list xs | tuple xs | set xs   => areWritable xs
  | map es                        => pairsWritable es
  | entry ⟨phrase, prereqs, _, _, _⟩ => phraseWritable phrase && fragmentWritable prereqs
  | _                             => true

def areWritable : List Value → Bool
  | []      => true
  | x :: xs => isWritable x && areWritable xs

def pairsWritable : List (Value × Value) → Bool
  | []           => true
  | (k, v) :: es => isWritable k && isWritable v && pairsWritable es

def phraseWritable : Phrase Value → Bool
  | .text _   => true
  | .words xs => areWritable xs

def namedWritable : List (String × Value) → Bool
  | []           => true
  | (_, v) :: es => isWritable v && namedWritable es

def fragmentWritable : Option (List (String × Value)) → Bool
  | none    => true
  | some es => namedWritable es

end

end Value

end HostPrereqs
