import HostPrereqs.Json.Reader

/-!
# Yaml — tags

A tag says what kind of value a node is (`Tag`).  A plain scalar without a tag gets one by its
form: the words for null and truth values, whole numbers in four bases or with colons, numbers
with a point, days and times; any other is a text (`Tag.ofPlain`).  The grammars of these forms
are written as readers that give what is left of the text (`Form`).
-/

namespace HostPrereqs.Yaml

/-- What kind of value a node is. -/
inductive Tag where
  | null
  | bool
  | int
  | float
  | binary
  | timestamp
  | omap
  | pairs
  | set
  | str
  | seq
  | map
  | merge
  | value
  | other
deriving DecidableEq, Repr

/-! ### Forms -/

/-- A form reads the front of a text in every possible way and gives what may be left. -/
abbrev Form := List Char → List (List Char)

namespace Form

/-- Nothing. -/
def nothing : Form := fun s => [s]

/-- One character. -/
def one (p : Char → Bool) : Form
  | c :: r => if p c then [r] else []
  | [] => []

def char (c : Char) : Form := one (· = c)

/-- One form after another. -/
def andThen (f g : Form) : Form := fun s => (f s).flatMap g

instance : HAppend Form Form Form := ⟨andThen⟩

/-- One form or another. -/
def either (f g : Form) : Form := fun s => f s ++ g s

/-- A form that may be left out. -/
def maybe (f : Form) : Form := either f nothing

/-- Characters of a class, as many as there are, at least a number of them.  What follows must not
start with one of the class. -/
def run (p : Char → Bool) (least : Nat) : Form := fun s =>
  if least ≤ (s.takeWhile p).length then [s.dropWhile p] else []

/-- Characters of a class, any number of them. -/
def many (p : Char → Bool) : Form := run p 0

/-- One or two digits. -/
def upToTwo (p : Char → Bool) : Form := either (one p ++ one p) (one p)

/-- A form several times, at least once. -/
def times (f : Form) : Nat → Form
  | 0 => f
  | n + 1 => either f (f ++ times f n)

/-- Whether a text as a whole has a form. -/
def holds (f : Form) (s : List Char) : Bool := (f s).any List.isEmpty

def sign : Form := maybe (one fun c => c = '+' || c = '-')

def digit : Form := one Char.isDigit

def isGroupedDigit (c : Char) : Bool := c.isDigit || c = '_'

def word (w : String) : Form := fun s => (Json.after? w.toList s).toList

def oneOf (ws : List String) : Form := fun s => ws.flatMap fun w => word w s

/-! ### The forms of plain scalars -/

/-- A sixtieth: a colon and a number below sixty. -/
def sixtieth : Form :=
  char ':' ++ either (one (fun c => '0' ≤ c && c ≤ '5') ++ digit) digit

/-- Sixtieths to the end of a text. -/
def sixtieths : Form := fun s => times sixtieth (s.count ':') s

def integer : Form :=
  sign ++
    (either (word "0b" ++ run (fun c => c = '0' || c = '1' || c = '_') 1)
    (either (char '0' ++ run (fun c => ('0' ≤ c && c ≤ '7') || c = '_') 1)
    (either (char '0')
    (either (one (fun c => '1' ≤ c && c ≤ '9') ++ many isGroupedDigit)
    (either (word "0x" ++ run (fun c => (Json.hexDigit? c).isSome || c = '_') 1)
      (one (fun c => '1' ≤ c && c ≤ '9') ++ many isGroupedDigit ++ sixtieths))))))

/-- A power of ten, whose sign has to be there. -/
def exponent : Form :=
  one (fun c => c = 'e' || c = 'E') ++ one (fun c => c = '+' || c = '-') ++ run Char.isDigit 1

def float : Form :=
  either (sign ++ digit ++ many isGroupedDigit ++ char '.' ++ many isGroupedDigit ++ maybe exponent)
  (either (char '.' ++ digit ++ many isGroupedDigit ++ maybe exponent)
  (either (sign ++ digit ++ many isGroupedDigit ++ sixtieths ++ char '.' ++ many isGroupedDigit)
  (either (sign ++ char '.' ++ oneOf ["inf", "Inf", "INF"])
    (char '.' ++ oneOf ["nan", "NaN", "NAN"]))))

def year : Form := digit ++ digit ++ digit ++ digit

def twoDigits : Form := digit ++ digit

def blanks : Form := many fun c => c = ' ' || c = '\t'

/-- A distance from universal time. -/
def zone : Form :=
  either (char 'Z')
    (one (fun c => c = '+' || c = '-') ++ upToTwo Char.isDigit ++ maybe (char ':' ++ twoDigits))

/-- A time of day after what separates it from the day. -/
def time : Form :=
  either (one fun c => c = 'T' || c = 't') (run (fun c => c = ' ' || c = '\t') 1)
    ++ upToTwo Char.isDigit ++ char ':' ++ twoDigits ++ char ':' ++ twoDigits
    ++ maybe (char '.' ++ many Char.isDigit) ++ maybe (blanks ++ zone)

/-- A day, with two digits for the month and the day if it stands alone. -/
def timestamp : Form :=
  either (year ++ char '-' ++ twoDigits ++ char '-' ++ twoDigits)
    (year ++ char '-' ++ upToTwo Char.isDigit ++ char '-' ++ upToTwo Char.isDigit ++ time)

end Form

namespace Tag

/-- The words for truth values. -/
def boolWords : List (String × Bool) :=
  [("yes", true), ("no", false), ("true", true), ("false", false), ("on", true), ("off", false)]

/-- The spellings of a word: in small letters, with a capital, or in capitals. -/
def spellings (w : String) : List String := [w, w.capitalize, w.map Char.toUpper]

/-- The characters of a text that its form is about: a line feed at the end does not count, unless
there is nothing else. -/
def formed (s : List Char) : List Char :=
  if 1 < s.length && s.getLast? = some '\n' then s.dropLast else s

/-- The tag of a plain scalar. -/
def ofPlain (text : String) : Tag :=
  let s := formed text.toList
  let text := String.ofList s
  if (boolWords.flatMap fun (w, _) => spellings w).contains text then .bool
  else if Form.float.holds s then .float
  else if Form.integer.holds s then .int
  else if text = "<<" then .merge
  else if text.isEmpty || text = "~" || (spellings "null").contains text then .null
  else if Form.timestamp.holds s then .timestamp
  else if text = "=" then .value
  else .str

/-- The start of the names of the usual tags. -/
def usual : String := "tag:yaml.org,2002:"

def names : List (String × Tag) :=
  [("null", .null), ("bool", .bool), ("int", .int), ("float", .float), ("binary", .binary),
    ("timestamp", .timestamp), ("omap", .omap), ("pairs", .pairs), ("set", .set), ("str", .str),
    ("seq", .seq), ("map", .map), ("merge", .merge), ("value", .value)]

/-- The tag of a full name. -/
def ofName (name : String) : Tag :=
  match Json.after? usual.toList name.toList with
  | some rest => (names.lookup (String.ofList rest)).getD .other
  | none => .other

end Tag

end HostPrereqs.Yaml
