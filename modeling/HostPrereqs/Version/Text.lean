import HostPrereqs.Text.Blank
import HostPrereqs.Version.Basic

/-!
# Version — the text of a version

`Version.text` writes a version in its normal form: no leading `v` and no leading zeros, the
short letters for a pre-release, points before `post` and `dev`, and lower-case local words
joined by points.

`Version.ofChars?` reads every spelling of a version: a leading `v`, the long and short names of
each suffix with or without a separator, a number left out (which means zero), and `-1` for a
post-release.
-/

namespace HostPrereqs

namespace Version

/-! ### Writing -/

def digits (n : Nat) : List Char := Nat.toDigits 10 n

/-- Writes numbers with points between them. -/
def dotted : List Nat → List Char
  | []          => []
  | [n]         => digits n
  | n :: m :: r => digits n ++ '.' :: dotted (m :: r)

def segmentText : LocalSegment → List Char
  | .word l   => l.chars
  | .number n => digits n

/-- Writes local segments with points between them. -/
def localText : List LocalSegment → List Char
  | []          => []
  | [s]         => segmentText s
  | s :: t :: r => segmentText s ++ '.' :: localText (t :: r)

/-- The normal form of a version, as characters. -/
def toChars (v : Version) : List Char :=
  (if v.epoch = 0 then [] else digits v.epoch ++ ['!'])
    ++ dotted v.release
    ++ (match v.pre with
        | some (phase, n) => phase.letters.toList ++ digits n
        | none => [])
    ++ (match v.post with
        | some n => ".post".toList ++ digits n
        | none => [])
    ++ (match v.dev with
        | some n => ".dev".toList ++ digits n
        | none => [])
    ++ (if v.localPart.isEmpty then [] else '+' :: localText v.localPart)

/-- The normal form of a version. -/
def text (v : Version) : String := String.ofList v.toChars

instance : ToString Version := ⟨text⟩

/-! ### Reading -/

/-- The natural that decimal digits denote. -/
def numeral (ds : List Char) : Nat := ds.foldl (fun n d => 10 * n + (d.toNat - '0'.toNat)) 0

/-- What follows the word `w` at the start of a text. -/
def after : List Char → List Char → Option (List Char)
  | [], s => some s
  | _ :: _, [] => none
  | c :: w, d :: s => if c = d then after w s else none

/-- The first of the named words that starts the text, by what it stands for, and the rest. -/
def afterOneOf {α : Type} : List (String × α) → List Char → Option (α × List Char)
  | [], _ => none
  | (w, a) :: names, s =>
      match after w.toList s with
      | some rest => some (a, rest)
      | none => afterOneOf names s

def isSeparator (c : Char) : Bool := c = '-' || c = '_' || c = '.'

/-- Skips one separator, if there is one. -/
def skipSeparator : List Char → List Char
  | c :: s => if isSeparator c then s else c :: s
  | []     => []

/-- Reads a suffix: one of the names and a number, each after at most one separator.  A number
left out is zero. -/
def readSuffix {α : Type} (names : List (String × α)) (s : List Char) :
    Option ((α × Nat) × List Char) :=
  (afterOneOf names (skipSeparator s)).map fun (a, rest) =>
    let rest := skipSeparator rest
    ((a, numeral (rest.takeWhile Char.isDigit)), rest.dropWhile Char.isDigit)

/-- The names of the pre-release phases, a longer one before its beginnings. -/
def phaseNames : List (String × PrePhase) :=
  [("alpha", .alpha), ("a", .alpha), ("beta", .beta), ("b", .beta), ("preview", .candidate),
    ("pre", .candidate), ("c", .candidate), ("rc", .candidate)]

def postNames : List (String × Unit) := [("post", ()), ("rev", ()), ("r", ())]

def devNames : List (String × Unit) := [("dev", ())]

/-- Reads a pre-release, if there is one. -/
def readPre (s : List Char) : Option (PrePhase × Nat) × List Char :=
  match readSuffix phaseNames s with
  | some (pre, rest) => (some pre, rest)
  | none => (none, s)

/-- Reads a post-release, if there is one: a hyphen and a number, or a named suffix. -/
def readPost (s : List Char) : Option Nat × List Char :=
  let named :=
    match readSuffix postNames s with
    | some ((_, n), rest) => (some n, rest)
    | none => (none, s)
  match s with
  | '-' :: d :: rest =>
      if d.isDigit then
        (some (numeral (d :: rest.takeWhile Char.isDigit)), rest.dropWhile Char.isDigit)
      else named
  | _ => named

/-- Reads a development release, if there is one. -/
def readDev (s : List Char) : Option Nat × List Char :=
  match readSuffix devNames s with
  | some ((_, n), rest) => (some n, rest)
  | none => (none, s)

/-- Reads the rest of a release whose last number starts with `n`: digits extend it, and a point
before a digit starts another.  `before` holds the earlier numbers, the last one first. -/
def readRelease (before : List Nat) (n : Nat) : List Char → List Nat × List Char
  | '.' :: d :: rest =>
      if d.isDigit then readRelease (n :: before) (numeral [d]) rest
      else ((n :: before).reverse, '.' :: d :: rest)
  | d :: rest =>
      if d.isDigit then readRelease before (10 * n + numeral [d]) rest
      else ((n :: before).reverse, d :: rest)
  | [] => ((n :: before).reverse, [])

theorem readRelease_ne_nil (before : List Nat) (n : Nat) (s : List Char) :
    (readRelease before n s).1 ≠ [] := by
  fun_induction readRelease before n s <;> simp_all

/-- Cuts a text at its separators. -/
def segments : List Char → List (List Char)
  | [] => [[]]
  | c :: s =>
      if isSeparator c then [] :: segments s
      else
        match segments s with
        | first :: more => (c :: first) :: more
        | [] => [[c]]

/-- A segment of digits is a number, and one with a letter a word. -/
def readSegment (s : List Char) : Option LocalSegment :=
  if s.isEmpty then none
  else if hd : s.all Char.isDigit = false then
    if ha : s.all isLabelChar = true then some (.word ⟨s, ha, hd⟩) else none
  else some (.number (numeral s))

/-- Reads the local part, which goes to the end of the text. -/
def readLocal : List Char → Option (List LocalSegment)
  | []       => some []
  | '+' :: s => (segments s).mapM readSegment
  | _        => none

/-- Reads the digits at the start of a text, of which there has to be one. -/
def readDigits (s : List Char) : Option (Nat × List Char) :=
  match s.takeWhile Char.isDigit with
  | [] => none
  | ds => some (numeral ds, s.dropWhile Char.isDigit)

/-- Reads an epoch before an exclamation mark, if there is one. -/
def readEpoch (s : List Char) : Nat × List Char :=
  match readDigits s with
  | some (n, '!' :: rest) => (n, rest)
  | _ => (0, s)

/-- Drops the letter that may stand before a version. -/
def dropLetter : List Char → List Char
  | 'v' :: s => s
  | s        => s

/-- Reads a version in lower case that has no blanks around it. -/
def ofChars? (s : List Char) : Option Version := do
  let (epoch, s) := readEpoch (dropLetter s)
  let (n, s) ← readDigits s
  let release := readRelease [] n s
  let (pre, s) := readPre release.2
  let (post, s) := readPost s
  let (dev, s) := readDev s
  let localPart ← readLocal s
  return ⟨epoch, release.1, pre, post, dev, localPart, readRelease_ne_nil _ _ _⟩

end Version

end HostPrereqs
