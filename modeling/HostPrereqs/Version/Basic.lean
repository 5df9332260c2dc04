/-!
# Version — versions and their order

A version is an epoch, a release number and up to four suffixes: a pre-release phase, a
post-release, a development release and a local part (`Version`).  Local words carry the proof
that they are lower-case letters and digits with at least one letter, so that a version is
determined by its text.

Versions are ordered by `Version.cmp`: epoch first, then the release without its final zeros,
then the suffixes.  A development release comes before the pre-releases of its version, these
before the version itself, and its post-releases after it; a local part comes after the same
version without one.  Two versions are *the same* when neither is before the other (`1.0` and
`1`), which is coarser than equality.
-/

namespace HostPrereqs

/-- The phases of a pre-release, in order. -/
inductive PrePhase where
  | alpha
  | beta
  | candidate
deriving DecidableEq, Repr

namespace PrePhase

/-- The letters that a phase is written with. -/
def letters : PrePhase → String
  | alpha     => "a"
  | beta      => "b"
  | candidate => "rc"

def rank : PrePhase → Nat
  | alpha     => 0
  | beta      => 1
  | candidate => 2

end PrePhase

/-- A character of a local word: a lower-case basic letter or a digit. -/
def isLabelChar (c : Char) : Bool := c.isDigit || ('a' ≤ c && c ≤ 'z')

/-- A word of a local part: letters and digits, and not digits alone. -/
structure Label where
  chars : List Char
  all_label : chars.all isLabelChar = true
  not_digits : chars.all Char.isDigit = false
deriving DecidableEq, Repr

/-- One segment of a local part. -/
inductive LocalSegment where
  | word (label : Label)
  | number (n : Nat)
deriving DecidableEq, Repr

namespace LocalSegment

/-- Words come before numbers. -/
def rank : LocalSegment → Nat
  | word _   => 0
  | number _ => 1

def value : LocalSegment → Nat
  | word _   => 0
  | number n => n

/-- The code points of a word. -/
def codes : LocalSegment → List Nat
  | word l   => l.chars.map Char.toNat
  | number _ => []

/-- Numbers are compared as numbers, words letter by letter, and a word is before a number. -/
def cmp : LocalSegment → LocalSegment → Ordering :=
  compareLex (compareOn rank) (compareLex (compareOn value) (compareOn codes))

end LocalSegment

/-- A version. -/
structure Version where
  epoch : Nat
  release : List Nat
  pre : Option (PrePhase × Nat)
  post : Option Nat
  dev : Option Nat
  localPart : List LocalSegment
  release_ne_nil : release ≠ []
deriving DecidableEq, Repr

namespace Version

/-- The version `0`. -/
def zero : Version :=
  ⟨0, [0], none, none, none, [], List.cons_ne_nil _ _⟩

/-- A pre-release or a development release. -/
def isPreRelease (v : Version) : Bool := v.pre.isSome || v.dev.isSome

/-- A version with a release number and an epoch only. -/
def isFinal (v : Version) : Bool :=
  v.pre.isNone && v.post.isNone && v.dev.isNone && v.localPart.isEmpty

/-- The version without its local part. -/
def withoutLocal (v : Version) : Version := { v with localPart := [] }

/-- The version without its post-release, development release and local part. -/
def beforePosts (v : Version) : Version := { v with post := none, dev := none, localPart := [] }

/-- The first version that counts as belonging to `v`: `v` itself if it is a pre-release, and
otherwise its earliest development release. -/
def earliest (v : Version) : Version := if v.isPreRelease then v else { v with dev := some 0 }

/-! ### The order -/

/-- The release number without the zeros at its end. -/
def significant (v : Version) : List Nat := (v.release.reverse.dropWhile (· = 0)).reverse

/-- A bare development release is before every pre-release, and a version that is none of both
is after them. -/
def phaseRank (v : Version) : Nat :=
  match v.pre with
  | some (phase, _) => phase.rank + 1
  | none => if v.post.isNone && v.dev.isSome then 0 else 4

def preNumber (v : Version) : Nat :=
  match v.pre with
  | some (_, n) => n
  | none => 0

/-- A version without a post-release is before its post-releases. -/
def postRank (v : Version) : Nat :=
  match v.post with
  | some n => n + 1
  | none => 0

/-- A development release is before the version it develops. -/
def devAbsent (v : Version) : Nat := if v.dev.isSome then 0 else 1

def devNumber (v : Version) : Nat := v.dev.getD 0

/-- The order of versions. -/
def cmp : Version → Version → Ordering :=
  compareLex (compareOn epoch) <|
  compareLex (compareOn significant) <|
  compareLex (compareOn phaseRank) <|
  compareLex (compareOn preNumber) <|
  compareLex (compareOn postRank) <|
  compareLex (compareOn devAbsent) <|
  compareLex (compareOn devNumber) <|
  fun v w => List.compareLex LocalSegment.cmp v.localPart w.localPart

/-- `v` comes before `w`. -/
def before (v w : Version) : Bool := cmp v w = .lt

/-- Neither of the two versions comes before the other. -/
def same (v w : Version) : Bool := cmp v w = .eq

/-- `v` comes before `w` or is the same. -/
def upTo (v w : Version) : Bool := cmp v w ≠ .gt

end Version

end HostPrereqs
