import HostPrereqs.Range.Basic

/-!
# Range — reading a range

A range is written as clauses with commas between them.  A clause is a version after one of the
six signs, or a version alone, which is a minimum.  A blank text is the range of all versions.

`RangeError` lists what can be wrong with a text, or with two ranges that are intersected; each
error remembers the text it is about.  A numeral that is too long is not a fault of the text, and
stays outside of the reports that the other errors make.
-/

namespace HostPrereqs

/-- Why a text is no range, or two ranges have no common range. -/
inductive RangeError where
  | emptyClause (range : String)
  | unreadableClause (clause range : String)
  | badVersion (version range : String)
  | localBound (clause range : String)
  | conflict (cause : Conflict) (range : String)
  | hugeNumber (cause : Numeral.Excess) (range : String)
  | ofModule (module phase relation : String) (cause : RangeError)
deriving DecidableEq, Repr

namespace RangeError

/-- The range text an error is about. -/
def range : RangeError → String
  | emptyClause r | unreadableClause _ r | badVersion _ r | localBound _ r | conflict _ r
  | hugeNumber _ r => r
  | ofModule _ _ _ cause => cause.range

def message : RangeError → String
  | emptyClause r => s!"Empty clause in range '{r}'"
  | unreadableClause c _ => s!"Can't parse version clause '{c}'"
  | badVersion v r => s!"Invalid version '{v}' in range '{r}'"
  | localBound c r => s!"Invalid version clause '{c}' in range '{r}'"
  | conflict .differentPins r => s!"Conflicting exact versions in '{r}'"
  | conflict (.pinExcluded pin) r => s!"Exact version {pin} is excluded by '{r}'"
  | conflict (.crossedBounds low high) r => s!"Minimum {low} exceeds maximum {high} in '{r}'"
  | hugeNumber cause _ => cause.message
  | ofModule module phase relation cause =>
      s!"Conflicting requirements for {module} ({phase}.{relation}): {cause.message}"

/-- Whether a report is made of an error. -/
def isReported : RangeError → Bool
  | hugeNumber _ _ => false
  | ofModule _ _ _ cause => cause.isReported
  | _ => true

/-- The error of a module's ranges, if a report is made of it. -/
def inModule (module phase relation : String) (e : RangeError) : RangeError :=
  if e.isReported then .ofModule module phase relation e else e

end RangeError

namespace Range

/-- The signs of the comparisons, in the order in which they are looked for. -/
def signs : List (String × Comparison) :=
  [(">=", .atLeast), ("<=", .atMost), ("==", .exactly), ("!=", .not), (">", .above),
    ("<", .below)]

/-- A text without its leading blanks, if it then is one word. -/
def word? (s : List Char) : Option (List Char) :=
  let w := s.dropWhile Text.isBlank
  if w.isEmpty || w.any Text.isBlank then none else some w

/-- Splits a clause at the first sign that leaves one word; a clause without a sign is a
minimum. -/
def splitClause (s : List Char) : Option (Comparison × List Char) :=
  let signed := signs.findSome? fun (sign, comparison) => do
    let rest ← Version.after sign.toList s
    let w ← word? rest
    return (comparison, w)
  signed <|> (word? s).map fun w => (.atLeast, w)

/-- Reads one clause of the range text `range`.  A minimum of zero says nothing. -/
def readClause (range : String) (clause : List Char) : Except RangeError (Option Clause) :=
  match splitClause clause with
  | none => .error (.unreadableClause (String.ofList clause) range)
  | some (comparison, w) =>
      match hv : Version.read (String.ofList w) with
      | .error cause => .error (.hugeNumber cause range)
      | .ok none => .error (.badVersion (String.ofList w) range)
      | .ok (some bound) =>
          if ht : comparison = .atLeast ∧ bound.same .zero = true then .ok none
          else if hl : bound.localPart = [] ∨ comparison.takesLocal = true then
            .ok (some ⟨comparison, bound, Version.fits_of_read hv, hl, ht⟩)
          else .error (.localBound (String.ofList clause) range)

/-- Cuts a text at its commas. -/
def splitCommas : List Char → List (List Char)
  | [] => [[]]
  | c :: s =>
      if c = ',' then [] :: splitCommas s
      else
        match splitCommas s with
        | first :: more => (c :: first) :: more
        | [] => [[c]]

/-- Reads the clauses of the range text `range`, in order. -/
def readClauses (range : String) : List (List Char) → Except RangeError (List Clause)
  | [] => .ok []
  | part :: parts => do
      let clause := Text.trim part
      if clause.isEmpty then throw (.emptyClause range)
      let c ← readClause range clause
      let cs ← readClauses range parts
      return c.toList ++ cs

/-- The range of clauses that come from the text `range`. -/
def ofClausesOf (range : String) (cs : List Clause) : Except RangeError Range :=
  (ofClauses cs).mapError (.conflict · range)

/-- Reads a range. -/
def parse (text : String) : Except RangeError Range :=
  let s := Text.trim text.toList
  if s.isEmpty then .ok any
  else do
    let range := String.ofList s
    let cs ← readClauses range (splitCommas s)
    ofClausesOf range cs

/-- The range of the versions that lie in both ranges. -/
def intersect (a b : Range) : Except RangeError Range :=
  ofClausesOf s!"{a} & {b}" (a.clauses ++ b.clauses)

/-- Whether the version that a text denotes lies in the range that another denotes. -/
def satisfies (version range : String) : Except RangeError Bool := do
  let r ← parse range
  (r.accepts version).mapError (.hugeNumber · version)

end Range

end HostPrereqs
