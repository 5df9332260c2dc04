import HostPrereqs.Entry.Validation
import HostPrereqs.Number.Numeral

/-!
# Entry — documents

A document holds a format version and an ordered list of entries.  It is written as a mapping
with both, or as the list alone, which has the usual version.  Only one version is supported.
-/

namespace HostPrereqs

/-- Entries in order, under a format version. -/
structure Document where
  version : Int
  expressions : List Entry

/-- Why data are no document. -/
inductive DocumentFault where
  | notADocument
  | invalid (cause : Invalid)
  | unsupportedVersion (version : Int)
deriving DecidableEq, Repr

namespace DocumentFault

def message : DocumentFault → String
  | notADocument => "document must be a mapping or a list"
  | invalid cause => cause.message
  | unsupportedVersion version => s!"unsupported document version {version}"

end DocumentFault

namespace Document

/-! ### The version -/

/-- Digits that single underscores may stand between. -/
def groupedDigits? : List Char → Option (List Char)
  | [c] => if c.isDigit then some [c] else none
  | c :: '_' :: s => if c.isDigit then (groupedDigits? s).map (c :: ·) else none
  | c :: s => if c.isDigit then (groupedDigits? s).map (c :: ·) else none
  | [] => none

/-- Drops a point at the end with zeros after it. -/
def dropZeroFraction (s : List Char) : List Char :=
  let whole := s.takeWhile (· ≠ '.')
  match s.dropWhile (· ≠ '.') with
  | '.' :: zeros => if zeros.all (· = '0') then whole else s
  | _ => s

/-- A number without zeros in front; underscores among these do not count. -/
def dropZeros (s : List Char) : List Char :=
  let isPad (c : Char) : Bool := c = '0' || c = '_'
  match s with
  | '0' :: _ =>
      match s.dropWhile isPad with
      | [] => [s.getLastD '0']
      | '.' :: r => (s.takeWhile isPad).getLastD '0' :: '.' :: r
      | r => r
  | s => s

/-- Reads a whole number with an optional sign. -/
def wholeNumber? (s : List Char) : Option Int :=
  let (negative, digits) := match s with
    | '-' :: r => (true, r)
    | '+' :: r => (false, r)
    | r => (false, r)
  (groupedDigits? (dropZeroFraction (dropZeros digits))).map fun ds =>
    let n : Int := ds.foldl (fun n d => n * 10 + (d.toNat - 48)) 0
    if negative then -n else n

/-- Fractional numbers of this size and more are not taken. -/
def sizeLimit : Nat := Nat.pow 2 63

/-- Blanks that may be around a whole number. -/
def isMargin (c : Char) : Bool := Text.isBlank c && !(28 ≤ c.toNat && c.toNat ≤ 31)

/-- Reads a whole number from data. -/
def readInteger : Value → Except Expectation Int
  | .bool b => .ok (if b then 1 else 0)
  | .int i => .ok i
  | .float x =>
      if !x.isFinite then .error .finiteNumber
      else
        match x.toInt? with
        | none => .error .wholeNumber
        | some i => if i.natAbs < sizeLimit then .ok i else .error .boundedInteger
  | .str s => ofText s
  | .bytes bs =>
      match String.fromUTF8? ⟨bs.toArray⟩ with
      | some s => ofText s
      | none => .error .integerText
  | _ => .error .integer
where
  ofText (s : String) : Except Expectation Int :=
    let digits := Text.dropEndWhile isMargin (s.toList.dropWhile isMargin)
    if Numeral.digitLimit < digits.length then .error .boundedInteger
    else
      match wholeNumber? digits with
      | some i => .ok i
      | none => .error .integerText

/-! ### Reading -/

def usualVersion : Int := 1

def supportedVersions : List Int := [1]

def readVersion : Option Value → Except Invalid Int
  | none => .ok usualVersion
  | some v => Entry.atPlace ["version"] (readInteger v)

/-- Reads the entries of a document, of which the first has the number `index`. -/
def readEntries (index : Nat) : List Value → Except Invalid (List Entry)
  | [] => .ok []
  | v :: vs => do
      let place := ["expressions", toString index]
      let e ← match v with
        | .entry e => pure e
        | .map es => (Entry.ofMapping es).mapError (Invalid.inside place)
        | _ => throw ⟨place, .entry⟩
      return e :: (← readEntries (index + 1) vs)

def readExpressions : Option Value → Except Invalid (List Entry)
  | none => .ok []
  | some v => do readEntries 0 (← Entry.atPlace ["expressions"] (Entry.readList v))

/-- Reads a document from a mapping. -/
def ofMapping (es : List (Value × Value)) : Except DocumentFault Document := do
  let version ← (readVersion (Value.find? es "version")).mapError DocumentFault.invalid
  let expressions ← (readExpressions (Value.find? es "expressions")).mapError DocumentFault.invalid
  if supportedVersions.contains version then return ⟨version, expressions⟩
  else throw (.unsupportedVersion version)

/-- Reads a document. -/
def ofValue : Value → Except DocumentFault Document
  | .map es => ofMapping es
  | .list xs => ofMapping [(.str "expressions", .list xs)]
  | _ => .error .notADocument

end Document

end HostPrereqs
