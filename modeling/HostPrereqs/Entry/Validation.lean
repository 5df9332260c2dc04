import HostPrereqs.Requirements.Fragment

/-!
# Entry — entries and documents

An entry is written as a mapping with a condition and either requirements or an error.  A
document is a version and a list of entries.  Fields are checked in their order, and the first
field that is wrong is reported with its place (`Invalid`).

Validation is lenient: bytes that are UTF-8 are texts, the version may be any number or text
that is a whole number, sequences and sets of any kind are lists, and a phase or relation that
is null or empty is the usual one.
-/

namespace HostPrereqs

/-- What a field has to be. -/
inductive Expectation where
  | present
  | text
  | readableText
  | dictionary
  | list
  | entry
  | integer
  | integerText
  | wholeNumber
  | finiteNumber
  | boundedInteger
deriving DecidableEq, Repr

def Expectation.message : Expectation → String
  | present => "Field required"
  | text => "Input should be a valid string"
  | readableText => "Input should be a valid string, unable to parse raw data as a unicode string"
  | dictionary => "Input should be a valid dictionary"
  | list => "Input should be a valid list"
  | entry => "Input should be a valid dictionary or instance of ExpressionEntry"
  | integer => "Input should be a valid integer"
  | integerText => "Input should be a valid integer, unable to parse string as an integer"
  | wholeNumber => "Input should be a valid integer, got a number with a fractional part"
  | finiteNumber => "Input should be a finite number"
  | boundedInteger => "Unable to parse input string as an integer, exceeded maximum size"

/-- A field and what it is not. -/
structure Invalid where
  place : List String
  expected : Expectation
deriving DecidableEq, Repr

namespace Invalid

/-- The place of the fault, from the outside to the inside. -/
def field (e : Invalid) : String := ".".intercalate e.place

def message (e : Invalid) : String := s!"invalid '{e.field}': {e.expected.message}"

/-- The same fault in a larger structure. -/
def inside (place : List String) (e : Invalid) : Invalid := ⟨place ++ e.place, e.expected⟩

end Invalid

namespace Entry

/-! ### Fields -/

/-- A text, or bytes that encode one. -/
def readText : Value → Except Expectation String
  | .str s => .ok s
  | .bytes bs =>
      match String.fromUTF8? ⟨bs.toArray⟩ with
      | some s => .ok s
      | none => .error .readableText
  | _ => .error .text

/-- A sequence or set of any kind. -/
def readList : Value → Except Expectation (List Value)
  | .list xs | .tuple xs | .set xs => .ok xs
  | _ => .error .list

/-- Reports a fault at a place. -/
def atPlace {α : Type} (place : List String) (r : Except Expectation α) : Except Invalid α :=
  r.mapError (⟨place, ·⟩)

/-- Reads the condition: a text, or else a list. -/
def readCondition : Option Value → Except Invalid (Phrase Value)
  | none => .error ⟨["condition"], .present⟩
  | some v =>
      match readList v with
      | .ok xs => .ok (.words xs)
      | .error _ => (atPlace ["condition", "str"] (readText v)).map .text

/-- How a key is named in the place of a fault. -/
def keyPlace : Value → String
  | .bool b => if b then "1" else "0"
  | k       => k.literal

/-- Reads names with their values. -/
def readNamed : List (Value × Value) → Except Invalid (List (String × Value))
  | [] => .ok []
  | (k, v) :: es => do
      let name ← atPlace [keyPlace k, "[key]"] (readText k)
      return (name, v) :: (← readNamed es)

def readPrereqs : Option Value → Except Invalid (Option (List (String × Value)))
  | none | some .null => .ok none
  | some (.map es) => (((readNamed es).mapError (Invalid.inside ["prereqs"])).map some)
  | some _ => .error ⟨["prereqs"], .dictionary⟩

/-- Reads a phase or relation.  Null and the empty text stand for the usual one. -/
def readName (field usual : String) : Option Value → Except Invalid String
  | none | some .null | some (.str "") => .ok usual
  | some v => atPlace [field] (readText v)

def readError : Option Value → Except Invalid (Option String)
  | none | some .null => .ok none
  | some v => (atPlace ["error"] (readText v)).map some

/-- Reads an entry from a mapping. -/
def ofMapping (es : List (Value × Value)) : Except Invalid Entry := do
  let condition ← readCondition (Value.find? es "condition")
  let prereqs ← readPrereqs (Value.find? es "prereqs")
  let phase ← readName "phase" Requirements.defaultPhase (Value.find? es "phase")
  let relation ← readName "relation" Requirements.defaultRelation (Value.find? es "relation")
  let error ← readError (Value.find? es "error")
  return ⟨condition, prereqs, phase, relation, error⟩

/-! ### Views -/

/-- The condition as data. -/
def conditionValue (e : Entry) : Value :=
  match e.condition with
  | .text s => .str s
  | .words xs => .list xs

/-- The requirements as data. -/
def prereqsValue (e : Entry) : Value :=
  match e.prereqs with
  | some es => .record es
  | none => .null

def optionValue : Option String → Value
  | some s => .str s
  | none => .null

/-- The fields of an entry with their names. -/
def fields (e : Entry) : List (String × Value) :=
  [("condition", e.conditionValue), ("prereqs", e.prereqsValue), ("phase", .str e.phase),
    ("relation", .str e.relation), ("error", optionValue e.error)]

end Entry

/-! ### Lists of entries -/

/-- What is wrong with one entry of a list. -/
inductive EntryFault where
  | notAMapping (kind : String)
  | invalid (cause : Invalid)
  | both
  | neither
  | fragment (cause : FragmentError)

namespace EntryFault

def message : EntryFault → String
  | notAMapping kind => s!"entry must be a mapping, got {kind}"
  | invalid cause => cause.message
  | both => "entry must set only one of 'prereqs' or 'error'"
  | neither => "entry must set one of 'prereqs' or 'error'"
  | fragment cause => cause.message

end EntryFault

namespace Entry

/-- The error of an entry, if it is not empty. -/
def fatal? (e : Entry) : Option String := e.error.filter (· != "")

/-- Exactly one of requirements and a nonempty error has to be there. -/
def checked (e : Entry) : Except EntryFault Entry :=
  match e.prereqs, e.fatal? with
  | some _, some _ => .error .both
  | none, none => .error .neither
  | _, _ => .ok e

/-- Reads one entry of a list. -/
def ofValue : Value → Except EntryFault Entry
  | .entry e => checked e
  | .map es => do (← (ofMapping es).mapError EntryFault.invalid).checked
  | v => .error (.notAMapping v.kindName)

/-- Reads entries, of which the first has the number `start`. -/
def ofValuesFrom (start : Nat) : List Value → Except (Nat × EntryFault) (List Entry)
  | [] => .ok []
  | v :: vs => do
      let e ← (ofValue v).mapError (start, ·)
      return e :: (← ofValuesFrom (start + 1) vs)

/-- Reads a list of entries; a fault comes with the number of the entry. -/
def ofValues (vs : List Value) : Except (Nat × EntryFault) (List Entry) := ofValuesFrom 0 vs

/-- What there is to go through in a value, one by one: the characters of a text, the keys of a
mapping, the named fields of an entry. -/
def elements? : Value → Option (List Value)
  | .list xs | .tuple xs | .set xs => some xs
  | .map es => some (es.map (·.1))
  | .str s => some (s.toList.map fun c => .str (String.singleton c))
  | .bytes bs => some (bs.map fun b => .int b.toNat)
  | .entry e => some ((fields e).map fun (name, v) => .tuple [.str name, v])
  | _ => none

end Entry

end HostPrereqs
