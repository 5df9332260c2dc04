import HostPrereqs.Log.Record
import HostPrereqs.Requirements.Basic

/-!
# Requirements — reading requirements from data

Requirements are written as mappings of mappings: phases to relations to modules to ranges.  A
range is a text, a number, or null for all versions.  A fragment may also be flat, that is, map
modules to ranges alone; then it belongs to a phase and relation that are given beside it.
-/

namespace HostPrereqs

/-- Why data are no requirements. -/
inductive FragmentError where
  /-- The data as a whole are not of a shape that can be looked into. -/
  | notAMapping
  | mixedShapes
  | badPhase (phase : String)
  | badRelation (phase relation : String)
  | badVersion (module : String) (version : Value)
  | badRange (cause : RangeError)

namespace FragmentError

/-- The text of a malformation; a bad range has its own, and `notAMapping` has none. -/
def message : FragmentError → String
  | notAMapping => ""
  | mixedShapes =>
      "prereqs must map modules to versions, or phases to relations to modules to versions"
  | badPhase phase => s!"phase '{phase}' must map relations"
  | badRelation phase relation => s!"relation '{phase}.{relation}' must map modules to versions"
  | badVersion module version =>
      s!"version for '{module}' must be a string, got {version.literal}"
  | badRange cause => cause.message

end FragmentError

namespace Range

/-- The range that a value denotes: a null stands for all versions, and anything else for its
text, if it has one. -/
def ofValue : Value → Except RangeError Range
  | .null => .ok any
  | v     => if v.isWritable then parse v.text else .error (.hugeNumber .written v.text)

end Range

namespace Requirements

/-- Texts and numbers can be ranges. -/
def isRangeValue : Value → Bool
  | .str _ | .int _ | .float _ => true
  | _ => false

/-- Null can stand for a range too. -/
def standsForRange : Value → Bool
  | .null => true
  | v     => isRangeValue v

def isMapping : Value → Bool
  | .map _ => true
  | _ => false

/-- The text that is kept for a range. -/
def rangeText : Value → String
  | .null => "0"
  | v     => Text.strip v.text

/-- Reads modules with their ranges and lists them under a phase and relation. -/
def addModules (phase relation : String) :
    List (Value × Value) → Requirements → Except FragmentError Requirements
  | [], r => .ok r
  | (module, version) :: modules, r => do
      if !standsForRange version then throw (.badVersion module.text version)
      let _ ← (Range.ofValue version).mapError FragmentError.badRange
      addModules phase relation modules
        (r.alterAt phase relation (·.put module.text (rangeText version)))

/-- Reads relations and lists their modules under a phase. -/
def addRelations (phase : String) :
    List (Value × Value) → Requirements → Except FragmentError Requirements
  | [], r => .ok r
  | (relation, .map modules) :: relations, r => do
      let r ← addModules phase relation.text modules (r.alterAt phase relation.text id)
      addRelations phase relations r
  | (relation, _) :: _, _ => .error (.badRelation phase relation.text)

def addPhases : List (Value × Value) → Requirements → Except FragmentError Requirements
  | [], r => .ok r
  | (phase, .map relations) :: phases, r => do
      let r ← addRelations phase.text relations r
      addPhases phases r
  | (phase, _) :: _, _ => .error (.badPhase phase.text)

/-- Reads requirements that are listed by phase and relation.  Data that count as nothing list
nothing. -/
def ofValue : Value → Except FragmentError Requirements
  | .map phases => addPhases phases empty
  | v => if v.truthy then .error .notAMapping else .ok empty

/-- Whether a fragment is listed by phase and relation.  An empty one is not. -/
def isNested : Value → Except FragmentError Bool
  | .map es =>
      if es.all fun (_, v) => isRangeValue v then .ok false
      else if es.all fun (_, v) => isMapping v then .ok true
      else .error .mixedShapes
  | _ => .error .notAMapping

/-- Reads a fragment; a flat one belongs to `phase` and `relation`. -/
def ofFragment (fragment : Value) (phase relation : String) :
    Except FragmentError Requirements := do
  if ← isNested fragment then ofValue fragment
  else ofValue (.record [(phase, .record [(relation, fragment)])])

/-! ### Names that are not usual -/

def defaultPhase : String := "runtime"

def defaultRelation : String := "requires"

def knownPhases : List String := ["configure", "build", "test", "runtime", "develop"]

def knownRelations : List String := ["requires", "recommends", "suggests", "conflicts"]

/-- The records of phases and relations that are not known. -/
def unknownNames (r : Requirements) : List Log.Record :=
  let warning (event : String) (fields : List (String × Value)) : Log.Record :=
    ⟨.warning, "dynreqs.prereqs.spec", event, fields⟩
  r.phases.flatMap fun (phase, relations) =>
    (if knownPhases.contains phase then []
      else [warning "unknown_phase" [("phase", .str phase)]])
    ++ relations.flatMap fun (relation, _) =>
      if knownRelations.contains relation then []
      else
        [warning "unknown_relation" [("phase", .str phase), ("relation", .str relation)]]

end Requirements

end HostPrereqs
