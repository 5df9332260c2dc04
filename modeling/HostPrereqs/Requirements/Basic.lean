import HostPrereqs.Range.Text
import HostPrereqs.Requirements.Table
import HostPrereqs.Value.Literal

/-!
# Requirements — requirements

Requirements list modules with ranges of versions, by phase and relation
(`Requirements`).  Phases and relations may be empty.  A range keeps the spelling it was given,
without blanks around it.

`merge` combines requirements: the ranges of a module that both list are intersected and written
in their canonical form.
-/

namespace HostPrereqs

/-- Ranges of modules by phase and relation. -/
structure Requirements where
  phases : Table (Table (Table String))
deriving DecidableEq, Repr

/-- One requirement. -/
structure Requirement where
  phase : String
  relation : String
  module : String
  range : String
deriving DecidableEq, Repr

namespace Requirements

def empty : Requirements := ⟨[]⟩

/-- The requirements one by one, in order. -/
def items (r : Requirements) : List Requirement :=
  r.phases.flatMap fun (phase, relations) =>
    relations.flatMap fun (relation, modules) =>
      modules.map fun (module, range) => ⟨phase, relation, module, range⟩

/-- No module is required. -/
def isEmpty (r : Requirements) : Bool := r.items.isEmpty

/-- The ranges of the modules under a phase and relation. -/
def modules (r : Requirements) (phase relation : String) : Table String :=
  match r.phases.get? phase with
  | some relations => (relations.get? relation).getD []
  | none => []

/-- Changes what is listed under a phase and relation, which are added if they are missing. -/
def alterAt (r : Requirements) (phase relation : String) (f : Table String → Table String) :
    Requirements :=
  ⟨r.phases.alter phase fun relations =>
    (relations.getD []).alter relation fun modules => f (modules.getD [])⟩

/-- Whether the same ranges are listed, in whatever order. -/
def same (r s : Requirements) : Bool :=
  r.phases.sameBy (Table.sameBy (Table.sameBy (· = ·))) s.phases

/-- The requirements as data. -/
def toValue (r : Requirements) : Value :=
  .record (r.phases.map fun (phase, relations) =>
    (phase, .record (relations.map fun (relation, modules) =>
      (relation, .record (modules.map fun (module, range) => (module, .str range))))))

/-- The requirements as they are shown in messages. -/
def literal (r : Requirements) : String := s!"PrereqSpec({r.toValue.literal})"

/-! ### Merging -/

/-- The canonical text of the versions that lie in two ranges. -/
def intersectTexts (a b : String) : Except RangeError String := do
  let a ← Range.parse a
  let b ← Range.parse b
  return (← a.intersect b).text

/-- Adds one requirement: its range is intersected with the one that the module has. -/
def add (r : Requirements) (item : Requirement) : Except RangeError Requirements := do
  let range ← match (r.modules item.phase item.relation).get? item.module with
    | none => pure item.range
    | some range =>
        (intersectTexts range item.range).mapError
          (RangeError.inModule item.module item.phase item.relation)
  return r.alterAt item.phase item.relation (·.put item.module range)

/-- Fails at the first range that cannot be read. -/
def check (r : Requirements) : Except RangeError Requirements := do
  r.items.forM fun item => do let _ ← Range.parse item.range
  return r

/-- The requirements of `r` and of all `others`, in order. -/
def merge (r : Requirements) (others : List Requirements) : Except RangeError Requirements := do
  let merged ← others.foldlM (fun r other => other.items.foldlM add r) r
  merged.check

end Requirements

end HostPrereqs
