import HostPrereqs.Condition.Evaluation
import HostPrereqs.Entry.Document

/-!
# Resolution — the requirements that apply to a host

Resolving goes through entries in order.  All of them are validated before any condition is
evaluated.  Where a condition holds, an entry with an error ends the resolution, and the
requirements of any other entry are kept; at the end they are all merged into the seed.
-/

namespace HostPrereqs

/-- What is given instead of a list of entries. -/
inductive ListFault where
  | notIterable
  | noExpressions
  | aText
deriving DecidableEq, Repr

def ListFault.message : ListFault → String
  | notIterable => ""
  | noExpressions => "expected a list of entries or a mapping with 'expressions'"
  | aText => "expected a list of entries, got a string"

/-- What a resolution can fail at. -/
inductive ResolutionError where
  | seed (cause : FragmentError)
  | list (cause : ListFault)
  | document (cause : DocumentFault)
  | entry (index : Nat) (cause : EntryFault)
  | evaluation (cause : EvaluationError)
  | badRange (cause : RangeError)
  /-- The error of an entry whose condition holds. -/
  | refused (message : String)

/-- What conditions are evaluated with. -/
structure Resolver where
  registry : Registry
  setting : Setting
  seed : Requirements

/-- What is given to be resolved: data, or a document that has been read. -/
inductive Expressions where
  | data (v : Value)
  | document (d : Document)

namespace Resolver

abbrev Resolution (α : Type) := ExceptT ResolutionError OnHost α

def logger : String := "dynreqs.prereqs.merger"

def evaluate (r : Resolver) (condition : Value) : Evaluation Bool :=
  Condition.evaluate r.registry r.setting condition

/-- Reads the requirements of an entry whose condition holds. -/
def fragmentOf (index : Nat) (e : Entry) : Except ResolutionError Requirements :=
  (Requirements.ofFragment (.record (e.prereqs.getD [])) e.phase e.relation).mapError fun
    | .badRange cause => .badRange cause
    | cause => .entry index (.fragment cause)

/-- The record of an entry whose requirements are kept. -/
def matched (index : Nat) (e : Entry) (fragment : Requirements) : Log.Record :=
  ⟨.info, logger, "entry_matched",
    [("entry_index", .int index), ("phase", .str e.phase), ("relation", .str e.relation),
      ("modules", .strs ((fragment.items.map (·.module)).mergeSort (· ≤ ·)))]⟩

/-- Evaluates one entry, and gives its requirements if its condition holds. -/
def apply (r : Resolver) (index : Nat) (e : Entry) : Resolution (Option Requirements) := do
  let condition := Entry.conditionValue e
  if !(← (r.evaluate condition).adapt .evaluation) then
    Host.report ⟨.debug, logger, "entry_skipped", [("entry_index", .int index)]⟩
    return none
  match Entry.fatal? e with
  | some message =>
      Host.report ⟨.info, logger, "entry_error",
        [("entry_index", .int index), ("error", .str message)]⟩
      throw (.refused message)
  | none =>
      let fragment ← MonadExcept.ofExcept (fragmentOf index e)
      fragment.unknownNames.forM fun w => liftM (Host.report w)
      Host.report (matched index e fragment)
      return some fragment

/-- Evaluates entries in order, of which the first has the number `index`. -/
def applyAll (r : Resolver) (index : Nat) : List Entry → Resolution (List Requirements)
  | [] => return []
  | e :: es => do
      let fragment ← r.apply index e
      let fragments ← r.applyAll (index + 1) es
      return fragment.toList ++ fragments

/-- Merges the requirements of the entries that apply into a seed. -/
def merge (r : Resolver) (seed : Requirements) (entries : List Entry) :
    Resolution Requirements := do
  let fragments ← r.applyAll 0 entries
  if fragments.isEmpty then return seed
  MonadExcept.ofExcept ((seed.merge fragments).mapError ResolutionError.badRange)

/-- The elements of what is given to be resolved. -/
def elementsOf : Expressions → Except ResolutionError (List Value)
  | .document d => .ok (d.expressions.map .entry)
  | .data (.map es) =>
      if (Value.find? es "expressions").isSome then
        match Document.ofMapping es with
        | .ok d => .ok (d.expressions.map .entry)
        | .error cause => .error (.document cause)
      else .error (.list .noExpressions)
  | .data (.str _) | .data (.bytes _) => .error (.list .aText)
  | .data v =>
      match Entry.elements? v with
      | some vs => .ok vs
      | none => .error (.list .notIterable)

/-- The seed that is given in place of the resolver's own. -/
def seedOf (r : Resolver) : Value → Except ResolutionError Requirements
  | .null => .ok r.seed
  | v => (Requirements.ofValue v).mapError .seed

/-- Resolves entries over a seed; a null seed stands for the resolver's own. -/
def resolve (r : Resolver) (expressions : Expressions) (seed : Value := .null) :
    Resolution Requirements := do
  let seed ← MonadExcept.ofExcept (r.seedOf seed)
  let elements ← MonadExcept.ofExcept (elementsOf expressions)
  let entries ← MonadExcept.ofExcept
    ((Entry.ofValues elements).mapError fun (index, cause) => ResolutionError.entry index cause)
  r.merge seed entries

end Resolver

end HostPrereqs
