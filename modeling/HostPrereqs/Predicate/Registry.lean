import HostPrereqs.Predicate.Basic
import HostPrereqs.Text.WordChar

/-!
# Predicate — registries

A registry holds predicates under different names, in the order of their registration.  A name
is a bare word, and not one of the words for combinators.
-/

namespace HostPrereqs

/-- Why a predicate is refused. -/
inductive RegistryError where
  | reserved (name : String)
  | notAWord (name : String)
  | taken (name : String)
deriving DecidableEq, Repr

namespace RegistryError

def message : RegistryError → String
  | reserved name => s!"Predicate name '{name}' is reserved"
  | notAWord name => s!"Predicate name '{name}' must be a bare word"
  | taken name    => s!"Predicate '{name}' is already registered"

end RegistryError

/-- Predicates by name. -/
structure Registry where
  predicates : List Predicate

namespace Registry

def empty : Registry := ⟨[]⟩

/-- The predicate of a name. -/
def get? (r : Registry) (name : String) : Option Predicate :=
  r.predicates.find? (·.name = name)

def has (r : Registry) (name : String) : Bool := (r.get? name).isSome

def size (r : Registry) : Nat := r.predicates.length

/-- A word of at least one character. -/
def isBareWord (name : String) : Bool := !name.isEmpty && name.toList.all Text.isWordChar

/-- Adds a predicate. -/
def register (r : Registry) (p : Predicate) : Except RegistryError Registry :=
  if (Junction.ofName? p.name).isSome then .error (.reserved p.name)
  else if !isBareWord p.name then .error (.notAWord p.name)
  else if r.has p.name then .error (.taken p.name)
  else .ok ⟨r.predicates ++ [p]⟩

/-- The record of a registration. -/
def registered (p : Predicate) : Log.Record :=
  ⟨.debug, "dynreqs.predicates.registry", "predicate_registered", [("predicate", .str p.name)]⟩

/-- The names in the order of their code points. -/
def names (r : Registry) : List String := (r.predicates.map (·.name)).mergeSort (· ≤ ·)

/-- The predicates in the order of their names. -/
def sorted (r : Registry) : List Predicate := r.names.filterMap r.get?

end Registry

end HostPrereqs
