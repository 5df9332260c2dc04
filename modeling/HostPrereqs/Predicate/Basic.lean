import HostPrereqs.Host.Questions
import HostPrereqs.Range.Text

/-!
# Predicate — named tests

A predicate is a named test of the host with a least and a greatest number of arguments
(`Predicate`).  It is run in a setting: the build configuration, and whether the caller wants a
build without native code.
-/

namespace HostPrereqs

/-- What a test can fail at, apart from the number of its arguments. -/
inductive PredicateError where
  /-- A question without a text. -/
  | noPrompt
  /-- A question whose default is neither yes nor no. -/
  | badDefault
  | badRange (cause : RangeError)
  /-- Something has gone wrong on the host. -/
  | hostFault (cause : HostFault)
deriving DecidableEq, Repr

/-- What a test may look at besides the host. -/
structure Setting where
  config : BuildConfig
  /-- Without native code, with it, or no preference. -/
  pureOnly : Option Bool

/-- A named test. -/
structure Predicate where
  name : String
  minArgs : Int
  /-- No greatest number if absent. -/
  maxArgs : Option Int
  description : String
  run : Setting → List String → ExceptT PredicateError OnHost Bool

namespace Predicate

/-- Whether the test takes a number of arguments. -/
def takes (p : Predicate) (count : Int) : Bool :=
  p.minArgs ≤ count && match p.maxArgs with
    | some n => count ≤ n
    | none => true

/-- The numbers of arguments that a test takes. -/
def arity (p : Predicate) : String :=
  match p.maxArgs with
  | none => s!"{p.minArgs}+"
  | some n => if p.minArgs = n then toString n else s!"{p.minArgs}-{n}"

end Predicate

end HostPrereqs
