import HostPrereqs.Failure.Report
import HostPrereqs.Loading.Basic
import HostPrereqs.Resolution.Basic
import HostPrereqs.Settings.Layer

/-!
# Failure — every failure as a report

Each kind of error is told in its own way (`report?`).  An error without a report comes from
data that are used as what they are not, which is a fault of the caller; from a number that is too
long; or from what has gone wrong on the host.
-/

namespace HostPrereqs

namespace RangeError

def report? (e : RangeError) : Option Report :=
  if e.isReported then some (.versionRange e.message (some e.range)) else none

end RangeError

namespace PredicateError

def report? : PredicateError → Option Report
  | noPrompt => some (.predicateArgument "y_n() called without a prompt message" "y_n" none)
  | badDefault =>
      some (.predicateArgument "Invalid default value: y_n() default must be 'y' or 'n'" "y_n" none)
  | badRange cause => cause.report?
  | hostFault _ => none

end PredicateError

namespace EvaluationError

def report? : EvaluationError → Option Report
  | malformed e =>
      if e.cause.isReported then some (.malformedCondition e.message (some e.condition)) else none
  | unknownCommand name => some (.unknownCommand name none)
  | wrongCount name arity count condition =>
      some (.predicateArgument s!"{name} takes {arity} argument(s), got {count}" name
        (some (.str condition)))
  | predicate cause => cause.report?

end EvaluationError

namespace FragmentError

def report? : FragmentError → Option Report
  | notAMapping => none
  | badRange cause => cause.report?
  | cause => some (.malformedEntry cause.message none)

end FragmentError

namespace EntryFault

def report (index : Option Nat) : EntryFault → Report
  | neither => .missingFragment (index.map Int.ofNat)
  | cause => .malformedEntry cause.message (index.map Int.ofNat)

end EntryFault

namespace ResolutionError

def report? : ResolutionError → Option Report
  | seed cause => cause.report?
  | list .notIterable => none
  | list cause => some (.malformedEntry cause.message none)
  | document cause => some (.document cause.message none)
  | entry index cause => some (cause.report index)
  | evaluation cause => cause.report?
  | badRange cause => cause.report?
  | refused message => some (.user message)

end ResolutionError

namespace SettingsError

def report? : SettingsError → Option Report
  | missingFile path => some (.configuration s!"Config file not found: {path}" none none)
  | badYaml path cause =>
      some (.configuration s!"Invalid YAML in {path}: {cause.message}" none none)
  | notMapping path => some (.configuration s!"Config file {path} must contain a mapping" none none)
  | invalid cause =>
      some (.configuration s!"Invalid configuration: {cause.fault.message}" (some cause.field)
        (some cause.value))
  | badVariable | oddKey | isDirectory | notText | noSuchValue _ => none

end SettingsError

namespace LoadError

def report? : LoadError → Option Report
  | inFile path fault => some (.document fault.message (some path))
  | badSeed cause => cause.report?
  | noFileName _ | notText | noSuchValue _ | hugeNumber _ => none

end LoadError

end HostPrereqs
