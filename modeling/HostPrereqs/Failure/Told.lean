import HostPrereqs.Failure.Report
import HostPrereqs.Log.Record
import HostPrereqs.Output.Format
import HostPrereqs.Text.Escape

/-!
# Failure — what ends a run

A failure ends a run with a status (`Report.status`), a text for the error stream
(`Report.errorOutput`), and for some kinds a record (`Report.record?`).  The statuses tell four
outcomes apart: all is well or the condition holds, it does not hold or something failed, the input
is wrong, and the system is not supported at all.
-/

namespace HostPrereqs

/-- What a run ends with. -/
inductive ExitStatus where
  | success
  | failure
  | usage
  | unsupported
deriving DecidableEq, Repr

def ExitStatus.code : ExitStatus → Nat
  | success     => 0
  | failure     => 1
  | usage       => 2
  | unsupported => 3

namespace Report

def logger : String := "dynreqs.cli.common"

/-- The status that a failure ends a run with. -/
def status (r : Report) : ExitStatus :=
  match r.kind with
  | .user => if r.isUnsupportedPlatform then .unsupported else .failure
  | _     => .usage

/-- What the error output adds to the text of a failure that is about a condition. -/
def details (r : Report) : List String :=
  let condition := (r.condition.filter (·.truthy)).toList.map fun c => s!"Condition: {c.text}"
  match r.kind with
  | .predicateArgument => condition ++ r.predicate.toList.map fun p => s!"Predicate: {p}"
  | .condition | .malformedCondition => condition
  | _ => []

/-- What the error output proposes. -/
def suggestion (r : Report) : Option String :=
  match r.kind with
  | .unknownCommand => some "Run 'dynreqs predicates' to list predicates"
  | _ => none

/-- The lines that tell a failure to a person. -/
def errorOutput (r : Report) : String :=
  Text.stripEscapes (errorText r.message r.details r.suggestion ++ "\n")

/-- The record of a failure that is neither the user's nor about a condition. -/
def record? (r : Report) : Option Log.Record :=
  if r.kind = .user || r.kind.isAboutCondition then none
  else some ⟨.debug, logger, "command_failed", [("error_type", .str r.kind.name)]⟩

/-- What a failure of the settings is told with: the text, then the setting and its value. -/
def settingsOutput (r : Report) : String :=
  let field := (r.field.filter (· != "")).toList.map fun f => s!"Field: {f}"
  let value := (r.value.filter fun v => !(v matches .null)).toList.map fun v => s!"Value: {v.text}"
  Text.stripEscapes (errorText r.message (field ++ value) none ++ "\n")

end Report

/-- What an interrupted run says. -/
def interruptedOutput : String := "\n\nInterrupted by user.\n"

end HostPrereqs
