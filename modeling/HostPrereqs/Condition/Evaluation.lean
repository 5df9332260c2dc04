import HostPrereqs.Condition.Reading
import HostPrereqs.Predicate.Registry

/-!
# Condition — evaluation

A command is looked up, its arguments are counted, and the predicate is called.  The operands of
a combinator are evaluated in order, and no further than the first one that decides.  An error
of an operand is an error of the whole condition.
-/

namespace HostPrereqs

/-- What the evaluation of a condition can fail at. -/
inductive EvaluationError where
  | malformed (cause : MalformedCondition)
  | unknownCommand (name : String)
  | wrongCount (predicate arity : String) (count : Nat) (condition : String)
  | predicate (cause : PredicateError)

/-- An action on a host that can fail. -/
abbrev Evaluation (α : Type) := ExceptT EvaluationError OnHost α

namespace Condition

/-- Calls the predicate of a command.  A predicate can add to the log but not read it. -/
def call (r : Registry) (s : Setting) (name : String) (args : List String) (negated : Bool) :
    Evaluation Bool := do
  match r.get? name with
  | none => throw (.unknownCommand name)
  | some p =>
      if !p.takes args.length then
        throw (.wrongCount name p.arity args.length (command name args negated).text)
      modify fun h => { h with calls := h.calls ++ [⟨name, args⟩] }
      (ExceptT.mk (Host.aside (p.run s args).run)).adapt .predicate

mutual

/-- Whether a condition holds. -/
def holds (r : Registry) (s : Setting) : Condition → Evaluation Bool
  | command name args negated => return (← call r s name args negated) != negated
  | combinator .and operands negated => return (← allHold r s operands) != negated
  | combinator .or operands negated => return (← anyHolds r s operands) != negated

def allHold (r : Registry) (s : Setting) : List Condition → Evaluation Bool
  | [] => return true
  | c :: cs => do if ← holds r s c then allHold r s cs else return false

def anyHolds (r : Registry) (s : Setting) : List Condition → Evaluation Bool
  | [] => return false
  | c :: cs => do if ← holds r s c then return true else anyHolds r s cs

end

/-- The record of an evaluation. -/
def evaluated (c : Condition) (result : Bool) : Log.Record :=
  ⟨.debug, "dynreqs.conditions.evaluator", "condition_evaluated",
    [("condition", .str c.text), ("result", .bool result)]⟩

/-- Reads a condition and evaluates it. -/
def evaluate (r : Registry) (s : Setting) (v : Value) : Evaluation Bool := do
  match parse v with
  | .error e => throw (.malformed e)
  | .ok c =>
      let result ← holds r s c
      Host.report (evaluated c result)
      return result

end Condition

end HostPrereqs
