import HostPrereqs.Condition.Evaluation
import HostPrereqs.Proofs.Host.Similar

/-!
# Condition — evaluation does not depend on the log

Whether a condition holds, and what testing it does to the host, does not depend on the log
(`similar_evaluate`): by induction on conditions, from the calls of predicates, which do not see
it.

Both combinators evaluate their operands in the same way (`joined`): as long as these come out as
the combinator does without operands (`Junction.neutral`), and no further than the first that does
not.
-/

namespace HostPrereqs

/-- What a combinator without operands comes out as. -/
def Junction.neutral : Junction → Bool
  | .and => true
  | .or  => false

namespace Condition

open Host (Similar)

/-- A predicate does not see the log, so calling one does not depend on it. -/
theorem similar_call (r : Registry) (s : Setting) (name : String) (args : List String)
    (negated : Bool) :
    Similar (call r s name args negated) (call r s name args negated) := by
  unfold call
  cases r.get? name with
  | none => exact .throw _ _
  | some p =>
      by_cases htakes : p.takes args.length = true
      · simp only [htakes, Bool.not_true, Bool.false_eq_true, if_false]
        refine .bind (.modify fun h k heq => ?_) fun _ => (Similar.aside _).adapt _ _
        exact congrArg (fun h : Host => { h with calls := h.calls ++ [Call.mk name args] }) heq
      · simp only [htakes]
        exact .throw _ _

mutual

/-- Whether a condition holds does not depend on the log. -/
theorem similar_holds (r : Registry) (s : Setting) :
    ∀ c : Condition, Similar (holds r s c) (holds r s c)
  | .command name args negated => by
      rw [holds]
      exact .bind (similar_call r s name args negated) fun _ => .pure _
  | .combinator .and operands negated => by
      rw [holds]
      exact .bind (similar_allHold r s operands) fun _ => .pure _
  | .combinator .or operands negated => by
      rw [holds]
      exact .bind (similar_anyHolds r s operands) fun _ => .pure _

/-- Operands are tested up to the first that does not hold, whatever the log is. -/
theorem similar_allHold (r : Registry) (s : Setting) :
    ∀ cs : List Condition, Similar (allHold r s cs) (allHold r s cs)
  | [] => by
      rw [allHold]
      exact .pure _
  | c :: cs => by
      rw [allHold]
      refine .bind (similar_holds r s c) fun b => ?_
      cases b with
      | true => exact similar_allHold r s cs
      | false => exact .pure _

/-- Operands are tested up to the first that holds, whatever the log is. -/
theorem similar_anyHolds (r : Registry) (s : Setting) :
    ∀ cs : List Condition, Similar (anyHolds r s cs) (anyHolds r s cs)
  | [] => by
      rw [anyHolds]
      exact .pure _
  | c :: cs => by
      rw [anyHolds]
      refine .bind (similar_holds r s c) fun b => ?_
      cases b with
      | true => exact .pure _
      | false => exact similar_anyHolds r s cs

end

/-- Evaluating a condition does not depend on the log. -/
theorem similar_evaluate (r : Registry) (s : Setting) (v : Value) :
    Similar (evaluate r s v) (evaluate r s v) := by
  unfold evaluate
  cases parse v with
  | error e => exact .throw _ _
  | ok c => exact .bind (similar_holds r s c) fun _ => .bind (.report _ _) fun _ => .pure _

/-! ### Calls -/

section

variable {r : Registry} {s : Setting} {name : String} {args : List String} {negated : Bool}
  {p : Predicate} {h : Host}

/-- A predicate that is not in the registry is not called. -/
theorem call_of_missing (hget : r.get? name = none) :
    call r s name args negated h = (.error (.unknownCommand name), h) := by
  unfold call
  rw [hget]
  rfl

/-- A predicate is not called with more or fewer arguments than it takes. -/
theorem call_of_wrongCount (hget : r.get? name = some p) (htakes : p.takes args.length = false) :
    call r s name args negated h = (.error (.wrongCount name p.arity args.length
      (command name args negated).text), h) := by
  unfold call
  rw [hget]
  simp only [htakes]
  rfl

/-- A predicate that is called is noted, and has a log of its own until it is done. -/
theorem call_of_takes (hget : r.get? name = some p) (htakes : p.takes args.length = true) :
    call r s name args negated h =
      let (x, h') := p.run s args { h with calls := h.calls ++ [⟨name, args⟩], log := [] }
      (x.mapError .predicate, { h' with log := h.log ++ h'.log }) := by
  unfold call
  rw [hget]
  simp only [htakes]
  rfl

end

/-! ### Operands in turn -/

/-- Evaluates the operands of a combinator. -/
def joined (r : Registry) (s : Setting) : Junction → List Condition → Evaluation Bool
  | .and => allHold r s
  | .or  => anyHolds r s

section

variable {r : Registry} {s : Setting} {j : Junction}

/-- Without operands a combinator comes out neutral, and nothing is tested. -/
theorem joined_nil : joined r s j [] = pure j.neutral := by
  cases j with
  | and => rw [joined, allHold, Junction.neutral]
  | or => rw [joined, anyHolds, Junction.neutral]

/-- The operands after the first count only if that one comes out neutral. -/
theorem joined_cons (c : Condition) (cs : List Condition) :
    joined r s j (c :: cs) = (do
      let b ← holds r s c
      if b = j.neutral then joined r s j cs else pure (!j.neutral)) := by
  cases j with
  | and => rw [joined, allHold, Junction.neutral, Bool.not_true]
  | or =>
      rw [joined, anyHolds, Junction.neutral, Bool.not_false]
      exact bind_congr fun b => by cases b <;> rfl

/-- A combinator comes out as its operands do in turn, or negated. -/
theorem holds_combinator (cs : List Condition) (negated : Bool) :
    holds r s (.combinator j cs negated) = (do return (← joined r s j cs) != negated) := by
  cases j <;> rw [holds, joined]

/-- Operands may be split anywhere: the later ones count only if the earlier ones come out neutral.
-/
theorem joined_append (xs ys : List Condition) :
    joined r s j (xs ++ ys) = (do
      let b ← joined r s j xs
      if b = j.neutral then joined r s j ys else pure (!j.neutral)) := by
  induction xs with
  | nil => rw [List.nil_append, joined_nil, pure_bind, if_pos rfl]
  | cons x xs ih =>
      rw [List.cons_append, joined_cons, joined_cons, bind_assoc]
      refine bind_congr fun b => ?_
      by_cases hb : b = j.neutral
      · rw [if_pos hb, if_pos hb, ih]
      · rw [if_neg hb, if_neg hb, pure_bind, if_neg (by simp)]

end

/-- A condition that has been read is read as itself. -/
theorem parse_condition (c : Condition) : parse (.condition c) = .ok c := by
  rw [parse]

/-- Evaluating what can be read is testing the condition and recording the result. -/
theorem evaluate_of_parse {v : Value} {c : Condition} (hv : parse v = .ok c) (r : Registry)
    (s : Setting) : evaluate r s v = (do
      let result ← holds r s c
      liftM (Host.report (evaluated c result))
      return result) := by
  rw [evaluate, hv]

end Condition

end HostPrereqs
