import HostPrereqs.Text.Literal
import HostPrereqs.Text.Words

/-!
# Condition — conditions

A condition is a command, that is a name with arguments, or a combinator (`and`, `or`) over
conditions; each may be negated (`Condition`).  `Condition.text` writes it as a line of words,
every operand of a combinator as one word.
-/

namespace HostPrereqs

/-- How a combinator joins its operands. -/
inductive Junction where
  | and
  | or
deriving DecidableEq, Repr

namespace Junction

/-- The word that a combinator is written with. -/
def name : Junction → String
  | and => "and"
  | or  => "or"

/-- The combinator that a word names. -/
def ofName? (name : String) : Option Junction :=
  if name = "and" then some .and else if name = "or" then some .or else none

theorem ofName?_eq_some {s : String} {j : Junction} : ofName? s = some j ↔ s = j.name := by
  unfold ofName?
  split
  · rename_i h; subst h; cases j <;> decide
  · split
    · rename_i h; subst h; cases j <;> decide
    · cases j <;> simp_all [name]

end Junction

/-- A test of the host. -/
inductive Condition where
  | command (name : String) (args : List String) (negated : Bool)
  | combinator (junction : Junction) (operands : List Condition) (negated : Bool)
deriving Repr

namespace Condition

def negated : Condition → Bool
  | command _ _ n | combinator _ _ n => n

/-- The first word of a condition: its name or junction, after a `!` when it is negated. -/
def headWord (negated : Bool) (name : String) : String := (if negated then "!" else "") ++ name

mutual

/-- A condition as a line of words. -/
def text : Condition → String
  | command name args negated => Words.join (headWord negated name :: args)
  | combinator junction operands negated =>
      Words.join (headWord negated junction.name :: texts operands)

def texts : List Condition → List String
  | []      => []
  | c :: cs => text c :: texts cs

end

instance : ToString Condition := ⟨text⟩

/-- Induction on conditions: a combinator has a property if all its operands have it. -/
@[elab_as_elim]
theorem induct {motive : Condition → Prop}
    (command : ∀ name args negated, motive (.command name args negated))
    (combinator : ∀ junction operands negated, (∀ c ∈ operands, motive c) →
      motive (.combinator junction operands negated)) : ∀ c, motive c
  | .command name args negated => command name args negated
  | .combinator junction operands negated =>
      combinator junction operands negated fun c _hc => induct command combinator c
termination_by c => c
decreasing_by
  have hlt := List.sizeOf_lt_of_mem _hc
  simp only [Condition.combinator.sizeOf_spec]
  omega

theorem texts_eq_map (cs : List Condition) : texts cs = cs.map text := by
  induction cs with
  | nil => rfl
  | cons c cs ih => rw [texts, ih, List.map_cons]

def boolLiteral (b : Bool) : String := if b then "True" else "False"

mutual

/-- A condition with its parts named. -/
def literal : Condition → String
  | command name args negated =>
      let args := Text.tupleLiteral (args.map Text.literal)
      s!"Command(name={Text.literal name}, args={args}, negated={boolLiteral negated})"
  | combinator junction operands negated =>
      let kind := Text.literal junction.name
      let operands := Text.tupleLiteral (literals operands)
      s!"Combinator(kind={kind}, operands={operands}, negated={boolLiteral negated})"

def literals : List Condition → List String
  | []      => []
  | c :: cs => literal c :: literals cs

end

mutual

/-- Whether two conditions are built alike. -/
def decEq : (a b : Condition) → Decidable (a = b)
  | .command n as g, .command n' as' g' =>
      decidable_of_iff (n = n' ∧ as = as' ∧ g = g') (by simp)
  | .combinator j os g, .combinator j' os' g' =>
      have := decEqs os os'
      decidable_of_iff (j = j' ∧ os = os' ∧ g = g') (by simp)
  | .command .., .combinator .. => isFalse (by simp)
  | .combinator .., .command .. => isFalse (by simp)

def decEqs : (as bs : List Condition) → Decidable (as = bs)
  | [], []           => isTrue rfl
  | [], _ :: _       => isFalse (by simp)
  | _ :: _, []       => isFalse (by simp)
  | a :: as, b :: bs =>
      have := decEq a b
      have := decEqs as bs
      decidable_of_iff (a = b ∧ as = bs) (by simp)

end

instance : DecidableEq Condition := decEq

end Condition

end HostPrereqs
