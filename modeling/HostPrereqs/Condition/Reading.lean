import HostPrereqs.Text.WordChar
import HostPrereqs.Value.Literal

/-!
# Condition — reading

A condition is written as a line of words or as a list.  The first item is the name, a bare word
that an exclamation mark may stand before, in the same word or alone; both together cancel out.
The other items are the arguments, texts or numbers; after `and` and `or` they are conditions
themselves, again lines or lists.

Reading ends because every item weighs less than what it was taken from (`Value.weight`): a line
weighs one more than it is long, and its words with the blanks between them are no longer than
the line.

* `weights_itemsOf`: the items of a condition weigh no more than the condition.
-/

namespace HostPrereqs

/-- What can be wrong with a condition. -/
inductive Malformation where
  | unreadableLine (line : String) (fault : Words.Fault)
  | neitherLineNorList (kind : String)
  | empty
  | headNotText (head : Value)
  | badHead (head : String)
  | badArgument (argument : Value) (command : String)
  | badOperand (operand : Value)
  /-- A number that is too long to be the text of an argument. -/
  | hugeArgument (number : Int)

namespace Malformation

/-- Whether a report is made of a malformation.  There is none where a number is too long to be
written in it. -/
def isReported : Malformation → Bool
  | headNotText v | badArgument v _ | badOperand v => v.isWritable
  | hugeArgument _ => false
  | _ => true

def message (cause : Malformation) : String :=
  if cause.isReported then
    match cause with
    | unreadableLine line fault =>
        s!"Can't parse dynamic prerequisite '{line}': {fault.message}"
    | neitherLineNorList kind => s!"Condition must be a string or a list, got {kind}"
    | empty => "Empty condition"
    | headNotText head =>
        s!"Can't parse dynamic prerequisite '{head.literal}': command must be a word"
    | badHead head => s!"Can't parse dynamic prerequisite '{head}'"
    | badArgument argument command =>
        s!"Argument {argument.literal} to '{command}' must be a string"
    | badOperand operand => s!"Operand {operand.literal} is not a condition"
    | hugeArgument _ => Numeral.unwritable
  else Numeral.unwritable

end Malformation

/-- A malformation, and the condition it was found in. -/
structure MalformedCondition where
  cause : Malformation
  condition : Value

namespace MalformedCondition

def message (e : MalformedCondition) : String := e.cause.message

end MalformedCondition

/-! ### Weights -/

namespace Value

mutual

/-- A bound on the steps that reading a condition takes. -/
def weight : Value → Nat
  | str s    => s.length + 1
  | bytes bs => bs.length + 1
  | list xs  => weights xs + 1
  | tuple xs => weights xs + 1
  | _        => 1

def weights : List Value → Nat
  | []      => 0
  | x :: xs => weight x + weights xs

end

theorem weight_pos (v : Value) : 0 < v.weight := by cases v <;> simp [weight]

theorem weights_map_str (ws : List String) :
    weights (ws.map str) = Words.span (ws.map String.toList) := by
  induction ws with
  | nil => rfl
  | cons w ws ih => simp [weights, weight, Words.span, ih, String.length_toList]

theorem weights_map_int (bs : List UInt8) :
    weights (bs.map fun b => int b.toNat) = bs.length := by
  induction bs with
  | nil => rfl
  | cons b bs ih =>
      simp only [List.map_cons, weights, weight, ih, List.length_cons]
      omega

end Value

namespace Condition

/-! ### Items -/

/-- The items of a condition that is written as a line or as a list. -/
def itemsOf : Value → Except Malformation (List Value)
  | .str s =>
      match Words.split s with
      | .ok ws => .ok (ws.map .str)
      | .error fault => .error (.unreadableLine s fault)
  | .bytes bs => .ok (bs.map fun b => .int b.toNat)
  | .list xs | .tuple xs => .ok xs
  | v => .error (.neitherLineNorList v.kindName)

/-- The items of a condition weigh no more than the condition. -/
theorem weights_itemsOf {v : Value} {xs : List Value} (h : itemsOf v = .ok xs) :
    Value.weights xs ≤ v.weight := by
  cases v with
  | str s =>
      simp only [itemsOf] at h
      split at h
      · rename_i ws hw
        obtain rfl := Except.ok.inj h
        simpa [Value.weights_map_str, Value.weight] using Words.length_split hw
      · cases h
  | bytes bs =>
      obtain rfl := Except.ok.inj h
      simp [Value.weights_map_int, Value.weight]
  | list xs =>
      obtain rfl := Except.ok.inj h
      simp [Value.weight]
  | tuple xs =>
      obtain rfl := Except.ok.inj h
      simp [Value.weight]
  | _ => simp [itemsOf] at h

/-! ### The first item -/

/-- A name, and whether an exclamation mark stands before it. -/
structure Head where
  name : String
  negated : Bool
deriving DecidableEq, Repr

/-- Drops a line end at the end of a word. -/
def dropLineEnd (w : List Char) : List Char :=
  if w.getLast? = some '\n' then w.dropLast else w

/-- Reads a name of word characters after an optional exclamation mark.  A line end after the
name is dropped. -/
def headOf? (w : String) : Option Head :=
  let (negated, rest) := match w.toList with
    | '!' :: rest => (true, rest)
    | rest => (false, rest)
  let name := dropLineEnd rest
  if name.isEmpty || !name.all Text.isWordChar then none else some ⟨String.ofList name, negated⟩

/-- Takes an exclamation mark that stands alone off the items, if something follows it. -/
def takeMark : List Value → Bool × List Value
  | .str "!" :: x :: xs => (true, x :: xs)
  | xs => (false, xs)

/-- Reads the first item, after an exclamation mark that stands alone. -/
def readHead (items : List Value) : Except Malformation (Head × List Value) :=
  let (mark, items) := takeMark items
  match items with
  | [] => .error .empty
  | .str w :: rest =>
      match headOf? w with
      | some head => .ok (⟨head.name, mark != head.negated⟩, rest)
      | none => .error (.badHead w)
  | head :: _ => .error (.headNotText head)

theorem weights_takeMark (xs : List Value) : Value.weights (takeMark xs).2 ≤ Value.weights xs := by
  unfold takeMark
  split
  · simp [Value.weights]
  · exact Nat.le_refl _

/-- What follows the first item weighs less than all items. -/
theorem weights_readHead {xs rest : List Value} {head : Head}
    (h : readHead xs = .ok (head, rest)) : Value.weights rest < Value.weights xs := by
  have hle := weights_takeMark xs
  simp only [readHead] at h
  split at h
  · cases h
  · rename_i w r hitems
    split at h
    · simp only [Except.ok.injEq, Prod.mk.injEq] at h
      obtain ⟨-, rfl⟩ := h
      have : 0 < (Value.str w).weight := Value.weight_pos _
      rw [hitems] at hle
      simp only [Value.weights] at hle
      omega
    · cases h
  · cases h

/-! ### Conditions -/

/-- Reads one argument of a command: a text, or the text of a number. -/
def readArgument (name : String) : Value → Except Malformation String
  | .str s => .ok s
  | .int i => if Numeral.Fits i.natAbs then .ok (toString i) else .error (.hugeArgument i)
  | .float x => .ok x.text
  | v => .error (.badArgument v name)

/-- Whether an item may be an operand: a line or a list. -/
def isOperand : Value → Bool
  | .str _ | .list _ | .tuple _ => true
  | _ => false

mutual

/-- Reads a condition.  One that is built already stands for itself. -/
def parse (v : Value) : Except MalformedCondition Condition :=
  match v with
  | .condition c => .ok c
  | v =>
      match _hi : itemsOf v with
      | .error cause => .error ⟨cause, v⟩
      | .ok items =>
          match _hh : readHead items with
          | .error cause => .error ⟨cause, v⟩
          | .ok (head, rest) =>
              match Junction.ofName? head.name with
              | some junction =>
                  (parseOperands v rest).map (combinator junction · head.negated)
              | none =>
                  match rest.mapM (readArgument head.name) with
                  | .ok args => .ok (.command head.name args head.negated)
                  | .error cause => .error ⟨cause, v⟩
termination_by (v.weight, 0)
decreasing_by
  have := weights_itemsOf _hi
  have := weights_readHead _hh
  omega

/-- Reads the operands of the condition `parent`. -/
def parseOperands (parent : Value) (xs : List Value) :
    Except MalformedCondition (List Condition) :=
  match xs with
  | [] => .ok []
  | x :: xs =>
      if isOperand x then
        match parse x with
        | .error e => .error e
        | .ok c => (parseOperands parent xs).map (c :: ·)
      else .error ⟨.badOperand x, parent⟩
termination_by (Value.weights xs, 1)
decreasing_by
  · have := Value.weight_pos x
    simp only [Value.weights]
    omega
  · have := Value.weight_pos x
    simp only [Value.weights]
    omega

end

end Condition

end HostPrereqs
