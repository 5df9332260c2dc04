import HostPrereqs.Proofs.Condition.Reading

/-!
# Condition — lines and lists

A list of words and the line of these words are read alike, and so is a list with further lists
among its operands when each of them is replaced by its line: `reading_lines`.  Alike means the
same condition, or errors with the same text (`reading`); the errors themselves also hold the data
they were found in, which differ.

What is read depends on the items alone (`reading_of_itemsOf`), and the items of a line are the
words it was joined from.  Replacing operands by their lines keeps the first item (`readHead_map`)
and what every operand is read as, by induction on the nesting (`Nested`).
-/

namespace HostPrereqs.Condition

/-! ### What is read, up to the place of an error -/

/-- The condition that is read, or the text of the error. -/
def reading (v : Value) : Except String Condition := (parse v).mapError MalformedCondition.message

/-- What is read as operands. -/
def readings : List Value → Except String (List Condition)
  | [] => .ok []
  | x :: xs =>
      if isOperand x then
        match reading x with
        | .error message => .error message
        | .ok c => (readings xs).map (c :: ·)
      else .error (Malformation.badOperand x).message

/-- What is read from items. -/
def readingOf (items : List Value) : Except String Condition :=
  match readHead items with
  | .error cause => .error cause.message
  | .ok (head, rest) =>
      match Junction.ofName? head.name with
      | some junction => (readings rest).map (combinator junction · head.negated)
      | none =>
          match rest.mapM (readArgument head.name) with
          | .ok args => .ok (.command head.name args head.negated)
          | .error cause => .error cause.message

theorem mapError_parseOperands (parent : Value) (xs : List Value) :
    (parseOperands parent xs).mapError MalformedCondition.message = readings xs := by
  induction xs with
  | nil =>
      rw [parseOperands]
      rfl
  | cons x xs ih =>
      rw [parseOperands, readings, reading, ← ih]
      split
      · cases parse x with
        | error e => rfl
        | ok c => cases parseOperands parent xs <;> rfl
      · rfl

/-- What is read does not depend on how the items are given. -/
theorem reading_of_itemsOf {v : Value} {items : List Value} (hi : itemsOf v = .ok items) :
    reading v = readingOf items := by
  rw [reading, parse_of_itemsOf hi, readItems, readingOf]
  cases readHead items with
  | error cause => rfl
  | ok p =>
      obtain ⟨head, rest⟩ := p
      dsimp only
      cases Junction.ofName? head.name with
      | some junction =>
          rw [← mapError_parseOperands v rest]
          cases parseOperands v rest <;> rfl
      | none => cases rest.mapM (readArgument head.name) <;> rfl

/-- A list of words is read as their line. -/
theorem reading_join (ws : List String) : reading (.str (Words.join ws)) = reading (.strs ws) := by
  have hlist : itemsOf (.strs ws) = .ok (ws.map .str) := rfl
  rw [reading_of_itemsOf (itemsOf_join ws), reading_of_itemsOf hlist]

/-! ### Operands by their lines -/

mutual

/-- The line that stands for data: a text for itself, a list for its items. -/
def lineOf : Value → String
  | .str s   => s
  | .list xs => Words.join (linesOf xs)
  | _        => ""

def linesOf : List Value → List String
  | []      => []
  | x :: xs => lineOf x :: linesOf xs

end

/-- Texts, lists of texts, and lists that are `and` or `or` over such data. -/
inductive Nested : Value → Prop where
  | text (s : String) : Nested (.str s)
  | words (ws : List String) : Nested (.strs ws)
  | operands {xs rest : List Value} {head : Head} {junction : Junction}
      (hread : readHead xs = .ok (head, rest))
      (hjunction : Junction.ofName? head.name = some junction)
      (each : ∀ x ∈ rest, Nested x) : Nested (.list xs)

theorem Nested.isOperand {v : Value} (hv : Nested v) : isOperand v = true := by
  cases hv <;> rfl

theorem linesOf_eq_map (xs : List Value) : linesOf xs = xs.map lineOf := by
  induction xs with
  | nil => rfl
  | cons x xs ih => rw [linesOf, ih, List.map_cons]

theorem linesOf_map_str (ws : List String) : linesOf (ws.map .str) = ws := by
  rw [linesOf_eq_map, List.map_map]
  exact List.map_id ws

section

variable {f : Value → Value} (hf : ∀ s, f (.str s) = .str s)

include hf

theorem takeMark_map {xs rest : List Value} {mark : Bool} {w : String}
    (h : takeMark xs = (mark, .str w :: rest)) :
    takeMark (xs.map f) = (mark, .str w :: rest.map f) := by
  unfold takeMark at h
  split at h
  · cases h
    rw [List.map_cons, List.map_cons, hf, hf]
    rfl
  · rename_i hmark
    cases h
    rw [List.map_cons, hf]
    cases rest with
    | nil => simp [takeMark]
    | cons x xs => exact takeMark_of_ne (fun hw => hmark x xs (by rw [hw])) _

/-- A change of the items that keeps texts keeps the first item. -/
theorem readHead_map {xs rest : List Value} {head : Head} (h : readHead xs = .ok (head, rest)) :
    readHead (xs.map f) = .ok (head, rest.map f) := by
  obtain ⟨mark, w, read, hmark, hread, rfl⟩ := readHead_eq_ok.1 h
  exact readHead_eq_ok.2 ⟨mark, w, read, takeMark_map hf hmark, hread, rfl⟩

end

theorem readings_map {f : Value → Value} {xs : List Value}
    (hx : ∀ x ∈ xs, isOperand x = true) (hfx : ∀ x ∈ xs, isOperand (f x) = true)
    (hread : ∀ x ∈ xs, reading (f x) = reading x) : readings (xs.map f) = readings xs := by
  induction xs with
  | nil => rfl
  | cons x xs ih =>
      obtain ⟨hx₁, hx⟩ := List.forall_mem_cons.1 hx
      obtain ⟨hfx₁, hfx⟩ := List.forall_mem_cons.1 hfx
      obtain ⟨hread₁, hread⟩ := List.forall_mem_cons.1 hread
      rw [List.map_cons, readings, readings, ih hx hfx hread, hx₁, hfx₁, hread₁, if_pos rfl,
        if_pos rfl]

/-- The operands of a combinator can be changed for others that are read alike. -/
theorem readingOf_map {f : Value → Value} (hf : ∀ s, f (.str s) = .str s) {xs rest : List Value}
    {head : Head} {junction : Junction} (hhead : readHead xs = .ok (head, rest))
    (hjunction : Junction.ofName? head.name = some junction)
    (hx : ∀ x ∈ rest, isOperand x = true) (hfx : ∀ x ∈ rest, isOperand (f x) = true)
    (hread : ∀ x ∈ rest, reading (f x) = reading x) : readingOf (xs.map f) = readingOf xs := by
  simp only [readingOf, readHead_map hf hhead, hhead, hjunction, readings_map hx hfx hread]

/-! ### Nested lists -/

/-- Data in lines and lists is read as its line. -/
theorem Nested.reading_lineOf {v : Value} (hv : Nested v) :
    reading (.str (lineOf v)) = reading v := by
  induction hv with
  | text s => rfl
  | words ws =>
      have hline : lineOf (.strs ws) = Words.join ws := by
        rw [Value.strs, lineOf, linesOf_map_str]
      rw [hline, reading_join]
  | @operands xs rest head junction hread hjunction each ih =>
      have hitems : itemsOf (.list xs) = .ok xs := rfl
      have hlines : itemsOf (.strs (linesOf xs)) = .ok (xs.map fun x => .str (lineOf x)) := by
        rw [Value.strs, linesOf_eq_map, List.map_map]
        rfl
      rw [lineOf, reading_join, reading_of_itemsOf hlines, reading_of_itemsOf hitems]
      refine readingOf_map ?_ hread hjunction (fun x hx => (each x hx).isOperand)
        (fun x hx => rfl) ih
      intro s
      rw [lineOf]

/-- A list of words and their line are read alike, as the same condition or with the same error
text.  So is a list with lists among its operands, when each of these, and then the list itself, is
replaced by its line. -/
theorem reading_lines :
    (∀ ws : List String, reading (.strs ws) = reading (.str (Words.join ws))) ∧
    ∀ xs : List Value, Nested (.list xs) →
      reading (.strs (linesOf xs)) = reading (.list xs) ∧
      reading (.str (Words.join (linesOf xs))) = reading (.list xs) := by
  refine ⟨fun ws => (reading_join ws).symm, fun xs hxs => ?_⟩
  have hline := hxs.reading_lineOf
  rw [lineOf] at hline
  exact ⟨(reading_join _).symm.trans hline, hline⟩

/-- A negated conjunction over a choice with an empty operand in it. -/
def emptyInside : List Value :=
  [.str "!", .str "and", .list [.str "or", .list [.str "is_os", .str "a b"], .str ""],
    .str "can_xs"]

theorem nested_emptyInside : Nested (.list emptyInside) := by
  have hchoice : Nested (.list [.str "or", .list [.str "is_os", .str "a b"], .str ""]) := by
    refine @Nested.operands _ _ ⟨"or", false⟩ .or rfl rfl ?_
    simp only [List.forall_mem_cons, List.not_mem_nil, false_implies, implies_true, and_true]
    exact ⟨.words ["is_os", "a b"], .text ""⟩
  refine @Nested.operands _ _ ⟨"and", true⟩ .and rfl rfl ?_
  simp only [List.forall_mem_cons, List.not_mem_nil, false_implies, implies_true, and_true]
  exact ⟨hchoice, .text "can_xs"⟩

theorem reading_lines_emptyInside : Nested (.list emptyInside) ∧
    linesOf emptyInside = ["!", "and", "or 'is_os '\"'\"'a b'\"'\"'' ''", "can_xs"] ∧
    reading (.strs (linesOf emptyInside)) = reading (.list emptyInside) ∧
    reading (.str (Words.join (linesOf emptyInside))) = reading (.list emptyInside) :=
  ⟨nested_emptyInside, by decide +kernel, reading_lines.2 _ nested_emptyInside⟩

end HostPrereqs.Condition
