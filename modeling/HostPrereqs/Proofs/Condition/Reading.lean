import HostPrereqs.Condition.Reading
import HostPrereqs.Predicate.Registry
import HostPrereqs.Proofs.Result
import HostPrereqs.Proofs.Text.Words

/-!
# Condition — reading what is written

A condition that was read is read again from its own text, as it is: `parse_text_of_parse`.

What reading gives is *proper* (`Proper`): its commands have names that a predicate can have.  The
head word of a proper condition is read as that name or junction (`headOf?_headWord`), and the
words of its text are the ones it was joined from (`Words.split_join`); the rest is induction on
conditions.  Reading itself is taken apart once, into the items and what is made of them
(`readItems`).
-/

namespace HostPrereqs

namespace Condition

/-! ### The head word -/

/-- A bare word is not empty and has word characters only. -/
theorem isBareWord_iff {name : String} : Registry.isBareWord name = true ↔
    name ≠ "" ∧ ∀ c ∈ name.toList, Text.isWordChar c = true := by
  simp [Registry.isBareWord]

theorem not_mem_of_isBareWord {name : String} (hname : Registry.isBareWord name = true) {c : Char}
    (hc : Text.isWordChar c = false) : c ∉ name.toList := by
  intro hmem
  rw [(isBareWord_iff.1 hname).2 c hmem] at hc
  cases hc

theorem mark_not_mem {name : String} (hname : Registry.isBareWord name = true) :
    '!' ∉ name.toList :=
  not_mem_of_isBareWord hname (by decide +kernel)

theorem lineEnd_not_mem {name : String} (hname : Registry.isBareWord name = true) :
    '\n' ∉ name.toList :=
  not_mem_of_isBareWord hname (by decide +kernel)

theorem dropLineEnd_of_not_mem {w : List Char} (h : '\n' ∉ w) : dropLineEnd w = w :=
  if_neg fun hlast => h (List.mem_of_getLast? hlast)

/-- A head word after its mark. -/
def nameOf? (negated : Bool) (w : List Char) : Option Head :=
  if (dropLineEnd w).isEmpty || !(dropLineEnd w).all Text.isWordChar then none
  else some ⟨String.ofList (dropLineEnd w), negated⟩

theorem headOf?_of_mark {w : String} {rest : List Char} (h : w.toList = '!' :: rest) :
    headOf? w = nameOf? true rest := by
  simp only [headOf?, h]
  rfl

theorem headOf?_of_no_mark {w : String} (h : ∀ rest, w.toList ≠ '!' :: rest) :
    headOf? w = nameOf? false w.toList := by
  unfold headOf?
  split
  rename_i negated rest heq
  split at heq
  · rename_i hmark
    exact absurd hmark (h _)
  · cases heq
    rfl

theorem isBareWord_of_nameOf? {negated : Bool} {w : List Char} {head : Head}
    (h : nameOf? negated w = some head) : Registry.isBareWord head.name = true := by
  unfold nameOf? at h
  split at h
  · cases h
  · rename_i hname
    cases h
    simpa [isBareWord_iff, String.toList_ofList] using hname

/-- A bare word is read as itself. -/
theorem nameOf?_toList {name : String} (hname : Registry.isBareWord name = true)
    (negated : Bool) : nameOf? negated name.toList = some ⟨name, negated⟩ := by
  obtain ⟨hne, hword⟩ := isBareWord_iff.1 hname
  unfold nameOf?
  rw [dropLineEnd_of_not_mem (lineEnd_not_mem hname), if_neg (by simpa using ⟨hne, hword⟩),
    String.ofList_toList]

/-- What is read as the name of a command is a bare word. -/
theorem isBareWord_of_headOf? {w : String} {head : Head} (h : headOf? w = some head) :
    Registry.isBareWord head.name = true := by
  by_cases hmark : ∃ rest, w.toList = '!' :: rest
  · obtain ⟨rest, hw⟩ := hmark
    rw [headOf?_of_mark hw] at h
    exact isBareWord_of_nameOf? h
  · rw [headOf?_of_no_mark fun rest hw => hmark ⟨rest, hw⟩] at h
    exact isBareWord_of_nameOf? h

/-- A head word is read as what it is written from. -/
theorem headOf?_headWord {name : String} (hname : Registry.isBareWord name = true)
    (negated : Bool) : headOf? (headWord negated name) = some ⟨name, negated⟩ := by
  cases negated with
  | true =>
      have hw : (headWord true name).toList = '!' :: name.toList := by simp [headWord]
      rw [headOf?_of_mark hw]
      exact nameOf?_toList hname true
  | false =>
      have hw : headWord false name = name := by simp [headWord]
      rw [hw, headOf?_of_no_mark fun rest heq => mark_not_mem hname (by simp [heq])]
      exact nameOf?_toList hname false

theorem headWord_ne_mark {name : String} (hname : Registry.isBareWord name = true)
    (negated : Bool) : headWord negated name ≠ "!" := by
  intro heq
  have hchars := congrArg String.toList heq
  cases negated with
  | true =>
      have hnil : name.toList = [] := by simpa [headWord] using hchars
      exact (isBareWord_iff.1 hname).1 (String.toList_eq_nil_iff.1 hnil)
  | false =>
      have hmark : name.toList = ['!'] := by simpa [headWord] using hchars
      exact mark_not_mem hname (hmark ▸ List.mem_cons_self)

theorem takeMark_of_ne {w : String} (h : w ≠ "!") (rest : List Value) :
    takeMark (.str w :: rest) = (false, .str w :: rest) := by
  unfold takeMark
  split
  · rename_i heq
    cases heq
    exact absurd rfl h
  · rfl

/-- The first item is a head word, after an exclamation mark that may stand alone. -/
theorem readHead_eq_ok {items rest : List Value} {head : Head} :
    readHead items = .ok (head, rest) ↔ ∃ mark w read, takeMark items = (mark, .str w :: rest) ∧
      headOf? w = some read ∧ head = ⟨read.name, mark != read.negated⟩ := by
  simp only [readHead]
  generalize takeMark items = p
  obtain ⟨mark, items⟩ := p
  constructor
  · intro h
    dsimp only at h
    split at h
    · cases h
    · split at h
      · rename_i read hread
        cases h
        exact ⟨_, _, read, rfl, hread, rfl⟩
      · cases h
    · cases h
  · rintro ⟨mark, w, read, heq, hread, rfl⟩
    cases heq
    simp only [hread]

/-- The first item of a condition as it is written. -/
theorem readHead_headWord {name : String} (hname : Registry.isBareWord name = true)
    (negated : Bool) (rest : List Value) :
    readHead (.str (headWord negated name) :: rest) = .ok (⟨name, negated⟩, rest) :=
  readHead_eq_ok.2 ⟨false, _, _, takeMark_of_ne (headWord_ne_mark hname negated) rest,
    headOf?_headWord hname negated, by rw [Bool.false_bne]⟩

theorem isBareWord_of_readHead {items rest : List Value} {head : Head}
    (h : readHead items = .ok (head, rest)) : Registry.isBareWord head.name = true := by
  obtain ⟨mark, w, read, -, hread, rfl⟩ := readHead_eq_ok.1 h
  have hname : Registry.isBareWord read.name = true := isBareWord_of_headOf? hread
  exact hname

/-! ### Items and what is made of them -/

/-- Reads the items of the condition `parent`. -/
def readItems (parent : Value) (items : List Value) : Except MalformedCondition Condition :=
  match readHead items with
  | .error cause => .error ⟨cause, parent⟩
  | .ok (head, rest) =>
      match Junction.ofName? head.name with
      | some junction => (parseOperands parent rest).map (combinator junction · head.negated)
      | none =>
          match rest.mapM (readArgument head.name) with
          | .ok args => .ok (.command head.name args head.negated)
          | .error cause => .error ⟨cause, parent⟩

/-- A value that is no condition is read by its items. -/
theorem parse_of_itemsOf {v : Value} {items : List Value} (hi : itemsOf v = .ok items) :
    parse v = readItems v items := by
  rw [parse]
  · split
    · rename_i heq
      rw [hi] at heq
      cases heq
    · rename_i heq
      rw [hi] at heq
      cases heq
      unfold readItems
      split
      · rename_i hread
        rw [hread]
      · rename_i hread
        generalize readHead items = p at hread ⊢
        cases hread
        rfl
  · rintro c rfl
    cases hi

theorem parse_of_itemsOf_error {v : Value} {cause : Malformation} (hv : ∀ c, v ≠ .condition c)
    (hitems : itemsOf v = .error cause) : parse v = .error ⟨cause, v⟩ := by
  rw [parse]
  · split
    · rename_i heq
      rw [hitems] at heq
      rw [Except.error.inj heq]
    · rename_i heq
      rw [hitems] at heq
      cases heq
  · exact hv

/-- An item weighs no more than all items. -/
theorem weight_le_of_mem {x : Value} {xs : List Value} (hx : x ∈ xs) :
    x.weight ≤ Value.weights xs := by
  induction xs with
  | nil => cases hx
  | cons y ys ih =>
      rw [Value.weights]
      rcases List.mem_cons.1 hx with rfl | hy
      · exact Nat.le_add_right _ _
      · exact Nat.le_trans (ih hy) (Nat.le_add_left _ _)

theorem exists_items_of_parse {v : Value} {c : Condition} (hv : ∀ c', v ≠ .condition c')
    (h : parse v = .ok c) : ∃ items, itemsOf v = .ok items ∧ readItems v items = .ok c := by
  cases hi : itemsOf v with
  | ok items => exact ⟨items, rfl, parse_of_itemsOf hi ▸ h⟩
  | error cause =>
      rw [parse_of_itemsOf_error hv hi] at h
      cases h

/-- A condition is read from its items: a head, and then operands or arguments. -/
theorem readItems_eq_ok {parent : Value} {items : List Value} {c : Condition} :
    readItems parent items = .ok c ↔ ∃ head rest, readHead items = .ok (head, rest) ∧
      ((∃ j cs, Junction.ofName? head.name = some j ∧ parseOperands parent rest = .ok cs ∧
          c = .combinator j cs head.negated) ∨
        (Junction.ofName? head.name = none ∧ ∃ args,
          rest.mapM (readArgument head.name) = .ok args ∧
          c = .command head.name args head.negated)) := by
  constructor
  · intro h
    unfold readItems at h
    split at h
    · cases h
    · rename_i head rest hread
      refine ⟨head, rest, hread, ?_⟩
      split at h
      · rename_i j hj
        obtain ⟨cs, hcs, rfl⟩ := Result.map_eq_ok.1 h
        exact .inl ⟨j, cs, hj, hcs, rfl⟩
      · rename_i hj
        split at h
        · rename_i args hargs
          cases h
          exact .inr ⟨hj, args, hargs, rfl⟩
        · cases h
  · rintro ⟨head, rest, hread, ⟨j, cs, hj, hcs, rfl⟩ | ⟨hj, args, hargs, rfl⟩⟩
    · simp only [readItems, hread, hj, hcs, Except.map]
    · simp only [readItems, hread, hj, hargs]

/-- Operands are read one by one, and each of them has to be one. -/
theorem parseOperands_eq_ok {parent : Value} {xs : List Value} {cs : List Condition} :
    parseOperands parent xs = .ok cs ↔
      (∀ x ∈ xs, isOperand x = true) ∧ xs.map parse = cs.map .ok := by
  induction xs generalizing cs with
  | nil => cases cs <;> simp [parseOperands]
  | cons x xs ih =>
      rw [parseOperands]
      by_cases hx : isOperand x = true
      · cases hparse : parse x with
        | error e => cases cs <;> simp [hx, hparse]
        | ok c => cases cs <;> simp [hx, hparse, Result.map_eq_ok, ih, and_comm, and_assoc]
      · simp [hx]

/-! ### Proper conditions -/

/-- The commands of a condition have names that a predicate can have. -/
inductive Proper : Condition → Prop where
  | command {name : String} {args : List String} {negated : Bool}
      (word : Registry.isBareWord name = true) (free : Junction.ofName? name = none) :
      Proper (.command name args negated)
  | combinator {junction : Junction} {operands : List Condition} {negated : Bool}
      (each : ∀ c ∈ operands, Proper c) : Proper (.combinator junction operands negated)

theorem ne_condition_of_isOperand {x : Value} (hx : isOperand x = true) (c : Condition) :
    x ≠ .condition c := by
  rintro rfl
  cases hx

/-- What is read is proper. -/
theorem proper_of_parse {v : Value} {c : Condition} (hv : ∀ c', v ≠ .condition c')
    (h : parse v = .ok c) : c.Proper := by
  induction c using induct generalizing v with
  | command name args negated =>
      obtain ⟨items, -, hitems⟩ := exists_items_of_parse hv h
      obtain ⟨head, rest, hread, ⟨j, cs, -, -, heq⟩ | ⟨hfree, args', -, heq⟩⟩ :=
        readItems_eq_ok.1 hitems
      · cases heq
      · cases heq
        exact .command (isBareWord_of_readHead hread) hfree
  | combinator junction operands negated ih =>
      obtain ⟨items, -, hitems⟩ := exists_items_of_parse hv h
      obtain ⟨head, rest, -, ⟨j, cs, -, hoperands, heq⟩ | ⟨-, args, -, heq⟩⟩ :=
        readItems_eq_ok.1 hitems
      · cases heq
        obtain ⟨hlines, hparse⟩ := parseOperands_eq_ok.1 hoperands
        refine .combinator fun c hc => ?_
        obtain ⟨x, hx, hread⟩ := List.mem_map.1 (hparse ▸ List.mem_map_of_mem hc)
        exact ih c hc (ne_condition_of_isOperand (hlines x hx)) hread
      · cases heq

theorem isBareWord_name (junction : Junction) : Registry.isBareWord junction.name = true := by
  cases junction <;> decide +kernel

theorem mapM_readArgument (name : String) (args : List String) :
    (args.map Value.str).mapM (readArgument name) = .ok args := by
  induction args with
  | nil => rfl
  | cons arg args ih =>
      rw [List.map_cons, List.mapM_cons, ih]
      rfl

/-- The words of a line are read back from it. -/
theorem itemsOf_join (ws : List String) : itemsOf (.str (Words.join ws)) = .ok (ws.map .str) := by
  simp only [itemsOf, Words.split_join]

/-- A name that a predicate can have, with arguments after it, is a command. -/
theorem parse_command {v : Value} {name : String} {args : List String} {negated : Bool}
    (hi : itemsOf v = .ok ((headWord negated name :: args).map .str))
    (word : Registry.isBareWord name = true) (free : Junction.ofName? name = none) :
    parse v = .ok (.command name args negated) := by
  rw [parse_of_itemsOf hi, readItems_eq_ok]
  exact ⟨_, _, readHead_headWord word negated _, .inr ⟨free, args, mapM_readArgument name args,
    rfl⟩⟩

/-- A proper condition is read from its text. -/
theorem Proper.parse_text {c : Condition} (hc : c.Proper) : parse (.str c.text) = .ok c := by
  induction hc with
  | @command name args negated word free =>
      rw [text]
      exact parse_command (itemsOf_join _) word free
  | @combinator junction operands negated _ ih =>
      rw [text, parse_of_itemsOf (itemsOf_join _), readItems_eq_ok]
      refine ⟨_, _, readHead_headWord (isBareWord_name junction) negated _, .inl
        ⟨junction, operands, Junction.ofName?_eq_some.2 rfl, ?_, rfl⟩⟩
      rw [parseOperands_eq_ok, texts_eq_map, List.map_map, List.map_map]
      refine ⟨?_, List.map_congr_left ih⟩
      intro x hx
      obtain ⟨c, -, rfl⟩ := List.mem_map.1 hx
      rfl

/-- What is read from data that is not a condition already, be it a line or a nested list, is read
again from its own text. -/
theorem parse_text_of_parse {v : Value} {c : Condition} (hv : ∀ c', v ≠ .condition c')
    (h : parse v = .ok c) : parse (.str c.text) = .ok c :=
  (proper_of_parse hv h).parse_text

/-- A negated choice of a list with a quote in it, a line, and a list with a number. -/
def quotedChoice : Value :=
  .list [.str "!", .str "or", .list [.str "!is_os", .str "it's"],
    .str "has_module \"Foo Bar\" 1.2", .list [.str "has_perl", .int 5]]

theorem parse_quotedChoice : parse quotedChoice = .ok (.combinator .or
    [.command "is_os" ["it's"] true, .command "has_module" ["Foo Bar", "1.2"] false,
      .command "has_perl" ["5"] false] true) := by
  have hos : parse (.list [.str "!is_os", .str "it's"]) = .ok (.command "is_os" ["it's"] true) := by
    rw [parse_of_itemsOf rfl]
    rfl
  have hmodule : parse (.str "has_module \"Foo Bar\" 1.2") =
      .ok (.command "has_module" ["Foo Bar", "1.2"] false) := by
    rw [parse_of_itemsOf rfl]
    rfl
  have hperl : parse (.list [.str "has_perl", .int 5]) = .ok (.command "has_perl" ["5"] false) := by
    rw [parse_of_itemsOf rfl]
    rfl
  rw [quotedChoice, parse_of_itemsOf rfl, readItems_eq_ok]
  refine ⟨_, _, rfl, .inl ⟨.or, _, rfl, parseOperands_eq_ok.2 ⟨?_, ?_⟩, rfl⟩⟩
  · simp [isOperand]
  · simp [hos, hmodule, hperl]

theorem parse_text_of_parse_quotedChoice : (∀ c, quotedChoice ≠ .condition c) ∧
    ∃ c, parse quotedChoice = .ok c ∧ parse (.str c.text) = .ok c := by
  have hlist : ∀ c, quotedChoice ≠ .condition c := by
    rintro c ⟨⟩
  exact ⟨hlist, _, parse_quotedChoice, parse_text_of_parse hlist parse_quotedChoice⟩

end Condition

end HostPrereqs
