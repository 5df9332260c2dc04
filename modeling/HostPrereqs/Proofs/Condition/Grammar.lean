import HostPrereqs.Proofs.Condition.Reading
import HostPrereqs.Proofs.Text.Quoting
import Mathlib.Data.List.Forall2

/-!
# Condition — the grammar of conditions

A condition is written as a list of items or as a line of words.  The first item is a head, that is
a name with an exclamation mark before it or without one, and another mark may stand before it as an
item of its own.  The other items are conditions again after `and` and `or`, and otherwise texts and
numbers (`Reads`).

The grammar has what may follow the name within the head as a parameter.  Nothing may, one would
expect; but reading takes a line feed there too (`LineEnd`), so that it accepts conditions whose
heads are more than a mark and a name (`reads_brokenHead`).

* `headOf?_eq_some_iff`: heads are read just as the grammar says.
* `reads_nil_iff`: the grammars with and without line feeds differ only in conditions that have a
  line feed at the end of a head (`LineFeedHead`).
* `parse_iff_reads`: of data as they are written in data files, just the conditions of the grammar
  are read.
-/

namespace HostPrereqs

/-- Data of the kinds that JSON has. -/
inductive Value.IsJson : Value → Prop where
  | null : IsJson .null
  | bool (b : Bool) : IsJson (.bool b)
  | int (i : Int) : IsJson (.int i)
  | float (x : Double) : IsJson (.float x)
  | str (s : String) : IsJson (.str s)
  | list {xs : List Value} (items : ∀ x ∈ xs, IsJson x) : IsJson (.list xs)
  | map {es : List (Value × Value)} (keys : ∀ e ∈ es, ∃ s, e.1 = .str s)
      (values : ∀ e ∈ es, IsJson e.2) : IsJson (.map es)

namespace Condition

/-! ### The grammar -/

/-- The items that a condition is written with: those of a list, or the words of a line. -/
inductive Items : Value → List Value → Prop where
  | list (xs : List Value) : Items (.list xs) xs
  | line {s : String} {ws : List String} (line : Words.Line s.toList (ws.map String.toList)) :
      Items (.str s) (ws.map .str)

/-- Items after a mark that stands alone before something, or without one. -/
inductive Marked : Bool → List Value → List Value → Prop where
  | mark (x : Value) (xs : List Value) : Marked true (.str "!" :: x :: xs) (x :: xs)
  | none {xs : List Value} (alone : ∀ x ys, xs ≠ .str "!" :: x :: ys) : Marked false xs xs

/-- A word is a head: a mark or none, a name of word characters, and what `ends` allows. -/
structure IsHead (ends : List Char → Prop) (w name : String) (negated : Bool) : Prop where
  word : Registry.isBareWord name = true
  text : ∃ rest, ends rest ∧ w.toList = (headWord negated name).toList ++ rest

/-- An argument of a command: a text, or a number by its text, unless this is too long. -/
inductive Argument : Value → String → Prop where
  | str (s : String) : Argument (.str s) s
  | int {i : Int} (fits : Numeral.Fits i.natAbs) : Argument (.int i) (toString i)
  | float (x : Double) : Argument (.float x) x.text

/-- The grammar of conditions: data, and the condition that they are read as. -/
inductive Reads (ends : List Char → Prop) : Value → Condition → Prop where
  | command {v : Value} {items rest : List Value} {mark negated : Bool} {w name : String}
      {args : List String} (written : Items v items) (marked : Marked mark items (.str w :: rest))
      (head : IsHead ends w name negated) (free : name ≠ "and" ∧ name ≠ "or")
      (arguments : List.Forall₂ Argument rest args) :
      Reads ends v (.command name args (mark != negated))
  | combinator {v : Value} {items : List Value} {mark negated : Bool} {w : String}
      {junction : Junction} {operands : List (Value × Condition)} (written : Items v items)
      (marked : Marked mark items (.str w :: operands.map Prod.fst))
      (head : IsHead ends w junction.name negated) (each : ∀ p ∈ operands, Reads ends p.1 p.2) :
      Reads ends v (.combinator junction (operands.map Prod.snd) (mark != negated))

/-- Nothing, or a line feed. -/
def LineEnd (rest : List Char) : Prop := rest = [] ∨ rest = ['\n']

/-- A head in the data has a line feed at its end. -/
inductive LineFeedHead : Value → Prop where
  | here {v : Value} {items rest : List Value} {mark : Bool} {w : String} (written : Items v items)
      (marked : Marked mark items (.str w :: rest)) (last : w.toList.getLast? = some '\n') :
      LineFeedHead v
  | operand {v x : Value} {items rest : List Value} {mark negated : Bool} {w : String}
      {junction : Junction} (written : Items v items) (marked : Marked mark items (.str w :: rest))
      (head : IsHead LineEnd w junction.name negated) (mem : x ∈ rest) (inside : LineFeedHead x) :
      LineFeedHead v

variable {v : Value} {c : Condition} {items rest : List Value} {mark negated : Bool}
  {w name : String} {args : List String} {ends : List Char → Prop}

/-! ### Items and heads -/

/-- The items of data are what the grammar says. -/
theorem items_iff (hv : v.IsJson) : itemsOf v = .ok items ↔ Items v items := by
  constructor
  · intro h
    cases hv with
    | str s =>
        simp only [itemsOf] at h
        split at h
        · rename_i ws hws
          cases h
          exact .line (Words.split_eq_ok_iff.1 hws)
        · cases h
    | list _ =>
        cases h
        exact .list _
    | null | bool _ | int _ | float _ | map _ _ => cases h
  · rintro (⟨xs⟩ | @⟨s, ws, hline⟩)
    · rfl
    · simp only [itemsOf, Words.split_eq_ok_iff.2 hline]

theorem takeMark_eq_iff : takeMark items = (mark, rest) ↔ Marked mark items rest := by
  constructor
  · intro h
    unfold takeMark at h
    split at h
    · cases h
      exact .mark _ _
    · rename_i hne
      cases h
      exact .none hne
  · intro h
    cases h with
    | mark x xs => rfl
    | none alone =>
        unfold takeMark
        split
        · exact absurd rfl (alone _ _)
        · rfl

theorem toList_headWord_true (name : String) :
    (headWord true name).toList = '!' :: name.toList := by
  simp [headWord]

theorem toList_headWord_false (name : String) :
    (headWord false name).toList = name.toList := by
  simp [headWord]

theorem dropLineEnd_append (s : List Char) : ∃ rest, LineEnd rest ∧ s = dropLineEnd s ++ rest := by
  unfold dropLineEnd
  split
  · rename_i hlast
    exact ⟨['\n'], .inr rfl, (List.dropLast_append_getLast? _ hlast).symm⟩
  · exact ⟨[], .inl rfl, (List.append_nil s).symm⟩

theorem dropLineEnd_of_lineEnd {s rest : List Char} (hrest : LineEnd rest) (hs : '\n' ∉ s) :
    dropLineEnd (s ++ rest) = s := by
  rcases hrest with rfl | rfl
  · rw [List.append_nil, dropLineEnd_of_not_mem hs]
  · rw [dropLineEnd, if_pos List.getLast?_concat, List.dropLast_concat]

/-- A name is read just if it is one, up to a line feed after it. -/
theorem nameOf?_eq_some_iff {s : List Char} :
    nameOf? mark s = some ⟨name, negated⟩ ↔ mark = negated ∧ Registry.isBareWord name = true ∧
      ∃ rest, LineEnd rest ∧ s = name.toList ++ rest := by
  constructor
  · intro h
    have hname : Registry.isBareWord name = true := isBareWord_of_nameOf? h
    unfold nameOf? at h
    split at h
    · cases h
    · cases h
      obtain ⟨rest, hrest, hs⟩ := dropLineEnd_append s
      rw [← String.toList_ofList (l := dropLineEnd s)] at hs
      exact ⟨rfl, hname, rest, hrest, hs⟩
  · rintro ⟨rfl, hname, rest, hrest, rfl⟩
    rw [nameOf?, dropLineEnd_of_lineEnd hrest (lineEnd_not_mem hname),
      ← dropLineEnd_of_not_mem (lineEnd_not_mem hname)]
    exact nameOf?_toList hname mark

theorem ne_mark_of_isBareWord (hname : Registry.isBareWord name = true) {s s' : List Char} :
    '!' :: s ≠ name.toList ++ s' := by
  intro h
  cases hchars : name.toList with
  | nil => exact (isBareWord_iff.1 hname).1 (String.toList_eq_nil_iff.1 hchars)
  | cons c cs =>
      rw [hchars] at h
      obtain ⟨rfl, -⟩ := List.cons.inj h
      exact mark_not_mem hname (hchars ▸ List.mem_cons_self)

/-- A word is read as a head just if it is one, up to a line feed after the name. -/
theorem headOf?_eq_some_iff :
    headOf? w = some ⟨name, negated⟩ ↔ IsHead LineEnd w name negated := by
  by_cases hmark : ∃ s, w.toList = '!' :: s
  · obtain ⟨s, hs⟩ := hmark
    rw [headOf?_of_mark hs, nameOf?_eq_some_iff]
    constructor
    · rintro ⟨rfl, hname, rest, hrest, rfl⟩
      exact ⟨hname, rest, hrest, by rw [hs, toList_headWord_true]; rfl⟩
    · rintro ⟨hname, rest, hrest, htext⟩
      rw [hs] at htext
      cases negated with
      | true =>
          rw [toList_headWord_true] at htext
          exact ⟨rfl, hname, rest, hrest, (List.cons.inj htext).2⟩
      | false =>
          rw [toList_headWord_false] at htext
          exact absurd htext (ne_mark_of_isBareWord hname)
  · rw [headOf?_of_no_mark fun s hs => hmark ⟨s, hs⟩, nameOf?_eq_some_iff]
    constructor
    · rintro ⟨rfl, hname, rest, hrest, hs⟩
      exact ⟨hname, rest, hrest, by rw [hs, toList_headWord_false]⟩
    · rintro ⟨hname, rest, hrest, htext⟩
      cases negated with
      | true => exact absurd ⟨_, by rw [htext, toList_headWord_true]; rfl⟩ hmark
      | false => exact ⟨rfl, hname, rest, hrest, by rw [htext, toList_headWord_false]⟩

/-- Arguments are texts and numbers, and are taken by their texts. -/
theorem readArgument_eq_ok_iff {x : Value} {arg : String} :
    readArgument name x = .ok arg ↔ Argument x arg := by
  constructor
  · intro h
    cases x with
    | str s =>
        cases h
        exact .str _
    | int i =>
        rw [readArgument] at h
        split at h
        · rename_i hfits
          cases h
          exact .int hfits
        · cases h
    | float d =>
        cases h
        exact .float _
    | _ => cases h
  · rintro (_ | hfits | _)
    · rfl
    · rw [readArgument, if_pos hfits]
    · rfl

theorem mapM_readArgument_eq_ok_iff :
    rest.mapM (readArgument name) = .ok args ↔ List.Forall₂ Argument rest args := by
  induction rest generalizing args with
  | nil =>
      rw [List.forall₂_nil_left_iff]
      exact ⟨fun h => (Except.ok.inj h).symm, fun h => h ▸ rfl⟩
  | cons x xs ih =>
      rw [List.mapM_cons, Result.bind_eq_ok, List.forall₂_cons_left_iff]
      constructor
      · rintro ⟨arg, harg, h⟩
        obtain ⟨args', hargs, heq⟩ := Result.bind_eq_ok.1 h
        exact ⟨arg, args', readArgument_eq_ok_iff.1 harg, ih.1 hargs, (Except.ok.inj heq).symm⟩
      · rintro ⟨arg, args', harg, hargs, rfl⟩
        exact ⟨arg, readArgument_eq_ok_iff.2 harg, Result.bind_eq_ok.2 ⟨args', ih.2 hargs, rfl⟩⟩

theorem ofName?_eq_none_iff : Junction.ofName? name = none ↔ name ≠ "and" ∧ name ≠ "or" := by
  unfold Junction.ofName?
  split <;> simp_all

/-! ### Conditions -/

theorem isJson_of_items (hv : v.IsJson) (h : Items v items) : ∀ x ∈ items, x.IsJson := by
  cases h with
  | list xs =>
      cases hv with
      | list hitems => exact hitems
  | line =>
      intro x hx
      obtain ⟨w, -, rfl⟩ := List.mem_map.1 hx
      exact .str w

theorem mem_of_marked (h : Marked mark items rest) {x : Value} (hx : x ∈ rest) : x ∈ items := by
  cases h with
  | mark => exact List.mem_cons_of_mem _ hx
  | none => exact hx

theorem ne_condition_of_isJson (hv : v.IsJson) (c : Condition) : v ≠ .condition c := by
  rintro rfl
  cases hv

/-- Operands and what they are read as, in pairs. -/
theorem exists_pairs_of_map_eq {xs : List Value} {cs : List Condition}
    (h : xs.map parse = cs.map .ok) : ∃ ps : List (Value × Condition), ps.map Prod.fst = xs ∧
      ps.map Prod.snd = cs ∧ ∀ p ∈ ps, parse p.1 = .ok p.2 := by
  induction xs generalizing cs with
  | nil =>
      obtain rfl : cs = [] := by simpa using h.symm
      exact ⟨[], rfl, rfl, fun _ hp => absurd hp List.not_mem_nil⟩
  | cons x xs ih =>
      cases cs with
      | nil => cases h
      | cons c cs =>
          obtain ⟨hx, hxs⟩ := List.cons.inj h
          obtain ⟨ps, rfl, rfl, hps⟩ := ih hxs
          exact ⟨(x, c) :: ps, rfl, rfl, List.forall_mem_cons.2 ⟨hx, hps⟩⟩

/-- What is read is in the grammar. -/
theorem reads_of_parse (hv : v.IsJson) (h : parse v = .ok c) : Reads LineEnd v c := by
  induction c using induct generalizing v with
  | command name args negated =>
      obtain ⟨items, hitems, hread⟩ := exists_items_of_parse (ne_condition_of_isJson hv) h
      obtain ⟨head, rest, hhead, ⟨j, cs, -, -, heq⟩ | ⟨hfree, args', hargs, heq⟩⟩ :=
        readItems_eq_ok.1 hread
      · cases heq
      · cases heq
        obtain ⟨mark, w, ⟨name, bang⟩, hmark, hw, rfl⟩ := readHead_eq_ok.1 hhead
        exact .command ((items_iff hv).1 hitems) (takeMark_eq_iff.1 hmark)
          (headOf?_eq_some_iff.1 hw) (ofName?_eq_none_iff.1 hfree)
          (mapM_readArgument_eq_ok_iff.1 hargs)
  | combinator junction operands negated ih =>
      obtain ⟨items, hitems, hread⟩ := exists_items_of_parse (ne_condition_of_isJson hv) h
      obtain ⟨head, rest, hhead, ⟨j, cs, hj, hoperands, heq⟩ | ⟨-, args, -, heq⟩⟩ :=
        readItems_eq_ok.1 hread
      · cases heq
        obtain ⟨mark, w, ⟨name, bang⟩, hmark, hw, rfl⟩ := readHead_eq_ok.1 hhead
        obtain rfl := Junction.ofName?_eq_some.1 hj
        have hwritten := (items_iff hv).1 hitems
        have hmarked := takeMark_eq_iff.1 hmark
        obtain ⟨-, hparse⟩ := parseOperands_eq_ok.1 hoperands
        have hjson : ∀ x ∈ rest, x.IsJson := fun x hx =>
          isJson_of_items hv hwritten x (mem_of_marked hmarked (List.mem_cons_of_mem _ hx))
        obtain ⟨ps, rfl, rfl, hps⟩ := exists_pairs_of_map_eq hparse
        exact .combinator hwritten hmarked (headOf?_eq_some_iff.1 hw) fun p hp =>
          ih p.2 (List.mem_map_of_mem hp) (hjson p.1 (List.mem_map_of_mem hp)) (hps p hp)
      · cases heq

theorem Reads.isOperand (h : Reads ends v c) : isOperand v = true := by
  obtain ⟨written⟩ | ⟨written⟩ := h <;> cases written <;> rfl

/-- What is in the grammar is read. -/
theorem Reads.parse_eq_ok (h : Reads LineEnd v c) (hv : v.IsJson) : parse v = .ok c := by
  induction h with
  | command written marked head free arguments =>
      rw [parse_of_itemsOf ((items_iff hv).2 written), readItems_eq_ok]
      exact ⟨_, _, readHead_eq_ok.2 ⟨_, _, _, takeMark_eq_iff.2 marked, headOf?_eq_some_iff.2 head,
        rfl⟩, .inr ⟨ofName?_eq_none_iff.2 free, _, mapM_readArgument_eq_ok_iff.2 arguments,
        rfl⟩⟩
  | @combinator v items mark negated w junction operands written marked head each ih =>
      have hjson : ∀ p ∈ operands, p.1.IsJson := fun p hp => isJson_of_items hv written _
        (mem_of_marked marked (List.mem_cons_of_mem _ (List.mem_map_of_mem hp)))
      rw [parse_of_itemsOf ((items_iff hv).2 written), readItems_eq_ok]
      refine ⟨_, _, readHead_eq_ok.2 ⟨_, _, _, takeMark_eq_iff.2 marked, headOf?_eq_some_iff.2 head,
        rfl⟩, .inl ⟨junction, _, Junction.ofName?_eq_some.2 rfl, parseOperands_eq_ok.2 ⟨?_, ?_⟩,
        rfl⟩⟩
      · intro x hx
        obtain ⟨p, hp, rfl⟩ := List.mem_map.1 hx
        exact (each p hp).isOperand
      · rw [List.map_map, List.map_map]
        exact List.map_congr_left fun p hp => ih p hp (hjson p hp)

/-! ### Line feeds in heads -/

/-- Data have one list of items at most. -/
theorem Items.unique {items' : List Value} (h : Items v items) (h' : Items v items') :
    items = items' := by
  cases h with
  | list =>
      cases h'
      rfl
  | line hline =>
      cases h' with
      | line hline' =>
          have heq := (Words.split_eq_ok_iff.2 hline).symm.trans (Words.split_eq_ok_iff.2 hline')
          rw [Except.ok.inj heq]

theorem Marked.unique {mark' : Bool} {rest' : List Value} (h : Marked mark items rest)
    (h' : Marked mark' items rest') : rest = rest' :=
  congrArg Prod.snd ((takeMark_eq_iff.2 h).symm.trans (takeMark_eq_iff.2 h'))

/-- A word begins a command in one way at most. -/
theorem IsHead.unique {name' : String} {negated' : Bool} (h : IsHead LineEnd w name negated)
    (h' : IsHead LineEnd w name' negated') : name = name' := by
  have heq := (headOf?_eq_some_iff.2 h).symm.trans (headOf?_eq_some_iff.2 h')
  exact congrArg Head.name (Option.some.inj heq)

/-- A head is nothing but a mark and a name if there is no line feed at its end. -/
theorem isHead_nil_iff : IsHead (· = []) w name negated ↔
    IsHead LineEnd w name negated ∧ w.toList.getLast? ≠ some '\n' := by
  constructor
  · rintro ⟨hname, rest, rfl, htext⟩
    refine ⟨⟨hname, [], .inl rfl, htext⟩, fun hlast => ?_⟩
    have hmem : '\n' ∈ (headWord negated name).toList := by
      rw [htext, List.append_nil] at hlast
      exact List.mem_of_getLast? hlast
    have hnot : '\n' ∉ name.toList := lineEnd_not_mem hname
    cases negated with
    | true =>
        rw [toList_headWord_true] at hmem
        exact hnot ((List.mem_cons.1 hmem).resolve_left (by decide))
    | false =>
        rw [toList_headWord_false] at hmem
        exact hnot hmem
  · rintro ⟨⟨hname, rest, rfl | rfl, htext⟩, hlast⟩
    · exact ⟨hname, [], rfl, htext⟩
    · rw [htext, List.getLast?_concat] at hlast
      exact absurd rfl hlast

/-- Data in the grammar in which nothing may follow a name have no line feed in a head. -/
theorem Reads.not_lineFeedHead (h : Reads (· = []) v c) : ¬ LineFeedHead v := by
  induction h with
  | command written marked head free =>
      obtain ⟨hhead, hlast⟩ := isHead_nil_iff.1 head
      rintro (⟨written', marked', last⟩ | ⟨written', marked', head', -, -⟩)
      · obtain rfl := written.unique written'
        cases marked.unique marked'
        exact hlast last
      · obtain rfl := written.unique written'
        cases marked.unique marked'
        rw [hhead.unique head', ← ofName?_eq_none_iff, Junction.ofName?_eq_some.2 rfl] at free
        cases free
  | combinator written marked head _ ih =>
      obtain ⟨-, hlast⟩ := isHead_nil_iff.1 head
      rintro (⟨written', marked', last⟩ | ⟨written', marked', -, mem, inside⟩)
      · obtain rfl := written.unique written'
        cases marked.unique marked'
        exact hlast last
      · obtain rfl := written.unique written'
        cases marked.unique marked'
        obtain ⟨p, hp, rfl⟩ := List.mem_map.1 mem
        exact ih p hp inside

/-- The two grammars differ in line feeds in heads. -/
theorem reads_nil_iff : Reads (· = []) v c ↔ Reads LineEnd v c ∧ ¬ LineFeedHead v := by
  constructor
  · intro h
    refine ⟨?_, h.not_lineFeedHead⟩
    induction h with
    | command written marked head free arguments =>
        exact .command written marked (isHead_nil_iff.1 head).1 free arguments
    | combinator written marked head _ ih =>
        exact .combinator written marked (isHead_nil_iff.1 head).1 ih
  · rintro ⟨h, hnot⟩
    induction h with
    | command written marked head free arguments =>
        have hlast := fun last => hnot (.here written marked last)
        exact .command written marked (isHead_nil_iff.2 ⟨head, hlast⟩) free arguments
    | combinator written marked head _ ih =>
        have hlast := fun last => hnot (.here written marked last)
        refine .combinator written marked (isHead_nil_iff.2 ⟨head, hlast⟩) fun p hp =>
          ih p hp fun inside => hnot ?_
        exact .operand written marked head (List.mem_map_of_mem hp) inside

/-! ### Errors -/

theorem areWritable_iff {xs : List Value} :
    Value.areWritable xs = true ↔ ∀ x ∈ xs, x.isWritable = true := by
  induction xs with
  | nil => simp [Value.areWritable]
  | cons x xs ih => rw [Value.areWritable, Bool.and_eq_true, ih, List.forall_mem_cons]

theorem isWritable_of_items (hv : v.isWritable = true) (h : Items v items) :
    ∀ x ∈ items, x.isWritable = true := by
  cases h with
  | list xs => exact areWritable_iff.1 hv
  | line =>
      intro x hx
      obtain ⟨w, -, rfl⟩ := List.mem_map.1 hx
      rfl

/-- What is no head of a condition is reported. -/
theorem reported_of_readHead {cause : Malformation} (hitems : ∀ x ∈ items, x.isWritable = true)
    (h : readHead items = .error cause) : cause.isReported = true := by
  have hmarked := takeMark_eq_iff.1 (rfl : takeMark items = ((takeMark items).1, _))
  rw [readHead] at h
  dsimp only at h
  split at h
  · cases h
    rfl
  · split at h
    · cases h
    · cases h
      rfl
  · rename_i head rest _ heq
    cases h
    exact hitems head (mem_of_marked hmarked (heq ▸ List.mem_cons_self))

theorem reported_of_readArgument {x : Value} {cause : Malformation} (hx : x.isWritable = true)
    (h : readArgument name x = .error cause) : cause.isReported = true := by
  cases x with
  | int i =>
      rw [readArgument, if_pos (of_decide_eq_true hx)] at h
      cases h
  | str s | float d => cases h
  | _ =>
      cases h
      exact hx

theorem reported_of_itemsOf {cause : Malformation} (h : itemsOf v = .error cause) :
    cause.isReported = true := by
  cases v with
  | str s =>
      rw [itemsOf] at h
      split at h
      · cases h
      · cases h
        rfl
  | bytes bs | list xs | tuple xs => cases h
  | _ =>
      cases h
      rfl

/-- Operands that are none are reported if what fails in one of them is. -/
theorem reported_of_parseOperands {parent : Value} {xs : List Value}
    (hxs : ∀ x ∈ xs, x.isWritable = true)
    (hread : ∀ x ∈ xs, ∀ e, parse x = .error e → e.cause.isReported = true)
    {e : MalformedCondition} (h : parseOperands parent xs = .error e) :
    e.cause.isReported = true := by
  induction xs with
  | nil =>
      rw [parseOperands] at h
      cases h
  | cons x xs ih =>
      obtain ⟨hx, hxs⟩ := List.forall_mem_cons.1 hxs
      obtain ⟨hreadx, hread⟩ := List.forall_mem_cons.1 hread
      rw [parseOperands] at h
      split at h
      · split at h
        · rename_i heq
          cases h
          exact hreadx e heq
        · exact ih hxs hread (Result.map_eq_error.1 h)
      · cases h
        exact hx

theorem reported_of_mapM_readArgument {cause : Malformation}
    (hrest : ∀ x ∈ rest, x.isWritable = true)
    (h : rest.mapM (readArgument name) = .error cause) : cause.isReported = true := by
  induction rest with
  | nil => cases h
  | cons x xs ih =>
      obtain ⟨hx, hxs⟩ := List.forall_mem_cons.1 hrest
      rw [List.mapM_cons, Result.bind_eq_error] at h
      rcases h with h | ⟨arg, -, h⟩
      · exact reported_of_readArgument hx h
      · rcases Result.bind_eq_error.1 h with h | ⟨args, -, h⟩
        · exact ih hxs h
        · cases h

/-- Data in which all numbers can be written are read, or a report is made of them. -/
theorem reported_of_parse (hv : v.IsJson) (hwritable : v.isWritable = true) {e : MalformedCondition}
    (h : parse v = .error e) : e.cause.isReported = true := by
  -- operands weigh less
  induction hweight : v.weight using Nat.strongRecOn generalizing v e with
  | ind n ih =>
      cases hitems : itemsOf v with
      | error cause =>
          rw [parse_of_itemsOf_error (ne_condition_of_isJson hv) hitems] at h
          cases h
          exact reported_of_itemsOf hitems
      | ok items =>
          have hwritten := (items_iff hv).1 hitems
          have hall := isWritable_of_items hwritable hwritten
          have hjson := isJson_of_items hv hwritten
          rw [parse_of_itemsOf hitems, readItems] at h
          cases hhead : readHead items with
          | error cause =>
              rw [hhead] at h
              cases h
              exact reported_of_readHead hall hhead
          | ok p =>
              obtain ⟨head, rest⟩ := p
              obtain ⟨mark, w, -, hmark, -, -⟩ := readHead_eq_ok.1 hhead
              have hrest : ∀ x ∈ rest, x ∈ items := fun x hx =>
                mem_of_marked (takeMark_eq_iff.1 hmark) (List.mem_cons_of_mem _ hx)
              rw [hhead] at h
              dsimp only at h
              split at h
              · refine reported_of_parseOperands (fun x hx => hall x (hrest x hx)) ?_
                  (Result.map_eq_error.1 h)
                intro x hx e he
                refine ih x.weight ?_ (hjson x (hrest x hx)) (hall x (hrest x hx)) he rfl
                have hle := weights_itemsOf hitems
                have hlt := weights_readHead hhead
                have hmem := weight_le_of_mem hx
                omega
              · split at h
                · cases h
                · rename_i heq
                  cases h
                  exact reported_of_mapM_readArgument (fun x hx => hall x (hrest x hx)) heq

/-! ### What is read -/

/-- Of data as they are written in data files, just the conditions of the grammar are read, as what
the grammar says; all others are malformed, and unless there is a number in them that is too long, a
report is made.  The grammar is the one in which a line feed may follow the name within a head;
where no head has one, it is the grammar in which nothing may. -/
theorem parse_iff_reads (hv : v.IsJson) :
    (∀ c, parse v = .ok c ↔ Reads LineEnd v c) ∧
      ((∃ e, parse v = .error e) ↔ ∀ c, ¬ Reads LineEnd v c) ∧
      (v.isWritable = true → ∀ e, parse v = .error e → e.cause.isReported = true) ∧
      ∀ c, Reads (· = []) v c ↔ parse v = .ok c ∧ ¬ LineFeedHead v := by
  have hok : ∀ c, parse v = .ok c ↔ Reads LineEnd v c := fun c =>
    ⟨reads_of_parse hv, fun h => h.parse_eq_ok hv⟩
  refine ⟨hok, ?_, fun hwritable e => reported_of_parse hv hwritable,
    fun c => by rw [hok, reads_nil_iff]⟩
  constructor
  · rintro ⟨e, he⟩ c hc
    rw [(hok c).2 hc] at he
    cases he
  · intro hnone
    cases h : parse v with
    | error e => exact ⟨e, rfl⟩
    | ok c => exact absurd ((hok c).1 h) (hnone c)

theorem isJson_quotedChoice : quotedChoice.IsJson := by
  unfold quotedChoice
  refine .list fun x hx => ?_
  simp only [List.mem_cons, List.not_mem_nil, or_false] at hx
  rcases hx with rfl | rfl | rfl | rfl | rfl
  · exact .str _
  · exact .str _
  · exact .list (by simp [Value.IsJson.str])
  · exact .str _
  · exact .list (by simp [Value.IsJson.str, Value.IsJson.int])

theorem parse_iff_reads_quotedChoice : quotedChoice.IsJson ∧ Reads LineEnd quotedChoice
    (.combinator .or [.command "is_os" ["it's"] true,
      .command "has_module" ["Foo Bar", "1.2"] false, .command "has_perl" ["5"] false] true) :=
  ⟨isJson_quotedChoice, ((parse_iff_reads isJson_quotedChoice).1 _).1 parse_quotedChoice⟩

/-- A command with a line feed after its name. -/
def brokenHead : Value := .list [.str "is_os\n", .str "linux"]

theorem lineFeedHead_brokenHead : LineFeedHead brokenHead :=
  .here (.list _) (takeMark_eq_iff.1 (takeMark_of_ne (by decide) _)) (by decide)

/-- A command is read from a list although its head is not just a mark and a name. -/
theorem reads_brokenHead : brokenHead.IsJson ∧
    parse brokenHead = .ok (.command "is_os" ["linux"] false) ∧
      ∀ c, ¬ Reads (· = []) brokenHead c := by
  refine ⟨?_, ?_, fun c h => h.not_lineFeedHead lineFeedHead_brokenHead⟩
  · exact .list (by simp [Value.IsJson.str])
  · rw [brokenHead, parse_of_itemsOf rfl]
    rfl

end Condition

end HostPrereqs
