import HostPrereqs.Predicate.Question

/-!
# Host — dialogues

Input is read in whole lines (`lines`).  A dialogue is a sequence of exchanges: a prompt, at most
one line that is read for it, and what is written for that line (`Exchange`).  An exchange breaks
off where reading or writing fails, and then only the beginning of its text is written.
`Dialogue h xs h'` says that between two states of a host there was this dialogue and nothing else:
the lines read are the first ones of the unread input, in the order of the prompts, and exactly the
texts of the exchanges are written.

* `lines_eq_cons`: reading a line takes the first of the lines.
* `readLine_cases`: what reading an answer can do.
* `Writes`: what writing some texts in turn can do.
* `Dialogue.trans`: dialogues follow each other.
* `Dialogue.exists_lines`: what is unread is a rest of the input after whole lines.
-/

namespace HostPrereqs

namespace Host

/-! ### Lines -/

/-- The lines of a text with their ends. -/
def lines (ends : LineEnds) : List Char → List (List Char)
  | []     => []
  | c :: r =>
      if endsLine ends c r then [c] :: lines ends r
      else
        match lines ends r with
        | []         => [[c]]
        | line :: ls => (c :: line) :: ls

variable {ends : LineEnds}

theorem flatten_lines (ends : LineEnds) (s : List Char) : (lines ends s).flatten = s := by
  fun_induction lines ends s <;> simp_all

theorem lines_inj {s t : List Char} (h : lines ends s = lines ends t) : s = t := by
  rw [← flatten_lines ends s, h, flatten_lines]

theorem lines_eq_nil_iff {s : List Char} : lines ends s = [] ↔ s = [] :=
  ⟨fun h => lines_inj (h.trans (lines.eq_1 ends).symm), fun h => by rw [h, lines]⟩

/-- The first line and the lines of the rest. -/
theorem lines_eq_cons {s : List Char} (hs : s ≠ []) :
    lines ends s = (takeLine ends s).1 :: lines ends (takeLine ends s).2 := by
  fun_induction takeLine ends s with
  | case1 => exact absurd rfl hs
  | case2 c r hend => rw [lines, if_pos hend]
  | case3 c r hend line rest hrest ih =>
      rw [lines, if_neg hend]
      cases r with
      | nil =>
          obtain ⟨rfl, rfl⟩ := Prod.mk.inj hrest
          rfl
      | cons d r => rw [ih (List.cons_ne_nil d r), hrest]

/-- The lines of the unread input. -/
def unread (h : Host) : List (List Char) := lines h.streams.lineEnds h.input

/-- The line that is read for the next answer, unless the default is to be used or the input has
ended. -/
def nextLine? (h : Host) : Option (List Char) := if h.usesDefaults then none else h.unread.head?

/-- Whether no more than one line is left, and that one without a line feed. -/
def runsOut : List (List Char) → Bool
  | []     => true
  | [line] => line.getLast? != some '\n'
  | _      => false

/-- Whether reading the next answer fails. -/
def readingFails (h : Host) : Bool :=
  !h.usesDefaults && (h.streams.inputFails && runsOut h.unread)

/-- Taking a line off the input takes the first of the unread lines. -/
theorem takeInput_eq (h : Host) : takeInput h =
    if h.streams.inputFails && runsOut h.unread then (.error .input, h)
    else match h.unread with
      | [] => (.ok none, h)
      | line :: rest => (.ok (some line), { h with input := rest.flatten }) := by
  unfold takeInput unread
  dsimp only
  cases hinput : h.input with
  | nil => rfl
  | cons c r =>
      rw [← hinput]
      have hne : h.input ≠ [] := by simp [hinput]
      have hline : (takeLine h.streams.lineEnds h.input).1.isEmpty = false := by
        rw [List.isEmpty_eq_false_iff]
        exact fun hnil => hne (takeLine_fst_eq_nil hnil)
      have hbreaks : runsOut (lines h.streams.lineEnds h.input) =
          breaksOff (takeLine h.streams.lineEnds h.input).1
            (takeLine h.streams.lineEnds h.input).2 := by
        rw [lines_eq_cons hne, breaksOff]
        cases hrest : (takeLine h.streams.lineEnds h.input).2 with
        | nil => rfl
        | cons d rest =>
            rw [lines_eq_cons (List.cons_ne_nil d rest)]
            rfl
      rw [hbreaks, hline, lines_eq_cons hne]
      simp only [Bool.false_eq_true, if_false, flatten_lines]

/-- What reading an answer can do.  It fails, or there is no line, because the default is to be used
or the input has ended; then nothing happens.  Otherwise the first line is taken off the input and
acknowledged. -/
theorem readLine_cases (h : Host) :
    (h.readingFails = true ∧ readLine h = (.error .input, h)) ∨
    h.readingFails = false ∧
      ((h.nextLine? = none ∧ readLine h = (.ok none, h)) ∨
      ∃ line rest, h.nextLine? = some line ∧ h.unread = line :: lines h.streams.lineEnds rest ∧
        readLine h = acknowledge h.isInteractive (String.ofList (lineText line))
          { h with input := rest }) := by
  rw [run_readLine, readingFails, nextLine?, takeInput_eq]
  cases husing : h.usesDefaults with
  | true => exact .inr ⟨rfl, .inl ⟨rfl, rfl⟩⟩
  | false =>
      simp only [Bool.false_eq_true, if_false, Bool.not_false, Bool.true_and]
      cases hfails : h.streams.inputFails && runsOut h.unread with
      | true => exact .inl ⟨rfl, rfl⟩
      | false =>
          refine .inr ⟨rfl, ?_⟩
          cases hunread : h.unread with
          | nil => exact .inl ⟨rfl, rfl⟩
          | cons line ls =>
              refine .inr ⟨line, ls.flatten, rfl, ?_, rfl⟩
              have hinput : h.input ≠ [] := fun hnil => by
                rw [unread, hnil, lines] at hunread
                cases hunread
              rw [unread, lines_eq_cons hinput] at hunread
              obtain ⟨-, rfl⟩ := List.cons.inj hunread
              rw [flatten_lines]

end Host

/-- What is written for an answer: a correction if it decides nothing. -/
def Question.corrections (answer : String) : List String :=
  if (decision? answer).isSome then [] else [correction]

/-! ### Texts -/

namespace Host

/-- The host after writing some texts. -/
def wroteAll (h : Host) (texts : List String) : Host :=
  { h with written := h.written ++ String.join (texts.map h.shown) }

/-- The host after writing some texts of which only the first characters were written. -/
def wroteSome (h : Host) (texts : List String) (n : Nat) : Host :=
  { h with written :=
      h.written ++ String.ofList ((String.join (texts.map h.shown)).toList.take n) }

/-- Whether the output takes some texts in turn. -/
def takesAll (h : Host) : List String → Bool
  | []            => true
  | text :: texts => (h.stops? text).isNone && takesAll (h.wrote text) texts

variable {α : Type} {h h' : Host} {text : String} {texts : List String} {a : α}

theorem wroteAll_nil (h : Host) : h.wroteAll [] = h := by
  rw [wroteAll, List.map_nil, String.join_nil, String.append_empty]

theorem wroteAll_cons (h : Host) (text : String) (texts : List String) :
    h.wroteAll (text :: texts) = (h.wrote text).wroteAll texts := by
  rw [wroteAll, List.map_cons, String.join_cons, ← String.append_assoc]
  rfl

/-- Whether the output takes texts depends on the streams and on what was written. -/
theorem takesAll_congr (hstreams : h'.streams = h.streams) (hwritten : h'.written = h.written)
    (texts : List String) : h'.takesAll texts = h.takesAll texts := by
  induction texts generalizing h h' with
  | nil => rfl
  | cons text texts ih =>
      have hshown : h'.shown text = h.shown text := by rw [shown, shown, hstreams]
      have hfirst : (h'.wrote text).written = (h.wrote text).written := by
        rw [wrote, wrote, hshown, hwritten]
      have hrest : (h'.wrote text).takesAll texts = (h.wrote text).takesAll texts :=
        ih hstreams hfirst
      rw [takesAll, takesAll, stops?, stops?, hshown, hstreams, hwritten, hrest]

/-- An output that never fails takes all texts. -/
theorem takesAll_of_never (hnever : ∀ written text, h.streams.outputStops written text = none)
    (texts : List String) : h.takesAll texts = true := by
  induction texts generalizing h with
  | nil => rfl
  | cons text texts ih =>
      rw [takesAll, stops?, hnever, ih (h := h.wrote text) hnever]
      rfl

theorem takesAll_append (h : Host) (texts rest : List String) :
    h.takesAll (texts ++ rest) = (h.takesAll texts && (h.wroteAll texts).takesAll rest) := by
  induction texts generalizing h with
  | nil => rw [wroteAll_nil, takesAll, Bool.true_and, List.nil_append]
  | cons text texts ih =>
      rw [List.cons_append, takesAll, takesAll, ih, wroteAll_cons, Bool.and_assoc]

/-- Writing stops within the first text. -/
theorem wroteStart_eq (h : Host) (text : String) (texts : List String) (n : Nat) :
    ∃ m, h.wroteStart text n = h.wroteSome (text :: texts) m := by
  refine ⟨min n (h.shown text).toList.length, ?_⟩
  rw [wroteStart, wroteSome, List.map_cons, String.join_cons, String.toList_append,
    List.take_append_of_le_length (Nat.min_le_right n _), ← List.take_eq_take_min]

/-- Writing stops within the texts after the first one. -/
theorem wroteSome_wrote (h : Host) (text : String) (texts : List String) (n : Nat) :
    (h.wrote text).wroteSome texts n =
      h.wroteSome (text :: texts) ((h.shown text).toList.length + n) := by
  rw [wroteSome, wroteSome, List.map_cons, String.join_cons, String.toList_append,
    List.take_length_add_append, String.ofList_append, String.ofList_toList,
    ← String.append_assoc]
  rfl

/-- An action on a host writes some texts in turn and comes out as `a`; where the output does not
take all of them, it fails there.  Besides, it reports at most. -/
def Writes (texts : List String) (a : α) (m : HostAction α) (h : Host) : Prop :=
  (h.takesAll texts = true ∧ ∃ rs, m h = (.ok a, { h.wroteAll texts with log := h.log ++ rs })) ∨
  (h.takesAll texts = false ∧ ∃ n, m h = (.error .output, h.wroteSome texts n))

namespace Writes

variable {m : HostAction α}

theorem pure (a : α) (h : Host) : Writes [] a (Pure.pure a) h := by
  refine .inl ⟨rfl, [], ?_⟩
  rw [wroteAll_nil, List.append_nil]
  rfl

theorem reported {r : Log.Record} (a : α) (h : Host) :
    Writes [] a (do report r; Pure.pure a) h := by
  refine .inl ⟨rfl, [r], ?_⟩
  rw [wroteAll_nil]
  rfl

/-- Writing a text first. -/
theorem cons {f : Unit → HostAction α} (hf : Writes texts a (f ()) (h.wrote text)) :
    Writes (text :: texts) a (write text >>= f) h := by
  rw [Writes, run_bind, write, takesAll, wroteAll_cons]
  cases hstops : h.stops? text with
  | some n =>
      obtain ⟨m, hm⟩ := wroteStart_eq h text texts n
      exact .inr ⟨rfl, m, congrArg (Prod.mk _) hm⟩
  | none =>
      refine hf.imp (fun ⟨htakes, rs, hrun⟩ => ⟨htakes, rs, hrun⟩) fun ⟨htakes, n, hrun⟩ => ?_
      exact ⟨htakes, _, hrun.trans (congrArg (Prod.mk _) (wroteSome_wrote h text texts n))⟩

end Writes

end Host

/-! ### Exchanges -/

/-- A prompt with its default, and the line that is read for it, if one is.  An exchange that breaks
off does so after a number of the characters that are written in it. -/
structure Exchange where
  prompt : String
  default : String
  line : Option (List Char)
  brokenAt : Option Nat
deriving DecidableEq, Repr

namespace Exchange

/-- The text of the line that was read. -/
def answer? (x : Exchange) : Option String :=
  x.line.map fun line => String.ofList (Host.lineText line)

/-- The text that counts as the answer: the default, where there is no answer or an empty one. -/
def taken (x : Exchange) : String :=
  match x.answer? with
  | none => x.default
  | some answer => if answer.isEmpty then x.default else answer

/-- What is written for the line that was read, by whether a person is at the other end. -/
def reply (interactive : Bool) (x : Exchange) : List String :=
  match x.answer? with
  | none => [x.default ++ "\n"]
  | some answer =>
      if answer.isEmpty then if interactive then [] else [x.default ++ "\n"]
      else (if interactive then [] else [answer ++ "\n"]) ++ Question.corrections answer

/-- What is written in an exchange that does not break off: first of all the prompt. -/
def texts (interactive : Bool) (x : Exchange) : List String :=
  Question.asked x.prompt x.default :: x.reply interactive

/-- An exchange as it appears on the output. -/
def transcript (h : Host) (x : Exchange) : String :=
  let text := String.join ((x.texts h.isInteractive).map h.shown)
  match x.brokenAt with
  | none => text
  | some n => String.ofList (text.toList.take n)

section

variable {x : Exchange} {answer : String}

theorem taken_of_empty (hx : x.answer? = some answer) (hempty : answer.isEmpty = true) :
    x.taken = x.default := by
  simp [taken, hx, hempty]

theorem taken_of_answer (hx : x.answer? = some answer) (hanswer : answer.isEmpty = false) :
    x.taken = answer := by
  simp [taken, hx, hanswer]

theorem reply_of_empty (hx : x.answer? = some answer) (hempty : answer.isEmpty = true)
    (interactive : Bool) :
    x.reply interactive = if interactive then [] else [x.default ++ "\n"] := by
  simp [reply, hx, hempty]

theorem reply_of_answer (hx : x.answer? = some answer) (hanswer : answer.isEmpty = false)
    (interactive : Bool) : x.reply interactive =
      (if interactive then [] else [answer ++ "\n"]) ++ Question.corrections answer := by
  simp [reply, hx, hanswer]

end

/-- An exchange belongs to a call on a host: the call asks just this question, and nothing is read
for it while the default is to be used. -/
structure BelongsTo (x : Exchange) (call : Call) (h : Host) : Prop where
  call : call = ⟨"y_n", [x.prompt, x.default]⟩
  line : h.usesDefaults = true → x.line = none

end Exchange

/-- The exchanges of a question that comes out as `b`: the first one that decides is the last. -/
inductive Settled (b : Bool) : List Exchange → Prop where
  | decided {x : Exchange} (whole : x.brokenAt = none)
      (decision : Question.decision? x.taken = some b) : Settled b [x]
  | corrected {x : Exchange} {xs : List Exchange} (whole : x.brokenAt = none)
      (decision : Question.decision? x.taken = none) (rest : Settled b xs) : Settled b (x :: xs)

/-- The exchanges of a question that fails: none decides, and the last one breaks off. -/
inductive BrokenOff : List Exchange → Prop where
  | broken {x : Exchange} {n : Nat} (broken : x.brokenAt = some n) : BrokenOff [x]
  | corrected {x : Exchange} {xs : List Exchange} (whole : x.brokenAt = none)
      (decision : Question.decision? x.taken = none) (rest : BrokenOff xs) : BrokenOff (x :: xs)

namespace Host

variable {ε : Type} {h h₁ h' : Host} {xs ys : List Exchange}

/-- The exchanges as they appear on the output. -/
def transcript (h : Host) (xs : List Exchange) : String :=
  String.join (xs.map (·.transcript h))

/-- Between two states of a host there were these exchanges and no others: the lines that were read
are the first of the unread lines, and the exchanges are all that was written. -/
structure Dialogue (h : Host) (xs : List Exchange) (h' : Host) : Prop where
  lines : h.unread = xs.filterMap (·.line) ++ h'.unread
  written : h'.written = h.written ++ h.transcript xs
  streams : h'.streams = h.streams

theorem transcript_nil (h : Host) : h.transcript [] = "" := rfl

theorem transcript_singleton (h : Host) (x : Exchange) : h.transcript [x] = x.transcript h := by
  rw [transcript, List.map_singleton, String.join_cons, String.join_nil, String.append_empty]

theorem transcript_append (h : Host) (xs ys : List Exchange) :
    h.transcript (xs ++ ys) = h.transcript xs ++ h.transcript ys := by
  rw [transcript, List.map_append, String.join_append, ← transcript, ← transcript]

/-- How exchanges appear depends on the streams alone. -/
theorem transcript_congr (hstreams : h'.streams = h.streams) (xs : List Exchange) :
    h'.transcript xs = h.transcript xs := by
  have hperson : h'.isInteractive = h.isInteractive := by
    rw [isInteractive, isInteractive, hstreams]
  have hshown : h'.shown = h.shown := by
    funext text
    rw [shown, shown, hstreams]
  simp only [transcript, Exchange.transcript, hperson, hshown]

/-- Exchanges that do not break off appear with all their texts. -/
theorem transcript_of_whole (hxs : ∀ x ∈ xs, x.brokenAt = none) :
    h.transcript xs = String.join ((xs.flatMap (·.texts h.isInteractive)).map h.shown) := by
  induction xs with
  | nil => rfl
  | cons x xs ih =>
      obtain ⟨hx, hxs⟩ := List.forall_mem_cons.1 hxs
      rw [← List.singleton_append, transcript_append, transcript_singleton, ih hxs,
        Exchange.transcript, hx, List.flatMap_append, List.flatMap_singleton, List.map_append,
        String.join_append]

namespace Dialogue

/-- Nothing is read and nothing written. -/
theorem quiet (hinput : h'.input = h.input) (hwritten : h'.written = h.written)
    (hstreams : h'.streams = h.streams) : Dialogue h [] h' where
  lines := by rw [unread, unread, hinput, hstreams, List.filterMap_nil, List.nil_append]
  written := by rw [hwritten, transcript_nil, String.append_empty]
  streams := hstreams

theorem single {x : Exchange} (hlines : h.unread = x.line.toList ++ h'.unread)
    (hwritten : h'.written = h.written ++ x.transcript h) (hstreams : h'.streams = h.streams) :
    Dialogue h [x] h' where
  lines := by
    rw [hlines]
    cases hx : x.line <;> simp [hx]
  written := by rw [hwritten, transcript_singleton]
  streams := hstreams

/-- One exchange that does not break off. -/
theorem whole {x : Exchange} (hwhole : x.brokenAt = none)
    (hlines : h.unread = x.line.toList ++ h'.unread)
    (hwritten : h'.written = (h.wroteAll (x.texts h.isInteractive)).written)
    (hstreams : h'.streams = h.streams) : Dialogue h [x] h' := by
  refine .single hlines ?_ hstreams
  rw [hwritten, Exchange.transcript, hwhole]
  rfl

/-- One exchange that breaks off. -/
theorem broken {x : Exchange} {n : Nat} (hbroken : x.brokenAt = some n)
    (hlines : h.unread = x.line.toList ++ h'.unread)
    (hwritten : h'.written = (h.wroteSome (x.texts h.isInteractive) n).written)
    (hstreams : h'.streams = h.streams) : Dialogue h [x] h' := by
  refine .single hlines ?_ hstreams
  rw [hwritten, Exchange.transcript, hbroken]
  rfl

theorem refl (h : Host) : Dialogue h [] h := quiet rfl rfl rfl

theorem trans (hxs : Dialogue h xs h₁) (hys : Dialogue h₁ ys h') : Dialogue h (xs ++ ys) h' where
  lines := by rw [hxs.lines, hys.lines, List.filterMap_append, List.append_assoc]
  written := by
    rw [hys.written, hxs.written, transcript_congr hxs.streams, transcript_append,
      String.append_assoc]
  streams := hys.streams.trans hxs.streams

/-- Without lines that are read the unread input is the same. -/
theorem input_eq (hxs : Dialogue h xs h') (hnone : xs.filterMap (·.line) = []) :
    h'.input = h.input := by
  have hlines := hxs.lines
  rw [hnone, unread, unread, hxs.streams] at hlines
  exact (lines_inj hlines).symm

theorem written_eq (hnone : Dialogue h [] h') : h'.written = h.written := by
  rw [hnone.written, transcript_nil, String.append_empty]

/-- The unread input is the rest of the earlier one after whole lines. -/
theorem exists_lines (hxs : Dialogue h xs h') : ∃ read,
    h.input = read.flatten ++ h'.input ∧ h.unread = read ++ h'.unread := by
  refine ⟨xs.filterMap (·.line), ?_, hxs.lines⟩
  rw [← flatten_lines h.streams.lineEnds h.input, ← unread, hxs.lines, List.flatten_append,
    unread, flatten_lines]

end Dialogue

/-- What a call on a host asks: a question settles what the call comes out as, or else it fails
where an exchange breaks off, and any other call asks nothing. -/
structure Asked (question : Prop) (call : Call) (h : Host) (result : Except ε Bool)
    (xs : List Exchange) : Prop where
  belong : ∀ x ∈ xs, x.BelongsTo call h
  settled : question → (∃ b, Settled b xs ∧ result = .ok b) ∨
    (BrokenOff xs ∧ ∃ e, result = .error e)
  silent : ¬ question → xs = []

theorem Asked.nothing {question : Prop} {call : Call} {result : Except ε Bool}
    (hquestion : ¬ question) : Asked question call h result [] :=
  ⟨fun _ hx => absurd hx List.not_mem_nil, fun hasks => absurd hasks hquestion, fun _ => rfl⟩

end Host

end HostPrereqs
