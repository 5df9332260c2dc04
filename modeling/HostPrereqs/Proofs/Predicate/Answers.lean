import HostPrereqs.Proofs.Host.Similar
import HostPrereqs.Proofs.Predicate.Question
import HostPrereqs.Proofs.Text.Casing
import HostPrereqs.Proofs.Text.Escape

/-!
# Predicate — which lines a question reads

A question passes over the lines that say neither yes nor no (`Host.passedOver`) and ends with the
line after them, or without one where the default is to be used or the input ends
(`Host.lastLine?`).  So what it reads, what it writes and what it comes out as are determined by the
lines of the unread input, and so is whether it comes to its end at all: it does if the input does
not fail there and the output takes its texts (`completes`).  All of this is `run_answers`.

* `decision?_eq`: an answer decides by its first letter, `y` or `n` in either case.
* `ask_reads`: the exchanges of a question are those about the lines passed over, and a last one.
-/

namespace HostPrereqs

/-! ### Deciding letters -/

namespace Question

/-- What the first letter of a text says, in either case. -/
def letter? : List Char → Option Bool
  | []     => none
  | c :: _ =>
      if c = 'y' ∨ c = 'Y' then some true else if c = 'n' ∨ c = 'N' then some false else none

theorem lowerChar_eq_y_iff {c : Char} : Text.lowerChar c = ['y'] ↔ c = 'y' ∨ c = 'Y' := by
  rw [Text.lowerChar_eq_iff (by decide) (by decide) (by decide +kernel), ← Char.toNat_inj,
    ← Char.toNat_inj]
  exact or_congr_right Nat.add_right_cancel_iff

theorem lowerChar_eq_n_iff {c : Char} : Text.lowerChar c = ['n'] ↔ c = 'n' ∨ c = 'N' := by
  rw [Text.lowerChar_eq_iff (by decide) (by decide) (by decide +kernel), ← Char.toNat_inj,
    ← Char.toNat_inj]
  exact or_congr_right Nat.add_right_cancel_iff

/-- An answer decides by its first letter. -/
theorem decision?_eq (answer : String) : decision? answer = letter? answer.toList := by
  unfold decision? letter?
  cases answer.toList with
  | nil => rfl
  | cons c cs => simp only [lowerChar_eq_y_iff, lowerChar_eq_n_iff]

end Question

open Question

/-! ### The lines that are read -/

/-- Streams that never fail. -/
def Streams.Sound (s : Streams) : Prop :=
  s.inputFails = false ∧ ∀ written text, s.outputStops written text = none

namespace Host

variable {h h₁ : Host} {line : List Char}

/-- Whether a line is an answer that says neither yes nor no. -/
def saysNothing (line : List Char) : Bool :=
  !(lineText line).isEmpty && (letter? (lineText line)).isNone

/-- The lines that a question passes over. -/
def passedOver (h : Host) : List (List Char) :=
  if h.usesDefaults then [] else h.unread.takeWhile saysNothing

/-- The line that a question ends with, if it ends with one. -/
def lastLine? (h : Host) : Option (List Char) :=
  if h.usesDefaults then none else (h.unread.dropWhile saysNothing).head?

/-- Whether reading fails after the lines that a question passes over. -/
def lastReadingFails (h : Host) : Bool :=
  !h.usesDefaults && (h.streams.inputFails && runsOut (h.unread.dropWhile saysNothing))

/-- Where a line is read, the default is not to be used. -/
theorem attended_of_nextLine? (hnext : h.nextLine? = some line) : h.usesDefaults = false := by
  cases husing : h.usesDefaults with
  | false => rfl
  | true =>
      rw [nextLine?, husing] at hnext
      cases hnext

/-- The next line, and the host from which the others are read. -/
theorem exists_unread (hnext : h.nextLine? = some line) :
    ∃ rest, h.unread = line :: unread { h with input := rest } := by
  rw [nextLine?, attended_of_nextLine? hnext] at hnext
  have hinput : h.input ≠ [] := fun hnil => by
    rw [unread, hnil, lines] at hnext
    cases hnext
  rw [unread, lines_eq_cons hinput] at hnext ⊢
  cases hnext
  exact ⟨(takeLine h.streams.lineEnds h.input).2, rfl⟩

/-- A line that is passed over is the first of them, and the others are read in what remains. -/
theorem passedOver_of_saysNothing (hnext : h.nextLine? = some line)
    (hline : saysNothing line = true) (hlines : h.unread = line :: h₁.unread)
    (hstreams : h₁.streams = h.streams) (hdefaults : h₁.usesDefaults = h.usesDefaults) :
    h.passedOver = line :: h₁.passedOver ∧ h.lastLine? = h₁.lastLine? ∧
      h.lastReadingFails = h₁.lastReadingFails := by
  unfold passedOver lastLine? lastReadingFails
  rw [hdefaults, attended_of_nextLine? hnext, hstreams, hlines, List.takeWhile_cons_of_pos hline,
    List.dropWhile_cons_of_pos hline]
  exact ⟨rfl, rfl, rfl⟩

/-- A question ends with the next line if this is not passed over, or if there is none. -/
theorem lastLine?_of_decides (hnext : ∀ line ∈ h.nextLine?, saysNothing line = false) :
    h.passedOver = [] ∧ h.lastLine? = h.nextLine? ∧ h.lastReadingFails = h.readingFails := by
  unfold nextLine? at hnext
  unfold passedOver lastLine? nextLine? lastReadingFails readingFails
  cases husing : h.usesDefaults with
  | true => exact ⟨rfl, rfl, rfl⟩
  | false =>
      rw [husing] at hnext
      simp only [Bool.false_eq_true, if_false] at hnext ⊢
      cases hlines : h.unread with
      | nil => exact ⟨rfl, rfl, rfl⟩
      | cons line rest =>
          have hline : ¬ saysNothing line = true := by simp [hnext line (by rw [hlines]; rfl)]
          rw [List.takeWhile_cons_of_neg hline, List.dropWhile_cons_of_neg hline]
          exact ⟨rfl, rfl, rfl⟩

/-- Where reading fails, it does not get better later on. -/
theorem lastReadingFails_of_readingFails (hfails : h.readingFails = true) :
    h.lastReadingFails = true := by
  simp only [readingFails, Bool.and_eq_true] at hfails
  obtain ⟨hattended, hinput, hout⟩ := hfails
  rw [lastReadingFails, hattended, hinput, Bool.true_and, Bool.true_and]
  rcases hlines : h.unread with _ | ⟨line, _ | ⟨next, rest⟩⟩
  · rfl
  · rw [hlines] at hout
    by_cases hline : saysNothing line = true
    · rw [List.dropWhile_cons_of_pos hline]
      rfl
    · rwa [List.dropWhile_cons_of_neg hline]
  · rw [hlines] at hout
    cases hout

end Host

open Host (Dialogue lineText saysNothing)

/-! ### Exchanges -/

namespace Question

variable {prompt default : String} {byDefault : Bool} {h h₁ : Host} {line : List Char}

theorem answer?_of_line (prompt default : String) (line : List Char) :
    (⟨prompt, default, some line, none⟩ : Exchange).answer? =
      some (String.ofList (lineText line)) :=
  rfl

/-- An exchange goes on just for a line that says nothing. -/
theorem decision?_taken_eq_none_iff (hdefault : decision? default = some byDefault)
    {next : Option (List Char)} :
    decision? (⟨prompt, default, next, none⟩ : Exchange).taken = none ↔
      ∃ line, next = some line ∧ saysNothing line = true := by
  cases next with
  | none =>
      have htaken : (⟨prompt, default, none, none⟩ : Exchange).taken = default := rfl
      simp [htaken, hdefault]
  | some line =>
      have hx := answer?_of_line prompt default line
      simp only [Option.some.injEq, exists_eq_left', saysNothing]
      by_cases hempty : lineText line = []
      · rw [Exchange.taken_of_empty hx (by simp [hempty]), hdefault]
        simp [hempty]
      · rw [Exchange.taken_of_answer hx (by simp [hempty]), decision?_eq, String.toList_ofList]
        simp [hempty]

/-- The exchanges of a question: one for each line passed over, and a last one. -/
def exchanges (prompt default : String) (h : Host) : List Exchange :=
  h.passedOver.map (⟨prompt, default, some ·, none⟩) ++ [⟨prompt, default, h.lastLine?, none⟩]

theorem brokenAt_exchanges (prompt default : String) (h : Host) :
    ∀ x ∈ exchanges prompt default h, x.brokenAt = none := by
  refine List.forall_mem_append.2 ⟨?_, List.forall_mem_singleton.2 rfl⟩
  rw [List.forall_mem_map]
  exact fun _ _ => rfl

theorem filterMap_line_exchanges (prompt default : String) (h : Host) :
    (exchanges prompt default h).filterMap (·.line) = h.passedOver ++ h.lastLine?.toList := by
  have hover : (h.passedOver.map (⟨prompt, default, some ·, none⟩)).filterMap Exchange.line =
      h.passedOver := by
    rw [List.filterMap_map]
    exact List.filterMap_some
  rw [exchanges, List.filterMap_append, hover]
  rfl

/-! ### What is written -/

/-- What is written where a line is passed over: the prompt, the line unless a person typed it, and
a correction. -/
def textsOver (typed : Bool) (prompt default : String) (line : List Char) : List String :=
  asked prompt default ::
    ((if typed then [] else [String.ofList (lineText line) ++ "\n"]) ++ [correction])

/-- The text that decides: the last line, and otherwise the default. -/
def decidingText (default : String) (last : Option (List Char)) : String :=
  match last with
  | none => default
  | some line => if (lineText line).isEmpty then default else String.ofList (lineText line)

/-- What is written at the end: the prompt, and what decides unless a person typed a line. -/
def textsAtEnd (typed : Bool) (prompt default : String) (last : Option (List Char)) :
    List String :=
  asked prompt default ::
    (if typed && last.isSome then [] else [decidingText default last ++ "\n"])

/-- All that a question writes. -/
def textsOf (prompt default : String) (h : Host) : List String :=
  h.passedOver.flatMap (textsOver h.isInteractive prompt default) ++
    textsAtEnd h.isInteractive prompt default h.lastLine?

/-- Whether a question comes to its end: the input does not fail there, and the output takes its
texts. -/
def completes (prompt default : String) (h : Host) : Bool :=
  !h.lastReadingFails && h.takesAll (textsOf prompt default h)

theorem taken_eq (prompt default : String) (last : Option (List Char)) :
    (⟨prompt, default, last, none⟩ : Exchange).taken = decidingText default last := by
  cases last <;> simp [Exchange.taken, Exchange.answer?, decidingText]

theorem texts_of_saysNothing (typed : Bool) (hline : saysNothing line = true) :
    (⟨prompt, default, some line, none⟩ : Exchange).texts typed =
      textsOver typed prompt default line := by
  simp only [saysNothing, Bool.and_eq_true, Bool.not_eq_true', Option.isNone_iff_eq_none] at hline
  obtain ⟨hanswer, hnothing⟩ := hline
  have hx := answer?_of_line prompt default line
  rw [Exchange.texts, Exchange.reply_of_answer hx (by simpa using hanswer), corrections,
    decision?_eq, String.toList_ofList, hnothing]
  rfl

theorem texts_of_decides (typed : Bool) {last : Option (List Char)}
    (hlast : ∀ line ∈ last, saysNothing line = false) :
    (⟨prompt, default, last, none⟩ : Exchange).texts typed =
      textsAtEnd typed prompt default last := by
  cases last with
  | none => simp [Exchange.texts, Exchange.reply, Exchange.answer?, textsAtEnd, decidingText]
  | some line =>
      have hx := answer?_of_line prompt default line
      rw [Exchange.texts, textsAtEnd, decidingText]
      by_cases hempty : lineText line = []
      · rw [Exchange.reply_of_empty hx (by simp [hempty]), hempty]
        simp
      · have hletter : (letter? (lineText line)).isSome = true := by
          simpa [saysNothing, hempty, Option.isSome_iff_ne_none] using hlast line rfl
        rw [Exchange.reply_of_answer hx (by simp [hempty]), corrections, decision?_eq,
          String.toList_ofList, if_pos hletter]
        simp [hempty]

theorem saysNothing_of_mem_passedOver (hline : line ∈ h.passedOver) : saysNothing line = true := by
  unfold Host.passedOver at hline
  split at hline
  · cases hline
  · exact List.all_eq_true.1 List.all_takeWhile line hline

theorem decides_of_lastLine? : ∀ line ∈ h.lastLine?, saysNothing line = false := by
  intro line hline
  unfold Host.lastLine? at hline
  split at hline
  · cases hline
  · have := List.head?_dropWhile_not saysNothing h.unread
    rw [hline] at this
    exact this

/-- The exchanges of a question are written as its texts. -/
theorem transcript_exchanges (prompt default : String) (h : Host) :
    h.transcript (exchanges prompt default h) =
      String.join ((textsOf prompt default h).map h.shown) := by
  have hover : (h.passedOver.map (⟨prompt, default, some ·, none⟩)).flatMap
      (Exchange.texts h.isInteractive) =
      h.passedOver.flatMap (textsOver h.isInteractive prompt default) := by
    rw [List.flatMap_map, List.flatMap_def, List.flatMap_def, List.map_congr_left]
    exact fun line hline => texts_of_saysNothing _ (saysNothing_of_mem_passedOver hline)
  rw [Host.transcript_of_whole (brokenAt_exchanges prompt default h), exchanges,
    List.flatMap_append, List.flatMap_singleton, hover,
    texts_of_decides _ decides_of_lastLine?, textsOf]

/-- Without escape characters the texts are written as they are. -/
theorem map_shown_textsOf (hplain : ∀ text ∈ textsOf prompt default h, '\x1b' ∉ text.toList) :
    (textsOf prompt default h).map h.shown = textsOf prompt default h := by
  refine List.map_congr_left (g := id) (fun text htext => ?_) |>.trans (List.map_id _)
  rw [Host.shown, Text.stripEscapes_of_not_mem (hplain text htext)]
  exact ite_self text

/-! ### Which questions come to their end -/

/-- A line that says nothing is passed over first, and then the question goes on. -/
theorem textsOf_of_saysNothing (hnext : h.nextLine? = some line)
    (hline : saysNothing line = true) (hlines : h.unread = line :: h₁.unread)
    (hstreams : h₁.streams = h.streams) (hdefaults : h₁.usesDefaults = h.usesDefaults) :
    textsOf prompt default h =
      (nextExchange prompt default h).texts h.isInteractive ++ textsOf prompt default h₁ := by
  obtain ⟨hover, hlast, -⟩ := Host.passedOver_of_saysNothing hnext hline hlines hstreams hdefaults
  have hperson : h₁.isInteractive = h.isInteractive := by
    rw [Host.isInteractive, Host.isInteractive, hstreams]
  rw [nextExchange, hnext, texts_of_saysNothing _ hline, textsOf, textsOf, hover, hlast, hperson,
    List.flatMap_cons, List.append_assoc]

/-- Where no line is passed over, a question is one exchange. -/
theorem textsOf_of_decides (hnext : ∀ line ∈ h.nextLine?, saysNothing line = false) :
    textsOf prompt default h = (nextExchange prompt default h).texts h.isInteractive := by
  obtain ⟨hover, hlast, -⟩ := Host.lastLine?_of_decides hnext
  rw [nextExchange, texts_of_decides _ hnext, textsOf, hover, hlast]
  rfl

theorem completes_of_decides (hnext : ∀ line ∈ h.nextLine?, saysNothing line = false) :
    completes prompt default h = roundSucceeds prompt default h := by
  obtain ⟨-, -, hfails⟩ := Host.lastLine?_of_decides hnext
  rw [completes, roundSucceeds, hfails, textsOf_of_decides hnext]

/-- The first round of a question that comes to its end does not break off. -/
theorem roundSucceeds_of_completes (hcompletes : completes prompt default h = true) :
    roundSucceeds prompt default h = true := by
  by_cases hnext : ∃ line, h.nextLine? = some line ∧ saysNothing line = true
  · obtain ⟨line, hnext, hline⟩ := hnext
    obtain ⟨rest, hunread⟩ := Host.exists_unread hnext
    rw [completes, textsOf_of_saysNothing hnext hline hunread rfl rfl,
      Host.takesAll_append] at hcompletes
    simp only [Bool.and_eq_true, Bool.not_eq_true'] at hcompletes
    obtain ⟨hlast, htakes, -⟩ := hcompletes
    rw [roundSucceeds, htakes, Bool.and_true, Bool.not_eq_true']
    refine Bool.eq_false_iff.2 fun hfails => ?_
    rw [Host.lastReadingFails_of_readingFails hfails] at hlast
    cases hlast
  · rw [← completes_of_decides fun line hline => ?_]
    · exact hcompletes
    · exact Bool.eq_false_iff.2 fun hnothing => hnext ⟨line, hline, hnothing⟩

/-- A question that passes over its first line goes on in what remains. -/
theorem completes_of_saysNothing (hnext : h.nextLine? = some line)
    (hline : saysNothing line = true) (hsucceeds : roundSucceeds prompt default h = true)
    (hround : Dialogue h [nextExchange prompt default h] h₁)
    (hdefaults : h₁.usesDefaults = h.usesDefaults) :
    completes prompt default h = completes prompt default h₁ ∧
      exchanges prompt default h = nextExchange prompt default h :: exchanges prompt default h₁ ∧
      h.lastLine? = h₁.lastLine? := by
  have hlines : h.unread = line :: h₁.unread := by
    have hread := hround.lines
    rwa [nextExchange, hnext] at hread
  obtain ⟨hover, hlast, hfails⟩ :=
    Host.passedOver_of_saysNothing hnext hline hlines hround.streams hdefaults
  refine ⟨?_, ?_, hlast⟩
  · have hwritten : h₁.written =
        (h.wroteAll ((nextExchange prompt default h).texts h.isInteractive)).written := by
      rw [hround.written, Host.transcript_singleton]
      rfl
    simp only [roundSucceeds, Bool.and_eq_true] at hsucceeds
    rw [completes, completes, hfails,
      textsOf_of_saysNothing hnext hline hlines hround.streams hdefaults, Host.takesAll_append,
      hsucceeds.2, Bool.true_and, Host.takesAll_congr (h := h.wroteAll _) hround.streams hwritten]
  · rw [exchanges, exchanges, hover, hlast, nextExchange, hnext]
    rfl

/-- Whether a question comes to its end depends on what is shared with the one at the other end, and
on whether it takes its default. -/
theorem completes_congr (hexposed : h₁.exposed = h.exposed)
    (hdefaults : h₁.usesDefaults = h.usesDefaults) :
    completes prompt default h₁ = completes prompt default h := by
  obtain ⟨hinput, hwritten, hstreams⟩ := Host.exposed_eq_iff.1 hexposed
  have hunread : h₁.unread = h.unread := by rw [Host.unread, Host.unread, hinput, hstreams]
  have htexts : textsOf prompt default h₁ = textsOf prompt default h := by
    simp only [textsOf, Host.passedOver, Host.lastLine?, Host.isInteractive, hunread, hdefaults,
      hstreams]
  rw [completes, completes, htexts, Host.takesAll_congr hstreams hwritten, Host.lastReadingFails,
    Host.lastReadingFails, hunread, hdefaults, hstreams]

/-- Sound streams let every question come to its end. -/
theorem completes_of_sound (hsound : h.streams.Sound) : completes prompt default h = true := by
  obtain ⟨hinput, houtput⟩ := hsound
  rw [completes, Host.lastReadingFails, hinput, Host.takesAll_of_never houtput, Bool.false_and,
    Bool.and_false]
  rfl

/-- Where the default is to be used, nothing that is read can fail. -/
theorem completes_of_usesDefaults (hdefaults : h.usesDefaults = true)
    (houtput : ∀ written text, h.streams.outputStops written text = none) :
    completes prompt default h = true := by
  rw [completes, Host.lastReadingFails, hdefaults, Host.takesAll_of_never houtput]
  rfl

/-! ### Asking -/

/-- Asking that comes to its end passes over the lines that say nothing and ends with the one after
them; any other fails. -/
theorem ask_reads (hdefault : decision? default = some byDefault) (prompt : String) (h : Host) :
    (completes prompt default h = true ∧
      ∃ b, (ask prompt default byDefault h).1 = .ok b ∧
        decision? (decidingText default h.lastLine?) = some b ∧
        Dialogue h (exchanges prompt default h) (ask prompt default byDefault h).2) ∨
    (completes prompt default h = false ∧
      ∃ e, (ask prompt default byDefault h).1 = .error e) := by
  fun_induction ask prompt default byDefault h with
  | case1 h b h' hr =>
      obtain ⟨hsucceeds, hresult, hdialogue⟩ | ⟨-, ⟨e, hresult⟩, -⟩ :=
        round_cases hdefault prompt h
      · rw [hr] at hresult hdialogue
        have hdecision : decision? (nextExchange prompt default h).taken = some b :=
          (Except.ok.inj hresult).symm
        -- a line that says nothing would have decided nothing
        have hnext : ∀ line ∈ h.nextLine?, saysNothing line = false := by
          intro line hline
          refine Bool.eq_false_iff.2 fun hnothing => ?_
          rw [nextExchange, (decision?_taken_eq_none_iff hdefault).2 ⟨line, hline, hnothing⟩]
            at hdecision
          cases hdecision
        obtain ⟨hover, hlast, -⟩ := Host.lastLine?_of_decides hnext
        refine .inl ⟨(completes_of_decides hnext).trans hsucceeds, b, rfl, ?_, ?_⟩
        · rwa [nextExchange, taken_eq, ← hlast] at hdecision
        · rw [exchanges, hover, hlast]
          exact hdialogue
      · rw [hr] at hresult
        cases hresult
  | case2 h h' hr ih =>
      obtain ⟨hsucceeds, hresult, hdialogue⟩ | ⟨-, ⟨e, hresult⟩, -⟩ :=
        round_cases hdefault prompt h
      · rw [hr] at hresult hdialogue
        -- the line says nothing: it is passed over, and all else is about the lines after it
        obtain ⟨line, hnext, hline⟩ := (decision?_taken_eq_none_iff hdefault).1
          (Except.ok.inj hresult).symm
        obtain ⟨hcompletes, hexchanges, hlast⟩ :=
          completes_of_saysNothing hnext hline hsucceeds hdialogue (usesDefaults_of_round hr)
        rw [hcompletes, hexchanges, hlast]
        refine ih.imp_left ?_
        rintro ⟨hrest, b, hb, hdecision, hdialogue'⟩
        exact ⟨hrest, b, hb, hdecision, hdialogue.trans hdialogue'⟩
      · rw [hr] at hresult
        cases hresult
  | case3 h cause h' hr =>
      obtain ⟨-, hresult, -⟩ | ⟨hfails, -⟩ := round_cases hdefault prompt h
      · rw [hr] at hresult
        cases hresult
      · refine .inr ⟨Bool.eq_false_iff.2 fun hcompletes => ?_, cause, rfl⟩
        rw [roundSucceeds_of_completes hcompletes] at hfails
        cases hfails

/-- A question that has a text and a default that decides is answered, whatever there is to read,
unless reading or writing fails; on sound streams it always is.  It reads the lines that say neither
yes nor no and at most one line more, or nothing where the default is to be used; all others stay
unread.  The first letter of that line decides, or else the default.  For each line that is passed
over, the prompt, the line unless a person typed it, and a correction are written, and then the
prompt once more and what decides, unless a person typed it; escape sequences are left out where
they would be for any text. -/
theorem run_answers (hprompt : prompt ≠ "") (hdefault : (letter? default.toList).isSome = true)
    (h : Host) :
    (h.streams.Sound → completes prompt default h = true) ∧
    (completes prompt default h = true → ∃ b h', run prompt default h = (.ok b, h') ∧
      letter? (decidingText default h.lastLine?).toList = some b ∧
      h.unread = h.passedOver ++ h.lastLine?.toList ++ h'.unread ∧ h'.streams = h.streams ∧
      (h.usesDefaults = true → h'.input = h.input) ∧
      h'.written = h.written ++ String.join ((textsOf prompt default h).map h.shown) ∧
      ((∀ text ∈ textsOf prompt default h, '\x1b' ∉ text.toList) →
        h'.written = h.written ++ String.join (textsOf prompt default h))) ∧
    (completes prompt default h = false →
      ∃ e h', run prompt default h = (.error (.hostFault e), h')) := by
  obtain ⟨byDefault, hletter⟩ := Option.isSome_iff_exists.1 hdefault
  rw [← decision?_eq] at hletter
  rw [run_of_decides (by simpa using hprompt) hletter h]
  refine ⟨completes_of_sound, fun hcompletes => ?_, fun hcompletes => ?_⟩
  · obtain ⟨-, b, hb, hdecision, hdialogue⟩ | ⟨hnot, -⟩ := ask_reads hletter prompt h
    · have hwritten := hdialogue.written
      rw [transcript_exchanges] at hwritten
      refine ⟨b, _, by rw [hb]; rfl, by rw [← decision?_eq, hdecision], ?_, hdialogue.streams,
        fun husing => ?_, hwritten, fun hplain => by rw [hwritten, map_shown_textsOf hplain]⟩
      · rw [hdialogue.lines, filterMap_line_exchanges]
      · refine hdialogue.input_eq ?_
        rw [filterMap_line_exchanges, Host.passedOver, Host.lastLine?, if_pos husing,
          if_pos husing]
        rfl
    · cases hcompletes.symm.trans hnot
  · obtain ⟨hdone, -⟩ | ⟨-, e, he⟩ := ask_reads hletter prompt h
    · cases hcompletes.symm.trans hdone
    · exact ⟨e, _, by rw [he]; rfl⟩

/-- A host with an answer that says nothing, one that does, and more.  A carriage return within a
line does not end it. -/
def hesitating : Host := { Host.bare with input := "may\rbe\r\nYes\nmore".toList }

theorem run_answers_hesitating : (letter? "n".toList).isSome = true ∧
    ∃ h', run "Go?" "n" hesitating = (.ok true, h') ∧ h'.input = "more".toList ∧
      h'.written = "Go? [n] may\rbe\nPlease answer 'y' or 'n'.\nGo? [n] Yes\n" := by
  have hdefault : (letter? "n".toList).isSome = true := rfl
  obtain ⟨hsound, hanswers, -⟩ := run_answers (by decide : "Go?" ≠ "") hdefault hesitating
  obtain ⟨b, h', hrun, hdecision, hlines, hstreams, -, -, hplain⟩ :=
    hanswers (hsound ⟨rfl, fun _ _ => rfl⟩)
  have hlast : hesitating.lastLine? = some "Yes\n".toList := rfl
  have hover : hesitating.passedOver = ["may\rbe\r\n".toList] := rfl
  rw [hlast] at hdecision
  obtain rfl : true = b := Option.some.inj hdecision
  refine ⟨hdefault, h', hrun, ?_, ?_⟩
  · rw [hover, hlast, Host.unread, Host.unread, hstreams] at hlines
    exact Host.lines_inj (List.append_cancel_left (hlines.symm.trans rfl))
  · rw [hplain (by decide +kernel)]
    decide +kernel

end Question

end HostPrereqs
