import HostPrereqs.Proofs.CommandLine.Tasks
import HostPrereqs.Proofs.Predicate.Answers
import Mathlib

/-!
# Command line — questions that take their defaults

A question takes its default if it comes out as the default whatever there is to read, and reads
nothing of it, as long as its texts can be written (`Visit.TakesDefault`); it does so exactly if the
host uses defaults (`Visit.takesDefault_iff`).  In a run this depends on choices, settings and a
variable, which is read as a setting and as a flag; `takesDefault_visit_iff` says where the two
readings agree.
-/

namespace HostPrereqs

namespace Question

variable {h : Host} {prompt default : String} {b : Bool}

/-- Where the host uses defaults a question takes its own and reads nothing. -/
theorem ask_of_usesDefaults (hdefault : decision? default = some b)
    (hdefaults : h.usesDefaults = true)
    (houtput : ∀ written text, h.streams.outputStops written text = none) :
    (ask prompt default b h).1 = .ok b ∧ (ask prompt default b h).2.input = h.input := by
  have hcompletes : completes prompt default h = true :=
    completes_of_usesDefaults hdefaults houtput
  obtain ⟨-, b', hb', hdecision, hdialogue⟩ | ⟨hnot, -⟩ := ask_reads hdefault prompt h
  · have hlast : h.lastLine? = none := if_pos hdefaults
    have hover : h.passedOver = [] := if_pos hdefaults
    rw [hlast] at hdecision
    obtain rfl : b = b' := Option.some.inj (hdefault.symm.trans hdecision)
    refine ⟨hb', hdialogue.input_eq ?_⟩
    rw [filterMap_line_exchanges, hover, hlast]
    rfl
  · cases hcompletes.symm.trans hnot

/-- Where it does not, a line is read, and if only its end. -/
theorem ask_of_attended (hdefault : decision? default = some b) (hdefaults : h.usesDefaults = false)
    (hinput : h.input = ['\n']) (hsound : h.streams.Sound) :
    (ask prompt default b h).2.input = [] := by
  have htaken : Host.takeLine h.streams.lineEnds ['\n'] = (['\n'], []) := by
    cases h.streams.lineEnds <;> rfl
  have hunread : h.unread = [['\n']] := by
    rw [Host.unread, hinput, Host.lines_eq_cons (by decide), htaken, Host.lines_eq_nil_iff.2 rfl]
  have hnext : h.nextLine? = some ['\n'] := by
    rw [Host.nextLine?, hdefaults, hunread]
    rfl
  obtain ⟨hover, hlast, -⟩ := Host.lastLine?_of_decides (h := h) (by
    rw [hnext]
    rintro line ⟨⟩
    decide)
  obtain ⟨-, -, -, -, hdialogue⟩ | ⟨hnot, -⟩ := ask_reads hdefault prompt h
  · have hlines := hdialogue.lines
    rw [filterMap_line_exchanges, hover, hlast, hnext, hunread] at hlines
    exact Host.lines_eq_nil_iff.1 (List.cons.inj hlines).2.symm
  · cases (completes_of_sound hsound).symm.trans hnot

end Question

/-- Whatever there is to read, a command that asks a question comes out as the default and nothing
is read, on any streams with an output that takes what is written. -/
def Visit.TakesDefault (s : Setting) (v : Visit) : Prop :=
  ∃ prompt default b, v.call = ⟨"y_n", [prompt, default]⟩ ∧ Question.decision? default = some b ∧
    ∀ input streams, (∀ written text, streams.outputStops written text = none) →
      ∃ h', Condition.call Builtin.registry s v.call.predicate v.call.args false
        { v.host with input, streams } = (.ok b, h') ∧ h'.input = input

variable {prompt default : String} {v : Visit}

/-- A question of the built-in registry is a call of `y_n` with a text and a default that
decides. -/
theorem isQuestion_registry {call : Call} (h : Builtin.registry.IsQuestion call) :
    ∃ prompt default, call = ⟨"y_n", [prompt, default]⟩ ∧ Question.IsWellPut prompt default := by
  obtain ⟨name, args⟩ := call
  obtain ⟨p, hget, -, hname, prompt, default, rfl, hput⟩ := h
  obtain ⟨-, rfl⟩ := Registry.of_get?_eq_some hget
  exact ⟨prompt, default, by rw [hname], hput⟩

/-- Calling `y_n` with a text and a default that decides is asking a question. -/
theorem call_question (hput : Question.IsWellPut prompt default) (s : Setting) (h : Host) :
    ∃ b h₀, Question.decision? default = some b ∧ h₀.exposed = h.exposed ∧
      h₀.usesDefaults = h.usesDefaults ∧
      (Condition.call Builtin.registry s "y_n" [prompt, default] false h).1 =
        ((Question.ask prompt default b h₀).1.mapError .hostFault).mapError .predicate ∧
      (Condition.call Builtin.registry s "y_n" [prompt, default] false h).2.input =
        (Question.ask prompt default b h₀).2.input := by
  obtain ⟨hprompt, hdefault⟩ := hput
  obtain ⟨b, hb⟩ := Option.isSome_iff_exists.1 hdefault
  have hget : Builtin.registry.get? "y_n" =
      some (Builtin.all.getLast (by simp [Builtin.all])) := rfl
  refine ⟨b, { h with calls := h.calls ++ [⟨"y_n", [prompt, default]⟩], log := [] }, hb, rfl, rfl,
    ?_⟩
  rw [Condition.call_of_takes hget rfl]
  change (((Question.run prompt default _).1.mapError _ : Except EvaluationError Bool) = _) ∧
    (Question.run prompt default _).2.input = _
  rw [Question.run_of_decides hprompt hb]
  exact ⟨rfl, rfl⟩

theorem Visit.takesDefault_iff (hask : Builtin.registry.IsQuestion v.call) (s : Setting) :
    v.TakesDefault s ↔ v.host.usesDefaults = true := by
  obtain ⟨call, h⟩ := v
  obtain ⟨prompt, default, rfl, hput⟩ := isQuestion_registry hask
  constructor
  · rintro ⟨-, -, b, -, -, htakes⟩
    have hsound : Host.bare.streams.Sound := ⟨rfl, fun _ _ => rfl⟩
    -- an attended question would read the line that is there
    obtain ⟨h', hcall, hunread⟩ := htakes ['\n'] Host.bare.streams hsound.2
    obtain ⟨b', h₀, hdefault, hsame, hdefaults, -, hasked⟩ :=
      call_question hput s { h with input := ['\n'], streams := Host.bare.streams }
    rw [hcall] at hasked
    obtain ⟨hinput, -, hstreams⟩ := Host.exposed_eq_iff.1 hsame
    by_contra hattended
    have hread : (Question.ask prompt default b' h₀).2.input = [] :=
      Question.ask_of_attended hdefault (hdefaults.trans (Bool.eq_false_iff.2 hattended)) hinput
        (hstreams ▸ hsound)
    cases hunread.symm.trans (hasked.trans hread)
  · intro hdefaults
    obtain ⟨b, hb⟩ := Option.isSome_iff_exists.1 hput.2
    refine ⟨prompt, default, b, rfl, hb, fun input streams houtput => ?_⟩
    obtain ⟨b', h₀, hb', hsame, husing, hanswer, hasked⟩ :=
      call_question hput s { h with input, streams }
    obtain rfl := Option.some.inj (hb.symm.trans hb')
    obtain ⟨hinput, -, hstreams⟩ := Host.exposed_eq_iff.1 hsame
    have hnever : ∀ written text, h₀.streams.outputStops written text = none :=
      hstreams ▸ houtput
    obtain ⟨htaken, hunread⟩ : (Question.ask prompt default b h₀).1 = .ok b ∧ _ :=
      Question.ask_of_usesDefaults hb (husing.trans hdefaults) hnever
    refine ⟨_, Prod.ext (hanswer.trans ?_) rfl, hasked.trans (hunread.trans hinput)⟩
    rw [htaken]
    rfl

/-! ### Runs -/

namespace CommandLine

open Settings (SpelledOnce boolWords)

variable {files : Files} {locations : Settings.Locations} {config : Option String}
  {args : List String} {h h' : Host} {settings : Settings} {b : Beginning} {choices : HostChoices}
  {text : String}

/-- The words that turn a setting off, in small letters, and leave a variable on. -/
def contraryWords : List String := ["off", "f", "false", "n", "no"]

theorem eq_zero_of_toLower {c : Char} (h : c.toLower = '0') : c = '0' := by
  unfold Char.toLower at h
  split at h
  · rename_i hupper
    have hval : c.val + ('a'.val - 'A'.val) = '0'.val := congrArg Char.val h
    have hnat := congrArg UInt32.toNat hval
    have hle : c.val.toNat ≤ 90 := hupper.2
    have hge : 65 ≤ c.val.toNat := hupper.1
    have hsum : (c.val.toNat + 32) % 2 ^ 32 = 48 := hnat
    omega
  · exact h

theorem eq_zero_of_lower (h : text.map Char.toLower = "0") : text = "0" := by
  have hchars : text.toList.map Char.toLower = ['0'] := by
    rw [← String.toList_map, h]
    rfl
  obtain ⟨c, heq, hc⟩ := List.map_eq_singleton_iff.1 hchars
  rw [eq_zero_of_toLower hc] at heq
  exact String.toList_inj.1 heq

theorem mem_contraryWords_iff : text.map Char.toLower ∈ contraryWords ↔
    boolWords.lookup (text.map Char.toLower) = some false ∧ Host.isOnText text = true := by
  constructor
  · intro hmem
    refine ⟨?_, ?_⟩
    · generalize text.map Char.toLower = word at hmem
      simp only [contraryWords, List.mem_cons, List.not_mem_nil, or_false] at hmem
      rcases hmem with rfl | rfl | rfl | rfl | rfl <;> decide
    · -- neither the empty text nor `0` is such a word
      unfold Host.isOnText
      have hempty : text ≠ "" := by
        rintro rfl
        revert hmem
        decide +kernel
      have hzero : text ≠ "0" := by
        rintro rfl
        revert hmem
        decide +kernel
      simp [hempty, hzero]
  · rintro ⟨hlookup, hon⟩
    obtain ⟨before, after, hwords, -⟩ := List.lookup_eq_some_iff.1 hlookup
    have hmem : (text.map Char.toLower, false) ∈ boolWords := by
      rw [hwords]
      exact List.mem_append_right before List.mem_cons_self
    have hzero : text.map Char.toLower ≠ "0" := by
      intro heq
      rw [eq_zero_of_lower heq] at hon
      cases hon
    simpa [boolWords, contraryWords, hzero] using hmem

/-- The variable decides over the setting. -/
theorem useDefault_of_variable (hload : Settings.load files locations config h = (.ok settings, h'))
    (honce : SpelledOnce h.environment "DYNREQS_USE_DEFAULT")
    (htext : h.valueOf? "DYNREQS_USE_DEFAULT" = some text) :
    boolWords.lookup (text.map Char.toLower) = some settings.useDefault := by
  obtain ⟨-, l, hgiven, hsound, hread⟩ := Settings.load_spec hload
  have hdecide := (hsound.decide hread).useDefault
  have hnamed : l.named? "use_default" = some (.str text) := by
    have hlower : Text.lower "DYNREQS_USE_DEFAULT" = Settings.variableStart ++ "use_default" := by
      decide +kernel
    rw [Settings.Layers.named?, Settings.find?_environmentLayer hgiven.environment (by decide),
      ← hlower, Settings.find?_lowered honce, show h.environment.lookup _ = some text from htext]
    rfl
  rw [hnamed] at hdecide
  change Settings.readBoolWord text = _ at hdecide
  unfold Settings.readBoolWord at hdecide
  split at hdecide
  · rename_i word hword
    rw [hword, Except.ok.inj hdecide]
  · cases hdecide

/-- The host of a question that a task comes to uses defaults if a choice, a setting or a variable
says so. -/
theorem usesDefaults_visit {task : Task} (hchoices : task.choices? = some choices)
    (hv : v ∈ task.visits settings files h) (hperl : h.valueOf? "PERL_MM_USE_DEFAULT" = none) :
    v.host.usesDefaults = true ↔ choices.useDefault = true ∨ settings.useDefault = true ∨
      Host.isOnVariable (h.valueOf? "DYNREQS_USE_DEFAULT") = true := by
  have hsurroundings := Task.surroundings_visit hchoices hv
  have hsame : v.host.usesDefaults =
      ((choices.useDefault || settings.useDefault) ||
      Host.defaultVariables.any fun name => Host.isOnVariable (h.valueOf? name)) :=
    Host.usesDefaults_congr (k := (takeDefaults settings choices h).2) hsurroundings
  rw [hsame, Host.defaultVariables, List.any_cons, List.any_cons, List.any_nil, hperl]
  simp [Host.isOnVariable, or_assoc]

/-- A question takes its default if a choice, a setting or a variable says so.  The variable is read
twice, as a setting and as a flag, and a word by which it turns the setting off leaves the flag on:
so choices and settings alone decide unless the variable holds such a word and no choice is made. -/
theorem takesDefault_visit_iff (hb : Begins files locations args h b)
    (hchoices : b.task.choices? = some choices)
    (hperl : b.host.valueOf? "PERL_MM_USE_DEFAULT" = none)
    (hv : v ∈ b.task.visits b.settings files b.host)
    (hask : Builtin.registry.IsQuestion v.call) :
    (v.TakesDefault (settingOf b.settings choices) ↔
      choices.useDefault = true ∨ b.settings.useDefault = true ∨
        Host.isOnVariable (b.host.valueOf? "DYNREQS_USE_DEFAULT") = true) ∧
    (SpelledOnce b.host.environment "DYNREQS_USE_DEFAULT" →
      ((v.TakesDefault (settingOf b.settings choices) ↔
          choices.useDefault = true ∨ b.settings.useDefault = true) ↔
        choices.useDefault = true ∨
          ∀ text, b.host.valueOf? "DYNREQS_USE_DEFAULT" = some text →
            text.map Char.toLower ∉ contraryWords)) := by
  have htakes : v.TakesDefault (settingOf b.settings choices) ↔ _ :=
    (Visit.takesDefault_iff hask _).trans (usesDefaults_visit hchoices hv hperl)
  refine ⟨htakes, fun honce => ?_⟩
  obtain ⟨hhost, h₁, hload⟩ := loadSettings_eq_ok hb.settings
  rw [← hhost] at hload
  rw [htakes]
  cases hvariable : b.host.valueOf? "DYNREQS_USE_DEFAULT" with
  | none => simp [Host.isOnVariable]
  | some text =>
      -- the same text is the setting and the flag
      have hsetting := useDefault_of_variable hload honce hvariable
      have hcontrary : text.map Char.toLower ∈ contraryWords ↔
          b.settings.useDefault = false ∧ Host.isOnText text = true := by
        rw [mem_contraryWords_iff, hsetting, Option.some.injEq]
      simp only [Option.some.injEq, forall_eq', hcontrary, Host.isOnVariable]
      cases choices.useDefault <;> cases b.settings.useDefault <;> simp

/-! ### A check that asks -/

def noFiles : Files := ⟨[]⟩

/-- A host with a text in the variable, and with an answer to read. -/
def askedHost (text : String) : Host :=
  { Host.bare with environment := [("DYNREQS_USE_DEFAULT", text)], input := "y\n".toList }

/-- What a check that asks a question begins with. -/
def askingBeginning (text : String) (useDefault : Bool) : Beginning where
  choices := ⟨none, 0, false⟩
  command := .check
  arguments := ⟨[], ["y_n", "Go?", "n"]⟩
  task := .check ["y_n", "Go?", "n"] ⟨none, [], false⟩
  settings := { Settings.usual with useDefault }
  host := askedHost text

theorem begins_asking {useDefault : Bool} (h : Settings.readBoolWord text = .ok useDefault) :
    Begins noFiles ⟨"/p", "/h"⟩ ["check", "y_n", "Go?", "n"] (askedHost text)
      (askingBeginning text useDefault) := by
  have hgiven : (⟨[(.str "use_default", .str text)], [], []⟩ : Settings.Layers).Given noFiles
      ⟨"/p", "/h"⟩ none (askedHost text) := ⟨by rfl, fun _ => by rfl, fun _ => by rfl⟩
  have hmerged : (⟨[(.str "use_default", .str text)], [], []⟩ : Settings.Layers).merged =
      [(.str "use_default", .str text)] := by
    simp [Settings.Layers.merged, Settings.overlay_nil, Settings.overlay_cons,
      Settings.overlayAt_nil]
  have hread : Settings.ofMapping [(.str "use_default", .str text)] =
      .ok { Settings.usual with useDefault } := by
    have hfield : Settings.readField [(.str "use_default", .str text)] "use_default"
        Settings.usual.useDefault Settings.readBool = .ok useDefault :=
      Settings.readField_eq_ok.2 h
    unfold Settings.ofMapping
    rw [hfield]
    rfl
  obtain ⟨h', hload⟩ := Settings.load_of_given hgiven (by simp) (by simp [hmerged, Value.str?])
    (hmerged ▸ hread)
  exact ⟨⟨["y_n", "Go?", "n"], rfl, rfl⟩, rfl, rfl, loadSettings_of_load hload⟩

/-- The question of the check, where it is come to. -/
def askingVisit (text : String) (useDefault : Bool) : Visit :=
  ⟨⟨"y_n", ["Go?", "n"]⟩, { askedHost text with defaultsOnly := useDefault }⟩

theorem mem_visits_asking (text : String) (useDefault : Bool) :
    askingVisit text useDefault ∈ (askingBeginning text useDefault).task.visits
      (askingBeginning text useDefault).settings noFiles
      (askingBeginning text useDefault).host := by
  have hparse : Condition.parse (conditionOf ["y_n", "Go?", "n"]) =
      .ok (.command "y_n" ["Go?", "n"] false) := by
    change Condition.parse (.list [.str "y_n", .str "Go?", .str "n"]) = _
    rw [Condition.parse_of_itemsOf rfl]
    rfl
  change _ ∈ Condition.evaluationVisits _ _ _ _
  rw [Condition.evaluationVisits, hparse]
  exact List.mem_singleton.2 rfl

theorem isQuestion_asking (text : String) (useDefault : Bool) :
    Builtin.registry.IsQuestion (askingVisit text useDefault).call :=
  ⟨Builtin.all.getLast (by simp [Builtin.all]), rfl, List.getLast_mem _, rfl, "Go?", "n", rfl, rfl,
    by decide +kernel⟩

/-- Where the variable turns the setting on, both readings agree. -/
theorem takesDefault_visit_iff_asking :
    Begins noFiles ⟨"/p", "/h"⟩ ["check", "y_n", "Go?", "n"] (askedHost "yes")
      (askingBeginning "yes" true) ∧
    SpelledOnce (askedHost "yes").environment "DYNREQS_USE_DEFAULT" ∧
    (askingVisit "yes" true).TakesDefault
      (settingOf (askingBeginning "yes" true).settings ⟨none, [], false⟩) ∧
    ((askingVisit "yes" true).TakesDefault
        (settingOf (askingBeginning "yes" true).settings ⟨none, [], false⟩) ↔
      (askingBeginning "yes" true).settings.useDefault = true) := by
  have hword : Settings.readBoolWord "yes" = .ok true := by cbv
  have hb := begins_asking hword
  have honce : SpelledOnce (askedHost "yes").environment "DYNREQS_USE_DEFAULT" :=
    fun e he _ => List.mem_singleton.1 he ▸ ⟨rfl, rfl⟩
  obtain ⟨htakes, hagree⟩ := takesDefault_visit_iff hb rfl (by decide +kernel)
    (mem_visits_asking _ _) (isQuestion_asking _ _)
  have hplain : ∀ text, (askedHost "yes").valueOf? "DYNREQS_USE_DEFAULT" = some text →
      text.map Char.toLower ∉ contraryWords := by
    intro text htext
    obtain rfl : "yes" = text := Option.some.inj htext
    decide +kernel
  refine ⟨hb, honce, htakes.2 (.inr (.inl rfl)), ((hagree honce).2 (.inr hplain)).trans ?_⟩
  exact or_iff_right Bool.false_ne_true

/-- Choices and settings alone do not decide: where the variable holds `false`, the setting is off
and the question takes its default all the same. -/
theorem not_takesDefault_visit_iff :
    ¬ ∀ (files : Files) (locations : Settings.Locations) (args : List String) (h : Host)
      (b : Beginning) (choices : HostChoices), Begins files locations args h b →
      b.task.choices? = some choices → b.host.valueOf? "PERL_MM_USE_DEFAULT" = none →
      ∀ v ∈ b.task.visits b.settings files b.host, Builtin.registry.IsQuestion v.call →
        (v.TakesDefault (settingOf b.settings choices) ↔
          choices.useDefault = true ∨ b.settings.useDefault = true) := by
  intro hall
  have hword : Settings.readBoolWord "false" = .ok false := by cbv
  have hiff := hall noFiles _ _ _ (askingBeginning "false" false) ⟨none, [], false⟩
    (begins_asking hword) rfl (by decide +kernel) _ (mem_visits_asking _ _) (isQuestion_asking _ _)
  have hdefaults : (askingVisit "false" false).host.usesDefaults = true := by decide +kernel
  have htakes := hiff.1 ((Visit.takesDefault_iff (isQuestion_asking _ _) _).2 hdefaults)
  rcases htakes with hchoice | hsetting
  · cases hchoice
  · cases hsetting

end CommandLine

end HostPrereqs
