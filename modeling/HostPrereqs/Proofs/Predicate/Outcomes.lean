import HostPrereqs.Failure.Basic
import HostPrereqs.Predicate.Builtin
import HostPrereqs.Proofs.Host.Faults
import HostPrereqs.Proofs.Host.Keeping
import HostPrereqs.Proofs.Predicate.Answers
import HostPrereqs.Proofs.Predicate.Registry
import HostPrereqs.Proofs.Range.Grammar

/-!
# Predicate — what the built-in predicates fail at

A built-in predicate fails in two ways.  Its arguments may be refused, and then there is a report
(`Builtin.Refused`): a range that is none, or a question that is not put well.  Or it breaks,
without a report (`Builtin.Breaks`): at a numeral that is too long, in a range or in a version that
is found, or at something that has gone wrong on the host.  Most predicates do neither, whatever
their arguments are (`Host.Sure`).

* `Builtin.run_fails_iff`: a built-in predicate that is called with as many arguments as it takes
  fails exactly if its arguments are refused or it breaks.
* `Builtin.exists_breaksOff_of_sound`: where nothing has gone wrong on the host (`Host.Sound`), it
  breaks at most at a range.
-/

namespace HostPrereqs

/-- The kind of the report that is made of an error, if one is made. -/
def PredicateError.kind? (e : PredicateError) : Option ErrorKind := e.report?.map (·.kind)

/-- An action that never fails. -/
abbrev Host.Sure {ε α : Type} (m : ExceptT ε OnHost α) : Prop := Host.FailsWith (fun _ => False) m

namespace Builtin

open Host (Sure)

variable {p : Predicate} {args : List String} {name : String} {kind : Option ErrorKind}
  {s : Setting} {h : Host}

/-- The names of the built-in predicates are different words, and not reserved. -/
theorem wellNamed_registry : registry.WellNamed where
  distinct := by decide
  words := by decide +kernel
  free := by decide +kernel

/-! ### Tests that never fail -/

theorem sure_debug (event : String) (fields : List (String × Value)) : Sure (debug event fields) :=
  .bind (.lift _) fun _ => .pure _

theorem sure_ofMachine (test : Machine → Bool) : Sure (ofMachine test) :=
  .bind (.lift _) fun _ => .pure _

theorem sure_hasVariable (name : String) : Sure (hasVariable name) :=
  .bind (.lift _) fun _ => .pure _

theorem sure_isOsType (family : String) : Sure (isOsType family) := by
  refine .bind (.lift _) fun h => ?_
  dsimp only
  split
  · exact sure_debug _ _
  · exact .pure _

/-! ### Tests of a range -/

/-- The interpreter's version lies in a range. -/
def interpreterIn (m : Machine) (wanted : Range) : Except HostFault Bool :=
  (wanted.accepts m.interpreterVersion).mapError .hugeNumber

/-- What a test comes out as that reads a range and then looks for something in it. -/
def lookUp (range : String) (look : Range → Except HostFault Bool) :
    Except PredicateError Bool := do
  let wanted ← (Range.parse range).mapError .badRange
  (look wanted).mapError .hostFault

theorem run_readRange (text : String) (h : Host) :
    readRange text h = ((Range.parse text).mapError .badRange, h) := Host.run_ofExcept _ h

theorem fst_liesIn (wanted : Range) (version : String) (h : Host) :
    (liesIn wanted version h).1 =
      ((wanted.accepts version).mapError HostFault.hugeNumber).mapError .hostFault := by
  rw [liesIn, ofAction, Host.run_adapt, Host.run_ofExcept]

theorem fst_hasInterpreter (range : String) (h : Host) :
    (hasInterpreter range h).1 = lookUp range (interpreterIn h.machine) := by
  have hget : (get : ExceptT PredicateError OnHost Host) h = (.ok h, h) := rfl
  rw [hasInterpreter, Host.run_bind, run_readRange, lookUp]
  cases Range.parse range with
  | error e => rfl
  | ok wanted =>
      dsimp only [Except.mapError]
      rw [Host.run_bind_of_ok _ hget, fst_liesIn]
      rfl

theorem fst_hasModule (module : String) (h : Host) :
    (hasModule module h).1 = (Host.isInstalled h.machine module).mapError .hostFault := by
  rw [hasModule, ofAction, Host.run_adapt, Host.fst_moduleExists]

theorem fst_hasVersion {wanted : Range} (hany : wanted.isAny = false) (module : String)
    (h : Host) : (hasVersion module wanted h).1 =
      (Host.isInstalledIn h.machine module wanted).mapError .hostFault := by
  have hget : (get : ExceptT PredicateError OnHost Host) h = (.ok h, h) := rfl
  rw [hasVersion, Host.run_bind_of_ok _ hget, Host.run_bind, Host.run_adapt, Host.run_ofExcept,
    Host.isInstalledIn, hany, if_neg (by simp)]
  rcases Host.installedVersion h.machine module with cause | _ | version
  · rfl
  · rfl
  · exact fst_liesIn wanted version h

/-- The range is read before anything is looked for. -/
theorem fst_hasModuleAt (module range : String) (h : Host) :
    (hasModuleAt module range h).1 = lookUp range (Host.isInstalledIn h.machine module) := by
  rw [hasModuleAt, Host.run_bind, run_readRange, lookUp]
  cases Range.parse range with
  | error e => rfl
  | ok wanted =>
      dsimp only [Except.mapError]
      cases hany : wanted.isAny with
      | true =>
          rw [if_pos rfl, fst_hasModule]
          change _ = (Host.isInstalledIn h.machine module wanted).mapError PredicateError.hostFault
          rw [Host.isInstalledIn, if_pos hany]
      | false =>
          rw [if_neg (by simp)]
          exact fst_hasVersion hany module h

/-! ### How a command fails -/

/-- The argument of a call that is read as a range. -/
def rangeOf? (call : Call) : Option String :=
  match call.args with
  | [range] =>
      if call.predicate = "has_perl" ∨ call.predicate = "has_python" then some range else none
  | [_, range] => if call.predicate = "has_module" then some range else none
  | _ => none

/-- A call whose arguments are refused, and the kind of failure. -/
inductive Refused (call : Call) : ErrorKind → Prop where
  | badRange {range : String} {cause : RangeError} (ranged : rangeOf? call = some range)
      (unread : Range.parse range = .error cause) (reported : cause.isReported = true) :
      Refused call .versionRange
  | badQuestion {prompt default : String} (asks : call = ⟨"y_n", [prompt, default]⟩)
      (illPut : prompt = "" ∨ Question.letter? default.toList = none) :
      Refused call .predicateArgument

/-- A call that breaks where it is come to: reading its range breaks off, or else what it looks for
does.  A question breaks if it does not come to its end. -/
inductive Breaks (s : Setting) (h : Host) : Call → Prop where
  | range {call : Call} {range : String} {cause : Numeral.Excess}
      (ranged : rangeOf? call = some range) (long : Range.BreaksOff range cause) : Breaks s h call
  | interpreter {name range : String} {wanted : Range} {cause : Numeral.Excess}
      (named : name = "has_perl" ∨ name = "has_python") (read : Range.parse range = .ok wanted)
      (bounded : wanted.isAny = false)
      (long : Version.read h.machine.interpreterVersion = .error cause) : Breaks s h ⟨name, [range]⟩
  | module {name module : String} (named : name = "has_module")
      (breaks : Host.SearchBreaks h.machine module) : Breaks s h ⟨name, [module]⟩
  | moduleAt {name module range : String} {wanted : Range} (named : name = "has_module")
      (read : Range.parse range = .ok wanted)
      (breaks : Host.SearchBreaksIn h.machine module wanted) : Breaks s h ⟨name, [module, range]⟩
  | compiler {name : String} {argv : List String} (named : name = "can_xs")
      (starts : Host.Starts s.config h argv) (breaks : h.machine.compilation argv = .breaks) :
      Breaks s h ⟨name, []⟩
  | question {name prompt default : String} (named : name = "y_n") (nonempty : prompt ≠ "")
      (decides : (Question.letter? default.toList).isSome = true)
      (breaks : Question.completes prompt default h = false) : Breaks s h ⟨name, [prompt, default]⟩

/-- A call that fails where it is come to, and the kind of report that is made of it, if any. -/
inductive Failing (s : Setting) (h : Host) (call : Call) : Option ErrorKind → Prop where
  | refused {kind : ErrorKind} (refused : Refused call kind) : Failing s h call (some kind)
  | breaks (breaks : Breaks s h call) : Failing s h call none

/-- An outcome is a failure of which a report of this kind is made, or none. -/
def Fails (x : Except PredicateError Bool) (kind : Option ErrorKind) : Prop :=
  ∃ e, x = .error e ∧ e.kind? = kind

/-- The built-in predicates that may fail. -/
def delicate : List String := ["can_xs", "has_perl", "has_python", "has_module", "y_n"]

theorem mem_delicate_of_ranged {range : String} (h : rangeOf? ⟨name, args⟩ = some range) :
    name ∈ delicate := by
  rw [delicate]
  unfold rangeOf? at h
  grind

theorem mem_delicate_of_failing (hfailing : Failing s h ⟨name, args⟩ kind) : name ∈ delicate := by
  cases hfailing with
  | refused refused =>
      cases refused with
      | badRange ranged => exact mem_delicate_of_ranged ranged
      | badQuestion asks =>
          cases asks
          decide
  | breaks breaks =>
      cases breaks with
      | range ranged => exact mem_delicate_of_ranged ranged
      | interpreter named =>
          rcases named with rfl | rfl <;> decide
      | module named | moduleAt named | compiler named | question named =>
          subst named
          decide

theorem fails_error_iff {e : PredicateError} : Fails (.error e) kind ↔ kind = e.kind? := by
  simp [Fails, eq_comm]

/-- What goes wrong on the host is not reported. -/
theorem fails_mapError_iff {x : Except HostFault Bool} :
    Fails (x.mapError .hostFault) kind ↔ kind = none ∧ ∃ cause, x = .error cause := by
  cases x with
  | ok b => exact ⟨nofun, nofun⟩
  | error cause =>
      refine fails_error_iff.trans (and_iff_left ⟨cause, rfl⟩).symm

/-- A test that reads a range fails at the range, or at what it then looks for. -/
theorem fails_lookUp_iff {range : String} {look : Range → Except HostFault Bool} :
    Fails (lookUp range look) kind ↔
      (kind = some .versionRange ∧
        ∃ cause, Range.parse range = .error cause ∧ cause.isReported = true) ∨
      (kind = none ∧ ((∃ cause, Range.BreaksOff range cause) ∨
        ∃ wanted, Range.parse range = .ok wanted ∧ ∃ cause, look wanted = .error cause)) := by
  cases hparse : Range.parse range with
  | ok wanted =>
      have hread : lookUp range look = (look wanted).mapError .hostFault := by
        rw [lookUp, hparse]
        rfl
      have hlong : ¬ ∃ cause, Range.BreaksOff range cause := fun ⟨cause, hbreaks⟩ => by
        cases hparse.symm.trans (Range.parse_of_breaksOff hbreaks)
      rw [hread, fails_mapError_iff]
      simp [hlong]
  | error cause =>
      have hread : lookUp range look = .error (.badRange cause) := by
        rw [lookUp, hparse]
        rfl
      have hkind : (PredicateError.badRange cause).kind? =
          if cause.isReported then some .versionRange else none := by
        rw [PredicateError.kind?, PredicateError.report?, RangeError.report?]
        split <;> rfl
      rw [hread, fails_error_iff, hkind, Range.exists_breaksOff_iff hparse]
      simp only [Except.error.injEq, exists_eq_left']
      cases cause.isReported <;> simp

/-! ### One predicate after the other -/

/-- A test that never fails belongs to a predicate that is not delicate. -/
theorem fails_iff_of_sure {m : Test} (hm : Sure m) (hname : name ∉ delicate) (h : Host) :
    Fails (m h).1 kind ↔ Failing s h ⟨name, args⟩ kind := by
  constructor
  · rintro ⟨e, herror, -⟩
    exact (hm h e herror).elim
  · exact fun hfailing => absurd (mem_delicate_of_failing hfailing) hname

theorem compiler_fails_iff (s : Setting) (h : Host) :
    Fails (ofAction (Host.canCompile s.config) h).1 kind ↔ Failing s h ⟨"can_xs", []⟩ kind := by
  rw [ofAction, Host.run_adapt, fails_mapError_iff]
  simp only [Host.canCompile_eq_error, exists_eq_left]
  constructor
  · rintro ⟨rfl, argv, hstarts, hbreaks⟩
    exact .breaks (.compiler rfl hstarts hbreaks)
  · intro hfailing
    cases hfailing with
    | refused refused =>
        cases refused with
        | badRange ranged => cases ranged
        | badQuestion asks => cases congrArg Call.args asks
    | breaks breaks =>
        cases breaks with
        | range ranged => cases ranged
        | compiler _ starts breaks => exact ⟨rfl, _, starts, breaks⟩

theorem interpreter_fails_iff (hname : name = "has_perl" ∨ name = "has_python") (range : String)
    (s : Setting) (h : Host) :
    Fails (hasInterpreter range h).1 kind ↔ Failing s h ⟨name, [range]⟩ kind := by
  have hranged : rangeOf? ⟨name, [range]⟩ = some range := if_pos hname
  have hlook : ∀ wanted : Range, (∃ cause, interpreterIn h.machine wanted = .error cause) ↔
      wanted.isAny = false ∧ ∃ cause, Version.read h.machine.interpreterVersion = .error cause := by
    intro wanted
    simp only [interpreterIn, Result.mapError_eq_error, Range.accepts_eq_error]
    exact ⟨fun ⟨_, cause, hboth, _⟩ => ⟨hboth.1, cause, hboth.2⟩,
      fun ⟨hany, cause, hlong⟩ => ⟨_, cause, ⟨hany, hlong⟩, rfl⟩⟩
  rw [fst_hasInterpreter, fails_lookUp_iff]
  simp only [hlook]
  constructor
  · rintro (⟨rfl, cause, hread, hreported⟩ | ⟨rfl, ⟨cause, hlong⟩ | ⟨r, hread, hany, cause, hlong⟩⟩)
    · exact .refused (.badRange hranged hread hreported)
    · exact .breaks (.range hranged hlong)
    · exact .breaks (.interpreter hname hread hany hlong)
  · intro hfailing
    cases hfailing with
    | refused refused =>
        cases refused with
        | badRange ranged unread reported =>
            obtain rfl := Option.some.inj (hranged.symm.trans ranged)
            exact .inl ⟨rfl, _, unread, reported⟩
        | badQuestion asks => cases congrArg Call.args asks
    | breaks breaks =>
        cases breaks with
        | range ranged long =>
            obtain rfl := Option.some.inj (hranged.symm.trans ranged)
            exact .inr ⟨rfl, .inl ⟨_, long⟩⟩
        | interpreter _ read bounded long => exact .inr ⟨rfl, .inr ⟨_, read, bounded, _, long⟩⟩
        | module named =>
            subst named
            simp at hname

theorem module_fails_iff (module : String) (s : Setting) (h : Host) :
    Fails (hasModule module h).1 kind ↔ Failing s h ⟨"has_module", [module]⟩ kind := by
  rw [fst_hasModule, fails_mapError_iff]
  simp only [Host.isInstalled_eq_error, exists_eq_left]
  constructor
  · rintro ⟨rfl, hbreaks⟩
    exact .breaks (.module rfl hbreaks)
  · intro hfailing
    cases hfailing with
    | refused refused =>
        cases refused with
        | badRange ranged => cases ranged
        | badQuestion asks => cases congrArg Call.args asks
    | breaks breaks =>
        cases breaks with
        | range ranged => cases ranged
        | interpreter named => simp at named
        | module _ breaks => exact ⟨rfl, breaks⟩

theorem moduleAt_fails_iff (module range : String) (s : Setting) (h : Host) :
    Fails (hasModuleAt module range h).1 kind ↔
      Failing s h ⟨"has_module", [module, range]⟩ kind := by
  have hranged : rangeOf? ⟨"has_module", [module, range]⟩ = some range := rfl
  rw [fst_hasModuleAt, fails_lookUp_iff]
  simp only [Host.exists_isInstalledIn_eq_error]
  constructor
  · rintro (⟨rfl, cause, hread, hreported⟩ | ⟨rfl, ⟨cause, hlong⟩ | ⟨wanted, hread, hbreaks⟩⟩)
    · exact .refused (.badRange hranged hread hreported)
    · exact .breaks (.range hranged hlong)
    · exact .breaks (.moduleAt rfl hread hbreaks)
  · intro hfailing
    cases hfailing with
    | refused refused =>
        cases refused with
        | badRange ranged unread reported =>
            obtain rfl := Option.some.inj (hranged.symm.trans ranged)
            exact .inl ⟨rfl, _, unread, reported⟩
        | badQuestion asks =>
            have hname : "has_module" = "y_n" := congrArg Call.predicate asks
            exact absurd hname (by decide)
    | breaks breaks =>
        cases breaks with
        | range ranged long =>
            obtain rfl := Option.some.inj (hranged.symm.trans ranged)
            exact .inr ⟨rfl, .inl ⟨_, long⟩⟩
        | moduleAt _ read breaks => exact .inr ⟨rfl, .inr ⟨_, read, breaks⟩⟩
        | question named => exact absurd named (by decide)

/-- A question is at fault if it is not put well, or if it does not come to its end. -/
theorem failing_question_iff (prompt default : String) (s : Setting) (h : Host) :
    Failing s h ⟨"y_n", [prompt, default]⟩ kind ↔
      (kind = some .predicateArgument ∧
        (prompt = "" ∨ Question.letter? default.toList = none)) ∨
      (kind = none ∧ prompt ≠ "" ∧ (Question.letter? default.toList).isSome = true ∧
        Question.completes prompt default h = false) := by
  constructor
  · intro hfailing
    cases hfailing with
    | refused refused =>
        cases refused with
        | badRange ranged => cases ranged
        | badQuestion asks illPut =>
            cases asks
            exact .inl ⟨rfl, illPut⟩
    | breaks breaks =>
        cases breaks with
        | range ranged => cases ranged
        | moduleAt named => exact absurd named (by decide)
        | question _ nonempty decides breaks => exact .inr ⟨rfl, nonempty, decides, breaks⟩
  · rintro (⟨rfl, hillPut⟩ | ⟨rfl, hprompt, hdecides, hbreaks⟩)
    · exact .refused (.badQuestion rfl hillPut)
    · exact .breaks (.question rfl hprompt hdecides hbreaks)

theorem question_fails_iff (prompt default : String) (s : Setting) (h : Host) :
    Fails (Question.run prompt default h).1 kind ↔ Failing s h ⟨"y_n", [prompt, default]⟩ kind := by
  rw [failing_question_iff]
  by_cases hprompt : prompt = ""
  · subst hprompt
    have hrun : (Question.run "" default h).1 = .error .noPrompt := rfl
    rw [hrun, fails_error_iff]
    change kind = some .predicateArgument ↔ _
    simp
  · cases hletter : Question.letter? default.toList with
    | none =>
        have hrun : (Question.run prompt default h).1 = .error .badDefault := by
          rw [Question.run, if_neg (by simpa using hprompt), Question.decision?_eq, hletter]
          rfl
        rw [hrun, fails_error_iff]
        change kind = some .predicateArgument ↔ _
        simp
    | some b =>
        have hdecision := (Question.decision?_eq default).trans hletter
        rw [Question.run_of_decides (by simpa using hprompt) hdecision, fails_mapError_iff]
        obtain ⟨hcompletes, b', hb, -⟩ | ⟨hcompletes, e, he⟩ :=
          Question.ask_reads hdecision prompt h
        · simp [hprompt, hcompletes, hb]
        · simp [hprompt, hcompletes, he]

theorem eq_singleton_of_takes {name description : String} {test : Setting → String → Test}
    (h : (unary name description test).takes args.length = true) : ∃ arg, args = [arg] := by
  have hlength : args.length = 1 := by
    simp [Predicate.takes, unary] at h
    omega
  exact List.length_eq_one_iff.1 hlength

theorem eq_nil_of_takes {name description : String} {test : Setting → Test}
    (h : (nullary name description test).takes args.length = true) : args = [] := by
  simpa [Predicate.takes, nullary] using h

/-- A built-in predicate that is called with as many arguments as it takes fails exactly if they
are refused, or if it breaks. -/
theorem run_fails_iff (hp : p ∈ all) (htakes : p.takes args.length = true) (s : Setting)
    (h : Host) : Fails (p.run s args h).1 kind ↔ Failing s h ⟨p.name, args⟩ kind := by
  simp only [all, List.mem_cons, List.not_mem_nil, or_false] at hp
  rcases hp with rfl | rfl | rfl | rfl | rfl | rfl | rfl | rfl | rfl | rfl | rfl | rfl
  · obtain rfl := eq_nil_of_takes htakes
    exact compiler_fails_iff s h
  · exact fails_iff_of_sure (sure_ofMachine _) (by decide) h
  · obtain ⟨range, rfl⟩ := eq_singleton_of_takes htakes
    exact interpreter_fails_iff (.inl rfl) range s h
  · obtain ⟨range, rfl⟩ := eq_singleton_of_takes htakes
    exact interpreter_fails_iff (.inr rfl) range s h
  · rcases args with _ | ⟨module, _ | ⟨range, _ | ⟨other, args⟩⟩⟩
    · cases htakes
    · exact module_fails_iff module s h
    · exact moduleAt_fails_iff module range s h
    · simp [Predicate.takes] at htakes
      omega
  · exact fails_iff_of_sure (sure_ofMachine _) (by decide) h
  · exact fails_iff_of_sure (sure_hasVariable _) (by decide) h
  · exact fails_iff_of_sure (sure_ofMachine _) (by decide) h
  · exact fails_iff_of_sure (sure_isOsType _) (by decide) h
  · exact fails_iff_of_sure (.pure _) (by decide) h
  · exact fails_iff_of_sure (.pure _) (by decide) h
  · rcases args with _ | ⟨prompt, _ | ⟨default, _ | ⟨other, args⟩⟩⟩
    case cons.cons.nil => exact question_fails_iff prompt default s h
    all_goals
      simp [Predicate.takes] at htakes
    omega

end Builtin

/-- A host on which nothing goes wrong: whatever is looked up or compiled there ends with an answer,
the versions that are found can be read if they are any, and the streams never fail. -/
structure Host.Sound (h : Host) : Prop where
  distributions : ∀ name, Host.distribution h.machine name ≠ .breaks
  listed : h.machine.providers ≠ none
  imports : ∀ module, Host.imported h.machine module ≠ .breaks
  versions : ∀ module version, Host.installedVersion h.machine module = .ok (some version) →
    ∀ cause, Version.read version ≠ .error cause
  interpreter : ∀ cause, Version.read h.machine.interpreterVersion ≠ .error cause
  compilers : ∀ argv, h.machine.compilation argv ≠ .breaks
  streams : h.streams.Sound

namespace Builtin

theorem not_lookupBreaks {h : Host} (hsound : h.Sound) (module : String) :
    ¬ Host.LookupBreaks h.machine module := by
  have hfirst : ∀ names, ¬ Host.FirstBreaks h.machine names := by
    intro names hbreaks
    induction hbreaks with
    | here breaks => exact hsound.distributions _ breaks
    | later _ _ ih => exact ih
  intro hbreaks
  cases hbreaks with
  | named breaks => exact hsound.distributions _ breaks
  | unlisted _ unlisted => exact hsound.listed unlisted
  | provided _ _ first => exact hfirst _ first

/-- On a host where nothing goes wrong, a call breaks at most at a numeral in its range. -/
theorem exists_breaksOff_of_sound {s : Setting} {h : Host} {call : Call} (hsound : h.Sound)
    (hbreaks : Breaks s h call) :
    ∃ range cause, rangeOf? call = some range ∧ Range.BreaksOff range cause := by
  have hsearch : ∀ module, ¬ Host.SearchBreaks h.machine module := by
    rintro module (hbreaks | ⟨-, hbreaks⟩)
    · exact not_lookupBreaks hsound module hbreaks
    · exact hsound.imports module hbreaks
  cases hbreaks with
  | range ranged long => exact ⟨_, _, ranged, long⟩
  | interpreter _ _ _ long => exact absurd long (hsound.interpreter _)
  | module _ breaks => exact absurd breaks (hsearch _)
  | moduleAt _ _ breaks =>
      cases breaks with
      | all _ breaks => exact absurd breaks (hsearch _)
      | lookup _ breaks => exact absurd breaks (not_lookupBreaks hsound _)
      | version _ installed long => exact absurd long (hsound.versions _ _ installed _)
  | compiler _ _ breaks => exact absurd breaks (hsound.compilers _)
  | question _ _ _ breaks =>
      rw [Question.completes_of_sound hsound.streams] at breaks
      cases breaks

end Builtin

end HostPrereqs
