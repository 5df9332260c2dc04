import HostPrereqs.Proofs.Condition.Visits
import HostPrereqs.Proofs.Predicate.Outcomes

/-!
# Condition — what an evaluation fails at

An evaluation comes to commands in turn, and as long as they come out as true or false it goes on
or comes out as one of these itself; the first command that fails is the last one it comes to, and
the evaluation fails in the same way (`Answered`).

Over the built-in predicates a command fails exactly if it is at fault where it is come to
(`Builtin.Faulty`): it has an unknown name, a wrong number of arguments, or arguments that are
refused; or else it breaks, and then there is no report of the failure.

* `evaluate_fails_iff_faulty`: evaluating a condition fails exactly if it comes to such a command,
  and the first one decides the kind of failure.
* `breaks_on_host`: conditions whose evaluation breaks.
-/

namespace HostPrereqs

/-- The kind of the report that is made of an error, if one is made. -/
def EvaluationError.kind? (e : EvaluationError) : Option ErrorKind := e.report?.map (·.kind)

end HostPrereqs

namespace HostPrereqs.Condition

variable {r : Registry} {s : Setting} {j : Junction} {c : Condition} {cs : List Condition}
  {vs ws : List Visit} {x : Except EvaluationError Bool} {h : Host} {name : String}
  {args : List String}

/-! ### The last visit -/

/-- These visits come out as true or false, except the last one if the whole fails, which fails in
the same way. -/
inductive Answered (r : Registry) (s : Setting) :
    List Visit → Except EvaluationError Bool → Prop where
  | ok {vs : List Visit} {b : Bool} (answers : ∀ v ∈ vs, ∃ b, v.result r s = .ok b) :
      Answered r s vs (.ok b)
  | error {before : List Visit} {v : Visit} {e e' : EvaluationError}
      (answers : ∀ u ∈ before, ∃ b, u.result r s = .ok b) (fails : v.result r s = .error e')
      (same : e'.kind? = e.kind?) : Answered r s (before ++ [v]) (.error e)

theorem Answered.after (hvs : ∀ v ∈ vs, ∃ b, v.result r s = .ok b) (hx : Answered r s ws x) :
    Answered r s (vs ++ ws) x := by
  cases hx with
  | ok answers => exact .ok (List.forall_mem_append.2 ⟨hvs, answers⟩)
  | error answers fails same =>
      rw [← List.append_assoc]
      exact .error (List.forall_mem_append.2 ⟨hvs, answers⟩) fails same

theorem Answered.map (hx : Answered r s vs x) (f : Bool → Bool) : Answered r s vs (x.map f) := by
  cases hx with
  | ok answers => exact .ok answers
  | error answers fails same => exact .error answers fails same

theorem Answered.answers {b : Bool} (hx : Answered r s vs (.ok b)) :
    ∀ v ∈ vs, ∃ b, v.result r s = .ok b := by
  cases hx with
  | ok answers => exact answers

/-- A negation changes neither what a command comes out as nor how it fails. -/
theorem answered_call (r : Registry) (s : Setting) (name : String) (args : List String)
    (negated : Bool) (h : Host) :
    Answered r s [⟨⟨name, args⟩, h⟩] (call r s name args negated h).1 := by
  have hnone : ∀ u ∈ ([] : List Visit), ∃ b, u.result r s = .ok b := by simp
  cases hget : r.get? name with
  | none =>
      rw [call_of_missing hget]
      exact .error hnone (congrArg Prod.fst (call_of_missing hget)) rfl
  | some p =>
      cases htakes : p.takes args.length with
      | false =>
          rw [call_of_wrongCount hget htakes]
          exact .error hnone (congrArg Prod.fst (call_of_wrongCount hget htakes)) rfl
      | true =>
          have hplain : Visit.result r s ⟨⟨name, args⟩, h⟩ = (call r s name args negated h).1 := by
            rw [Visit.result, call_of_takes hget htakes, call_of_takes hget htakes]
          cases hresult : (call r s name args negated h).1 with
          | ok b => exact .ok (List.forall_mem_singleton.2 ⟨b, hplain.trans hresult⟩)
          | error e => exact .error hnone (hplain.trans hresult) rfl

theorem answered_joined
    (hcs : ∀ c ∈ cs, ∀ h, Answered r s (visits r s c h) (holds r s c h).1) (h : Host) :
    Answered r s (visitsIn r s j cs h) (joined r s j cs h).1 := by
  induction cs generalizing h with
  | nil =>
      rw [visitsIn, joined_nil]
      exact .ok (by simp)
  | cons c cs ih =>
      obtain ⟨hc, hcs⟩ := List.forall_mem_cons.1 hcs
      have hfirst := hc h
      rw [visitsIn, joined_cons, Host.run_bind]
      generalize holds r s c h = p at hfirst
      obtain ⟨x, h₁⟩ := p
      cases x with
      | error e => simpa using hfirst
      | ok b =>
          dsimp only
          by_cases hb : b = j.neutral
          · rw [if_pos hb, if_pos hb]
            exact (ih hcs h₁).after hfirst.answers
          · rw [if_neg hb, if_neg hb, List.append_nil]
            exact .ok hfirst.answers

/-- The commands that evaluating a condition comes to account for what it comes out as. -/
theorem answered_holds (r : Registry) (s : Setting) (c : Condition) (h : Host) :
    Answered r s (visits r s c h) (holds r s c h).1 := by
  induction c using induct generalizing h with
  | command name args negated =>
      rw [visits, holds, bind_pure_comp, Host.run_map]
      exact (answered_call r s name args negated h).map _
  | combinator junction operands negated ih =>
      rw [visits, holds_combinator, bind_pure_comp, Host.run_map]
      exact (answered_joined ih h).map _

theorem answered_evaluate {v : Value} (hv : parse v = .ok c) (r : Registry) (s : Setting)
    (h : Host) : Answered r s (visits r s c h) (evaluate r s v h).1 := by
  have hholds := answered_holds r s c h
  rw [evaluate_of_parse hv, Host.run_bind]
  generalize holds r s c h = p at hholds
  obtain ⟨x, h₁⟩ := p
  cases x with
  | ok b => exact .ok hholds.answers
  | error e => exact hholds

end HostPrereqs.Condition

namespace HostPrereqs

/-! ### Commands of the built-in predicates -/

namespace Builtin

variable {p : Predicate} {call : Call} {kind : Option ErrorKind} {s : Setting} {h : Host}

/-- A command that cannot be evaluated where it is come to, and the kind of the report that is made
of it, if any. -/
inductive Faulty (s : Setting) (h : Host) (call : Call) : Option ErrorKind → Prop where
  | unknown (missing : ∀ p ∈ all, p.name ≠ call.predicate) :
      Faulty s h call (some .unknownCommand)
  | wrongCount {p : Predicate} (known : p ∈ all) (named : p.name = call.predicate)
      (miscounted : p.takes call.args.length = false) : Faulty s h call (some .predicateArgument)
  | fails {kind : Option ErrorKind} (fails : Failing s h call kind) : Faulty s h call kind

theorem takes_of_ranged {range : String} (hp : p ∈ all) (hname : p.name = call.predicate)
    (h : rangeOf? call = some range) : p.takes call.args.length = true := by
  have hone : ∀ p ∈ all, p.name = "has_perl" ∨ p.name = "has_python" → p.takes 1 = true := by
    decide
  have htwo : ∀ p ∈ all, p.name = "has_module" → p.takes 2 = true := by decide
  unfold rangeOf? at h
  split at h
  · rename_i hargs
    rw [hargs]
    exact hone p hp (by rw [hname]; grind)
  · rename_i hargs
    rw [hargs]
    exact htwo p hp (by rw [hname]; grind)
  · cases h

/-- Arguments are refused, and calls break, only where there are as many as the predicate takes. -/
theorem takes_of_failing (hp : p ∈ all) (hname : p.name = call.predicate)
    (hfailing : Failing s h call kind) : p.takes call.args.length = true := by
  have hzero : ∀ p ∈ all, p.name = "can_xs" → p.takes 0 = true := by decide
  have hone : ∀ p ∈ all, p.name = "has_perl" ∨ p.name = "has_python" ∨ p.name = "has_module" →
      p.takes 1 = true := by decide
  have htwo : ∀ p ∈ all, p.name = "has_module" ∨ p.name = "y_n" → p.takes 2 = true := by decide
  cases hfailing with
  | refused refused =>
      cases refused with
      | badRange ranged => exact takes_of_ranged hp hname ranged
      | badQuestion asks =>
          subst asks
          exact htwo p hp (.inr hname)
  | breaks breaks =>
      cases breaks with
      | range ranged => exact takes_of_ranged hp hname ranged
      | interpreter named => exact hone p hp (by rw [hname]; grind)
      | module named => exact hone p hp (.inr (.inr (hname.trans named)))
      | moduleAt named => exact htwo p hp (.inl (hname.trans named))
      | compiler named => exact hzero p hp (hname.trans named)
      | question named => exact htwo p hp (.inr (hname.trans named))

theorem exists_get?_of_failing (hfailing : Failing s h call kind) :
    ∃ p, registry.get? call.predicate = some p := by
  have hall : ∀ name ∈ delicate, (registry.get? name).isSome = true := by decide +kernel
  exact Option.isSome_iff_exists.1 (hall _ (mem_delicate_of_failing hfailing))

theorem faulty_iff_of_missing (hget : registry.get? call.predicate = none) :
    Faulty s h call kind ↔ kind = some .unknownCommand := by
  have hmissing := Registry.get?_eq_none_iff.1 hget
  constructor
  · intro hfaulty
    cases hfaulty with
    | unknown => rfl
    | wrongCount known named => exact absurd named (hmissing _ known)
    | fails fails =>
        obtain ⟨p, hp⟩ := exists_get?_of_failing fails
        cases hget.symm.trans hp
  · rintro rfl
    exact .unknown hmissing

theorem faulty_iff_of_wrongCount (hget : registry.get? call.predicate = some p)
    (htakes : p.takes call.args.length = false) :
    Faulty s h call kind ↔ kind = some .predicateArgument := by
  obtain ⟨hp, hname⟩ := Registry.of_get?_eq_some hget
  constructor
  · intro hfaulty
    cases hfaulty with
    | unknown missing => exact absurd hname (missing p hp)
    | wrongCount => rfl
    | fails fails => cases htakes.symm.trans (takes_of_failing hp hname fails)
  · rintro rfl
    exact .wrongCount hp hname htakes

theorem faulty_iff_of_takes (hget : registry.get? call.predicate = some p)
    (htakes : p.takes call.args.length = true) :
    Faulty s h call kind ↔ Failing s h call kind := by
  obtain ⟨hp, hname⟩ := Registry.of_get?_eq_some hget
  constructor
  · intro hfaulty
    cases hfaulty with
    | unknown missing => exact absurd hname (missing p hp)
    | @wrongCount q known named miscounted =>
        have hq := wellNamed_registry.get?_eq_some_iff.2 ⟨known, named⟩
        obtain rfl := Option.some.inj (hget.symm.trans hq)
        cases htakes.symm.trans miscounted
    | fails fails => exact fails
  · exact .fails

theorem exists_error_iff {e : EvaluationError} :
    (∃ e', (.error e : Except EvaluationError Bool) = .error e' ∧ e'.kind? = kind) ↔
      kind = e.kind? := by
  simp [eq_comm]

/-- What was called and reported before does not matter to how a call fails. -/
theorem failing_congr {h k : Host} (hsurroundings : k.surroundings = h.surroundings)
    (hexposed : k.exposed = h.exposed) (hfailing : Failing s h call kind) :
    Failing s k call kind := by
  have hdefaults := Host.usesDefaults_congr hsurroundings
  simp only [Host.surroundings, Prod.mk.injEq] at hsurroundings
  obtain ⟨hmachine, henvironment, -⟩ := hsurroundings
  cases hfailing with
  | refused refused => exact .refused refused
  | breaks breaks =>
      refine .breaks ?_
      cases breaks with
      | range ranged long => exact .range ranged long
      | interpreter named read bounded long =>
          exact .interpreter named read bounded (hmachine ▸ long)
      | module named breaks => exact .module named (hmachine ▸ breaks)
      | moduleAt named read breaks => exact .moduleAt named read (hmachine ▸ breaks)
      | compiler named starts breaks =>
          have hchosen : Host.chosenCompiler k s.config = Host.chosenCompiler h s.config := by
            rw [Host.chosenCompiler, Host.chosenCompiler, Host.valueOf?, Host.valueOf?, hmachine,
              henvironment]
          obtain ⟨chosen, writable, split, found⟩ := starts
          have hstarts := Host.Starts.intro (hchosen ▸ chosen) (hchosen ▸ writable)
            (hchosen ▸ split) (hmachine ▸ found)
          rw [hmachine] at hstarts
          exact .compiler named hstarts (hmachine ▸ breaks)
      | question named nonempty decides breaks =>
          rw [← Question.completes_congr hexposed hdefaults] at breaks
          exact .question named nonempty decides breaks

/-- A command of the built-in predicates fails exactly if it is at fault where it is come to. -/
theorem result_fails_iff (s : Setting) (v : Visit) :
    (∃ e, v.result registry s = .error e ∧ e.kind? = kind) ↔ Faulty s v.host v.call kind := by
  obtain ⟨⟨name, args⟩, h⟩ := v
  rw [Visit.result]
  cases hget : registry.get? name with
  | none =>
      rw [faulty_iff_of_missing hget, Condition.call_of_missing hget]
      exact exists_error_iff
  | some p =>
      cases htakes : p.takes args.length with
      | false =>
          rw [faulty_iff_of_wrongCount hget htakes, Condition.call_of_wrongCount hget htakes]
          exact exists_error_iff
      | true =>
          obtain ⟨hp, rfl⟩ := Registry.of_get?_eq_some hget
          have hrun : _ ↔ Failing s _ ⟨p.name, args⟩ kind := run_fails_iff hp htakes s
            { h with calls := h.calls ++ [⟨p.name, args⟩], log := [] }
          rw [faulty_iff_of_takes hget htakes, Condition.call_of_takes hget htakes]
          refine Iff.trans ?_ (hrun.trans ⟨failing_congr rfl rfl, failing_congr rfl rfl⟩)
          constructor
          · rintro ⟨e, heq, rfl⟩
            obtain ⟨cause, hcause, rfl⟩ := Result.mapError_eq_error.1 heq
            exact ⟨cause, hcause, rfl⟩
          · rintro ⟨cause, hcause, rfl⟩
            exact ⟨.predicate cause, Result.mapError_eq_error.2 ⟨cause, hcause, rfl⟩, rfl⟩

theorem answers_iff (s : Setting) (v : Visit) :
    (∃ b, v.result registry s = .ok b) ↔ ∀ kind, ¬ Faulty s v.host v.call kind := by
  simp only [← result_fails_iff s v]
  cases v.result registry s with
  | ok b => simp
  | error e => simp

end Builtin

namespace Condition

open Builtin (Breaks Failing Faulty registry)

variable {c : Condition} {v : Value} {s : Setting} {h : Host} {vs : List Visit}
  {x : Except EvaluationError Bool} {kind : Option ErrorKind}

/-- The last visit of an evaluation that fails is faulty. -/
theorem Answered.exists_faulty {e : EvaluationError} (hx : Answered registry s vs (.error e)) :
    ∃ u ∈ vs, ∃ kind, Faulty s u.host u.call kind := by
  cases hx with
  | error answers fails same =>
      exact ⟨_, List.mem_append_right _ (List.mem_singleton_self _), _,
        (Builtin.result_fails_iff s _).1 ⟨_, fails, rfl⟩⟩

/-- A visit that is faulty is the last one, and decides the kind of failure. -/
theorem Answered.of_faulty (hx : Answered registry s vs x) {u : Visit} (hu : u ∈ vs)
    (hfaulty : Faulty s u.host u.call kind) : (∃ e, x = .error e ∧ e.kind? = kind) ∧
      ∃ before, vs = before ++ [u] ∧ ∀ w ∈ before, ∀ kind, ¬ Faulty s w.host w.call kind := by
  have hanswers : ∀ w : Visit, (∃ b, w.result registry s = .ok b) →
      ∀ kind, ¬ Faulty s w.host w.call kind := fun w => (Builtin.answers_iff s w).1
  cases hx with
  | ok answers => exact absurd hfaulty (hanswers u (answers u hu) kind)
  | @error before v e e' answers fails same =>
      obtain rfl : u = v := by
        rcases List.mem_append.1 hu with hu | hu
        · exact absurd hfaulty (hanswers u (answers u hu) kind)
        · exact List.mem_singleton.1 hu
      obtain ⟨e₁, hfails, hkind⟩ := (Builtin.result_fails_iff s u).2 hfaulty
      obtain rfl := Except.error.inj (fails.symm.trans hfails)
      exact ⟨⟨e, rfl, same.symm.trans hkind⟩, before, rfl, fun w hw => hanswers w (answers w hw)⟩

/-- Over the built-in predicates, evaluating a condition fails exactly if it comes to a command that
is at fault: its name is unknown, its arguments are too few or too many, they are refused, or it
breaks.  The first such command decides which report is made of the failure, if any, and the
evaluation ends there; any other command comes out as true or false.  Where nothing goes wrong on
the host, only a range can make a command break, by a numeral that is too long. -/
theorem evaluate_fails_iff_faulty (hv : parse v = .ok c) (s : Setting) (h : Host) :
    ((∃ e, (evaluate registry s v h).1 = .error e) ↔
      ∃ u ∈ visits registry s c h, ∃ kind, Faulty s u.host u.call kind) ∧
    (∀ u ∈ visits registry s c h, ∀ kind, Faulty s u.host u.call kind →
      (∃ e, (evaluate registry s v h).1 = .error e ∧ e.kind? = kind) ∧
      ∃ before, visits registry s c h = before ++ [u] ∧
        ∀ w ∈ before, ∀ kind, ¬ Faulty s w.host w.call kind) ∧
    ∀ (u : Visit) (s : Setting), ((∀ kind, ¬ Faulty s u.host u.call kind) →
        ∃ b, u.result registry s = .ok b) ∧
      (u.host.Sound → Breaks s u.host u.call →
        ∃ range cause, Builtin.rangeOf? u.call = some range ∧ Range.BreaksOff range cause) := by
  have hanswered := answered_evaluate hv registry s h
  refine ⟨⟨?_, ?_⟩, fun u hu kind hfaulty => hanswered.of_faulty hu hfaulty,
    fun u s => ⟨(Builtin.answers_iff s u).2, Builtin.exists_breaksOff_of_sound⟩⟩
  · rintro ⟨e, he⟩
    rw [he] at hanswered
    exact hanswered.exists_faulty
  · rintro ⟨u, hu, kind, hfaulty⟩
    obtain ⟨⟨e, he, -⟩, -⟩ := hanswered.of_faulty hu hfaulty
    exact ⟨e, he⟩

/-- A condition whose last command asks for a range that is none. -/
def misspelt : Condition :=
  .combinator .and [.command "is_os" ["linux"] false,
    .combinator .or [.command "has_module" ["absent"] false,
      .command "has_python" ["=> 3"] true] false] false

/-- The condition as it is written. -/
def misspeltValue : Value :=
  .list [.str "and", .strs ["is_os", "linux"],
    .list [.str "or", .strs ["has_module", "absent"], .strs ["!has_python", "=> 3"]]]

theorem parse_misspeltValue : parse misspeltValue = .ok misspelt := by
  have hos : parse (.strs ["is_os", "linux"]) = .ok (.command "is_os" ["linux"] false) := by
    rw [parse_of_itemsOf rfl]
    rfl
  have hmodule : parse (.strs ["has_module", "absent"]) =
      .ok (.command "has_module" ["absent"] false) := by
    rw [parse_of_itemsOf rfl]
    rfl
  have hpython : parse (.strs ["!has_python", "=> 3"]) =
      .ok (.command "has_python" ["=> 3"] true) := by
    rw [parse_of_itemsOf rfl]
    rfl
  have hor : parse (.list [.str "or", .strs ["has_module", "absent"],
      .strs ["!has_python", "=> 3"]]) = .ok (.combinator .or
        [.command "has_module" ["absent"] false, .command "has_python" ["=> 3"] true] false) := by
    rw [parse_of_itemsOf rfl, readItems_eq_ok]
    refine ⟨_, _, rfl, .inl ⟨.or, _, rfl, parseOperands_eq_ok.2 ⟨?_, ?_⟩, rfl⟩⟩
    · simp [isOperand, Value.strs]
    · simp [hmodule, hpython]
  rw [misspeltValue, parse_of_itemsOf rfl, readItems_eq_ok]
  refine ⟨_, _, rfl, .inl ⟨.and, _, rfl, parseOperands_eq_ok.2 ⟨?_, ?_⟩, rfl⟩⟩
  · simp [isOperand, Value.strs]
  · simp [hos, hor]

theorem evaluate_fails_iff_faulty_misspelt :
    let s : Setting := ⟨⟨[]⟩, none⟩
    parse misspeltValue = .ok misspelt ∧
      ∃ before u, visits registry s misspelt .bare = before ++ [u] ∧
        u.call = ⟨"has_python", ["=> 3"]⟩ ∧ Faulty s u.host u.call (some .versionRange) ∧
        (∃ e, (evaluate registry s misspeltValue .bare).1 = .error e ∧
          e.kind? = some .versionRange) ∧
        ∀ w ∈ before, ∀ kind, ¬ Faulty s w.host w.call kind := by
  intro s
  have hreaches : ∃ h, Reaches registry s misspelt .bare ⟨"has_python", ["=> 3"]⟩ h :=
    ⟨_, .combinator (.later rfl (.here (.combinator (.later rfl (.here .command)))))⟩
  obtain ⟨h, hreaches⟩ := hreaches
  have hfaulty : Faulty s h ⟨"has_python", ["=> 3"]⟩ (some .versionRange) :=
    .fails (.refused (.badRange rfl rfl rfl))
  obtain ⟨-, hlast, -⟩ := evaluate_fails_iff_faulty parse_misspeltValue s .bare
  obtain ⟨hfails, before, hvisits, hbefore⟩ := hlast _ (mem_visits_iff.2 hreaches) _ hfaulty
  exact ⟨parse_misspeltValue, before, _, hvisits, rfl, hfaulty, hfails, hbefore⟩

/-! ### Evaluations that break -/

/-- A host on which looking for the distribution without a name breaks. -/
def pickyHost : Host :=
  { Host.bare with machine := { Host.bare.machine with distributions := [("", .breaks)] } }

/-- A command that is at fault fails. -/
theorem exists_error_of_faulty {name : String} {args : List String}
    (hv : parse v = .ok (.command name args false)) (hfaulty : Faulty s h ⟨name, args⟩ kind) :
    ∃ e, (evaluate registry s v h).1 = .error e ∧ e.kind? = kind :=
  ((answered_evaluate hv registry s h).of_faulty (List.mem_singleton_self _) hfaulty).1

/-- Two commands that fail without a report: one has a range with too many digits, so that reading
it breaks off, and the other looks for a module without a name on a host where this breaks. -/
theorem breaks_on_host : let s : Setting := ⟨⟨[]⟩, none⟩
    ((∃ e, Range.parse (String.ofList Range.ones) = .error e) ∧
      ∃ e, (evaluate registry s (.strs ["has_python", String.ofList Range.ones]) .bare).1 =
        .error e ∧ e.kind? = none) ∧
    ∃ e, (evaluate registry s (.strs ["has_module", ""]) pickyHost).1 = .error e ∧
      e.kind? = none := by
  intro s
  have hpython : ∀ range, parse (.strs ["has_python", range]) =
      .ok (.command "has_python" [range] false) := fun range => by
    rw [parse_of_itemsOf rfl]
    rfl
  have hmodule : parse (.strs ["has_module", ""]) = .ok (.command "has_module" [""] false) := by
    rw [parse_of_itemsOf rfl]
    rfl
  obtain ⟨cause, hlong⟩ := Range.exists_breaksOff_ones
  exact ⟨⟨⟨_, Range.parse_of_breaksOff hlong⟩,
    exists_error_of_faulty (hpython _) (.fails (.breaks (.range rfl hlong)))⟩,
    exists_error_of_faulty hmodule (.fails (.breaks (.module rfl (.lookup (.named rfl)))))⟩

end Condition

end HostPrereqs
