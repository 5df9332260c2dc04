import HostPrereqs.Predicate.Builtin
import HostPrereqs.Proofs.Host.Keeping
import HostPrereqs.Proofs.Predicate.Question

/-!
# Predicate — which predicates read and write

An action is quiet if it reads nothing and writes nothing (`Host.Quiet`).  Of the built-in
predicates all are quiet but `y_n`, a call of which is a dialogue about its arguments, and `can_xs`,
whose compiler may take some of the unread input (`Builtin.dialogue`).  A registry is discreet if no
other predicate in it reads or writes (`Registry.Discreet`).

No built-in predicate changes the surroundings of the host, `y_n` included (`Builtin.steady`).
-/

namespace HostPrereqs

namespace Host

variable {ε ε' α β : Type}

/-- An action that reads nothing and writes nothing. -/
def Quiet (m : OnHost α) : Prop := ∀ h, (m h).2.exposed = h.exposed

/-- Where nothing that is shared changes there is a dialogue without exchanges. -/
theorem Dialogue.of_exposed {h h' : Host} (hsame : h'.exposed = h.exposed) : Dialogue h [] h' := by
  obtain ⟨hinput, hwritten, hstreams⟩ := exposed_eq_iff.1 hsame
  exact .quiet hinput hwritten hstreams

namespace Quiet

variable {m : OnHost α} {x : Except ε α}

theorem of_keeps (hm : Keeps exposed m) : Quiet m := hm

theorem pure (a : α) : Quiet (Pure.pure a : ExceptT ε OnHost α) := .of_keeps (.pure a)

theorem throw (e : ε) : Quiet (MonadExcept.throw e : ExceptT ε OnHost α) := .of_keeps (.throw e)

theorem ofExcept (x : Except ε α) : Quiet (MonadExcept.ofExcept x : ExceptT ε OnHost α) :=
  .of_keeps (.ofExcept x)

theorem report (r : Log.Record) : Quiet (Host.report r) := (keeps_report r).exposed

theorem lift (hm : Quiet m) : Quiet (liftM m : ExceptT ε OnHost α) := hm

theorem bind {m : ExceptT ε OnHost α} {f : α → ExceptT ε OnHost β} (hm : Quiet m)
    (hf : ∀ a, Quiet (f a)) : Quiet (m >>= f : ExceptT ε OnHost β) :=
  .of_keeps (.bind hm hf)

theorem forM_report (rs : List Log.Record) :
    Quiet (rs.forM fun r => liftM (Host.report r) : ExceptT ε OnHost PUnit) :=
  .of_keeps (keeps_forM_report rs).exposed

end Quiet

/-- The host that a call finds when its dialogue begins: the one that it is called on, or what a
compiler has left of that, which only `can_xs` starts. -/
inductive Leaves (call : Call) (h k : Host) : Prop where
  | undisturbed (same : k.exposed = h.exposed)
  | compiled (argv : List String) (compiles : call.predicate = "can_xs")
      (left : k.exposed = (h.machine.compilerLeaves argv h.input, h.written, h.streams))

/-- Compilers take nothing of what is shared but input. -/
theorem Leaves.output {call : Call} {h k : Host} (hk : Leaves call h k) :
    k.written = h.written ∧ k.streams = h.streams := by
  cases hk with
  | undisturbed same => exact ⟨congrArg (·.2.1) same, congrArg (·.2.2) same⟩
  | compiled argv _ left => exact ⟨congrArg (·.2.1) left, congrArg (·.2.2) left⟩

/-- A call was a dialogue about what it asks. -/
def DialogueAbout (question : Prop) (call : Call) (h : Host) (run : Except ε Bool × Host) : Prop :=
  ∃ k xs, Leaves call h k ∧ Dialogue k xs run.2 ∧ Asked question call h run.1 xs

/-- A call that is no question has a dialogue without exchanges. -/
theorem DialogueAbout.nothing {question : Prop} {call : Call} {h : Host}
    {run : Except ε Bool × Host} (hquestion : ¬ question) (hleaves : Leaves call h run.2) :
    DialogueAbout question call h run :=
  ⟨run.2, [], hleaves, .refl _, .nothing hquestion⟩

end Host

/-- A predicate that reads and writes nothing. -/
def Predicate.Silent (p : Predicate) : Prop := ∀ s args, Host.Quiet (p.run s args)

/-- A predicate that does not change the surroundings. -/
def Predicate.Steady (p : Predicate) : Prop := ∀ s args, Host.Keeps Host.surroundings (p.run s args)

namespace Builtin

open Host (Keeps Quiet outside)

theorem keeps_debug (event : String) (fields : List (String × Value)) :
    Keeps outside (debug event fields) :=
  .bind (.lift (Host.keeps_report _)) fun _ => .pure _

theorem keeps_ofMachine (test : Machine → Bool) : Keeps outside (ofMachine test) := fun _ => rfl

theorem keeps_ofAction {action : HostAction Bool} (haction : Keeps outside action) :
    Keeps outside (ofAction action) := haction.adapt _

/-- Comparing a version with a range keeps everything outside as it is. -/
theorem keeps_liesIn (wanted : Range) (version : String) : Keeps outside (liesIn wanted version) :=
  keeps_ofAction (.ofExcept _)

theorem keeps_readRange (text : String) : Keeps outside (readRange text) := .ofExcept _

theorem keeps_hasInterpreter (range : String) : Keeps outside (hasInterpreter range) :=
  .bind (keeps_readRange range) fun _ => .bind (fun _ => rfl) fun _ => keeps_liesIn _ _

theorem keeps_hasModule (module : String) : Keeps outside (hasModule module) :=
  keeps_ofAction (Host.keeps_moduleExists module)

theorem keeps_hasVersion (module : String) (wanted : Range) :
    Keeps outside (hasVersion module wanted) := by
  refine .bind (fun _ => rfl) fun h => .bind (.adapt (.ofExcept _) _) fun version => ?_
  cases version with
  | none => exact keeps_debug _ _
  | some version => exact keeps_liesIn wanted version

/-- So does looking for a module in a range. -/
theorem keeps_hasModuleAt (module range : String) : Keeps outside (hasModuleAt module range) := by
  refine .bind (keeps_readRange range) fun wanted => ?_
  split
  · exact keeps_hasModule module
  · exact keeps_hasVersion module wanted

theorem keeps_isOsType (family : String) : Keeps outside (isOsType family) := by
  refine .bind (fun _ => rfl) fun h => ?_
  dsimp only
  split
  · exact keeps_debug _ _
  · exact .pure _

theorem keeps_nullary {name description : String} {test : Setting → Test}
    (htest : ∀ s, Keeps outside (test s)) (s : Setting) (args : List String) :
    Keeps outside ((nullary name description test).run s args) := htest s

theorem keeps_unary {name description : String} {test : Setting → String → Test}
    (htest : ∀ s arg, Keeps outside (test s arg)) (s : Setting) (args : List String) :
    Keeps outside ((unary name description test).run s args) := htest s _

/-- All built-in predicates but `y_n` and `can_xs` keep what is shared and the surroundings. -/
theorem keeps_of_ne {p : Predicate} (hp : p ∈ all) (hquestion : p.name ≠ "y_n")
    (hcompiler : p.name ≠ "can_xs") (s : Setting) (args : List String) :
    Keeps outside (p.run s args) := by
  simp only [all, List.mem_cons, List.not_mem_nil, or_false] at hp
  rcases hp with rfl | rfl | rfl | rfl | rfl | rfl | rfl | rfl | rfl | rfl | rfl | rfl
  · exact absurd rfl hcompiler
  · exact keeps_unary (fun _ _ => keeps_ofMachine _) s args
  · exact keeps_unary (fun _ => keeps_hasInterpreter) s args
  · exact keeps_unary (fun _ => keeps_hasInterpreter) s args
  · dsimp only
    split
    · exact keeps_hasModuleAt _ _
    · exact keeps_hasModule _
  · exact keeps_unary (fun _ _ => keeps_ofMachine _) s args
  · exact keeps_unary (fun _ _ _ => rfl) s args
  · exact keeps_unary (fun _ _ => keeps_ofMachine _) s args
  · exact keeps_unary (fun _ => keeps_isOsType) s args
  · exact keeps_nullary (fun _ => .pure _) s args
  · exact keeps_nullary (fun _ => .pure _) s args
  · exact absurd rfl hquestion

/-- The built-in predicate `can_xs` is the first one. -/
theorem eq_head {p : Predicate} (hp : p ∈ all) (hname : p.name = "can_xs") :
    p = all.head (by simp [all]) := by
  simp only [all, List.mem_cons, List.not_mem_nil, or_false] at hp
  rcases hp with hp | hp
  · exact hp
  · iterate 10
      rcases hp with rfl | hp
      · exact absurd hname (by decide)
    subst hp
    exact absurd hname (by decide)

/-- Of the built-in predicates only `can_xs` runs a compiler. -/
theorem compiles {p : Predicate} (hp : p ∈ all) (hname : p.name = "can_xs") (s : Setting)
    (args : List String) : Host.Compiles (p.run s args) := by
  obtain rfl := eq_head hp hname
  exact Host.compiles_canCompile s.config

/-- The built-in predicate `y_n` is the last one. -/
theorem eq_getLast {p : Predicate} (hp : p ∈ all) (hname : p.name = "y_n") :
    p = all.getLast (by simp [all]) := by
  simp only [all, List.mem_cons, List.not_mem_nil, or_false] at hp
  iterate 11
    rcases hp with rfl | hp
    · exact absurd hname (by decide)
  exact hp

/-- No built-in predicate changes the surroundings. -/
theorem steady {p : Predicate} (hp : p ∈ all) : p.Steady := by
  intro s args
  by_cases hname : p.name = "y_n"
  · obtain rfl := eq_getLast hp hname
    rcases args with _ | ⟨prompt, _ | ⟨default, _ | ⟨other, args⟩⟩⟩
    case cons.cons.nil =>
      change Keeps Host.surroundings (Question.run prompt default)
      unfold Question.run
      split
      · exact .throw _
      · split
        · exact .throw _
        · exact fun h => Question.surroundings_ask prompt default _ h
    all_goals exact .throw _
  · by_cases hcompiler : p.name = "can_xs"
    · exact fun h => (compiles hp hcompiler s args h).1
    · exact (keeps_of_ne hp hname hcompiler s args).surroundings

end Builtin

/-- A call of a predicate is a question: of the built-in `y_n`, with a text and a default that
decides. -/
def Predicate.IsQuestion (p : Predicate) (args : List String) : Prop :=
  p ∈ Builtin.all ∧ p.name = "y_n" ∧
    ∃ prompt default, args = [prompt, default] ∧ Question.IsWellPut prompt default

/-- The built-in `y_n` asks its question, if it is one. -/
theorem Builtin.dialogue_question {p : Predicate} (hp : p ∈ all) (hname : p.name = "y_n")
    (s : Setting) (args : List String) (h : Host) :
    Host.DialogueAbout (p.IsQuestion args) ⟨p.name, args⟩ h (p.run s args h) := by
  obtain rfl := eq_getLast hp hname
  rcases args with _ | ⟨prompt, _ | ⟨default, _ | ⟨other, args⟩⟩⟩
  case cons.cons.nil =>
    have hquestion : (all.getLast (by simp [all])).IsQuestion [prompt, default] ↔
        Question.IsWellPut prompt default := by
      constructor
      · rintro ⟨-, -, _, _, heq, hput⟩
        cases heq
        exact hput
      · exact fun hput => ⟨hp, hname, prompt, default, rfl, hput⟩
    rw [hquestion]
    obtain ⟨xs, hxs, hasked⟩ := Question.run_dialogue prompt default h
    exact ⟨h, xs, .undisturbed rfl, hxs, hasked⟩
  all_goals
    refine .nothing ?_ (.undisturbed rfl)
    rintro ⟨-, -, _, _, heq, -⟩
    cases heq

/-- A call of a built-in predicate is a dialogue about what it asks, after its compiler has run. -/
theorem Builtin.dialogue {p : Predicate} (hp : p ∈ all) (s : Setting) (args : List String)
    (h : Host) : Host.DialogueAbout (p.IsQuestion args) ⟨p.name, args⟩ h (p.run s args h) := by
  by_cases hname : p.name = "y_n"
  · exact dialogue_question hp hname s args h
  · refine .nothing (fun hquestion => hname hquestion.2.1) ?_
    by_cases hcompiler : p.name = "can_xs"
    · exact (compiles hp hcompiler s args h).2.elim .undisturbed
        fun ⟨argv, hleft⟩ => .compiled argv hcompiler hleft
    · exact .undisturbed ((keeps_of_ne hp hname hcompiler s args).exposed h)

/-- A question has the number of arguments that its predicate takes. -/
theorem Predicate.IsQuestion.takes {p : Predicate} {args : List String} (hp : p.IsQuestion args) :
    p.takes args.length = true := by
  obtain ⟨hbuiltin, hname, prompt, default, rfl, -⟩ := hp
  obtain rfl := Builtin.eq_getLast hbuiltin hname
  rfl

/-- A call by name is a question. -/
def Registry.IsQuestion (r : Registry) (call : Call) : Prop :=
  ∃ p, r.get? call.predicate = some p ∧ p.IsQuestion call.args

/-- Whether a command is a question is decided by the predicate that is found. -/
theorem Registry.isQuestion_iff {r : Registry} {p : Predicate} {name : String}
    (hget : r.get? name = some p) (args : List String) :
    r.IsQuestion ⟨name, args⟩ ↔ p.IsQuestion args := by
  constructor
  · rintro ⟨q, hq, hquestion⟩
    cases hget.symm.trans hq
    exact hquestion
  · exact fun hquestion => ⟨p, hget, hquestion⟩

/-- Besides the built-in predicates there are only ones that read and write nothing. -/
def Registry.Discreet (r : Registry) : Prop := ∀ p ∈ r.predicates, p ∈ Builtin.all ∨ p.Silent

/-- A call of a predicate is a dialogue about what it asks. -/
theorem Registry.Discreet.dialogue {r : Registry} (hr : r.Discreet) {p : Predicate}
    (hp : p ∈ r.predicates) (s : Setting) (args : List String) (h : Host) :
    Host.DialogueAbout (p.IsQuestion args) ⟨p.name, args⟩ h (p.run s args h) := by
  by_cases hbuiltin : p ∈ Builtin.all
  · exact Builtin.dialogue hbuiltin s args h
  · have hsilent : p.Silent := (hr p hp).resolve_left hbuiltin
    exact .nothing (fun hquestion => hbuiltin hquestion.1) (.undisturbed (hsilent s args h))

end HostPrereqs
