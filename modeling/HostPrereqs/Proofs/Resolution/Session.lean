import HostPrereqs.Proofs.Condition.Visits
import HostPrereqs.Proofs.Resolution.Validation

/-!
# Resolution — sessions

A session evaluates conditions, resolves entries, and changes the environment in between
(`Session.Step`); a step that fails is a step like any other.  Each step is a conversation between
the commands that it comes to and the one at the other end (`converses_perform`): for an entry
(`converses_apply`), for entries in turn (`converses_applyAll`), and for what is resolved.

`conversation_after` says of whole sessions: what is read are the first lines of the input, each for
one prompt of one question, unless a compiler takes some, and nothing else is written.
-/

namespace HostPrereqs

open Host (Quiet Dialogue)

/-! ### What is come to -/

namespace Resolver

/-- The commands that evaluating a condition comes to. -/
def evaluationVisits (r : Resolver) (condition : Value) (h : Host) : List Visit :=
  Condition.evaluationVisits r.registry r.setting condition h

/-- The commands that going through entries comes to, up to the entry that fails. -/
def entryVisits (r : Resolver) (index : Nat) : List Entry → Host → List Visit
  | [], _ => []
  | e :: es, h =>
      r.evaluationVisits (Entry.conditionValue e) h ++ match r.apply index e h with
        | (.ok _, h₁) => r.entryVisits (index + 1) es h₁
        | (.error _, _) => []

/-- The commands that a resolution comes to.  There are none if something in it cannot be read. -/
def resolutionVisits (r : Resolver) (expressions : Expressions) (seed : Value) (h : Host) :
    List Visit :=
  match r.seedOf seed, elementsOf expressions with
  | .ok _, .ok vs =>
      match Entry.ofValues vs with
      | .ok es => r.entryVisits 0 es h
      | .error _ => []
  | _, _ => []

variable {r : Resolver}

/-- Of what is done with an entry, only the evaluation of its condition reads and writes. -/
theorem converses_apply (hr : r.registry.Discreet) (index : Nat) (e : Entry) (h : Host) :
    Converses r.registry r.setting h (r.evaluationVisits (Entry.conditionValue e) h)
      (r.apply index e h).2 := by
  unfold apply
  refine .bind (Condition.converses_evaluate hr r.setting _ h) fun b => ?_
  cases b with
  | false => exact .bind (.lift (.report _)) fun _ => .pure _
  | true =>
      cases e.fatal? with
      | some message => exact .bind (.lift (.report _)) fun _ => .throw _
      | none =>
          exact .bind (.ofExcept _) fun _ => .bind (.forM_report _) fun _ =>
            .bind (.lift (.report _)) fun _ => .pure _

theorem converses_applyAll (hr : r.registry.Discreet) (index : Nat) (es : List Entry) (h : Host) :
    Converses r.registry r.setting h (r.entryVisits index es h) (r.applyAll index es h).2 := by
  induction es generalizing index h with
  | nil => exact .of_exposed rfl
  | cons e es ih =>
      have hfirst := converses_apply hr index e h
      rw [entryVisits, applyAll, Host.run_bind]
      generalize r.apply index e h = p at hfirst
      obtain ⟨x, h₁⟩ := p
      cases x with
      | error cause => simpa using hfirst
      | ok fragment => exact hfirst.trans ((ih (index + 1) h₁).bind fun _ => .pure _)

theorem converses_merge (hr : r.registry.Discreet) (seed : Requirements) (es : List Entry)
    (h : Host) : Converses r.registry r.setting h (r.entryVisits 0 es h) (r.merge seed es h).2 := by
  refine (converses_applyAll hr 0 es h).bind fun fragments => ?_
  split
  · exact .pure _
  · exact .ofExcept _

theorem converses_resolve (hr : r.registry.Discreet) (expressions : Expressions) (seed : Value)
    (h : Host) :
    Converses r.registry r.setting h (r.resolutionVisits expressions seed h)
      (r.resolve expressions seed h).2 := by
  unfold resolutionVisits
  cases hseed : r.seedOf seed with
  | error cause =>
      rw [resolve_of_seedOf_error hseed]
      exact .of_exposed rfl
  | ok s =>
      cases hvs : elementsOf expressions with
      | error cause =>
          rw [resolve_of_elementsOf_error hseed hvs]
          exact .of_exposed rfl
      | ok vs =>
          dsimp only
          cases hes : Entry.ofValues vs with
          | error fault =>
              rw [resolve_of_error hseed hvs hes]
              exact .of_exposed rfl
          | ok es =>
              rw [resolve_of_ok hseed hvs hes]
              exact converses_merge hr s es h

end Resolver

/-! ### Sessions -/

namespace Session

/-- What is done in a session. -/
inductive Step where
  | evaluate (condition : Value)
  | resolve (expressions : Expressions) (seed : Value)
  | setVariable (name value : String)
  | unsetVariable (name : String)

namespace Step

/-- The host after a step, whether it has failed or not. -/
def perform (r : Resolver) : Step → Host → Host
  | evaluate condition, h => (r.evaluate condition h).2
  | resolve expressions seed, h => (r.resolve expressions seed h).2
  | setVariable name value, h => (Host.setVariable name value h).2
  | unsetVariable name, h => (Host.unsetVariable name h).2

/-- The commands that a step comes to. -/
def visits (r : Resolver) : Step → Host → List Visit
  | evaluate condition, h => r.evaluationVisits condition h
  | resolve expressions seed, h => r.resolutionVisits expressions seed h
  | setVariable _ _, _ | unsetVariable _, _ => []

end Step

/-- The host after the steps of a session. -/
def after (r : Resolver) (steps : List Step) (h : Host) : Host :=
  steps.foldl (fun h step => step.perform r h) h

/-- The commands that a session comes to. -/
def visits (r : Resolver) : List Step → Host → List Visit
  | [], _ => []
  | step :: steps, h => step.visits r h ++ visits r steps (step.perform r h)

variable {r : Resolver}

/-- A step is a conversation. -/
theorem converses_perform (hr : r.registry.Discreet) (step : Step) (h : Host) :
    Converses r.registry r.setting h (step.visits r h) (step.perform r h) := by
  cases step with
  | evaluate condition => exact Condition.converses_evaluate hr r.setting condition h
  | resolve expressions seed => exact Resolver.converses_resolve hr expressions seed h
  | setVariable name value | unsetVariable name => exact .of_exposed rfl

theorem converses_after (hr : r.registry.Discreet) (steps : List Step) (h : Host) :
    Converses r.registry r.setting h (visits r steps h) (after r steps h) := by
  induction steps generalizing h with
  | nil => exact .of_exposed rfl
  | cons step steps ih => exact (converses_perform hr step h).trans (ih _)

/-- A session is a conversation, so that what is written are its exchanges in turn, and so is what
is read where the compilers that are started leave the input alone: each question is asked until it
is settled or an exchange breaks off, each line that was read answers one prompt of one question,
and what is unread is the rest of the input after these lines.  Nothing is read for a question while
the default is to be used, and so nothing at all if that is so for all of them.  A step that comes
to no question writes nothing, and reads nothing unless its compilers do. -/
theorem conversation_after (hr : r.registry.Discreet) (steps : List Step) (h : Host) :
    (∃ xss, Conversation r.registry r.setting h (visits r steps h) xss (after r steps h) ∧
      (after r steps h).written = h.written ++ h.transcript xss.flatten ∧
      ((∀ v ∈ visits r steps h, v.LeavesInput) → Dialogue h xss.flatten (after r steps h))) ∧
    ((∀ v ∈ visits r steps h, v.LeavesInput) →
      (∃ read, h.input = read.flatten ++ (after r steps h).input ∧
        h.unread = read ++ (after r steps h).unread) ∧
      ((∀ v ∈ visits r steps h, v.call.predicate = "y_n" → v.host.usesDefaults = true) →
        (after r steps h).input = h.input)) ∧
    ∀ step : Step, (∀ v ∈ step.visits r (after r steps h), v.call.predicate ≠ "y_n") →
      (step.perform r (after r steps h)).written = (after r steps h).written ∧
      ((∀ v ∈ step.visits r (after r steps h), v.LeavesInput) →
        (step.perform r (after r steps h)).input = (after r steps h).input) := by
  obtain ⟨xss, hall⟩ := converses_after hr steps h
  refine ⟨⟨xss, hall, hall.written.1, hall.dialogue⟩, fun hleaves => ?_, fun step hne => ?_⟩
  · have hdialogue := hall.dialogue hleaves
    exact ⟨hdialogue.exists_lines, fun hdefaults =>
      hdialogue.input_eq (hall.line_eq_nil_of_usesDefaults hdefaults)⟩
  · obtain ⟨yss, hstep⟩ := converses_perform hr step (after r steps h)
    have hnone := hstep.eq_nil_of_ne hne
    refine ⟨?_, fun hleaves => ?_⟩
    · rw [hstep.written.1, hnone, Host.transcript_nil, String.append_empty]
    · exact (hstep.dialogue hleaves).input_eq (by rw [hnone, List.filterMap_nil])

/-- A resolver with the built-in predicates and one more, which holds. -/
def obliging : Resolver :=
  ⟨⟨Builtin.all ++ [Condition.fixed "steady" true]⟩, ⟨⟨[]⟩, none⟩, .empty⟩

def question : Value := .list [.str "y_n", .str "Go on?", .str "n"]

theorem parse_question :
    Condition.parse question = .ok (.command "y_n" ["Go on?", "n"] false) := by
  rw [question, Condition.parse_of_itemsOf rfl]
  rfl

/-- A host with a line of input. -/
def answering : Host := { Host.bare with input := "yes\n".toList }

/-- The question is not answered with the line that is there, since it takes its default. -/
theorem conversation_after_answering :
    let steps := [.setVariable "DYNREQS_USE_DEFAULT" "1", .evaluate question]
    obliging.registry.Discreet ∧
      (∃ v ∈ visits obliging steps answering, v.call.predicate = "y_n") ∧
      (∃ xss, Conversation obliging.registry obliging.setting answering
        (visits obliging steps answering) xss (after obliging steps answering)) ∧
      (after obliging steps answering).input = "yes\n".toList := by
  intro steps
  have hregistry : obliging.registry.Discreet := by
    intro p hp
    refine (List.mem_append.1 hp).imp_right fun hp => ?_
    obtain rfl := List.mem_singleton.1 hp
    exact fun _ _ => Quiet.pure true
  have hvisits : visits obliging steps answering = [⟨⟨"y_n", ["Go on?", "n"]⟩,
      (Host.setVariable "DYNREQS_USE_DEFAULT" "1" answering).2⟩] := by
    simp [steps, visits, Step.visits, Step.perform, Resolver.evaluationVisits,
      Condition.evaluationVisits, parse_question, Condition.visits]
  obtain ⟨⟨xss, hall, -⟩, hlines, -⟩ := conversation_after hregistry steps answering
  refine ⟨hregistry, ⟨_, by rw [hvisits]; exact List.mem_cons_self, rfl⟩, ⟨xss, hall⟩,
    (hlines ?_).2 ?_⟩ <;> rw [hvisits]
  -- no compiler is started for a question
  · exact List.forall_mem_singleton.2 fun hcompiles => absurd hcompiles (by decide)
  · refine List.forall_mem_singleton.2 fun _ => ?_
    decide +kernel

end Session

end HostPrereqs
