import HostPrereqs.Predicate.Basic

/-!
# Predicate — yes-or-no questions

A question is asked until the answer starts with `y` or `n`, in either case.  No answer and an
empty one mean the default.  Asking ends because every answer shortens the unread input.
-/

namespace HostPrereqs.Question

/-- What the first letter of an answer decides. -/
def decision? (answer : String) : Option Bool :=
  match answer.toList with
  | c :: _ =>
      if Text.lowerChar c = ['y'] then some true
      else if Text.lowerChar c = ['n'] then some false
      else none
  | [] => none

/-- The record of a question that was answered by its default. -/
def defaulted (prompt default : String) : Log.Record :=
  ⟨.debug, "dynreqs.predicates.builtins", "prompt_defaulted",
    [("prompt", .str prompt), ("answer", .str default)]⟩

/-- What is written where an answer decides nothing. -/
def correction : String := "Please answer 'y' or 'n'.\n"

/-- The prompt of a question, with its default. -/
def asked (prompt default : String) : String := s!"{prompt} [{default}] "

/-- Takes the default, which decides `byDefault`. -/
def takeDefault (prompt default : String) (byDefault : Bool) : HostAction (Option Bool) := do
  Host.report (defaulted prompt default)
  return some byDefault

/-- What is done with an answer.  Where it decides nothing, it is corrected. -/
def respond (prompt default : String) (byDefault : Bool) :
    Option String → HostAction (Option Bool)
  | none => do
      Host.write (default ++ "\n")
      takeDefault prompt default byDefault
  | some answer => do
      if answer.isEmpty then takeDefault prompt default byDefault
      else
        match decision? answer with
        | some b => return some b
        | none =>
            Host.write correction
            return none

/-- One round of a question: the prompt is written, and an answer is read. -/
def round (prompt default : String) (byDefault : Bool) : HostAction (Option Bool) := do
  Host.write (asked prompt default)
  respond prompt default byDefault (← Host.readLine)

variable {prompt default : String} {byDefault : Bool} {h h' : Host}

/-- Only an answer decides nothing, and nothing is read in return. -/
theorem exists_of_respond {answer : Option String}
    (hr : respond prompt default byDefault answer h = (.ok none, h')) :
    (∃ text, answer = some text) ∧ h'.input = h.input := by
  cases answer with
  | none =>
      rw [respond, Host.run_bind] at hr
      generalize Host.write (default ++ "\n") h = p at hr
      obtain ⟨_ | _, h₁⟩ := p <;> cases hr
  | some answer =>
      refine ⟨⟨answer, rfl⟩, ?_⟩
      rw [respond] at hr
      by_cases hempty : answer.isEmpty = true
      · rw [if_pos hempty] at hr
        cases hr
      · rw [if_neg hempty] at hr
        cases hdecision : decision? answer with
        | some b =>
            rw [hdecision] at hr
            cases hr
        | none =>
            have hcorrect := Host.input_write correction h
            rw [hdecision] at hr
            dsimp only at hr
            rw [Host.run_bind] at hr
            generalize Host.write correction h = p at hr hcorrect
            obtain ⟨_ | _, h₁⟩ := p <;> cases hr
            exact hcorrect

/-- A round that decides nothing shortens the unread input. -/
theorem length_round (hr : round prompt default byDefault h = (.ok none, h')) :
    h'.input.length < h.input.length := by
  have hask := Host.input_write (asked prompt default) h
  rw [round, Host.run_bind] at hr
  generalize Host.write (asked prompt default) h = p at hr hask
  obtain ⟨_ | _, h₁⟩ := p
  · cases hr
  · dsimp only at hr
    rw [Host.run_bind] at hr
    split at hr
    · rename_i answer h₂ hread
      obtain ⟨⟨text, rfl⟩, hinput⟩ := exists_of_respond hr
      have hlt := Host.length_readLine hread
      dsimp only at hask
      rwa [hask, ← hinput] at hlt
    · cases hr

/-- Asks until an answer decides. -/
def ask (prompt default : String) (byDefault : Bool) (h : Host) : Except HostFault Bool × Host :=
  match _hr : round prompt default byDefault h with
  | (.ok (some b), h') => (.ok b, h')
  | (.ok none, h') => ask prompt default byDefault h'
  | (.error cause, h') => (.error cause, h')
termination_by h.input.length
decreasing_by exact length_round _hr

/-- Asks a question, if it has a text and a default. -/
def run (prompt default : String) : ExceptT PredicateError OnHost Bool :=
  if prompt.isEmpty then throw .noPrompt
  else
    match decision? default with
    | none => throw .badDefault
    | some byDefault =>
        (ExceptT.mk (ask prompt default byDefault) : HostAction Bool).adapt .hostFault

end HostPrereqs.Question
