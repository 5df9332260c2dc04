import HostPrereqs.Proofs.Condition.Evaluation
import HostPrereqs.Proofs.Condition.Reading
import HostPrereqs.Proofs.Predicate.Registry

/-!
# Condition — what an evaluation reaches

Evaluation comes to some of the commands of a condition, each on the host as it is then
(`Reaches`): to the first operand of a combinator in any case, and to a later one where those
before it have not decided.  The names of these commands are looked up, and no others.

* `evaluate_of_agree`: registries that give the same for the names looked up make no difference,
  and neither do further registrations where no name was missing.
* `looksUp_iff`: the names looked up are the ones whose predicates an evaluation cannot do without.
-/

namespace HostPrereqs.Condition

section

variable (r : Registry) (s : Setting)

mutual

/-- Evaluating a condition on a host comes to a command, on the host as it is then. -/
inductive Reaches : Condition → Host → Call → Host → Prop where
  | command {name : String} {args : List String} {negated : Bool} {h : Host} :
      Reaches (.command name args negated) h ⟨name, args⟩ h
  | combinator {junction : Junction} {operands : List Condition} {negated : Bool} {h h' : Host}
      {call : Call} (inner : ReachesIn junction operands h call h') :
      Reaches (.combinator junction operands negated) h call h'

/-- Evaluating operands comes to a command. -/
inductive ReachesIn : Junction → List Condition → Host → Call → Host → Prop where
  | here {junction : Junction} {c : Condition} {cs : List Condition} {h h' : Host} {call : Call}
      (inner : Reaches c h call h') : ReachesIn junction (c :: cs) h call h'
  | later {junction : Junction} {c : Condition} {cs : List Condition} {h h₁ h' : Host}
      {call : Call} (undecided : holds r s c h = (.ok junction.neutral, h₁))
      (rest : ReachesIn junction cs h₁ call h') : ReachesIn junction (c :: cs) h call h'

end

/-- Evaluating a condition on a host looks a name up. -/
def LooksUp (c : Condition) (h : Host) (name : String) : Prop :=
  ∃ args h', Reaches r s c h ⟨name, args⟩ h'

end

variable {r r' : Registry} {s : Setting} {j : Junction} {c : Condition} {cs : List Condition}
  {h h' : Host} {call : Call} {name : String}

/-! ### Registries that agree -/

theorem call_congr {name : String} (hget : r'.get? name = r.get? name) (args : List String)
    (negated : Bool) : Condition.call r' s name args negated =
      Condition.call r s name args negated := by
  unfold Condition.call
  rw [hget]

theorem joined_congr
    (hcs : ∀ c ∈ cs, ∀ h, (∀ name, LooksUp r s c h name → r'.get? name = r.get? name) →
      holds r' s c h = holds r s c h)
    (hagree : ∀ call h', ReachesIn r s j cs h call h' →
      r'.get? call.predicate = r.get? call.predicate) :
    joined r' s j cs h = joined r s j cs h := by
  induction cs generalizing h with
  | nil => rw [joined_nil, joined_nil]
  | cons c cs ih =>
      obtain ⟨hc, hcs⟩ := List.forall_mem_cons.1 hcs
      have hfirst : holds r' s c h = holds r s c h :=
        hc h fun name ⟨args, h', hreach⟩ => hagree ⟨name, args⟩ h' (.here hreach)
      rw [joined_cons, joined_cons, Host.run_bind, Host.run_bind, hfirst]
      cases hrun : holds r s c h with
      | mk x h₁ =>
          cases x with
          | error e => rfl
          | ok b =>
              dsimp only
              by_cases hb : b = j.neutral
              · rw [if_pos hb, if_pos hb]
                exact ih hcs fun call h' hreach => hagree call h' (.later (hb ▸ hrun) hreach)
              · rw [if_neg hb, if_neg hb]

/-- Registries that agree on the names looked up give the same run. -/
theorem holds_congr (hagree : ∀ name, LooksUp r s c h name → r'.get? name = r.get? name) :
    holds r' s c h = holds r s c h := by
  induction c using induct generalizing h with
  | command name args negated =>
      rw [holds, holds, call_congr (hagree name ⟨args, h, .command⟩)]
  | combinator junction operands negated ih =>
      have hoperands : joined r' s junction operands h = joined r s junction operands h :=
        joined_congr (fun c hc h hc' => ih c hc hc') fun call h' hreach =>
          hagree call.predicate ⟨call.args, h', .combinator hreach⟩
      rw [holds_combinator, holds_combinator, Host.run_bind, Host.run_bind, hoperands]

/-! ### Names that are missing -/

mutual

/-- An evaluation that comes to a missing name ends there. -/
theorem holds_of_missing {c : Condition} {h h' : Host} {call : Call}
    (hmissing : r.get? call.predicate = none) :
    Reaches r s c h call h' → holds r s c h = (.error (.unknownCommand call.predicate), h')
  | .command => by
      rw [holds]
      exact Host.run_bind_of_error _ (call_of_missing hmissing)
  | .combinator inner => by
      rw [holds_combinator]
      exact Host.run_bind_of_error _ (joined_of_missing hmissing inner)

theorem joined_of_missing {j : Junction} {cs : List Condition} {h h' : Host} {call : Call}
    (hmissing : r.get? call.predicate = none) :
    ReachesIn r s j cs h call h' →
      joined r s j cs h = (.error (.unknownCommand call.predicate), h')
  | .here inner => by
      rw [joined_cons]
      exact Host.run_bind_of_error _ (holds_of_missing hmissing inner)
  | .later undecided rest => by
      rw [joined_cons, Host.run_bind_of_ok _ undecided, if_pos rfl]
      exact joined_of_missing hmissing rest

end

theorem of_call_eq_unknown {own : String} {args : List String} {negated : Bool}
    (hcall : Condition.call r s own args negated h = (.error (.unknownCommand name), h')) :
    name = own ∧ r.get? own = none := by
  cases hget : r.get? own with
  | none =>
      rw [call_of_missing hget] at hcall
      cases hcall
      exact ⟨rfl, rfl⟩
  | some p =>
      cases htakes : p.takes args.length with
      | false =>
          rw [call_of_wrongCount hget htakes] at hcall
          cases hcall
      | true =>
          rw [call_of_takes hget htakes] at hcall
          generalize p.run s args _ = q at hcall
          obtain ⟨x, h₁⟩ := q
          cases x <;> cases hcall

theorem reachesIn_of_unknown
    (hcs : ∀ c ∈ cs, ∀ h h', holds r s c h = (.error (.unknownCommand name), h') →
      LooksUp r s c h name ∧ r.get? name = none)
    (hrun : joined r s j cs h = (.error (.unknownCommand name), h')) :
    (∃ args h', ReachesIn r s j cs h ⟨name, args⟩ h') ∧ r.get? name = none := by
  induction cs generalizing h with
  | nil =>
      rw [joined_nil] at hrun
      cases hrun
  | cons c cs ih =>
      obtain ⟨hc, hcs⟩ := List.forall_mem_cons.1 hcs
      rw [joined_cons] at hrun
      rcases Host.run_bind_eq_error.1 hrun with hfirst | ⟨b, h₁, hfirst, hrest⟩
      · obtain ⟨⟨args, h₂, hreach⟩, hmissing⟩ := hc _ _ hfirst
        exact ⟨⟨args, h₂, .here hreach⟩, hmissing⟩
      · by_cases hb : b = j.neutral
        · rw [if_pos hb] at hrest
          obtain ⟨⟨args, h₂, hreach⟩, hmissing⟩ := ih hcs hrest
          exact ⟨⟨args, h₂, .later (hb ▸ hfirst) hreach⟩, hmissing⟩
        · rw [if_neg hb] at hrest
          cases hrest

/-- An evaluation that ends at an unknown name has looked that name up, and it is missing. -/
theorem looksUp_of_unknown (hrun : holds r s c h = (.error (.unknownCommand name), h')) :
    LooksUp r s c h name ∧ r.get? name = none := by
  induction c using induct generalizing h h' with
  | command own args negated =>
      rw [holds] at hrun
      rcases Host.run_bind_eq_error.1 hrun with hcall | ⟨b, h₁, -, hrest⟩
      · obtain ⟨rfl, hmissing⟩ := of_call_eq_unknown hcall
        exact ⟨⟨args, h, .command⟩, hmissing⟩
      · cases hrest
  | combinator junction operands negated ih =>
      rw [holds_combinator] at hrun
      rcases Host.run_bind_eq_error.1 hrun with hoperands | ⟨b, h₁, -, hrest⟩
      · obtain ⟨⟨args, h₂, hreach⟩, hmissing⟩ :=
          reachesIn_of_unknown (fun c hc h h' => ih c hc) hoperands
        exact ⟨⟨args, h₂, .combinator hreach⟩, hmissing⟩
      · cases hrest

/-! ### Names an evaluation cannot do without -/

theorem reachesIn_without
    (hcs : ∀ c ∈ cs, ∀ h, LooksUp r s c h name → LooksUp (r.without name) s c h name)
    {args : List String} (hreach : ReachesIn r s j cs h ⟨name, args⟩ h') :
    ∃ args h', ReachesIn (r.without name) s j cs h ⟨name, args⟩ h' := by
  induction cs generalizing h with
  | nil => cases hreach
  | cons c cs ih =>
      obtain ⟨hc, hcs⟩ := List.forall_mem_cons.1 hcs
      by_cases hfirst : LooksUp r s c h name
      · obtain ⟨args', h₁, hinner⟩ := hc h hfirst
        exact ⟨args', h₁, .here hinner⟩
      · -- the first operand does without the name, so that the others are come to all the same
        have hsame : holds (r.without name) s c h = holds r s c h :=
          holds_congr fun other hother =>
            Registry.get?_without_of_ne r fun heq => hfirst (heq ▸ hother)
        cases hreach with
        | here inner => exact absurd ⟨args, h', inner⟩ hfirst
        | later undecided rest =>
            obtain ⟨args', h₁, hinner⟩ := ih hcs rest
            exact ⟨args', h₁, .later (hsame.trans undecided) hinner⟩

theorem looksUp_without (hlooks : LooksUp r s c h name) :
    LooksUp (r.without name) s c h name := by
  induction c using induct generalizing h with
  | command own args negated =>
      obtain ⟨args', h', hreach⟩ := hlooks
      cases hreach
      exact ⟨args, h, .command⟩
  | combinator junction operands negated ih =>
      obtain ⟨args, h', hreach⟩ := hlooks
      cases hreach with
      | combinator inner =>
          obtain ⟨args', h₁, hinner⟩ := reachesIn_without (fun c hc h => ih c hc) inner
          exact ⟨args', h₁, .combinator hinner⟩

/-- A name is looked up exactly if the evaluation ends at it when its predicates are taken away. -/
theorem looksUp_iff : LooksUp r s c h name ↔
    ∃ h', holds (r.without name) s c h = (.error (.unknownCommand name), h') := by
  constructor
  · intro hlooks
    obtain ⟨args, h', hreach⟩ := looksUp_without hlooks
    exact ⟨h', holds_of_missing (Registry.get?_without_self r name) hreach⟩
  · rintro ⟨h', hrun⟩
    refine Classical.byContradiction fun hnot => ?_
    have hsame : holds (r.without name) s c h = holds r s c h :=
      holds_congr fun other hother =>
        Registry.get?_without_of_ne r fun heq => hnot (heq ▸ hother)
    exact hnot (looksUp_of_unknown (hsame.symm.trans hrun)).1

/-! ### Evaluations -/

theorem evaluate_congr_registry {v : Value} (hv : parse v = .ok c)
    (hagree : ∀ name, LooksUp r s c h name → r'.get? name = r.get? name) :
    evaluate r' s v h = evaluate r s v h := by
  rw [evaluate_of_parse hv, evaluate_of_parse hv, Host.run_bind, Host.run_bind,
    holds_congr hagree]

/-- Where no name was missing, every name looked up is registered. -/
theorem exists_get?_of_looksUp {v : Value} (hv : parse v = .ok c)
    (hknown : ∀ name, (evaluate r s v h).1 ≠ .error (.unknownCommand name))
    (hlooks : LooksUp r s c h name) : ∃ p, r.get? name = some p := by
  cases hget : r.get? name with
  | some p => exact ⟨p, rfl⟩
  | none =>
      obtain ⟨args, h', hreach⟩ := hlooks
      have hrun := holds_of_missing hget hreach
      refine absurd ?_ (hknown name)
      rw [evaluate_of_parse hv, Host.run_bind_of_error _ hrun]

/-- Two registries that have the same predicate, or both none, under every name that an evaluation
looks up with the first, give the same evaluation: the same truth value or error, and the same
host.  So registering further predicates changes no evaluation that did not end at an unknown
name. -/
theorem evaluate_of_agree {v : Value} (hv : parse v = .ok c) (r : Registry) (s : Setting)
    (h : Host) :
    (∀ r' : Registry, (∀ name, LooksUp r s c h name → r'.get? name = r.get? name) →
      evaluate r' s v h = evaluate r s v h) ∧
    ∀ (ps : List Predicate) (r' : Registry), r.registerAll ps = .ok r' →
      (∀ name, (evaluate r s v h).1 ≠ .error (.unknownCommand name)) →
      evaluate r' s v h = evaluate r s v h := by
  refine ⟨fun r' => evaluate_congr_registry hv, fun ps r' hps hknown => ?_⟩
  refine evaluate_congr_registry hv fun name hlooks => ?_
  obtain ⟨p, hp⟩ := exists_get?_of_looksUp hv hknown hlooks
  rw [hp, Registry.get?_registerAll hps hp]

/-- A test that is answered in the same way on every host. -/
def fixed (name : String) (answer : Bool) : Predicate :=
  ⟨name, 0, some 0, "", fun _ _ => pure answer⟩

def steadyOnly : Registry := ⟨[fixed "steady" true]⟩

/-- A choice that is decided before the name that `steadyOnly` lacks. -/
def decided : Condition :=
  .combinator .or [.command "steady" [] false, .command "missing" [] false] false

theorem parse_decided :
    parse (.list [.str "or", .str "steady", .list [.str "missing"]]) = .ok decided := by
  have hsteady : parse (.str "steady") = .ok (.command "steady" [] false) := by
    rw [parse_of_itemsOf rfl]
    rfl
  have hmissing : parse (.list [.str "missing"]) = .ok (.command "missing" [] false) := by
    rw [parse_of_itemsOf rfl]
    rfl
  rw [parse_of_itemsOf rfl, readItems_eq_ok]
  refine ⟨_, _, rfl, .inl ⟨.or, _, rfl, parseOperands_eq_ok.2 ⟨?_, ?_⟩, rfl⟩⟩
  · simp [isOperand]
  · simp [hsteady, hmissing]

theorem eq_steady_of_looksUp (hlooks : LooksUp steadyOnly s decided h name) : name = "steady" := by
  obtain ⟨args, h', hreach⟩ := hlooks
  cases hreach with
  | combinator inner =>
      cases inner with
      | here inner =>
          cases inner
          rfl
      | later undecided rest => cases undecided

theorem evaluate_of_agree_decided :
    let v := Value.list [.str "or", .str "steady", .list [.str "missing"]]
    let s : Setting := ⟨⟨[]⟩, none⟩
    let other : Registry := ⟨[fixed "missing" false, fixed "steady" true]⟩
    let more : Registry := ⟨[fixed "steady" true, fixed "missing" true]⟩
    parse v = .ok decided ∧
      (∀ name, LooksUp steadyOnly s decided .bare name →
        other.get? name = steadyOnly.get? name) ∧
      evaluate other s v .bare = evaluate steadyOnly s v .bare ∧
      steadyOnly.registerAll [fixed "missing" true] = .ok more ∧
      (∀ name, (evaluate steadyOnly s v .bare).1 ≠ .error (.unknownCommand name)) ∧
      evaluate more s v .bare = evaluate steadyOnly s v .bare := by
  intro v s other more
  obtain ⟨hother, hmore⟩ := evaluate_of_agree parse_decided steadyOnly s .bare
  have hagree : ∀ name, LooksUp steadyOnly s decided .bare name →
      other.get? name = steadyOnly.get? name := by
    intro name hlooks
    rw [eq_steady_of_looksUp hlooks]
    rfl
  have hgrown : steadyOnly.registerAll [fixed "missing" true] = .ok more := by
    rw [Registry.registerAll, List.foldlM_cons, Registry.register_eq_ok.2
      ⟨by decide, by decide +kernel, by rfl, rfl⟩]
    rfl
  have hknown : ∀ name, (evaluate steadyOnly s v .bare).1 ≠ .error (.unknownCommand name) := by
    intro name heq
    rw [evaluate_of_parse parse_decided] at heq
    cases heq
  exact ⟨parse_decided, hagree, hother other hagree, hgrown, hknown, hmore _ more hgrown hknown⟩

end HostPrereqs.Condition
