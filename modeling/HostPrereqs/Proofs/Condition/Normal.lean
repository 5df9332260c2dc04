import HostPrereqs.Failure.Basic
import HostPrereqs.Proofs.Condition.Evaluation

/-!
# Condition — a normal form

`normal` pushes the negations of a condition down to its commands, where a negated `and` becomes
an `or` and the other way round (`pushed`), and then puts the operands of a combinator that is an
operand of the same junction in its place (`spliced`).  Evaluating the normal form gives the same
truth value or tells the same error, and does the same to the host, whatever the predicates do:
`evaluate_normal`.

Pushing negations changes the text of a command, which an error about the number of its arguments
holds; so errors are compared as they are told (`telling`).  Splicing changes no error.  Both are
inductions on conditions, over what the operands of one combinator come out as together.
-/

namespace HostPrereqs

namespace Junction

/-- The junction that a negation turns a junction into. -/
def dual : Junction → Junction
  | and => or
  | or  => and

/-- A junction under a number of negations, which is odd if `flip` is set. -/
def flipped (flip : Bool) (j : Junction) : Junction := if flip then j.dual else j

theorem neutral_flipped (flip : Bool) (j : Junction) :
    (j.flipped flip).neutral = (j.neutral != flip) := by
  cases flip <;> cases j <;> rfl

end Junction

namespace Condition

/-! ### The normal form -/

mutual

/-- A condition, negated if `flip` is set, with negations at commands only. -/
def pushed (flip : Bool) : Condition → Condition
  | .command name args negated => .command name args (negated != flip)
  | .combinator junction operands negated =>
      .combinator (junction.flipped (negated != flip)) (pusheds (negated != flip) operands) false

def pusheds (flip : Bool) : List Condition → List Condition
  | []      => []
  | c :: cs => pushed flip c :: pusheds flip cs

end

/-- What stands for an operand of a junction: if it is that junction itself, its own operands. -/
def operandsIn (junction : Junction) : Condition → List Condition
  | .combinator inner operands false =>
      if inner = junction then operands else [.combinator inner operands false]
  | c => [c]

mutual

/-- A condition in which no combinator without a negation is an operand of the same junction without
a negation. -/
def spliced : Condition → Condition
  | .command name args negated => .command name args negated
  | .combinator junction operands true => .combinator junction (spliceds operands) true
  | .combinator junction operands false =>
      .combinator junction ((spliceds operands).flatMap (operandsIn junction)) false

def spliceds : List Condition → List Condition
  | []      => []
  | c :: cs => spliced c :: spliceds cs

end

def normal (c : Condition) : Condition := (c.pushed false).spliced

/-- No combinator is negated, and none is an operand of the same junction. -/
inductive IsNormal : Condition → Prop where
  | command (name : String) (args : List String) (negated : Bool) :
      IsNormal (.command name args negated)
  | combinator {junction : Junction} {operands : List Condition}
      (each : ∀ c ∈ operands, IsNormal c)
      (apart : ∀ c ∈ operands, ∀ inner negated, c ≠ .combinator junction inner negated) :
      IsNormal (.combinator junction operands false)

theorem pusheds_eq_map (flip : Bool) (cs : List Condition) :
    pusheds flip cs = cs.map (pushed flip) := by
  induction cs with
  | nil => rfl
  | cons c cs ih => rw [pusheds, ih, List.map_cons]

theorem spliceds_eq_map (cs : List Condition) : spliceds cs = cs.map spliced := by
  induction cs with
  | nil => rfl
  | cons c cs ih => rw [spliceds, ih, List.map_cons]

/-- What stands for a normal operand is normal, and no combinator of the junction. -/
theorem IsNormal.of_mem_operandsIn {junction : Junction} {c d : Condition} (hc : c.IsNormal)
    (hd : d ∈ operandsIn junction c) :
    d.IsNormal ∧ ∀ inner negated, d ≠ .combinator junction inner negated := by
  cases hc with
  | command name args negated =>
      obtain rfl := List.mem_singleton.1 hd
      exact ⟨.command name args negated, nofun⟩
  | @combinator own operands each apart =>
      rw [operandsIn] at hd
      split at hd
      · rename_i hsame
        subst hsame
        exact ⟨each d hd, apart d hd⟩
      · rename_i hother
        obtain rfl := List.mem_singleton.1 hd
        refine ⟨.combinator each apart, fun inner negated heq => ?_⟩
        cases heq
        exact hother rfl

/-- Pushing marks down and splicing operands in gives a normal form, by induction on the condition.
-/
theorem isNormal_spliced_pushed (c : Condition) (flip : Bool) :
    (c.pushed flip).spliced.IsNormal := by
  induction c using induct generalizing flip with
  | command name args negated => exact .command name args _
  | combinator junction operands negated ih =>
      rw [pushed, spliced, spliceds_eq_map, pusheds_eq_map, List.map_map]
      have hoperand : ∀ c ∈ ((operands.map (spliced ∘ pushed (negated != flip))).flatMap
          (operandsIn (junction.flipped (negated != flip)))), ∃ d, d.IsNormal ∧
            c ∈ operandsIn (junction.flipped (negated != flip)) d := by
        intro c hc
        obtain ⟨d, hd, hcd⟩ := List.mem_flatMap.1 hc
        obtain ⟨operand, hoperand, rfl⟩ := List.mem_map.1 hd
        exact ⟨_, ih operand hoperand _, hcd⟩
      refine .combinator (fun c hc => ?_) (fun c hc => ?_)
      · obtain ⟨d, hd, hcd⟩ := hoperand c hc
        exact (hd.of_mem_operandsIn hcd).1
      · obtain ⟨d, hd, hcd⟩ := hoperand c hc
        exact (hd.of_mem_operandsIn hcd).2

example : normal (.combinator .and [.combinator .or [.command "can_xs" [] false,
    .command "has_perl" ["5"] true] true, .command "is_os" ["linux"] false] false) =
    .combinator .and [.command "can_xs" [] true, .command "has_perl" ["5"] false,
      .command "is_os" ["linux"] false] false := rfl

/-! ### Evaluations and what they tell -/

end Condition

/-- The kind of an error and its text.  An error of which no report is made tells all that it is. -/
def EvaluationError.told (e : EvaluationError) : (ErrorKind × String) ⊕ EvaluationError :=
  match e.report? with
  | some report => .inl (report.kind, report.message)
  | none => .inr e

/-- An evaluation whose errors are what they tell. -/
def telling {α : Type} (m : Evaluation α) :
    ExceptT ((ErrorKind × String) ⊕ EvaluationError) OnHost α :=
  m.adapt EvaluationError.told

section

variable {α β : Type}

theorem telling_run (m : Evaluation α) (h : Host) :
    telling m h = ((m h).1.mapError EvaluationError.told, (m h).2) := rfl

theorem telling_pure (a : α) : telling (pure a) = pure a := rfl

/-- Errors may be told step by step. -/
theorem telling_bind (m : Evaluation α) (f : α → Evaluation β) :
    telling (m >>= f) = telling m >>= fun a => telling (f a) := by
  funext h
  rw [telling_run, Host.run_bind, Host.run_bind, telling_run]
  cases m h with
  | mk x h' => cases x <;> rfl

end

namespace Condition

section

variable {r : Registry} {s : Setting} {j : Junction}

/-! ### Pushing negations -/

theorem telling_joined_cons (c : Condition) (cs : List Condition) :
    telling (joined r s j (c :: cs)) = (do
      let b ← telling (holds r s c)
      if b = j.neutral then telling (joined r s j cs) else pure (!j.neutral)) := by
  rw [joined_cons, telling_bind]
  refine bind_congr fun b => ?_
  by_cases hb : b = j.neutral
  · rw [if_pos hb, if_pos hb]
  · rw [if_neg hb, if_neg hb, telling_pure]

theorem telling_holds_combinator (cs : List Condition) (negated : Bool) :
    telling (holds r s (.combinator j cs negated)) =
      (do return (← telling (joined r s j cs)) != negated) := by
  rw [holds_combinator, telling_bind]
  rfl

/-- What an error of a call tells does not show whether the command is negated. -/
theorem telling_call (name : String) (args : List String) (n n' : Bool) :
    telling (call r s name args n) = telling (call r s name args n') := by
  unfold call
  cases r.get? name with
  | none => rfl
  | some p =>
      dsimp only
      split <;> rfl

theorem telling_holds_command (name : String) (args : List String) (negated flip : Bool) :
    telling (holds r s (.command name args (negated != flip))) =
      (do return (← telling (holds r s (.command name args negated))) != flip) := by
  rw [holds, holds, telling_bind, telling_bind, telling_call name args _ negated, bind_assoc]
  refine bind_congr fun b => ?_
  rw [telling_pure, telling_pure, pure_bind, Bool.bne_assoc]

/-- If pushing negations flips what every operand comes out as, then it flips what they come out as
together, under the flipped junction. -/
theorem telling_joined_pushed {flip : Bool} {cs : List Condition}
    (hcs : ∀ c ∈ cs, telling (holds r s (c.pushed flip)) =
      (do return (← telling (holds r s c)) != flip)) :
    telling (joined r s (j.flipped flip) (cs.map (pushed flip))) =
      (do return (← telling (joined r s j cs)) != flip) := by
  induction cs with
  | nil =>
      rw [List.map_nil, joined_nil, joined_nil, telling_pure, telling_pure, pure_bind,
        Junction.neutral_flipped]
  | cons c cs ih =>
      obtain ⟨hc, hcs⟩ := List.forall_mem_cons.1 hcs
      rw [List.map_cons, telling_joined_cons, telling_joined_cons, hc, ih hcs, bind_assoc,
        bind_assoc, Junction.neutral_flipped]
      refine bind_congr fun b => ?_
      rw [pure_bind]
      by_cases hb : b = j.neutral
      · rw [hb, if_pos rfl, if_pos rfl]
      · have hflip : (b != flip) ≠ (j.neutral != flip) := fun heq => hb (Bool.bne_left_inj.1 heq)
        rw [if_neg hb, if_neg hflip, pure_bind, Bool.not_bne]

/-- A condition whose mark is pushed down comes out as before, or the other way round. -/
theorem telling_holds_pushed (c : Condition) (flip : Bool) :
    telling (holds r s (c.pushed flip)) = (do return (← telling (holds r s c)) != flip) := by
  induction c using induct generalizing flip with
  | command name args negated => exact telling_holds_command name args negated flip
  | combinator junction operands negated ih =>
      have hoperands := telling_joined_pushed (r := r) (s := s) (j := junction)
        fun c hc => ih c hc (negated != flip)
      rw [pushed, pusheds_eq_map, telling_holds_combinator, telling_holds_combinator, hoperands,
        bind_assoc, bind_assoc]
      refine bind_congr fun b => ?_
      rw [pure_bind, pure_bind, Bool.bne_false, Bool.bne_assoc]

/-! ### Splicing operands -/

theorem joined_singleton (c : Condition) : joined r s j [c] = holds r s c := by
  rw [joined_cons, joined_nil]
  refine (bind_congr fun b => ?_).trans (bind_pure (holds r s c))
  by_cases hb : b = j.neutral
  · rw [if_pos hb, hb]
  · rw [if_neg hb, ← Bool.eq_not_of_ne hb]

/-- An operand and what stands for it are evaluated alike. -/
theorem joined_operandsIn (c : Condition) : joined r s j (operandsIn j c) = holds r s c := by
  unfold operandsIn
  split
  · rename_i own operands
    split
    · rename_i hsame
      rw [hsame, holds_combinator]
      simp only [Bool.bne_false, bind_pure]
    · exact joined_singleton _
  · exact joined_singleton _

/-- Operands of operands with the same combinator may be taken as operands. -/
theorem joined_flatMap_operandsIn (cs : List Condition) :
    joined r s j (cs.flatMap (operandsIn j)) = joined r s j cs := by
  induction cs with
  | nil => rfl
  | cons c cs ih => rw [List.flatMap_cons, joined_append, joined_operandsIn, ih, joined_cons]

theorem joined_map {f : Condition → Condition} {cs : List Condition}
    (hcs : ∀ c ∈ cs, holds r s (f c) = holds r s c) :
    joined r s j (cs.map f) = joined r s j cs := by
  induction cs with
  | nil => rfl
  | cons c cs ih =>
      obtain ⟨hc, hcs⟩ := List.forall_mem_cons.1 hcs
      rw [List.map_cons, joined_cons, joined_cons, hc, ih hcs]

/-- Splicing operands in does not change what comes of a condition. -/
theorem holds_spliced (c : Condition) : holds r s c.spliced = holds r s c := by
  induction c using induct with
  | command name args negated => rfl
  | combinator junction operands negated ih =>
      cases negated with
      | true => rw [spliced, spliceds_eq_map, holds_combinator, holds_combinator, joined_map ih]
      | false =>
          rw [spliced, spliceds_eq_map, holds_combinator, holds_combinator,
            joined_flatMap_operandsIn, joined_map ih]

/-! ### The normal form evaluated -/

/-- The normal form of a condition comes out as the condition does. -/
theorem telling_holds_normal (c : Condition) :
    telling (holds r s c.normal) = telling (holds r s c) := by
  rw [normal, holds_spliced, telling_holds_pushed]
  simp only [Bool.bne_false, bind_pure]

/-- What an evaluation tells, and the host it leaves up to the log, follow from what its condition
tells. -/
theorem evaluate_congr {c d : Condition} (h : telling (holds r s d) = telling (holds r s c))
    (k : Host) :
    (evaluate r s (.condition d) k).1.mapError EvaluationError.told =
        (evaluate r s (.condition c) k).1.mapError EvaluationError.told ∧
      (evaluate r s (.condition d) k).2.unlogged =
        (evaluate r s (.condition c) k).2.unlogged := by
  have hrun := congrFun h k
  rw [telling_run, telling_run] at hrun
  rw [evaluate_of_parse (parse_condition d), evaluate_of_parse (parse_condition c), Host.run_bind,
    Host.run_bind]
  generalize holds r s d k = p at hrun
  generalize holds r s c k = q at hrun
  obtain ⟨x, k₁⟩ := p
  obtain ⟨y, k₂⟩ := q
  obtain ⟨htold, rfl⟩ := Prod.mk.inj hrun
  cases x with
  | error e =>
      cases y with
      | error e' => exact ⟨htold, rfl⟩
      | ok b => cases htold
  | ok a =>
      cases y with
      | error e => cases htold
      | ok b =>
          cases htold
          exact ⟨rfl, rfl⟩

/-- A condition and its normal form have the same truth value or fail with the same kind of error
and the same text, and they do the same to the host: the same predicates are called with the same
arguments, the same input is read and the same text is written.  Only the record of the evaluation
shows which of them it was. -/
theorem evaluate_normal (r : Registry) (s : Setting) (c : Condition) (h : Host) :
    let before := evaluate r s (.condition c) h
    let after := evaluate r s (.condition c.normal) h
    c.normal.IsNormal ∧
      after.1.mapError EvaluationError.told = before.1.mapError EvaluationError.told ∧
      after.2.unlogged = before.2.unlogged ∧ after.2.calls = before.2.calls ∧
      after.2.input = before.2.input ∧ after.2.written = before.2.written := by
  intro before after
  obtain ⟨htold, hhost⟩ := evaluate_congr (telling_holds_normal (r := r) (s := s) c) h
  have hcalls := congrArg Host.calls hhost
  have hinput := congrArg Host.input hhost
  have hwritten := congrArg Host.written hhost
  exact ⟨isNormal_spliced_pushed c false, htold, hhost, hcalls, hinput, hwritten⟩

end

end Condition

end HostPrereqs
