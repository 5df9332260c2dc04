import HostPrereqs.Proofs.Condition.Reach
import HostPrereqs.Proofs.Predicate.Quiet

/-!
# Condition — conversations

An evaluation comes to commands in turn (`visits`), and these are the commands that it reaches
(`mem_visits_iff`).  `Conversation r s h vs xss h'` says that between two states of a host the
commands `vs` were come to, that the exchanges of `xss` belong to them in this order and settle
those that are questions, and that nothing was read or written besides, but what the compilers of
`can_xs` have taken of the unread input.  With a registry in which only `y_n` reads and writes
(`Registry.Discreet`), evaluating a condition is a conversation (`converses_evaluate`).

* `Conversation.written`: the exchanges of a conversation are all that was written.
* `Conversation.dialogue`: they are all that was read, too, where compilers leave the input alone.
* `Converses.trans`, `Converses.bind`: conversations go on, and quiet actions do not matter to them.
-/

namespace HostPrereqs

open Host (Asked Dialogue DialogueAbout Leaves Quiet)

/-- A command that an evaluation comes to, and the host as it is then. -/
structure Visit where
  call : Call
  host : Host

/-! ### Visits -/

namespace Condition

section

variable (r : Registry) (s : Setting)

mutual

/-- The commands that evaluating a condition comes to, in order. -/
def visits : Condition → Host → List Visit
  | command name args _, h => [⟨⟨name, args⟩, h⟩]
  | combinator junction operands _, h => visitsIn junction operands h

/-- The commands that evaluating operands comes to, up to the operand that decides or fails. -/
def visitsIn (junction : Junction) : List Condition → Host → List Visit
  | [], _ => []
  | c :: cs, h =>
      visits c h ++ match holds r s c h with
        | (.ok b, h₁) => if b = junction.neutral then visitsIn junction cs h₁ else []
        | (.error _, _) => []

end

/-- The commands that an evaluation comes to. -/
def evaluationVisits (v : Value) (h : Host) : List Visit :=
  match parse v with
  | .ok c => visits r s c h
  | .error _ => []

end

variable {r : Registry} {s : Setting} {j : Junction} {c : Condition} {cs : List Condition}
  {h h' : Host} {call : Call}

theorem mem_visitsIn_iff
    (hcs : ∀ c ∈ cs, ∀ h, ⟨call, h'⟩ ∈ visits r s c h ↔ Reaches r s c h call h') :
    ⟨call, h'⟩ ∈ visitsIn r s j cs h ↔ ReachesIn r s j cs h call h' := by
  induction cs generalizing h with
  | nil =>
      rw [visitsIn]
      exact ⟨fun hmem => absurd hmem List.not_mem_nil, fun hreach => by cases hreach⟩
  | cons c cs ih =>
      obtain ⟨hc, hcs⟩ := List.forall_mem_cons.1 hcs
      rw [visitsIn, List.mem_append, hc]
      constructor
      · rintro (hmem | hmem)
        · exact .here hmem
        · split at hmem
          · rename_i b h₁ hrun
            split at hmem
            · rename_i hb
              exact .later (hb ▸ hrun) ((ih hcs).1 hmem)
            · exact absurd hmem List.not_mem_nil
          · exact absurd hmem List.not_mem_nil
      · intro hreach
        cases hreach with
        | here inner => exact .inl inner
        | later undecided rest =>
            refine .inr ?_
            rw [undecided]
            simpa using (ih hcs).2 rest

/-- The visits of an evaluation are the commands that it reaches. -/
theorem mem_visits_iff : ⟨call, h'⟩ ∈ visits r s c h ↔ Reaches r s c h call h' := by
  induction c using induct generalizing h with
  | command name args negated =>
      rw [visits, List.mem_singleton]
      constructor
      · intro heq
        cases heq
        exact .command
      · intro hreach
        cases hreach
        rfl
  | combinator junction operands negated ih =>
      rw [visits, mem_visitsIn_iff ih]
      exact ⟨.combinator, fun hreach => by cases hreach; assumption⟩

end Condition

/-! ### Conversations -/

/-- What the predicate of a command comes out as where the command is come to. -/
def Visit.result (r : Registry) (s : Setting) (v : Visit) : Except EvaluationError Bool :=
  (Condition.call r s v.call.predicate v.call.args false v.host).1

/-- Whether no compiler that is started for a command would take any of the unread input. -/
def Visit.LeavesInput (v : Visit) : Prop :=
  v.call.predicate = "can_xs" →
    ∀ argv, v.host.machine.compilerLeaves argv v.host.input = v.host.input

theorem Visit.LeavesInput.exposed_eq {v : Visit} {k : Host} (hv : v.LeavesInput)
    (hk : Leaves v.call v.host k) : k.exposed = v.host.exposed := by
  cases hk with
  | undisturbed same => exact same
  | compiled argv compiles left =>
      rw [left, hv compiles argv]
      rfl

/-- Between two states of a host these commands were come to, these exchanges belong to them in
turn, and nothing else was read or written, unless by a compiler. -/
inductive Conversation (r : Registry) (s : Setting) :
    Host → List Visit → List (List Exchange) → Host → Prop where
  | done {h h' : Host} (quiet : h'.exposed = h.exposed) : Conversation r s h [] [] h'
  | visit {h k h₁ h' : Host} {v : Visit} {vs : List Visit} {xs : List Exchange}
      {xss : List (List Exchange)} (quiet : v.host.exposed = h.exposed)
      (leaves : Leaves v.call v.host k) (exchanges : Dialogue k xs h₁)
      (asked : Asked (r.IsQuestion v.call) v.call v.host (v.result r s) xs)
      (rest : Conversation r s h₁ vs xss h') : Conversation r s h (v :: vs) (xs :: xss) h'

section

variable {r : Registry} {s : Setting}

namespace Conversation

variable {h h₁ h' : Host} {vs ws : List Visit} {xss yss : List (List Exchange)}

theorem of_exposed (hsame : h₁.exposed = h.exposed) (hrest : Conversation r s h₁ vs xss h') :
    Conversation r s h vs xss h' := by
  cases hrest with
  | done quiet => exact .done (quiet.trans hsame)
  | visit quiet leaves exchanges asked rest =>
      exact .visit (quiet.trans hsame) leaves exchanges asked rest

theorem trans (hfirst : Conversation r s h vs xss h₁) (hrest : Conversation r s h₁ ws yss h') :
    Conversation r s h (vs ++ ws) (xss ++ yss) h' := by
  induction hfirst with
  | done quiet => exact hrest.of_exposed quiet
  | visit quiet leaves exchanges asked _ ih =>
      exact .visit quiet leaves exchanges asked (ih hrest)

/-- All that is written are the exchanges in turn. -/
theorem written (hall : Conversation r s h vs xss h') :
    h'.written = h.written ++ h.transcript xss.flatten ∧ h'.streams = h.streams := by
  induction hall with
  | done quiet =>
      have hnone := Dialogue.of_exposed quiet
      exact ⟨hnone.written, hnone.streams⟩
  | visit quiet leaves exchanges _ _ ih =>
      obtain ⟨hwritten, hstreams⟩ := leaves.output
      have hquiet := Dialogue.of_exposed quiet
      have hsame := (exchanges.streams.trans hstreams).trans hquiet.streams
      refine ⟨?_, ih.2.trans hsame⟩
      rw [ih.1, exchanges.written, hwritten, hquiet.written_eq, Host.transcript_congr hsame,
        Host.transcript_congr (hstreams.trans hquiet.streams), List.flatten_cons,
        Host.transcript_append, String.append_assoc]

/-- All that is read and written are the exchanges in turn, where compilers leave the input
alone. -/
theorem dialogue (hall : Conversation r s h vs xss h') (hleaves : ∀ v ∈ vs, v.LeavesInput) :
    Dialogue h xss.flatten h' := by
  induction hall with
  | done quiet => exact .of_exposed quiet
  | visit quiet leaves exchanges _ _ ih =>
      obtain ⟨hv, hvs⟩ := List.forall_mem_cons.1 hleaves
      have hfirst := Dialogue.of_exposed ((hv.exposed_eq leaves).trans quiet)
      exact (hfirst.trans exchanges).trans (ih hvs)

/-- Every exchange belongs to a visit. -/
theorem exists_visit (hall : Conversation r s h vs xss h') {x : Exchange} (hx : x ∈ xss.flatten) :
    ∃ v ∈ vs, x.BelongsTo v.call v.host := by
  induction hall with
  | done => exact absurd hx List.not_mem_nil
  | visit _ _ _ asked _ ih =>
      rw [List.flatten_cons, List.mem_append] at hx
      rcases hx with hx | hx
      · exact ⟨_, List.mem_cons_self, asked.belong x hx⟩
      · obtain ⟨v, hv, hbelongs⟩ := ih hx
        exact ⟨v, List.mem_cons_of_mem _ hv, hbelongs⟩

/-- Without questions there are no exchanges. -/
theorem eq_nil_of_ne (hall : Conversation r s h vs xss h')
    (hne : ∀ v ∈ vs, v.call.predicate ≠ "y_n") : xss.flatten = [] := by
  refine List.eq_nil_iff_forall_not_mem.2 fun x hx => ?_
  obtain ⟨v, hv, hbelongs⟩ := hall.exists_visit hx
  exact hne v hv (by rw [hbelongs.call])

/-- While all questions take their defaults no line is read. -/
theorem line_eq_nil_of_usesDefaults (hall : Conversation r s h vs xss h')
    (hdefaults : ∀ v ∈ vs, v.call.predicate = "y_n" → v.host.usesDefaults = true) :
    xss.flatten.filterMap (·.line) = [] := by
  refine List.filterMap_eq_nil_iff.2 fun x hx => ?_
  obtain ⟨v, hv, hbelongs⟩ := hall.exists_visit hx
  exact hbelongs.line (hdefaults v hv (by rw [hbelongs.call]))

end Conversation

/-- Coming to these commands is a conversation. -/
def Converses (r : Registry) (s : Setting) (h : Host) (vs : List Visit) (h' : Host) : Prop :=
  ∃ xss, Conversation r s h vs xss h'

namespace Converses

variable {ε α β : Type} {h h₁ h' : Host} {vs ws : List Visit}

theorem of_exposed (hsame : h'.exposed = h.exposed) : Converses r s h [] h' := ⟨[], .done hsame⟩

theorem single {name : String} {args : List String} (hcall : DialogueAbout
      (r.IsQuestion ⟨name, args⟩) ⟨name, args⟩ h (Condition.call r s name args false h)) :
    Converses r s h [⟨⟨name, args⟩, h⟩] (Condition.call r s name args false h).2 := by
  obtain ⟨k, xs, hleaves, hxs, hasked⟩ := hcall
  exact ⟨[xs], .visit rfl hleaves hxs hasked (.done rfl)⟩

theorem trans (hfirst : Converses r s h vs h₁) (hrest : Converses r s h₁ ws h') :
    Converses r s h (vs ++ ws) h' := by
  obtain ⟨xss, hxss⟩ := hfirst
  obtain ⟨yss, hyss⟩ := hrest
  exact ⟨xss ++ yss, hxss.trans hyss⟩

theorem preceded (hsame : h₁.exposed = h.exposed) (hrest : Converses r s h₁ vs h') :
    Converses r s h vs h' := by
  obtain ⟨xss, hxss⟩ := hrest
  exact ⟨xss, hxss.of_exposed hsame⟩

theorem quiet (hfirst : Converses r s h vs h₁) (hsame : h'.exposed = h₁.exposed) :
    Converses r s h vs h' := by
  rw [← List.append_nil vs]
  exact hfirst.trans (.of_exposed hsame)

/-- Quiet actions afterwards do not matter. -/
theorem bind {m : ExceptT ε OnHost α} {f : α → ExceptT ε OnHost β}
    (hm : Converses r s h vs (m h).2) (hf : ∀ a, Quiet (f a)) :
    Converses r s h vs ((m >>= f) h).2 := by
  rw [Host.run_bind]
  generalize m h = p at hm
  obtain ⟨x, h₁⟩ := p
  cases x with
  | error e => exact hm
  | ok a => exact hm.quiet (hf a h₁)

end Converses

end

/-! ### Evaluations -/

namespace Condition

variable {r : Registry} {s : Setting} {j : Junction} {c : Condition} {cs : List Condition}

/-- Calling the predicate of a command is a dialogue about what it asks. -/
theorem dialogue_call (hr : r.Discreet) (s : Setting) (name : String) (args : List String)
    (h : Host) : DialogueAbout (r.IsQuestion ⟨name, args⟩) ⟨name, args⟩ h
      (call r s name args false h) := by
  cases hget : r.get? name with
  | none =>
      rw [call_of_missing hget]
      refine .nothing ?_ (.undisturbed rfl)
      rintro ⟨p, hp, -⟩
      cases hget.symm.trans hp
  | some p =>
      rw [Registry.isQuestion_iff hget]
      obtain ⟨hp, rfl⟩ := Registry.of_get?_eq_some hget
      cases htakes : p.takes args.length with
      | false =>
          rw [call_of_wrongCount hget htakes]
          refine .nothing (fun hquestion => ?_) (.undisturbed rfl)
          cases htakes.symm.trans hquestion.takes
      | true =>
          rw [call_of_takes hget htakes]
          -- that the call is recorded and the log put aside is no part of the dialogue
          obtain ⟨k, xs, hleaves, hxs, hasked⟩ := hr.dialogue hp s args
            { h with calls := h.calls ++ [⟨p.name, args⟩], log := [] }
          refine ⟨k, xs, ?_, ⟨hxs.lines, hxs.written, hxs.streams⟩,
            fun x hx => ⟨(hasked.belong x hx).call, (hasked.belong x hx).line⟩,
            fun hquestion => ?_, hasked.silent⟩
          · cases hleaves with
            | undisturbed same => exact .undisturbed same
            | compiled argv compiles left => exact .compiled argv compiles left
          · refine (hasked.settled hquestion).imp ?_ ?_
            · exact fun ⟨b, hsettled, hresult⟩ =>
                ⟨b, hsettled, congrArg (Except.mapError EvaluationError.predicate) hresult⟩
            · exact fun ⟨hbroken, e, hresult⟩ =>
                ⟨hbroken, _, congrArg (Except.mapError EvaluationError.predicate) hresult⟩

/-- A negation changes only what is said of a command. -/
theorem snd_call (r : Registry) (s : Setting) (name : String) (args : List String)
    (negated : Bool) (h : Host) :
    (call r s name args negated h).2 = (call r s name args false h).2 := by
  cases hget : r.get? name with
  | none => rw [call_of_missing hget, call_of_missing hget]
  | some p =>
      cases htakes : p.takes args.length with
      | false => rw [call_of_wrongCount hget htakes, call_of_wrongCount hget htakes]
      | true => rw [call_of_takes hget htakes, call_of_takes hget htakes]

theorem converses_joined
    (hcs : ∀ c ∈ cs, ∀ h, Converses r s h (visits r s c h) (holds r s c h).2) (h : Host) :
    Converses r s h (visitsIn r s j cs h) (joined r s j cs h).2 := by
  induction cs generalizing h with
  | nil =>
      rw [visitsIn, joined_nil]
      exact .of_exposed rfl
  | cons c cs ih =>
      obtain ⟨hc, hcs⟩ := List.forall_mem_cons.1 hcs
      have hfirst := hc h
      rw [visitsIn, joined_cons, Host.run_bind]
      generalize holds r s c h = p at hfirst
      obtain ⟨x, h₁⟩ := p
      cases x with
      | error e => simpa using hfirst
      | ok b =>
          dsimp only
          by_cases hb : b = j.neutral
          · rw [if_pos hb, if_pos hb]
            exact hfirst.trans (ih hcs h₁)
          · rw [if_neg hb, if_neg hb, List.append_nil]
            exact hfirst.quiet rfl

theorem converses_holds (hr : r.Discreet) (c : Condition) (h : Host) :
    Converses r s h (visits r s c h) (holds r s c h).2 := by
  induction c using induct generalizing h with
  | command name args negated =>
      rw [visits, holds]
      refine .bind ?_ fun _ => .pure _
      rw [snd_call]
      exact .single (dialogue_call hr s name args h)
  | combinator junction operands negated ih =>
      rw [visits, holds_combinator]
      exact (converses_joined ih h).bind fun _ => .pure _

/-- Evaluating a condition is a conversation. -/
theorem converses_evaluate (hr : r.Discreet) (s : Setting) (v : Value) (h : Host) :
    Converses r s h (evaluationVisits r s v h) (evaluate r s v h).2 := by
  unfold evaluationVisits evaluate
  cases parse v with
  | error e => exact .of_exposed rfl
  | ok c =>
      exact (converses_holds hr c h).bind fun _ => .bind (.lift (.report _)) fun _ => .pure _

end Condition

end HostPrereqs
