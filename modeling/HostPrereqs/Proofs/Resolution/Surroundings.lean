import HostPrereqs.Proofs.Resolution.Session

/-!
# Resolution — surroundings stay

A registry is steady if none of its predicates changes the surroundings of the host
(`Registry.Steady`); the built-in one is (`Builtin.steady_registry`).  With a steady registry
evaluating a condition keeps the surroundings (`Condition.keeps_evaluate`), and so does going
through entries (`Resolver.keeps_apply`), so that each command is come to in the surroundings at the
start (`Stays`).
-/

namespace HostPrereqs

open Host (Keeps surroundings)

/-- No predicate changes the surroundings. -/
def Registry.Steady (r : Registry) : Prop := ∀ p ∈ r.predicates, p.Steady

/-- No built-in predicate changes the surroundings. -/
theorem Builtin.steady_registry : registry.Steady := fun _ hp => steady hp

/-- The commands are come to in the surroundings of a host. -/
def Stays (h : Host) (vs : List Visit) : Prop := ∀ v ∈ vs, v.host.surroundings = h.surroundings

namespace Stays

variable {h h₁ : Host} {vs ws : List Visit}

theorem nil : Stays h [] := fun _ hv => absurd hv List.not_mem_nil

/-- Surroundings that are the same may stand for each other. -/
theorem of_surroundings (hsame : h₁.surroundings = h.surroundings) (hvs : Stays h₁ vs) :
    Stays h vs :=
  fun v hv => (hvs v hv).trans hsame

theorem append (hvs : Stays h vs) (hws : Stays h ws) : Stays h (vs ++ ws) :=
  List.forall_mem_append.2 ⟨hvs, hws⟩

end Stays

namespace Condition

variable {r : Registry} {j : Junction} {cs : List Condition}

/-- Calling a predicate keeps the surroundings, whether there is one to be called or not. -/
theorem keeps_call (hr : r.Steady) (s : Setting) (name : String) (args : List String)
    (negated : Bool) : Keeps surroundings (call r s name args negated) := by
  intro h
  cases hget : r.get? name with
  | none => rw [call_of_missing hget]
  | some p =>
      cases htakes : p.takes args.length with
      | false => rw [call_of_wrongCount hget htakes]
      | true =>
          rw [call_of_takes hget htakes]
          exact hr p (Registry.of_get?_eq_some hget).1 s args
            { h with calls := h.calls ++ [⟨name, args⟩], log := [] }

/-- So does testing operands in turn, if testing each of them does. -/
theorem keeps_joined {s : Setting} (hcs : ∀ c ∈ cs, Keeps surroundings (holds r s c)) :
    Keeps surroundings (joined r s j cs) := by
  induction cs with
  | nil =>
      rw [joined_nil]
      exact .pure _
  | cons c cs ih =>
      obtain ⟨hc, hcs⟩ := List.forall_mem_cons.1 hcs
      rw [joined_cons]
      refine .bind hc fun b => ?_
      split
      · exact ih hcs
      · exact .pure _

/-- Testing a condition keeps the surroundings, by induction on the condition. -/
theorem keeps_holds (hr : r.Steady) (s : Setting) (c : Condition) :
    Keeps surroundings (holds r s c) := by
  induction c using induct with
  | command name args negated =>
      rw [holds]
      exact .bind (keeps_call hr s name args negated) fun _ => .pure _
  | combinator junction operands negated ih =>
      rw [holds_combinator]
      exact .bind (keeps_joined ih) fun _ => .pure _

/-- Evaluating a condition keeps the surroundings. -/
theorem keeps_evaluate (hr : r.Steady) (s : Setting) (v : Value) :
    Keeps surroundings (evaluate r s v) := by
  unfold evaluate
  cases parse v with
  | error e => exact .throw _
  | ok c =>
      exact .bind (keeps_holds hr s c) fun _ =>
        .bind (.lift (Host.keeps_report _).surroundings) fun _ => .pure _

/-- The commands of operands are come to in the surroundings at the start, since testing the
operands before them keeps these. -/
theorem stays_visitsIn (hr : r.Steady) {s : Setting} (hcs : ∀ c ∈ cs, ∀ h, Stays h (visits r s c h))
    (h : Host) : Stays h (visitsIn r s j cs h) := by
  induction cs generalizing h with
  | nil =>
      rw [visitsIn]
      exact .nil
  | cons c cs ih =>
      obtain ⟨hc, hcs⟩ := List.forall_mem_cons.1 hcs
      have hfirst := keeps_holds hr s c h
      rw [visitsIn]
      refine (hc h).append ?_
      generalize holds r s c h = p at hfirst
      obtain ⟨x, h₁⟩ := p
      cases x with
      | error e => exact .nil
      | ok b =>
          dsimp only
          split
          · exact (ih hcs h₁).of_surroundings hfirst
          · exact .nil

/-- The commands of a condition are come to in the surroundings at the start. -/
theorem stays_visits (hr : r.Steady) (s : Setting) (c : Condition) (h : Host) :
    Stays h (visits r s c h) := by
  induction c using induct generalizing h with
  | command name args negated =>
      rw [visits]
      exact List.forall_mem_singleton.2 rfl
  | combinator junction operands negated ih =>
      rw [visits]
      exact stays_visitsIn hr ih h

theorem stays_evaluationVisits (hr : r.Steady) (s : Setting) (v : Value) (h : Host) :
    Stays h (evaluationVisits r s v h) := by
  unfold evaluationVisits
  cases parse v with
  | error e => exact .nil
  | ok c => exact stays_visits hr s c h

end Condition

namespace Resolver

variable {r : Resolver}

/-- Applying an entry keeps the surroundings: besides its condition, it only records. -/
theorem keeps_apply (hr : r.registry.Steady) (index : Nat) (e : Entry) :
    Keeps surroundings (r.apply index e) := by
  have hreport : ∀ record, Keeps surroundings
      (liftM (Host.report record) : Resolution Unit) := fun record =>
    .lift (Host.keeps_report record).surroundings
  unfold apply
  refine .bind (.adapt (Condition.keeps_evaluate hr r.setting _) _) fun b => ?_
  cases b with
  | false => exact .bind (hreport _) fun _ => .pure _
  | true =>
      cases e.fatal? with
      | some message => exact .bind (hreport _) fun _ => .throw _
      | none =>
          exact .bind (.ofExcept _) fun _ =>
            .bind (Host.keeps_forM_report _).surroundings fun _ =>
              .bind (hreport _) fun _ => .pure _

/-- The commands of entries are come to in the surroundings at the start. -/
theorem stays_entryVisits (hr : r.registry.Steady) (index : Nat) (es : List Entry) (h : Host) :
    Stays h (r.entryVisits index es h) := by
  induction es generalizing index h with
  | nil =>
      rw [entryVisits]
      exact .nil
  | cons e es ih =>
      have hfirst := keeps_apply hr index e h
      rw [entryVisits]
      refine (Condition.stays_evaluationVisits hr r.setting _ h).append ?_
      generalize r.apply index e h = p at hfirst
      obtain ⟨x, h₁⟩ := p
      cases x with
      | error cause => exact .nil
      | ok fragment => exact (ih (index + 1) h₁).of_surroundings hfirst

/-- The commands of a resolution are come to in the surroundings that it starts in. -/
theorem stays_resolutionVisits (hr : r.registry.Steady) (expressions : Expressions) (seed : Value)
    (h : Host) : Stays h (r.resolutionVisits expressions seed h) := by
  unfold resolutionVisits
  split
  · split
    · exact stays_entryVisits hr 0 _ h
    · exact .nil
  · exact .nil

end Resolver

end HostPrereqs
