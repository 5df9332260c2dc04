import HostPrereqs.Proofs.CommandLine.Tasks
import HostPrereqs.Proofs.Resolution.Refusal

/-!
# Command line — bodies of tasks

The body of a task finds out what the task tells (`Task.body?`).  A task does nothing else but tell
what came of its body (`perform_eq`), and all that a body reads and writes are the dialogues of the
commands that the task comes to (`converses_body`).

A body is stopped by a failure or by a crash, and the failure is the user's exactly if the task
refuses (`isRefusal_body`).
-/

namespace HostPrereqs

namespace CommandLine

open Host (FailsWith)

variable {files : Files} {h : Host} {settings : Settings} {choices : HostChoices} {task : Task}
  {body : Step Finding}

/-! ### Bodies -/

/-- What a task finds out, before it is told. -/
def Task.body? (settings : Settings) (files : Files) : Task → Option (Step Finding)
  | .check words choices => some (.answer <$> conditionHolds settings words choices)
  | .predicates _ => none
  | .resolve file isMetadata seed format choices =>
      some ((.requirements · (format.getD settings.outputFormat)) <$>
        resolved settings files file isMetadata seed choices)

/-- Recording a failure changes nothing but the log. -/
theorem run_recordingFailure {α : Type} (step : Step α) (h : Host) :
    ∃ log, recordingFailure step h = ((step h).1, { (step h).2 with log }) := by
  rw [recordingFailure, Host.run_tryCatch]
  obtain ⟨x, k⟩ := step h
  cases x with
  | ok a => exact ⟨k.log, rfl⟩
  | error stop =>
      cases stop with
      | failure cause =>
          dsimp only
          cases cause.record? with
          | none => exact ⟨k.log, rfl⟩
          | some r => exact ⟨k.log ++ [r], rfl⟩
      | usage | settings | crash => exact ⟨k.log, rfl⟩

/-- Whatever comes of a resolution and whatever was bound, nothing is bound afterwards. -/
theorem run_resolveBound (settings : Settings) (files : Files) (file : String) (isMetadata : Bool)
    (seed : Option String) (choices : HostChoices) (context : Context) (h : Host) :
    ∃ log, resolveBound settings files file isMetadata seed choices context h =
      (((resolved settings files file isMetadata seed choices h).1, []),
        { (resolved settings files file isMetadata seed choices h).2 with log }) := by
  obtain ⟨log, hrecorded⟩ :=
    run_recordingFailure (resolved settings files file isMetadata seed choices) h
  -- binding the file adds to the records alone
  have hbound : ∃ log', resolveBound settings files file isMetadata seed choices context h =
      (((recordingFailure (resolved settings files file isMetadata seed choices) h).1, []),
        { (recordingFailure (resolved settings files file isMetadata seed choices) h).2 with
          log := log' }) := ⟨_, rfl⟩
  rw [hrecorded] at hbound
  exact hbound

/-- A task that has a body does nothing else but tell what came of it. -/
theorem Task.perform_eq (hbody : task.body? settings files = some body) (h : Host) :
    ∃ log, task.perform settings files h =
      (MonadExcept.ofExcept (body h).1 >>= announce : Step ExitStatus)
        { (body h).2 with log } := by
  cases task with
  | check words choices =>
      obtain rfl := Option.some.inj hbody
      obtain ⟨log, hrecorded⟩ := run_recordingFailure (conditionHolds settings words choices) h
      refine ⟨log, ?_⟩
      change checkCondition settings words choices h = _
      rw [checkCondition, Host.run_bind, hrecorded, Host.run_map, Host.run_bind, Host.run_ofExcept]
      cases (conditionHolds settings words choices h).1 <;> rfl
  | predicates asJson => cases hbody
  | resolve file isMetadata seed format choices =>
      obtain rfl := Option.some.inj hbody
      obtain ⟨log, hbound⟩ :=
        run_resolveBound settings files file isMetadata seed choices [] h
      refine ⟨log, ?_⟩
      have hresult : (ExceptT.mk
          ((resolveBound settings files file isMetadata seed choices).run' []) :
          Step Requirements) h =
          ((resolved settings files file isMetadata seed choices h).1,
            { (resolved settings files file isMetadata seed choices h).2 with log }) := by
        change (fun p : (Except Stop Requirements × Context) × Host => (p.1.1, p.2))
          (resolveBound settings files file isMetadata seed choices [] h) = _
        rw [hbound]
      change resolveFile settings files file isMetadata seed format choices h = _
      rw [resolveFile, Host.run_bind, hresult, Host.run_map, Host.run_bind, Host.run_ofExcept]
      cases (resolved settings files file isMetadata seed choices h).1 <;> rfl

/-! ### What stops a body -/

theorem fst_stopped_eq_error {ε α : Type} {report? : ε → Option Report} {crash : ε → Crash}
    {x : Except ε α} {stop : Stop} :
    (stopped report? crash x h).1 = .error stop ↔ ∃ cause, x = .error cause ∧
      ((∃ report, report? cause = some report ∧ stop = .failure report) ∨
        report? cause = none ∧ stop = .crash (crash cause)) := by
  cases x with
  | ok a => exact ⟨nofun, nofun⟩
  | error cause =>
      simp only [Except.error.injEq, exists_eq_left', stopped]
      cases report? cause with
      | some report =>
          constructor
          · intro heq
            cases heq
            exact .inl ⟨report, rfl, rfl⟩
          · rintro (⟨report', heq, rfl⟩ | ⟨hnone, -⟩)
            · cases heq
              rfl
            · cases hnone
      | none =>
          constructor
          · intro heq
            cases heq
            exact .inr ⟨rfl, rfl⟩
          · rintro (⟨report', heq, -⟩ | ⟨-, rfl⟩)
            · cases heq
            · rfl

/-- Stopping changes nothing on the host. -/
theorem snd_stopped {ε α : Type} (report? : ε → Option Report) (crash : ε → Crash)
    (x : Except ε α) (h : Host) : (stopped report? crash x h).2 = h := by
  cases x with
  | ok a => rfl
  | error cause =>
      unfold stopped
      dsimp only
      cases report? cause <;> rfl

/-- A failure that is not the user's, or a crash. -/
inductive Stop.Neutral : Stop → Prop where
  | failure {report : Report} (kind : report.kind ≠ .user) : Neutral (.failure report)
  | crash (cause : Crash) : Neutral (.crash cause)

/-- What is told as a failure, and crashes. -/
inductive Stop.Told : Stop → Prop where
  | failure (report : Report) : Told (.failure report)
  | crash (cause : Crash) : Told (.crash cause)

theorem Stop.Neutral.told {stop : Stop} (hstop : stop.Neutral) : stop.Told := by
  cases hstop with
  | failure => exact .failure _
  | crash cause => exact .crash cause

theorem failsWith_stopped {ε α : Type} {report? : ε → Option Report} {crash : ε → Crash}
    (hreport : ∀ cause report, report? cause = some report → report.kind ≠ .user)
    (x : Except ε α) : FailsWith Stop.Neutral (stopped report? crash x) := by
  intro h stop hstop
  obtain ⟨cause, -, ⟨report, htold, rfl⟩ | ⟨-, rfl⟩⟩ := fst_stopped_eq_error.1 hstop
  · exact .failure (hreport cause report htold)
  · exact .crash _

theorem told_stopped {ε α : Type} (report? : ε → Option Report) (crash : ε → Crash)
    (x : Except ε α) : FailsWith Stop.Told (stopped report? crash x) := by
  intro h stop hstop
  obtain ⟨cause, -, ⟨report, -, rfl⟩ | ⟨-, rfl⟩⟩ := fst_stopped_eq_error.1 hstop
  · exact .failure report
  · exact .crash _

theorem failsWith_conditionHolds (words : List String) :
    FailsWith Stop.Neutral (conditionHolds settings words choices) :=
  .bind (.lift _) fun _ => .bind (.lift _) fun _ =>
    failsWith_stopped (fun cause _ => cause.kind_of_report?) _

/-- Loading a file and merging a seed into it fails neutrally. -/
theorem failsWith_prepare (files : Files) (file : String) (isMetadata : Bool)
    (seed : Option String) :
    FailsWith Stop.Neutral (prepare files file isMetadata seed) := by
  have hloading : ∀ (cause : LoadError) (report : Report), cause.report? = some report →
      report.kind ≠ .user := fun cause _ => cause.kind_of_report?
  have hmerging : ∀ (cause : RangeError) (report : Report), cause.report? = some report →
      report.kind ≠ .user := fun cause _ => cause.kind_of_report?
  have hfile : FailsWith Stop.Neutral (loadFile files file isMetadata) := by
    cases isMetadata <;> exact .bind (.lift _) fun _ => failsWith_stopped hloading _
  refine .bind hfile fun loaded => ?_
  dsimp only
  split
  · exact .pure _
  · exact .bind (failsWith_stopped hloading _) fun _ =>
      .bind (failsWith_stopped hmerging _) fun _ => .pure _

/-- On the host, finding out whether a condition holds is evaluating it. -/
theorem snd_conditionHolds (settings : Settings) (words : List String) (choices : HostChoices)
    (h : Host) : (conditionHolds settings words choices h).2 =
      ((resolverOf settings choices .empty).evaluate (conditionOf words)
        (takeDefaults settings choices h).2).2 :=
  snd_stopped _ _ _ _

/-- What is resolved over a seed is resolved on the host, and the rest is recording. -/
theorem run_resolveOver (settings : Settings) (choices : HostChoices) (start : Requirements)
    (document : Document) (h : Host) :
    ∃ log, resolveOver settings choices start document h =
      let p := (resolverOf settings choices start).resolve (.document document) .null
        (takeDefaults settings choices h).2
      ((stopped ResolutionError.report? .resolution p.1 p.2).1, { p.2 with log }) := by
  have hrun : resolveOver settings choices start document h =
      (fun p : Except ResolutionError Requirements × Host => (do
        let result ← stopped ResolutionError.report? .resolution p.1
        Host.report ⟨.info, resolveLogger, "document_resolved",
          [("phases", .strs result.phases.names)]⟩
        return result : Step Requirements) p.2)
      ((resolverOf settings choices start).resolve (.document document) .null
        (takeDefaults settings choices h).2) := rfl
  rw [hrun]
  generalize (resolverOf settings choices start).resolve (.document document) .null
    (takeDefaults settings choices h).2 = p
  obtain ⟨x, h₁⟩ := p
  cases x with
  | ok result => exact ⟨_, rfl⟩
  | error cause =>
      refine ⟨h₁.log, ?_⟩
      dsimp only
      rw [Host.run_bind, stopped]
      cases cause.report? <;> rfl

/-! ### What a body reads and writes -/

/-- All that a body reads and writes are the dialogues of the commands that the task comes to. -/
theorem Task.converses_body (hchoices : task.choices? = some choices)
    (hbody : task.body? settings files = some body) (h : Host) :
    Converses Builtin.registry (settingOf settings choices) h (task.visits settings files h)
      (body h).2 := by
  have hdiscreet : Builtin.registry.Discreet := fun _ hp => .inl hp
  cases task with
  | check words choices =>
      obtain rfl := Option.some.inj hchoices
      obtain rfl := Option.some.inj hbody
      have hevaluated := Condition.converses_evaluate hdiscreet (settingOf settings choices)
        (conditionOf words) (takeDefaults settings choices h).2
      have hquiet : (takeDefaults settings choices h).2.exposed = h.exposed := rfl
      rw [Host.run_map, snd_conditionHolds]
      exact hevaluated.preceded hquiet
  | predicates asJson => cases hbody
  | resolve file isMetadata seed format choices =>
      obtain rfl := Option.some.inj hchoices
      obtain rfl := Option.some.inj hbody
      have hprepare : (prepare files file isMetadata seed h).2.exposed = h.exposed :=
        (keeps_prepare files file isMetadata seed).exposed h
      rw [Host.run_map, resolved, Host.run_bind, visits]
      -- loading the document and the seed is quiet, whether or not it succeeds
      generalize prepare files file isMetadata seed h = p at hprepare
      obtain ⟨x, h₁⟩ := p
      cases x with
      | error stop => exact .of_exposed hprepare
      | ok loaded =>
          obtain ⟨start, document⟩ := loaded
          have hresolved := Resolver.converses_resolve
            (r := resolverOf settings choices start) hdiscreet (.document document) .null
            (takeDefaults settings choices h₁).2
          have hquiet : (takeDefaults settings choices h₁).2.exposed = h.exposed := hprepare
          obtain ⟨log, hover⟩ := run_resolveOver settings choices start document h₁
          dsimp only
          rw [hover]
          exact (hresolved.preceded hquiet).quiet rfl

/-! ### Refusals -/

/-- A task refuses with a message if what it resolves can be loaded, and is refused with it. -/
def Task.Refuses (settings : Settings) (files : Files) (message : String) : Task → Host → Prop
  | .check _ _, _ | .predicates _, _ => False
  | .resolve file isMetadata seed _ choices, h => ∃ start document h₁,
      prepare files file isMetadata seed h = (.ok (start, document), h₁) ∧
      Entry.ofValues (document.expressions.map .entry) = .ok document.expressions ∧
      (resolverOf settings choices start).Refuses message document.expressions
        (takeDefaults settings choices h₁).2

/-- A body is stopped by nothing but failures and crashes. -/
theorem Task.failsWith_body (hbody : task.body? settings files = some body) :
    FailsWith Stop.Told body := by
  have hneutral : ∀ stop : Stop, stop.Neutral → stop.Told := fun _ => Stop.Neutral.told
  cases task with
  | check words choices =>
      obtain rfl := Option.some.inj hbody
      exact .map _ ((failsWith_conditionHolds words).weaken hneutral)
  | predicates asJson => cases hbody
  | resolve file isMetadata seed format choices =>
      obtain rfl := Option.some.inj hbody
      exact .map _ (.bind ((failsWith_prepare files file isMetadata seed).weaken hneutral) fun _ =>
        .bind (.lift _) fun _ => .bind (.lift _) fun _ => .bind (told_stopped _ _ _) fun _ =>
          .bind (.lift _) fun _ => .pure _)

end CommandLine

end HostPrereqs
