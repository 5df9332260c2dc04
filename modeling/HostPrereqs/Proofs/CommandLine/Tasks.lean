import HostPrereqs.CommandLine.Run
import HostPrereqs.Proofs.Resolution.Surroundings
import HostPrereqs.Proofs.Settings.Precedence

/-!
# Command line — runs that come to a task

A run comes to a task if its arguments can be read, the settings can be loaded, and no notice is
asked for instead (`Begins`).  What remains of the run is the task (`run_eq`).

A task that evaluates conditions comes to commands (`Task.visits`), each in the surroundings that
the run begins in, apart from the wish that questions take their defaults (`surroundings_visit`).
-/

namespace HostPrereqs.CommandLine

open Host (Keeps)

variable {files : Files} {locations : Settings.Locations} {args : List String} {h h' : Host}
  {settings : Settings}

/-! ### Up to the task -/

/-- What a run has when it comes to the checks of what its command is given. -/
structure Asked where
  choices : ProgramChoices
  command : Command
  arguments : Arguments
  settings : Settings
  host : Host

/-- A run reads the arguments of a command, which ask for no notice, and loads the settings. -/
structure Asks (files : Files) (locations : Settings.Locations) (args : List String) (h : Host)
    (a : Asked) : Prop where
  arguments : ∃ rest, readStart args = .ok (.go a.choices (some (a.command, rest))) ∧
    Arguments.read (.command a.command) true rest = .ok a.arguments
  notice : a.arguments.notice? = none
  settings : loadSettings files locations a.choices.config (loadEnvironment files locations h).2 =
    (.ok a.settings, a.host)

/-- What a run has when it comes to its task. -/
structure Beginning where
  choices : ProgramChoices
  command : Command
  arguments : Arguments
  task : Task
  settings : Settings
  host : Host

/-- A run gets past the reading of its arguments and the loading of the settings. -/
structure Begins (files : Files) (locations : Settings.Locations) (args : List String) (h : Host)
    (b : Beginning) : Prop where
  arguments : ∃ rest, readStart args = .ok (.go b.choices (some (b.command, rest))) ∧
    Arguments.read (.command b.command) true rest = .ok b.arguments
  notice : b.arguments.notice? = none
  task : Task.ofArguments files b.command b.arguments = .ok b.task
  settings : loadSettings files locations b.choices.config (loadEnvironment files locations h).2 =
    (.ok b.settings, b.host)

/-- Loading the settings leaves no trace. -/
theorem loadSettings_eq_ok {config : Option String}
    (hload : loadSettings files locations config h = (.ok settings, h')) :
    h' = h ∧ ∃ h₁, Settings.load files locations config h = (.ok settings, h₁) := by
  unfold loadSettings at hload
  obtain ⟨host, h₀, hget, hrest⟩ := Host.run_bind_eq_ok.1 hload
  cases hget
  obtain ⟨loaded, h₁, hloaded, hrest⟩ := Host.run_bind_eq_ok.1 hrest
  obtain ⟨u, h₂, hmodify, hrest⟩ := Host.run_bind_eq_ok.1 hrest
  have hrun : Settings.load files locations config h = (loaded, h₁) := by
    cases hloaded
    rfl
  cases hmodify
  cases loaded with
  | error cause =>
      dsimp only at hrest
      cases hreport : cause.report? <;> rw [hreport] at hrest <;> cases hrest
  | ok s =>
      cases hrest
      obtain ⟨hsame, -⟩ := Settings.load_spec hrun
      exact ⟨congrArg (fun k : Host => { k with log := h.log }) hsame, h₁, hrun⟩

theorem loadSettings_of_load {config : Option String}
    (hload : Settings.load files locations config h = (.ok settings, h')) :
    loadSettings files locations config h = (.ok settings, h) := by
  obtain ⟨hsame, -⟩ := Settings.load_spec hload
  have hstate : ({ h' with log := h.log } : Host) = h :=
    congrArg (fun k : Host => { k with log := h.log }) hsame
  have hrun : (liftM (Settings.load files locations config).run : Step _) h =
      (.ok (.ok settings), h') := by
    change (Except.ok (Settings.load files locations config h).1,
      (Settings.load files locations config h).2) = _
    rw [hload]
  have hget : (get : Step Host) h = (.ok h, h) := rfl
  have hmodify : (modify fun k => { k with log := h.log } : Step Unit) h' = (.ok (), h) := by
    rw [← hstate]
    rfl
  rw [loadSettings, Host.run_bind_of_ok _ hget, Host.run_bind_of_ok _ hrun,
    Host.run_bind_of_ok _ hmodify]
  rfl

/-- How the records of a run are shown. -/
def Asked.display (a : Asked) : Log.Display :=
  ⟨Log.Display.formOf a.host.environment, (leastLevel a.settings a.choices).number⟩

/-- The work of a run that asks for a command: its task, if what it is given passes the checks. -/
def Asked.work (a : Asked) (files : Files) : Step ExitStatus :=
  match Task.ofArguments files a.command a.arguments with
  | .error fault => throw (.usage (.command a.command) fault)
  | .ok task => task.perform a.settings files

theorem Asks.run_eq {a : Asked} (ha : Asks files locations args h a) :
    run files locations args h =
      (.of a.display (a.work files a.host).1, (a.work files a.host).2) := by
  obtain ⟨⟨rest, hstart, hread⟩, hnotice, hsettings⟩ := ha
  have hhost := (loadSettings_eq_ok hsettings).1
  have hcommand : runCommand a.settings files a.command rest = a.work files := by
    unfold runCommand
    rw [hread]
    dsimp only
    rw [hnotice]
    rfl
  have hload : (loadSettings files locations a.choices.config).run
      (loadEnvironment files locations h).2 = (.ok a.settings, a.host) := hsettings
  have hget : (get : OnHost Host) (loadEnvironment files locations h).2 =
      ((loadEnvironment files locations h).2, (loadEnvironment files locations h).2) := rfl
  rw [run, Host.run_turn, Host.run_turn, hget, hstart]
  dsimp only
  rw [Host.run_turn, hload]
  dsimp only
  rw [Host.run_turn, hcommand, ← hhost]
  rfl

/-- What a run has asked for that comes to its task. -/
def Beginning.asked (b : Beginning) : Asked :=
  ⟨b.choices, b.command, b.arguments, b.settings, b.host⟩

theorem Begins.asks {b : Beginning} (hb : Begins files locations args h b) :
    Asks files locations args h b.asked := ⟨hb.arguments, hb.notice, hb.settings⟩

/-- What remains of a run that has come to its task is the task. -/
theorem Begins.run_eq {b : Beginning} (hb : Begins files locations args h b) :
    run files locations args h =
      (.of ⟨Log.Display.formOf b.host.environment, (leastLevel b.settings b.choices).number⟩
        (b.task.perform b.settings files b.host).1,
        (b.task.perform b.settings files b.host).2) := by
  have hwork : b.asked.work files = b.task.perform b.settings files := by
    rw [Asked.work, Beginning.asked, hb.task]
  rw [hb.asks.run_eq, hwork]
  rfl

/-! ### Loading files -/

theorem keeps_stopped {ε α : Type} (report? : ε → Option Report) (crash : ε → Crash)
    (x : Except ε α) : Keeps Host.outside (stopped report? crash x) := by
  cases x with
  | ok a => exact .pure a
  | error cause =>
      unfold stopped
      dsimp only
      cases report? cause <;> exact .throw _

theorem keeps_loadDocument (path : String) :
    Keeps Host.outside (Loading.loadDocument files path) :=
  .bind (.lift (Host.keeps_report _)) fun _ => .ofExcept _

theorem keeps_loadMetadata (path : String) :
    Keeps Host.outside (Loading.loadMetadata files path) := by
  refine .bind (.ofExcept _) fun v => ?_
  split
  · refine .bind (.ofExcept _) fun seed => ?_
    dsimp only
    split
    · exact .bind (.lift (Host.keeps_report _)) fun _ => .bind (.pure _) fun _ =>
        .bind (.ofExcept _) fun _ => .bind (.ofExcept _) fun _ => .pure _
    · exact .bind (.pure _) fun _ => .bind (.ofExcept _) fun _ => .bind (.ofExcept _) fun _ =>
        .pure _
  · exact .throw _

theorem keeps_loadFile (file : String) (isMetadata : Bool) :
    Keeps Host.outside (loadFile files file isMetadata) := by
  cases isMetadata with
  | true =>
      have hload : Keeps Host.outside (Loading.loadMetadata files file).run :=
        keeps_loadMetadata file
      exact .bind (.lift hload) fun _ => keeps_stopped _ _ _
  | false =>
      have hload : Keeps Host.outside ((fun d => (Requirements.empty, d)) <$>
          Loading.loadDocument files file : ExceptT LoadError OnHost _).run :=
        .bind (keeps_loadDocument file) fun _ => .pure _
      exact .bind (.lift hload) fun _ => keeps_stopped _ _ _

theorem loadFile_document (files : Files) (file : String) (h : Host) :
    loadFile files file false h =
      stopped LoadError.report? .loading
        ((Loading.loadDocument files file h).1.map fun d => (Requirements.empty, d))
        (Loading.loadDocument files file h).2 := by
  rw [loadFile, if_neg Bool.false_ne_true, Host.run_bind, Host.run_lift]
  dsimp only
  rw [ExceptT.run, Host.run_map]

/-- Loading what is to be resolved changes nothing but the log. -/
theorem keeps_prepare (files : Files) (file : String) (isMetadata : Bool) (seed : Option String) :
    Keeps Host.outside (prepare files file isMetadata seed) := by
  refine .bind (keeps_loadFile file isMetadata) fun loaded => ?_
  dsimp only
  split
  · exact .pure _
  · exact .bind (keeps_stopped _ _ _) fun _ => .bind (keeps_stopped _ _ _) fun _ => .pure _

/-! ### The commands that a task comes to -/

/-- The choices of a task that evaluates conditions. -/
def Task.choices? : Task → Option HostChoices
  | .check _ choices => some choices
  | .predicates _ => none
  | .resolve _ _ _ _ choices => some choices

/-- What the predicates of a task are run with. -/
def settingOf (settings : Settings) (choices : HostChoices) : Setting :=
  (resolverOf settings choices .empty).setting

/-- The commands that a task comes to.  There are none if what is to be resolved cannot be
loaded. -/
def Task.visits (settings : Settings) (files : Files) : Task → Host → List Visit
  | .check words choices, h =>
      (resolverOf settings choices .empty).evaluationVisits (conditionOf words)
        (takeDefaults settings choices h).2
  | .predicates _, _ => []
  | .resolve file isMetadata seed _ choices, h =>
      match prepare files file isMetadata seed h with
      | (.ok (start, document), h₁) =>
          (resolverOf settings choices start).resolutionVisits (.document document) .null
            (takeDefaults settings choices h₁).2
      | (.error _, _) => []

/-- Each command of a task is come to on the machine and in the environment that the task begins
in, and questions take their defaults where choices or settings say so. -/
theorem Task.surroundings_visit {task : Task} {choices : HostChoices}
    (hchoices : task.choices? = some choices) {v : Visit} (hv : v ∈ task.visits settings files h) :
    v.host.surroundings =
      (h.machine, h.environment, choices.useDefault || settings.useDefault) := by
  cases task with
  | check words choices =>
      obtain rfl := Option.some.inj hchoices
      exact Condition.stays_evaluationVisits Builtin.steady_registry _ _ _ v hv
  | predicates asJson => cases hchoices
  | resolve file isMetadata seed format choices =>
      obtain rfl := Option.some.inj hchoices
      have hprepare := (keeps_prepare files file isMetadata seed).surroundings h
      rw [visits] at hv
      generalize prepare files file isMetadata seed h = p at hprepare hv
      obtain ⟨x, h₁⟩ := p
      cases x with
      | error stop => exact absurd hv List.not_mem_nil
      | ok loaded =>
          have hsame := Resolver.stays_resolutionVisits Builtin.steady_registry _ _ _ v hv
          rw [hsame]
          simp only [Host.surroundings, Prod.mk.injEq] at hprepare
          obtain ⟨hmachine, henvironment, -⟩ := hprepare
          exact congrArg₂ (fun m e => (m, e, choices.useDefault || settings.useDefault)) hmachine
            henvironment

end HostPrereqs.CommandLine
