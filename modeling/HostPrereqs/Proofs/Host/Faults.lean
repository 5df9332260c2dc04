import HostPrereqs.Host.Questions
import HostPrereqs.Proofs.Host.Similar
import HostPrereqs.Proofs.Range.Loosening

/-!
# Host — where looking things up breaks

What is installed can be looked up in the end or not at all, and the places where this breaks are
known: at a distribution, where the distributions cannot be listed (`LookupBreaks`), or in the
system of imports, which is asked for what has no version (`SearchBreaks`).  A range of versions is
not asked about imports, but its versions may have numerals that are too long (`SearchBreaksIn`).  A
compiler breaks if it is started at all (`Starts`).

Modules that are missing, distributions without a version, and imports or compilers that merely fail
are answers like any other.

* `installedVersion_eq_error`, `isInstalled_eq_error`, `exists_isInstalledIn_eq_error`: looking for
  a module breaks exactly there.
* `canCompile_eq_error`: so does trying a compiler.
-/

namespace HostPrereqs.Host

variable {m : Machine} {module name : String} {names : List String} {wanted : Range}
  {config : BuildConfig} {cause : HostFault}

/-! ### Distributions -/

/-- What looking for a distribution ends with. -/
def distribution (m : Machine) (name : String) : DistributionSearch :=
  (m.distributions.lookup name).getD .missing

/-- The first of some distributions that is not missing breaks. -/
inductive FirstBreaks (m : Machine) : List String → Prop where
  | here {name : String} {names : List String} (breaks : distribution m name = .breaks) :
      FirstBreaks m (name :: names)
  | later {name : String} {names : List String} (missing : distribution m name = .missing)
      (more : FirstBreaks m names) : FirstBreaks m (name :: names)

/-- The version of a module cannot be looked up: this breaks at the distribution of its name, or at
those that provide its top-level package. -/
inductive LookupBreaks (m : Machine) (module : String) : Prop where
  | named (breaks : distribution m module = .breaks)
  | unlisted (missing : distribution m module = .missing) (unlisted : m.providers = none)
  | provided {providers : List (String × List String)}
      (missing : distribution m module = .missing) (listed : m.providers = some providers)
      (first : FirstBreaks m ((providers.lookup (topLevel module)).getD []))

theorem firstVersion_eq_error :
    firstVersion m names = .error cause ↔ cause = .lookup ∧ FirstBreaks m names := by
  induction names with
  | nil =>
      constructor
      · intro heq
        cases heq
      · rintro ⟨-, ⟨⟩⟩
  | cons name names ih =>
      rw [firstVersion, ← distribution]
      cases hname : distribution m name with
      | installed version =>
          constructor
          · intro heq
            cases heq
          · rintro ⟨-, breaks | missing⟩
            · cases hname.symm.trans breaks
            · cases hname.symm.trans missing
      | missing =>
          refine ih.trans (and_congr_right fun _ => ⟨.later hname, fun hbreaks => ?_⟩)
          cases hbreaks with
          | here breaks => cases hname.symm.trans breaks
          | later _ more => exact more
      | breaks => exact ⟨fun heq => ⟨(Except.error.inj heq).symm, .here hname⟩, fun h => h.1 ▸ rfl⟩

/-- Looking up the version of a module breaks in one way. -/
theorem installedVersion_eq_error :
    installedVersion m module = .error cause ↔ cause = .lookup ∧ LookupBreaks m module := by
  rw [installedVersion, ← distribution]
  cases hmodule : distribution m module with
  | installed version =>
      constructor
      · intro heq
        cases heq
      · rintro ⟨-, breaks | missing | missing⟩
        · cases hmodule.symm.trans breaks
        · cases hmodule.symm.trans missing
        · cases hmodule.symm.trans missing
  | breaks => exact ⟨fun heq => ⟨(Except.error.inj heq).symm, .named hmodule⟩, fun h => h.1 ▸ rfl⟩
  | missing =>
      cases hproviders : m.providers with
      | none =>
          exact ⟨fun heq => ⟨(Except.error.inj heq).symm, .unlisted hmodule hproviders⟩,
            fun h => h.1 ▸ rfl⟩
      | some providers =>
          refine firstVersion_eq_error.trans (and_congr_right fun _ =>
            ⟨.provided hmodule hproviders, fun hbreaks => ?_⟩)
          cases hbreaks with
          | named breaks => cases hmodule.symm.trans breaks
          | unlisted _ unlisted => cases hproviders.symm.trans unlisted
          | provided _ listed first =>
              obtain rfl := Option.some.inj (hproviders.symm.trans listed)
              exact first

/-! ### Modules -/

/-- What looking for a module in the system of imports ends with. -/
def imported (m : Machine) (module : String) : ModuleSearch :=
  (m.modules.lookup module).getD .missing

/-- Whether a module is installed: at some version, or to be found by the system of imports. -/
def isInstalled (m : Machine) (module : String) : Except HostFault Bool := do
  if (← installedVersion m module).isSome then return true
  match imported m module with
  | .found => return true
  | .missing | .fails _ => return false
  | .breaks => throw .lookup

/-- Whether a module is installed in a range.  The version does not matter to the range of all
versions. -/
def isInstalledIn (m : Machine) (module : String) (wanted : Range) : Except HostFault Bool :=
  if wanted.isAny then isInstalled m module
  else do
    match ← installedVersion m module with
    | none => return false
    | some version => (wanted.accepts version).mapError .hugeNumber

/-- It cannot be found out whether a module is installed: its version cannot be looked up, or it has
none and looking for it in the system of imports breaks. -/
inductive SearchBreaks (m : Machine) (module : String) : Prop where
  | lookup (breaks : LookupBreaks m module)
  | imports (unversioned : installedVersion m module = .ok none)
      (breaks : imported m module = .breaks)

/-- It cannot be found out whether a module is installed in a range. -/
inductive SearchBreaksIn (m : Machine) (module : String) (wanted : Range) : Prop where
  | all (unbounded : wanted.isAny = true) (breaks : SearchBreaks m module)
  | lookup (bounded : wanted.isAny = false) (breaks : LookupBreaks m module)
  | version {version : String} {cause : Numeral.Excess} (bounded : wanted.isAny = false)
      (installed : installedVersion m module = .ok (some version))
      (long : Version.read version = .error cause)

theorem fst_moduleExists (module : String) (h : Host) :
    (moduleExists module h).1 = isInstalled h.machine module := by
  have hget : (get : HostAction Host) h = (.ok h, h) := rfl
  rw [moduleExists, run_bind_of_ok _ hget, isInstalled, run_bind, run_ofExcept]
  cases installedVersion h.machine module with
  | error cause => rfl
  | ok version =>
      cases version with
      | some version => rfl
      | none =>
          rw [imported]
          dsimp only
          cases (h.machine.modules.lookup module).getD .missing <;> rfl

theorem isInstalled_eq_error :
    isInstalled m module = .error cause ↔ cause = .lookup ∧ SearchBreaks m module := by
  have hsearch : SearchBreaks m module ↔ LookupBreaks m module ∨
      installedVersion m module = .ok none ∧ imported m module = .breaks := by
    constructor
    · rintro (hbreaks | ⟨hnone, hbreaks⟩)
      · exact .inl hbreaks
      · exact .inr ⟨hnone, hbreaks⟩
    · rintro (hbreaks | ⟨hnone, hbreaks⟩)
      · exact .lookup hbreaks
      · exact .imports hnone hbreaks
  have hlookup : ∀ cause, installedVersion m module = .error cause ↔
      cause = .lookup ∧ LookupBreaks m module := fun _ => installedVersion_eq_error
  rw [hsearch, isInstalled]
  cases hversion : installedVersion m module with
  | error cause' =>
      obtain ⟨rfl, hbreaks⟩ := (hlookup cause').1 hversion
      exact ⟨fun heq => ⟨(Except.error.inj heq).symm, .inl hbreaks⟩, fun h => h.1 ▸ rfl⟩
  | ok version =>
      have hsound : ¬ LookupBreaks m module := fun hbreaks => by
        cases hversion.symm.trans ((hlookup .lookup).2 ⟨rfl, hbreaks⟩)
      cases version with
      | some version => simp [hsound, bind, Except.bind, pure, Except.pure]
      | none =>
          cases imported m module <;>
            simp [hsound, bind, Except.bind, pure, Except.pure, throw, throwThe,
              MonadExceptOf.throw, eq_comm]

/-- Looking for a module in a range breaks exactly where one of its steps does. -/
theorem exists_isInstalledIn_eq_error :
    (∃ cause, isInstalledIn m module wanted = .error cause) ↔ SearchBreaksIn m module wanted := by
  rw [isInstalledIn]
  cases hany : wanted.isAny with
  | true =>
      rw [if_pos rfl]
      simp only [isInstalled_eq_error, exists_eq_left]
      refine ⟨.all hany, fun hbreaks => ?_⟩
      cases hbreaks with
      | all _ breaks => exact breaks
      | lookup bounded | version bounded => cases hany.symm.trans bounded
  | false =>
      rw [if_neg (by simp)]
      cases hversion : installedVersion m module with
      | error cause =>
          have hbreaks := (installedVersion_eq_error.1 hversion).2
          exact ⟨fun _ => .lookup hany hbreaks, fun _ => ⟨cause, rfl⟩⟩
      | ok version =>
          have hsound : ¬ LookupBreaks m module := fun hbreaks => by
            cases hversion.symm.trans (installedVersion_eq_error.2 ⟨rfl, hbreaks⟩)
          -- what is left is a version with a numeral that is too long
          constructor
          · rintro ⟨cause, heq⟩
            cases version with
            | none => cases heq
            | some version =>
                obtain ⟨excess, haccepts, rfl⟩ := Result.mapError_eq_error.1 heq
                exact .version hany hversion (Range.accepts_eq_error.1 haccepts).2
          · intro hbreaks
            cases hbreaks with
            | all unbounded => cases hany.symm.trans unbounded
            | lookup _ breaks => exact absurd breaks hsound
            | version _ installed long =>
                obtain rfl := Except.ok.inj (hversion.symm.trans installed)
                have haccepts := Range.accepts_eq_error.2 ⟨hany, long⟩
                exact ⟨_, Result.mapError_eq_error.2 ⟨_, haccepts, rfl⟩⟩

/-! ### Compilers -/

/-- Trying a compiler starts it with these arguments. -/
inductive Starts (config : BuildConfig) (h : Host) : List String → Prop where
  | intro {command : String} {args : List String}
      (chosen : (chosenCompiler h config).truthy = true)
      (writable : (chosenCompiler h config).isWritable = true)
      (split : Words.split (chosenCompiler h config).text = .ok (command :: args))
      (found : (which? h.machine command).isSome = true) :
      Starts config h (command :: args ++ testArguments h.machine command)

/-- What a compiler says decides, if anything can be made of it. -/
theorem fst_compileTest (compiler : Value) (argv : List String) (h : Host) :
    (compileTest compiler argv h).1 =
      match h.machine.compilation argv with
      | .exits status _ => .ok (decide (status = 0))
      | .timesOut | .cannotStart _ => .ok false
      | .breaks => .error .compiler := by
  have hstart : (liftM (startCompiler argv) : HostAction Compilation) h =
      (.ok (h.machine.compilation argv), (startCompiler argv h).2) := by
    have hget : (get : OnHost Host) h = (h, h) := rfl
    rw [run_lift, startCompiler, run_turn, hget]
    dsimp only
    rw [run_turn]
    cases h.machine.compilation argv <;> rfl
  rw [compileTest, run_bind_of_ok _ hstart]
  cases h.machine.compilation argv with
  | exits status diagnosis =>
      dsimp only
      by_cases hstatus : status = 0
      · rw [if_neg (not_not_intro hstatus), decide_eq_true hstatus]
        rfl
      · rw [if_pos hstatus, decide_eq_false hstatus]
        rfl
  | timesOut | cannotStart reason | breaks => rfl

/-- Trying a compiler breaks exactly if it is started and breaks. -/
theorem canCompile_eq_error (config : BuildConfig) (h : Host) :
    (canCompile config h).1 = .error cause ↔
      cause = .compiler ∧ ∃ argv, Starts config h argv ∧ h.machine.compilation argv = .breaks := by
  have hget : (get : HostAction Host) h = (.ok h, h) := rfl
  -- nothing breaks where no compiler is started
  have hnever : ∀ {b : Bool}, (¬ ∃ argv, Starts config h argv) →
      ((Except.ok b : Except HostFault Bool) = .error cause ↔ cause = .compiler ∧
        ∃ argv, Starts config h argv ∧ h.machine.compilation argv = .breaks) :=
    fun hnot => ⟨nofun, fun ⟨_, argv, hstarts, _⟩ => absurd ⟨argv, hstarts⟩ hnot⟩
  rw [canCompile, run_bind_of_ok _ hget]
  by_cases hchosen :
      (!(chosenCompiler h config).truthy || !(chosenCompiler h config).isWritable) = true
  · rw [if_pos hchosen]
    refine hnever ?_
    rintro ⟨-, chosen, writable, -, -⟩
    simp [chosen, writable] at hchosen
  · rw [if_neg hchosen]
    simp only [Bool.or_eq_true, Bool.not_eq_true', not_or, Bool.not_eq_false] at hchosen
    cases hsplit : Words.split (chosenCompiler h config).text with
    | error fault =>
        refine hnever ?_
        rintro ⟨-, -, -, split, -⟩
        cases hsplit.symm.trans split
    | ok words =>
        cases words with
        | nil =>
            refine hnever ?_
            rintro ⟨-, -, -, split, -⟩
            cases hsplit.symm.trans split
        | cons command args =>
            dsimp only
            by_cases hfound : (which? h.machine command).isSome = true
            · rw [if_pos hfound, fst_compileTest]
              -- there is one compiler that can be started, with these arguments
              have hstarts : ∀ argv, Starts config h argv ↔
                  argv = command :: args ++ testArguments h.machine command := by
                intro argv
                constructor
                · rintro ⟨-, -, split, -⟩
                  obtain ⟨rfl, rfl⟩ := List.cons.inj (Except.ok.inj (hsplit.symm.trans split))
                  rfl
                · rintro rfl
                  exact .intro hchosen.1 hchosen.2 hsplit hfound
              simp only [hstarts, exists_eq_left]
              cases h.machine.compilation (command :: args ++ testArguments h.machine command) <;>
                simp [eq_comm]
            · rw [if_neg hfound]
              refine hnever ?_
              rintro ⟨-, -, -, split, found⟩
              obtain ⟨rfl, rfl⟩ := List.cons.inj (Except.ok.inj (hsplit.symm.trans split))
              exact hfound found

end HostPrereqs.Host
