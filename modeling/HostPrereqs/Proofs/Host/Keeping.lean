import HostPrereqs.Host.Questions
import HostPrereqs.Proofs.Host.Similar

/-!
# Host — what actions keep and what they fail with

An action keeps a view of the host if the view is the same before and after it, whether the action
succeeds or not (`Keeps`).  It fails with a kind of errors if all its errors are of that kind
(`FailsWith`).  Such actions are put together by the rules below.

Two views are used: what is open to the one at the other end, which an action keeps that reads and
writes nothing (`exposed`), and the surroundings, which nothing changes while conditions are
evaluated (`surroundings`).  Whether questions take their defaults depends on the surroundings alone
(`usesDefaults_congr`).

A compiler shares the unread input and may take some of it; besides, it changes neither of them
(`Compiles`).
-/

namespace HostPrereqs.Host

variable {ε ε' α β γ δ : Type} {view : Host → γ}

/-- An action that leaves a view of the host as it is. -/
def Keeps (view : Host → γ) (m : OnHost α) : Prop := ∀ h, view (m h).2 = view h

namespace Keeps

theorem pure (a : α) : Keeps view (Pure.pure a : ExceptT ε OnHost α) := fun _ => rfl

theorem throw (e : ε) : Keeps view (MonadExcept.throw e : ExceptT ε OnHost α) := fun _ => rfl

theorem ofExcept (x : Except ε α) : Keeps view (MonadExcept.ofExcept x : ExceptT ε OnHost α) := by
  intro h
  rw [run_ofExcept]

theorem lift {m : OnHost α} (hm : Keeps view m) : Keeps view (liftM m : ExceptT ε OnHost α) := hm

theorem bind {m : ExceptT ε OnHost α} {f : α → ExceptT ε OnHost β} (hm : Keeps view m)
    (hf : ∀ a, Keeps view (f a)) : Keeps view (m >>= f : ExceptT ε OnHost β) := by
  intro h
  have hfirst := hm h
  rw [run_bind]
  generalize m h = p at hfirst
  obtain ⟨x, h₁⟩ := p
  cases x with
  | error e => exact hfirst
  | ok a => exact (hf a h₁).trans hfirst

theorem adapt {m : ExceptT ε OnHost α} (hm : Keeps view m) (f : ε → ε') :
    Keeps view (m.adapt f) := hm

/-- What keeps a view keeps a part of it. -/
theorem part {m : OnHost α} (hm : Keeps view m) (f : γ → δ) : Keeps (fun h => f (view h)) m :=
  fun h => congrArg f (hm h)

end Keeps

/-! ### Failures -/

/-- All errors of an action are of a kind. -/
def FailsWith (kind : ε → Prop) (m : ExceptT ε OnHost α) : Prop :=
  ∀ h e, (m h).1 = .error e → kind e

namespace FailsWith

variable {kind : ε → Prop}

theorem pure (a : α) : FailsWith kind (Pure.pure a : ExceptT ε OnHost α) := nofun

theorem ofExcept {x : Except ε α} (hx : ∀ e, x = .error e → kind e) :
    FailsWith kind (MonadExcept.ofExcept x : ExceptT ε OnHost α) := by
  intro h e heq
  rw [run_ofExcept] at heq
  exact hx e heq

/-- What cannot fail has no errors. -/
theorem lift (m : OnHost α) : FailsWith kind (liftM m : ExceptT ε OnHost α) := nofun

theorem bind {m : ExceptT ε OnHost α} {f : α → ExceptT ε OnHost β} (hm : FailsWith kind m)
    (hf : ∀ a, FailsWith kind (f a)) : FailsWith kind (m >>= f : ExceptT ε OnHost β) := by
  intro h e heq
  rcases fst_bind_eq_error.1 heq with heq | ⟨a, h₁, -, heq⟩
  · exact hm h e heq
  · exact hf a h₁ e heq

theorem map {m : ExceptT ε OnHost α} (f : α → β) (hm : FailsWith kind m) :
    FailsWith kind (f <$> m : ExceptT ε OnHost β) := by
  intro h e heq
  rw [run_map] at heq
  refine hm h e ?_
  generalize (m h).1 = x at heq
  cases x with
  | error e' => exact congrArg Except.error (Except.error.inj heq)
  | ok a => cases heq

theorem weaken {kind' : ε → Prop} {m : ExceptT ε OnHost α} (hm : FailsWith kind m)
    (hkind : ∀ e, kind e → kind' e) : FailsWith kind' m :=
  fun h e heq => hkind e (hm h e heq)

theorem forM_report (rs : List Log.Record) :
    FailsWith kind (rs.forM fun r => liftM (Host.report r) : ExceptT ε OnHost PUnit) := by
  induction rs with
  | nil => exact .pure _
  | cons r rs ih => exact .bind (.lift _) fun _ => ih

end FailsWith

/-! ### Streams and surroundings -/

/-- What a host shares with the one at the other end: the unread input, what was written, and the
streams. -/
def exposed (h : Host) : List Char × String × Streams := (h.input, h.written, h.streams)

theorem exposed_eq_iff {h h' : Host} : h'.exposed = h.exposed ↔
    h'.input = h.input ∧ h'.written = h.written ∧ h'.streams = h.streams := by
  simp only [exposed, Prod.mk.injEq]

/-- What the evaluation of conditions cannot change: the machine, the environment, and the wish that
every question takes its default. -/
def surroundings (h : Host) : Machine × List (String × String) × Bool :=
  (h.machine, h.environment, h.defaultsOnly)

/-- What is shared, and the surroundings. -/
def outside (h : Host) :
    (List Char × String × Streams) × Machine × List (String × String) × Bool :=
  (h.exposed, h.surroundings)

theorem Keeps.exposed {m : OnHost α} (hm : Keeps outside m) : Keeps exposed m := hm.part (·.1)

/-- What leaves everything outside as it is keeps the surroundings. -/
theorem Keeps.surroundings {m : OnHost α} (hm : Keeps outside m) : Keeps surroundings m :=
  hm.part (·.2)

/-- A record is nothing outside. -/
theorem keeps_report (r : Log.Record) : Keeps outside (report r) := fun _ => rfl

/-- Whether questions take their defaults depends on the surroundings alone. -/
theorem usesDefaults_congr {h k : Host} (hsame : h.surroundings = k.surroundings) :
    h.usesDefaults = k.usesDefaults := by
  simp only [Host.surroundings, Prod.mk.injEq] at hsame
  obtain ⟨-, henvironment, hdefaults⟩ := hsame
  simp only [usesDefaults, valueOf?, henvironment, hdefaults]

theorem keeps_forM_report (rs : List Log.Record) :
    Keeps outside (rs.forM fun r => liftM (report r) : ExceptT ε OnHost PUnit) := by
  induction rs with
  | nil => exact .pure _
  | cons r rs ih => exact .bind (.lift (keeps_report r)) fun _ => ih

/-! ### What is asked of a host -/

/-- A record and then an answer. -/
theorem keeps_debug (event : String) (fields : List (String × Value)) (b : Bool) :
    Keeps outside (do debug event fields; return b : HostAction Bool) :=
  .bind (.lift (keeps_report _)) fun _ => .pure b

/-- Looking for a module keeps everything outside as it is. -/
theorem keeps_moduleExists (module : String) : Keeps outside (moduleExists module) := by
  refine .bind (fun _ => rfl) fun h => .bind (.ofExcept _) fun version => ?_
  split
  · exact .pure true
  · split
    · exact .pure true
    · exact .pure false
    · exact keeps_debug _ _ false
    · exact .throw _

/-! ### Compilers -/

/-- An action in which at most one compiler runs.  It keeps the surroundings, and of what is shared
nothing changes but that the compiler may have taken some of the unread input. -/
def Compiles (m : OnHost α) : Prop :=
  ∀ h, (m h).2.surroundings = h.surroundings ∧
    ((m h).2.exposed = h.exposed ∨ ∃ argv, (m h).2.exposed =
      (h.machine.compilerLeaves argv h.input, h.written, h.streams))

namespace Compiles

/-- Where nothing outside changes, no compiler has run. -/
theorem of_keeps {m : OnHost α} (hm : Keeps outside m) : Compiles m :=
  fun h => ⟨hm.surroundings h, .inl (hm.exposed h)⟩

/-- Nothing else matters before a compiler runs. -/
theorem preceded {m : ExceptT ε OnHost α} {f : α → ExceptT ε OnHost β} (hm : ∀ h, (m h).2 = h)
    (hf : ∀ a, Compiles (f a)) : Compiles (m >>= f : ExceptT ε OnHost β) := by
  intro h
  have hfirst := hm h
  rw [run_bind]
  generalize m h = p at hfirst
  obtain ⟨x, h₁⟩ := p
  obtain rfl : h₁ = h := hfirst
  cases x with
  | error e => exact ⟨rfl, .inl rfl⟩
  | ok a => exact hf a h₁

theorem bind {m : ExceptT ε OnHost α} {f : α → ExceptT ε OnHost β} (hm : Compiles m)
    (hf : ∀ a, Keeps outside (f a)) : Compiles (m >>= f : ExceptT ε OnHost β) := by
  intro h
  have hfirst := hm h
  rw [run_bind]
  generalize m h = p at hfirst
  obtain ⟨x, h₁⟩ := p
  cases x with
  | error e => exact hfirst
  | ok a =>
      rw [(hf a).surroundings h₁, (hf a).exposed h₁]
      exact hfirst

end Compiles

/-- A compiler that is started shares the unread input. -/
theorem compiles_startCompiler (argv : List String) :
    Compiles (liftM (startCompiler argv) : HostAction Compilation) := by
  intro h
  rw [run_lift, startCompiler, run_turn, run_turn]
  generalize hcompilation : Machine.compilation _ _ = compilation
  cases compilation with
  | cannotStart reason => exact ⟨rfl, .inl rfl⟩
  | exits status diagnosis | timesOut | breaks => exact ⟨rfl, .inr ⟨argv, rfl⟩⟩

theorem compiles_compileTest (compiler : Value) (argv : List String) :
    Compiles (compileTest compiler argv) := by
  refine .bind (compiles_startCompiler argv) fun compilation => ?_
  split
  · exact keeps_debug _ _ false
  · exact keeps_debug _ _ false
  · split
    · exact keeps_debug _ _ false
    · exact .pure true
  · exact .throw _

/-- Trying the compiler runs it at most once. -/
theorem compiles_canCompile (config : BuildConfig) : Compiles (canCompile config) := by
  refine .preceded (fun _ => rfl) fun h => ?_
  dsimp only
  split
  · exact .of_keeps (.pure false)
  · split
    · exact .of_keeps (.pure false)
    · split
      · split
        · exact compiles_compileTest _ _
        · exact .of_keeps (keeps_debug _ _ false)
      · exact .of_keeps (keeps_debug _ _ false)

/-! ### Lines -/

/-- Writing keeps the surroundings, whether it fails or not. -/
theorem surroundings_write (text : String) : Keeps surroundings (write text) := by
  intro h
  unfold write
  split <;> rfl

theorem surroundings_takeInput : Keeps surroundings takeInput := by
  intro h
  unfold takeInput
  dsimp only
  split
  · rfl
  · split <;> rfl

theorem surroundings_acknowledge (interactive : Bool) (answer : String) :
    Keeps surroundings (acknowledge interactive answer) := by
  unfold acknowledge
  split
  · exact .pure _
  · split
    · exact .pure none
    · exact .bind (surroundings_write _) fun _ => .pure _

/-- Reading a line keeps the surroundings, whether it fails or not. -/
theorem surroundings_readLine : Keeps surroundings readLine := by
  refine .bind (fun _ => rfl) fun h => ?_
  split
  · exact .pure none
  · refine .bind surroundings_takeInput fun line => ?_
    split
    · exact .pure none
    · exact surroundings_acknowledge _ _

end HostPrereqs.Host
