import HostPrereqs.Host.Basic
import HostPrereqs.Proofs.Result

/-!
# Host — actions that do not depend on the log

The log is written and never read.  Two actions are *similar* when, from hosts that differ at most
in their logs, both fail or both give the same result, and leave hosts that differ at most in their
logs (`Similar`).  Errors and reports may differ.

Similar actions are put together by the rules below; an action that is similar to itself does not
depend on the log.  Runs of actions are taken apart step by step (`run_bind_eq_ok`).
-/

namespace HostPrereqs.Host

variable {ε ε' δ δ' α β : Type}

/-- A host on which nothing is installed and nothing has happened. -/
def bare : Host where
  machine := ⟨"linux", "3.12.1", [], [], some [], [], [], "", "", fun _ => .exits 0 "",
    fun _ input => input⟩
  environment := []
  streams := ⟨.pipe, .pipe, .lineFeed, false, fun _ _ => none⟩
  defaultsOnly := false
  input := []
  written := ""
  compilerRuns := []
  calls := []
  log := []

/-- A host without its log. -/
def unlogged (h : Host) : Host := { h with log := [] }

/-! ### Runs -/

/-- Actions that cannot fail run in turn. -/
theorem run_turn (m : OnHost α) (f : α → OnHost β) (h : Host) : (m >>= f) h = f (m h).1 (m h).2 :=
  rfl

/-- Actions in turn succeed if the first one does and the second one after it. -/
theorem run_bind_eq_ok {m : ExceptT ε OnHost α} {f : α → ExceptT ε OnHost β} {h h' : Host}
    {b : β} : (m >>= f) h = (.ok b, h') ↔
      ∃ a h₁, m h = (.ok a, h₁) ∧ f a h₁ = (.ok b, h') := by
  rw [run_bind]
  obtain ⟨x, h₁⟩ := m h
  cases x with
  | error e =>
      constructor
      · intro heq
        cases heq
      · rintro ⟨a, h₂, heq, -⟩
        cases heq
  | ok a =>
      constructor
      · exact fun heq => ⟨a, h₁, rfl, heq⟩
      · rintro ⟨a', h₂, heq, hf⟩
        cases heq
        exact hf

theorem run_bind_of_error {m : ExceptT ε OnHost α} (f : α → ExceptT ε OnHost β) {h h' : Host}
    {e : ε} (hm : m h = (.error e, h')) : (m >>= f) h = (.error e, h') := by
  rw [run_bind, hm]

theorem run_bind_of_ok {m : ExceptT ε OnHost α} (f : α → ExceptT ε OnHost β) {h h' : Host}
    {a : α} (hm : m h = (.ok a, h')) : (m >>= f) h = f a h' := by
  rw [run_bind, hm]

/-- Actions in turn fail if the first one does, or the second one where the first one ends. -/
theorem run_bind_eq_error {m : ExceptT ε OnHost α} {f : α → ExceptT ε OnHost β} {h h' : Host}
    {e : ε} : (m >>= f) h = (.error e, h') ↔
      m h = (.error e, h') ∨ ∃ a h₁, m h = (.ok a, h₁) ∧ f a h₁ = (.error e, h') := by
  rw [run_bind]
  obtain ⟨x, h₁⟩ := m h
  cases x with
  | error e' =>
      constructor
      · intro heq
        cases heq
        exact .inl rfl
      · rintro (heq | ⟨a, h₂, heq, -⟩)
        · cases heq
          rfl
        · cases heq
  | ok a =>
      constructor
      · exact fun heq => .inr ⟨a, h₁, rfl, heq⟩
      · rintro (heq | ⟨a', h₂, heq, hf⟩)
        · cases heq
        · cases heq
          exact hf

/-- Actions in turn fail if the first one does, or the second one after it. -/
theorem fst_bind_eq_error {m : ExceptT ε OnHost α} {f : α → ExceptT ε OnHost β} {h : Host} {e : ε} :
    ((m >>= f) h).1 = .error e ↔
      (m h).1 = .error e ∨ ∃ a h₁, m h = (.ok a, h₁) ∧ (f a h₁).1 = .error e := by
  rw [run_bind]
  obtain ⟨x, h₁⟩ := m h
  cases x with
  | error e' =>
      constructor
      · exact fun heq => .inl (congrArg Except.error (Except.error.inj heq))
      · rintro (heq | ⟨a, h₂, heq, -⟩)
        · exact congrArg Except.error (Except.error.inj heq)
        · cases heq
  | ok a =>
      constructor
      · exact fun heq => .inr ⟨a, h₁, rfl, heq⟩
      · rintro (heq | ⟨a', h₂, heq, hf⟩)
        · cases heq
        · cases heq
          exact hf

theorem run_lift (m : OnHost α) (h : Host) :
    (liftM m : ExceptT ε OnHost α) h = (.ok (m h).1, (m h).2) := rfl

/-- An action is taken up where it failed, on the host as it is then. -/
theorem run_tryCatch (m : ExceptT ε OnHost α) (f : ε → ExceptT ε OnHost α) (h : Host) :
    tryCatch m f h = match m h with
      | (.ok a, h') => (.ok a, h')
      | (.error e, h') => f e h' := by
  change (fun p : Except ε α × Host => (match p.1 with
    | .ok a => pure (.ok a)
    | .error e => f e : OnHost (Except ε α)) p.2) (m h) = _
  obtain ⟨x, h'⟩ := m h
  cases x <;> rfl

theorem run_map (f : α → β) (m : ExceptT ε OnHost α) (h : Host) :
    (f <$> m) h = ((m h).1.map f, (m h).2) := by
  change (fun p : Except ε α × Host => (match p.1 with
    | .ok a => pure (.ok (f a))
    | .error e => pure (.error e) : OnHost (Except ε β)) p.2) (m h) = _
  cases hm : (m h).1 <;> simp only [hm] <;> rfl

theorem run_adapt (m : ExceptT ε OnHost α) (f : ε → δ) (h : Host) :
    (m.adapt f) h = ((m h).1.mapError f, (m h).2) := rfl

theorem run_ofExcept (x : Except ε α) (h : Host) :
    (MonadExcept.ofExcept x : ExceptT ε OnHost α) h = (x, h) := by
  cases x <;> rfl

theorem run_ofExcept_eq_ok {x : Except ε α} {h h' : Host} {a : α} :
    (MonadExcept.ofExcept x : ExceptT ε OnHost α) h = (.ok a, h') ↔ x = .ok a ∧ h' = h := by
  rw [run_ofExcept, Prod.mk.injEq]
  exact and_congr_right fun _ => eq_comm

/-! ### Similar actions -/

/-- Both actions fail or give the same result, and they leave the same host up to the log. -/
def Similar (m : ExceptT ε OnHost α) (n : ExceptT ε' OnHost α) : Prop :=
  ∀ h k : Host, h.unlogged = k.unlogged →
    (m h).1.toOption = (n k).1.toOption ∧ (m h).2.unlogged = (n k).2.unlogged

namespace Similar

/-- Where one action succeeds, a similar one gives the same. -/
theorem of_ok {m : ExceptT ε OnHost α} {n : ExceptT ε' OnHost α} (hm : Similar m n)
    {h h' k : Host} {a : α} (hk : h.unlogged = k.unlogged) (hok : m h = (.ok a, h')) :
    ∃ k', n k = (.ok a, k') ∧ h'.unlogged = k'.unlogged := by
  obtain ⟨hres, hhost⟩ := hm h k hk
  rw [hok] at hres hhost
  generalize n k = q at hres hhost
  obtain ⟨y, k'⟩ := q
  cases y with
  | error e => cases hres
  | ok b =>
      obtain rfl : a = b := Option.some.inj hres
      exact ⟨k', rfl, hhost⟩

theorem pure (a : α) :
    Similar (pure a : ExceptT ε OnHost α) (Pure.pure a : ExceptT ε' OnHost α) :=
  fun _ _ h => ⟨rfl, h⟩

theorem throw (e : ε) (e' : ε') :
    Similar (throw e : ExceptT ε OnHost α) (MonadExcept.throw e' : ExceptT ε' OnHost α) :=
  fun _ _ h => ⟨rfl, h⟩

theorem ofExcept {x : Except ε α} {y : Except ε' α} (h : x.toOption = y.toOption) :
    Similar (MonadExcept.ofExcept x : ExceptT ε OnHost α)
      (MonadExcept.ofExcept y : ExceptT ε' OnHost α) := by
  intro h₁ h₂ heq
  cases x <;> cases y <;> exact ⟨h, heq⟩

/-- Similar actions are followed by similar ones. -/
theorem bind {m : ExceptT ε OnHost α} {n : ExceptT ε' OnHost α} {f : α → ExceptT ε OnHost β}
    {g : α → ExceptT ε' OnHost β} (hm : Similar m n) (hf : ∀ a, Similar (f a) (g a)) :
    Similar (m >>= f) (n >>= g) := by
  intro h k heq
  obtain ⟨hres, hhost⟩ := hm h k heq
  rw [run_bind, run_bind]
  generalize m h = p at hres hhost
  generalize n k = q at hres hhost
  obtain ⟨x, h'⟩ := p
  obtain ⟨y, k'⟩ := q
  cases x with
  | error e =>
      cases y with
      | error e' => exact ⟨rfl, hhost⟩
      | ok b => cases hres
  | ok a =>
      cases y with
      | error e' => cases hres
      | ok b =>
          obtain rfl : a = b := Option.some.inj hres
          exact hf a h' k' hhost

/-- What is recorded does not count. -/
theorem report (r r' : Log.Record) :
    Similar (liftM (Host.report r) : ExceptT ε OnHost Unit)
      (liftM (Host.report r') : ExceptT ε' OnHost Unit) :=
  fun _ _ h => ⟨rfl, h⟩

/-- A change that does not depend on the log is similar to itself. -/
theorem modify {f : Host → Host} (hf : ∀ h k : Host, h.unlogged = k.unlogged →
    (f h).unlogged = (f k).unlogged) :
    Similar (modify f : ExceptT ε OnHost PUnit) (modify f : ExceptT ε' OnHost PUnit) :=
  fun h k heq => ⟨rfl, hf h k heq⟩

theorem forM_report (rs : List Log.Record) :
    Similar (rs.forM fun r => (liftM (Host.report r) : ExceptT ε OnHost PUnit))
      (rs.forM fun r => (liftM (Host.report r) : ExceptT ε' OnHost PUnit)) := by
  induction rs with
  | nil => exact .pure _
  | cons r rs ih => exact .bind (.report r r) fun _ => ih

theorem adapt {m : ExceptT ε OnHost α} {n : ExceptT ε' OnHost α} (hm : Similar m n)
    (f : ε → δ) (g : ε' → δ') : Similar (m.adapt f) (n.adapt g) := by
  intro h k heq
  obtain ⟨hres, hhost⟩ := hm h k heq
  change (Except.mapError f (m h).1).toOption = (Except.mapError g (n k).1).toOption ∧
    (m h).2.unlogged = (n k).2.unlogged
  refine ⟨?_, hhost⟩
  generalize (m h).1 = x at hres
  generalize (n k).1 = y at hres
  cases x <;> cases y <;> exact hres

/-- What runs aside does not depend on the log. -/
theorem aside (m : OnHost (Except ε α)) :
    Similar (ExceptT.mk (Host.aside m)) (ExceptT.mk (Host.aside m)) := by
  intro h k heq
  -- both runs start from the same host
  change (m h.unlogged).1.toOption = (m k.unlogged).1.toOption ∧
    (m h.unlogged).2.unlogged = (m k.unlogged).2.unlogged
  rw [heq]
  exact ⟨rfl, rfl⟩

end Similar

end HostPrereqs.Host
