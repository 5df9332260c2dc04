/-!
# Result — results that may be errors

How a computation that may fail comes to succeed, step by step.  A chain of steps is taken apart
with these lemmas instead of by cases on each step.
-/

namespace HostPrereqs.Result

variable {ε ε' α β : Type} {x : Except ε α}

/-- What follows a success succeeds. -/
theorem bind_eq_ok {f : α → Except ε β} {b : β} :
    x >>= f = .ok b ↔ ∃ a, x = .ok a ∧ f a = .ok b := by
  cases x with
  | error e =>
      constructor
      · intro h
        cases h
      · rintro ⟨a, h, -⟩
        cases h
  | ok a =>
      constructor
      · exact fun h => ⟨a, rfl, h⟩
      · rintro ⟨a', h, hf⟩
        rw [Except.ok.inj h]
        exact hf

/-- The first failure is the failure of the whole. -/
theorem bind_eq_error {f : α → Except ε β} {e : ε} :
    x >>= f = .error e ↔ x = .error e ∨ ∃ a, x = .ok a ∧ f a = .error e := by
  cases x with
  | error e' =>
      constructor
      · exact fun h => .inl (congrArg Except.error (Except.error.inj h))
      · rintro (h | ⟨a, h, -⟩)
        · exact congrArg Except.error (Except.error.inj h)
        · cases h
  | ok a =>
      constructor
      · exact fun h => .inr ⟨a, rfl, h⟩
      · rintro (h | ⟨a', h, hf⟩)
        · cases h
        · rw [Except.ok.inj h]
          exact hf

/-- What follows a success may be replaced where the success is known. -/
theorem bind_congr {f g : α → Except ε β} (h : ∀ a, x = .ok a → f a = g a) :
    x >>= f = x >>= g := by
  cases x with
  | error e => rfl
  | ok a => exact h a rfl

/-- Errors may be renamed step by step. -/
theorem mapError_bind {f : α → Except ε β} {g : ε → ε'} :
    (x >>= f).mapError g = x.mapError g >>= fun a => (f a).mapError g := by
  cases x with
  | error e => rfl
  | ok a => rfl

theorem map_eq_ok {f : α → β} {b : β} : x.map f = .ok b ↔ ∃ a, x = .ok a ∧ f a = b := by
  cases x with
  | error e =>
      constructor
      · intro h
        cases h
      · rintro ⟨a, h, -⟩
        cases h
  | ok a =>
      constructor
      · exact fun h => ⟨a, rfl, Except.ok.inj h⟩
      · rintro ⟨a', h, hf⟩
        rw [Except.ok.inj h, ← hf]
        rfl

theorem map_eq_error {f : α → β} {e : ε} : x.map f = .error e ↔ x = .error e := by
  cases x with
  | error e' =>
      constructor <;> exact fun h => congrArg _ (Except.error.inj h)
  | ok a => exact ⟨nofun, nofun⟩

theorem exists_map_eq_ok {f : α → β} : (∃ b, x.map f = .ok b) ↔ ∃ a, x = .ok a := by
  simp only [map_eq_ok]
  constructor
  · rintro ⟨b, a, h, -⟩
    exact ⟨a, h⟩
  · rintro ⟨a, h⟩
    exact ⟨f a, a, h, rfl⟩

theorem mapError_eq_ok {f : ε → ε'} {a : α} : x.mapError f = .ok a ↔ x = .ok a := by
  cases x with
  | error e => exact ⟨nofun, nofun⟩
  | ok b =>
      constructor
      · intro h
        rw [Except.ok.inj h]
      · intro h
        rw [Except.ok.inj h]
        rfl

theorem mapError_eq_error {f : ε → ε'} {e' : ε'} :
    x.mapError f = .error e' ↔ ∃ e, x = .error e ∧ f e = e' := by
  cases x with
  | error e =>
      constructor
      · exact fun h => ⟨e, rfl, Except.error.inj h⟩
      · rintro ⟨e₁, h, rfl⟩
        rw [Except.error.inj h]
        rfl
  | ok a =>
      constructor
      · intro h
        cases h
      · rintro ⟨e, h, -⟩
        cases h

/-- A run over a list fails at the first element that the step fails at. -/
theorem foldlM_eq_error {f : β → α → Except ε β} {xs : List α} {b : β} {e : ε} :
    xs.foldlM f b = .error e ↔ ∃ before x after b', xs = before ++ x :: after ∧
      before.foldlM f b = .ok b' ∧ f b' x = .error e := by
  induction xs generalizing b with
  | nil =>
      constructor
      · intro h
        cases h
      · rintro ⟨before, x, after, b', h, -⟩
        simp at h
  | cons y ys ih =>
      rw [List.foldlM_cons, bind_eq_error]
      constructor
      · rintro (h | ⟨b₁, hy, h⟩)
        · exact ⟨[], y, ys, b, rfl, rfl, h⟩
        · obtain ⟨before, x, after, b', rfl, hbefore, hx⟩ := ih.1 h
          refine ⟨y :: before, x, after, b', rfl, ?_, hx⟩
          rw [List.foldlM_cons]
          exact bind_eq_ok.2 ⟨b₁, hy, hbefore⟩
      · rintro ⟨before, x, after, b', heq, hbefore, hx⟩
        cases before with
        | nil =>
            cases heq
            cases hbefore
            exact .inl hx
        | cons z before =>
            cases heq
            rw [List.foldlM_cons] at hbefore
            obtain ⟨b₁, hy, hbefore⟩ := bind_eq_ok.1 hbefore
            exact .inr ⟨b₁, hy, ih.2 ⟨before, x, after, b', rfl, hbefore, hx⟩⟩

/-- A check of all elements that succeeds has succeeded at each of them. -/
theorem of_forM_eq_ok {f : α → Except ε Unit} {xs : List α} (h : xs.forM f = .ok ()) :
    ∀ x ∈ xs, f x = .ok () := by
  induction xs with
  | nil => exact fun x hx => absurd hx List.not_mem_nil
  | cons x xs ih =>
      obtain ⟨⟨⟩, hx, hxs⟩ := bind_eq_ok.1 h
      exact List.forall_mem_cons.2 ⟨hx, ih hxs⟩

theorem toOption_eq_some {a : α} : x.toOption = some a ↔ x = .ok a := by
  cases x with
  | error e => exact ⟨nofun, nofun⟩
  | ok b =>
      constructor
      · intro h
        rw [Option.some.inj h]
      · intro h
        rw [h]
        rfl

/-! ### Kinds of errors -/

/-- Whatever a result fails with is of a kind. -/
def FailsWith (kind : ε → Prop) (x : Except ε α) : Prop := ∀ e, x = .error e → kind e

namespace FailsWith

variable {kind : ε → Prop}

theorem ok (a : α) : FailsWith kind (.ok a : Except ε α) := nofun

theorem error {e : ε} (he : kind e) : FailsWith kind (.error e : Except ε α) := by
  intro e' heq
  cases heq
  exact he

/-- An error that is passed on. -/
theorem pass {e : ε} (hx : FailsWith kind x) (h : x = .error e) :
    FailsWith kind (.error e : Except ε β) := .error (hx e h)

theorem bind {f : α → Except ε β} (hx : FailsWith kind x) (hf : ∀ a, FailsWith kind (f a)) :
    FailsWith kind (x >>= f) := by
  intro e h
  rcases bind_eq_error.1 h with h | ⟨a, -, h⟩
  · exact hx e h
  · exact hf a e h

theorem map (hx : FailsWith kind x) (f : α → β) : FailsWith kind (x.map f) := by
  cases x with
  | ok a => exact .ok (f a)
  | error e => exact .error (hx e rfl)

theorem ite {c : Prop} [Decidable c] {y : Except ε α} (hx : FailsWith kind x)
    (hy : FailsWith kind y) : FailsWith kind (if c then x else y) := by
  split
  · exact hx
  · exact hy

/-- A check in front of a computation. -/
theorem check {c : Prop} [Decidable c] {e : ε} {f : Unit → Except ε α} (he : kind e)
    (hf : FailsWith kind (f ())) :
    FailsWith kind (if c then (throw e : Except ε Unit) >>= f else f ()) := .ite (.error he) hf

/-- A step that fails with a kind only does so at any element. -/
theorem mapM {f : α → Except ε β} (hf : ∀ a, FailsWith kind (f a)) (xs : List α) :
    FailsWith kind (xs.mapM f) := by
  induction xs with
  | nil => exact .ok []
  | cons a xs ih =>
      rw [List.mapM_cons]
      exact .bind (hf a) fun _ => .bind ih fun _ => .ok _

end FailsWith

end HostPrereqs.Result
