import HostPrereqs.Failure.Basic
import HostPrereqs.Proofs.Condition.Evaluation
import HostPrereqs.Proofs.Condition.Reading
import HostPrereqs.Proofs.Predicate.Registry

/-!
# Predicate — several registries over time

Registries stand side by side, and predicates are registered in one of them, one is copied to
become one more, or one is cleared (`Operation`).  `perform_cases` says what one operation can do;
from it, the registries of a whole history keep to good names (`wellNamed_after`), and an operation
leaves all registries but its own as they are.  `perform_register_iff` says what can be registered.

A predicate of such a registry can be called from a condition by its name, since a name that can be
registered is read as the head of a condition and never as a combinator (`callable`).

`registries_after` puts this together for histories that start from empty registries.
-/

namespace HostPrereqs

namespace Registry

/-- The words that predicates can be registered under. -/
def CanName (name : String) : Prop :=
  name ≠ "" ∧ (∀ c ∈ name.toList, Text.isWordChar c = true) ∧ name ≠ "and" ∧ name ≠ "or"

theorem canName_iff {name : String} :
    CanName name ↔ Junction.ofName? name = none ∧ isBareWord name = true := by
  have hfree : Junction.ofName? name = none ↔ name ≠ "and" ∧ name ≠ "or" := by
    rw [Option.eq_none_iff_forall_ne_some]
    constructor
    · intro hnone
      exact ⟨fun h => hnone .and (Junction.ofName?_eq_some.2 h),
        fun h => hnone .or (Junction.ofName?_eq_some.2 h)⟩
    · rintro ⟨hand, hor⟩ j hj
      cases j with
      | and => exact hand (Junction.ofName?_eq_some.1 hj)
      | or => exact hor (Junction.ofName?_eq_some.1 hj)
  rw [hfree, Condition.isBareWord_iff, CanName, ← and_assoc, and_comm]

end Registry

/-- What is done with the registry that has the number `k`. -/
inductive Operation where
  | register (k : Nat) (p : Predicate)
  /-- Registers a test under the name and with the data that are given beside it. -/
  | decorate (k : Nat) (name : String) (minArgs : Int) (maxArgs : Option Int)
      (description : String) (run : Setting → List String → ExceptT PredicateError OnHost Bool)
  /-- Adds a registry with the same predicates. -/
  | copy (k : Nat)
  | clear (k : Nat)

/-- An action on registries that can be refused. -/
abbrev OnRegistries (α : Type) := ExceptT RegistryError (StateM (List Registry)) α

namespace Operation

/-- Registers a predicate in the registry with the number `k`, if there is one. -/
def registerAt (k : Nat) (p : Predicate) : OnRegistries Unit := do
  match (← get)[k]? with
  | none => return
  | some r =>
      let r' ← MonadExcept.ofExcept (r.register p)
      modify (·.set k r')

def perform : Operation → OnRegistries Unit
  | register k p => registerAt k p
  | decorate k name minArgs maxArgs description run =>
      registerAt k ⟨name, minArgs, maxArgs, description, run⟩
  | copy k => modify fun rs => rs ++ rs[k]?.toList
  | clear k => modify (·.set k .empty)

/-- The number of the registry that an operation may change. -/
def target? : Operation → Option Nat
  | register k _ | decorate k .. | clear k => some k
  | copy _ => none

/-- The registries after operations, of which some may have been refused. -/
def after (ops : List Operation) (rs : List Registry) : List Registry :=
  ops.foldl (fun rs op => (op.perform rs).2) rs

variable {op : Operation} {rs rs' : List Registry} {k j : Nat} {p : Predicate}

/-! ### One operation -/

/-- What registering can do: nothing, be refused, or change one registry. -/
theorem registerAt_cases (k : Nat) (p : Predicate) (rs : List Registry) :
    (rs[k]? = none ∧ registerAt k p rs = (.ok (), rs)) ∨
    (∃ r e, rs[k]? = some r ∧ r.register p = .error e ∧ registerAt k p rs = (.error e, rs)) ∨
    (∃ r r', rs[k]? = some r ∧ r.register p = .ok r' ∧
      registerAt k p rs = (.ok (), rs.set k r')) := by
  have hrun : registerAt k p rs = (match rs[k]? with
      | none => pure ()
      | some r => do
          let r' ← MonadExcept.ofExcept (r.register p)
          modify (·.set k r') : OnRegistries Unit) rs := rfl
  rw [hrun]
  cases hk : rs[k]? with
  | none => exact .inl ⟨rfl, rfl⟩
  | some r =>
      cases hr : r.register p with
      | error e => exact .inr (.inl ⟨r, e, rfl, hr, by simp only [hr]; rfl⟩)
      | ok r' => exact .inr (.inr ⟨r, r', rfl, hr, by simp only [hr]; rfl⟩)

/-- What an operation can do: leave everything as it is, add a copy, or put in the place of its own
registry the same with one more predicate, or an empty one. -/
theorem perform_cases (op : Operation) (rs : List Registry) :
    (op.perform rs).2 = rs ∨
    (∃ k, op = .copy k ∧ op.perform rs = (.ok (), rs ++ rs[k]?.toList)) ∨
    (∃ k r, op.target? = some k ∧ op.perform rs = (.ok (), rs.set k r) ∧
      (r = .empty ∨ ∃ r₀ p, r₀ ∈ rs ∧ r₀.register p = .ok r)) := by
  have hregister : ∀ k p, op.target? = some k → op.perform = registerAt k p →
      (op.perform rs).2 = rs ∨ ∃ k r, op.target? = some k ∧
        op.perform rs = (.ok (), rs.set k r) ∧ (r = .empty ∨ ∃ r₀ p, r₀ ∈ rs ∧
          r₀.register p = .ok r) := by
    intro k p htarget hop
    rcases registerAt_cases k p rs with ⟨-, hrun⟩ | ⟨r, e, -, -, hrun⟩ | ⟨r, r', hr, hr', hrun⟩
    · exact .inl (by rw [hop, hrun])
    · exact .inl (by rw [hop, hrun])
    · exact .inr ⟨k, r', htarget, by rw [hop, hrun], .inr ⟨r, p, List.mem_of_getElem? hr, hr'⟩⟩
  cases op with
  | register k p => exact (hregister k p rfl rfl).imp_right .inr
  | decorate k name minArgs maxArgs description run => exact (hregister k _ rfl rfl).imp_right .inr
  | copy k => exact .inr (.inl ⟨k, rfl, rfl⟩)
  | clear k => exact .inr (.inr ⟨k, .empty, rfl, rfl, .inl rfl⟩)

/-- A predicate is registered exactly if its name is a word for predicates that is not taken. -/
theorem perform_register_iff {r : Registry} (hk : rs[k]? = some r) :
    (Registry.CanName p.name ∧ r.get? p.name = none) ↔
      ∃ r', (register k p).perform rs = (.ok (), rs.set k r') ∧ r'.get? p.name = some p := by
  constructor
  · rintro ⟨hname, hnew⟩
    obtain ⟨hfree, hword⟩ := Registry.canName_iff.1 hname
    have hok := Registry.register_eq_ok.2 ⟨hfree, hword, hnew, rfl⟩
    rcases registerAt_cases k p rs with
      ⟨hnone, -⟩ | ⟨r₁, e, hr₁, herror, -⟩ | ⟨r₁, r', hr₁, hr', hrun⟩
    · cases hk.symm.trans hnone
    · cases hk.symm.trans hr₁
      cases hok.symm.trans herror
    · cases hk.symm.trans hr₁
      exact ⟨r', hrun, Registry.get?_register_self hr'⟩
  · rintro ⟨r', hrun, -⟩
    rcases registerAt_cases k p rs with ⟨hnone, -⟩ | ⟨r, e, -, -, herror⟩ | ⟨r₁, r₂, hr₁, hok, -⟩
    · cases hk.symm.trans hnone
    · cases hrun.symm.trans herror
    · cases hk.symm.trans hr₁
      obtain ⟨hfree, hword, hnew, -⟩ := Registry.register_eq_ok.1 hok
      exact ⟨Registry.canName_iff.2 ⟨hfree, hword⟩, hnew⟩

/-- An operation that is refused changes nothing. -/
theorem perform_of_error {e : RegistryError} (h : op.perform rs = (.error e, rs')) : rs' = rs := by
  rcases perform_cases op rs with hsame | ⟨k, -, hrun⟩ | ⟨k, r, -, hrun, -⟩
  · rw [h] at hsame
    exact hsame
  · rw [hrun] at h
    cases h
  · rw [hrun] at h
    cases h

/-- An operation leaves the registries as they are that are not its own. -/
theorem getElem?_perform {r : Registry} (hj : op.target? ≠ some j) (hr : rs[j]? = some r) :
    (op.perform rs).2[j]? = some r := by
  rcases perform_cases op rs with hsame | ⟨k, -, hrun⟩ | ⟨k, r', htarget, hrun, -⟩
  · rw [hsame, hr]
  · obtain ⟨hlt, -⟩ := List.getElem?_eq_some_iff.1 hr
    rw [hrun]
    exact (List.getElem?_append_left hlt).trans hr
  · have hne : k ≠ j := fun heq => hj (heq ▸ htarget)
    rw [hrun]
    exact (List.getElem?_set_ne hne).trans hr

theorem wellNamed_perform (hrs : ∀ r ∈ rs, r.WellNamed) :
    ∀ r ∈ (op.perform rs).2, r.WellNamed := by
  intro r hr
  rcases perform_cases op rs with hsame | ⟨k, -, hrun⟩ | ⟨k, r', -, hrun, hr'⟩
  · exact hrs r (hsame ▸ hr)
  · rw [hrun] at hr
    rcases List.mem_append.1 hr with hr | hr
    · exact hrs r hr
    · exact hrs r (List.mem_of_getElem? (Option.mem_toList.1 hr))
  · rw [hrun] at hr
    rcases List.mem_or_eq_of_mem_set hr with hr | rfl
    · exact hrs r hr
    · rcases hr' with rfl | ⟨r₀, p, hr₀, hp⟩
      · exact Registry.wellNamed_empty
      · exact (hrs r₀ hr₀).register hp

/-- The registries of a whole history have good names, if they had them at the start. -/
theorem wellNamed_after (ops : List Operation) (hrs : ∀ r ∈ rs, r.WellNamed) :
    ∀ r ∈ after ops rs, r.WellNamed := by
  induction ops generalizing rs with
  | nil => exact hrs
  | cons op ops ih => exact ih (wellNamed_perform hrs)

end Operation

/-! ### Calls by name -/

namespace Registry

open Condition

variable {r : Registry} {p : Predicate}

/-- The predicate can be called with arguments: by the list of its name and the arguments, and by
the line of them.  If it takes so many, it is called with just these arguments and with nothing
else around it; if it does not, the evaluation fails and nothing is called. -/
structure Callable (r : Registry) (p : Predicate) (s : Setting) (args : List String) (h : Host) :
    Prop where
  line : evaluate r s (.str (Words.join (p.name :: args))) h =
    evaluate r s (.strs (p.name :: args)) h
  result : p.takes args.length = true → (evaluate r s (.strs (p.name :: args)) h).1 =
    (p.run s args { h with calls := h.calls ++ [⟨p.name, args⟩], log := [] }).1.mapError .predicate
  host : p.takes args.length = true → (evaluate r s (.strs (p.name :: args)) h).2.unlogged =
    (p.run s args { h with calls := h.calls ++ [⟨p.name, args⟩], log := [] }).2.unlogged
  refused : p.takes args.length = false → ∃ e report,
    evaluate r s (.strs (p.name :: args)) h = (.error e, h) ∧ e.report? = some report ∧
      report.kind = .predicateArgument

theorem headWord_false (name : String) : headWord false name = name := by
  simp [headWord]

/-- The name of a predicate with arguments is read as a command of that name. -/
theorem WellNamed.parse_words (hr : r.WellNamed) (hp : p ∈ r.predicates) {args : List String}
    {v : Value} (hv : itemsOf v = .ok ((p.name :: args).map .str)) :
    parse v = .ok (.command p.name args false) :=
  parse_command (by rw [hv, headWord_false]) (hr.words p hp) (hr.free p hp)

theorem WellNamed.callable (hr : r.WellNamed) (hp : p ∈ r.predicates) (s : Setting)
    (args : List String) (h : Host) : r.Callable p s args h := by
  have hlist : parse (.strs (p.name :: args)) = .ok (.command p.name args false) :=
    hr.parse_words hp rfl
  have hline : parse (.str (Words.join (p.name :: args))) = .ok (.command p.name args false) :=
    hr.parse_words hp (itemsOf_join _)
  have hget : r.get? p.name = some p := hr.get?_eq_some_iff.2 ⟨hp, rfl⟩
  have hcalled : p.takes args.length = true → ∀ x h',
      p.run s args { h with calls := h.calls ++ [⟨p.name, args⟩], log := [] } = (x, h') →
      (evaluate r s (.strs (p.name :: args)) h).1 = x.mapError .predicate ∧
        (evaluate r s (.strs (p.name :: args)) h).2.unlogged = h'.unlogged := by
    intro htakes x h' hrun
    have hcall : Condition.call r s p.name args false h = _ := call_of_takes hget htakes
    rw [hrun] at hcall
    rw [evaluate_of_parse hlist, holds, bind_assoc, Host.run_bind, hcall]
    cases x with
    | error e => exact ⟨rfl, rfl⟩
    | ok b => cases b <;> exact ⟨rfl, rfl⟩
  refine ⟨?_, fun htakes => (hcalled htakes _ _ rfl).1, fun htakes => (hcalled htakes _ _ rfl).2,
    fun htakes => ⟨.wrongCount p.name p.arity args.length (Condition.text
      (.command p.name args false)), _, ?_, rfl, rfl⟩⟩
  · rw [evaluate_of_parse hline, evaluate_of_parse hlist]
  · have hcall : Condition.call r s p.name args false h = _ := call_of_wrongCount hget htakes
    rw [evaluate_of_parse hlist, holds, bind_assoc]
    exact Host.run_bind_of_error _ hcall

/-- The names of a registry in order, and what they are to its other listings. -/
structure Coherent (r : Registry) : Prop where
  increasing : r.names.Pairwise (· < ·)
  sorted : r.sorted.map (·.name) = r.names
  size : r.size = r.names.length
  has : ∀ name, r.has name = true ↔ name ∈ r.names
  get? : ∀ name p, r.get? name = some p ↔ p ∈ r.sorted ∧ p.name = name

theorem WellNamed.coherent (hr : r.WellNamed) : r.Coherent where
  increasing := hr.names_pairwise
  sorted := hr.map_name_sorted
  size := (length_names r).symm
  has _ := has_iff
  get? _ _ := by rw [hr.mem_sorted, hr.get?_eq_some_iff]

end Registry

namespace Operation

/-- Whatever is done with registries that are empty at first: each of them holds predicates under
different words, none of which is `and` or `or`, and lists them coherently; each of its predicates
can be called by name from a condition; an operation that is refused leaves all registries as they
were, any operation leaves those as they were that are not its own, and a predicate is registered
exactly if its name is such a word and not taken. -/
theorem registries_after (n : Nat) (ops : List Operation) :
    let rs := after ops (List.replicate n .empty)
    (∀ r ∈ rs, (r.predicates.map (·.name)).Nodup ∧ (∀ p ∈ r.predicates, Registry.CanName p.name) ∧
      r.Coherent ∧
      ∀ name p, r.get? name = some p → p.name = name ∧ ∀ s args h, r.Callable p s args h) ∧
    (∀ op : Operation, (∀ e rs', op.perform rs = (.error e, rs') → rs' = rs) ∧
      ∀ j r, op.target? ≠ some j → rs[j]? = some r → (op.perform rs).2[j]? = some r) ∧
    ∀ k r p, rs[k]? = some r → ((Registry.CanName p.name ∧ r.get? p.name = none) ↔
      ∃ r', (register k p).perform rs = (.ok (), rs.set k r') ∧ r'.get? p.name = some p) := by
  intro rs
  have hempty : ∀ r ∈ List.replicate n Registry.empty, r.WellNamed := by
    intro r hr
    rw [(List.mem_replicate.1 hr).2]
    exact Registry.wellNamed_empty
  refine ⟨fun r hr => ?_, fun op => ⟨fun e rs' => perform_of_error, fun j r => getElem?_perform⟩,
    fun k r p => perform_register_iff⟩
  have hwell : r.WellNamed := wellNamed_after ops hempty r hr
  refine ⟨hwell.distinct, fun p hp => Registry.canName_iff.2 ⟨hwell.free p hp, hwell.words p hp⟩,
    hwell.coherent, fun name p hget => ?_⟩
  obtain ⟨hp, hname⟩ := hwell.get?_eq_some_iff.1 hget
  exact ⟨hname, hwell.callable hp⟩

example :
    let yes : Predicate := ⟨"yes", 0, some 0, "Holds", fun _ _ => pure true⟩
    let no : Predicate := ⟨"no", 0, some 0, "Does not hold", fun _ _ => pure false⟩
    (after [.register 0 yes, .copy 0, .register 1 yes, .register 1 no, .clear 0]
      [.empty]).map Registry.size = [0, 2] := by decide +kernel

end Operation

end HostPrereqs
