import HostPrereqs.Proofs.Condition.Reach
import HostPrereqs.Proofs.Resolution.Validation
import Mathlib.Data.List.Forall2

/-!
# Resolution — what a resolution looks at

Of an entry whose condition does not hold, a resolution looks at the condition and at nothing else,
and it does not come to the entries behind one that it fails at.  `fates` says for a list of entries
what becomes of each of them, and `Fate.Allows` what may stand in its place.  `resolve_of_fates`
says that a list that differs only so far gives the same requirements or the same error, and leaves
the same host.

The step is `apply_of_skipped`, the run over a list of entries is `applyAll_of_fates`; the entries
that apply are merged when nothing looks at entries any more.  Where all entries are skipped, the
seed comes out (`resolve_of_skipped`).
-/

namespace HostPrereqs

/-- What becomes of an entry when a list of entries is gone through. -/
inductive Fate where
  /-- Its condition does not hold. -/
  | skipped
  /-- Its requirements are kept. -/
  | kept
  /-- It ends the resolution: by its error, or because it cannot be evaluated or read. -/
  | failed
  /-- An entry before it has ended the resolution. -/
  | unreached
deriving DecidableEq, Repr

/-- Which entries may stand in the place of an entry. -/
def Fate.Allows : Fate → Entry → Entry → Prop
  | skipped, e, e'                => e'.condition = e.condition
  | kept, e, e' | failed, e, e'   => e' = e
  | unreached, _, _               => True

namespace Resolver

variable {r : Resolver} {i : Nat} {e e' : Entry} {es es' : List Entry} {h : Host}

/-- What becomes of an entry that is come to on a host. -/
def fate (r : Resolver) (index : Nat) (e : Entry) (h : Host) : Fate :=
  match (r.evaluate (Entry.conditionValue e) h).1, (r.apply index e h).1 with
  | .ok false, _ => .skipped
  | _, .ok _     => .kept
  | _, .error _  => .failed

/-- The entries, of which the first has the number `index`, with what becomes of them. -/
def fates (r : Resolver) (index : Nat) : List Entry → Host → List (Entry × Fate)
  | [], _      => []
  | e :: es, h =>
      (e, r.fate index e h) ::
        if r.fate index e h = .failed then es.map (·, .unreached)
        else r.fates (index + 1) es (r.apply index e h).2

/-- A list of entries in which each entry may stand in the place of the one that is gone
through. -/
def Alternative (r : Resolver) (index : Nat) (es : List Entry) (h : Host) (es' : List Entry) :
    Prop :=
  List.Forall₂ (fun (p : Entry × Fate) e' => p.2.Allows p.1 e') (r.fates index es h) es'

/-! ### One entry -/

/-- An entry is skipped when its condition does not hold, whatever else it says. -/
theorem apply_of_not_holds {h' : Host}
    (hfalse : r.evaluate (Entry.conditionValue e) h = (.ok false, h')) :
    r.apply i e h = (.ok none, { h' with log := h'.log ++
      [⟨.debug, logger, "entry_skipped", [("entry_index", .int i)]⟩] }) := by
  have hadapted : ((r.evaluate (Entry.conditionValue e)).adapt ResolutionError.evaluation) h =
      (.ok false, h') := by
    rw [Host.run_adapt, hfalse]
    rfl
  unfold apply
  rw [Host.run_bind_of_ok _ hadapted]
  rfl

theorem fate_eq_skipped :
    r.fate i e h = .skipped ↔ (r.evaluate (Entry.conditionValue e) h).1 = .ok false := by
  unfold fate
  split <;> simp_all

theorem fate_eq_failed : r.fate i e h = .failed ↔ ∃ cause, (r.apply i e h).1 = .error cause := by
  unfold fate
  split
  · rename_i hfalse
    rw [apply_of_not_holds (Prod.ext hfalse rfl)]
    simp
  · simp_all
  · simp_all

theorem conditionValue_congr (h : e'.condition = e.condition) :
    Entry.conditionValue e' = Entry.conditionValue e := by
  rw [Entry.conditionValue, Entry.conditionValue, h]

/-- An entry that is skipped can be changed but for its condition. -/
theorem apply_of_skipped (hskipped : r.fate i e h = .skipped)
    (hcondition : e'.condition = e.condition) : r.apply i e' h = r.apply i e h := by
  have hfalse : r.evaluate (Entry.conditionValue e) h =
      (.ok false, (r.evaluate (Entry.conditionValue e) h).2) :=
    Prod.ext (fate_eq_skipped.1 hskipped) rfl
  have hfalse' : r.evaluate (Entry.conditionValue e') h =
      (.ok false, (r.evaluate (Entry.conditionValue e) h).2) := by
    rw [conditionValue_congr hcondition]
    exact hfalse
  rw [apply_of_not_holds hfalse, apply_of_not_holds hfalse']

/-- An entry that is come to gives the same as what may stand in its place. -/
theorem apply_of_allows (hallows : (r.fate i e h).Allows e e') :
    r.apply i e' h = r.apply i e h := by
  cases hfate : r.fate i e h with
  | skipped =>
      rw [hfate] at hallows
      exact apply_of_skipped hfate hallows
  | kept | failed =>
      rw [hfate] at hallows
      rw [show e' = e from hallows]
  | unreached =>
      unfold fate at hfate
      split at hfate <;> cases hfate

/-! ### Lists of entries -/

theorem applyAll_cons_of_error {cause : ResolutionError} {h' : Host}
    (hfirst : r.apply i e h = (.error cause, h')) :
    r.applyAll i (e :: es) h = (.error cause, h') := by
  rw [applyAll]
  exact Host.run_bind_of_error _ hfirst

/-- Going through entries gives the same as going through what may stand in their place. -/
theorem applyAll_of_fates (hes : r.Alternative i es h es') :
    r.applyAll i es' h = r.applyAll i es h := by
  induction es generalizing i h es' with
  | nil =>
      cases hes
      rfl
  | cons e es ih =>
      cases hes with
      | cons hfirst hrest =>
          have happly := apply_of_allows hfirst
          by_cases hfailed : r.fate i e h = .failed
          · -- nothing behind the entry is looked at
            obtain ⟨cause, hcause⟩ := fate_eq_failed.1 hfailed
            rw [applyAll_cons_of_error (Prod.ext hcause rfl),
              applyAll_cons_of_error (Prod.ext (happly ▸ hcause) rfl), happly]
          · rw [if_neg hfailed] at hrest
            rw [applyAll, applyAll, Host.run_bind, Host.run_bind, happly]
            cases hrun : r.apply i e h with
            | mk x h₁ =>
                rw [hrun] at hrest
                cases x with
                | error cause => rfl
                | ok fragment =>
                    dsimp only
                    rw [Host.run_bind, Host.run_bind, ih hrest]

/-- Entries that are all skipped give nothing. -/
theorem applyAll_of_skipped (hskipped : ∀ p ∈ r.fates i es h, p.2 = .skipped) :
    (r.applyAll i es h).1 = .ok [] := by
  induction es generalizing i h with
  | nil => rfl
  | cons e es ih =>
      obtain ⟨hfirst, hrest⟩ := List.forall_mem_cons.1 hskipped
      have hreached : r.fate i e h ≠ .failed := fun hfailed => by
        rw [show r.fate i e h = .skipped from hfirst] at hfailed
        cases hfailed
      have happly := apply_of_not_holds (i := i) (Prod.ext (fate_eq_skipped.1 hfirst) rfl)
      rw [if_neg hreached, happly] at hrest
      rw [applyAll, Host.run_bind_of_ok _ happly, Host.run_bind]
      have hnone := ih hrest
      generalize r.applyAll (i + 1) es _ = q at hnone ⊢
      obtain ⟨x, h'⟩ := q
      obtain rfl := hnone
      rfl

/-- A document of which no entry applies is resolved to the seed. -/
theorem resolve_of_skipped {d : Document} (hvalid : Entry.ofValues (d.expressions.map .entry) =
    .ok d.expressions) (hskipped : ∀ p ∈ r.fates 0 d.expressions h, p.2 = .skipped) :
    (r.resolve (.document d) .null h).1 = .ok r.seed := by
  have hnone := applyAll_of_skipped hskipped
  rw [resolve_of_ok rfl rfl hvalid, merge, Host.run_bind]
  generalize r.applyAll 0 d.expressions h = q at hnone ⊢
  obtain ⟨x, h'⟩ := q
  obtain rfl := hnone
  rfl

theorem merge_of_fates (seed : Requirements) (hes : r.Alternative 0 es h es') :
    r.merge seed es' h = r.merge seed es h := by
  rw [merge, merge, Host.run_bind, Host.run_bind, applyAll_of_fates hes]

/-- A list that differs from another only in entries that are skipped, but not in their
conditions, and in entries behind one that the resolution fails at, gives the same requirements or
the same error, and leaves the same host: the same predicates are called, the same input is read
and the same text is written. -/
theorem resolve_of_fates (r : Resolver) (seed : Value) {vs vs' : List Value}
    (hvs : Entry.ofValues vs = .ok es) (hvs' : Entry.ofValues vs' = .ok es')
    (hes : r.Alternative 0 es h es') :
    r.resolve (.data (.list vs')) seed h = r.resolve (.data (.list vs)) seed h := by
  cases hseed : r.seedOf seed with
  | error cause => rw [resolve_of_seedOf_error hseed, resolve_of_seedOf_error hseed]
  | ok s => rw [resolve_list_of_ok hseed hvs, resolve_list_of_ok hseed hvs', merge_of_fates s hes]

/-- A resolver with a predicate that holds and one that does not. -/
def decisive : Resolver :=
  ⟨⟨[Condition.fixed "yes" true, Condition.fixed "no" false]⟩, ⟨⟨[]⟩, none⟩, .empty⟩

/-- An entry with a message to end the resolution with. -/
def ending (condition : Phrase Value) (message : String) : Entry :=
  ⟨condition, none, "runtime", "requires", some message⟩

/-- A skipped entry that becomes one with requirements of no possible shape, and an unreached entry
that becomes one with a condition of no possible shape. -/
theorem resolve_of_fates_shapeless :
    let skipped := ending (.words [.str "no"]) "never"
    let shapeless : Entry := ⟨.words [.str "no"], some [("Foo", .list [])], "", "", none⟩
    let failed := ending (.words [.str "yes"]) "halt"
    let unreached : Entry := ⟨.words [.str "yes"], some [], "runtime", "requires", none⟩
    let unreadable := ending (.text "'") "never"
    let vs : List Value := [.entry skipped, .entry failed, .entry unreached]
    let vs' : List Value := [.entry shapeless, .entry failed, .entry unreadable]
    Entry.ofValues vs = .ok [skipped, failed, unreached] ∧
      Entry.ofValues vs' = .ok [shapeless, failed, unreadable] ∧
      decisive.Alternative 0 [skipped, failed, unreached] .bare [shapeless, failed, unreadable] ∧
      decisive.resolve (.data (.list vs')) .null .bare =
        decisive.resolve (.data (.list vs)) .null .bare := by
  intro skipped shapeless failed unreached unreadable vs vs'
  have hno : Condition.parse (.list [.str "no"]) = .ok (.command "no" [] false) := by
    rw [Condition.parse_of_itemsOf rfl]
    rfl
  have hyes : Condition.parse (.list [.str "yes"]) = .ok (.command "yes" [] false) := by
    rw [Condition.parse_of_itemsOf rfl]
    rfl
  have hskipped : decisive.fate 0 skipped .bare = .skipped := by
    have hcondition : Entry.conditionValue skipped = .list [.str "no"] := rfl
    rw [fate_eq_skipped, hcondition, evaluate, Condition.evaluate_of_parse hno]
    rfl
  -- the second entry fails on whatever host it is come to, so the third one never counts
  have hfailed : ∀ h, decisive.fate 1 failed h = .failed := by
    intro h
    have hcondition : Entry.conditionValue failed = .list [.str "yes"] := rfl
    refine fate_eq_failed.2 ⟨.refused "halt", ?_⟩
    unfold apply
    rw [hcondition, evaluate, Condition.evaluate_of_parse hyes]
    rfl
  have hvs : Entry.ofValues vs = .ok [skipped, failed, unreached] := rfl
  have hvs' : Entry.ofValues vs' = .ok [shapeless, failed, unreadable] := rfl
  have hes : decisive.Alternative 0 [skipped, failed, unreached] .bare
      [shapeless, failed, unreadable] := by
    rw [Alternative, fates, hskipped, if_neg (by decide), fates, hfailed, if_pos rfl]
    exact .cons rfl (.cons rfl (.cons trivial .nil))
  exact ⟨hvs, hvs', hes, resolve_of_fates decisive .null hvs hvs' hes⟩

end Resolver

end HostPrereqs
