import HostPrereqs.Proofs.Condition.Evaluation
import HostPrereqs.Proofs.Requirements.Merging
import HostPrereqs.Proofs.Resolution.Validation

/-!
# Resolution — resolving in stages

Entries can be resolved all at once, or first some of them and then the others over what came out,
on the host as it is then.  `resolve_append` says that both succeed under the same conditions, and
that requirements and host are then the same, up to the log.

The entries of the second stage have other numbers, which only errors and reports show
(`similar_applyAll`), and merging in stages is merging at once (`merge_append_eq_ok`).
-/

namespace HostPrereqs

namespace Resolver

open Host (Similar)

variable {r : Resolver}

/-! ### Going through entries -/

theorem fragmentOf_eq_ok_iff {i : Nat} {e : Entry} {fragment : Requirements} :
    fragmentOf i e = .ok fragment ↔
      (Requirements.ofFragment (.record (e.prereqs.getD [])) e.phase e.relation).toOption =
        some fragment := by
  rw [fragmentOf, Result.mapError_eq_ok, Result.toOption_eq_some]

theorem toOption_fragmentOf (i j : Nat) (e : Entry) :
    (fragmentOf i e).toOption = (fragmentOf j e).toOption := by
  unfold fragmentOf
  cases Requirements.ofFragment (.record (e.prereqs.getD [])) e.phase e.relation <;> rfl

theorem similar_apply (r : Resolver) (i j : Nat) (e : Entry) :
    Similar (r.apply i e) (r.apply j e) := by
  unfold apply
  refine .bind ((Condition.similar_evaluate _ _ _).adapt _ _) fun b => ?_
  cases b with
  | false => exact .bind (.report _ _) fun _ => .pure _
  | true =>
      cases e.fatal? with
      | some message => exact .bind (.report _ _) fun _ => .throw _ _
      | none =>
          refine .bind (.ofExcept (toOption_fragmentOf i j e)) fun fragment => ?_
          exact .bind (.forM_report _) fun _ => .bind (.report _ _) fun _ => .pure _

theorem similar_applyAll (r : Resolver) (i j : Nat) (es : List Entry) :
    Similar (r.applyAll i es) (r.applyAll j es) := by
  induction es generalizing i j with
  | nil => exact .pure _
  | cons e es ih =>
      exact .bind (similar_apply r i j e) fun _ => .bind (ih _ _) fun _ => .pure _

theorem applyAll_cons_eq_ok {i : Nat} {e : Entry} {es : List Entry} {h h' : Host}
    {fragments : List Requirements} : r.applyAll i (e :: es) h = (.ok fragments, h') ↔
      ∃ fragment h₁ rest, r.apply i e h = (.ok fragment, h₁) ∧
        r.applyAll (i + 1) es h₁ = (.ok rest, h') ∧ fragment.toList ++ rest = fragments := by
  rw [applyAll, Host.run_bind_eq_ok]
  simp only [Host.run_bind_eq_ok]
  constructor
  · rintro ⟨fragment, h₁, hfirst, rest, h₂, hrest, heq⟩
    cases heq
    exact ⟨fragment, h₁, rest, hfirst, hrest, rfl⟩
  · rintro ⟨fragment, h₁, rest, hfirst, hrest, rfl⟩
    exact ⟨fragment, h₁, hfirst, rest, h', hrest, rfl⟩

theorem applyAll_append_eq_ok {i : Nat} {es fs : List Entry} {h h' : Host}
    {fragments : List Requirements} : r.applyAll i (es ++ fs) h = (.ok fragments, h') ↔
      ∃ a h₁ b, r.applyAll i es h = (.ok a, h₁) ∧
        r.applyAll (i + es.length) fs h₁ = (.ok b, h') ∧ a ++ b = fragments := by
  induction es generalizing i h fragments with
  | nil =>
      constructor
      · exact fun hall => ⟨[], h, fragments, rfl, hall, rfl⟩
      · rintro ⟨a, h₁, b, hnil, hall, rfl⟩
        cases hnil
        exact hall
  | cons e es ih =>
      have hindex : i + (e :: es).length = i + 1 + es.length := by
        rw [List.length_cons]
        omega
      rw [List.cons_append, applyAll_cons_eq_ok, hindex]
      constructor
      · rintro ⟨fragment, h₁, rest, hfirst, hrest, rfl⟩
        obtain ⟨a, h₂, b, ha, hb, rfl⟩ := ih.1 hrest
        refine ⟨fragment.toList ++ a, h₂, b, ?_, hb, by rw [List.append_assoc]⟩
        exact applyAll_cons_eq_ok.2 ⟨fragment, h₁, a, hfirst, ha, rfl⟩
      · rintro ⟨a, h₂, b, ha, hb, rfl⟩
        obtain ⟨fragment, h₁, rest, hfirst, hrest, rfl⟩ := applyAll_cons_eq_ok.1 ha
        exact ⟨fragment, h₁, rest ++ b, hfirst, ih.2 ⟨rest, h₂, b, hrest, hb, rfl⟩,
          by rw [List.append_assoc]⟩

/-- What an entry is applied for is its own fragment. -/
theorem fragmentOf_of_apply {i : Nat} {e : Entry} {h h' : Host} {fragment : Requirements}
    (happly : r.apply i e h = (.ok (some fragment), h')) : fragmentOf i e = .ok fragment := by
  unfold apply at happly
  obtain ⟨b, h₁, -, hrest⟩ := Host.run_bind_eq_ok.1 happly
  cases b with
  | false => cases hrest
  | true =>
      cases hfatal : e.fatal? with
      | some message =>
          rw [hfatal] at hrest
          cases hrest
      | none =>
          rw [hfatal] at hrest
          obtain ⟨fragment', h₂, hfragment, hrest⟩ := Host.run_bind_eq_ok.1 hrest
          obtain ⟨-, h₃, -, hrest⟩ := Host.run_bind_eq_ok.1 hrest
          cases hrest
          exact (Host.run_ofExcept_eq_ok.1 hfragment).1

theorem tidy_of_fragmentOf {i : Nat} {e : Entry} {fragment : Requirements}
    (h : fragmentOf i e = .ok fragment) : fragment.Tidy :=
  Requirements.tidy_ofFragment (Result.toOption_eq_some.1 (fragmentOf_eq_ok_iff.1 h))

theorem tidy_of_applyAll {i : Nat} {es : List Entry} {h h' : Host}
    {fragments : List Requirements} (hall : r.applyAll i es h = (.ok fragments, h')) :
    ∀ f ∈ fragments, f.Tidy := by
  induction es generalizing i h fragments with
  | nil =>
      cases hall
      exact fun f hf => absurd hf List.not_mem_nil
  | cons e es ih =>
      obtain ⟨fragment, h₁, rest, hfirst, hrest, rfl⟩ := applyAll_cons_eq_ok.1 hall
      intro f hf
      rcases List.mem_append.1 hf with hf | hf
      · obtain rfl := Option.mem_toList.1 hf
        exact tidy_of_fragmentOf (fragmentOf_of_apply hfirst)
      · exact ih hrest f hf

theorem valid_of_applyAll {i : Nat} {es : List Entry} {h h' : Host}
    {fragments : List Requirements} (hall : r.applyAll i es h = (.ok fragments, h')) :
    ∀ f ∈ fragments, f.Valid :=
  fun f hf => (tidy_of_applyAll hall f hf).valid

/-! ### Resolving lists -/

/-- Merging entries into a seed goes through them, and merges the fragments of those that apply. -/
theorem merge_eq_ok {seed s : Requirements} (hseed : seed.Valid) {es : List Entry} {h h' : Host} :
    r.merge seed es h = (.ok s, h') ↔
      ∃ fragments, r.applyAll 0 es h = (.ok fragments, h') ∧ seed.merge fragments = .ok s := by
  have hnothing : seed.merge [] = .ok seed :=
    (Requirements.merge_eq_ok hseed fun _ hb => absurd hb List.not_mem_nil).2 rfl
  rw [merge, Host.run_bind_eq_ok]
  constructor
  · rintro ⟨fragments, h₁, hall, hmerge⟩
    refine ⟨fragments, ?_⟩
    -- where no entry applies, nothing is merged
    cases fragments with
    | nil =>
        cases hmerge
        exact ⟨hall, hnothing⟩
    | cons f fs =>
        obtain ⟨hok, rfl⟩ := Host.run_ofExcept_eq_ok.1 hmerge
        exact ⟨hall, Result.mapError_eq_ok.1 hok⟩
  · rintro ⟨fragments, hall, hmerge⟩
    refine ⟨fragments, h', hall, ?_⟩
    cases fragments with
    | nil =>
        rw [hnothing] at hmerge
        cases hmerge
        rfl
    | cons f fs => exact Host.run_ofExcept_eq_ok.2 ⟨Result.mapError_eq_ok.2 hmerge, rfl⟩

/-- Resolving a list over the resolver's own seed reads the entries, goes through them, and merges
the fragments. -/
theorem resolve_list_eq_ok (hseed : r.seed.Valid) {vs : List Value} {h h' : Host}
    {s : Requirements} : r.resolve (.data (.list vs)) .null h = (.ok s, h') ↔
      ∃ es fragments, Entry.ofValues vs = .ok es ∧ r.applyAll 0 es h = (.ok fragments, h') ∧
        r.seed.merge fragments = .ok s := by
  have hown : r.seedOf .null = .ok r.seed := rfl
  constructor
  · intro hok
    cases hes : Entry.ofValues vs with
    | error fault =>
        rw [resolve_list_of_error hown hes] at hok
        cases hok
    | ok es =>
        rw [resolve_list_of_ok hown hes] at hok
        obtain ⟨fragments, hall, hs⟩ := (merge_eq_ok hseed).1 hok
        exact ⟨es, fragments, rfl, hall, hs⟩
  · rintro ⟨es, fragments, hes, hall, hs⟩
    rw [resolve_list_of_ok hown hes]
    exact (merge_eq_ok hseed).2 ⟨fragments, hall, hs⟩

theorem applyAll_seed (s : Requirements) (i : Nat) (es : List Entry) :
    ({ r with seed := s } : Resolver).applyAll i es = r.applyAll i es := by
  induction es generalizing i with
  | nil => rfl
  | cons e es ih =>
      rw [applyAll, applyAll]
      simp only [ih]
      rfl

/-- What is resolved at once is resolved in stages. -/
theorem stages_of_resolve (hseed : r.seed.Valid) {xs ys : List Value} {h h' : Host}
    {s : Requirements} (honce : r.resolve (.data (.list (xs ++ ys))) .null h = (.ok s, h')) :
    ∃ s₁ h₁ h₂, r.resolve (.data (.list xs)) .null h = (.ok s₁, h₁) ∧
      ({ r with seed := s₁ } : Resolver).resolve (.data (.list ys)) .null h₁ = (.ok s, h₂) ∧
      h'.unlogged = h₂.unlogged := by
  obtain ⟨es, fragments, hes, hall, hmerge⟩ := (resolve_list_eq_ok hseed).1 honce
  obtain ⟨es₁, es₂, hes₁, hes₂, rfl⟩ := Entry.ofValues_append_eq_ok.1 hes
  obtain ⟨a, h₁, b, ha, hb, rfl⟩ := applyAll_append_eq_ok.1 hall
  have hvalid := valid_of_applyAll ha
  obtain ⟨s₁, hs₁, hs⟩ :=
    (Requirements.merge_append_eq_ok hseed hvalid (valid_of_applyAll hb)).1 hmerge
  -- the second stage numbers its entries from zero
  obtain ⟨h₂, hb₂, hlog⟩ := (similar_applyAll r _ 0 es₂).of_ok rfl hb
  refine ⟨s₁, h₁, h₂, (resolve_list_eq_ok hseed).2 ⟨es₁, a, hes₁, ha, hs₁⟩, ?_, hlog⟩
  refine (resolve_list_eq_ok (hseed.merge hvalid hs₁)).2 ⟨es₂, b, hes₂, ?_, hs⟩
  rw [applyAll_seed]
  exact hb₂

/-- What is resolved in stages is resolved at once. -/
theorem resolve_of_stages (hseed : r.seed.Valid) {xs ys : List Value} {h h₁ h₂ : Host}
    {s₁ s₂ : Requirements} (hfirst : r.resolve (.data (.list xs)) .null h = (.ok s₁, h₁))
    (hsecond : ({ r with seed := s₁ } : Resolver).resolve (.data (.list ys)) .null h₁ =
      (.ok s₂, h₂)) :
    ∃ h', r.resolve (.data (.list (xs ++ ys))) .null h = (.ok s₂, h') ∧
      h'.unlogged = h₂.unlogged := by
  obtain ⟨es₁, a, hes₁, ha, hs₁⟩ := (resolve_list_eq_ok hseed).1 hfirst
  have hvalid := valid_of_applyAll ha
  obtain ⟨es₂, b, hes₂, hb, hs⟩ := (resolve_list_eq_ok (hseed.merge hvalid hs₁)).1 hsecond
  rw [applyAll_seed] at hb
  obtain ⟨h', hb', hlog⟩ := (similar_applyAll r 0 (0 + es₁.length) es₂).of_ok rfl hb
  refine ⟨h', (resolve_list_eq_ok hseed).2 ⟨es₁ ++ es₂, a ++ b, ?_, ?_, ?_⟩, hlog.symm⟩
  · exact Entry.ofValues_append_eq_ok.2 ⟨es₁, es₂, hes₁, hes₂, rfl⟩
  · exact applyAll_append_eq_ok.2 ⟨a, h₁, b, ha, hb', rfl⟩
  · exact (Requirements.merge_append_eq_ok hseed hvalid (valid_of_applyAll hb)).2 ⟨s₁, hs₁, hs⟩

/-- Resolving in stages is resolving at once: it succeeds when and only when that does, and then
gives the same requirements and the same host up to the log. -/
theorem resolve_append (hseed : r.seed.Valid) (xs ys : List Value) (h : Host) :
    ((∃ s h', r.resolve (.data (.list (xs ++ ys))) .null h = (.ok s, h')) ↔
      ∃ s₁ h₁ s₂ h₂, r.resolve (.data (.list xs)) .null h = (.ok s₁, h₁) ∧
        ({ r with seed := s₁ } : Resolver).resolve (.data (.list ys)) .null h₁ = (.ok s₂, h₂)) ∧
    ∀ s h' s₁ h₁ s₂ h₂, r.resolve (.data (.list (xs ++ ys))) .null h = (.ok s, h') →
      r.resolve (.data (.list xs)) .null h = (.ok s₁, h₁) →
      ({ r with seed := s₁ } : Resolver).resolve (.data (.list ys)) .null h₁ = (.ok s₂, h₂) →
      s = s₂ ∧ h'.unlogged = h₂.unlogged ∧ h'.calls = h₂.calls ∧ h'.input = h₂.input ∧
        h'.written = h₂.written := by
  constructor
  · constructor
    · rintro ⟨s, h', honce⟩
      obtain ⟨s₁, h₁, h₂, hfirst, hsecond, -⟩ := stages_of_resolve hseed honce
      exact ⟨s₁, h₁, s, h₂, hfirst, hsecond⟩
    · rintro ⟨s₁, h₁, s₂, h₂, hfirst, hsecond⟩
      obtain ⟨h', honce, -⟩ := resolve_of_stages hseed hfirst hsecond
      exact ⟨s₂, h', honce⟩
  · intro s h' s₁ h₁ s₂ h₂ honce hfirst hsecond
    obtain ⟨h'', hagain, hlog⟩ := resolve_of_stages hseed hfirst hsecond
    rw [honce] at hagain
    cases hagain
    have hcalls := congrArg Host.calls hlog
    have hinput := congrArg Host.input hlog
    have hwritten := congrArg Host.written hlog
    exact ⟨rfl, hlog, hcalls, hinput, hwritten⟩

/-- A resolver over one requirement, with a single predicate, which holds. -/
def agreeable : Resolver where
  registry := ⟨[⟨"yes", 0, some 0, "Holds", fun _ _ => pure true⟩]⟩
  setting := ⟨⟨[]⟩, none⟩
  seed := .single Requirements.fooSlot "1.0"

/-- An entry that applies and requires `Foo` in a range. -/
def requiring (range : String) : Entry :=
  ⟨.words [.str "yes"], some [("Foo", .str range)], "runtime", "requires", none⟩

theorem parse_yes : Condition.parse (.list [.str "yes"]) = .ok (.command "yes" [] false) := by
  rw [Condition.parse]
  · rfl
  · intro c h
    cases h

theorem apply_requiring {i : Nat} {range : String} {f : Requirements}
    (hfragment : fragmentOf i (requiring range) = .ok f) (hknown : f.unknownNames = []) (h : Host) :
    ∃ h', agreeable.apply i (requiring range) h = (.ok (some f), h') := by
  have hholds : ∃ h₁, ((agreeable.evaluate (.list [.str "yes"])).adapt
      ResolutionError.evaluation) h = (.ok true, h₁) := by
    unfold evaluate Condition.evaluate
    rw [parse_yes]
    exact ⟨_, rfl⟩
  obtain ⟨h₁, hholds⟩ := hholds
  have hcondition : Entry.conditionValue (requiring range) = .list [.str "yes"] := rfl
  unfold apply
  rw [hcondition, hfragment, Host.run_bind, hholds]
  change ∃ h', (do
    let fragment ← (pure f : Resolution Requirements)
    fragment.unknownNames.forM fun w => (liftM (Host.report w) : Resolution Unit)
    liftM (Host.report (matched i (requiring range) fragment))
    return some fragment : Resolution (Option Requirements)) h₁ = _
  rw [pure_bind, hknown]
  exact ⟨_, rfl⟩

theorem resolve_append_requiring :
    agreeable.seed.Valid ∧ ∃ s₁ h₁ s₂ h₂,
      agreeable.resolve (.data (.list [.entry (requiring "< 2.0")])) .null .bare = (.ok s₁, h₁) ∧
      ({ agreeable with seed := s₁ } : Resolver).resolve
        (.data (.list [.entry (requiring "!= 1.5")])) .null h₁ = (.ok s₂, h₂) := by
  have hseed : agreeable.seed.Valid := Requirements.valid_single _ ⟨_, rfl⟩
  refine ⟨hseed, (resolve_append hseed _ _ _).1.1 ?_⟩
  have hbelow : fragmentOf 0 (requiring "< 2.0") = .ok (.single Requirements.fooSlot "< 2.0") :=
    fragmentOf_eq_ok_iff.2 (by decide +kernel)
  have hexcept : fragmentOf 1 (requiring "!= 1.5") =
      .ok (.single Requirements.fooSlot "!= 1.5") :=
    fragmentOf_eq_ok_iff.2 (by decide +kernel)
  obtain ⟨h₁, hfirst⟩ := apply_requiring hbelow rfl .bare
  obtain ⟨h₂, hsecond⟩ := apply_requiring hexcept rfl h₁
  refine ⟨.single Requirements.fooSlot ">= 1.0, < 2.0, != 1.5", h₂, ?_⟩
  refine (resolve_list_eq_ok hseed).2 ⟨_, _, rfl, applyAll_cons_eq_ok.2 ⟨_, _, _, hfirst,
    applyAll_cons_eq_ok.2 ⟨_, _, _, hsecond, rfl, rfl⟩, rfl⟩, ?_⟩
  exact Result.toOption_eq_some.1 (by decide +kernel)

end Resolver

end HostPrereqs
