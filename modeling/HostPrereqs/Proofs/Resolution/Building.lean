import HostPrereqs.Proofs.Requirements.Turns
import HostPrereqs.Proofs.Resolution.Staging

/-!
# Resolution — the requirements that can be built

Requirements are read from data, read from a fragment, merged from others, or come out of a
resolution (`Requirements.Built`).  However they are built, they are tidy (`Built.tidy`); so they
can be shown as data and read back, and merging them fails at nothing but a contradiction between
two ranges of one module (`Built.rebuilds`).  Nor does it matter whether they are merged at once or
in turn (`Built.merges_in_turn`).
-/

namespace HostPrereqs

namespace Resolver

variable {r : Resolver} {s seed : Requirements} {h h' : Host}

theorem tidy_of_merge (hseed : seed.Tidy) {es : List Entry}
    (hmerge : r.merge seed es h = (.ok s, h')) : s.Tidy := by
  obtain ⟨fragments, hall, hmerged⟩ := (merge_eq_ok hseed.valid).1 hmerge
  exact hseed.merge (tidy_of_applyAll hall) hmerged

theorem tidy_of_seedOf (hseed : r.seed.Tidy) {v : Value} (hs : r.seedOf v = .ok s) : s.Tidy := by
  unfold seedOf at hs
  split at hs
  · exact Except.ok.inj hs ▸ hseed
  · exact Requirements.tidy_ofValue (Result.mapError_eq_ok.1 hs)

/-- A resolution over a tidy seed gives tidy requirements. -/
theorem tidy_of_resolve (hseed : r.seed.Tidy) {expressions : Expressions} {v : Value}
    (hresolve : r.resolve expressions v h = (.ok s, h')) : s.Tidy := by
  obtain ⟨start, h₁, hstart, hrest⟩ := Host.run_bind_eq_ok.1 hresolve
  obtain ⟨elements, h₂, -, hrest⟩ := Host.run_bind_eq_ok.1 hrest
  obtain ⟨entries, h₃, -, hmerge⟩ := Host.run_bind_eq_ok.1 hrest
  exact tidy_of_merge (tidy_of_seedOf hseed (Host.run_ofExcept_eq_ok.1 hstart).1) hmerge

end Resolver

namespace Requirements

variable {r : Requirements}

/-- Requirements that can be built. -/
inductive Built : Requirements → Prop where
  | ofValue {v : Value} {r : Requirements} (h : ofValue v = .ok r) : Built r
  | ofFragment {v : Value} {phase relation : String} {r : Requirements}
      (h : ofFragment v phase relation = .ok r) : Built r
  | merge {r r' : Requirements} {others : List Requirements} (hr : Built r)
      (hothers : ∀ b ∈ others, Built b) (h : r.merge others = .ok r') : Built r'
  | resolve {resolver : Resolver} {expressions : Expressions} {seed : Value} {r : Requirements}
      {host host' : Host} (hseed : Built resolver.seed)
      (h : resolver.resolve expressions seed host = (.ok r, host')) : Built r

theorem Built.tidy (h : Built r) : r.Tidy := by
  induction h with
  | ofValue h => exact tidy_ofValue h
  | ofFragment h => exact tidy_ofFragment h
  | merge _ _ h hr hothers => exact hr.merge hothers h
  | resolve _ h hseed => exact Resolver.tidy_of_resolve hseed h

/-- Requirements that are built keep ranges that can be read and have no blanks around them, and
are rebuilt as they were from what they are shown as.  So is what comes out of adding all items of
others to them, and merging those others fails only where an item clashes with the range that its
module has by then. -/
theorem Built.rebuilds (h : Built r) :
    (∀ item ∈ r.items, Text.strip item.range = item.range ∧
        ∃ range, Range.parse item.range = .ok range) ∧
      Requirements.ofValue r.toValue = .ok r ∧ r.same r = true ∧
      ∀ others : List Requirements, (∀ b ∈ others, Built b) →
        (∀ merged, others.foldlM (fun r other => other.items.foldlM add r) r = .ok merged →
          Requirements.ofValue merged.toValue = .ok merged ∧ r.merge others = .ok merged) ∧
        ∀ e, r.merge others = .error e ↔ ∃ before item after merged,
          others.flatMap items = before ++ item :: after ∧ before.foldlM add r = .ok merged ∧
            merged.Clashes item e := by
  have htidy := h.tidy
  refine ⟨fun item hitem => ?_, htidy.ofValue_toValue, htidy.same_self, fun others hothers => ?_⟩
  · have hkept := htidy.kept hitem
    exact ⟨hkept.stripped, hkept.readable⟩
  · have hvalid : ∀ b ∈ others, b.Valid := fun b hb => (hothers b hb).tidy.valid
    refine ⟨fun merged hadd => ?_, fun e => merge_eq_error htidy.valid hvalid⟩
    rw [foldlM_items] at hadd
    have hmerge := (merge_eq_ok htidy.valid hvalid).2 hadd
    have hmerged := htidy.merge (fun b hb => (hothers b hb).tidy) hmerge
    exact ⟨hmerged.ofValue_toValue, hmerge⟩

/-- Data with a number, a range between blanks, and a relation that lists nothing. -/
def mixedData : Value :=
  .record [("runtime", .record [("requires", .record [("Foo", .str " 1.0 "), ("Bar", .int 2)]),
    ("suggests", .map [])]), ("test", .map [])]

/-- The requirements that are read from them. -/
def mixedRequirements : Requirements :=
  ⟨[("runtime", [("requires", [("Foo", "1.0"), ("Bar", "2")]), ("suggests", [])])]⟩

theorem Built.rebuilds_mixedData : Built mixedRequirements ∧
    Requirements.ofValue mixedRequirements.toValue = .ok mixedRequirements ∧
    mixedRequirements.merge [single fooSlot "< 2.0"] =
      .ok ⟨[("runtime", [("requires", [("Foo", ">= 1.0, < 2.0"), ("Bar", "2")]),
        ("suggests", [])])]⟩ ∧
    ∃ before item after merged, [single fooSlot "< 1.0"].flatMap items = before ++ item :: after ∧
      before.foldlM add mixedRequirements = .ok merged ∧
      ∃ e, merged.Clashes item e := by
  have hread : Requirements.ofValue mixedData = .ok mixedRequirements :=
    Result.toOption_eq_some.1 (by decide +kernel)
  have hbuilt := Built.ofValue hread
  obtain ⟨-, hrebuilt, -, hmerge⟩ := hbuilt.rebuilds
  have hfragment : ∀ text,
      Requirements.ofFragment (.record [("Foo", .str text)]) "runtime" "requires" =
        .ok (single fooSlot text) → ∀ b ∈ [single fooSlot text], Built b :=
    fun text h => List.forall_mem_singleton.2 (.ofFragment h)
  have hbelow := (hmerge _ (hfragment "< 2.0" (Result.toOption_eq_some.1 (by decide +kernel)))).1
  have hclash := (hmerge _ (hfragment "< 1.0" (Result.toOption_eq_some.1 (by decide +kernel)))).2
  refine ⟨hbuilt, hrebuilt, (hbelow _ (Result.toOption_eq_some.1 (by decide +kernel))).2, ?_⟩
  cases hmerged : mixedRequirements.merge [single fooSlot "< 1.0"] with
  | ok merged =>
      have hnone : (mixedRequirements.merge [single fooSlot "< 1.0"]).toOption = none := by
        decide +kernel
      rw [hmerged] at hnone
      cases hnone
  | error e =>
      obtain ⟨before, item, after, merged, hsplit, hbefore, hclashes⟩ := (hclash e).1 hmerged
      exact ⟨before, item, after, merged, hsplit, hbefore, e, hclashes⟩

/-! ### Merging in turn -/

variable {a : Requirements} {bs : List Requirements}

/-- Merging many requirements at once comes to the same as merging them one after the other, in
what is made and in how it fails, also when what is made is read back from data after every step.
What is made combines all of them. -/
theorem Built.merges_in_turn (ha : Built a) (hbs : ∀ b ∈ bs, Built b) :
    bs.foldlM (fun r b => r.merge [b]) a = a.merge bs ∧
      a.mergeAsData bs = (a.merge bs).mapError .badRange ∧
      bs.foldlM (fun r b => r.mergeAsData [b]) a = a.mergeAsData bs ∧
      ∀ r, a.merge bs = .ok r → Combines a bs r := by
  have htidy : ∀ b ∈ a :: bs, b.Tidy :=
    List.forall_mem_cons.2 ⟨ha.tidy, fun b hb => (hbs b hb).tidy⟩
  have hvalid : ∀ b ∈ a :: bs, b.Valid := fun b hb => (htidy b hb).valid
  have hdata := ha.tidy.mergeAsData_eq fun b hb => (hbs b hb).tidy
  exact ⟨foldlM_merge hvalid, hdata, (foldlM_mergeAsData htidy).trans hdata.symm,
    fun r hr => combines_of_merge hvalid hr⟩

/-- Requirements with a phase that has only an empty relation, and another empty relation. -/
def sparseRequirements : Requirements :=
  ⟨[("test", [("requires", [])]), ("runtime", [("suggests", [("Baz", "1.0")]), ("conflicts", [])])]⟩

theorem Built.merges_in_turn_sparse :
    (Built mixedRequirements ∧ ∀ b ∈ [single fooSlot "< 2.0", sparseRequirements], Built b) ∧
      [single fooSlot "< 2.0", sparseRequirements].foldlM (fun r b => r.merge [b])
          mixedRequirements =
        .ok ⟨[("runtime", [("requires", [("Foo", ">= 1.0, < 2.0"), ("Bar", "2")]),
          ("suggests", [("Baz", "1.0")])])]⟩ ∧
      Combines mixedRequirements [single fooSlot "< 2.0", sparseRequirements]
        ⟨[("runtime", [("requires", [("Foo", ">= 1.0, < 2.0"), ("Bar", "2")]),
          ("suggests", [("Baz", "1.0")])])]⟩ := by
  have ha : Built mixedRequirements :=
    .ofValue (v := mixedData) (Result.toOption_eq_some.1 (by decide +kernel))
  have hbs : ∀ b ∈ [single fooSlot "< 2.0", sparseRequirements], Built b := by
    refine List.forall_mem_cons.2 ⟨.ofValue (v := (single fooSlot "< 2.0").toValue) ?_,
      List.forall_mem_singleton.2 (.ofValue (v := sparseRequirements.toValue) ?_)⟩
    · exact Result.toOption_eq_some.1 (by decide +kernel)
    · exact Result.toOption_eq_some.1 (by decide +kernel)
  have hmerge : mixedRequirements.merge [single fooSlot "< 2.0", sparseRequirements] =
      .ok ⟨[("runtime", [("requires", [("Foo", ">= 1.0, < 2.0"), ("Bar", "2")]),
        ("suggests", [("Baz", "1.0")])])]⟩ := Result.toOption_eq_some.1 (by decide +kernel)
  obtain ⟨hturn, -, -, hcombines⟩ := ha.merges_in_turn hbs
  exact ⟨⟨ha, hbs⟩, hturn.trans hmerge, hcombines _ hmerge⟩

end Requirements

end HostPrereqs
