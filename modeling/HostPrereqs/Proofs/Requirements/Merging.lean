import HostPrereqs.Proofs.Requirements.Gathering

/-!
# Requirements — merging

Merging adds all items in turn; since what comes out can be read (`check_eq_ok`), merging is no
more than that.  Every slot then has the ranges of all the merged requirements gathered
(`merge_at?`), and merging succeeds when gathering does for every slot (`exists_merge_iff`).

* `accepts_merge_iff`: a merged range lets in exactly the final versions that all the ranges of
  its module let in.
* `merge_append`: merging in stages is merging at once.
-/

namespace HostPrereqs

namespace Requirements

open Range

variable {r r' a : Requirements} {bs others : List Requirements} {s : Slot} {u : String}

/-! ### Merging is adding -/

theorem forM_parse_eq_ok {items : List Requirement} (h : ∀ item ∈ items, Readable item.range) :
    items.forM (fun item => do let _ ← Range.parse item.range) = .ok ⟨⟩ := by
  induction items with
  | nil => rfl
  | cons item items ih =>
      obtain ⟨range, hrange⟩ := h item List.mem_cons_self
      simp only [List.forM, hrange]
      exact ih fun i hi => h i (List.mem_cons_of_mem item hi)

/-- Valid requirements pass the check, which leaves them as they are. -/
theorem check_eq_ok (h : r.Valid) : r.check = .ok r := by
  rw [check, forM_parse_eq_ok fun _ hitem => h.readable hitem]
  rfl

theorem foldlM_items (others : List Requirements) (r : Requirements) :
    others.foldlM (fun r other => other.items.foldlM add r) r =
      (others.flatMap items).foldlM add r := by
  induction others generalizing r with
  | nil => rfl
  | cons other others ih =>
      rw [List.flatMap_cons, List.foldlM_append, List.foldlM_cons]
      exact congrArg _ (funext ih)

theorem readable_of_mem_flatMap (h : ∀ b ∈ others, b.Valid) :
    ∀ item ∈ others.flatMap items, Readable item.range := by
  intro item hitem
  obtain ⟨b, hb, hitem⟩ := List.mem_flatMap.1 hitem
  have hrange := (h b hb).readable hitem
  exact hrange

/-- Additions keep all ranges readable, so the check after them finds nothing. -/
theorem merge_eq (h : r.Valid) (hothers : ∀ b ∈ others, b.Valid) :
    r.merge others = (others.flatMap items).foldlM add r := by
  rw [merge, foldlM_items]
  cases hadd : (others.flatMap items).foldlM add r with
  | error e => rfl
  | ok merged => exact check_eq_ok (h.foldlM_add (readable_of_mem_flatMap hothers) hadd)

/-- Merging valid requirements is adding all their items in turn. -/
theorem merge_eq_ok (h : r.Valid) (hothers : ∀ b ∈ others, b.Valid) :
    r.merge others = .ok r' ↔ (others.flatMap items).foldlM add r = .ok r' := by
  rw [merge_eq h hothers]

/-- What comes of merging valid requirements is valid. -/
theorem Valid.merge (h : r.Valid) (hothers : ∀ b ∈ others, b.Valid)
    (hr' : r.merge others = .ok r') : r'.Valid :=
  h.foldlM_add (readable_of_mem_flatMap hothers) ((merge_eq_ok h hothers).1 hr')

/-- Merging in stages is merging at once. -/
theorem merge_append (h : r.Valid) (hbs : ∀ b ∈ bs, b.Valid) (hothers : ∀ b ∈ others, b.Valid) :
    r.merge (bs ++ others) = r.merge bs >>= fun merged => merged.merge others := by
  have hall : ∀ b ∈ bs ++ others, b.Valid := fun b hb =>
    (List.mem_append.1 hb).elim (hbs b) (hothers b)
  rw [merge_eq h hall, List.flatMap_append, List.foldlM_append, ← merge_eq h hbs]
  exact Result.bind_congr fun merged hmerged => (merge_eq (h.merge hbs hmerged) hothers).symm

/-- Merging two lists is merging the first and then the second. -/
theorem merge_append_eq_ok (h : r.Valid) (hbs : ∀ b ∈ bs, b.Valid)
    (hothers : ∀ b ∈ others, b.Valid) :
    r.merge (bs ++ others) = .ok r' ↔
      ∃ r₁, r.merge bs = .ok r₁ ∧ r₁.merge others = .ok r' := by
  rw [merge_append h hbs hothers, Result.bind_eq_ok]

/-! ### Slot by slot -/

/-- The ranges that requirements give a slot, in their order. -/
def rangesOf (s : Slot) (rs : List Requirements) : List String := rs.filterMap (·.at? s)

theorem rangesAt_flatMap (h : ∀ b ∈ others, b.Valid) (s : Slot) :
    rangesAt s (others.flatMap items) = rangesOf s others := by
  induction others with
  | nil => rfl
  | cons b others ih =>
      have hb := (h b List.mem_cons_self).rangesAt_items s
      have hrest := ih fun b hb => h b (List.mem_cons_of_mem _ hb)
      rw [rangesAt] at hb hrest ⊢
      rw [List.flatMap_cons, List.flatMap_append, hb, hrest, rangesOf, rangesOf,
        List.filterMap_cons]
      cases b.at? s <;> rfl

theorem readable_of_mem_rangesOf (h : ∀ b ∈ others, b.Valid) : ∀ u ∈ rangesOf s others,
    Readable u := by
  intro u hu
  obtain ⟨b, hb, hat⟩ := List.mem_filterMap.1 hu
  have hrange := (h b hb).readable_at hat
  exact hrange

theorem gather_rangesOf_cons (s : Slot) (r : Requirements) (others : List Requirements) :
    gather none (rangesOf s (r :: others)) = gather (r.at? s) (rangesOf s others) := by
  rw [rangesOf, List.filterMap_cons]
  cases r.at? s <;> rfl

/-- A slot has the ranges of all the merged requirements gathered. -/
theorem merge_at? (h : ∀ b ∈ r :: others, b.Valid) (hr' : r.merge others = .ok r') (s : Slot) :
    gather none (rangesOf s (r :: others)) = .ok (r'.at? s) := by
  obtain ⟨hr, hothers⟩ := List.forall_mem_cons.1 h
  have hat := foldlM_add_at? ((merge_eq_ok hr hothers).1 hr') s
  rwa [rangesAt_flatMap hothers, ← gather_rangesOf_cons] at hat

/-- Merging succeeds exactly if the ranges of every slot can be gathered. -/
theorem exists_merge_iff (h : ∀ b ∈ r :: others, b.Valid) :
    (∃ r', r.merge others = .ok r') ↔
      ∀ s, ∃ o, gather none (rangesOf s (r :: others)) = .ok o := by
  obtain ⟨hr, hothers⟩ := List.forall_mem_cons.1 h
  simp only [merge_eq_ok hr hothers, exists_foldlM_add_iff, rangesAt_flatMap hothers,
    gather_rangesOf_cons]

/-! ### What merged ranges let in -/

/-- A merged range can be read and lets in exactly the final versions that every range of its
module under the same phase and relation lets in.  The same goes for a text that is not read as a
version. -/
theorem accepts_merge_iff (h : ∀ b ∈ a :: bs, b.Valid) (hmerge : a.merge bs = .ok r)
    {item : Requirement} (hitem : item ∈ r.items) {v : String}
    (hv : ∀ w, Version.parse? v = some w → w.isFinal = true) :
    ∃ range, Range.parse item.range = .ok range ∧ (range.accepts v = .ok true ↔
      ∀ b ∈ a :: bs, ∀ i ∈ b.items, i.slot = item.slot → satisfies v i.range = .ok true) := by
  obtain ⟨ha, hbs⟩ := List.forall_mem_cons.1 h
  have hvalid := ha.merge hbs hmerge
  obtain ⟨range, hrange⟩ := hvalid.readable hitem
  have haccepts : range.accepts v = .ok true ↔ satisfies v item.range = .ok true := by
    rw [satisfies, hrange]
    exact Result.mapError_eq_ok.symm
  have hread := readable_of_mem_rangesOf (s := item.slot) h
  have hmem : (∀ u ∈ rangesOf item.slot (a :: bs), satisfies v u = .ok true) ↔
      ∀ b ∈ a :: bs, ∀ i ∈ b.items, i.slot = item.slot → satisfies v i.range = .ok true := by
    constructor
    · intro hall b hb i hi hslot
      refine hall i.range (List.mem_filterMap.2 ⟨b, hb, ?_⟩)
      exact hslot ▸ (h b hb).mem_items_iff.1 hi
    · intro hall u hu
      obtain ⟨b, hb, hat⟩ := List.mem_filterMap.1 hu
      have hi : ⟨item.phase, item.relation, item.module, u⟩ ∈ b.items :=
        (h b hb).mem_items_iff.2 hat
      have hsat := hall b hb _ hi rfl
      exact hsat
  refine ⟨range, hrange, haccepts.trans (Iff.trans ?_ hmem)⟩
  -- the slot has a range, so at least one of the requirements lists it
  have hgather := merge_at? h hmerge item.slot
  rw [hvalid.mem_items_iff.1 hitem] at hgather
  cases hranges : rangesOf item.slot (a :: bs) with
  | nil =>
      rw [hranges] at hgather
      cases hgather
  | cons t us =>
      rw [hranges] at hgather hread
      obtain ⟨ht, hus⟩ := List.forall_mem_cons.1 hread
      exact satisfies_gather_iff ht hus hgather hv

/-- The slot that the examples are about. -/
def fooSlot : Slot := ⟨"runtime", "requires", "Foo"⟩

theorem accepts_merge_iff_bounds :
    (single fooSlot "> 1.0").merge [single fooSlot ">= 1.0.post1, < 2.0a1"] =
        .ok (single fooSlot ">= 1.0.post1, < 2.0a1") ∧
      ∃ range, Range.parse ">= 1.0.post1, < 2.0a1" = .ok range ∧ (range.accepts "1.1" = .ok true ↔
        ∀ b ∈ [single fooSlot "> 1.0", single fooSlot ">= 1.0.post1, < 2.0a1"],
          ∀ i ∈ b.items, i.slot = fooSlot → satisfies "1.1" i.range = .ok true) := by
  have hmerge : (single fooSlot "> 1.0").merge [single fooSlot ">= 1.0.post1, < 2.0a1"] =
      .ok (single fooSlot ">= 1.0.post1, < 2.0a1") :=
    Result.toOption_eq_some.1 (by decide +kernel)
  have hvalid : ∀ b ∈ [single fooSlot "> 1.0", single fooSlot ">= 1.0.post1, < 2.0a1"],
      b.Valid := by
    refine List.forall_mem_cons.2 ⟨valid_single _ ⟨_, rfl⟩, ?_⟩
    exact List.forall_mem_singleton.2 (valid_single _ ⟨_, rfl⟩)
  have hitem : ⟨"runtime", "requires", "Foo", ">= 1.0.post1, < 2.0a1"⟩ ∈
      (single fooSlot ">= 1.0.post1, < 2.0a1").items := by decide +kernel
  have hfinal : Version.parse? "1.1" = some ⟨0, [1, 1], none, none, none, [], by simp⟩ := rfl
  refine ⟨hmerge, accepts_merge_iff hvalid hmerge hitem fun w hw => ?_⟩
  obtain rfl := Option.some.inj (hfinal.symm.trans hw)
  rfl

end Requirements

end HostPrereqs
