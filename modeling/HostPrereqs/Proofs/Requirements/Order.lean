import HostPrereqs.Proofs.Requirements.Merging

/-!
# Requirements — the order of merging

Requirements are merged one by one into the first (`mergeInTurn`).  In whatever order that is done,
what comes out is the same whenever something comes out (`equivalent_of_perm`).

Whether it does can depend on the order.  It is decided slot by slot (`merges_iff`): a
contradiction between an exact version and a bound goes unnoticed when the bound was dropped
before the exact version came.  `Hides` says that the ranges of a slot are in such a case.

* `merges_congr`: if no slot hides a contradiction, every order succeeds or none does.
* `exists_perms_of_hides`: if one does, its ranges alone can be merged in one order and not in
  another.
-/

namespace HostPrereqs.Requirements

open Range

variable {r r' : Requirements} {rs rs' : List Requirements} {s : Slot} {us : List String}

/-- Merges requirements one by one into the first. -/
def mergeInTurn : List Requirements → Except RangeError Requirements
  | [] => .ok empty
  | r :: rs => rs.foldlM (fun r other => r.merge [other]) r

/-- One by one succeeds. -/
def Merges (rs : List Requirements) : Prop := ∃ r, mergeInTurn rs = .ok r

/-- Merging one after the other is merging at once. -/
theorem foldlM_merge (h : ∀ b ∈ r :: rs, b.Valid) :
    rs.foldlM (fun r other => r.merge [other]) r = r.merge rs := by
  induction rs generalizing r with
  | nil =>
      rw [merge_eq (h r List.mem_cons_self) fun _ hb => absurd hb List.not_mem_nil]
      rfl
  | cons b rs ih =>
      obtain ⟨hr, hrest⟩ := List.forall_mem_cons.1 h
      obtain ⟨hb, hrs⟩ := List.forall_mem_cons.1 hrest
      have hone : ∀ c ∈ [b], c.Valid := List.forall_mem_singleton.2 hb
      have hsplit := merge_append hr hone hrs
      rw [List.singleton_append] at hsplit
      rw [hsplit, List.foldlM_cons]
      exact Result.bind_congr fun merged hmerged =>
        ih (List.forall_mem_cons.2 ⟨hr.merge hone hmerged, hrs⟩)

/-! ### What comes out -/

theorem mergeInTurn_at? (h : ∀ b ∈ rs, b.Valid) (hr : mergeInTurn rs = .ok r) (s : Slot) :
    gather none (rangesOf s rs) = .ok (r.at? s) := by
  cases rs with
  | nil =>
      obtain rfl := Except.ok.inj hr
      rfl
  | cons b rs => exact merge_at? h ((foldlM_merge h).symm.trans hr) s

theorem valid_mergeInTurn (h : ∀ b ∈ rs, b.Valid) (hr : mergeInTurn rs = .ok r) : r.Valid := by
  cases rs with
  | nil => exact Except.ok.inj hr ▸ valid_empty
  | cons b rs =>
      obtain ⟨hb, hrs⟩ := List.forall_mem_cons.1 h
      exact hb.merge hrs ((foldlM_merge h).symm.trans hr)

/-- The same slots, with ranges that let in the same versions. -/
def Equivalent (r r' : Requirements) : Prop :=
  (∀ s, s ∈ r.items.map (·.slot) ↔ s ∈ r'.items.map (·.slot)) ∧
    ∀ i ∈ r.items, ∀ j ∈ r'.items, i.slot = j.slot →
      ∀ v, satisfies v i.range = .ok true ↔ satisfies v j.range = .ok true

theorem Valid.mem_slots_iff (h : r.Valid) : s ∈ r.items.map (·.slot) ↔ (r.at? s).isSome := by
  rw [List.mem_map, Option.isSome_iff_exists]
  constructor
  · rintro ⟨i, hi, rfl⟩
    exact ⟨i.range, h.mem_items_iff.1 hi⟩
  · rintro ⟨t, ht⟩
    exact ⟨⟨s.phase, s.relation, s.module, t⟩, h.mem_items_iff.2 ht, rfl⟩

/-- Gathering several ranges ends with the canonical clauses of all of them. -/
theorem gather_alike {t u : String} {o : Option String} (h : ∀ x ∈ t :: u :: us, Readable x)
    (hg : gather none (t :: u :: us) = .ok o) : ∃ x, o = some x ∧ Readable x ∧
      Clause.Alike (clausesOf x) (Clause.canonical ((t :: u :: us).map clausesOf).flatten) := by
  obtain ⟨ht, hus⟩ := List.forall_mem_cons.1 h
  obtain ⟨x, ho, hx, halike⟩ := gather_some_spec ht hus hg
  exact ⟨x, ho, hx, halike.trans (Clause.joined_alike (by simp))⟩

theorem gather_perm {us' : List String} {o o' : Option String} (h : ∀ x ∈ us, Readable x)
    (hperm : us'.Perm us) (hg : gather none us = .ok o) (hg' : gather none us' = .ok o') :
    o.isSome = o'.isSome ∧ ∀ x ∈ o, ∀ y ∈ o', ∀ v,
      satisfies v x = .ok true ↔ satisfies v y = .ok true := by
  -- a single range is kept as it is written, and only two or more become canonical
  rcases us with _ | ⟨t, _ | ⟨u, us⟩⟩
  · obtain rfl := hperm.eq_nil
    obtain rfl := Except.ok.inj hg
    obtain rfl := Except.ok.inj hg'
    simp
  · obtain rfl := List.perm_singleton.1 hperm
    obtain rfl := Except.ok.inj hg
    obtain rfl := Except.ok.inj hg'
    simp
  · have h' : ∀ x ∈ us', Readable x := fun x hx => h x (hperm.mem_iff.1 hx)
    have hlen := hperm.length_eq
    obtain ⟨t', u', us', rfl⟩ : ∃ t' u' us'', us' = t' :: u' :: us'' := by
      rcases us' with _ | ⟨t', _ | ⟨u', us'⟩⟩
      · simp at hlen
      · simp at hlen
      · exact ⟨t', u', us', rfl⟩
    obtain ⟨x, rfl, hx, hxall⟩ := gather_alike h hg
    obtain ⟨y, rfl, hy, hyall⟩ := gather_alike h' hg'
    have hall := (Clause.alike_flatten_of_perm (hperm.map clausesOf)).canonical
    have hxy := hxall.trans (hall.symm.trans hyall.symm)
    refine ⟨rfl, fun x' hx' y' hy' v => ?_⟩
    obtain rfl := Option.some.inj hx'
    obtain rfl := Option.some.inj hy'
    exact satisfies_congr hx hy hxy v

theorem rangesOf_perm (h : rs'.Perm rs) (s : Slot) : (rangesOf s rs').Perm (rangesOf s rs) :=
  h.filterMap _

/-- In whatever order requirements are merged, the same comes out. -/
theorem equivalent_of_perm (h : ∀ b ∈ rs, b.Valid) (hperm : rs'.Perm rs)
    (hr : mergeInTurn rs = .ok r) (hr' : mergeInTurn rs' = .ok r') : Equivalent r r' := by
  have h' : ∀ b ∈ rs', b.Valid := fun b hb => h b (hperm.mem_iff.1 hb)
  have hvalid := valid_mergeInTurn h hr
  have hvalid' := valid_mergeInTurn h' hr'
  have hslot := fun s => gather_perm (readable_of_mem_rangesOf h) (rangesOf_perm hperm s)
    (mergeInTurn_at? h hr s) (mergeInTurn_at? h' hr' s)
  refine ⟨fun s => ?_, fun i hi j hj hij v => ?_⟩
  · rw [hvalid.mem_slots_iff, hvalid'.mem_slots_iff, (hslot s).1]
  · exact (hslot i.slot).2 i.range (hvalid.mem_items_iff.1 hi) j.range
      (hij ▸ hvalid'.mem_items_iff.1 hj) v

/-! ### Whether something comes out -/

/-- The checked clauses of the ranges of a slot do not contradict each other. -/
def Passes (us : List String) : Prop :=
  Clause.conflict? (Clause.checked (us.map clausesOf)) = none

/-- The ranges of a slot have a contradiction that is found in one order and not in another. -/
def Hides (us : List String) : Prop := Clause.Hides (us.map clausesOf)

instance (us : List String) : Decidable (Hides us) :=
  inferInstanceAs (Decidable (Clause.Hides _))

/-- Gathering succeeds when the checked clauses do not contradict each other. -/
theorem exists_gather_none_iff (h : ∀ u ∈ us, Readable u) :
    (∃ o, gather none us = .ok o) ↔ Passes us := by
  cases us with
  | nil => exact ⟨fun _ => rfl, fun _ => ⟨none, rfl⟩⟩
  | cons t us =>
      obtain ⟨ht, hus⟩ := List.forall_mem_cons.1 h
      rw [Passes, List.map_cons, ← Clause.joins_iff (conflict?_clausesOf t)]
      exact exists_gather_iff ht hus

/-- Merging in turn succeeds when no slot has a contradiction among its checked clauses. -/
theorem merges_iff (h : ∀ b ∈ rs, b.Valid) : Merges rs ↔ ∀ s, Passes (rangesOf s rs) := by
  have hslot := fun s => exists_gather_none_iff (readable_of_mem_rangesOf (s := s) h)
  simp only [← hslot]
  cases rs with
  | nil => exact ⟨fun _ s => ⟨none, rfl⟩, fun _ => ⟨empty, rfl⟩⟩
  | cons b rs =>
      rw [← exists_merge_iff h, Merges, mergeInTurn]
      simp only [foldlM_merge h]

theorem passes_iff (h : ¬ Hides us) :
    Passes us ↔ Clause.conflict? (us.map clausesOf).flatten = none := by
  refine ⟨fun hnone => ?_, (Clause.checked_within _).conflict?_eq_none⟩
  by_cases hall : Clause.conflict? (us.map clausesOf).flatten = none
  · exact hall
  · exact absurd (Clause.hides_of_checked hnone hall) h

/-- If no slot hides a contradiction, merging succeeds in every order or in none. -/
theorem merges_congr (h : ∀ b ∈ rs, b.Valid) (hhides : ∀ s, ¬ Hides (rangesOf s rs))
    (hperm : rs'.Perm rs) : Merges rs' ↔ Merges rs := by
  have h' : ∀ b ∈ rs', b.Valid := fun b hb => h b (hperm.mem_iff.1 hb)
  rw [merges_iff h, merges_iff h']
  refine forall_congr' fun s => ?_
  have hclauses := (rangesOf_perm hperm s).map clausesOf
  rw [passes_iff (hhides s), passes_iff fun hh => hhides s (hh.of_perm hclauses)]
  exact (Clause.alike_flatten_of_perm hclauses).conflict?_iff

/-- Requirements without what they list for other slots. -/
def only (s : Slot) (r : Requirements) : Requirements :=
  match r.at? s with
  | some t => single s t
  | none => empty

theorem valid_only (h : r.Valid) (s : Slot) : (only s r).Valid := by
  unfold only
  split
  · rename_i t ht
    exact valid_single s (h.readable_at ht)
  · exact valid_empty

theorem at?_only (s s' : Slot) (r : Requirements) :
    (only s r).at? s' = if s' = s then r.at? s else none := by
  unfold only
  split
  · rename_i t ht
    rw [single, at?_put, ht]
    rfl
  · rename_i ht
    rw [ht]
    split <;> rfl

theorem rangesOf_only (s s' : Slot) (rs : List Requirements) :
    rangesOf s' (rs.map (only s)) = if s' = s then rangesOf s rs else [] := by
  rw [rangesOf, List.filterMap_map]
  by_cases hs : s' = s
  · subst hs
    rw [if_pos rfl]
    exact congrArg (List.filterMap · rs) (funext fun r => by simp [at?_only])
  · rw [if_neg hs, List.filterMap_eq_nil_iff]
    intro r _
    simp [at?_only, hs]

/-- Requirements whose range of a slot satisfies `p`, or that have none. -/
theorem rangesOf_filter (s : Slot) (rs : List Requirements) (p : String → Bool) :
    rangesOf s (rs.filter fun r => (r.at? s).all p) = (rangesOf s rs).filter p ∧
      rangesOf s (rs.filter fun r => !(r.at? s).all p) = (rangesOf s rs).filter (!p ·) := by
  induction rs with
  | nil => exact ⟨rfl, rfl⟩
  | cons r rs ih =>
      rw [rangesOf, rangesOf, rangesOf] at ih
      rw [rangesOf, rangesOf, rangesOf, List.filter_cons, List.filter_cons, List.filterMap_cons]
      cases hat : r.at? s with
      | none => simpa [hat] using ih
      | some t => cases hp : p t <;> simpa [hat, hp] using ih

/-- The ranges of a slot are rearranged by rearranging the requirements. -/
theorem exists_perm_rangesOf (s : Slot) (rs : List Requirements) (p : String → Bool) :
    ∃ rs', rs'.Perm rs ∧
      rangesOf s rs' = (rangesOf s rs).filter p ++ (rangesOf s rs).filter (!p ·) := by
  obtain ⟨hpos, hneg⟩ := rangesOf_filter s rs p
  refine ⟨_, List.filter_append_perm (fun r => (r.at? s).all p) rs, ?_⟩
  rw [rangesOf, List.filterMap_append]
  rw [rangesOf] at hpos hneg
  rw [hpos, hneg]

/-- Ranges of one slot that hide a contradiction can be merged in one order and not in another. -/
theorem exists_perms_of_hides (h : ∀ b ∈ rs, b.Valid) (hhides : Hides (rangesOf s rs)) :
    ∃ rs₁ rs₂, rs₁.Perm (rs.map (only s)) ∧ rs₂.Perm (rs.map (only s)) ∧
      Merges rs₁ ∧ ¬ Merges rs₂ := by
  -- the ranges without an exact version come first, or else those with one
  obtain ⟨rs₁, hperm₁, hranges₁⟩ :=
    exists_perm_rangesOf s rs fun u => Clause.pins (clausesOf u) = []
  obtain ⟨rs₂, hperm₂, hranges₂⟩ :=
    exists_perm_rangesOf s rs fun u => Clause.pins (clausesOf u) ≠ []
  have hvalid : ∀ rs' : List Requirements, rs'.Perm rs → ∀ b ∈ rs'.map (only s), b.Valid := by
    intro rs' hperm b hb
    obtain ⟨r, hr, rfl⟩ := List.mem_map.1 hb
    exact valid_only (h r (hperm.mem_iff.1 hr)) s
  refine ⟨_, _, hperm₁.map (only s), hperm₂.map (only s), ?_, ?_⟩
  · rw [merges_iff (hvalid rs₁ hperm₁)]
    intro s'
    rw [rangesOf_only]
    by_cases hs : s' = s
    · rw [if_pos hs, hranges₁, Passes, List.map_append]
      have hnone := hhides.checked_unpinned_first
      simpa [Clause.unpinned, Clause.pinned, List.filter_map, Function.comp_def] using hnone
    · rw [if_neg hs]
      rfl
  · rw [merges_iff (hvalid rs₂ hperm₂)]
    intro hall
    have hnone := hall s
    rw [rangesOf_only, if_pos rfl, hranges₂, Passes, List.map_append] at hnone
    refine hhides.checked_pinned_first ?_
    simpa [Clause.unpinned, Clause.pinned, List.filter_map, Function.comp_def] using hnone

/-- Merging in every order comes to the same, where it comes to anything, and whether it does is
decided for each order by the checked clauses.  It succeeds in every order or in none if no slot
hides a contradiction, and only then: the ranges of a slot that hides one can be merged in one
order and not in another. -/
theorem mergeInTurn_perm (h : ∀ b ∈ rs, b.Valid) :
    (∀ rs' : List Requirements, rs'.Perm rs → (Merges rs' ↔ ∀ s, Passes (rangesOf s rs'))) ∧
    (∀ rs' : List Requirements, rs'.Perm rs → ∀ r r', mergeInTurn rs = .ok r →
      mergeInTurn rs' = .ok r' → Equivalent r r') ∧
    ((∀ s, ¬ Hides (rangesOf s rs)) →
      ∀ rs' : List Requirements, rs'.Perm rs → (Merges rs' ↔ Merges rs)) ∧
    ∀ s, Hides (rangesOf s rs) → ∃ rs₁ rs₂, rs₁.Perm (rs.map (only s)) ∧
      rs₂.Perm (rs.map (only s)) ∧ Merges rs₁ ∧ ¬ Merges rs₂ := by
  refine ⟨fun rs' hperm => ?_, fun rs' hperm r r' => equivalent_of_perm h hperm,
    fun hhides rs' => merges_congr h hhides, fun s => exists_perms_of_hides h⟩
  exact merges_iff fun b hb => h b (hperm.mem_iff.1 hb)

/-- A bound, a tighter one, and an exact version that only the first leaves out. -/
def boundsAndPost : List Requirements :=
  ["> 1.0", ">= 1.0.post1", "== 1.0.post1"].map (single fooSlot)

theorem mergeInTurn_perm_boundsAndPost :
    Hides (rangesOf fooSlot boundsAndPost) ∧
      ∃ rs₁ rs₂, rs₁.Perm (boundsAndPost.map (only fooSlot)) ∧
        rs₂.Perm (boundsAndPost.map (only fooSlot)) ∧
        Merges rs₁ ∧ ¬ Merges rs₂ := by
  have hhides : Hides (rangesOf fooSlot boundsAndPost) := by
    decide +kernel
  have hvalid : ∀ b ∈ boundsAndPost, b.Valid := by
    intro b hb
    obtain ⟨t, ht, rfl⟩ := List.mem_map.1 hb
    refine valid_single _ ?_
    simp only [List.mem_cons, List.not_mem_nil, or_false] at ht
    rcases ht with rfl | rfl | rfl
    · exact ⟨_, rfl⟩
    · exact ⟨_, rfl⟩
    · exact ⟨_, rfl⟩
  exact ⟨hhides, (mergeInTurn_perm hvalid).2.2.2 _ hhides⟩

theorem not_merges_perm : ∃ rs : List Requirements, rs.Perm boundsAndPost ∧
    Merges boundsAndPost ∧ ¬ Merges rs := by
  refine ⟨["> 1.0", "== 1.0.post1", ">= 1.0.post1"].map (single fooSlot),
    .map _ (.cons _ (.swap ..)), ⟨single fooSlot "== 1.0.post1", ?_⟩, ?_⟩
  · exact Result.toOption_eq_some.1 (by decide +kernel)
  · rintro ⟨r, hr⟩
    have hfails : (mergeInTurn (["> 1.0", "== 1.0.post1", ">= 1.0.post1"].map
        (single fooSlot))).toBool = false := by decide +kernel
    rw [hr] at hfails
    cases hfails

end HostPrereqs.Requirements
