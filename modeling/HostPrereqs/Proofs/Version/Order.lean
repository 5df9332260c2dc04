import HostPrereqs.Version.Basic

/-!
# Version — the order is total

`Version.cmp` compares eight parts, one after the other.  Here it becomes an order that can be
reasoned with: versions are linearly preordered by `≤` and `<`, and `same` is what the two
directions of `≤` have in common.

* `same_iff`: two versions are the same exactly when they differ at most in the zeros at the end
  of their releases.
* `le_withoutLocal_iff`: a version without a local part does not tell another from its public
  part.
* `lt_earliest_iff`: a final version is before the development releases of a version whenever it
  is before the version itself.
-/

namespace HostPrereqs

namespace LocalSegment

instance : Std.TransCmp cmp :=
  inferInstanceAs (Std.TransCmp (compareLex _ _))

theorem eq_of_cmp {s t : LocalSegment} (h : cmp s t = .eq) : s = t := by
  simp only [cmp, compareLex_eq_eq, compareOn, Std.LawfulEqOrd.compare_eq_iff_eq] at h
  obtain ⟨hr, hv, hc⟩ := h
  cases s with
  | word l =>
      cases t with
      | word l' =>
          obtain ⟨cs, _, _⟩ := l
          obtain ⟨cs', _, _⟩ := l'
          obtain rfl : cs = cs' := (List.map_inj_right fun _ _ => Char.toNat_inj.1).1 hc
          rfl
      | number n => simp [rank] at hr
  | number n =>
      cases t with
      | word l' => simp [rank] at hr
      | number m => exact congrArg number hv

instance : Std.LawfulEqCmp cmp where
  eq_of_compare := eq_of_cmp

end LocalSegment

namespace Version

/-! ### A linear preorder -/

/-- The order of local parts. -/
def cmpLocal (v w : Version) : Ordering :=
  List.compareLex LocalSegment.cmp v.localPart w.localPart

/-- The order of versions without their local parts. -/
def cmpPublic : Version → Version → Ordering :=
  compareLex (compareOn epoch) <|
  compareLex (compareOn significant) <|
  compareLex (compareOn phaseRank) <|
  compareLex (compareOn preNumber) <|
  compareLex (compareOn postRank) <|
  compareLex (compareOn devAbsent) <|
  compareOn devNumber

/-- Local parts count only where everything else is the same. -/
theorem cmp_eq (v w : Version) : cmp v w = (cmpPublic v w).then (cmpLocal v w) := by
  simp only [cmp, cmpPublic, cmpLocal, compareLex, Ordering.then_assoc]

instance : Std.TransCmp cmpLocal :=
  have h : Std.TransCmp (List.compareLex LocalSegment.cmp) := inferInstance
  { eq_swap := h.eq_swap, isLE_trans := h.isLE_trans }

instance : Std.TransCmp cmpPublic :=
  inferInstanceAs (Std.TransCmp (compareLex _ _))

instance : Std.TransCmp cmp := by
  have h : cmp = compareLex cmpPublic cmpLocal := funext fun v => funext fun w => cmp_eq v w
  rw [h]
  infer_instance

instance : LE Version := ⟨fun v w => v.upTo w = true⟩

instance : LT Version := ⟨fun v w => v.before w = true⟩

theorem le_iff {v w : Version} : v ≤ w ↔ (cmp v w).isLE = true := by
  change decide (cmp v w ≠ .gt) = true ↔ _
  cases cmp v w <;> decide

theorem lt_iff {v w : Version} : v < w ↔ cmp v w = .lt := decide_eq_true_iff

instance : Std.IsLinearPreorder Version where
  le_refl _ := le_iff.2 Std.ReflCmp.isLE_rfl
  le_trans _ _ _ h h' := le_iff.2 (Std.TransCmp.isLE_trans (le_iff.1 h) (le_iff.1 h'))
  le_total v w := by
    rw [le_iff, le_iff, ← Std.OrientedCmp.isGE_iff_isLE (a := v)]
    cases cmp v w <;> decide

instance : Std.LawfulOrderLT Version where
  lt_iff v w := by
    rw [lt_iff, le_iff, le_iff, ← Std.OrientedCmp.isGE_iff_isLE (a := v)]
    cases cmp v w <;> decide

theorem upTo_iff {v w : Version} : v.upTo w = true ↔ v ≤ w := Iff.rfl

theorem before_iff {v w : Version} : v.before w = true ↔ v < w := Iff.rfl

/-- Versions are the same if neither comes before the other. -/
theorem same_iff_le {v w : Version} : v.same w = true ↔ v ≤ w ∧ w ≤ v := by
  rw [le_iff, le_iff, ← Std.OrientedCmp.isGE_iff_isLE (a := v)]
  change decide (cmp v w = .eq) = true ↔ _
  cases cmp v w <;> decide

/-- The order, part by part. -/
theorem lt_iff_parts {v w : Version} :
    v < w ↔ v.epoch < w.epoch ∨ v.epoch = w.epoch ∧
      (compare v.significant w.significant = .lt ∨ v.significant = w.significant ∧
      (v.phaseRank < w.phaseRank ∨ v.phaseRank = w.phaseRank ∧
      (v.preNumber < w.preNumber ∨ v.preNumber = w.preNumber ∧
      (v.postRank < w.postRank ∨ v.postRank = w.postRank ∧
      (v.devAbsent < w.devAbsent ∨ v.devAbsent = w.devAbsent ∧
      (v.devNumber < w.devNumber ∨ v.devNumber = w.devNumber ∧ cmpLocal v w = .lt)))))) := by
  simp only [lt_iff, cmp, cmpLocal, compareLex, compareOn, Ordering.then_eq_lt, Nat.compare_eq_lt,
    Std.LawfulEqOrd.compare_eq_iff_eq]

/-- Nothing is below a version without a local part because of its own. -/
theorem cmpLocal_ne_lt {v w : Version} (hv : v.localPart = []) : cmpLocal w v ≠ .lt := by
  rw [cmpLocal, hv]
  cases w.localPart <;> rintro ⟨⟩

/-- The order of different releases. -/
theorem lt_iff_of_release_ne {v w : Version}
    (h : ¬ (w.epoch = v.epoch ∧ w.significant = v.significant)) :
    w < v ↔ w.epoch < v.epoch ∨ w.epoch = v.epoch ∧ compare w.significant v.significant = .lt := by
  rw [lt_iff_parts]
  grind

/-- The order of versions with the same release. -/
theorem lt_iff_of_release_eq {v w : Version} (he : w.epoch = v.epoch)
    (hs : w.significant = v.significant) (hv : v.localPart = []) :
    w < v ↔ w.phaseRank < v.phaseRank ∨ w.phaseRank = v.phaseRank ∧
      (w.preNumber < v.preNumber ∨ w.preNumber = v.preNumber ∧
      (w.postRank < v.postRank ∨ w.postRank = v.postRank ∧
      (w.devAbsent < v.devAbsent ∨ w.devAbsent = v.devAbsent ∧ w.devNumber < v.devNumber))) := by
  have hself : compare v.significant v.significant ≠ .lt := by simp
  rw [lt_iff_parts]
  simp only [he, hs, hself, cmpLocal_ne_lt hv, Nat.lt_irrefl, true_and, false_or, and_false,
    or_false]

/-! ### Versions that are the same -/

theorem pre_eq_of_rank {v w : Version} (hr : v.phaseRank = w.phaseRank)
    (hn : v.preNumber = w.preNumber) : v.pre = w.pre := by
  unfold phaseRank at hr
  unfold preNumber at hn
  cases hv : v.pre with
  | none =>
      cases hw : w.pre with
      | none => rfl
      | some q =>
          obtain ⟨p, n⟩ := q
          simp only [hv, hw] at hr
          cases p <;> split at hr <;> simp [PrePhase.rank] at hr
  | some q =>
      obtain ⟨p, n⟩ := q
      cases hw : w.pre with
      | none =>
          simp only [hv, hw] at hr
          cases p <;> split at hr <;> simp [PrePhase.rank] at hr
      | some q' =>
          obtain ⟨p', n'⟩ := q'
          simp only [hv, hw] at hr hn
          cases p <;> cases p' <;> simp_all [PrePhase.rank]

theorem post_eq_of_rank {v w : Version} (h : v.postRank = w.postRank) : v.post = w.post := by
  unfold postRank at h
  cases hv : v.post <;> cases hw : w.post <;> simp_all

theorem dev_eq_of_rank {v w : Version} (ha : v.devAbsent = w.devAbsent)
    (hn : v.devNumber = w.devNumber) : v.dev = w.dev := by
  unfold devAbsent at ha
  unfold devNumber at hn
  cases hv : v.dev <;> cases hw : w.dev <;> simp_all

/-- Versions are the same when they differ at most in the zeros at the end of their releases. -/
theorem same_iff {v w : Version} :
    v.same w = true ↔ v.epoch = w.epoch ∧ v.significant = w.significant ∧ v.pre = w.pre ∧
      v.post = w.post ∧ v.dev = w.dev ∧ v.localPart = w.localPart := by
  have heq : v.same w = true ↔ v.epoch = w.epoch ∧ v.significant = w.significant ∧
      v.phaseRank = w.phaseRank ∧ v.preNumber = w.preNumber ∧ v.postRank = w.postRank ∧
        v.devAbsent = w.devAbsent ∧ v.devNumber = w.devNumber ∧ v.localPart = w.localPart := by
    simp only [same, cmp, compareLex_eq_eq, compareOn, Std.LawfulEqCmp.compare_eq_iff_eq,
      decide_eq_true_eq]
  rw [heq]
  -- ranks and numbers determine the parts that they come from
  constructor
  · rintro ⟨he, hs, hr, hn, hp, ha, hd, hl⟩
    exact ⟨he, hs, pre_eq_of_rank hr hn, post_eq_of_rank hp, dev_eq_of_rank ha hd, hl⟩
  · rintro ⟨he, hs, hr, hp, hd, hl⟩
    simp only [phaseRank, preNumber, postRank, devAbsent, devNumber, he, hs, hr, hp, hd, hl,
      and_self]

theorem same_refl (v : Version) : v.same v = true := same_iff.2 ⟨rfl, rfl, rfl, rfl, rfl, rfl⟩

theorem same_symm {v w : Version} (h : v.same w = true) : w.same v = true :=
  same_iff_le.2 (same_iff_le.1 h).symm

/-- Being the same carries over. -/
theorem same_trans {u v w : Version} (h : u.same v = true) (h' : v.same w = true) :
    u.same w = true := by
  rw [same_iff_le] at *
  grind

theorem same_withoutLocal {v w : Version} (h : v.same w = true) :
    v.withoutLocal.same w.withoutLocal = true := by
  obtain ⟨he, hs, hr, hp, hd, -⟩ := same_iff.1 h
  exact same_iff.2 ⟨he, hs, hr, hp, hd, rfl⟩

theorem same_beforePosts {v w : Version} (h : v.same w = true) :
    v.beforePosts.same w.beforePosts = true := by
  obtain ⟨he, hs, hr, -⟩ := same_iff.1 h
  exact same_iff.2 ⟨he, hs, hr, rfl, rfl, rfl⟩

theorem same_earliest {v w : Version} (h : v.same w = true) :
    v.earliest.same w.earliest = true := by
  obtain ⟨he, hs, hr, hp, hd, hl⟩ := same_iff.1 h
  have hpre : v.isPreRelease = w.isPreRelease := by rw [isPreRelease, isPreRelease, hr, hd]
  unfold earliest
  rw [hpre]
  split
  · exact h
  · exact same_iff.2 ⟨he, hs, hr, hp, rfl, hl⟩

/-! ### Versions with parts left out -/

/-- A version without a local part does not tell another from its public part. -/
theorem le_withoutLocal_iff {v w : Version} (hv : v.localPart = []) :
    v ≤ w.withoutLocal ↔ v ≤ w := by
  have hle : ∀ u : Version, (cmpLocal v u).isLE = true := fun u => by
    rw [cmpLocal, hv]
    exact List.isLE_compareLex_nil_left
  have hpub : cmpPublic v w.withoutLocal = cmpPublic v w := rfl
  rw [le_iff, le_iff, cmp_eq, cmp_eq, hpub, Ordering.isLE_then_iff_and,
    Ordering.isLE_then_iff_and]
  simp only [hle, or_true]

theorem withoutLocal_eq {v : Version} (h : v.localPart = []) : v.withoutLocal = v := by
  cases v
  simp_all [withoutLocal]

/-- A version does not come before itself without its local part. -/
theorem withoutLocal_le (v : Version) : v.withoutLocal ≤ v :=
  (le_withoutLocal_iff rfl).1 (Std.le_refl v.withoutLocal)

theorem isPreRelease_eq_false {v : Version} (h : ¬ v.isPreRelease = true) :
    v.pre = none ∧ v.dev = none := by
  simpa [isPreRelease] using h

/-- The earliest version of a release does not come after any other of it. -/
theorem earliest_le (v : Version) : v.earliest ≤ v := by
  by_cases h : v.isPreRelease = true
  · rw [earliest, if_pos h]
    exact Std.le_refl v
  · obtain ⟨hpre, hdev⟩ := isPreRelease_eq_false h
    rw [earliest, if_neg h]
    refine Std.le_of_lt (lt_iff_parts.2 (.inr ⟨rfl, .inr ⟨rfl, ?_⟩⟩))
    -- up to the phase both are alike, and then one is a development release
    cases hp : v.post with
    | none => exact .inl (by simp [phaseRank, hpre, hdev, hp])
    | some n =>
        refine .inr ⟨by simp [phaseRank, hpre, hp], .inr ⟨rfl, .inr ⟨?_, .inl ?_⟩⟩⟩
        · simp [postRank, hp]
        · simp [devAbsent, hdev]

/-- A final version has a release and nothing else. -/
theorem isFinal_iff {v : Version} :
    v.isFinal = true ↔ v.pre = none ∧ v.post = none ∧ v.dev = none ∧ v.localPart = [] := by
  simp [isFinal, and_assoc]

/-- A final version is before the development releases of a version whenever it is before the
version itself. -/
theorem lt_earliest_iff {v w : Version} (hv : v.isFinal = true) (hw : w.localPart = []) :
    v < w.earliest ↔ v < w := by
  refine ⟨fun h => Std.lt_of_lt_of_le h (earliest_le w), fun h => ?_⟩
  by_cases hp : w.isPreRelease = true
  · rwa [earliest, if_pos hp]
  obtain ⟨hpre, hdev⟩ := isPreRelease_eq_false hp
  obtain ⟨hvpre, hvpost, hvdev, hvlocal⟩ := isFinal_iff.1 hv
  rw [earliest, if_neg hp]
  rw [lt_iff_parts] at h ⊢
  rcases h with h | ⟨he, h | ⟨hs, h⟩⟩
  · exact .inl h
  · exact .inr ⟨he, .inl h⟩
  · refine .inr ⟨he, .inr ⟨hs, ?_⟩⟩
    -- the releases are equal, so `w` can only be a post-release of `v`
    cases hpost : w.post with
    | none =>
        have hl : cmpLocal v w = .eq := by rw [cmpLocal, hvlocal, hw]; rfl
        simp [phaseRank, preNumber, postRank, devAbsent, devNumber, *] at h
    | some n => simp [phaseRank, preNumber, postRank, *]

end Version

end HostPrereqs
