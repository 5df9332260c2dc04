import HostPrereqs.Proofs.Range.LowerBounds
import Mathlib.Order.Filter.AtTopBot.Basic
import Mathlib.Order.Filter.Finite

/-!
# Range — ranges without versions

Clauses that do not contradict each other need not be satisfied by any version, because of the
bounds only the outermost two are compared.  Between bounds that are not crossed there may be few
versions, so that the exclusions use them up, or nothing but post-releases that `>` leaves out
(`Vacant`).  There is no other way: from a least version on one finds, step by step, one that is not
excluded, and where there is no least version there are more versions than exclusions.

* `Vacant.not_admits`, `vacant_of_not_admits`: clauses without a contradiction admit no version just
  if they are vacant.
* `accepts_iff_not_vacant`: so there is a version in a range that is read or intersected just if
  what it is made of is not vacant.
* `no_version_accepted`: an intersection and two texts that are no errors, but accept no version.
-/

namespace HostPrereqs

namespace Clause

open Version Filter

variable {c : Clause} {cs : List Clause} {s v w : Version} {n : Nat}

/-- Clauses leave no version: from the least one on, each is excluded until one is beyond an upper
bound, or everything up to an upper bound is a post-release that `>` leaves out. -/
inductive Vacant (cs : List Clause) : Prop where
  | usedUp {s : Version} {n : Nat} (least : Least cs s)
      (excluded : ∀ i < n, ∃ c ∈ cs, c.comparison = .not ∧ c.admits (next^[i] s) = false)
      (beyond : ∃ c ∈ cs, c.comparison.isUpper = true ∧ c.admits (next^[n] s) = false) : Vacant cs
  | postsOnly {low high : Clause} (low_mem : low ∈ cs) (above : low.comparison = .above)
      (high_mem : high ∈ cs) (upper : high.comparison.isUpper = true)
      (post : high.bound.PostReleaseOf low.bound) : Vacant cs

theorem Vacant.not_admits (h : Vacant cs) (w : Version) : ¬ ∀ c ∈ cs, c.admits w = true := by
  intro hw
  have hpublic : ∀ c ∈ cs, c.comparison ≠ .exactly → c.admits w.withoutLocal = true :=
    fun c hc hne => admits_withoutLocal (hw c hc) fun he => absurd he hne
  cases h with
  | usedUp least excluded beyond =>
      have hle := least.le w.withoutLocal fun c hc hl => hpublic c hc (ne_exactly_of_isLower hl)
      rcases reached_or_le rfl hle _ with ⟨i, hi, hsame⟩ | hle
      · obtain ⟨c, hc, hnot, hout⟩ := excluded i hi
        have hin := hpublic c hc (by rw [hnot]; decide)
        rw [admits_congr (same_self c) hsame, hout] at hin
        cases hin
      · obtain ⟨c, hc, hupper, hout⟩ := beyond
        have hin := admits_of_ge hupper (hpublic c hc (ne_exactly_of_isUpper hupper)) hle
        rw [hout] at hin
        cases hin
  | postsOnly low_mem above high_mem upper post =>
      obtain ⟨hlt, hnot⟩ := (admits_above_iff above).1 (hw _ low_mem)
      exact hnot (post.of_between rfl hlt (le_bound_of_admits upper (hw _ high_mem)))

/-! ### What exclusions leave -/

/-- An exclusion is about one public version. -/
theorem same_of_excluded (hc : c.comparison = .not) (hv : v.localPart = []) (hw : w.localPart = [])
    (hcv : c.admits v = false) (hcw : c.admits w = false) : v.same w = true := by
  rw [admits_not hc, Bool.not_eq_false', matchesBound] at hcv hcw
  rw [withoutLocal_eq hv, ite_self] at hcv
  rw [withoutLocal_eq hw, ite_self] at hcw
  exact Version.same_trans hcv (same_symm hcw)

/-- After some step, an exclusion leaves out nothing any more. -/
theorem eventually_admits_next (hs : s.localPart = []) (hc : c.comparison = .not) :
    ∀ᶠ n in atTop, c.admits (next^[n] s) = true := by
  by_cases hin : ∃ i, c.admits (next^[i] s) = false
  · obtain ⟨i, hi⟩ := hin
    filter_upwards [eventually_gt_atTop i] with n hn
    refine Decidable.byContradiction fun hout => ?_
    -- it cannot be the same version again
    have hsame := same_of_excluded hc (localPart_iterate_next hs i) (localPart_iterate_next hs n)
      hi (Bool.not_eq_true _ ▸ hout)
    exact absurd (same_iff_le.1 hsame).2 (Std.not_le.2 (iterate_next_lt hn s))
  · exact .of_forall fun n => Decidable.byContradiction fun hout =>
      hin ⟨n, Bool.not_eq_true _ ▸ hout⟩

/-- Step by step, one comes to a first version that is not excluded. -/
theorem exists_first_left (hs : s.localPart = []) (cs : List Clause) : ∃ n,
    (∀ c ∈ cs, c.comparison = .not → c.admits (next^[n] s) = true) ∧
      ∀ i < n, ∃ c ∈ cs, c.comparison = .not ∧ c.admits (next^[i] s) = false := by
  classical
  have hex : ∃ n, ∀ c ∈ cs, c.comparison = .not → c.admits (next^[n] s) = true :=
    ((eventually_all_finite cs.finite_toSet).2 fun c _ =>
      eventually_imp_distrib_left.2 (eventually_admits_next hs)).exists
  refine ⟨Nat.find hex, Nat.find_spec hex, fun i hi => ?_⟩
  have hmin := Nat.find_min hex hi
  simpa using hmin

/-- Where there is a least version, the exclusions and an upper bound leave none. -/
theorem Least.vacant (h : Least cs s) (hpins : ∀ c ∈ cs, c.comparison ≠ .exactly)
    (hnone : ∀ w : Version, ¬ ∀ c ∈ cs, c.admits w = true) : Vacant cs := by
  obtain ⟨n, hleft, hexcluded⟩ := exists_first_left h.isPublic cs
  have hout := hnone (next^[n] s)
  simp only [not_forall] at hout
  obtain ⟨c, hc, hout⟩ := hout
  refine .usedUp h hexcluded ⟨c, hc, ?_, Bool.not_eq_true _ ▸ hout⟩
  cases hcmp : c.comparison with
  | atMost | below => rfl
  | atLeast | above =>
      have hl : c.comparison.isLower = true := by rw [hcmp]; rfl
      have hin := admits_of_le hl h.isPublic (h.admits c hc hl) (le_iterate_next s n)
      exact absurd hin hout
  | not => exact absurd (hleft c hc hcmp) hout
  | exactly => exact absurd hcmp (hpins c hc)

/-! ### After a final version -/

theorem takesLocal_of_isUpper (h : c.comparison.isUpper = true) :
    c.comparison.takesLocal = false := by
  cases hc : c.comparison <;> simp [hc, Comparison.isUpper] at h <;> rfl

theorem earliest_release (v : Version) :
    v.earliest.epoch = v.epoch ∧ v.earliest.significant = v.significant := by
  unfold earliest
  split <;> exact ⟨rfl, rfl⟩

/-- What is right after the post-releases of a version is within any bound with a later release. -/
theorem admits_beyond_of_isUpper (hc : c.comparison.isUpper = true)
    (h : v.ReleaseBefore c.bound) (hn : c.bound.significant.length ≤ n) :
    c.admits (v.beyond n) = true := by
  cases hcmp : c.comparison with
  | atMost => exact (admits_atMost hcmp).2 (Std.le_of_lt (beyond_releaseBefore h hn).lt)
  | below =>
      obtain ⟨he, hs⟩ := earliest_release c.bound
      have hearliest : v.ReleaseBefore c.bound.earliest := by rwa [ReleaseBefore, he, hs]
      exact (admits_below hcmp).2 (beyond_releaseBefore hearliest (hs ▸ hn)).lt
  | atLeast | above | not | exactly => simp [hcmp, Comparison.isUpper] at hc

/-- A version with a release of more numbers than the bound has is not excluded. -/
theorem admits_beyond_of_not (hc : c.comparison = .not) (hn : c.bound.significant.length ≤ n) :
    c.admits (v.beyond n) = true := by
  rw [admits_not hc, Bool.not_eq_true', Bool.eq_false_iff]
  intro hmatch
  have hlength := congrArg List.length (matchesBound_iff.1 hmatch).2.1
  rw [significant_beyond] at hlength
  simp only [List.length_append, List.length_replicate, List.length_singleton] at hlength
  omega

/-- An upper bound that is not crossed with `>` and a final bound, and whose bound is no
post-release of that, has a later release. -/
theorem releaseBefore_of_not_crossed {low high : Clause} (habove : low.comparison = .above)
    (hfinal : low.bound.isFinal = true) (hupper : high.comparison.isUpper = true)
    (hcrossed : crossed low high = false) (hpost : ¬ high.bound.PostReleaseOf low.bound) :
    low.bound.ReleaseBefore high.bound := by
  have hl : high.bound.localPart = [] := localPart_bound (takesLocal_of_isUpper hupper)
  have hlt : low.bound < high.bound := by
    have hnot : ¬ crossed low high = true := by simp [hcrossed]
    rw [crossed_iff, same_iff_le] at hnot
    grind
  exact (releaseBefore_or_eq (Std.le_of_lt hlt)).resolve_right fun ⟨he, hs⟩ =>
    hpost (postReleaseOf_of_isFinal hfinal hl he.symm hs.symm hlt)

/-- Where `>` with a final bound implies all lower bounds, everything up to an upper bound is a
post-release of it. -/
theorem vacant_of_final {low : Clause} (hlow : low ∈ cs) (habove : low.comparison = .above)
    (hfinal : low.bound.isFinal = true)
    (himplies : ∀ c ∈ cs, c.comparison.isLower = true → Implies low c)
    (hpins : ∀ c ∈ cs, c.comparison ≠ .exactly)
    (hbounds : ∀ c ∈ cs, c.comparison.isUpper = true → crossed low c = false)
    (hnone : ∀ w : Version, ¬ ∀ c ∈ cs, c.admits w = true) : Vacant cs := by
  refine Classical.byContradiction fun hvacant => ?_
  have heach : ∀ c ∈ cs, ∀ᶠ n in atTop, c.admits (low.bound.beyond n) = true := by
    intro c hc
    filter_upwards [eventually_ge_atTop c.bound.significant.length] with n hn
    cases hcmp : c.comparison with
    | atLeast | above =>
        refine himplies c hc (by rw [hcmp]; rfl) _ rfl ((admits_above_iff habove).2 ⟨?_, nofun⟩)
        exact (releaseBefore_beyond _ n).lt
    | atMost | below =>
        have hu : c.comparison.isUpper = true := by rw [hcmp]; rfl
        exact admits_beyond_of_isUpper hu (releaseBefore_of_not_crossed habove hfinal hu
          (hbounds c hc hu) fun hpost => hvacant (.postsOnly hlow habove hc hu hpost)) hn
    | not => exact admits_beyond_of_not hcmp hn
    | exactly => exact absurd hcmp (hpins c hc)
  obtain ⟨n, hn⟩ := ((eventually_all_finite cs.finite_toSet).2 heach).exists
  exact hnone _ hn

/-- Clauses without a contradiction that admit no version are vacant. -/
theorem vacant_of_not_admits (hcs : conflict? cs = none)
    (hnone : ∀ w : Version, ¬ ∀ c ∈ cs, c.admits w = true) : Vacant cs := by
  obtain ⟨hexact, hbounds⟩ := conflict?_eq_none_iff.1 hcs
  have hpins : ∀ c ∈ cs, c.comparison ≠ .exactly := fun c hc he =>
    hnone c.bound (hexact c hc he)
  rcases exists_least_or_final cs with ⟨s, hleast⟩ | ⟨low, hlow, habove, hfinal, himplies⟩
  · exact hleast.vacant hpins hnone
  · exact vacant_of_final hlow habove hfinal himplies hpins
      (fun c hc hu => hbounds low hlow c hc (by rw [habove]; rfl) hu) hnone

/-- Clauses without a contradiction are satisfied by some version just if they are not vacant. -/
theorem exists_admits_iff (hcs : conflict? cs = none) :
    (∃ w : Version, ∀ c ∈ cs, c.admits w = true) ↔ ¬ Vacant cs := by
  constructor
  · rintro ⟨w, hw⟩ hvacant
    exact hvacant.not_admits w hw
  · intro hvacant
    exact Classical.byContradiction fun hnone =>
      hvacant (vacant_of_not_admits hcs fun w hw => hnone ⟨w, hw⟩)

end Clause

namespace Range

open Clause Version

variable {a b r : Range} {cs : List Clause} {w : Version}

theorem exists_admits_iff_of_alike (h : Alike r.clauses cs) :
    (∃ w : Version, r.admits w = true) ↔ ¬ Vacant cs := by
  simp only [admits_iff, h.admits_iff]
  exact exists_admits_iff (h.conflict?_iff.1 r.consistent)

/-- A range that is read from a text, or is the intersection of two, has some version in it just if
the clauses it is made of are not vacant; and of the texts of versions that can be read, it accepts
those of the versions in it. -/
theorem accepts_iff_not_vacant (r : Range) :
    (∀ text, parse text = .ok r → ∃ cs, Writes text cs ∧
      ((∃ w : Version, r.admits w = true) ↔ ¬ Vacant (cs.filterMap WrittenClause.clause?))) ∧
    (∀ a b : Range, a.intersect b = .ok r →
      ((∃ w : Version, r.admits w = true) ↔ ¬ Vacant (a.clauses ++ b.clauses))) ∧
    ∀ v w, Version.read v = .ok (some w) → r.accepts v = .ok (r.admits w) := by
  refine ⟨fun text hr => ?_, fun a b hr => exists_admits_iff_of_alike (alike_of_ofClausesOf hr),
    fun v w => accepts_of_read⟩
  obtain ⟨cs, hcs⟩ := exists_writes hr
  rw [parse_of_writes hcs] at hr
  exact ⟨cs, hcs, exists_admits_iff_of_alike (alike_of_ofClausesOf hr)⟩

/-! ### Bounds of the same version -/

/-- The version `1.0`. -/
def one : Version :=
  { zero with release := 1 :: zero.release, release_ne_nil := List.cons_ne_nil 1 zero.release }

/-- From `1.0` on, but not `1.0` itself. -/
def fromOne : Range where
  clauses := [⟨.atLeast, one, by decide, .inl rfl, by decide⟩,
    ⟨.not, one, by decide, .inl rfl, nofun⟩]
  distinct := by decide
  consistent := by decide

/-- Up to `1.0`. -/
def toOne : Range where
  clauses := [⟨.atMost, one, by decide, .inl rfl, nofun⟩]
  distinct := by decide
  consistent := by decide

/-- What is in both. -/
def between : Range where
  clauses := fromOne.clauses ++ toOne.clauses
  distinct := by decide
  consistent := by decide

theorem vacant_between : Vacant (fromOne.clauses ++ toOne.clauses) := by
  refine .usedUp (s := one) (n := 1) ⟨rfl, by decide, fun w hw => ?_⟩ (fun i hi => ?_) ?_
  · exact (admits_atLeast rfl).1 (hw _ List.mem_cons_self rfl)
  · obtain rfl := Nat.lt_one_iff.1 hi
    exact ⟨_, List.mem_cons_of_mem _ List.mem_cons_self, rfl, by decide⟩
  · exact ⟨_, List.mem_append_right _ List.mem_cons_self, rfl, by decide⟩

theorem parse_fromOne : parse ">= 1.0, != 1.0" = .ok fromOne := rfl

theorem intersect_fromOne_toOne : fromOne.intersect toOne = .ok between := rfl

theorem accepts_iff_not_vacant_between :
    (∃ cs, Writes ">= 1.0, != 1.0" cs ∧ ¬ Vacant (cs.filterMap WrittenClause.clause?)) ∧
      fromOne.intersect toOne = .ok between ∧ (¬ ∃ w : Version, between.admits w = true) ∧
      between.accepts "1.0" = .ok (between.admits one) := by
  refine ⟨?_, intersect_fromOne_toOne, fun h => ?_, ?_⟩
  · obtain ⟨cs, hwrites, hiff⟩ := (accepts_iff_not_vacant fromOne).1 _ parse_fromOne
    exact ⟨cs, hwrites, hiff.1 ⟨⟨0, [1, 1], none, none, none, [], by simp⟩, by decide +kernel⟩⟩
  · obtain ⟨-, hintersect, -⟩ := accepts_iff_not_vacant between
    exact (hintersect _ _ intersect_fromOne_toOne).1 h vacant_between
  · exact (accepts_iff_not_vacant between).2.2 _ _ rfl

/-! ### Ranges that accept nothing -/

/-- There is no version in the range, and it accepts no text. -/
def AcceptsNone (r : Range) : Prop :=
  (∀ w : Version, r.admits w = false) ∧ ∀ v, r.accepts v ≠ .ok true

theorem acceptsNone_of_vacant (h : Vacant r.clauses) : r.AcceptsNone := by
  have hnone : ∀ w : Version, ¬ r.admits w = true := fun w hw => h.not_admits w (admits_iff.1 hw)
  have hany : ¬ r.isAny = true := fun hany => hnone .zero (admits_of_isAny hany _)
  refine ⟨fun w => Bool.eq_false_iff.2 (hnone w), fun v hv => ?_⟩
  cases hw : Version.parse? v with
  | none => exact hany (isAny_iff.2 ((accepts_of_parse?_none hw).1 hv))
  | some w => exact hnone w (admits_iff.2 ((accepts_of_parse? hw).1 hv))

/-- After `1.0`, and up to its post-release of number one. -/
def postsOfOne : Range where
  clauses := [⟨.above, one, by decide, .inl rfl, nofun⟩,
    ⟨.atMost, { one with post := some 1 }, by decide, .inl rfl, nofun⟩]
  distinct := by decide
  consistent := by decide

/-- Before the first of all versions. -/
def beforeFirst : Range where
  clauses := [⟨.below, first, by decide, .inl rfl, nofun⟩]
  distinct := by decide
  consistent := by decide

theorem vacant_postsOfOne : Vacant postsOfOne.clauses :=
  .postsOnly List.mem_cons_self rfl (List.mem_cons_of_mem _ List.mem_cons_self) rfl
    ⟨rfl, rfl, rfl, rfl, rfl, rfl⟩

theorem vacant_beforeFirst : Vacant beforeFirst.clauses := by
  refine .usedUp (s := first) (n := 0) ⟨rfl, by decide, fun w _ => first_le w⟩ (fun i hi => ?_) ?_
  · exact absurd hi (Nat.not_lt_zero i)
  · exact ⟨_, List.mem_cons_self, rfl, by decide⟩

/-- An intersection and two texts that accept no version, and are no errors. -/
theorem no_version_accepted :
    (parse ">= 1.0, != 1.0" = .ok fromOne ∧ parse "<= 1.0" = .ok toOne ∧
      fromOne.intersect toOne = .ok between ∧ between.AcceptsNone) ∧
    (parse "> 1.0, <= 1.0.post1" = .ok postsOfOne ∧ postsOfOne.AcceptsNone) ∧
    parse "< 0.dev0" = .ok beforeFirst ∧ beforeFirst.AcceptsNone :=
  ⟨⟨parse_fromOne, rfl, intersect_fromOne_toOne, acceptsNone_of_vacant vacant_between⟩,
    ⟨rfl, acceptsNone_of_vacant vacant_postsOfOne⟩, rfl, acceptsNone_of_vacant vacant_beforeFirst⟩

end Range

end HostPrereqs
