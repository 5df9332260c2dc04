import HostPrereqs.Proofs.Version.Order
import HostPrereqs.Range.Basic

/-!
# Range — what a clause admits

`Clause.admits` in terms of the order of versions, one comparison at a time, and what it does not
look at: clauses that are the same admit the same versions, and versions that are the same are
admitted by the same clauses (`admits_congr`).

Clauses are compared up to the spelling of their bounds.  `Within ds cs` says that every clause
of `ds` is, up to spelling, one of `cs`; then all that `cs` admits is admitted by `ds`.
-/

namespace HostPrereqs

namespace Version

theorem le_congr {v v' w w' : Version} (hv : v.same v' = true) (hw : w.same w' = true) :
    v ≤ w ↔ v' ≤ w' := by
  rw [same_iff_le] at hv hw
  grind

theorem lt_congr {v v' w w' : Version} (hv : v.same v' = true) (hw : w.same w' = true) :
    v < w ↔ v' < w' := by
  rw [same_iff_le] at hv hw
  grind

/-- Spelling makes no difference to being the same. -/
theorem same_congr {v v' w w' : Version} (hv : v.same v' = true) (hw : w.same w' = true) :
    v.same w = true ↔ v'.same w' = true := by
  rw [same_iff_le, same_iff_le, le_congr hv hw, le_congr hw hv]

end Version

namespace Clause

open Version

theorem isPostReleaseOf_congr {v v' w w' : Version} (hv : v.same v' = true)
    (hw : w.same w' = true) : isPostReleaseOf w v = isPostReleaseOf w' v' := by
  obtain ⟨-, -, -, hpost, -⟩ := same_iff.1 hw
  rw [isPostReleaseOf, isPostReleaseOf, hpost]
  exact congrArg _ (Bool.eq_iff_iff.2 (same_congr (same_beforePosts hw) hv))

/-! ### One comparison at a time -/

variable {c d e : Clause} {v w : Version}

/-- Only exact versions and exclusions have bounds with a local part. -/
theorem localPart_bound (h : c.comparison.takesLocal = false) : c.bound.localPart = [] :=
  c.local_ok.resolve_right (by simp [h])

theorem admits_atLeast (h : c.comparison = .atLeast) : c.admits w = true ↔ c.bound ≤ w := by
  rw [admits, h]
  exact upTo_iff

/-- A strict minimum lets no post-release of its bound in. -/
theorem admits_above (h : c.comparison = .above) :
    c.admits w = true ↔ c.bound < w.withoutLocal ∧ isPostReleaseOf w c.bound = false := by
  simp only [admits, h, Bool.and_eq_true, Bool.not_eq_true']
  exact and_congr_left fun _ => before_iff

theorem admits_atMost (h : c.comparison = .atMost) :
    c.admits w = true ↔ w.withoutLocal ≤ c.bound := by
  rw [admits, h]
  exact upTo_iff

/-- A strict maximum lets no pre-release of its bound in. -/
theorem admits_below (h : c.comparison = .below) :
    c.admits w = true ↔ w < c.bound.earliest := by
  rw [admits, h]
  exact before_iff

/-- Whether a version is the bound, or the bound with a local part if the bound has none. -/
def matchesBound (c : Clause) (w : Version) : Bool :=
  if c.bound.localPart.isEmpty then w.withoutLocal.same c.bound else w.same c.bound

theorem admits_exactly (h : c.comparison = .exactly) : c.admits w = c.matchesBound w := by
  rw [admits, h]
  rfl

theorem admits_not (h : c.comparison = .not) : c.admits w = !c.matchesBound w := by
  rw [admits, h]
  rfl

/-! ### Clauses that are the same -/

/-- Clauses are the same if their signs are equal and their bounds the same. -/
theorem same_iff_comparison :
    c.same d = true ↔ c.comparison = d.comparison ∧ c.bound.same d.bound = true := by
  simp [same]

theorem same_self (c : Clause) : c.same c = true :=
  same_iff_comparison.2 ⟨rfl, same_refl c.bound⟩

theorem same_comm (h : c.same d = true) : d.same c = true := by
  obtain ⟨hc, hb⟩ := same_iff_comparison.1 h
  exact same_iff_comparison.2 ⟨hc.symm, same_symm hb⟩

theorem same_tran (h : c.same d = true) (h' : d.same e = true) : c.same e = true := by
  obtain ⟨hc, hb⟩ := same_iff_comparison.1 h
  obtain ⟨hd, hb'⟩ := same_iff_comparison.1 h'
  exact same_iff_comparison.2 ⟨hc.trans hd, Version.same_trans hb hb'⟩

theorem matchesBound_congr (hc : c.same d = true) (hv : v.same w = true) :
    c.matchesBound v = d.matchesBound w := by
  obtain ⟨-, hb⟩ := same_iff_comparison.1 hc
  obtain ⟨-, -, -, -, -, hl⟩ := same_iff.1 hb
  unfold matchesBound
  rw [hl]
  split
  · exact Bool.eq_iff_iff.2 (same_congr (same_withoutLocal hv) hb)
  · exact Bool.eq_iff_iff.2 (same_congr hv hb)

/-- Spelling makes no difference to what is admitted. -/
theorem admits_congr (hc : c.same d = true) (hv : v.same w = true) :
    c.admits v = d.admits w := by
  obtain ⟨hcmp, hb⟩ := same_iff_comparison.1 hc
  rw [Bool.eq_iff_iff]
  cases h : c.comparison with
  | atLeast => rw [admits_atLeast h, admits_atLeast (hcmp ▸ h), le_congr hb hv]
  | above =>
      rw [admits_above h, admits_above (hcmp ▸ h), lt_congr hb (same_withoutLocal hv),
        isPostReleaseOf_congr hb hv]
  | atMost =>
      rw [admits_atMost h, admits_atMost (hcmp ▸ h), le_congr (same_withoutLocal hv) hb]
  | below => rw [admits_below h, admits_below (hcmp ▸ h), lt_congr hv (same_earliest hb)]
  | not => rw [admits_not h, admits_not (hcmp ▸ h), matchesBound_congr hc hv]
  | exactly => rw [admits_exactly h, admits_exactly (hcmp ▸ h), matchesBound_congr hc hv]

/-! ### Bounds -/

/-- What a lower bound admits is not before it. -/
theorem bound_le_of_admits (hc : c.comparison.isLower = true) (h : c.admits w = true) :
    c.bound ≤ w.withoutLocal := by
  cases hcmp : c.comparison with
  | atLeast =>
      have hplain := localPart_bound (c := c) (by rw [hcmp]; rfl)
      exact (le_withoutLocal_iff hplain).2 ((admits_atLeast hcmp).1 h)
  | above => exact Std.le_of_lt ((admits_above hcmp).1 h).1
  | atMost | below | not | exactly => simp [hcmp, Comparison.isLower] at hc

/-- What an upper bound admits is, without its local part, not after it. -/
theorem le_bound_of_admits (hc : c.comparison.isUpper = true) (h : c.admits w = true) :
    w.withoutLocal ≤ c.bound := by
  cases hcmp : c.comparison with
  | atMost => exact (admits_atMost hcmp).1 h
  | below =>
      have hlt := (admits_below hcmp).1 h
      exact Std.le_trans (withoutLocal_le w) (Std.le_trans (Std.le_of_lt hlt) (earliest_le c.bound))
  | atLeast | above | not | exactly => simp [hcmp, Comparison.isUpper] at hc

/-- What a strict lower and any upper bound admit lies strictly between them, and so does what a
lower and a strict upper bound admit. -/
theorem not_crossed_of_admits (hc : c.comparison.isLower = true) (hd : d.comparison.isUpper = true)
    (hcw : c.admits w = true) (hdw : d.admits w = true) : crossed c d = false := by
  have hle := bound_le_of_admits hc hcw
  have hge := le_bound_of_admits hd hdw
  have habove : c.comparison = .above → c.bound < d.bound := fun h =>
    Std.lt_of_lt_of_le ((admits_above h).1 hcw).1 hge
  have hbelow : d.comparison = .below → c.bound < d.bound := fun h => by
    have hlt := (admits_below h).1 hdw
    have := withoutLocal_le w
    have := earliest_le d.bound
    grind
  -- bounds that are the same are crossed only if one of them is strict
  rw [crossed, Bool.or_eq_false_iff]
  refine ⟨Bool.eq_false_iff.2 fun h => ?_, Bool.eq_false_iff.2 fun h => ?_⟩
  · rw [before_iff] at h
    grind
  · simp only [Bool.and_eq_true, Bool.or_eq_true, decide_eq_true_eq, same_iff_le] at h
    obtain ⟨hsame, h | h⟩ := h
    · have := habove h
      grind
    · have := hbelow h
      grind

/-! ### Clauses within others -/

/-- Every clause of `ds` is, up to spelling, one of `cs`. -/
def Within (ds cs : List Clause) : Prop := ∀ d ∈ ds, ∃ c ∈ cs, c.same d = true

theorem Within.of_subset {cs ds : List Clause} (h : ∀ d ∈ ds, d ∈ cs) : Within ds cs :=
  fun d hd => ⟨d, h d hd, same_self d⟩

theorem Within.trans {bs cs ds : List Clause} (h : Within ds cs) (h' : Within cs bs) :
    Within ds bs := by
  intro d hd
  obtain ⟨c, hc, hcd⟩ := h d hd
  obtain ⟨b, hb, hbc⟩ := h' c hc
  exact ⟨b, hb, same_tran hbc hcd⟩

theorem Within.append {bs bs' cs cs' : List Clause} (h : Within bs cs) (h' : Within bs' cs') :
    Within (bs ++ bs') (cs ++ cs') := by
  intro b hb
  rcases List.mem_append.1 hb with hb | hb
  · obtain ⟨c, hc, hcb⟩ := h b hb
    exact ⟨c, List.mem_append_left _ hc, hcb⟩
  · obtain ⟨c, hc, hcb⟩ := h' b hb
    exact ⟨c, List.mem_append_right _ hc, hcb⟩

/-- What is admitted by all of some clauses is admitted by every clause within them. -/
theorem Within.admits {cs ds : List Clause} (h : Within ds cs)
    (hcs : ∀ c ∈ cs, c.admits w = true) : ∀ d ∈ ds, d.admits w = true := by
  intro d hd
  obtain ⟨c, hc, hcd⟩ := h d hd
  rw [← admits_congr hcd (same_refl w)]
  exact hcs c hc

end Clause

end HostPrereqs
