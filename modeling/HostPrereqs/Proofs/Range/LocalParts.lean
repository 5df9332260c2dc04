import HostPrereqs.Proofs.Range.Admission

/-!
# Range — versions with a local part

A version with a local part is admitted by the clauses that admit the version without it, and by
no others, up to two kinds of clauses that look at the local part itself: an exclusion of the very
version (`admits_of_admits_withoutLocal`), and an exact version with a local part
(`admits_withoutLocal`).
-/

namespace HostPrereqs

namespace Version

variable {v w : Version}

/-- A version without a local part does not tell another from its public part. -/
theorem withoutLocal_lt_iff (hw : w.localPart = []) : v.withoutLocal < w ↔ v < w := by
  have h := le_withoutLocal_iff (w := v) hw
  have := withoutLocal_le v
  grind

theorem localPart_earliest (v : Version) : v.earliest.localPart = v.localPart := by
  unfold earliest
  split <;> rfl

/-- Versions without a local part are the same only as such versions. -/
theorem localPart_eq_nil_of_same (h : v.same w = true) (hv : v.localPart = []) :
    w.localPart = [] := by
  obtain ⟨-, -, -, -, -, hl⟩ := same_iff.1 h
  rw [← hl, hv]

/-- A version that is the same as one with a local part is not the same as any without. -/
theorem same_withoutLocal_eq_false (hw : w.localPart ≠ []) : v.withoutLocal.same w = false :=
  Bool.eq_false_iff.2 fun h => hw (localPart_eq_nil_of_same h rfl)

end Version

namespace Clause

open Version

variable {c : Clause} {v w : Version}

theorem isPostReleaseOf_withoutLocal : isPostReleaseOf w.withoutLocal v = isPostReleaseOf w v := rfl

theorem matchesBound_of_nil (h : c.bound.localPart = []) :
    c.matchesBound w = w.withoutLocal.same c.bound := by
  rw [matchesBound, if_pos (List.isEmpty_iff.2 h)]

theorem matchesBound_of_ne_nil (h : c.bound.localPart ≠ []) :
    c.matchesBound w = w.same c.bound := by
  rw [matchesBound, if_neg (mt List.isEmpty_iff.1 h)]

/-- Where the bound has no local part, no clause but a minimum looks at that of a version, and for
a minimum it makes no difference. -/
theorem admits_withoutLocal_of_nil (h : c.bound.localPart = []) :
    c.admits w.withoutLocal = c.admits w := by
  rw [Bool.eq_iff_iff]
  cases hc : c.comparison with
  | atLeast => rw [admits_atLeast hc, admits_atLeast hc, le_withoutLocal_iff h]
  | above => rw [admits_above hc, admits_above hc, isPostReleaseOf_withoutLocal]; rfl
  | atMost => rw [admits_atMost hc, admits_atMost hc]; rfl
  | below =>
      rw [admits_below hc, admits_below hc, withoutLocal_lt_iff (by rw [localPart_earliest, h])]
  | not => rw [admits_not hc, admits_not hc, matchesBound_of_nil h, matchesBound_of_nil h]; rfl
  | exactly =>
      rw [admits_exactly hc, admits_exactly hc, matchesBound_of_nil h, matchesBound_of_nil h]; rfl

/-- Clauses whose bound has a local part are exact versions and exclusions. -/
theorem exactly_or_not (h : c.bound.localPart ≠ []) :
    c.comparison = .exactly ∨ c.comparison = .not := by
  have htakes := c.local_ok.resolve_left h
  cases hc : c.comparison <;> simp [hc, Comparison.takesLocal] at htakes ⊢

/-- What admits the public part of a version admits the version, unless it excludes this very
version. -/
theorem admits_of_admits_withoutLocal (h : c.admits w.withoutLocal = true)
    (hw : c.comparison = .not → c.bound.localPart ≠ [] → w.same c.bound = false) :
    c.admits w = true := by
  by_cases hl : c.bound.localPart = []
  · rwa [← admits_withoutLocal_of_nil hl]
  · rcases exactly_or_not hl with hc | hc
    · -- the public part is no exact version with a local part
      rw [admits_exactly hc, matchesBound_of_ne_nil hl, same_withoutLocal_eq_false hl] at h
      cases h
    · rw [admits_not hc, matchesBound_of_ne_nil hl, hw hc hl]
      rfl

/-- What admits a version admits its public part, unless it is an exact version with a local
part. -/
theorem admits_withoutLocal (h : c.admits w = true)
    (hc : c.comparison = .exactly → c.bound.localPart = []) : c.admits w.withoutLocal = true := by
  by_cases hl : c.bound.localPart = []
  · rwa [admits_withoutLocal_of_nil hl]
  · have hnot := (exactly_or_not hl).resolve_left (mt hc hl)
    rw [admits_not hnot, matchesBound_of_ne_nil hl, same_withoutLocal_eq_false hl]
    rfl

end Clause

end HostPrereqs
