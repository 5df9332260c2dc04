import HostPrereqs.Proofs.Version.Order
import Mathlib.Logic.Function.Iterate

/-!
# Version — the next version

Versions are not as dense as numbers: between a version and the first development release of its
next post-release there is nothing, and neither is there between two development releases that
follow each other (`next`).  So every public version has a next one, and from a version on there are
those that are reached from it step by step, and after them all others.

* `lt_next`, `next_le_of_lt`: the next version comes right after a version.
* `reached_or_le`: what does not come before a version is reached in fewer than `n` steps, or does
  not come before what `n` steps lead to.
* `first_le`: the first of all versions.
* `beyond_releaseBefore`: after a release and all its post-releases there is no first version, as
  between any two releases there is another one.
-/

namespace HostPrereqs

namespace Version

variable {s u v w : Version} {m n : Nat}

/-! ### Ranks -/

theorem phaseRank_of_pre {phase : PrePhase} (h : v.pre = some (phase, n)) : v.phaseRank < 4 := by
  rw [phaseRank, h]
  cases phase <;> simp [PrePhase.rank]

theorem phaseRank_le_four (v : Version) : v.phaseRank ≤ 4 := by
  cases h : v.pre with
  | some p => exact Nat.le_of_lt (phaseRank_of_pre h)
  | none =>
      rw [phaseRank, h]
      dsimp only
      split <;> decide

theorem preNumber_of_phaseRank (h : v.phaseRank = 4) : v.preNumber = 0 := by
  cases hpre : v.pre with
  | some p => exact absurd h (Nat.ne_of_lt (phaseRank_of_pre hpre))
  | none => rw [preNumber, hpre]

theorem devAbsent_le_one (v : Version) : v.devAbsent ≤ 1 := by
  unfold devAbsent
  split <;> decide

theorem devNumber_of_devAbsent (h : v.devAbsent ≠ 0) : v.devNumber = 0 := by
  unfold devAbsent at h
  cases hd : v.dev <;> simp_all [devNumber]

/-! ### The next version -/

/-- The least version after `v`: the next development release, or the first one of the next
post-release if `v` is none itself. -/
def next (v : Version) : Version :=
  match v.dev with
  | some n => { v with dev := some (n + 1), localPart := [] }
  | none => { v with post := some v.postRank, dev := some 0, localPart := [] }

/-- The next version is public. -/
theorem localPart_next (v : Version) : v.next.localPart = [] := by
  unfold next
  split <;> rfl

theorem release_next (v : Version) :
    v.next.epoch = v.epoch ∧ v.next.significant = v.significant := by
  unfold next
  split <;> exact ⟨rfl, rfl⟩

theorem phase_next (v : Version) :
    v.next.phaseRank = v.phaseRank ∧ v.next.preNumber = v.preNumber := by
  unfold next
  split <;> simp_all [phaseRank, preNumber]

/-- What is different in the next version. -/
theorem next_cases (v : Version) :
    (v.devAbsent = 0 ∧ v.next.postRank = v.postRank ∧ v.next.devAbsent = 0 ∧
      v.next.devNumber = v.devNumber + 1) ∨
    (v.devAbsent = 1 ∧ v.next.postRank = v.postRank + 1 ∧ v.next.devAbsent = 0 ∧
      v.next.devNumber = 0) := by
  unfold next
  split
  · rename_i n hd
    exact .inl ⟨by simp [devAbsent, hd], rfl, rfl, by simp [devNumber, hd]⟩
  · rename_i hd
    exact .inr ⟨by simp [devAbsent, hd], rfl, rfl, rfl⟩

/-- A version comes before the next one. -/
theorem lt_next (v : Version) : v < v.next := by
  obtain ⟨he, hs⟩ := release_next v
  obtain ⟨hr, hn⟩ := phase_next v
  rw [lt_iff_of_release_eq he.symm hs.symm (localPart_next v), hr, hn]
  rcases next_cases v with ⟨ha, hp, hd, hm⟩ | ⟨ha, hp, hd, hm⟩ <;> omega

/-- Nothing public lies between a version and the next one. -/
theorem next_le_of_lt (hw : w.localPart = []) (h : v < w) : v.next ≤ w := by
  obtain ⟨he, hs⟩ := release_next v
  obtain ⟨hr, hn⟩ := phase_next v
  refine Std.not_lt.1 fun hlt => ?_
  by_cases hrelease : w.epoch = v.epoch ∧ w.significant = v.significant
  · obtain ⟨hwe, hws⟩ := hrelease
    rw [lt_iff_of_release_eq hwe.symm hws.symm hw] at h
    rw [lt_iff_of_release_eq (hwe.trans he.symm) (hws.trans hs.symm) (localPart_next v), hr, hn]
      at hlt
    have hwdev := devAbsent_le_one w
    have hvdev := devNumber_of_devAbsent (v := v)
    have hwnum := devNumber_of_devAbsent (v := w)
    rcases next_cases v with ⟨ha, hp, hd, hm⟩ | ⟨ha, hp, hd, hm⟩ <;> omega
  · rw [lt_iff_of_release_ne (he ▸ hs ▸ hrelease), he, hs, ← lt_iff_of_release_ne hrelease] at hlt
    grind

theorem localPart_iterate_next (hs : s.localPart = []) (n : Nat) :
    (next^[n] s).localPart = [] := by
  cases n with
  | zero => exact hs
  | succ n =>
      rw [Function.iterate_succ_apply']
      exact localPart_next _

/-- Each further step leads to a later version. -/
theorem iterate_next_lt (h : m < n) (s : Version) : next^[m] s < next^[n] s := by
  induction h with
  | refl =>
      rw [Function.iterate_succ_apply']
      exact lt_next _
  | step _ ih =>
      rw [Function.iterate_succ_apply']
      exact Std.lt_trans ih (lt_next _)

theorem le_iterate_next (s : Version) (n : Nat) : s ≤ next^[n] s := by
  cases n with
  | zero => exact Std.le_refl s
  | succ n => exact Std.le_of_lt (iterate_next_lt (Nat.succ_pos n) s)

/-- What does not come before a version is reached from it in fewer than `n` steps, or does not come
before what `n` steps lead to. -/
theorem reached_or_le (hw : w.localPart = []) (h : s ≤ w) (n : Nat) :
    (∃ i < n, w.same (next^[i] s) = true) ∨ next^[n] s ≤ w := by
  induction n with
  | zero => exact .inr h
  | succ n ih =>
      rcases ih with ⟨i, hi, hsame⟩ | hle
      · exact .inl ⟨i, Nat.lt_succ_of_lt hi, hsame⟩
      · by_cases hge : w ≤ next^[n] s
        · exact .inl ⟨n, Nat.lt_succ_self n, same_iff_le.2 ⟨hge, hle⟩⟩
        · rw [Function.iterate_succ_apply']
          exact .inr (next_le_of_lt hw (Std.not_le.1 hge))

/-! ### The first version -/

/-- The first of all versions. -/
def first : Version := { zero with dev := some 0 }

/-- No version comes before the first one. -/
theorem first_le (w : Version) : first ≤ w := by
  have hnil : first.significant = [] := rfl
  have hleast : ∀ xs : List Nat, compare xs [] ≠ .lt := fun xs => by
    rw [List.compare_eq_compareLex]
    cases xs <;> rintro ⟨⟩
  refine Std.not_lt.1 fun h => ?_
  by_cases hrelease : w.epoch = first.epoch ∧ w.significant = first.significant
  · rw [lt_iff_of_release_eq hrelease.1 hrelease.2 rfl] at h
    have hzero : first.phaseRank = 0 ∧ first.preNumber = 0 ∧ first.postRank = 0 ∧
        first.devAbsent = 0 ∧ first.devNumber = 0 := ⟨rfl, rfl, rfl, rfl, rfl⟩
    omega
  · rw [lt_iff_of_release_ne hrelease, hnil] at h
    rcases h with h | ⟨-, h⟩
    · exact Nat.not_lt_zero _ h
    · exact hleast _ h

/-! ### Releases -/

/-- The release of `v` comes before the release of `w`. -/
def ReleaseBefore (v w : Version) : Prop :=
  v.epoch < w.epoch ∨ v.epoch = w.epoch ∧ compare v.significant w.significant = .lt

/-- A version of an earlier release comes before one of a later release. -/
theorem ReleaseBefore.lt (h : v.ReleaseBefore w) : v < w := by
  rw [lt_iff_parts]
  rcases h with h | ⟨he, h⟩
  · exact .inl h
  · exact .inr ⟨he, .inl h⟩

/-- Versions in order are of one release or of two in order. -/
theorem releaseBefore_or_eq (h : v ≤ w) :
    v.ReleaseBefore w ∨ v.epoch = w.epoch ∧ v.significant = w.significant := by
  by_cases hrelease : v.epoch = w.epoch ∧ v.significant = w.significant
  · exact .inr hrelease
  · refine .inl ((lt_iff_of_release_ne hrelease).1 ?_)
    refine Std.not_le.1 fun hge => hrelease ?_
    obtain ⟨he, hs, -⟩ := same_iff.1 (same_iff_le.2 ⟨h, hge⟩)
    exact ⟨he, hs⟩

/-- What lies between versions of one release is of that release. -/
theorem release_eq_of_between (hvu : v ≤ u) (huw : u ≤ w) (he : v.epoch = w.epoch)
    (hs : v.significant = w.significant) : u.epoch = v.epoch ∧ u.significant = v.significant := by
  rcases releaseBefore_or_eq hvu with h | ⟨hue, hus⟩
  · have hlt : w.ReleaseBefore u := by rwa [ReleaseBefore, ← he, ← hs]
    exact absurd hlt.lt (Std.not_lt.2 huw)
  · exact ⟨hue.symm, hus.symm⟩

theorem getLast?_significant (v : Version) : v.significant.getLast? ≠ some 0 := by
  unfold significant
  rw [List.getLast?_reverse]
  intro h
  have := List.head?_dropWhile_not (· = 0) v.release.reverse
  rw [h] at this
  simp at this

theorem compare_zeros_lt {ys : List Nat} (hne : ys ≠ []) (hlast : ys.getLast? ≠ some 0)
    (hn : ys.length ≤ n) : compare (List.replicate n 0 ++ [1]) ys = .lt := by
  rw [List.compare_eq_compareLex]
  induction ys generalizing n with
  | nil => exact absurd rfl hne
  | cons y ys ih =>
      obtain ⟨m, rfl⟩ : ∃ m, n = m + 1 :=
        Nat.exists_eq_add_one.2 (Nat.lt_of_lt_of_le (Nat.succ_pos _) hn)
      rw [List.replicate_succ, List.cons_append, List.compareLex_cons_cons, Ordering.then_eq_lt,
        Nat.compare_eq_lt, Nat.compare_eq_eq]
      cases y with
      | succ y => exact .inl (Nat.succ_pos y)
      | zero =>
          have hne : ys ≠ [] := fun h => by
            rw [h] at hlast
            exact hlast rfl
          rw [List.getLast?_cons_of_ne_nil hne] at hlast
          exact .inr ⟨rfl, ih hne hlast (Nat.le_of_succ_le_succ hn)⟩

/-- A release that goes on with enough zeros comes before whatever comes after the release. -/
theorem compare_append_zeros_lt {xs ys : List Nat} (h : compare xs ys = .lt)
    (hlast : ys.getLast? ≠ some 0) (hn : ys.length ≤ n) :
    compare (xs ++ (List.replicate n 0 ++ [1])) ys = .lt := by
  induction xs generalizing ys with
  | nil =>
      refine compare_zeros_lt ?_ hlast hn
      rintro rfl
      cases h
  | cons x xs ih =>
      rw [List.compare_eq_compareLex] at h ih ⊢
      cases ys with
      | nil => cases h
      | cons y ys =>
          rw [List.cons_append, List.compareLex_cons_cons, Ordering.then_eq_lt]
          rw [List.compareLex_cons_cons, Ordering.then_eq_lt] at h
          refine h.imp_right fun ⟨heq, h⟩ => ⟨heq, ih h ?_ (Nat.le_of_succ_le hn)⟩
          have hne : ys ≠ [] := by
            rintro rfl
            cases xs <;> cases h
          rwa [List.getLast?_cons_of_ne_nil hne] at hlast

theorem compare_append_lt {xs ys : List Nat} (h : ys ≠ []) : compare xs (xs ++ ys) = .lt := by
  rw [List.compare_eq_compareLex]
  induction xs with
  | nil =>
      cases ys with
      | nil => exact absurd rfl h
      | cons => rfl
  | cons x xs ih =>
      rw [List.cons_append, List.compareLex_cons_cons, Ordering.then_eq_lt]
      exact .inr ⟨Std.ReflCmp.compare_self, ih⟩

/-- A version after all that have the release of `v`; the more zeros, the earlier. -/
def beyond (v : Version) (n : Nat) : Version :=
  ⟨v.epoch, v.significant ++ (List.replicate n 0 ++ [1]), none, none, some 0, [], by simp⟩

theorem significant_beyond (v : Version) (n : Nat) :
    (v.beyond n).significant = v.significant ++ (List.replicate n 0 ++ [1]) := by
  simp [significant, beyond]

/-- What lies beyond a version is of a later release. -/
theorem releaseBefore_beyond (v : Version) (n : Nat) : v.ReleaseBefore (v.beyond n) :=
  .inr ⟨rfl, significant_beyond v n ▸ compare_append_lt (by simp)⟩

/-- Whatever release comes after that of `v`, there are versions between the two. -/
theorem beyond_releaseBefore (h : v.ReleaseBefore w) (hn : w.significant.length ≤ n) :
    (v.beyond n).ReleaseBefore w := by
  rcases h with h | ⟨he, h⟩
  · exact .inl h
  · exact .inr ⟨he, significant_beyond v n ▸ compare_append_zeros_lt h (getLast?_significant w) hn⟩

end Version

end HostPrereqs
