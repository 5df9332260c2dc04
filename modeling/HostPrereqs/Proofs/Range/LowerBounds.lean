import HostPrereqs.Proofs.Range.Meaning
import HostPrereqs.Proofs.Version.Successor

/-!
# Range — where lower bounds begin

Of public versions, a lower bound admits all that come after one that it admits, although `>` leaves
out post-releases: these come right after its bound (`admits_of_le`).  So of several lower bounds
one implies all the others (`exists_strongest`), and what they admit together begins where this one
begins.

It begins with a least version (`Least`), unless it is `>` with a final bound: nothing is right
after all post-releases of that (`exists_least_or_final`).
-/

namespace HostPrereqs

namespace Version

variable {u v w : Version} {n : Nat}

/-! ### Post-releases -/

/-- What comes after a version and has its release and its phase is a post-release of it. -/
theorem postReleaseOf_of_lt (hpost : v.post = none) (hdev : v.dev = none) (hu : u.localPart = [])
    (he : u.epoch = v.epoch) (hs : u.significant = v.significant)
    (hr : u.phaseRank = v.phaseRank) (hn : u.preNumber = v.preNumber) (h : v < u) :
    u.PostReleaseOf v := by
  refine ⟨?_, hpost, hdev, he, hs, pre_eq_of_rank hr hn⟩
  rw [lt_iff_of_release_eq he.symm hs.symm hu] at h
  have hvpost : v.postRank = 0 := by rw [postRank, hpost]
  have hvdev : v.devAbsent = 1 ∧ v.devNumber = 0 := by simp [devAbsent, devNumber, hdev]
  have hudev := devAbsent_le_one u
  have hunum := devNumber_of_devAbsent (v := u)
  cases hup : u.post with
  | some n => rfl
  | none =>
      have : u.postRank = 0 := by rw [postRank, hup]
      omega

/-- What comes after a final version and has its release is a post-release of it. -/
theorem postReleaseOf_of_isFinal (hv : v.isFinal = true) (hu : u.localPart = [])
    (he : u.epoch = v.epoch) (hs : u.significant = v.significant) (h : v < u) :
    u.PostReleaseOf v := by
  obtain ⟨hpre, hpost, hdev, -⟩ := isFinal_iff.1 hv
  have hr : v.phaseRank = 4 := by simp [phaseRank, hpre, hdev]
  have hlt := h
  rw [lt_iff_of_release_eq he.symm hs.symm hu] at hlt
  have hru : u.phaseRank = 4 := by
    have := phaseRank_le_four u
    omega
  exact postReleaseOf_of_lt hpost hdev hu he hs (hru.trans hr.symm)
    ((preNumber_of_phaseRank hru).trans (preNumber_of_phaseRank hr).symm) h

/-- What lies between a version and a post-release of it is a post-release of it too. -/
theorem PostReleaseOf.of_between (h : w.PostReleaseOf v) (hu : u.localPart = []) (hvu : v < u)
    (huw : u ≤ w) : u.PostReleaseOf v := by
  obtain ⟨hwpost, hpost, hdev, hwe, hws, hwpre⟩ := h
  obtain ⟨he, hs⟩ := release_eq_of_between (Std.le_of_lt hvu) huw hwe.symm hws.symm
  have hr : w.phaseRank = v.phaseRank := by
    cases hw : w.post <;> simp_all [phaseRank]
  have hn : w.preNumber = v.preNumber := by rw [preNumber, preNumber, hwpre]
  have hlow := hvu
  have hhigh := Std.not_lt.2 huw
  rw [lt_iff_of_release_eq he.symm hs.symm hu] at hlow
  rw [lt_iff_of_release_eq (hwe.trans he.symm) (hws.trans hs.symm) hu] at hhigh
  exact postReleaseOf_of_lt hpost hdev hu he hs (by omega) (by omega) hvu

/-- The first version of the pre-release that follows the given one. -/
def afterPosts (v : Version) (phase : PrePhase) (n : Nat) : Version :=
  { v with pre := some (phase, n + 1), post := none, dev := some 0, localPart := [] }

variable {phase : PrePhase}

/-- Between a pre-release and the following one there are only its post-releases. -/
theorem afterPosts_le (hpre : v.pre = some (phase, n)) (hpost : v.post = none)
    (hdev : v.dev = none) (hw : w.localPart = []) (h : v < w) (hnot : ¬ w.PostReleaseOf v) :
    v.afterPosts phase n ≤ w := by
  refine Std.not_lt.1 fun hlt => hnot ?_
  obtain ⟨he, hs⟩ := release_eq_of_between (w := v.afterPosts phase n) (Std.le_of_lt h)
    (Std.le_of_lt hlt) rfl rfl
  have hlow := h
  rw [lt_iff_of_release_eq he.symm hs.symm hw] at hlow
  rw [lt_iff_of_release_eq (v := v.afterPosts phase n) he hs rfl] at hlt
  have hr : (v.afterPosts phase n).phaseRank = v.phaseRank := by simp [phaseRank, afterPosts, hpre]
  have hn : v.preNumber = n := by rw [preNumber, hpre]
  have hafter : (v.afterPosts phase n).preNumber = n + 1 ∧ (v.afterPosts phase n).postRank = 0 ∧
    (v.afterPosts phase n).devAbsent = 0 ∧ (v.afterPosts phase n).devNumber = 0 :=
    ⟨rfl, rfl, rfl, rfl⟩
  exact postReleaseOf_of_lt hpost hdev hw he hs (by omega) (by omega) h

theorem lt_afterPosts (hpre : v.pre = some (phase, n)) : v < v.afterPosts phase n := by
  have hr : v.phaseRank = (v.afterPosts phase n).phaseRank := by simp [phaseRank, afterPosts, hpre]
  have hn : v.preNumber < (v.afterPosts phase n).preNumber := by
    simp [preNumber, afterPosts, hpre]
  exact (lt_iff_of_release_eq (w := v) (v := v.afterPosts phase n) rfl rfl rfl).2
    (.inr ⟨hr, .inl hn⟩)

end Version

namespace Clause

open Version

variable {c d m : Clause} {cs : List Clause} {s v w : Version}

/-! ### Lower and upper bounds -/

/-- `> v` and the order of public versions. -/
theorem admits_above_iff (hc : c.comparison = .above) :
    c.admits w = true ↔ c.bound < w.withoutLocal ∧ ¬ w.withoutLocal.PostReleaseOf c.bound := by
  have hl : c.bound.localPart = [] := localPart_bound (by rw [hc]; rfl)
  rw [admits_above hc, postReleaseOf_iff hl, isPostReleaseOf_withoutLocal, Bool.not_eq_true]

/-- What comes after a public version that a lower bound admits is admitted too. -/
theorem admits_of_le (hc : c.comparison.isLower = true) (hv : v.localPart = [])
    (h : c.admits v = true) (hvw : v ≤ w) : c.admits w = true := by
  cases hcmp : c.comparison with
  | atLeast =>
      rw [admits_atLeast hcmp] at h ⊢
      exact Std.le_trans h hvw
  | above =>
      rw [admits_above_iff hcmp, withoutLocal_eq hv] at h
      rw [admits_above_iff hcmp]
      obtain ⟨hlt, hnot⟩ := h
      have hle : v ≤ w.withoutLocal := (le_withoutLocal_iff hv).2 hvw
      exact ⟨Std.lt_of_lt_of_le hlt hle, fun hpost => hnot (hpost.of_between hv hlt hle)⟩
  | atMost | below | not | exactly => simp [hcmp, Comparison.isLower] at hc

/-- What comes before a version that an upper bound admits is admitted too. -/
theorem admits_of_ge (hc : c.comparison.isUpper = true) (h : c.admits w = true) (hvw : v ≤ w) :
    c.admits v = true := by
  cases hcmp : c.comparison with
  | atMost =>
      rw [admits_atMost hcmp] at h ⊢
      have hle : v.withoutLocal ≤ w.withoutLocal :=
        (le_withoutLocal_iff rfl).2 (Std.le_trans (withoutLocal_le v) hvw)
      exact Std.le_trans hle h
  | below =>
      rw [admits_below hcmp] at h ⊢
      exact Std.lt_of_le_of_lt hvw h
  | atLeast | above | not | exactly => simp [hcmp, Comparison.isUpper] at hc

/-! ### The strongest lower bound -/

/-- Whatever public version `c` admits, `d` admits it. -/
def Implies (c d : Clause) : Prop :=
  ∀ w : Version, w.localPart = [] → c.admits w = true → d.admits w = true

theorem Implies.refl (c : Clause) : Implies c c := fun _ _ h => h

theorem Implies.trans {e : Clause} (h : Implies c d) (h' : Implies d e) : Implies c e :=
  fun w hw hc => h' w hw (h w hw hc)

theorem implies_total (hc : c.comparison.isLower = true) (hd : d.comparison.isLower = true) :
    Implies c d ∨ Implies d c := by
  by_cases h : Implies c d
  · exact .inl h
  · refine .inr fun w hw hdw => ?_
    simp only [Implies, not_forall] at h
    obtain ⟨v, hv, hcv, hdv⟩ := h
    rcases Std.le_total (a := v) (b := w) with hle | hle
    · exact admits_of_le hc hv hcv hle
    · exact absurd (admits_of_le hd hw hdw hle) hdv

/-- Of lower bounds, one implies the others. -/
theorem exists_strongest (hne : cs ≠ []) (hcs : ∀ c ∈ cs, c.comparison.isLower = true) :
    ∃ m ∈ cs, ∀ d ∈ cs, Implies m d := by
  induction cs with
  | nil => exact absurd rfl hne
  | cons c cs ih =>
      obtain ⟨hc, hcs⟩ := List.forall_mem_cons.1 hcs
      by_cases hnil : cs = []
      · subst hnil
        exact ⟨c, List.mem_cons_self, List.forall_mem_singleton.2 (.refl c)⟩
      · obtain ⟨m, hm, hall⟩ := ih hnil hcs
        rcases implies_total hc (hcs m hm) with h | h
        · exact ⟨c, List.mem_cons_self, List.forall_mem_cons.2
            ⟨.refl c, fun d hd => h.trans (hall d hd)⟩⟩
        · exact ⟨m, List.mem_cons_of_mem c hm, List.forall_mem_cons.2 ⟨h, hall⟩⟩

/-! ### The least version -/

/-- A public version that all lower bounds admit, and that comes before all others. -/
structure Least (cs : List Clause) (s : Version) : Prop where
  isPublic : s.localPart = []
  admits : ∀ c ∈ cs, c.comparison.isLower = true → c.admits s = true
  le : ∀ w, (∀ c ∈ cs, c.comparison.isLower = true → c.admits w = true) → s ≤ w

/-- `>` begins with the next version; after a pre-release, which has post-releases, it begins with
the following one. -/
theorem exists_start_of_above (hc : c.comparison = .above) (hfinal : c.bound.isFinal = false) :
    ∃ s : Version, s.localPart = [] ∧ c.admits s = true ∧ ∀ w, c.admits w = true → s ≤ w := by
  by_cases hposts : c.bound.post = none ∧ c.bound.dev = none
  · obtain ⟨hpost, hdev⟩ := hposts
    cases hpre : c.bound.pre with
    | none =>
        have hl : c.bound.localPart = [] := localPart_bound (by rw [hc]; rfl)
        rw [isFinal_iff.2 ⟨hpre, hpost, hdev, hl⟩] at hfinal
        cases hfinal
    | some p =>
        obtain ⟨phase, n⟩ := p
        refine ⟨c.bound.afterPosts phase n, rfl, ?_, fun w hw => ?_⟩
        · exact (admits_above_iff hc).2 ⟨lt_afterPosts hpre, nofun⟩
        · obtain ⟨hlt, hnot⟩ := (admits_above_iff hc).1 hw
          exact Std.le_trans (afterPosts_le hpre hpost hdev rfl hlt hnot) (withoutLocal_le w)
  · refine ⟨c.bound.next, localPart_next _, ?_, fun w hw => ?_⟩
    · rw [admits_above_iff hc, withoutLocal_eq (localPart_next _)]
      exact ⟨lt_next _, fun h => hposts ⟨h.2.1, h.2.2.1⟩⟩
    · obtain ⟨hlt, -⟩ := (admits_above_iff hc).1 hw
      exact Std.le_trans (next_le_of_lt rfl hlt) (withoutLocal_le w)

/-- Any lower bound but `>` with a final bound has a least version. -/
theorem exists_start (hc : c.comparison.isLower = true)
    (hfinal : ¬ (c.comparison = .above ∧ c.bound.isFinal = true)) :
    ∃ s : Version, s.localPart = [] ∧ c.admits s = true ∧ ∀ w, c.admits w = true → s ≤ w := by
  cases hcmp : c.comparison with
  | atLeast =>
      refine ⟨c.bound, localPart_bound (by rw [hcmp]; rfl), ?_, fun w => (admits_atLeast hcmp).1⟩
      exact (admits_atLeast hcmp).2 (Std.le_refl c.bound)
  | above => exact exists_start_of_above hcmp (Bool.eq_false_iff.2 fun h => hfinal ⟨hcmp, h⟩)
  | atMost | below | not | exactly => simp [hcmp, Comparison.isLower] at hc

/-- What lower bounds admit begins with a least version, or right after the post-releases of a final
version. -/
theorem exists_least_or_final (cs : List Clause) : (∃ s, Least cs s) ∨
    ∃ m ∈ cs, m.comparison = .above ∧ m.bound.isFinal = true ∧
      ∀ d ∈ cs, d.comparison.isLower = true → Implies m d := by
  by_cases hnone : cs.filter (·.comparison.isLower) = []
  · have hno : ∀ c ∈ cs, c.comparison.isLower ≠ true := List.filter_eq_nil_iff.1 hnone
    exact .inl ⟨first, rfl, fun c hc h => absurd h (hno c hc), fun w _ => first_le w⟩
  · obtain ⟨m, hm, hall⟩ := exists_strongest hnone fun c hc => (List.mem_filter.1 hc).2
    obtain ⟨hmcs, hlower⟩ := List.mem_filter.1 hm
    have himplies : ∀ d ∈ cs, d.comparison.isLower = true → Implies m d := fun d hd h =>
      hall d (List.mem_filter.2 ⟨hd, h⟩)
    by_cases hfinal : m.comparison = .above ∧ m.bound.isFinal = true
    · exact .inr ⟨m, hmcs, hfinal.1, hfinal.2, himplies⟩
    · obtain ⟨s, hs, hadmits, hle⟩ := exists_start hlower hfinal
      exact .inl ⟨s, hs, fun c hc h => himplies c hc h s hs hadmits,
        fun w hw => hle w (hw m hmcs hlower)⟩

end Clause

end HostPrereqs
