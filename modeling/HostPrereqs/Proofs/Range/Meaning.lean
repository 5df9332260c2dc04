import HostPrereqs.Proofs.Range.Grammar
import HostPrereqs.Proofs.Range.Joining
import HostPrereqs.Proofs.Range.Loosening

/-!
# Range — what a written clause means

The standard for versions says of each comparison which versions satisfy it (`Comparison.Meets`),
in terms of the order and of the parts of a version: inclusive bounds look at public parts only, a
strict minimum leaves out the post-releases and the local forms of its bound, a strict maximum the
pre-releases of a bound that is none, and an exact version without a local part stands for all its
local forms.

* `Clause.admits_iff_meets`: a clause admits the versions that satisfy it.
* `grammar_and_meaning`: a text is a range only if it is in the grammar, and ranges that are
  intersected, one after the other, accept what satisfies every clause that was written, other than
  the minimums of zero.
-/

namespace HostPrereqs

namespace Version

variable {v w : Version}

/-- `w` is a post-release of `v`, which has none if it is one or a development release. -/
def PostReleaseOf (w v : Version) : Prop :=
  w.post.isSome = true ∧ v.post = none ∧ v.dev = none ∧
    w.epoch = v.epoch ∧ w.significant = v.significant ∧ w.pre = v.pre

/-- `w` is a pre-release of `v`: it has the release of `v`, and where `v` is a post-release, it is
one towards `v`. -/
def PreReleaseOf (w v : Version) : Prop :=
  w.isPreRelease = true ∧ w.epoch = v.epoch ∧ w.significant = v.significant ∧
    (v.post = none ∨ w.pre = none ∧ w.post = v.post)

/-- `w` is `v` up to zeros at the end of the release, and up to a local part if `v` has none. -/
def Matches (w v : Version) : Prop :=
  w.epoch = v.epoch ∧ w.significant = v.significant ∧ w.pre = v.pre ∧ w.post = v.post ∧
    w.dev = v.dev ∧ (v.localPart = [] ∨ w.localPart = v.localPart)

theorem matches_iff_of_nil (hv : v.localPart = []) :
    w.Matches v ↔ w.withoutLocal.same v = true := by
  rw [same_iff, hv]
  simp only [Matches, hv, withoutLocal, true_or]
  rfl

theorem matches_iff_of_ne_nil (hv : v.localPart ≠ []) : w.Matches v ↔ w.same v = true := by
  rw [same_iff]
  simp only [Matches, hv, false_or]

theorem postReleaseOf_iff (hv : v.localPart = []) :
    w.PostReleaseOf v ↔ Clause.isPostReleaseOf w v = true := by
  rw [Clause.isPostReleaseOf, Bool.and_eq_true, same_iff, hv]
  unfold PostReleaseOf beforePosts
  constructor
  · rintro ⟨hp, hpost, hdev, he, hs, hpre⟩
    exact ⟨hp, he, hs, hpre, hpost.symm, hdev.symm, rfl⟩
  · rintro ⟨hp, he, hs, hpre, hpost, hdev, -⟩
    exact ⟨hp, hpost.symm, hdev.symm, he, hs, hpre⟩

/-- Before the development releases of a version is what is before the version and no pre-release
of it. -/
theorem lt_earliest_iff_not_preReleaseOf (hv : v.localPart = []) (hfinal : v.isPreRelease = false) :
    w < v.earliest ↔ w < v ∧ ¬ w.PreReleaseOf v := by
  have hnot : ¬ v.isPreRelease = true := by simp [hfinal]
  obtain ⟨hpre, hdev⟩ := isPreRelease_eq_false hnot
  rw [earliest, if_neg hnot]
  by_cases hrelease : w.epoch = v.epoch ∧ w.significant = v.significant
  · obtain ⟨he, hs⟩ := hrelease
    rw [lt_iff_of_release_eq he hs hv,
      lt_iff_of_release_eq (v := { v with dev := some 0 }) he hs hv]
    simp only [he, hs, true_and, PreReleaseOf, isPreRelease, phaseRank, preNumber, postRank,
      devAbsent, devNumber, hpre, hdev]
    -- what is left depends on which suffixes there are
    cases w.pre with
    | some q =>
        obtain ⟨phase, n⟩ := q
        cases phase <;> cases v.post <;> simp [PrePhase.rank]
    | none =>
        cases w.post <;> cases w.dev <;> cases v.post <;> simp
        omega
  · have hne : ¬ w.PreReleaseOf v := fun h => hrelease ⟨h.2.1, h.2.2.1⟩
    rw [lt_iff_of_release_ne hrelease,
      lt_iff_of_release_ne (v := { v with dev := some 0 }) hrelease]
    exact ⟨fun h => ⟨h, hne⟩, And.left⟩

end Version

open Version

/-- The versions that satisfy a comparison with a bound. -/
def Comparison.Meets (bound w : Version) : Comparison → Prop
  | .atLeast => bound ≤ w.withoutLocal
  | .above   => bound < w ∧ ¬ w.Matches bound ∧ ¬ w.PostReleaseOf bound
  | .atMost  => w.withoutLocal ≤ bound
  | .below   => w < bound ∧ (bound.isPreRelease = false → ¬ w.PreReleaseOf bound)
  | .not     => ¬ w.Matches bound
  | .exactly => w.Matches bound

namespace Clause

variable {c : Clause} {cs ds : List Clause} {w : Version}

theorem matchesBound_iff : c.matchesBound w = true ↔ w.Matches c.bound := by
  by_cases hl : c.bound.localPart = []
  · rw [matchesBound_of_nil hl, matches_iff_of_nil hl]
  · rw [matchesBound_of_ne_nil hl, matches_iff_of_ne_nil hl]

/-- A clause admits the versions that satisfy its comparison. -/
theorem admits_iff_meets : c.admits w = true ↔ c.comparison.Meets c.bound w := by
  cases hc : c.comparison with
  | atLeast =>
      rw [admits_atLeast hc, ← le_withoutLocal_iff (localPart_bound (by rw [hc]; rfl))]
      rfl
  | above =>
      have hl : c.bound.localPart = [] := localPart_bound (by rw [hc]; rfl)
      have hle := le_withoutLocal_iff (w := w) hl
      have hpublic := withoutLocal_le w
      rw [admits_above hc, Comparison.Meets, matches_iff_of_nil hl, postReleaseOf_iff hl,
        ← and_assoc, Bool.not_eq_true (isPostReleaseOf _ _)]
      -- a local form of the bound is beyond the bound, but its public part is not
      refine and_congr_left fun _ => ?_
      rw [same_iff_le]
      grind
  | atMost => exact admits_atMost hc
  | below =>
      have hl : c.bound.localPart = [] := localPart_bound (by rw [hc]; rfl)
      rw [admits_below hc, Comparison.Meets]
      by_cases hpre : c.bound.isPreRelease = true
      · simp [earliest, hpre]
      · rw [Bool.not_eq_true] at hpre
        simp [lt_earliest_iff_not_preReleaseOf hl hpre, hpre]
  | not => rw [admits_not hc, Bool.not_eq_true', ← Bool.not_eq_true, matchesBound_iff]; rfl
  | exactly => rw [admits_exactly hc, matchesBound_iff]; rfl

end Clause

namespace WrittenClause

variable {c : WrittenClause} {cs : List WrittenClause} {w : Version}

theorem clause?_eq_none_iff : c.clause? = none ↔ c.IsZeroMinimum := by
  unfold clause?
  split <;> simp [*]

theorem clause?_of_not_isZeroMinimum (h : ¬ c.IsZeroMinimum) :
    c.clause? = some ⟨c.comparison, c.bound, c.fits, c.local_ok, h⟩ := dif_neg h

theorem filterMap_clause?_eq_nil_iff :
    cs.filterMap clause? = [] ↔ ∀ c ∈ cs, c.IsZeroMinimum := by
  simp only [List.filterMap_eq_nil_iff, clause?_eq_none_iff]

/-- The clauses that are written admit what satisfies each of them but the minimums of zero. -/
theorem filterMap_clause?_admit_iff : (∀ d ∈ cs.filterMap clause?, d.admits w = true) ↔
    ∀ c ∈ cs, ¬ c.IsZeroMinimum → c.comparison.Meets c.bound w := by
  constructor
  · intro h c hc hzero
    exact Clause.admits_iff_meets.1
      (h _ (List.mem_filterMap.2 ⟨c, hc, clause?_of_not_isZeroMinimum hzero⟩))
  · intro h d hd
    obtain ⟨c, hc, hcd⟩ := List.mem_filterMap.1 hd
    have hzero : ¬ c.IsZeroMinimum := fun hzero => by
      rw [clause?_eq_none_iff.2 hzero] at hcd
      cases hcd
    rw [clause?_of_not_isZeroMinimum hzero] at hcd
    obtain rfl := Option.some.inj hcd
    exact Clause.admits_iff_meets.2 (h c hc hzero)

end WrittenClause

namespace Range

open Clause WrittenClause

variable {a b r : Range} {rs : List Range} {cs : List Clause} {text : String}
  {texts : List String} {css : List (List WrittenClause)}

/-- Up to spelling, a range has the clauses that it is made of. -/
theorem alike_of_ofClausesOf (h : ofClausesOf text cs = .ok r) : Alike r.clauses cs := by
  rw [ofClauses_spec (Result.mapError_eq_ok.1 h)]
  exact alike_distinct cs

/-- Ranges that are intersected one after the other have all their clauses. -/
theorem alike_of_foldlM (h : rs.foldlM intersect a = .ok r) :
    Alike r.clauses (a.clauses ++ rs.flatMap clauses) := by
  induction rs generalizing a with
  | nil =>
      obtain rfl := Except.ok.inj h
      simpa using Alike.refl _
  | cons b rs ih =>
      rw [List.foldlM_cons] at h
      obtain ⟨x, hx, h⟩ := Result.bind_eq_ok.1 h
      rw [List.flatMap_cons, ← List.append_assoc]
      exact (ih h).trans ((alike_of_ofClausesOf hx).append (.refl _))

/-- Texts that are read have the clauses of the ranges. -/
theorem alike_of_writes (h : List.Forall₂ (fun text r => parse text = .ok r) texts rs)
    (hw : List.Forall₂ Writes texts css) :
    Alike (rs.flatMap clauses) (css.flatten.filterMap clause?) := by
  induction h generalizing css with
  | nil =>
      cases hw
      exact .refl _
  | cons hr _ ih =>
      cases hw with
      | cons hc hw =>
          rw [List.flatMap_cons, List.flatten_cons, List.filterMap_append]
          rw [parse_of_writes hc] at hr
          exact (alike_of_ofClausesOf hr).append (ih hw)

theorem exists_writes_of_forall₂ (h : List.Forall₂ (fun text r => parse text = .ok r) texts rs) :
    ∃ css, List.Forall₂ Writes texts css := by
  induction h with
  | nil => exact ⟨[], .nil⟩
  | cons hr _ ih =>
      obtain ⟨cs, hcs⟩ := exists_writes hr
      obtain ⟨css, hcss⟩ := ih
      exact ⟨cs :: css, .cons hcs hcss⟩

/-- A text is a range only if it is in the grammar, and any other text is an error that carries it
without the blanks around it.  A report is made of this error, unless there is a numeral that is too
long in the first clause that is not in the grammar, and then it is an error of that numeral; of the
texts in the grammar, only those with a contradiction are errors.  When ranges that are read are
intersected one after the other, the clauses of their texts are determined, and what comes out
accepts the versions that satisfy every clause but the minimums of zero, and a text that is no
version where there is nothing but minimums of zero.  Only such a range accepts a version with a
numeral that is too long; any other fails at it. -/
theorem grammar_and_meaning (text : String) (texts : List String) :
    (∀ r, parse text = .ok r → ∃ cs, Writes text cs) ∧
    ((∀ cs, ¬ Writes text cs) →
      (∃ e, parse text = .error e ∧ e.range = Text.strip text ∧
        ((∀ cause, ¬ BreaksOff text cause) → e.isReported = true)) ∧
      ∀ cause, BreaksOff text cause → parse text = .error (.hugeNumber cause (Text.strip text))) ∧
    (∀ cs, Writes text cs → (∃ r, parse text = .ok r) ∨
      ∃ cause, parse text = .error (.conflict cause (Text.strip text))) ∧
    ∀ rs r, List.Forall₂ (fun text r => parse text = .ok r) texts rs →
      rs.foldlM intersect any = .ok r →
      ∃ css, (∀ css', List.Forall₂ Writes texts css' ↔ css' = css) ∧ ∀ v,
        match Version.read v with
        | .ok (some w) => ∃ b, r.accepts v = .ok b ∧ (b = true ↔
            ∀ c ∈ css.flatten, ¬ c.IsZeroMinimum → c.comparison.Meets c.bound w)
        | .ok none => ∃ b, r.accepts v = .ok b ∧ (b = true ↔ ∀ c ∈ css.flatten, c.IsZeroMinimum)
        | .error cause =>
            ((∀ c ∈ css.flatten, c.IsZeroMinimum) → r.accepts v = .ok true) ∧
            ((¬ ∀ c ∈ css.flatten, c.IsZeroMinimum) → r.accepts v = .error cause) := by
  refine ⟨fun _ => exists_writes, fun h => ⟨?_, fun cause => parse_of_breaksOff⟩,
    fun cs h => ?_, fun rs r hparse hfold => ?_⟩
  · by_cases hlong : ∃ cause, BreaksOff text cause
    · obtain ⟨cause, hlong⟩ := hlong
      exact ⟨_, parse_of_breaksOff hlong, rfl, fun hnot => absurd hlong (hnot cause)⟩
    · obtain ⟨e, he, hrange, hreported⟩ := parse_of_not_writes h fun cause hcause =>
        hlong ⟨cause, hcause⟩
      exact ⟨e, he, hrange, fun _ => hreported⟩
  · rw [parse_of_writes h, ofClausesOf]
    cases ofClauses (cs.filterMap clause?) with
    | ok r => exact .inl ⟨r, rfl⟩
    | error cause => exact .inr ⟨cause, rfl⟩
  · obtain ⟨css, hcss⟩ := exists_writes_of_forall₂ hparse
    have hunique : Relator.RightUnique Writes := fun _ _ _ => Writes.unique
    have halike : Alike r.clauses (css.flatten.filterMap clause?) :=
      (alike_of_foldlM hfold).trans (alike_of_writes hparse hcss)
    have hany : r.isAny = true ↔ ∀ c ∈ css.flatten, c.IsZeroMinimum := by
      rw [isAny_iff, halike.eq_nil_iff, filterMap_clause?_eq_nil_iff]
    refine ⟨css, fun css' => ⟨fun h => hunique.forall₂ h hcss, fun h => h ▸ hcss⟩, fun v => ?_⟩
    rcases hread : Version.read v with cause | _ | w
    · rw [accepts_of_read_error hread]
      exact ⟨fun h => if_pos (hany.2 h), fun h => if_neg fun h' => h (hany.1 h')⟩
    · exact ⟨_, accepts_of_read_none hread, hany⟩
    · refine ⟨_, accepts_of_read hread, ?_⟩
      rw [admits_iff, halike.admits_iff, filterMap_clause?_admit_iff]

theorem grammar_and_meaning_bounds : (∃ e, parse "=> 1.0" = .error e ∧ e.range = "=> 1.0") ∧
    ∃ rs r, List.Forall₂ (fun text r => parse text = .ok r) [">= 1.0, 0", " <2"] rs ∧
      rs.foldlM intersect any = .ok r ∧ ∃ css, List.Forall₂ Writes [">= 1.0, 0", " <2"] css ∧
        (∀ c ∈ css.flatten, ¬ c.IsZeroMinimum →
          c.comparison.Meets c.bound ⟨0, [1, 5], none, none, none, [], by simp⟩) ∧
        ¬ ∀ c ∈ css.flatten, c.IsZeroMinimum := by
  obtain ⟨-, hout, hin, hmeaning⟩ := grammar_and_meaning "=> 1.0" [">= 1.0, 0", " <2"]
  have hsign : parse "=> 1.0" = .error (.unreadableClause "=> 1.0" "=> 1.0") := rfl
  refine ⟨?_, ?_⟩
  · obtain ⟨⟨e, he, hrange, -⟩, -⟩ := hout fun cs hcs => by
      rcases hin _ hcs with ⟨r, hr⟩ | ⟨cause, hr⟩ <;> rw [hsign] at hr <;> cases hr
    exact ⟨e, he, hrange⟩
  · have hread : List.Forall₂ (fun text r => parse text = .ok r) [">= 1.0, 0", " <2"]
        [⟨[⟨.atLeast, ⟨0, [1, 0], none, none, none, [], by simp⟩, by decide, .inl rfl, by decide⟩],
          by decide, by decide⟩,
        ⟨[⟨.below, ⟨0, [2], none, none, none, [], by simp⟩, by decide, .inl rfl, by decide⟩],
          by decide, by decide⟩] := .cons rfl (.cons rfl .nil)
    obtain ⟨css, hcss, hall⟩ := hmeaning _ _ hread rfl
    have hfive := hall "1.5"
    have hone := hall "one"
    rw [show Version.read "1.5" = .ok (some ⟨0, [1, 5], none, none, none, [], by simp⟩) from rfl]
      at hfive
    rw [show Version.read "one" = .ok none from rfl] at hone
    obtain ⟨b, hb, hfive⟩ := hfive
    obtain ⟨b', hb', hone⟩ := hone
    obtain rfl : true = b := Except.ok.inj hb
    obtain rfl : false = b' := Except.ok.inj hb'
    exact ⟨_, _, hread, rfl, css, (hcss css).2 rfl, hfive.1 rfl, fun h => nomatch hone.2 h⟩

/-- Many digits, and after a comma what is no clause. -/
def longThenUnreadable : String := String.ofList (ones ++ ", x y".toList)

theorem breaksOff_of_digits_append {ds : List Char} (hds : ∀ d ∈ ds, d.isDigit = true)
    (hlong : Numeral.digitLimit < ds.length) :
    BreaksOff (String.ofList (ds ++ ", x y".toList)) (.read ds.length) := by
  have htrim : Text.trim (ds ++ ", x y".toList) = ds ++ ',' :: " x y".toList := by
    refine Text.trim_eq_self (fun d hd => ?_) fun d hd => ?_
    · cases ds with
      | nil => exact absurd hlong (Nat.not_lt_zero _)
      | cons d' ds =>
          obtain rfl := Option.some.inj hd
          exact not_isBlank_of_isVersionChar (isVersionChar_of_isDigit (hds d' List.mem_cons_self))
    · rw [List.getLast?_append] at hd
      obtain rfl := Option.some.inj hd
      rfl
  rw [BreaksOff, String.toList_ofList, htrim]
  exact .here (spelledLong_of_digits hds hlong)

theorem breaksOff_longThenUnreadable : ∃ cause, BreaksOff longThenUnreadable cause :=
  ⟨_, breaksOff_of_digits_append isDigit_of_mem_ones digitLimit_lt_length_ones⟩

/-- No report is made of a text outside the grammar that breaks off before. -/
theorem not_reported_longThenUnreadable : (∀ cs, ¬ Writes longThenUnreadable cs) ∧
    (∃ e, parse "x y" = .error e ∧ e.isReported = true) ∧
    ∃ e, parse longThenUnreadable = .error e ∧ e.isReported = false := by
  obtain ⟨cause, hbreaks⟩ := breaksOff_longThenUnreadable
  exact ⟨fun _ => hbreaks.not_writes, ⟨.unreadableClause "x y" "x y", rfl, rfl⟩,
    ⟨_, parse_of_breaksOff hbreaks, rfl⟩⟩

end Range

end HostPrereqs
