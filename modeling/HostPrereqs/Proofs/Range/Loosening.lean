import HostPrereqs.Proofs.Range.LocalParts
import HostPrereqs.Proofs.Range.RoundTrip
import HostPrereqs.Proofs.Result

/-!
# Range — what the canonical text lets in

The canonical clauses of a range are its tightest bounds by the order of versions, or its exact
version.  Three kinds of clauses leave out versions for a reason that has nothing to do with how
tight they are: `>` the post-releases of its bound, `<` the pre-releases, and an exclusion may be
about a local form of the exact version.  Where such a clause is dropped, what it alone leaves out
(`Loosens`) is let in.

* `admits_of_canonical`: nothing else is let in.
* `accepts_parse_text`: the text of a range can be read, and means the same as the range for all
  versions but these.
* `exists_parse`: every range is read from some text.
-/

namespace HostPrereqs

namespace Clause

open Version

variable {c m p : Clause} {cs : List Clause} {v w : Version}

/-- One of the clauses leaves out a version for a reason beyond the order of versions. -/
inductive Loosens (cs : List Clause) (w : Version) : Prop where
  | postRelease {c : Clause} (mem : c ∈ cs) (above : c.comparison = .above)
      (post : isPostReleaseOf w c.bound = true)
  | preRelease {c : Clause} (mem : c ∈ cs) (below : c.comparison = .below)
      (final : c.bound.isPreRelease = false) (earliest_le : c.bound.earliest ≤ w)
      (lt : w < c.bound)
  | localForm {c : Clause} (mem : c ∈ cs) (not : c.comparison = .not)
      (local_ne : c.bound.localPart ≠ []) (same : w.same c.bound = true)

/-- Not all the clauses admit such a version. -/
theorem Loosens.not_admits (h : Loosens cs w) : ¬ ∀ c ∈ cs, c.admits w = true := by
  intro hall
  cases h with
  | postRelease mem above post =>
      obtain ⟨-, hnone⟩ := (admits_above above).1 (hall _ mem)
      rw [post] at hnone
      cases hnone
  | preRelease mem below final earliest_le lt =>
      have hlt := (admits_below below).1 (hall _ mem)
      grind
  | localForm mem not local_ne same =>
      have hadmits := hall _ mem
      rw [admits_not not, matchesBound_of_ne_nil local_ne, same] at hadmits
      cases hadmits

/-! ### Bounds that are dropped -/

/-- What the tightest lower bound admits is admitted by every other, but for post-releases of a
strict one. -/
theorem admits_of_tightest_lower (hm : m.comparison.isLower = true)
    (hc : c.comparison.isLower = true) (ht : tighterLower m c = false)
    (hmw : m.admits w = true)
    (hpost : c.comparison = .above → isPostReleaseOf w c.bound = false) : c.admits w = true := by
  have hbound := bound_le_of_admits hm hmw
  rw [Bool.eq_false_iff, ne_eq, tighterLower_iff, same_iff_le] at ht
  cases hcc : c.comparison with
  | atLeast =>
      have hpublic := withoutLocal_le w
      rw [admits_atLeast hcc]
      grind
  | above =>
      rw [admits_above hcc]
      refine ⟨?_, hpost hcc⟩
      -- a bound that is no further on is strict too
      have hstrict : m.comparison = .above → m.bound < w.withoutLocal := fun h =>
        ((admits_above h).1 hmw).1
      grind
  | atMost | below | not | exactly => simp [hcc, Comparison.isLower] at hc

/-- What the tightest upper bound admits is admitted by every other, but for pre-releases of a
strict one. -/
theorem admits_of_tightest_upper (hm : m.comparison.isUpper = true)
    (hc : c.comparison.isUpper = true) (ht : tighterUpper m c = false)
    (hmw : m.admits w = true)
    (hpre : c.comparison = .below → c.bound.isPreRelease = false → c.bound.earliest ≤ w →
      ¬ w < c.bound) : c.admits w = true := by
  have hbound := le_bound_of_admits hm hmw
  rw [Bool.eq_false_iff, ne_eq, tighterUpper_iff, same_iff_le] at ht
  cases hcc : c.comparison with
  | atMost =>
      rw [admits_atMost hcc]
      grind
  | below =>
      have hlocal : c.bound.localPart = [] := localPart_bound (by rw [hcc]; rfl)
      rw [admits_below hcc]
      by_cases hstrict : m.bound < c.bound
      · have hlt : w < c.bound := (withoutLocal_lt_iff hlocal).1 (Std.lt_of_le_of_lt hbound hstrict)
        by_cases hfinal : c.bound.isPreRelease = true
        · rwa [earliest, if_pos hfinal]
        · have := hpre hcc (Bool.eq_false_iff.2 hfinal)
          grind
      · -- a bound that is no further back is strict too, and the same
        have hsame : m.bound.same c.bound = true := by
          rw [same_iff_le]
          grind
        rw [← same_iff_le] at ht
        have hbelow : m.comparison = .below := Decidable.byContradiction fun hne =>
          ht (.inr ⟨hsame, hne, hcc⟩)
        exact (lt_congr (same_refl w) (same_earliest hsame)).1 ((admits_below hbelow).1 hmw)
  | atLeast | above | not | exactly => simp [hcc, Comparison.isUpper] at hc

/-- What an exact version admits is admitted by all that admit the version, but for local forms
that are excluded. -/
theorem admits_of_pin (hp : p.comparison = .exactly) (hpw : p.admits w = true)
    (hc : c.admits p.bound = true)
    (hlocal : c.comparison = .not → c.bound.localPart ≠ [] → w.same c.bound = false) :
    c.admits w = true := by
  rw [admits_exactly hp] at hpw
  by_cases hl : p.bound.localPart = []
  · rw [matchesBound_of_nil hl] at hpw
    refine admits_of_admits_withoutLocal ?_ hlocal
    rwa [admits_congr (same_self c) hpw]
  · rw [matchesBound_of_ne_nil hl] at hpw
    rwa [admits_congr (same_self c) hpw]

/-- What the canonical clauses admit is admitted by all clauses, but for versions that a clause
leaves out for a reason beyond the order. -/
theorem admits_of_canonical (hcs : conflict? cs = none) (h : ∀ c ∈ canonical cs, c.admits w = true)
    (hw : ¬ Loosens cs w) : ∀ c ∈ cs, c.admits w = true := by
  intro c hc
  by_cases hp : pins cs = []
  · cases hcmp : c.comparison with
    | exactly => exact absurd hcmp (pins_eq_nil_iff.1 hp c hc)
    | not => exact h c ((mem_canonical_of_unpinned hp).2 (.inr (.inr ⟨hc, hcmp⟩)))
    | atLeast | above =>
        have hl : c.comparison.isLower = true := by simp [hcmp, Comparison.isLower]
        obtain ⟨m, hm, hml, ht⟩ := exists_lower_mem_canonical hp hc hl
        exact admits_of_tightest_lower hml hl ht (h m hm) fun habove =>
          Bool.eq_false_iff.2 fun hpost => hw (.postRelease hc habove hpost)
    | atMost | below =>
        have hu : c.comparison.isUpper = true := by simp [hcmp, Comparison.isUpper]
        obtain ⟨m, hm, hmu, ht⟩ := exists_upper_mem_canonical hp hc hu
        exact admits_of_tightest_upper hmu hu ht (h m hm) fun hbelow hfinal hle hlt =>
          hw (.preRelease hc hbelow hfinal hle hlt)
  · obtain ⟨p, hmem⟩ := List.exists_mem_of_ne_nil _ hp
    obtain ⟨hpcs, hexact⟩ := mem_pins.1 hmem
    refine admits_of_pin hexact (h p (canonical_of_pinned hp ▸ hmem))
      ((conflict?_eq_none_iff.1 hcs).1 p hpcs hexact c hc) fun hnot hl => ?_
    exact Bool.eq_false_iff.2 fun hsame => hw (.localForm hc hnot hl hsame)

end Clause

namespace Range

open Clause

variable {r r' : Range} {v : String} {w : Version}

theorem admits_iff : r.admits w = true ↔ ∀ c ∈ r.clauses, c.admits w = true := List.all_eq_true

theorem isAny_iff : r.isAny = true ↔ r.clauses = [] := List.isEmpty_iff

theorem admits_of_isAny (h : r.isAny = true) (w : Version) : r.admits w = true := by
  rw [admits_iff, isAny_iff.1 h]
  exact fun c hc => absurd hc List.not_mem_nil

theorem accepts_of_read (h : Version.read v = .ok (some w)) : r.accepts v = .ok (r.admits w) := by
  rw [accepts, h]
  split
  · rename_i hany
    rw [admits_of_isAny hany]
  · rfl

theorem accepts_of_read_none (h : Version.read v = .ok none) : r.accepts v = .ok r.isAny := by
  rw [accepts, h]
  split
  · rename_i hany
    rw [hany]
  · rename_i hany
    rw [Bool.eq_false_iff.2 hany]
    rfl

/-- Only the range of all versions does not look at a version with a numeral that is too long. -/
theorem accepts_of_read_error {cause : Numeral.Excess} (h : Version.read v = .error cause) :
    r.accepts v = if r.isAny then .ok true else .error cause := by
  rw [accepts, h]
  rfl

theorem accepts_eq_error {cause : Numeral.Excess} :
    r.accepts v = .error cause ↔ r.isAny = false ∧ Version.read v = .error cause := by
  rw [accepts]
  cases r.isAny with
  | true => exact ⟨nofun, nofun⟩
  | false => exact Result.map_eq_error.trans (and_iff_right rfl).symm

theorem accepts_of_parse? (h : Version.parse? v = some w) :
    r.accepts v = .ok true ↔ ∀ c ∈ r.clauses, c.admits w = true := by
  rw [accepts_of_read (Version.parse?_eq_some.1 h), ← admits_iff, Except.ok.injEq]

theorem accepts_of_parse?_none (h : Version.parse? v = none) :
    r.accepts v = .ok true ↔ r.clauses = [] := by
  rw [← isAny_iff]
  cases hread : Version.read v with
  | error cause =>
      rw [accepts_of_read_error hread]
      split <;> simp_all
  | ok w? =>
      cases w? with
      | none => rw [accepts_of_read_none hread, Except.ok.injEq]
      | some w =>
          rw [Version.parse?_eq_some.2 hread] at h
          cases h

/-- Every range is read from a text: from its clauses with commas between them. -/
theorem exists_parse (r : Range) : ∃ text, parse text = .ok r := by
  by_cases hnil : r.clauses = []
  · refine ⟨"", ?_⟩
    obtain ⟨cs, hd, hc⟩ := r
    subst hnil
    rfl
  · exact ⟨_, parse_intercalate hnil (fun c _ => spells_text c) r.distinct r.consistent⟩

/-- The text of a range can be read.  What comes out accepts all that the range accepts; and of
what it accepts, the range accepts everything but the versions that a clause of the range leaves
out for a reason beyond the order of versions: post-releases of the bound of a `>`, pre-releases of
the bound of a `<`, and local forms that are excluded.  Both fail for the same texts, those of
versions with numerals that are too long. -/
theorem accepts_parse_text (r : Range) : ∃ r', parse r.text = .ok r' ∧ ∀ v,
    (r.accepts v = .ok true → r'.accepts v = .ok true) ∧
    (r'.accepts v = .ok true →
      (r.accepts v = .ok true ↔ ¬ ∃ w, Version.parse? v = some w ∧ Loosens r.clauses w)) ∧
    ∀ cause, r.accepts v = .error cause ↔ r'.accepts v = .error cause := by
  have hany : r.reduced.isAny = r.isAny := by
    rw [Bool.eq_iff_iff, isAny_iff, isAny_iff]
    exact canonical_eq_nil_iff
  refine ⟨r.reduced, parse_text r, fun v => ?_⟩
  -- what is accepted, and then what fails
  rw [← and_assoc]
  constructor
  · cases hv : Version.parse? v with
    | none =>
        rw [accepts_of_parse?_none hv, accepts_of_parse?_none hv]
        refine ⟨canonical_eq_nil_iff.2, fun h => ⟨?_, fun _ => canonical_eq_nil_iff.1 h⟩⟩
        rintro - ⟨w, hw, -⟩
        cases hw
    | some w =>
        rw [accepts_of_parse? hv, accepts_of_parse? hv]
        refine ⟨fun h c hc => h c (mem_of_mem_canonical hc), fun h => ⟨?_, fun hw => ?_⟩⟩
        · rintro hall ⟨w', hw', hloosens⟩
          obtain rfl := Option.some.inj hw'
          exact hloosens.not_admits hall
        · exact admits_of_canonical r.consistent h fun hloosens => hw ⟨w, rfl, hloosens⟩
  · intro cause
    cases hread : Version.read v with
    | error n => rw [accepts_of_read_error hread, accepts_of_read_error hread, hany]
    | ok w? =>
        cases w? with
        | none =>
            rw [accepts_of_read_none hread, accepts_of_read_none hread]
            exact ⟨nofun, nofun⟩
        | some w =>
            rw [accepts_of_read hread, accepts_of_read hread]
            exact ⟨nofun, nofun⟩

/-- A strict minimum, and a minimum that is a post-release of it. -/
def boundAndPost : Range where
  clauses :=
    [⟨.above, ⟨0, [1, 0], none, none, none, [], by simp⟩, by decide, .inl rfl, by decide⟩,
      ⟨.atLeast, ⟨0, [1, 0], none, some 1, none, [], by simp⟩, by decide, .inl rfl, by decide⟩]
  distinct := by decide
  consistent := by decide

theorem accepts_parse_text_boundAndPost : boundAndPost.accepts "1.1" = .ok true ∧
    ∃ r', parse boundAndPost.text = .ok r' ∧ r'.accepts "1.1" = .ok true ∧
      r'.accepts "1.0.post1" = .ok true ∧ boundAndPost.accepts "1.0.post1" ≠ .ok true := by
  have haccepts : boundAndPost.accepts "1.1" = .ok true := rfl
  obtain ⟨r', hparse, hall⟩ := accepts_parse_text boundAndPost
  have hreduced : parse boundAndPost.text = .ok boundAndPost.reduced := parse_text _
  obtain rfl := Except.ok.inj (hparse.symm.trans hreduced)
  have hpost : boundAndPost.reduced.accepts "1.0.post1" = .ok true :=
    Result.toOption_eq_some.1 (by decide +kernel)
  refine ⟨haccepts, _, hparse, (hall "1.1").1 haccepts, hpost, ?_⟩
  refine fun h => ((hall "1.0.post1").2.1 hpost).1 h ?_
  exact ⟨⟨0, [1, 0], none, some 1, none, [], by simp⟩, rfl,
    .postRelease List.mem_cons_self rfl (by decide)⟩

/-- A range leaves out a version that its canonical text lets in. -/
def LetsInMore (range text v : String) : Prop :=
  (parse range).map Range.text = .ok text ∧ satisfies v range = .ok false ∧
    satisfies v text = .ok true

/-- A version for each reason to be left out. -/
theorem not_accepts_parse_text : LetsInMore "> 1.0, >= 1.0.post1" "1.0.post1" "1.0.post1" ∧
    LetsInMore "< 2.0, <= 2.0a1" "<= 2.0a1" "2.0a1" ∧
    LetsInMore "== 1.0, != 1.0+abc" "== 1.0" "1.0+abc" := by
  simp only [LetsInMore, ← Result.toOption_eq_some]
  decide +kernel

end Range

end HostPrereqs
