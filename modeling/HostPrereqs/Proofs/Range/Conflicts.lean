import HostPrereqs.Proofs.Range.Meaning

/-!
# Range — which contradictions are real

Clauses are rejected for two exact versions that differ, for an exact version that another clause
leaves out, or for bounds that are crossed.  Nothing lies between crossed bounds, and what an exact
version with a local part admits is that version alone.  But an exact version without a local part
admits all its local forms, so that one of them, given as an exact version too, satisfies both
clauses (`PinnedTwice`), and the two are rejected as different.

* `PinnedTwice.conflict?_ne_none`, `pinnedTwice_of_conflict`: of clauses that some version
  satisfies, these are rejected and no others.
* `error_iff_pinnedTwice`: the same for texts of the grammar, and for ranges that are intersected.
* `rejects_localForm`: a text and two ranges that are rejected in this way.
-/

namespace HostPrereqs

namespace Clause

open Version

variable {c : Clause} {cs : List Clause} {w : Version}

/-- Clauses give a version as the exact one both with and without its local part. -/
structure PinnedTwice (cs : List Clause) (w : Version) : Prop where
  bare : ∃ p ∈ cs, p.comparison = .exactly ∧ p.bound.localPart = [] ∧
    w.withoutLocal.same p.bound = true
  full : ∃ q ∈ cs, q.comparison = .exactly ∧ q.bound.localPart ≠ [] ∧ w.same q.bound = true

/-- The two exact versions do not admit each other, and are rejected. -/
theorem PinnedTwice.conflict?_ne_none (h : PinnedTwice cs w) : conflict? cs ≠ none := by
  obtain ⟨⟨p, hp, hpe, hpl, -⟩, q, hq, hqe, hql, -⟩ := h
  intro hnone
  have hpins := (conflict?_eq_none_iff.1 hnone).1
  have hsame := same_of_admits hpe hqe (hpins q hq hqe p hp) (hpins p hp hpe q hq)
  exact hql (localPart_eq_nil_of_same hsame hpl)

/-- A clause that admits a version, but not the public part of it, has the version as its exact
one. -/
theorem full_of_not_admits_withoutLocal (h : c.admits w = true)
    (hpublic : c.admits w.withoutLocal ≠ true) :
    c.comparison = .exactly ∧ c.bound.localPart ≠ [] ∧ w.same c.bound = true := by
  by_cases hc : c.comparison = .exactly
  · by_cases hl : c.bound.localPart = []
    · exact absurd (admits_withoutLocal h fun _ => hl) hpublic
    · rw [admits_exactly hc, matchesBound_of_ne_nil hl] at h
      exact ⟨hc, hl, h⟩
  · exact absurd (admits_withoutLocal h fun he => absurd he hc) hpublic

/-- Clauses that are rejected although they all admit a version give it twice. -/
theorem pinnedTwice_of_conflict (h : conflict? cs ≠ none) (hw : ∀ c ∈ cs, c.admits w = true) :
    PinnedTwice cs w := by
  -- the version lies between all bounds, so an exact version is left out by a clause
  have hpin : ∃ p ∈ cs, p.comparison = .exactly ∧ ∃ c ∈ cs, c.admits p.bound ≠ true := by
    refine Decidable.byContradiction fun hnone => h (conflict?_eq_none_iff.2 ⟨?_, ?_⟩)
    · exact fun p hp hpe c hc => Decidable.byContradiction fun hcp => hnone ⟨p, hp, hpe, c, hc, hcp⟩
    · exact fun low hlow high hhigh hl hu =>
        not_crossed_of_admits hl hu (hw low hlow) (hw high hhigh)
  obtain ⟨p, hp, hpe, c, hc, hcp⟩ := hpin
  have hpw := hw p hp
  rw [admits_exactly hpe] at hpw
  by_cases hpl : p.bound.localPart = []
  · rw [matchesBound_of_nil hpl] at hpw
    refine ⟨⟨p, hp, hpe, hpl, hpw⟩, c, hc, full_of_not_admits_withoutLocal (hw c hc) ?_⟩
    rwa [admits_congr (same_self c) hpw]
  · -- a version with a local part is the only one it admits
    rw [matchesBound_of_ne_nil hpl] at hpw
    exact absurd (admits_congr (same_self c) hpw ▸ hw c hc) hcp

end Clause

namespace Range

open Clause WrittenClause

variable {cs : List Clause} {text : String}

/-- Clauses make no range just when they contradict each other. -/
theorem exists_error_iff :
    (∃ e, ofClausesOf text cs = .error e) ↔ conflict? cs ≠ none := by
  refine Iff.trans ?_ (not_congr (alike_distinct cs).conflict?_iff)
  constructor
  · rintro ⟨e, h⟩ hnone
    obtain ⟨r, hr⟩ := exists_ofClauses hnone
    rw [ofClausesOf, hr] at h
    cases h
  · intro h
    cases hr : ofClausesOf text cs with
    | error e => exact ⟨e, rfl⟩
    | ok r =>
        refine absurd ?_ h
        rw [← ofClauses_spec (Result.mapError_eq_ok.1 hr)]
        exact r.consistent

/-- Where a version satisfies all clauses of a text in the grammar, the text is an error just when
it gives this version as the exact one both with and without its local part; and so is the
intersection of two ranges in which the version lies, that is, which accept each text that is read
as it.  All other contradictions are real. -/
theorem error_iff_pinnedTwice (w : Version) :
    (∀ text cs, Writes text cs →
      (∀ c ∈ cs, ¬ c.IsZeroMinimum → c.comparison.Meets c.bound w) →
      ((∃ e, parse text = .error e) ↔ PinnedTwice (cs.filterMap clause?) w)) ∧
    (∀ a b : Range, a.admits w = true → b.admits w = true →
      ((∃ e, a.intersect b = .error e) ↔ PinnedTwice (a.clauses ++ b.clauses) w)) ∧
    ∀ (a : Range) v, Version.read v = .ok (some w) → a.accepts v = .ok (a.admits w) := by
  have hboth : ∀ {cs : List Clause}, (∀ c ∈ cs, c.admits w = true) →
      (conflict? cs ≠ none ↔ PinnedTwice cs w) := fun hw =>
    ⟨fun h => pinnedTwice_of_conflict h hw, PinnedTwice.conflict?_ne_none⟩
  refine ⟨fun text cs hwrites hw => ?_, fun a b ha hb => ?_, fun a v => accepts_of_read⟩
  · rw [parse_of_writes hwrites, exists_error_iff, hboth (filterMap_clause?_admit_iff.2 hw)]
  · rw [intersect, exists_error_iff,
      hboth (List.forall_mem_append.2 ⟨admits_iff.1 ha, admits_iff.1 hb⟩)]

/-! ### A version that is given twice -/

/-- The local part `abc`. -/
def letters : List LocalSegment := [.word ⟨"abc".toList, rfl, rfl⟩]

/-- An exact version without a local part, as it is written. -/
def exactlyOne : WrittenClause :=
  ⟨.exactly, ⟨0, [1, 0], none, none, none, [], List.cons_ne_nil 1 [0]⟩, by decide, .inr rfl⟩

/-- One of its local forms. -/
def exactlyLocalOne : WrittenClause :=
  ⟨.exactly, ⟨0, [1, 0], none, none, none, letters, List.cons_ne_nil 1 [0]⟩, by decide, .inr rfl⟩

/-- The range of the exact version without a local part. -/
def bareOne : Range where
  clauses := [⟨.exactly, exactlyOne.bound, exactlyOne.fits, .inr rfl, nofun⟩]
  distinct := by decide
  consistent := by decide

/-- The range of its local form. -/
def fullOne : Range where
  clauses := [⟨.exactly, exactlyLocalOne.bound, exactlyLocalOne.fits, .inr rfl, nofun⟩]
  distinct := by decide
  consistent := by decide

theorem writes_localForm :
    Writes "== 1.0, == 1.0+abc" [exactlyOne, exactlyLocalOne] := by
  have hblank : ∀ c ∈ " ".toList, Text.isBlank c = true := List.forall_mem_singleton.2 rfl
  have hlist : WritesList ("== 1.0".toList ++ ',' :: " == 1.0+abc".toList)
      [exactlyOne, exactlyLocalOne] :=
    .cons (.intro (.intro "==".toList " ".toList rfl (.inl rfl) hblank rfl) rfl)
      (.last (.intro (.intro "==".toList " ".toList rfl (.inl rfl) hblank rfl) rfl))
  exact .inr hlist

theorem meets_localForm : ∀ c ∈ [exactlyOne, exactlyLocalOne],
    c.comparison.Meets c.bound exactlyLocalOne.bound := by
  refine List.forall_mem_cons.2 ⟨?_, List.forall_mem_singleton.2 ?_⟩
  · exact ⟨rfl, rfl, rfl, rfl, rfl, .inl rfl⟩
  · exact ⟨rfl, rfl, rfl, rfl, rfl, .inr rfl⟩

theorem parse_localForm : parse "== 1.0, == 1.0+abc" =
    .error (.conflict .differentPins "== 1.0, == 1.0+abc") := by decide +kernel

theorem intersect_localForm : bareOne.intersect fullOne =
    .error (.conflict .differentPins "== 1.0 & == 1.0+abc") := by decide +kernel

theorem accepts_localForm :
    bareOne.accepts "1.0+abc" = .ok true ∧ fullOne.accepts "1.0+abc" = .ok true := ⟨rfl, rfl⟩

theorem error_iff_pinnedTwice_localForm :
    PinnedTwice ([exactlyOne, exactlyLocalOne].filterMap clause?) exactlyLocalOne.bound ∧
    PinnedTwice (bareOne.clauses ++ fullOne.clauses) exactlyLocalOne.bound ∧
    ¬ PinnedTwice (bareOne.clauses ++ bareOne.clauses) exactlyLocalOne.bound ∧
    bareOne.accepts "1.0+abc" = .ok (bareOne.admits exactlyLocalOne.bound) := by
  obtain ⟨htexts, hranges, haccepts⟩ := error_iff_pinnedTwice exactlyLocalOne.bound
  have hbare : bareOne.admits exactlyLocalOne.bound = true := rfl
  have hfull : fullOne.admits exactlyLocalOne.bound = true := rfl
  have hself : bareOne.intersect bareOne = .ok bareOne := by decide +kernel
  refine ⟨(htexts _ _ writes_localForm fun c hc _ => meets_localForm c hc).1 ⟨_, parse_localForm⟩,
    (hranges _ _ hbare hfull).1 ⟨_, intersect_localForm⟩, fun h => ?_, haccepts _ _ rfl⟩
  obtain ⟨e, he⟩ := (hranges _ _ hbare hbare).2 h
  rw [hself] at he
  cases he

/-- A text and two ranges that are rejected although a version satisfies both clauses. -/
theorem rejects_localForm :
    (∃ cs w, Writes "== 1.0, == 1.0+abc" cs ∧ (∀ c ∈ cs, c.comparison.Meets c.bound w) ∧
      ∃ e, parse "== 1.0, == 1.0+abc" = .error e) ∧
    ∃ a b, parse "== 1.0" = .ok a ∧ parse "== 1.0+abc" = .ok b ∧ a.accepts "1.0+abc" = .ok true ∧
      b.accepts "1.0+abc" = .ok true ∧ ∃ e, a.intersect b = .error e := by
  have hbare : parse "== 1.0" = .ok bareOne := by decide +kernel
  have hfull : parse "== 1.0+abc" = .ok fullOne := by decide +kernel
  obtain ⟨hacceptsBare, hacceptsFull⟩ := accepts_localForm
  exact ⟨⟨_, _, writes_localForm, meets_localForm, _, parse_localForm⟩,
    bareOne, fullOne, hbare, hfull, hacceptsBare, hacceptsFull, _, intersect_localForm⟩

end Range

end HostPrereqs
