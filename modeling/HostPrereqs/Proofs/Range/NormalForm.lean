import HostPrereqs.Proofs.Range.Conflicts
import Mathlib.Data.List.Pairwise

/-!
# Range — the canonical text is a normal form

Canonical clauses stand in one order (`Clause.Precedes`): the lower bound, the upper bound, and
then the exclusions by their bounds.  So two lists of canonical clauses that are alike, in whatever
order and spelling they came about, are the same clause by clause (`Alike.forall₂`), and canonical
clauses are their own canonical clauses (`canonical_canonical`).

* `writes_text`: the text of a range spells its canonical clauses, and a minimum of zero where
  there are none.
* `text_normalForm`: the text of a range is read as a range with this text, and texts with the same
  clauses (`SameClauses`) are ranges with the same canonical clauses or both none.
-/

namespace HostPrereqs

namespace Clause

open Version

variable {c c' d d' : Clause} {cs ds : List Clause}

/-! ### The order of canonical clauses -/

/-- The order in which canonical clauses are written. -/
def Precedes (c d : Clause) : Prop :=
  c.comparison.place < d.comparison.place ∨
    c.comparison = .not ∧ d.comparison = .not ∧ c.bound < d.bound

/-- Spelling makes no difference to the order. -/
theorem Precedes.congr (h : Precedes c d) (hc : c.same c' = true) (hd : d.same d' = true) :
    Precedes c' d' := by
  obtain ⟨hcc, hcb⟩ := same_iff_comparison.1 hc
  obtain ⟨hdc, hdb⟩ := same_iff_comparison.1 hd
  rwa [Precedes, ← hcc, ← hdc, ← lt_congr hcb hdb]

/-- No clause stands before itself, nor two before each other. -/
theorem Precedes.asymm (h : Precedes c d) : ¬ Precedes d c := by
  rintro (hlt | ⟨hd, hc, hlt⟩)
  · rcases h with h | ⟨hc, hd, -⟩
    · exact Nat.lt_asymm h hlt
    · rw [hc, hd] at hlt
      exact Nat.lt_irrefl _ hlt
  · rcases h with h | ⟨-, -, h⟩
    · rw [hc, hd] at h
      exact Nat.lt_irrefl _ h
    · grind

theorem Precedes.same_eq_false (h : Precedes c d) : c.same d = false :=
  Bool.eq_false_iff.2 fun hs => h.asymm (h.congr hs (same_comm hs))

/-- Exclusions are in the order of their versions. -/
theorem exclusions_precede (hd : AllDifferent cs) : (exclusions cs).Pairwise Precedes := by
  have hsorted : (exclusions cs).Pairwise fun a b => a.bound.upTo b.bound = true := by
    refine @List.pairwise_mergeSort Clause (fun a b => a.bound.upTo b.bound)
      (fun a b c hab hbc => Std.le_trans (upTo_iff.1 hab) (upTo_iff.1 hbc)) (fun a b => ?_) _
    rw [Bool.or_eq_true]
    exact Std.le_total (a := a.bound) (b := b.bound)
  refine (hsorted.and (allDifferent_exclusions hd)).imp_of_mem fun {a b} ha hb ⟨hle, hne⟩ => ?_
  have ha := not_of_mem_exclusions ha
  have hb := not_of_mem_exclusions hb
  -- bounds that are not the same are strictly in order
  refine .inr ⟨ha, hb, ?_⟩
  have hbound : ¬ a.bound.same b.bound = true := fun hs => by
    rw [same_iff_comparison.2 ⟨ha.trans hb.symm, hs⟩] at hne
    cases hne
  rw [upTo_iff] at hle
  rw [same_iff_le] at hbound
  grind

/-- Canonical clauses are in order. -/
theorem canonical_precede (hd : AllDifferent cs) (hcs : conflict? cs = none) :
    (canonical cs).Pairwise Precedes := by
  by_cases hp : pins cs = []
  · exact pairwise_canonical hp .inl (exclusions_precede hd)
  · -- there is one exact version, as any two would be the same
    rw [canonical_of_pinned hp]
    refine (hd.filter _).imp_of_mem fun {a b} ha hb hne => ?_
    obtain ⟨hacs, hae⟩ := mem_pins.1 ha
    obtain ⟨hbcs, hbe⟩ := mem_pins.1 hb
    have hpins := (conflict?_eq_none_iff.1 hcs).1
    have hsame := same_of_admits hae hbe (hpins b hbcs hbe a hacs) (hpins a hacs hae b hbcs)
    rw [same_iff_comparison.2 ⟨hae.trans hbe.symm, hsame⟩] at hne
    cases hne

/-- Alike clauses that are in order are the same one by one. -/
theorem Alike.forall₂ (h : Alike cs ds) (hcs : cs.Pairwise Precedes) (hds : ds.Pairwise Precedes) :
    List.Forall₂ (fun c d => c.same d = true) cs ds := by
  induction cs generalizing ds with
  | nil =>
      rw [h.eq_nil_iff.1 rfl]
      exact .nil
  | cons c cs ih =>
      cases ds with
      | nil => cases h.eq_nil_iff.2 rfl
      | cons d ds =>
          obtain ⟨hc, hcs⟩ := List.pairwise_cons.1 hcs
          obtain ⟨hd, hds⟩ := List.pairwise_cons.1 hds
          -- if the first ones differed, each would come after the other
          have hfirst : c.same d = true := by
            obtain ⟨d', hd', hdc⟩ := h.1 c List.mem_cons_self
            obtain ⟨c', hc', hcd⟩ := h.2 d List.mem_cons_self
            rcases List.mem_cons.1 hd' with rfl | hd'
            · exact same_comm hdc
            · rcases List.mem_cons.1 hc' with rfl | hc'
              · exact hcd
              · exact absurd ((hc c' hc').congr (same_self c) hcd)
                  ((hd d' hd').congr (same_self d) hdc).asymm
          refine .cons hfirst (ih ⟨fun a ha => ?_, fun b hb => ?_⟩ hcs hds)
          · obtain ⟨b, hb, hba⟩ := h.1 a (List.mem_cons_of_mem c ha)
            rcases List.mem_cons.1 hb with rfl | hb
            · have hca := same_tran hfirst hba
              rw [(hc a ha).same_eq_false] at hca
              cases hca
            · exact ⟨b, hb, hba⟩
          · obtain ⟨a, ha, hab⟩ := h.2 b (List.mem_cons_of_mem d hb)
            rcases List.mem_cons.1 ha with rfl | ha
            · have hdb := same_tran (same_comm hfirst) hab
              rw [(hd b hb).same_eq_false] at hdb
              cases hdb
            · exact ⟨a, ha, hab⟩

/-! ### Canonical clauses of canonical clauses -/

/-- Canonical clauses are like the canonical clauses of these. -/
theorem alike_canonical_canonical (cs : List Clause) :
    Alike (canonical (canonical cs)) (canonical cs) := by
  refine ⟨.of_subset fun _ => mem_of_mem_canonical, fun c hc => ?_⟩
  have hwithin : Within (canonical cs) cs := .of_subset fun _ => mem_of_mem_canonical
  exact ((kept_of_mem_canonical hc).of_within hwithin hc (same_self c)).exists_mem_canonical

theorem AllDifferent.eq_of_same (hd : AllDifferent cs) (hc : c ∈ cs) (hc' : c' ∈ cs)
    (h : c.same c' = true) : c = c' := by
  have : Std.Symm fun a b : Clause => a.same b = false := ⟨fun _ _ => same_eq_false_comm⟩
  refine Decidable.byContradiction fun hne => ?_
  rw [hd.forall hc hc' hne] at h
  cases h

/-- Lists that are the same one by one are equal where the same clauses are. -/
theorem eq_of_forall₂ (h : List.Forall₂ (fun c d => c.same d = true) cs ds)
    (heq : ∀ c ∈ cs, ∀ d ∈ ds, c.same d = true → c = d) : cs = ds := by
  induction h with
  | nil => rfl
  | @cons c d cs ds hcd _ ih =>
      obtain rfl := heq c List.mem_cons_self d List.mem_cons_self hcd
      rw [ih fun a ha b hb => heq a (List.mem_cons_of_mem c ha) b (List.mem_cons_of_mem c hb)]

/-- Canonical clauses are their own canonical clauses. -/
theorem canonical_canonical (hd : AllDifferent cs) (hcs : conflict? cs = none) :
    canonical (canonical cs) = canonical cs := by
  have hdifferent := allDifferent_canonical hd
  have hconflict : conflict? (canonical cs) = none :=
    (Within.of_subset fun _ => mem_of_mem_canonical).conflict?_eq_none hcs
  refine eq_of_forall₂ ((alike_canonical_canonical cs).forall₂
    (canonical_precede hdifferent hconflict) (canonical_precede hd hcs)) fun c hc d hdc => ?_
  exact hdifferent.eq_of_same (mem_of_mem_canonical hc) hdc

/-- A clause as it is written. -/
def written (c : Clause) : WrittenClause := ⟨c.comparison, c.bound, c.fits, c.local_ok⟩

end Clause

namespace WrittenClause

open Clause

variable {c d : WrittenClause} {cs ds : List WrittenClause}

/-- The same clause up to the spelling of its version. -/
def SameAs (c d : WrittenClause) : Prop :=
  c.comparison = d.comparison ∧ c.bound.same d.bound = true

/-- The same clauses up to the spelling of their versions, in whatever order and however often,
but for minimums of zero. -/
def SameClauses (cs ds : List WrittenClause) : Prop :=
  (∀ c ∈ cs, ¬ c.IsZeroMinimum → ∃ d ∈ ds, d.SameAs c) ∧
    ∀ d ∈ ds, ¬ d.IsZeroMinimum → ∃ c ∈ cs, c.SameAs d

theorem SameAs.isZeroMinimum (h : d.SameAs c) (hd : d.IsZeroMinimum) : c.IsZeroMinimum :=
  ⟨h.1.symm.trans hd.1, Version.same_trans (Version.same_symm h.2) hd.2⟩

theorem mem_filterMap_clause?_iff {a : Clause} :
    a ∈ cs.filterMap clause? ↔ a.written ∈ cs ∧ ¬ a.written.IsZeroMinimum := by
  constructor
  · intro h
    obtain ⟨c, hc, hca⟩ := List.mem_filterMap.1 h
    have hzero : ¬ c.IsZeroMinimum := fun hzero => by
      rw [clause?_eq_none_iff.2 hzero] at hca
      cases hca
    rw [clause?_of_not_isZeroMinimum hzero] at hca
    obtain rfl := Option.some.inj hca
    exact ⟨hc, hzero⟩
  · rintro ⟨hc, hzero⟩
    exact List.mem_filterMap.2 ⟨_, hc, clause?_of_not_isZeroMinimum hzero⟩

/-- Texts with the same clauses denote alike clauses. -/
theorem SameClauses.alike (h : SameClauses cs ds) :
    Alike (cs.filterMap clause?) (ds.filterMap clause?) := by
  have hwithin : ∀ {cs ds : List WrittenClause},
      (∀ c ∈ cs, ¬ c.IsZeroMinimum → ∃ d ∈ ds, d.SameAs c) →
      Within (cs.filterMap clause?) (ds.filterMap clause?) := by
    intro cs ds h a ha
    obtain ⟨hmem, hzero⟩ := mem_filterMap_clause?_iff.1 ha
    obtain ⟨d, hd, hsimilar⟩ := h _ hmem hzero
    have hzero' : ¬ d.IsZeroMinimum := fun hd => hzero (hsimilar.isZeroMinimum hd)
    exact ⟨_, List.mem_filterMap.2 ⟨d, hd, clause?_of_not_isZeroMinimum hzero'⟩,
      same_iff_comparison.2 hsimilar⟩
  exact ⟨hwithin h.1, hwithin h.2⟩

/-- The minimum of zero, which a range without clauses is written with. -/
def zeroMinimum : WrittenClause := ⟨.atLeast, .zero, by decide, .inl rfl⟩

end WrittenClause

namespace Range

open Clause WrittenClause

variable {r s : Range} {t u : String} {cs ds : List WrittenClause}

/-! ### The text of a range -/

theorem Spells.spelled {w : List Char} {c : Clause} (h : Spells w c) : c.written.Spelled w := by
  have htrim : Text.trim w = w := Text.trim_eq_self h.head h.last
  have hversion := Version.parse?_text c.fits
  rw [Version.text] at hversion
  exact .intro (signed_of_splitClause (htrim.symm ▸ h.split)) hversion

/-- The text of a range depends on its canonical clauses alone. -/
theorem text_eq (h : r.canonical = s.canonical) : r.text = s.text := by
  rw [text, text, h]

theorem text_reduced (r : Range) : r.reduced.text = r.text :=
  text_eq (canonical_canonical r.distinct r.consistent)

/-- What the text of a range is written with. -/
def writtenClauses (r : Range) : List WrittenClause :=
  if r.canonical = [] then [zeroMinimum] else r.canonical.map written

theorem spelled_blank {part : List Char} {c : WrittenClause} (h : c.Spelled part) :
    c.Spelled (' ' :: part) := by
  obtain ⟨⟨sign, between, htext, hsigned, hblank, htrim⟩, hversion⟩ := h
  exact .intro (.intro sign between ((trim_blank part).trans htext) hsigned hblank htrim) hversion

/-- Clauses with commas between them are a list in the grammar. -/
theorem writesList_intercalate {f : Clause → List Char} {cs : List Clause} (hne : cs ≠ [])
    (h : ∀ c ∈ cs, Spells (f c) c) :
    WritesList ([',', ' '].intercalate (cs.map f)) (cs.map written) := by
  obtain ⟨c, ds, rfl⟩ := List.exists_cons_of_ne_nil hne
  have hcommas : ∀ u ∈ f c :: ds.map f, ',' ∉ u := by
    intro u hu
    obtain ⟨d, hd, rfl⟩ := List.mem_map.1 (List.map_cons ▸ hu)
    exact (h d hd).comma_free
  rw [writesList_iff, List.map_cons, splitCommas_intercalate hcommas, List.map_cons]
  -- all parts but the first start with a blank
  refine .cons (h c List.mem_cons_self).spelled ?_
  rw [List.map_map, List.forall₂_map_left_iff, List.forall₂_map_right_iff, List.forall₂_same]
  exact fun d hd => spelled_blank (h d (List.mem_cons_of_mem c hd)).spelled

/-- The text of a range spells its canonical clauses. -/
theorem writes_text (r : Range) : Writes r.text r.writtenClauses := by
  unfold writtenClauses
  split
  · rename_i hnil
    have hzero : r.text = "0" := by rw [text, hnil]
    rw [hzero]
    exact .inr (.last (.intro (.intro [] [] rfl (.inr ⟨rfl, rfl⟩) (List.forall_mem_nil _) rfl) rfl))
  · rename_i hne
    obtain ⟨f, hf, htext⟩ := exists_spelling hne
    rw [Writes, htext, String.toList_ofList, trim_intercalate hf]
    exact .inr (writesList_intercalate hne hf)

theorem forall₂_writtenClauses (h : List.Forall₂ (fun c d => c.same d = true) r.canonical
    s.canonical) : List.Forall₂ SameAs r.writtenClauses s.writtenClauses := by
  unfold writtenClauses
  generalize r.canonical = cs at h ⊢
  generalize s.canonical = ds at h ⊢
  cases h with
  | nil => exact .cons ⟨rfl, Version.same_refl _⟩ .nil
  | cons hcd hmore =>
      rw [if_neg (List.cons_ne_nil _ _), if_neg (List.cons_ne_nil _ _), List.forall₂_map_left_iff,
        List.forall₂_map_right_iff]
      exact .imp (fun _ _ => same_iff_comparison.1) (.cons hcd hmore)

/-! ### Texts with the same clauses -/

/-- Clauses make a range just when they do not contradict each other. -/
theorem exists_ok_iff {cs : List Clause} :
    (∃ r, ofClausesOf t cs = .ok r) ↔ conflict? cs = none := by
  have herror : (∃ e, ofClausesOf t cs = .error e) ↔ conflict? cs ≠ none := exists_error_iff
  rw [← not_iff_not, ← ne_eq (conflict? cs), ← herror]
  cases ofClausesOf t cs <;> simp

/-- The text of a range is read, and as a range with this text.  Texts whose clauses are the same
are both ranges or both errors, and the texts of these ranges have the same clauses one by one.
This is about the texts of the grammar, where versions have no numeral that is too long; what breaks
off at one is no range, although its version may be that of another text. -/
theorem text_normalForm (r : Range) (t u : String) :
    (∃ r', parse r.text = .ok r' ∧ r'.text = r.text) ∧
    (∀ cs ds, Writes t cs → Writes u ds → SameClauses cs ds →
      ((∃ a, parse t = .ok a) ↔ ∃ b, parse u = .ok b) ∧
      ∀ a b, parse t = .ok a → parse u = .ok b →
        ∃ cs' ds', Writes a.text cs' ∧ Writes b.text ds' ∧ List.Forall₂ SameAs cs' ds') ∧
    ∀ cause, BreaksOff t cause → parse t = .error (.hugeNumber cause (Text.strip t)) := by
  refine ⟨⟨r.reduced, parse_text r, text_reduced r⟩, fun cs ds ht hu hsame => ?_,
    fun cause => parse_of_breaksOff⟩
  rw [parse_of_writes ht, parse_of_writes hu, exists_ok_iff, exists_ok_iff]
  refine ⟨hsame.alike.conflict?_iff, fun a b ha hb => ?_⟩
  have hclauses : Alike a.clauses b.clauses :=
    (alike_of_ofClausesOf ha).trans (hsame.alike.trans (alike_of_ofClausesOf hb).symm)
  exact ⟨_, _, writes_text a, writes_text b, forall₂_writtenClauses (hclauses.canonical.forall₂
    (canonical_precede a.distinct a.consistent) (canonical_precede b.distinct b.consistent))⟩

/-- A final version without an epoch. -/
def ofRelease (n : Nat) (ns : List Nat) : Version :=
  ⟨0, n :: ns, none, none, none, [], List.cons_ne_nil n ns⟩

/-- A minimum and an exclusion. -/
def oneButTwo : List WrittenClause :=
  [⟨.atLeast, ofRelease 1 [0], by decide, .inl rfl⟩,
    ⟨.not, ofRelease 2 [1], by decide, .inl rfl⟩, zeroMinimum]

/-- The same in another order, spelled in another way, and with the exclusion twice. -/
def oneButTwoTwice : List WrittenClause :=
  [⟨.not, ofRelease 2 [1, 0], by decide, .inl rfl⟩,
    ⟨.atLeast, ofRelease 1 [], by decide, .inl rfl⟩, ⟨.not, ofRelease 2 [1], by decide, .inl rfl⟩]

theorem writes_oneButTwo : Writes " 1.0,!= 2.1, 0" oneButTwo := by
  have hblank : ∀ c ∈ " ".toList, Text.isBlank c = true := List.forall_mem_singleton.2 rfl
  have hlist : WritesList ("1.0".toList ++ ',' :: ("!= 2.1".toList ++ ',' :: " 0".toList))
      oneButTwo :=
    .cons (.intro (.intro [] [] rfl (.inr ⟨rfl, rfl⟩) nofun rfl) rfl)
      (.cons (.intro (.intro "!=".toList " ".toList rfl (.inl rfl) hblank rfl) rfl)
        (.last (.intro (.intro [] [] rfl (.inr ⟨rfl, rfl⟩) nofun rfl) rfl)))
  exact .inr hlist

theorem writes_oneButTwoTwice : Writes "!=2.1.0 , >= 1,!=2.1" oneButTwoTwice := by
  have hblank : ∀ c ∈ " ".toList, Text.isBlank c = true := List.forall_mem_singleton.2 rfl
  have hlist : WritesList ("!=2.1.0 ".toList ++ ',' :: (" >= 1".toList ++ ',' :: "!=2.1".toList))
      oneButTwoTwice :=
    .cons (.intro (.intro "!=".toList [] rfl (.inl rfl) nofun rfl) rfl)
      (.cons (.intro (.intro ">=".toList " ".toList rfl (.inl rfl) hblank rfl) rfl)
        (.last (.intro (.intro "!=".toList [] rfl (.inl rfl) nofun rfl) rfl)))
  exact .inr hlist

/-- The number one, with zeros in front. -/
def paddedOne : List Char := List.replicate 5000 '0' ++ ['1']

theorem isDigit_of_mem_paddedOne : ∀ d ∈ paddedOne, d.isDigit = true :=
  List.forall_mem_append.2
    ⟨fun _ hd => (List.mem_replicate.1 hd).2 ▸ rfl, List.forall_mem_singleton.2 rfl⟩

theorem length_paddedOne : paddedOne.length = 5001 := by
  rw [paddedOne, List.length_append, List.length_replicate]
  rfl

theorem breaksOff_paddedOne : BreaksOff (String.ofList paddedOne) (.read 5001) := by
  have hlong : Numeral.digitLimit < paddedOne.length := by rw [length_paddedOne]; decide
  exact length_paddedOne ▸ breaksOff_of_digits isDigit_of_mem_paddedOne hlong

theorem text_normalForm_oneButTwo : SameClauses oneButTwo oneButTwoTwice ∧
    (∃ r s, parse " 1.0,!= 2.1, 0" = .ok r ∧ parse "!=2.1.0 , >= 1,!=2.1" = .ok s ∧
      r.text = ">= 1.0, != 2.1" ∧ s.text = ">= 1, != 2.1.0" ∧
      ∃ cs ds, Writes r.text cs ∧ Writes s.text ds ∧ List.Forall₂ SameAs cs ds) ∧
    ∃ e, parse (String.ofList paddedOne) = .error e := by
  have hsame : SameClauses oneButTwo oneButTwoTwice := by
    unfold SameClauses SameAs
    decide +kernel
  refine ⟨hsame, ?_, _, (text_normalForm any (String.ofList paddedOne) "1").2.2 _
    breaksOff_paddedOne⟩
  have hread : (parse " 1.0,!= 2.1, 0").map Range.text = .ok ">= 1.0, != 2.1" := by decide +kernel
  obtain ⟨r, hr, hrtext⟩ := Result.map_eq_ok.1 hread
  obtain ⟨hboth, htexts⟩ :=
    (text_normalForm r _ _).2.1 _ _ writes_oneButTwo writes_oneButTwoTwice hsame
  obtain ⟨s, hs⟩ := hboth.1 ⟨r, hr⟩
  have hstext : (parse "!=2.1.0 , >= 1,!=2.1").map Range.text = .ok ">= 1, != 2.1.0" := by
    decide +kernel
  rw [hs] at hstext
  exact ⟨r, s, hr, hs, hrtext, Except.ok.inj hstext, htexts r s hr hs⟩

/-- Two texts that denote one version, of which only one is a range. -/
theorem parse_one_ne_paddedOne : ∃ v : Version,
    Version.ofChars? (Version.plain "1") = some v ∧
    Version.ofChars? (Version.plain (String.ofList paddedOne)) = some v ∧
    (∃ r, parse "1" = .ok r) ∧ ∀ s, parse (String.ofList paddedOne) ≠ .ok s := by
  refine ⟨ofRelease 1 [], rfl, ?_, ⟨_, rfl⟩, fun s hs => ?_⟩
  · have hone : Version.numeral paddedOne = 1 := Version.numeral_zeros_append 5000 ['1']
    have hne : paddedOne ≠ [] := List.append_ne_nil_of_right_ne_nil _ (List.cons_ne_nil _ _)
    rw [Version.plain_of_digits isDigit_of_mem_paddedOne,
      Version.ofChars?_of_digits hne isDigit_of_mem_paddedOne, hone]
    rfl
  · rw [parse_of_breaksOff breaksOff_paddedOne] at hs
    cases hs

end Range

end HostPrereqs
