import HostPrereqs.Proofs.Range.Canonical
import HostPrereqs.Proofs.Version.RoundTrip
import HostPrereqs.Range.Text

/-!
# Range — a range is read back from its text, reduced

The text of a range is its canonical clauses with commas between them.  Reading it gives the
range of these clauses, which is `Range.reduced`; a text that a range was written with can
therefore always be read again.

* `parse_text`: reading the text of a range gives the reduced range.
* `strip_text`: the text of a range has no blanks around it.
-/

namespace HostPrereqs

namespace Clause

variable {c : Clause} {cs : List Clause}

/-! ### Reduced ranges -/

/-- No two clauses of a list are the same. -/
abbrev AllDifferent (cs : List Clause) : Prop := cs.Pairwise fun a b => a.same b = false

theorem same_eq_false_comm {a b : Clause} (h : a.same b = false) : b.same a = false :=
  Bool.eq_false_iff.2 fun h' => by simp [same_comm h'] at h

theorem same_eq_false_of_ne {a b : Clause} (h : a.comparison ≠ b.comparison) :
    a.same b = false :=
  Bool.eq_false_iff.2 fun h' => h (same_iff_comparison.1 h').1

theorem allDifferent_exclusions (h : AllDifferent cs) : AllDifferent (exclusions cs) :=
  (List.Perm.pairwise_iff same_eq_false_comm (List.mergeSort_perm _ _)).2 (h.filter _)

/-- Canonical clauses are all different. -/
theorem allDifferent_canonical (h : AllDifferent cs) : AllDifferent (canonical cs) := by
  by_cases hp : pins cs = []
  · exact pairwise_canonical hp
      (fun hlt => same_eq_false_of_ne fun he => Nat.ne_of_lt hlt (congrArg _ he))
      (allDifferent_exclusions h)
  · rw [canonical_of_pinned hp]
    exact h.filter _

theorem distinct_eq_self (h : AllDifferent cs) : distinct cs = cs := by
  suffices hgen : ∀ kept : List Clause, AllDifferent (kept ++ cs) →
      cs.foldl (fun kept c => if kept.any (·.same c) then kept else kept ++ [c]) kept =
        kept ++ cs from hgen [] h
  clear h
  induction cs with
  | nil => intro kept _; simp
  | cons c cs ih =>
      intro kept hall
      have hnew : ¬ kept.any (·.same c) = true := by
        rw [List.any_eq_true]
        rintro ⟨d, hd, hs⟩
        have := (List.pairwise_append.1 hall).2.2 d hd c List.mem_cons_self
        simp [this] at hs
      rw [List.foldl_cons, if_neg hnew, ih _ (by simpa using hall)]
      simp

/-! ### The text of a clause -/

theorem toList_text (c : Clause) :
    c.text.toList = c.comparison.sign.toList ++ ' ' :: c.bound.toChars := by
  simp [text, Version.text]

theorem comma_not_mem_toChars (v : Version) : ',' ∉ v.toChars := fun h =>
  absurd (Version.isVersionChar_of_mem h) (by decide)

theorem comma_not_mem_text (c : Clause) : ',' ∉ c.text.toList := by
  rw [toList_text, List.mem_append, List.mem_cons]
  rintro (h | h | h)
  · revert h
    cases c.comparison <;> decide
  · cases h
  · exact comma_not_mem_toChars c.bound h

end Clause

namespace Range

open Clause

/-- The range of the canonical clauses of a range. -/
def reduced (r : Range) : Range where
  clauses := r.canonical
  distinct := allDifferent_canonical r.distinct
  consistent := (Within.of_subset fun _ => mem_of_mem_canonical).conflict?_eq_none r.consistent

/-- Clauses that are all different and have no conflict make the range of just these. -/
theorem ofClauses_eq_ok {cs : List Clause} (hd : AllDifferent cs)
    (hc : Clause.conflict? cs = none) : ofClauses cs = .ok ⟨cs, hd, hc⟩ := by
  have hself := distinct_eq_self hd
  unfold ofClauses
  split
  · rename_i h
    rw [hself, hc] at h
    cases h
  · exact congrArg Except.ok (by simp [hself])

/-- A range has the clauses that it was made of, each once. -/
theorem ofClauses_spec {cs : List Clause} {x : Range} (h : ofClauses cs = .ok x) :
    x.clauses = Clause.distinct cs := by
  unfold ofClauses at h
  split at h
  · cases h
  · exact Except.ok.inj h ▸ rfl

theorem exists_ofClauses {cs : List Clause} (h : Clause.conflict? (Clause.distinct cs) = none) :
    ∃ x, ofClauses cs = .ok x := by
  unfold ofClauses
  split
  · rename_i h'
    rw [h] at h'
    cases h'
  · exact ⟨_, rfl⟩

/-! ### Reading a clause -/

theorem word?_toChars (v : Version) : word? v.toChars = some v.toChars := by
  obtain ⟨d, ds, hd, -⟩ := Version.toChars_head v
  have hblank : ∀ c ∈ v.toChars, Text.isBlank c = false := fun c hc =>
    Version.not_isBlank_of_isVersionChar (Version.isVersionChar_of_mem hc)
  have hdrop : v.toChars.dropWhile Text.isBlank = v.toChars :=
    Text.dropWhile_eq_self fun c hc => hblank c (List.mem_of_mem_head? hc)
  have hany : v.toChars.any Text.isBlank = false := List.any_eq_false.2 (by simpa using hblank)
  have hne : v.toChars.isEmpty = false := by rw [hd]; rfl
  rw [word?, hdrop, hany, hne]
  rfl

theorem word?_blank (v : Version) : word? (' ' :: v.toChars) = some v.toChars :=
  word?_toChars v

/-- The text of a clause is taken apart into its sign and its bound. -/
theorem splitClause_text (c : Clause) :
    splitClause c.text.toList = some (c.comparison, c.bound.toChars) := by
  rw [toList_text]
  cases c.comparison <;> simp [splitClause, signs, Comparison.sign, Version.after, word?_blank]

theorem splitClause_toChars (v : Version) :
    splitClause v.toChars = some (.atLeast, v.toChars) := by
  -- a version starts with a digit, and no sign does
  obtain ⟨d, ds, hd, hdigit⟩ := Version.toChars_head v
  have hafter : ∀ s ∈ signs, Version.after s.1.toList v.toChars = none := by
    intro s hs
    have hne : ∀ x : Char, x.isDigit = false → x ≠ d := fun x hx h => by
      rw [h, hdigit] at hx
      cases hx
    have h₁ := hne '>' rfl
    have h₂ := hne '<' rfl
    have h₃ := hne '=' rfl
    have h₄ := hne '!' rfl
    simp only [signs, List.mem_cons, List.not_mem_nil, or_false] at hs
    rcases hs with rfl | rfl | rfl | rfl | rfl | rfl <;>
      simp [hd, Version.after, h₁, h₂, h₃, h₄]
  rw [splitClause, List.findSome?_eq_none_iff.2, word?_toChars]
  · rfl
  · intro s hs
    simp [hafter s hs]

/-- A clause whose bound is read. -/
theorem readClause_of_read {range : String} {s w : List Char} {comparison : Comparison}
    {bound : Version} (hs : splitClause s = some (comparison, w))
    (hread : Version.read (String.ofList w) = .ok (some bound)) : readClause range s =
      if ht : comparison = .atLeast ∧ bound.same .zero = true then .ok none
      else if hl : bound.localPart = [] ∨ comparison.takesLocal = true then
        .ok (some ⟨comparison, bound, Version.fits_of_read hread, hl, ht⟩)
      else .error (.localBound (String.ofList s) range) := by
  unfold readClause
  rw [hs]
  dsimp only
  split
  · rename_i h
    rw [hread] at h
    cases h
  · rename_i h
    rw [hread] at h
    cases h
  · rename_i h
    rw [hread] at h
    cases h
    rfl

/-- A clause is read back from its text. -/
theorem readClause_eq_ok {range : String} {s : List Char} {c : Clause}
    (hs : splitClause s = some (c.comparison, c.bound.toChars)) :
    readClause range s = .ok (some c) := by
  have hread : Version.read (String.ofList c.bound.toChars) = .ok (some c.bound) :=
    Version.read_text c.fits
  rw [readClause_of_read hs hread, dif_neg c.not_trivial, dif_pos c.local_ok]

/-! ### Reading clauses with commas between them -/

/-- A text that one clause is read from. -/
structure Spells (w : List Char) (c : Clause) : Prop where
  ne_nil : w ≠ []
  comma_free : ',' ∉ w
  head : ∀ x ∈ w.head?, Text.isBlank x = false
  last : ∀ x ∈ w.getLast?, Text.isBlank x = false
  split : splitClause w = some (c.comparison, c.bound.toChars)

theorem spells_text (c : Clause) : Spells c.text.toList c := by
  refine ⟨?_, comma_not_mem_text c, fun x hx => ?_, fun x hx => ?_, splitClause_text c⟩
  · rw [toList_text]
    simp
  · rw [toList_text] at hx
    cases hc : c.comparison <;> rw [hc] at hx <;> cases hx <;> decide
  · obtain ⟨d, ds, hd, -⟩ := Version.toChars_head c.bound
    rw [toList_text, List.getLast?_append, List.getLast?_cons_of_ne_nil (by simp [hd]),
      List.getLast?_eq_some_getLast (by simp [hd])] at hx
    obtain rfl := Option.some.inj hx
    exact Version.not_isBlank_of_isVersionChar (Version.isVersionChar_of_mem (List.getLast_mem _))

theorem spells_bound {c : Clause} (h : c.comparison = .atLeast) : Spells c.bound.toChars c := by
  have hblank : ∀ x ∈ c.bound.toChars, Text.isBlank x = false := fun x hx =>
    Version.not_isBlank_of_isVersionChar (Version.isVersionChar_of_mem hx)
  refine ⟨?_, comma_not_mem_toChars c.bound, fun x hx => hblank x (List.mem_of_mem_head? hx),
    fun x hx => hblank x (List.mem_of_getLast? hx), h ▸ splitClause_toChars c.bound⟩
  obtain ⟨d, ds, hd, -⟩ := Version.toChars_head c.bound
  simp [hd]

theorem splitCommas_of_not_mem {w : List Char} (h : ',' ∉ w) : splitCommas w = [w] := by
  induction w with
  | nil => rfl
  | cons x w ih =>
      rw [List.mem_cons, not_or] at h
      rw [splitCommas, if_neg (Ne.symm h.1), ih h.2]

theorem splitCommas_append {w : List Char} (h : ',' ∉ w) (s : List Char) :
    splitCommas (w ++ ',' :: s) = w :: splitCommas s := by
  induction w with
  | nil => rfl
  | cons x w ih =>
      rw [List.mem_cons, not_or] at h
      rw [List.cons_append, splitCommas, if_neg (Ne.symm h.1), ih h.2]

/-- What was joined by commas is taken apart at them. -/
theorem splitCommas_intercalate {w : List Char} {ws : List (List Char)}
    (h : ∀ u ∈ w :: ws, ',' ∉ u) :
    splitCommas ([',', ' '].intercalate (w :: ws)) = w :: ws.map (' ' :: ·) := by
  induction ws generalizing w with
  | nil =>
      rw [List.intercalate_singleton, splitCommas_of_not_mem (h w List.mem_cons_self)]
      rfl
  | cons u us ih =>
      have hu := ih fun u hu => h u (List.mem_cons_of_mem w hu)
      rw [List.intercalate_cons_cons, List.append_assoc, List.cons_append,
        splitCommas_append (h w List.mem_cons_self), List.cons_append, splitCommas,
        if_neg (by decide), List.nil_append, hu]
      rfl

theorem trim_blank (w : List Char) : Text.trim (' ' :: w) = Text.trim w := by
  rw [Text.trim, List.dropWhile_cons_of_pos (by decide)]
  rfl

/-- Clauses are read back one by one. -/
theorem readClauses_eq_ok {f : Clause → List Char} {cs : List Clause} (range : String)
    (h : ∀ c ∈ cs, Spells (f c) c) {parts : List (List Char)}
    (hparts : parts.map Text.trim = cs.map f) : readClauses range parts = .ok cs := by
  induction cs generalizing parts with
  | nil =>
      obtain rfl : parts = [] := by simpa using hparts
      rfl
  | cons c cs ih =>
      obtain ⟨part, parts, rfl, htrim, hrest⟩ := List.map_eq_cons_iff.1 hparts
      have hc := h c List.mem_cons_self
      have hempty : (f c).isEmpty = false := by simpa using hc.ne_nil
      rw [readClauses, htrim, hempty, readClause_eq_ok hc.split,
        ih (fun c hc => h c (List.mem_cons_of_mem _ hc)) hrest]
      rfl

theorem last_intercalate {f : Clause → List Char} {cs : List Clause}
    (h : ∀ c ∈ cs, Spells (f c) c) :
    ∀ x ∈ ([',', ' '].intercalate (cs.map f)).getLast?, Text.isBlank x = false := by
  induction cs with
  | nil => simp
  | cons c cs ih =>
      have hc := h c List.mem_cons_self
      cases cs with
      | nil =>
          rw [List.map_cons, List.map_nil, List.intercalate_singleton]
          exact hc.last
      | cons d ds =>
          have hd := ih fun e he => h e (List.mem_cons_of_mem c he)
          intro x hx
          rw [List.map_cons, List.map_cons, List.intercalate_cons_cons, List.getLast?_append,
            ← List.map_cons] at hx
          cases hlast : ([',', ' '].intercalate ((d :: ds).map f)).getLast? with
          | none =>
              have hne := (h d (by simp)).ne_nil
              cases ds <;> simp [List.intercalate_cons_cons, hne] at hlast
          | some y =>
              rw [hlast, Option.some_or] at hx
              exact hd x (hlast ▸ hx)

/-- Clauses that are written with commas between them have no blanks around them. -/
theorem trim_intercalate {f : Clause → List Char} {cs : List Clause}
    (h : ∀ c ∈ cs, Spells (f c) c) :
    Text.trim ([',', ' '].intercalate (cs.map f)) = [',', ' '].intercalate (cs.map f) := by
  refine Text.trim_eq_self ?_ (last_intercalate h)
  cases cs with
  | nil => simp
  | cons c cs =>
      have hc := h c List.mem_cons_self
      obtain ⟨x, w, hw⟩ := List.exists_cons_of_ne_nil hc.ne_nil
      intro y hy
      refine hc.head y ?_
      rw [hw]
      cases cs <;> simpa [List.intercalate_cons_cons, hw] using hy

/-- Clauses that are written with commas between them are read back. -/
theorem parse_intercalate {f : Clause → List Char} {cs : List Clause} (hne : cs ≠ [])
    (h : ∀ c ∈ cs, Spells (f c) c) (hd : AllDifferent cs) (hc : Clause.conflict? cs = none) :
    parse (String.ofList ([',', ' '].intercalate (cs.map f))) = .ok ⟨cs, hd, hc⟩ := by
  have htrim := trim_intercalate h
  obtain ⟨c, ds, rfl⟩ := List.exists_cons_of_ne_nil hne
  have hcommas : ∀ u ∈ f c :: ds.map f, ',' ∉ u := by
    intro u hu
    obtain ⟨d, hd, rfl⟩ := List.mem_map.1 (List.map_cons ▸ hu)
    exact (h d hd).comma_free
  have hsplit := splitCommas_intercalate hcommas
  have hempty : ([',', ' '].intercalate (f c :: ds.map f)).isEmpty = false := by
    obtain ⟨x, w, hw⟩ := List.exists_cons_of_ne_nil (h c List.mem_cons_self).ne_nil
    cases ds <;> simp [List.intercalate_cons_cons, hw]
  -- all parts but the first start with a blank
  have hparts : (f c :: (ds.map f).map (' ' :: ·)).map Text.trim = (c :: ds).map f := by
    have htrim : ∀ d ∈ c :: ds, Text.trim (f d) = f d := fun d hd =>
      Text.trim_eq_self (h d hd).head (h d hd).last
    simp only [List.map_cons, List.map_map, htrim c List.mem_cons_self, List.cons.injEq,
      true_and]
    refine List.map_congr_left fun d hd => ?_
    rw [Function.comp_apply, Function.comp_apply, trim_blank,
      htrim d (List.mem_cons_of_mem c hd)]
  rw [List.map_cons] at htrim
  rw [parse, List.map_cons, String.toList_ofList, htrim, hempty, hsplit]
  simp only [Bool.false_eq_true, if_false, readClauses_eq_ok _ h hparts]
  change ofClausesOf _ (c :: ds) = _
  rw [ofClausesOf, ofClauses_eq_ok hd hc]
  rfl

/-- A range with clauses is written by a text for each, with commas between them: a single
inclusive lower bound without its sign, and all others with it. -/
theorem exists_spelling {r : Range} (hne : r.canonical ≠ []) : ∃ f : Clause → List Char,
    (∀ c ∈ r.canonical, Spells (f c) c) ∧
      r.text = String.ofList ([',', ' '].intercalate (r.canonical.map f)) := by
  have hsigned : ∀ cs : List Clause, ", ".intercalate (cs.map Clause.text) =
      String.ofList ([',', ' '].intercalate (cs.map (·.text.toList))) := by
    intro cs
    rw [← String.ofList_toList (s := ", ".intercalate _), String.toList_intercalate, List.map_map]
    rfl
  unfold text
  rcases hcs : r.canonical with _ | ⟨c, _ | ⟨d, ds⟩⟩
  · exact absurd hcs hne
  · by_cases hmin : c.comparison = .atLeast
    · refine ⟨fun c => c.bound.toChars, by simpa using spells_bound hmin, ?_⟩
      simp [hmin, Version.text]
    · refine ⟨fun c => c.text.toList, fun c _ => spells_text c, ?_⟩
      simp [hmin]
  · exact ⟨fun c => c.text.toList, fun c _ => spells_text c, hsigned _⟩

/-- The text of a range is read as the range of its canonical clauses. -/
theorem parse_text (r : Range) : parse r.text = .ok r.reduced := by
  have hd : AllDifferent r.canonical := allDifferent_canonical r.distinct
  have hc : Clause.conflict? r.canonical = none := r.reduced.consistent
  change parse r.text = .ok ⟨r.canonical, hd, hc⟩
  by_cases hnil : r.canonical = []
  · unfold text
    generalize r.canonical = cs at hnil hd hc
    subst hnil
    rfl
  · obtain ⟨f, hf, htext⟩ := exists_spelling hnil
    rw [htext]
    exact parse_intercalate hnil hf hd hc

/-- The text of a range has no blanks around it. -/
theorem strip_text (r : Range) : Text.strip r.text = r.text := by
  by_cases hnil : r.canonical = []
  · rw [text, hnil]
    rfl
  · obtain ⟨f, hf, htext⟩ := exists_spelling hnil
    rw [htext, Text.strip, String.toList_ofList, trim_intercalate hf]

end Range

end HostPrereqs
