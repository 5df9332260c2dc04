import HostPrereqs.Proofs.Range.LocalParts
import HostPrereqs.Proofs.Range.RoundTrip
import HostPrereqs.Proofs.Result
import HostPrereqs.Proofs.Version.Spelling
import Mathlib.Data.List.Forall2

/-!
# Range — the grammar of range texts

A range text is blank, or a list of clauses with commas between them (`Writes`).  A clause is a
sign, or none for a minimum, then any blanks, and then a version, with blanks around it
(`WrittenClause.Spelled`).  A minimum of zero is a clause too, although it says nothing.  A version
in which a numeral is too long is none here; reading breaks off at the first one after clauses that
are spelled (`BreaksOff`).

The grammar says which texts are ranges and with what clauses, and not how they are read.  Reading
tries the signs in turn and goes back when one leaves no word; as no sign can start a version, it
finds what the grammar says and nothing else.

* `parse_of_writes`: a text of the grammar is read as the range of its clauses, so that only a
  contradiction among them can keep it from being read.
* `parse_of_breaksOff`, `parse_of_not_writes`: any other text is an error, which carries the text
  without blanks around it; a report is made of it unless reading breaks off.
* `Writes.unique`: a text has one list of clauses at most.
-/

namespace HostPrereqs

/-- A clause as it is written. -/
@[ext]
structure WrittenClause where
  comparison : Comparison
  bound : Version
  fits : bound.Fits
  local_ok : bound.localPart = [] ∨ comparison.takesLocal = true

/-- A text is a sign, or none for a minimum, any blanks and a word, with blanks around them. -/
inductive Signed (part : List Char) (comparison : Comparison) (word : List Char) : Prop where
  | intro (sign between : List Char) (text : Text.trim part = sign ++ (between ++ word))
      (signed : sign = comparison.sign.toList ∨ sign = [] ∧ comparison = .atLeast)
      (blank : ∀ x ∈ between, Text.isBlank x = true) (trimmed : Text.trim word = word)

namespace WrittenClause

/-- A minimum of zero, which says nothing. -/
def IsZeroMinimum (c : WrittenClause) : Prop :=
  c.comparison = .atLeast ∧ c.bound.same .zero = true

instance (c : WrittenClause) : Decidable c.IsZeroMinimum :=
  inferInstanceAs (Decidable (_ ∧ _))

/-- The clause that is written, unless it says nothing. -/
def clause? (c : WrittenClause) : Option Clause :=
  if h : c.IsZeroMinimum then none else some ⟨c.comparison, c.bound, c.fits, c.local_ok, h⟩

/-- A text spells a clause: its word is a version. -/
inductive Spelled (part : List Char) (c : WrittenClause) : Prop where
  | intro {word : List Char} (signed : Signed part c.comparison word)
      (version : Version.parse? (String.ofList word) = some c.bound)

end WrittenClause

/-- A text spells a clause with a version that has a numeral that is too long. -/
inductive SpelledLong (part : List Char) (cause : Numeral.Excess) : Prop where
  | intro {comparison : Comparison} {word : List Char} (signed : Signed part comparison word)
      (version : Version.read (String.ofList word) = .error cause)

namespace Range

open WrittenClause Version

variable {range : String} {part s t w : List Char} {c d : WrittenClause}
  {cs ds : List WrittenClause} {comparison : Comparison} {cause : Numeral.Excess}

/-- A text spells a list of clauses, with commas between them. -/
inductive WritesList : List Char → List WrittenClause → Prop where
  | last {part : List Char} {c : WrittenClause} (spelled : c.Spelled part) : WritesList part [c]
  | cons {part rest : List Char} {c : WrittenClause} {cs : List WrittenClause}
      (spelled : c.Spelled part) (more : WritesList rest cs) :
      WritesList (part ++ ',' :: rest) (c :: cs)

/-- The grammar of range texts. -/
def Writes (text : String) (cs : List WrittenClause) : Prop :=
  Text.trim text.toList = [] ∧ cs = [] ∨ WritesList (Text.trim text.toList) cs

/-- After clauses that are spelled there is one with a numeral that is too long. -/
inductive BreaksOffList (cause : Numeral.Excess) : List Char → Prop where
  | last {part : List Char} (long : SpelledLong part cause) : BreaksOffList cause part
  | here {part rest : List Char} (long : SpelledLong part cause) :
      BreaksOffList cause (part ++ ',' :: rest)
  | later {part rest : List Char} {c : WrittenClause} (spelled : c.Spelled part)
      (more : BreaksOffList cause rest) : BreaksOffList cause (part ++ ',' :: rest)

/-- Reading a range text breaks off at a numeral that is too long. -/
def BreaksOff (text : String) (cause : Numeral.Excess) : Prop :=
  BreaksOffList cause (Text.trim text.toList)

/-! ### Words -/

/-- A text with no sign in it: blanks, and the characters of versions. -/
def Signless (s : List Char) : Prop := ∀ x ∈ s, x ≠ '=' ∧ x ≠ '<' ∧ x ≠ '>' ∧ x ≠ ','

theorem signless_of_blank (h : ∀ x ∈ s, Text.isBlank x = true) : Signless s := by
  have hne : ∀ x : Char, Text.isBlank x = false → ∀ y ∈ s, y ≠ x := by
    rintro x hx y hy rfl
    rw [h y hy] at hx
    cases hx
  exact fun x hx => ⟨hne '=' rfl x hx, hne '<' rfl x hx, hne '>' rfl x hx, hne ',' rfl x hx⟩

theorem signless_of_isWordChar (h : ∀ x ∈ s, isWordChar x = true) : Signless s := fun x hx =>
  ⟨ne_of_isWordChar (h x hx) rfl, ne_of_isWordChar (h x hx) rfl, ne_of_isWordChar (h x hx) rfl,
    ne_of_isWordChar (h x hx) rfl⟩

theorem Signless.append (hs : Signless s) (ht : Signless t) : Signless (s ++ t) := fun x hx =>
  (List.mem_append.1 hx).elim (hs x) (ht x)

/-- Blanks before a word are skipped. -/
theorem word?_append (hs : ∀ x ∈ s, Text.isBlank x = true) (hne : w ≠ [])
    (hw : ∀ x ∈ w, Text.isBlank x = false) : word? (s ++ w) = some w := by
  have hdrop : (s ++ w).dropWhile Text.isBlank = w := by
    rw [List.dropWhile_append_of_pos hs]
    exact Text.dropWhile_eq_self fun x hx => hw x (List.mem_of_mem_head? hx)
  have hany : w.any Text.isBlank = false := List.any_eq_false.2 (by simpa using hw)
  rw [word?, hdrop, hany, List.isEmpty_eq_false_iff.2 hne]
  rfl

theorem eq_append_of_word? (h : word? s = some w) :
    ∃ between, s = between ++ w ∧ (∀ x ∈ between, Text.isBlank x = true) ∧ Text.trim w = w := by
  unfold word? at h
  dsimp only at h
  split at h
  · cases h
  · rename_i hword
    obtain rfl := Option.some.inj h
    refine ⟨_, List.takeWhile_append_dropWhile.symm, fun x hx => ?_, ?_⟩
    · exact List.all_eq_true.1 List.all_takeWhile x hx
    · have hblank : ∀ x ∈ s.dropWhile Text.isBlank, Text.isBlank x = false := by
        simpa using (Bool.or_eq_false_iff.1 (Bool.eq_false_iff.2 hword)).2
      exact Text.trim_eq_self (fun x hx => hblank x (List.mem_of_mem_head? hx))
        fun x hx => hblank x (List.mem_of_getLast? hx)

/-- Only blanks are trimmed. -/
theorem mem_trim {x : Char} (h : x ∈ s) (hx : Text.isBlank x = false) : x ∈ Text.trim s := by
  have hdrop : ∀ t : List Char, x ∈ t → x ∈ t.dropWhile Text.isBlank := by
    intro t ht
    rw [← List.takeWhile_append_dropWhile (p := Text.isBlank) (l := t)] at ht
    refine (List.mem_append.1 ht).resolve_left fun hmem => ?_
    have := List.all_eq_true.1 List.all_takeWhile x hmem
    rw [hx] at this
    cases this
  rw [Text.trim, Text.dropEndWhile, List.mem_reverse]
  exact hdrop _ (List.mem_reverse.2 (hdrop s h))

/-! ### One clause -/

theorem after_eq_of_signless (h : Signless s) : after ['='] s = none := by
  cases s with
  | nil => rfl
  | cons x s => simp [after, Ne.symm (h x List.mem_cons_self).1]

/-- No sign starts a text that has none in it. -/
theorem after_sign_of_signless (h : Signless s) : ∀ p ∈ signs, after p.1.toList s = none := by
  cases s with
  | nil => decide
  | cons x s =>
      obtain ⟨heq, hless, hgreater, -⟩ := h x List.mem_cons_self
      have hs : Signless s := fun y hy => h y (List.mem_cons_of_mem x hy)
      simp [signs, after, Ne.symm heq, Ne.symm hless, Ne.symm hgreater, after_eq_of_signless hs]

/-- A text is split at its sign, if its word has the characters of a version. -/
theorem splitClause_of_signed (h : Signed part comparison w) (hne : w ≠ [])
    (hchars : ∀ x ∈ w, isWordChar x = true) :
    splitClause (Text.trim part) = some (comparison, w) := by
  obtain ⟨sign, between, htext, hsigned, hblank, -⟩ := h
  have hword : word? (between ++ w) = some w :=
    word?_append hblank hne fun x hx => not_isBlank_of_isWordChar (hchars x hx)
  have hsignless : Signless (between ++ w) :=
    (signless_of_blank hblank).append (signless_of_isWordChar hchars)
  rw [htext]
  rcases hsigned with rfl | ⟨rfl, hcomparison⟩
  · have hshort := after_eq_of_signless hsignless
    cases comparison <;> simp [splitClause, signs, Comparison.sign, after, hword, hshort]
  · rw [List.nil_append, splitClause, List.findSome?_eq_none_iff.2, hword, hcomparison]
    · rfl
    · exact fun p hp => by simp [after_sign_of_signless hsignless p hp]

theorem comma_not_mem_of_signed (h : Signed part comparison w)
    (hchars : ∀ x ∈ w, isWordChar x = true) : ',' ∉ part := by
  obtain ⟨sign, between, htext, hsigned, hblank, -⟩ := h
  have hsignless := (signless_of_blank hblank).append (signless_of_isWordChar hchars)
  intro hmem
  have htrimmed := mem_trim hmem rfl
  rw [htext] at htrimmed
  rcases List.mem_append.1 htrimmed with hmem | hmem
  · rcases hsigned with rfl | ⟨rfl, -⟩
    · revert hmem
      cases comparison <;> decide
    · cases hmem
  · exact (hsignless _ hmem).2.2.2 rfl

/-- The word of a spelled clause has the characters of a version. -/
theorem exists_word_of_spelled (h : c.Spelled part) : ∃ word, Signed part c.comparison word ∧
    word ≠ [] ∧ (∀ x ∈ word, isWordChar x = true) ∧
      Version.read (String.ofList word) = .ok (some c.bound) := by
  obtain ⟨hsigned, hversion⟩ := h
  have hread := parse?_eq_some.1 hversion
  have hchars := isWordChar_of_denotes (read_eq_ok_some.1 hread).1
  have htrim : Text.trim _ = _ := match hsigned with | ⟨_, _, _, _, _, htrim⟩ => htrim
  rw [htrim] at hchars
  exact ⟨_, hsigned, hchars.1, hchars.2, hread⟩

theorem exists_word_of_spelledLong (h : SpelledLong part cause) : ∃ comparison word,
    Signed part comparison word ∧ word ≠ [] ∧ (∀ x ∈ word, isWordChar x = true) ∧
      Version.read (String.ofList word) = .error cause := by
  obtain ⟨hsigned, hread⟩ := h
  obtain ⟨v, hv⟩ := (read_eq_error.1 hread).1
  have hchars := isWordChar_of_denotes hv
  have htrim : Text.trim _ = _ := match hsigned with | ⟨_, _, _, _, _, htrim⟩ => htrim
  rw [htrim] at hchars
  exact ⟨_, _, hsigned, hchars.1, hchars.2, hread⟩

/-- What is spelled is split at its sign. -/
theorem splitClause_of_spelled (h : c.Spelled part) : ∃ w,
    splitClause (Text.trim part) = some (c.comparison, w) ∧
      Version.read (String.ofList w) = .ok (some c.bound) := by
  obtain ⟨word, hsigned, hne, hchars, hread⟩ := exists_word_of_spelled h
  exact ⟨word, splitClause_of_signed hsigned hne hchars, hread⟩

/-- Digits alone spell a version, which has a numeral that is too long if there are too many. -/
theorem spelledLong_of_digits (hw : ∀ d ∈ w, d.isDigit = true)
    (hlong : Numeral.digitLimit < w.length) : SpelledLong w (.read w.length) := by
  have htrim := trim_of_digits hw
  exact .intro (.intro [] [] htrim (.inr ⟨rfl, rfl⟩) nofun htrim) (read_of_digits hw hlong)

theorem sign_of_mem_signs : ∀ p ∈ signs, p.1 = p.2.sign := by decide

/-- A text has the parts that it is split into. -/
theorem signed_of_splitClause (h : splitClause (Text.trim part) = some (comparison, w)) :
    Signed part comparison w := by
  rw [splitClause, Option.orElse_eq_orElse, Option.orElse_eq_or, Option.or_eq_some_iff] at h
  rcases h with h | ⟨-, h⟩
  · obtain ⟨⟨sign, k⟩, hmem, h⟩ := List.exists_of_findSome?_eq_some h
    obtain ⟨rest, hafter, h⟩ := Option.bind_eq_some_iff.1 h
    obtain ⟨w', hword, h⟩ := Option.bind_eq_some_iff.1 h
    obtain ⟨rfl, rfl⟩ := Prod.mk.inj (Option.some.inj h)
    obtain ⟨between, rfl, hblank, htrim⟩ := eq_append_of_word? hword
    have hsign : sign = k.sign := sign_of_mem_signs _ hmem
    exact .intro _ _ (eq_append_of_after hafter) (.inl (hsign ▸ rfl)) hblank htrim
  · obtain ⟨w', hword, h⟩ := Option.map_eq_some_iff.1 h
    obtain ⟨rfl, rfl⟩ := Prod.mk.inj h
    obtain ⟨between, hsplit, hblank, htrim⟩ := eq_append_of_word? hword
    exact .intro [] _ hsplit (.inr ⟨rfl, rfl⟩) hblank htrim

/-- A text spells one clause at most. -/
theorem spelled_unique (h : c.Spelled part) (h' : d.Spelled part) : c = d := by
  obtain ⟨w, hsplit, hread⟩ := splitClause_of_spelled h
  obtain ⟨w', hsplit', hread'⟩ := splitClause_of_spelled h'
  obtain ⟨hcomparison, rfl⟩ := Prod.mk.inj (Option.some.inj (hsplit.symm.trans hsplit'))
  have hbound := Option.some.inj (Except.ok.inj (hread.symm.trans hread'))
  exact WrittenClause.ext hcomparison hbound

theorem trim_ne_nil_of_spelled (h : c.Spelled part) : Text.trim part ≠ [] := by
  obtain ⟨w, hsplit, -⟩ := splitClause_of_spelled h
  intro hnil
  rw [hnil] at hsplit
  cases hsplit

theorem comma_not_mem_of_spelled (h : c.Spelled part) : ',' ∉ part := by
  obtain ⟨word, hsigned, -, hchars, -⟩ := exists_word_of_spelled h
  exact comma_not_mem_of_signed hsigned hchars

theorem trim_ne_nil_of_spelledLong (h : SpelledLong part cause) : Text.trim part ≠ [] := by
  obtain ⟨comparison, word, hsigned, hne, hchars, -⟩ := exists_word_of_spelledLong h
  have hsplit := splitClause_of_signed hsigned hne hchars
  intro hnil
  rw [hnil] at hsplit
  cases hsplit

theorem comma_not_mem_of_spelledLong (h : SpelledLong part cause) : ',' ∉ part := by
  obtain ⟨comparison, word, hsigned, -, hchars, -⟩ := exists_word_of_spelledLong h
  exact comma_not_mem_of_signed hsigned hchars

/-- A spelled clause is read. -/
theorem readClause_of_spelled (range : String) (h : c.Spelled part) :
    readClause range (Text.trim part) = .ok c.clause? := by
  obtain ⟨w, hsplit, hread⟩ := splitClause_of_spelled h
  rw [readClause_of_read hsplit hread, clause?]
  by_cases hzero : c.IsZeroMinimum
  · rw [dif_pos hzero]
    exact dif_pos hzero
  · rw [dif_neg hzero]
    exact (dif_neg hzero).trans (dif_pos c.local_ok)

/-- Reading breaks off in a clause with a numeral that is too long. -/
theorem readClause_of_spelledLong (range : String) (h : SpelledLong part cause) :
    readClause range (Text.trim part) = .error (.hugeNumber cause range) := by
  obtain ⟨comparison, word, hsigned, hne, hchars, hread⟩ := exists_word_of_spelledLong h
  unfold readClause
  rw [splitClause_of_signed hsigned hne hchars]
  dsimp only
  split
  · rename_i h
    rw [hread] at h
    cases h
    rfl
  · rename_i h
    rw [hread] at h
    cases h
  · rename_i h
    rw [hread] at h
    cases h

/-- A text that spells no clause is an error. -/
theorem readClause_of_not_spelled (range : String) (h : ∀ c : WrittenClause, ¬ c.Spelled part)
    (hlong : ∀ cause, ¬ SpelledLong part cause) :
    ∃ e, readClause range (Text.trim part) = .error e ∧ e.range = range ∧
      e.isReported = true := by
  unfold readClause
  split
  · exact ⟨_, rfl, rfl, rfl⟩
  · rename_i k w hsplit
    have hsigned := signed_of_splitClause hsplit
    split
    · rename_i hread
      exact absurd (.intro hsigned hread) (hlong _)
    · exact ⟨_, rfl, rfl, rfl⟩
    · rename_i bound hread
      -- whatever is read without an error is a clause that the text spells
      have hlocal : ¬ (bound.localPart = [] ∨ k.takesLocal = true) := fun hlocal =>
        h ⟨k, bound, fits_of_read hread, hlocal⟩ (.intro hsigned (parse?_eq_some.2 hread))
      rw [dif_neg fun ht => hlocal (.inl (localPart_eq_nil_of_same (same_symm ht.2) rfl)),
        dif_neg hlocal]
      exact ⟨_, rfl, rfl, rfl⟩

/-! ### Lists of clauses -/

theorem readClauses_of_spelled (range : String) {parts : List (List Char)}
    (h : List.Forall₂ Spelled parts cs) :
    readClauses range parts = .ok (cs.filterMap clause?) := by
  induction h with
  | nil => rfl
  | @cons part c parts cs hc _ ih =>
      rw [readClauses, List.isEmpty_eq_false_iff.2 (trim_ne_nil_of_spelled hc),
        readClause_of_spelled range hc, ih, List.filterMap_cons]
      cases c.clause? <;> rfl

/-- The first of some parts that spells no clause has a numeral that is too long. -/
inductive FirstLong (cause : Numeral.Excess) : List (List Char) → Prop where
  | here {part : List Char} {parts : List (List Char)} (long : SpelledLong part cause) :
      FirstLong cause (part :: parts)
  | later {part : List Char} {parts : List (List Char)} {c : WrittenClause}
      (spelled : c.Spelled part) (more : FirstLong cause parts) : FirstLong cause (part :: parts)

theorem readClauses_of_firstLong (range : String) {parts : List (List Char)}
    (h : FirstLong cause parts) : readClauses range parts = .error (.hugeNumber cause range) := by
  induction h with
  | here long =>
      rw [readClauses, List.isEmpty_eq_false_iff.2 (trim_ne_nil_of_spelledLong long),
        readClause_of_spelledLong range long]
      rfl
  | later spelled more ih =>
      rw [readClauses, List.isEmpty_eq_false_iff.2 (trim_ne_nil_of_spelled spelled),
        readClause_of_spelled range spelled, ih]
      rfl

theorem readClauses_of_not_spelled (range : String) {parts : List (List Char)}
    (h : ∀ cs, ¬ List.Forall₂ Spelled parts cs) (hlong : ∀ cause, ¬ FirstLong cause parts) :
    ∃ e, readClauses range parts = .error e ∧ e.range = range ∧ e.isReported = true := by
  induction parts with
  | nil => exact absurd .nil (h [])
  | cons part parts ih =>
      rw [readClauses]
      by_cases hempty : Text.trim part = []
      · exact ⟨.emptyClause range, by rw [hempty]; rfl, rfl, rfl⟩
      rw [List.isEmpty_eq_false_iff.2 hempty]
      by_cases hpart : ∃ c : WrittenClause, c.Spelled part
      · obtain ⟨c, hc⟩ := hpart
        obtain ⟨e, hread, he⟩ := ih (fun cs hcs => h (c :: cs) (.cons hc hcs))
          fun cause hmore => hlong cause (.later hc hmore)
        rw [readClause_of_spelled range hc, hread]
        exact ⟨e, rfl, he⟩
      · obtain ⟨e, hread, he⟩ := readClause_of_not_spelled range (fun c hc => hpart ⟨c, hc⟩)
          fun cause hpart => hlong cause (.here hpart)
        rw [hread]
        exact ⟨e, rfl, he⟩

theorem splitCommas_ne_nil (s : List Char) : splitCommas s ≠ [] := by
  cases s with
  | nil => exact List.cons_ne_nil _ _
  | cons x s =>
      rw [splitCommas]
      split
      · exact List.cons_ne_nil _ _
      · split <;> exact List.cons_ne_nil _ _

/-- The first part ends at the first comma, or at the end of the text. -/
theorem splitCommas_eq_cons {first : List Char} {more : List (List Char)}
    (h : splitCommas s = first :: more) :
    more = [] ∧ s = first ∨ ∃ rest, s = first ++ ',' :: rest ∧ splitCommas rest = more := by
  induction s generalizing first more with
  | nil =>
      obtain ⟨rfl, rfl⟩ := List.cons.inj h
      exact .inl ⟨rfl, rfl⟩
  | cons x s ih =>
      rw [splitCommas] at h
      split at h
      · rename_i hx
        obtain ⟨rfl, rfl⟩ := List.cons.inj h
        exact .inr ⟨s, hx ▸ rfl, rfl⟩
      · split at h
        · rename_i first' more' hs
          obtain ⟨rfl, rfl⟩ := List.cons.inj h
          rcases ih hs with ⟨hmore, rfl⟩ | ⟨rest, rfl, hrest⟩
          · exact .inl ⟨hmore, rfl⟩
          · exact .inr ⟨rest, rfl, hrest⟩
        · rename_i hs
          exact absurd hs (splitCommas_ne_nil s)

/-- The clauses of a text are those of the parts between its commas. -/
theorem writesList_iff :
    WritesList s cs ↔ List.Forall₂ Spelled (splitCommas s) cs := by
  constructor
  · intro h
    induction h with
    | last hc =>
        rw [splitCommas_of_not_mem (comma_not_mem_of_spelled hc)]
        exact .cons hc .nil
    | cons hc _ ih =>
        rw [splitCommas_append (comma_not_mem_of_spelled hc)]
        exact .cons hc ih
  · intro h
    generalize hparts : splitCommas s = parts at h
    induction h generalizing s with
    | nil => exact absurd hparts (splitCommas_ne_nil s)
    | cons hc hmore ih =>
        rcases splitCommas_eq_cons hparts with ⟨rfl, rfl⟩ | ⟨rest, rfl, hrest⟩
        · obtain rfl := List.forall₂_nil_left_iff.1 hmore
          exact .last hc
        · exact .cons hc (ih hrest)

/-- A text breaks off where the first part between its commas that spells no clause does. -/
theorem breaksOffList_iff : BreaksOffList cause s ↔ FirstLong cause (splitCommas s) := by
  constructor
  · intro h
    induction h with
    | last long =>
        rw [splitCommas_of_not_mem (comma_not_mem_of_spelledLong long)]
        exact .here long
    | here long =>
        rw [splitCommas_append (comma_not_mem_of_spelledLong long)]
        exact .here long
    | later spelled _ ih =>
        rw [splitCommas_append (comma_not_mem_of_spelled spelled)]
        exact .later spelled ih
  · intro h
    generalize hparts : splitCommas s = parts at h
    induction h generalizing s with
    | here long =>
        rcases splitCommas_eq_cons hparts with ⟨-, rfl⟩ | ⟨rest, rfl, -⟩
        · exact .last long
        · exact .here long
    | later spelled more ih =>
        rcases splitCommas_eq_cons hparts with ⟨rfl, -⟩ | ⟨rest, rfl, hrest⟩
        · cases more
        · exact .later spelled (ih hrest)

theorem WritesList.unique (h : WritesList s cs) (h' : WritesList s ds) : cs = ds := by
  have hunique : Relator.RightUnique Spelled := fun _ _ _ => spelled_unique
  exact hunique.forall₂ (writesList_iff.1 h) (writesList_iff.1 h')

/-! ### Whole texts -/

theorem not_writesList_nil : ¬ WritesList [] cs := by
  intro h
  cases writesList_iff.1 h with
  | cons hc _ => exact trim_ne_nil_of_spelled hc rfl

/-- A text has one list of clauses at most. -/
theorem Writes.unique {text : String} (h : Writes text cs) (h' : Writes text ds) : cs = ds := by
  rcases h with ⟨hnil, rfl⟩ | h <;> rcases h' with ⟨hnil', rfl⟩ | h'
  · rfl
  · exact absurd (hnil ▸ h') not_writesList_nil
  · exact absurd (hnil' ▸ h) not_writesList_nil
  · exact h.unique h'

/-- A text of the grammar is read as the range of its clauses. -/
theorem parse_of_writes {text : String} (h : Writes text cs) :
    parse text = ofClausesOf (Text.strip text) (cs.filterMap clause?) := by
  unfold parse
  rcases h with ⟨hnil, rfl⟩ | h
  · rw [hnil]
    rfl
  · have hne : Text.trim text.toList ≠ [] := fun hnil => not_writesList_nil (hnil ▸ h)
    dsimp only
    rw [List.isEmpty_eq_false_iff.2 hne, readClauses_of_spelled _ (writesList_iff.1 h)]
    rfl

/-- Reading that breaks off tells the numeral at which it does. -/
theorem parse_of_breaksOff {text : String} (h : BreaksOff text cause) :
    parse text = .error (.hugeNumber cause (Text.strip text)) := by
  have hfirst := breaksOffList_iff.1 h
  have hne : Text.trim text.toList ≠ [] := by
    intro hnil
    rw [hnil] at hfirst
    cases hfirst with
    | here long => exact trim_ne_nil_of_spelledLong long rfl
    | later _ more => cases more
  unfold parse
  dsimp only
  rw [List.isEmpty_eq_false_iff.2 hne, readClauses_of_firstLong _ hfirst]
  rfl

theorem breaksOff_of_digits (hw : ∀ d ∈ w, d.isDigit = true)
    (hlong : Numeral.digitLimit < w.length) : BreaksOff (String.ofList w) (.read w.length) := by
  rw [BreaksOff, String.toList_ofList, trim_of_digits hw]
  exact .last (spelledLong_of_digits hw hlong)

/-- A number with more digits than are read. -/
def ones : List Char := List.replicate 5000 '1'

theorem isDigit_of_mem_ones : ∀ d ∈ ones, d.isDigit = true := fun _ hd =>
  (List.mem_replicate.1 hd).2 ▸ rfl

theorem digitLimit_lt_length_ones : Numeral.digitLimit < ones.length := by
  rw [ones, List.length_replicate]
  decide

theorem exists_breaksOff_ones : ∃ cause, BreaksOff (String.ofList ones) cause :=
  ⟨_, breaksOff_of_digits isDigit_of_mem_ones digitLimit_lt_length_ones⟩

/-- A text outside the grammar in which reading does not break off is an error, which carries the
text without blanks around it. -/
theorem parse_of_not_writes {text : String} (h : ∀ cs, ¬ Writes text cs)
    (hlong : ∀ cause, ¬ BreaksOff text cause) :
    ∃ e, parse text = .error e ∧ e.range = Text.strip text ∧ e.isReported = true := by
  have hne : Text.trim text.toList ≠ [] := fun hnil => h [] (.inl ⟨hnil, rfl⟩)
  obtain ⟨e, hread, he⟩ := readClauses_of_not_spelled (Text.strip text)
    (fun cs hcs => h cs (.inr (writesList_iff.2 hcs)))
    fun cause hfirst => hlong cause (breaksOffList_iff.2 hfirst)
  refine ⟨e, ?_, he⟩
  unfold parse
  dsimp only
  rw [List.isEmpty_eq_false_iff.2 hne]
  rw [Text.strip] at hread
  simp only [hread]
  rfl

/-- What is read is in the grammar. -/
theorem exists_writes {text : String} {r : Range} (h : parse text = .ok r) :
    ∃ cs, Writes text cs := by
  by_cases hw : ∃ cs, Writes text cs
  · exact hw
  · by_cases hlong : ∃ cause, BreaksOff text cause
    · obtain ⟨cause, hlong⟩ := hlong
      rw [parse_of_breaksOff hlong] at h
      cases h
    · obtain ⟨e, he, -⟩ := parse_of_not_writes (fun cs hcs => hw ⟨cs, hcs⟩)
        fun cause hcause => hlong ⟨cause, hcause⟩
      rw [h] at he
      cases he

/-- No report is made of a text just if its reading breaks off. -/
theorem exists_breaksOff_iff {text : String} {e : RangeError} (h : parse text = .error e) :
    (∃ cause, BreaksOff text cause) ↔ e.isReported = false := by
  constructor
  · rintro ⟨cause, hbreaks⟩
    obtain rfl := Except.error.inj (h.symm.trans (parse_of_breaksOff hbreaks))
    rfl
  · intro hunreported
    refine Classical.byContradiction fun hnone => ?_
    by_cases hw : ∃ cs, Writes text cs
    · obtain ⟨cs, hcs⟩ := hw
      obtain ⟨conflict, -, rfl⟩ := Result.mapError_eq_error.1 ((parse_of_writes hcs).symm.trans h)
      cases hunreported
    · obtain ⟨e', he', -, hreported⟩ := parse_of_not_writes (fun cs hcs => hw ⟨cs, hcs⟩)
        fun cause hcause => hnone ⟨cause, hcause⟩
      obtain rfl := Except.error.inj (h.symm.trans he')
      cases hunreported.symm.trans hreported

/-- A text whose reading breaks off is not in the grammar. -/
theorem BreaksOff.not_writes {text : String} (h : BreaksOff text cause) : ¬ Writes text cs := by
  intro hcs
  have hparse := parse_of_breaksOff h
  rw [parse_of_writes hcs, ofClausesOf] at hparse
  obtain ⟨conflict, -, heq⟩ := Result.mapError_eq_error.1 hparse
  cases heq

end Range

end HostPrereqs
