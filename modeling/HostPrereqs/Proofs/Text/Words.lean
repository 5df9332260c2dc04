import HostPrereqs.Text.Words

/-!
# Text — written words are read back

Splitting undoes joining (`split_join`).  A written word is read off the front of a text, and what
follows goes on in the same word (`wordsFrom_quoteChars`); the space before the next word, or the
end of the text, ends it.  A word has two written forms, plain (`wordsFrom_safe`) and enclosed
(`wordsFrom_enclose`), each read by induction on the word.
-/

namespace HostPrereqs.Words

variable {p next : Place} {c : Char} {s v w : List Char} {vs : List (List Char)}

/-! ### One character -/

theorem wordsFrom_turn (hm : p.move c = .turn next) : wordsFrom p (c :: s) = wordsFrom next s := by
  rw [wordsFrom, hm]

/-- A character that is taken belongs to the word that is read on. -/
theorem wordsFrom_take (hm : p.move c = .take [c] next) (hs : wordsFrom next s = .ok (v :: vs)) :
    wordsFrom p (c :: s) = .ok ((c :: v) :: vs) := by
  rw [wordsFrom, hm]
  exact congrArg (Except.map (extend [c])) hs

theorem wordsFrom_close (hm : p.move c = .close) (hs : wordsFrom .gap s = .ok vs) :
    wordsFrom p (c :: s) = .ok ([] :: vs) := by
  rw [wordsFrom, hm, hs]
  rfl

/-! ### Safe characters -/

theorem ne_of_isSafe {d : Char} (hc : isSafe c = true) (hd : isSafe d = false) : c ≠ d := by
  rintro rfl
  rw [hc] at hd
  cases hd

theorem not_isSeparator_of_isSafe (hc : isSafe c = true) : isSeparator c = false := by
  have hspace : c ≠ ' ' := ne_of_isSafe hc (by decide)
  have htab : c ≠ '\t' := ne_of_isSafe hc (by decide)
  have hreturn : c ≠ '\r' := ne_of_isSafe hc (by decide)
  have hfeed : c ≠ '\n' := ne_of_isSafe hc (by decide)
  simp [isSeparator, hspace, htab, hreturn, hfeed]

theorem bare_of_isSafe (hc : isSafe c = true) : Move.bare c = .take [c] .word := by
  have hsingle : c ≠ '\'' := ne_of_isSafe hc (by decide)
  have hdouble : c ≠ '"' := ne_of_isSafe hc (by decide)
  have hescape : c ≠ '\\' := ne_of_isSafe hc (by decide)
  simp [Move.bare, hsingle, hdouble, hescape]

/-- A safe character stands for itself at the start of a word. -/
theorem move_gap_of_isSafe (hc : isSafe c = true) : Place.gap.move c = .take [c] .word := by
  simp [Place.move, not_isSeparator_of_isSafe hc, bare_of_isSafe hc]

/-- A safe character stands for itself inside a word. -/
theorem move_word_of_isSafe (hc : isSafe c = true) : Place.word.move c = .take [c] .word := by
  simp [Place.move, not_isSeparator_of_isSafe hc, bare_of_isSafe hc]

/-! ### One word -/

/-- Characters without a meaning of their own are taken as they are. -/
theorem wordsFrom_safe (hw : ∀ c ∈ w, isSafe c = true)
    (hs : wordsFrom .word s = .ok (v :: vs)) : wordsFrom .word (w ++ s) = .ok ((w ++ v) :: vs) := by
  induction w with
  | nil => exact hs
  | cons c w ih =>
      obtain ⟨hc, hw⟩ := List.forall_mem_cons.1 hw
      exact wordsFrom_take (move_word_of_isSafe hc) (ih hw)

/-- What is enclosed in single quotes is read as it was. -/
theorem wordsFrom_enclose (w : List Char) (hs : wordsFrom .word s = .ok (v :: vs)) :
    wordsFrom .single (enclose w ++ '\'' :: s) = .ok ((w ++ v) :: vs) := by
  induction w with
  | nil => exact (wordsFrom_turn rfl).trans hs
  | cons c w ih =>
      by_cases hc : c = '\''
      · subst hc
        -- the quotes around the word are left, and entered again after the quote between others
        have hquoted : wordsFrom .double ('\'' :: '"' :: '\'' :: (enclose w ++ '\'' :: s)) =
            .ok (('\'' :: w ++ v) :: vs) :=
          wordsFrom_take rfl ((wordsFrom_turn rfl).trans ((wordsFrom_turn rfl).trans ih))
        exact (wordsFrom_turn rfl).trans ((wordsFrom_turn rfl).trans hquoted)
      · have hmove : Place.single.move c = .take [c] .single := by simp [Place.move, hc]
        have hwritten : enclose (c :: w) = c :: enclose w := by simp [enclose, hc]
        rw [hwritten]
        exact wordsFrom_take hmove ih

/-- A written word is read, and what follows goes on in it. -/
theorem wordsFrom_quoteChars (w : List Char) (hs : wordsFrom .word s = .ok (v :: vs)) :
    wordsFrom .gap (quoteChars w ++ s) = .ok ((w ++ v) :: vs) := by
  unfold quoteChars
  split
  · rename_i hempty
    obtain rfl := List.isEmpty_iff.1 hempty
    exact (wordsFrom_turn rfl).trans ((wordsFrom_turn rfl).trans hs)
  · split
    · rename_i hempty hsafe
      cases w with
      | nil => exact absurd rfl hempty
      | cons c w =>
          obtain ⟨hc, hw⟩ := List.forall_mem_cons.1 (List.all_eq_true.1 hsafe)
          exact wordsFrom_take (move_gap_of_isSafe hc) (wordsFrom_safe hw hs)
    · rw [List.cons_append, List.append_assoc]
      exact (wordsFrom_turn rfl).trans (wordsFrom_enclose w hs)

/-! ### Words -/

/-- Quoted words with blanks between them are read back, by induction on the words. -/
theorem wordsFrom_intercalate (ws : List (List Char)) :
    wordsFrom .gap ([' '].intercalate (ws.map quoteChars)) = .ok ws := by
  induction ws with
  | nil => rfl
  | cons w ws ih =>
      cases ws with
      | nil =>
          have hend : wordsFrom .word [] = .ok [[]] := rfl
          have hword := wordsFrom_quoteChars w hend
          rw [List.append_nil, List.append_nil] at hword
          rw [List.map_singleton, List.intercalate_singleton]
          exact hword
      | cons w' ws =>
          have hspace : wordsFrom .word (' ' :: [' '].intercalate ((w' :: ws).map quoteChars)) =
              .ok ([] :: w' :: ws) := wordsFrom_close rfl ih
          have hword := wordsFrom_quoteChars w hspace
          rw [List.append_nil] at hword
          rw [List.map_cons, List.map_cons, List.intercalate_cons_cons]
          rw [List.map_cons] at hword
          simpa using hword

theorem toList_join (ws : List String) :
    (join ws).toList = [' '].intercalate ((ws.map String.toList).map quoteChars) := by
  simp [join, quote, String.toList_intercalate, Function.comp_def]

/-- Splitting undoes joining. -/
theorem split_join (ws : List String) : split (join ws) = .ok ws := by
  rw [split, toList_join, wordsFrom_intercalate]
  simp [Except.map, Function.comp_def]

example : (split (join ["it's", "", "a b", "\\n\n", "été"])).toOption =
    some ["it's", "", "a b", "\\n\n", "été"] := by decide +kernel

end HostPrereqs.Words
