import HostPrereqs.Text.CharSet

/-!
# Text — blanks

The characters that count as white space around a version, a clause or a range: the usual ones,
the four information separators, and the Unicode spaces and line breaks.  `trim` removes them
from both ends of a text.

* `isBlank_of_isWhitespace`: every character core calls white space is a blank.
* `trim_eq_self`: a text without blanks at its ends stays as it is, and so does a trimmed one
  (`trim_trim`).
-/

namespace HostPrereqs.Text

/-- The ranges of code points whose characters are blanks. -/
def blankRanges : List (Nat × Nat) :=
  [(9, 13), (28, 32), (133, 133), (160, 160), (5760, 5760), (8192, 8202), (8232, 8233),
    (8239, 8239), (8287, 8287), (12288, 12288)]

/-- Whether `c` is white space. -/
def isBlank (c : Char) : Bool := inRanges blankRanges c.toNat

theorem isBlank_iff {c : Char} : isBlank c = true ↔ InRanges blankRanges c.toNat := inRanges_iff

theorem isBlank_of_isWhitespace {c : Char} (h : c.isWhitespace = true) : isBlank c = true := by
  simp only [Char.isWhitespace, Bool.or_eq_true, decide_eq_true_eq] at h
  rcases h with ((rfl | rfl) | rfl) | rfl <;> decide

/-- Removes the characters that satisfy `p` from the end of a text. -/
def dropEndWhile (p : Char → Bool) (s : List Char) : List Char :=
  (s.reverse.dropWhile p).reverse

/-- Removes the blanks at both ends of a text. -/
def trim (s : List Char) : List Char := dropEndWhile isBlank (s.dropWhile isBlank)

theorem dropWhile_eq_self {p : Char → Bool} {s : List Char} (h : ∀ c ∈ s.head?, p c = false) :
    s.dropWhile p = s := by
  cases s with
  | nil => rfl
  | cons c s => exact List.dropWhile_cons_of_neg (by simp [h c rfl])

theorem trim_eq_self {s : List Char} (hhead : ∀ c ∈ s.head?, isBlank c = false)
    (hlast : ∀ c ∈ s.getLast?, isBlank c = false) : trim s = s := by
  rw [trim, dropWhile_eq_self hhead, dropEndWhile, dropWhile_eq_self, List.reverse_reverse]
  rwa [List.head?_reverse]

theorem head?_dropWhile {α : Type} (p : α → Bool) (s : List α) :
    ∀ c ∈ (s.dropWhile p).head?, p c = false := by
  induction s with
  | nil => simp
  | cons d s ih =>
      cases hd : p d with
      | true => rwa [List.dropWhile_cons_of_pos hd]
      | false => rw [List.dropWhile_cons_of_neg (by simp [hd])]; simpa using hd

theorem trim_trim (s : List Char) : trim (trim s) = trim s := by
  refine trim_eq_self (fun c hc => ?_) fun c hc => ?_
  · obtain ⟨t, ht⟩ : trim s <+: s.dropWhile isBlank :=
      List.reverse_suffix.1 (by
        rw [trim, dropEndWhile, List.reverse_reverse]
        exact List.dropWhile_suffix isBlank)
    refine head?_dropWhile isBlank s c ?_
    rw [← ht, List.head?_append, Option.mem_def.1 hc]
    rfl
  · rw [trim, dropEndWhile, List.getLast?_reverse] at hc
    exact head?_dropWhile isBlank _ c hc

/-- Removes the blanks at both ends of a string. -/
def strip (s : String) : String := String.ofList (trim s.toList)

end HostPrereqs.Text
