/-!
# Text — sets of characters

A set of characters is listed as ranges of code points in increasing order.  `inRanges` looks a
code point up and stops at the first range that starts beyond it; `InRanges` says the same of a
list in which ranges may stand in any order up to that point.

* `inRanges_iff`: the look-up decides membership.
-/

namespace HostPrereqs.Text

/-- Whether `n` lies in one of the listed ranges, looked up in increasing order. -/
def inRanges : List (Nat × Nat) → Nat → Bool
  | [], _ => false
  | (lo, hi) :: rest, n => lo ≤ n && (n ≤ hi || inRanges rest n)

/-- `n` lies in a listed range, and no range before that one starts beyond `n`. -/
inductive InRanges : List (Nat × Nat) → Nat → Prop where
  | here {lo hi n : Nat} {rest : List (Nat × Nat)} (below : lo ≤ n) (above : n ≤ hi) :
      InRanges ((lo, hi) :: rest) n
  | there {lo hi n : Nat} {rest : List (Nat × Nat)} (below : lo ≤ n) (later : InRanges rest n) :
      InRanges ((lo, hi) :: rest) n

theorem inRanges_iff {rs : List (Nat × Nat)} {n : Nat} :
    inRanges rs n = true ↔ InRanges rs n := by
  induction rs with
  | nil => exact ⟨fun h => by simp [inRanges] at h, fun h => by cases h⟩
  | cons r rest ih =>
      obtain ⟨lo, hi⟩ := r
      simp only [inRanges, Bool.and_eq_true, decide_eq_true_eq, Bool.or_eq_true, ih]
      constructor
      · rintro ⟨below, above | later⟩
        · exact .here below above
        · exact .there below later
      · rintro (⟨below, above⟩ | ⟨below, later⟩)
        · exact ⟨below, .inl above⟩
        · exact ⟨below, .inr later⟩

end HostPrereqs.Text
