import HostPrereqs.Text.Escape

/-!
# Text — texts with and without escape sequences

Without an escape character there is nothing to take out (`stripEscapes_of_not_mem`), and no escape
sequence goes on after a line feed (`dropEscapes_line`).
-/

namespace HostPrereqs.Text

variable {s t : List Char}

/-- Characters in front of a text that are no escape characters are no part of escape
sequences. -/
theorem dropEscapes_append (hs : '\x1b' ∉ s) :
    dropEscapes (s ++ t) = s ++ dropEscapes t := by
  induction s with
  | nil => rfl
  | cons c s ih =>
      obtain ⟨hc, hs⟩ := not_or.1 (mt List.mem_cons.2 hs)
      rw [List.cons_append, List.cons_append, ← ih hs, dropEscapes]
      rintro r rfl -
      exact hc rfl

/-- A text without an escape character has no escape sequences. -/
theorem stripEscapes_of_not_mem {s : String} (h : '\x1b' ∉ s.toList) : stripEscapes s = s := by
  have hdrop := dropEscapes_append (t := []) h
  rw [List.append_nil, show dropEscapes [] = [] by rw [dropEscapes], List.append_nil] at hdrop
  rw [stripEscapes, hdrop, String.ofList_toList]

/-- No escape sequence goes on after a line feed. -/
theorem afterSequence?_append (s t : List Char) :
    afterSequence? (s ++ '\n' :: t) = (afterSequence? s).map (· ++ '\n' :: t) := by
  induction s with
  | nil => rfl
  | cons c s ih =>
      rw [List.cons_append, afterSequence?, afterSequence?, ih]
      split
      · rfl
      · split <;> rfl

/-- Escape sequences are taken out of each line on its own. -/
theorem dropEscapes_line (s t : List Char) :
    dropEscapes (s ++ '\n' :: t) = dropEscapes s ++ '\n' :: dropEscapes t := by
  fun_induction dropEscapes s with
  | case1 r rest hrest ih =>
      rw [List.cons_append, List.cons_append, dropEscapes]
      split
      · rename_i rest' hrest'
        rw [afterSequence?_append, hrest] at hrest'
        obtain rfl := Option.some.inj hrest'
        exact ih
      · rename_i hnone
        rw [afterSequence?_append, hrest] at hnone
        cases hnone
  | case2 r hnone ih =>
      rw [List.cons_append, List.cons_append, dropEscapes]
      split
      · rename_i rest hrest
        rw [afterSequence?_append, hnone] at hrest
        cases hrest
      · rw [← List.cons_append, ih]
        rfl
  | case3 c r hother ih =>
      rw [List.cons_append, dropEscapes, ih]
      · rfl
      · intro r' hc hr
        cases r with
        | nil => cases hr
        | cons d r =>
            obtain rfl := (List.cons.inj hr).1
            exact hother r hc rfl
  | case4 =>
      rw [List.nil_append, dropEscapes]
      · rfl
      · nofun

end HostPrereqs.Text
