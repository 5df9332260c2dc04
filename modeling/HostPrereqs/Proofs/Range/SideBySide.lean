import HostPrereqs.Proofs.Range.Meaning
import Mathlib.Data.List.TakeWhile

/-!
# Range — texts side by side

Two range texts that are not blank can be written side by side with a comma between them.  What
this writes are the clauses of both (`WritesList.append`), since blanks between the parts of a text
do not matter (`WritesList.of_trim`).

* `alike_of_sideBySide`: if all three texts can be read, the text of both has the clauses of both.
-/

namespace HostPrereqs

namespace Text

variable {s : List Char}

/-- A text is its trimmed text with blanks around it. -/
theorem exists_blanks (s : List Char) : ∃ before after, s = before ++ (trim s ++ after) ∧
    (∀ x ∈ before, isBlank x = true) ∧ ∀ x ∈ after, isBlank x = true := by
  have htake : ∀ t : List Char, ∀ x ∈ t.takeWhile isBlank, isBlank x = true := fun t =>
    List.all_eq_true.1 List.all_takeWhile
  refine ⟨s.takeWhile isBlank, ((s.dropWhile isBlank).reverse.takeWhile isBlank).reverse, ?_,
    htake s, fun x hx => htake _ x (List.mem_reverse.1 hx)⟩
  rw [trim, dropEndWhile, ← List.reverse_append, List.takeWhile_append_dropWhile,
    List.reverse_reverse, List.takeWhile_append_dropWhile]

theorem trim_blanks_append {b : List Char} (hb : ∀ x ∈ b, isBlank x = true) (s : List Char) :
    trim (b ++ s) = trim s := by
  rw [trim, trim, List.dropWhile_append_of_pos hb]

theorem trim_append_blanks {b : List Char} (hb : ∀ x ∈ b, isBlank x = true) (s : List Char) :
    trim (s ++ b) = trim s := by
  rw [trim, trim, dropEndWhile, dropEndWhile, List.dropWhile_append]
  split
  · rename_i hs
    have hnil : b.dropWhile isBlank = [] := List.dropWhile_eq_nil_iff.2 hb
    rw [List.isEmpty_iff.1 hs, hnil]
  · rw [List.reverse_append, List.dropWhile_append_of_pos fun x hx => hb x (List.mem_reverse.1 hx)]

end Text

namespace WrittenClause

variable {c : WrittenClause} {part part' : List Char}

/-- What a text spells does not depend on the blanks around it. -/
theorem Spelled.of_trim_eq (h : c.Spelled part) (htrim : Text.trim part' = Text.trim part) :
    c.Spelled part' := by
  obtain ⟨⟨sign, between, htext, hsigned, hblank, htrimmed⟩, hversion⟩ := h
  exact .intro (.intro sign between (htrim.trans htext) hsigned hblank htrimmed) hversion

end WrittenClause

namespace Range

open WrittenClause Clause

variable {s t b : List Char} {cs ds : List WrittenClause}

theorem WritesList.blanks_append (h : WritesList s cs) (hb : ∀ x ∈ b, Text.isBlank x = true) :
    WritesList (b ++ s) cs := by
  cases h with
  | last hc => exact .last (hc.of_trim_eq (Text.trim_blanks_append hb _))
  | cons hc hmore =>
      rw [← List.append_assoc]
      exact .cons (hc.of_trim_eq (Text.trim_blanks_append hb _)) hmore

theorem WritesList.append_blanks (h : WritesList s cs) (hb : ∀ x ∈ b, Text.isBlank x = true) :
    WritesList (s ++ b) cs := by
  induction h with
  | last hc => exact .last (hc.of_trim_eq (Text.trim_append_blanks hb _))
  | cons hc _ ih =>
      rw [List.append_assoc, List.cons_append]
      exact .cons hc ih

/-- Blanks around a list of clauses do not matter. -/
theorem WritesList.of_trim (h : WritesList (Text.trim s) cs) : WritesList s cs := by
  obtain ⟨before, after, hs, hbefore, hafter⟩ := Text.exists_blanks s
  rw [hs]
  exact (h.append_blanks hafter).blanks_append hbefore

/-- Lists of clauses are put together by a comma. -/
theorem WritesList.append (h : WritesList s cs) (h' : WritesList t ds) :
    WritesList (s ++ ',' :: t) (cs ++ ds) := by
  induction h with
  | last hc => exact .cons hc h'
  | cons hc _ ih =>
      rw [List.append_assoc, List.cons_append, List.cons_append]
      exact .cons hc ih

/-- A text that is read and not blank is a list of clauses, and the range has these. -/
theorem exists_writesList {text : String} {r : Range} (h : parse text = .ok r)
    (hne : Text.strip text ≠ "") :
    ∃ cs, WritesList text.toList cs ∧ Alike r.clauses (cs.filterMap clause?) := by
  obtain ⟨cs, hwrites⟩ := exists_writes h
  have halike := alike_of_ofClausesOf ((parse_of_writes hwrites).symm.trans h)
  rcases hwrites with ⟨hnil, -⟩ | hlist
  · exact absurd (by rw [Text.strip, hnil]) hne
  · exact ⟨cs, hlist.of_trim, halike⟩

/-- Of two texts side by side, the range has the clauses of both. -/
theorem alike_of_sideBySide {text text' : String} {a a' r : Range} (ha : parse text = .ok a)
    (ha' : parse text' = .ok a') (hr : parse (text ++ ", " ++ text') = .ok r)
    (hne : Text.strip text ≠ "") (hne' : Text.strip text' ≠ "") :
    Alike r.clauses (a.clauses ++ a'.clauses) := by
  obtain ⟨cs, hcs, halike⟩ := exists_writesList ha hne
  obtain ⟨ds, hds, halike'⟩ := exists_writesList ha' hne'
  have hboth : WritesList (text ++ ", " ++ text').toList (cs ++ ds) := by
    have hblank : WritesList ([' '] ++ text'.toList) ds :=
      hds.blanks_append (List.forall_mem_singleton.2 rfl)
    rw [String.toList_append, String.toList_append, List.append_assoc]
    exact hcs.append hblank
  have hne'' : Text.strip (text ++ ", " ++ text') ≠ "" := by
    intro hnil
    have hcomma : ',' ∈ Text.trim (text ++ ", " ++ text').toList := mem_trim (by simp) rfl
    rw [Text.strip, String.ofList_eq_empty_iff] at hnil
    rw [hnil] at hcomma
    cases hcomma
  obtain ⟨es, hes, halike''⟩ := exists_writesList hr hne''
  -- a text is a list of clauses in one way only
  obtain rfl := hes.unique hboth
  rw [List.filterMap_append] at halike''
  exact halike''.trans (halike.symm.append halike'.symm)

end Range

end HostPrereqs
