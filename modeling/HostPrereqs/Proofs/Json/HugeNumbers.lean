import HostPrereqs.Json.Reader
import HostPrereqs.Proofs.Result
import Mathlib.Data.List.TakeWhile

/-!
# Json — numerals that are too long

A text with an integer of too many digits cannot be read, and that is no fault of the text.  The
reader fails in this way exactly if it comes to such a numeral (`read_eq_hugeNumber`): it comes to
the values of lists and objects one after the other, as long as all before can be read (`Comes`).
-/

namespace HostPrereqs.Json

open Result (FailsWith)

variable {s t r : List Char} {digits : Nat}

/-! ### Numerals -/

/-- What follows an integer: no digit, no fraction and no power of ten. -/
structure EndsInteger (rest : List Char) : Prop where
  digit : ∀ c ∈ rest.head?, c.isDigit = false
  fraction : (fraction rest).1 = []
  power : (exponent rest).1 = none

/-- A text starts with an integer that has too many digits. -/
inductive HugeNumeral : List Char → Nat → Prop where
  | mk (sign whole rest : List Char) (minus : sign = [] ∨ sign = ['-'])
      (all : ∀ c ∈ whole, c.isDigit = true) (first : whole.head? ≠ some '0')
      (ends : EndsInteger rest) (long : Numeral.digitLimit < whole.length) :
      HugeNumeral (sign ++ (whole ++ rest)) whole.length

theorem fraction_eq (h : (fraction s).1 = []) : fraction s = ([], s) := by
  unfold fraction
  split
  · rename_i r
    rw [fraction] at h
    generalize spanDigits r = span at h ⊢
    obtain ⟨ds, after⟩ := span
    cases ds with
    | nil => rfl
    | cons d ds => cases h
  · rfl

theorem exponent_eq (h : (exponent s).1 = none) : exponent s = (none, s) := by
  unfold exponent at h ⊢
  split
  · rename_i e r
    dsimp only at h
    split
    · rename_i he
      rw [if_pos he] at h
      dsimp only at h ⊢
      generalize spanDigits _ = span at h ⊢
      obtain ⟨ds, after⟩ := span
      cases ds with
      | nil => rfl
      | cons d ds => cases h
    · rfl
  · rfl

/-- Digits are taken up to the first character that is none. -/
theorem spanDigits_append {whole rest : List Char} (hall : ∀ c ∈ whole, c.isDigit = true)
    (hrest : ∀ c ∈ rest.head?, c.isDigit = false) : spanDigits (whole ++ rest) = (whole, rest) := by
  have hnone : rest.takeWhile Char.isDigit = [] := by
    cases rest with
    | nil => rfl
    | cons c rest => exact List.takeWhile_cons_of_neg (by simp [hrest c rfl])
  rw [spanDigits, List.takeWhile_append_of_pos hall, List.dropWhile_append_of_pos hall, hnone,
    List.append_nil, Text.dropWhile_eq_self hrest]

/-- A numeral is an integer exactly if no fraction and no power follow its digits. -/
theorem numeral_eq_int {negative : Bool} {n : Int} (h : numeral negative s = some (.int n, r)) :
    ∃ whole, wholeDigits s = some (whole, r) ∧ (fraction r).1 = [] ∧ (exponent r).1 = none := by
  unfold numeral at h
  obtain ⟨⟨whole, after⟩, hwhole, h⟩ := Option.bind_eq_some_iff.1 h
  dsimp only at h
  split at h
  · rename_i hinteger
    obtain ⟨hfraction, hpower⟩ := Bool.and_eq_true_iff.1 hinteger
    have hfraction := List.isEmpty_iff.1 hfraction
    rw [fraction_eq hfraction] at h hpower
    have hpower := Option.isNone_iff_eq_none.1 hpower
    rw [exponent_eq hpower] at h
    cases h
    exact ⟨whole, hwhole, hfraction, hpower⟩
  · cases h

theorem numeral_of_wholeDigits {whole : List Char} (negative : Bool)
    (hwhole : wholeDigits s = some (whole, r)) (hends : EndsInteger r) :
    ∃ n, numeral negative s = some (.int n, r) := by
  refine ⟨if negative then -(digitsValue whole : Int) else digitsValue whole, ?_⟩
  unfold numeral
  rw [hwhole, Option.bind_eq_bind, Option.bind_some]
  dsimp only
  rw [fraction_eq hends.fraction]
  dsimp only
  rw [exponent_eq hends.power]
  rfl

theorem eq_of_wholeDigits {whole : List Char} (h : wholeDigits s = some (whole, r)) :
    s = whole ++ r := by
  unfold wholeDigits at h
  split at h
  · cases h
    rfl
  · split at h
    · cases h
    · obtain ⟨rfl, rfl⟩ := Prod.mk.inj (Option.some.inj h)
      exact List.takeWhile_append_dropWhile.symm

/-- Of numerals that start with zero only the zero is read. -/
theorem of_wholeDigits {whole : List Char} (h : wholeDigits s = some (whole, r))
    (hlong : 1 < whole.length) : (∀ c ∈ whole, c.isDigit = true) ∧ whole.head? ≠ some '0' ∧
      ∀ c ∈ r.head?, c.isDigit = false := by
  have hs := eq_of_wholeDigits h
  unfold wholeDigits at h
  split at h
  · cases h
    exact absurd hlong (Nat.lt_irrefl 1)
  · rename_i hzero
    split at h
    · cases h
    · obtain ⟨rfl, rfl⟩ := Prod.mk.inj (Option.some.inj h)
      refine ⟨fun c hc => List.mem_takeWhile_imp hc, fun hhead => ?_, Text.head?_dropWhile _ _⟩
      obtain ⟨ds, hds⟩ := List.head?_eq_some_iff.1 hhead
      exact hzero (ds ++ s.dropWhile Char.isDigit) (by rw [← List.cons_append, ← hds, ← hs])

/-- The digits of an integer are taken up to its end. -/
theorem wholeDigits_append {whole rest : List Char} (hwhole : whole ≠ [])
    (hall : ∀ c ∈ whole, c.isDigit = true) (hfirst : whole.head? ≠ some '0')
    (hrest : ∀ c ∈ rest.head?, c.isDigit = false) :
    wholeDigits (whole ++ rest) = some (whole, rest) := by
  have hspan := spanDigits_append hall hrest
  unfold wholeDigits
  split
  · rename_i heq
    cases whole with
    | nil => exact absurd rfl hwhole
    | cons c whole => exact absurd (congrArg some (List.cons.inj heq).1) hfirst
  · rw [hspan]
    split
    · rename_i heq
      cases heq
      exact absurd rfl hwhole
    · rfl

/-! ### Scalars -/

/-- No word for a value starts with a digit, or has one after a minus. -/
theorem constant_of_digit {d : Char} (hd : d.isDigit = true) {sign : List Char}
    (hsign : sign = [] ∨ sign = ['-']) (s : List Char) :
    (constants.findSome? fun (word, value) =>
      (after? word.toList (sign ++ d :: s)).map fun rest => (value, rest)) = none := by
  have hne (c : Char) (hc : c.isDigit = false) : c ≠ d := by
    rintro rfl
    rw [hc] at hd
    cases hd
  have hletters := And.intro (hne 'n' rfl) (And.intro (hne 't' rfl) (And.intro (hne 'f' rfl)
    (And.intro (hne 'N' rfl) (And.intro (hne 'I' rfl) (hne '-' rfl)))))
  rcases hsign with rfl | rfl <;> simp [constants, after?, hletters]

theorem scalar?_eq_int {n : Int} (h : scalar? s = some (.int n, r)) :
    ∃ sign t negative, s = sign ++ t ∧ (sign = [] ∧ t.head? ≠ some '-' ∨ sign = ['-']) ∧
      numeral negative t = some (.int n, r) := by
  unfold scalar? at h
  dsimp only at h
  rw [Option.orElse_eq_orElse, Option.orElse_eq_or, Option.or_eq_some_iff] at h
  rcases h with h | ⟨-, h⟩
  · obtain ⟨⟨word, value⟩, hmem, h⟩ := List.exists_of_findSome?_eq_some h
    obtain ⟨rest, -, h⟩ := Option.map_eq_some_iff.1 h
    cases h
    simp [constants] at hmem
  · split at h
    · exact ⟨['-'], _, true, rfl, .inr rfl, h⟩
    · rename_i hminus
      refine ⟨[], s, false, rfl, .inl ⟨rfl, fun hhead => ?_⟩, h⟩
      cases s with
      | nil => cases hhead
      | cons c s => exact hminus s (congrArg (· :: s) (Option.some.inj hhead))

theorem digitCount_int (n : Int) {sign whole rest : List Char}
    (hsign : sign = [] ∧ (whole ++ rest).head? ≠ some '-' ∨ sign = ['-']) :
    digitCount (.int n) (sign ++ (whole ++ rest)) rest = whole.length := by
  unfold digitCount
  rcases hsign with ⟨rfl, hhead⟩ | rfl
  · dsimp only
    rw [List.nil_append, if_neg hhead, List.length_append]
    omega
  · simp only [List.cons_append, List.nil_append, List.length_cons, List.length_append,
      List.head?_cons, if_true]
    omega

theorem exists_scalar?_eq_int {sign whole rest : List Char} (hsign : sign = [] ∨ sign = ['-'])
    (hwhole : whole ≠ []) (hall : ∀ c ∈ whole, c.isDigit = true) (hfirst : whole.head? ≠ some '0')
    (hends : EndsInteger rest) : ∃ n, scalar? (sign ++ (whole ++ rest)) = some (.int n, rest) := by
  obtain ⟨n, hn⟩ := numeral_of_wholeDigits (sign = ['-'])
    (wholeDigits_append hwhole hall hfirst hends.digit) hends
  refine ⟨n, ?_⟩
  cases whole with
  | nil => exact absurd rfl hwhole
  | cons d ds =>
      have hd := hall d List.mem_cons_self
      unfold scalar?
      rw [List.cons_append, constant_of_digit hd hsign]
      rcases hsign with rfl | rfl
      · dsimp only [List.nil_append]
        split
        · rename_i heq
          cases heq
          exact absurd hd (by decide)
        · exact hn
      · exact hn

/-- A scalar is refused for its length exactly if it is an integer with too many digits. -/
theorem scalar_eq_hugeNumber :
    (∃ left, scalar s = .error ⟨.hugeNumber digits, left⟩) ↔ HugeNumeral s digits := by
  constructor
  · rintro ⟨left, h⟩
    unfold scalar at h
    split at h
    · rename_i v r hscalar
      split at h
      · dsimp only at h
        split at h
        · rename_i hlong
          cases h
          -- only integers are refused for their length
          cases v with
          | int n =>
              obtain ⟨sign, t, negative, rfl, hsign, hnumeral⟩ := scalar?_eq_int hscalar
              obtain ⟨whole, hwhole, hfraction, hpower⟩ := numeral_eq_int hnumeral
              obtain rfl := eq_of_wholeDigits hwhole
              rw [digitCount_int n hsign] at hlong ⊢
              obtain ⟨hall, hfirst, hdigit⟩ :=
                of_wholeDigits hwhole (Nat.lt_trans (by decide) hlong)
              exact .mk sign whole r (hsign.imp_left (·.1)) hall hfirst
                ⟨hdigit, hfraction, hpower⟩ hlong
          | _ => exact absurd hlong (Nat.not_lt_zero _)
        · cases h
      · cases h
    · cases h
  · rintro ⟨sign, whole, rest, minus, all, first, ends, long⟩
    have hne : whole ≠ [] := by
      rintro rfl
      exact absurd long (Nat.not_lt_zero _)
    have hsign : sign = [] ∧ (whole ++ rest).head? ≠ some '-' ∨ sign = ['-'] := by
      refine minus.imp_left fun hs => ⟨hs, fun hhead => ?_⟩
      obtain ⟨d, ds, rfl⟩ := List.exists_cons_of_ne_nil hne
      cases hhead
      exact absurd (all '-' List.mem_cons_self) (by decide)
    have hshort : rest.length < (sign ++ (whole ++ rest)).length := by
      have := List.length_pos_iff.2 hne
      simp only [List.length_append]
      omega
    obtain ⟨n, hscalar⟩ := exists_scalar?_eq_int minus hne all first ends
    refine ⟨(sign ++ (whole ++ rest)).length, ?_⟩
    unfold scalar
    rw [hscalar]
    dsimp only
    rw [dif_pos hshort, digitCount_int n hsign, if_pos long]

/-! ### Strings -/

/-- Whatever a part cannot be read for is a fault of the text. -/
abbrev Told {α : Type} (x : Except Fault α) : Prop := FailsWith (·.problem.isOfText = true) x

/-- An escaped code is refused for its form only. -/
theorem told_finishCode (code : Nat) (s : List Char) : Told (finishCode code s) := by
  unfold finishCode
  split
  · split
    · split
      · exact .error rfl
      · exact .ite (.ok _) (.ok _)
    · exact .ok _
  · exact .ok _

/-- So is a string. -/
theorem told_stringBody (start : Nat) (s : List Char) : Told (stringBody start s) := by
  fun_induction stringBody start s with
  | case1 | case3 | case4 | case7 | case8 | case10 => exact .error rfl
  | case2 => exact .ok _
  | case5 a b c d next r code _ e hfinish => exact (told_finishCode _ _).pass hfinish
  | case6 a b c d next r code _ char r' _ _ ih => exact ih.map _
  | case9 e r _ _ c _ ih => exact ih.map _
  | case11 c r _ _ _ _ _ _ ih => exact ih.map _

/-! ### Places -/

/-- What is read at a place. -/
inductive Part where
  | value
  | items
  | members

/-- Reading a part at a place of a text comes to read a value at another place. -/
inductive Comes : Part → List Char → List Char → Prop where
  | here (s : List Char) : Comes .value s s
  | list {r t : List Char} (more : (skip r).head? ≠ some ']') (inside : Comes .items (skip r) t) :
      Comes .value ('[' :: r) t
  | object {r t : List Char} (more : (skip r).head? ≠ some '\x7d')
      (inside : Comes .members (skip r) t) : Comes .value ('\x7b' :: r) t
  | item {s t : List Char} (inside : Comes .value s t) : Comes .items s t
  | nextItem {s t r : List Char} {x : Value} {rest : Rest s} (first : value s = .ok (x, rest))
      (comma : skip rest.1 = ',' :: r) (later : Comes .items (skip r) t) : Comes .items s t
  | member {r r' t name : List Char} {rest : Rest r}
      (key : stringBody ('"' :: r).length r = .ok (name, rest))
      (colon : skip rest.1 = ':' :: r') (inside : Comes .value (skip r') t) :
      Comes .members ('"' :: r) t
  | nextMember {r r' r'' t name : List Char} {v : Value} {rest : Rest r} {rest' : Rest (skip r')}
      (key : stringBody ('"' :: r).length r = .ok (name, rest))
      (colon : skip rest.1 = ':' :: r') (first : value (skip r') = .ok (v, rest'))
      (comma : skip rest'.1 = ',' :: r'') (later : Comes .members (skip r'') t) :
      Comes .members ('"' :: r) t

/-- A part cannot be read because of an integer with too many digits. -/
def Refuses (digits : Nat) : Part → List Char → Prop
  | .value, s => ∃ left, value s = .error ⟨.hugeNumber digits, left⟩
  | .items, s => ∃ left, items s = .error ⟨.hugeNumber digits, left⟩
  | .members, s => ∃ left, members s = .error ⟨.hugeNumber digits, left⟩

namespace Refuses

theorem list (more : (skip r).head? ≠ some ']') (h : Refuses digits .items (skip r)) :
    Refuses digits .value ('[' :: r) := by
  obtain ⟨left, hleft⟩ := h
  refine ⟨left, ?_⟩
  rw [value]
  split
  · rename_i heq
    exact absurd (congrArg List.head? heq) more
  · rw [hleft]
    rfl

theorem object (more : (skip r).head? ≠ some '\x7d') (h : Refuses digits .members (skip r)) :
    Refuses digits .value ('\x7b' :: r) := by
  obtain ⟨left, hleft⟩ := h
  refine ⟨left, ?_⟩
  rw [value]
  split
  · rename_i heq
    exact absurd (congrArg List.head? heq) more
  · rw [hleft]
    rfl

theorem item (h : Refuses digits .value s) : Refuses digits .items s := by
  obtain ⟨left, hleft⟩ := h
  refine ⟨left, ?_⟩
  rw [items, hleft]

theorem nextItem {x : Value} {rest : Rest s} (first : value s = .ok (x, rest))
    (comma : skip rest.1 = ',' :: r) (h : Refuses digits .items (skip r)) :
    Refuses digits .items s := by
  obtain ⟨left, hleft⟩ := h
  refine ⟨left, ?_⟩
  rw [items, first]
  dsimp only
  -- of what may follow an item, only the comma is there
  split
  · rename_i heq
    cases comma.symm.trans heq
  · rename_i heq
    obtain rfl := (List.cons.inj (comma.symm.trans heq)).2
    rw [hleft]
    rfl
  · rename_i _ hne
    exact absurd comma (hne _)

variable {r' name : List Char} {rest : Rest r}

theorem member (key : stringBody ('"' :: r).length r = .ok (name, rest))
    (colon : skip rest.1 = ':' :: r') (h : Refuses digits .value (skip r')) :
    Refuses digits .members ('"' :: r) := by
  obtain ⟨left, hleft⟩ := h
  refine ⟨left, ?_⟩
  rw [members, key]
  dsimp only
  split
  · rename_i heq
    obtain rfl := (List.cons.inj (colon.symm.trans heq)).2
    rw [hleft]
  · rename_i hne
    exact absurd colon (hne _)

theorem nextMember {r'' : List Char} {v : Value} {rest' : Rest (skip r')}
    (key : stringBody ('"' :: r).length r = .ok (name, rest)) (colon : skip rest.1 = ':' :: r')
    (first : value (skip r') = .ok (v, rest')) (comma : skip rest'.1 = ',' :: r'')
    (h : Refuses digits .members (skip r'')) : Refuses digits .members ('"' :: r) := by
  obtain ⟨left, hleft⟩ := h
  refine ⟨left, ?_⟩
  rw [members, key]
  dsimp only
  split
  · rename_i heq
    obtain rfl := (List.cons.inj (colon.symm.trans heq)).2
    rw [first]
    dsimp only
    split
    · rename_i heq
      cases comma.symm.trans heq
    · rename_i heq
      obtain rfl := (List.cons.inj (comma.symm.trans heq)).2
      rw [hleft]
      rfl
    · rename_i _ hne
      exact absurd comma (hne _)
  · rename_i hne
    exact absurd colon (hne _)

end Refuses

theorem head?_ne {c : Char} (h : ∀ r, s = c :: r → False) : s.head? ≠ some c := by
  intro hhead
  obtain ⟨r, hr⟩ := List.head?_eq_some_iff.1 hhead
  exact h r hr

mutual

/-- A value that refuses a number comes to a numeral with as many digits. -/
theorem comes_of_value {s : List Char} (h : Refuses digits .value s) :
    ∃ t, Comes .value s t ∧ HugeNumeral t digits := by
  obtain ⟨left, h⟩ := h
  unfold value at h
  split at h
  · cases told_stringBody _ _ _ (Result.map_eq_error.1 h)
  · rename_i r
    split at h
    · cases h
    · rename_i hmore
      have hshort := length_skip_le r
      obtain ⟨t, ht, huge⟩ := comes_of_items ⟨left, Result.map_eq_error.1 h⟩
      exact ⟨t, .list (head?_ne hmore) ht, huge⟩
  · rename_i r
    split at h
    · cases h
    · rename_i hmore
      have hshort := length_skip_le r
      obtain ⟨t, ht, huge⟩ := comes_of_members ⟨left, Result.map_eq_error.1 h⟩
      exact ⟨t, .object (head?_ne hmore) ht, huge⟩
  · exact ⟨s, .here s, scalar_eq_hugeNumber.1 ⟨left, h⟩⟩
termination_by (s.length, 1)
decreasing_by
  all_goals
    subst_vars
    simp only [List.length_cons] at *
    omega

theorem comes_of_items {s : List Char} (h : Refuses digits .items s) :
    ∃ t, Comes .items s t ∧ HugeNumeral t digits := by
  obtain ⟨left, h⟩ := h
  unfold items at h
  split at h
  · rename_i e hvalue
    cases h
    obtain ⟨t, ht, huge⟩ := comes_of_value ⟨left, hvalue⟩
    exact ⟨t, .item ht, huge⟩
  · rename_i x rest hlt hvalue
    split at h
    · cases h
    · rename_i r hcomma
      have hlength := congrArg List.length hcomma
      have hskip := length_skip_le rest
      have hshort := length_skip_le r
      obtain ⟨t, ht, huge⟩ := comes_of_items ⟨left, Result.map_eq_error.1 h⟩
      exact ⟨t, .nextItem hvalue hcomma ht, huge⟩
    · cases h
termination_by (s.length, 2)
decreasing_by
  all_goals
    simp only [List.length_cons] at *
    omega

theorem comes_of_members {s : List Char} (h : Refuses digits .members s) :
    ∃ t, Comes .members s t ∧ HugeNumeral t digits := by
  obtain ⟨left, h⟩ := h
  unfold members at h
  split at h
  · rename_i r
    split at h
    · rename_i e hkey
      cases h
      cases told_stringBody _ _ _ hkey
    · rename_i name r₁ h₁ hkey
      split at h
      · rename_i r₂ hcolon
        have hlength := congrArg List.length hcolon
        have hskip := length_skip_le r₁
        have hshort := length_skip_le r₂
        split at h
        · rename_i e hvalue
          cases h
          obtain ⟨t, ht, huge⟩ := comes_of_value ⟨left, hvalue⟩
          exact ⟨t, .member hkey hcolon ht, huge⟩
        · rename_i v r₃ h₃ hvalue
          dsimp only at h
          split at h
          · cases h
          · rename_i r₄ hcomma
            have hlength' := congrArg List.length hcomma
            have hskip' := length_skip_le r₃
            have hshort' := length_skip_le r₄
            obtain ⟨t, ht, huge⟩ := comes_of_members ⟨left, Result.map_eq_error.1 h⟩
            exact ⟨t, .nextMember hkey hcolon hvalue hcomma ht, huge⟩
          · cases h
      · cases h
  · cases h
termination_by (s.length, 0)
decreasing_by
  all_goals
    subst_vars
    simp only [List.length_cons] at *
    omega

end

/-- Reading a text comes to an integer with too many digits. -/
def Meets (text : List Char) (digits : Nat) : Prop :=
  ∃ t, Comes .value (skip text) t ∧ HugeNumeral t digits

end HostPrereqs.Json
