import HostPrereqs.Proofs.Result
import HostPrereqs.Proofs.Text.Words

/-!
# Text — the grammar of lines of words

A line is words with separators around them, and a word is one piece after the other: a plain
character, a character after a backslash, or whatever stands between quotes (`Piece`).  Between
double quotes a backslash counts only before a double quote or another backslash (`Inside`).

The grammar says which lines have which words (`Line`), and not how they are read.  Reading goes
character by character and finds what the grammar says and nothing else (`split_eq_ok_iff`): a piece
in front of a text is read as one (`Piece.wordsFrom`), and what is read begins with a piece
(`exists_piece`).
-/

namespace HostPrereqs.Words

/-! ### The grammar -/

/-- Characters that stand for themselves outside of quotes. -/
def IsPlain (c : Char) : Prop := isSeparator c = false ∧ c ≠ '\'' ∧ c ≠ '"' ∧ c ≠ '\\'

/-- What stands between double quotes, and what it means: a backslash is dropped before a double
quote or a backslash. -/
inductive Inside : List Char → List Char → Prop where
  | nil : Inside [] []
  | plain {c : Char} {s w : List Char} (quote : c ≠ '"') (escape : c ≠ '\\') (more : Inside s w) :
      Inside (c :: s) (c :: w)
  | escaped {c : Char} {s w : List Char} (special : c = '"' ∨ c = '\\') (more : Inside s w) :
      Inside ('\\' :: c :: s) (c :: w)
  | kept {c : Char} {s w : List Char} (quote : c ≠ '"') (escape : c ≠ '\\') (more : Inside s w) :
      Inside ('\\' :: c :: s) ('\\' :: c :: w)

/-- A piece of a word, and what it means. -/
inductive Piece : List Char → List Char → Prop where
  | plain {c : Char} (plain : IsPlain c) : Piece [c] [c]
  | escaped (c : Char) : Piece ['\\', c] [c]
  | single {w : List Char} (quote : '\'' ∉ w) : Piece ('\'' :: (w ++ ['\''])) w
  | double {s w : List Char} (inside : Inside s w) : Piece ('"' :: (s ++ ['"'])) w

/-- Pieces one after the other, and what they mean together. -/
inductive Pieces : List Char → List Char → Prop where
  | nil : Pieces [] []
  | cons {p w s v : List Char} (piece : Piece p w) (more : Pieces s v) : Pieces (p ++ s) (w ++ v)

/-- A word as it is written: one piece at least, after separators. -/
structure IsWord (s w : List Char) : Prop where
  ne_nil : s ≠ []
  pieces : Pieces s w

/-- A line, and its words. -/
inductive Line : List Char → List (List Char) → Prop where
  | blank {gap : List Char} (separators : ∀ c ∈ gap, isSeparator c = true) : Line gap []
  | last {gap s w : List Char} (separators : ∀ c ∈ gap, isSeparator c = true) (word : IsWord s w) :
      Line (gap ++ s) [w]
  | cons {gap s w rest : List Char} {ws : List (List Char)} {c : Char}
      (separators : ∀ c ∈ gap, isSeparator c = true) (word : IsWord s w)
      (separator : isSeparator c = true) (more : Line rest ws) :
      Line (gap ++ (s ++ c :: rest)) (w :: ws)

variable {p : Place} {c : Char} {s u v w : List Char} {vs ws : List (List Char)}

theorem Piece.ne_nil (h : Piece u w) : u ≠ [] := by
  cases h <;> exact List.cons_ne_nil _ _

/-- What follows a piece is shorter than the text. -/
theorem Piece.length_lt (h : Piece u w) (hs : s = u ++ v) : v.length < s.length := by
  have := List.length_pos_iff.2 h.ne_nil
  rw [hs, List.length_append]
  omega

/-! ### What is written is read -/

theorem wordsFrom_skip (hm : p.move c = .skip) : wordsFrom p (c :: s) = wordsFrom .gap s := by
  rw [wordsFrom, hm]

theorem wordsFrom_takes {cs : List Char} {next : Place} (hm : p.move c = .take cs next)
    (hs : wordsFrom next s = .ok (v :: vs)) : wordsFrom p (c :: s) = .ok ((cs ++ v) :: vs) := by
  rw [wordsFrom, hm]
  exact congrArg (Except.map (extend cs)) hs

theorem wordsFrom_single (hw : '\'' ∉ w) (hs : wordsFrom .word s = .ok (v :: vs)) :
    wordsFrom .single (w ++ '\'' :: s) = .ok ((w ++ v) :: vs) := by
  induction w with
  | nil => exact (wordsFrom_turn rfl).trans hs
  | cons c w ih =>
      obtain ⟨hc, hw⟩ := not_or.1 (mt List.mem_cons.2 hw)
      exact wordsFrom_take (by simp [Place.move, Ne.symm hc]) (ih hw)

theorem Inside.wordsFrom (hu : Inside u w) (hs : wordsFrom .word s = .ok (v :: vs)) :
    wordsFrom .double (u ++ '"' :: s) = .ok ((w ++ v) :: vs) := by
  induction hu with
  | nil => exact (wordsFrom_turn rfl).trans hs
  | plain quote escape _ ih =>
      exact wordsFrom_take (by simp [Place.move, quote, escape]) ih
  | escaped special _ ih =>
      exact (wordsFrom_turn rfl).trans (wordsFrom_take (by simp [Place.move, special]) ih)
  | @kept c u w quote escape _ ih =>
      have hmove : Place.doubleEscape.move c = .take ['\\', c] .double := by
        simp [Place.move, quote, escape]
      have hread : Words.wordsFrom .doubleEscape (c :: (u ++ '"' :: s)) =
          .ok ((['\\', c] ++ (w ++ v)) :: vs) := wordsFrom_takes hmove ih
      exact (wordsFrom_turn rfl).trans hread

/-- A piece in front of a text is read, be it in a word or before one. -/
theorem Piece.wordsFrom (hu : Piece u w) (hs : wordsFrom .word s = .ok (v :: vs)) :
    wordsFrom .word (u ++ s) = .ok ((w ++ v) :: vs) ∧
      wordsFrom .gap (u ++ s) = .ok ((w ++ v) :: vs) := by
  cases hu with
  | @plain c plain =>
      obtain ⟨hsep, hsingle, hdouble, hescape⟩ := plain
      have hbare : Move.bare c = .take [c] .word := by simp [Move.bare, hsingle, hdouble, hescape]
      exact ⟨wordsFrom_take (by simp [Place.move, hsep, hbare]) hs,
        wordsFrom_take (by simp [Place.move, hsep, hbare]) hs⟩
  | escaped c =>
      have hread : Words.wordsFrom .escape (c :: s) = .ok ((c :: v) :: vs) := wordsFrom_take rfl hs
      exact ⟨(wordsFrom_turn rfl).trans hread, (wordsFrom_turn rfl).trans hread⟩
  | single quote =>
      have hread := wordsFrom_single quote hs
      rw [List.cons_append, List.append_assoc]
      exact ⟨(wordsFrom_turn rfl).trans hread, (wordsFrom_turn rfl).trans hread⟩
  | double inside =>
      have hread := inside.wordsFrom hs
      rw [List.cons_append, List.append_assoc]
      exact ⟨(wordsFrom_turn rfl).trans hread, (wordsFrom_turn rfl).trans hread⟩

theorem Pieces.wordsFrom (hu : Pieces u w) (hs : wordsFrom .word s = .ok (v :: vs)) :
    wordsFrom .word (u ++ s) = .ok ((w ++ v) :: vs) := by
  induction hu with
  | nil => exact hs
  | cons piece _ ih =>
      rw [List.append_assoc, List.append_assoc]
      exact (piece.wordsFrom ih).1

theorem IsWord.wordsFrom (hu : IsWord u w) (hs : wordsFrom .word s = .ok (v :: vs)) :
    wordsFrom .gap (u ++ s) = .ok ((w ++ v) :: vs) := by
  cases hu.pieces with
  | nil => exact absurd rfl hu.ne_nil
  | cons piece more =>
      rw [List.append_assoc, List.append_assoc]
      exact (piece.wordsFrom (more.wordsFrom hs)).2

theorem wordsFrom_gap_append (hu : ∀ c ∈ u, isSeparator c = true) :
    wordsFrom .gap (u ++ s) = wordsFrom .gap s := by
  induction u with
  | nil => rfl
  | cons c u ih =>
      obtain ⟨hc, hu⟩ := List.forall_mem_cons.1 hu
      rw [List.cons_append, wordsFrom_skip (by simp [Place.move, hc]), ih hu]

theorem Line.wordsFrom (h : Line s ws) : wordsFrom .gap s = .ok ws := by
  induction h with
  | blank separators =>
      have hread := wordsFrom_gap_append (s := []) separators
      rw [List.append_nil] at hread
      exact hread
  | last separators word =>
      have hread := word.wordsFrom (s := []) rfl
      rw [List.append_nil, List.append_nil] at hread
      rwa [wordsFrom_gap_append separators]
  | @cons gap s w rest ws c separators word separator _ ih =>
      have hend : Words.wordsFrom .word (c :: rest) = .ok ([] :: ws) :=
        wordsFrom_close (by simp [Place.move, separator]) ih
      rw [wordsFrom_gap_append separators, word.wordsFrom hend, List.append_nil]

/-! ### What is read is written -/

/-- One character of a text that is read. -/
theorem wordsFrom_cons_eq_ok : wordsFrom p (c :: s) = .ok ws ↔
    match p.move c with
    | .skip => wordsFrom .gap s = .ok ws
    | .close => ∃ vs, wordsFrom .gap s = .ok vs ∧ [] :: vs = ws
    | .turn next => wordsFrom next s = .ok ws
    | .take cs next => ∃ vs, wordsFrom next s = .ok vs ∧ extend cs vs = ws := by
  rw [wordsFrom]
  cases p.move c <;> simp only [Result.map_eq_ok]

theorem move_of_ne_gap (hp : p ≠ .gap) (c : Char) :
    p.move c ≠ .skip ∧ ∀ next, p.move c = .turn next → next ≠ .gap := by
  cases p <;> grind [Place.move, Move.bare]

/-- Inside a word there is a first word. -/
theorem exists_cons_of_wordsFrom (hp : p ≠ .gap) (h : wordsFrom p s = .ok ws) :
    ∃ v vs, ws = v :: vs := by
  induction s generalizing p ws with
  | nil =>
      cases p with
      | gap => exact absurd rfl hp
      | word => exact ⟨[], [], (Except.ok.inj h).symm⟩
      | single | double | escape | doubleEscape => cases h
  | cons c s ih =>
      rw [wordsFrom_cons_eq_ok] at h
      obtain ⟨hskip, hturn⟩ := move_of_ne_gap hp c
      cases hm : p.move c with
      | skip => exact absurd hm hskip
      | close =>
          rw [hm] at h
          obtain ⟨vs, -, rfl⟩ := h
          exact ⟨_, _, rfl⟩
      | turn next =>
          rw [hm] at h
          exact ih (hturn next hm) h
      | take cs next =>
          rw [hm] at h
          obtain ⟨vs, -, rfl⟩ := h
          cases vs <;> exact ⟨_, _, rfl⟩

/-- Single quotes end at the next one. -/
theorem exists_of_single (h : wordsFrom .single s = .ok ws) : ∃ w rest v vs,
    '\'' ∉ w ∧ s = w ++ '\'' :: rest ∧ wordsFrom .word rest = .ok (v :: vs) ∧
      ws = (w ++ v) :: vs := by
  induction s generalizing ws with
  | nil => cases h
  | cons c s ih =>
      rw [wordsFrom_cons_eq_ok] at h
      by_cases hc : c = '\''
      · subst hc
        replace h : wordsFrom .word s = .ok ws := h
        obtain ⟨v, vs, rfl⟩ := exists_cons_of_wordsFrom (by decide) h
        exact ⟨[], s, v, vs, List.not_mem_nil, rfl, h, rfl⟩
      · have hmove : Place.single.move c = .take [c] .single := by simp [Place.move, hc]
        rw [hmove] at h
        obtain ⟨us, hus, rfl⟩ := h
        obtain ⟨w, rest, v, vs, hw, rfl, hrest, rfl⟩ := ih hus
        refine ⟨c :: w, rest, v, vs, ?_, rfl, hrest, rfl⟩
        rw [List.mem_cons, not_or]
        exact ⟨Ne.symm hc, hw⟩

/-- Between double quotes, what comes next is a character or a backslash with a character. -/
theorem exists_step_of_double (hc : c ≠ '"') (h : wordsFrom .double (c :: s) = .ok ws) :
    ∃ t cs rest vs, c :: s = t ++ rest ∧ rest.length < (c :: s).length ∧
      wordsFrom .double rest = .ok vs ∧ ws = extend cs vs ∧
      ∀ {u w}, Inside u w → Inside (t ++ u) (cs ++ w) := by
  rw [wordsFrom_cons_eq_ok] at h
  by_cases hescape : c = '\\'
  · subst hescape
    replace h : wordsFrom .doubleEscape s = .ok ws := h
    cases s with
    | nil => cases h
    | cons d s =>
        rw [wordsFrom_cons_eq_ok] at h
        have hlt : s.length < ('\\' :: d :: s).length :=
          Nat.lt_succ_of_lt (Nat.lt_succ_self s.length)
        -- the backslash itself stays unless it is in front of a quote or of another one
        by_cases hspecial : d = '"' ∨ d = '\\'
        · have hmove : Place.doubleEscape.move d = .take [d] .double := by
            simp [Place.move, hspecial]
          rw [hmove] at h
          obtain ⟨vs, hvs, rfl⟩ := h
          exact ⟨['\\', d], [d], s, vs, rfl, hlt, hvs, rfl, .escaped hspecial⟩
        · have hmove : Place.doubleEscape.move d = .take ['\\', d] .double := by
            simp [Place.move, hspecial]
          rw [hmove] at h
          obtain ⟨vs, hvs, rfl⟩ := h
          obtain ⟨hquote, hslash⟩ := not_or.1 hspecial
          exact ⟨['\\', d], ['\\', d], s, vs, rfl, hlt, hvs, rfl, .kept hquote hslash⟩
  · have hmove : Place.double.move c = .take [c] .double := by simp [Place.move, hc, hescape]
    rw [hmove] at h
    obtain ⟨vs, hvs, rfl⟩ := h
    exact ⟨[c], [c], s, vs, rfl, Nat.lt_succ_self _, hvs, rfl, .plain hc hescape⟩

/-- Double quotes end at the next one that no backslash stands before. -/
theorem exists_of_double (h : wordsFrom .double s = .ok ws) : ∃ u w rest v vs,
    Inside u w ∧ s = u ++ '"' :: rest ∧ wordsFrom .word rest = .ok (v :: vs) ∧
      ws = (w ++ v) :: vs := by
  induction hlength : s.length using Nat.strongRecOn generalizing s ws with
  | ind n ih =>
      cases s with
      | nil => cases h
      | cons c s =>
          by_cases hquote : c = '"'
          · subst hquote
            replace h : wordsFrom .word s = .ok ws := wordsFrom_cons_eq_ok.1 h
            obtain ⟨v, vs, rfl⟩ := exists_cons_of_wordsFrom (by decide) h
            exact ⟨[], [], s, v, vs, .nil, rfl, h, rfl⟩
          · obtain ⟨t, cs, rest, us, heq, hlt, hus, rfl, hinside⟩ :=
              exists_step_of_double hquote h
            obtain ⟨u, w, rest, v, vs, hu, rfl, hrest, rfl⟩ := ih _ (hlength ▸ hlt) hus rfl
            refine ⟨t ++ u, cs ++ w, rest, v, vs, hinside hu, ?_, hrest, ?_⟩
            · rw [heq, List.append_assoc]
            · rw [extend, List.append_assoc]

/-- Where a word may go on or start, a character that is no separator begins a piece. -/
theorem exists_piece (hm : p.move c = .bare c) (hc : isSeparator c = false)
    (h : wordsFrom p (c :: s) = .ok ws) : ∃ u w rest v vs,
    Piece u w ∧ c :: s = u ++ rest ∧ wordsFrom .word rest = .ok (v :: vs) ∧
      ws = (w ++ v) :: vs := by
  rw [wordsFrom_cons_eq_ok, hm] at h
  by_cases hsingle : c = '\''
  · subst hsingle
    replace h : wordsFrom .single s = .ok ws := h
    obtain ⟨w, rest, v, vs, hw, rfl, hrest, rfl⟩ := exists_of_single h
    exact ⟨_, w, rest, v, vs, .single hw, by simp, hrest, rfl⟩
  by_cases hdouble : c = '"'
  · subst hdouble
    replace h : wordsFrom .double s = .ok ws := h
    obtain ⟨u, w, rest, v, vs, hu, rfl, hrest, rfl⟩ := exists_of_double h
    exact ⟨_, w, rest, v, vs, .double hu, by simp, hrest, rfl⟩
  by_cases hescape : c = '\\'
  · subst hescape
    replace h : wordsFrom .escape s = .ok ws := h
    cases s with
    | nil => cases h
    | cons d s =>
        obtain ⟨us, hus, rfl⟩ := wordsFrom_cons_eq_ok.1 h
        obtain ⟨v, vs, rfl⟩ := exists_cons_of_wordsFrom (by decide) hus
        exact ⟨_, _, s, v, vs, .escaped d, rfl, hus, rfl⟩
  · have hbare : Move.bare c = .take [c] .word := by simp [Move.bare, hsingle, hdouble, hescape]
    rw [hbare] at h
    obtain ⟨us, hus, rfl⟩ := h
    obtain ⟨v, vs, rfl⟩ := exists_cons_of_wordsFrom (by decide) hus
    exact ⟨_, _, s, v, vs, .plain ⟨hc, hsingle, hdouble, hescape⟩, rfl, hus, rfl⟩

/-- The rest of a word is pieces up to a separator or the end. -/
theorem exists_pieces (h : wordsFrom .word s = .ok ws) : ∃ u w, Pieces u w ∧
    (s = u ∧ ws = [w] ∨ ∃ c rest vs, s = u ++ c :: rest ∧ isSeparator c = true ∧
      wordsFrom .gap rest = .ok vs ∧ ws = w :: vs) := by
  induction hlength : s.length using Nat.strongRecOn generalizing s ws with
  | ind n ih =>
      cases s with
      | nil =>
          obtain rfl := Except.ok.inj h
          exact ⟨[], [], .nil, .inl ⟨rfl, rfl⟩⟩
      | cons c s =>
          by_cases hc : isSeparator c = true
          · have hmove : Place.word.move c = .close := by simp [Place.move, hc]
            rw [wordsFrom_cons_eq_ok, hmove] at h
            obtain ⟨vs, hvs, rfl⟩ := h
            exact ⟨[], [], .nil, .inr ⟨c, s, vs, rfl, hc, hvs, rfl⟩⟩
          · rw [Bool.not_eq_true] at hc
            obtain ⟨p, w, rest, v, vs, hpiece, heq, hrest, rfl⟩ :=
              exists_piece (by simp [Place.move, hc]) hc h
            have hlt : rest.length < n := hlength ▸ hpiece.length_lt heq
            obtain ⟨u, w', hpieces, hend⟩ := ih _ hlt hrest rfl
            refine ⟨p ++ u, w ++ w', .cons hpiece hpieces, ?_⟩
            rw [heq]
            rcases hend with ⟨rfl, hv⟩ | ⟨d, rest', us, rfl, hd, hus, hv⟩
            · obtain ⟨rfl, rfl⟩ := List.cons.inj hv
              exact .inl ⟨rfl, rfl⟩
            · obtain ⟨rfl, rfl⟩ := List.cons.inj hv
              exact .inr ⟨d, rest', _, by rw [List.append_assoc], hd, hus, rfl⟩

theorem Line.separated (h : Line s ws) (hc : isSeparator c = true) : Line (c :: s) ws := by
  cases h with
  | blank separators => exact .blank (List.forall_mem_cons.2 ⟨hc, separators⟩)
  | last separators word => exact .last (List.forall_mem_cons.2 ⟨hc, separators⟩) word
  | cons separators word separator more =>
      exact .cons (List.forall_mem_cons.2 ⟨hc, separators⟩) word separator more

/-- What is read is a line of the grammar. -/
theorem line_of_wordsFrom (h : wordsFrom .gap s = .ok ws) : Line s ws := by
  induction hlength : s.length using Nat.strongRecOn generalizing s ws with
  | ind n ih =>
      cases s with
      | nil =>
          obtain rfl := Except.ok.inj h
          exact .blank nofun
      | cons c s =>
          by_cases hc : isSeparator c = true
          · have hmove : Place.gap.move c = .skip := by simp [Place.move, hc]
            rw [wordsFrom_cons_eq_ok, hmove] at h
            rw [List.length_cons] at hlength
            exact (ih _ (by omega) h rfl).separated hc
          · rw [Bool.not_eq_true] at hc
            obtain ⟨p, w, rest, v, vs, hpiece, heq, hrest, rfl⟩ :=
              exists_piece (by simp [Place.move, hc]) hc h
            have hlt : rest.length < n := hlength ▸ hpiece.length_lt heq
            obtain ⟨u, w', hpieces, hend⟩ := exists_pieces hrest
            have hword : IsWord (p ++ u) (w ++ w') :=
              ⟨by simp [hpiece.ne_nil], .cons hpiece hpieces⟩
            rw [heq]
            rcases hend with ⟨rfl, hv⟩ | ⟨d, rest', us, rfl, hd, hus, hv⟩
            · obtain ⟨rfl, rfl⟩ := List.cons.inj hv
              exact @Line.last [] _ _ nofun hword
            · obtain ⟨rfl, rfl⟩ := List.cons.inj hv
              have hmore : Line rest' _ := ih _ (by simp at hlt; omega) hus rfl
              rw [← List.append_assoc]
              exact @Line.cons [] _ _ _ _ _ nofun hword hd hmore

/-- A text is split into words just as the grammar says. -/
theorem split_eq_ok_iff {s : String} {ws : List String} :
    split s = .ok ws ↔ Line s.toList (ws.map String.toList) := by
  rw [split, Result.map_eq_ok]
  constructor
  · rintro ⟨vs, hvs, rfl⟩
    simpa [Function.comp_def] using line_of_wordsFrom hvs
  · intro h
    exact ⟨_, h.wordsFrom, by simp [Function.comp_def]⟩

end HostPrereqs.Words
