import Mathlib.Data.List.TakeWhile
import HostPrereqs.Proofs.Version.RoundTrip

/-!
# Version — the characters of a version

However a version is spelled, it is spelled in basic letters, digits and five signs.  Every reader
takes only such characters off the front of a text (`Takes`), and the local part, which goes to the
end, consists of them too.

* `isWordChar_of_denotes`: a text that denotes a version is one word, up to blanks around it.  So
  it has no commas inside, and none of the signs of a clause but `!`.
* `read_of_digits`: digits alone denote a version, which is not read if there are too many.
-/

namespace HostPrereqs.Version

/-- The characters that a version is spelled with, once it is in lower case. -/
def isSpellingChar (c : Char) : Bool := isFrontChar c || c = '+'

variable {s t u rest w : List Char} {c : Char}

theorem isSpellingChar_of_isFrontChar (h : isFrontChar c = true) : isSpellingChar c = true := by
  rw [isSpellingChar, h, Bool.true_or]

theorem isSpellingChar_of_isLabelChar (h : isLabelChar c = true) : isSpellingChar c = true :=
  isSpellingChar_of_isFrontChar (by simp [isFrontChar, h])

/-- Where the rest is spelled, so is the whole. -/
theorem Takes.forall_mem (h : Takes s t) (ht : ∀ c ∈ t, isSpellingChar c = true) :
    ∀ c ∈ s, isSpellingChar c = true := by
  obtain ⟨front, rfl, hfront⟩ := h
  exact fun c hc => (List.mem_append.1 hc).elim
    (fun hc => isSpellingChar_of_isFrontChar (hfront c hc)) (ht c)

/-! ### The local part -/

theorem isLabelChar_of_readSegment {g : LocalSegment} (h : readSegment s = some g) :
    ∀ c ∈ s, isLabelChar c = true := by
  unfold readSegment at h
  intro c hc
  split at h
  · cases h
  · split at h
    · split at h
      · rename_i hall
        exact List.all_eq_true.1 hall c hc
      · cases h
    · rename_i hdigits
      rw [Bool.not_eq_false] at hdigits
      simp [isLabelChar, List.all_eq_true.1 hdigits c hc]

/-- Every character is a separator or in one of the segments. -/
theorem mem_segments_or_isSeparator (hc : c ∈ s) :
    isSeparator c = true ∨ ∃ g ∈ segments s, c ∈ g := by
  induction s with
  | nil => cases hc
  | cons d s ih =>
      rw [segments]
      split
      · rename_i hd
        rcases List.mem_cons.1 hc with rfl | hc
        · exact .inl hd
        · obtain hsep | ⟨g, hg, hcg⟩ := ih hc
          · exact .inl hsep
          · exact .inr ⟨g, List.mem_cons_of_mem _ hg, hcg⟩
      · split
        · rename_i first more hs
          rcases List.mem_cons.1 hc with rfl | hc
          · exact .inr ⟨_, List.mem_cons_self, List.mem_cons_self⟩
          · obtain hsep | ⟨g, hg, hcg⟩ := ih hc
            · exact .inl hsep
            · rw [hs] at hg
              rcases List.mem_cons.1 hg with rfl | hg
              · exact .inr ⟨_, List.mem_cons_self, List.mem_cons_of_mem d hcg⟩
              · exact .inr ⟨g, List.mem_cons_of_mem _ hg, hcg⟩
        · rename_i hs
          rcases List.mem_cons.1 hc with rfl | hc
          · exact .inr ⟨_, List.mem_cons_self, List.mem_cons_self⟩
          · obtain hsep | ⟨g, hg, -⟩ := ih hc
            · exact .inl hsep
            · rw [hs] at hg
              cases hg

theorem exists_of_mapM_eq_some {α β : Type} {f : α → Option β} {xs : List α} {ys : List β}
    (h : xs.mapM f = some ys) : ∀ x ∈ xs, ∃ y, f x = some y := by
  induction xs generalizing ys with
  | nil => simp
  | cons x xs ih =>
      rw [List.mapM_cons] at h
      obtain ⟨y, hy, h⟩ := Option.bind_eq_some_iff.1 h
      obtain ⟨zs, hzs, -⟩ := Option.bind_eq_some_iff.1 h
      exact List.forall_mem_cons.2 ⟨⟨y, hy⟩, ih hzs⟩

/-- The local part goes to the end of the text. -/
theorem isSpellingChar_of_readLocal {l : List LocalSegment} (h : readLocal s = some l) :
    ∀ c ∈ s, isSpellingChar c = true := by
  cases s with
  | nil => simp
  | cons d s =>
      by_cases hd : d = '+'
      · subst hd
        refine List.forall_mem_cons.2 ⟨by decide, fun c hc => ?_⟩
        obtain hsep | ⟨g, hg, hcg⟩ := mem_segments_or_isSeparator hc
        · exact isSpellingChar_of_isFrontChar (isFrontChar_of_isSeparator hsep)
        · obtain ⟨x, hx⟩ := exists_of_mapM_eq_some h g hg
          exact isSpellingChar_of_isLabelChar (isLabelChar_of_readSegment hx c hcg)
      · rw [readLocal] at h
        · cases h
        · exact List.cons_ne_nil d s
        · exact fun t ht => hd (List.cons.inj ht).1

/-! ### Whole versions -/

theorem isSpellingChar_of_ofChars? {v : Version} (h : ofChars? s = some v) :
    ∀ c ∈ s, isSpellingChar c = true := by
  simp only [ofChars?, bind, Option.bind_eq_some_iff] at h
  obtain ⟨⟨n, t⟩, hdigits, l, hlocal, -⟩ := h
  have hfront := (takes_dropLetter s).trans <| (takes_readEpoch _).trans (takes_readDigits hdigits)
  have hrest := (takes_readRelease [] n t).trans <| (takes_readPre _).trans <|
    (takes_readPost _).trans (takes_readDev _)
  exact (hfront.trans hrest).forall_mem (isSpellingChar_of_readLocal hlocal)

theorem ofChars?_nil : ofChars? [] = none := rfl

/-- The characters of a version in any spelling. -/
def isWordChar (c : Char) : Bool := isSpellingChar c.toLower

theorem not_isBlank_of_isWordChar (h : isWordChar c = true) : Text.isBlank c = false := by
  unfold isWordChar Char.toLower at h
  split at h
  · rename_i hupper
    have : 65 ≤ c.toNat ∧ c.toNat ≤ 90 := hupper
    simp only [Text.isBlank, Text.blankRanges, Text.inRanges, Bool.and_eq_false_iff,
      Bool.or_eq_false_iff, decide_eq_false_iff_not]
    omega
  · simp only [isSpellingChar, isFrontChar, isSeparator, Bool.or_eq_true, decide_eq_true_eq] at h
    rcases h with ((hlabel | (rfl | rfl) | rfl) | rfl) | rfl
    · exact not_isBlank_of_isVersionChar (by simp [isVersionChar, hlabel])
    all_goals decide

theorem ne_of_isWordChar {d : Char} (h : isWordChar c = true) (hd : isWordChar d = false) :
    c ≠ d := by
  rintro rfl
  rw [h] at hd
  cases hd

/-- A text that denotes a version is one word, apart from the blanks around it. -/
theorem isWordChar_of_denotes {v : Version} {text : List Char}
    (h : ofChars? (plain (String.ofList text)) = some v) :
    Text.trim text ≠ [] ∧ ∀ c ∈ Text.trim text, isWordChar c = true := by
  rw [plain, String.toList_ofList] at h
  refine ⟨fun hnil => ?_, fun c hc => ?_⟩
  · rw [hnil, List.map_nil, ofChars?_nil] at h
    cases h
  · exact isSpellingChar_of_ofChars? h _ (List.mem_map_of_mem hc)

/-! ### Digits alone -/

variable {ds : List Char}

theorem numeral_zeros_append (n : Nat) (ds : List Char) :
    numeral (List.replicate n '0' ++ ds) = numeral ds := by
  induction n with
  | zero => rfl
  | succ n ih => exact ih

theorem readDigits_of_digits (hne : ds ≠ []) (hds : ∀ d ∈ ds, d.isDigit = true) :
    readDigits ds = some (numeral ds, []) := by
  have htake : ds.takeWhile Char.isDigit = ds := List.takeWhile_eq_self_iff.2 hds
  have hdrop : ds.dropWhile Char.isDigit = [] := List.dropWhile_eq_nil_iff.2 hds
  rw [readDigits, htake, hdrop]
  cases ds with
  | nil => exact absurd rfl hne
  | cons d ds => rfl

/-- Digits denote a version of one number. -/
theorem ofChars?_of_digits (hne : ds ≠ []) (hds : ∀ d ∈ ds, d.isDigit = true) :
    ofChars? ds = some ⟨0, [numeral ds], none, none, none, [], by simp⟩ := by
  have hread := readDigits_of_digits hne hds
  have hletter : dropLetter ds = ds := by
    cases ds with
    | nil => rfl
    | cons d ds =>
        rw [dropLetter]
        rintro rest heq
        obtain ⟨rfl, -⟩ := List.cons.inj heq
        exact absurd (hds 'v' List.mem_cons_self) (by decide)
  have hepoch : readEpoch ds = (0, ds) := by rw [readEpoch, hread]
  rw [ofChars?, hletter, hepoch]
  dsimp only
  rw [hread]
  rfl

theorem trim_of_digits (hds : ∀ d ∈ ds, d.isDigit = true) : Text.trim ds = ds :=
  Text.trim_eq_self
    (fun d hd => not_isBlank_of_isVersionChar
      (isVersionChar_of_isDigit (hds d (List.mem_of_mem_head? hd))))
    fun d hd => not_isBlank_of_isVersionChar
      (isVersionChar_of_isDigit (hds d (List.mem_of_getLast? hd)))

theorem plain_of_digits (hds : ∀ d ∈ ds, d.isDigit = true) : plain (String.ofList ds) = ds := by
  rw [plain, String.toList_ofList, trim_of_digits hds]
  exact (List.map_congr_left fun d hd =>
    toLower_of_isVersionChar (isVersionChar_of_isDigit (hds d hd))).trans (List.map_id ds)

/-- Too many digits are a version that is not read. -/
theorem read_of_digits (hds : ∀ d ∈ ds, d.isDigit = true)
    (hlong : Numeral.digitLimit < ds.length) :
    read (String.ofList ds) = .error (.read ds.length) := by
  have hne : ds ≠ [] := by
    rintro rfl
    exact absurd hlong (Nat.not_lt_zero _)
  rw [read_eq_error, plain_of_digits hds]
  refine ⟨⟨_, ofChars?_of_digits hne hds⟩, ?_⟩
  have hfirst : ∃ rest, numerals false ds = ds :: rest := by
    cases ds with
    | nil => exact absurd rfl hne
    | cons d ds =>
        have hd := hds d List.mem_cons_self
        rw [numerals, if_neg (ne_plus_of_isFrontChar (isFrontChar_of_isDigit hd)),
          if_neg (by simp [hd]), List.takeWhile_eq_self_iff.2 hds]
        exact ⟨_, rfl⟩
  obtain ⟨rest, hfirst⟩ := hfirst
  rw [excess?, hfirst, List.find?_cons_of_pos (by simpa using hlong)]
  rfl

end HostPrereqs.Version
