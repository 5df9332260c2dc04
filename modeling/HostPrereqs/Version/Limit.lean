import HostPrereqs.Number.Numeral
import HostPrereqs.Version.Text

/-!
# Version — versions with long numerals

A text can denote a version and still not be read as one, because a numeral in it has too many
digits, zeros in front included.  The numerals are the digits before the local part, and those
segments of the local part that have no letters (`numerals`); the first one that is too long is
told (`excess?`).  `parse?` reads what `ofChars?` does as long as there is none.

All readers but that of the local part take characters off the front of a text that cannot start
the local part (`Takes`), so that they come to numerals of the text only.

* `fits_of_read`: the numbers of a version that is read can be written.
-/

namespace HostPrereqs.Version

/-! ### Numbers that can be written -/

/-- The numbers of a version. -/
def numbers (v : Version) : List Nat :=
  v.epoch :: (v.release ++ (v.pre.map (·.2)).toList ++ v.post.toList ++ v.dev.toList
    ++ v.localPart.map LocalSegment.value)

/-- A version whose numbers can be written. -/
def Fits (v : Version) : Prop := ∀ n ∈ v.numbers, Numeral.Fits n

instance (v : Version) : Decidable v.Fits := inferInstanceAs (Decidable (∀ n ∈ v.numbers, _))

/-- The numbers of a version part by part. -/
theorem fits_iff {v : Version} : v.Fits ↔ Numeral.Fits v.epoch ∧
    (∀ n ∈ v.release, Numeral.Fits n) ∧ (∀ p ∈ v.pre, Numeral.Fits p.2) ∧
    (∀ n ∈ v.post, Numeral.Fits n) ∧ (∀ n ∈ v.dev, Numeral.Fits n) ∧
    ∀ segment ∈ v.localPart, Numeral.Fits segment.value := by
  simp only [Fits, numbers, List.forall_mem_cons, List.forall_mem_append, List.forall_mem_map,
    Option.mem_toList, and_assoc]
  cases v.pre <;> simp

/-! ### Numerals of a text -/

/-- The digits in a row before the local part, and the segments of the local part that are digits
alone.  Digits right after a digit belong to an earlier numeral. -/
def numerals (afterDigit : Bool) : List Char → List (List Char)
  | []     => []
  | c :: s =>
      if c = '+' then (segments s).filter (·.all Char.isDigit)
      else if afterDigit || !c.isDigit then numerals c.isDigit s
      else (c :: s).takeWhile Char.isDigit :: numerals true s

/-- The first numeral of a text that has too many digits. -/
def excess? (s : List Char) : Option Numeral.Excess :=
  ((numerals false s).find? (Numeral.digitLimit < ·.length)).map (.read ·.length)

/-- A text as it is read: without the blanks around it, and in lower case. -/
def plain (s : String) : List Char := (Text.trim s.toList).map Char.toLower

/-- Reads a text, which may be no version.  Reading fails at a numeral that is too long. -/
def read (s : String) : Except Numeral.Excess (Option Version) :=
  match ofChars? (plain s) with
  | none => .ok none
  | some v =>
      match excess? (plain s) with
      | some cause => .error cause
      | none => .ok (some v)

/-- The version that a text is read as, if it is read as one. -/
def parse? (s : String) : Option Version := (read s).toOption.join

/-! ### What is taken off the front -/

/-- The characters of a version before its local part. -/
def isFrontChar (c : Char) : Bool := isLabelChar c || isSeparator c || c = '!'

/-- A reader goes from one text to another by taking characters off the front. -/
def Takes (s t : List Char) : Prop :=
  ∃ front : List Char, s = front ++ t ∧ ∀ c ∈ front, isFrontChar c = true

variable {s t u rest w : List Char} {c : Char}

namespace Takes

theorem refl (s : List Char) : Takes s s := ⟨[], rfl, by simp⟩

theorem trans (h : Takes s t) (h' : Takes t u) : Takes s u := by
  obtain ⟨front, rfl, hfront⟩ := h
  obtain ⟨next, rfl, hnext⟩ := h'
  refine ⟨front ++ next, (List.append_assoc ..).symm, fun c hc => ?_⟩
  exact (List.mem_append.1 hc).elim (hfront c) (hnext c)

theorem cons (hc : isFrontChar c = true) (h : Takes s t) : Takes (c :: s) t := by
  obtain ⟨front, rfl, hfront⟩ := h
  exact ⟨c :: front, rfl, List.forall_mem_cons.2 ⟨hc, hfront⟩⟩

end Takes

theorem isFrontChar_of_isDigit (h : c.isDigit = true) : isFrontChar c = true := by
  simp [isFrontChar, isLabelChar, h]

theorem isFrontChar_of_isSeparator (h : isSeparator c = true) : isFrontChar c = true := by
  simp [isFrontChar, h]

/-- Digits may be taken off the front. -/
theorem takes_dropDigits (s : List Char) : Takes s (s.dropWhile Char.isDigit) := by
  refine ⟨s.takeWhile Char.isDigit, List.takeWhile_append_dropWhile.symm, fun c hc => ?_⟩
  exact isFrontChar_of_isDigit (List.all_eq_true.1 List.all_takeWhile c hc)

theorem takes_skipSeparator (s : List Char) : Takes s (skipSeparator s) := by
  cases s with
  | nil => exact .refl _
  | cons c s =>
      rw [skipSeparator]
      split
      · rename_i hc
        exact .cons (isFrontChar_of_isSeparator hc) (.refl s)
      · exact .refl _

theorem eq_append_of_after (h : after w s = some rest) : s = w ++ rest := by
  induction w generalizing s with
  | nil => exact Option.some.inj h
  | cons c w ih =>
      cases s with
      | nil => cases h
      | cons d s =>
          rw [after] at h
          split at h
          · rename_i hcd
            rw [hcd, ih h, List.cons_append]
          · cases h

theorem takes_afterOneOf {α : Type} {names : List (String × α)} {a : α}
    (hnames : ∀ p ∈ names, ∀ c ∈ p.1.toList, isFrontChar c = true)
    (h : afterOneOf names s = some (a, rest)) : Takes s rest := by
  induction names with
  | nil => cases h
  | cons p names ih =>
      obtain ⟨hp, hnames⟩ := List.forall_mem_cons.1 hnames
      rw [afterOneOf] at h
      split at h
      · rename_i rest' hafter
        obtain ⟨-, rfl⟩ := Prod.mk.inj (Option.some.inj h)
        exact ⟨p.1.toList, eq_append_of_after hafter, hp⟩
      · exact ih hnames h

/-- The number of a suffix is read where its name, with the separators around it, is taken off. -/
theorem exists_of_readSuffix {α : Type} {names : List (String × α)} {a : α} {n : Nat}
    (hnames : names.all (fun p => p.1.toList.all isFrontChar) = true)
    (h : readSuffix names s = some ((a, n), rest)) : ∃ t, Takes s t ∧
      n = numeral (t.takeWhile Char.isDigit) ∧ rest = t.dropWhile Char.isDigit := by
  obtain ⟨⟨b, following⟩, hname, hrest⟩ := Option.map_eq_some_iff.1 h
  obtain ⟨hnumber, rfl⟩ := Prod.mk.inj hrest
  simp only [List.all_eq_true] at hnames
  exact ⟨_, (takes_skipSeparator s).trans <| (takes_afterOneOf hnames hname).trans
    (takes_skipSeparator following), (Prod.mk.inj hnumber).2.symm, rfl⟩

/-- The release is taken off the front, by induction on the text. -/
theorem takes_readRelease (before : List Nat) (n : Nat) (s : List Char) :
    Takes s (readRelease before n s).2 := by
  fun_induction readRelease before n s with
  | case1 before n d rest hd ih => exact .cons (by decide) (.cons (isFrontChar_of_isDigit hd) ih)
  | case3 before n d rest _ hd ih => exact .cons (isFrontChar_of_isDigit hd) ih
  | case2 | case4 | case5 => exact .refl _

theorem exists_of_readDigits {n : Nat} (h : readDigits s = some (n, rest)) :
    ∃ ds, (∀ d ∈ ds, d.isDigit = true) ∧ numeral ds = n ∧ s = ds ++ rest := by
  unfold readDigits at h
  split at h
  · cases h
  · obtain ⟨rfl, rfl⟩ := Prod.mk.inj (Option.some.inj h)
    exact ⟨_, fun d hd => List.all_eq_true.1 List.all_takeWhile d hd, rfl,
      List.takeWhile_append_dropWhile.symm⟩

theorem takes_readDigits {n : Nat} (h : readDigits s = some (n, rest)) : Takes s rest := by
  obtain ⟨ds, hds, -, rfl⟩ := exists_of_readDigits h
  exact ⟨ds, rfl, fun d hd => isFrontChar_of_isDigit (hds d hd)⟩

theorem takes_readEpoch (s : List Char) : Takes s (readEpoch s).2 := by
  unfold readEpoch
  split
  · rename_i hread
    exact (takes_readDigits hread).trans (.cons (by decide) (.refl _))
  · exact .refl s

theorem takes_dropLetter (s : List Char) : Takes s (dropLetter s) := by
  unfold dropLetter
  split
  · exact .cons (by decide) (.refl _)
  · exact .refl s

/-! ### Short texts -/

/-- No numeral of a text is too long. -/
def Short (s : List Char) : Prop := ∀ ds ∈ numerals false s, ds.length ≤ Numeral.digitLimit

/-- Nothing is excessive where all numerals are short. -/
theorem excess?_eq_none_iff : excess? s = none ↔ Short s := by
  simp [excess?, Short]

theorem ne_plus_of_isFrontChar (h : isFrontChar c = true) : c ≠ '+' := by
  rintro rfl
  revert h
  decide

/-- After a digit there are the same numerals, except that the first one may be a part. -/
theorem short_iff_afterDigit : Short s ↔
    (s.takeWhile Char.isDigit).length ≤ Numeral.digitLimit ∧
      ∀ ds ∈ numerals true s, ds.length ≤ Numeral.digitLimit := by
  cases s with
  | nil => simp [Short, numerals]
  | cons c s =>
      rw [Short, numerals, numerals]
      by_cases hplus : c = '+'
      · subst hplus
        have hnone : ('+' :: s).takeWhile Char.isDigit = [] := rfl
        rw [if_pos rfl, hnone]
        exact (and_iff_right (Nat.zero_le _)).symm
      · rw [if_neg hplus, if_neg hplus]
        cases hc : c.isDigit with
        | true => simp
        | false => simp [hc]

/-- A text with one more character in front. -/
theorem short_cons_iff (hc : c ≠ '+') : Short (c :: s) ↔
    ((c :: s).takeWhile Char.isDigit).length ≤ Numeral.digitLimit ∧ Short s := by
  rw [short_iff_afterDigit, numerals, if_neg hc, Bool.true_or, if_pos rfl]
  refine and_congr_right fun hlength => ?_
  cases hdigit : c.isDigit with
  | false => rfl
  | true =>
      rw [List.takeWhile_cons_of_pos hdigit] at hlength
      rw [short_iff_afterDigit, and_iff_right (Nat.le_of_succ_le hlength)]

/-- What is left of a text has no longer numerals. -/
theorem Short.of_takes (h : Takes s t) (hs : Short s) : Short t := by
  obtain ⟨front, rfl, hfront⟩ := h
  induction front with
  | nil => exact hs
  | cons c front ih =>
      obtain ⟨hc, hfront⟩ := List.forall_mem_cons.1 hfront
      exact ih hfront ((short_cons_iff (ne_plus_of_isFrontChar hc)).1 hs).2

theorem Short.length_le (hs : Short s) :
    (s.takeWhile Char.isDigit).length ≤ Numeral.digitLimit :=
  (short_iff_afterDigit.1 hs).1

/-! ### Numbers that are read -/

theorem numeral_snoc (ds : List Char) (d : Char) :
    numeral (ds ++ [d]) = 10 * numeral ds + (d.toNat - '0'.toNat) := by
  rw [numeral, List.foldl_append]
  rfl

/-- A number has no more digits than it is read from. -/
theorem length_digits_numeral {ds : List Char} (hne : ds ≠ [])
    (hds : ∀ d ∈ ds, d.isDigit = true) : (digits (numeral ds)).length ≤ ds.length := by
  induction hlength : ds.length generalizing ds with
  | zero => exact absurd (List.length_eq_zero_iff.1 hlength) hne
  | succ n ih =>
      obtain ⟨before, d, rfl⟩ : ∃ before d, ds = before ++ [d] :=
        ⟨_, _, (List.dropLast_concat_getLast hne).symm⟩
      have hd : d.toNat - '0'.toNat < 10 := by
        have hdigit := hds d (by simp)
        simp only [Char.isDigit, Bool.and_eq_true, decide_eq_true_eq] at hdigit
        have : d.toNat ≤ 57 := hdigit.2
        change d.toNat - 48 < 10
        omega
      rw [numeral_snoc]
      by_cases hzero : numeral before = 0
      · rw [hzero, Nat.mul_zero, Nat.zero_add, digits, Nat.toDigits_of_lt_base hd]
        exact Nat.succ_le_succ (Nat.zero_le n)
      · have hbefore : before ≠ [] := fun hnil => hzero (hnil ▸ rfl)
        have hshorter := ih hbefore (fun c hc => hds c (List.mem_append_left _ hc))
          (by simpa using hlength)
        rw [digits, ← Nat.toDigits_append_toDigits (by decide) (Nat.pos_of_ne_zero hzero) hd,
          Nat.toDigits_of_lt_base hd, List.length_append]
        exact Nat.succ_le_succ hshorter

/-- A number that is read from few digits can be written. -/
theorem fits_numeral {ds : List Char} (hds : ∀ d ∈ ds, d.isDigit = true)
    (hlength : ds.length ≤ Numeral.digitLimit) : Numeral.Fits (numeral ds) := by
  by_cases hne : ds = []
  · subst hne
    decide
  · exact Nat.le_trans (length_digits_numeral hne hds) hlength

theorem fits_takeWhile (hs : Short s) : Numeral.Fits (numeral (s.takeWhile Char.isDigit)) :=
  fits_numeral (fun d hd => List.all_eq_true.1 List.all_takeWhile d hd) hs.length_le

theorem fits_zero : Numeral.Fits 0 := by decide

theorem fits_readDigits {n : Nat} (hs : Short s) (h : readDigits s = some (n, rest)) :
    Numeral.Fits n := by
  unfold readDigits at h
  split at h
  · cases h
  · obtain ⟨rfl, -⟩ := Prod.mk.inj (Option.some.inj h)
    exact fits_takeWhile hs

theorem fits_readEpoch (hs : Short s) : Numeral.Fits (readEpoch s).1 := by
  unfold readEpoch
  split
  · rename_i hread
    exact fits_readDigits hs hread
  · exact fits_zero

/-- The digits `ds` of the last number are taken off already. -/
theorem fits_readRelease {before : List Nat} {ds : List Char} (hds : ∀ d ∈ ds, d.isDigit = true)
    (hs : Short (ds ++ s)) (hbefore : ∀ n ∈ before, Numeral.Fits n) :
    ∀ n ∈ (readRelease before (numeral ds) s).1, Numeral.Fits n := by
  have hlast : ∀ {ds t : List Char}, (∀ d ∈ ds, d.isDigit = true) → Short (ds ++ t) →
      Numeral.Fits (numeral ds) := by
    intro ds t hds ht
    have hlength := ht.length_le
    rw [List.takeWhile_append_of_pos hds, List.length_append] at hlength
    exact fits_numeral hds (Nat.le_trans (Nat.le_add_right _ _) hlength)
  generalize hn : numeral ds = n
  -- along the reader: a point ends the last number, and a digit makes it longer
  fun_induction readRelease before n s generalizing ds with
  | case1 before n d rest hd ih =>
      refine @ih [d] (by simpa using hd) (hs.of_takes ⟨ds ++ ['.'], by simp, fun c hc => ?_⟩)
        (List.forall_mem_cons.2 ⟨hn ▸ hlast hds hs, hbefore⟩) rfl
      rcases List.mem_append.1 hc with hc | hc
      · exact isFrontChar_of_isDigit (hds c hc)
      · obtain rfl := List.mem_singleton.1 hc
        decide
  | case3 before n d rest _ hd ih =>
      refine @ih (ds ++ [d]) (fun c hc => ?_) (by simpa using hs) hbefore ?_
      · rcases List.mem_append.1 hc with hc | hc
        · exact hds c hc
        · obtain rfl := List.mem_singleton.1 hc
          exact hd
      · rw [numeral_snoc, hn]
        simp [numeral]
  | case2 | case4 | case5 =>
      simp only [List.mem_reverse]
      exact List.forall_mem_cons.2 ⟨hn ▸ hlast hds hs, hbefore⟩

theorem takes_readPre (s : List Char) : Takes s (readPre s).2 := by
  unfold readPre
  split
  · rename_i hread
    obtain ⟨t, htakes, -, rfl⟩ := exists_of_readSuffix rfl hread
    exact htakes.trans (takes_dropDigits t)
  · exact .refl s

theorem fits_readPre (hs : Short s) : ∀ p ∈ (readPre s).1, Numeral.Fits p.2 := by
  unfold readPre
  split
  · rename_i hread
    intro p hp
    obtain rfl := Option.some.inj hp
    obtain ⟨t, htakes, hn, -⟩ := exists_of_readSuffix rfl hread
    exact hn ▸ fits_takeWhile (hs.of_takes htakes)
  · exact nofun

theorem takes_readDev (s : List Char) : Takes s (readDev s).2 := by
  unfold readDev
  split
  · rename_i hread
    obtain ⟨t, htakes, -, rfl⟩ := exists_of_readSuffix rfl hread
    exact htakes.trans (takes_dropDigits t)
  · exact .refl s

theorem fits_readDev (hs : Short s) : ∀ n ∈ (readDev s).1, Numeral.Fits n := by
  unfold readDev
  split
  · rename_i hread
    intro n hn
    obtain rfl := Option.some.inj hn
    obtain ⟨t, htakes, hn, -⟩ := exists_of_readSuffix rfl hread
    exact hn ▸ fits_takeWhile (hs.of_takes htakes)
  · exact nofun

/-- A post-release is read with what was taken off as its number, or there is none. -/
theorem readPost_cases (s : List Char) :
    (∃ t, Takes s t ∧ readPost s = (some (numeral (t.takeWhile Char.isDigit)),
      t.dropWhile Char.isDigit)) ∨ readPost s = (none, s) := by
  unfold readPost
  dsimp only
  split
  · rename_i d rest
    split
    · rename_i hd
      refine .inl ⟨d :: rest, .cons (by decide) (.refl _), ?_⟩
      rw [List.takeWhile_cons_of_pos hd, List.dropWhile_cons_of_pos hd]
    · split
      · rename_i hread
        obtain ⟨t, htakes, rfl, rfl⟩ := exists_of_readSuffix rfl hread
        exact .inl ⟨t, htakes, rfl⟩
      · exact .inr rfl
  · split
    · rename_i hread
      obtain ⟨t, htakes, rfl, rfl⟩ := exists_of_readSuffix rfl hread
      exact .inl ⟨t, htakes, rfl⟩
    · exact .inr rfl

theorem takes_readPost (s : List Char) : Takes s (readPost s).2 := by
  rcases readPost_cases s with ⟨t, htakes, hread⟩ | hread
  · exact hread ▸ htakes.trans (takes_dropDigits t)
  · exact hread ▸ .refl s

theorem fits_readPost (hs : Short s) : ∀ n ∈ (readPost s).1, Numeral.Fits n := by
  rcases readPost_cases s with ⟨t, htakes, hread⟩ | hread
  · rw [hread]
    rintro n ⟨⟩
    exact fits_takeWhile (hs.of_takes htakes)
  · rw [hread]
    exact nofun

/-- A segment of the local part that is read from few digits can be written. -/
theorem fits_readSegment {segment : LocalSegment}
    (hlength : s.all Char.isDigit = true → s.length ≤ Numeral.digitLimit)
    (h : readSegment s = some segment) : Numeral.Fits segment.value := by
  unfold readSegment at h
  split at h
  · cases h
  · split at h
    · split at h
      · obtain rfl := Option.some.inj h
        exact fits_zero
      · cases h
    · rename_i hall
      obtain rfl := Option.some.inj h
      have hall : s.all Char.isDigit = true := by simpa using hall
      exact fits_numeral (List.all_eq_true.1 hall) (hlength hall)

theorem exists_of_mem_mapM {α β : Type} {f : α → Option β} {xs : List α} {ys : List β}
    (h : xs.mapM f = some ys) : ∀ y ∈ ys, ∃ x ∈ xs, f x = some y := by
  induction xs generalizing ys with
  | nil =>
      obtain rfl := Option.some.inj h
      exact nofun
  | cons x xs ih =>
      rw [List.mapM_cons] at h
      obtain ⟨y, hy, h⟩ := Option.bind_eq_some_iff.1 h
      obtain ⟨ys, hys, h⟩ := Option.bind_eq_some_iff.1 h
      obtain rfl := Option.some.inj h
      refine List.forall_mem_cons.2 ⟨⟨x, List.mem_cons_self, hy⟩, fun z hz => ?_⟩
      obtain ⟨x', hx', hz⟩ := ih hys z hz
      exact ⟨x', List.mem_cons_of_mem _ hx', hz⟩

/-- The numbers of a local part that is read can be written. -/
theorem fits_readLocal {parts : List LocalSegment} (hs : Short s) (h : readLocal s = some parts) :
    ∀ segment ∈ parts, Numeral.Fits segment.value := by
  unfold readLocal at h
  split at h
  · obtain rfl := Option.some.inj h
    exact nofun
  · rename_i s
    intro segment hsegment
    obtain ⟨part, hpart, hread⟩ := exists_of_mem_mapM h segment hsegment
    refine fits_readSegment (fun hall => hs part ?_) hread
    rw [numerals, if_pos rfl]
    exact List.mem_filter.2 ⟨hpart, hall⟩
  · cases h

/-! ### Versions that are read -/

/-- The numbers of a version in a text without long numerals can be written, part by part. -/
theorem fits_of_ofChars? {v : Version} (hs : Short s) (h : ofChars? s = some v) : v.Fits := by
  obtain ⟨⟨n, afterFirst⟩, hfirst, h⟩ := Option.bind_eq_some_iff.1 h
  obtain ⟨parts, hlocal, h⟩ := Option.bind_eq_some_iff.1 h
  obtain rfl := Option.some.inj h
  have hletter := hs.of_takes (takes_dropLetter s)
  have hepoch := hletter.of_takes (takes_readEpoch _)
  have hrelease := hepoch.of_takes ((takes_readDigits hfirst).trans (takes_readRelease [] n _))
  have hpre := hrelease.of_takes (takes_readPre _)
  have hpost := hpre.of_takes (takes_readPost _)
  have hdev := hpost.of_takes (takes_readDev _)
  refine fits_iff.2 ⟨fits_readEpoch hletter, ?_, fits_readPre hrelease, fits_readPost hpre,
    fits_readDev hpost, fits_readLocal hdev hlocal⟩
  obtain ⟨ds, hds, rfl, hsplit⟩ := exists_of_readDigits hfirst
  exact fits_readRelease hds (hsplit ▸ hepoch) nofun

/-- A version is read from the texts that denote it and have no numeral that is too long. -/
theorem read_eq_ok_some {text : String} {v : Version} :
    read text = .ok (some v) ↔ ofChars? (plain text) = some v ∧ excess? (plain text) = none := by
  unfold read
  split
  · simp_all
  · split <;> simp_all

/-- Only a text that denotes a version is not read at all. -/
theorem read_eq_error {text : String} {cause : Numeral.Excess} :
    read text = .error cause ↔
      (∃ v, ofChars? (plain text) = some v) ∧ excess? (plain text) = some cause := by
  unfold read
  split
  · simp_all
  · split <;> simp_all

/-- The numbers of a version that is read can be written. -/
theorem fits_of_read {text : String} {v : Version} (h : read text = .ok (some v)) : v.Fits := by
  obtain ⟨hchars, hexcess⟩ := read_eq_ok_some.1 h
  exact fits_of_ofChars? (excess?_eq_none_iff.1 hexcess) hchars

/-- A version is what reading gives, if it does not fail. -/
theorem parse?_eq_some {text : String} {v : Version} :
    parse? text = some v ↔ read text = .ok (some v) := by
  rw [parse?]
  rcases read text with cause | _ | w <;> simp [Except.toOption]

end HostPrereqs.Version
