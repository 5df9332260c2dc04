import HostPrereqs.Version.Limit

/-!
# Version — a version is read back from its text

The normal form of a version is its parts one after the other, and each reader takes its own part
off the front: what follows a number does not start with a digit, and what follows a part does
not start like it.  The numerals of the normal form are those of its numbers, so that none is too
long where the numbers can be written.

* `ofChars?_toChars`: the normal form of a version denotes the version.
* `parse?_text`: it is read as the version, if its numbers can be written.
-/

namespace HostPrereqs.Version

/-! ### The parts of the normal form -/

def epochText (e : Nat) : List Char := if e = 0 then [] else digits e ++ ['!']

def preText : Option (PrePhase × Nat) → List Char
  | some (phase, n) => phase.letters.toList ++ digits n
  | none            => []

def postText : Option Nat → List Char
  | some n => ".post".toList ++ digits n
  | none   => []

def devText : Option Nat → List Char
  | some n => ".dev".toList ++ digits n
  | none   => []

def plusText (l : List LocalSegment) : List Char :=
  if l.isEmpty then [] else '+' :: localText l

@[simp] theorem preText_none : preText none = [] := rfl

@[simp] theorem preText_some (phase : PrePhase) (n : Nat) :
    preText (some (phase, n)) = phase.letters.toList ++ digits n := rfl

@[simp] theorem postText_none : postText none = [] := rfl

@[simp] theorem postText_some (n : Nat) : postText (some n) = ".post".toList ++ digits n := rfl

@[simp] theorem devText_none : devText none = [] := rfl

@[simp] theorem devText_some (n : Nat) : devText (some n) = ".dev".toList ++ digits n := rfl

/-- The numbers of a release after the first one. -/
def pointed (ns : List Nat) : List Char := ns.flatMap fun n => '.' :: digits n

theorem dotted_cons (n : Nat) (ns : List Nat) : dotted (n :: ns) = digits n ++ pointed ns := by
  induction ns generalizing n with
  | nil => simp [dotted, pointed]
  | cons m ns ih => simp [dotted, ih, pointed]

/-- What follows the post-release. -/
def afterPost (v : Version) : List Char := devText v.dev ++ plusText v.localPart

/-- What follows the pre-release. -/
def afterPre (v : Version) : List Char := postText v.post ++ v.afterPost

/-- What follows the release. -/
def suffixes (v : Version) : List Char := preText v.pre ++ v.afterPre

/-- The normal form of a version is its epoch, its release and its suffixes. -/
theorem toChars_eq (v : Version) :
    v.toChars = epochText v.epoch ++ (dotted v.release ++ v.suffixes) := by
  simp only [toChars, epochText, suffixes, afterPre, afterPost, List.append_assoc]
  rfl

/-! ### Numbers -/

theorem isDigit_of_mem_digits {n : Nat} {c : Char} (h : c ∈ digits n) : c.isDigit = true :=
  Nat.isDigit_of_mem_toDigits (by decide) (by decide) h

theorem digits_ne_nil (n : Nat) : digits n ≠ [] := Nat.toDigits_ne_nil

/-- A number is written with a digit first. -/
theorem digits_eq_cons (n : Nat) : ∃ d ds, digits n = d :: ds ∧ d.isDigit = true := by
  cases h : digits n with
  | nil => exact absurd h (digits_ne_nil n)
  | cons d ds => exact ⟨d, ds, rfl, isDigit_of_mem_digits (h ▸ List.mem_cons_self)⟩

theorem numeral_digits (n : Nat) : numeral (digits n) = n := Nat.ofDigitChars_ten_toDigits

/-- The text does not start with a digit. -/
def NoDigit (s : List Char) : Prop := ∀ c ∈ s.head?, c.isDigit = false

/-- Digits are read off the front up to what is no digit. -/
theorem takeWhile_append_of_noDigit {ds s : List Char} (hds : ∀ d ∈ ds, d.isDigit = true)
    (hs : NoDigit s) : (ds ++ s).takeWhile Char.isDigit = ds := by
  rw [List.takeWhile_append_of_pos hds]
  cases s with
  | nil => simp
  | cons c s => rw [List.takeWhile_cons_of_neg (by simp [hs c rfl]), List.append_nil]

theorem takeWhile_digits (n : Nat) {s : List Char} (hs : NoDigit s) :
    (digits n ++ s).takeWhile Char.isDigit = digits n :=
  takeWhile_append_of_noDigit (fun _ h => isDigit_of_mem_digits h) hs

theorem dropWhile_digits (n : Nat) {s : List Char} (hs : NoDigit s) :
    (digits n ++ s).dropWhile Char.isDigit = s := by
  rw [List.dropWhile_append_of_pos fun _ h => isDigit_of_mem_digits h]
  cases s with
  | nil => rfl
  | cons c s => rw [List.dropWhile_cons_of_neg (by simp [hs c rfl])]

/-- A number is read back from its digits, whatever follows that is no digit. -/
theorem readDigits_digits (n : Nat) {s : List Char} (hs : NoDigit s) :
    readDigits (digits n ++ s) = some (n, s) := by
  obtain ⟨d, ds, hd, -⟩ := digits_eq_cons n
  rw [readDigits, takeWhile_digits n hs, dropWhile_digits n hs]
  conv in digits n => rw [hd]
  exact congrArg (fun m => some (m, s)) (hd ▸ numeral_digits n)

/-! ### The release -/

/-- Digits make the last number of a release longer. -/
theorem readRelease_append_digits (before : List Nat) (n : Nat) {ds : List Char}
    (hds : ∀ d ∈ ds, d.isDigit = true) (s : List Char) :
    readRelease before n (ds ++ s) = readRelease before (Nat.ofDigitChars 10 ds n) s := by
  induction ds generalizing n with
  | nil => rfl
  | cons d ds ih =>
      have hd : d.isDigit = true := hds d List.mem_cons_self
      have hdot : d ≠ '.' := fun h => by subst h; exact absurd hd (by decide)
      rw [List.cons_append, readRelease.eq_def]
      split
      · rename_i h
        exact absurd (List.cons.inj h).1 hdot
      · rename_i h
        obtain ⟨rfl, rfl⟩ := List.cons.inj h
        rw [if_pos hd, ih _ fun x hx => hds x (List.mem_cons_of_mem _ hx)]
        simp [Nat.ofDigitChars_cons, numeral]
      · rename_i h
        exact absurd h (List.cons_ne_nil _ _)

/-- The text goes on neither with a digit nor with a point and a digit. -/
def EndsRelease (s : List Char) : Prop :=
  ∀ before n, readRelease before n s = ((n :: before).reverse, s)

/-- The numbers of a release are read back up to where the release ends. -/
theorem readRelease_pointed (before : List Nat) (n : Nat) (ns : List Nat) {s : List Char}
    (hs : EndsRelease s) :
    readRelease before n (pointed ns ++ s) = ((n :: before).reverse ++ ns, s) := by
  induction ns generalizing before n with
  | nil => simpa [pointed] using hs before n
  | cons m ns ih =>
      obtain ⟨d, ds, hd, hdigit⟩ := digits_eq_cons m
      have hds : ∀ x ∈ ds, x.isDigit = true := fun x hx =>
        isDigit_of_mem_digits (hd ▸ List.mem_cons_of_mem d hx)
      have hm : Nat.ofDigitChars 10 ds (numeral [d]) = m := by
        have := numeral_digits m
        rw [hd] at this
        simpa [numeral, Nat.ofDigitChars] using this
      have htext : pointed (m :: ns) ++ s = '.' :: d :: (ds ++ (pointed ns ++ s)) := by
        simp [pointed, hd]
      rw [htext, readRelease, if_pos hdigit, readRelease_append_digits _ _ hds, hm, ih]
      simp

/-! ### Suffixes -/

/-- A number is no separator. -/
theorem skipSeparator_digits (n : Nat) (s : List Char) :
    skipSeparator (digits n ++ s) = digits n ++ s := by
  obtain ⟨d, ds, hd, hdigit⟩ := digits_eq_cons n
  have : isSeparator d = false := by
    simp only [isSeparator, Bool.or_eq_false_iff, decide_eq_false_iff_not]
    refine ⟨⟨?_, ?_⟩, ?_⟩ <;> (rintro rfl; exact absurd hdigit (by decide))
  simp [hd, skipSeparator, this]

/-- A suffix is read when its name is the first that fits. -/
theorem readSuffix_eq {α : Type} {names : List (String × α)} {a : α} {t s : List Char} {n : Nat}
    (ht : afterOneOf names (skipSeparator t) = some (a, digits n ++ s)) (hs : NoDigit s) :
    readSuffix names t = some ((a, n), s) := by
  simp only [readSuffix, ht, Option.map_some, skipSeparator_digits, takeWhile_digits n hs,
    dropWhile_digits n hs, numeral_digits]

/-- No suffix is read where none of the names stands, with or without a separator. -/
theorem readSuffix_eq_none {α : Type} {names : List (String × α)} {t : List Char}
    (ht : afterOneOf names (skipSeparator t) = none) : readSuffix names t = none := by
  rw [readSuffix, ht, Option.map_none]

/-- No suffix has a name that starts like a number. -/
theorem after_digits {w : List Char} {n : Nat} (hw : w ≠ []) (hd : NoDigit w) (s : List Char) :
    after w (digits n ++ s) = none := by
  obtain ⟨d, ds, hds, hdigit⟩ := digits_eq_cons n
  cases w with
  | nil => exact absurd rfl hw
  | cons c w =>
      have : c ≠ d := fun h => by
        have := hd c rfl
        simp [h, hdigit] at this
      rw [hds, List.cons_append, after, if_neg this]

theorem noDigit_plusText (l : List LocalSegment) : NoDigit (plusText l) := by
  cases l <;> simp [NoDigit, plusText]

theorem noDigit_afterPost (v : Version) : NoDigit v.afterPost := by
  unfold afterPost
  cases v.dev with
  | none => exact noDigit_plusText v.localPart
  | some n => simp [NoDigit]

theorem noDigit_afterPre (v : Version) : NoDigit v.afterPre := by
  unfold afterPre
  cases v.post with
  | none => exact noDigit_afterPost v
  | some n => simp [NoDigit]

/-- What follows the release starts with no digit. -/
theorem noDigit_suffixes (v : Version) : NoDigit v.suffixes := by
  unfold suffixes
  cases v.pre with
  | none => exact noDigit_afterPre v
  | some q =>
      obtain ⟨phase, n⟩ := q
      cases phase <;> simp [NoDigit, PrePhase.letters]

/-- Each phase is found by its letters. -/
theorem afterOneOf_letters (phase : PrePhase) (n : Nat) (s : List Char) :
    afterOneOf phaseNames (skipSeparator (phase.letters.toList ++ (digits n ++ s))) =
      some (phase, digits n ++ s) := by
  cases phase with
  | alpha =>
      -- `alpha` is tried before `a`, and fails at the number
      have hlong : after "alpha".toList
          (skipSeparator (PrePhase.alpha.letters.toList ++ (digits n ++ s))) = none :=
        after_digits (w := "lpha".toList) (by decide) (by simp [NoDigit]) s
      simp only [phaseNames, afterOneOf, hlong]
      rfl
  | beta =>
      have hlong : after "beta".toList
          (skipSeparator (PrePhase.beta.letters.toList ++ (digits n ++ s))) = none :=
        after_digits (w := "eta".toList) (by decide) (by simp [NoDigit]) s
      simp only [phaseNames, afterOneOf, hlong]
      rfl
  | candidate => rfl

/-- The pre-release is taken off what follows the release. -/
theorem readPre_suffixes (v : Version) : readPre v.suffixes = (v.pre, v.afterPre) := by
  cases hpre : v.pre with
  | some q =>
      obtain ⟨phase, n⟩ := q
      have ht : v.suffixes = phase.letters.toList ++ (digits n ++ v.afterPre) := by
        simp [suffixes, hpre]
      rw [readPre, ht, readSuffix_eq (afterOneOf_letters phase n _) (noDigit_afterPre v)]
  | none =>
      have ht : v.suffixes = v.afterPre := by simp [suffixes, hpre]
      have hnone : afterOneOf phaseNames (skipSeparator v.afterPre) = none := by
        unfold afterPre afterPost
        cases v.post with
        | some n => rfl
        | none =>
            cases v.dev with
            | some n => rfl
            | none => cases v.localPart <;> rfl
      rw [readPre, ht, readSuffix_eq_none hnone]

/-- The post-release is taken off what follows the pre-release. -/
theorem readPost_afterPre (v : Version) : readPost v.afterPre = (v.post, v.afterPost) := by
  cases hpost : v.post with
  | some n =>
      have ht : v.afterPre = ".post".toList ++ (digits n ++ v.afterPost) := by
        simp [afterPre, hpost]
      have hread : readSuffix postNames v.afterPre = some (((), n), v.afterPost) :=
        readSuffix_eq (ht ▸ rfl) (noDigit_afterPost v)
      unfold readPost
      rw [hread, ht]
      rfl
  | none =>
      have ht : v.afterPre = v.afterPost := by simp [afterPre, hpost]
      have hnone : afterOneOf postNames (skipSeparator v.afterPost) = none := by
        unfold afterPost
        cases v.dev with
        | some n => rfl
        | none => cases v.localPart <;> rfl
      unfold readPost
      rw [ht, readSuffix_eq_none hnone]
      unfold afterPost
      cases v.dev with
      | some n => rfl
      | none => cases v.localPart <;> rfl

/-- The development release is taken off what follows the post-release. -/
theorem readDev_afterPost (v : Version) :
    readDev v.afterPost = (v.dev, plusText v.localPart) := by
  cases hdev : v.dev with
  | some n =>
      have ht : v.afterPost = ".dev".toList ++ (digits n ++ plusText v.localPart) := by
        simp [afterPost, hdev]
      have hread : readSuffix devNames v.afterPost = some (((), n), plusText v.localPart) :=
        readSuffix_eq (ht ▸ rfl) (noDigit_plusText v.localPart)
      rw [readDev, hread]
  | none =>
      have ht : v.afterPost = plusText v.localPart := by simp [afterPost, hdev]
      have hnone : afterOneOf devNames (skipSeparator (plusText v.localPart)) = none := by
        cases v.localPart <;> rfl
      rw [readDev, ht, readSuffix_eq_none hnone]

/-- What follows the release does not make it longer. -/
theorem endsRelease_suffixes (v : Version) : EndsRelease v.suffixes := by
  intro before n
  unfold suffixes afterPre afterPost
  cases v.pre with
  | some q =>
      obtain ⟨phase, n⟩ := q
      cases phase <;> rfl
  | none =>
      cases v.post with
      | some n => rfl
      | none =>
          cases v.dev with
          | some n => rfl
          | none => cases v.localPart <;> rfl

/-! ### The local part -/

/-- A text is cut after its first word. -/
theorem segments_append {w : List Char} (hw : ∀ c ∈ w, isSeparator c = false) (s : List Char) :
    segments (w ++ '.' :: s) = w :: segments s := by
  induction w with
  | nil => rfl
  | cons c w ih =>
      rw [List.cons_append, segments, if_neg (by simp [hw c List.mem_cons_self]),
        ih fun x hx => hw x (List.mem_cons_of_mem c hx)]

/-- A text without separators is one segment. -/
theorem segments_word {w : List Char} (hw : ∀ c ∈ w, isSeparator c = false) :
    segments w = [w] := by
  induction w with
  | nil => rfl
  | cons c w ih =>
      rw [segments, if_neg (by simp [hw c List.mem_cons_self]),
        ih fun x hx => hw x (List.mem_cons_of_mem c hx)]

theorem isLabelChar_of_mem_segmentText {s : LocalSegment} {c : Char} (h : c ∈ segmentText s) :
    isLabelChar c = true := by
  cases s with
  | word l => exact List.all_eq_true.1 l.all_label c h
  | number n => simp [isLabelChar, isDigit_of_mem_digits h]

theorem isSeparator_of_isLabelChar {c : Char} (h : isLabelChar c = true) :
    isSeparator c = false := by
  simp only [isSeparator, Bool.or_eq_false_iff, decide_eq_false_iff_not]
  refine ⟨⟨?_, ?_⟩, ?_⟩ <;> (rintro rfl; exact absurd h (by decide))

/-- A local part is cut into its segments. -/
theorem segments_localText {s : LocalSegment} {l : List LocalSegment} :
    segments (localText (s :: l)) = (s :: l).map segmentText := by
  have hsep : ∀ t : LocalSegment, ∀ c ∈ segmentText t, isSeparator c = false := fun _ _ hc =>
    isSeparator_of_isLabelChar (isLabelChar_of_mem_segmentText hc)
  induction l generalizing s with
  | nil => exact segments_word (hsep s)
  | cons t l ih => rw [localText, segments_append (hsep s), ih]; rfl

/-- A segment is read back from its text. -/
theorem readSegment_segmentText (s : LocalSegment) : readSegment (segmentText s) = some s := by
  cases s with
  | word l =>
      obtain ⟨cs, ha, hd⟩ := l
      have hne : cs.isEmpty = false := by
        cases cs with
        | nil => exact absurd hd (by decide)
        | cons c cs => rfl
      simp [segmentText, readSegment, hne, ha, hd]
  | number n =>
      have hall : (digits n).all Char.isDigit = true :=
        List.all_eq_true.2 fun c hc => isDigit_of_mem_digits hc
      simp [segmentText, readSegment, digits_ne_nil, hall, numeral_digits]

/-- The local part is read back from its text. -/
theorem readLocal_plusText (l : List LocalSegment) : readLocal (plusText l) = some l := by
  cases l with
  | nil => rfl
  | cons s l =>
      have hmap : ∀ ts : List LocalSegment, (ts.map segmentText).mapM readSegment = some ts := by
        intro ts
        induction ts with
        | nil => rfl
        | cons t ts ih =>
            rw [List.map_cons, List.mapM_cons, readSegment_segmentText, ih]
            rfl
      exact (congrArg (List.mapM readSegment) segments_localText).trans (hmap (s :: l))

/-! ### Short numerals -/

theorem short_nil : Short [] := nofun

/-- A name in front of a text has no numerals. -/
theorem short_append_name {w s : List Char} (hw : w.all (fun c => !c.isDigit && c != '+') = true)
    (hs : Short s) : Short (w ++ s) := by
  induction w with
  | nil => exact hs
  | cons c w ih =>
      rw [List.all_cons, Bool.and_eq_true] at hw
      obtain ⟨hc, hw⟩ := hw
      simp only [Bool.and_eq_true, Bool.not_eq_true', bne_iff_ne, ne_eq] at hc
      refine (short_cons_iff hc.2).2 ⟨?_, ih hw⟩
      rw [List.takeWhile_cons_of_neg (by simp [hc.1])]
      exact Nat.zero_le _

/-- A number that fits is a run of digits that is short enough. -/
theorem short_append_digits {n : Nat} {s : List Char} (hn : Numeral.Fits n) (hd : NoDigit s)
    (hs : Short s) : Short (digits n ++ s) := by
  have happend : ∀ ds : List Char, (∀ d ∈ ds, d.isDigit = true) →
      ds.length ≤ Numeral.digitLimit → Short (ds ++ s) := by
    intro ds hds hlength
    induction ds with
    | nil => exact hs
    | cons d ds ih =>
        have hplus : d ≠ '+' := ne_plus_of_isFrontChar <|
          isFrontChar_of_isDigit (hds d List.mem_cons_self)
        refine (short_cons_iff hplus).2
          ⟨?_, ih (List.forall_mem_cons.1 hds).2 (Nat.le_of_succ_le hlength)⟩
        have hall := congrArg List.length (takeWhile_append_of_noDigit hds hd)
        exact Nat.le_trans (Nat.le_of_eq hall) hlength
  exact happend _ (fun _ h => isDigit_of_mem_digits h) hn

theorem short_plusText {l : List LocalSegment}
    (hl : ∀ segment ∈ l, Numeral.Fits segment.value) : Short (plusText l) := by
  cases l with
  | nil => exact short_nil
  | cons s l =>
      intro ds hds
      have hmem : ds ∈ ((s :: l).map segmentText).filter (·.all Char.isDigit) := by
        rw [← segments_localText]
        exact hds
      obtain ⟨hmem, hall⟩ := List.mem_filter.1 hmem
      obtain ⟨segment, hsegment, rfl⟩ := List.mem_map.1 hmem
      cases segment with
      | word label => exact absurd hall (by simp [segmentText, label.not_digits])
      | number n => exact hl _ hsegment

theorem short_afterPost {v : Version} (hdev : ∀ n ∈ v.dev, Numeral.Fits n)
    (hlocal : ∀ segment ∈ v.localPart, Numeral.Fits segment.value) : Short v.afterPost := by
  unfold afterPost
  have hplus := short_plusText hlocal
  cases hd : v.dev with
  | none => exact hplus
  | some n =>
      rw [devText_some, List.append_assoc]
      exact short_append_name (by decide)
        (short_append_digits (hdev n hd) (noDigit_plusText _) hplus)

theorem short_afterPre {v : Version} (hpost : ∀ n ∈ v.post, Numeral.Fits n)
    (hrest : Short v.afterPost) : Short v.afterPre := by
  unfold afterPre
  cases hp : v.post with
  | none => exact hrest
  | some n =>
      rw [postText_some, List.append_assoc]
      exact short_append_name (by decide)
        (short_append_digits (hpost n hp) (noDigit_afterPost v) hrest)

/-- The suffixes are short enough if their numbers fit. -/
theorem short_suffixes {v : Version} (hpre : ∀ p ∈ v.pre, Numeral.Fits p.2)
    (hrest : Short v.afterPre) : Short v.suffixes := by
  unfold suffixes
  cases hp : v.pre with
  | none => exact hrest
  | some p =>
      rw [preText_some, List.append_assoc]
      exact short_append_name (by cases p.1 <;> decide)
        (short_append_digits (hpre p hp) (noDigit_afterPre v) hrest)

theorem noDigit_pointed (ns : List Nat) {s : List Char} (hs : NoDigit s) :
    NoDigit (pointed ns ++ s) := by
  cases ns with
  | nil => exact hs
  | cons m ns => simp [pointed, NoDigit]

theorem short_append_pointed {ns : List Nat} {s : List Char}
    (hns : ∀ n ∈ ns, Numeral.Fits n) (hd : NoDigit s) (hs : Short s) :
    Short (pointed ns ++ s) := by
  induction ns with
  | nil => exact hs
  | cons n ns ih =>
      obtain ⟨hn, hns⟩ := List.forall_mem_cons.1 hns
      have htext : pointed (n :: ns) ++ s = ['.'] ++ (digits n ++ (pointed ns ++ s)) := by
        simp [pointed]
      rw [htext]
      exact short_append_name (by decide)
        (short_append_digits hn (noDigit_pointed ns hd) (ih hns))

/-- No numeral of the normal form of a version is too long, if its numbers can be written. -/
theorem short_toChars {v : Version} (h : v.Fits) : Short v.toChars := by
  obtain ⟨hepoch, hrelease, hpre, hpost, hdev, hlocal⟩ := fits_iff.1 h
  have hsuffixes := short_suffixes hpre (short_afterPre hpost (short_afterPost hdev hlocal))
  obtain ⟨n, ns, hrel⟩ := List.exists_cons_of_ne_nil v.release_ne_nil
  obtain ⟨hn, hns⟩ := List.forall_mem_cons.1 (hrel ▸ hrelease)
  have hdotted : Short (dotted v.release ++ v.suffixes) := by
    rw [hrel, dotted_cons, List.append_assoc]
    exact short_append_digits hn (noDigit_pointed ns (noDigit_suffixes v))
      (short_append_pointed hns (noDigit_suffixes v) hsuffixes)
  rw [toChars_eq, epochText]
  split
  · exact hdotted
  · rw [List.append_assoc]
    exact short_append_digits hepoch (by simp [NoDigit]) (short_append_name (by decide) hdotted)

/-! ### The whole text -/

/-- The text does not go on like an epoch. -/
def NoMark (s : List Char) : Prop := ∀ c ∈ s.head?, c ≠ '!'

theorem noMark_suffixes (v : Version) : NoMark v.suffixes := by
  unfold suffixes afterPre afterPost
  cases v.pre with
  | some q =>
      obtain ⟨phase, n⟩ := q
      cases phase <;> simp [NoMark, PrePhase.letters]
  | none =>
      cases v.post with
      | some n => simp [NoMark]
      | none =>
          cases v.dev with
          | some n => simp [NoMark]
          | none => cases v.localPart <;> simp [plusText, NoMark]

/-- A number that no mark follows is no epoch. -/
theorem readEpoch_of_noMark {n : Nat} {s : List Char} (hd : NoDigit s) (hm : NoMark s) :
    readEpoch (digits n ++ s) = (0, digits n ++ s) := by
  rw [readEpoch, readDigits_digits n hd]
  split
  · -- a mark would stand where the text starts
    rename_i h
    simp only [Option.some.injEq, Prod.mk.injEq] at h
    exact absurd rfl (hm '!' (by rw [h.2]; rfl))
  · rfl

/-- An epoch is read back, and zero where none is written. -/
theorem readEpoch_epochText (e n : Nat) {s : List Char} (hd : NoDigit s) (hm : NoMark s) :
    readEpoch (epochText e ++ (digits n ++ s)) = (e, digits n ++ s) := by
  unfold epochText
  split
  · rename_i he
    rw [he]
    exact readEpoch_of_noMark hd hm
  · have hbang : NoDigit ('!' :: (digits n ++ s)) := by simp [NoDigit]
    rw [List.append_assoc, List.singleton_append, readEpoch, readDigits_digits e hbang]
    rfl

theorem noMark_pointed (ns : List Nat) {s : List Char} (hs : NoMark s) :
    NoMark (pointed ns ++ s) := by
  cases ns with
  | nil => exact hs
  | cons m ns => simp [pointed, NoMark]

/-- The normal form of a version starts with a digit. -/
theorem toChars_head (v : Version) : ∃ d ds, v.toChars = d :: ds ∧ d.isDigit = true := by
  have hrel : ∃ d ds, dotted v.release = d :: ds ∧ d.isDigit = true := by
    cases h : v.release with
    | nil => exact absurd h v.release_ne_nil
    | cons n ns =>
        obtain ⟨d, ds, hd, hdigit⟩ := digits_eq_cons n
        exact ⟨d, ds ++ pointed ns, by rw [dotted_cons, hd, List.cons_append], hdigit⟩
  rw [toChars_eq, epochText]
  split
  · obtain ⟨d, ds, hd, hdigit⟩ := hrel
    exact ⟨d, ds ++ v.suffixes, by rw [hd]; rfl, hdigit⟩
  · obtain ⟨d, ds, hd, hdigit⟩ := digits_eq_cons v.epoch
    exact ⟨d, _, by rw [hd]; rfl, hdigit⟩

/-- A version is not written with a letter in front. -/
theorem dropLetter_toChars (v : Version) : dropLetter v.toChars = v.toChars := by
  obtain ⟨d, ds, h, hdigit⟩ := toChars_head v
  rw [h]
  unfold dropLetter
  split
  · rename_i h'
    obtain ⟨rfl, -⟩ := List.cons.inj h'
    exact absurd hdigit (by decide)
  · rfl

/-- The normal form of a version denotes the version. -/
theorem ofChars?_toChars (v : Version) : ofChars? v.toChars = some v := by
  obtain ⟨n, ns, hrel⟩ := List.exists_cons_of_ne_nil v.release_ne_nil
  have hd := noDigit_pointed ns (noDigit_suffixes v)
  have hm := noMark_pointed ns (noMark_suffixes v)
  have htext : v.toChars = epochText v.epoch ++ (digits n ++ (pointed ns ++ v.suffixes)) := by
    rw [toChars_eq, hrel, dotted_cons, List.append_assoc]
  have hrelease : readRelease [] n (pointed ns ++ v.suffixes) = (n :: ns, v.suffixes) :=
    readRelease_pointed [] n ns (endsRelease_suffixes v)
  unfold ofChars?
  rw [dropLetter_toChars, htext, readEpoch_epochText v.epoch n hd hm]
  simp only [readDigits_digits n hd, hrelease, Option.bind_eq_bind, Option.bind_some,
    readPre_suffixes, readPost_afterPre, readDev_afterPost, readLocal_plusText, Option.pure_def]
  cases v
  simp_all

/-- The characters that the text of a version is made of. -/
def isVersionChar (c : Char) : Bool := isLabelChar c || c = '.' || c = '!' || c = '+'

theorem isVersionChar_of_isDigit {c : Char} (h : c.isDigit = true) : isVersionChar c = true := by
  simp [isVersionChar, isLabelChar, h]

theorem isVersionChar_of_mem_digits {n : Nat} {c : Char} (h : c ∈ digits n) :
    isVersionChar c = true :=
  isVersionChar_of_isDigit (isDigit_of_mem_digits h)

theorem isVersionChar_of_mem_localText {l : List LocalSegment} {c : Char} (h : c ∈ localText l) :
    isVersionChar c = true := by
  fun_induction localText l with
  | case1 => cases h
  | case2 s => simp [isVersionChar, isLabelChar_of_mem_segmentText h]
  | case3 s t l ih =>
      rcases List.mem_append.1 h with h | h
      · simp [isVersionChar, isLabelChar_of_mem_segmentText h]
      · rcases List.mem_cons.1 h with rfl | h
        · rfl
        · exact ih h

theorem isVersionChar_of_all {s : List Char} {c : Char} (hs : s.all isVersionChar = true)
    (h : c ∈ s) : isVersionChar c = true :=
  List.all_eq_true.1 hs c h

/-- All that is written after the release is letters, digits, points and plus signs. -/
theorem isVersionChar_of_mem_suffixes {v : Version} {c : Char} (h : c ∈ v.suffixes) :
    isVersionChar c = true := by
  simp only [suffixes, afterPre, afterPost, List.mem_append] at h
  rcases h with h | h | h | h
  · cases hpre : v.pre with
    | none => simp [hpre] at h
    | some q =>
        obtain ⟨phase, n⟩ := q
        simp only [hpre, preText_some, List.mem_append] at h
        rcases h with h | h
        · cases phase <;> exact isVersionChar_of_all (by decide) h
        · exact isVersionChar_of_mem_digits h
  · cases hpost : v.post with
    | none => simp [hpost] at h
    | some n =>
        simp only [hpost, postText_some, List.mem_append] at h
        rcases h with h | h
        · exact isVersionChar_of_all (by decide) h
        · exact isVersionChar_of_mem_digits h
  · cases hdev : v.dev with
    | none => simp [hdev] at h
    | some n =>
        simp only [hdev, devText_some, List.mem_append] at h
        rcases h with h | h
        · exact isVersionChar_of_all (by decide) h
        · exact isVersionChar_of_mem_digits h
  · unfold plusText at h
    split at h
    · cases h
    · rcases List.mem_cons.1 h with rfl | h
      · rfl
      · exact isVersionChar_of_mem_localText h

/-- The normal form of a version has no other characters than letters, digits and three signs. -/
theorem isVersionChar_of_mem {v : Version} {c : Char} (h : c ∈ v.toChars) :
    isVersionChar c = true := by
  obtain ⟨n, ns, hrel⟩ := List.exists_cons_of_ne_nil v.release_ne_nil
  simp only [toChars_eq, hrel, dotted_cons, List.mem_append] at h
  rcases h with h | (h | h) | h
  · unfold epochText at h
    split at h
    · cases h
    · rcases List.mem_append.1 h with h | h
      · exact isVersionChar_of_mem_digits h
      · rw [List.mem_singleton.1 h]; rfl
  · exact isVersionChar_of_mem_digits h
  · obtain ⟨m, -, hm⟩ := List.mem_flatMap.1 h
    rcases List.mem_cons.1 hm with rfl | hm
    · rfl
    · exact isVersionChar_of_mem_digits hm
  · exact isVersionChar_of_mem_suffixes h

/-- The characters of versions by their code points. -/
theorem toNat_of_isVersionChar {c : Char} (h : isVersionChar c = true) :
    c.toNat = 33 ∨ c.toNat = 43 ∨ c.toNat = 46 ∨ (48 ≤ c.toNat ∧ c.toNat ≤ 57) ∨
      (97 ≤ c.toNat ∧ c.toNat ≤ 122) := by
  simp only [isVersionChar, isLabelChar, Char.isDigit, Bool.or_eq_true, Bool.and_eq_true,
    decide_eq_true_eq] at h
  rcases h with (((h | h) | rfl) | rfl) | rfl
  · exact .inr (.inr (.inr (.inl h)))
  · exact .inr (.inr (.inr (.inr h)))
  · exact .inr (.inr (.inl rfl))
  · exact .inl rfl
  · exact .inr (.inl rfl)

theorem not_isBlank_of_isVersionChar {c : Char} (h : isVersionChar c = true) :
    Text.isBlank c = false := by
  have hc := toNat_of_isVersionChar h
  simp only [Text.isBlank, Text.blankRanges, Text.inRanges, Bool.and_eq_false_iff,
    Bool.or_eq_false_iff, decide_eq_false_iff_not]
  omega

theorem toLower_of_isVersionChar {c : Char} (h : isVersionChar c = true) : c.toLower = c := by
  have hc := toNat_of_isVersionChar h
  unfold Char.toLower
  split
  · rename_i hu
    have : 65 ≤ c.toNat ∧ c.toNat ≤ 90 := hu
    omega
  · rfl

/-- A version is written without blanks around it. -/
theorem trim_toChars (v : Version) : Text.trim v.toChars = v.toChars :=
  Text.trim_eq_self
    (fun _ hc => not_isBlank_of_isVersionChar (isVersionChar_of_mem (List.mem_of_mem_head? hc)))
    (fun _ hc => not_isBlank_of_isVersionChar (isVersionChar_of_mem (List.mem_of_getLast? hc)))

theorem plain_text (v : Version) : plain v.text = v.toChars := by
  rw [plain, text, String.toList_ofList, trim_toChars]
  exact (List.map_congr_left fun _ hc => toLower_of_isVersionChar (isVersionChar_of_mem hc)).trans
    (List.map_id' _)

/-- The normal form of a version is read as the version, if its numbers can be written. -/
theorem read_text {v : Version} (h : v.Fits) : read v.text = .ok (some v) := by
  simp only [read, plain_text, ofChars?_toChars, excess?_eq_none_iff.2 (short_toChars h)]

/-- The version that is read from the normal form of a version is that version. -/
theorem parse?_text {v : Version} (h : v.Fits) : parse? v.text = some v :=
  parse?_eq_some.2 (read_text h)

end HostPrereqs.Version
