import HostPrereqs.Json.Reader
import HostPrereqs.Json.Writer
import HostPrereqs.Proofs.Value.Keys

/-!
# Json — written data are read back

Data of texts are written as blocks of lines and read back as they were.  Every reader of a part is
taken to read the part off the front of a text, whatever follows it (`Reads`).

* `reads_stringBody`: a string is read character by character; a character beyond the sixteen-bit
  ones is written by the two halves of a pair, which the reader joins.
* `reads_value`: texts, and mappings of different names to such data, are read at every depth, for
  blanks and line ends between parts are skipped.
* `read_indented`: a whole text is read.
-/

namespace HostPrereqs

/-- Texts, and mappings of different names to such data. -/
inductive Value.TextTree : Value → Prop where
  | str (s : String) : TextTree (.str s)
  | record {fields : List (String × Value)} (names : (fields.map (·.1)).Nodup)
      (values : ∀ f ∈ fields, TextTree f.2) : TextTree (.record fields)

namespace Json

variable {α : Type} {c : Char} {s t rest : List Char} {cs : List Char} {n start : Nat}

/-- A reader reads `a` and leaves `rest`. -/
def Reads (x : Read α s) (a : α) (rest : List Char) : Prop := ∃ h, x = .ok (a, ⟨rest, h⟩)

/-! ### Hexadecimal digits -/

theorem hexDigit?_digitChar : ∀ d < 16, hexDigit? d.digitChar = some d := by decide

/-- The last digit is written after the others. -/
theorem hex_succ (width n : Nat) :
    Text.hex (width + 2) n = Text.hex (width + 1) (n / 16) ++ [Nat.digitChar (n % 16)] := by
  unfold Text.hex
  dsimp only
  by_cases hn : n < 16
  · have hzero : n / 16 = 0 := Nat.div_eq_of_lt hn
    rw [hzero, Nat.mod_eq_of_lt hn, Nat.toDigits_of_lt_base hn]
    simp [List.replicate_succ']
  · have hdigits : Nat.toDigits 16 n = Nat.toDigits 16 (n / 16) ++ [Nat.digitChar (n % 16)] := by
      rw [Nat.toDigits_eq_if (by decide), if_neg hn]
    have hwidth : width + 2 - ((Nat.toDigits 16 (n / 16)).length + 1) =
        width + 1 - (Nat.toDigits 16 (n / 16)).length := by omega
    rw [hdigits, List.length_append, List.length_singleton, hwidth, List.append_assoc]

theorem hex_one (hn : n < 16) : Text.hex 1 n = [Nat.digitChar n] := by
  rw [Text.hex, Nat.toDigits_of_lt_base hn]
  rfl

/-- Four digits are read back. -/
theorem hex_four (hn : n < 0x10000) : ∃ a b c d, Text.hex 4 n = [a, b, c, d] ∧
    hexCode? a b c d = some n := by
  refine ⟨Nat.digitChar (n / 16 / 16 / 16), Nat.digitChar (n / 16 / 16 % 16),
    Nat.digitChar (n / 16 % 16), Nat.digitChar (n % 16), ?_, ?_⟩
  · rw [hex_succ, hex_succ, hex_succ, hex_one (by omega)]
    rfl
  · rw [hexCode?, hexDigit?_digitChar _ (by omega), hexDigit?_digitChar _ (by omega),
      hexDigit?_digitChar _ (by omega), hexDigit?_digitChar _ (by omega)]
    have hsum : (((n / 16 / 16 / 16) * 16 + n / 16 / 16 % 16) * 16 + n / 16 % 16) * 16 + n % 16 =
        n := by omega
    exact congrArg some hsum

/-! ### Codes -/

theorem codeChar_toNat (c : Char) : codeChar c.toNat = c := by
  have h : c.toNat.isValidChar := c.valid
  rw [codeChar, dif_pos h]
  exact (dif_pos h).symm.trans (Char.ofNat_toNat c)

theorem codeChar_of_eq (h : n = c.toNat) : codeChar n = c := h ▸ codeChar_toNat c

/-- A character is no half of a pair. -/
theorem isHighHalf_toNat (c : Char) : isHighHalf c.toNat = false := by
  have h : c.toNat.isValidChar := c.valid
  simp only [Nat.isValidChar] at h
  simp only [isHighHalf, Bool.and_eq_false_iff, decide_eq_false_iff_not]
  omega

/-! ### Strings -/

theorem ne_nil_of_reads (h : Reads (stringBody start t) cs rest) : t ≠ [] := by
  rintro rfl
  obtain ⟨_, h⟩ := h
  rw [stringBody] at h
  cases h

theorem reads_simpleEscape {e : Char} (he : simpleEscape? e = some c)
    (h : Reads (stringBody start t) cs rest) :
    Reads (stringBody start ('\\' :: e :: t)) (c :: cs) rest := by
  have hu : e ≠ 'u' := by
    rintro rfl
    cases he
  obtain ⟨hlt, h⟩ := h
  rw [stringBody, he]
  · dsimp only
    rw [h]
    exact ⟨_, rfl⟩
  all_goals simp [hu]

theorem reads_plain (hlow : 32 ≤ c.toNat) (hquote : c ≠ '"') (hslash : c ≠ '\\')
    (h : Reads (stringBody start t) cs rest) :
    Reads (stringBody start (c :: t)) (c :: cs) rest := by
  obtain ⟨hlt, h⟩ := h
  rw [stringBody, if_neg (by omega), h]
  · exact ⟨_, rfl⟩
  all_goals simp [hquote, hslash]

/-- A code that is no half of a pair is finished at once. -/
theorem finishCode_of_not_high (h : isHighHalf n = false) (s : List Char) :
    finishCode n s = .ok (codeChar n, ⟨s, Nat.le_refl _⟩) := by
  unfold finishCode
  split
  · rw [h]
    rfl
  · rfl

theorem reads_unit (hn : n < 0x10000) (hhigh : isHighHalf n = false)
    (h : Reads (stringBody start t) cs rest) :
    Reads (stringBody start (unitEscape n ++ t)) (codeChar n :: cs) rest := by
  obtain ⟨next, r, rfl⟩ := List.exists_cons_of_ne_nil (ne_nil_of_reads h)
  obtain ⟨a, b, c, d, hhex, hcode⟩ := hex_four hn
  obtain ⟨hlt, h⟩ := h
  rw [unitEscape, hhex]
  simp only [List.cons_append, List.nil_append]
  rw [stringBody, hcode]
  simp only [finishCode_of_not_high hhigh]
  rw [h]
  exact ⟨_, rfl⟩

theorem reads_pair {high low : Nat} (hhigh : isHighHalf high = true) (hlow : isLowHalf low = true)
    (h : Reads (stringBody start t) cs rest) :
    Reads (stringBody start (unitEscape high ++ unitEscape low ++ t))
      (joinHalves high low :: cs) rest := by
  obtain ⟨next, r, rfl⟩ := List.exists_cons_of_ne_nil (ne_nil_of_reads h)
  have hhalves : high < 0x10000 ∧ low < 0x10000 := by
    simp only [isHighHalf, isLowHalf, Bool.and_eq_true, decide_eq_true_eq] at hhigh hlow
    omega
  obtain ⟨a, b, c, d, hhex, hcode⟩ := hex_four hhalves.1
  obtain ⟨a', b', c', d', hhex', hcode'⟩ := hex_four hhalves.2
  obtain ⟨hlt, h⟩ := h
  rw [unitEscape, unitEscape, hhex, hhex']
  simp only [List.cons_append, List.nil_append]
  rw [stringBody, hcode]
  simp only [finishCode, hhigh, hcode', hlow, if_true]
  rw [h]
  exact ⟨_, rfl⟩

/-- A character is written by one letter after a backslash, as it is, or by its codes. -/
theorem stringChar_cases (c : Char) :
    (∃ e, simpleEscape? e = some c ∧ stringChar c = ['\\', e]) ∨
      (32 ≤ c.toNat ∧ c ≠ '"' ∧ c ≠ '\\' ∧ stringChar c = [c]) ∨
      stringChar c = codeEscape c.toNat := by
  unfold stringChar
  iterate 7
    split
    · rename_i heq
      subst heq
      exact .inl ⟨_, rfl, rfl⟩
  split
  · rename_i hquote hslash _ _ _ _ _ hbasic
    simp only [Bool.and_eq_true, decide_eq_true_eq] at hbasic
    exact .inr (.inl ⟨hbasic.1, hquote, hslash, rfl⟩)
  · exact .inr (.inr rfl)

/-- A character is read from its codes: the two halves of a pair hold ten bits each of what is
beyond the sixteen-bit codes. -/
theorem reads_codeEscape (c : Char) (h : Reads (stringBody start t) cs rest) :
    Reads (stringBody start (codeEscape c.toNat ++ t)) (c :: cs) rest := by
  by_cases hsmall : c.toNat < 0x10000
  · have hunit := reads_unit hsmall (isHighHalf_toNat c) h
    rw [codeChar_toNat] at hunit
    rwa [codeEscape, if_pos hsmall]
  · have hvalid : c.toNat < 0x110000 := by
      have hc : c.toNat.isValidChar := c.valid
      simp only [Nat.isValidChar] at hc
      omega
    have hhigh : isHighHalf (0xd800 + (c.toNat - 0x10000) / 0x400) = true := by
      simp only [isHighHalf, Bool.and_eq_true, decide_eq_true_eq]
      omega
    have hlow : isLowHalf (0xdc00 + (c.toNat - 0x10000) % 0x400) = true := by
      simp only [isLowHalf, Bool.and_eq_true, decide_eq_true_eq]
      omega
    have hpair := reads_pair hhigh hlow h
    rw [joinHalves, codeChar_of_eq (c := c) (by omega)] at hpair
    rwa [codeEscape, if_neg hsmall]

/-- Every character is read as it is written. -/
theorem reads_stringChar (c : Char) (h : Reads (stringBody start t) cs rest) :
    Reads (stringBody start (stringChar c ++ t)) (c :: cs) rest := by
  rcases stringChar_cases c with ⟨e, he, hc⟩ | ⟨hbasic, hquote, hslash, hc⟩ | hc
  · rw [hc]
    exact reads_simpleEscape he h
  · rw [hc]
    exact reads_plain hbasic hquote hslash h
  · rw [hc]
    exact reads_codeEscape c h

/-- A string is read up to its closing quote. -/
theorem reads_stringBody (start : Nat) (cs rest : List Char) :
    Reads (stringBody start (cs.flatMap stringChar ++ '"' :: rest)) cs rest := by
  induction cs with
  | nil =>
      rw [List.flatMap_nil, List.nil_append, stringBody]
      exact ⟨_, rfl⟩
  | cons c cs ih =>
      rw [List.flatMap_cons, List.append_assoc]
      exact reads_stringChar c ih

/-! ### Parts of objects -/

variable {k : List Char} {v : Value} {es : List (Value × Value)} {after : List Char}

theorem skip_append (hs : ∀ x ∈ s, isSpace x = true) (ht : ∀ x ∈ t.head?, isSpace x = false) :
    skip (s ++ t) = t := by
  rw [skip, List.dropWhile_append_of_pos hs]
  cases t with
  | nil => rfl
  | cons x t => exact List.dropWhile_cons_of_neg (by simp [ht x rfl])

/-- After a member come the closing brace, or a comma and more members. -/
inductive Continues (after : List Char) : List (Value × Value) → List Char → Prop where
  | stop {rest : List Char} (brace : skip after = '\x7d' :: rest) : Continues after [] rest
  | more {es : List (Value × Value)} {next rest : List Char} (comma : skip after = ',' :: next)
      (members : Reads (members (skip next)) es rest) : Continues after es rest

/-- A name and a value are read, and then what comes after them. -/
theorem reads_members (hvalue : Reads (value t) v after) (ht : ∀ x ∈ t.head?, isSpace x = false)
    (hafter : Continues after es rest) :
    Reads (members ('"' :: (k.flatMap stringChar ++ '"' :: ':' :: ' ' :: t)))
      ((.str (String.ofList k), v) :: es) rest := by
  obtain ⟨hname, hbody⟩ := reads_stringBody
    ('"' :: (k.flatMap stringChar ++ '"' :: ':' :: ' ' :: t)).length k (':' :: ' ' :: t)
  have hskip : skip (' ' :: t) = t := skip_append (List.forall_mem_singleton.2 rfl) ht
  rw [← hskip] at hvalue
  obtain ⟨hlt, hvalue⟩ := hvalue
  rw [members, hbody]
  simp only
  split
  · rename_i r₂ hcolon
    obtain rfl : ' ' :: t = r₂ := (List.cons.inj hcolon).2
    rw [hvalue]
    simp only
    -- the reader looks at what comes first after the value: of its cases only one is left
    cases hafter with
    | stop hbrace =>
        split
        · rename_i r₄ heq
          obtain rfl : rest = r₄ := (List.cons.inj (hbrace.symm.trans heq)).2
          exact ⟨_, rfl⟩
        · rename_i r₄ heq
          cases hbrace.symm.trans heq
        · rename_i hne _
          exact absurd hbrace (hne _)
    | more hcomma hmembers =>
        obtain ⟨hlt, hmembers⟩ := hmembers
        split
        · rename_i r₄ heq
          cases hcomma.symm.trans heq
        · rename_i r₄ heq
          obtain rfl := (List.cons.inj (hcomma.symm.trans heq)).2
          rw [hmembers]
          exact ⟨_, rfl⟩
        · rename_i _ hne
          exact absurd hcomma (hne _)
  · rename_i hne
    exact absurd rfl (hne _)

theorem reads_object (hs : ∀ x ∈ s, isSpace x = true)
    (hmembers : Reads (members ('"' :: t)) es rest) :
    Reads (value ('\x7b' :: (s ++ '"' :: t))) (.ofPairs es) rest := by
  have hskip : skip (s ++ '"' :: t) = '"' :: t := skip_append hs (by simp [isSpace])
  rw [← hskip] at hmembers
  obtain ⟨hlt, hmembers⟩ := hmembers
  rw [value]
  split
  · rename_i heq
    cases hskip.symm.trans heq
  · rw [hmembers]
    exact ⟨_, rfl⟩

theorem reads_emptyObject (rest : List Char) :
    Reads (value ('\x7b' :: '\x7d' :: rest)) (.map []) rest := by
  rw [value]
  split
  · rename_i heq
    obtain rfl := (List.cons.inj heq).2
    exact ⟨_, rfl⟩
  · rename_i hne
    exact absurd rfl (hne _)

theorem toList_string (w : String) (rest : List Char) :
    (string w).toList ++ rest = '"' :: (w.toList.flatMap stringChar ++ '"' :: rest) := by
  simp [string, stringChars]

theorem reads_string (w : String) (rest : List Char) :
    Reads (value ((string w).toList ++ rest)) (.str w) rest := by
  rw [toList_string]
  obtain ⟨hlt, hbody⟩ := reads_stringBody
    ('"' :: (w.toList.flatMap stringChar ++ '"' :: rest)).length w.toList rest
  rw [value, hbody]
  simp only [Except.map, String.ofList_toList]
  exact ⟨_, rfl⟩

/-! ### Data of texts -/

theorem isSpace_of_mem_lineStart {depth : Nat} {x : Char} (h : x ∈ (lineStart depth).toList) :
    isSpace x = true := by
  simp only [lineStart, String.toList_append, String.toList_ofList, List.mem_append] at h
  rcases h with h | h
  · obtain rfl : x = '\n' := List.mem_singleton.1 h
    rfl
  · rw [List.eq_of_mem_replicate h]
    rfl

@[simp] theorem indentedAt_str (depth : Nat) (w : String) :
    indentedAt depth (.str w) = string w := by
  rw [indentedAt, scalarText]
  · rfl
  all_goals nofun

/-- What is written for data of texts starts with a quote or a brace. -/
theorem head?_indentedAt (hv : v.TextTree) (depth : Nat) (rest : List Char) :
    ((indentedAt depth v).toList ++ rest).head? = some '"' ∨
      ((indentedAt depth v).toList ++ rest).head? = some '\x7b' := by
  cases hv with
  | str w =>
      rw [indentedAt_str, toList_string]
      exact .inl rfl
  | @record fields names values =>
      rw [Value.record, indentedAt, block]
      split <;> simp [String.toList_append]

theorem isSpace_head?_indentedAt (hv : v.TextTree) (depth : Nat) (rest : List Char) :
    ∀ x ∈ ((indentedAt depth v).toList ++ rest).head?, isSpace x = false := by
  intro x hx
  rcases head?_indentedAt hv depth rest with h | h <;> rw [h] at hx <;> cases hx <;> rfl

/-- The text of a member. -/
def memberText (depth : Nat) (f : String × Value) : List Char :=
  '"' :: (f.1.toList.flatMap stringChar ++ '"' :: ':' :: ' ' :: (indentedAt depth f.2).toList)

theorem indentedMembers_eq (depth : Nat) (fields : List (String × Value)) :
    (indentedMembers depth (fields.map fun (k, v) => (.str k, v))).map String.toList =
      fields.map (memberText depth) := by
  induction fields with
  | nil => rw [List.map_nil, indentedMembers]; rfl
  | cons f fields ih =>
      have hfirst : (keyText (.str f.1) ++ ": " ++ indentedAt depth f.2).toList =
          memberText depth f := by
        simp [keyText, memberText, string, stringChars]
      rw [List.map_cons, indentedMembers, List.map_cons, ih, List.map_cons, hfirst]

/-- A member is read, and then what comes after it. -/
theorem reads_memberText {depth : Nat} {f : String × Value} (hf : f.2.TextTree)
    (hvalue : Reads (value ((indentedAt depth f.2).toList ++ after)) f.2 after)
    (hafter : Continues after es rest) :
    Reads (members (memberText depth f ++ after)) ((.str f.1, f.2) :: es) rest := by
  have hmember := reads_members (k := f.1.toList) hvalue
    (isSpace_head?_indentedAt hf depth after) hafter
  have htext : memberText depth f ++ after = '"' :: (f.1.toList.flatMap stringChar ++
      '"' :: ':' :: ' ' :: ((indentedAt depth f.2).toList ++ after)) := by simp [memberText]
  rw [String.ofList_toList] at hmember
  rwa [htext]

/-- Members that are read one by one are read all. -/
theorem reads_memberTexts {depth : Nat} {f : String × Value} {fields : List (String × Value)}
    {sep close : List Char} (rest : List Char) (hsep : ∀ x ∈ sep, isSpace x = true)
    (hclose : ∀ x ∈ close, isSpace x = true) (hfields : ∀ g ∈ f :: fields, g.2.TextTree ∧
      ∀ after, Reads (value ((indentedAt depth g.2).toList ++ after)) g.2 after) :
    Reads (members ((',' :: sep).intercalate ((f :: fields).map (memberText depth)) ++
        (close ++ '\x7d' :: rest)))
      ((f :: fields).map fun (k, v) => (.str k, v)) rest := by
  induction fields generalizing f with
  | nil =>
      obtain ⟨hf, hvalue⟩ := hfields f List.mem_cons_self
      rw [List.map_singleton, List.intercalate_singleton]
      exact reads_memberText hf (hvalue _) (.stop (skip_append hclose (by simp [isSpace])))
  | cons g fields ih =>
      obtain ⟨hf, hvalue⟩ := hfields f List.mem_cons_self
      have hmore := ih (f := g) fun g' hg' => hfields g' (List.mem_cons_of_mem f hg')
      generalize hnext : (',' :: sep).intercalate ((g :: fields).map (memberText depth)) ++
        (close ++ '\x7d' :: rest) = next at hmore
      -- the next member starts with its name
      have hhead : ∀ x ∈ next.head?, isSpace x = false := by
        rw [← hnext]
        cases fields <;> simp [memberText, isSpace, List.intercalate_cons_cons]
      rw [← skip_append hsep hhead] at hmore
      have hafter : Continues (',' :: (sep ++ next))
          ((g :: fields).map fun (k, v) => (.str k, v)) rest := .more rfl hmore
      rw [List.map_cons, List.map_cons, List.intercalate_cons_cons, List.append_assoc,
        List.append_assoc, ← List.map_cons, hnext]
      exact reads_memberText hf (hvalue _) hafter

theorem indentedAt_record_nil (depth : Nat) : indentedAt depth (.record []) = "\x7b\x7d" := by
  rw [Value.record, List.map_nil, indentedAt, indentedMembers]
  rfl

/-- A mapping with members has each of them on a line of its own. -/
theorem toList_indentedAt_record (depth : Nat) (f : String × Value)
    (fields : List (String × Value)) :
    (indentedAt depth (.record (f :: fields))).toList =
      '\x7b' :: ((lineStart (depth + 1)).toList ++
        ((',' :: (lineStart (depth + 1)).toList).intercalate
            ((f :: fields).map (memberText (depth + 1))) ++
          ((lineStart depth).toList ++ ['\x7d']))) := by
  rw [← indentedMembers_eq, Value.record, indentedAt, block]
  rw [if_neg (by simp [indentedMembers])]
  simp [String.toList_append, String.toList_intercalate]

/-- Data of texts are read at every depth, whatever follows. -/
theorem reads_value (hv : v.TextTree) (depth : Nat) (rest : List Char) :
    Reads (value ((indentedAt depth v).toList ++ rest)) v rest := by
  induction hv generalizing depth rest with
  | str w =>
      rw [indentedAt_str]
      exact reads_string w rest
  | @record fields names values ih =>
      cases fields with
      | nil =>
          rw [indentedAt_record_nil]
          exact reads_emptyObject rest
      | cons f fields =>
          have hsep : ∀ x ∈ (lineStart (depth + 1)).toList, isSpace x = true :=
            fun x hx => isSpace_of_mem_lineStart hx
          have hclose : ∀ x ∈ (lineStart depth).toList, isSpace x = true :=
            fun x hx => isSpace_of_mem_lineStart hx
          have hmembers := reads_memberTexts rest hsep hclose fun g hg =>
            ⟨values g hg, ih g hg (depth + 1)⟩
          obtain ⟨next, hnext⟩ : ∃ next, (',' :: (lineStart (depth + 1)).toList).intercalate
              ((f :: fields).map (memberText (depth + 1))) = '"' :: next := by
            cases fields <;> simp [memberText, List.intercalate_cons_cons]
          rw [hnext, List.cons_append] at hmembers
          have hobject := reads_object hsep hmembers
          rw [Value.ofPairs_of_distinct (Value.distinct_of_nodup names)] at hobject
          have htext : (indentedAt depth (.record (f :: fields))).toList ++ rest =
              '\x7b' :: ((lineStart (depth + 1)).toList ++
                '"' :: (next ++ ((lineStart depth).toList ++ '\x7d' :: rest))) := by
            rw [toList_indentedAt_record, hnext]
            simp
          rwa [htext]

/-- Data of texts are read back from the text that they are written as, with blanks and line ends
after it. -/
theorem read_indented (hv : v.TextTree) (hs : ∀ x ∈ s, isSpace x = true) :
    read (indented v ++ String.ofList s) = .ok v := by
  have htext : (indented v ++ String.ofList s).toList = (indentedAt 0 v).toList ++ s := by
    simp [indented, String.toList_append]
  have hstart : skip ((indentedAt 0 v).toList ++ s) = (indentedAt 0 v).toList ++ s :=
    skip_append (s := []) (by simp) (isSpace_head?_indentedAt hv 0 s)
  have hend : skip s = [] := by
    have := skip_append (t := []) hs (by simp)
    rwa [List.append_nil] at this
  have hmark : ((indentedAt 0 v).toList ++ s).head? ≠ some '\ufeff' := by
    rcases head?_indentedAt hv 0 s with h | h <;> rw [h] <;> decide
  have hvalue := reads_value hv 0 s
  rw [← hstart] at hvalue
  obtain ⟨hlt, hvalue⟩ := hvalue
  rw [read, htext, readChars, if_neg hmark, hvalue]
  simp only
  rw [hend]
  rfl

end Json

end HostPrereqs
