import HostPrereqs.Output.Format
import HostPrereqs.Proofs.Text.Escape
import HostPrereqs.Requirements.Basic

/-!
# Output — the characters of data

Data whose parts are texts and mappings of texts (`Value.Textual`) are shown in line feeds and basic
characters only (`isBasic_render`).  So nothing in them can be taken for an escape sequence
(`stripEscapes_of_isBasic`).
-/

namespace HostPrereqs

/-- Line feeds and basic characters only. -/
def IsBasic (s : List Char) : Prop := ∀ c ∈ s, Yaml.isSpecial c = false

instance (s : List Char) : Decidable (IsBasic s) :=
  List.decidableBAll (fun c => Yaml.isSpecial c = false) s

section

variable {c : Char} {s t : List Char}

@[simp] theorem isBasic_nil : IsBasic [] := fun _ hc => absurd hc List.not_mem_nil

@[simp] theorem isBasic_cons : IsBasic (c :: s) ↔ Yaml.isSpecial c = false ∧ IsBasic s :=
  List.forall_mem_cons

@[simp] theorem isBasic_append : IsBasic (s ++ t) ↔ IsBasic s ∧ IsBasic t :=
  List.forall_mem_append

/-- The printable characters of the basic set are not special. -/
theorem isSpecial_of_le (hlow : 32 ≤ c.toNat) (hhigh : c.toNat ≤ 126) :
    Yaml.isSpecial c = false := by
  simp [Yaml.isSpecial, hlow, hhigh]

theorem isBasic_replicate (hc : Yaml.isSpecial c = false) (n : Nat) :
    IsBasic (List.replicate n c) :=
  fun _ h => List.eq_of_mem_replicate h ▸ hc

theorem isBasic_flatMap {f : Char → List Char} (h : ∀ c ∈ s, IsBasic (f c)) :
    IsBasic (s.flatMap f) := by
  intro c hc
  obtain ⟨d, hd, hc⟩ := List.mem_flatMap.1 hc
  exact h d hd c hc

/-- Parts and separators of basic characters make up a text of basic characters. -/
theorem isBasic_intercalate {sep : String} {parts : List String} (hsep : IsBasic sep.toList)
    (hparts : ∀ part ∈ parts, IsBasic part.toList) : IsBasic (sep.intercalate parts).toList := by
  rw [String.toList_intercalate]
  induction parts with
  | nil => exact isBasic_nil
  | cons part parts ih =>
      obtain ⟨hpart, hparts⟩ := List.forall_mem_cons.1 hparts
      cases parts with
      | nil => simpa using hpart
      | cons next parts =>
          rw [List.map_cons, List.map_cons, List.intercalate_cons_cons]
          simp only [isBasic_append]
          exact ⟨⟨hpart, hsep⟩, ih hparts⟩

/-- A text of basic characters has no escape sequences. -/
theorem stripEscapes_of_isBasic {s : String} (h : IsBasic s.toList) : Text.stripEscapes s = s :=
  Text.stripEscapes_of_not_mem fun hmem => absurd (h _ hmem) (by decide)

/-! ### Digits -/

theorem isSpecial_digitChar : ∀ d < 16, Yaml.isSpecial d.digitChar = false := by decide

theorem isSpecial_toUpper_digitChar :
    ∀ d < 16, Yaml.isSpecial d.digitChar.toUpper = false := by decide

theorem eq_digitChar_of_mem_toDigits {n : Nat} (h : c ∈ Nat.toDigits 16 n) :
    ∃ d < 16, c = Nat.digitChar d := by
  induction n using Nat.strongRecOn with
  | ind n ih =>
      rw [Nat.toDigits_eq_if (by decide)] at h
      split at h
      · rename_i hsmall
        exact ⟨n, hsmall, List.mem_singleton.1 h⟩
      · rcases List.mem_append.1 h with h | h
        · exact ih (n / 16) (Nat.div_lt_self (by omega) (by decide)) h
        · exact ⟨n % 16, Nat.mod_lt n (by decide), List.mem_singleton.1 h⟩

theorem eq_digitChar_of_mem_hex {width n : Nat} (h : c ∈ Text.hex width n) :
    ∃ d < 16, c = Nat.digitChar d := by
  rcases List.mem_append.1 h with h | h
  · exact ⟨0, by decide, List.eq_of_mem_replicate h⟩
  · exact eq_digitChar_of_mem_toDigits h

/-- Hexadecimal digits are basic characters. -/
theorem isBasic_hex (width n : Nat) : IsBasic (Text.hex width n) := by
  intro c hc
  obtain ⟨d, hd, rfl⟩ := eq_digitChar_of_mem_hex hc
  exact isSpecial_digitChar d hd

theorem isBasic_capitalHex (width n : Nat) : IsBasic (Yaml.capitalHex width n) := by
  intro c hc
  obtain ⟨digit, hdigit, rfl⟩ := List.mem_map.1 hc
  obtain ⟨d, hd, rfl⟩ := eq_digitChar_of_mem_hex hdigit
  exact isSpecial_toUpper_digitChar d hd

end

/-! ### Data of texts -/

/-- Texts, and mappings of texts to such data. -/
inductive Value.Textual : Value → Prop where
  | str (s : String) : Textual (.str s)
  | map {es : List (Value × Value)} (keys : ∀ e ∈ es, ∃ s, e.1 = .str s)
      (values : ∀ e ∈ es, Textual e.2) : Textual (.map es)

/-- A record of data of texts is data of texts. -/
theorem Value.textual_record {es : List (String × Value)} (h : ∀ e ∈ es, Textual e.2) :
    Textual (.record es) := by
  refine .map (fun e he => ?_) fun e he => ?_
  · obtain ⟨⟨key, v⟩, -, rfl⟩ := List.mem_map.1 he
    exact ⟨key, rfl⟩
  · obtain ⟨⟨key, v⟩, hmem, rfl⟩ := List.mem_map.1 he
    exact h _ hmem

/-- Requirements are data of texts. -/
theorem Requirements.textual_toValue (r : Requirements) : r.toValue.Textual := by
  refine Value.textual_record fun phase hphase => ?_
  obtain ⟨⟨phase, relations⟩, -, rfl⟩ := List.mem_map.1 hphase
  refine Value.textual_record fun relation hrelation => ?_
  obtain ⟨⟨relation, modules⟩, -, rfl⟩ := List.mem_map.1 hrelation
  refine Value.textual_record fun item hitem => ?_
  obtain ⟨⟨module, range⟩, -, rfl⟩ := List.mem_map.1 hitem
  exact .str range

/-! ### JSON -/

namespace Json

theorem isBasic_unitEscape (n : Nat) : IsBasic (unitEscape n) := by
  simp only [unitEscape, isBasic_cons]
  exact ⟨by decide, by decide, isBasic_hex 4 n⟩

theorem isBasic_codeEscape (n : Nat) : IsBasic (codeEscape n) := by
  unfold codeEscape
  split
  · exact isBasic_unitEscape n
  · exact isBasic_append.2 ⟨isBasic_unitEscape _, isBasic_unitEscape _⟩

/-- A character is escaped unless it is basic. -/
theorem isBasic_stringChar (c : Char) : IsBasic (stringChar c) := by
  unfold stringChar
  iterate 7
    split
    · simp only [isBasic_cons, isBasic_nil, and_true]
      decide
  split
  · rename_i hbasic
    simp only [Bool.and_eq_true, decide_eq_true_eq] at hbasic
    exact isBasic_cons.2 ⟨isSpecial_of_le hbasic.1 (by omega), isBasic_nil⟩
  · exact isBasic_codeEscape _

/-- A string is written in basic characters, whatever it holds. -/
theorem isBasic_string (s : String) : IsBasic (string s).toList := by
  rw [string, String.toList_ofList, stringChars]
  simp only [isBasic_cons, isBasic_append, isBasic_nil, and_true]
  exact ⟨by decide, isBasic_flatMap fun c _ => isBasic_stringChar c, by decide⟩

theorem isBasic_lineStart (depth : Nat) : IsBasic (lineStart depth).toList := by
  simp only [lineStart, String.toList_append, String.toList_ofList, isBasic_append]
  exact ⟨by decide, isBasic_replicate (by decide) _⟩

theorem isBasic_block {opening closing : String} {parts : List String}
    (hopening : IsBasic opening.toList) (hclosing : IsBasic closing.toList)
    (hparts : ∀ part ∈ parts, IsBasic part.toList) (depth : Nat) :
    IsBasic (block depth opening closing parts).toList := by
  unfold block
  split
  · rw [String.toList_append]
    exact isBasic_append.2 ⟨hopening, hclosing⟩
  · have hsep : IsBasic ("," ++ lineStart (depth + 1)).toList := by
      rw [String.toList_append]
      exact isBasic_append.2 ⟨by decide, isBasic_lineStart _⟩
    simp only [String.toList_append, isBasic_append]
    exact ⟨⟨⟨⟨hopening, isBasic_lineStart _⟩, isBasic_intercalate hsep hparts⟩,
      isBasic_lineStart _⟩, hclosing⟩

theorem mem_indentedMembers {depth : Nat} {es : List (Value × Value)} {part : String}
    (h : part ∈ indentedMembers depth es) :
    ∃ e ∈ es, part = keyText e.1 ++ ": " ++ indentedAt depth e.2 := by
  induction es with
  | nil =>
      rw [indentedMembers] at h
      exact absurd h List.not_mem_nil
  | cons e es ih =>
      obtain ⟨k, v⟩ := e
      rw [indentedMembers] at h
      rcases List.mem_cons.1 h with rfl | h
      · exact ⟨(k, v), List.mem_cons_self, rfl⟩
      · obtain ⟨e, he, heq⟩ := ih h
        exact ⟨e, List.mem_cons_of_mem _ he, heq⟩

/-- Data of texts are written in basic characters, by induction on the data. -/
theorem isBasic_indentedAt {v : Value} (hv : v.Textual) (depth : Nat) :
    IsBasic (indentedAt depth v).toList := by
  induction hv generalizing depth with
  | str s =>
      rw [indentedAt]
      · exact isBasic_string s
      all_goals nofun
  | map keys values ih =>
      rw [indentedAt]
      refine isBasic_block (by decide) (by decide) (fun part hpart => ?_) depth
      obtain ⟨e, he, rfl⟩ := mem_indentedMembers hpart
      obtain ⟨s, hkey⟩ := keys e he
      rw [hkey, keyText, String.toList_append, String.toList_append]
      exact isBasic_append.2 ⟨isBasic_append.2 ⟨isBasic_string s, by decide⟩, ih e he _⟩

end Json

/-! ### YAML -/

namespace Yaml

/-- What was written are basic characters. -/
def Pen.IsBasic (p : Pen) : Prop := HostPrereqs.IsBasic p.text.toList

namespace Pen

variable {p : Pen} {s : List Char}

/-- A pen that puts down basic characters has written basic characters only. -/
theorem isBasic_put (hp : p.IsBasic) (hs : HostPrereqs.IsBasic s) : (p.put s).IsBasic := by
  simp only [IsBasic, put, String.toList_append, String.toList_ofList, isBasic_append]
  exact ⟨hp, hs⟩

theorem isBasic_lineEnd (hp : p.IsBasic) : p.lineEnd.IsBasic := by
  simp only [IsBasic, lineEnd, String.toList_append, isBasic_append]
  exact ⟨hp, by decide⟩

theorem isBasic_newLine (hp : p.IsBasic) (indent : Nat) : (p.newLine indent).IsBasic := by
  have hend : ∀ ends : Bool, (if ends then p.lineEnd else p).IsBasic := by
    intro ends
    cases ends with
    | false => exact hp
    | true => exact isBasic_lineEnd hp
  unfold newLine
  dsimp only
  generalize (!p.atIndent || decide (indent < p.column) ||
    (decide (p.column = indent) && !p.afterBlank)) = ends
  have hp' := hend ends
  generalize (if ends then p.lineEnd else p) = p' at hp'
  split
  · exact isBasic_put hp' (isBasic_replicate (by decide) _)
  · exact hp'

theorem isBasic_indicator (hp : p.IsBasic) {s : String} (hs : HostPrereqs.IsBasic s.toList)
    (needsBlank blank indents : Bool) : (p.indicator s needsBlank blank indents).IsBasic := by
  refine isBasic_put hp ?_
  split
  · exact hs
  · exact isBasic_cons.2 ⟨by decide, hs⟩

end Pen

variable {p : Pen} {s : List Char}

theorem isBasic_lineEndAs (hp : p.IsBasic) {c : Char} (hc : isSpecial c = false) :
    (p.lineEndAs c).IsBasic := by
  simp only [Pen.IsBasic, Pen.lineEndAs, String.toList_push, isBasic_append, isBasic_cons]
  exact ⟨hp, hc, isBasic_nil⟩

theorem isBasic_writeBreaks (hp : p.IsBasic) (hs : IsBasic s) : (writeBreaks p s).IsBasic := by
  have hfold : ∀ p : Pen, p.IsBasic →
      (s.foldl (fun p c => if c = '\n' then p.lineEnd else p.lineEndAs c) p).IsBasic := by
    induction s with
    | nil => exact fun p hp => hp
    | cons c s ih =>
        obtain ⟨hc, hs⟩ := isBasic_cons.1 hs
        intro p hp
        refine ih hs _ ?_
        dsimp only
        split
        · exact Pen.isBasic_lineEnd hp
        · exact isBasic_lineEndAs hp hc
  unfold writeBreaks
  dsimp only
  split
  · exact hfold _ (Pen.isBasic_lineEnd hp)
  · exact hfold _ hp

theorem isBasic_takeWhile (f : Char → Bool) (hs : IsBasic s) : IsBasic (s.takeWhile f) :=
  fun c hc => hs c (List.takeWhile_sublist f |>.subset hc)

theorem isBasic_dropWhile (f : Char → Bool) (hs : IsBasic s) : IsBasic (s.dropWhile f) :=
  fun c hc => hs c (List.dropWhile_sublist f |>.subset hc)

/-- Words are written in their own characters, line feeds, blanks and quotes. -/
theorem isBasic_writeWords {quoted : Bool} {indent : Nat} {split first : Bool} (hp : p.IsBasic)
    (hs : IsBasic s) : (writeWords quoted indent split first p s).IsBasic := by
  fun_induction writeWords quoted indent split first p s with
  | case1 => exact hp
  | case2 first p r more run breaks ih =>
      have hr := (isBasic_cons.1 hs).2
      refine ih ?_ (isBasic_dropWhile _ hr)
      split
      · exact Pen.isBasic_newLine hp indent
      · exact Pen.isBasic_put hp (isBasic_cons.2 ⟨by decide, isBasic_takeWhile _ hr⟩)
  | case3 first p c r hc hbreak breaks ih =>
      obtain ⟨hc, hr⟩ := isBasic_cons.1 hs
      exact ih (Pen.isBasic_newLine (isBasic_writeBreaks hp
        (isBasic_cons.2 ⟨hc, isBasic_takeWhile _ hr⟩)) indent) (isBasic_dropWhile _ hr)
  | case4 first p c r hc hbreak written ih =>
      obtain ⟨hc, hr⟩ := isBasic_cons.1 hs
      refine ih (Pen.isBasic_put hp ?_) hr
      unfold written
      split
      · decide
      · exact isBasic_cons.2 ⟨hc, isBasic_nil⟩

theorem isBasic_writePlain (hp : p.IsBasic) (hs : IsBasic s) (indent : Nat) (split : Bool) :
    (writePlain indent split p s).IsBasic := by
  have hstart : ∀ blank : Bool, (if blank then p else p.put [' ']).IsBasic := by
    intro blank
    cases blank with
    | false => exact Pen.isBasic_put hp (by decide)
    | true => exact hp
  exact isBasic_writeWords (p := { (if p.afterBlank then p else p.put [' ']) with
    atIndent := false }) (hstart p.afterBlank) hs

/-- Between double quotes everything else is escaped. -/
theorem isBasic_doubleChar (c : Char) : IsBasic (doubleChar c) := by
  unfold doubleChar
  split
  · rename_i e he
    unfold escapeLetter? at he
    split at he
    all_goals cases he
    all_goals decide
  · dsimp only
    split
    · rename_i hbasic
      simp only [Bool.and_eq_true, decide_eq_true_eq] at hbasic
      exact isBasic_cons.2 ⟨isSpecial_of_le hbasic.1 hbasic.2, isBasic_nil⟩
    · split
      · exact isBasic_cons.2 ⟨by decide, isBasic_cons.2 ⟨by decide, isBasic_capitalHex _ _⟩⟩
      · split
        · exact isBasic_cons.2 ⟨by decide, isBasic_cons.2 ⟨by decide, isBasic_capitalHex _ _⟩⟩
        · exact isBasic_cons.2 ⟨by decide, isBasic_cons.2 ⟨by decide, isBasic_capitalHex _ _⟩⟩

theorem isBasic_breakDouble (hp : p.IsBasic) (indent : Nat) (next : Char) :
    (breakDouble indent p next).IsBasic := by
  have hline : ((p.put ['\\']).newLine indent).IsBasic :=
    Pen.isBasic_newLine (Pen.isBasic_put hp (by decide)) indent
  unfold breakDouble
  dsimp only
  split
  · exact Pen.isBasic_put hline (by decide)
  · exact hline

/-- A text between double quotes is written in basic characters, whatever it holds. -/
theorem isBasic_writeDouble {indent : Nat} {split first fresh : Bool} (hp : p.IsBasic)
    (s : List Char) : (writeDouble indent split first fresh p s).IsBasic := by
  induction s generalizing first fresh p with
  | nil => exact hp
  | cons c r ih =>
      have hbroken : ∀ (breaks : Bool) (next : Char) (p : Pen), p.IsBasic →
          (if breaks then breakDouble indent p next else p).IsBasic := by
        intro breaks next p hp
        cases breaks with
        | false => exact hp
        | true => exact isBasic_breakDouble hp indent next
      unfold writeDouble
      dsimp only
      split
      · exact ih (Pen.isBasic_put (hbroken _ _ _ hp) (isBasic_doubleChar c))
      · exact ih (hbroken _ _ _ (Pen.isBasic_put hp (isBasic_doubleChar c)))

theorem isBasic_of_not_special (h : s.any isSpecial = false) : IsBasic s :=
  fun c hc => Bool.eq_false_iff.2 fun hspecial =>
    Bool.false_ne_true (h.symm.trans (List.any_eq_true.2 ⟨c, hc, hspecial⟩))

/-- A text with other characters cannot stand without quotes, and neither between single ones. -/
theorem isBasic_of_analyse (h : (analyse s).plain = true ∨ (analyse s).singleQuoted = true) :
    IsBasic s := by
  unfold analyse at h
  split at h
  · rename_i hempty
    rw [List.isEmpty_iff.1 hempty]
    exact isBasic_nil
  · refine isBasic_of_not_special ?_
    simp only [Bool.not_eq_true', Bool.or_eq_false_iff] at h
    rcases h with h | h
    · exact h.1.1.2
    · exact h.2

/-- So is a text in whatever style it is written. -/
theorem isBasic_writeScalar (hp : p.IsBasic) (ctx : Context) (indent : Nat) (text : String)
    (bare : Bool) : (writeScalar ctx indent text bare p).IsBasic := by
  unfold writeScalar
  dsimp only
  split
  · rename_i hplain
    simp only [Bool.and_eq_true] at hplain
    have hwritten := isBasic_writePlain hp (isBasic_of_analyse (.inl hplain.1.2)) indent
      (!ctx.simpleKey)
    split
    · exact hwritten
    · exact hwritten
  · split
    · rename_i hquoted
      simp only [Bool.and_eq_true] at hquoted
      exact Pen.isBasic_indicator (isBasic_writeWords (Pen.isBasic_indicator hp (by decide) _ _ _)
        (isBasic_of_analyse (.inr hquoted.1))) (by decide) _ _ _
    · exact Pen.isBasic_indicator (isBasic_writeDouble (Pen.isBasic_indicator hp (by decide) _ _ _)
        _) (by decide) _ _ _

/-- Pairs are written in basic characters if their values are. -/
theorem isBasic_writePairs {es : List (Value × Value)}
    (hes : ∀ e ∈ es, ∀ (inMapping : Bool) (indent : Option Nat) (p : Pen), p.IsBasic →
      (writeValue false inMapping indent e.2 p).IsBasic) (indent : Nat) (hp : p.IsBasic) :
    (writePairs indent es p).IsBasic := by
  induction es generalizing p with
  | nil =>
      rw [writePairs]
      exact hp
  | cons e es ih =>
      obtain ⟨k, v⟩ := e
      obtain ⟨hv, hes⟩ := List.forall_mem_cons.1 hes
      have hline := Pen.isBasic_newLine hp indent
      rw [writePairs]
      dsimp only
      refine ih hes (hv _ _ _ ?_)
      split
      · exact Pen.isBasic_indicator (isBasic_writeScalar hline _ _ _ _) (by decide) _ _ _
      · exact Pen.isBasic_indicator (Pen.isBasic_newLine (isBasic_writeScalar
          (Pen.isBasic_indicator hline (by decide) _ _ _) _ _ _ _) _) (by decide) _ _ _

/-- Data of texts are written in basic characters, by induction on the data and whatever the place.
-/
theorem isBasic_writeValue {v : Value} (hv : v.Textual) (root inMapping : Bool)
    (indent : Option Nat) (hp : p.IsBasic) : (writeValue root inMapping indent v p).IsBasic := by
  induction hv generalizing root inMapping indent p with
  | str s =>
      rw [writeValue]
      · exact isBasic_writeScalar hp _ _ _ _
      all_goals nofun
  | @map es keys values ih =>
      cases es with
      | nil =>
          rw [writeValue]
          exact Pen.isBasic_indicator (Pen.isBasic_indicator hp (by decide) _ _ _) (by decide) _ _ _
      | cons e es =>
          rw [writeValue]
          · exact isBasic_writePairs (fun e he inMapping indent p hp => ih e he _ _ _ hp) _ hp
          · nofun

theorem isBasic_write {v : Value} (hv : v.Textual) : IsBasic (write v).toList := by
  have hstart : Pen.start.IsBasic := isBasic_nil
  have hvalue : ((writeValue true false none v .start).newLine 0).IsBasic :=
    Pen.isBasic_newLine (isBasic_writeValue hv _ _ _ hstart) 0
  unfold write
  dsimp only
  split
  · exact Pen.isBasic_newLine (Pen.isBasic_indicator hvalue (by decide) _ _ _) 0
  · exact hvalue

end Yaml

/-- Data of texts are shown in line feeds and basic characters. -/
theorem OutputFormat.isBasic_render (f : OutputFormat) {v : Value} (hv : v.Textual) :
    IsBasic (f.render v).toList := by
  cases f with
  | json => exact Json.isBasic_indentedAt hv 0
  | yaml =>
      intro c hc
      rw [render, dropLineFeeds, String.toList_ofList, List.mem_reverse] at hc
      exact Yaml.isBasic_write hv c
        (List.mem_reverse.1 ((List.dropWhile_sublist _).subset hc))

end HostPrereqs
