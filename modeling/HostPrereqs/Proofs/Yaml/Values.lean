import HostPrereqs.Proofs.Yaml.Tokens

/-!
# Yaml — values that do not exist

Tokens that make up no tree are a fault of the text (`Node.told_ofTokens?`).  A tree is made into a
value unless a part of it cannot be made, and that is a fault of the text too unless the part is a
text under one of four tags and no value of that tag, such as a day that does not exist
(`Node.Valueless`).

So a text that cannot be read is at fault itself, unless it asks for a number that is too big or for
a value that does not exist; `not_isOfText_iff` says when it does.
-/

namespace HostPrereqs.Yaml

open Result (FailsWith)

variable {text : List Char} {f : Fault}

/-! ### Trees -/

namespace Node

/-- A handle that was not declared is a fault of the text. -/
theorem told_tagName (handles : Handles) (tag : Option (Option String × String)) :
    Told (tagName handles tag) := by
  unfold tagName
  split
  · exact .ok _
  · exact .ok _
  · split
    · exact .ok _
    · exact .error rfl

/-- Entries of a flow collection without a comma between them are a fault of the text. -/
theorem told_afterEntry (first : Bool) (ts : List Token) : Told (afterEntry first ts) := by
  unfold afterEntry
  split
  · exact .ok _
  · split
    · exact .ok _
    · exact .error rfl

/-- A node that is missing is a fault of the text unless it has a tag or an anchor. -/
theorem told_empty (name anchor : Option String) (anchors : Anchors) (ts r : List Token) :
    Told (empty name anchor anchors ts r) := by
  unfold empty
  split
  · exact .ok _
  · exact .error rfl

mutual

/-- Tokens that make up no node are a fault of the text, by induction on the tokens that are left.
-/
theorem told_node (handles : Handles) (place : Place) (anchors : Anchors) (ts : List Token) :
    Told (node handles place anchors ts) := by
  unfold node
  split
  · split
    · exact .ok _
    · exact .error rfl
  · dsimp only
    split
    · exact (told_tagName _ _).pass ‹_›
    · split
      · exact .error rfl
      -- the first token says which kind of node it is
      · split
        · exact .ok _
        · split
          · exact (told_flowItems _ _ _ _).pass ‹_›
          · exact .ok _
        · split
          · exact (told_flowPairs _ _ _ _).pass ‹_›
          · exact .ok _
        · split
          · exact .error rfl
          · split
            · exact (told_blockItems _ _ _).pass ‹_›
            · exact .ok _
        · split
          · exact .error rfl
          · split
            · exact (told_blockPairs _ _ _).pass ‹_›
            · exact .ok _
        · split
          · split
            · exact (told_indentlessItem _ _ _).pass ‹_›
            · exact .ok _
          · exact told_empty _ _ _ _ _
        · exact told_empty _ _ _ _ _
termination_by (ts.length, 2)
decreasing_by
  all_goals
    subst_vars
    simp only [List.length_cons] at *
    omega

/-- Where a node may be missing, nothing but the end of the tokens is a fault by itself. -/
theorem told_optional (handles : Handles) (place : Place) (stops : Stops) (anchors : Anchors)
    (ts : List Token) : Told (optional handles place stops anchors ts) := by
  unfold optional
  split
  · exact .error rfl
  · split
    · exact .ok _
    · split
      · exact (told_node _ _ _ _).pass ‹_›
      · exact .ok _
termination_by (ts.length, 3)
decreasing_by
  all_goals
    subst_vars
    simp only [List.length_cons] at *
    omega

theorem told_blockItems (handles : Handles) (anchors : Anchors) (ts : List Token) :
    Told (blockItems handles anchors ts) := by
  unfold blockItems
  split
  · exact .ok _
  · split
    · exact (told_optional _ _ _ _ _).pass ‹_›
    · split
      · exact (told_blockItems _ _ _).pass ‹_›
      · exact .ok _
  · exact .error rfl
termination_by (ts.length, 4)
decreasing_by
  all_goals
    subst_vars
    simp only [List.length_cons] at *
    omega

theorem told_indentlessItem (handles : Handles) (anchors : Anchors) (ts : List Token) :
    Told (indentlessItem handles anchors ts) := by
  unfold indentlessItem
  split
  · exact (told_optional _ _ _ _ _).pass ‹_›
  · split
    · split
      · exact (told_indentlessItem _ _ _).pass ‹_›
      · exact .ok _
    · exact .ok _
termination_by (ts.length, 4)
decreasing_by
  all_goals
    subst_vars
    simp only [List.length_cons] at *
    omega

theorem told_blockPairs (handles : Handles) (anchors : Anchors) (ts : List Token) :
    Told (blockPairs handles anchors ts) := by
  unfold blockPairs
  split
  · exact .ok _
  · split
    · exact (told_optional _ _ _ _ _).pass ‹_›
    · split
      · split
        · exact (told_optional _ _ _ _ _).pass ‹_›
        · split
          · exact (told_blockPairs _ _ _).pass ‹_›
          · exact .ok _
      · split
        · exact (told_blockPairs _ _ _).pass ‹_›
        · exact .ok _
  · exact .error rfl
termination_by (ts.length, 4)
decreasing_by
  all_goals
    subst_vars
    simp only [List.length_cons] at *
    omega

theorem told_flowItems (handles : Handles) (first : Bool) (anchors : Anchors) (ts : List Token) :
    Told (flowItems handles first anchors ts) := by
  unfold flowItems
  split
  · exact .ok _
  · split
    · exact (told_afterEntry _ _).pass ‹_›
    · split
      · exact .ok _
      · split
        · exact (told_flowPair _ _ _ _).pass ‹_›
        · split
          · exact (told_flowItems _ _ _ _).pass ‹_›
          · exact .ok _
      · split
        · exact (told_node _ _ _ _).pass ‹_›
        · split
          · exact (told_flowItems _ _ _ _).pass ‹_›
          · exact .ok _
termination_by (ts.length, 4)
decreasing_by
  all_goals
    subst_vars
    simp only [List.length_cons] at *
    omega

theorem told_flowPair (handles : Handles) (closing : Token) (anchors : Anchors) (ts : List Token) :
    Told (flowPair handles closing anchors ts) := by
  unfold flowPair
  split
  · exact (told_optional _ _ _ _ _).pass ‹_›
  · split
    · split
      · exact (told_optional _ _ _ _ _).pass ‹_›
      · exact .ok _
    · exact .ok _
termination_by (ts.length, 4)
decreasing_by
  all_goals
    subst_vars
    simp only [List.length_cons] at *
    omega

theorem told_flowPairs (handles : Handles) (first : Bool) (anchors : Anchors) (ts : List Token) :
    Told (flowPairs handles first anchors ts) := by
  unfold flowPairs
  split
  · exact .ok _
  · split
    · exact (told_afterEntry _ _).pass ‹_›
    · split
      · exact .ok _
      · split
        · exact (told_flowPair _ _ _ _).pass ‹_›
        · split
          · exact (told_flowPairs _ _ _ _).pass ‹_›
          · exact .ok _
      · split
        · exact (told_node _ _ _ _).pass ‹_›
        · split
          · exact (told_flowPairs _ _ _ _).pass ‹_›
          · exact .ok _
termination_by (ts.length, 4)
decreasing_by
  all_goals
    subst_vars
    simp only [List.length_cons] at *
    omega

end

end Node

/-! ### Texts under tags -/

/-- The tags that a text may be no value of. -/
def Tag.isDemanding : Tag → Bool
  | bool | int | float | timestamp => true
  | _ => false

namespace Scalar

/-- Whatever a result fails at is no fault of the text. -/
abbrev Missing {α : Type} (x : Except Fault α) : Prop := FailsWith (·.isOfText = false) x

/-- What a numeral is refused for, its length or its digits, is no fault of the text. -/
theorem missing_numeral (base : Nat) (s : List Char) : Missing (numeral base s) := by
  unfold numeral
  refine .check rfl ?_
  split
  · exact .error rfl
  · exact .ok _

theorem missing_magnitude (s : List Char) : Missing (magnitude s) := by
  unfold magnitude
  split
  · exact .error rfl
  · exact .ok _
  · exact missing_numeral _ _
  · exact missing_numeral _ _
  · exact missing_numeral _ _
  · exact .ite (.bind (.mapM (missing_numeral 10) _) fun _ => .ok _) (missing_numeral _ _)

/-- A text that is no integer is no fault of the text it stands in. -/
theorem missing_int (s : String) : Missing (int s) := by
  unfold int
  exact .check rfl (.bind (missing_magnitude _) fun _ => .ok _)

theorem missing_decimal (s : List Char) : Missing (decimal s) := by
  unfold decimal
  dsimp only
  split
  · exact .ok _
  · exact .ok _
  · exact .error rfl

theorem missing_sixtieths (parts : List Double) : Missing (sixtieths parts) := by
  unfold sixtieths
  exact .check rfl (.ok _)

/-- Nor is one that is no floating-point number. -/
theorem missing_float (s : String) : Missing (float s) := by
  unfold float
  refine .check rfl (.ite (.bind (.ok _) fun _ => .ok _) (.ite (.ok _) (.ite ?_ ?_)))
  · exact .bind (.mapM missing_decimal _) fun _ => .bind (missing_sixtieths _) fun _ => .ok _
  · exact .bind (missing_decimal _) fun _ => .ok _

/-- Nor is a day that does not exist. -/
theorem missing_checkDate (d : Date) : Missing (checkDate d) := by
  unfold checkDate
  exact .check rfl (.check rfl (.ite (.error rfl) (.ok _)))

theorem missing_checkTime (m : Moment) : Missing (checkTime m) := by
  unfold checkTime
  exact .bind (missing_checkDate _) fun _ => .check rfl (.check rfl (.ite (.error rfl) (.ok _)))

/-- Nor is a text that is no point in time. -/
theorem missing_timestamp (s : String) : Missing (timestamp s) := by
  unfold timestamp
  split
  · exact .error rfl
  · exact .bind (missing_checkDate _) fun _ => .ok _
  · dsimp only
    split
    · split
      · exact .error rfl
      · exact .bind (missing_checkTime _) fun _ => .ok _
    · exact .bind (missing_checkTime _) fun _ => .ok _

/-- Bytes that are not written as they should be are told as a fault of the text. -/
theorem told_binary (s : String) : Told (binary s) := by
  unfold binary
  split
  · split
    · exact .ok _
    · exact .error rfl
  · exact .error rfl

/-- What a text fails at under its tag is a fault of the text unless the tag is demanding. -/
theorem isOfText_of_value {tag : Tag} {s : String} (h : value tag s = .error f) :
    f.isOfText = !tag.isDemanding := by
  unfold value at h
  cases tag with
  | null | str => cases h
  | bool =>
      dsimp only at h
      split at h
      · cases h
      · cases h
        rfl
  | int => exact ((missing_int s).map _) f h
  | float => exact ((missing_float s).map _) f h
  | timestamp => exact missing_timestamp s f h
  | binary => exact ((told_binary s).map _) f h
  | omap | pairs | set | seq | map | merge | value | other =>
      cases h
      rfl

end Scalar

/-! ### Parts of trees -/

namespace Node

variable {n p : Node}

/-- A node is a part of another. -/
inductive Part (p : Node) : Node → Prop where
  | self : Part p p
  | item {tag : Tag} {items : List Node} {x : Node} (mem : x ∈ items) (part : Part p x) :
      Part p (sequence tag items)
  | key {tag : Tag} {pairs : List (Node × Node)} {x : Node × Node} (mem : x ∈ pairs)
      (part : Part p x.1) : Part p (mapping tag pairs)
  | value {tag : Tag} {pairs : List (Node × Node)} {x : Node × Node} (mem : x ∈ pairs)
      (part : Part p x.2) : Part p (mapping tag pairs)

/-- The text of a node is no value of its tag, which is a demanding one. -/
structure Valueless (p : Node) (f : Fault) : Prop where
  demanding : p.tag.isDemanding = true
  value : ∃ s, p.scalarText? = some s ∧ Scalar.value p.tag s = .error f

/-- A fault is accounted for by a tree: it is a fault of the text, or a part of the tree is a text
that is no value of its tag. -/
def Accounts (n : Node) (f : Fault) : Prop :=
  f.isOfText = true ∨ ∃ p, Part p n ∧ p.Valueless f

namespace Accounts

variable {tag : Tag} {items : List Node} {pairs : List (Node × Node)} {x : Node}
  {pair : Node × Node}

/-- What an item accounts for its sequence accounts for. -/
theorem item (h : x.Accounts f) (hx : x ∈ items) : (sequence tag items).Accounts f :=
  h.imp_right fun ⟨p, hp, hf⟩ => ⟨p, .item hx hp, hf⟩

/-- What a key accounts for its mapping accounts for. -/
theorem key (h : pair.1.Accounts f) (hpair : pair ∈ pairs) : (mapping tag pairs).Accounts f :=
  h.imp_right fun ⟨p, hp, hf⟩ => ⟨p, .key hpair hp, hf⟩

/-- What a value accounts for its mapping accounts for. -/
theorem value (h : pair.2.Accounts f) (hpair : pair ∈ pairs) : (mapping tag pairs).Accounts f :=
  h.imp_right fun ⟨p, hp, hf⟩ => ⟨p, .value hpair hp, hf⟩

end Accounts

/-- What a node fails at by itself is accounted for by its own tag and text. -/
theorem accounts_ownFault? (h : n.ownFault? = some f) : n.Accounts f := by
  unfold ownFault? at h
  split at h
  · cases h
  · unfold scalarValue at h
    cases htext : n.scalarText? with
    | none =>
        rw [htext] at h
        cases h
        exact .inl rfl
    | some s =>
        rw [htext] at h
        dsimp only at h
        split at h
        · cases h
        · rename_i e hvalue
          cases h
          have hkind := Scalar.isOfText_of_value hvalue
          cases hdemanding : n.tag.isDemanding with
          | false =>
              rw [hdemanding] at hkind
              exact .inl hkind
          | true => exact .inr ⟨n, .self, hdemanding, s, htext, hvalue⟩

/-- A key fails at what it fails at by itself, or because it is a collection. -/
theorem accounts_keyFault? (h : n.keyFault? = some f) : n.Accounts f := by
  unfold keyFault? at h
  split at h
  · cases h
    exact .inl rfl
  · unfold asKey at h
    split at h
    · cases h
    · exact accounts_ownFault? h

theorem orElse_eq_some {α : Type} {a b : Option α} {c : α} (h : (a <|> b) = some c) :
    a = some c ∨ b = some c := by
  cases a with
  | none => exact .inr h
  | some a => exact .inl h

/-- A pair on its own fails at what its key or its value fails at. -/
theorem accounts_singleFault? (h : singleFault? n = some f) : n.Accounts f := by
  unfold singleFault? at h
  split at h
  · rcases orElse_eq_some h with h | h
    · exact (accounts_ownFault? h).key List.mem_cons_self
    · exact (accounts_ownFault? h).value List.mem_cons_self
  · cases h
    exact .inl rfl

/-- What a collection fails at when it is filled is accounted for by one of its parts. -/
theorem accounts_fillingFault? (h : n.fillingFault? = some f) : n.Accounts f := by
  have hpairs {tag : Tag} {pairs : List (Node × Node)}
      (h : pairs.findSome? (fun pair => keyFault? pair.1 <|> ownFault? pair.2) = some f) :
      (mapping tag pairs).Accounts f := by
    obtain ⟨pair, hmem, hpair⟩ := List.exists_of_findSome?_eq_some h
    rcases orElse_eq_some hpair with hpair | hpair
    · exact (accounts_keyFault? hpair).key hmem
    · exact (accounts_ownFault? hpair).value hmem
  unfold fillingFault? at h
  split at h
  · obtain ⟨x, hx, hfault⟩ := List.exists_of_findSome?_eq_some h
    exact (accounts_ownFault? hfault).item hx
  · obtain ⟨x, hx, hfault⟩ := List.exists_of_findSome?_eq_some h
    exact (accounts_singleFault? hfault).item hx
  · obtain ⟨x, hx, hfault⟩ := List.exists_of_findSome?_eq_some h
    exact (accounts_singleFault? hfault).item hx
  · exact hpairs h
  · exact hpairs h
  · split at h
    · cases h
      exact .inl rfl
    · cases h

/-- Levels that are put side by side have the faults of both. -/
theorem mem_besides {as bs : List (Option Fault)} (h : some f ∈ besides as bs) :
    some f ∈ as ∨ some f ∈ bs := by
  induction as generalizing bs with
  | nil =>
      cases bs with
      | nil => exact absurd h List.not_mem_nil
      | cons b bs => exact .inr h
  | cons a as ih =>
      cases bs with
      | nil => exact .inl h
      | cons b bs =>
          rcases List.mem_cons.1 h with h | h
          · rcases orElse_eq_some h.symm with ha | hb
            · exact .inl (ha ▸ List.mem_cons_self)
            · exact .inr (hb ▸ List.mem_cons_self)
          · exact (ih h).imp (List.mem_cons_of_mem _) (List.mem_cons_of_mem _)

mutual

/-- The faults of a tree level by level are accounted for by its parts, by induction on the tree. -/
theorem accounts_levels : ∀ {n : Node}, some f ∈ n.levels → n.Accounts f
  | scalar tag s, h => by
      rw [levels] at h
      exact accounts_fillingFault? (List.mem_singleton.1 h).symm
  | sequence tag items, h => by
      rw [levels] at h
      rcases List.mem_cons.1 h with h | h
      · exact accounts_fillingFault? h.symm
      · split at h
        · obtain ⟨x, hx, hf⟩ := accounts_levelsOfAll h
          exact hf.item hx
        · split at h
          · obtain ⟨x, hx, hf⟩ := accounts_levelsOfSingles h
            exact hf.item hx
          · exact absurd h List.not_mem_nil
  | mapping tag pairs, h => by
      rw [levels] at h
      rcases List.mem_cons.1 h with h | h
      · exact accounts_fillingFault? h.symm
      · split at h
        · obtain ⟨pair, hpair, hf | hf⟩ := accounts_levelsOfPairs h
          · exact hf.key hpair
          · exact hf.value hpair
        · exact absurd h List.not_mem_nil

/-- The faults of several trees are accounted for by one of them. -/
theorem accounts_levelsOfAll : ∀ {items : List Node}, some f ∈ levelsOfAll items →
    ∃ x ∈ items, x.Accounts f
  | [], h => absurd h List.not_mem_nil
  | x :: items, h => by
      rw [levelsOfAll] at h
      rcases mem_besides h with h | h
      · exact ⟨x, List.mem_cons_self, accounts_levels h⟩
      · obtain ⟨y, hy, hf⟩ := accounts_levelsOfAll h
        exact ⟨y, List.mem_cons_of_mem _ hy, hf⟩

/-- The faults of pairs on their own are accounted for by one of them. -/
theorem accounts_levelsOfSingles : ∀ {items : List Node}, some f ∈ levelsOfSingles items →
    ∃ x ∈ items, x.Accounts f
  | [], h => absurd h List.not_mem_nil
  | mapping tag pairs :: items, h => by
      rw [levelsOfSingles] at h
      rcases mem_besides h with h | h
      · refine ⟨mapping tag pairs, List.mem_cons_self, ?_⟩
        obtain ⟨pair, hpair, hf | hf⟩ := accounts_levelsOfPairs h
        · exact hf.key hpair
        · exact hf.value hpair
      · obtain ⟨y, hy, hf⟩ := accounts_levelsOfSingles h
        exact ⟨y, List.mem_cons_of_mem _ hy, hf⟩
  | scalar _ _ :: items, h | sequence _ _ :: items, h => by
      have hrest : some f ∈ levelsOfSingles items := h
      obtain ⟨y, hy, hf⟩ := accounts_levelsOfSingles hrest
      exact ⟨y, List.mem_cons_of_mem _ hy, hf⟩

/-- The faults of pairs are accounted for by a key or a value. -/
theorem accounts_levelsOfPairs : ∀ {pairs : List (Node × Node)}, some f ∈ levelsOfPairs pairs →
    ∃ pair ∈ pairs, pair.1.Accounts f ∨ pair.2.Accounts f
  | [], h => absurd h List.not_mem_nil
  | (k, v) :: pairs, h => by
      rw [levelsOfPairs] at h
      rcases mem_besides h with h | h
      · exact ⟨(k, v), List.mem_cons_self, .inl (accounts_levels h)⟩
      · rcases mem_besides h with h | h
        · exact ⟨(k, v), List.mem_cons_self, .inr (accounts_levels h)⟩
        · obtain ⟨pair, hpair, hf⟩ := accounts_levelsOfPairs h
          exact ⟨pair, List.mem_cons_of_mem _ hpair, hf⟩

end

end Node

/-! ### Texts -/

/-- A text asks for something that does not exist, and what is said of it: a number that is too big,
or a value of a tag for a part of the tree in which all pairs are taken over. -/
inductive Asks (text : List Char) : Fault → Prop where
  | number {f : Fault} (big : Oversized text f) : Asks text f
  | value {ts : List Token} {n p : Node} {f : Fault} (tokens : tokens text = .ok ts)
      (tree : Node.ofTokens? ts = .ok (some n)) (part : p.Part n.merged) (missing : p.Valueless f) :
      Asks text f

end HostPrereqs.Yaml
