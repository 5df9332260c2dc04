/-!
# Text — words and quoting

A line of text is split into words at spaces, tabs and line ends.  Single quotes keep everything
between them; double quotes keep everything but a backslash before a double quote or a
backslash; outside of quotes a backslash keeps the next character.  Quoted and plain pieces
that touch belong to one word, and an empty pair of quotes is an empty word.

`split` reads the words and `join` writes them: a word of safe characters stands as it is, any
other in single quotes.

* `length_split`: the words, with one separator between neighbours, are no longer than the text.
-/

namespace HostPrereqs.Words

/-- What a split can fail at. -/
inductive Fault where
  /-- The text ends inside quotes. -/
  | openQuote
  /-- The text ends after a backslash. -/
  | openEscape
deriving DecidableEq, Repr

def Fault.message : Fault → String
  | openQuote  => "No closing quotation"
  | openEscape => "No escaped character"

/-- Where the reader stands. -/
inductive Place where
  /-- Between words. -/
  | gap
  /-- In a word, outside of quotes. -/
  | word
  /-- Between single quotes. -/
  | single
  /-- Between double quotes. -/
  | double
  /-- After a backslash outside of quotes. -/
  | escape
  /-- After a backslash between double quotes. -/
  | doubleEscape
deriving DecidableEq, Repr

/-- Characters between words. -/
def isSeparator (c : Char) : Bool := c = ' ' || c = '\t' || c = '\r' || c = '\n'

/-- What one character does. -/
inductive Move where
  /-- Nothing: another separator. -/
  | skip
  /-- It ends the word. -/
  | close
  /-- It belongs to no word but changes the place. -/
  | turn (place : Place)
  /-- It adds characters to the word. -/
  | take (chars : List Char) (place : Place)
deriving DecidableEq, Repr

/-- What a character that is no separator does outside of quotes. -/
def Move.bare (c : Char) : Move :=
  if c = '\'' then turn .single
  else if c = '"' then turn .double
  else if c = '\\' then turn .escape
  else take [c] .word

/-- What a character does at a place. -/
def Place.move : Place → Char → Move
  | gap, c => if isSeparator c then .skip else .bare c
  | word, c => if isSeparator c then .close else .bare c
  | single, c => if c = '\'' then .turn .word else .take [c] .single
  | double, c =>
      if c = '"' then .turn .word
      else if c = '\\' then .turn .doubleEscape
      else .take [c] .double
  | escape, c => .take [c] .word
  | doubleEscape, c => if c = '"' || c = '\\' then .take [c] .double else .take ['\\', c] .double

/-- Adds characters to the front of the first word. -/
def extend (cs : List Char) : List (List Char) → List (List Char)
  | []      => [cs]
  | w :: ws => (cs ++ w) :: ws

/-- The words of the rest of a text.  Where the place is inside a word, the first one is the
rest of that word. -/
def wordsFrom : Place → List Char → Except Fault (List (List Char))
  | .gap, []          => .ok []
  | .word, []         => .ok [[]]
  | .single, []       => .error .openQuote
  | .double, []       => .error .openQuote
  | .escape, []       => .error .openEscape
  | .doubleEscape, [] => .error .openEscape
  | place, c :: s =>
      match place.move c with
      | .skip          => wordsFrom .gap s
      | .close         => (wordsFrom .gap s).map ([] :: ·)
      | .turn next     => wordsFrom next s
      | .take cs next  => (wordsFrom next s).map (extend cs)

/-- The words of a text. -/
def split (s : String) : Except Fault (List String) :=
  (wordsFrom .gap s.toList).map (·.map String.ofList)

/-! ### Quoting -/

/-- Characters that mean themselves in a word. -/
def isSafe (c : Char) : Bool := c.isAlphanum || "_@%+=:,./-".toList.contains c

/-- The characters of a word between single quotes.  A single quote is written between double
quotes. -/
def enclose : List Char → List Char
  | []     => []
  | c :: s => (if c = '\'' then "'\"'\"'".toList else [c]) ++ enclose s

/-- Writes one word. -/
def quoteChars (w : List Char) : List Char :=
  if w.isEmpty then ['\'', '\'']
  else if w.all isSafe then w
  else '\'' :: (enclose w ++ ['\''])

def quote (w : String) : String := String.ofList (quoteChars w.toList)

/-- Writes words with a space between neighbours. -/
def join (ws : List String) : String := " ".intercalate (ws.map quote)

/-! ### The length of the words -/

/-- The length of words with one separator after each. -/
def span : List (List Char) → Nat
  | []      => 0
  | w :: ws => w.length + 1 + span ws

theorem span_extend (cs : List Char) (ws : List (List Char)) :
    span (extend cs ws) ≤ cs.length + max 1 (span ws) := by
  cases ws with
  | nil => simp [span, extend]
  | cons w ws => simp [span, extend]; omega

/-- What the words of the rest may exceed the rest by. -/
def Place.credit : Place → Nat
  | doubleEscape => 2
  | _            => 1

theorem Place.credit_pos (p : Place) : 1 ≤ p.credit := by cases p <;> decide

/-- What a move adds to the words, with the credit of the place it leads to. -/
def Move.cost : Move → Nat
  | skip         => Place.gap.credit
  | close        => 1 + Place.gap.credit
  | turn next    => next.credit
  | take cs next => cs.length + next.credit

/-- A move spends at most the character it reads. -/
theorem Place.cost_move (p : Place) (c : Char) : (p.move c).cost ≤ 1 + p.credit := by
  cases p <;> simp only [Place.move, Move.bare] <;> (repeat' split) <;>
    simp [Place.credit, Move.cost]

theorem span_wordsFrom {p : Place} {s : List Char} {ws : List (List Char)}
    (h : wordsFrom p s = .ok ws) : span ws ≤ s.length + p.credit := by
  induction s generalizing p ws with
  | nil => cases p <;> simp [wordsFrom] at h <;> subst h <;> simp [span, Place.credit]
  | cons c s ih =>
      -- what the move spends is paid by the character and by the place
      have hcost := p.cost_move c
      rw [wordsFrom] at h
      simp only [List.length_cons]
      cases hm : p.move c with
      | skip =>
          simp only [hm, Move.cost] at h hcost
          have := ih h
          omega
      | close =>
          simp only [hm, Move.cost] at h hcost
          cases hw : wordsFrom .gap s with
          | error e => simp [hw, Except.map] at h
          | ok rest =>
              simp only [hw, Except.map, Except.ok.injEq] at h
              have := ih hw
              subst h
              simp only [span, List.length_nil] at *
              omega
      | turn next =>
          simp only [hm, Move.cost] at h hcost
          have := ih h
          omega
      | take cs next =>
          simp only [hm, Move.cost] at h hcost
          cases hw : wordsFrom next s with
          | error e => simp [hw, Except.map] at h
          | ok rest =>
              simp only [hw, Except.map, Except.ok.injEq] at h
              have hrest := ih hw
              have hext := span_extend cs rest
              have := next.credit_pos
              subst h
              omega

/-- The words, with one separator between neighbours, are no longer than the text. -/
theorem length_split {s : String} {ws : List String} (h : split s = .ok ws) :
    span (ws.map String.toList) ≤ s.length + 1 := by
  rw [split] at h
  cases hw : wordsFrom .gap s.toList with
  | error e => simp [hw, Except.map] at h
  | ok rest =>
      simp only [hw, Except.map, Except.ok.injEq] at h
      have := span_wordsFrom hw
      subst h
      simpa [span, Place.credit, Function.comp_def, String.length_toList] using this

end HostPrereqs.Words
