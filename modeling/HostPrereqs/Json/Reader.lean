import HostPrereqs.Number.Numeral
import HostPrereqs.Value.Basic

/-!
# Json — reading

The reader takes JSON with three more numbers (`NaN`, `Infinity`, `-Infinity`).  A numeral
without point and exponent is an integer of any size, any other is rounded to a double.  Of a
name that an object has twice the last value counts.

An escape for one half of a surrogate pair without the other has no character.  It is read as
U+FFFD, so that names which differ in such escapes alone become one.  Whether a text can be read
does not depend on this; what is said of the value of a text is meant of texts without them.

Every reader of a part returns the text after it, with the proof that it is shorter, and ends by
the length of the text.  A failure remembers how much text was left where it happened
(`Fault.left`), from which `SyntaxError` finds the line and the column.

* `isSpace`: what may stand between two parts.
* `read`: the value of a whole text.
-/

namespace HostPrereqs.Json

/-- What a text can fail at. -/
inductive Problem where
  | byteOrderMark
  | noValue
  | noName
  | noColon
  | noComma
  | moreText
  | openString
  | controlCharacter
  | badEscape
  | badCode
  /-- An integer with too many digits, which is no fault of the text. -/
  | hugeNumber (digits : Nat)
deriving DecidableEq, Repr

def Problem.message : Problem → String
  | byteOrderMark    => "Unexpected UTF-8 BOM (decode using utf-8-sig)"
  | noValue          => "Expecting value"
  | noName           => "Expecting property name enclosed in double quotes"
  | noColon          => "Expecting ':' delimiter"
  | noComma          => "Expecting ',' delimiter"
  | moreText         => "Extra data"
  | openString       => "Unterminated string starting at"
  | controlCharacter => "Invalid control character at"
  | badEscape        => "Invalid \\escape"
  | badCode          => "Invalid \\uXXXX escape"
  | hugeNumber digits => Numeral.tooLong digits

/-- Whether a problem is told as a fault of the text. -/
def Problem.isOfText : Problem → Bool
  | hugeNumber _ => false
  | _            => true

/-- A problem, and the number of characters from it to the end of the text. -/
structure Fault where
  problem : Problem
  left : Nat
deriving DecidableEq, Repr

/-- A rest of `s` that is shorter than `s`. -/
abbrev Rest (s : List Char) := { r : List Char // r.length < s.length }

/-- A part that was read, and what is left. -/
abbrev Read (α : Type) (s : List Char) := Except Fault (α × Rest s)

/-- Characters that may stand between two parts. -/
def isSpace (c : Char) : Bool := c = ' ' || c = '\t' || c = '\n' || c = '\r'

def skip (s : List Char) : List Char := s.dropWhile isSpace

theorem length_dropWhile_le {α : Type} (p : α → Bool) (s : List α) :
    (s.dropWhile p).length ≤ s.length := by
  induction s with
  | nil => simp
  | cons c s ih =>
      rw [List.dropWhile_cons]
      split
      · exact Nat.le_succ_of_le ih
      · exact Nat.le_refl _

theorem length_skip_le (s : List Char) : (skip s).length ≤ s.length := length_dropWhile_le _ _

/-! ### Strings -/

def hexDigit? (c : Char) : Option Nat :=
  if c.isDigit then some (c.toNat - 48)
  else if 'a' ≤ c ∧ c ≤ 'f' then some (c.toNat - 87)
  else if 'A' ≤ c ∧ c ≤ 'F' then some (c.toNat - 55)
  else none

/-- The number of four hexadecimal digits. -/
def hexCode? (a b c d : Char) : Option Nat := do
  let a ← hexDigit? a
  let b ← hexDigit? b
  let c ← hexDigit? c
  let d ← hexDigit? d
  return ((a * 16 + b) * 16 + c) * 16 + d

/-- The character of an escape by one letter. -/
def simpleEscape? : Char → Option Char
  | '"'  => some '"'
  | '\\' => some '\\'
  | '/'  => some '/'
  | 'b'  => some '\x08'
  | 'f'  => some '\x0c'
  | 'n'  => some '\n'
  | 'r'  => some '\r'
  | 't'  => some '\t'
  | _    => none

def isHighHalf (n : Nat) : Bool := 0xd800 ≤ n && n < 0xdc00

def isLowHalf (n : Nat) : Bool := 0xdc00 ≤ n && n < 0xe000

/-- A code point as a character; half of a pair stands for the replacement character. -/
def codeChar (n : Nat) : Char := if h : n.isValidChar then Char.ofNatAux n h else '\ufffd'

/-- The character that two halves make up. -/
def joinHalves (high low : Nat) : Char :=
  codeChar (0x10000 + (high - 0xd800) * 0x400 + (low - 0xdc00))

/-- The character of a code that was escaped, and what is left.  The high half of a pair takes the
escape of the low half with it, if that follows. -/
def finishCode (code : Nat) (s : List Char) :
    Except Fault (Char × { r : List Char // r.length ≤ s.length }) :=
  match s with
  | '\\' :: 'u' :: a :: b :: c :: d :: next :: r =>
      if isHighHalf code then
        match hexCode? a b c d with
        | none => .error ⟨.badCode, r.length + 6⟩
        | some low =>
            if isLowHalf low then .ok (joinHalves code low, ⟨next :: r, by simp⟩)
            else .ok (codeChar code, ⟨_, Nat.le_refl _⟩)
      else .ok (codeChar code, ⟨_, Nat.le_refl _⟩)
  | s => .ok (codeChar code, ⟨s, Nat.le_refl _⟩)

/-- The characters of a string up to its closing quote, and what is left.  `start` is the number
of characters from the opening quote to the end of the text. -/
def stringBody (start : Nat) : (s : List Char) → Read (List Char) s
  | [] => .error ⟨.openString, start⟩
  | '"' :: r => .ok ([], ⟨r, by simp⟩)
  | ['\\'] => .error ⟨.openString, start⟩
  | '\\' :: 'u' :: a :: b :: c :: d :: next :: r =>
      match hexCode? a b c d with
      | none => .error ⟨.badCode, r.length + 6⟩
      | some code =>
          match finishCode code (next :: r) with
          | .error e => .error e
          | .ok (char, ⟨r', hr'⟩) =>
              (stringBody start r').map fun (cs, rest) =>
                (char :: cs,
                  ⟨rest.1, by have := rest.2; simp only [List.length_cons] at *; omega⟩)
  | '\\' :: 'u' :: r => .error ⟨.badCode, r.length + 1⟩
  | '\\' :: e :: r =>
      match simpleEscape? e with
      | none => .error ⟨.badEscape, r.length + 2⟩
      | some c =>
          (stringBody start r).map fun (cs, rest) =>
            (c :: cs, ⟨rest.1, by have := rest.2; simp only [List.length_cons] at *; omega⟩)
  | c :: r =>
      if c.toNat < 32 then .error ⟨.controlCharacter, r.length + 1⟩
      else
        (stringBody start r).map fun (cs, rest) =>
          (c :: cs, ⟨rest.1, by have := rest.2; simp only [List.length_cons] at *; omega⟩)
termination_by s => s.length
decreasing_by
  all_goals
    simp only [List.length_cons] at *
    omega

/-! ### Numbers -/

/-- The digits at the front of a text, and what is left. -/
def spanDigits (s : List Char) : List Char × List Char :=
  (s.takeWhile Char.isDigit, s.dropWhile Char.isDigit)

def digitsValue (ds : List Char) : Nat := ds.foldl (fun n d => n * 10 + (d.toNat - 48)) 0

/-- The digits of a whole number: zero alone, or digits that do not start with zero. -/
def wholeDigits : List Char → Option (List Char × List Char)
  | '0' :: r => some (['0'], r)
  | s =>
      match spanDigits s with
      | ([], _) => none
      | ds => some ds

/-- The digits after a point, if there are any. -/
def fraction (s : List Char) : List Char × List Char :=
  match s with
  | '.' :: r =>
      match spanDigits r with
      | ([], _) => ([], s)
      | ds => ds
  | _ => ([], s)

/-- The power of ten after an `e`, if there is one. -/
def exponent (s : List Char) : Option Int × List Char :=
  match s with
  | e :: r =>
      if e = 'e' ∨ e = 'E' then
        let (negative, digits) := match r with
          | '-' :: r => (true, r)
          | '+' :: r => (false, r)
          | r => (false, r)
        match spanDigits digits with
        | ([], _) => (none, s)
        | (ds, rest) => (some (if negative then -(digitsValue ds : Int) else digitsValue ds), rest)
      else (none, s)
  | [] => (none, s)

/-- Reads a numeral without its sign. -/
def numeral (negative : Bool) (s : List Char) : Option (Value × List Char) := do
  let (whole, afterWhole) ← wholeDigits s
  let (frac, afterFraction) := fraction afterWhole
  let (power, rest) := exponent afterFraction
  if frac.isEmpty && power.isNone then
    let n : Int := digitsValue whole
    return (.int (if negative then -n else n), rest)
  else
    return (.float (.ofDecimal negative (digitsValue (whole ++ frac))
      (power.getD 0 - frac.length)), rest)

/-- The words that stand for a value. -/
def constants : List (String × Value) :=
  [("null", .null), ("true", .bool true), ("false", .bool false), ("NaN", .float .nan),
    ("Infinity", .float (.infinity false)), ("-Infinity", .float (.infinity true))]

/-- What follows a word at the front of a text. -/
def after? : List Char → List Char → Option (List Char)
  | [], s => some s
  | _ :: _, [] => none
  | w :: ws, c :: s => if w = c then after? ws s else none

/-- Reads a constant or a number. -/
def scalar? (s : List Char) : Option (Value × List Char) :=
  let constant := constants.findSome? fun (word, value) =>
    (after? word.toList s).map fun rest => (value, rest)
  constant <|>
    match s with
    | '-' :: r => numeral true r
    | _ => numeral false s

/-- The number of digits of an integer that was written in front of `r`. -/
def digitCount (v : Value) (s r : List Char) : Nat :=
  match v with
  | .int _ => s.length - r.length - (if s.head? = some '-' then 1 else 0)
  | _ => 0

/-- Reads a constant or a number and makes sure that something was read. -/
def scalar (s : List Char) : Read Value s :=
  match scalar? s with
  | some (v, r) =>
      if h : r.length < s.length then
        let digits := digitCount v s r
        if Numeral.digitLimit < digits then .error ⟨.hugeNumber digits, s.length⟩
        else .ok (v, ⟨r, h⟩)
      else .error ⟨.noValue, s.length⟩
  | none => .error ⟨.noValue, s.length⟩

/-! ### Values -/

mutual

/-- Reads a value that starts at the front of the text. -/
def value (s : List Char) : Read Value s :=
  match s with
  | '"' :: r =>
      (stringBody s.length r).map fun (cs, rest) =>
        (.str (String.ofList cs),
          ⟨rest.1, by have := rest.2; simp only [List.length_cons]; omega⟩)
  | '[' :: r =>
      match h : skip r with
      | ']' :: r' =>
          .ok (.list [], ⟨r', by have := length_skip_le r; simp [h] at this; simp; omega⟩)
      | _ =>
          (items (skip r)).map fun (xs, rest) =>
            (.list xs, ⟨rest.1, by
              have := rest.2; have := length_skip_le r; simp only [List.length_cons]; omega⟩)
  | '\x7b' :: r =>
      match h : skip r with
      | '\x7d' :: r' =>
          .ok (.map [], ⟨r', by have := length_skip_le r; simp [h] at this; simp; omega⟩)
      | _ =>
          (members (skip r)).map fun (es, rest) =>
            (.ofPairs es, ⟨rest.1, by
              have := rest.2; have := length_skip_le r; simp only [List.length_cons]; omega⟩)
  | s => scalar s
termination_by (s.length, 1)
decreasing_by
  all_goals
    have := length_skip_le r
    simp only [List.length_cons]
    omega

/-- Reads the items of a list up to the closing bracket. -/
def items (s : List Char) : Read (List Value) s :=
  match value s with
  | .error e => .error e
  | .ok (x, ⟨r, hr⟩) =>
      match h : skip r with
      | ']' :: r' =>
          .ok ([x], ⟨r', by have := length_skip_le r; simp [h] at this; omega⟩)
      | ',' :: r' =>
          (items (skip r')).map fun (xs, rest) =>
            (x :: xs, ⟨rest.1, by
              have := rest.2; have := length_skip_le r; have := length_skip_le r'
              simp [h] at *; omega⟩)
      | r' => .error ⟨.noComma, r'.length⟩
termination_by (s.length, 2)
decreasing_by
  · omega
  · have := length_skip_le r
    have := length_skip_le r'
    simp [h] at *
    omega

/-- Reads the members of an object up to the closing brace. -/
def members (s : List Char) : Read (List (Value × Value)) s :=
  match s with
  | '"' :: r =>
      match stringBody s.length r with
      | .error e => .error e
      | .ok (name, ⟨r₁, h₁⟩) =>
          match hc : skip r₁ with
          | ':' :: r₂ =>
              match value (skip r₂) with
              | .error e => .error e
              | .ok (v, ⟨r₃, h₃⟩) =>
                  let pair := (Value.str (String.ofList name), v)
                  match he : skip r₃ with
                  | '\x7d' :: r₄ =>
                      .ok ([pair], ⟨r₄, by
                        have := length_skip_le r₁; have := length_skip_le r₂
                        have := length_skip_le r₃
                        simp only [hc, he, List.length_cons] at *; omega⟩)
                  | ',' :: r₄ =>
                      (members (skip r₄)).map fun (es, rest) =>
                        (pair :: es, ⟨rest.1, by
                          have := length_skip_le r₁; have := length_skip_le r₂
                          have := length_skip_le r₃; have := length_skip_le r₄
                          have := rest.2
                          simp only [hc, he, List.length_cons] at *; omega⟩)
                  | r₄ => .error ⟨.noComma, r₄.length⟩
          | r₂ => .error ⟨.noColon, r₂.length⟩
  | s => .error ⟨.noName, s.length⟩
termination_by (s.length, 0)
decreasing_by
  · have := length_skip_le r₁
    have := length_skip_le r₂
    simp only [hc, List.length_cons] at *
    omega
  · have := length_skip_le r₁
    have := length_skip_le r₂
    have := length_skip_le r₃
    have := length_skip_le r₄
    simp only [hc, he, List.length_cons] at *
    omega

end

/-- Reads a whole text. -/
def readChars (s : List Char) : Except Fault Value :=
  if s.head? = some '\ufeff' then .error ⟨.byteOrderMark, s.length⟩
  else
    match value (skip s) with
    | .error e => .error e
    | .ok (v, rest) =>
        let after := skip rest.1
        if after.isEmpty then .ok v else .error ⟨.moreText, after.length⟩

/-- A problem and where in the text it is. -/
structure SyntaxError where
  problem : Problem
  line : Nat
  column : Nat
  offset : Nat
deriving DecidableEq, Repr

/-- The place of a fault: lines and columns are counted from one, characters from zero. -/
def locate (s : List Char) (f : Fault) : SyntaxError :=
  let before := s.take (s.length - f.left)
  let onLine := (before.reverse.takeWhile (· ≠ '\n')).length
  ⟨f.problem, before.count '\n' + 1, onLine + 1, before.length⟩

def SyntaxError.message (e : SyntaxError) : String :=
  s!"{e.problem.message}: line {e.line} column {e.column} (char {e.offset})"

/-- The value of a text. -/
def read (text : String) : Except SyntaxError Value :=
  (readChars text.toList).mapError (locate text.toList)

end HostPrereqs.Json
