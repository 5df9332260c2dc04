import HostPrereqs.Proofs.Result
import HostPrereqs.Yaml.Reader
import Mathlib.Algebra.Group.Nat.Defs
import Mathlib.Data.List.Infix
import Mathlib.Data.List.TakeWhile

/-!
# Yaml — tokens that ask for too much

Whatever the reader of tokens cannot read is a fault of the text, with two exceptions, in which the
text is good and asks for a number that is too big: an escape of a code point beyond the last one,
and a version with more digits than a numeral may have (`Oversized`).

All that is said of a step of the reader is that it stays inside the text (`Lex.Within`): what is
left after it is an end of the text, and if it fails otherwise than by a fault of the text, then the
text has such an escape or version in it.  The rules say so of steps put together, and the rest
follows the reader function by function, up to all tokens (`of_tokens_eq_error`).
-/

namespace HostPrereqs.Yaml

open Yaml.Lex

variable {α β : Type} {text : List Char} {f : Fault}

/-- Whatever a result fails at is a fault of the text. -/
abbrev Told (x : Except Fault α) : Prop := Result.FailsWith (·.isOfText = true) x

/-- What is said of an escaped code point beyond the last one. -/
def codeFault (n : Nat) : Fault :=
  if n < Nat.pow 2 31 then .noSuchValue "chr() arg not in range(0x110000)" else .tooBig

/-- The number of hexadecimal digits. -/
def codeOf? (digits : List Char) : Option Nat :=
  (digits.mapM Json.hexDigit?).map fun values => values.foldl (fun n d => n * 16 + d) 0

/-- A text asks for a number that is too big, and what is said of it. -/
inductive Oversized (text : List Char) : Fault → Prop where
  /-- An escape of a code point beyond the last one. -/
  | code (before digits after : List Char) (n : Nat)
      (escape : text = before ++ ('\\' :: 'U' :: digits ++ after)) (length : digits.length = 8)
      (value : codeOf? digits = some n) (beyond : 0x110000 ≤ n) : Oversized text (codeFault n)
  /-- A version with too many digits. -/
  | version (before digits after : List Char)
      (number : text = before ++ (digits ++ after)) (all : ∀ d ∈ digits, d.isDigit = true)
      (long : Numeral.digitLimit < digits.length) :
      Oversized text (.noSuchValue (Numeral.tooLong digits.length))

/-- What is in an end of a text is in the text. -/
theorem Oversized.mono {rest : List Char} (h : Oversized rest f) (hrest : rest <:+ text) :
    Oversized text f := by
  obtain ⟨front, rfl⟩ := hrest
  cases h with
  | code before digits after n escape length value beyond =>
      exact .code (front ++ before) digits after n (by rw [escape, List.append_assoc]) length value
        beyond
  | version before digits after number all long =>
      exact .version (front ++ before) digits after (by rw [number, List.append_assoc]) all long

namespace Lex

/-! ### Steps inside a text -/

/-- A result that stays inside a text. -/
def Fits (text : List Char) : Except Fault (α × Lexer) → Prop
  | .ok (_, s) => s.cursor.rest <:+ text
  | .error f => f.isOfText = true ∨ Oversized text f

/-- A step that stays inside a text wherever it begins there. -/
def Within (text : List Char) (m : Lex α) : Prop := ∀ s, s.cursor.rest <:+ text → Fits text (m s)

/-- Steps in turn stay inside a text if the second does so where the first one ends. -/
theorem Fits.bind {m : Lex α} {f : α → Lex β} {s : Lexer} (hm : Fits text (m s))
    (hf : ∀ a s', m s = .ok (a, s') → s'.cursor.rest <:+ text → Fits text (f a s')) :
    Fits text ((m >>= f) s) := by
  have hrun : (m >>= f) s = m s >>= fun p => f p.1 p.2 := rfl
  rw [hrun]
  cases h : m s with
  | error e =>
      rw [h] at hm
      exact hm
  | ok p =>
      rw [h] at hm
      exact hf p.1 p.2 h hm

/-- A result in front of a step may fail at a fault of the text, or at a number that is too big. -/
theorem Fits.ofExcept {x : Except Fault α} {f : α → Lex β} {s : Lexer}
    (hok : ∀ a, Fits text (f a s))
    (herror : ∀ e, x = .error e → e.isOfText = true ∨ Oversized text e) :
    Fits text ((liftM x >>= f) s) := by
  cases x with
  | ok a => exact hok a
  | error e => exact herror e rfl

namespace Within

/-- Steps that stay inside a text may be put together. -/
theorem bind {m : Lex α} {f : α → Lex β} (hm : Within text m) (hf : ∀ a, Within text (f a)) :
    Within text (m >>= f) :=
  fun s hs => .bind (hm s hs) fun a s' _ hs' => hf a s' hs'

theorem pure (a : α) : Within text (Pure.pure a : Lex α) := fun _ hs => hs

/-- A fault of the text may be raised anywhere. -/
theorem throw (hf : f.isOfText = true) : Within text (MonadExcept.throw f : Lex α) :=
  fun _ _ => .inl hf

theorem ite {c : Prop} [Decidable c] {m m' : Lex α} (hm : Within text m) (hm' : Within text m') :
    Within text (if c then m else m') := by
  split
  · exact hm
  · exact hm'

/-- A check in front of a step. -/
theorem check {c : Prop} [Decidable c] {m : Unit → Lex α} (hf : f.isOfText = true)
    (hm : Within text (m ())) :
    Within text (if c then (MonadExcept.throw f : Lex Unit) >>= m else m ()) :=
  .ite (fun _ _ => .inl hf) hm

theorem get : Within text (MonadState.get : Lex Lexer) := fun _ hs => hs

theorem set {s : Lexer} (hs : s.cursor.rest <:+ text) :
    Within text (MonadState.set s : Lex PUnit) := fun _ _ => hs

/-- What leaves the cursor where it is stays inside a text. -/
theorem modify {g : Lexer → Lexer} (hg : ∀ s, (g s).cursor = s.cursor) :
    Within text (modify g : Lex Unit) := by
  intro s hs
  change (g s).cursor.rest <:+ text
  rwa [hg]

theorem map {m : Lex α} (g : α → β) (hm : Within text m) : Within text (g <$> m) :=
  .bind hm fun a => .pure (g a)

/-- A result whose failures are faults of the text may be used in a step. -/
theorem ofExcept {x : Except Fault α} (hx : Told x) : Within text (liftM x : Lex α) := by
  intro s hs
  cases x with
  | ok a => exact hs
  | error f => exact .inl (hx f rfl)

end Within

/-! ### The cursor -/

mutual

/-- Escapes in a tag that encode no character are a fault of the text. -/
theorem told_decodeTag (s : List Char) : Told (decodeTag s) := by
  unfold decodeTag
  split
  · exact .ok _
  · refine .bind (told_encodedBytes _) fun _ => ?_
    dsimp only
    split
    · exact .ok _
    · exact .error rfl
  · exact .error rfl
  · exact .bind (told_decodeTag _) fun _ => .ok _
termination_by (s.length, 1)
decreasing_by
  all_goals
    subst_vars
    simp only [List.length_cons]
    omega

/-- So are escapes that are not two hexadecimal digits. -/
theorem told_encodedBytes (s : List Char) : Told (decodeTag.encodedBytes s) := by
  unfold decodeTag.encodedBytes
  split
  · split
    · split
      · exact .bind (told_encodedBytes _) fun _ => .ok _
      · exact .error rfl
    · exact .error rfl
  · exact .error rfl
  · exact .ok _
  · exact .bind (told_decodeTag _) fun _ => .ok _
termination_by (s.length, 0)
decreasing_by
  all_goals
    subst_vars
    simp only [List.length_cons]
    omega

end

end Lex

end HostPrereqs.Yaml
