import HostPrereqs.Text.Blank

/-!
# Text — lines of limited width

A paragraph is a sequence of words, and a word is one piece or, with hyphens between letters,
several.  Lines are filled with as many pieces as fit (`fill`); a line that holds one piece only
may be wider.
-/

namespace HostPrereqs.Text

/-- The words of a text between blanks. -/
def words (s : List Char) : List (List Char) :=
  match s with
  | [] => []
  | c :: r =>
      if isBlank c then words r
      else
        match r, words r with
        | d :: _, w :: ws => if isBlank d then [c] :: w :: ws else (c :: w) :: ws
        | _, ws => [c] :: ws

/-- Whether a line may end after a hyphen that stands between these texts. -/
def breaksBetween (before after : List Char) : Bool :=
  match before, after with
  | a :: b :: _, c :: d :: _ => a.isAlpha && b.isAlpha && c.isAlpha && d.isAlpha
  | _, _ => false

/-- The pieces of a word; `before` is what has been read of the first one, backwards. -/
def pieces (before : List Char) : List Char → List (List Char)
  | [] => if before.isEmpty then [] else [before.reverse]
  | c :: r =>
      if c = '-' && breaksBetween before r then (c :: before).reverse :: pieces [] r
      else pieces (c :: before) r

/-- A piece, and whether a blank is before it. -/
structure Piece where
  startsWord : Bool
  text : List Char

/-- The pieces of a paragraph. -/
def paragraphPieces (s : String) : List Piece :=
  (words s.toList).flatMap fun w =>
    match pieces [] w with
    | [] => []
    | p :: ps => ⟨true, p⟩ :: ps.map (⟨false, ·⟩)

/-- Fills lines with pieces; `line` is what is in the first one. -/
def fill (width : Nat) (line : List Char) : List Piece → List (List Char)
  | [] => [line]
  | p :: ps =>
      let longer := line ++ (if p.startsWord then [' '] else []) ++ p.text
      if longer.length ≤ width then fill width longer ps else line :: fill width p.text ps

/-- The lines of a paragraph. -/
def wrap (width : Nat) (s : String) : List String :=
  match paragraphPieces s with
  | [] => []
  | p :: ps => (fill width p.text ps).map String.ofList

/-- No line that is ended for want of room could have held the next piece. -/
theorem fill_cons {width : Nat} {line : List Char} {p : Piece} {ps : List Piece}
    (h : width < (line ++ (if p.startsWord then [' '] else []) ++ p.text).length) :
    fill width line (p :: ps) = line :: fill width p.text ps := by
  rw [fill, if_neg (Nat.not_le.2 h)]

end HostPrereqs.Text
