/-!
# Output — grids

A grid shows rows of cells under a header, in columns as wide as their widest cell.
-/

namespace HostPrereqs.Grid

/-- The widths of the columns of rows. -/
def widths : List (List String) → List Nat
  | [] => []
  | row :: rows => combine (row.map (·.length)) (widths rows)
where
  /-- The greater number at each place. -/
  combine : List Nat → List Nat → List Nat
    | a :: as, b :: bs => max a b :: combine as bs
    | [], bs => bs
    | as, [] => as

/-- A text with blanks up to a width. -/
def cell (width : Nat) (s : String) : String :=
  s ++ String.ofList (List.replicate (width - s.length) ' ')

/-- A row between upright lines. -/
def row (line : String) (ws : List Nat) (cells : List String) : String :=
  line ++ " " ++ (" " ++ line ++ " ").intercalate (List.zipWith cell ws cells) ++ " " ++ line

/-- A line across, of the given left end, stroke, crossing and right end. -/
def rule (left : String) (stroke : Char) (crossing right : String) (ws : List Nat) : String :=
  let strokes := ws.map fun w => String.ofList (List.replicate (w + 2) stroke)
  left ++ crossing.intercalate strokes ++ right

/-- The lines of a grid. -/
def lines (header : List String) (rows : List (List String)) : List String :=
  let ws := widths (header :: rows)
  [rule "┏" '━' "┳" "┓" ws, row "┃" ws header, rule "┡" '━' "╇" "┩" ws]
    ++ rows.map (row "│" ws) ++ [rule "└" '─' "┴" "┘" ws]

def render (header : List String) (rows : List (List String)) : String :=
  "".intercalate ((lines header rows).map (· ++ "\n"))

end HostPrereqs.Grid
