import TypeBridge.Markup.Plain
import TypeBridge.Text.Cells
import TypeBridge.Text.Filled
import TypeBridge.Text.Narrowed
/-!
# TypeBridge — tables on a plain terminal

A console that shows no styles, for a terminal of some width. A table is a grid
of columns: every cell is filled up to the longest of its column and two blanks
follow it, the last of a row included. A cell may take several lines, and only
where the terminal is too narrow are the columns narrower than what is in them.
With no room for more than those two blanks nothing is read of the cells.
-/

namespace TypeBridge

namespace Grid

/-- The blanks behind a cell. -/
def gap : Nat := 2

/-- The widths that hold two rows. -/
def widest (a b : List Nat) : List Nat :=
  List.zipWith max a b

/-- The widths of the columns with the blanks behind them. -/
def widths (limit : Nat) (headings : List String) (rows : List (List String)) : List Nat :=
  let ofRow (row : List String) := row.map fun cell => Text.Cells.widest cell.toList + gap
  Text.narrowed limit ((rows.map ofRow).foldl widest (ofRow headings))

/-- A cell in lines of the width of its column. There are none in a column
with no room. -/
def cellLines (width : Nat) (cell : String) : List String :=
  if width ≤ gap then []
  else
    (Text.Cells.lines (width - gap) cell.toList).map fun line =>
      String.ofList line ++ Text.blanks gap

/-- The lines of a row. Headings stand at the lower end of theirs, and other
cells at the upper one. -/
def rowText (widths : List Nat) (isHeading : Bool) (cells : List String) : String :=
  let columns := List.zipWith (fun width cell => (width, cellLines width cell)) widths cells
  let height := (columns.map (·.2.length)).foldl max 1
  let filled : List (List String) := columns.map fun (width, lines) =>
    let missing := List.replicate (height - lines.length) (Text.blanks width)
    if isHeading then missing ++ lines else lines ++ missing
  let line (n : Nat) := String.join (filled.map fun lines => lines.getD n "") ++ "\n"
  String.join ((List.range height).map line)

/-- A table on a terminal of some width. -/
def text (limit : Nat) (headings : List String) (rows : List (List String)) :
    Except Markup.Fault String := do
  if limit ≤ gap then
    return String.join (List.replicate (rows.length + 1) (Text.blanks limit ++ "\n"))
  let headings ← headings.mapM Markup.plain
  let rows ← rows.mapM fun row => row.mapM Markup.plain
  let widths := widths limit headings rows
  return rowText widths true headings ++ String.join (rows.map (rowText widths false))

end Grid

/-- A word in lines that are broken where they are full, with some room left in
the first of them. -/
def Console.folded (width : Nat) : (room : Nat) → List Char → List Char
  | _, [] => ['\n']
  | 0, c :: rest => '\n' :: c :: folded width (width - 1) rest
  | room + 1, c :: rest => c :: folded width room rest

/-- The console of a plain terminal. Nothing goes on one without columns. -/
def Console.terminal (width : Nat) : Console where
  line markup :=
    if width = 0 then .ok ""
    else (Markup.plain markup).map fun text => String.ofList (folded width width text.toList)
  table headings rows := if width = 0 then .ok "" else Grid.text width headings rows

end TypeBridge
