import TypeBridge.Text.Blank
/-!
# TypeBridge — the width of the terminal

How wide help and tables may be, by the number of columns that the environment
gives. Help is never wider than a page nor narrower than fifty columns, and it
takes any way to write a number. A table takes digits alone.
-/

namespace TypeBridge

namespace Command

namespace Terminal

/-- The columns of a terminal that says nothing of them. -/
def usualColumns : Nat := 80

/-- The number that digits stand for, single low lines between them allowed. -/
def digits? (text : List Char) : Option Nat :=
  let groups := text.splitOn '_'
  if groups.all fun group => !group.isEmpty && group.all Char.isDigit then
    (String.ofList groups.flatten).toNat?
  else none

/-- The number of columns in a text, if it is one above zero. -/
def columns? (text : String) : Option Nat :=
  let unsigned :=
    match Text.trimmed text.toList with
    | '+' :: rest => rest
    | rest => rest
  (digits? unsigned).filter (0 < ·)

/-- The width of help. -/
def helpWidth (columns : Option String) : Nat :=
  max (min ((columns.bind columns?).getD usualColumns) usualColumns - 2) 50

/-- The width of a table. -/
def tableWidth (columns : Option String) : Nat :=
  match columns with
  | some text =>
    if !text.isEmpty ∧ text.toList.all Char.isDigit then text.toNat?.getD usualColumns
    else usualColumns
  | none => usualColumns

end Terminal

end Command

end TypeBridge
