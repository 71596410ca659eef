/-!
# TypeBridge — lines, columns and excerpts

Where a place in a text is for a reader: its line and column, and the piece of
the line around it with a caret below. Only a line feed ends a line. `caret`
knows that a tab reaches to the next multiple of eight columns and that a
carriage return goes back to the first one.
-/

namespace TypeBridge

namespace Text

/-- A place in a text, counted from one by line and column. -/
structure Position where
  line : Nat
  column : Nat
deriving DecidableEq

namespace Position

/-- The place after some text: one line further for each line feed, and in
the column behind what follows the last. -/
def after (before : List Char) : Position where
  line := before.count '\n' + 1
  column := (before.reverse.takeWhile (· ≠ '\n')).length + 1

end Position

namespace Excerpt

/-- How far an excerpt reaches to each side. -/
def reach : Nat := 40

/-- The end of the text before a place, within its line. -/
def before (text : List Char) : List Char :=
  ((text.reverse.take reach).takeWhile (· ≠ '\n')).reverse

/-- The start of the text from a place on, within its line. -/
def after (text : List Char) : List Char :=
  (text.take reach).takeWhile (· ≠ '\n')

/-- How many columns a piece of a line takes: what is written so far, and the
column where the next character goes. -/
def expandedLength : (written column : Nat) → List Char → Nat
  | written, _, [] => written
  | written, column, '\t' :: rest =>
    let fill := 8 - column % 8
    expandedLength (written + fill) (column + fill) rest
  | written, column, c :: rest =>
    expandedLength (written + 1) (if c = '\r' ∨ c = '\n' then 0 else column + 1) rest

end Excerpt

/-- The line around a place, with a caret below the place. -/
def excerpt (before after : List Char) : String :=
  let head := Excerpt.before before
  let indent := List.replicate (Excerpt.expandedLength 0 0 head) ' '
  String.ofList (head ++ Excerpt.after after) ++ "\n" ++ String.ofList indent ++ "^\n"

end Text

end TypeBridge
