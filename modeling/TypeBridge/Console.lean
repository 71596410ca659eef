/-!
# TypeBridge — consoles

Tables for people go to a console, and a console reads what it is given as
markup: words between brackets ask for a style and are not shown. Names of the
user's are given to it like everything else, so it may find fault with them. How
it reads markup, lays out a table and shows it is a matter of the console alone.
-/

namespace TypeBridge

/-- What is wrong with markup. -/
inductive Markup.Fault
  /-- A tag that closes nothing. -/
  | nothingToClose
  /-- A handler whose arguments are no constant. -/
  | badArguments
  /-- A colour with an amount that has no digits. -/
  | missingAmount
deriving DecidableEq

/-- What a console makes of markup: the text that it writes, unless something is
wrong with the markup. -/
structure Console where
  /-- A line. -/
  line : String → Except Markup.Fault String
  /-- The headings of a table, and its rows. -/
  table : List String → List (List String) → Except Markup.Fault String

end TypeBridge
