import TypeBridge.Text.Shown
import TypeBridge.Text.Surrogate
/-!
# TypeBridge — quoted text

Text as reports show it: between single quotes, or between double quotes when
it holds a single one and no double one, with everything that would not show
escaped.
-/

namespace TypeBridge

namespace Text

/-- The digits of a number in lower-case hexadecimal, filled up with zeros to
a width. -/
def hexDigits (width n : Nat) : String :=
  let digits := Nat.toDigits 16 n
  String.ofList (List.replicate (width - digits.length) '0' ++ digits)

namespace Quoted

/-- The quote to put around a text. -/
def delimiter (text : List Char) : Char :=
  if '\'' ∈ text ∧ '"' ∉ text then '"' else '\''

/-- A character that does not show, by the shortest escape that holds it. -/
def numericEscape (code : Nat) : String :=
  if code ≤ 0xff then "\\x" ++ hexDigits 2 code
  else if code ≤ 0xffff then "\\u" ++ hexDigits 4 code
  else "\\U" ++ hexDigits 8 code

/-- One character of a quoted text. -/
def escapeChar (delimiter c : Char) : String :=
  if c = delimiter ∨ c = '\\' then "\\" ++ c.toString
  else if c = '\n' then "\\n"
  else if c = '\r' then "\\r"
  else if c = '\t' then "\\t"
  else if isShown c then c.toString
  else numericEscape c.toNat

/-- One point of a quoted text. -/
def escape (delimiter : Char) : Point → String
  | .char c => escapeChar delimiter c
  | .half unit => numericEscape unit

end Quoted

/-- A text between quotes. -/
def quoted (text : String) : String :=
  let d := Quoted.delimiter text.toList
  d.toString ++ String.join ((points text.toList).map (Quoted.escape d)) ++ d.toString

/-- A text with escapes in the place of lone halves, so that it can be
written. -/
def writable (text : String) : String :=
  String.join ((points text.toList).map fun
    | .char c => c.toString
    | .half unit => Quoted.numericEscape unit)

end Text

end TypeBridge
