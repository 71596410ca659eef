import TypeBridge.Text.Blank
/-!
# TypeBridge — text in cells

How a text fits into a column of character cells. A control character takes no
cell and every other one takes one. Lines are broken before a word that goes
past the width, what still does is cut with dots, and a shorter line is filled
up.
-/

namespace TypeBridge

namespace Text

namespace Cells

/-- The cells of a character. -/
def ofChar (c : Char) : Nat :=
  if c.toNat < 0x20 ∨ (0x7f ≤ c.toNat ∧ c.toNat ≤ 0x9f) then 0 else 1

def count : List Char → Nat
  | [] => 0
  | c :: rest => ofChar c + count rest

/-- What ends a line when the width of a text is asked for. -/
def endsLine (c : Char) : Bool :=
  c = '\n' || c = '\x0b' || c = '\x0c' || c = '\r' || ('\x1c' ≤ c && c ≤ '\x1e') ||
    c.toNat = 0x85 || c.toNat = 0x2028 || c.toNat = 0x2029

/-- The cells of the longest line of a text. -/
def widest (text : List Char) : Nat :=
  ((text.splitOnP endsLine).map count).foldl max 0

/-- A line with blanks for tabs, each of which reaches to the next multiple of
eight cells, from some cell on. -/
def expandTabs (column : Nat) : List Char → List Char
  | [] => []
  | '\t' :: rest =>
    let gap := 8 - column % 8
    List.replicate gap ' ' ++ expandTabs (column + gap) rest
  | c :: rest => c :: expandTabs (column + ofChar c) rest

/-- Puts a character before the words of a text, which are given as the blanks
before the first one and the words with the blanks behind them. -/
def pushChar (c : Char) (lead : List Char) (words : List (List Char)) :
    List Char × List (List Char) :=
  if isBlank c then (c :: lead, words)
  else
    match lead, words with
    | [], word :: rest => ([], (c :: word) :: rest)
    | lead, words => ([], (c :: lead) :: words)

/-- A text in pieces, a word each with the blanks behind it, and the first one
with the blanks before it too. -/
def wordPieces (text : List Char) : List (List Char) :=
  match text.foldr (fun c (lead, words) => pushChar c lead words) ([], []) with
  | (lead, word :: rest) => (lead ++ word) :: rest
  | (lead, []) => [lead]

/-- Fills lines with pieces up to a width, from a line that is begun on. -/
def fillLines (width : Nat) (line : List Char) : List (List Char) → List (List Char)
  | [] => [line]
  | piece :: rest =>
    if line.isEmpty ∨ count line + count (trimmedEnd piece) ≤ width then
      fillLines width (line ++ piece) rest
    else line :: fillLines width piece rest

/-- A line without blanks at its end that would go past a width. -/
def dropExcess (width : Nat) (line : List Char) : List Char :=
  let blanks := line.length - (trimmedEnd line).length
  line.take (line.length - min blanks (line.length - width))

/-- As much of a text as goes into a width. -/
def upTo (width : Nat) : List Char → List Char
  | [] => []
  | c :: rest => if ofChar c ≤ width then c :: upTo (width - ofChar c) rest else []

/-- A line of just some width. A single cell has the dots of a cut and nothing
else. -/
def fit (width : Nat) (line : List Char) : List Char :=
  if count line ≤ width then line ++ List.replicate (width - count line) ' '
  else if width ≤ 1 then ['…']
  else upTo (width - 1) line ++ ['…']

/-- A text in lines of just some width. -/
def lines (width : Nat) (text : List Char) : List (List Char) :=
  (text.splitOn '\n').flatMap fun line =>
    (fillLines width [] (wordPieces (expandTabs 0 line))).map fun line =>
      fit width (dropExcess width line)

end Cells

end Text

end TypeBridge
