import TypeBridge.Text.Blank
/-!
# TypeBridge — prose in lines

Breaks prose between words, where the next word would go past the width of a
line, and cuts it down to a given length. Two words in a line keep the blanks
between them.
-/

namespace TypeBridge

namespace Text

/-- A line with one more word. Nothing comes before the first word of a
line. -/
def lengthen (line word : String) : String :=
  if line.isEmpty then word else line ++ " " ++ word

/-- Fills lines with words up to a width, from a line that is begun on. The
first word of a line is there whatever its length. -/
def fillLines (width : Nat) (line : String) : List String → List String
  | [] => [line]
  | word :: rest =>
    if line.isEmpty ∨ (lengthen line word).length ≤ width then
      fillLines width (lengthen line word) rest
    else line :: fillLines width word rest

/-- A text in lines of a width. What is empty between two blanks counts as a
word, and no line ends with blanks. -/
def wrapped (width : Nat) (text : String) : List String :=
  (fillLines width "" (text.splitOn " ")).map fun line => String.ofList (trimmedEnd line.toList)

/-- The words up to the end of the first sentence. -/
def firstSentence : List String → List String
  | [] => []
  | word :: rest => if word.endsWith "." then [word] else word :: firstSentence rest

/-- The first sentence of a text if it is no longer than a limit, and else as
many words of it as go with dots behind them. -/
def abridged (limit : Nat) (text : String) : String :=
  let words := text.splitOn " "
  let sentence := " ".intercalate (firstSentence words)
  if sentence.length ≤ limit then sentence
  else
    let starts := (List.range words.length).map fun count => " ".intercalate (words.take count)
    ((starts.reverse.map (· ++ "...")).find? (·.length ≤ limit)).getD "..."

end Text

end TypeBridge
