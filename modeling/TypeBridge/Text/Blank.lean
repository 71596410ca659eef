/-!
# TypeBridge — blank characters

What counts as space between words: the white space of Unicode, and the four
separators of ASCII.
-/

namespace TypeBridge

namespace Text

/-- The blank characters beyond ASCII. -/
def wideBlanks : List Nat :=
  [0x85, 0xa0, 0x1680, 0x2000, 0x2001, 0x2002, 0x2003, 0x2004, 0x2005, 0x2006, 0x2007, 0x2008,
    0x2009, 0x200a, 0x2028, 0x2029, 0x202f, 0x205f, 0x3000]

def isBlank (c : Char) : Bool :=
  let code := c.toNat
  code = 0x20 || (0x09 ≤ code && code ≤ 0x0d) || (0x1c ≤ code && code ≤ 0x1f) ||
    wideBlanks.contains code

/-- A text without the blanks at its end. -/
def trimmedEnd (text : List Char) : List Char :=
  (text.reverse.dropWhile isBlank).reverse

/-- A text without the blanks at both ends. -/
def trimmed (text : List Char) : List Char :=
  trimmedEnd (text.dropWhile isBlank)

/-- The words of a text, which are what blanks leave of it. -/
def words (text : List Char) : List (List Char) :=
  (text.splitOnP isBlank).filter (!·.isEmpty)

end Text

end TypeBridge
