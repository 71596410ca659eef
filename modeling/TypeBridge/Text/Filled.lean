/-!
# TypeBridge — blanks

Blanks that fill a text up to a width.
-/

namespace TypeBridge

namespace Text

def blanks (count : Nat) : String :=
  String.ofList (List.replicate count ' ')

/-- A text with as many blanks behind it as its width lacks. -/
def filled (width : Nat) (text : String) : String :=
  text ++ blanks (width - text.length)

end Text

end TypeBridge
