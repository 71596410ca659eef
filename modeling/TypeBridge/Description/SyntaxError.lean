import TypeBridge.Description.Token
import TypeBridge.Text.Position
/-!
# TypeBridge — where a description stops being one

A text that is no description stops being readable at a character that nothing
can follow with, or at its end. Either way the error lists what could have
come there.
-/

namespace TypeBridge

namespace Description

/-- The first character that cannot be read, between the text before and
after it. -/
structure Obstacle where
  before : List Char
  char : Char
  after : List Char
  expected : List Terminal

namespace Obstacle

/-- The number of characters before the obstacle. -/
def offset (o : Obstacle) : Nat :=
  o.before.length

def position (o : Obstacle) : Text.Position :=
  .after o.before

def message (o : Obstacle) : String :=
  "No terminal matches '" ++ o.char.toString ++ "' in the current parser context, at line " ++
    toString o.position.line ++ " col " ++ toString o.position.column ++ "\n\n" ++
    Text.excerpt o.before (o.char :: o.after)

end Obstacle

inductive SyntaxError
  | obstacle (obstacle : Obstacle)
  | unexpectedEnd (expected : List Terminal)

namespace SyntaxError

def expected : SyntaxError → List Terminal
  | obstacle o => o.expected
  | unexpectedEnd expected => expected

/-- The error for a text that cannot be read on from some remainder of it. -/
def ofStop (text rest : List Char) (expected : List Terminal) : SyntaxError :=
  match rest with
  | [] => unexpectedEnd expected
  | char :: after =>
    obstacle { before := text.take (text.length - rest.length), char, after, expected }

/-- The terminals that could have come, one a line. -/
def expectation (terminals : List Terminal) : String :=
  "Expected one of: \n" ++ String.join (terminals.map fun t => "\t* " ++ t.label ++ "\n")

/-- The whole report of an error. -/
def report : SyntaxError → String
  | obstacle o => o.message ++ expectation o.expected
  | unexpectedEnd expected => "Unexpected end-of-input. " ++ expectation expected

end SyntaxError

end Description

end TypeBridge
