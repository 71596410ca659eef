import TypeBridge.Decimal.Shortest
/-!
# TypeBridge — JSON values

Values as a JSON text writes them. Numbers keep every digit, and an object
keeps its keys in the order in which they first appear, each with the value
given last.
-/

namespace TypeBridge

/-- A number that is written with a point or an exponent, or by a word. -/
inductive Json.Real
  | decimal (value : Decimal)
  | infinity (negative : Bool)
  | notANumber

inductive Json
  | null
  | bool (value : Bool)
  | integer (value : Int)
  | real (value : Json.Real)
  | string (value : String)
  | array (items : List Json)
  | object (members : List (String × Json))

namespace Json

/-- The text of a real number: the shortest one for the 64-bit float nearest
to it. -/
def Real.text : Real → String
  | decimal value => value.shortestText
  | infinity negative => if negative then "-inf" else "inf"
  | notANumber => "nan"

/-- Gives a key a value: in the place of an earlier value, or else at the
end. -/
def setMember (members : List (String × Json)) (key : String) (value : Json) :
    List (String × Json) :=
  match members with
  | [] => [(key, value)]
  | (k, v) :: rest =>
    if k = key then (key, value) :: rest else (k, v) :: setMember rest key value

end Json

end TypeBridge
