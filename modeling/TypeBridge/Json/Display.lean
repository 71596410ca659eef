import TypeBridge.Json.Value
import TypeBridge.Text.Quoted
/-!
# TypeBridge — JSON values as plain text

The text that stands for a value where a text is wanted: a string is itself,
and everything else is written out, with strings inside lists and objects in
quotes.
-/

namespace TypeBridge

namespace Json

mutual

/-- A value as a part of another. -/
def inner : Json → String
  | null => "None"
  | bool value => if value then "True" else "False"
  | integer value => toString value
  | real value => value.text
  | string value => Text.quoted value
  | array items => "[" ++ ", ".intercalate (innerItems items) ++ "]"
  | object members => "\x7b" ++ ", ".intercalate (innerMembers members) ++ "\x7d"

def innerItems : List Json → List String
  | [] => []
  | item :: rest => item.inner :: innerItems rest

def innerMembers : List (String × Json) → List String
  | [] => []
  | (key, value) :: rest => (Text.quoted key ++ ": " ++ value.inner) :: innerMembers rest

end

/-- The text that stands for a value, if it is not null. -/
def text? : Json → Option String
  | null => none
  | string value => some value
  | value => some value.inner

end Json

end TypeBridge
