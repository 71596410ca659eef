import TypeBridge.Json.Value
import TypeBridge.Text.Filled
import TypeBridge.Text.Quoted
/-!
# TypeBridge — writing JSON

A value over several lines, two blanks deeper for each level, in ASCII alone:
every other character is written as one or two escapes of a UTF-16 unit.
-/

namespace TypeBridge

namespace Json

/-- The escape of a UTF-16 unit. -/
def unitEscape (unit : Nat) : String :=
  "\\u" ++ Text.hexDigits 4 unit

/-- One character inside a string. -/
def escapeChar (c : Char) : String :=
  match c with
  | '"' => "\\\""
  | '\\' => "\\\\"
  | '\n' => "\\n"
  | '\r' => "\\r"
  | '\t' => "\\t"
  | '\x0c' => "\\f"
  | '\x08' => "\\b"
  | c =>
    let code := c.toNat
    if 0x20 ≤ code ∧ code ≤ 0x7e then c.toString
    else if code ≤ 0xffff then unitEscape code
    else
      let above := code - 0x10000
      unitEscape (0xd800 + above / 0x400) ++ unitEscape (0xdc00 + above % 0x400)

/-- One point inside a string. -/
def escape : Text.Point → String
  | .char c => escapeChar c
  | .half unit => unitEscape unit

def quote (s : String) : String :=
  "\"" ++ String.join ((Text.points s.toList).map escape) ++ "\""

/-- A line break and the indent of a level. -/
def newLine (level : Nat) : String :=
  "\n" ++ Text.blanks (2 * level)

/-- Parts between brackets, each on a line of its own; nothing between the
brackets if there are no parts. -/
def bracketed (opening closing : String) (level : Nat) (parts : List String) : String :=
  if parts.isEmpty then opening ++ closing
  else
    opening ++ newLine (level + 1) ++ ("," ++ newLine (level + 1)).intercalate parts ++
      newLine level ++ closing

mutual

/-- A value that starts on a line of some level. -/
def indented (level : Nat) : Json → String
  | null => "null"
  | bool value => if value then "true" else "false"
  | integer value => toString value
  | real value => value.text
  | string value => quote value
  | array items => bracketed "[" "]" level (indentedItems (level + 1) items)
  | object members => bracketed "\x7b" "\x7d" level (indentedMembers (level + 1) members)

def indentedItems (level : Nat) : List Json → List String
  | [] => []
  | item :: rest => item.indented level :: indentedItems level rest

def indentedMembers (level : Nat) : List (String × Json) → List String
  | [] => []
  | (key, value) :: rest =>
    (quote key ++ ": " ++ value.indented level) :: indentedMembers level rest

end

end Json

end TypeBridge
