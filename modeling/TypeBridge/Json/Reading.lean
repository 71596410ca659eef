import TypeBridge.Json.Value
import TypeBridge.Text.Position
import TypeBridge.Text.Surrogate
/-!
# TypeBridge — reading JSON

Reads one JSON value with blanks around it. A text that is none has a first
place where reading stops, and a `Fault` names what is wrong there. A number
ends where it stops being one, so `01` is a zero with something behind it.
-/

namespace TypeBridge

namespace Json

/-- What is wrong at a place of a text. -/
inductive Problem
  | expectingValue
  | expectingName
  | expectingColon
  | expectingComma
  | unterminatedString
  | controlCharacter
  | badEscape
  | badCodePoint
  | extraData
  | byteOrderMark
  /-- An integer with more digits than a number may have. -/
  | longInteger (digits : Nat)
deriving DecidableEq

def Problem.message : Problem → String
  | expectingValue => "Expecting value"
  | expectingName => "Expecting property name enclosed in double quotes"
  | expectingColon => "Expecting ':' delimiter"
  | expectingComma => "Expecting ',' delimiter"
  | unterminatedString => "Unterminated string starting at"
  | controlCharacter => "Invalid control character at"
  | badEscape => "Invalid \\escape"
  | badCodePoint => "Invalid \\uXXXX escape"
  | extraData => "Extra data"
  | byteOrderMark => "Unexpected UTF-8 BOM (decode using utf-8-sig)"
  | longInteger digits =>
    "Exceeds the limit (4300 digits) for integer string conversion: value has " ++
      toString digits ++
      " digits; use sys.set_int_max_str_digits() to increase the limit"

/-- A problem and the text from the place on where it is. -/
structure Fault where
  problem : Problem
  rest : List Char
deriving DecidableEq

def isBlank (c : Char) : Bool :=
  c = ' ' || c = '\t' || c = '\n' || c = '\r'

/-- The text after its leading blanks. -/
def skipBlanks (text : List Char) : List Char :=
  text.dropWhile isBlank

/-! ## Numbers -/

def digitsValue (digits : List Char) : Nat :=
  digits.foldl (fun n c => 10 * n + (c.toNat - '0'.toNat)) 0

/-- The whole digits of a number: a zero alone, or digits without a leading
zero. -/
def wholeDigits? : List Char → Option (List Char × List Char)
  | [] => none
  | c :: rest =>
    if c = '0' then some (['0'], rest)
    else if c.isDigit then some (c :: rest.takeWhile Char.isDigit, rest.dropWhile Char.isDigit)
    else none

/-- The digits after a point, if the text goes on with some. -/
def fractionDigits : List Char → List Char × List Char
  | '.' :: rest =>
    if (rest.takeWhile Char.isDigit).isEmpty then ([], '.' :: rest)
    else (rest.takeWhile Char.isDigit, rest.dropWhile Char.isDigit)
  | text => ([], text)

/-- The exponent of a number, if the text goes on with one. -/
def exponent? : List Char → Option (Int × List Char)
  | [] => none
  | e :: rest =>
    if e = 'e' ∨ e = 'E' then
      let (negative, unsigned) :=
        match rest with
        | '-' :: unsigned => (true, unsigned)
        | '+' :: unsigned => (false, unsigned)
        | unsigned => (false, unsigned)
      let digits := unsigned.takeWhile Char.isDigit
      if digits.isEmpty then none
      else
        let size : Int := digitsValue digits
        some (if negative then -size else size, unsigned.dropWhile Char.isDigit)
    else none

/-- How many digits an integer may have. -/
def mostDigits : Nat := 4300

/-- An integer of not too many digits, with the text behind it. -/
def integerOf (negative : Bool) (digits text rest : List Char) : Except Fault (Json × List Char) :=
  if digits.length ≤ mostDigits then
    let size : Int := digitsValue digits
    .ok (.integer (if negative then -size else size), rest)
  else .error ⟨.longInteger digits.length, text⟩

/-- A number, if the text starts with one: an integer unless a fraction or an
exponent follows. -/
def number? (text : List Char) : Option (Except Fault (Json × List Char)) :=
  let (negative, unsigned) :=
    match text with
    | '-' :: rest => (true, rest)
    | _ => (false, text)
  match wholeDigits? unsigned with
  | none => none
  | some (whole, rest) =>
    let (fraction, rest) := fractionDigits rest
    let digits := digitsValue (whole ++ fraction)
    match exponent? rest with
    | some (exponent, rest) =>
      some (.ok (.real (.decimal ⟨negative, digits, exponent - fraction.length⟩), rest))
    | none =>
      if fraction.isEmpty then some (integerOf negative whole text rest)
      else some (.ok (.real (.decimal ⟨negative, digits, -fraction.length⟩), rest))

/-! ## Words -/

/-- The values that are written as a word. -/
def words : List (String × Json) :=
  [("null", .null), ("true", .bool true), ("false", .bool false), ("NaN", .real .notANumber),
    ("Infinity", .real (.infinity false)), ("-Infinity", .real (.infinity true))]

/-- The word a text starts with, if it is one that stands for a value. -/
def word? (text : List Char) : Option (Json × List Char) :=
  words.findSome? fun (word, value) => (word.toList.isPrefixOf? text).map (value, ·)

/-! ## Strings -/

def hexValue? (c : Char) : Option Nat :=
  if c.isDigit then some (c.toNat - '0'.toNat)
  else if 'a' ≤ c ∧ c ≤ 'f' then some (c.toNat - 'a'.toNat + 10)
  else if 'A' ≤ c ∧ c ≤ 'F' then some (c.toNat - 'A'.toNat + 10)
  else none

/-- Four hexadecimal digits with more text behind them. -/
def codeUnit? : List Char → Option (Nat × List Char)
  | a :: b :: c :: d :: more :: rest => do
    let a ← hexValue? a
    let b ← hexValue? b
    let c ← hexValue? c
    let d ← hexValue? d
    return (((a * 16 + b) * 16 + c) * 16 + d, more :: rest)
  | _ => none

/-- What a numeric escape stands for, from the text after its `u`: a character
or a lone half of one. Two escapes in a row may be the halves of one
character. -/
def numericEscape (fromU text : List Char) : Except Fault (List Char × List Char) :=
  match codeUnit? text with
  | none => .error ⟨.badCodePoint, fromU⟩
  | some (unit, rest) =>
    if Text.Surrogate.isHigh unit then
      match rest with
      | '\\' :: 'u' :: digits =>
        if digits.length < 5 then .ok (Text.ofUnit unit, rest)
        else
          match codeUnit? digits with
          | none => .error ⟨.badCodePoint, 'u' :: digits⟩
          | some (low, rest') =>
            if Text.Surrogate.isLow low then
              .ok (Text.ofChar (Text.Surrogate.pair unit low), rest')
            else .ok (Text.ofUnit unit, rest)
      | _ => .ok (Text.ofUnit unit, rest)
    else .ok (Text.ofUnit unit, rest)

/-- The character that an escape letter stands for. -/
def escapeLetter? : Char → Option Char
  | '"' => some '"'
  | '\\' => some '\\'
  | '/' => some '/'
  | 'b' => some '\x08'
  | 'f' => some '\x0c'
  | 'n' => some '\n'
  | 'r' => some '\r'
  | 't' => some '\t'
  | _ => none

/-- The rest of a string whose opening quote is read, after the characters
read so far, newest first. -/
def stringFrom (opening : List Char) :
    Nat → List Char → List Char → Except Fault (String × List Char)
  | 0, _, _ => .error ⟨.unterminatedString, opening⟩
  | steps + 1, read, text =>
    match text with
    | [] => .error ⟨.unterminatedString, opening⟩
    | '"' :: rest => .ok (String.ofList read.reverse, rest)
    | ['\\'] => .error ⟨.unterminatedString, opening⟩
    | '\\' :: 'u' :: rest => do
      let (characters, rest) ← numericEscape ('u' :: rest) rest
      stringFrom opening steps (characters.reverse ++ read) rest
    | '\\' :: letter :: rest =>
      match escapeLetter? letter with
      | some c => stringFrom opening steps (c :: read) rest
      | none => .error ⟨.badEscape, text⟩
    | c :: rest =>
      if c.toNat ≤ 0x1f then .error ⟨.controlCharacter, text⟩
      else stringFrom opening steps ((Text.ofChar c).reverse ++ read) rest

/-- A string, from its opening quote on. -/
def stringAt (quote : Char) (rest : List Char) : Except Fault (String × List Char) :=
  stringFrom (quote :: rest) (rest.length + 1) [] rest

/-! ## Values -/

mutual

/-- A value at the start of a text, within a number of steps. -/
def valueFrom : Nat → List Char → Except Fault (Json × List Char)
  | 0, text => .error ⟨.expectingValue, text⟩
  | steps + 1, text =>
    match text with
    | '"' :: rest => do
      let (s, rest) ← stringAt '"' rest
      return (.string s, rest)
    | '\x7b' :: rest =>
      match skipBlanks rest with
      | '\x7d' :: rest => .ok (.object [], rest)
      | rest => membersFrom steps [] rest
    | '[' :: rest =>
      match skipBlanks rest with
      | ']' :: rest => .ok (.array [], rest)
      | rest => itemsFrom steps [] rest
    | _ =>
      match (word? text).map .ok <|> number? text with
      | some found => found
      | none => .error ⟨.expectingValue, text⟩

/-- The rest of an object from a key on, after the members read so far. -/
def membersFrom : Nat → List (String × Json) → List Char → Except Fault (Json × List Char)
  | 0, _, text => .error ⟨.expectingName, text⟩
  | steps + 1, members, text =>
    match text with
    | '"' :: rest => do
      let (key, rest) ← stringAt '"' rest
      match skipBlanks rest with
      | ':' :: rest =>
        let (value, rest) ← valueFrom steps (skipBlanks rest)
        let members := setMember members key value
        match skipBlanks rest with
        | '\x7d' :: rest => .ok (.object members, rest)
        | ',' :: rest => membersFrom steps members (skipBlanks rest)
        | rest => .error ⟨.expectingComma, rest⟩
      | rest => .error ⟨.expectingColon, rest⟩
    | _ => .error ⟨.expectingName, text⟩

/-- The rest of an array from an item on, after the items read so far, newest
first. -/
def itemsFrom : Nat → List Json → List Char → Except Fault (Json × List Char)
  | 0, _, text => .error ⟨.expectingValue, text⟩
  | steps + 1, items, text => do
    let (item, rest) ← valueFrom steps text
    match skipBlanks rest with
    | ']' :: rest => .ok (.array (item :: items).reverse, rest)
    | ',' :: rest => itemsFrom steps (item :: items) (skipBlanks rest)
    | rest => .error ⟨.expectingComma, rest⟩

end

/-- The value that a text is, blanks around it apart. Of any two steps one
takes a character, so twice as many steps as characters are enough. -/
def ofText (text : List Char) : Except Fault Json := do
  if text.head? = some '\ufeff' then .error ⟨.byteOrderMark, text⟩
  let (value, rest) ← valueFrom (2 * text.length + 2) (skipBlanks text)
  match skipBlanks rest with
  | [] => .ok value
  | rest => .error ⟨.extraData, rest⟩

/-- A fault of a text with the place where it is. -/
def Fault.message (text : List Char) (fault : Fault) : String :=
  let before := text.take (text.length - fault.rest.length)
  let place := Text.Position.after before
  fault.problem.message ++ ": line " ++ toString place.line ++ " column " ++
    toString place.column ++ " (char " ++ toString before.length ++ ")"

end Json

end TypeBridge
