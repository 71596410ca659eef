/-!
# TypeBridge — constants

The constants that a handler in markup may be given: numbers, texts and bytes
in quotes, the words for truth and for nothing, and tuples and sets of
constants. A number may have a sign, and an imaginary one may be added to a
real one. `isConstant` reads such a text and keeps nothing of it but whether
it is one.
-/

namespace TypeBridge

namespace Markup

namespace Constant

/-- What later steps need to know of a constant. -/
inductive Kind
  | real
  | imaginary
  | signedReal
  /-- Anything that may be a member of a set. -/
  | member
  /-- A set, which is no member of another. -/
  | collection
deriving DecidableEq

/-- Skips blanks, and line ends between brackets. -/
def skip (inside : Bool) (text : List Char) : List Char :=
  text.dropWhile fun c =>
    c = ' ' || c = '\t' || c = '\x0c' || (inside && (c = '\n' || c = '\r'))

def isNameChar (c : Char) : Bool :=
  c.isAlphanum || c = '_'

/-! ## Numbers -/

def isHex (c : Char) : Bool :=
  c.isDigit || ('a' ≤ c && c ≤ 'f') || ('A' ≤ c && c ≤ 'F')

/-- Digits, with single low lines between them allowed. -/
def areDigits (isDigit : Char → Bool) (text : List Char) : Bool :=
  (text.splitOn '_').all fun group => !group.isEmpty && group.all isDigit

/-- Whether a text is a whole number in another base. -/
def isBased : List Char → Bool
  | '0' :: base :: digits =>
    let digits := if digits.head? = some '_' then digits.drop 1 else digits
    match base.toLower with
    | 'x' => areDigits isHex digits
    | 'o' => areDigits (fun c => '0' ≤ c && c ≤ '7') digits
    | 'b' => areDigits (fun c => c = '0' || c = '1') digits
    | _ => false
  | _ => false

/-- Whether a text is digits with an exponent behind them. -/
def hasExponent (text : List Char) : Bool :=
  let isMark (c : Char) := c.toLower = 'e'
  match text.dropWhile (!isMark ·) with
  | _ :: sign :: rest =>
    let size := if sign = '+' ∨ sign = '-' then rest else sign :: rest
    areDigits Char.isDigit (text.takeWhile (!isMark ·)) && areDigits Char.isDigit size
  | _ => false

/-- Whether a text is digits that do not lead with a zero, unless they are
zeros alone. -/
def isPlain (text : List Char) : Bool :=
  areDigits Char.isDigit text &&
    (text.head? ≠ some '0' || text.all fun c => c = '0' || c = '_')

/-- The kind of number that some characters without a point are. -/
def numberKind? (text : List Char) : Option Kind :=
  if text.getLast?.any fun c => c.toLower = 'j' then
    let size := text.dropLast
    if areDigits Char.isDigit size || hasExponent size then some .imaginary else none
  else if isPlain text || hasExponent text || isBased text then some .real
  else none

/-- How far the characters of a number reach: over name characters, and over a
sign behind an exponent mark unless the number has another base. -/
def numberLength : (based : Bool) → List Char → Nat
  | based, c :: sign :: rest =>
    if !based && c.toLower = 'e' && (sign = '+' || sign = '-') then 2 + numberLength true rest
    else if isNameChar c then 1 + numberLength based (sign :: rest)
    else 0
  | _, [c] => if isNameChar c then 1 else 0
  | _, [] => 0

/-- A number, with the text behind it. -/
def number? (text : List Char) : Option (Kind × List Char) :=
  let based := text.take 2 = ['0', 'x'] || text.take 2 = ['0', 'X']
  let length := numberLength based text
  (numberKind? (text.take length)).map (·, text.drop length)

/-! ## Quoted texts -/

/-- How a quoted text is written. -/
structure Quoting where
  delimiter : Char
  triple : Bool
  raw : Bool
  bytes : Bool

/-- Whether a text starts with some hexadecimal digits. -/
def startsWithHex (count : Nat) (text : List Char) : Bool :=
  count ≤ text.length && (text.take count).all isHex

/-- Whether an escape behind a backslash can be read. A character by its long
number is at most the last one there is, and names of characters are not
known. -/
def escapeFits (q : Quoting) : List Char → Bool
  | 'x' :: rest => startsWithHex 2 rest
  | 'u' :: rest => q.bytes || startsWithHex 4 rest
  | 'U' :: rest =>
    q.bytes || (startsWithHex 8 rest &&
      (rest.take 3 = ['0', '0', '0'] || rest.take 4 = ['0', '0', '1', '0']))
  | 'N' :: _ => q.bytes
  | _ => true

/-- The text behind a quoted text whose opening quotes are read. -/
def quotedEnd? (q : Quoting) : List Char → Option (List Char)
  | [] => none
  | '\\' :: c :: rest =>
    if q.raw ∨ escapeFits q (c :: rest) then quotedEnd? q rest else none
  | c :: rest =>
    if c = q.delimiter then
      if q.triple then
        if rest.take 2 = [c, c] then some (rest.drop 2) else quotedEnd? q rest
      else some rest
    else if (c = '\n' ∨ c = '\r') ∧ !q.triple then none
    else if q.bytes ∧ 0x7f < c.toNat then none
    else quotedEnd? q rest

/-- Letters before a quote, as whether the text is raw and whether it is
bytes. -/
def quoteLetters? (letters : List Char) : Option (Bool × Bool) :=
  match letters.map Char.toLower with
  | [] | ['u'] => some (false, false)
  | ['r'] => some (true, false)
  | ['b'] => some (false, true)
  | ['b', 'r'] | ['r', 'b'] => some (true, true)
  | _ => none

/-- A quoted text, by whether it is bytes and with the text behind it. -/
def quoted? (text : List Char) : Option (Bool × List Char) := do
  let (raw, bytes) ← quoteLetters? (text.takeWhile isNameChar)
  match text.dropWhile isNameChar with
  | [] => none
  | delimiter :: rest =>
    if delimiter = '\'' ∨ delimiter = '"' then
      let triple : Bool := rest.take 2 = [delimiter, delimiter]
      let inner := if triple then rest.drop 2 else rest
      let rest ← quotedEnd? ⟨delimiter, triple, raw, bytes⟩ inner
      return (bytes, rest)
    else none

/-- Skips the quoted texts that go on with one that is read, which are all
bytes or all text. -/
def continuedEnd? (bytes inside : Bool) : Nat → List Char → Option (List Char)
  | 0, text => some text
  | steps + 1, text =>
    match quoted? (skip inside text) with
    | some (b, rest) => if b = bytes then continuedEnd? bytes inside steps rest else none
    | none => some text

/-! ## Everything -/

/-- The kind of a number behind a sign. -/
def Kind.signed? : Kind → Option Kind
  | real => some signedReal
  | imaginary => some member
  | signedReal | member | collection => none

/-- The kind of a sum or a difference. -/
def Kind.added? : Kind → Kind → Option Kind
  | real, imaginary | signedReal, imaginary => some member
  | _, _ => none

/-- A word that is a constant, or the empty set. -/
def word? (inside : Bool) (text : List Char) : Option (Kind × List Char) :=
  let word := String.ofList (text.takeWhile isNameChar)
  let rest := text.dropWhile isNameChar
  if word = "True" ∨ word = "False" ∨ word = "None" then some (.member, rest)
  else if word = "set" then
    match skip inside rest with
    | '(' :: rest =>
      match skip true rest with
      | ')' :: rest => some (.collection, rest)
      | _ => none
    | _ => none
  else none

mutual

/-- A constant without a sign that is no sum. -/
def atom? : Nat → Bool → List Char → Option (Kind × List Char)
  | 0, _, _ => none
  | steps + 1, inside, text =>
    match text with
    | [] => none
    | '(' :: rest => do
      let (kinds, comma, rest) ← items? steps (some ')') (skip true rest)
      match kinds, comma with
      | [kind], false => return (kind, rest)
      | kinds, _ =>
        return (if kinds.contains .collection then .collection else .member, rest)
    | '\x7b' :: rest => do
      let (kinds, _, rest) ← items? steps (some '\x7d') (skip true rest)
      if kinds.contains .collection then none else return (.collection, rest)
    | c :: _ =>
      if c.isDigit then number? text
      else
        match quoted? text with
        | some (bytes, rest) =>
          (continuedEnd? bytes inside rest.length rest).map (Kind.member, ·)
        | none => word? inside text

/-- A constant that may have a sign. -/
def operand? : Nat → Bool → List Char → Option (Kind × List Char)
  | 0, _, _ => none
  | steps + 1, inside, text =>
    match text with
    | c :: rest =>
      if c = '+' ∨ c = '-' then do
        let (kind, rest) ← atom? steps inside (skip inside rest)
        let kind ← kind.signed?
        return (kind, rest)
      else atom? steps inside text
    | [] => none

/-- A constant, from its first character on. -/
def constant? : Nat → Bool → List Char → Option (Kind × List Char)
  | 0, _, _ => none
  | steps + 1, inside, text => do
    let (kind, rest) ← operand? steps inside text
    match skip inside rest with
    | c :: more =>
      if c = '+' ∨ c = '-' then
        let (right, rest) ← operand? steps inside (skip inside more)
        let kind ← kind.added? right
        return (kind, rest)
      else return (kind, rest)
    | [] => return (kind, rest)

/-- Constants between commas up to a closing bracket, or to the end of the text
if there is none to come: their kinds, whether there is a comma, and the text
behind the bracket. -/
def items? : Nat → Option Char → List Char → Option (List Kind × Bool × List Char)
  | 0, _, _ => none
  | steps + 1, closing, text =>
    let inside := closing.isSome
    if text.head? = closing then some ([], false, text.drop 1)
    else do
      let (kind, rest) ← constant? steps inside text
      let rest := skip inside rest
      match rest with
      | ',' :: more =>
        let (kinds, _, rest) ← items? steps closing (skip inside more)
        return (kind :: kinds, true, rest)
      | _ => if rest.head? = closing then return ([kind], false, rest.drop 1) else none

end

end Constant

/-- Whether a text is a constant, or several between commas. -/
def isConstant (text : List Char) : Bool :=
  match Constant.items? (4 * text.length + 4) none (Constant.skip false text) with
  | some (kinds, _, []) => !kinds.isEmpty
  | _ => false

end Markup

end TypeBridge
