import TypeBridge.Markup.Colour
import TypeBridge.Text.Blank
/-!
# TypeBridge — styles

The style that a tag of markup asks for, in words: attributes, a colour, a
background and a link. Two tags that ask for the same style have one normal
form, and by it a closing tag finds the tag that it closes.
-/

namespace TypeBridge

namespace Markup

inductive Attribute
  | bold
  | dim
  | italic
  | underline
  | blink
  | blink2
  | reverse
  | conceal
  | strike
  | underline2
  | frame
  | encircle
  | overline
deriving DecidableEq

namespace Attribute

/-- Every attribute, in the order of a normal form. -/
def all : List Attribute :=
  [bold, dim, italic, underline, blink, blink2, reverse, conceal, strike, underline2, frame,
    encircle, overline]

def name : Attribute → String
  | bold => "bold"
  | dim => "dim"
  | italic => "italic"
  | underline => "underline"
  | blink => "blink"
  | blink2 => "blink2"
  | reverse => "reverse"
  | conceal => "conceal"
  | strike => "strike"
  | underline2 => "underline2"
  | frame => "frame"
  | encircle => "encircle"
  | overline => "overline"

/-- The short word for an attribute, if it has one. -/
def abbreviation? : Attribute → Option String
  | bold => some "b"
  | dim => some "d"
  | italic => some "i"
  | underline => some "u"
  | reverse => some "r"
  | conceal => some "c"
  | strike => some "s"
  | underline2 => some "uu"
  | overline => some "o"
  | blink | blink2 | frame | encircle => none

def ofWord? (word : String) : Option Attribute :=
  all.find? fun a => a.name = word || a.abbreviation? = some word

end Attribute

/-- What a tag asks for. What is said last of an attribute comes first. -/
structure Style where
  attributes : List (Attribute × Bool) := []
  colour : Option String := none
  background : Option String := none
  link : Option String := none

namespace Style

/-- A style with what more words ask for. -/
def addWords (style : Style) : List String → Except StyleError Style
  | [] => .ok style
  | first :: rest =>
    match first.toLower, rest with
    | "on", background :: rest => do
      Colour.check background.toLower
      addWords { style with background := some background.toLower } rest
    | "not", word :: rest =>
      match Attribute.ofWord? word with
      | some a => addWords { style with attributes := (a, false) :: style.attributes } rest
      | none => .error .unknown
    | "link", target :: rest => addWords { style with link := some target } rest
    | word, rest =>
      match Attribute.ofWord? word with
      | some a => addWords { style with attributes := (a, true) :: style.attributes } rest
      | none => do
        Colour.check word
        addWords { style with colour := some word } rest

/-- The style that a text asks for. -/
def ofText (text : String) : Except StyleError Style :=
  let words := (Text.words text.toList).map String.ofList
  if words = ["none"] then .ok {} else addWords {} words

/-- The words for an attribute, if something is said of it. -/
def attributeWords (style : Style) (a : Attribute) : List String :=
  match style.attributes.lookup a with
  | some true => [a.name]
  | some false => ["not", a.name]
  | none => []

/-- The one text for a style. -/
def normalForm (style : Style) : String :=
  let background := style.background.toList.flatMap fun colour => ["on", colour]
  let link := style.link.toList.flatMap fun target => ["link", target]
  let words := Attribute.all.flatMap style.attributeWords ++ style.colour.toList ++ background ++
    link
  if words.isEmpty then "none" else " ".intercalate words

end Style

/-- The one text for what a tag asks for. A text that is no style is its own,
up to case and blanks around it. -/
def normalName (text : String) : Except StyleError String :=
  match Style.ofText text with
  | .ok style => .ok style.normalForm
  | .error .unknown => .ok (String.ofList (Text.trimmed text.toLower.toList))
  | .error .missingAmount => .error .missingAmount

end Markup

end TypeBridge
