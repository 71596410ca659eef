import TypeBridge.Console
import TypeBridge.Markup.Constant
import TypeBridge.Markup.Style
import TypeBridge.Markup.Tag
/-!
# TypeBridge — markup as plain text

What is left of a text with markup where nothing can be shown but characters.
The tags go, and so do the control characters that would move the cursor back,
but tags that do not fit together are a fault all the same. A tag may stay
open to the end; a closing tag closes the innermost open one of its name, and
without a name the innermost of all.
-/

namespace TypeBridge

namespace Markup

/-- A tag that is not closed yet, by the normal form of its name. -/
structure OpenTag where
  name : String
  argument : Option String

namespace OpenTag

def isHandler (tag : OpenTag) : Bool :=
  tag.name.startsWith "@"

/-- The words for the style that a tag asks for. -/
def definition (tag : OpenTag) : String :=
  match tag.argument with
  | some argument => tag.name ++ " " ++ argument
  | none => tag.name

/-- The constant in the argument of a handler. A name before it is the name of
an action, and an action without arguments has an empty tuple of them. -/
def constant (argument : String) : List Char :=
  let text := Text.trimmed argument.toList
  let isNamed (c : Char) := c.isAlphanum || c = '_' || c = '.'
  match text.dropWhile isNamed with
  | [] => ['(', ')']
  | '(' :: rest =>
    if rest.getLast? = some ')' ∧ '\n' ∉ rest then '(' :: rest else text
  | _ => text

/-- Whether a closed handler has arguments that make sense. -/
def handlerFits (tag : OpenTag) : Bool :=
  match tag.argument with
  | some argument => argument.isEmpty || isConstant (constant argument)
  | none => true

end OpenTag

/-- What is read of a text with markup: its characters so far, the tags that
are open, innermost first, and the styles of those that are closed. -/
structure Reading where
  text : List Char := []
  openTags : List OpenTag := []
  styles : List String := []

namespace Reading

/-- The normal form of a tag's name. -/
def nameOf (name : String) : Except Fault String :=
  (normalName name).mapError fun _ => .missingAmount

/-- The tag that a closing tag closes. -/
def closedBy (r : Reading) (name : String) : Except Fault OpenTag := do
  let found ←
    if name.isEmpty then pure r.openTags.head?
    else
      let name ← nameOf name
      pure (r.openTags.find? (·.name = name))
  match found with
  | some tag => return tag
  | none => .error .nothingToClose

/-- Goes on behind a tag. -/
def readTag (r : Reading) (name : String) (argument : Option String) : Except Fault Reading :=
  match name.toList with
  | '/' :: closing => do
    let tag ← r.closedBy (String.ofList (Text.trimmed closing))
    let openTags := r.openTags.eraseP (·.name = tag.name)
    if tag.isHandler then
      if tag.handlerFits then return { r with openTags } else .error .badArguments
    else return { r with openTags, styles := tag.definition :: r.styles }
  | _ => do
    let name ← nameOf name
    return { r with openTags := ⟨name, argument⟩ :: r.openTags }

/-- A written text without the backslashes that protect a bracket. -/
def unprotected : List Char → List Char
  | [] => []
  | '\\' :: '[' :: rest => '[' :: unprotected rest
  | c :: rest => c :: unprotected rest

def read (r : Reading) : Piece → Except Fault Reading
  | .written text => .ok { r with text := r.text ++ unprotected text }
  | .plain text => .ok { r with text := r.text ++ text }
  | .tag name argument => r.readTag name argument

/-- Every style that the text is shown in. -/
def allStyles (r : Reading) : List String :=
  r.openTags.map (·.definition) ++ r.styles

end Reading

/-- Control characters that move the cursor, and the bell. -/
def isDropped (c : Char) : Bool :=
  c = '\x07' || c = '\x08' || c = '\x0b' || c = '\x0c' || c = '\r'

/-- What a text with markup is without it. -/
def plain (text : String) : Except Fault String := do
  let r ← (pieces text.toList).foldlM Reading.read {}
  r.allStyles.forM fun style =>
    match Style.ofText style with
    | .error .missingAmount => .error .missingAmount
    | _ => .ok ()
  return String.ofList (r.text.filter (!isDropped ·))

end Markup

end TypeBridge
