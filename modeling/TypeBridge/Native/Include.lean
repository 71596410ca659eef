import TypeBridge.Native.Canonical
/-!
# TypeBridge — what a file needs in order to use a type

A generated header declares a type ahead of its use where it can, and
includes the declaring header otherwise; a generated source file includes the
full definition. A type with a header of its own is never declared ahead, and
scalars never need to be.
-/

namespace TypeBridge

namespace Native

/-- The word that opens a declaration of a type of this kind. -/
def Kind.declarationKeyword : Kind → String
  | .blittableStruct | .nonBlittableStructWrapper => "struct"
  | .enumeration => "enum class"
  | .primitive | .classWrapper | .unknown => "class"

namespace Descriptor

/-- A type that another header declares is not declared ahead. -/
def canBeDeclaredAhead (t : Descriptor) : Bool :=
  t.header.isNone

/-- The line that declares a type ahead of its use, if it may have one. -/
def forwardDeclaration? (t : Descriptor) : Option String :=
  if t.kind = .primitive ∨ ¬ t.canBeDeclaredAhead then none
  else
    let declaration := t.kind.declarationKeyword ++ " " ++ t.name ++ ";"
    let scope := t.scope.spelling false
    if scope = "" then some declaration
    else some ("namespace " ++ scope ++ " \x7b " ++ declaration ++ " \x7d")

/-- The operand of the include line that brings the full definition. -/
def includePath (t : Descriptor) : String :=
  match t.header with
  | some header => header.text
  | none =>
    let folder := "/".intercalate t.scope.segments
    if folder = "" then "<" ++ t.name ++ ".h>" else "<" ++ folder ++ "/" ++ t.name ++ ".h>"

/-- The include a generated header needs for a type: its own header, or the
standard one for a standard scalar. Every other type is declared ahead or
known to the language. -/
def headerInclude? (t : Descriptor) : Option String :=
  match t.header with
  | some header => some header.text
  | none =>
    if t.kind = .primitive ∧ t.scope = .standard then some Header.fixedWidth.text else none

/-- The include a generated source file needs for a type: the full definition
of everything that is not a scalar. -/
def sourceInclude? (t : Descriptor) : Option String :=
  if t.kind = .primitive then t.headerInclude? else some t.includePath

end Descriptor

end Native

end TypeBridge
