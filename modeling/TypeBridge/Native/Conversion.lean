import TypeBridge.Native.Usage
import TypeBridge.Settings
/-!
# TypeBridge — conversions at the boundary

The expressions that turn a value of a native type into what crosses the
boundary, and back. A class wrapper crosses as the raw handle it holds and an
enumerator as its number, and reading either back constructs the type again;
everything else is left as it is. Expressions are trees, and `text` is how
code writes them.
-/

namespace TypeBridge

namespace Native

/-- An expression over one variable. -/
inductive Expression
  /-- Whatever text stands for the value. -/
  | operand (text : String)
  /-- A type constructed from, or cast from, its argument. -/
  | construct (type : Descriptor) (argument : Expression)
  /-- A method without arguments, called on a receiver. -/
  | call (receiver : Expression) (method : String)

namespace Expression

def text : Expression → String
  | operand text => text
  | construct type argument => type.rootedSpelling ++ "(" ++ argument.text ++ ")"
  | call receiver method => receiver.text ++ "." ++ method ++ "()"

/-- The raw handle that a class wrapper holds. -/
def rawHandle (wrapper : Expression) : Expression :=
  call (call wrapper "GetHandle") "GetRaw"

end Expression

namespace Descriptor

open Expression

/-- Converts a value of a type to the form that crosses the boundary. -/
def toInterop (t : Descriptor) (value : Expression) : Expression :=
  match t.kind with
  | .classWrapper => rawHandle value
  | .enumeration => construct t.asInterop.bare value
  | .primitive | .blittableStruct | .nonBlittableStructWrapper | .unknown => value

/-- Converts what crossed the boundary back to a value of a type. Only a class
wrapper needs the handle class. -/
def fromInterop (t : Descriptor) (settings : Settings) (crossed : Expression) :
    Except HandleError Expression :=
  match t.kind with
  | .classWrapper =>
    settings.handleType.map fun handle => construct t.bare (construct handle crossed)
  | .enumeration => .ok (construct t.bare crossed)
  | .primitive | .blittableStruct | .nonBlittableStructWrapper | .unknown => .ok crossed

end Descriptor

end Native

end TypeBridge
