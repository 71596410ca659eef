import TypeBridge.Native.Descriptor
/-!
# TypeBridge — the native types that need no declaration

The fixed-width integers and the null pointer's type live in the standard
namespace and come with a standard header; the other scalars are part of the
language and need neither.
-/

namespace TypeBridge

namespace Native

namespace Descriptor

/-- A scalar of the standard namespace and the header that declares it. -/
def standardScalar (name : String) (header : Header) (h : name ≠ "" := by decide) :
    Descriptor where
  kind := .primitive
  scope := .standard
  name := name
  header := some header
  name_ne_empty := h

/-- A scalar of the language itself. -/
def builtinScalar (name : String) (h : name ≠ "" := by decide) : Descriptor where
  kind := .primitive
  scope := .global
  name := name
  name_ne_empty := h

def int8 : Descriptor := standardScalar "int8_t" .fixedWidth
def int16 : Descriptor := standardScalar "int16_t" .fixedWidth
def int32 : Descriptor := standardScalar "int32_t" .fixedWidth
def int64 : Descriptor := standardScalar "int64_t" .fixedWidth
def uint8 : Descriptor := standardScalar "uint8_t" .fixedWidth
def uint16 : Descriptor := standardScalar "uint16_t" .fixedWidth
def uint32 : Descriptor := standardScalar "uint32_t" .fixedWidth
def uint64 : Descriptor := standardScalar "uint64_t" .fixedWidth
def boolean : Descriptor := builtinScalar "bool"
def single : Descriptor := builtinScalar "float"
def double : Descriptor := builtinScalar "double"
def void : Descriptor := builtinScalar "void"
def voidPointer : Descriptor := void.asPointer
def nullPointer : Descriptor := standardScalar "nullptr_t" .nullPointer

end Descriptor

end Native

end TypeBridge
