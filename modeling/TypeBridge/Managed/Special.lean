/-!
# TypeBridge — special types

The managed types that every universe has without declaring them. Each has a
tag, a display name inside the `System` namespace, and one or more keywords
that name it in descriptions.
-/

namespace TypeBridge

namespace Managed

inductive Special
  | sbyte
  | byte
  | int16
  | uint16
  | int32
  | uint32
  | int64
  | uint64
  | single
  | double
  | boolean
  | intptr
  | uintptr
  | void
  | nullptr
  | string
  | object
deriving DecidableEq

namespace Special

def all : List Special :=
  [sbyte, byte, int16, uint16, int32, uint32, int64, uint64, single, double, boolean, intptr,
    uintptr, void, nullptr, string, object]

theorem mem_all (s : Special) : s ∈ all := by
  cases s <;> decide

/-- The word that identifies a special type in data. -/
def tag : Special → String
  | sbyte => "sbyte"
  | byte => "byte"
  | int16 => "int16"
  | uint16 => "uint16"
  | int32 => "int32"
  | uint32 => "uint32"
  | int64 => "int64"
  | uint64 => "uint64"
  | single => "single"
  | double => "double"
  | boolean => "boolean"
  | intptr => "intptr"
  | uintptr => "uintptr"
  | void => "void"
  | nullptr => "nullptr"
  | string => "string"
  | object => "object"

def ofTag? (word : String) : Option Special :=
  all.find? (·.tag = word)

/-- The name of a special type inside `System`. -/
def displayName : Special → String
  | sbyte => "SByte"
  | byte => "Byte"
  | int16 => "Int16"
  | uint16 => "UInt16"
  | int32 => "Int32"
  | uint32 => "UInt32"
  | int64 => "Int64"
  | uint64 => "UInt64"
  | single => "Single"
  | double => "Double"
  | boolean => "Boolean"
  | intptr => "IntPtr"
  | uintptr => "UIntPtr"
  | void => "Void"
  | nullptr => "NullPointer"
  | string => "String"
  | object => "Object"

/-- The words that name a special type in a description: its tag, or another
spelling of it. -/
def keywords : Special → List String
  | sbyte => ["sbyte", "int8"]
  | byte => ["byte", "uint8"]
  | single => ["single", "float32"]
  | double => ["double", "float64"]
  | boolean => ["bool"]
  | s => [s.tag]

/-- The special type that a word of a description names. -/
def ofKeyword? (word : String) : Option Special :=
  all.find? (word ∈ ·.keywords)

/-- Whether managed code holds the type by reference. -/
def isReference : Special → Bool
  | string | object => true
  | _ => false

/-- Whether a field of the type is laid out alike on both sides. -/
def isLayoutScalar : Special → Bool
  | void | nullptr | string | object => false
  | _ => true

end Special

end Managed

end TypeBridge
