import TypeBridge.Native.Canonical
/-!
# TypeBridge — the forms a native type takes at a call

A wrapped method returns every type by value, takes classes and structs by
const reference, and hands something else again to managed code: the value
itself if its layout is shared, a 32-bit number for an enumerator, and a raw
handle for everything that managed code owns.
-/

namespace TypeBridge

namespace Native

namespace Kind

/-- Whether a parameter of this kind is taken by const reference. -/
def isPassedByReference : Kind → Bool
  | classWrapper | blittableStruct | nonBlittableStructWrapper => true
  | primitive | enumeration | unknown => false

/-- Whether a value of this kind crosses the boundary as it is. -/
def crossesUnchanged : Kind → Bool
  | primitive | blittableStruct => true
  | enumeration | classWrapper | nonBlittableStructWrapper | unknown => false

end Kind

namespace Descriptor

/-- The form returned by a wrapped method. -/
def asReturn (t : Descriptor) : Descriptor :=
  t

/-- The form taken by a wrapped method. -/
def asParameter (t : Descriptor) : Descriptor :=
  if t.kind.isPassedByReference then t.asConstReference else t

/-- The form passed through a function pointer into managed code. -/
def asInterop (t : Descriptor) : Descriptor :=
  if t.kind.crossesUnchanged then t
  else if t.kind = .enumeration then uint32
  else voidPointer

theorem asInterop_of_classWrapper {t : Descriptor} (h : t.kind = .classWrapper) :
    t.asInterop = voidPointer := by
  simp [asInterop, h, Kind.crossesUnchanged]

theorem asInterop_of_enumeration {t : Descriptor} (h : t.kind = .enumeration) :
    t.asInterop = uint32 := by
  simp [asInterop, h, Kind.crossesUnchanged]

end Descriptor

end Native

end TypeBridge
