import TypeBridge.Managed.Layout
import TypeBridge.Native.Canonical
import TypeBridge.Settings
/-!
# TypeBridge — classification

Every managed type has one native descriptor. The special scalars have theirs
fixed, a pointer has its pointee's with a pointer mark, and any other type is
declared under its own name, in the path of its namespaces inside the base
namespace, with a kind that its fact and its layout decide.
-/

namespace TypeBridge

open Managed Native

/-- The native type of a special type that has a fixed one. -/
def Managed.Special.native? : Special → Option Descriptor
  | .sbyte => some .int8
  | .byte => some .uint8
  | .int16 => some .int16
  | .uint16 => some .uint16
  | .int32 => some .int32
  | .uint32 => some .uint32
  | .int64 => some .int64
  | .uint64 => some .uint64
  | .single => some .single
  | .double => some .double
  | .boolean => some .boolean
  | .intptr | .uintptr => some .voidPointer
  | .void => some .void
  | .nullptr => some .nullPointer
  | .string | .object => none

namespace Managed.Fact

/-- The native type of a fact that has a fixed one. -/
def fixedNative? (fact : Fact) : Option Descriptor :=
  if fact.kind = .special then fact.special.bind Special.native? else none

/-- The namespaces around a type, from the inside outwards and the base last. An
empty segment is none. -/
def outwardPath (fact : Fact) (settings : Settings) : List String :=
  let own := fact.namespaces.reverse.filter (· ≠ "")
  if settings.baseNamespace = "" then own else own ++ [settings.baseNamespace]

theorem reverse_outwardPath (fact : Fact) (settings : Settings) :
    (fact.outwardPath settings).reverse =
      (settings.baseNamespace :: fact.namespaces).filter (· ≠ "") := by
  by_cases hbase : settings.baseNamespace = "" <;> simp [outwardPath, hbase]

/-- The native namespace path of a type: the base namespace and the type's
own, without empty segments. A managed path that starts with the base does
not repeat it. -/
def namespacePath (fact : Fact) (settings : Settings) : List String :=
  match (fact.outwardPath settings).reverse with
  | first :: second :: rest => if first = second then second :: rest else first :: second :: rest
  | short => short

end Managed.Fact

/-- Why a type has no descriptor. -/
inductive ClassificationError
  | layout (fault : LayoutFault FactId)
  | descriptor (error : DescriptorError)
deriving DecidableEq

namespace Managed.Universe

/-- The kind of a type without a fixed descriptor, after the verdicts that
were reached on the way. Only a value type that is no enum needs any. -/
def surveyKind (u : Universe) (settings : Settings) (id : FactId) :
    Ledger FactId × Except (LayoutFault FactId) Kind :=
  if (u.fact id).isEnum settings.enumBase then ([], .ok .enumeration)
  else if (u.fact id).isReferenceType then ([], .ok .classWrapper)
  else
    let (ledger, verdict) := (u.layoutGraph settings.enumBase).survey id
    (ledger, verdict.map fun shared =>
      if shared then .blittableStruct else .nonBlittableStructWrapper)

/-- The descriptor of a type without a fixed one. -/
def classifyDeclared (u : Universe) (settings : Settings) (id : FactId) :
    Except ClassificationError Descriptor := do
  let kind ← (u.surveyKind settings id).2.mapError .layout
  let scope := Scope.ofSegments ((u.fact id).namespacePath settings)
  (Descriptor.named kind scope (u.fact id).name).mapError .descriptor

/-- The descriptor of a type that is no pointer to another. -/
def classifyPointee (u : Universe) (settings : Settings) (id : FactId) :
    Except ClassificationError Descriptor :=
  match (u.fact id).fixedNative? with
  | some t => .ok t
  | none => u.classifyDeclared settings id

/-- The native descriptor of a managed type. -/
def classify (u : Universe) (settings : Settings) (id : FactId) :
    Except ClassificationError Descriptor :=
  let (last, stars) := u.pointerChain id
  (u.classifyPointee settings last).map fun t => if stars = 0 then t else t.asPointer

/-- The native descriptors of some types, if each of them has one. -/
def classifyAll (u : Universe) (settings : Settings) (ids : List FactId) :
    Except ClassificationError (List Descriptor) :=
  ids.mapM (u.classify settings)

end Managed.Universe

end TypeBridge
