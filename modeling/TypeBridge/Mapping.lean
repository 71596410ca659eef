import TypeBridge.Classification
import TypeBridge.Native.Conversion
import TypeBridge.Native.Include
/-!
# TypeBridge — mappings

Everything an emitter needs in order to use a managed type from native code,
in one record of texts.
-/

namespace TypeBridge

open Managed Native

structure Mapping where
  /-- The qualified name of the managed type. -/
  name : String
  kind : Kind
  /-- The native type as code writes it. -/
  qualifiedName : String
  returnType : String
  parameterType : String
  interopType : String
  /-- Converts a variable named `value` to the interop type. -/
  toInterop : String
  /-- Converts a variable named `value` back from the interop type. -/
  fromInterop : String
  forwardDeclarable : Bool
  forwardDeclaration : Option String
  headerInclude : Option String
  sourceInclude : Option String
deriving DecidableEq

/-- Why a type has no mapping. -/
inductive MappingError
  | classification (error : ClassificationError)
  | handle (error : HandleError)
deriving DecidableEq

namespace Managed.Universe

/-- The mapping of a managed type. -/
def describe (u : Universe) (settings : Settings) (id : FactId) : Except MappingError Mapping := do
  let t ← (u.classify settings id).mapError .classification
  let value := Expression.operand "value"
  let restored ← (t.fromInterop settings value).mapError .handle
  return {
    name := u.qualifiedName id
    kind := t.kind
    qualifiedName := t.rootedSpelling
    returnType := t.asReturn.rootedSpelling
    parameterType := t.asParameter.rootedSpelling
    interopType := t.asInterop.rootedSpelling
    toInterop := (t.toInterop value).text
    fromInterop := restored.text
    forwardDeclarable := t.canBeDeclaredAhead
    forwardDeclaration := t.forwardDeclaration?
    headerInclude := t.headerInclude?
    sourceInclude := t.sourceInclude? }

/-- The mappings of some types, if each of them has one. -/
def describeAll (u : Universe) (settings : Settings) (ids : List FactId) :
    Except MappingError (List Mapping) :=
  ids.mapM (u.describe settings)

end Managed.Universe

end TypeBridge
