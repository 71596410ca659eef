import TypeBridge.Native.Descriptor
import TypeBridge.Text.Dotted
/-!
# TypeBridge — settings

What a run may change: the namespace around everything generated, the base
type that marks an enum, and the class that owns raw handles of managed
objects. The last three may be left out; without an enum base nothing counts
as an enum, and without a handle class no class can be converted.
-/

namespace TypeBridge

open Native

/-- A text that is one namespace name: neither dotted nor a native path. -/
def IsSingleName (name : String) : Prop :=
  '.' ∉ name.toList ∧ ':' ∉ name.toList

instance (name : String) : Decidable (IsSingleName name) :=
  inferInstanceAs (Decidable (_ ∧ _))

structure Settings where
  /-- The outermost native namespace of every generated type. -/
  baseNamespace : String := "DotNet"
  /-- The base type that marks a managed type as an enum. -/
  enumBase : Option String := some "System.Enum"
  /-- The dotted namespace of the handle class, inside the base namespace. -/
  handleNamespace : Option String := some "Reinterop"
  /-- The class that owns a raw handle of a managed object. -/
  handleName : Option String := some "ObjectHandle"
  baseNamespace_single : IsSingleName baseNamespace := by decide
deriving DecidableEq

/-- Why settings have no handle class. -/
inductive HandleError
  | missingNamespace
  | descriptor (error : DescriptorError)
deriving DecidableEq

namespace Settings

/-- The settings of a run that changes nothing. -/
def standard : Settings := {}

/-- The settings with another base namespace, if that is a single name. -/
def withBase? (settings : Settings) (baseNamespace : String) : Option Settings :=
  if h : IsSingleName baseNamespace then
    some { settings with baseNamespace, baseNamespace_single := h }
  else none

/-- The namespace path of the handle class. Empty segments do not count. -/
def handlePath (settings : Settings) (handleNamespace : String) : List String :=
  (settings.baseNamespace :: Text.dottedSegments handleNamespace).filter (· ≠ "")

/-- The class that owns a raw handle. A missing name is an empty one. -/
def handleType (settings : Settings) : Except HandleError Descriptor :=
  match settings.handleNamespace with
  | none => .error .missingNamespace
  | some handleNamespace =>
    (Descriptor.named .classWrapper (.ofSegments (settings.handlePath handleNamespace))
      (settings.handleName.getD "")).mapError .descriptor

/-- There is a handle class if it has a namespace and a name. -/
theorem handleType_of_name {settings : Settings} {dotted name : String}
    (hnamespace : settings.handleNamespace = some dotted) (hname : settings.handleName = some name)
    (hne : name ≠ "") : settings.handleType = .ok
      { kind := .classWrapper, scope := .ofSegments (settings.handlePath dotted), name
        name_ne_empty := hne } := by
  rw [handleType, hnamespace, hname]
  simp only [Option.getD_some, Descriptor.named, dif_neg hne]
  rfl

end Settings

end TypeBridge
