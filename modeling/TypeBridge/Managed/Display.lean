import TypeBridge.Managed.Layout
import TypeBridge.Text.Quoted
/-!
# TypeBridge — facts and faults as text

A type is shown by its shape and qualified name, never by its fields, so a
universe that runs in circles is shown like any other.
-/

namespace TypeBridge

namespace Managed

namespace Universe

/-- A type as reports show it. -/
def display (u : Universe) (id : FactId) : String :=
  "TypeFact(" ++ (u.fact id).kind.label ++ ", " ++ Text.quoted (u.qualifiedName id) ++ ")"

/-- A field as reports show it. -/
def displayField (u : Universe) (field : Field) : String :=
  "FieldFact(" ++ Text.quoted field.name ++ ", " ++ u.display field.type ++ ")"

end Universe

namespace LayoutFault

/-- What a user is told of a fault, by the names of the types. -/
def message : LayoutFault String → String
  | cycle members => "Value type contains itself: " ++ " -> ".intercalate members
  | tooDeep outermost innermost =>
    "Value types nest more than " ++ toString nestingLimit ++ " levels deep: " ++ outermost ++
      " reaches " ++ innermost

end LayoutFault

end Managed

end TypeBridge
