import TypeBridge.Mapping
/-!
# TypeBridge — the table of mappings

What a console is given to show mappings: a title, and a table with a row for
each type.
-/

namespace TypeBridge

namespace Command

namespace Table

/-- The title, in bold. -/
def title : String := "[bold cyan]Types[/bold cyan]"

def headings : List String :=
  ["Name", "Kind", "C++ Type", "Parameter", "Interop", "Header"]

/-- What a header needs in order to use a type. -/
def headerNeed (m : Mapping) : String :=
  if m.forwardDeclaration.isSome then "forward declare" else m.headerInclude.getD ""

def row (m : Mapping) : List String :=
  [m.name, m.kind.label, m.qualifiedName, m.parameterType, m.interopType, headerNeed m]

end Table

end Command

end TypeBridge
