import TypeBridge.Description.Source
import TypeBridge.Managed.Resolution
/-!
# TypeBridge — catalogues

A `Catalogue` is a universe with the list of its declared types, in the order
of their declaration. `Catalogue.ofOutline` writes down what an outline says,
and `Catalogue.parse` reads a description and links it.

The declared types come first in the table; behind them stand, field by field,
the mention that ends a field's type and the pointers to it.
-/

namespace TypeBridge

open Managed Description

structure Catalogue extends Universe where
  declared : List FactId

/-- Why a text describes no universe. -/
inductive ParseError
  | notRead (error : SyntaxError)
  | notLinked (error : LinkError)

namespace Description

/-- The facts of a field's type, to stand in the table from a place on: a
mention of its name, and for each star a pointer to the fact before. -/
def TypeRef.facts (ref : TypeRef) (next : FactId) : List Fact :=
  .mention ref.target.path ref.target.name ::
    (List.range ref.stars).map fun i => .pointer ref.target.name (next + i)

/-- Fields with their types in the table from a place on, and those types. -/
def fieldFacts (next : FactId) : List FieldDecl → List Field × List Fact
  | [] => ([], [])
  | field :: rest =>
    let (fields, facts) := fieldFacts (next + field.type.stars + 1) rest
    ({ name := field.name, type := next + field.type.stars, isStatic := field.isStatic } :: fields,
      field.type.facts next ++ facts)

/-- The fact of a declared type with given fields. Only an enum has a base
type, the one that marks it. -/
def Declared.fact (declared : Declared) (enumBase : Option String) (fields : List Field) : Fact :=
  let fact : Fact :=
    { kind := .named, name := declared.decl.name, namespaces := declared.namespaces, fields }
  match declared.decl with
  | .valueType .. => { fact with isValueType := true }
  | .referenceType .. => { fact with isReferenceType := true }
  | .enumeration _ => { fact with isValueType := true, baseType := enumBase }

/-- Declared types as facts, and the types of their fields to stand in the
table from a place on. -/
def declaredFacts (enumBase : Option String) (next : FactId) :
    List Declared → List Fact × List Fact
  | [] => ([], [])
  | first :: rest =>
    let (fields, types) := fieldFacts next first.decl.fields
    let (facts, more) := declaredFacts enumBase (next + types.length) rest
    (first.fact enumBase fields :: facts, types ++ more)

end Description

namespace Catalogue

/-- What an outline says, with the names of field types not looked up. -/
def ofOutline (enumBase : Option String) (outline : Outline) : Catalogue :=
  let declared := outline.declared
  let (facts, types) := declaredFacts enumBase declared.length declared
  { facts := (facts ++ types).toArray, declared := List.range declared.length }

/-- Puts the types meant in place of the names mentioned. -/
def link (c : Catalogue) : Except LinkError Catalogue :=
  (c.toUniverse.link c.declared).map fun u => { c with toUniverse := u }

/-- Reads a description. -/
def parse (enumBase : Option String) (text : String) : Except ParseError Catalogue := do
  let outline ← (Outline.read text.toList).mapError .notRead
  (ofOutline enumBase outline).link.mapError .notLinked

end Catalogue

end TypeBridge
