import TypeBridge.Description.Token
/-!
# TypeBridge — outlines

What a description says, before any name is looked up: types with their
fields, and namespace blocks around them. An outline grows at its end, one
declaration at a time, as a description is read.

`declared` flattens an outline to its types, each under the path of the blocks
around it. `tokens` is the way an outline is written.
-/

namespace TypeBridge

namespace Description

/-- A name with the path in front of it. -/
structure DottedName where
  path : List String := []
  name : String
deriving DecidableEq

namespace DottedName

/-- The name one segment further. -/
def extend (n : DottedName) (name : String) : DottedName :=
  ⟨n.path ++ [n.name], name⟩

def segments (n : DottedName) : List String :=
  n.path ++ [n.name]

def tokens (n : DottedName) : List Token :=
  n.path.flatMap (fun segment => [.name segment, .mark .dot]) ++ [.name n.name]

end DottedName

/-- The type of a field: a name and the stars after it. -/
structure TypeRef where
  target : DottedName
  stars : Nat := 0
deriving DecidableEq

def TypeRef.tokens (ref : TypeRef) : List Token :=
  ref.target.tokens ++ List.replicate ref.stars (.mark .star)

structure FieldDecl where
  isStatic : Bool
  name : String
  type : TypeRef
deriving DecidableEq

def FieldDecl.tokens (field : FieldDecl) : List Token :=
  (if field.isStatic then [.mark .staticWord] else []) ++
    [.name field.name, .mark .colon] ++ field.type.tokens

/-- A declared type. A reference type may have no body at all. -/
inductive TypeDecl
  | valueType (name : String) (fields : List FieldDecl)
  | referenceType (name : String) (fields : Option (List FieldDecl))
  | enumeration (name : String)
deriving DecidableEq

namespace TypeDecl

def name : TypeDecl → String
  | valueType name _ | referenceType name _ | enumeration name => name

def fields : TypeDecl → List FieldDecl
  | valueType _ fields => fields
  | referenceType _ fields => fields.getD []
  | enumeration _ => []

/-- A body between braces. -/
def bodyTokens (fields : List FieldDecl) : List Token :=
  [.mark .leftBrace] ++ fields.flatMap FieldDecl.tokens ++ [.mark .rightBrace]

def tokens : TypeDecl → List Token
  | valueType name fields => [.mark .structWord, .name name] ++ bodyTokens fields
  | referenceType name none => [.mark .classWord, .name name]
  | referenceType name (some fields) => [.mark .classWord, .name name] ++ bodyTokens fields
  | enumeration name => [.mark .enumWord, .name name]

end TypeDecl

/-- Declarations in order; a block holds declarations of its own. -/
inductive Outline
  | empty
  | type (before : Outline) (decl : TypeDecl)
  | block (before : Outline) (path : DottedName) (inner : Outline)
deriving DecidableEq

/-- A declared type and the namespaces around it, outermost first. -/
structure Declared where
  namespaces : List String
  decl : TypeDecl
deriving DecidableEq

namespace Outline

/-- The types of an outline inside some namespaces, followed by further
ones. -/
def declaredBefore (namespaces : List String) : Outline → List Declared → List Declared
  | empty, after => after
  | type before decl, after => before.declaredBefore namespaces (⟨namespaces, decl⟩ :: after)
  | block before path inner, after =>
    before.declaredBefore namespaces
      (inner.declaredBefore (namespaces ++ path.segments) after)

/-- The types of an outline in the order they are written. -/
def declared (o : Outline) : List Declared :=
  o.declaredBefore [] []

/-- The outline as it is written. -/
def tokens : Outline → List Token
  | empty => []
  | type before decl => before.tokens ++ decl.tokens
  | block before path inner =>
    before.tokens ++ [.mark .namespaceWord] ++ path.tokens ++ [.mark .leftBrace] ++
      inner.tokens ++ [.mark .rightBrace]

end Outline

end Description

end TypeBridge
