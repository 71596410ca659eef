import TypeBridge.Managed.Fact
/-!
# TypeBridge — name resolution

Fields mention their types by name. Linking puts in place of each mention the
fact it means: a fresh special fact for a keyword, or else the declared type
in the innermost namespace around the field's owner that has one of that name.
A pointer stays what it is and gets a new end, for every field that shares it.

Declared types are found by their qualified names, which have to differ.
-/

namespace TypeBridge

namespace Managed

/-- Why a universe cannot be linked. -/
inductive LinkError
  /-- Two declared types have one name. -/
  | duplicate (name : String)
  /-- A field of a type mentions a type that no namespace around it has. -/
  | unknown (name owner : String)
deriving DecidableEq

def LinkError.message : LinkError → String
  | duplicate name => name ++ " declared more than once"
  | unknown name owner => "Unknown type " ++ name ++ " used by " ++ owner

/-- The declared types by their qualified names. -/
abbrev Directory := List (String × FactId)

/-- The namespace paths to look in from inside a path, innermost first. -/
def scopesOutward (path : List String) : List (List String) :=
  (List.range (path.length + 1)).reverse.map path.take

/-- The qualified names that a mention may have from inside a path, innermost
first. -/
def Fact.candidates (mention : Fact) (path : List String) : List String :=
  (scopesOutward path).map fun scope =>
    ".".intercalate (scope ++ mention.namespaces ++ [mention.name])

namespace Universe

/-- The directory of some declared types, if their names differ. -/
def directory (u : Universe) (declared : List FactId) : Except LinkError Directory :=
  declared.foldlM
    (fun dir id =>
      let name := u.qualifiedName id
      if (dir.lookup name).isSome then .error (.duplicate name) else .ok (dir ++ [(name, id)]))
    []

/-- What a mention in a field of some type means. A keyword means its special
type wherever it stands alone. -/
def lookUp (u : Universe) (dir : Directory) (owner id : FactId) :
    Except LinkError (Universe × FactId) :=
  let mention := u.fact id
  match (if mention.namespaces = [] then Special.ofKeyword? mention.name else none) with
  | some s => .ok (u.push (.ofSpecial s), u.size)
  | none =>
    match (mention.candidates (u.fact owner).namespaces).findSome? (dir.lookup ·) with
    | some found => .ok (u, found)
    | none => .error (.unknown mention.dottedName (u.qualifiedName owner))

/-- Puts what is meant at the end of a chain of pointers, of at most a number
of them. -/
def resolve (dir : Directory) (owner : FactId) (u : Universe) :
    Nat → FactId → Except LinkError (Universe × FactId)
  | 0, id => u.lookUp dir owner id
  | steps + 1, id =>
    match (u.fact id).target? with
    | none => u.lookUp dir owner id
    | some next => do
      let (u, found) ← resolve dir owner u steps next
      return (u.modify id ({ · with pointee := some found }), id)

/-- Links the types of some fields of a type, one after the other. -/
def linkFields (dir : Directory) (owner : FactId) (u : Universe) :
    List Field → Except LinkError (Universe × List Field)
  | [] => .ok (u, [])
  | field :: rest => do
    let (u, type) ← u.resolve dir owner u.size field.type
    let (u, rest) ← linkFields dir owner u rest
    return (u, { field with type } :: rest)

/-- Links every field of a type. -/
def linkType (dir : Directory) (u : Universe) (id : FactId) : Except LinkError Universe := do
  let (u, fields) ← u.linkFields dir id (u.fact id).fields
  return u.modify id ({ · with fields })

/-- Links the fields of declared types, after their names are checked. -/
def link (u : Universe) (declared : List FactId) : Except LinkError Universe := do
  let dir ← u.directory declared
  declared.foldlM (linkType dir) u

end Universe

end Managed

end TypeBridge
