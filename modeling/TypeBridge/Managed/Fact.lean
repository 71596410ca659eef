import TypeBridge.Managed.Special
/-!
# TypeBridge — facts about managed types

A `Fact` is what is known of one managed type. Facts refer to each other by
number, so a type may contain itself, two fields may share one fact, and two
facts with equal contents are still two facts. A `Universe` is the table the
numbers point into.
-/

namespace TypeBridge

namespace Managed

/-- The place of a fact in its universe. -/
abbrev FactId := Nat

/-- The shape of a managed type. -/
inductive FactKind
  | special
  | pointer
  | named
  /-- A mention of a type by a name that is not looked up yet. -/
  | mention
deriving DecidableEq

namespace FactKind

def label : FactKind → String
  | special => "special"
  | pointer => "pointer"
  | named => "named"
  | mention => "ref"

/-- The shape that a word names. -/
def ofLabel? (word : String) : Option FactKind :=
  [special, pointer, named, mention].find? (·.label = word)

end FactKind

structure Field where
  name : String
  type : FactId
  isStatic : Bool := false
deriving DecidableEq

structure Fact where
  kind : FactKind
  name : String
  special : Option Special := none
  isValueType : Bool := false
  isReferenceType : Bool := false
  /-- The qualified name of the base type. -/
  baseType : Option String := none
  /-- What a pointer points at. -/
  pointee : Option FactId := none
  /-- The namespaces around the type, outermost first. -/
  namespaces : List String := []
  fields : List Field := []
deriving DecidableEq

namespace Fact

/-- The fact of a special type. -/
def ofSpecial (s : Special) : Fact where
  kind := .special
  name := s.displayName
  special := some s
  isValueType := !s.isReference
  isReferenceType := s.isReference
  namespaces := ["System"]

/-- A pointer, under the name its pointee has when it is made. -/
def pointer (name : String) (pointee : FactId) : Fact where
  kind := .pointer
  name := name
  isValueType := true
  pointee := some pointee

/-- A mention of a type by a path and a name. -/
def mention (namespaces : List String) (name : String) : Fact where
  kind := .mention
  name := name
  namespaces := namespaces

/-- The name with the namespaces in front. -/
def dottedName (fact : Fact) : String :=
  ".".intercalate (fact.namespaces ++ [fact.name])

/-- The fields that are part of every instance. -/
def instanceFields (fact : Fact) : List Field :=
  fact.fields.filter (!·.isStatic)

/-- What a pointer that points somewhere points at. -/
def target? (fact : Fact) : Option FactId :=
  if fact.kind = .pointer then fact.pointee else none

end Fact

/-- A table of facts that refer to each other by place. -/
structure Universe where
  facts : Array Fact := #[]

namespace Universe

/-- The fact at a place. A place outside the table holds a mention of
nothing. -/
def fact (u : Universe) (id : FactId) : Fact :=
  u.facts.getD id (.mention [] "")

def size (u : Universe) : Nat :=
  u.facts.size

/-- Adds a fact at the end; its place is the size before. -/
def push (u : Universe) (fact : Fact) : Universe :=
  ⟨u.facts.push fact⟩

/-- Changes the fact at a place. -/
def modify (u : Universe) (id : FactId) (change : Fact → Fact) : Universe :=
  ⟨u.facts.modify id change⟩

/-! ## Pointer chains -/

/-- Follows pointers from a fact for at most a number of steps: where that
ends, and how many steps it took. -/
def followPointers (u : Universe) : Nat → FactId → FactId × Nat
  | 0, id => (id, 0)
  | steps + 1, id =>
    match (u.fact id).target? with
    | none => (id, 0)
    | some next =>
      let (last, stars) := u.followPointers steps next
      (last, stars + 1)

/-- The end of a chain of pointers and the length of the chain. A chain that
does not run in a circle is shorter than the table. -/
def pointerChain (u : Universe) (id : FactId) : FactId × Nat :=
  u.followPointers u.size id

/-- The dotted name of a type; a pointer has its pointee's with a star. -/
def qualifiedName (u : Universe) (id : FactId) : String :=
  let (last, stars) := u.pointerChain id
  (u.fact last).dottedName ++ String.ofList (List.replicate stars '*')

end Universe

end Managed

end TypeBridge
