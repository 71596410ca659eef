import TypeBridge.Managed.Fact
/-!
# TypeBridge — shared layout

A value type has the same layout on both sides of the boundary when every
type its instances are made of does. `Graph.examine` decides that by walking
the parts of a type depth first, left to right, up to the first part whose
layout differs.

The walk keeps the chain of structs it is inside of, so a struct that contains
itself is a fault with the cycle as its witness, and so is a chain of more
than `nestingLimit` structs. Verdicts are entered in a ledger as they are
reached, and a struct with an entry is not examined again.

Only the standing of a type and its parts are looked at, never a name: the
walk is over a `Graph`, and `Universe.layoutGraph` is the graph of a universe.
-/

namespace TypeBridge

namespace Managed

/-- What is known of the layout of a type before its parts are looked at. -/
inductive Standing
  /-- The type is laid out alike on both sides, or never. -/
  | settled (verdict : Bool)
  /-- The parts decide. -/
  | struct
deriving DecidableEq

/-- The types that the layout of other types depends on. -/
structure Graph (ν : Type) where
  standing : ν → Standing
  parts : ν → List ν

/-- Why a layout has no verdict. -/
inductive LayoutFault (ν : Type)
  /-- A struct contains itself: the structs from one occurrence to the next,
  both included. -/
  | cycle (members : List ν)
  /-- The structs nest too deeply: the first of them, and the one that is too
  many. -/
  | tooDeep (outermost innermost : ν)
deriving DecidableEq

/-- The same fault seen through another name for each type. -/
def LayoutFault.map {ν μ : Type} (f : ν → μ) : LayoutFault ν → LayoutFault μ
  | cycle members => cycle (members.map f)
  | tooDeep outermost innermost => tooDeep (f outermost) (f innermost)

/-- Verdicts in the order they were reached. -/
abbrev Ledger (ν : Type) := List (ν × Bool)

/-- How many structs may be inside each other. -/
def nestingLimit : Nat := 200

namespace Graph

variable {ν : Type} [DecidableEq ν]

/-- Puts a question to some nodes in turn until one is answered with no or
not at all, handing the ledger on. -/
def allOf (ask : ν → Ledger ν → Ledger ν × Except (LayoutFault ν) Bool) :
    List ν → Ledger ν → Ledger ν × Except (LayoutFault ν) Bool
  | [], ledger => (ledger, .ok true)
  | node :: rest, ledger =>
    match ask node ledger with
    | (ledger, .ok true) => allOf ask rest ledger
    | answer => answer

/-- Decides a node inside a chain of structs, outermost first, with room for
a number of further ones. -/
def examine (g : Graph ν) (room : Nat) (chain : List ν) (node : ν) (ledger : Ledger ν) :
    Ledger ν × Except (LayoutFault ν) Bool :=
  match g.standing node with
  | .settled verdict => (ledger, .ok verdict)
  | .struct =>
    match ledger.lookup node with
    | some verdict => (ledger, .ok verdict)
    | none =>
      if node ∈ chain then
        (ledger, .error (.cycle (chain.dropWhile (· ≠ node) ++ [node])))
      else
        match room with
        | 0 => (ledger, .error (.tooDeep (chain.headD node) node))
        | room + 1 =>
          match allOf (g.examine room (chain ++ [node])) (g.parts node) ledger with
          | (ledger, .ok verdict) => (ledger ++ [(node, verdict)], .ok verdict)
          | fault => fault

/-- The ledger of one examination, and its outcome. -/
def survey (g : Graph ν) (node : ν) : Ledger ν × Except (LayoutFault ν) Bool :=
  g.examine nestingLimit [] node []

/-- Whether a type has the same layout on both sides. -/
def hasSharedLayout (g : Graph ν) (node : ν) : Except (LayoutFault ν) Bool :=
  (g.survey node).2

end Graph

namespace Fact

/-- A fact is an enum when its base type is the one that marks enums. -/
def isEnum (fact : Fact) (enumBase : Option String) : Bool :=
  fact.baseType.isSome && fact.baseType = enumBase

/-- What a fact alone says of its layout: special scalars, pointers and enums
are laid out alike, and what is not a value type never is. -/
def standing (fact : Fact) (enumBase : Option String) : Standing :=
  if fact.kind = .special ∧ fact.special.any Special.isLayoutScalar then .settled true
  else if fact.kind = .pointer then .settled true
  else if ¬ fact.isValueType then .settled false
  else if fact.isEnum enumBase then .settled true
  else .struct

end Fact

namespace Universe

/-- The facts of a universe with the types of their instance fields. -/
def layoutGraph (u : Universe) (enumBase : Option String) : Graph FactId where
  standing id := (u.fact id).standing enumBase
  parts id := (u.fact id).instanceFields.map (·.type)

end Universe

end Managed

end TypeBridge
