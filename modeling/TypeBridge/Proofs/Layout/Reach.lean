import TypeBridge.Managed.Layout
import Mathlib.Data.List.Chain
import Mathlib.Logic.Relation
/-!
# TypeBridge — what a layout depends on

A struct holds the types of its instance fields, and the layout of a type
depends on every type it reaches through structs. The fields of any other
type are never looked at, so what lies behind a pointer, an enum or a class
is not reached.

`Graph.Holds` is one such step, `Graph.Reaches` any number of them, and a
struct contains itself when a walk of at least one step leads back to it. A
nesting is the same walk as a list, so that its structs can be counted.
-/

namespace TypeBridge

namespace Managed

/-! ## What a fact alone says -/

namespace Fact

variable {fact : Fact} {enumBase : Option String}

/-- A special type that both sides lay out alike. -/
def IsLayoutScalar (fact : Fact) : Prop :=
  fact.kind = .special ∧ fact.special.any Special.isLayoutScalar = true

/-- A value type whose instance fields decide its layout. -/
def IsStruct (fact : Fact) (enumBase : Option String) : Prop :=
  ¬ fact.IsLayoutScalar ∧ fact.kind ≠ .pointer ∧ fact.isValueType = true ∧
    fact.isEnum enumBase = false

/-- A type that only the managed side can lay out: no value type, and neither
a pointer nor a scalar. -/
def IsManagedOnly (fact : Fact) : Prop :=
  ¬ fact.IsLayoutScalar ∧ fact.kind ≠ .pointer ∧ fact.isValueType = false

/-- The parts decide the layout of structs and of nothing else. -/
theorem standing_eq_struct_iff : fact.standing enumBase = .struct ↔ fact.IsStruct enumBase := by
  unfold standing IsStruct IsLayoutScalar
  split_ifs <;> simp_all

/-- A layout is refused at sight for the types of the managed side alone. -/
theorem standing_eq_settled_false_iff :
    fact.standing enumBase = .settled false ↔ fact.IsManagedOnly := by
  unfold standing IsManagedOnly IsLayoutScalar
  split_ifs <;> simp_all

/-- Every other type is a scalar, a pointer, an enum or a struct. -/
theorem not_isManagedOnly_iff (enumBase : Option String) : ¬ fact.IsManagedOnly ↔
    fact.IsLayoutScalar ∨ fact.kind = .pointer ∨
      (fact.isValueType = true ∧ fact.isEnum enumBase = true) ∨ fact.IsStruct enumBase := by
  unfold IsManagedOnly IsStruct
  cases fact.isValueType <;> cases fact.isEnum enumBase <;> simp <;> tauto

end Fact

/-! ## Steps and walks -/

namespace Graph

variable {ν : Type} {g : Graph ν} {a b m n : ν}

/-- A struct holds each of its parts. -/
def Holds (g : Graph ν) (a b : ν) : Prop :=
  g.standing a = .struct ∧ b ∈ g.parts a

/-- The types that the layout of a type depends on, itself among them. -/
abbrev Reaches (g : Graph ν) : ν → ν → Prop :=
  Relation.ReflTransGen g.Holds

/-- A struct contains itself when its parts lead back to it through structs. -/
def ContainsItself (g : Graph ν) (n : ν) : Prop :=
  Relation.TransGen g.Holds n n

/-- Structs inside each other, outermost first. -/
def IsNesting (g : Graph ν) (path : List ν) : Prop :=
  path.IsChain g.Holds ∧ ∀ n ∈ path, g.standing n = .struct

/-- What is settled at sight holds nothing. -/
theorem eq_of_reaches_of_settled {v : Bool} (hn : g.standing n = .settled v)
    (h : g.Reaches n m) : m = n := by
  rcases Relation.ReflTransGen.cases_head h with rfl | ⟨p, hp, -⟩
  · rfl
  · rw [hp.1] at hn
    cases hn

/-- A type that contains itself is a struct. -/
theorem ContainsItself.standing (h : g.ContainsItself n) : g.standing n = .struct := by
  obtain ⟨p, hp, -⟩ := Relation.TransGen.head'_iff.mp h
  exact hp.1

/-- **Where nothing contains itself no type comes twice**, on any walk. -/
theorem nodup_of_isChain_holds {path : List ν} (h : path.IsChain g.Holds)
    (hself : ∀ n ∈ path, ¬ g.ContainsItself n) : path.Nodup := by
  have htrans : path.IsChain (Relation.TransGen g.Holds) :=
    h.imp fun _ _ hab => Relation.TransGen.single hab
  refine (List.isChain_iff_pairwise.mp htrans).imp_of_mem fun {a b} ha _ hab heq => ?_
  exact hself a ha (heq ▸ hab)

/-- The first type of a walk reaches each type on it. -/
theorem reaches_of_mem_isChain {path : List ν} (h : (a :: path).IsChain g.Holds)
    (hb : b ∈ a :: path) : g.Reaches a b := by
  obtain ⟨front, back, heq⟩ := List.append_of_mem hb
  cases front with
  | nil =>
    obtain rfl : a = b := by simpa using congrArg List.head? heq
    exact Relation.ReflTransGen.refl
  | cons c front =>
    obtain ⟨rfl, hpath⟩ : a = c ∧ path = front ++ b :: back := by simpa using heq
    have hpre : (a :: (front ++ [b])).IsChain g.Holds :=
      h.prefix ⟨back, by simp [hpath]⟩
    exact List.relationReflTransGen_of_exists_isChain_cons _ hpre (by simp)

end Graph

/-! ## The same for the types of a universe -/

namespace Universe

variable {u : Universe} {enumBase : Option String}

/-- A struct holds the types of its instance fields. -/
def Holds (u : Universe) (enumBase : Option String) (a b : FactId) : Prop :=
  (u.fact a).IsStruct enumBase ∧ ∃ field ∈ (u.fact a).instanceFields, field.type = b

/-- A type reaches itself and whatever instance fields of structs lead to. -/
abbrev Reaches (u : Universe) (enumBase : Option String) : FactId → FactId → Prop :=
  Relation.ReflTransGen (u.Holds enumBase)

/-- A struct contains itself when instance fields of structs lead back to it. -/
def ContainsItself (u : Universe) (enumBase : Option String) (n : FactId) : Prop :=
  Relation.TransGen (u.Holds enumBase) n n

/-- Structs of which each holds the next. -/
def IsNesting (u : Universe) (enumBase : Option String) (path : List FactId) : Prop :=
  path.IsChain (u.Holds enumBase) ∧ ∀ n ∈ path, (u.fact n).IsStruct enumBase

/-- The graph of a universe has the steps that its fields make. -/
theorem holds_layoutGraph : (u.layoutGraph enumBase).Holds = u.Holds enumBase := by
  funext a b
  simp [Graph.Holds, Holds, layoutGraph, Fact.standing_eq_struct_iff]

theorem reaches_layoutGraph : (u.layoutGraph enumBase).Reaches = u.Reaches enumBase := by
  rw [Graph.Reaches, Reaches, holds_layoutGraph]

theorem containsItself_layoutGraph :
    (u.layoutGraph enumBase).ContainsItself = u.ContainsItself enumBase := by
  funext n
  rw [Graph.ContainsItself, ContainsItself, holds_layoutGraph]

theorem isNesting_layoutGraph :
    (u.layoutGraph enumBase).IsNesting = u.IsNesting enumBase := by
  funext path
  rw [Graph.IsNesting, IsNesting, holds_layoutGraph]
  simp only [layoutGraph, Fact.standing_eq_struct_iff]

end Universe

end Managed

end TypeBridge
