import TypeBridge.Proofs.Layout.Reach
import TypeBridge.Proofs.Resolution.Chain
import TypeBridge.Classification
/-!
# TypeBridge — structs are classified by their layout

A struct that is declared has the kind of its verdict, and where its layout
has none the classifier fails with the same fault. The name is looked at after
the verdict, so a wrong name never hides a fault of the layout.
-/

namespace TypeBridge

open Managed Native

namespace Managed

namespace Universe

variable {u : Universe} {settings : Settings} {n : FactId}

/-- The kind that a verdict on a struct gives it. -/
def structKind (shared : Bool) : Kind :=
  if shared then .blittableStruct else .nonBlittableStructWrapper

/-- What is no pointer and has no fixed type is declared. -/
theorem classify_of_kind_named (hkind : (u.fact n).kind = .named) :
    u.classify settings n = u.classifyDeclared settings n := by
  have hchain : u.pointerChain n = (n, 0) := pointerChain_of_kind_ne (by simp [hkind])
  have hfixed : (u.fact n).fixedNative? = none := if_neg (by simp [hkind])
  simp only [classify, hchain, classifyPointee, hfixed, if_true]
  exact congrFun Except.map_id _

/-- The kind of a struct that is no class is the kind of its verdict. -/
theorem surveyKind_of_isStruct (hstruct : (u.fact n).IsStruct settings.enumBase)
    (href : (u.fact n).isReferenceType = false) : (u.surveyKind settings n).2 =
      ((u.layoutGraph settings.enumBase).hasSharedLayout n).map structKind := by
  have henum : (u.fact n).isEnum settings.enumBase = false := hstruct.2.2.2
  rw [surveyKind, if_neg (by simp [henum]), if_neg (by simp [href])]
  rfl

/-- **A struct is classified by its verdict**: a fault of the layout is the
fault of the classifier, and otherwise the verdict decides on the kind. -/
theorem classify_of_isStruct (hkind : (u.fact n).kind = .named)
    (hstruct : (u.fact n).IsStruct settings.enumBase) (href : (u.fact n).isReferenceType = false) :
    u.classify settings n =
      match (u.layoutGraph settings.enumBase).hasSharedLayout n with
      | .error fault => .error (.layout fault)
      | .ok shared => (Descriptor.named (structKind shared)
          (Scope.ofSegments ((u.fact n).namespacePath settings)) (u.fact n).name).mapError
            .descriptor := by
  rw [classify_of_kind_named hkind, classifyDeclared, surveyKind_of_isStruct hstruct href]
  rcases (u.layoutGraph settings.enumBase).hasSharedLayout n with fault | shared
  · rfl
  · rfl

/-- The faults of a struct's layout are those that its classification has. -/
theorem classify_eq_layout_iff (hkind : (u.fact n).kind = .named)
    (hstruct : (u.fact n).IsStruct settings.enumBase) (href : (u.fact n).isReferenceType = false)
    (fault : LayoutFault FactId) : u.classify settings n = .error (.layout fault) ↔
      (u.layoutGraph settings.enumBase).hasSharedLayout n = .error fault := by
  rw [classify_of_isStruct hkind hstruct href]
  rcases (u.layoutGraph settings.enumBase).hasSharedLayout n with fault' | shared
  · simp
  · -- after a verdict only the name can be wrong
    rcases hnamed : Descriptor.named (structKind shared)
      (Scope.ofSegments ((u.fact n).namespacePath settings)) (u.fact n).name with error | t <;>
      simp [hnamed, Except.mapError]

end Universe

end Managed

end TypeBridge
