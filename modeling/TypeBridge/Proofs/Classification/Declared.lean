import TypeBridge.Proofs.Classification.Struct
/-!
# TypeBridge — descriptors of declared types

A type without a fixed descriptor is declared: its descriptor has the type's own
name in the path of its namespaces, a kind, and nothing else. The kind is that
of an enum, of a class, or of the verdict on a struct, and the first of these
that applies.
-/

namespace TypeBridge

open Managed Native

namespace Managed.Universe

variable {u : Universe} {settings : Settings} {n : FactId} {t : Descriptor} {kind : Kind}

/-- **The parts of a declared type.** It has no arguments, no marks and no
header of its own. -/
theorem exists_of_classifyDeclared (h : u.classifyDeclared settings n = .ok t) :
    ∃ kind, ∃ hname : (u.fact n).name ≠ "", (u.surveyKind settings n).2 = .ok kind ∧
      t = { kind, scope := .ofSegments ((u.fact n).namespacePath settings)
            name := (u.fact n).name, name_ne_empty := hname } := by
  rw [classifyDeclared] at h
  rcases hkind : (u.surveyKind settings n).2 with fault | kind
  · rw [hkind] at h
    cases h
  · rw [hkind] at h
    by_cases hname : (u.fact n).name = ""
    · simp [Except.mapError, bind, Except.bind, Descriptor.named, hname] at h
    · simp only [Except.mapError, bind, Except.bind, Descriptor.named, hname] at h
      exact ⟨kind, hname, rfl, (Except.ok.inj h).symm⟩

/-- **The kind of a declared type**: an enum before a class, and a class before
a struct, which alone is asked about its layout. -/
theorem surveyKind_cases (h : (u.surveyKind settings n).2 = .ok kind) :
    (u.fact n).isEnum settings.enumBase = true ∧ kind = .enumeration ∨
    (u.fact n).isEnum settings.enumBase = false ∧
      ((u.fact n).isReferenceType = true ∧ kind = .classWrapper ∨
        (u.fact n).isReferenceType = false ∧ ∃ shared,
          (u.layoutGraph settings.enumBase).hasSharedLayout n = .ok shared ∧
            kind = structKind shared) := by
  rw [surveyKind] at h
  split_ifs at h with henum href
  · exact .inl ⟨henum, (Except.ok.inj h).symm⟩
  · exact .inr ⟨by simpa using henum, .inl ⟨href, (Except.ok.inj h).symm⟩⟩
  · refine .inr ⟨by simpa using henum, .inr ⟨by simpa using href, ?_⟩⟩
    rcases hshared : (u.layoutGraph settings.enumBase).hasSharedLayout n with fault | shared
    · rw [Graph.hasSharedLayout] at hshared
      simp [hshared, Except.map] at h
    · rw [Graph.hasSharedLayout] at hshared
      simp only [hshared, Except.map, Except.ok.injEq] at h
      exact ⟨shared, rfl, h.symm⟩

/-- No declared type is a scalar. -/
theorem kind_ne_primitive_of_surveyKind (h : (u.surveyKind settings n).2 = .ok kind) :
    kind ≠ .primitive := by
  rcases surveyKind_cases h with ⟨-, rfl⟩ | ⟨-, ⟨-, rfl⟩ | ⟨-, shared, -, rfl⟩⟩
  · exact nofun
  · exact nofun
  · cases shared <;> exact nofun

end Managed.Universe

end TypeBridge
