import TypeBridge.Proofs.Classification.Crossing
import TypeBridge.Proofs.Classification.Described
/-!
# TypeBridge — what is handed over unconverted

Two tables decide by the kind of a type how its values cross the boundary: one
names the type that crosses, the other writes the expression that makes a value
of it. An expression that leaves the value alone is right if the type is left
alone as well, and for all kinds but two it is (`crosses_cases`): what is no
class but crosses as a raw pointer is not converted to one. Of these two kinds a
classified type has only that of a struct whose layout is not shared
(`kind_of_classify`).

So a value is handed over where another type is asked for if its type is such a
struct or a pointer to one, and in no other case.
-/

namespace TypeBridge

open Managed Native

/-- **The two tables side by side.** A type is left alone in both, or changed in
both, or it crosses as a raw pointer that nothing makes of the value. -/
theorem Native.Descriptor.crosses_cases (t : Descriptor) (operand : String) :
    t.kind.crossesUnchanged = true ∧ t.asInterop = t ∧
      (t.toInterop (.operand operand)).text = operand ∨
    t.kind = .enumeration ∧ t.asInterop = .uint32 ∧
      (t.toInterop (.operand operand)).text = "::std::uint32_t(" ++ operand ++ ")" ∨
    t.kind = .classWrapper ∧ t.asInterop = .voidPointer ∧
      (t.toInterop (.operand operand)).text = operand ++ ".GetHandle().GetRaw()" ∨
    (t.kind = .nonBlittableStructWrapper ∨ t.kind = .unknown) ∧ t.asInterop = .voidPointer ∧
      (t.toInterop (.operand operand)).text = operand := by
  cases hkind : t.kind with
  | primitive | blittableStruct =>
    refine .inl ⟨rfl, ?_, ?_⟩
    · simp [asInterop, hkind, Kind.crossesUnchanged]
    · simp [toInterop, hkind, Expression.text]
  | enumeration =>
    have hinterop : t.asInterop = .uint32 := by simp [asInterop, hkind, Kind.crossesUnchanged]
    refine .inr (.inl ⟨rfl, hinterop, ?_⟩)
    have hspelling : Descriptor.uint32.bare.rootedSpelling = "::std::uint32_t" := by decide
    simp [toInterop, hkind, hinterop, Expression.text, hspelling]
  | classWrapper =>
    refine .inr (.inr (.inl ⟨rfl, ?_, ?_⟩))
    · simp [asInterop, hkind, Kind.crossesUnchanged]
    · simp [toInterop, hkind, Expression.rawHandle, Expression.text, String.append_assoc]
  | nonBlittableStructWrapper | unknown =>
    refine .inr (.inr (.inr ⟨by simp, ?_, ?_⟩))
    · simp [asInterop, hkind, Kind.crossesUnchanged]
    · simp [toInterop, hkind, Expression.text]

namespace Managed.Universe

variable {u : Universe} {settings : Settings} {f last : FactId} {t : Descriptor} {m : Mapping}

/-- A struct whose layout is not shared: a type that has no fixed descriptor, is
neither an enum nor a class, and is refused. -/
structure IsWrappedStruct (u : Universe) (settings : Settings) (id : FactId) : Prop where
  fixedNative? : (u.fact id).fixedNative? = none
  isEnum : (u.fact id).isEnum settings.enumBase = false
  isReferenceType : (u.fact id).isReferenceType = false
  hasSharedLayout : (u.layoutGraph settings.enumBase).hasSharedLayout id = .ok false

/-- The kind of what is no pointer is known, and is that of a wrapped struct only
for one. -/
theorem kind_eq_wrapper_iff (h : u.classifyPointee settings last = .ok t) :
    t.kind ≠ .unknown ∧
      (t.kind = .nonBlittableStructWrapper ↔ u.IsWrappedStruct settings last) := by
  rw [classifyPointee] at h
  rcases hfixed : (u.fact last).fixedNative? with _ | fixed <;> rw [hfixed] at h
  · obtain ⟨kind, hname, hkind, rfl⟩ := exists_of_classifyDeclared h
    rcases surveyKind_cases hkind with
      ⟨henum, rfl⟩ | ⟨henum, ⟨href, rfl⟩ | ⟨href, shared, hshared, rfl⟩⟩
    · refine ⟨by simp, iff_of_false (by simp) fun hw => ?_⟩
      simp [hw.isEnum] at henum
    · refine ⟨by simp, iff_of_false (by simp) fun hw => ?_⟩
      simp [hw.isReferenceType] at href
    · cases shared with
      | true =>
        refine ⟨by simp [structKind], iff_of_false (by simp [structKind]) fun hw => ?_⟩
        rw [hw.hasSharedLayout] at hshared
        cases hshared
      | false => exact ⟨by simp [structKind], iff_of_true rfl ⟨hfixed, henum, href, hshared⟩⟩
  · obtain rfl : fixed = t := Except.ok.inj h
    obtain ⟨-, s, -, hnative⟩ := Fact.exists_of_fixedNative? hfixed
    rw [kind_of_native? hnative]
    refine ⟨by simp, iff_of_false (by simp) fun hw => ?_⟩
    rw [hw.fixedNative?] at hfixed
    cases hfixed

/-- **The kind of a classified type**, which for a pointer is that of what stands
at the end of its chain. -/
theorem kind_of_classify (h : u.classify settings f = .ok t) :
    t.kind ≠ .unknown ∧ (t.kind = .nonBlittableStructWrapper ↔
      u.IsWrappedStruct settings (u.pointerChain f).1) := by
  simp only [classify] at h
  rcases hpointee : u.classifyPointee settings (u.pointerChain f).1 with error | t₀ <;>
    rw [hpointee] at h
  · cases h
  · have hkind : t.kind = t₀.kind := by
      rw [← Except.ok.inj h]
      split_ifs <;> rfl
    rw [hkind]
    exact kind_eq_wrapper_iff hpointee

/-- What a mapping says of the crossing is what the tables say of its type. -/
theorem crossing_of_describe (hm : u.describe settings f = .ok m) :
    ∃ t, u.classify settings f = .ok t ∧ m.qualifiedName = t.rootedSpelling ∧
      m.interopType = t.asInterop.rootedSpelling ∧
      m.toInterop = (t.toInterop (.operand "value")).text := by
  obtain ⟨-, t, ht, -⟩ := tellsOf_of_describe hm
  have hdescribe := describe_of_classify ht
  rcases hfrom : t.fromInterop settings (.operand "value") with error | restored <;>
    rw [hfrom] at hdescribe
  · rw [hdescribe] at hm
    cases hm
  · obtain ⟨m', hm', hname, htype, hout, -⟩ := hdescribe
    obtain rfl : m' = m := Except.ok.inj (hm'.symm.trans hm)
    exact ⟨t, ht, hname, htype, hout⟩

/-- **Unconverted values have the type that crosses**, unless they belong to a
wrapped struct or point at one. Such a value is never converted, and a raw
pointer is what is asked for, which its own type is at most by name. What is
converted is converted to the type that crosses. -/
theorem interopType_of_unconverted (hm : u.describe settings f = .ok m) :
    (m.toInterop = "value" → (m.interopType = m.qualifiedName ↔
      ¬ u.IsWrappedStruct settings (u.pointerChain f).1 ∨ m.qualifiedName = "void*")) ∧
    (u.IsWrappedStruct settings (u.pointerChain f).1 →
      m.toInterop = "value" ∧ m.interopType = "void*") ∧
    (m.toInterop ≠ "value" →
      m.interopType = "::std::uint32_t" ∧ m.toInterop = "::std::uint32_t(value)" ∨
      m.interopType = "void*" ∧ m.toInterop = "value.GetHandle().GetRaw()") := by
  obtain ⟨t, ht, hname, htype, hout⟩ := crossing_of_describe hm
  obtain ⟨hknown, hwrapped⟩ := kind_of_classify ht
  have hraw : Descriptor.voidPointer.rootedSpelling = "void*" := by decide
  rw [← hwrapped, hname, htype, hout]
  rcases t.crosses_cases "value" with
    ⟨hkind, hinterop, htext⟩ | ⟨hkind, hinterop, htext⟩ | ⟨hkind, hinterop, htext⟩ |
      ⟨hkind, hinterop, htext⟩ <;> rw [hinterop, htext]
  · have hne : t.kind ≠ .nonBlittableStructWrapper := fun hw => by
      rw [hw] at hkind
      cases hkind
    exact ⟨fun _ => iff_of_true rfl (.inl hne), fun hw => absurd hw hne, fun h => absurd rfl h⟩
  · refine ⟨fun h => absurd h (by decide), fun hw => ?_, fun _ => .inl ⟨by decide, by decide⟩⟩
    rw [hw] at hkind
    cases hkind
  · refine ⟨fun h => absurd h (by decide), fun hw => ?_, fun _ => .inr ⟨hraw, by decide⟩⟩
    rw [hw] at hkind
    cases hkind
  · have hw : t.kind = .nonBlittableStructWrapper := hkind.resolve_right hknown
    refine ⟨fun _ => ?_, fun _ => ⟨rfl, hraw⟩, fun h => absurd rfl h⟩
    rw [hraw]
    simp [hw, eq_comm]

/-- A struct that holds a class. -/
def anchoredPath : Universe where
  facts := #[
    { kind := .named
      name := "Path"
      isValueType := true
      fields := [{ name := "owner", type := 1 }] },
    { kind := .named, name := "Anchor", isReferenceType := true }]

/-- A wrapped struct is handed over as it is where a raw pointer is asked for. -/
theorem anchoredPath_unconverted : ∃ m, anchoredPath.describe {} 0 = .ok m ∧
    m.qualifiedName = "::DotNet::Path" ∧ m.toInterop = "value" ∧ m.interopType = "void*" := by
  obtain ⟨m, hm, hname⟩ : ∃ m, anchoredPath.describe {} 0 = .ok m ∧
      m.qualifiedName = "::DotNet::Path" := ⟨_, rfl, rfl⟩
  obtain ⟨-, hwrapped, -⟩ := interopType_of_unconverted hm
  obtain ⟨hout, htype⟩ := hwrapped ⟨rfl, rfl, rfl, rfl⟩
  exact ⟨m, hm, hname, hout, htype⟩

/-- So what is handed over unconverted does not always have the type that
crosses. -/
theorem not_interopType_of_unconverted : ¬ ∀ (u : Universe) (settings : Settings) (f : FactId)
    (m : Mapping), u.describe settings f = .ok m → m.toInterop = "value" →
      m.interopType = m.qualifiedName := by
  intro h
  have hname := h anchoredPath {} 0 _ rfl rfl
  revert hname
  decide

end Managed.Universe

end TypeBridge
