import TypeBridge.Mapping
import TypeBridge.Proofs.Classification.Collision
import TypeBridge.Proofs.Traversal
/-!
# TypeBridge — which declared types have a mapping

A declared type has a name, so only a fault of its layout keeps it from having a
descriptor (`Linked.classify_cases`). Then it has a mapping too, unless it is a
class and there is no handle class to give it back by
(`Linked.exists_describe_iff`).
-/

namespace TypeBridge

open Managed Native

/-- What a mapping tells of a type by its descriptor. -/
structure Mapping.TellsOf (t : Descriptor) (m : Mapping) : Prop where
  qualifiedName : m.qualifiedName = t.rootedSpelling
  parameterType : m.parameterType = t.asParameter.rootedSpelling
  interopType : m.interopType = t.asInterop.rootedSpelling
  forwardDeclaration : m.forwardDeclaration = t.forwardDeclaration?
  headerInclude : m.headerInclude = t.headerInclude?
  sourceInclude : m.sourceInclude = t.sourceInclude?

namespace Managed.Universe

variable {u : Universe} {settings : Settings} {id : FactId} {t : Descriptor} {m : Mapping}

/-- **A mapping** has the name of its type and tells of its descriptor. -/
theorem tellsOf_of_describe (h : u.describe settings id = .ok m) :
    m.name = u.qualifiedName id ∧ ∃ t, u.classify settings id = .ok t ∧ m.TellsOf t := by
  rw [describe] at h
  rcases hclassify : u.classify settings id with error | t
  · rw [hclassify] at h
    cases h
  · rcases hfrom : t.fromInterop settings (.operand "value") with error | restored <;>
      simp only [hclassify, hfrom, Except.mapError, bind, Except.bind, pure, Except.pure,
        reduceCtorEq, Except.ok.injEq] at h
    subst h
    exact ⟨rfl, t, rfl, ⟨rfl, rfl, rfl, rfl, rfl, rfl⟩⟩

/-- A fault of the classification is one of the mapping. -/
theorem describe_of_classify_error {fault : ClassificationError}
    (h : u.classify settings id = .error fault) :
    u.describe settings id = .error (.classification fault) := by
  rw [describe, h]
  rfl

/-- With a descriptor there is a mapping, but for a class without a handle. -/
theorem describe_eq_error_iff_of_classify (h : u.classify settings id = .ok t)
    {error : MappingError} : u.describe settings id = .error error ↔
      t.kind = .classWrapper ∧ ∃ e, error = .handle e ∧ settings.handleType = .error e := by
  rw [describe, h]
  by_cases hkind : t.kind = .classWrapper
  · have hfrom : t.fromInterop settings (.operand "value") = settings.handleType.map fun handle =>
        .construct t.bare (.construct handle (.operand "value")) := by
      simp [Descriptor.fromInterop, hkind]
    rcases hhandle : settings.handleType with e | handle <;>
      simp [Except.mapError, bind, Except.bind, pure, Except.pure, hfrom, hhandle, Except.map,
        hkind, eq_comm]
  · obtain ⟨restored, hfrom⟩ :
        ∃ restored, t.fromInterop settings (.operand "value") = .ok restored := by
      rw [Descriptor.fromInterop]
      split <;> first | exact ⟨_, rfl⟩ | exact absurd ‹_› hkind
    simp [Except.mapError, bind, Except.bind, pure, Except.pure, hfrom, hkind]

/-- Only the layout of a struct can leave a kind open. -/
theorem layout_of_surveyKind_error {fault : LayoutFault FactId}
    (h : (u.surveyKind settings id).2 = .error fault) : (u.fact id).isReferenceType = false ∧
      (u.layoutGraph settings.enumBase).hasSharedLayout id = .error fault := by
  rw [surveyKind] at h
  split_ifs at h with henum href
  rcases hshared : (u.layoutGraph settings.enumBase).hasSharedLayout id with fault' | shared <;>
    rw [Graph.hasSharedLayout] at hshared <;> simp only [hshared, Except.map] at h
  · obtain rfl := Except.error.inj h
    exact ⟨by simpa using href, rfl⟩
  · cases h

end Managed.Universe

namespace Catalogue.Linked

variable {c : Catalogue} {settings : Settings} {id : FactId} {t : Descriptor} {error : HandleError}

variable (h : c.Linked settings.enumBase)

include h

/-- A class is no enum. -/
theorem isEnum_of_isReferenceType (hid : id ∈ c.declared)
    (href : (c.fact id).isReferenceType = true) :
    (c.fact id).isEnum settings.enumBase = false := by
  obtain ⟨d, -, hfact⟩ := h.declaration id hid
  rw [hfact] at href ⊢
  unfold Description.Declared.fact at href ⊢
  split at href <;> first | rfl | cases href

/-- **A declared type has a descriptor**, or its layout has a fault. -/
theorem classify_cases (hid : id ∈ c.declared) :
    (∃ t, c.classify settings id = .ok t ∧
      (t.kind = .classWrapper ↔ (c.fact id).isReferenceType = true)) ∨
    ∃ fault, c.classify settings id = .error (.layout fault) ∧
      (c.fact id).isReferenceType = false ∧
      (c.layoutGraph settings.enumBase).hasSharedLayout id = .error fault := by
  have hname : (c.fact id).name ≠ "" :=
    Description.ne_empty_of_isName (h.isName_of_declared hid).1
  rw [Universe.classify_of_kind_named (h.kind_of_declared hid), Universe.classifyDeclared]
  rcases hkind : (c.surveyKind settings id).2 with fault | kind
  · obtain ⟨href, hlayout⟩ := Universe.layout_of_surveyKind_error hkind
    exact .inr ⟨fault, rfl, href, hlayout⟩
  · have hclass : kind = .classWrapper ↔ (c.fact id).isReferenceType = true := by
      rcases Universe.surveyKind_cases hkind with
        ⟨henum, rfl⟩ | ⟨-, ⟨href, rfl⟩ | ⟨href, shared, -, rfl⟩⟩
      · refine iff_of_false (by simp) fun href => ?_
        rw [h.isEnum_of_isReferenceType hid href] at henum
        cases henum
      · exact iff_of_true rfl href
      · cases shared <;> simp [Universe.structKind, href]
    obtain ⟨t, hnamed, rfl⟩ : ∃ t, Descriptor.named kind
        (Scope.ofSegments ((c.fact id).namespacePath settings)) (c.fact id).name = .ok t ∧
          t.kind = kind := ⟨_, dif_neg hname, rfl⟩
    refine .inl ⟨t, ?_, hclass⟩
    simp only [Except.mapError, bind, Except.bind, hnamed]

theorem kind_eq_classWrapper_iff (hid : id ∈ c.declared) (ht : c.classify settings id = .ok t) :
    t.kind = .classWrapper ↔ (c.fact id).isReferenceType = true := by
  rcases h.classify_cases hid with ⟨t', ht', hclass⟩ | ⟨fault, hfault, -⟩
  · obtain rfl : t' = t := Except.ok.inj (ht'.symm.trans ht)
    exact hclass
  · rw [ht] at hfault
    cases hfault

/-- **A declared type has a mapping** if it has a descriptor, and if there is a
handle for it in case it is a class. -/
theorem exists_describe_iff (hid : id ∈ c.declared) : (∃ m, c.describe settings id = .ok m) ↔
    (∃ t, c.classify settings id = .ok t) ∧
      ((c.fact id).isReferenceType = true → ∃ handle, settings.handleType = .ok handle) := by
  constructor
  · rintro ⟨m, hm⟩
    obtain ⟨-, t, ht, -⟩ := Universe.tellsOf_of_describe hm
    refine ⟨⟨t, ht⟩, fun href => ?_⟩
    rcases hhandle : settings.handleType with e | handle
    · rw [(Universe.describe_eq_error_iff_of_classify ht).mpr
        ⟨(h.kind_eq_classWrapper_iff hid ht).mpr href, e, rfl, hhandle⟩] at hm
      cases hm
    · exact ⟨handle, rfl⟩
  · rintro ⟨⟨t, ht⟩, hclass⟩
    rcases hm : c.describe settings id with error | m
    · obtain ⟨hkind, e, -, hhandle⟩ := (Universe.describe_eq_error_iff_of_classify ht).mp hm
      obtain ⟨handle, hok⟩ := hclass ((h.kind_eq_classWrapper_iff hid ht).mp hkind)
      rw [hhandle] at hok
      cases hok
    · exact ⟨m, rfl⟩

/-- Only a class lacks a handle. -/
theorem describe_eq_handle_iff (hid : id ∈ c.declared) :
    c.describe settings id = .error (.handle error) ↔
      (c.fact id).isReferenceType = true ∧ settings.handleType = .error error := by
  rcases h.classify_cases hid with ⟨t, ht, hclass⟩ | ⟨fault, hfault, href, -⟩
  · rw [Universe.describe_eq_error_iff_of_classify ht, hclass]
    simp
  · simp [Universe.describe_of_classify_error hfault, href]

/-- What else a declared type lacks is a layout. -/
theorem layout_of_describe_error {error : ClassificationError} (hid : id ∈ c.declared)
    (herror : c.describe settings id = .error (.classification error)) :
    ∃ fault, error = .layout fault ∧
      (c.layoutGraph settings.enumBase).hasSharedLayout id = .error fault := by
  rcases h.classify_cases hid with ⟨t, ht, -⟩ | ⟨fault, hfault, -, hlayout⟩
  · obtain ⟨-, e, he, -⟩ := (Universe.describe_eq_error_iff_of_classify ht).mp herror
    cases he
  · rw [Universe.describe_of_classify_error hfault] at herror
    cases herror
    exact ⟨fault, rfl, hlayout⟩

/-- **The first class decides** when there is no handle, if every type in front of
it has a descriptor. -/
theorem describeAll_eq_handle_iff : c.describeAll settings c.declared = .error (.handle error) ↔
    settings.handleType = .error error ∧ ∃ before id after, c.declared = before ++ id :: after ∧
      (∀ p ∈ before, (c.fact p).isReferenceType = false ∧ ∃ t, c.classify settings p = .ok t) ∧
      (c.fact id).isReferenceType = true := by
  rw [Universe.describeAll, mapM_eq_error_iff]
  constructor
  · rintro ⟨before, id, after, hsplit, hbefore, herror⟩
    have hmem : ∀ p ∈ before ++ id :: after, p ∈ c.declared := fun p hp => hsplit ▸ hp
    obtain ⟨href, hhandle⟩ := (h.describe_eq_handle_iff (hmem id (by simp))).mp herror
    refine ⟨hhandle, before, id, after, hsplit, fun p hp => ?_, href⟩
    obtain ⟨ht, hclass⟩ := (h.exists_describe_iff (hmem p (by simp [hp]))).mp (hbefore p hp)
    refine ⟨Bool.eq_false_iff.mpr fun href => ?_, ht⟩
    obtain ⟨handle, hok⟩ := hclass href
    rw [hhandle] at hok
    cases hok
  · rintro ⟨hhandle, before, id, after, hsplit, hbefore, href⟩
    have hmem : ∀ p ∈ before ++ id :: after, p ∈ c.declared := fun p hp => hsplit ▸ hp
    refine ⟨before, id, after, hsplit, fun p hp => ?_, ?_⟩
    · obtain ⟨hvalue, ht⟩ := hbefore p hp
      exact (h.exists_describe_iff (hmem p (by simp [hp]))).mpr ⟨ht, by simp [hvalue]⟩
    · exact (h.describe_eq_handle_iff (hmem id (by simp))).mpr ⟨href, hhandle⟩

end Catalogue.Linked

end TypeBridge
