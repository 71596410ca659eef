import TypeBridge.Mapping
import TypeBridge.Proofs.Catalogue.Closed
import TypeBridge.Proofs.Classification.Pointer
import TypeBridge.Proofs.Layout.Outcome
/-!
# TypeBridge — what crosses the boundary as it is

A type that both sides lay out alike could cross the boundary as it is, and one
that is no pointer does, unless it is an enum. A pointer is laid out alike
wherever it ends, but crosses by the kind of the type at its end: the number
that an enumerator would, or the raw pointer that a class or a struct of the
managed side would. Only a pointer to what would cross as it is does.

The types are those that get into a universe on some way: the special ones,
all that parsing leaves, and pointers to these. A chain of such a type ends at a
special or a declared one (`Produced.leads`).
-/

namespace TypeBridge

open Managed Native Description

/-- A type whose values cross the boundary as they are, both ways. -/
structure Mapping.PassesUnchanged (m : Mapping) : Prop where
  interopType : m.interopType = m.qualifiedName
  toInterop : m.toInterop = "value"
  fromInterop : m.fromInterop = "value"

/-! ## Types and where they come from -/

namespace Catalogue

variable {enumBase : Option String} {c : Catalogue} {id p : FactId}

/-- What a declared type leads to is a pointer to some type, or that type. -/
theorem Linked.leads_of_reflTransGen (h : c.Linked enumBase) (hid : id ∈ c.declared)
    (hp : Relation.ReflTransGen c.RefersTo id p) :
    ∃ pointers last, c.Leads p pointers last ∧ c.IsTarget last := by
  rcases h.within_of_reflTransGen hid hp with hp | ⟨field, hfield, hp⟩
  · exact ⟨[], p, .here p, .inl hp⟩
  · rcases h.cases_of_passes hfield hp with htarget | ⟨-, -, hleads⟩
    · exact ⟨[], p, .here p, htarget⟩
    · exact hleads

/-- A declared type is a value type or a reference type, and not both. -/
theorem Linked.isValueType_of_declared (h : c.Linked enumBase) (hid : id ∈ c.declared) :
    (c.fact id).isValueType = !(c.fact id).isReferenceType := by
  obtain ⟨d, -, hfact⟩ := h.declaration id hid
  rw [hfact, Declared.isValueType_fact]

end Catalogue

namespace Managed

/-- A special type, or one that is named and of one sort. -/
def Fact.IsEnd (fact : Fact) : Prop :=
  (∃ s, fact = .ofSpecial s) ∨
    fact.kind = .named ∧ fact.isValueType = !fact.isReferenceType

theorem Fact.IsEnd.kind_ne {fact : Fact} (h : fact.IsEnd) : fact.kind ≠ .pointer := by
  rcases h with ⟨s, rfl⟩ | ⟨hkind, -⟩
  · exact nofun
  · simp [hkind]

/-- A special type at the end of a chain is the one that its tag names. -/
theorem Fact.IsEnd.eq_ofSpecial {fact : Fact} {s : Special} (h : fact.IsEnd)
    (hkind : fact.kind = .special) (hs : fact.special = some s) : fact = .ofSpecial s := by
  rcases h with ⟨s', rfl⟩ | ⟨hnamed, -⟩
  · rw [Option.some.inj hs]
  · simp [hnamed] at hkind

/-- A reference type is of the managed side alone. -/
theorem Fact.IsEnd.isManagedOnly {fact : Fact} (h : fact.IsEnd)
    (href : fact.isReferenceType = true) : fact.IsManagedOnly := by
  rcases h with ⟨s, rfl⟩ | ⟨hkind, hvalue⟩
  · have hs : s.isReference = true := href
    have hscalar : s.isLayoutScalar = false := by cases s <;> first | rfl | cases hs
    exact ⟨by simp [Fact.IsLayoutScalar, Fact.ofSpecial, hscalar], nofun,
      by simp [Fact.ofSpecial, hs]⟩
  · exact ⟨by simp [Fact.IsLayoutScalar, hkind], by simp [hkind], by simp [hvalue, href]⟩

namespace Universe

variable {u : Universe} {settings : Settings} {f last : FactId} {pointers : List FactId}
variable {t : Descriptor} {m : Mapping} {s : Special}

/-- The types that get into a universe: special ones, those of a parsed
catalogue that stands at its front, and pointers to any of them. -/
inductive Produced (u : Universe) : FactId → Prop
  | special {f : FactId} {s : Special} : u.fact f = .ofSpecial s → Produced u f
  | parsed {enumBase : Option String} {text : String} {c : Catalogue} {id f : FactId} :
      Catalogue.parse enumBase text = .ok c → (∀ p < c.size, u.fact p = c.fact p) →
      id ∈ c.declared → Relation.ReflTransGen c.RefersTo id f → Produced u f
  | pointer {f next : FactId} {name : String} : u.fact f = .pointer name next →
      Produced u next → Produced u f

/-- **Every chain ends** at a special type or a named one. -/
theorem Produced.leads (h : u.Produced f) :
    ∃ pointers last, u.Leads f pointers last ∧ (u.fact last).IsEnd := by
  induction h with
  | special hs => exact ⟨[], _, .here _, .inl ⟨_, hs⟩⟩
  | @parsed _ _ c _ _ hparse hfront hid hf =>
    have hlinked := Catalogue.linked_of_parse hparse
    obtain ⟨pointers, last, hleads, htarget⟩ := hlinked.leads_of_reflTransGen hid hf
    have hlast : u.fact last = c.fact last :=
      hfront last (lt_size_of_kind (hlinked.kind_of_isTarget htarget).2)
    refine ⟨pointers, last, hleads.congr fun p hp => ?_, ?_⟩
    · rw [hfront p (hleads.lt_size hp)]
    · rw [hlast]
      rcases htarget with hmem | hspecial
      · exact .inr ⟨hlinked.kind_of_declared hmem, hlinked.isValueType_of_declared hmem⟩
      · exact .inl hspecial
  | pointer hpointer _ ih =>
    obtain ⟨pointers, last, hleads, hend⟩ := ih
    exact ⟨_, last, .pointer (by rw [hpointer]; rfl) hleads, hend⟩

/-! ## Kinds at the end of a chain -/

/-- A type that crosses as it is if nothing points at it: no enum, and laid
out alike on both sides. -/
def IsPlain (u : Universe) (settings : Settings) (id : FactId) : Prop :=
  (u.fact id).isEnum settings.enumBase = false ∧
    (u.layoutGraph settings.enumBase).hasSharedLayout id = .ok true

/-- A special type with a fixed descriptor is laid out alike: it is a scalar, or
has no parts. -/
theorem isPlain_ofSpecial (hs : u.fact f = .ofSpecial s) (hnative : s.native? ≠ none) :
    u.IsPlain settings f := by
  refine ⟨by rw [hs]; rfl, ?_⟩
  have hstanding : (u.layoutGraph settings.enumBase).standing f =
      (Fact.ofSpecial s).standing settings.enumBase := by
    rw [← hs]
    rfl
  have hparts : (u.layoutGraph settings.enumBase).parts f = [] := by
    simp [layoutGraph, hs, Fact.instanceFields, Fact.ofSpecial]
  cases hscalar : s.isLayoutScalar with
  | true =>
    have hsettled : (Fact.ofSpecial s).standing settings.enumBase = .settled true := by
      simp [Fact.standing, Fact.ofSpecial, hscalar]
    rw [Graph.hasSharedLayout, Graph.survey, Graph.examine_of_settled (hstanding.trans hsettled)]
  | false =>
    have hvalue : s.isReference = false := by
      cases s <;> first | rfl | exact absurd rfl hnative
    have hstruct : (Fact.ofSpecial s).standing settings.enumBase = .struct := by
      simp [Fact.standing, Fact.ofSpecial, hscalar, hvalue, Fact.isEnum]
    rw [Graph.hasSharedLayout, Graph.survey, nestingLimit,
      Graph.examine_succ (hstanding.trans hstruct) rfl (List.not_mem_nil), hparts]
    rfl

theorem kind_of_native? (h : s.native? = some t) : t.kind = .primitive := by
  cases s <;> cases h <;> rfl

/-- **The kind at the end of a chain** says whether the type there is plain, and
otherwise which sort it is of. -/
theorem kind_of_classifyPointee (hend : (u.fact last).IsEnd)
    (hok : u.classifyPointee settings last = .ok t) :
    (u.IsPlain settings last ∧ t.kind.crossesUnchanged = true) ∨
    ((u.fact last).isEnum settings.enumBase = true ∧ t.kind = .enumeration) ∨
    ((u.fact last).isEnum settings.enumBase = false ∧ ¬ u.IsPlain settings last ∧
      t.kind = if (u.fact last).isReferenceType then .classWrapper
        else .nonBlittableStructWrapper) := by
  rw [classifyPointee] at hok
  rcases hfixed : (u.fact last).fixedNative? with _ | fixed
  · rw [hfixed] at hok
    obtain ⟨kind, hname, hkind, rfl⟩ := exists_of_classifyDeclared hok
    rcases surveyKind_cases hkind with
      ⟨henum, rfl⟩ | ⟨henum, ⟨href, rfl⟩ | ⟨href, shared, hshared, rfl⟩⟩
    · exact .inr (.inl ⟨henum, rfl⟩)
    · -- a reference type is refused at sight
      have hrefused : (u.layoutGraph settings.enumBase).standing last = .settled false :=
        Fact.standing_eq_settled_false_iff.mpr (hend.isManagedOnly href)
      refine .inr (.inr ⟨henum, fun hplain => ?_, by simp [href]⟩)
      exact (Graph.hasSharedLayout_eq_true_iff.mp hplain.2).1.standing_ne hrefused
    · cases shared with
      | true => exact .inl ⟨⟨henum, hshared⟩, rfl⟩
      | false =>
        refine .inr (.inr ⟨henum, fun hplain => ?_, by simp [href, structKind]⟩)
        rw [hplain.2] at hshared
        cases hshared
  · rw [hfixed] at hok
    obtain rfl : fixed = t := Except.ok.inj hok
    obtain ⟨hkind, s, hs, hnative⟩ := Fact.exists_of_fixedNative? hfixed
    refine .inl ⟨isPlain_ofSpecial (hend.eq_ofSpecial hkind hs) (by simp [hnative]), ?_⟩
    rw [kind_of_native? hnative]
    rfl

/-! ## Mappings -/

/-- The mapping of a type that has a descriptor, or none where it cannot be
converted back. -/
theorem describe_of_classify (hok : u.classify settings f = .ok t) :
    match t.fromInterop settings (.operand "value") with
    | .error error => u.describe settings f = .error (.handle error)
    | .ok restored => ∃ m, u.describe settings f = .ok m ∧
        m.qualifiedName = t.rootedSpelling ∧
        m.interopType = t.asInterop.rootedSpelling ∧
        m.toInterop = (t.toInterop (.operand "value")).text ∧ m.fromInterop = restored.text := by
  rcases hfrom : t.fromInterop settings (.operand "value") with error | restored <;>
    simp only [describe, hok, Except.mapError, bind, Except.bind, hfrom, pure, Except.pure,
      Except.ok.injEq, exists_eq_left', and_self]

/-- A kind that crosses as it is has a mapping that says so, with any handle
class or none. -/
theorem describe_of_crossesUnchanged (hok : u.classify settings f = .ok t)
    (h : t.kind.crossesUnchanged = true) :
    ∃ m, u.describe settings f = .ok m ∧ m.PassesUnchanged := by
  have hfrom : t.fromInterop settings (.operand "value") = .ok (.operand "value") := by
    cases hkind : t.kind <;> simp_all [Kind.crossesUnchanged, Descriptor.fromInterop]
  have hto : t.toInterop (.operand "value") = .operand "value" := by
    cases hkind : t.kind <;> simp_all [Kind.crossesUnchanged, Descriptor.toInterop]
  have hdescribe := describe_of_classify hok
  rw [hfrom] at hdescribe
  obtain ⟨m, hm, hname, htype, hout, hback⟩ := hdescribe
  refine ⟨m, hm, ?_, ?_, hback⟩
  · rw [htype, hname, Descriptor.asInterop, if_pos h]
  · rw [hout, hto]
    rfl

/-- An enum crosses as a number, and so does what has its kind. -/
theorem describe_of_enumeration (hok : u.classify settings f = .ok t)
    (h : t.kind = .enumeration) :
    ∃ m, u.describe settings f = .ok m ∧ m.interopType = "::std::uint32_t" ∧
      m.toInterop = "::std::uint32_t(value)" ∧
      m.fromInterop = t.bare.rootedSpelling ++ "(value)" := by
  have hinterop : t.asInterop = .uint32 := by simp [Descriptor.asInterop, h, Kind.crossesUnchanged]
  have hto : t.toInterop (.operand "value") =
      .construct Descriptor.uint32.bare (.operand "value") := by
    simp [Descriptor.toInterop, h, hinterop]
  have hfrom : t.fromInterop settings (.operand "value") =
      .ok (.construct t.bare (.operand "value")) := by
    simp [Descriptor.fromInterop, h]
  have hdescribe := describe_of_classify hok
  rw [hfrom] at hdescribe
  obtain ⟨m, hm, -, htype, hout, hback⟩ := hdescribe
  refine ⟨m, hm, ?_, ?_, ?_⟩
  · rw [htype, hinterop]
    decide
  · rw [hout, hto]
    decide
  · rw [hback]
    simp [Expression.text, String.append_assoc]

/-- What managed code owns crosses as a raw pointer, if it has a mapping. -/
theorem interopType_of_describe (hok : u.classify settings f = .ok t)
    (h : t.kind = if (u.fact last).isReferenceType then .classWrapper
      else .nonBlittableStructWrapper) (hm : u.describe settings f = .ok m) :
    m.interopType = "void*" ∧ m.toInterop =
      if (u.fact last).isReferenceType then "value.GetHandle().GetRaw()" else "value" := by
  have hdescribe := describe_of_classify hok
  rcases hfrom : t.fromInterop settings (.operand "value") with error | restored <;>
    rw [hfrom] at hdescribe
  · rw [hdescribe] at hm
    cases hm
  · obtain ⟨m', hm', -, htype, hout, -⟩ := hdescribe
    obtain rfl : m' = m := Except.ok.inj (hm'.symm.trans hm)
    rw [htype, hout]
    cases href : (u.fact last).isReferenceType <;> rw [href] at h <;>
      simp [Descriptor.asInterop, Descriptor.toInterop, h, Kind.crossesUnchanged] <;> decide

/-- **A type that is laid out alike crosses as it is if what its chain ends at
would**, and always where it is no pointer. A pointer to an enum crosses as a
number, and a pointer to anything of the managed side as a raw pointer. -/
theorem describe_of_hasSharedLayout (hf : u.Produced f) (hok : u.classify settings f = .ok t)
    (hshared : (u.layoutGraph settings.enumBase).hasSharedLayout f = .ok true)
    (henum : (u.fact f).isEnum settings.enumBase = false) :
    ∃ pointers last, u.Leads f pointers last ∧ (u.fact last).kind ≠ .pointer ∧
      (pointers = [] → u.IsPlain settings last) ∧
      (u.IsPlain settings last → ∃ m, u.describe settings f = .ok m ∧ m.PassesUnchanged) ∧
      ((u.fact last).isEnum settings.enumBase = true →
        ∃ m, u.describe settings f = .ok m ∧ m.interopType = "::std::uint32_t" ∧
          m.toInterop = "::std::uint32_t(value)" ∧
          m.fromInterop = t.bare.rootedSpelling ++ "(value)") ∧
      ((u.fact last).isEnum settings.enumBase = false → ¬ u.IsPlain settings last →
        ∀ m, u.describe settings f = .ok m → m.interopType = "void*" ∧ m.toInterop =
          if (u.fact last).isReferenceType then "value.GetHandle().GetRaw()" else "value") := by
  obtain ⟨pointers, last, hleads, hend⟩ := hf.leads
  obtain ⟨t₀, hpointee, hkind⟩ : ∃ t₀, u.classifyPointee settings last = .ok t₀ ∧
      t.kind = t₀.kind := by
    rw [classify_of_leads hleads (Fact.target?_eq_none hend.kind_ne)] at hok
    rcases hpointee : u.classifyPointee settings last with error | t₀
    · rw [hpointee] at hok
      cases hok
    · rw [hpointee] at hok
      obtain rfl := Except.ok.inj hok
      refine ⟨t₀, rfl, ?_⟩
      split_ifs <;> rfl
  refine ⟨pointers, last, hleads, hend.kind_ne, ?_, ?_⟩
  · rintro rfl
    cases hleads
    exact ⟨henum, hshared⟩
  · -- the three kinds exclude each other
    rcases kind_of_classifyPointee hend hpointee with
      ⟨hplain, h⟩ | ⟨hnumber, h⟩ | ⟨hnumber, hplain, h⟩ <;> rw [← hkind] at h
    · refine ⟨fun _ => describe_of_crossesUnchanged hok h, fun hnumber => ?_, fun _ hno => ?_⟩
      · rw [hplain.1] at hnumber
        cases hnumber
      · exact absurd hplain hno
    · refine ⟨fun hplain => ?_, fun _ => describe_of_enumeration hok h, fun hno => ?_⟩
      · rw [hplain.1] at hnumber
        cases hnumber
      · rw [hnumber] at hno
        cases hno
    · refine ⟨fun hyes => absurd hyes hplain, fun hyes => ?_, fun _ _ m hm =>
        interopType_of_describe hok h hm⟩
      rw [hnumber] at hyes
      cases hyes

/-- A string, and a pointer to it. -/
def stringPointer : Universe where
  facts := #[.ofSpecial .string, .pointer "String" 0]

theorem produced_stringPointer : stringPointer.Produced 1 :=
  .pointer rfl (.special (s := .string) rfl)

/-- A pointer to a string is laid out alike and crosses as a raw pointer. -/
theorem stringPointer_crosses_raw : ∃ m, stringPointer.describe {} 1 = .ok m ∧
    m.qualifiedName = "::DotNet::System::String*" ∧ m.interopType = "void*" ∧
    m.toInterop = "value.GetHandle().GetRaw()" := by
  obtain ⟨t, hok⟩ : ∃ t, stringPointer.classify {} 1 = .ok t := ⟨_, rfl⟩
  obtain ⟨m, hm, hname⟩ : ∃ m, stringPointer.describe {} 1 = .ok m ∧
      m.qualifiedName = "::DotNet::System::String*" := ⟨_, rfl, rfl⟩
  obtain ⟨pointers, last, hleads, hkind, -, -, -, hraw⟩ :=
    describe_of_hasSharedLayout produced_stringPointer hok rfl rfl
  obtain ⟨-, rfl⟩ := hleads.unique (Fact.target?_eq_none hkind) (.pointer rfl (.here 0)) rfl
  have hplain : ¬ stringPointer.IsPlain {} 0 := fun hplain => nomatch hplain.2
  obtain ⟨htype, hout⟩ := hraw rfl hplain m hm
  exact ⟨m, hm, hname, htype, hout⟩

/-- So a type that is laid out alike does not always cross as it is. -/
theorem not_describe_of_hasSharedLayout : ¬ ∀ (u : Universe) (settings : Settings) (f : FactId)
    (t : Descriptor), u.Produced f → u.classify settings f = .ok t →
      (u.layoutGraph settings.enumBase).hasSharedLayout f = .ok true →
      (u.fact f).isEnum settings.enumBase = false →
        ∃ m, u.describe settings f = .ok m ∧ m.PassesUnchanged := by
  intro h
  obtain ⟨m, hm, hpasses⟩ := h stringPointer {} 1 _ produced_stringPointer rfl rfl rfl
  obtain rfl := Except.ok.inj hm
  exact absurd hpasses.interopType (by decide)

end Universe

end Managed

end TypeBridge
