import TypeBridge.Proofs.Classification.Described
import TypeBridge.Proofs.Preamble.Requirements
import TypeBridge.Proofs.Traversal
/-!
# TypeBridge — mappings and the opening of a file

A mapping tells what each kind of file needs for its type, and the opening of a
file has what all types need together. For the declared types of a description
the two agree (`preamble_of_mappings`): a header declares every one of them
ahead and includes nothing, and a source file includes every one and declares
nothing.
-/

namespace TypeBridge

open Managed Native

namespace Native.Descriptor

variable {t : Descriptor}

/-- A type that is neither a scalar nor has a header of its own. -/
structure IsDeclared (t : Descriptor) : Prop where
  kind_ne : t.kind ≠ .primitive
  header_eq : t.header = none

theorem IsDeclared.exists_forwardDeclaration (h : t.IsDeclared) :
    ∃ line, t.forwardDeclaration? = some line := by
  rw [forwardDeclaration?, if_neg (by simp [canBeDeclaredAhead, h.kind_ne, h.header_eq])]
  dsimp only
  split <;> exact ⟨_, rfl⟩

theorem IsDeclared.headerInclude?_eq (h : t.IsDeclared) : t.headerInclude? = none := by
  simp [headerInclude?, h.header_eq, h.kind_ne]

theorem IsDeclared.sourceInclude?_eq (h : t.IsDeclared) : t.sourceInclude? = some t.includePath :=
  if_neg h.kind_ne

end Native.Descriptor

namespace Managed.Universe

variable {u : Universe} {settings : Settings} {id : FactId} {t : Descriptor} {m : Mapping}

theorem isDeclared_of_classify (hkind : (u.fact id).kind = .named)
    (h : u.classify settings id = .ok t) : t.IsDeclared := by
  rw [classify_of_kind_named hkind] at h
  obtain ⟨kind, hname, hsurvey, rfl⟩ := exists_of_classifyDeclared h
  exact ⟨kind_ne_primitive_of_surveyKind hsurvey, rfl⟩

end Managed.Universe

variable {types : List Descriptor}

/-- **A header of declared types** declares each of them ahead. -/
theorem preamble_header (h : ∀ t ∈ types, t.IsDeclared) :
    ∃ lines : List String,
      preamble .header types = "#pragma once\n\n" ++ String.join (lines.map (· ++ "\n")) ∧
      lines.Pairwise (· < ·) ∧ ∀ x, x ∈ lines ↔ ∃ t ∈ types, t.forwardDeclaration? = some x := by
  have hneeds := Requirements.covers_ofTypes .header types
  have hnone : (Requirements.ofTypes .header types).includes = [] := by
    refine List.eq_nil_iff_forall_not_mem.mpr fun x hx => ?_
    obtain ⟨t, ht, hinclude⟩ := (hneeds.mem_includes x).mp hx
    rw [Emission.include?, (h t ht).headerInclude?_eq] at hinclude
    cases hinclude
  refine ⟨_, ?_, hneeds.declarations_ascending, hneeds.mem_declarations⟩
  simp [preamble, hnone]

/-- **A source file of declared types** includes each of them. -/
theorem preamble_source (types : List Descriptor) :
    ∃ operands : List String, preamble .source types =
        String.join (operands.map fun operand => "#include " ++ operand ++ "\n") ∧
      operands.Pairwise (· < ·) ∧ ∀ x, x ∈ operands ↔ ∃ t ∈ types, t.sourceInclude? = some x := by
  have hneeds := Requirements.covers_ofTypes .source types
  have hnone : (Requirements.ofTypes .source types).declarations = [] := by
    refine List.eq_nil_iff_forall_not_mem.mpr fun x hx => ?_
    obtain ⟨t, -, hdeclaration⟩ := (hneeds.mem_declarations x).mp hx
    cases hdeclaration
  refine ⟨_, ?_, hneeds.includes_ascending, hneeds.mem_includes⟩
  simp [preamble, hnone]

namespace Catalogue

variable {text : String} {c : Catalogue} {settings : Settings} {mappings : List Mapping}

/-- Mappings come with the descriptors of their types. -/
theorem exists_classifyAll (hnamed : ∀ id ∈ c.declared, (c.fact id).kind = .named)
    (h : c.describeAll settings c.declared = .ok mappings) :
    ∃ types, c.classifyAll settings c.declared = .ok types ∧ (∀ t ∈ types, t.IsDeclared) ∧
      List.Forall₂ (fun t (m : Mapping) => m.TellsOf t) types mappings := by
  obtain ⟨types, hclassify, hmappings⟩ := exists_between_of_forall₂ (mapM_eq_ok_iff.mp h)
    fun id hid m hm => (Universe.tellsOf_of_describe hm).2
  refine ⟨types, mapM_eq_ok_iff.mpr hclassify, fun t ht => ?_, hmappings⟩
  obtain ⟨id, hid, ht⟩ := exists_of_forall₂ hclassify ht
  exact Universe.isDeclared_of_classify (hnamed id hid) ht

/-- What some of the types asks for, some of the mappings tells. -/
theorem exists_mem_iff {types : List Descriptor} {R : Descriptor → Mapping → Prop}
    {asks : Descriptor → Option String} {tells : Mapping → Option String}
    (h : List.Forall₂ R types mappings) (hsame : ∀ t m, R t m → tells m = asks t) (x : String) :
    (∃ t ∈ types, asks t = some x) ↔ ∃ m ∈ mappings, tells m = some x := by
  constructor
  · rintro ⟨t, ht, hx⟩
    obtain ⟨m, hm, hpair⟩ := exists_of_forall₂ h.flip ht
    exact ⟨m, hm, (hsame t m hpair).trans hx⟩
  · rintro ⟨m, hm, hx⟩
    obtain ⟨t, ht, hpair⟩ := exists_of_forall₂ h hm
    exact ⟨t, ht, (hsame t m hpair).symm.trans hx⟩

/-- **Mappings and preambles agree.** When every declared type of a description
has a mapping, a header has the guard and the forward declarations of the
mappings, and a source file has their includes, each in ascending order and
once. Every mapping has both, and no include for a header. -/
theorem preamble_of_mappings (hparse : parse settings.enumBase text = .ok c)
    (hdescribe : c.describeAll settings c.declared = .ok mappings) :
    ∃ (types : List Descriptor) (declarations operands : List String),
      c.classifyAll settings c.declared = .ok types ∧
      (preamble .header types =
          "#pragma once\n\n" ++ String.join (declarations.map fun line => line ++ "\n") ∧
        declarations.Pairwise (· < ·) ∧
        ∀ x, x ∈ declarations ↔ ∃ m ∈ mappings, m.forwardDeclaration = some x) ∧
      (preamble .source types =
          String.join (operands.map fun operand => "#include " ++ operand ++ "\n") ∧
        operands.Pairwise (· < ·) ∧
        ∀ x, x ∈ operands ↔ ∃ m ∈ mappings, m.sourceInclude = some x) ∧
      List.Forall₂ (fun id (m : Mapping) => c.describe settings id = .ok m ∧
        m.headerInclude = none ∧ (∃ x ∈ declarations, m.forwardDeclaration = some x) ∧
          ∃ x ∈ operands, m.sourceInclude = some x) c.declared mappings := by
  have hlinked := linked_of_parse hparse
  obtain ⟨types, hclassify, hdeclared, hmappings⟩ :=
    exists_classifyAll (fun id hid => hlinked.kind_of_declared hid) hdescribe
  obtain ⟨declarations, hheader, hascending, hmem⟩ := preamble_header hdeclared
  obtain ⟨operands, hsource, hascending', hmem'⟩ := preamble_source types
  refine ⟨types, declarations, operands, hclassify, ⟨hheader, hascending, fun x => ?_⟩,
    ⟨hsource, hascending', fun x => ?_⟩, ?_⟩
  · rw [hmem, exists_mem_iff hmappings fun t m h => h.forwardDeclaration]
  · rw [hmem', exists_mem_iff hmappings fun t m h => h.sourceInclude]
  · refine forall₂_imp_of_mem (mapM_eq_ok_iff.mp hdescribe) fun id hid m hm h => ⟨h, ?_⟩
    obtain ⟨t, ht, htells⟩ := exists_of_forall₂ hmappings hm
    obtain ⟨line, hline⟩ := (hdeclared t ht).exists_forwardDeclaration
    refine ⟨htells.headerInclude.trans (hdeclared t ht).headerInclude?_eq,
      ⟨line, (hmem line).mpr ⟨t, ht, hline⟩, htells.forwardDeclaration.trans hline⟩,
      ⟨t.includePath, (hmem' _).mpr ⟨t, ht, (hdeclared t ht).sourceInclude?_eq⟩,
        htells.sourceInclude.trans (hdeclared t ht).sourceInclude?_eq⟩⟩

/-- Two types of one spelling share their include, and each is declared ahead. -/
theorem twins_preambles :
    ∃ (c : Catalogue) (types : List Descriptor) (operands lines : List String),
    parse (some "System.Enum") twins.written = .ok c ∧ c.classifyAll {} c.declared = .ok types ∧
    preamble .source types =
      String.join (operands.map fun operand => "#include " ++ operand ++ "\n") ∧
    "<DotNet/Shapes/Widget.h>" ∈ operands ∧
    preamble .header types =
      "#pragma once\n\n" ++ String.join (lines.map fun line => line ++ "\n") ∧
    "namespace DotNet::Shapes \x7b class Widget; \x7d" ∈ lines ∧
    "namespace DotNet::Shapes \x7b struct Widget; \x7d" ∈ lines := by
  obtain ⟨c, m, m', hlink, hdescribe, hinclude, hclass, hstruct⟩ :
      ∃ c m m', (ofOutline (some "System.Enum") twins.preferred).link = .ok c ∧
        c.describeAll {} c.declared = .ok [m, m'] ∧
        m.sourceInclude = some "<DotNet/Shapes/Widget.h>" ∧
        m.forwardDeclaration = some "namespace DotNet::Shapes \x7b class Widget; \x7d" ∧
        m'.forwardDeclaration = some "namespace DotNet::Shapes \x7b struct Widget; \x7d" :=
    ⟨_, _, _, rfl, rfl, rfl, rfl, rfl⟩
  have hparse : parse (some "System.Enum") twins.written = .ok c :=
    parse_written_of_link (by decide) hlink
  obtain ⟨types, lines, operands, hclassify, ⟨hheader, -, hlines⟩, ⟨hsource, -, hoperands⟩, -⟩ :=
    @preamble_of_mappings _ _ {} _ hparse hdescribe
  exact ⟨c, types, operands, lines, hparse, hclassify, hsource,
    (hoperands _).mpr ⟨m, by simp, hinclude⟩, hheader, (hlines _).mpr ⟨m, by simp, hclass⟩,
    (hlines _).mpr ⟨m', by simp, hstruct⟩⟩

end Catalogue

end TypeBridge
