import TypeBridge.Proofs.Catalogue.RoundTrip
import TypeBridge.Proofs.Description.Occurrence
/-!
# TypeBridge — from declarations to facts

Before anything is linked, the declared types of a catalogue are the
declarations that occur in the outline, one fact for each, in the order of the
text (`builds_declarations`). Each fact says what its declaration does, and the
namespaces are the paths of the blocks around it, one after the other. The type
of a field is a chain of pointers, one for each star, and the mention at its end
is the dotted name as it is written.
-/

namespace TypeBridge

open Managed Description

namespace Description

/-- A field is built as it is written. -/
structure FieldDecl.Builds (u : Universe) (decl : FieldDecl) (field : Field) : Prop where
  name_eq : field.name = decl.name
  isStatic_iff : field.isStatic = true ↔ .mark .staticWord ∈ decl.tokens
  type : ∃ pointers mention, u.Leads field.type pointers mention ∧
    pointers.length = decl.type.stars ∧
    (∀ p ∈ pointers, ∃ next, u.fact p = .pointer decl.type.target.name next) ∧
    u.fact mention = .mention decl.type.target.path decl.type.target.name

/-- A declaration is built as a fact. -/
structure Occurrence.Builds (u : Universe) (enumBase : Option String) (occ : Occurrence)
    (fact : Fact) : Prop where
  kind_eq : fact.kind = .named
  name_eq : fact.name = occ.decl.name
  namespaces_eq : fact.namespaces = occ.around.flatMap DottedName.segments
  sort : Catalogue.TellsSort enumBase fact occ.decl
  special_eq : fact.special = none
  pointee_eq : fact.pointee = none
  fields : List.Forall₂ (FieldDecl.Builds u) occ.decl.fields fact.fields

variable {u : Universe} {decl : FieldDecl} {field : Field} {enumBase : Option String}
variable {fact : Fact}

/-- Of the tokens of a field only the first may be the mark. -/
theorem FieldDecl.mem_tokens_iff : .mark .staticWord ∈ decl.tokens ↔ decl.isStatic = true := by
  cases hstatic : decl.isStatic <;>
    simp [FieldDecl.tokens, TypeRef.tokens, DottedName.tokens, hstatic]

theorem FieldDecl.IsAt.builds (h : decl.IsAt u field) : decl.Builds u field := by
  obtain ⟨pointers, mention, hleads, hstars, hmention⟩ := h.type
  refine ⟨h.name_eq, ?_, pointers, mention, hleads, hstars, fun p hp => ?_, hmention⟩
  · rw [h.isStatic_eq, mem_tokens_iff]
  · exact h.pointer_eq p (hleads.passes_of_mem hp) (hleads.kind_eq_pointer hp)

theorem Declared.IsFact.builds {occ : Occurrence} (h : occ.declared.IsFact u enumBase fact) :
    occ.Builds u enumBase fact := by
  obtain ⟨hfact, hfields⟩ := h
  obtain ⟨front, around, decl⟩ := occ
  refine ⟨?_, ?_, ?_, ?_, ?_, ?_, hfields.imp fun _ _ hfield => hfield.builds⟩ <;> rw [hfact] <;>
    cases decl <;> simp [Declared.fact, Occurrence.declared, TypeDecl.name, Catalogue.TellsSort]

end Description

namespace Catalogue

/-- **The facts are the declarations**: each one that occurs in an outline, once,
in the order of the text, with the namespaces of all blocks around it. What else
is written down has no base type. -/
theorem builds_declarations (enumBase : Option String) (o : Outline) :
    (∀ occ, occ ∈ o.occurrences ↔ o.Declares occ) ∧
    o.occurrences.Pairwise Occurrence.Precedes ∧
    (ofOutline enumBase o).declared.Nodup ∧
    List.Forall₂ (fun occ id => occ.Builds (ofOutline enumBase o).toUniverse enumBase
      ((ofOutline enumBase o).fact id)) o.occurrences (ofOutline enumBase o).declared ∧
    ∀ p, p ∉ (ofOutline enumBase o).declared →
      ((ofOutline enumBase o).fact p).baseType = none := by
  refine ⟨fun _ => Outline.mem_occurrences_iff, o.pairwise_occurrences, ?_, ?_, fun p hp => ?_⟩
  · exact List.nodup_range
  · have hfacts := (isFact_ofOutline enumBase o).1
    rw [Outline.declared_eq_map, List.forall₂_map_left_iff] at hfacts
    exact hfacts.imp fun _ _ hfact => hfact.builds
  · rcases isTypePart_ofOutline hp with ⟨_, _, hfact⟩ | ⟨_, _, hfact⟩ <;> rw [hfact] <;> rfl

end Catalogue

end TypeBridge
