import TypeBridge.Proofs.Catalogue.Linking
import TypeBridge.Proofs.Catalogue.Syntax
import TypeBridge.Proofs.Description.Written
/-!
# TypeBridge — writing down and reading back

A catalogue tells what declared types say when it holds them in their order,
each with its fields, and each field ends, behind a pointer for every star, at
what its reference means among the types.

An outline whose references all mean something is linked to a catalogue that
tells its types (`exists_link_ofOutline`). So what is written down comes back as
the types of the preferred outline, and as its own only if that is the same.
-/

namespace TypeBridge

open Managed Description

namespace Catalogue

/-- A field says what is written, inside a namespace path. -/
structure TellsField (c : Catalogue) (names path : List String) (decl : FieldDecl)
    (field : Field) : Prop where
  name_eq : field.name = decl.name
  isStatic_eq : field.isStatic = decl.isStatic
  type : ∃ pointers target meaning, c.Leads field.type pointers target ∧
    pointers.length = decl.type.stars ∧ decl.type.mention.Means names path meaning ∧
      c.Shows target meaning

/-- A fact is of the sort that a declaration writes. -/
def TellsSort (enumBase : Option String) (fact : Fact) : TypeDecl → Prop
  | .valueType .. => fact.isValueType ∧ ¬ fact.isReferenceType ∧ fact.baseType = none
  | .referenceType .. => ¬ fact.isValueType ∧ fact.isReferenceType ∧ fact.baseType = none
  | .enumeration _ => fact.isValueType ∧ ¬ fact.isReferenceType ∧ fact.baseType = enumBase

/-- A declared type says what is written, among types of some names. -/
structure TellsType (c : Catalogue) (enumBase : Option String) (names : List String)
    (d : Declared) (id : FactId) : Prop where
  kind_eq : (c.fact id).kind = .named
  name_eq : (c.fact id).name = d.decl.name
  namespaces_eq : (c.fact id).namespaces = d.namespaces
  sort : TellsSort enumBase (c.fact id) d.decl
  fields : List.Forall₂ (c.TellsField names d.namespaces) d.decl.fields (c.fact id).fields

/-- A catalogue says what some types say, in their order. -/
def Tells (c : Catalogue) (enumBase : Option String) (types : List Declared) : Prop :=
  List.Forall₂ (c.TellsType enumBase (types.map Declared.qualifiedName)) types c.declared

variable {enumBase : Option String} {o : Outline} {c : Catalogue} {types : List Declared}

/-! ## Linking what is written -/

/-- The fact of a declaration says what is written. -/
theorem tellsType_of_eq_fact {names : List String} {d : Declared} {id : FactId}
    (fields : List Field) (h : c.fact id = d.fact enumBase fields)
    (hfields : List.Forall₂ (c.TellsField names d.namespaces) d.decl.fields fields) :
    c.TellsType enumBase names d id := by
  have hsame : (d.fact enumBase fields).fields = fields := fields_fact d fields
  rw [← hsame] at hfields
  rcases d with ⟨namespaces, _ | _ | _⟩ <;>
    exact ⟨by rw [h]; rfl, by rw [h]; rfl, by rw [h]; rfl, by simp [h, TellsSort, Declared.fact],
      h ▸ hfields⟩

/-- A field that is linked says what is written. -/
theorem LinksField.tells {names path : List String} {decl : FieldDecl} {field : Field}
    (h : c.LinksField names path decl field) : c.TellsField names path decl field := by
  obtain ⟨pointers, target, meaning, hleads, hstars, -, hmeans, hshows⟩ := h.type
  exact ⟨h.name_eq, h.isStatic_eq, pointers, target, meaning, hleads, hstars, hmeans, hshows⟩

/-- **An outline whose references mean something is linked**, and the catalogue
tells its types. -/
theorem exists_link_ofOutline (enumBase : Option String)
    (hdistinct : (o.declared.map Declared.qualifiedName).Nodup) (hresolvable : o.Resolvable) :
    ∃ c, (ofOutline enumBase o).link = .ok c ∧ c.Tells enumBase o.declared := by
  obtain ⟨c, hlink⟩ := exists_link enumBase hdistinct hresolvable
  refine ⟨c, hlink, (linksType_of_link hlink).imp fun _ id htype => ?_⟩
  exact tellsType_of_eq_fact (c.fact id).fields htype.fact_eq
    (htype.fields.imp fun _ _ hfield => hfield.tells)

/-! ## Reading what is written -/

theorem qualifiedNames_preferred (o : Outline) :
    o.preferred.declared.map Declared.qualifiedName = o.declared.map Declared.qualifiedName := by
  rw [Outline.preferred, Outline.declared_mapFields, List.map_map]
  refine List.map_congr_left fun d _ => ?_
  rcases d with ⟨namespaces, _ | _ | _⟩ <;> rfl

theorem resolvable_preferred (h : o.Resolvable) : o.preferred.Resolvable := by
  unfold Outline.Resolvable
  rw [qualifiedNames_preferred, Outline.preferred, Outline.declared_mapFields]
  intro d hd field hfield
  obtain ⟨written, hwritten, rfl⟩ := List.mem_map.mp hd
  rw [Declared.mapFields, TypeDecl.fields_mapFields] at hfield
  obtain ⟨decl, hdecl, rfl⟩ := List.mem_map.mp hfield
  rw [FieldDecl.type_preferred]
  exact h written hwritten decl hdecl

/-- What is written is read as the preferred outline, and parsed if that can be
linked. -/
theorem parse_written_of_link (hnamed : o.Named)
    (hlink : (ofOutline enumBase o.preferred).link = .ok c) :
    parse enumBase o.written = .ok c :=
  (parse_eq_ok_iff (read_written hnamed)).mpr hlink

/-- **What is written comes back** as the types of the preferred outline. -/
theorem exists_parse_written (enumBase : Option String) (hnamed : o.Named)
    (hdistinct : (o.declared.map Declared.qualifiedName).Nodup) (hresolvable : o.Resolvable) :
    ∃ c, parse enumBase o.written = .ok c ∧ c.Tells enumBase o.preferred.declared := by
  rw [← qualifiedNames_preferred] at hdistinct
  obtain ⟨c, hlink, htells⟩ :=
    exists_link_ofOutline enumBase hdistinct (resolvable_preferred hresolvable)
  exact ⟨c, parse_written_of_link hnamed hlink, htells⟩

theorem flags_of_tells (h : c.Tells enumBase types) :
    types.map Declared.flags = c.declared.map fun id => (c.fact id).fields.map (·.isStatic) :=
  map_eq_of_forall₂ (h.imp fun _ _ htype =>
    map_eq_of_forall₂ (htype.fields.imp fun _ _ hfield => hfield.isStatic_eq.symm))

/-- **It comes back as it is** only if no instance field should have been a
static one. -/
theorem tells_iff_preferred (h : c.Tells enumBase o.preferred.declared) :
    c.Tells enumBase o.declared ↔ o.Preferred := by
  constructor
  · intro h'
    rw [Outline.preferred_iff_flags, flags_of_tells h, flags_of_tells h']
  · intro hpreferred
    rwa [Outline.declared_preferred hpreferred] at h

/-- **An outline that is written down and read back** is told by the catalogue
that comes back, up to the instance fields whose names run on behind `static`:
those come back as static fields under the shorter name. -/
theorem parse_written (enumBase : Option String) (hnamed : o.Named)
    (hdistinct : (o.declared.map Declared.qualifiedName).Nodup) (hresolvable : o.Resolvable) :
    ∃ c, parse enumBase o.written = .ok c ∧ c.Tells enumBase o.preferred.declared ∧
      (c.Tells enumBase o.declared ↔ o.Preferred) := by
  obtain ⟨c, hparse, htells⟩ := exists_parse_written enumBase hnamed hdistinct hresolvable
  exact ⟨c, hparse, htells, tells_iff_preferred htells⟩

/-- A class without a body, an enum that is called like a keyword, and a struct
in inner namespaces with fields of all kinds. -/
def mixedOutline : Outline :=
  ((Outline.empty.type (.referenceType "Node" none)).type (.enumeration "class")).block
    ⟨["A"], "B"⟩ (.type .empty (.valueType "Node" [
      ⟨false, "static", ⟨⟨[], "Node"⟩, 2⟩⟩, ⟨true, "staticx", ⟨⟨["B"], "Node"⟩, 0⟩⟩,
      ⟨false, "static1", ⟨⟨[], "class"⟩, 0⟩⟩, ⟨false, "_", ⟨⟨[], "int32"⟩, 1⟩⟩]))

/-- Names that are spelled like keywords come back. -/
theorem mixedOutline_comes_back : ∃ c, parse (some "System.Enum") mixedOutline.written = .ok c ∧
    c.Tells (some "System.Enum") mixedOutline.declared := by
  have hresolvable : mixedOutline.Resolvable := by
    intro d hd field hfield
    rcases hd with _ | ⟨_, _ | ⟨_, _ | ⟨_, ⟨⟩⟩⟩⟩
    · cases hfield
    · cases hfield
    · rcases hfield with _ | ⟨_, _ | ⟨_, _ | ⟨_, _ | ⟨_, ⟨⟩⟩⟩⟩⟩
      · exact ⟨_, .declared 2 rfl (by decide) (by decide) (by decide)⟩
      · exact ⟨_, .declared 1 rfl (by decide) (by decide) (by decide)⟩
      · exact ⟨_, .declared 0 rfl (by decide) (by decide) (by decide)⟩
      · exact ⟨_, .keyword rfl⟩
  obtain ⟨c, hparse, -, htells⟩ :=
    parse_written (some "System.Enum") (by decide) (by decide) hresolvable
  exact ⟨c, hparse, htells.mpr (by decide)⟩

/-- A struct with an instance field of such a name. -/
def staticNamed : Outline :=
  .type .empty (.valueType "S" [⟨false, "staticx", ⟨⟨[], "int32"⟩, 0⟩⟩])

/-- It is written down, and what comes back is something else. -/
theorem staticNamed_not_told : staticNamed.Named ∧
    (staticNamed.declared.map Declared.qualifiedName).Nodup ∧ staticNamed.Resolvable ∧
    ∀ c, parse (some "System.Enum") staticNamed.written = .ok c →
      ¬ c.Tells (some "System.Enum") staticNamed.declared := by
  have hnamed : staticNamed.Named := by decide
  have hdistinct : (staticNamed.declared.map Declared.qualifiedName).Nodup := by decide
  have hresolvable : staticNamed.Resolvable := by
    intro d hd field hfield
    obtain rfl := List.mem_singleton.mp hd
    obtain rfl := List.mem_singleton.mp hfield
    exact ⟨_, .keyword rfl⟩
  refine ⟨hnamed, hdistinct, hresolvable, fun c hparse htells => ?_⟩
  obtain ⟨c', hparse', htells'⟩ :=
    exists_parse_written (some "System.Enum") hnamed hdistinct hresolvable
  obtain rfl := Except.ok.inj (hparse.symm.trans hparse')
  have hpreferred : staticNamed.Preferred := (tells_iff_preferred htells').mp htells
  revert hpreferred
  decide

end Catalogue

end TypeBridge
