import TypeBridge.Proofs.Catalogue.Layout
import TypeBridge.Proofs.Resolution.Innermost
/-!
# TypeBridge — linking an outline

An outline is linked when no two of its types have one name and each reference
means something among them (`exists_link_ofOutline_iff`). Then each type is as it
is written but for the ends of its fields: a field ends, behind a pointer for
every star, at what its reference means (`linksType_of_link`).
-/

namespace TypeBridge

open Managed Description

namespace Description

/-- A reference as a mention of a type. -/
def TypeRef.mention (ref : TypeRef) : Fact :=
  .mention ref.target.path ref.target.name

/-- Every reference means something among the types of the outline. -/
def Outline.Resolvable (o : Outline) : Prop :=
  ∀ d ∈ o.declared, ∀ field ∈ d.decl.fields, ∃ meaning,
    field.type.mention.Means (o.declared.map Declared.qualifiedName) d.namespaces meaning

end Description

namespace Catalogue

/-- What a reference leads to in a catalogue. -/
def Shows (c : Catalogue) (target : FactId) : Meaning → Prop
  | .keyword s => c.fact target = .ofSpecial s
  | .declared name => target ∈ c.declared ∧ c.qualifiedName target = name

/-- A field is linked, inside a namespace path: it is as it is written, and ends
at what its reference means among types of some names. -/
structure LinksField (c : Catalogue) (names path : List String) (decl : FieldDecl)
    (field : Field) : Prop where
  name_eq : field.name = decl.name
  isStatic_eq : field.isStatic = decl.isStatic
  type : ∃ pointers target meaning, c.Leads field.type pointers target ∧
    pointers.length = decl.type.stars ∧
    (∀ p ∈ pointers, ∃ next, c.fact p = .pointer decl.type.target.name next) ∧
    decl.type.mention.Means names path meaning ∧ c.Shows target meaning

/-- A declared type is linked: only its fields are not as they are written. -/
structure LinksType (c : Catalogue) (enumBase : Option String) (names : List String)
    (d : Declared) (id : FactId) : Prop where
  fact_eq : c.fact id = d.fact enumBase (c.fact id).fields
  fields : List.Forall₂ (c.LinksField names d.namespaces) d.decl.fields (c.fact id).fields

variable {enumBase : Option String} {o : Outline} {c : Catalogue} {names : List String}

/-! ## Names -/

theorem qualifiedName_of_eq_fact {u : Universe} {d : Declared} {id : FactId} {fields : List Field}
    (h : u.fact id = d.fact enumBase fields) : u.qualifiedName id = d.qualifiedName := by
  rw [Universe.qualifiedName_of_kind (by rw [h, Declared.kind_fact]), h, Declared.dottedName_fact]

theorem names_ofOutline (enumBase : Option String) (o : Outline) :
    (ofOutline enumBase o).declared.map (ofOutline enumBase o).qualifiedName =
      o.declared.map Declared.qualifiedName := by
  refine (map_eq_of_forall₂ ((isFact_ofOutline enumBase o).1.imp fun d id h => ?_)).symm
  exact (qualifiedName_of_eq_fact h.1).symm

/-- What is written down is still to be linked. -/
theorem named_ofOutline {id : FactId} (h : id ∈ (ofOutline enumBase o).declared) :
    ((ofOutline enumBase o).fact id).kind = .named := by
  obtain ⟨d, -, hfact⟩ := exists_of_forall₂ (isFact_ofOutline enumBase o).1 h
  exact hfact.kind_eq

/-! ## What linking leaves -/

/-- A pointer that leads on is a pointer with another pointee. -/
theorem exists_pointer_of_leads {u v : Universe} {id last p next : FactId}
    {pointers : List FactId} {name : String} {pointee : Option FactId}
    (hleads : v.Leads id pointers last) (hp : p ∈ pointers) (hold : u.fact p = .pointer name next)
    (hnew : v.fact p = { u.fact p with pointee }) : ∃ next, v.fact p = .pointer name next := by
  obtain ⟨target, htarget⟩ := Option.ne_none_iff_exists'.mp (hleads.target?_ne_none hp)
  have hpointee := (Fact.target?_eq_some_iff.mp htarget).2
  rw [hnew] at hpointee
  obtain rfl : pointee = some target := hpointee
  exact ⟨target, by rw [hnew, hold]; rfl⟩

/-- A field that is linked is as it is written. -/
theorem linksField_of_linked {u : Universe} {dir : Directory} {path : List String}
    {decl : FieldDecl} {old new : Field} (hdecl : decl.IsAt u old)
    (hlinked : Universe.FieldLinked dir path u c.toUniverse old new)
    (hdir : ∀ name target, (name, target) ∈ dir → c.Shows target (.declared name)) :
    c.LinksField (dir.map Prod.fst) path decl new := by
  obtain ⟨pointers, mention, hleads, hstars, hmention⟩ := hdecl.type
  obtain ⟨pointers', mention', target, meaning, hleads', hkind', hnew, hpointers, hmeans, hends⟩ :=
    hlinked.type
  have hkind : (u.fact mention).kind = .mention := by rw [hmention]; rfl
  obtain ⟨rfl, rfl⟩ := hleads.unique (Universe.target?_of_mention hkind) hleads'
    (Universe.target?_of_mention hkind')
  rw [hmention] at hmeans
  refine ⟨hlinked.name_eq.trans hdecl.name_eq, hlinked.isStatic_eq.trans hdecl.isStatic_eq,
    pointers, target, meaning, hnew, hstars, fun p hp => ?_, hmeans, ?_⟩
  · obtain ⟨next, hold⟩ := hdecl.pointer_eq p (hleads.passes_of_mem hp) (hleads.kind_eq_pointer hp)
    obtain ⟨pointee, hpointee⟩ := hpointers p hp
    exact exists_pointer_of_leads hnew hp hold hpointee
  · cases meaning with
    | keyword s => exact hends.2
    | declared name => exact hdir name target hends

theorem link_eq_ok_iff {written : Catalogue} : written.link = .ok c ↔
    written.toUniverse.link written.declared = .ok c.toUniverse ∧
      c.declared = written.declared := by
  obtain ⟨u, declared⟩ := c
  rw [link]
  cases written.toUniverse.link written.declared <;> simp [Except.map, eq_comm]

/-- What is written down is linked type after type. -/
theorem typesLinked_ofOutline (h : (ofOutline enumBase o).link = .ok c) :
    Universe.TypesLinked ((ofOutline enumBase o).entries (ofOutline enumBase o).declared)
      (ofOutline enumBase o).toUniverse c.toUniverse (ofOutline enumBase o).declared :=
  Universe.typesLinked_of_link (fun _ => named_ofOutline) (isFact_ofOutline enumBase o).2
    (link_eq_ok_iff.mp h).1

/-- **What is linked is as it is written**, but for the ends of the fields. -/
theorem linksType_of_link (h : (ofOutline enumBase o).link = .ok c) :
    List.Forall₂ (c.LinksType enumBase (o.declared.map Declared.qualifiedName)) o.declared
      c.declared := by
  obtain ⟨-, hdeclared⟩ := link_eq_ok_iff.mp h
  have hall := typesLinked_ofOutline h
  obtain ⟨hfacts, -⟩ := isFact_ofOutline enumBase o
  have hdirectory : ((ofOutline enumBase o).entries (ofOutline enumBase o).declared).map Prod.fst =
      o.declared.map Declared.qualifiedName := by
    rw [Universe.names_entries, names_ofOutline]
  have hfact_eq : ∀ (d : Declared) (id : FactId), id ∈ (ofOutline enumBase o).declared →
      d.IsFact (ofOutline enumBase o).toUniverse enumBase ((ofOutline enumBase o).fact id) →
      c.fact id = d.fact enumBase (c.fact id).fields := fun d id hid hfact => by
    have hsame := (hall.linked id hid).fact_eq
    rwa [hfact.1, Declared.fact_with_fields] at hsame
  -- declared types keep their names
  have hname : ∀ name target,
      (name, target) ∈ (ofOutline enumBase o).entries (ofOutline enumBase o).declared →
      c.Shows target (.declared name) := by
    intro name target hmem
    obtain ⟨htarget, rfl⟩ := Universe.mem_entries.mp hmem
    obtain ⟨d, -, hfact⟩ := exists_of_forall₂ hfacts htarget
    refine ⟨hdeclared ▸ htarget, ?_⟩
    rw [qualifiedName_of_eq_fact (hfact_eq d target htarget hfact), qualifiedName_of_eq_fact hfact.1]
  rw [hdeclared]
  refine forall₂_imp_of_mem hfacts fun d _ id hid hfact => ⟨hfact_eq d id hid hfact, ?_⟩
  have hfields := (hall.linked id hid).fields
  rw [hfact.1, Declared.namespaces_fact, fields_fact] at hfields
  refine forall₂_comp hfact.2 hfields fun hdecl hlinked => ?_
  exact hdirectory ▸ linksField_of_linked hdecl hlinked hname

/-- A type is linked under the name that it is found by. -/
theorem LinksType.qualifiedName_eq {d : Declared} {id : FactId}
    (h : c.LinksType enumBase names d id) : c.qualifiedName id = d.qualifiedName :=
  qualifiedName_of_eq_fact h.fact_eq

/-- **The names stay** in their order. -/
theorem names_of_link (h : (ofOutline enumBase o).link = .ok c) :
    c.declared.map c.qualifiedName = o.declared.map Declared.qualifiedName :=
  (map_eq_of_forall₂ ((linksType_of_link h).imp fun _ _ htype => htype.qualifiedName_eq.symm)).symm

/-! ## When linking goes through -/

/-- **An outline whose references mean something is linked.** -/
theorem exists_link (enumBase : Option String)
    (hdistinct : (o.declared.map Declared.qualifiedName).Nodup) (hresolvable : o.Resolvable) :
    ∃ c, (ofOutline enumBase o).link = .ok c := by
  obtain ⟨hfacts, hpending⟩ := isFact_ofOutline enumBase o
  have hnames := names_ofOutline enumBase o
  have hnamed : ∀ id ∈ (ofOutline enumBase o).declared,
      ((ofOutline enumBase o).fact id).kind = .named := fun id => named_ofOutline
  rw [← hnames] at hdistinct
  rcases Universe.link_cases hnamed hpending hdistinct with
    ⟨v, hlink, -⟩ | ⟨error, -, hunknown⟩
  · exact ⟨{ ofOutline enumBase o with toUniverse := v }, link_eq_ok_iff.mpr ⟨hlink, rfl⟩⟩
  · -- every reference means something
    obtain ⟨id, hid, field, hfield, hnot⟩ := hunknown.exists_not_resolvable
    obtain ⟨d, hd, hfact⟩ := exists_of_forall₂ hfacts hid
    obtain ⟨decl, hdecl, hat⟩ := exists_of_forall₂ hfact.2 hfield
    obtain ⟨meaning, hmeans⟩ := hresolvable d hd decl hdecl
    obtain ⟨pointers, mention, hleads, -, hmention⟩ := hat.type
    refine absurd ⟨pointers, mention, meaning, hleads, by rw [hmention]; rfl, ?_⟩ hnot
    rw [hmention, Universe.names_entries, hnames, hfact.1, Declared.namespaces_fact]
    exact hmeans

theorem nodup_of_link (h : (ofOutline enumBase o).link = .ok c) :
    (o.declared.map Declared.qualifiedName).Nodup := by
  rw [← names_ofOutline enumBase]
  exact Universe.nodup_of_link (link_eq_ok_iff.mp h).1

theorem resolvable_of_link (h : (ofOutline enumBase o).link = .ok c) : o.Resolvable := by
  intro d hd decl hdecl
  obtain ⟨id, -, htype⟩ := exists_of_forall₂ (linksType_of_link h).flip hd
  obtain ⟨field, -, hfield⟩ := exists_of_forall₂ htype.fields.flip hdecl
  obtain ⟨pointers, target, meaning, -, -, -, hmeans, -⟩ := hfield.type
  exact ⟨meaning, hmeans⟩

/-- **An outline is linked** exactly when its names differ and its references
mean something. -/
theorem exists_link_ofOutline_iff : (∃ c, (ofOutline enumBase o).link = .ok c) ↔
    (o.declared.map Declared.qualifiedName).Nodup ∧ o.Resolvable := by
  constructor
  · rintro ⟨c, h⟩
    exact ⟨nodup_of_link h, resolvable_of_link h⟩
  · rintro ⟨hdistinct, hresolvable⟩
    exact exists_link enumBase hdistinct hresolvable

end Catalogue

end TypeBridge
