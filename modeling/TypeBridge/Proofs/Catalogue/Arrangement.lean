import TypeBridge.Proofs.Catalogue.Linking
import TypeBridge.Proofs.Catalogue.Syntax
import TypeBridge.Proofs.Description.Written
/-!
# TypeBridge — declarations in another arrangement

What a description says is the list of its types, each under its full path. The
same types may stand in another order, and in other blocks for the same paths.
That changes neither whether a description can be linked nor what its fields
mean, since a reference means something among the names of the types, whatever
their order (`agreesType_of_links`).
-/

namespace TypeBridge

open Managed Description

namespace Description.Outline

/-! ## Other blocks for the same paths -/

/-- The declarations of one outline behind those of another. -/
def concat (o : Outline) : Outline → Outline
  | empty => o
  | type before decl => (o.concat before).type decl
  | block before path inner => (o.concat before).block path inner

theorem declaredBefore_concat (o o' : Outline) (namespaces : List String) (after : List Declared) :
    (o.concat o').declaredBefore namespaces after =
      o.declaredBefore namespaces (o'.declaredBefore namespaces after) := by
  induction o' generalizing after with
  | empty => rfl
  | type before decl ih => exact ih (⟨namespaces, decl⟩ :: after)
  | block before path inner ih _ => exact ih _

/-- **A block may be split**, or merged with a block of the same path. -/
theorem declared_block_concat (before inner inner' : Outline) (path : DottedName) :
    (before.block path (inner.concat inner')).declared =
      ((before.block path inner).block path inner').declared := by
  simp only [declared, declaredBefore, declaredBefore_concat]

/-- **A block of a dotted path may be written as nested blocks.** -/
theorem declared_block_block (before inner : Outline) (path path' : DottedName) :
    (before.block path (empty.block path' inner)).declared =
      (before.block ⟨path.segments ++ path'.path, path'.name⟩ inner).declared := by
  simp [declared, declaredBefore, DottedName.segments]

end Description.Outline

namespace Catalogue

/-! ## Catalogues that say the same -/

/-- Declared types of two catalogues that have one name. -/
def Corresponds (c c' : Catalogue) (id id' : FactId) : Prop :=
  id ∈ c.declared ∧ id' ∈ c'.declared ∧ c.qualifiedName id = c'.qualifiedName id'

/-- Fields of two catalogues end alike: at types that correspond, or at the same
special type. -/
def EndsAlike (c c' : Catalogue) (target target' : FactId) : Prop :=
  c.Corresponds c' target target' ∨ ∃ s, c.fact target = .ofSpecial s ∧ c'.fact target' = .ofSpecial s

/-- Fields of two catalogues agree: they are called the same, and end alike
behind pointers of the same names. -/
structure AgreesField (c c' : Catalogue) (field field' : Field) : Prop where
  name_eq : field.name = field'.name
  isStatic_eq : field.isStatic = field'.isStatic
  type : ∃ pointers pointers' target target', c.Leads field.type pointers target ∧
    c'.Leads field'.type pointers' target' ∧
    List.Forall₂ (fun p p' => ∃ name next next', c.fact p = .pointer name next ∧
      c'.fact p' = .pointer name next') pointers pointers' ∧
    c.EndsAlike c' target target'

/-- Types of two catalogues agree: they are the same but for the places of their
fields' types, and their fields agree. -/
structure AgreesType (c c' : Catalogue) (id id' : FactId) : Prop where
  fact_eq : c'.fact id' = { c.fact id with fields := (c'.fact id').fields }
  fields : List.Forall₂ (c.AgreesField c') (c.fact id).fields (c'.fact id').fields

variable {enumBase : Option String} {o o' : Outline} {c c' : Catalogue} {text : String}
variable {names names' path : List String} {d : Declared} {id id' : FactId}

/-! ## Linked types of one declaration -/

theorem Corresponds.symm (h : c.Corresponds c' id id') : c'.Corresponds c id' id :=
  ⟨h.2.1, h.1, h.2.2.symm⟩

/-- **A reference leads to the same type** among names that are the same. -/
theorem agreesField_of_links {decl : FieldDecl} {field field' : Field}
    (hnames : ∀ name, name ∈ names ↔ name ∈ names') (h : c.LinksField names path decl field)
    (h' : c'.LinksField names' path decl field') : c.AgreesField c' field field' := by
  obtain ⟨pointers, target, meaning, hleads, hstars, hpointers, hmeans, hshows⟩ := h.type
  obtain ⟨pointers', target', meaning', hleads', hstars', hpointers', hmeans', hshows'⟩ := h'.type
  obtain rfl : meaning = meaning' := (hmeans.of_names hnames).unique hmeans'
  refine ⟨h.name_eq.trans h'.name_eq.symm, h.isStatic_eq.trans h'.isStatic_eq.symm,
    pointers, pointers', target, target', hleads, hleads', ?_, ?_⟩
  · refine forall₂_of_length_eq (hstars.trans hstars'.symm) fun p hp p' hp' => ?_
    obtain ⟨next, hnext⟩ := hpointers p hp
    obtain ⟨next', hnext'⟩ := hpointers' p' hp'
    exact ⟨_, next, next', hnext, hnext'⟩
  · cases meaning with
    | keyword s => exact .inr ⟨s, hshows, hshows'⟩
    | declared name => exact .inl ⟨hshows.1, hshows'.1, hshows.2.trans hshows'.2.symm⟩

/-- **One declaration says the same** in two catalogues of the same names. -/
theorem agreesType_of_links (hnames : ∀ name, name ∈ names ↔ name ∈ names')
    (h : c.LinksType enumBase names d id) (h' : c'.LinksType enumBase names' d id') :
    c.AgreesType c' id id' := by
  refine ⟨?_, forall₂_comp h.fields.flip h'.fields ?_⟩
  · rw [h.fact_eq, Declared.fact_with_fields]
    exact h'.fact_eq
  · exact fun hfield hfield' => agreesField_of_links hnames hfield hfield'

/-! ## Types in another order -/

section

variable (hperm : o.declared.Perm o'.declared)

include hperm

theorem mem_names_of_perm (name : String) :
    name ∈ o.declared.map Declared.qualifiedName ↔ name ∈ o'.declared.map Declared.qualifiedName :=
  (hperm.map _).mem_iff

theorem resolvable_of_perm (h : o.Resolvable) : o'.Resolvable := by
  intro d hd decl hdecl
  obtain ⟨meaning, hmeans⟩ := h d (hperm.mem_iff.mpr hd) decl hdecl
  exact ⟨meaning, hmeans.of_names (mem_names_of_perm hperm)⟩

/-- **An outline is linked in any order** or in none. -/
theorem exists_link_of_perm (h : ∃ c, (ofOutline enumBase o).link = .ok c) :
    ∃ c, (ofOutline enumBase o').link = .ok c := by
  obtain ⟨hdistinct, hresolvable⟩ := exists_link_ofOutline_iff.mp h
  exact exists_link_ofOutline_iff.mpr
    ⟨(hperm.map _).nodup_iff.mp hdistinct, resolvable_of_perm hperm hresolvable⟩

variable (h : (ofOutline enumBase o).link = .ok c) (h' : (ofOutline enumBase o').link = .ok c')

include h h'

/-- **Types that correspond agree.** -/
theorem agreesType_of_corresponds (hids : c.Corresponds c' id id') : c.AgreesType c' id id' := by
  obtain ⟨hid, hid', hname⟩ := hids
  obtain ⟨d, hd, htype⟩ := exists_of_forall₂ (linksType_of_link h) hid
  obtain ⟨d', hd', htype'⟩ := exists_of_forall₂ (linksType_of_link h') hid'
  -- no other declaration has the name
  rw [htype.qualifiedName_eq, htype'.qualifiedName_eq] at hname
  obtain rfl := List.inj_on_of_nodup_map (nodup_of_link h) hd (hperm.mem_iff.mpr hd') hname
  exact agreesType_of_links (mem_names_of_perm hperm) htype htype'

theorem existsUnique_corresponds (hid : id ∈ c.declared) : ∃! id', c.Corresponds c' id id' := by
  obtain ⟨d, hd, htype⟩ := exists_of_forall₂ (linksType_of_link h) hid
  obtain ⟨id', hid', htype'⟩ :=
    exists_of_forall₂ (linksType_of_link h').flip (hperm.mem_iff.mp hd)
  refine ⟨id', ⟨hid, hid', htype.qualifiedName_eq.trans htype'.qualifiedName_eq.symm⟩, ?_⟩
  rintro other ⟨-, hother, hname⟩
  have hdistinct := nodup_of_link h'
  rw [← names_of_link h'] at hdistinct
  exact List.inj_on_of_nodup_map hdistinct hother hid'
    (hname.symm.trans (htype.qualifiedName_eq.trans htype'.qualifiedName_eq.symm))

end

/-! ## Texts -/

/-- **The order and the grouping of declarations do not matter.** Of two texts
with the same types both fail to be linked or none does. Then each type
corresponds to one of the other text, and types that correspond agree. If the
types stand in the same order, even the results are the same. -/
theorem parse_of_perm {text' : String} (hread : Outline.read text.toList = .ok o)
    (hread' : Outline.read text'.toList = .ok o') (hperm : o.declared.Perm o'.declared)
    (enumBase : Option String) :
    ((∃ error, parse enumBase text = .error (.notLinked error)) ↔
      ∃ error, parse enumBase text' = .error (.notLinked error)) ∧
    (∀ c c', parse enumBase text = .ok c → parse enumBase text' = .ok c' →
      (∀ id ∈ c.declared, ∃! id', c.Corresponds c' id id') ∧
      (∀ id' ∈ c'.declared, ∃! id, c.Corresponds c' id id') ∧
      ∀ id id', c.Corresponds c' id id' → c.AgreesType c' id id') ∧
    (o.declared = o'.declared → parse enumBase text = parse enumBase text') := by
  rw [Outline.read_eq_ok_iff] at hread hread'
  refine ⟨?_, fun c c' h h' => ?_, fun hsame => ?_⟩
  · rw [parse_notLinked_iff hread, parse_notLinked_iff hread', not_iff_not]
    exact ⟨exists_link_of_perm hperm, exists_link_of_perm hperm.symm⟩
  · rw [parse_eq_ok_iff hread] at h
    rw [parse_eq_ok_iff hread'] at h'
    refine ⟨fun id hid => existsUnique_corresponds hperm h h' hid, fun id' hid' => ?_,
      fun id id' hids => agreesType_of_corresponds hperm h h' hids⟩
    obtain ⟨id, hid, hunique⟩ := existsUnique_corresponds hperm.symm h' h hid'
    exact ⟨id, hid.symm, fun other hother => hunique other hother.symm⟩
  · have hwritten : ofOutline enumBase o = ofOutline enumBase o' := by
      rw [ofOutline, ofOutline, hsame]
    rw [parse_of_read hread, parse_of_read hread', hwritten]

/-- A class and a struct that points to it, in a block of a block and behind it. -/
def nestedBlocks : Outline :=
  ((Outline.empty.block ⟨[], "A"⟩ (.block .empty ⟨[], "B"⟩
    (.type .empty (.valueType "Y" [⟨false, "x", ⟨⟨[], "X"⟩, 1⟩⟩])))).block
      ⟨["A"], "B"⟩ (.type .empty (.referenceType "X" none)))

/-- The same types in one block. -/
def singleBlock : Outline :=
  Outline.empty.block ⟨["A"], "B"⟩
    ((Outline.empty.type (.referenceType "X" none)).type
      (.valueType "Y" [⟨false, "x", ⟨⟨[], "X"⟩, 1⟩⟩]))

theorem nestedBlocks_agree :
    Outline.read nestedBlocks.written.toList = .ok nestedBlocks.preferred ∧
    Outline.read singleBlock.written.toList = .ok singleBlock.preferred ∧
    nestedBlocks.preferred.declared.Perm singleBlock.preferred.declared ∧
    ∃ c c', parse none nestedBlocks.written = .ok c ∧ parse none singleBlock.written = .ok c' ∧
      ∀ id id', c.Corresponds c' id id' → c.AgreesType c' id id' := by
  have hread := read_written (show nestedBlocks.Named by decide)
  have hread' := read_written (show singleBlock.Named by decide)
  have hperm : nestedBlocks.preferred.declared.Perm singleBlock.preferred.declared := by decide
  have hresolvable : nestedBlocks.preferred.Resolvable := by
    intro d hd field hfield
    rcases hd with _ | ⟨_, _ | ⟨_, ⟨⟩⟩⟩
    · obtain rfl := List.mem_singleton.mp hfield
      exact ⟨_, .declared 2 rfl (by decide) (by decide) (by decide)⟩
    · cases hfield
  have hlink := exists_link none (by decide) hresolvable
  obtain ⟨c', hlink'⟩ := exists_link_of_perm hperm hlink
  obtain ⟨c, hlink⟩ := hlink
  have hparse := (parse_eq_ok_iff hread).mpr hlink
  have hparse' := (parse_eq_ok_iff hread').mpr hlink'
  rw [← Outline.read_eq_ok_iff] at hread hread'
  obtain ⟨-, hagree, -⟩ := parse_of_perm hread hread' hperm none
  exact ⟨hread, hread', hperm, c, c', hparse, hparse', (hagree c c' hparse hparse').2.2⟩

end Catalogue

end TypeBridge
