import TypeBridge.Proofs.Description.Beginning
import TypeBridge.Proofs.Description.Recognition
import TypeBridge.Proofs.Description.Grammar
/-!
# TypeBridge — the outline that is read

A text may be cut in several ways, since a name that runs on behind `static`
may as well be the mark and a shorter name. Whoever writes an instance field of
such a name gets a static field back. `Outline.preferred` is the outline with
those fields exchanged, and it is the one that is read from every cut
(`read_of_cuts_tokens`).

So no cut is lost: a text is read when it can be cut at all
(`exists_read_iff`).
-/

namespace TypeBridge

namespace Description

/-! ## Fields that are read otherwise -/

/-- What runs on behind `static`, if that may be a name of its own. -/
def behindStatic? (name : List Char) : Option (List Char) :=
  (Mark.staticWord.strip? name).filter (·.head?.any isNameStart)

/-- The field as it is read. -/
def FieldDecl.preferred (field : FieldDecl) : FieldDecl :=
  if field.isStatic then field
  else
    match behindStatic? field.name.toList with
    | some name => { field with isStatic := true, name := String.ofList name }
    | none => field

def TypeDecl.mapFields (f : FieldDecl → FieldDecl) : TypeDecl → TypeDecl
  | valueType name fields => valueType name (fields.map f)
  | referenceType name fields => referenceType name (fields.map (·.map f))
  | enumeration name => enumeration name

def Outline.mapFields (f : FieldDecl → FieldDecl) : Outline → Outline
  | empty => empty
  | type before decl => type (before.mapFields f) (decl.mapFields f)
  | block before path inner => block (before.mapFields f) path (inner.mapFields f)

/-- The outline as it is read. -/
def Outline.preferred (o : Outline) : Outline :=
  o.mapFields FieldDecl.preferred

variable {field : FieldDecl} {f : FieldDecl → FieldDecl} {o : Outline} {n : String}
variable {name text : List Char} {ts us ts' us' : List Token}

theorem behindStatic?_eq_some_iff {rest : List Char} : behindStatic? name = some rest ↔
    name = Mark.staticWord.spelling.toList ++ rest ∧ rest.head?.any isNameStart = true := by
  rw [behindStatic?, Option.filter_eq_some_iff, strip?_eq_some_iff]
  rfl

theorem readsAsStatic_iff : ReadsAsStatic name ↔ (behindStatic? name).isSome := by
  rw [Option.isSome_iff_exists]
  simp only [behindStatic?_eq_some_iff]
  constructor
  · rintro ⟨c, more, hname, hc⟩
    exact ⟨c :: more, hname, hc⟩
  · rintro ⟨_ | ⟨c, more⟩, hname, hc⟩
    · cases hc
    · exact ⟨c, more, hname, hc⟩

instance : DecidablePred ReadsAsStatic := fun _ => decidable_of_iff _ readsAsStatic_iff.symm

instance (o : Outline) : Decidable o.Preferred :=
  inferInstanceAs (Decidable (∀ n ∈ instanceNames o.fields, ¬ ReadsAsStatic n.toList))

/-- A field is read as a static one when it is, or its name goes to the mark. -/
theorem FieldDecl.isStatic_preferred : field.preferred.isStatic = true ↔
    field.isStatic = true ∨ ReadsAsStatic field.name.toList := by
  rw [readsAsStatic_iff, preferred]
  cases hstatic : field.isStatic with
  | true => simp [hstatic]
  | false => cases hbehind : behindStatic? field.name.toList <;> simp [hstatic]

theorem FieldDecl.preferred_of_isStatic (h : field.preferred.isStatic = field.isStatic) :
    field.preferred = field := by
  unfold preferred at h ⊢
  split_ifs at h ⊢ with hstatic
  · rfl
  · cases hbehind : behindStatic? field.name.toList with
    | none => rfl
    | some rest => simp [hbehind, hstatic] at h

/-- The reference of a field is read as it is written. -/
theorem FieldDecl.type_preferred : field.preferred.type = field.type := by
  unfold preferred
  split_ifs
  · rfl
  · split <;> rfl

/-- The name of a field that is read as an instance field goes to the field. -/
theorem FieldDecl.not_readsAsStatic_preferred (h : field.preferred.isStatic = false) :
    ¬ ReadsAsStatic field.preferred.name.toList := by
  obtain ⟨hstatic, hname⟩ : field.isStatic = false ∧ ¬ ReadsAsStatic field.name.toList := by
    simpa [isStatic_preferred] using mt isStatic_preferred.mpr (by simp [h])
  rwa [preferred_of_isStatic (h.trans hstatic.symm)]

theorem TypeDecl.fields_mapFields (decl : TypeDecl) :
    (decl.mapFields f).fields = decl.fields.map f := by
  rcases decl with _ | ⟨_, _ | _⟩ | _ <;> rfl

theorem Outline.fields_mapFields (o : Outline) : (o.mapFields f).fields = o.fields.map f := by
  induction o with
  | empty => rfl
  | type before decl ih => simp [mapFields, fields, ih, TypeDecl.fields_mapFields]
  | block before path inner ihBefore ihInner => simp [mapFields, fields, ihBefore, ihInner]

theorem mem_instanceNames {fields : List FieldDecl} : n ∈ instanceNames fields ↔
    ∃ field ∈ fields, field.isStatic = false ∧ field.name = n := by
  simp [instanceNames, and_assoc]

theorem Outline.preferred_iff : o.Preferred ↔
    ∀ field ∈ o.fields, field.isStatic = false → ¬ ReadsAsStatic field.name.toList := by
  simp only [Preferred, mem_instanceNames]
  constructor
  · intro h field hmem hstatic
    exact h field.name ⟨field, hmem, hstatic, rfl⟩
  · rintro h n ⟨field, hmem, hstatic, rfl⟩
    exact h field hmem hstatic

/-- **What is read is preferred.** -/
theorem Outline.preferred_preferred (o : Outline) : o.preferred.Preferred := by
  rw [preferred_iff, preferred, fields_mapFields]
  intro field hmem
  obtain ⟨written, -, rfl⟩ := List.mem_map.mp hmem
  exact FieldDecl.not_readsAsStatic_preferred

/-! ## The declared types of both -/

def Declared.mapFields (f : FieldDecl → FieldDecl) (d : Declared) : Declared :=
  ⟨d.namespaces, d.decl.mapFields f⟩

theorem Outline.declaredBefore_mapFields (o : Outline) (namespaces : List String)
    (after : List Declared) :
    (o.mapFields f).declaredBefore namespaces (after.map (Declared.mapFields f)) =
      (o.declaredBefore namespaces after).map (Declared.mapFields f) := by
  induction o generalizing namespaces after with
  | empty => rfl
  | type before decl ih => exact ih namespaces (⟨namespaces, decl⟩ :: after)
  | block before path inner ihBefore ihInner =>
    rw [mapFields, declaredBefore, ihInner, ihBefore]
    rfl

theorem Outline.declared_mapFields (o : Outline) :
    (o.mapFields f).declared = o.declared.map (Declared.mapFields f) :=
  o.declaredBefore_mapFields [] []

theorem Outline.fields_declaredBefore (o : Outline) (namespaces : List String)
    (after : List Declared) :
    (o.declaredBefore namespaces after).flatMap (·.decl.fields) =
      o.fields ++ after.flatMap (·.decl.fields) := by
  induction o generalizing namespaces after with
  | empty => rfl
  | type before decl ih =>
    rw [declaredBefore, ih, fields, List.flatMap_cons, List.append_assoc]
  | block before path inner ihBefore ihInner =>
    rw [declaredBefore, ihBefore, ihInner, fields, List.append_assoc]

/-- The fields of an outline are those of its types. -/
theorem Outline.mem_fields_iff : field ∈ o.fields ↔ ∃ d ∈ o.declared, field ∈ d.decl.fields := by
  have h : o.declared.flatMap (·.decl.fields) = o.fields := by
    simpa [declared] using o.fields_declaredBefore [] []
  rw [← h, List.mem_flatMap]

theorem TypeDecl.mapFields_eq_self {decl : TypeDecl} (h : ∀ field ∈ decl.fields, f field = field) :
    decl.mapFields f = decl := by
  have hmap : ∀ fields : List FieldDecl, (∀ field ∈ fields, f field = field) →
      fields.map f = fields := fun fields h => (List.map_congr_left h).trans fields.map_id
  rcases decl with ⟨name, fields⟩ | ⟨name, _ | fields⟩ | name
  · rw [mapFields, hmap fields h]
  · rfl
  · rw [mapFields, Option.map_some, hmap fields h]
  · rfl

/-- A preferred outline is read as it is. -/
theorem Outline.declared_preferred (h : o.Preferred) : o.preferred.declared = o.declared := by
  rw [preferred, declared_mapFields]
  refine (List.map_congr_left fun d hd => ?_).trans o.declared.map_id
  have hfields : ∀ field ∈ d.decl.fields, field.preferred = field := fun field hfield => by
    refine FieldDecl.preferred_of_isStatic (Bool.eq_iff_iff.mpr ?_)
    rw [FieldDecl.isStatic_preferred, or_iff_left_iff_imp]
    intro hreads
    by_contra hstatic
    rw [Bool.not_eq_true] at hstatic
    exact preferred_iff.mp h field (mem_fields_iff.mpr ⟨d, hd, hfield⟩) hstatic hreads
  rw [Declared.mapFields, TypeDecl.mapFields_eq_self hfields]
  rfl

/-- Which fields of a type are static. -/
def Declared.flags (d : Declared) : List Bool :=
  d.decl.fields.map (·.isStatic)

/-- **The flags tell** whether an outline is read as it is. -/
theorem Outline.preferred_iff_flags :
    o.Preferred ↔ o.preferred.declared.map Declared.flags = o.declared.map Declared.flags := by
  constructor
  · intro h
    rw [declared_preferred h]
  · intro h
    rw [preferred, declared_mapFields, List.map_map, List.map_inj_left] at h
    refine preferred_iff.mpr fun field hfield hstatic hreads => ?_
    obtain ⟨d, hd, hfield⟩ := mem_fields_iff.mp hfield
    have hflags : (d.decl.mapFields FieldDecl.preferred).fields.map (·.isStatic) =
        d.decl.fields.map (·.isStatic) := h d hd
    rw [TypeDecl.fields_mapFields, List.map_map, List.map_inj_left] at hflags
    have hpreferred : field.preferred.isStatic = field.isStatic := hflags field hfield
    rw [FieldDecl.isStatic_preferred.mpr (.inr hreads), hstatic] at hpreferred
    cases hpreferred

/-! ## One text, two cuts -/

/-- Tokens that may be cut otherwise: a name for the mark of a static field and
the name behind it. -/
inductive Recuts : List Token → List Token → Prop
  | nil : Recuts [] []
  | keep (t : Token) {ts us : List Token} : Recuts ts us → Recuts (t :: ts) (t :: us)
  | split {n : String} {behind : List Char} {ts us : List Token} :
      behindStatic? n.toList = some behind → Recuts ts us →
      Recuts (.name n :: ts) (.mark .staticWord :: .name (String.ofList behind) :: us)

theorem Recuts.refl (ts : List Token) : Recuts ts ts := by
  induction ts with
  | nil => exact .nil
  | cons t ts ih => exact .keep t ih

theorem Recuts.append (h : Recuts ts us) (h' : Recuts ts' us') :
    Recuts (ts ++ ts') (us ++ us') := by
  induction h with
  | nil => exact h'
  | keep t _ ih => exact .keep t ih
  | split hbehind _ ih => exact .split hbehind ih

/-- **A text that is cut into tokens is cut otherwise as well**, up to the same
rest. -/
theorem Recuts.cutsTo {rest : List Char} (h : Recuts ts us) (hcuts : CutsTo text ts rest) :
    CutsTo text us rest := by
  induction h generalizing text with
  | nil => exact hcuts
  | keep t _ ih =>
    obtain ⟨mid, hstarts, hmid⟩ := cutsTo_cons_iff.mp hcuts
    exact cutsTo_cons_iff.mpr ⟨mid, hstarts, ih hmid⟩
  | @split n behind ts us hbehind _ ih =>
    obtain ⟨mid, ⟨hname, hstart, hends⟩, hmid⟩ := cutsTo_cons_iff.mp hcuts
    obtain ⟨hn, hc⟩ := behindStatic?_eq_some_iff.mp hbehind
    have hbehindName : IsName behind := by
      rcases behind with _ | ⟨c, more⟩
      · cases hc
      · exact ⟨hc, fun d hd => isNameChar_of_mem hname (by rw [hn]; simp [hd])⟩
    have hmark : (Token.mark .staticWord).Starts (skipBlanks false text) (behind ++ mid) := by
      rw [Token.Starts, hstart, hn, List.append_assoc]
    have hrun : (Token.name (String.ofList behind)).Starts (behind ++ mid) mid :=
      ⟨by simpa using hbehindName, by simp, hends⟩
    exact .token (gap_skipBlanks_false text) hmark (.token .none hrun (ih hmid))

theorem Recuts.cuts (h : Recuts ts us) (hcuts : Cuts text ts) : Cuts text us :=
  cutsTo_nil_right_iff.mp (h.cutsTo (cutsTo_nil_right_iff.mpr hcuts))

theorem FieldDecl.recuts (field : FieldDecl) : Recuts field.tokens field.preferred.tokens := by
  unfold preferred
  split_ifs with hstatic
  · exact .refl _
  · split
    · rename_i behind hbehind
      simp only [FieldDecl.tokens, if_neg hstatic, if_true, List.nil_append, List.cons_append]
      exact .split hbehind (.refl _)
    · exact .refl _

theorem recuts_bodyTokens (fields : List FieldDecl) : Recuts (TypeDecl.bodyTokens fields)
    (TypeDecl.bodyTokens (fields.map FieldDecl.preferred)) := by
  refine .append (.keep _ ?_) (.refl _)
  induction fields with
  | nil => exact .nil
  | cons field fields ih => exact field.recuts.append ih

theorem TypeDecl.recuts (decl : TypeDecl) :
    Recuts decl.tokens (decl.mapFields FieldDecl.preferred).tokens := by
  rcases decl with ⟨_, fields⟩ | ⟨_, _ | fields⟩ | _
  · exact .append (.refl _) (recuts_bodyTokens fields)
  · exact .refl _
  · exact .append (.refl _) (recuts_bodyTokens fields)
  · exact .refl _

theorem Outline.recuts (o : Outline) : Recuts o.tokens o.preferred.tokens := by
  induction o with
  | empty => exact .nil
  | type before decl ih => exact .append ih decl.recuts
  | block before path inner ihBefore ihInner =>
    -- the declarations before and inside, and the words of the block between them
    exact .append (.append (.append (.append (.append ihBefore (.refl _)) (.refl _)) (.refl _))
      ihInner) (.refl _)

/-- **A text is read from each of its cuts**, always to the preferred
outline. -/
theorem read_of_cuts_tokens (h : Cuts text o.tokens) : Reading.read {} text = .ok o.preferred :=
  Reading.read_eq_ok_iff.mpr ⟨o.recuts.cuts h, o.preferred_preferred⟩

/-- **A text is read when it can be cut** into tokens that the grammar
derives. -/
theorem exists_read_iff : (∃ o, Reading.read {} text = .ok o) ↔
    ∃ ts, Cuts text ts ∧ Derives .description (ts.map Token.terminal) := by
  constructor
  · rintro ⟨o, h⟩
    exact ⟨o.tokens, (Reading.read_eq_ok_iff.mp h).1, derives_description_iff.mpr ⟨o, rfl⟩⟩
  · rintro ⟨ts, hcuts, hderives⟩
    obtain ⟨o, rfl⟩ := derives_description_iff.mp hderives
    exact ⟨o.preferred, read_of_cuts_tokens hcuts⟩

end Description

end TypeBridge
