import TypeBridge.Proofs.Description.Preference
import TypeBridge.Proofs.Pairing
/-!
# TypeBridge — exchanging fields

Each field of an outline begins at some place of a text that is cut into the
outline's tokens. It may be exchanged for another one that takes the same piece
of the text, whatever is done with the others: the outline with the other fields
is cut from the text as well, and every field begins where it did
(`Outline.exists_of_swaps`).

What is left of an outline without its fields is its frame. A frame with fields
is an outline, so nothing else is exchanged (`Outline.eq_of_frame`).
-/

namespace TypeBridge

namespace Description

/-! ## The place of a field -/

/-- Fields one after the other, each with the text that it begins. -/
def fieldsAt (text : List Char) : List FieldDecl → List (List Char × FieldDecl)
  | [] => []
  | field :: fields =>
    (skipBlanks false text, field) :: fieldsAt (behind text field.tokens) fields

namespace TypeDecl

/-- The tokens in front of the fields. -/
def heading : TypeDecl → List Token
  | valueType name _ => [.mark .structWord, .name name, .mark .leftBrace]
  | referenceType name none => [.mark .classWord, .name name]
  | referenceType name (some _) => [.mark .classWord, .name name, .mark .leftBrace]
  | enumeration name => [.mark .enumWord, .name name]

/-- The tokens behind the fields. -/
def ending : TypeDecl → List Token
  | valueType _ _ | referenceType _ (some _) => [.mark .rightBrace]
  | referenceType _ none | enumeration _ => []

/-- The declaration with other fields in the body, if it has one. -/
def withFields (fields : List FieldDecl) : TypeDecl → TypeDecl
  | valueType name _ => valueType name fields
  | referenceType name body => referenceType name (body.map fun _ => fields)
  | enumeration name => enumeration name

/-- The fields of a declaration that a text starts with. -/
def fieldsAt (text : List Char) (decl : TypeDecl) : List (List Char × FieldDecl) :=
  Description.fieldsAt (behind text decl.heading) decl.fields

end TypeDecl

/-- The tokens in front of what a block holds. -/
def DottedName.opening (path : DottedName) : List Token :=
  [.mark .namespaceWord] ++ path.tokens ++ [.mark .leftBrace]

namespace Outline

/-- The fields of an outline that a text starts with. -/
def fieldsAt (text : List Char) : Outline → List (List Char × FieldDecl)
  | empty => []
  | type before decl => before.fieldsAt text ++ decl.fieldsAt (behind text before.tokens)
  | block before path inner =>
    before.fieldsAt text ++ inner.fieldsAt (behind text (before.tokens ++ path.opening))

/-- An outline with nothing in its fields. -/
def frame (o : Outline) : Outline :=
  o.mapFields fun _ => ⟨false, "", { target := { name := "" } }⟩

end Outline

/-- The field with its mark drawn into its name. -/
def FieldDecl.joined (field : FieldDecl) : FieldDecl :=
  { field with isStatic := false, name := Mark.staticWord.spelling ++ field.name }

variable {text rest : List Char} {field field' : FieldDecl} {fields fields' : List FieldDecl}
variable {decl : TypeDecl} {o o' : Outline}

theorem map_snd_fieldsAt (text : List Char) (fields : List FieldDecl) :
    (fieldsAt text fields).map Prod.snd = fields := by
  induction fields generalizing text with
  | nil => rfl
  | cons field fields ih => rw [fieldsAt, List.map_cons, ih]

theorem TypeDecl.tokens_eq (decl : TypeDecl) :
    decl.tokens = decl.heading ++ decl.fields.flatMap FieldDecl.tokens ++ decl.ending := by
  rcases decl with _ | ⟨_, _ | _⟩ | _ <;>
    simp [tokens, bodyTokens, heading, ending, TypeDecl.fields]

theorem Outline.tokens_block (before inner : Outline) (path : DottedName) :
    (before.block path inner).tokens =
      before.tokens ++ path.opening ++ inner.tokens ++ [.mark .rightBrace] := by
  simp [tokens, DottedName.opening]

theorem Outline.map_snd_fieldsAt (text : List Char) (o : Outline) :
    (o.fieldsAt text).map Prod.snd = o.fields := by
  induction o generalizing text with
  | empty => rfl
  | type before decl ih =>
    rw [fieldsAt, List.map_append, ih, TypeDecl.fieldsAt, Description.map_snd_fieldsAt, fields]
  | block before path inner ih ih' => rw [fieldsAt, List.map_append, ih, ih', fields]

/-! ## Frames -/

theorem TypeDecl.mapFields_mapFields {f g : FieldDecl → FieldDecl} (decl : TypeDecl) :
    (decl.mapFields f).mapFields g = decl.mapFields (g ∘ f) := by
  rcases decl with _ | ⟨_, _ | _⟩ | _ <;> simp [mapFields]

theorem Outline.mapFields_mapFields {f g : FieldDecl → FieldDecl} (o : Outline) :
    (o.mapFields f).mapFields g = o.mapFields (g ∘ f) := by
  induction o with
  | empty => rfl
  | type before decl ih => simp only [mapFields, ih, TypeDecl.mapFields_mapFields]
  | block before path inner ih ih' => simp only [mapFields, ih, ih']

/-- The preferred outline has the same frame. -/
theorem Outline.frame_preferred (o : Outline) : o.preferred.frame = o.frame := by
  rw [frame, preferred, mapFields_mapFields]
  rfl

theorem Outline.length_eq_of_frame (h : o.frame = o'.frame) :
    o.fields.length = o'.fields.length := by
  have := congrArg (List.length ∘ Outline.fields) h
  simpa [frame, fields_mapFields] using this

theorem TypeDecl.eq_of_mapFields {f : FieldDecl → FieldDecl} {decl decl' : TypeDecl}
    (h : decl.mapFields f = decl'.mapFields f) (hfields : decl.fields = decl'.fields) :
    decl = decl' := by
  rcases decl with _ | ⟨_, _ | _⟩ | _ <;> rcases decl' with _ | ⟨_, _ | _⟩ | _ <;>
    simp_all [mapFields, fields]

/-- **A frame with its fields** is an outline. -/
theorem Outline.eq_of_frame (h : o.frame = o'.frame) (hfields : o.fields = o'.fields) :
    o = o' := by
  induction o generalizing o' with
  | empty =>
    cases o' with
    | empty => rfl
    | type | block => cases h
  | type before decl ih =>
    cases o' with
    | empty | block => cases h
    | type before' decl' =>
      obtain ⟨hbefore, hdecl⟩ := Outline.type.inj h
      obtain ⟨hfirst, hlast⟩ := List.append_inj hfields (length_eq_of_frame hbefore)
      rw [ih hbefore hfirst, TypeDecl.eq_of_mapFields hdecl hlast]
  | block before path inner ih ih' =>
    cases o' with
    | empty | type => cases h
    | block before' path' inner' =>
      obtain ⟨hbefore, hpath, hinner⟩ := Outline.block.inj h
      obtain ⟨hfirst, hlast⟩ := List.append_inj hfields (length_eq_of_frame hbefore)
      rw [ih hbefore hfirst, hpath, ih' hinner hlast]

/-! ## Fields that may be exchanged -/

/-- Where a text starts with one field, it starts with another one as well, up to
the same rest. -/
def FieldDecl.Swaps (text : List Char) (field field' : FieldDecl) : Prop :=
  ∀ rest, CutsTo text field.tokens rest → CutsTo text field'.tokens rest

/-- A field is read as the preferred one instead. -/
theorem FieldDecl.swaps_preferred (text : List Char) (field : FieldDecl) :
    field.Swaps text field.preferred :=
  fun _ h => field.recuts.cutsTo h

theorem isName_append_static {name : List Char} (h : IsName name) :
    IsName (Mark.staticWord.spelling.toList ++ name) := by
  have hall : ∀ c ∈ Mark.staticWord.spelling.toList ++ name, isNameChar c = true := fun c hc =>
    (List.mem_append.mp hc).elim (isNameChar_of_mem isName_static) (isNameChar_of_mem h)
  exact ⟨by decide, fun c hc => hall c (List.mem_cons_of_mem _ hc)⟩

/-- **The mark is drawn into the name** when a letter follows it at once. -/
theorem FieldDecl.swaps_joined (hstatic : field.isStatic = true) (htext : ReadsAsStatic text) :
    field.Swaps text field.joined := by
  obtain ⟨c, more, rfl, hc⟩ := htext
  have hmark : (Token.mark .staticWord).Starts
      (skipBlanks false (Mark.staticWord.spelling.toList ++ c :: more)) (c :: more) := by
    rw [skipBlanks_of_isSolid (isSolid_of_starts (t := .mark .staticWord) rfl)]
    rfl
  intro rest h
  rw [tokens, hstatic, if_pos rfl] at h
  obtain ⟨mid, hstarts, h⟩ := cutsTo_cons_iff.mp h
  obtain rfl := hmark.unique hstarts
  obtain ⟨mid, hname, h⟩ := cutsTo_cons_iff.mp h
  -- no blank stands in front of the name
  rw [skipBlanks_of_isSolid (isSolid_cons (isNameChar_of_isNameStart hc))] at hname
  obtain ⟨hname, hmore, hends⟩ := hname
  have hletters : field.joined.name.toList =
      Mark.staticWord.spelling.toList ++ field.name.toList := String.toList_append
  refine .token .none ⟨?_, ?_, hends⟩ h
  · rw [hletters]
    exact isName_append_static hname
  · rw [hletters, hmore, List.append_assoc]

/-- Where fields are exchanged, the places of the others are the same. -/
theorem cutsTo_of_swaps (h : CutsTo text (fields.flatMap FieldDecl.tokens) rest)
    (hrest : IsSolid rest)
    (hfields : List.Forall₂ (fun x field' => x.2.Swaps x.1 field') (fieldsAt text fields)
      fields') :
    CutsTo text (fields'.flatMap FieldDecl.tokens) rest ∧
      fieldsAt text fields' = ((fieldsAt text fields).map Prod.fst).zip fields' := by
  induction fields generalizing text fields' with
  | nil =>
    obtain rfl := List.forall₂_nil_left_iff.mp hfields
    exact ⟨h, rfl⟩
  | cons field fields ih =>
    rw [fieldsAt] at hfields
    obtain ⟨field', fields', hswaps, hothers, rfl⟩ := List.forall₂_cons_left_iff.mp hfields
    obtain ⟨hfirst, hlast⟩ := h.split hrest
    obtain ⟨hcuts, hplaces⟩ := ih hlast hothers
    have hfirst' : CutsTo text field'.tokens (behind text field.tokens) :=
      .of_gap (gap_skipBlanks_false text) (hswaps _ (hfirst.skip (isSolid_behind _ _)))
    have hbehind := hfirst'.behind_eq_self (isSolid_behind _ _)
    refine ⟨hfirst'.append hcuts, ?_⟩
    rw [fieldsAt, hbehind, hplaces]
    rfl

theorem TypeDecl.fields_withFields (h : decl.fields.length = fields.length) :
    (decl.withFields fields).fields = fields := by
  rcases decl with _ | ⟨_, _ | _⟩ | _
  · rfl
  · exact (List.length_eq_zero_iff.mp h.symm).symm
  · rfl
  · exact (List.length_eq_zero_iff.mp h.symm).symm

theorem TypeDecl.heading_withFields (decl : TypeDecl) (fields : List FieldDecl) :
    (decl.withFields fields).heading = decl.heading := by
  rcases decl with _ | ⟨_, _ | _⟩ | _ <;> rfl

theorem TypeDecl.ending_withFields (decl : TypeDecl) (fields : List FieldDecl) :
    (decl.withFields fields).ending = decl.ending := by
  rcases decl with _ | ⟨_, _ | _⟩ | _ <;> rfl

/-- Of the other fields only their number is kept in a frame. -/
theorem TypeDecl.mapFields_withFields (empty : FieldDecl)
    (h : decl.fields.length = fields.length) :
    (decl.withFields fields).mapFields (fun _ => empty) = decl.mapFields fun _ => empty := by
  rcases decl with _ | ⟨_, _ | _⟩ | _ <;> simp_all [withFields, mapFields, TypeDecl.fields]

theorem TypeDecl.cutsTo_withFields (h : CutsTo text decl.tokens rest) (hrest : IsSolid rest)
    (hfields : List.Forall₂ (fun x field' => x.2.Swaps x.1 field') (decl.fieldsAt text) fields) :
    decl.fields.length = fields.length ∧ CutsTo text (decl.withFields fields).tokens rest ∧
      (decl.withFields fields).fieldsAt text = ((decl.fieldsAt text).map Prod.fst).zip fields := by
  have hlength : decl.fields.length = fields.length := by
    rw [← hfields.length_eq, fieldsAt, ← List.length_map Prod.snd, map_snd_fieldsAt]
  have hsame := fields_withFields hlength
  rw [tokens_eq] at h
  obtain ⟨hfront, hending⟩ := h.split hrest
  obtain ⟨hheading, hbody⟩ := hfront.split (isSolid_behind _ _)
  obtain ⟨hcuts, hplaces⟩ := cutsTo_of_swaps hbody (isSolid_behind _ _) hfields
  refine ⟨hlength, ?_, ?_⟩
  · rw [tokens_eq, heading_withFields, hsame, ending_withFields]
    exact (hheading.append hcuts).append hending
  · rw [fieldsAt, heading_withFields, hsame]
    exact hplaces

/-- **Each field may be exchanged** whatever the others are: the outline with the
other fields is cut from the same text, and every field begins where it did. -/
theorem Outline.exists_of_swaps (h : CutsTo text o.tokens rest) (hrest : IsSolid rest)
    (hfields : List.Forall₂ (fun x field' => x.2.Swaps x.1 field') (o.fieldsAt text) fields) :
    ∃ o' : Outline, o'.fields = fields ∧ o'.frame = o.frame ∧ CutsTo text o'.tokens rest ∧
      o'.fieldsAt text = ((o.fieldsAt text).map Prod.fst).zip fields := by
  induction o generalizing text rest fields with
  | empty =>
    obtain rfl := List.forall₂_nil_left_iff.mp hfields
    exact ⟨empty, rfl, rfl, h, rfl⟩
  | type before decl ih =>
    obtain ⟨fields, last, rfl, hbefore, hlast⟩ := exists_append_of_forall₂ hfields
    obtain ⟨hfront, hdecl⟩ := h.split hrest
    obtain ⟨before', rfl, hframe, hcuts, hplaces⟩ := ih hfront (isSolid_behind _ _) hbefore
    obtain ⟨hlength, hcuts', hplaces'⟩ := TypeDecl.cutsTo_withFields hdecl hrest hlast
    refine ⟨before'.type (decl.withFields last), ?_, ?_, hcuts.append hcuts', ?_⟩
    · rw [Outline.fields, TypeDecl.fields_withFields hlength]
    · rw [frame, mapFields, TypeDecl.mapFields_withFields _ hlength]
      exact congrArg (type · _) hframe
    · rw [fieldsAt, hcuts.behind_eq_self (isSolid_behind _ _), hplaces, hplaces', fieldsAt,
        List.map_append, List.zip_append (by simp [← hbefore.length_eq])]
  | block before path inner ih ih' =>
    obtain ⟨fields, last, rfl, hbefore, hlast⟩ := exists_append_of_forall₂ hfields
    rw [tokens_block] at h
    obtain ⟨hfront, hclose⟩ := h.split hrest
    obtain ⟨hopened, hinner⟩ := hfront.split (isSolid_behind _ _)
    obtain ⟨hfirst, hopening⟩ := hopened.split (isSolid_behind _ _)
    obtain ⟨before', rfl, hframe, hcuts, hplaces⟩ := ih hfirst (isSolid_behind _ _) hbefore
    obtain ⟨inner', rfl, hframe', hcuts', hplaces'⟩ := ih' hinner (isSolid_behind _ _) hlast
    have hopened' := hcuts.append hopening
    refine ⟨before'.block path inner', rfl, ?_, ?_, ?_⟩
    · rw [frame, mapFields]
      exact congrArg₂ (block · path ·) hframe hframe'
    · rw [tokens_block]
      exact (hopened'.append hcuts').append hclose
    · rw [fieldsAt, hopened'.behind_eq_self (isSolid_behind _ _), hplaces, hplaces', fieldsAt,
        List.map_append, List.zip_append (by simp [← hbefore.length_eq])]

end Description

end TypeBridge
