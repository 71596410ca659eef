import TypeBridge.Proofs.Catalogue.Refusal
import TypeBridge.Proofs.Description.Exchange
import TypeBridge.Proofs.Description.Written
import Mathlib.Data.Set.Card
/-!
# TypeBridge — how ambiguous a description is

An outline is a parse tree of the grammar, with the names at its leaves, and it
is a tree of a text when the text can be cut into its tokens. A text may have
several of them, since a field that begins with `static` and a letter can be
read with the mark or without it. Nothing else can be read in two ways.

Every tree of a text has the same preferred outline, so at each place of a field
the trees hold what is read alike (`map_fieldsAt`): the preferred field, or that
with the mark drawn into its name. In the other direction all of these choices
can be made, so there are two for each such field.
-/

namespace TypeBridge

open Description

namespace Description

/-- The parse trees of a text. -/
def trees (text : List Char) : Set Outline :=
  {o | Cuts text o.tokens}

/-- Two readings of one field: the mark and a name, or one longer name. -/
def FieldDecl.JoinsTo (field field' : FieldDecl) : Prop :=
  field.isStatic = true ∧ field' = field.joined

/-- One field in two trees: at the same place, and the same but where the text
begins with `static` and a letter. -/
def SameBut (x y : List Char × FieldDecl) : Prop :=
  x.1 = y.1 ∧
    (x.2 = y.2 ∨ ReadsAsStatic x.1 ∧ (x.2.JoinsTo y.2 ∨ y.2.JoinsTo x.2))

variable {text rest : List Char} {field : FieldDecl} {fields : List FieldDecl}
variable {o o' : Outline} {x y : List Char × FieldDecl}

/-! ## Fields where they begin -/

/-- A text starts with a field at once. -/
def Begins (x : List Char × FieldDecl) : Prop :=
  IsSolid x.1 ∧ ∃ rest, CutsTo x.1 x.2.tokens rest

theorem begins_of_fieldsAt (h : CutsTo text (fields.flatMap FieldDecl.tokens) rest)
    (hrest : IsSolid rest) : ∀ x ∈ fieldsAt text fields, Begins x := by
  induction fields generalizing text with
  | nil => exact nofun
  | cons field fields ih =>
    obtain ⟨hfirst, hlast⟩ := h.split hrest
    exact List.forall_mem_cons.mpr ⟨⟨isSolid_skipBlanks _ _, _, hfirst.skip (isSolid_behind _ _)⟩,
      ih hlast⟩

/-- **Each field begins where it is said to** in a text that is cut. -/
theorem Outline.begins_of_fieldsAt (h : CutsTo text o.tokens rest) (hrest : IsSolid rest) :
    ∀ x ∈ o.fieldsAt text, Begins x := by
  induction o generalizing text rest with
  | empty => exact nofun
  | type before decl ih =>
    obtain ⟨hfront, hdecl⟩ := h.split hrest
    rw [TypeDecl.tokens_eq] at hdecl
    obtain ⟨hbody, -⟩ := hdecl.split hrest
    obtain ⟨-, hfields⟩ := hbody.split (isSolid_behind _ _)
    exact List.forall_mem_append.mpr ⟨ih hfront (isSolid_behind _ _),
      Description.begins_of_fieldsAt hfields (isSolid_behind _ _)⟩
  | block before path inner ih ih' =>
    rw [tokens_block] at h
    obtain ⟨hfront, -⟩ := h.split hrest
    obtain ⟨hopened, hinner⟩ := hfront.split (isSolid_behind _ _)
    obtain ⟨hfirst, -⟩ := hopened.split (isSolid_behind _ _)
    exact List.forall_mem_append.mpr ⟨ih hfirst (isSolid_behind _ _),
      ih' hinner (isSolid_behind _ _)⟩

/-- **An instance field's text begins with `static` and a letter** when its name
does, which ends where the field goes on. -/
theorem Begins.readsAsStatic_iff (h : Begins x) (hstatic : x.2.isStatic = false) :
    ReadsAsStatic x.1 ↔ ReadsAsStatic x.2.name.toList := by
  obtain ⟨text, field⟩ := x
  obtain ⟨hsolid, rest, hcuts⟩ := h
  rw [FieldDecl.tokens, hstatic, if_neg Bool.false_ne_true] at hcuts
  obtain ⟨mid, hname, -⟩ := cutsTo_cons_iff.mp hcuts
  rw [skipBlanks_of_isSolid hsolid] at hname
  constructor
  · rintro ⟨c, more, htext, hc⟩
    obtain ⟨letters, hletters, hmore⟩ := Reading.exists_of_starts_static hname
      (show (Token.mark .staticWord).Starts text (c :: more) from htext)
    cases letters with
    | nil =>
      -- the name would end in front of a letter
      have hend := hname.2.2 c (by rw [← List.nil_append mid, ← hmore]; rfl)
      rw [isNameChar_of_isNameStart hc] at hend
      cases hend
    | cons d letters =>
      obtain ⟨rfl, -⟩ := List.cons.inj hmore
      exact ⟨c, letters, hletters, hc⟩
  · rintro ⟨c, more, hletters, hc⟩
    refine ⟨c, more ++ mid, ?_, hc⟩
    rw [hname.2.1, hletters, List.append_assoc, List.cons_append]

/-- A field is read as a static one where its text begins so. -/
theorem Begins.isStatic_preferred (h : Begins x) (htext : ReadsAsStatic x.1) :
    x.2.preferred.isStatic = true := by
  rw [FieldDecl.isStatic_preferred, or_iff_not_imp_left, Bool.not_eq_true]
  exact fun hstatic => (h.readsAsStatic_iff hstatic).mp htext

/-- A field whose mark is in its name is the preferred one with the mark drawn
into the name. -/
theorem FieldDecl.eq_joined_preferred (hstatic : field.isStatic = false)
    (hname : ReadsAsStatic field.name.toList) : field = field.preferred.joined := by
  obtain ⟨behind, hbehind⟩ := Option.isSome_iff_exists.mp (readsAsStatic_iff.mp hname)
  obtain ⟨hletters, -⟩ := behindStatic?_eq_some_iff.mp hbehind
  have hjoined : field.name = Mark.staticWord.spelling ++ String.ofList behind := by
    rw [← String.toList_inj, hletters, String.toList_append, String.toList_ofList]
  unfold preferred
  rw [if_neg (by simp [hstatic]), hbehind, joined, ← hjoined, ← hstatic]

/-- **A field is the preferred one**, or that with the mark drawn into its name. -/
theorem Begins.eq_or (h : Begins x) : x.2 = x.2.preferred ∨
    ReadsAsStatic x.1 ∧ x.2.preferred.JoinsTo x.2 := by
  rcases hstatic : x.2.isStatic with _ | _
  · by_cases hname : ReadsAsStatic x.2.name.toList
    · have htext := (h.readsAsStatic_iff hstatic).mpr hname
      exact .inr ⟨htext, h.isStatic_preferred htext,
        FieldDecl.eq_joined_preferred hstatic hname⟩
    · refine .inl (FieldDecl.preferred_of_isStatic ?_).symm
      rw [hstatic, ← Bool.not_eq_true, FieldDecl.isStatic_preferred]
      simp [hstatic, hname]
  · refine .inl (FieldDecl.preferred_of_isStatic ?_).symm
    rw [hstatic, FieldDecl.isStatic_preferred]
    exact .inl hstatic

/-- Two fields at one place that are read alike are the same, but for the
mark. -/
theorem Begins.sameBut (hx : Begins x) (hy : Begins y) (hplace : x.1 = y.1)
    (hpreferred : x.2.preferred = y.2.preferred) : SameBut x y := by
  refine ⟨hplace, ?_⟩
  rcases hx.eq_or with hx | ⟨htext, hx⟩ <;> rcases hy.eq_or with hy | ⟨htext', hy⟩
  · exact .inl (hx.trans (hpreferred.trans hy.symm))
  · rw [← hpreferred, ← hx] at hy
    exact .inr ⟨hplace ▸ htext', .inl hy⟩
  · rw [hpreferred, ← hy] at hx
    exact .inr ⟨htext, .inr hx⟩
  · rw [hpreferred] at hx
    exact .inl (hx.2.trans hy.2.symm)

/-! ## All trees of a text -/

/-- What is read of a field that begins with a text. -/
def readAt (x : List Char × FieldDecl) : List Char × FieldDecl :=
  (x.1, x.2.preferred)

/-- The fields of the preferred outline begin where those of a tree do. -/
theorem Outline.fieldsAt_preferred (h : CutsTo text o.tokens rest) (hrest : IsSolid rest) :
    o.preferred.fieldsAt text = (o.fieldsAt text).map readAt := by
  have hswaps : List.Forall₂ (fun x field' => FieldDecl.Swaps x.1 x.2 field') (o.fieldsAt text)
      ((o.fieldsAt text).map fun x => x.2.preferred) :=
    List.forall₂_map_right_iff.mpr (List.forall₂_same.mpr fun x _ => x.2.swaps_preferred x.1)
  obtain ⟨o', hfields, hframe, -, hplaces⟩ := o.exists_of_swaps h hrest hswaps
  obtain rfl : o' = o.preferred := by
    refine eq_of_frame (hframe.trans o.frame_preferred.symm) ?_
    rw [hfields, preferred, fields_mapFields, ← o.map_snd_fieldsAt text, List.map_map]
    rfl
  rw [hplaces, List.zip_map']
  rfl

/-- Every tree of a text is read as the same outline. -/
theorem preferred_eq_of_mem_trees (h : o ∈ trees text) (h' : o' ∈ trees text) :
    o.preferred = o'.preferred :=
  Except.ok.inj ((read_of_cuts_tokens h).symm.trans (read_of_cuts_tokens h'))

/-- Each field of a tree begins where it is said to. -/
theorem begins_of_mem_trees (h : o ∈ trees text) : ∀ x ∈ o.fieldsAt text, Begins x :=
  Outline.begins_of_fieldsAt (cutsTo_nil_right_iff.mpr h) nofun

/-- **The fields of every tree are read alike**, place for place. -/
theorem map_fieldsAt (h : o ∈ trees text) (h' : o' ∈ trees text) :
    (o.fieldsAt text).map readAt = (o'.fieldsAt text).map readAt := by
  rw [← Outline.fieldsAt_preferred (cutsTo_nil_right_iff.mpr h) nofun,
    preferred_eq_of_mem_trees h h', Outline.fieldsAt_preferred (cutsTo_nil_right_iff.mpr h') nofun]

theorem frame_eq_of_mem_trees (h : o ∈ trees text) (h' : o' ∈ trees text) :
    o.frame = o'.frame := by
  rw [← o.frame_preferred, preferred_eq_of_mem_trees h h', o'.frame_preferred]

/-- **Two trees of a text are the same** but for fields that begin with `static`
and a letter. -/
theorem forall₂_sameBut (h : o ∈ trees text) (h' : o' ∈ trees text) :
    List.Forall₂ SameBut (o.fieldsAt text) (o'.fieldsAt text) := by
  have hread : List.Forall₂ (fun x y => readAt x = readAt y) (o.fieldsAt text)
      (o'.fieldsAt text) := by
    have hmap : List.Forall₂ (· = ·) ((o.fieldsAt text).map readAt)
        ((o'.fieldsAt text).map readAt) := by
      rw [List.forall₂_eq_eq_eq]
      exact map_fieldsAt h h'
    rwa [List.forall₂_map_left_iff, List.forall₂_map_right_iff] at hmap
  refine forall₂_imp_of_mem hread fun x hx y hy hsame => ?_
  obtain ⟨hplace, hpreferred⟩ := Prod.mk.inj hsame
  exact (begins_of_mem_trees h x hx).sameBut (begins_of_mem_trees h' y hy) hplace hpreferred

/-! ## How many trees there are -/

/-- Where each of some choices has two outcomes or one, and each is made on its
own, there are as many outcomes as two for each that has two. -/
theorem ncard_forall₂ {α β : Type*} {R : α → β → Prop} {p : α → Prop} [DecidablePred p]
    {xs : List α} (h : ∀ x ∈ xs, {y | R x y}.ncard = if p x then 2 else 1) :
    {ys | List.Forall₂ R xs ys}.ncard = 2 ^ xs.countP p := by
  induction xs with
  | nil => simp
  | cons x xs ih =>
    obtain ⟨hx, hxs⟩ := List.forall_mem_cons.mp h
    have himage : {ys | List.Forall₂ R (x :: xs) ys} =
        (fun yys : β × List β => yys.1 :: yys.2) '' ({y | R x y} ×ˢ {ys | List.Forall₂ R xs ys}) := by
      ext ys
      simp [List.forall₂_cons_left_iff, eq_comm]
    have hinjective : Function.Injective fun yys : β × List β => yys.1 :: yys.2 :=
      fun yys yys' h => Prod.ext (List.cons.inj h).1 (List.cons.inj h).2
    rw [himage, Set.ncard_image_of_injective _ hinjective, Set.ncard_prod, hx, ih hxs,
      List.countP_cons]
    by_cases hp : p x
    · simp [hp, Nat.pow_succ, Nat.mul_comm]
    · simp [hp]

/-- The choice there is for a field of the preferred outline. -/
def Choice (x : List Char × FieldDecl) (field : FieldDecl) : Prop :=
  field = x.2 ∨ ReadsAsStatic x.1 ∧ x.2.JoinsTo field

theorem swaps_of_choice (h : Choice x field) : x.2.Swaps x.1 field := by
  rcases h with rfl | ⟨htext, hstatic, rfl⟩
  · exact fun _ h => h
  · exact FieldDecl.swaps_joined hstatic htext

/-- There are two choices for a static field whose mark runs into the name. -/
theorem ncard_choice (h : ReadsAsStatic x.1 → x.2.isStatic = true) :
    {field | Choice x field}.ncard = if ReadsAsStatic x.1 then 2 else 1 := by
  split_ifs with htext
  · have hne : x.2 ≠ x.2.joined := fun heq => by
      have hflag := congrArg FieldDecl.isStatic heq
      rw [h htext] at hflag
      cases hflag
    have hpair : {field | Choice x field} = {x.2, x.2.joined} := by
      ext field
      simp [Choice, FieldDecl.JoinsTo, htext, h htext]
    rw [hpair, Set.ncard_pair hne]
  · have hsingle : {field | Choice x field} = {x.2} := by
      ext field
      simp [Choice, htext]
    rw [hsingle, Set.ncard_singleton]

/-- **The trees are the choices** made for the fields of the preferred outline. -/
theorem image_fields_trees (h : o ∈ trees text) :
    Outline.fields '' trees text =
      {fields | List.Forall₂ Choice (o.preferred.fieldsAt text) fields} := by
  have hcuts : CutsTo text o.tokens [] := cutsTo_nil_right_iff.mpr h
  have hpreferred : CutsTo text o.preferred.tokens [] := o.recuts.cutsTo hcuts
  ext fields
  constructor
  · rintro ⟨o', ho', rfl⟩
    have hplaces : o.preferred.fieldsAt text = (o'.fieldsAt text).map readAt := by
      rw [Outline.fieldsAt_preferred hcuts nofun, map_fieldsAt h ho']
    rw [Set.mem_ofPred_eq, hplaces, ← o'.map_snd_fieldsAt text, List.forall₂_map_left_iff,
      List.forall₂_map_right_iff, List.forall₂_same]
    exact fun x hx => (begins_of_mem_trees ho' x hx).eq_or
  · intro hchoices
    obtain ⟨o', hfields, -, hcuts', -⟩ := o.preferred.exists_of_swaps hpreferred nofun
      (List.Forall₂.imp (fun _ _ => swaps_of_choice) hchoices)
    exact ⟨o', cutsTo_nil_right_iff.mp hcuts', hfields⟩

/-- **A text has two trees for each field** that begins with `static` and a
letter. -/
theorem ncard_trees (h : o ∈ trees text) :
    (trees text).ncard = 2 ^ (o.fieldsAt text).countP (fun x => ReadsAsStatic x.1) := by
  have hplaces := Outline.fieldsAt_preferred (cutsTo_nil_right_iff.mpr h) nofun
  have hinjective : Set.InjOn Outline.fields (trees text) := fun o ho o' ho' hfields =>
    Outline.eq_of_frame (frame_eq_of_mem_trees ho ho') hfields
  have hstatic : ∀ x ∈ o.preferred.fieldsAt text, ReadsAsStatic x.1 → x.2.isStatic = true := by
    rw [hplaces, List.forall_mem_map]
    exact fun x hx => (begins_of_mem_trees h x hx).isStatic_preferred
  rw [← hinjective.ncard_image, image_fields_trees h,
    ncard_forall₂ fun x hx => ncard_choice (hstatic x hx), hplaces, List.countP_map]
  rfl

end Description

namespace Catalogue

variable {text : String}

/-- **Only the mark of a static field is ambiguous.** A text has two trees for
each field that begins with `static` and a letter, and two trees differ only in
the readings of these fields. The tree that is read and linked takes each of
them for static. -/
theorem ambiguous_only_in_static (h : IsDescription text.toList) :
    (∀ o ∈ trees text.toList, (trees text.toList).ncard =
      2 ^ (o.fieldsAt text.toList).countP fun x => ReadsAsStatic x.1) ∧
    (∀ o ∈ trees text.toList, ∀ o' ∈ trees text.toList, o.frame = o'.frame ∧
      List.Forall₂ SameBut (o.fieldsAt text.toList) (o'.fieldsAt text.toList)) ∧
    ∃ o ∈ trees text.toList, Outline.read text.toList = .ok o ∧
      (∀ enumBase, parse enumBase text = (ofOutline enumBase o).link.mapError .notLinked) ∧
      ∀ x ∈ o.fieldsAt text.toList, ReadsAsStatic x.1 → x.2.isStatic = true := by
  refine ⟨fun o ho => ncard_trees ho,
    fun o ho o' ho' => ⟨frame_eq_of_mem_trees ho ho', forall₂_sameBut ho ho'⟩, ?_⟩
  obtain ⟨ts, hcuts, hderives⟩ := h
  obtain ⟨o, rfl⟩ := derives_description_iff.mp hderives
  have ho : o ∈ trees text.toList := hcuts
  have hread := read_of_cuts_tokens hcuts
  refine ⟨o.preferred, o.recuts.cuts hcuts, Outline.read_eq_ok_iff.mpr hread,
    fun _ => parse_of_read hread, ?_⟩
  rw [Outline.fieldsAt_preferred (cutsTo_nil_right_iff.mpr hcuts) nofun, List.forall_mem_map]
  exact fun x hx => (begins_of_mem_trees ho x hx).isStatic_preferred

/-- A struct with two fields, of which only the first begins with `static` and a
letter. -/
def onceAmbiguous : Outline :=
  .type .empty (.valueType "S" [⟨false, "staticx", ⟨⟨[], "int32"⟩, 0⟩⟩,
    ⟨true, "staticx", ⟨⟨[], "int32"⟩, 0⟩⟩])

theorem ncard_trees_onceAmbiguous : IsDescription onceAmbiguous.written.toList ∧
    (trees onceAmbiguous.written.toList).ncard = 2 := by
  have hcuts := cuts_lines (show onceAmbiguous.Named by decide)
  have hdescription : IsDescription onceAmbiguous.written.toList :=
    ⟨_, hcuts, onceAmbiguous.derives⟩
  have hcount := (ambiguous_only_in_static hdescription).1 onceAmbiguous hcuts
  exact ⟨hdescription, hcount.trans (by decide)⟩

end Catalogue

end TypeBridge
