import TypeBridge.Proofs.Catalogue.Layout
import TypeBridge.Proofs.Description.Written
import TypeBridge.Proofs.Resolution.Revision
/-!
# TypeBridge — a description inside a block

A description may be put into a namespace block as it stands, with a line
break at either end. The break behind it ends its last name and its last
comment, so it is cut into the tokens it was cut into before, and it is read to
the same outline, inside the block (`read_enclose`).
-/

namespace TypeBridge

open Managed

namespace Description

/-- The name as it is written without blanks. -/
def DottedName.dotted (path : DottedName) : String :=
  ".".intercalate path.segments

/-- A text inside a namespace block. -/
def DottedName.enclose (path : DottedName) (text : String) : String :=
  "namespace " ++ path.dotted ++ " \x7b\n" ++ text ++ "\n\x7d"

/-- A name that can be read. -/
def DottedName.Readable (path : DottedName) : Prop :=
  ∀ segment ∈ path.segments, IsName segment.toList

instance (path : DottedName) : Decidable path.Readable :=
  inferInstanceAs (Decidable (∀ segment ∈ path.segments, IsName segment.toList))

/-- The type inside further namespaces. -/
def Declared.inside (path : List String) (d : Declared) : Declared :=
  ⟨path ++ d.namespaces, d.decl⟩

variable {text mid rest : List Char} {t : Token} {ts : List Token} {path : DottedName}
variable {o : Outline} {enumBase : Option String} {namespaces : List String} {ds : List Declared}

/-! ## Texts -/

/-- A line break behind a gap is no part of a comment in it. -/
theorem Gap.append (h : Gap text mid) : Gap (text ++ '\n' :: rest) (mid ++ '\n' :: rest) := by
  induction h with
  | none => exact .none
  | blank hc _ ih => exact .blank hc ih
  | @comment body after _ hbody hafter _ ih =>
    rw [List.append_assoc]
    refine .comment hbody (fun c hc => ?_) ih
    cases after with
    | nil => exact (Option.mem_some_iff.mp hc).symm
    | cons => exact hafter c hc

/-- Nor is it a part of a name. -/
theorem Token.Starts.append (h : t.Starts text mid) :
    t.Starts (text ++ '\n' :: rest) (mid ++ '\n' :: rest) := by
  cases t with
  | mark m =>
    obtain rfl : text = m.spelling.toList ++ mid := h
    exact List.append_assoc ..
  | name n =>
    obtain ⟨hname, rfl, hends⟩ := h
    refine ⟨hname, List.append_assoc .., fun c hc => ?_⟩
    cases mid with
    | nil =>
      obtain rfl := Option.mem_some_iff.mp hc
      decide
    | cons => exact hends c hc

/-- **A text in front of a line break** is cut as it is alone. -/
theorem Cuts.append (h : Cuts text ts) : CutsTo (text ++ '\n' :: rest) ts ('\n' :: rest) := by
  induction h with
  | done hgap => exact .done hgap.append
  | token hgap hstarts _ ih => exact .token hgap.append hstarts.append ih

/-- A dotted name is cut into its tokens. -/
theorem DottedName.Readable.cutsTo (h : path.Readable) (hrest : EndsName rest) :
    CutsTo (path.dotted.toList ++ rest) path.tokens rest := by
  obtain ⟨segments, name⟩ := path
  induction segments with
  | nil =>
    have hname : IsName name.toList := h name (by simp [DottedName.segments])
    have hstarts : (Token.name name).Starts (name.toList ++ rest) rest := ⟨hname, rfl, hrest⟩
    simpa [dotted, DottedName.segments, tokens] using CutsTo.token .none hstarts (.done .none)
  | cons segment segments ih =>
    have hname : IsName segment.toList := h segment (by simp [DottedName.segments])
    have ih := ih fun other hother => h other (by simp_all [DottedName.segments])
    have hdotted : (DottedName.mk (segment :: segments) name).dotted.toList ++ rest =
        segment.toList ++ '.' :: ((DottedName.mk segments name).dotted.toList ++ rest) := by
      simp [dotted, DottedName.segments, String.intercalate_cons_of_ne_nil]
    rw [hdotted]
    refine .token .none ⟨hname, rfl, fun c hc => ?_⟩ (.token (t := .mark .dot) .none rfl ih)
    obtain rfl := Option.mem_some_iff.mp hc
    decide

theorem toList_enclose (path : DottedName) (text : String) : (path.enclose text).toList =
    Mark.namespaceWord.spelling.toList ++ ' ' :: (path.dotted.toList ++
      ' ' :: (Mark.leftBrace.spelling.toList ++ '\n' :: (text.toList ++
        '\n' :: (Mark.rightBrace.spelling.toList ++ [])))) := by
  simp [DottedName.enclose, Mark.spelling]

/-- **A text inside a block** is cut into what it was cut into, inside a block. -/
theorem cuts_enclose {text : String} (hpath : path.Readable) (h : Cuts text.toList o.tokens) :
    Cuts (path.enclose text).toList (Outline.empty.block path o).tokens := by
  have hblank : ∀ {rest}, EndsName (' ' :: rest) := by
    intro rest c hc
    obtain rfl := Option.mem_some_iff.mp hc
    decide
  have hword : ∀ {rest}, CutsTo (Mark.namespaceWord.spelling.toList ++ rest)
      [.mark .namespaceWord] rest := .token .none rfl (.done .none)
  have hpath : ∀ {rest},
      CutsTo (' ' :: (path.dotted.toList ++ ' ' :: rest)) path.tokens (' ' :: rest) :=
    .of_gap (.blank (by decide) .none) (hpath.cutsTo hblank)
  have hinner : ∀ {rest}, CutsTo ('\n' :: (text.toList ++ '\n' :: rest)) o.tokens ('\n' :: rest) :=
    .of_gap (.blank (by decide) .none) h.append
  have hmark : ∀ {m : Mark} {c rest}, isBlank c = true →
      CutsTo (c :: (m.spelling.toList ++ rest)) [.mark m] rest :=
    fun hc => .token (.blank hc .none) rfl (.done .none)
  rw [← cutsTo_nil_right_iff, toList_enclose, Outline.tokens, Outline.tokens, List.nil_append]
  exact (((hword.append hpath).append (hmark (by decide))).append hinner).append (hmark (by decide))

/-- **What is read inside a block** is the same outline. -/
theorem read_enclose {text : String} (hpath : path.Readable)
    (h : Reading.read {} text.toList = .ok o) :
    Reading.read {} (path.enclose text).toList = .ok (Outline.empty.block path o) := by
  obtain ⟨hcuts, hpreferred⟩ := Reading.read_eq_ok_iff.mp h
  have hpreferred' : (Outline.empty.block path o).Preferred := by
    simpa [Outline.Preferred, Outline.fields] using hpreferred
  exact Reading.read_eq_ok_iff.mpr ⟨cuts_enclose hpath hcuts, hpreferred'⟩

/-! ## Types -/

theorem declaredBefore_inside (o : Outline) (path namespaces : List String)
    (after : List Declared) :
    o.declaredBefore (path ++ namespaces) (after.map (Declared.inside path)) =
      (o.declaredBefore namespaces after).map (Declared.inside path) := by
  induction o generalizing namespaces after with
  | empty => rfl
  | type before decl ih => exact ih namespaces (⟨namespaces, decl⟩ :: after)
  | block before name inner ih ih' =>
    rw [Outline.declaredBefore, Outline.declaredBefore, ← ih, ← ih', List.append_assoc]

/-- The types are those inside the block, with its path in front. -/
theorem declared_block (path : DottedName) (o : Outline) :
    (Outline.empty.block path o).declared = o.declared.map (Declared.inside path.segments) := by
  have h := declaredBefore_inside o path.segments [] []
  rwa [List.append_nil] at h

theorem decl_inside (d : Declared) (path : List String) : (d.inside path).decl = d.decl := rfl

theorem fact_inside (d : Declared) (path : List String) (fields : List Field) :
    (d.inside path).fact enumBase fields = (d.fact enumBase fields).inside path := by
  obtain ⟨namespaces, decl⟩ := d
  cases decl <;> rfl

/-- They are written down as they are elsewhere. -/
theorem declaredFacts_inside (path : List String) (ds : List Declared) (next : FactId) :
    declaredFacts enumBase next (ds.map (Declared.inside path)) =
      ((declaredFacts enumBase next ds).1.map (Fact.inside path),
        (declaredFacts enumBase next ds).2) := by
  induction ds generalizing next with
  | nil => rfl
  | cons d ds ih => simp only [List.map_cons, declaredFacts, ih, fact_inside, decl_inside]

end Description

end TypeBridge
