import TypeBridge.Native.Conversion
import TypeBridge.Proofs.Native.Meaning
import TypeBridge.Proofs.Native.Place
/-!
# TypeBridge — there and back across the boundary

A value that is converted to what crosses the boundary and back again is the
value that it was. Conversions are texts, so this is said of the text: it is read
in one way only, and what is read stands for the same instance or the same
number, in the type itself, whatever the declarations are that it is compiled
with (`roundTrips_denote`).

A conversion is written as an expression tree and read as one again, with types
for descriptors (`reads_text`), and the value is followed through each half
(`value_toInterop`, `value_fromInterop`). In between it has the interop type.
-/

namespace TypeBridge

open Native Description Text

/-- Settings in which all names are names: the base namespace, if there is one,
and the handle class with its namespaces. -/
structure Settings.Named (settings : Settings) : Prop where
  base : settings.baseNamespace = "" ∨ IsName settings.baseNamespace.toList
  handleNamespace : ∃ segments, segments ≠ [] ∧ (∀ s ∈ segments, IsName s.toList) ∧
    settings.handleNamespace = some (".".intercalate segments)
  handleName : ∃ name, settings.handleName = some name ∧ IsName name.toList

/-- The handle class of such settings has names only. -/
theorem Settings.Named.exists_handleType {settings : Settings} (h : settings.Named) :
    ∃ owner, settings.handleType = .ok owner ∧ owner.qualifiers = {} ∧
      ∀ s ∈ owner.scope.segments ++ [owner.name], IsName s.toList := by
  obtain ⟨segments, hnil, hsegments, hnamespace⟩ := h.handleNamespace
  obtain ⟨name, hname, hisName⟩ := h.handleName
  have hsplit : dottedSegments (".".intercalate segments) = segments :=
    dottedSegments_eq_iff.mpr ⟨hnil, fun s hs => notMem_of_isName (hsegments s hs) rfl, rfl⟩
  refine ⟨_, handleType_of_name hnamespace hname (ne_empty_of_isName hisName), rfl, ?_⟩
  rw [Scope.segments_ofSegments, handlePath, hsplit]
  refine forall_mem_concat (fun s hs => ?_) hisName
  obtain ⟨hmem, hne⟩ := List.mem_filter.mp hs
  rcases List.mem_cons.mp hmem with rfl | hmem
  · exact h.base.resolve_left (by simpa using hne)
  · exact hsegments s hmem

namespace Native

/-! ## Reading what is written -/

namespace Expression

variable {x : Expression} {code : String} {term : Term}

/-- An expression that can be read: over some code, with types that have names
and no marks, and methods that have names. -/
def Readable (code : String) : Expression → Prop
  | operand text => text = code
  | construct type argument =>
    type.qualifiers = {} ∧ (∀ s ∈ type.path, IsName s.toList) ∧ argument.Readable code
  | call receiver method => receiver.Readable code ∧ IsName method.toList

/-- What an expression is read as, if its operand is read as some term. -/
def read (term : Term) : Expression → Term
  | operand _ => term
  | construct type argument => .construct type.path (argument.read term)
  | call receiver method => .call (receiver.read term) method

/-- **An expression is read as it is.** -/
theorem reads_text (h : x.Readable code) (hterm : Reads code term) :
    Reads x.text (x.read term) := by
  induction x with
  | operand text =>
    obtain rfl : text = code := h
    exact hterm
  | construct type argument ih =>
    obtain ⟨hqualifiers, hpath, hargument⟩ := h
    have hsegments : ∀ s ∈ type.scope.segments, s ≠ "" := fun s hs =>
      ne_empty_of_isName (hpath s (List.mem_append_left _ hs))
    rw [text, Descriptor.rootedSpelling, Descriptor.spelling_of_ne_empty hqualifiers hsegments]
    exact .construct (by simp) hpath (ih hargument)
  | call receiver method ih => exact .call (ih h.1) h.2

end Expression

/-! ## Values of a type -/

/-- What a value of a class or an enum may hold where conversions are compiled:
the handle class, the type and the number that an enum is cast to are declared
for what they are. -/
inductive Program.Holds {ρ : Type} (p : Program) (settings : Settings) (t : Descriptor) :
    Content ρ → Prop
  | managed {owner : Descriptor} {handle : ρ} (hkind : t.kind = .classWrapper)
      (howner : settings.handleType = .ok owner) (hhandle : p.handleClass = owner.path)
      (hdeclared : p.declaration? t.path = some .wrapper) : Holds p settings t (.managed handle)
  | number {signed : Bool} {n : Int} (hkind : t.kind = .enumeration)
      (hnumber : p.declaration? Descriptor.uint32.path = some (.number false))
      (hdeclared : p.declaration? t.path = some (.number signed)) (hn : Is32 signed n) :
      Holds p settings t (.number n)

/-- What of a value crosses the boundary: the handle of an instance, and a number
without its sign. -/
def Content.crossed {ρ : Type} : Content ρ → Content ρ
  | managed handle => managed handle
  | number n => number (cast32 false n)

namespace Descriptor

section Value

variable {ρ : Type} {p : Program} {settings : Settings} {t : Descriptor} {content : Content ρ}
variable {known : String → Option (Value ρ)} {term : Term} {form : Form} {code : String}
variable {x : Expression}

/-- **To the boundary**: the expression has the interop type, and the value is
what crosses. -/
theorem value_toInterop (hholds : p.Holds settings t content)
    (hterm : term.value? p known = some ⟨form, content⟩) (hform : form.IsOf t.path) :
    ((t.toInterop (.operand code)).read term).value? p known =
      some ⟨t.asInterop.form, content.crossed⟩ := by
  cases hholds with
  | managed hkind howner hhandle hdeclared =>
    simp only [toInterop, hkind, Expression.rawHandle, Expression.read, Term.value?, hterm,
      Option.bind_some, Program.call_getHandle hdeclared hform, Program.call_getRaw,
      asInterop_of_classWrapper hkind, Content.crossed]
  | number hkind hnumber hdeclared hn =>
    have hpath : uint32.bare.path = uint32.path := rfl
    simp only [toInterop, hkind, Expression.read, Term.value?, hterm, Option.bind_some,
      asInterop_of_enumeration hkind, hpath, Program.construct_number hnumber hform.2,
      Content.crossed]
    rfl

/-- **And back**: from what crossed, the expression makes the value again, in the
type without marks. -/
theorem value_fromInterop (hholds : p.Holds settings t content)
    (hx : t.fromInterop settings (.operand code) = .ok x)
    (hterm : term.value? p known = some ⟨t.asInterop.form, content.crossed⟩) :
    (x.read term).value? p known = some ⟨t.bare.form, content⟩ := by
  have hpath : t.bare.path = t.path := rfl
  cases hholds with
  | managed hkind howner hhandle hdeclared =>
    simp only [fromInterop, hkind, howner, Except.map, Except.ok.injEq] at hx
    rw [asInterop_of_classWrapper hkind] at hterm
    subst hx
    simp only [Expression.read, Term.value?, hterm, Option.bind_some, Content.crossed, ← hhandle,
      hpath, Program.construct_handleClass, Program.construct_wrapper hdeclared]
    rfl
  | number hkind hnumber hdeclared hn =>
    simp only [fromInterop, hkind, Except.ok.injEq] at hx
    rw [asInterop_of_enumeration hkind] at hterm
    subst hx
    have hmarks : uint32.form.marks.pointer = false := rfl
    simp only [Expression.read, Term.value?, hterm, Option.bind_some, Content.crossed, hpath,
      Program.construct_number hdeclared hmarks, cast32_cast32 hn]
    rfl

end Value

/-! ## Rounds -/

/-- The text of a value that crosses the boundary and comes back, made from the
text of the value. -/
def roundTrip (t : Descriptor) (settings : Settings) (text : String) :
    Except HandleError String :=
  (t.fromInterop settings (.operand (t.toInterop (.operand text)).text)).map Expression.text

/-- Goes there and back a number of times. -/
def roundTrips (t : Descriptor) (settings : Settings) : Nat → String → Except HandleError String
  | 0, text => .ok text
  | rounds + 1, text => (t.roundTrips settings rounds text).bind (t.roundTrip settings)

/-- A text denotes what a variable of a type holds, with a type of its own: it
has one reading, and the value of that is what the variable holds wherever the
type is declared for what it is. -/
def Denotes (t : Descriptor) (settings : Settings) (variableName : String) (form : Form)
    (text : String) : Prop :=
  ∃ term, (∀ other, Reads text other ↔ other = term) ∧
    ∀ (ρ : Type) (p : Program) (known : String → Option (Value ρ)) (content : Content ρ),
      p.Holds settings t content → known variableName = some ⟨t.form, content⟩ →
        term.value? p known = some ⟨form, content⟩

section Rounds

variable {t : Descriptor} {settings : Settings} {code name text : String} {form : Form}

theorem readable_toInterop (hkind : t.kind = .classWrapper ∨ t.kind = .enumeration) :
    (t.toInterop (.operand code)).Readable code := by
  rcases hkind with hkind | hkind
  · rw [toInterop, hkind]
    exact ⟨⟨rfl, by decide⟩, by decide⟩
  · rw [toInterop, hkind, asInterop_of_enumeration hkind]
    exact ⟨rfl, by decide, rfl⟩

theorem exists_fromInterop (hkind : t.kind = .classWrapper ∨ t.kind = .enumeration)
    (hpath : ∀ s ∈ t.path, IsName s.toList) (hsettings : settings.Named) :
    ∃ x, t.fromInterop settings (.operand code) = .ok x ∧ x.Readable code := by
  rcases hkind with hkind | hkind
  · obtain ⟨owner, howner, hqualifiers, hnames⟩ := hsettings.exists_handleType
    refine ⟨.construct t.bare (.construct owner (.operand code)), ?_, ?_⟩
    · rw [fromInterop, hkind, howner]
      rfl
    · exact ⟨rfl, hpath, hqualifiers, hnames, rfl⟩
  · refine ⟨.construct t.bare (.operand code), ?_, rfl, hpath, rfl⟩
    rw [fromInterop, hkind]

/-- A variable denotes what it holds. -/
theorem denotes_variable (hname : IsName name.toList) : t.Denotes settings name t.form name :=
  ⟨.operand name, fun _ => (Reads.operand hname).iff_eq, fun _ _ _ _ _ hknown => hknown⟩

theorem Denotes.wellBracketed (h : t.Denotes settings name form text) :
    WellBracketed text.toList := by
  obtain ⟨term, hreads, -⟩ := h
  exact ((hreads term).mpr rfl).wellBracketed

/-- **One round**: a text of an object or a reference gives one of an object, and
both denote the same. -/
theorem Denotes.exists_roundTrip (h : t.Denotes settings name form text)
    (hform : form.IsOf t.path) (hkind : t.kind = .classWrapper ∨ t.kind = .enumeration)
    (hpath : ∀ s ∈ t.path, IsName s.toList) (hsettings : settings.Named) :
    ∃ text', t.roundTrip settings text = .ok text' ∧
      t.Denotes settings name t.bare.form text' := by
  obtain ⟨term, hreads, hvalue⟩ := h
  have hcrossed := Expression.reads_text (readable_toInterop hkind) ((hreads term).mpr rfl)
  obtain ⟨back, hback, hreadable⟩ := exists_fromInterop hkind hpath hsettings
  have hreturned := Expression.reads_text hreadable hcrossed
  refine ⟨back.text, by rw [roundTrip, hback]; rfl, _, fun _ => hreturned.iff_eq, ?_⟩
  intro ρ p known content hholds hknown
  exact value_fromInterop hholds hback
    (value_toInterop hholds (hvalue ρ p known content hholds hknown) hform)

/-- **All rounds.** The first starts from the variable, which may be a reference,
and every other one from an object. -/
theorem exists_roundTrips {rounds : Nat}
    (hkind : t.kind = .classWrapper ∨ t.kind = .enumeration)
    (hpointer : t.qualifiers.pointer = false) (hpath : ∀ s ∈ t.path, IsName s.toList)
    (hsettings : settings.Named) (hname : IsName name.toList) (hrounds : 1 ≤ rounds) :
    ∃ text, t.roundTrips settings rounds name = .ok text ∧
      t.Denotes settings name t.bare.form text := by
  induction rounds, hrounds using Nat.le_induction with
  | base => exact (denotes_variable hname).exists_roundTrip ⟨rfl, hpointer⟩ hkind hpath hsettings
  | succ rounds _ ih =>
    obtain ⟨text, htext, hdenotes⟩ := ih
    rw [roundTrips, htext]
    exact hdenotes.exists_roundTrip ⟨rfl, rfl⟩ hkind hpath hsettings

/-- **Values come back from the boundary.** Of a variable of a class or an enum
that is no pointer, converting it to what crosses and back, once or more often,
gives a text that is well bracketed and denotes what the variable holds, in the
type without marks. -/
theorem roundTrips_denote {rounds : Nat}
    (hkind : t.kind = .classWrapper ∨ t.kind = .enumeration)
    (hpointer : t.qualifiers.pointer = false) (hpath : ∀ s ∈ t.path, IsName s.toList)
    (hsettings : settings.Named) (hname : IsName name.toList) (hrounds : 1 ≤ rounds) :
    ∃ text, t.roundTrips settings rounds name = .ok text ∧ WellBracketed text.toList ∧
      t.Denotes settings name t.bare.form text := by
  obtain ⟨text, htext, hdenotes⟩ :=
    exists_roundTrips hkind hpointer hpath hsettings hname hrounds
  exact ⟨text, htext, hdenotes.wellBracketed, hdenotes⟩

end Rounds

/-! ### A class and an enum -/

/-- A class as a parameter takes it. -/
def widget : Descriptor :=
  { kind := .classWrapper, scope := .named "DotNet" ["Shapes"], name := "Widget"
    qualifiers := { reference := true, const := true }, name_ne_empty := by decide }

def tint : Descriptor :=
  { kind := .enumeration, scope := .named "DotNet" ["Shapes"], name := "Tint"
    name_ne_empty := by decide }

/-- Declarations of both, the enum with negative enumerators. -/
def shapes : Program where
  handleClass := ["DotNet", "Reinterop", "ObjectHandle"]
  declaration? path :=
    [(widget.path, .wrapper), (tint.path, .number true), (uint32.path, .number false)].lookup path

/-- An instance comes back twice, and a negative number once. -/
theorem widget_and_tint_return :
    (∃ text term, widget.roundTrips .standard 2 "widget" = .ok text ∧ Reads text term ∧
      term.value? shapes (fun _ => some ⟨widget.form, .managed 7⟩) =
        some ⟨⟨["DotNet", "Shapes", "Widget"], {}⟩, .managed 7⟩) ∧
    (∃ text term, tint.roundTrips .standard 1 "tint" = .ok text ∧ Reads text term ∧
      term.value? shapes (fun _ => some (⟨tint.form, .number (-1)⟩ : Value Nat)) =
        some ⟨⟨["DotNet", "Shapes", "Tint"], {}⟩, .number (-1)⟩) := by
  have hnamed : Settings.standard.Named := ⟨.inr (by decide), ⟨["Reinterop"], by decide, by decide,
    rfl⟩, "ObjectHandle", rfl, by decide⟩
  constructor
  · obtain ⟨text, htext, -, term, hreads, hvalue⟩ :
        ∃ text, widget.roundTrips .standard 2 "widget" = .ok text ∧ WellBracketed text.toList ∧
          widget.Denotes .standard "widget" widget.bare.form text :=
      roundTrips_denote (.inl rfl) rfl (by decide) hnamed (by decide) (by decide)
    have howner : Settings.standard.handleType = .ok _ :=
      Settings.handleType_of_name rfl rfl (by decide)
    have hholds : shapes.Holds .standard widget (.managed 7) :=
      .managed rfl howner (by decide) (by decide)
    exact ⟨text, term, htext, (hreads term).mpr rfl, hvalue _ _ _ _ hholds rfl⟩
  · obtain ⟨text, htext, -, term, hreads, hvalue⟩ :
        ∃ text, tint.roundTrips .standard 1 "tint" = .ok text ∧ WellBracketed text.toList ∧
          tint.Denotes .standard "tint" tint.bare.form text :=
      roundTrips_denote (.inr rfl) rfl (by decide) hnamed (by decide) (by decide)
    have hsign : Is32 true (-1) := ⟨by decide, by decide⟩
    have hholds : shapes.Holds .standard tint (.number (-1) : Content Nat) :=
      .number rfl (by decide) (by decide) hsign
    exact ⟨text, term, htext, (hreads term).mpr rfl, hvalue _ _ _ _ hholds rfl⟩

example : widget.roundTrip .standard "widget" = .ok
    "::DotNet::Shapes::Widget(::DotNet::Reinterop::ObjectHandle(widget.GetHandle().GetRaw()))" := by
  decide

end Descriptor

end Native

end TypeBridge
