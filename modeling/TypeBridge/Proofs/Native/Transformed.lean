import TypeBridge.Native.Conversion
import TypeBridge.Native.Usage
import TypeBridge.Preamble
/-!
# TypeBridge — the same type in another form

The transforms of a descriptor put qualifiers on it and take them off again, and
whichever are run, one after the other, the result is the descriptor itself with
other qualifiers (`transformed_eq`). What is converted, declared or included for
a type does not depend on these (`sameType_requalified`), so no run changes any
of it.

A descriptor may be made anew from its parts at each step, with its header as
text: a header that has its delimiters gets no others, so nothing is lost or put
on twice on the way (`foldlM_rebuilt`).
-/

namespace TypeBridge

namespace Native

/-- A change of the form in which a type is used. -/
inductive Transform
  | pointer
  | constReference
  | bare
  | returned
  | parameter
deriving DecidableEq

namespace Transform

def apply : Transform → Descriptor → Descriptor
  | pointer, t => t.asPointer
  | constReference, t => t.asConstReference
  | bare, t => t.bare
  | returned, t => t.asReturn
  | parameter, t => t.asParameter

/-- The qualifiers of a const reference. -/
def referenceMarks : Qualifiers :=
  { pointer := false, reference := true, const := true }

/-- What becomes of the qualifiers of a type of some kind. -/
def marks (kind : Kind) : Qualifiers → Transform → Qualifiers
  | q, pointer => { q with pointer := true }
  | _, constReference => referenceMarks
  | _, bare => {}
  | q, returned => q
  | q, parameter => if kind.isPassedByReference then referenceMarks else q

end Transform

namespace Descriptor

variable {s t : Descriptor} {q : Qualifiers} {before after steps : List Transform}

/-- The type with other qualifiers. -/
def requalified (t : Descriptor) (q : Qualifiers) : Descriptor :=
  { t with qualifiers := q }

/-- The type after some transforms. -/
def transformed (t : Descriptor) (steps : List Transform) : Descriptor :=
  steps.foldl (fun t step => step.apply t) t

/-! ## Only the qualifiers change -/

theorem requalified_self (t : Descriptor) : t.requalified t.qualifiers = t := by
  cases t
  rfl

@[simp] theorem kind_requalified (t : Descriptor) (q : Qualifiers) :
    (t.requalified q).kind = t.kind :=
  rfl

theorem apply_eq (t : Descriptor) (step : Transform) :
    step.apply t = t.requalified (Transform.marks t.kind t.qualifiers step) := by
  cases step with
  | pointer => rfl
  | constReference => rfl
  | bare => rfl
  | returned => exact t.requalified_self.symm
  | parameter =>
    rw [Transform.apply, asParameter, Transform.marks]
    split
    · rfl
    · exact t.requalified_self.symm

/-- **A run changes qualifiers** and nothing else. -/
theorem transformed_eq (t : Descriptor) (steps : List Transform) :
    t.transformed steps =
      t.requalified (steps.foldl (Transform.marks t.kind) t.qualifiers) := by
  induction steps generalizing t with
  | nil => exact t.requalified_self.symm
  | cons step steps ih =>
    rw [transformed, List.foldl_cons, ← transformed, ih, apply_eq]
    rfl

/-! ## What does not depend on them -/

/-- Two forms of one type: whatever is asked about the type itself has the same
answer. -/
structure SameType (s t : Descriptor) : Prop where
  kind : s.kind = t.kind
  scope : s.scope = t.scope
  name : s.name = t.name
  arguments : s.arguments = t.arguments
  header : s.header = t.header
  toInterop : ∀ value, s.toInterop value = t.toInterop value
  fromInterop : ∀ settings crossed, s.fromInterop settings crossed = t.fromInterop settings crossed
  forwardDeclaration : s.forwardDeclaration? = t.forwardDeclaration?
  includePath : s.includePath = t.includePath
  headerInclude : s.headerInclude? = t.headerInclude?
  sourceInclude : s.sourceInclude? = t.sourceInclude?
  requirements : ∀ emission (needs : Requirements), needs.add emission s = needs.add emission t

/-- An enumerator is converted to a number, with any qualifiers, and everything
else by its kind. -/
theorem toInterop_requalified (t : Descriptor) (q : Qualifiers) (value : Expression) :
    (t.requalified q).toInterop value = t.toInterop value := by
  simp only [toInterop, kind_requalified]
  cases hkind : t.kind with
  | enumeration =>
    have hinterop : (t.requalified q).asInterop = t.asInterop := by
      simp [asInterop, requalified, hkind, Kind.crossesUnchanged]
    simp only [hinterop]
  | _ => rfl

theorem sameType_requalified (t : Descriptor) (q : Qualifiers) :
    (t.requalified q).SameType t where
  kind := rfl
  scope := rfl
  name := rfl
  arguments := rfl
  header := rfl
  toInterop := toInterop_requalified t q
  fromInterop _ _ := rfl
  forwardDeclaration := rfl
  includePath := rfl
  headerInclude := rfl
  sourceInclude := rfl
  requirements emission _ := by cases emission <;> rfl

/-! ## Made anew from its parts -/

/-- A descriptor is made from its parts, the header given as text. -/
def ofParts (kind : Kind) (scope : Scope) (name : String) (arguments : Option (List Descriptor))
    (qualifiers : Qualifiers) (header : Option String) : Except DescriptorError Descriptor :=
  (named kind scope name).map fun t =>
    { t with arguments, qualifiers, header := header.map .ofText }

/-- The type with other qualifiers, made anew. -/
def rebuilt (t : Descriptor) (q : Qualifiers) : Except DescriptorError Descriptor :=
  ofParts t.kind t.scope t.name t.arguments q (t.header.map (·.text))

/-- The name is still one, and the header keeps its delimiters. -/
theorem rebuilt_eq (t : Descriptor) (q : Qualifiers) : t.rebuilt q = .ok (t.requalified q) := by
  have hheader : (t.header.map (·.text)).map Header.ofText = t.header := by
    cases t.header with
    | none => rfl
    | some header => exact congrArg some header.ofText_text
  rw [rebuilt, ofParts, named, dif_neg t.name_ne_empty, hheader]
  rfl

/-- So a run may make the descriptor anew at each step. -/
theorem foldlM_rebuilt (t : Descriptor) (steps : List Transform) :
    steps.foldlM (fun s step => s.rebuilt (Transform.marks s.kind s.qualifiers step)) t =
      .ok (t.transformed steps) := by
  induction steps generalizing t with
  | nil => rfl
  | cons step steps ih =>
    rw [List.foldlM_cons, rebuilt_eq, ← apply_eq]
    exact ih (step.apply t)

/-! ## Const -/

theorem const_marks {kind : Kind} {step : Transform} (hq : q.const = true)
    (hstep : step ≠ .bare) : (Transform.marks kind q step).const = true := by
  cases step with
  | pointer => exact hq
  | constReference => rfl
  | bare => exact absurd rfl hstep
  | returned => exact hq
  | parameter =>
    rw [Transform.marks]
    split
    · rfl
    · exact hq

/-- Const is only taken off together with all qualifiers. -/
theorem const_foldl_marks {kind : Kind} (hq : q.const = true) (hsteps : .bare ∉ steps) :
    (steps.foldl (Transform.marks kind) q).const = true := by
  induction steps generalizing q with
  | nil => exact hq
  | cons step steps ih =>
    obtain ⟨hstep, hrest⟩ := List.ne_and_not_mem_of_not_mem_cons hsteps
    exact ih (const_marks hq (Ne.symm hstep)) hrest

/-- **Transforms never change what a type is.** After any run of them the type
has the same kind, place, name, arguments and header, and everything that is
generated for it is the same; making it anew at each step makes no difference.
Const stays once it is there, until all qualifiers are taken off, and a run that
ends with a const reference leaves one, which is no pointer. -/
theorem sameType_transformed (t : Descriptor) (steps : List Transform) :
    (t.transformed steps).SameType t ∧
    steps.foldlM (fun s step => s.rebuilt (Transform.marks s.kind s.qualifiers step)) t =
      .ok (t.transformed steps) ∧
    (∀ before after, steps = before ++ after → (t.transformed before).qualifiers.const = true →
      .bare ∉ after → (t.transformed steps).qualifiers.const = true) ∧
    ∀ before, steps = before ++ [.constReference] →
      (t.transformed steps).qualifiers = { pointer := false, reference := true, const := true } := by
  refine ⟨?_, foldlM_rebuilt t steps, fun before after hsteps hconst hafter => ?_,
    fun before hsteps => ?_⟩
  · rw [transformed_eq]
    exact sameType_requalified t _
  · rw [transformed_eq] at hconst ⊢
    rw [hsteps, List.foldl_append]
    exact const_foldl_marks hconst hafter
  · rw [transformed_eq, hsteps, List.foldl_append]
    rfl

end Descriptor

end Native

end TypeBridge
