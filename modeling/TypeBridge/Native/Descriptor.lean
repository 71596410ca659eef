/-!
# TypeBridge — native types

A `Descriptor` is one type as native code sees it: what it stands for
(`Kind`), where it is declared (`Scope`), its name, the qualifiers put on it
and the header that declares it. Descriptors are values: two are equal when
all their parts are, and every change of qualifiers leaves the rest alone.

`spelling` is how generated code writes the type, and the scope is marked by
its own constructor when it is the standard one, so a declared namespace that
happens to be spelled `std` is still a declared one.
-/

namespace TypeBridge

namespace Native

/-! ## Parts of a descriptor -/

/-- How a managed type is represented in native code. -/
inductive Kind
  | primitive
  | enumeration
  | classWrapper
  | blittableStruct
  | nonBlittableStructWrapper
  | unknown
deriving DecidableEq

namespace Kind

/-- The word that names a kind in reports. -/
def label : Kind → String
  | primitive => "primitive"
  | enumeration => "enum"
  | classWrapper => "class_wrapper"
  | blittableStruct => "blittable_struct"
  | nonBlittableStructWrapper => "non_blittable_struct_wrapper"
  | unknown => "unknown"

def all : List Kind :=
  [primitive, enumeration, classWrapper, blittableStruct, nonBlittableStructWrapper, unknown]

/-- The kind that a word names. -/
def ofLabel? (word : String) : Option Kind :=
  all.find? (·.label = word)

end Kind

/-- What stands around the name of a type when it is written out. -/
structure Qualifiers where
  pointer : Bool := false
  reference : Bool := false
  const : Bool := false
deriving DecidableEq

/-- The namespace a native type is declared in. A declared path has at least
one segment. -/
inductive Scope
  | global
  | standard
  | named (outermost : String) (inner : List String)
deriving DecidableEq

namespace Scope

/-- The scope of a path, outermost segment first. -/
def ofSegments : List String → Scope
  | [] => global
  | outermost :: inner => named outermost inner

def segments : Scope → List String
  | global => []
  | standard => ["std"]
  | named outermost inner => outermost :: inner

@[simp] theorem segments_ofSegments (path : List String) : (ofSegments path).segments = path := by
  cases path <;> rfl

/-- Paths are told by their scopes. -/
theorem ofSegments_inj {path other : List String} :
    ofSegments path = ofSegments other ↔ path = other :=
  ⟨fun h => by simpa using congrArg segments h, congrArg ofSegments⟩

/-- The scope as code writes it: from the root when `rooted`, unless there is
nothing to write. -/
def spelling (s : Scope) (rooted : Bool) : String :=
  let path := "::".intercalate s.segments
  if rooted && path ≠ "" then "::" ++ path else path

end Scope

/-- The operand of an include line, with its delimiters. -/
structure Header where
  text : String
  delimited : text.toList.head? = some '<' ∨ text.toList.head? = some '"'
deriving DecidableEq

namespace Header

/-- A bare file name is put between double quotes; a name that already opens
with a delimiter is kept as it is. -/
def ofText (name : String) : Header :=
  if h : name.toList.head? = some '<' ∨ name.toList.head? = some '"' then
    ⟨name, h⟩
  else
    ⟨"\"" ++ name ++ "\"", by simp⟩

/-- Delimiters are not put on twice. -/
theorem ofText_text (header : Header) : ofText header.text = header := by
  simp [ofText, header.delimited]

/-- The standard header of the fixed-width integers. -/
def fixedWidth : Header := ⟨"<cstdint>", by decide⟩

/-- The standard header of the null pointer's type. -/
def nullPointer : Header := ⟨"<cstddef>", by decide⟩

end Header

/-! ## Descriptors -/

/-- A native type. Its name is never empty. -/
structure Descriptor where
  kind : Kind
  scope : Scope
  name : String
  arguments : Option (List Descriptor) := none
  qualifiers : Qualifiers := {}
  header : Option Header := none
  name_ne_empty : name ≠ ""

/-- Why parts do not make a descriptor. -/
inductive DescriptorError
  | emptyName
deriving DecidableEq

def DescriptorError.message : DescriptorError → String
  | emptyName => "C++ type name must not be empty"

namespace Descriptor

/-- The descriptor of a kind of type at a place under a name, if the name is
one. -/
def named (kind : Kind) (scope : Scope) (name : String) : Except DescriptorError Descriptor :=
  if h : name = "" then .error .emptyName else .ok { kind, scope, name, name_ne_empty := h }

/-! ### Equality -/

mutual

/-- Two descriptors are equal when all their parts are. -/
def decideEq : (s t : Descriptor) → Decidable (s = t)
  | ⟨kind, scope, name, arguments, qualifiers, header, _⟩,
      ⟨kind', scope', name', arguments', qualifiers', header', _⟩ =>
    if h : kind = kind' ∧ scope = scope' ∧ name = name' ∧ qualifiers = qualifiers' ∧
        header = header' then
      match decideEqArguments arguments arguments' with
      | .isTrue harguments => .isTrue (by
          obtain ⟨rfl, rfl, rfl, rfl, rfl⟩ := h
          subst harguments
          rfl)
      | .isFalse harguments => .isFalse (by
          intro heq
          injection heq with _ _ _ h₄
          exact harguments h₄)
    else
      .isFalse (by
        intro heq
        injection heq with h₁ h₂ h₃ _ h₅ h₆
        exact h ⟨h₁, h₂, h₃, h₅, h₆⟩)

def decideEqArguments : (s t : Option (List Descriptor)) → Decidable (s = t)
  | none, none => .isTrue rfl
  | none, some _ => .isFalse nofun
  | some _, none => .isFalse nofun
  | some ss, some ts =>
    match decideEqList ss ts with
    | .isTrue h => .isTrue (h ▸ rfl)
    | .isFalse h => .isFalse (fun heq => h (Option.some.inj heq))

def decideEqList : (ss ts : List Descriptor) → Decidable (ss = ts)
  | [], [] => .isTrue rfl
  | [], _ :: _ => .isFalse nofun
  | _ :: _, [] => .isFalse nofun
  | s :: ss, t :: ts =>
    match decideEq s t with
    | .isFalse h => .isFalse (fun heq => h (List.cons.inj heq).1)
    | .isTrue h =>
      match decideEqList ss ts with
      | .isTrue h' => .isTrue (h ▸ h' ▸ rfl)
      | .isFalse h' => .isFalse (fun heq => h' (List.cons.inj heq).2)

end

instance : DecidableEq Descriptor := decideEq

/-! ### Spelling -/

/-- The type as code writes it. A pointer mark hides a reference mark. -/
def spelling (t : Descriptor) (rooted : Bool) : String :=
  let modifier := if t.qualifiers.const then "const " else ""
  let mark :=
    if t.qualifiers.pointer then "*" else if t.qualifiers.reference then "&" else ""
  let scope := t.scope.spelling rooted
  let place := if scope = "" then "" else scope ++ "::"
  modifier ++ place ++ t.name ++ mark

/-- The spelling that means the same in every scope. -/
abbrev rootedSpelling (t : Descriptor) : String := t.spelling true

/-! ### Qualifiers -/

/-- The type itself, without pointer, reference or const. -/
def bare (t : Descriptor) : Descriptor :=
  { t with qualifiers := {} }

/-- A pointer to the type. A pointer of a pointer is written like the
pointer. -/
def asPointer (t : Descriptor) : Descriptor :=
  { t with qualifiers := { t.qualifiers with pointer := true } }

def asConstReference (t : Descriptor) : Descriptor :=
  { t with qualifiers := { pointer := false, reference := true, const := true } }

end Descriptor

end Native

end TypeBridge
