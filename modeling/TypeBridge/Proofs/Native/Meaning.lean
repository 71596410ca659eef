import Mathlib.Algebra.Group.Int.Defs
import Mathlib.Algebra.Group.Nat.Defs
import TypeBridge.Native.Usage
import TypeBridge.Proofs.Native.Reading
/-!
# TypeBridge — what expressions stand for

An expression stands for a value with a type, if the types that it names are
declared for what they are. Of an instance of managed code the value is its raw
handle, and constructing a handle or a wrapper from it passes the handle on. Of
an enumerator it is a number, and a cast takes the number of the new type that is
equal to it modulo 2³².

An expression that the declarations do not allow has no value: a class is
constructed from a handle and not from a raw one, only the handle class has a raw
handle to give, and a pointer is neither converted nor called.
-/

namespace TypeBridge

namespace Native

/-! ## Values -/

/-- The type of an expression: the path of its name, and the marks on it. -/
structure Form where
  path : List String
  marks : Qualifiers := {}
deriving DecidableEq

namespace Form

/-- An object of a type or a reference to one, but no pointer. -/
def IsOf (form : Form) (path : List String) : Prop :=
  form.path = path ∧ form.marks.pointer = false

instance (form : Form) (path : List String) : Decidable (form.IsOf path) :=
  inferInstanceAs (Decidable (_ ∧ _))

end Form

namespace Descriptor

/-- The path of a type with its name. -/
def path (t : Descriptor) : List String :=
  t.scope.segments ++ [t.name]

def form (t : Descriptor) : Form :=
  ⟨t.path, t.qualifiers⟩

end Descriptor

/-- What a value is apart from its type: an instance of managed code, by its raw
handle, or a number. -/
inductive Content (ρ : Type)
  | managed (handle : ρ)
  | number (n : Int)

structure Value (ρ : Type) where
  form : Form
  content : Content ρ

/-! ## Numbers of 32 bits -/

/-- The number of 32 bits, with a sign or without, that a number is cast to. -/
def cast32 : Bool → Int → Int
  | true, n => n.bmod (2 ^ 32)
  | false, n => n % 2 ^ 32

/-- The numbers of 32 bits, with a sign or without. -/
def Is32 : Bool → Int → Prop
  | true, n => -2 ^ 31 ≤ n ∧ n < 2 ^ 31
  | false, n => 0 ≤ n ∧ n < 2 ^ 32

/-- **A number comes back** from a cast that takes its sign. -/
theorem cast32_cast32 {signed : Bool} {n : Int} (h : Is32 signed n) :
    cast32 signed (cast32 false n) = n := by
  cases signed with
  | false =>
    obtain ⟨hle, hlt⟩ : 0 ≤ n ∧ n < 2 ^ 32 := h
    simp only [cast32]
    omega
  | true =>
    obtain ⟨hle, hlt⟩ : -2 ^ 31 ≤ n ∧ n < 2 ^ 31 := h
    simp only [cast32, Int.bmod_def]
    omega

/-! ## Declarations -/

/-- What a name of a type is declared as. -/
inductive Declaration
  /-- A class over a handle. -/
  | wrapper
  /-- A type of numbers of 32 bits, with a sign or without. -/
  | number (signed : Bool)
deriving DecidableEq

/-- The declarations that an expression is compiled with. -/
structure Program where
  /-- The class that owns a raw handle. -/
  handleClass : List String
  declaration? : List String → Option Declaration

namespace Program

variable {ρ : Type} {p : Program} {path : List String} {form : Form} {handle : ρ} {n : Int}
variable {signed : Bool}

/-- Constructs a type from a value, or casts the value. -/
def construct (p : Program) (path : List String) (argument : Value ρ) : Option (Value ρ) :=
  match argument.content with
  | .managed handle =>
    if path = p.handleClass ∧ argument.form = Descriptor.voidPointer.form ∨
        p.declaration? path = some .wrapper ∧ argument.form.IsOf p.handleClass then
      some ⟨⟨path, {}⟩, .managed handle⟩
    else none
  | .number n =>
    match p.declaration? path with
    | some (.number signed) =>
      if argument.form.marks.pointer then none else some ⟨⟨path, {}⟩, .number (cast32 signed n)⟩
    | some .wrapper | none => none

/-- Calls a method of a value. -/
def call (p : Program) (receiver : Value ρ) (method : String) : Option (Value ρ) :=
  match receiver.content with
  | .managed handle =>
    if method = "GetHandle" ∧ p.declaration? receiver.form.path = some .wrapper ∧
        receiver.form.marks.pointer = false then
      some ⟨⟨p.handleClass, {}⟩, .managed handle⟩
    else if method = "GetRaw" ∧ receiver.form.IsOf p.handleClass then
      some ⟨Descriptor.voidPointer.form, .managed handle⟩
    else none
  | .number _ => none

/-- The handle class is constructed from a raw handle. -/
theorem construct_handleClass : p.construct p.handleClass
    ⟨Descriptor.voidPointer.form, .managed handle⟩ = some ⟨⟨p.handleClass, {}⟩, .managed handle⟩ :=
  if_pos (.inl ⟨rfl, rfl⟩)

/-- A wrapper is constructed from a handle. -/
theorem construct_wrapper (h : p.declaration? path = some .wrapper) :
    p.construct path ⟨⟨p.handleClass, {}⟩, .managed handle⟩ =
      some ⟨⟨path, {}⟩, .managed handle⟩ :=
  if_pos (.inr ⟨h, rfl, rfl⟩)

/-- Numbers are cast. -/
theorem construct_number (h : p.declaration? path = some (.number signed))
    (hform : form.marks.pointer = false) : p.construct path ⟨form, .number n⟩ =
      (some ⟨⟨path, {}⟩, .number (cast32 signed n)⟩ : Option (Value ρ)) := by
  simp [construct, h, hform]

theorem call_getHandle (h : p.declaration? path = some .wrapper) (hform : form.IsOf path) :
    p.call ⟨form, .managed handle⟩ "GetHandle" =
      some ⟨⟨p.handleClass, {}⟩, .managed handle⟩ :=
  if_pos ⟨rfl, hform.1.symm ▸ h, hform.2⟩

theorem call_getRaw : p.call ⟨⟨p.handleClass, {}⟩, .managed handle⟩ "GetRaw" =
    some ⟨Descriptor.voidPointer.form, .managed handle⟩ := by
  simp [call, Form.IsOf]

end Program

/-- The value of an expression, given the values of variables, if it has one. -/
def Term.value? {ρ : Type} (p : Program) (known : String → Option (Value ρ)) :
    Term → Option (Value ρ)
  | operand name => known name
  | construct path argument => (argument.value? p known).bind (p.construct path)
  | call receiver method => (receiver.value? p known).bind (p.call · method)

end Native

end TypeBridge
