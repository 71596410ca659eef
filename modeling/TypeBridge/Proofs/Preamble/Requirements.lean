import TypeBridge.Preamble
import Mathlib.Data.List.Induction
import Mathlib.Data.String.Basic
/-!
# TypeBridge — what a set of types needs

The requirements of a list of types are collected one type at a time into
ascending lists. Whatever the order of the types, the lists hold what some type
asks for, and nothing else (`covers_ofTypes`), and an ascending list is the only
one of its members.
-/

namespace TypeBridge

open Native

namespace Text.Ascending

variable {line x : String} {line? : Option String} {lines : List String}

/-- A line is put in where the list stays ascending. -/
theorem pairwise_insert (h : lines.Pairwise (· < ·)) : (insert line lines).Pairwise (· < ·) := by
  induction lines with
  | nil => exact List.pairwise_singleton _ _
  | cons first rest ih =>
    obtain ⟨hfirst, hrest⟩ := List.pairwise_cons.mp h
    rw [insert]
    split_ifs with hlt heq
    · refine List.pairwise_cons.mpr ⟨fun x hx => ?_, h⟩
      rcases List.mem_cons.mp hx with rfl | hx
      · exact hlt
      · exact String.lt_trans hlt (hfirst x hx)
    · exact h
    · refine List.pairwise_cons.mpr ⟨fun x hx => ?_, ih hrest⟩
      rcases mem_insert.mp hx with rfl | hx
      · exact ((Std.lt_trichotomy x first).resolve_left hlt).resolve_left heq
      · exact hfirst x hx

theorem pairwise_insert? (h : lines.Pairwise (· < ·)) : (insert? line? lines).Pairwise (· < ·) := by
  cases line? with
  | none => exact h
  | some line => exact pairwise_insert h

theorem mem_insert? : x ∈ insert? line? lines ↔ line? = some x ∨ x ∈ lines := by
  cases line? with
  | none => simp [insert?]
  | some line => simp [insert?, mem_insert, eq_comm]

/-- What some types ask for is asked for by these and one more. -/
theorem mem_insert?_iff {α : Type} {asks : α → Option String} {as : List α} {a : α}
    (h : ∀ x, x ∈ lines ↔ ∃ b ∈ as, asks b = some x) :
    x ∈ insert? (asks a) lines ↔ ∃ b ∈ as ++ [a], asks b = some x := by
  simp only [mem_insert?, h, List.mem_append, List.mem_singleton, or_and_right, exists_or,
    exists_eq_left]
  exact or_comm

end Text.Ascending

/-- The include that a kind of file needs for a type. -/
def Emission.include? : Emission → Descriptor → Option String
  | header, t => t.headerInclude?
  | source, t => t.sourceInclude?

/-- The forward declaration that a kind of file needs for a type. A source file
has none. -/
def Emission.declaration? : Emission → Descriptor → Option String
  | header, t => t.forwardDeclaration?
  | source, _ => none

namespace Requirements

variable {emission : Emission} {needs : Requirements} {types : List Descriptor} {t : Descriptor}

/-- Requirements are those of some types: ascending, and what some type asks
for. -/
structure Covers (emission : Emission) (types : List Descriptor) (needs : Requirements) : Prop where
  includes_ascending : needs.includes.Pairwise (· < ·)
  declarations_ascending : needs.declarations.Pairwise (· < ·)
  mem_includes : ∀ x, x ∈ needs.includes ↔ ∃ t ∈ types, emission.include? t = some x
  mem_declarations : ∀ x, x ∈ needs.declarations ↔ ∃ t ∈ types, emission.declaration? t = some x

/-- One more type is covered. -/
theorem Covers.add (h : Covers emission types needs) (t : Descriptor) :
    Covers emission (types ++ [t]) (needs.add emission t) := by
  cases emission with
  | header =>
    exact ⟨Text.Ascending.pairwise_insert? h.includes_ascending,
      Text.Ascending.pairwise_insert? h.declarations_ascending,
      fun _ => Text.Ascending.mem_insert?_iff h.mem_includes,
      fun _ => Text.Ascending.mem_insert?_iff h.mem_declarations⟩
  | source =>
    refine ⟨Text.Ascending.pairwise_insert? h.includes_ascending, h.declarations_ascending,
      fun _ => Text.Ascending.mem_insert?_iff h.mem_includes, fun x => ?_⟩
    rw [Requirements.add, h.mem_declarations]
    simp [Emission.declaration?]

/-- **What some types need together** is what each of them asks for. -/
theorem covers_ofTypes (emission : Emission) (types : List Descriptor) :
    Covers emission types (ofTypes emission types) := by
  induction types using List.reverseRecOn with
  | nil => exact ⟨.nil, .nil, by simp [ofTypes, addAll], by simp [ofTypes, addAll]⟩
  | append_singleton types t ih =>
    have hadd : ofTypes emission (types ++ [t]) = (ofTypes emission types).add emission t := by
      simp [ofTypes, addAll]
    rw [hadd]
    exact ih.add t

end Requirements

end TypeBridge
