import TypeBridge.Proofs.Preamble.Agreement
import Mathlib.Data.List.Sort
/-!
# TypeBridge — the opening of a file, from the set of its types

An opening is made of two sets of lines, the includes and the forward
declarations. `Includes` and `DeclaresAhead` say what one type puts into each,
with a rule for every way of being needed, and `preamble_canonical` that the
text is these two sets written out in ascending order. As there is only one
ascending list of the same members, the text is the same for all lists of the
same types.
-/

namespace TypeBridge

open Native

/-! ## Folders -/

/-- The folders of a path of namespaces, each with a slash behind it. A single
namespace without a name is no folder. -/
def folders (segments : List String) : String :=
  if segments = [""] then "" else String.join (segments.map fun segment => segment ++ "/")

/-- Separators between folders are slashes behind all but the last. -/
theorem intercalate_append_slash (first : String) (rest : List String) :
    "/".intercalate (first :: rest) ++ "/" =
      String.join ((first :: rest).map fun segment => segment ++ "/") := by
  induction rest generalizing first with
  | nil => simp
  | cons second rest ih =>
    rw [String.intercalate_cons_cons, String.append_assoc, ih, List.map_cons (l := second :: rest),
      String.join_cons]

theorem folders_eq (segments : List String) : folders segments =
    if "/".intercalate segments = "" then "" else "/".intercalate segments ++ "/" := by
  rcases segments with _ | ⟨first, _ | ⟨second, rest⟩⟩
  · rfl
  · by_cases hfirst : first = "" <;> simp [hfirst, folders]
  · have hne : "/".intercalate (first :: second :: rest) ≠ "" := by
      rw [String.intercalate_cons_cons]
      simp [String.append_eq_empty_iff]
    rw [if_neg hne, intercalate_append_slash, folders, if_neg (by simp)]

namespace Native.Descriptor

variable {emission : Emission} {t : Descriptor} {x : String}

/-- The full definition of a type without a header of its own stands in the
folders of its namespaces. -/
theorem includePath_of_header (hheader : t.header = none) :
    t.includePath = "<" ++ folders t.scope.segments ++ t.name ++ ".h>" := by
  rw [includePath, hheader, folders_eq]
  dsimp only
  split_ifs
  · rw [String.append_empty]
  · simp only [String.append_assoc]

/-! ## What one type asks for -/

/-- What a kind of file includes for a type: its own header if it has one.
Otherwise it is the standard header for a scalar of the standard scope, and in a
source file the full definition of whatever is no scalar. -/
inductive Includes (emission : Emission) (t : Descriptor) : String → Prop
  | ownHeader {header : Header} (hheader : t.header = some header) : Includes emission t header.text
  | fixedWidth (hheader : t.header = none) (hkind : t.kind = .primitive)
      (hscope : t.scope = .standard) : Includes emission t "<cstdint>"
  | definition (hemission : emission = .source) (hdeclared : t.IsDeclared) :
      Includes emission t ("<" ++ folders t.scope.segments ++ t.name ++ ".h>")

/-- What a kind of file declares ahead for a type: in a header whatever is no
scalar and has no header of its own. -/
inductive DeclaresAhead (emission : Emission) (t : Descriptor) : String → Prop
  | ahead {line : String} (hemission : emission = .header) (hdeclared : t.IsDeclared)
      (hline : t.forwardDeclaration? = some line) : DeclaresAhead emission t line

theorem include?_of_header {header : Header} (hheader : t.header = some header) :
    emission.include? t = some header.text := by
  cases emission <;> simp [Emission.include?, sourceInclude?, headerInclude?, includePath, hheader]

theorem include?_of_primitive (hheader : t.header = none) (hkind : t.kind = .primitive) :
    emission.include? t = if t.scope = .standard then some "<cstdint>" else none := by
  cases emission <;>
    simp [Emission.include?, sourceInclude?, headerInclude?, hheader, hkind, Header.fixedWidth]

theorem IsDeclared.include?_eq (h : t.IsDeclared) :
    emission.include? t = if emission = .source then some t.includePath else none := by
  cases emission with
  | header => exact h.headerInclude?_eq
  | source => exact h.sourceInclude?_eq

/-- **The include of a type**, by its header and by its kind. -/
theorem include?_eq_some_iff : emission.include? t = some x ↔ t.Includes emission x := by
  constructor
  · intro h
    rcases hheader : t.header with _ | header
    · by_cases hkind : t.kind = .primitive
      · rw [include?_of_primitive hheader hkind] at h
        split_ifs at h with hscope
        obtain rfl := Option.some.inj h
        exact .fixedWidth hheader hkind hscope
      · have hdeclared : t.IsDeclared := ⟨hkind, hheader⟩
        rw [hdeclared.include?_eq] at h
        split_ifs at h with hemission
        obtain rfl := Option.some.inj h
        rw [includePath_of_header hheader]
        exact .definition hemission hdeclared
    · rw [include?_of_header hheader] at h
      obtain rfl := Option.some.inj h
      exact .ownHeader hheader
  · intro h
    cases h with
    | ownHeader hheader => exact include?_of_header hheader
    | fixedWidth hheader hkind hscope =>
      rw [include?_of_primitive hheader hkind, if_pos hscope]
    | definition hemission hdeclared =>
      rw [hdeclared.include?_eq, if_pos hemission, includePath_of_header hdeclared.header_eq]

/-- Only a declared type is declared ahead. -/
theorem isDeclared_of_forwardDeclaration (h : t.forwardDeclaration? = some x) : t.IsDeclared := by
  by_contra hnot
  have hnone : t.forwardDeclaration? = none := by
    refine if_pos (or_iff_not_imp_left.mpr fun hkind => ?_)
    have hheader : t.header ≠ none := fun hheader => hnot ⟨hkind, hheader⟩
    simpa [canBeDeclaredAhead, Option.isNone_iff_eq_none] using hheader
  rw [hnone] at h
  cases h

theorem declaration?_eq_some_iff :
    emission.declaration? t = some x ↔ t.DeclaresAhead emission x := by
  constructor
  · intro h
    cases emission with
    | header => exact .ahead rfl (isDeclared_of_forwardDeclaration h) h
    | source => cases h
  · rintro ⟨rfl, -, hline⟩
    exact hline

/-- **A header includes or declares** whatever is no scalar, and not both. -/
theorem exists_includes_iff_not_declaresAhead (hkind : t.kind ≠ .primitive) :
    (∃ x, t.Includes .header x) ↔ ¬ ∃ x, t.DeclaresAhead .header x := by
  constructor
  · rintro ⟨x, hx⟩ ⟨line, -, hdeclared, -⟩
    have hnone := hdeclared.headerInclude?_eq
    rw [show t.headerInclude? = some x from include?_eq_some_iff.mpr hx] at hnone
    cases hnone
  · intro hnot
    rcases hheader : t.header with _ | header
    · obtain ⟨line, hline⟩ := IsDeclared.exists_forwardDeclaration ⟨hkind, hheader⟩
      exact absurd ⟨line, .ahead rfl ⟨hkind, hheader⟩ hline⟩ hnot
    · exact ⟨header.text, .ownHeader hheader⟩

end Native.Descriptor

/-! ## What all types ask for -/

namespace Requirements

variable {emission : Emission} {types others : List Descriptor} {needs : Requirements}

/-- Types ask for the same in any order, and however often they come. -/
theorem Covers.congr (h : Covers emission types needs) (hsame : ∀ t, t ∈ others ↔ t ∈ types) :
    Covers emission others needs := by
  refine ⟨h.includes_ascending, h.declarations_ascending, fun x => ?_, fun x => ?_⟩
  · simp only [h.mem_includes, hsame]
  · simp only [h.mem_declarations, hsame]

/-- **There are only one requirements** of a set of types, as there is only one
ascending list of the same members. -/
theorem Covers.unique {needs' : Requirements} (h : Covers emission types needs)
    (h' : Covers emission types needs') : needs = needs' := by
  have hincludes : needs.includes = needs'.includes :=
    h.includes_ascending.eq_of_mem_iff h'.includes_ascending fun x =>
      (h.mem_includes x).trans (h'.mem_includes x).symm
  have hdeclarations : needs.declarations = needs'.declarations :=
    h.declarations_ascending.eq_of_mem_iff h'.declarations_ascending fun x =>
      (h.mem_declarations x).trans (h'.mem_declarations x).symm
  exact congrArg₂ Requirements.mk hincludes hdeclarations

theorem ofTypes_congr (hsame : ∀ t, t ∈ others ↔ t ∈ types) :
    ofTypes emission others = ofTypes emission types :=
  (covers_ofTypes emission others).unique ((covers_ofTypes emission types).congr hsame)

end Requirements

/-- **The opening of a file is a canonical function of the set of its types.**
It is the guard of a header, the include lines of what some type includes, and
the lines that declare some type ahead, ascending and each once, with a blank
line between the two if there are both. So no order and no repetition of the
types shows. A source file declares nothing ahead, and a header either includes
or declares each type that is no scalar. -/
theorem preamble_canonical (emission : Emission) (types : List Descriptor) :
    (∃ operands lines : List String,
      (operands.Pairwise (· < ·) ∧ ∀ x, x ∈ operands ↔ ∃ t ∈ types, t.Includes emission x) ∧
      (lines.Pairwise (· < ·) ∧ ∀ x, x ∈ lines ↔ ∃ t ∈ types, t.DeclaresAhead emission x) ∧
      preamble emission types =
        (if emission = .header then "#pragma once\n\n" else "") ++
          String.join (operands.map fun operand => "#include " ++ operand ++ "\n") ++
          (if operands ≠ [] ∧ lines ≠ [] then "\n" else "") ++
          String.join (lines.map fun line => line ++ "\n")) ∧
    (∀ others : List Descriptor, (∀ t, t ∈ others ↔ t ∈ types) →
      preamble emission others = preamble emission types) ∧
    (emission = .source → ∀ t ∈ types, ∀ x, ¬ t.DeclaresAhead emission x) ∧
    (emission = .header → ∀ t ∈ types, t.kind ≠ .primitive →
      ((∃ x, t.Includes emission x) ↔ ¬ ∃ x, t.DeclaresAhead emission x)) := by
  have hneeds := Requirements.covers_ofTypes emission types
  refine ⟨⟨(Requirements.ofTypes emission types).includes,
    (Requirements.ofTypes emission types).declarations, ⟨hneeds.includes_ascending, fun x => ?_⟩,
    ⟨hneeds.declarations_ascending, fun x => ?_⟩, ?_⟩, fun others hsame => ?_,
    fun hsource t ht x => ?_, fun hheader t ht hkind => ?_⟩
  · simp only [hneeds.mem_includes, Descriptor.include?_eq_some_iff]
  · simp only [hneeds.mem_declarations, Descriptor.declaration?_eq_some_iff]
  · rw [preamble]
    simp only [ne_eq, ← not_or, ite_not]
  · simp only [preamble, Requirements.ofTypes_congr hsame]
  · rintro ⟨hheader, -, -⟩
    rw [hsource] at hheader
    cases hheader
  · subst hheader
    exact Descriptor.exists_includes_iff_not_declaresAhead hkind

end TypeBridge
