import TypeBridge.Proofs.Native.Framed
import TypeBridge.Proofs.Preamble.Agreement
/-!
# TypeBridge — the base namespace in the opening of a file

Every line that an opening has for a declared type frames the base namespace. So
an opening has a lone half if the base has one, and if there is a type at all.
-/

namespace TypeBridge

open Native Text

variable {base front back : String} {types : List Descriptor} {lines : List String}
variable {asks : Descriptor → Option String}

/-- Of lines that end with code none ends with a mark. -/
theorem mark_notMem_getLast? {line : String} (hback : IsCode back) (hne : back ≠ "") :
    Surrogate.mark ∉ (line ++ back).toList.getLast? := by
  rw [String.toList_append, List.getLast?_append_of_ne_nil _ (by simpa using hne)]
  exact fun hmark => hback.notMem_mark (List.mem_of_mem_getLast? hmark)

/-- Lines that frame the base, of which every type asks for one. -/
theorem hasHalf_lines (hfront : IsCode front) (hback : IsCode back) (hne : back ≠ "")
    (hasks : ∀ t ∈ types, ∃ line, asks t = some line ∧ Frames base line)
    (hlines : ∀ x, x ∈ lines ↔ ∃ t ∈ types, asks t = some x) :
    hasHalf (String.join (lines.map fun line => front ++ line ++ back)) ↔
      types ≠ [] ∧ hasHalf base := by
  have hhalf : ∀ line ∈ lines, hasHalf (front ++ line ++ back) = hasHalf base := by
    intro line hline
    obtain ⟨t, ht, hasked⟩ := (hlines line).mp hline
    obtain ⟨line', hline', hframes⟩ := hasks t ht
    obtain rfl : line = line' := Option.some.inj (hasked.symm.trans hline')
    exact ((hframes.behind hfront).before hback).hasHalf_eq
  rw [hasHalf_join, List.any_map, List.any_eq_true]
  · constructor
    · rintro ⟨line, hline, h⟩
      obtain ⟨t, ht, -⟩ := (hlines line).mp hline
      exact ⟨List.ne_nil_of_mem ht, hhalf line hline ▸ h⟩
    · rintro ⟨htypes, h⟩
      obtain ⟨t, ht⟩ := List.exists_mem_of_ne_nil types htypes
      obtain ⟨line, hasked, -⟩ := hasks t ht
      have hline : line ∈ lines := (hlines line).mpr ⟨t, ht, hasked⟩
      exact ⟨line, hline, (hhalf line hline).trans h⟩
  · intro x hx
    obtain ⟨line, -, rfl⟩ := List.mem_map.mp hx
    exact mark_notMem_getLast? hback hne

/-- **An opening has a lone half** if the base namespace has one and there is a
type at all. -/
theorem hasHalf_preamble (emission : Emission) (h : ∀ t ∈ types, t.DeclaredIn base) :
    hasHalf (preamble emission types) ↔ types ≠ [] ∧ hasHalf base := by
  have hdeclared : ∀ t ∈ types, t.IsDeclared := fun t ht => ⟨(h t ht).kind, (h t ht).header⟩
  cases emission with
  | header =>
    obtain ⟨lines, hpreamble, -, hlines⟩ := preamble_header hdeclared
    have hguard : IsCode "#pragma once\n\n" := by decide
    have hfront : IsCode "" := nofun
    have hback : IsCode "\n" := by decide
    have hhalf := hasHalf_lines hfront hback (by decide) (fun t ht =>
      (h t ht).exists_frames_forwardDeclaration) hlines
    simp only [String.empty_append] at hhalf
    rw [hpreamble, hasHalf_append (.inl (by decide)), hguard.hasHalf_eq, Bool.false_or]
    exact hhalf
  | source =>
    obtain ⟨operands, hpreamble, -, hoperands⟩ := preamble_source types
    rw [hpreamble]
    refine hasHalf_lines (by decide) (by decide) (by decide) (fun t ht => ?_) hoperands
    exact ⟨_, (hdeclared t ht).sourceInclude?_eq, (h t ht).frames_includePath⟩

end TypeBridge
