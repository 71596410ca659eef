import TypeBridge.Native.Usage
import TypeBridge.Proofs.Native.Place
import TypeBridge.Proofs.Text.Framed
/-!
# TypeBridge — the base namespace in generated code

Whatever code writes of a declared type, it writes the base namespace once and
names for the rest, with a few marks between them. So every form of the type
frames the base.
-/

namespace TypeBridge

namespace Native

open Description Text

variable {base sep name : String} {inner : List String} {rooted : Bool} {c : Char} {t : Descriptor}

/-- Names are code. -/
theorem isCodeChar_of_isNameChar (h : isNameChar c) : isCodeChar c := by
  have hlt : c.toNat < 0x80 := by
    have hname : isNameChar c = ((((65 ≤ c.val ∧ c.val ≤ 90 : Bool) ||
        (97 ≤ c.val && c.val ≤ 122)) || (48 ≤ c.val && c.val ≤ 57)) || c = '_') := rfl
    simp only [hname, Bool.or_eq_true, Bool.and_eq_true, decide_eq_true_eq,
      UInt32.le_iff_toNat_le] at h
    rcases h with ((h | h) | h) | rfl
    · exact Nat.lt_of_le_of_lt h.2 (by decide)
    · exact Nat.lt_of_le_of_lt h.2 (by decide)
    · exact Nat.lt_of_le_of_lt h.2 (by decide)
    · decide
  have hne {d : Char} (hd : isNameChar d = false) : c ≠ d := by
    rintro rfl
    rw [h] at hd
    cases hd
  simp [isCodeChar, hlt, hne (d := '[') rfl, hne (d := ']') rfl, hne (d := '\\') rfl]

theorem isCode_of_isName (h : IsName name.toList) : IsCode name :=
  fun _ hc => isCodeChar_of_isNameChar (isNameChar_of_mem h hc)

theorem isCode_led {opened : Bool} (h : ∀ s ∈ inner, IsName s.toList) :
    ∀ s ∈ led opened inner, IsCode s :=
  forall_led nofun fun s hs => isCode_of_isName (h s hs)

/-- A path inside the base frames it. -/
theorem frames_intercalate (hsep : IsCode sep) (h : ∀ s ∈ inner, IsName s.toList) :
    Frames base (sep.intercalate (pathIn base inner)) :=
  ⟨"", _, nofun, forall_mem_intercalate hsep (isCode_led h), by
    rw [intercalate_pathIn, String.empty_append]⟩

namespace Descriptor

/-- The marks of a spelling are code. -/
theorem frames_of_bare (h : Frames base (t.bare.spelling rooted)) :
    Frames base (t.spelling rooted) := by
  have hspelling : t.spelling rooted =
      (if t.qualifiers.const then "const " else "") ++ t.bare.spelling rooted ++
        (if t.qualifiers.pointer then "*" else if t.qualifiers.reference then "&" else "") := by
    rw [spelling, spelling, bare]
    simp [String.append_assoc]
  rw [hspelling]
  refine (h.behind ?_).before ?_
  · split_ifs <;> decide
  · split_ifs <;> decide

namespace DeclaredIn

variable (h : t.DeclaredIn base)

include h

theorem bare_eq : t.bare = t := by
  obtain ⟨-, -, hqualifiers, -, -⟩ := h
  cases t
  simp only at hqualifiers
  rw [bare, hqualifiers]

theorem frames_path (hsep : IsCode sep) :
    Frames base (sep.intercalate (t.scope.segments ++ [t.name])) := by
  obtain ⟨inner, hinner, hscope⟩ := h.scope
  rw [hscope, pathIn_append]
  exact frames_intercalate hsep (forall_mem_concat hinner h.name)

theorem frames_spelling : Frames base (t.spelling rooted) := by
  have hpath : Frames base ("::".intercalate (t.scope.segments ++ [t.name])) :=
    h.frames_path (by decide)
  rw [h.spelling_eq]
  cases rooted && t.scope.segments ≠ []
  · exact hpath
  · rw [intercalate_led (by simp)]
    exact hpath.behind (by decide)

/-- A parameter is written with marks at most. -/
theorem frames_asParameter : Frames base t.asParameter.rootedSpelling := by
  rw [asParameter]
  split_ifs
  · have hbare : t.asConstReference.bare = t := h.bare_eq
    refine frames_of_bare ?_
    rw [hbare]
    exact h.frames_spelling
  · exact h.frames_spelling

/-- What crosses the boundary is the type or a scalar. -/
theorem frames_or_isCode_asInterop :
    Frames base t.asInterop.rootedSpelling ∨ IsCode t.asInterop.rootedSpelling := by
  rw [asInterop]
  split_ifs
  · exact .inl h.frames_spelling
  · exact .inr (by decide)
  · exact .inr (by decide)

theorem frames_includePath : Frames base t.includePath := by
  rw [h.includePath_eq]
  exact ((h.frames_path (by decide)).behind (by decide)).before (by decide)

/-- A declaration ahead stands in the namespaces, or in none if there is no
base. -/
theorem exists_frames_forwardDeclaration :
    ∃ line, t.forwardDeclaration? = some line ∧ Frames base line := by
  have hdeclaration : IsCode (t.kind.declarationKeyword ++ " " ++ t.name ++ ";") := by
    have hword : IsCode t.kind.declarationKeyword := by cases t.kind <;> decide
    simp only [isCode_append]
    exact ⟨⟨⟨hword, by decide⟩, isCode_of_isName h.name⟩, by decide⟩
  obtain ⟨inner, hinner, hscope⟩ := h.scope
  refine ⟨_, h.forwardDeclaration?_eq, ?_⟩
  split_ifs with hnil
  · obtain rfl : base = "" := by
      by_contra hbase
      rw [hscope, pathIn, if_neg hbase] at hnil
      cases hnil
    exact .of_isCode hdeclaration
  · have hpath : Frames base ("::".intercalate t.scope.segments) :=
      hscope ▸ frames_intercalate (by decide) hinner
    have hback :
        IsCode ("\x7b " ++ (t.kind.declarationKeyword ++ " " ++ t.name ++ ";") ++ " \x7d") :=
      isCode_append.mpr ⟨isCode_append.mpr ⟨by decide, hdeclaration⟩, by decide⟩
    exact ((hpath.before (by decide)).before hback).behind (by decide)

end DeclaredIn

end Descriptor

end Native

end TypeBridge
