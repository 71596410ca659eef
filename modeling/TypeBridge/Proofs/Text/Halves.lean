import TypeBridge.Text.Surrogate
import Mathlib.Data.List.Chain
/-!
# TypeBridge — texts without lone halves

A lone half is two characters in a row, a mark and one that says which half it
is. So a text is free of halves when no two neighbours make one, and two texts
put together are free of them if each is and none is made at the seam. A mark
that stands for itself has a neighbour too, but one that is no half and no mark.
-/

namespace TypeBridge

namespace Text

open Surrogate

variable {text front back : String} {lines : List String}

/-- Neighbours that do not make a lone half. -/
def Apart (c d : Char) : Prop :=
  c = mark → half? d = none

/-- **A text has no lone half** if no neighbours make one. -/
theorem hasHalf_eq_false_iff : hasHalf text = false ↔ text.toList.IsChain Apart := by
  rw [hasHalf]
  induction text.toList using points.induct with
  | case1 => simp [points]
  | case2 c => simp [points]
  | case3 c d rest point hpoint ih =>
    obtain ⟨rfl, hbehind⟩ : c = mark ∧ pointBehindMark? d = some point := by
      split_ifs at hpoint with hmark
      exact ⟨hmark, hpoint⟩
    rw [points, hpoint, List.isChain_cons_cons]
    rw [pointBehindMark?] at hbehind
    split_ifs at hbehind with hitself
    · -- the mark stands for itself
      obtain rfl := Option.some.inj hbehind
      have hhalf : half? d = none := hitself ▸ by decide
      have hmark : d ≠ mark := hitself ▸ by decide
      have hapart : ∀ e, Apart d e := fun e heq => absurd heq hmark
      have hfirst : Apart mark d := fun _ => hhalf
      simpa [List.isChain_cons, hapart, hfirst] using ih
    · -- it makes a half with the character behind it
      obtain ⟨unit, hunit, rfl⟩ := Option.map_eq_some_iff.mp hbehind
      simp [Apart, hunit]
  | case4 c d rest hnone ih =>
    have hapart : Apart c d := by
      intro hmark
      rw [if_pos hmark, pointBehindMark?] at hnone
      split_ifs at hnone
      simpa using hnone
    rw [points, hnone]
    simpa [hapart] using ih

/-- Without a mark there is no half. -/
theorem hasHalf_eq_false_of_notMem (h : mark ∉ text.toList) : hasHalf text = false :=
  hasHalf_eq_false_iff.mpr <| (List.isChain_isInfix _).imp_of_mem_imp fun _ _ hc _ _ hmark =>
    absurd (hmark ▸ hc) h

/-- Two texts put together, where no half is made at the seam. -/
theorem hasHalf_append
    (hseam : mark ∉ front.toList.getLast? ∨ ∀ d ∈ back.toList.head?, half? d = none) :
    hasHalf (front ++ back) = (hasHalf front || hasHalf back) := by
  have happart : ∀ c ∈ front.toList.getLast?, ∀ d ∈ back.toList.head?, Apart c d := by
    rintro c hc d hd rfl
    exact hseam.elim (absurd hc) fun hback => hback d hd
  rw [← Bool.not_inj_iff, Bool.not_or, Bool.eq_iff_iff, Bool.and_eq_true, Bool.not_eq_true',
    Bool.not_eq_true', Bool.not_eq_true', hasHalf_eq_false_iff, hasHalf_eq_false_iff,
    hasHalf_eq_false_iff, String.toList_append, List.isChain_append]
  exact ⟨fun h => ⟨h.1, h.2.1⟩, fun h => ⟨h.1, h.2, happart⟩⟩

/-- Lines that do not end with a mark have a half if one of them has. -/
theorem hasHalf_join (h : ∀ line ∈ lines, mark ∉ line.toList.getLast?) :
    hasHalf (String.join lines) = lines.any hasHalf := by
  induction lines with
  | nil => rfl
  | cons line lines ih =>
    rw [List.forall_mem_cons] at h
    rw [String.join_cons, hasHalf_append (.inl h.1), ih h.2, List.any_cons]

end Text

end TypeBridge
