/-!
# TypeBridge — dotted texts

A path that is written with dots between its segments. A text without dots is a
path of one segment, so there is always one, and segments may be empty.
-/

namespace TypeBridge

namespace Text

/-- The segments of a dotted text. -/
def dottedSegments (dotted : String) : List String :=
  (dotted.toList.splitOn '.').map String.ofList

/-- No segment has a dot. -/
theorem dot_notMem_of_mem_splitOn {text part : List Char} (h : part ∈ text.splitOn '.') :
    '.' ∉ part := by
  induction text generalizing part with
  | nil =>
    rw [List.splitOn_nil, List.mem_singleton] at h
    simp [h]
  | cons c text ih =>
    obtain ⟨first, rest, hparts⟩ := List.exists_cons_of_ne_nil (List.splitOn_ne_nil '.' text)
    rw [List.splitOn_cons_eq_if_modifyHead, hparts] at h
    rw [hparts] at ih
    split at h
    · rcases List.mem_cons.mp h with rfl | h
      · simp
      · exact ih h
    · rename_i hc
      rcases List.mem_cons.mp h with rfl | h
      · have hne : '.' ≠ c := fun heq => hc (beq_iff_eq.mpr heq.symm)
        simp [hne, ih List.mem_cons_self]
      · exact ih (List.mem_cons_of_mem _ h)

/-- **The segments are the one way** to write a text as dotted. -/
theorem dottedSegments_eq_iff {dotted : String} {segments : List String} :
    dottedSegments dotted = segments ↔
      segments ≠ [] ∧ (∀ s ∈ segments, '.' ∉ s.toList) ∧ ".".intercalate segments = dotted := by
  have hdot : ".".toList = ['.'] := rfl
  constructor
  · rintro rfl
    refine ⟨by simp [dottedSegments], fun s hs => ?_, ?_⟩
    · obtain ⟨part, hpart, rfl⟩ := List.mem_map.mp hs
      rw [String.toList_ofList]
      exact dot_notMem_of_mem_splitOn hpart
    · rw [← String.toList_inj, String.toList_intercalate, hdot, dottedSegments, List.map_map]
      simp [Function.comp_def]
  · rintro ⟨hnil, hsegments, rfl⟩
    have hsplit : (['.'].intercalate (segments.map String.toList)).splitOn '.' =
        segments.map String.toList :=
      List.splitOn_intercalate '.' (List.forall_mem_map.mpr hsegments) (by simpa using hnil)
    rw [dottedSegments, String.toList_intercalate, hdot, hsplit, List.map_map]
    simp [Function.comp_def]

end Text

end TypeBridge
