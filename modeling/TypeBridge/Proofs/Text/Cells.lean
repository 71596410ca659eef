import TypeBridge.Text.Cells
import Mathlib.Data.List.Basic
/-!
# TypeBridge — what is in a line of cells

A text that is put into a column is cut and filled up, but every character of
its lines is one of the text, a blank or the dots of a cut.
-/

namespace TypeBridge

namespace Text

namespace Cells

variable {P : Char → Prop} {text line : List Char} {pieces : List (List Char)}
variable {column width : Nat}

/-- Parts of a text are made of its characters. -/
theorem mem_of_mem_splitOnP {p : Char → Bool} {part : List Char} {c : Char}
    (hpart : part ∈ text.splitOnP p) (hc : c ∈ part) : c ∈ text := by
  induction text generalizing part with
  | nil =>
    rw [List.splitOnP_nil, List.mem_singleton] at hpart
    exact hpart ▸ hc
  | cons x text ih =>
    rw [List.splitOnP_cons_eq_if_modifyHead] at hpart
    rcases hparts : text.splitOnP p with _ | ⟨first, rest⟩ <;> rw [hparts] at hpart ih
    · split_ifs at hpart
      · obtain rfl := List.mem_singleton.mp hpart
        cases hc
      · cases hpart
    · split_ifs at hpart
      · rcases List.mem_cons.mp hpart with rfl | hpart
        · cases hc
        · exact List.mem_cons_of_mem _ (ih hpart hc)
      · rcases List.mem_cons.mp hpart with rfl | hpart
        · rcases List.mem_cons.mp hc with rfl | hc
          · exact List.mem_cons_self
          · exact List.mem_cons_of_mem _ (ih List.mem_cons_self hc)
        · exact List.mem_cons_of_mem _ (ih (List.mem_cons_of_mem _ hpart) hc)

/-- Tabs become blanks. -/
theorem forall_mem_expandTabs (hblank : P ' ') (h : ∀ c ∈ line, P c) :
    ∀ c ∈ expandTabs column line, P c := by
  induction column, line using expandTabs.induct with
  | case1 => nofun
  | case2 column rest gap ih =>
    rw [List.forall_mem_cons] at h
    rw [expandTabs, List.forall_mem_append]
    exact ⟨fun c hc => List.eq_of_mem_replicate hc ▸ hblank, ih h.2⟩
  | case3 column c rest hne ih =>
    rw [List.forall_mem_cons] at h
    rw [expandTabs, List.forall_mem_cons]
    · exact ⟨h.1, ih h.2⟩
    · exact hne

theorem forall_mem_pushChar {c : Char} {lead : List Char} {words : List (List Char)} (hc : P c)
    (hlead : ∀ x ∈ lead, P x) (hwords : ∀ word ∈ words, ∀ x ∈ word, P x) :
    (∀ x ∈ (pushChar c lead words).1, P x) ∧
      ∀ word ∈ (pushChar c lead words).2, ∀ x ∈ word, P x := by
  unfold pushChar
  split_ifs
  · exact ⟨List.forall_mem_cons.mpr ⟨hc, hlead⟩, hwords⟩
  · split
    · -- the first word gets the character
      obtain ⟨hword, hwords⟩ := List.forall_mem_cons.mp hwords
      exact ⟨nofun, List.forall_mem_cons.mpr ⟨List.forall_mem_cons.mpr ⟨hc, hword⟩, hwords⟩⟩
    · -- it makes a word of its own
      exact ⟨nofun, List.forall_mem_cons.mpr ⟨List.forall_mem_cons.mpr ⟨hc, hlead⟩, hwords⟩⟩

theorem forall_mem_wordPieces (h : ∀ c ∈ text, P c) :
    ∀ piece ∈ wordPieces text, ∀ c ∈ piece, P c := by
  have hfold : (∀ x ∈ (text.foldr (fun c parts => pushChar c parts.1 parts.2) ([], [])).1, P x) ∧
      ∀ word ∈ (text.foldr (fun c parts => pushChar c parts.1 parts.2) ([], [])).2,
        ∀ x ∈ word, P x := by
    induction text with
    | nil => exact ⟨List.forall_mem_nil _, List.forall_mem_nil _⟩
    | cons c text ih =>
      rw [List.forall_mem_cons] at h
      exact forall_mem_pushChar h.1 (ih h.2).1 (ih h.2).2
  rw [wordPieces]
  split <;> rename_i heq <;> erw [heq] at hfold
  · obtain ⟨hword, hrest⟩ := List.forall_mem_cons.mp hfold.2
    exact List.forall_mem_cons.mpr ⟨List.forall_mem_append.mpr ⟨hfold.1, hword⟩, hrest⟩
  · exact List.forall_mem_singleton.mpr hfold.1

/-- Lines are filled with the pieces and nothing else. -/
theorem forall_mem_fillLines (hline : ∀ c ∈ line, P c) (h : ∀ piece ∈ pieces, ∀ c ∈ piece, P c) :
    ∀ l ∈ fillLines width line pieces, ∀ c ∈ l, P c := by
  induction line, pieces using fillLines.induct width with
  | case1 line => exact List.forall_mem_singleton.mpr hline
  | case2 line piece rest hfits ih =>
    rw [List.forall_mem_cons] at h
    rw [fillLines, if_pos hfits]
    exact ih (List.forall_mem_append.mpr ⟨hline, h.1⟩) h.2
  | case3 line piece rest hnot ih =>
    rw [List.forall_mem_cons] at h
    rw [fillLines, if_neg hnot]
    exact List.forall_mem_cons.mpr ⟨hline, ih h.1 h.2⟩

theorem forall_mem_upTo (h : ∀ c ∈ line, P c) : ∀ c ∈ upTo width line, P c := by
  induction width, line using upTo.induct with
  | case1 => exact List.forall_mem_nil _
  | case2 width c rest hle ih =>
    rw [List.forall_mem_cons] at h
    rw [upTo, if_pos hle]
    exact List.forall_mem_cons.mpr ⟨h.1, ih h.2⟩
  | case3 width c rest hnot =>
    rw [upTo, if_neg hnot]
    exact List.forall_mem_nil _

/-- A line is filled with blanks, or cut with dots. -/
theorem forall_mem_fit (hblank : P ' ') (hdots : P '…') (h : ∀ c ∈ line, P c) :
    ∀ c ∈ fit width line, P c := by
  rw [fit]
  split_ifs
  · exact List.forall_mem_append.mpr ⟨h, fun c hc => List.eq_of_mem_replicate hc ▸ hblank⟩
  · exact List.forall_mem_singleton.mpr hdots
  · exact List.forall_mem_append.mpr ⟨forall_mem_upTo h, List.forall_mem_singleton.mpr hdots⟩

/-- **The lines of a text** have its characters, blanks and dots. -/
theorem forall_mem_lines (hblank : P ' ') (hdots : P '…') (h : ∀ c ∈ text, P c) :
    ∀ l ∈ lines width text, ∀ c ∈ l, P c := by
  intro l hl
  obtain ⟨part, hpart, hl⟩ := List.mem_flatMap.mp hl
  obtain ⟨line, hline, rfl⟩ := List.mem_map.mp hl
  have hpart' : ∀ c ∈ part, P c := fun c hc => h c (mem_of_mem_splitOnP hpart hc)
  have htabs : ∀ c ∈ expandTabs 0 part, P c := forall_mem_expandTabs hblank hpart'
  have hline' : ∀ c ∈ line, P c :=
    forall_mem_fillLines (List.forall_mem_nil _) (forall_mem_wordPieces htabs) line hline
  exact forall_mem_fit hblank hdots fun c hc => hline' c (List.mem_of_mem_take hc)

end Cells

end Text

end TypeBridge
