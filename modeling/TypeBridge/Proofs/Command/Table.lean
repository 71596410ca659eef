import TypeBridge.Command.Run
import TypeBridge.Proofs.Native.Framed
/-!
# TypeBridge — the table on a console

The cells of a table frame the base namespace or are code. So if the base opens
no tag and has no lone half, neither has a cell, and every console that keeps to
`Console.Laws` shows the table. What a console does with any other text is left
open.
-/

namespace TypeBridge

open Text

/-- A text that opens no tag and has no part of a lone half. -/
def IsUnmarked (text : String) : Prop :=
  '[' ∉ text.toList ∧ Surrogate.mark ∉ text.toList

/-- A console writes something that has no lone half. -/
def Console.Writes (shown : Except Markup.Fault String) (text : String) : Prop :=
  shown = .ok text ∧ hasHalf text = false

/-- Why what a console makes of markup is not written. -/
inductive Console.Fails (shown : Except Markup.Fault String) : Command.Failure → Prop
  | fault {fault : Markup.Fault} : shown = .error fault → Fails shown (.markup fault)
  | half {text : String} : shown = .ok text → hasHalf text = true → Fails shown .loneHalf

/-- **What consoles keep to**: a tag that is closed again is no fault, and text
without tags is none, however it is laid out. -/
structure Console.Laws (console : Console) : Prop where
  title : ∃ text, Writes (console.line Command.Table.title) text
  table : ∀ {headings : List String} {rows : List (List String)},
    (∀ cell ∈ headings, IsUnmarked cell) → (∀ row ∈ rows, ∀ cell ∈ row, IsUnmarked cell) →
      ∃ text, Writes (console.table headings rows) text

/-- What is written does not fail. -/
theorem Console.Writes.not_fails {shown : Except Markup.Fault String} {text : String}
    {failure : Command.Failure} (h : Writes shown text) : ¬ Fails shown failure := by
  obtain ⟨rfl, hnone⟩ := h
  rintro (hfault | ⟨htext, hhalf⟩)
  · cases hfault
  · cases htext
    rw [hnone] at hhalf
    cases hhalf

/-- And what fails not is written. -/
theorem Console.writes_or_fails (shown : Except Markup.Fault String) :
    (∃ text, Writes shown text) ∨ ∃ failure, Fails shown failure := by
  rcases shown with fault | text
  · exact .inr ⟨_, .fault rfl⟩
  · cases hhalf : hasHalf text with
    | true => exact .inr ⟨_, .half rfl hhalf⟩
    | false => exact .inl ⟨text, rfl, hhalf⟩

theorem IsUnmarked.hasHalf_eq {text : String} (h : IsUnmarked text) : hasHalf text = false :=
  hasHalf_eq_false_of_notMem h.2

theorem isUnmarked_of_isCode {text : String} (h : IsCode text) : IsUnmarked text :=
  ⟨h.notMem rfl, h.notMem_mark⟩

theorem isUnmarked_of_frames {base text : String} (h : Frames base text)
    (hbase : IsUnmarked base) : IsUnmarked text :=
  ⟨h.notMem hbase.1 rfl, h.notMem hbase.2 (by decide)⟩

namespace Command

/-- The mapping of a type that is declared inside a base namespace: it is named
in code, and native forms frame the base. -/
structure Shows (base : String) (m : Mapping) : Prop where
  name : IsCode m.name
  qualifiedName : Frames base m.qualifiedName
  parameterType : Frames base m.parameterType
  interopType : Frames base m.interopType ∨ IsCode m.interopType
  ahead : m.forwardDeclaration.isSome

variable {base title text : String} {m : Mapping} {mappings : List Mapping} {console : Console}
variable {shown : Except Markup.Fault String} {failure : Failure}

/-- A cell frames the base or is code. -/
theorem Table.frames_or_isCode_of_mem_row (h : Shows base m) {cell : String}
    (hcell : cell ∈ row m) : Frames base cell ∨ IsCode cell := by
  have hkind : IsCode m.kind.label := by cases m.kind <;> decide
  have hneed : IsCode (headerNeed m) := by
    rw [headerNeed, if_pos h.ahead]
    decide
  simp only [row, List.mem_cons, List.not_mem_nil, or_false] at hcell
  rcases hcell with rfl | rfl | rfl | rfl | rfl | rfl
  · exact .inr h.name
  · exact .inr hkind
  · exact .inl h.qualifiedName
  · exact .inl h.parameterType
  · exact h.interopType
  · exact .inr hneed

/-- So an unmarked base makes unmarked cells. -/
theorem Table.isUnmarked_of_mem_row (h : Shows base m) (hbase : IsUnmarked base) :
    ∀ cell ∈ row m, IsUnmarked cell := by
  intro cell hcell
  rcases frames_or_isCode_of_mem_row h hcell with hframes | hcode
  · exact isUnmarked_of_frames hframes hbase
  · exact isUnmarked_of_isCode hcode

/-- Consoles write the rows of an unmarked base. -/
theorem Table.exists_writes_rows (hlaws : console.Laws) (hbase : IsUnmarked base)
    (h : ∀ m ∈ mappings, Shows base m) :
    ∃ text, Console.Writes (console.table headings (mappings.map row)) text := by
  have hheadings : ∀ cell ∈ headings, IsCode cell := by decide
  refine hlaws.table (fun cell hcell => isUnmarked_of_isCode (hheadings cell hcell)) ?_
  exact List.forall_mem_map.mpr fun m hm => isUnmarked_of_mem_row (h m hm) hbase

namespace Output

theorem ofText_of_hasHalf_eq_false (h : hasHalf text = false) : ofText text = { text } := by
  rw [ofText, if_neg (by simp [h])]

theorem ofText_of_hasHalf (h : hasHalf text = true) :
    ofText text = { failure := some .loneHalf } := by
  rw [ofText, if_pos h]

theorem ofMarkup_of_writes (h : Console.Writes shown text) : ofMarkup shown = { text } := by
  rw [h.1, ofMarkup, ofText_of_hasHalf_eq_false h.2]

theorem ofMarkup_of_fails (h : Console.Fails shown failure) :
    ofMarkup shown = { failure := some failure } := by
  cases h with
  | fault hfault => rw [hfault, ofMarkup]
  | half htext hhalf => rw [htext, ofMarkup, ofText_of_hasHalf hhalf]

/-- **The table is written** behind its title. -/
theorem ofTable_of_writes (htitle : Console.Writes (console.line Table.title) title)
    (htext : Console.Writes (console.table Table.headings (mappings.map Table.row)) text) :
    ofTable console mappings = { text := title ++ text } := by
  rw [ofTable, ofMarkup_of_writes htitle, ofMarkup_of_writes htext]
  rfl

theorem ofTable_of_title_fails (h : Console.Fails (console.line Table.title) failure) :
    (ofTable console mappings).failure = some failure := by
  rw [ofTable, ofMarkup_of_fails h]
  rfl

/-- Rows that fail leave the title. -/
theorem ofTable_of_fails (htitle : Console.Writes (console.line Table.title) title)
    (h : Console.Fails (console.table Table.headings (mappings.map Table.row)) failure) :
    ofTable console mappings = { text := title, failure := some failure } := by
  rw [ofTable, ofMarkup_of_writes htitle, ofMarkup_of_fails h]
  simp [append]

end Output

end Command

end TypeBridge
