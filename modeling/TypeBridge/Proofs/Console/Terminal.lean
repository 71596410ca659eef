import TypeBridge.Console.Grid
import TypeBridge.Proofs.Command.Table
import TypeBridge.Proofs.Text.Cells
import TypeBridge.Proofs.Traversal
/-!
# TypeBridge — what a plain terminal shows

A plain terminal keeps to the laws of consoles (`Console.terminal_laws`). The tag
of the title is closed again, and text without brackets is no markup at all, so
no tag is at fault. And a grid puts nothing but blanks, dots and line ends beside
what its cells have, so it brings no half of a character in.
-/

namespace TypeBridge

open Text

/-! ## Markup -/

namespace Markup

variable {text : String} {read front rest content after : List Char} {c : Char}

theorem piecesFrom_cons_of_none (h : c = '[' → tagContent? rest = none) :
    piecesFrom read (c :: rest) = piecesFrom (c :: read) rest := by
  rw [piecesFrom]
  split
  · rfl
  · rename_i heq
    split_ifs at heq with hc
    rw [h hc] at heq
    cases heq

/-- A bracket opens a tag where no backslash is in front of it. -/
theorem piecesFrom_cons_of_some (hread : '\\' ∉ read)
    (h : tagContent? rest = some (content, after)) : piecesFrom read ('[' :: rest) =
      .written read.reverse :: .plain [] :: .ofContent content :: pieces after := by
  have hbefore : read.dropWhile (· = '\\') = read := by
    cases read with
    | nil => rfl
    | cons c read =>
      rw [List.mem_cons, not_or] at hread
      exact List.dropWhile_cons_of_neg (by simpa using Ne.symm hread.1)
  rw [piecesFrom]
  split
  · rename_i heq
    rw [if_pos rfl, h] at heq
    cases heq
  · rename_i heq
    rw [if_pos rfl, h] at heq
    cases heq
    simp [hbefore, pieces]

/-- Text without brackets goes with what is read. -/
theorem piecesFrom_append (h : '[' ∉ front) :
    piecesFrom read (front ++ rest) = piecesFrom (front.reverse ++ read) rest := by
  induction front generalizing read with
  | nil => rfl
  | cons c front ih =>
    rw [List.mem_cons, not_or] at h
    rw [List.cons_append, piecesFrom_cons_of_none fun hc => absurd hc.symm h.1, ih h.2]
    simp

theorem pieces_of_notMem {text : List Char} (h : '[' ∉ text) : pieces text = [.written text] := by
  have hpieces : piecesFrom [] (text ++ []) = piecesFrom (text.reverse ++ []) [] :=
    piecesFrom_append h
  rw [List.append_nil] at hpieces
  rw [pieces, hpieces]
  simp [piecesFrom]

theorem unprotected_of_notMem (h : '[' ∉ rest) : Reading.unprotected rest = rest := by
  induction rest using Reading.unprotected.induct with
  | case1 => rfl
  | case2 rest ih => simp at h
  | case3 c rest hnot ih =>
    rw [List.mem_cons, not_or] at h
    rw [Reading.unprotected, ih h.2]
    rintro rest rfl rfl
    exact h.2 List.mem_cons_self

/-- A text without what moves the cursor. -/
def shown (text : String) : String :=
  String.ofList (text.toList.filter (!isDropped ·))

/-- **Without a bracket** there is no tag, so the text is shown. -/
theorem plain_of_notMem (h : '[' ∉ text.toList) : plain text = .ok (shown text) := by
  have hread : (pieces text.toList).foldlM Reading.read {} = .ok { text := text.toList } := by
    rw [pieces_of_notMem h, List.foldlM_cons, Reading.read, unprotected_of_notMem h]
    rfl
  rw [plain, hread]
  rfl

/-- The tags of the title fit together. -/
theorem plain_title : plain Command.Table.title = .ok "Types" := by
  have hopen : tagContent? "bold cyan]Types[/bold cyan]".toList =
      some ("bold cyan".toList, "Types[/bold cyan]".toList) := by decide
  have hclose : tagContent? "/bold cyan]".toList = some ("/bold cyan".toList, []) := by decide
  have hpieces : pieces Command.Table.title.toList = [.written [], .plain [],
      .tag "bold cyan" none, .written "Types".toList, .plain [], .tag "/bold cyan" none,
      .written []] := by
    calc pieces Command.Table.title.toList
      _ = .written [] :: .plain [] :: .tag "bold cyan" none ::
            pieces "Types[/bold cyan]".toList :=
          piecesFrom_cons_of_some List.not_mem_nil hopen
      _ = .written [] :: .plain [] :: .tag "bold cyan" none ::
            piecesFrom "Types".toList.reverse "[/bold cyan]".toList := by
          rw [pieces, ← List.append_nil "Types".toList.reverse, ← piecesFrom_append (by decide)]
          rfl
      _ = _ := by
          rw [show "[/bold cyan]".toList = '[' :: "/bold cyan]".toList from rfl,
            piecesFrom_cons_of_some (by decide) hclose, pieces_of_notMem List.not_mem_nil]
          rfl
  rw [plain, hpieces]
  decide +kernel

end Markup

/-! ## Grids -/

namespace Grid

variable {P : Char → Prop} {limit width : Nat} {widths : List Nat} {isHeading : Bool}
variable {cells headings texts : List String} {rows : List (List String)}

theorem forall_mem_getD (h : ∀ s ∈ texts, ∀ c ∈ s.toList, P c) (n : Nat) :
    ∀ c ∈ (texts.getD n "").toList, P c := by
  rw [List.getD_eq_getElem?_getD]
  rcases hget : texts[n]? with _ | s
  · nofun
  · exact h s (List.mem_of_getElem? hget)

theorem forall_mem_cellLines (hblank : P ' ') (hdots : P '…') {cell : String}
    (h : ∀ c ∈ cell.toList, P c) : ∀ line ∈ cellLines width cell, ∀ c ∈ line.toList, P c := by
  rw [cellLines]
  split_ifs
  · nofun
  · intro line hline
    obtain ⟨chars, hchars, rfl⟩ := List.mem_map.mp hline
    rw [forall_mem_append, String.toList_ofList]
    exact ⟨Cells.forall_mem_lines hblank hdots h chars hchars, forall_mem_blanks hblank gap⟩

/-- **A row** has the characters of its cells, blanks, dots and line ends. -/
theorem forall_mem_rowText (hblank : P ' ') (hdots : P '…') (hend : P '\n')
    (h : ∀ cell ∈ cells, ∀ c ∈ cell.toList, P c) :
    ∀ c ∈ (rowText widths isHeading cells).toList, P c := by
  have hcolumns : ∀ column ∈ List.zipWith (fun width cell => (width, cellLines width cell)) widths
      cells, ∀ line ∈ column.2, ∀ c ∈ line.toList, P c := by
    intro column hcolumn
    obtain ⟨i, hi, rfl⟩ := List.mem_iff_getElem.mp hcolumn
    rw [List.getElem_zipWith]
    exact forall_mem_cellLines hblank hdots (h _ (List.getElem_mem _))
  rw [rowText]
  refine forall_mem_join fun line hline => ?_
  obtain ⟨n, -, rfl⟩ := List.mem_map.mp hline
  rw [forall_mem_append]
  refine ⟨forall_mem_join fun part hpart => ?_, by simpa using hend⟩
  rw [List.map_map] at hpart
  obtain ⟨column, hcolumn, rfl⟩ := List.mem_map.mp hpart
  have hmissing (count width : Nat) :
      ∀ line ∈ List.replicate count (blanks width), ∀ c ∈ line.toList, P c := fun line hline =>
    List.eq_of_mem_replicate hline ▸ forall_mem_blanks hblank width
  -- the line of a column is one of its lines, or nothing
  refine forall_mem_getD ?_ n
  dsimp only
  split_ifs
  · exact List.forall_mem_append.mpr ⟨hmissing _ _, hcolumns column hcolumn⟩
  · exact List.forall_mem_append.mpr ⟨hcolumns column hcolumn, hmissing _ _⟩

/-- Text without brackets makes a grid of what is shown of it, if there is room. -/
theorem text_of_notMem (hlimit : gap < limit) (hheadings : ∀ cell ∈ headings, '[' ∉ cell.toList)
    (hrows : ∀ row ∈ rows, ∀ cell ∈ row, '[' ∉ cell.toList) : ∃ widths,
      text limit headings rows = .ok (rowText widths true (headings.map Markup.shown) ++
        String.join (rows.map fun row => rowText widths false (row.map Markup.shown))) := by
  have hcells {cells : List String} (h : ∀ cell ∈ cells, '[' ∉ cell.toList) :
      cells.mapM Markup.plain = .ok (cells.map Markup.shown) :=
    mapM_eq_ok_map fun cell hcell => Markup.plain_of_notMem (h cell hcell)
  have hall : (rows.mapM fun row => row.mapM Markup.plain) =
      .ok (rows.map fun row => row.map Markup.shown) :=
    mapM_eq_ok_map fun row hrow => hcells (hrows row hrow)
  refine ⟨Grid.widths limit (headings.map Markup.shown)
    (rows.map fun row => row.map Markup.shown), ?_⟩
  rw [text, if_neg (by omega), hcells hheadings, hall]
  simp [bind, Except.bind, pure, Except.pure, Function.comp_def]

/-- **A grid has the characters of what is shown**, blanks, dots and line ends. -/
theorem forall_mem_text (hblank : P ' ') (hdots : P '…') (hend : P '\n')
    (hheadings : ∀ cell ∈ headings, '[' ∉ cell.toList ∧ ∀ c ∈ (Markup.shown cell).toList, P c)
    (hrows : ∀ row ∈ rows, ∀ cell ∈ row,
      '[' ∉ cell.toList ∧ ∀ c ∈ (Markup.shown cell).toList, P c) :
    ∃ grid, text limit headings rows = .ok grid ∧ ∀ c ∈ grid.toList, P c := by
  rcases Nat.lt_or_ge gap limit with hlimit | hlimit
  · obtain ⟨widths, htext⟩ := text_of_notMem hlimit (fun cell hcell => (hheadings cell hcell).1)
      fun row hrow cell hcell => (hrows row hrow cell hcell).1
    have hrow {isHeading : Bool} {cells : List String}
        (h : ∀ cell ∈ cells, '[' ∉ cell.toList ∧ ∀ c ∈ (Markup.shown cell).toList, P c) :
        ∀ c ∈ (rowText widths isHeading (cells.map Markup.shown)).toList, P c :=
      forall_mem_rowText hblank hdots hend
        (List.forall_mem_map.mpr fun cell hcell => (h cell hcell).2)
    refine ⟨_, htext, forall_mem_append.mpr ⟨hrow hheadings, forall_mem_join ?_⟩⟩
    exact List.forall_mem_map.mpr fun row hmem => hrow (hrows row hmem)
  · -- there is room for blanks alone
    refine ⟨_, if_pos hlimit, forall_mem_join fun line hline => ?_⟩
    rw [List.eq_of_mem_replicate hline, forall_mem_append]
    exact ⟨forall_mem_blanks hblank limit, by simpa using hend⟩

end Grid

/-! ## The laws -/

/-- A broken word has its characters and line ends. -/
theorem Console.forall_mem_folded {P : Char → Prop} {width room : Nat} {text : List Char}
    (hend : P '\n') (h : ∀ c ∈ text, P c) : ∀ c ∈ folded width room text, P c := by
  induction room, text using folded.induct width with
  | case1 room => simpa [folded] using hend
  | case2 c rest ih =>
    rw [List.forall_mem_cons] at h
    exact List.forall_mem_cons.mpr ⟨hend, List.forall_mem_cons.mpr ⟨h.1, ih h.2⟩⟩
  | case3 room c rest ih =>
    rw [List.forall_mem_cons] at h
    exact List.forall_mem_cons.mpr ⟨h.1, ih h.2⟩

/-- What is shown of a text has no characters of its own. -/
theorem IsUnmarked.shown {text : String} (h : IsUnmarked text) :
    '[' ∉ text.toList ∧ ∀ c ∈ (Markup.shown text).toList, c ≠ Surrogate.mark := by
  refine ⟨h.1, fun c hc => ?_⟩
  rw [Markup.shown, String.toList_ofList] at hc
  exact ne_of_mem_of_not_mem (List.mem_of_mem_filter hc) h.2

/-- **A plain terminal is a console** that keeps to the laws. -/
theorem Console.terminal_laws (width : Nat) : (terminal width).Laws := by
  have hwrites {text : String} (h : ∀ c ∈ text.toList, c ≠ Surrogate.mark) :
      hasHalf text = false := hasHalf_eq_false_of_notMem fun hmark => h _ hmark rfl
  rcases eq_or_ne width 0 with rfl | hwidth
  · -- nothing is written
    exact ⟨⟨"", rfl, rfl⟩, fun _ _ => ⟨"", rfl, rfl⟩⟩
  constructor
  · have htypes : IsCode "Types" := by decide
    refine ⟨String.ofList (folded width width "Types".toList), ?_, hwrites ?_⟩
    · simp [terminal, hwidth, Markup.plain_title, Except.map]
    · rw [String.toList_ofList]
      exact forall_mem_folded (by decide) fun c hc => ne_of_mem_of_not_mem hc htypes.notMem_mark
  · intro headings rows hheadings hrows
    obtain ⟨grid, hgrid, hmem⟩ := Grid.forall_mem_text (P := (· ≠ Surrogate.mark))
      (by decide) (by decide) (by decide) (fun cell hcell => (hheadings cell hcell).shown)
      fun row hrow cell hcell => (hrows row hrow cell hcell).shown
    exact ⟨grid, (if_neg hwidth).trans hgrid, hwrites hmem⟩

end TypeBridge
