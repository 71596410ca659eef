import TypeBridge.Proofs.Catalogue.Syntax
import TypeBridge.Proofs.Description.Obstacle
/-!
# TypeBridge — why a text is no description

A text that is no description is refused with the place where it stops being
one and what could have come there. Both are told here by the cuts of the text
and the grammar alone. A rest of the text is attained when the text in front of
it can be cut into tokens that some description begins with, and the place of
the error is the furthest rest that is attained. A terminal may follow there
when some such cut goes on with it.

If that rest is empty, the text ends too early. Else its first character is the
obstacle: it is no blank and opens no comment, and nothing that may follow
starts with it.
-/

namespace TypeBridge

open Description

namespace Description

/-- A text that can be cut into tokens of the grammar. -/
def IsDescription (text : List Char) : Prop :=
  ∃ ts, Cuts text ts ∧ Derives .description (ts.map Token.terminal)

/-- The text up to a rest can be cut into tokens that some description begins
with. -/
def Attains (text rest : List Char) : Prop :=
  ∃ ts, CutsTo text ts rest ∧ Viable (ts.map Token.terminal)

/-- Some description begins with tokens of the text up to a rest and goes on
with a terminal. -/
def MayFollow (text rest : List Char) (k : Terminal) : Prop :=
  ∃ ts, CutsTo text ts rest ∧ Viable (ts.map Token.terminal ++ [k])

/-- An error shows where a text stops being readable: what it says of the place
is so, nothing comes further, and it expects what may follow. -/
structure IsObstacle (text : List Char) (o : Obstacle) : Prop where
  before_eq : text.take o.offset = o.before
  rest_eq : text.drop o.offset = o.char :: o.after
  attains : Attains text (o.char :: o.after)
  furthest : ∀ rest, Attains text rest → o.char :: o.after <:+ rest
  no_gap : isBlank o.char = false ∧ o.char ≠ '#'
  no_token : ∀ t : Token, MayFollow text (o.char :: o.after) t.terminal →
    ∀ rest, ¬ t.Starts (o.char :: o.after) rest
  mem_expected_iff : ∀ k, k ∈ o.expected ↔ MayFollow text (o.char :: o.after) k
  sorted : o.expected.Sublist Terminal.all
  line_eq : o.position.line = 1 + o.before.count '\n'
  column_eq : ∃ lines line, o.before = lines ++ line ∧ '\n' ∉ line ∧
    (∀ c ∈ lines.getLast?, c = '\n') ∧ o.position.column = line.length + 1

/-- A text ends before it is a description, and what may follow is expected. -/
structure EndsEarly (text : List Char) (expected : List Terminal) : Prop where
  attains : Attains text []
  mem_expected_iff : ∀ k, k ∈ expected ↔ MayFollow text [] k
  sorted : expected.Sublist Terminal.all

variable {text rest : List Char} {t : Token} {k : Terminal} {stop : Stop}

/-! ## Places -/

/-- The column counts from the last line feed. -/
theorem exists_line (before : List Char) : ∃ lines line, before = lines ++ line ∧ '\n' ∉ line ∧
    (∀ c ∈ lines.getLast?, c = '\n') ∧
    (Text.Position.after before).column = line.length + 1 := by
  refine ⟨(before.reverse.dropWhile (· ≠ '\n')).reverse,
    (before.reverse.takeWhile (· ≠ '\n')).reverse, ?_, ?_, ?_, ?_⟩
  · rw [← List.reverse_append, List.takeWhile_append_dropWhile, List.reverse_reverse]
  · intro hmem
    have := List.mem_takeWhile_imp (List.mem_reverse.mp hmem)
    simp at this
  · intro c hc
    rw [List.getLast?_reverse] at hc
    have := List.head?_dropWhile_not (· ≠ '\n') before.reverse
    rw [Option.mem_def.mp hc] at this
    simpa using this
  · simp [Text.Position.after]

/-! ## Readings and cuts -/

theorem attains_iff : Attains text rest ↔ ∃ r, Reading.Reaches {} text r rest := by
  constructor
  · rintro ⟨ts, hcuts, hviable⟩
    obtain ⟨r, hrun⟩ := Reading.exists_run_iff.mpr hviable
    exact ⟨r, ts, hcuts, hrun⟩
  · rintro ⟨r, ts, hcuts, hrun⟩
    exact ⟨ts, hcuts, Reading.exists_run_iff.mp ⟨r, hrun⟩⟩

theorem mayFollow_iff : MayFollow text rest k ↔
    ∃ r, Reading.Reaches {} text r rest ∧ r.expects k = true := by
  constructor
  · rintro ⟨ts, hcuts, hviable⟩
    obtain ⟨r, hrun, hexpects⟩ := Reading.exists_expects_iff.mpr hviable
    exact ⟨r, ⟨ts, hcuts, hrun⟩, hexpects⟩
  · rintro ⟨r, ⟨ts, hcuts, hrun⟩, hexpects⟩
    exact ⟨ts, hcuts, Reading.exists_expects_iff.mp ⟨r, hrun, hexpects⟩⟩

theorem isDescription_iff : IsDescription text ↔ ∃ o, Reading.read {} text = .ok o :=
  exists_read_iff.symm

/-- Blanks behind a rest that is attained lead to another one. -/
theorem Attains.gap {more : List Char} (h : Attains text rest) (hgap : Gap rest more) :
    Attains text more := by
  obtain ⟨ts, hcuts, hviable⟩ := h
  exact ⟨ts, by simpa using hcuts.append (.done hgap), hviable⟩

/-- So does a token that may follow. -/
theorem MayFollow.attains {more : List Char} (h : MayFollow text rest t.terminal)
    (hstarts : t.Starts rest more) : Attains text more := by
  obtain ⟨ts, hcuts, hviable⟩ := h
  exact ⟨ts ++ [t], hcuts.append (.token .none hstarts (.done .none)), by simpa using hviable⟩

/-! ## Errors -/

theorem isObstacle_of_stopsAt {char : Char} {after : List Char} {expected : List Terminal}
    (h : Reading.StopsAt {} text ⟨char :: after, expected⟩) :
    IsObstacle text
      { before := text.take (text.length - (char :: after).length), char, after, expected } := by
  have hattains : Attains text (char :: after) := attains_iff.mpr h.reaches
  have hfurthest : ∀ rest, Attains text rest → char :: after <:+ rest := fun rest hrest => by
    obtain ⟨r, hr⟩ := attains_iff.mp hrest
    exact h.furthest r rest hr
  have hsuffix := hfurthest text ⟨[], .done .none, Reading.exists_run_iff.mp ⟨{}, rfl⟩⟩
  have hoffset : (text.take (text.length - (char :: after).length)).length =
      text.length - (char :: after).length := by
    rw [List.length_take]
    omega
  refine ⟨?_, ?_, hattains, hfurthest, ?_, fun t ht rest hstarts => ?_, fun k => ?_, h.sorted,
    Nat.add_comm _ _, exists_line _⟩
  · rw [Obstacle.offset, hoffset]
  · rw [Obstacle.offset, hoffset]
    exact (List.suffix_iff_eq_drop.mp hsuffix).symm
  · -- else the blanks could be passed over
    have hgap := gap_skipBlanks_false (char :: after)
    have hsame := (hfurthest _ (hattains.gap hgap)).eq_of_length
      (Nat.le_antisymm (hfurthest _ (hattains.gap hgap)).length_le hgap.isSuffix.length_le)
    have hsolid := isSolid_skipBlanks false (char :: after)
    rw [← hsame] at hsolid
    exact hsolid char rfl
  · have hle := (hfurthest rest (ht.attains hstarts)).length_le
    exact absurd hstarts.length_lt (Nat.not_lt_of_le hle)
  · exact (h.expected k).trans mayFollow_iff.symm

theorem endsEarly_of_stopsAt {expected : List Terminal}
    (h : Reading.StopsAt {} text ⟨[], expected⟩) : EndsEarly text expected :=
  ⟨attains_iff.mpr h.reaches, fun k => (h.expected k).trans mayFollow_iff.symm, h.sorted⟩

end Description

namespace Catalogue

/-- **A text is a description, or it is refused where it stops being one**: at
the first obstacle, or at its end if there is none. The error says where that is
and lists what may follow there. -/
theorem parse_refuses (enumBase : Option String) (text : String) :
    match parse enumBase text with
    | .error (.notRead (.obstacle o)) =>
      ¬ IsDescription text.toList ∧ IsObstacle text.toList o
    | .error (.notRead (.unexpectedEnd expected)) =>
      ¬ IsDescription text.toList ∧ EndsEarly text.toList expected
    | _ => IsDescription text.toList := by
  rcases hread : Reading.read {} text.toList with ⟨rest, expected⟩ | o
  · have hnot : ¬ IsDescription text.toList := by
      rw [isDescription_iff, hread]
      rintro ⟨o, ho⟩
      cases ho
    have hstop := Reading.stopsAt_of_read hread
    rw [parse_of_stop hread]
    cases rest with
    | nil => exact ⟨hnot, endsEarly_of_stopsAt hstop⟩
    | cons char after => exact ⟨hnot, isObstacle_of_stopsAt hstop⟩
  · rw [parse_of_read hread]
    have hdescription : IsDescription text.toList := isDescription_iff.mpr ⟨o, hread⟩
    cases (ofOutline enumBase o).link <;> exact hdescription

end Catalogue

end TypeBridge
