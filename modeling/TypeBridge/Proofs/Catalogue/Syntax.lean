import TypeBridge.Catalogue
import TypeBridge.Proofs.Description.Preference
/-!
# TypeBridge — which descriptions are read

A description is parsed in two stages, and the first one looks at nothing but
the text. It lets through the texts that can be cut into tokens of the grammar,
and no others; what fails after that is the linking.
-/

namespace TypeBridge

open Description

theorem Description.Outline.read_eq_ok_iff {text : List Char} {o : Outline} :
    Outline.read text = .ok o ↔ Reading.read {} text = .ok o := by
  rw [Outline.read]
  cases Reading.read {} text <;> simp [Except.mapError]

namespace Catalogue

variable {enumBase : Option String} {text : String} {o : Outline} {c : Catalogue}

/-- What is read is linked. -/
theorem parse_of_read (h : Reading.read {} text.toList = .ok o) :
    parse enumBase text = (ofOutline enumBase o).link.mapError .notLinked := by
  simp [parse, Outline.read, h, Except.mapError, bind, Except.bind]

/-- What is read is parsed to what it is linked to. -/
theorem parse_eq_ok_iff (h : Reading.read {} text.toList = .ok o) :
    parse enumBase text = .ok c ↔ (ofOutline enumBase o).link = .ok c := by
  rw [parse_of_read h]
  cases (ofOutline enumBase o).link <;> simp [Except.mapError]

/-- Else parsing fails for that. -/
theorem parse_notLinked_iff (h : Reading.read {} text.toList = .ok o) :
    (∃ error, parse enumBase text = .error (.notLinked error)) ↔
      ¬ ∃ c, (ofOutline enumBase o).link = .ok c := by
  rw [parse_of_read h]
  cases (ofOutline enumBase o).link <;> simp [Except.mapError]

/-- **What is not read is not linked either.** -/
theorem parse_of_stop {stop : Stop} (h : Reading.read {} text.toList = .error stop) :
    parse enumBase text =
      .error (.notRead (.ofStop text.toList stop.rest stop.expected)) := by
  simp [parse, Outline.read, h, Except.mapError, bind, Except.bind]

/-- **The language that is read** is the one of the grammar: a text passes the
syntactic stage exactly when it can be cut into tokens, with any blanks and
comments around them, that the grammar derives. -/
theorem parse_reads_iff (enumBase : Option String) (text : String) :
    (∀ error, parse enumBase text ≠ .error (.notRead error)) ↔
      ∃ tokens, Cuts text.toList tokens ∧
        Derives .description (tokens.map Token.terminal) := by
  rw [← exists_read_iff]
  constructor
  · intro h
    rcases hread : Reading.read {} text.toList with stop | o
    · exact absurd (parse_of_stop hread) (h _)
    · exact ⟨o, rfl⟩
  · rintro ⟨o, hread⟩ error herror
    rw [parse_of_read hread] at herror
    cases hlink : (ofOutline enumBase o).link <;> simp [hlink, Except.mapError] at herror

end Catalogue

end TypeBridge
