/-!
# TypeBridge — ascending lists of lines

A set of lines kept as the list of its elements in ascending order of code
points, each once.
-/

namespace TypeBridge

namespace Text

namespace Ascending

/-- Puts a line where it belongs, unless it is there already. -/
def insert (line : String) : List String → List String
  | [] => [line]
  | first :: rest =>
    if line < first then line :: first :: rest
    else if line = first then first :: rest
    else first :: insert line rest

/-- Puts a line in if there is one. -/
def insert? (line : Option String) (lines : List String) : List String :=
  match line with
  | none => lines
  | some line => insert line lines

/-- What is in a list after a line is put in. -/
theorem mem_insert {line x : String} {lines : List String} :
    x ∈ insert line lines ↔ x = line ∨ x ∈ lines := by
  induction lines with
  | nil => simp [insert]
  | cons first rest ih =>
    rw [insert]
    split
    · simp
    · split
      · rename_i h
        simp [h]
      · simp only [List.mem_cons, ih]
        grind

end Ascending

end Text

end TypeBridge
