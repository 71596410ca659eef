/-!
# TypeBridge — similar words

How much two words have in common, and which of some words may be meant by
one that is none of them. What two words share is their longest common block,
and what the parts before it and the parts behind it share in turn.
-/

namespace TypeBridge

namespace Text

namespace Similarity

/-- How far two texts agree from their start on. -/
def commonStart : List Char → List Char → Nat
  | a :: as, b :: bs => if a = b then commonStart as bs + 1 else 0
  | _, _ => 0

/-- A block that stands in two texts, by where it starts in each and by its
length. -/
structure Block where
  first : Nat
  second : Nat
  length : Nat

/-- The blocks of two texts that cannot be prolonged to the right, in the
order in which they start in the first text and then in the second. -/
def blocks (a b : List Char) : List Block :=
  let block (i j : Nat) : Block := ⟨i, j, commonStart (a.drop i) (b.drop j)⟩
  let all := (List.range a.length).flatMap fun i => (List.range b.length).map (block i)
  all.filter (0 < ·.length)

/-- The longest of some blocks, the first of those if there are several. -/
def longest? : List Block → Option Block
  | [] => none
  | block :: rest =>
    match longest? rest with
    | some other => if block.length < other.length then some other else some block
    | none => some block

theorem mem_of_longest? {bs : List Block} {block : Block} (h : longest? bs = some block) :
    block ∈ bs := by
  induction bs with
  | nil => simp [longest?] at h
  | cons first rest ih =>
    rw [longest?] at h
    split at h
    · split at h
      · simp_all
      · simp_all
    · simp_all

theorem first_lt_of_mem_blocks {a b : List Char} {block : Block} (h : block ∈ blocks a b) :
    block.first < a.length ∧ 0 < block.length := by
  simp only [blocks, List.mem_filter, List.mem_flatMap, List.mem_range, List.mem_map,
    decide_eq_true_eq] at h
  obtain ⟨⟨i, hi, j, -, rfl⟩, hl⟩ := h
  exact ⟨hi, hl⟩

/-- The part of a text before its longest block is shorter than the text. -/
theorem length_take_lt {a b : List Char} {block : Block} (h : longest? (blocks a b) = some block) :
    (a.take block.first).length < a.length := by
  have hfirst := (first_lt_of_mem_blocks (mem_of_longest? h)).1
  rw [List.length_take]
  omega

/-- So is the part behind the block. -/
theorem length_drop_lt {a b : List Char} {block : Block} (h : longest? (blocks a b) = some block) :
    (a.drop (block.first + block.length)).length < a.length := by
  have hblock := first_lt_of_mem_blocks (mem_of_longest? h)
  rw [List.length_drop]
  omega

/-- How many characters two texts share. -/
def shared (a b : List Char) : Nat :=
  match _ : longest? (blocks a b) with
  | none => 0
  | some block =>
    shared (a.take block.first) (b.take block.second) + block.length +
      shared (a.drop (block.first + block.length)) (b.drop (block.second + block.length))
termination_by a.length
decreasing_by
  · exact length_take_lt (by assumption)
  · exact length_drop_lt (by assumption)

/-- A word beside the one that it may stand for, with how much they share and
how many characters both have. -/
structure Likeness where
  word : String
  shared : Nat
  total : Nat

def Likeness.of (word meant : String) : Likeness where
  word := meant
  shared := Similarity.shared meant.toList word.toList
  total := meant.length + word.length

/-- Whether so many shared characters are at least six tenths of two words. -/
def isEnough (shared total : Nat) : Bool :=
  3 * total ≤ 10 * shared

/-- Whether the lengths of two words let them be close, since no more can be
shared than the shorter one has. -/
def mayBeClose (word meant : String) : Bool :=
  isEnough (min meant.length word.length) (meant.length + word.length)

def Likeness.isClose (l : Likeness) : Bool :=
  isEnough l.shared l.total

/-- Whether a word is meant at least as likely as another: it shares a larger
part, or the same part and stands later in the alphabet. -/
def Likeness.precedes (l m : Likeness) : Bool :=
  m.shared * l.total < l.shared * m.total ||
    (l.shared * m.total = m.shared * l.total && m.word ≤ l.word)

end Similarity

open Similarity in
/-- The words that another may stand for, the three closest ones at most, in
ascending order. -/
def closeMatches (word : String) (known : List String) : List String :=
  let likely := (known.filter (mayBeClose word)).map (Likeness.of word)
  let close := likely.filter (·.isClose)
  (((close.mergeSort Likeness.precedes).take 3).map (·.word)).mergeSort fun a b => a ≤ b

/-- Only known words are proposed. -/
theorem mem_of_mem_closeMatches {x word : String} {known : List String}
    (h : x ∈ closeMatches word known) : x ∈ known := by
  simp only [closeMatches, List.mem_mergeSort, List.mem_map] at h
  obtain ⟨l, hl, rfl⟩ := h
  have hmem := List.mem_of_mem_take hl
  simp only [List.mem_mergeSort, List.mem_filter, List.mem_map] at hmem
  obtain ⟨⟨w, ⟨hw, -⟩, rfl⟩, -⟩ := hmem
  exact hw

theorem length_closeMatches_le (word : String) (known : List String) :
    (closeMatches word known).length ≤ 3 := by
  simp only [closeMatches, List.length_mergeSort, List.length_map, List.length_take]
  omega

end Text

end TypeBridge
