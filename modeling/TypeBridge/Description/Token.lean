/-!
# TypeBridge — the words of a description

A description is a sequence of tokens: names, and marks with a fixed spelling.
No mark is reserved, so which of them a piece of text is depends on the place
it stands in. Blanks and comments may stand between any two tokens and mean
nothing.
-/

namespace TypeBridge

namespace Description

/-! ## Characters -/

/-- The letters a name may start with: ASCII letters and the underscore. -/
def isNameStart (c : Char) : Bool :=
  c.isAlpha || c = '_'

/-- The characters a name goes on with. -/
def isNameChar (c : Char) : Bool :=
  c.isAlphanum || c = '_'

def isBlank (c : Char) : Bool :=
  c = ' ' || c = '\t' || c = '\x0c' || c = '\r' || c = '\n'

/-- The text after its leading blanks and comments. A comment runs from a
number sign to the end of its line. -/
def skipBlanks (inComment : Bool) : List Char → List Char
  | [] => []
  | c :: rest =>
    if inComment then skipBlanks (c != '\n') rest
    else if c = '#' then skipBlanks true rest
    else if isBlank c then skipBlanks false rest
    else c :: rest

theorem skipBlanks_length_le (inComment : Bool) (text : List Char) :
    (skipBlanks inComment text).length ≤ text.length := by
  fun_induction skipBlanks inComment text <;> simp only [List.length_cons, List.length_nil] <;>
    omega

/-! ## Tokens -/

/-- A token with a fixed spelling. -/
inductive Mark
  | classWord
  | colon
  | dot
  | enumWord
  | leftBrace
  | namespaceWord
  | star
  | rightBrace
  | staticWord
  | structWord
deriving DecidableEq

namespace Mark

def spelling : Mark → String
  | classWord => "class"
  | colon => ":"
  | dot => "."
  | enumWord => "enum"
  | leftBrace => "\x7b"
  | namespaceWord => "namespace"
  | star => "*"
  | rightBrace => "\x7d"
  | staticWord => "static"
  | structWord => "struct"

/-- The text after a mark, if the text starts with it. Nothing has to follow:
a word may run on into a name. -/
def strip? (mark : Mark) (text : List Char) : Option (List Char) :=
  mark.spelling.toList.isPrefixOf? text

/-- What is stripped and what is left are the text. -/
theorem append_of_strip? {mark : Mark} {text rest : List Char} (h : mark.strip? text = some rest) :
    mark.spelling.toList ++ rest = text := by
  rw [strip?] at h
  generalize mark.spelling.toList = letters at h ⊢
  induction letters generalizing text with
  | nil => exact (Option.some.inj h).symm
  | cons letter letters ih =>
    cases text with
    | nil => cases h
    | cons c text =>
      change (if letter == c then letters.isPrefixOf? text else none) = some rest at h
      split at h
      · rename_i heq
        simp only [beq_iff_eq] at heq
        rw [List.cons_append, ih h, heq]
      · simp at h

theorem strip?_length_lt {mark : Mark} {text rest : List Char} (h : mark.strip? text = some rest) :
    rest.length < text.length := by
  have happ := append_of_strip? h
  have hpos : 0 < mark.spelling.toList.length := by cases mark <;> decide
  rw [← happ, List.length_append]
  omega

end Mark

/-- What a token may be. -/
inductive Terminal
  | mark (mark : Mark)
  | name
deriving DecidableEq

namespace Terminal

/-- The name of a terminal in messages. -/
def label : Terminal → String
  | mark .classWord => "CLASS"
  | mark .colon => "COLON"
  | mark .dot => "DOT"
  | mark .enumWord => "ENUM"
  | mark .leftBrace => "LBRACE"
  | name => "NAME"
  | mark .namespaceWord => "NAMESPACE"
  | mark .star => "POINTER"
  | mark .rightBrace => "RBRACE"
  | mark .staticWord => "STATIC"
  | mark .structWord => "STRUCT"

/-- Every terminal, in the order of their labels. -/
def all : List Terminal :=
  [mark .classWord, mark .colon, mark .dot, mark .enumWord, mark .leftBrace, name,
    mark .namespaceWord, mark .star, mark .rightBrace, mark .staticWord, mark .structWord]

theorem mem_all (t : Terminal) : t ∈ all := by
  rcases t with m | _
  · cases m <;> decide
  · decide

end Terminal

inductive Token
  | mark (mark : Mark)
  | name (text : String)
deriving DecidableEq

namespace Token

def terminal : Token → Terminal
  | mark m => .mark m
  | name _ => .name

/-- The text of a token. -/
def spelling : Token → String
  | mark m => m.spelling
  | name text => text

end Token

/-- The name a text starts with, which takes in every character that can
belong to it, and the text after it. -/
def stripName? : List Char → Option (String × List Char)
  | [] => none
  | c :: rest =>
    if isNameStart c then
      some (String.ofList (c :: rest.takeWhile isNameChar), rest.dropWhile isNameChar)
    else none

theorem stripName?_length_lt {text rest : List Char} {name : String}
    (h : stripName? text = some (name, rest)) : rest.length < text.length := by
  cases text with
  | nil => simp [stripName?] at h
  | cons c more =>
    simp only [stripName?] at h
    split at h
    · obtain ⟨rfl, rfl⟩ := by simpa using h
      have := (List.dropWhile_sublist (l := more) isNameChar).length_le
      simp only [List.length_cons]
      omega
    · simp at h

end Description

end TypeBridge
