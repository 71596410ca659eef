import TypeBridge.Description.Reading
import TypeBridge.Description.SyntaxError
/-!
# TypeBridge — reading a description

Text is read from left to right, a token at a time. At each place only what
may come next is looked for, a name always takes in all it can, and a mark
needs nothing after it. That leaves one choice: at the start of a field the
word `static` may be the mark or (the start of) the field's name. It is the
mark whenever a name follows it.

Every token makes the text shorter, so the reading ends, at the end of the
text or at the first place where nothing that may come next does.
-/

namespace TypeBridge

namespace Description

/-- The place where a reading cannot go on: the text from there, and what
could have come. -/
structure Stop where
  rest : List Char
  expected : List Terminal

/-- What the word `static` at the start of a field is. -/
inductive StaticSense
  /-- The mark of a static field. -/
  | mark
  /-- The field's name, or its start. -/
  | name
  /-- Neither can go on with the text from here. -/
  | neither (rest : List Char)

/-- The sense of the word, from the text after it. A name may follow at once,
and so may the rest of a longer name; past blanks, a colon follows a name. -/
def senseOfStatic (after : List Char) : StaticSense :=
  match after with
  | c :: _ =>
    if isNameStart c then .mark
    else if isNameChar c then .name
    else
      match skipBlanks false after with
      | [] => .neither []
      | c :: rest =>
        if c = ':' then .name else if isNameStart c then .mark else .neither (c :: rest)
  | [] => .neither []

namespace Reading

/-- Takes a token of one kind from the front of a text. -/
def take? (r : Reading) (text : List Char) : Terminal → Option (Reading × List Char)
  | .mark m => do
    let rest ← m.strip? text
    let r ← r.step (.mark m)
    return (r, rest)
  | .name => do
    let (n, rest) ← stripName? text
    let r ← r.step (.name n)
    return (r, rest)

theorem take?_length_lt {r r' : Reading} {text rest : List Char} {t : Terminal}
    (h : r.take? text t = some (r', rest)) : rest.length < text.length := by
  cases t with
  | mark m =>
    simp only [take?, Option.bind_eq_bind, Option.bind_eq_some_iff] at h
    obtain ⟨_, hstrip, _, _, h⟩ := h
    obtain ⟨-, rfl⟩ := by simpa using h
    exact Mark.strip?_length_lt hstrip
  | name =>
    simp only [take?, Option.bind_eq_bind, Option.bind_eq_some_iff] at h
    obtain ⟨_, hstrip, _, _, h⟩ := h
    obtain ⟨-, rfl⟩ := by simpa using h
    exact stripName?_length_lt hstrip

/-- The kinds of token to look for. Only at the word `static` does the text
further on decide. -/
def kindsAt (r : Reading) (text : List Char) : Except Stop (List Terminal) :=
  match Mark.staticWord.strip? text, r.expects (.mark .staticWord) with
  | some after, true =>
    match senseOfStatic after with
    | .mark => .ok [.mark .staticWord]
    | .name => .ok [.name]
    | .neither rest => .error ⟨rest, [.mark .colon, .name]⟩
  | _, _ => .ok Terminal.all

/-- Takes the next token from a text that starts with no blank. -/
def advance (r : Reading) (text : List Char) : Except Stop (Reading × List Char) := do
  let kinds ← r.kindsAt text
  match kinds.findSome? (r.take? text) with
  | some next => .ok next
  | none => .error ⟨text, r.expected⟩

theorem advance_length_lt {r r' : Reading} {text rest : List Char}
    (h : r.advance text = .ok (r', rest)) : rest.length < text.length := by
  unfold advance at h
  cases hkinds : r.kindsAt text with
  | error stop => simp [hkinds, bind, Except.bind] at h
  | ok kinds =>
    simp only [hkinds, bind, Except.bind] at h
    split at h
    · rename_i hnext
      obtain ⟨t, -, ht⟩ := List.exists_of_findSome?_eq_some hnext
      cases h
      exact take?_length_lt ht
    · cases h

/-- Reads a text to its end. -/
def read (r : Reading) (text : List Char) : Except Stop Outline :=
  match h : skipBlanks false text with
  | [] =>
    match r.finish? with
    | some outline => .ok outline
    | none => .error ⟨[], r.expected⟩
  | c :: rest =>
    match h' : r.advance (c :: rest) with
    | .error stop => .error stop
    | .ok (r, rest') =>
      have : rest'.length < text.length := by
        have := skipBlanks_length_le false text
        rw [h] at this
        exact Nat.lt_of_lt_of_le (advance_length_lt h') this
      r.read rest'
termination_by text.length

end Reading

/-- The outline that a text describes. -/
def Outline.read (text : List Char) : Except SyntaxError Outline :=
  (Reading.read {} text).mapError fun stop => .ofStop text stop.rest stop.expected

end Description

end TypeBridge
