/-!
# TypeBridge — tags

Cuts a text with markup into the tags in it and the text between them. A tag
stands between brackets and starts with a small letter, a number sign, a slash
or an at sign; brackets around anything else are text. Of the backslashes
before a tag every two stand for one, and one that is left over makes text of
the tag.
-/

namespace TypeBridge

namespace Markup

/-- A piece of a text with markup. -/
inductive Piece
  /-- Text as it is written, in which a backslash may protect a bracket. -/
  | written (text : List Char)
  /-- Text that stands for itself. -/
  | plain (text : List Char)
  /-- A tag, with what follows an equals sign in it. -/
  | tag (name : String) (argument : Option String)

def startsTag (c : Char) : Bool :=
  ('a' ≤ c && c ≤ 'z') || c = '#' || c = '/' || c = '@'

def staysInTag (c : Char) : Bool :=
  c ≠ '[' && c ≠ ']'

/-- What a tag holds, from the text behind its opening bracket, and the text
behind the closing one. -/
def tagContent? : List Char → Option (List Char × List Char)
  | [] => none
  | c :: rest =>
    if startsTag c then
      match rest.dropWhile staysInTag with
      | ']' :: after => some (c :: rest.takeWhile staysInTag, after)
      | _ => none
    else none

theorem length_of_tagContent? {text content after : List Char}
    (h : tagContent? text = some (content, after)) : after.length < text.length := by
  cases text with
  | nil => simp [tagContent?] at h
  | cons c rest =>
    simp only [tagContent?] at h
    split at h
    · split at h
      · rename_i after' heq
        have hle := (List.dropWhile_sublist staysInTag (l := rest)).length_le
        simp only [heq, List.length_cons, Option.some.injEq, Prod.mk.injEq] at hle h
        grind
      · simp at h
    · simp at h

def Piece.ofContent (content : List Char) : Piece :=
  let name := String.ofList (content.takeWhile (· ≠ '='))
  match content.dropWhile (· ≠ '=') with
  | [] => .tag name none
  | _ :: argument => .tag name (some (String.ofList argument))

/-- The pieces of a text, after the characters that are read of the next one,
newest first. -/
def piecesFrom (read : List Char) (text : List Char) : List Piece :=
  match text with
  | [] => [.written read.reverse]
  | c :: rest =>
    match h : if c = '[' then tagContent? rest else none with
    | none => piecesFrom (c :: read) rest
    | some (content, after) =>
      have : after.length < rest.length := by
        split at h
        · exact length_of_tagContent? h
        · simp at h
      let before := read.dropWhile (· = '\\')
      let slashes := read.length - before.length
      let literal := if slashes % 2 = 1 then Piece.plain ('[' :: content ++ [']']) else
        .ofContent content
      .written before.reverse :: .plain (List.replicate (slashes / 2) '\\') :: literal ::
        piecesFrom [] after
termination_by text.length

/-- The pieces of a text with markup. -/
def pieces (text : List Char) : List Piece :=
  piecesFrom [] text

end Markup

end TypeBridge
