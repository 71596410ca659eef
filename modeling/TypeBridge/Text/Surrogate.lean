/-!
# TypeBridge — lone halves of character pairs

An escape of a configuration may name half of a UTF-16 pair that stands alone.
It is no character, but text keeps it apart from every other text. A `String`
holds such a half as two characters: a mark, which is the last code point of
all, and behind it a private character that says which half it is. Where the
last code point is meant itself, it is a mark with another private character
behind it. So no ordinary text is taken for one with halves: `protect` makes a
text of an ordinary one, and `points` tells its characters again, with any halves
among them (`points_protect`).
-/

namespace TypeBridge

namespace Text

namespace Surrogate

def isHigh (unit : Nat) : Bool :=
  0xd800 ≤ unit && unit ≤ 0xdbff

def isLow (unit : Nat) : Bool :=
  0xdc00 ≤ unit && unit ≤ 0xdfff

/-- The character of two halves. -/
def pair (high low : Nat) : Char :=
  Char.ofNat (0x10000 + (high - 0xd800) * 0x400 + (low - 0xdc00))

/-- What stands before every lone half in a text. -/
def mark : Char := Char.ofNat 0x10ffff

/-- What stands behind a mark that stands for itself. -/
def itself : Char := Char.ofNat 0xe800

/-- The characters that hold a lone half. -/
def ofHalf (unit : Nat) : List Char :=
  [mark, Char.ofNat (0xe000 + (unit - 0xd800))]

/-- The half that a character behind the mark stands for. -/
def half? (c : Char) : Option Nat :=
  if 0xe000 ≤ c.toNat ∧ c.toNat ≤ 0xe7ff then some (0xd800 + (c.toNat - 0xe000)) else none

theorem toNat_ofNat {n : Nat} (h : n.isValidChar) : (Char.ofNat n).toNat = n := by
  rw [Char.ofNat, dif_pos h]
  rfl

/-- The character behind the mark tells the half. -/
theorem half?_ofNat {unit : Nat} (h : isHigh unit ∨ isLow unit) :
    half? (Char.ofNat (0xe000 + (unit - 0xd800))) = some unit := by
  have hu : 0xd800 ≤ unit ∧ unit ≤ 0xdfff := by
    simp only [isHigh, isLow, Bool.and_eq_true, decide_eq_true_eq] at h
    omega
  generalize hn : 0xe000 + (unit - 0xd800) = n
  have hv : n.isValidChar := Or.inr ⟨by omega, by omega⟩
  rw [half?, toNat_ofNat hv, if_pos (by omega)]
  have : 0xd800 + (n - 0xe000) = unit := by omega
  rw [this]

end Surrogate

/-- What a text is made of. -/
inductive Point
  | char (c : Char)
  /-- A lone half of a pair. -/
  | half (unit : Nat)
deriving DecidableEq

/-- The point that a mark and the character behind it are, if they are one. -/
def pointBehindMark? (c : Char) : Option Point :=
  if c = Surrogate.itself then some (.char Surrogate.mark)
  else (Surrogate.half? c).map .half

/-- The characters and the lone halves of a text. -/
def points : List Char → List Point
  | [] => []
  | [c] => [.char c]
  | c :: d :: rest =>
    match if c = Surrogate.mark then pointBehindMark? d else none with
    | some point => point :: points rest
    | none => .char c :: points (d :: rest)

/-- The characters of an ordinary one. -/
def ofChar (c : Char) : List Char :=
  if c = Surrogate.mark then [c, Surrogate.itself] else [c]

/-- The characters of a code unit, be it a lone half or not. -/
def ofUnit (unit : Nat) : List Char :=
  if Surrogate.isHigh unit || Surrogate.isLow unit then Surrogate.ofHalf unit
  else ofChar (Char.ofNat unit)

/-- A text that has the characters of an ordinary one and no halves. -/
def protect (text : String) : String :=
  String.ofList (text.toList.flatMap ofChar)

theorem points_cons_of_ne {c : Char} (h : c ≠ Surrogate.mark) (rest : List Char) :
    points (c :: rest) = .char c :: points rest := by
  cases rest with
  | nil => rfl
  | cons d rest => simp [points, h]

/-- A half that stands alone is read back as it is. -/
theorem points_ofUnit_append {unit : Nat} (h : Surrogate.isHigh unit ∨ Surrogate.isLow unit)
    (rest : List Char) : points (ofUnit unit ++ rest) = .half unit :: points rest := by
  have hu : (Surrogate.isHigh unit || Surrogate.isLow unit) = true := by simpa using h
  have hne : Char.ofNat (0xe000 + (unit - 0xd800)) ≠ Surrogate.itself := by
    intro heq
    have hhalf := Surrogate.half?_ofNat h
    rw [heq] at hhalf
    cases hhalf
  rw [ofUnit, if_pos hu]
  simp [Surrogate.ofHalf, points, pointBehindMark?, hne, Surrogate.half?_ofNat h]

/-- A character is read back as it is. -/
theorem points_ofChar_append (c : Char) (rest : List Char) :
    points (ofChar c ++ rest) = .char c :: points rest := by
  by_cases hc : c = Surrogate.mark
  · simp [ofChar, points, pointBehindMark?, hc]
  · simp [ofChar, hc, points_cons_of_ne hc]

/-- **An ordinary text is read back as it is**, the last code point included. -/
theorem points_protect (text : String) :
    points (protect text).toList = text.toList.map .char := by
  rw [protect, String.toList_ofList]
  induction text.toList with
  | nil => rfl
  | cons c rest ih => rw [List.flatMap_cons, points_ofChar_append, ih, List.map_cons]

/-- Whether a text has lone halves, so that it cannot be written to a file. -/
def hasHalf (text : String) : Bool :=
  (points text.toList).any fun
    | .half _ => true
    | .char _ => false

/-- So it has no halves. -/
theorem hasHalf_protect (text : String) : hasHalf (protect text) = false := by
  simp [hasHalf, points_protect]

end Text

end TypeBridge
