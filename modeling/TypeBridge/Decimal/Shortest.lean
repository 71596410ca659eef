import TypeBridge.Decimal.Binary64
/-!
# TypeBridge — the shortest decimal of a float

The decimal with the fewest digits among those that read back as a float, and
of these the one closest to it. The decimals that read back form an interval
around the float, which reaches halfway to its neighbours and holds its ends
when the significand is even. For each number of digits only the two decimals
next to the float have to be tried.

`Notation.text` writes digits out, positionally or with an exponent.
-/

namespace TypeBridge

namespace Binary64

/-- The numbers that round to a positive float, and the float itself, as
multiples of one unit. -/
structure Neighbourhood where
  low : Nat
  middle : Nat
  high : Nat
  closed : Bool

namespace Neighbourhood

/-- The neighbourhood of a float in quarters of its last place. Below a power
of two the next float is only half as far away. -/
def ofFloat (significand : Nat) (exponent : Int) : Neighbourhood where
  low := 4 * significand - (if significand = Nat.pow 2 52 ∧ -1074 < exponent then 1 else 2)
  middle := 4 * significand
  high := 4 * significand + 2
  closed := significand % 2 = 0

/-- Whether a number of steps of `num / den` units lies in a neighbourhood. -/
def holds (n : Neighbourhood) (steps num den : Nat) : Bool :=
  if n.closed then n.low * den ≤ steps * num && steps * num ≤ n.high * den
  else n.low * den < steps * num && steps * num < n.high * den

/-- The multiple of `10 ^ place` that lies in a neighbourhood, if one next to
its middle does: the closer of two, and the even one of two equally close. The
unit is `2 ^ exponent`. -/
def onGrid? (n : Neighbourhood) (exponent place : Int) : Option Nat :=
  let (num, den) := scaleFraction 10 1 1 place
  let (num, den) := scaleFraction 2 num den (-exponent)
  let below := n.middle * den / num
  let above := below + 1
  match n.holds below num den, n.holds above num den with
  | true, true => some (divideToNearest (n.middle * den) num)
  | true, false => some below
  | false, true => some above
  | false, false => none

end Neighbourhood

/-- The power of ten of the first digit of a positive fraction. -/
def leadingPlace (num den : Nat) : Int :=
  let estimate : Int := (Decimal.digitCount num : Int) - (Decimal.digitCount den : Int)
  let (n, d) := scaleFraction 10 num den (-estimate)
  if d ≤ n then estimate else estimate - 1

/-- Tries more and more digits, from a place on downward. -/
def searchGrids (n : Neighbourhood) (exponent : Int) : Nat → Int → Nat × Int
  | 0, place => (n.middle, place)
  | tries + 1, place =>
    match n.onGrid? exponent place with
    | some steps => (steps, place)
    | none => searchGrids n exponent tries (place - 1)

/-- The shortest decimal that reads back as a float: its digits, and the place
of the last of them. Seventeen digits always suffice. -/
def shortest (significand : Nat) (exponent : Int) : Nat × Int :=
  let n := Neighbourhood.ofFloat significand exponent
  let (num, den) := scaleFraction 2 significand 1 exponent
  searchGrids n (exponent - 2) 17 (leadingPlace num den)

end Binary64

namespace Decimal

/-- Drops zeros at the end of a digit sequence. -/
def dropTrailingZeros (digits : List Char) : List Char :=
  (digits.reverse.dropWhile (· = '0')).reverse

/-- Zeros to fill a number of places. -/
def zeros (count : Int) : List Char :=
  List.replicate count.toNat '0'

/-- Digits with the point after the first `point` places: positional from four
leading zeros to sixteen places, with an exponent of two or more digits
beyond. -/
def pointed (digits : List Char) (point : Int) : List Char :=
  if -4 < point ∧ point ≤ 16 then
    if point ≤ 0 then "0.".toList ++ zeros (-point) ++ digits
    else
      let whole := digits.take point.toNat ++ zeros (point - digits.length)
      let fraction := digits.drop point.toNat
      whole ++ ['.'] ++ (if fraction = [] then ['0'] else fraction)
  else
    let power := point - 1
    let size := Nat.toDigits 10 power.natAbs
    let mantissa := digits.take 1 ++ (if digits.length ≤ 1 then [] else '.' :: digits.drop 1)
    mantissa ++ ['e', if power < 0 then '-' else '+'] ++ zeros (2 - size.length) ++ size

/-- The text of the magnitude of a float. -/
def magnitudeText : Binary64 → String
  | .infinite => "inf"
  | .finite 0 _ => "0.0"
  | .finite significand exponent =>
    let (steps, place) := Binary64.shortest significand exponent
    let all := Nat.toDigits 10 steps
    String.ofList (pointed (dropTrailingZeros all) (all.length + place))

/-- The shortest text of the float nearest to a number. -/
def shortestText (x : Decimal) : String :=
  (if x.negative then "-" else "") ++ magnitudeText x.nearest

end Decimal

end TypeBridge
