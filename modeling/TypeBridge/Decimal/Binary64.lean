/-!
# TypeBridge — decimals and 64-bit floats

A `Decimal` is a number as it is written, with every digit. `Decimal.nearest`
is the 64-bit float closest to it, the even one of two that are equally close,
computed on natural numbers throughout. Magnitudes only: the sign stays with
the number as written.
-/

namespace TypeBridge

/-- A written number: its digits times a power of ten, with a sign. -/
structure Decimal where
  negative : Bool
  digits : Nat
  exponent : Int
deriving DecidableEq

/-- The magnitude of a 64-bit float. -/
inductive Binary64
  /-- A significand below `2 ^ 53` times a power of two. -/
  | finite (significand : Nat) (exponent : Int)
  | infinite
deriving DecidableEq

/-- A quotient to the nearest natural number, a half to the even one. -/
def divideToNearest (num den : Nat) : Nat :=
  let quotient := num / den
  let twice := 2 * (num % den)
  if twice < den then quotient
  else if den < twice then quotient + 1
  else quotient + quotient % 2

/-- A positive factor times a power of `base`, as a fraction. -/
def scaleFraction (base num den : Nat) (exponent : Int) : Nat × Nat :=
  if 0 ≤ exponent then (num * Nat.pow base exponent.toNat, den)
  else (num, den * Nat.pow base (-exponent).toNat)

namespace Binary64

/-- The exponent of the last place of a positive fraction: fifty-three places
from the first, but never below the last place of the smallest floats. -/
def lastPlace (num den : Nat) : Int :=
  let estimate : Int := (Nat.log2 num : Int) - (Nat.log2 den : Int)
  let (n, d) := scaleFraction 2 num den (-estimate)
  let leading := if d ≤ n then estimate else estimate - 1
  max (leading - 52) (-1074)

/-- The float nearest to a positive fraction. -/
def ofFraction (num den : Nat) : Binary64 :=
  let place := lastPlace num den
  let (n, d) := scaleFraction 2 num den (-place)
  let significand := divideToNearest n d
  let (significand, place) :=
    if significand = Nat.pow 2 53 then (Nat.pow 2 52, place + 1) else (significand, place)
  if 971 < place then infinite else finite significand place

end Binary64

namespace Decimal

/-- The number of digits of a positive number. -/
def digitCount (n : Nat) : Nat :=
  (Nat.toDigits 10 n).length

/-- The float nearest to the magnitude of a number. A magnitude far outside
the range of floats is settled without computing its power of ten. -/
def nearest (x : Decimal) : Binary64 :=
  let magnitude : Int := digitCount x.digits + x.exponent
  if x.digits = 0 ∨ magnitude < -330 then .finite 0 (-1074)
  else if 330 < magnitude then .infinite
  else
    let (num, den) := scaleFraction 10 x.digits 1 x.exponent
    .ofFraction num den

end Decimal

end TypeBridge
