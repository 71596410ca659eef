/-!
# TypeBridge — columns in a limited space

The widths of columns that are too wide together. The widest are narrowed
first, down to the next widest, until all of them fit.
-/

namespace TypeBridge

namespace Text

namespace Narrowed

/-- A quotient to the nearest whole number, a half to the nearest even one. -/
def nearest (n d : Nat) : Nat :=
  let rest := n % d
  if 2 * rest < d ∨ (2 * rest = d ∧ n / d % 2 = 0) then n / d else n / d + 1

/-- Takes an excess in equal parts off the columns of some width, but no more
than a step off each. The count is that of the columns to come. -/
def takeOff (width step : Nat) : (excess count : Nat) → List Nat → List Nat
  | _, _, [] => []
  | excess, count, w :: rest =>
    if w = width then
      let part := min step (nearest excess count)
      (w - part) :: takeOff width step (excess - part) (count - 1) rest
    else w :: takeOff width step excess count rest

/-- The space that columns take. -/
def total : List Nat → Nat
  | [] => 0
  | w :: rest => w + total rest

/-- Narrows the widest columns by one step at most, to the next widest. -/
def narrow (limit : Nat) (widths : List Nat) : List Nat :=
  let excess := total widths - limit
  let widest := widths.foldl max 0
  let next := (widths.filter (· ≠ widest)).foldl max 0
  takeOff widest (min excess (widest - next)) excess (widths.count widest) widths

/-- The narrowed widths within a number of steps. -/
def stepsOf (limit : Nat) : Nat → List Nat → List Nat
  | 0, widths => widths
  | steps + 1, widths =>
    if total widths ≤ limit then widths else stepsOf limit steps (narrow limit widths)

end Narrowed

/-- Column widths that fit into a limit. Every step makes the columns narrower,
so there are no more steps than cells. -/
def narrowed (limit : Nat) (widths : List Nat) : List Nat :=
  Narrowed.stepsOf limit (Narrowed.total widths) (widths.map (min limit))

end Text

end TypeBridge
