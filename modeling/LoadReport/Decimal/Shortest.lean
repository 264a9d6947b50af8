import LoadReport.Decimal.Basic

/-!
# The shortest numeral that reads back

Of all decimal numerals that are read as a given binary64 number, the
shortest is the one with the fewest digits, and among those the one nearest
to the number.

One unit is 5^1074 steps of 10^-1074, so the exact decimal expansion of a
number is a whole number of such steps (`expansion`). For a given count of
digits the number lies between two neighbours on the grid of that many
digits. If any numeral of that many digits reads back, one of these two
does: so trying both for 1, 2, … 17 digits finds the shortest, and 17 digits
always suffice.
-/

namespace LoadReport
namespace Decimal

/-- A magnitude in steps of 10^-1074, exactly. -/
def expansion (units : Nat) : Nat := units * 5 ^ unitExponent

/-- Whether a numeral is read as the given magnitude. -/
def readsBack (units coefficient : Nat) (exponent : Int) : Bool :=
  roundToUnits coefficient exponent == units

/-- The neighbours of a magnitude on a grid: the lower coefficient, the
exponent, twice the distance to the lower one, and the width of the grid. -/
structure Neighbours where
  low : Nat
  exponent : Int
  twiceRest : Nat
  step : Nat

/-- The neighbours of a magnitude on the grid that drops some of the digits
of its expansion. -/
def neighbours (steps dropped : Nat) : Neighbours :=
  { low := steps / 10 ^ dropped
    exponent := (dropped : Int) - unitExponent
    twiceRest := 2 * (steps % 10 ^ dropped)
    step := 10 ^ dropped }

/-- The nearer neighbour is the lower one; a half goes to the even one. -/
def Neighbours.lowIsNearer (n : Neighbours) : Bool :=
  decide (n.twiceRest < n.step) || (n.twiceRest == n.step && n.low % 2 == 0)

/-- The neighbour that passes a test; of two that do, the nearer. -/
def Neighbours.pick? (n : Neighbours) (passes : Nat → Int → Bool) : Option (Nat × Int) :=
  match passes n.low n.exponent, passes (n.low + 1) n.exponent with
  | true, true => some (if n.lowIsNearer then n.low else n.low + 1, n.exponent)
  | true, false => some (n.low, n.exponent)
  | false, true => some (n.low + 1, n.exponent)
  | false, false => none

/-- The largest count of digits that is ever needed. -/
def maxDigits : Nat := 17

/-- The shortest numeral that reads back as a magnitude: its coefficient
and its exponent. The exact expansion stands behind the search as the
numeral that is never shorter. -/
def shortest (units : Nat) : Nat × Int :=
  let steps := expansion units
  let size := digitCount steps
  let found := (List.range' 1 maxDigits).findSome? fun count =>
    (neighbours steps (size - count)).pick? (readsBack units)
  found.getD (steps, -unitExponent)

theorem Neighbours.passes_of_pick? {n : Neighbours} {passes : Nat → Int → Bool} {c : Nat} {e : Int}
    (h : n.pick? passes = some (c, e)) : passes c e = true := by
  unfold pick? at h
  split at h
  all_goals simp only [Option.some.injEq, Prod.mk.injEq, reduceCtorEq] at h
  · obtain ⟨rfl, rfl⟩ := h
    split <;> assumption
  · obtain ⟨rfl, rfl⟩ := h
    assumption
  · obtain ⟨rfl, rfl⟩ := h
    assumption

end Decimal
end LoadReport
