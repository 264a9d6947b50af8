/-!
# Why a computation has no result

Statistics are computed in binary64, and some steps refuse to go on instead
of giving an infinity or a NaN: a whole number that does not fit, a square
that overflows, a sum whose partial sums overflow. `Fault` lists the causes,
and `message` words them.

A fault is an **overflow** if some finite quantity was too large to be
represented. The others are steps that have no meaning for their operands:
infinities of both signs in one sum, a zero divisor, the root of a negative
number, the whole part of NaN, a text with a number that has more digits than
are ever written.
-/

namespace LoadReport

/-- The cause for which a computation was given up. -/
inductive Fault
  | intTooLarge
  | quotientTooLarge
  | squareTooLarge
  | sumTooLarge
  | opposedInfinities
  | zeroDivisor
  | negativeRoot
  | floorOfNan
  | floorOfInfinity
  | tooManyDigits
deriving DecidableEq, Repr

namespace Fault

def message : Fault → String
  | intTooLarge => "int too large to convert to float"
  | quotientTooLarge => "integer division result too large for a float"
  | squareTooLarge => "(34, 'Numerical result out of range')"
  | sumTooLarge => "intermediate overflow in fsum"
  | opposedInfinities => "-inf + inf in fsum"
  | zeroDivisor => "division by zero"
  | negativeRoot => "math domain error"
  | floorOfNan => "cannot convert float NaN to integer"
  | floorOfInfinity => "cannot convert float infinity to integer"
  | tooManyDigits =>
      "Exceeds the limit (4300 digits) for integer string conversion; use " ++
        "sys.set_int_max_str_digits() to increase the limit"

/-- Some quantity was too large to be represented. -/
def isOverflow : Fault → Bool
  | intTooLarge | quotientTooLarge | squareTooLarge | sumTooLarge | floorOfInfinity => true
  | opposedInfinities | zeroDivisor | negativeRoot | floorOfNan | tooManyDigits => false

end Fault
end LoadReport
