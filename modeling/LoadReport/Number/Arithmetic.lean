import LoadReport.Binary64.Arithmetic
import LoadReport.Fault
import LoadReport.Number.Basic

/-!
# Checked arithmetic

The operations that statistics are made of, with the operands for which
they are refused:

- a whole number takes part in binary64 arithmetic only if it fits
  (`fitInt`);
- the quotient of two whole numbers is the exact quotient rounded once,
  refused if it does not fit (`quotient`);
- the square of a finite number is refused if it overflows (`square`);
- division by zero, the root of a negative number and the whole part of a
  number that is not finite are refused (`overCount`, `root`, `floor`).

Sums, differences and products of binary64 numbers are never refused.
-/

namespace LoadReport

namespace Binary64

/-- The nearest binary64 number to a whole number, if it is finite. -/
def fitInt (n : Int) : Except Fault Binary64 :=
  let x := ofInt n
  if x.isFinite then .ok x else .error .intTooLarge

/-- The exact quotient of two whole numbers, rounded once. -/
def quotient (m n : Int) : Except Fault Binary64 :=
  if n = 0 then .error .zeroDivisor
  else
    let x := ofRatio (decide (m < 0) != decide (n < 0)) m.natAbs n.natAbs
    if x.isFinite then .ok x else .error .quotientTooLarge

/-- The square, which is the product with itself and so rounded once. A power function
that takes any exponent may differ from it in the last place. Infinities and NaN square
without complaint. -/
def square (x : Binary64) : Except Fault Binary64 :=
  let y := mul x x
  if x.isFinite && !y.isFinite then .error .squareTooLarge else .ok y

/-- Division by a whole number, which is converted first. -/
def overCount (x : Binary64) (n : Int) : Except Fault Binary64 := do
  let divisor ← fitInt n
  if n = 0 then .error .zeroDivisor else .ok (div x divisor)

def root (x : Binary64) : Except Fault Binary64 :=
  if x.isBelowZero then .error .negativeRoot else .ok (sqrt x)

/-- The whole part toward minus infinity. -/
def floor (x : Binary64) : Except Fault Int :=
  match x.floor? with
  | some n => .ok n
  | none => .error (if x.isNan then .floorOfNan else .floorOfInfinity)

end Binary64

namespace Number

/-- The number in binary64; only whole numbers can fail to fit. -/
def toBinary64 : Number → Except Fault Binary64
  | int n => Binary64.fitInt n
  | float x => .ok x

/-- The product with a whole number, in binary64. Whole numbers are
multiplied exactly and converted afterwards. -/
def times (a : Number) (n : Int) : Except Fault Binary64 :=
  match a with
  | int m => Binary64.fitInt (m * n)
  | float x => (Binary64.fitInt n).map fun y => Binary64.mul x y

/-- The difference to a binary64 number. -/
def minus (a : Number) (x : Binary64) : Except Fault Binary64 :=
  a.toBinary64.map fun y => Binary64.sub y x

end Number
end LoadReport
