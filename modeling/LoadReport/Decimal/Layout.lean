/-!
# Laying out the digits of a number

The digits of a number and the place of its decimal point are known; what
is left to decide is how they are written. These decisions are the fields
of a `Layout`: for which orders of magnitude the number is written out with
a point, and how many digits an exponent has at least.

A number that is written out always shows its point, with a zero where no
digit stands beside it. A number in scientific notation has its point after
the first digit, and none if there is only one digit; its exponent always
has a sign.
-/

namespace LoadReport
namespace Decimal

/-- How digits are arranged on the line. -/
structure Layout where
  /-- The smallest order of magnitude that is written out. -/
  writtenOutFrom : Int
  /-- The first order of magnitude that is no longer written out. -/
  writtenOutBelow : Int
  /-- Exponents are padded with zeros to this many digits. -/
  exponentDigits : Nat

def padZeros (width : Nat) (digits : List Char) : List Char :=
  List.replicate (width - digits.length) '0' ++ digits

/-- A number written out: `point` digits stand before the point. -/
def writeOut (digits : List Char) (point : Int) : List Char :=
  match point with
  | .negSucc k => '0' :: '.' :: (List.replicate (k + 1) '0' ++ digits)
  | .ofNat 0 => '0' :: '.' :: digits
  | .ofNat p =>
      if digits.length ≤ p then
        digits ++ List.replicate (p - digits.length) '0' ++ ['.', '0']
      else
        digits.take p ++ '.' :: digits.drop p

/-- The exponent part, with its sign. -/
def writeExponent (layout : Layout) (e : Int) : List Char :=
  'e' :: (if e < 0 then '-' else '+')
    :: padZeros layout.exponentDigits (Nat.toDigits 10 e.natAbs)

def writeScientific (layout : Layout) (digits : List Char) (e : Int) : List Char :=
  (match digits with
    | [] => []
    | [d] => [d]
    | d :: rest => d :: '.' :: rest)
    ++ writeExponent layout e

/-- Writes the number `0.digits · 10 ^ point`. -/
def Layout.write (layout : Layout) (digits : List Char) (point : Int) : List Char :=
  let order := point - 1
  if layout.writtenOutFrom ≤ order ∧ order < layout.writtenOutBelow then
    writeOut digits point
  else
    writeScientific layout digits order

end Decimal
end LoadReport
