import LoadReport.Binary64.Basic

/-!
# Decimal numerals

A decimal numeral is a coefficient and a power of ten, with a sign. Two
things are said about it here:

- `toBinary64`, the nearest binary64 number, from the exact quotient;
- `read?`, the written form: digits, an optional fraction, an optional
  exponent, each part with at least one digit where it must have one.

Exponents in written numerals are unbounded, so `toBinary64` looks at the
order of magnitude first: from 10^400 on the result is infinite and below
10^-400 it is zero, in both cases without computing the power.
-/

namespace LoadReport

/-- The number `±coefficient · 10 ^ exponent`. -/
structure Decimal where
  negative : Bool
  coefficient : Nat
  exponent : Int
deriving DecidableEq, Repr

namespace Decimal

def digitCount (n : Nat) : Nat := (Nat.toDigits 10 n).length

/-- The nearest magnitude in units, with no upper limit. -/
def roundToUnits (coefficient : Nat) (exponent : Int) : Nat :=
  match exponent with
  | .ofNat e => roundQuotient (coefficient * 10 ^ e * unitsPerOne) 1
  | .negSucc e => roundQuotient (coefficient * unitsPerOne) (10 ^ (e + 1))

theorem roundToUnits_hasMantissa (coefficient : Nat) (exponent : Int) :
    HasMantissa (roundToUnits coefficient exponent) := by
  cases exponent <;> exact roundQuotient_hasMantissa _ _

/-- The nearest binary64 number. -/
def toBinary64 (d : Decimal) : Binary64 :=
  let magnitude : Int := digitCount d.coefficient + d.exponent
  if d.coefficient = 0 ∨ magnitude < -400 then .zero d.negative
  else if 400 < magnitude then .infinite d.negative
  else .ofUnits d.negative (roundToUnits d.coefficient d.exponent) (roundToUnits_hasMantissa _ _)

/-! ## Reading -/

/-- Splits off a sign; no sign means positive. -/
def splitSign : List Char → Bool × List Char
  | '-' :: rest => (true, rest)
  | '+' :: rest => (false, rest)
  | rest => (false, rest)

/-- A whole number in digits alone. -/
def readNat? (digits : List Char) : Option Nat :=
  if digits.isEmpty || !digits.all Char.isDigit then none
  else some (Nat.ofDigitChars 10 digits 0)

/-- The exponent part: nothing, or the letter e with a signed whole number. -/
def readExponent? : List Char → Option Int
  | [] => some 0
  | c :: rest =>
      if c = 'e' ∨ c = 'E' then
        let (negative, digits) := splitSign rest
        (readNat? digits).map fun n => if negative then -(n : Int) else n
      else none

/-- Splits off a fraction, which starts with a point. -/
def splitFraction : List Char → List Char × List Char
  | '.' :: rest => (rest.takeWhile Char.isDigit, rest.dropWhile Char.isDigit)
  | rest => ([], rest)

/-- Reads a numeral. At least one digit stands before or after the point. -/
def read? (text : List Char) : Option Decimal :=
  let (negative, text) := splitSign text
  let whole := text.takeWhile Char.isDigit
  let (fraction, rest) := splitFraction (text.dropWhile Char.isDigit)
  if whole.isEmpty && fraction.isEmpty then none
  else
    (readExponent? rest).map fun e =>
      { negative
        coefficient := Nat.ofDigitChars 10 (whole ++ fraction) 0
        exponent := e - fraction.length }

theorem readNat?_toDigits (n : Nat) : readNat? (Nat.toDigits 10 n) = some n := by
  have hall : (Nat.toDigits 10 n).all Char.isDigit = true :=
    List.all_eq_true.mpr fun c hc => Nat.isDigit_of_mem_toDigits (by decide) (by decide) hc
  have hne : (Nat.toDigits 10 n).isEmpty = false := by
    simp [Nat.toDigits_ne_nil]
  simp [readNat?, hall, hne, Nat.ofDigitChars_ten_toDigits]

end Decimal
end LoadReport
