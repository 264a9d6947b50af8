import LoadReport.Format.Specification
import LoadReport.Number.Text
import LoadReport.Rounding

/-!
# Whole numbers under a specification

The code of a specification says how a whole number is written:

* `d` and `n` in decimal digits, `b`, `o`, `x` and `X` in other bases, with a
  marker of the base in front if the alternate form is asked for;
* `c` as the character that has the number;
* `f` and `F` with a point, `e` and `E` in scientific notation, `g` and `G` in
  the shorter one of these, `%` in percent. The precision says how many digits
  follow the point, or with `g` how many there are in all.

A numeral has digits that a separator divides into groups, a **marker** in
front of them and a **rest** behind them. Filling with zeros between sign and
digits makes more digits, which are divided into groups like the others.
-/

namespace LoadReport
namespace Format

/-- A numeral in parts. -/
structure Numeral where
  negative : Bool
  marker : List Char := []
  digits : List Char
  rest : List Char := []
deriving DecidableEq, Repr

/-! ## Layout -/

/-- The sign of a numeral, which is always shown if a specification says how
positive numbers are marked. -/
def signOf (s : Specification) (negative : Bool) : List Char :=
  if negative then ['-']
  else if s.sign = some '+' then ['+']
  else if s.sign = some ' ' then [' ']
  else []

def groupSize (code : Char) : Nat := if "boxX".toList.contains code then 4 else 3

/-- Puts a separator between groups, given the digits from the last one on;
`count` digits are in the group so far. -/
def separate (separator : Char) (size count : Nat) : List Char → List Char
  | [] => []
  | c :: rest =>
      if count = size then separator :: c :: separate separator size 1 rest
      else c :: separate separator size (count + 1) rest

/-- Divides digits into groups. -/
def group (s : Specification) (digits : List Char) : List Char :=
  match s.separator with
  | none => digits
  | some separator => (separate separator (groupSize s.code) 0 digits.reverse).reverse

/-- How many digits fill a width, separators included. -/
def digitsFor (s : Specification) (width : Nat) : Nat :=
  if s.separator.isSome then width - (width - 1) / (groupSize s.code + 1) else width

def Specification.layOut (s : Specification) (n : Numeral) : List Char :=
  let sign := signOf s n.negative
  let taken := sign.length + n.marker.length + n.rest.length
  let zeros :=
    if s.fill = '0' ∧ s.alignment = .split ∧ !n.digits.isEmpty then
      digitsFor s (s.width - taken) - n.digits.length
    else 0
  let digits := group s (List.replicate zeros '0' ++ n.digits)
  if s.alignment = .split then
    let filling := List.replicate (s.width - (taken + digits.length)) s.fill
    sign ++ n.marker ++ filling ++ digits ++ n.rest
  else
    s.pad (sign ++ n.marker ++ digits ++ n.rest)

/-! ## Bases and characters -/

/-- The base of a code, and the marker of the base. -/
def baseOf (code : Char) : Nat × List Char :=
  if code = 'b' then (2, ['0', 'b'])
  else if code = 'o' then (8, ['0', 'o'])
  else if code = 'x' then (16, ['0', 'x'])
  else if code = 'X' then (16, ['0', 'X'])
  else (10, [])

def inBase (s : Specification) (n : Int) : Numeral :=
  let (base, marker) := baseOf s.code
  let digits := Nat.toDigits base n.natAbs
  { negative := decide (n < 0)
    marker := if s.alternate then marker else []
    digits := if s.code = 'X' then digits.map Char.toUpper else digits }

/-- The character that has a number. -/
def character (s : Specification) (n : Int) : Except Fault Numeral :=
  if s.sign.isSome then .error .signOfCharacter
  else if s.alternate then .error .alternateCharacter
  else if n < 0 ∨ 0x10ffff < n then .error .noCharacter
  else .ok { negative := false, digits := [], rest := [Char.ofNat n.toNat] }

/-! ## Points and exponents -/

/-- Drops the zeros at the end of digits behind a point. -/
def dropZeros (digits : List Char) : List Char := (digits.reverse.dropWhile (· = '0')).reverse

/-- Digits behind a point; without digits the point is left out unless the
alternate form is asked for. -/
def fraction (alternate : Bool) (digits : List Char) : List Char :=
  if digits.isEmpty && !alternate then [] else '.' :: digits

/-- The first digits of a number, rounded to a count above zero and filled up
with zeros, and the exponent of the first one. -/
def significant (count n : Nat) : List Char × Nat :=
  let digits := Nat.toDigits 10 n
  if digits.length ≤ count then
    (digits ++ List.replicate (count - digits.length) '0', digits.length - 1)
  else
    let rounded := Nat.toDigits 10 (divNearest n (10 ^ (digits.length - count)))
    (rounded.take count, digits.length - 1 + (rounded.length - count))

/-- An exponent that is not negative, with at least two digits. -/
def exponent (letter : Char) (n : Nat) : List Char :=
  let digits := Nat.toDigits 10 n
  letter :: '+' :: (List.replicate (2 - digits.length) '0' ++ digits)

/-- A number in scientific notation, from its significant digits. -/
def scientific (alternate : Bool) (letter : Char) (digits : List Char) (power : Nat) :
    List Char × List Char :=
  (digits.take 1, fraction alternate (digits.drop 1) ++ exponent letter power)

/-- The digits before the point, and what follows them. -/
def withPoint (s : Specification) (precision n : Nat) : List Char × List Char :=
  if s.code = 'e' ∨ s.code = 'E' then
    let (digits, power) := significant (precision + 1) n
    scientific s.alternate s.code digits power
  else if s.code = 'g' ∨ s.code = 'G' then
    let count := max precision 1
    let (digits, power) := significant count n
    let shorten (digits : List Char) := if s.alternate then digits else dropZeros digits
    if power < count then
      (digits.take (power + 1), fraction s.alternate (shorten (digits.drop (power + 1))))
    else
      let letter := if s.code = 'g' then 'e' else 'E'
      scientific s.alternate letter (digits.take 1 ++ shorten (digits.drop 1)) power
  else
    let zeros := fraction s.alternate (List.replicate precision '0')
    if s.code = '%' then (Nat.toDigits 10 (n * 100), zeros ++ ['%'])
    else (Nat.toDigits 10 n, zeros)

def defaultPrecision : Nat := 6

/-- A number with a point or an exponent. -/
def pointed (s : Specification) (n : Int) : Except Fault Numeral :=
  let precision := s.precision.getD defaultPrecision
  if 2 ^ 31 ≤ precision then .error .precisionTooLarge
  else if maxLength < precision then .error .tooLong
  else
    let (digits, rest) := withPoint s precision n.natAbs
    .ok { negative := decide (n < 0), digits, rest }

/-! ## Writing -/

/-- The numeral that a specification asks for. -/
def numeral (s : Specification) (n : Int) : Except Fault Numeral :=
  if "bcdoxXn".toList.contains s.code then
    if s.precision.isSome then .error .precisionOfWhole
    else if s.negativeZero then .error .negativeZeroOfWhole
    else if s.code = 'c' then character s n
    else .ok (inBase s n)
  else if "eEfFgG%".toList.contains s.code then pointed s n
  else .error (.unknownCode s.code .whole)

def writeWhole (n : Int) (specification : List Char) : Except Fault (List Char) :=
  if specification.isEmpty then .ok (Number.writeInt n)
  else do
    let s ← Specification.read .whole specification
    let numeral ← numeral s n
    if maxLength < s.width then .error .tooLong
    else .ok (s.layOut numeral)

end Format
end LoadReport
