import LoadReport.Decimal.Layout
import LoadReport.Decimal.Shortest
import LoadReport.Number.Basic

/-!
# The written form of numbers

Whole numbers are written in plain digits. Binary64 numbers are written
with the fewest digits that read back, between 10^-4 and 10^16 with a point
and at least one digit after it, otherwise in scientific notation with an
exponent of at least two digits. So the written form tells the two kinds
apart, and `read?` takes each back to what it was.

Whole numbers have no bound, but texts that are put together for somebody to
read have: where a number with more than `digitLimit` digits would stand in one,
there is no text.
-/

namespace LoadReport

/-- The most digits of a whole number in a text. -/
def digitLimit : Nat := 4300

namespace Binary64

/-- Numbers from 10^-4 up to 10^16 are written out, and exponents have at
least two digits. -/
def layout : Decimal.Layout :=
  { writtenOutFrom := -4, writtenOutBelow := 16, exponentDigits := 2 }

/-- Drops the zeros at the end of a list of digits. -/
def stripZeros (digits : List Char) : List Char :=
  (digits.reverse.dropWhile (· = '0')).reverse

/-- The written form of a magnitude in units. -/
def writeMagnitude (units : Nat) : List Char :=
  if units = 0 then layout.write ['0'] 1
  else
    let (coefficient, exponent) := Decimal.shortest units
    let digits := Nat.toDigits 10 coefficient
    layout.write (stripZeros digits) (digits.length + exponent)

/-- The written form, as characters. -/
def write : Binary64 → List Char
  | nan => ['n', 'a', 'n']
  | infinite negative => (if negative then ['-'] else []) ++ ['i', 'n', 'f']
  | finite negative units _ => (if negative then ['-'] else []) ++ writeMagnitude units

def text (x : Binary64) : String := String.ofList x.write

/-- Reads a numeral, or one of the words for the numbers that have none. -/
def read? (text : List Char) : Option Binary64 :=
  let (negative, rest) := Decimal.splitSign text
  if rest = ['n', 'a', 'n'] then some nan
  else if rest = ['i', 'n', 'f'] then some (infinite negative)
  else (Decimal.read? text).map Decimal.toBinary64

end Binary64

namespace Number

/-- A whole number in digits, with a minus sign if it is negative. -/
def writeInt (n : Int) : List Char :=
  (if n < 0 then ['-'] else []) ++ Nat.toDigits 10 n.natAbs

/-- Reads a whole number; only a minus sign may stand before the digits. -/
def readInt? : List Char → Option Int
  | '-' :: digits => (Decimal.readNat? digits).map fun n => -(n : Int)
  | digits => (Decimal.readNat? digits).map fun n => (n : Int)

def write : Number → List Char
  | int n => writeInt n
  | float x => x.write

def text (a : Number) : String := String.ofList a.write

/-- Whether a number may stand in a text. Only whole numbers can have too many
digits. -/
def isWritable : Number → Bool
  | int n => decide (n.natAbs < 10 ^ digitLimit)
  | float _ => true

/-- Reads a number. Digits alone make a whole number, and everything else a
binary64 number. -/
def read? (text : List Char) : Option Number :=
  match readInt? text with
  | some n => some (int n)
  | none => (Binary64.read? text).map float

end Number
end LoadReport
