import LoadReport.Binary64.Basic

/-!
# Binary64 arithmetic

Each operation on finite numbers computes the exact result as a quotient of
whole numbers and rounds it once. Infinities and NaN follow the usual
rules: an operation without a meaningful result gives NaN, and NaN is
passed on.

- **Signs of zero.** An exact sum of zero is positive unless both summands
  are negative zeros. Products and quotients multiply the signs.
- **No operation fails.** Results beyond the largest finite number are
  infinite, and the operations that others would refuse (a zero divisor,
  the root of a negative number) have their floating-point results here.
  Refusing is the business of the checked operations built on these.
-/

namespace LoadReport
namespace Binary64

def neg : Binary64 → Binary64
  | nan => nan
  | infinite negative => infinite (!negative)
  | finite negative units h => finite (!negative) units h

/-- The sum, rounded. -/
def add : Binary64 → Binary64 → Binary64
  | nan, _ => nan
  | _, nan => nan
  | infinite s, infinite t => if s = t then infinite s else nan
  | infinite s, finite .. => infinite s
  | finite .., infinite t => infinite t
  | finite s u _, finite t v _ =>
      let x : Int := if s then -(u : Int) else u
      let y : Int := if t then -(v : Int) else v
      ofSignedUnits (s && t) (x + y)

def sub (x y : Binary64) : Binary64 := add x (neg y)

def mul : Binary64 → Binary64 → Binary64
  | nan, _ => nan
  | _, nan => nan
  | infinite s, infinite t => infinite (s != t)
  | infinite s, finite t v _ => if v = 0 then nan else infinite (s != t)
  | finite s u _, infinite t => if u = 0 then nan else infinite (s != t)
  | finite s u _, finite t v _ => ofUnitQuotient (s != t) (u * v) unitsPerOne

def div : Binary64 → Binary64 → Binary64
  | nan, _ => nan
  | _, nan => nan
  | infinite _, infinite _ => nan
  | infinite s, finite t _ _ => infinite (s != t)
  | finite s _ _, infinite t => zero (s != t)
  | finite s u _, finite t v _ =>
      if v = 0 then
        if u = 0 then nan else infinite (s != t)
      else
        ofUnitQuotient (s != t) (u * unitsPerOne) v

/-- The square root, rounded. A negative number other than zero has none. -/
def sqrt : Binary64 → Binary64
  | nan => nan
  | infinite negative => if negative then nan else infinite false
  | finite negative units h =>
      if units = 0 then finite negative units h
      else if negative then nan
      else ofUnits false (roundRoot (units * unitsPerOne)) (roundRoot_hasMantissa _)

/-! ## Signs of squares

A square is never negative: this is what makes a root of a sum of squares
always defined. -/

/-- Negative, and not merely a negative zero. -/
def isBelowZero : Binary64 → Bool
  | nan => false
  | infinite negative => negative
  | finite negative units _ => negative && decide (units ≠ 0)

theorem isBelowZero_ofUnits_false (units : Nat) (h : HasMantissa units) :
    (ofUnits false units h).isBelowZero = false := by
  unfold ofUnits
  split <;> rfl

theorem isBelowZero_mul_self (x : Binary64) : (mul x x).isBelowZero = false := by
  match x with
  | nan => rfl
  | infinite s => simp [mul, isBelowZero]
  | finite s u h =>
      simp only [mul, bne_self_eq_false]
      exact isBelowZero_ofUnits_false _ _

end Binary64
end LoadReport
