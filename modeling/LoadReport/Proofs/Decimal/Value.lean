import Mathlib.Algebra.Order.Field.Basic
import Mathlib.Algebra.Order.Field.Rat
import LoadReport.Decimal.Shortest
import LoadReport.Proofs.Decimal.Magnitude

/-!
# Exact values of numerals

Rounding never needs the exact value of a numeral, and neither does the order of
what is rounded. How near a numeral is to a number does: `toRat` is the exact value
of either, and `offset` the distance of the two where the signs agree
(`abs_toRat_sub`).

Offsets are compared without fractions. One unit is a whole number of steps of
10^-1074, so over any power of ten that is at least as fine, numerals and numbers
are whole numbers, and of two numerals on one side of a number the inner one is
the nearer (`offset_le_offset`, `natAbs_sub_le`).
-/

namespace LoadReport

namespace Decimal

/-! ## Without the sign -/

/-- The exact value of a numeral, without its sign. -/
def value (c : Nat) (e : Int) : ℚ := c * 10 ^ e

/-- How far a numeral is from a magnitude. -/
def offset (units c : Nat) (e : Int) : ℚ := |value c e - units / unitsPerOne|

theorem ten_pow_pos (n : Nat) : (0 : ℚ) < 10 ^ n := pow_pos (by decide) n

theorem value_eq {c a b : Nat} {e : Int} (h : e = (a : Int) - b) :
    value c e = ((c * 10 ^ a : Nat) : ℚ) / 10 ^ b := by
  have hten : (10 : ℚ) ≠ 0 := by decide
  rw [value, h, zpow_sub₀ hten, zpow_natCast, zpow_natCast, ← mul_div_assoc, Nat.cast_mul,
    Nat.cast_pow, Nat.cast_ofNat]

theorem value_mul_pow (c k : Nat) (e : Int) : value (c * 10 ^ k) e = value c (e + k) := by
  obtain ⟨a, b, he, -⟩ := exists_difference e 0
  have hk : e + k = ((k + a : Nat) : Int) - b := by omega
  rw [value_eq he, value_eq hk, Nat.mul_assoc c, ← Nat.pow_add]

theorem offset_mul_pow (units c k : Nat) (e : Int) :
    offset units (c * 10 ^ k) e = offset units c (e + k) := by
  rw [offset, value_mul_pow, offset]

theorem offset_zero (e : Int) : offset 0 0 e = 0 := by
  rw [offset, value, Nat.cast_zero, zero_mul, zero_div, sub_zero, abs_zero]

theorem ten_pow_unitExponent : 10 ^ unitExponent = 5 ^ unitExponent * unitsPerOne := by
  rw [unitsPerOne_eq, ← Nat.mul_pow]

variable {units : Nat}

theorem div_unitsPerOne_eq (units k : Nat) :
    (units : ℚ) / unitsPerOne
      = ((expansion units * 10 ^ k : Nat) : ℚ) / 10 ^ (unitExponent + k) := by
  have hten : ((10 ^ unitExponent : Nat) : ℚ) = ((5 ^ unitExponent * unitsPerOne : Nat) : ℚ) :=
    congrArg Nat.cast ten_pow_unitExponent
  have hfive : ((5 ^ unitExponent : Nat) : ℚ) ≠ 0 :=
    Nat.cast_ne_zero.mpr (Nat.ne_of_gt (Nat.pow_pos (by decide)))
  have hscale : (10 : ℚ) ^ k ≠ 0 := ne_of_gt (ten_pow_pos k)
  rw [Nat.cast_mul] at hten
  rw [Nat.cast_pow, Nat.cast_ofNat] at hten
  rw [expansion, Nat.cast_mul, Nat.cast_mul, Nat.cast_pow 10 k, Nat.cast_ofNat, pow_add, hten,
    mul_div_mul_right _ _ hscale, mul_comm, mul_div_mul_left _ _ hfive]

/-- Over a power of ten that is fine enough, offsets are whole numbers. -/
theorem offset_eq {c a k : Nat} {e : Int} (h : e = (a : Int) - (unitExponent + k : Nat)) :
    offset units c e
      = ((((c * 10 ^ a : Nat) - (expansion units * 10 ^ k : Nat) : Int).natAbs : Nat) : ℚ)
        / 10 ^ (unitExponent + k) := by
  rw [offset, value_eq h, div_unitsPerOne_eq units k, ← sub_div, abs_div,
    abs_of_pos (ten_pow_pos (unitExponent + k)), Nat.cast_natAbs]
  push_cast
  rfl

/-- What lies between is nearer. -/
theorem natAbs_sub_le {m n target : Nat} (h : (m ≤ n ∧ n ≤ target) ∨ (target ≤ n ∧ n ≤ m)) :
    ((n : Int) - target).natAbs ≤ ((m : Int) - target).natAbs := by
  omega

theorem offset_le_offset {c c' a a' k : Nat} {e e' : Int}
    (h : e = (a : Int) - (unitExponent + k : Nat)) (h' : e' = (a' : Int) - (unitExponent + k : Nat))
    (hle : ((c * 10 ^ a : Nat) - (expansion units * 10 ^ k : Nat) : Int).natAbs
      ≤ ((c' * 10 ^ a' : Nat) - (expansion units * 10 ^ k : Nat) : Int).natAbs) :
    offset units c e ≤ offset units c' e' := by
  rw [offset_eq h, offset_eq h']
  exact div_le_div_of_nonneg_right (Nat.cast_le.mpr hle) (le_of_lt (ten_pow_pos _))

theorem offset_expansion (units : Nat) : offset units (expansion units) (-unitExponent) = 0 := by
  have hexponent : (-unitExponent : Int) = ((0 : Nat) : Int) - (unitExponent + 0 : Nat) := by
    rw [Int.natCast_zero, Int.zero_sub, Nat.add_zero]
  rw [offset_eq hexponent, Int.sub_self, Int.natAbs_zero, Nat.cast_zero, zero_div]

/-! ## With the sign -/

/-- The exact value. -/
def toRat (d : Decimal) : ℚ :=
  (if d.negative then -1 else 1) * value d.coefficient d.exponent

end Decimal

/-- The exact value of a finite number. -/
def Binary64.toRat (x : Binary64) : ℚ := ((x.units?.getD 0 : Int) : ℚ) / unitsPerOne

theorem Decimal.abs_toRat_sub (negative : Bool) (c : Nat) (e : Int) {units : Nat}
    (h : Representable units) :
    |Decimal.toRat ⟨negative, c, e⟩ - (Binary64.finite negative units h).toRat|
      = offset units c e := by
  unfold Decimal.toRat Binary64.toRat Binary64.units? offset
  cases negative with
  | false => simp
  | true =>
      simp only [if_true, neg_one_mul, Option.getD_some, Int.cast_neg, Int.cast_natCast, neg_div]
      rw [← abs_neg, neg_sub, neg_sub_neg]

end LoadReport
