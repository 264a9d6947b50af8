import LoadReport.Decimal.Basic
import LoadReport.Proofs.Binary64.Spacing

/-!
# What a numeral is rounded to

A numeral is a whole number of units, rounded, and only its value counts:

- a power of ten may stand in the coefficient or in the exponent
  (`roundToUnits_mul_pow`);
- a larger value is not rounded to fewer units (`roundToUnits_le_of_le`).

The order of magnitude is looked at first when a numeral is read, so that no
large power is computed. `toBinary64_eq` says that this decides nothing: what is
cut off above is too large for any binary64 number, and what is cut off below is
less than half of the smallest.
-/

namespace LoadReport
namespace Decimal

/-! ## Counting digits -/

theorem digitCount_pos (n : Nat) : 0 < digitCount n := Nat.length_toDigits_pos

theorem digitCount_le_iff {n k : Nat} (hk : 0 < k) : digitCount n ≤ k ↔ n < 10 ^ k :=
  Nat.length_toDigits_le_iff (by decide) hk

theorem lt_pow_digitCount (n : Nat) : n < 10 ^ digitCount n :=
  (digitCount_le_iff (digitCount_pos n)).mp (Nat.le_refl _)

theorem pow_le_of_lt_digitCount {n k : Nat} (hn : 0 < n) (h : k < digitCount n) : 10 ^ k ≤ n := by
  rcases Nat.eq_zero_or_pos k with rfl | hk
  · exact hn
  · exact Nat.le_of_not_lt fun hlt => Nat.not_le_of_lt h ((digitCount_le_iff hk).mpr hlt)

/-! ## Rounding a value -/

theorem roundToUnits_eq {c a b : Nat} {e : Int} (h : e = (a : Int) - b) :
    roundToUnits c e = roundQuotient (c * 10 ^ a * unitsPerOne) (10 ^ b) := by
  cases e with
  | ofNat n =>
      obtain rfl : a = n + b := by
        have hn : Int.ofNat n = (n : Int) := rfl
        omega
      have hscaled : c * 10 ^ (n + b) * unitsPerOne = c * 10 ^ n * unitsPerOne * 10 ^ b := by
        rw [Nat.pow_add, ← Nat.mul_assoc, Nat.mul_right_comm]
      have hround := roundQuotient_mul_right (c * 10 ^ n * unitsPerOne) 1
        (k := 10 ^ b) (Nat.pow_pos (by decide))
      rw [hscaled, roundToUnits, ← hround, Nat.one_mul]
  | negSucc n =>
      obtain rfl : b = a + (n + 1) := by omega
      have hscaled : c * 10 ^ a * unitsPerOne = c * unitsPerOne * 10 ^ a := Nat.mul_right_comm _ _ _
      have hround := roundQuotient_mul_right (c * unitsPerOne) (10 ^ (n + 1))
        (k := 10 ^ a) (Nat.pow_pos (by decide))
      rw [hscaled, roundToUnits, ← hround, Nat.add_comm a, Nat.pow_add 10 (n + 1)]

/-- Every exponent is a difference of natural numbers with a large enough second one. -/
theorem exists_difference (e : Int) (least : Nat) :
    ∃ a b : Nat, e = (a : Int) - b ∧ least ≤ b :=
  ⟨(e + (least + e.natAbs : Nat)).toNat, least + e.natAbs, by omega, Nat.le_add_right _ _⟩

/-- A power of ten may stand in the coefficient or in the exponent. -/
theorem roundToUnits_mul_pow (c k : Nat) (e : Int) :
    roundToUnits (c * 10 ^ k) e = roundToUnits c (e + k) := by
  obtain ⟨a, b, he, -⟩ := exists_difference e 0
  have hk : e + k = ((k + a : Nat) : Int) - b := by omega
  rw [roundToUnits_eq he, roundToUnits_eq hk, Nat.mul_assoc c, ← Nat.pow_add]

theorem roundToUnits_le_of_le {c c' a a' b : Nat} {e e' : Int} (he : e = (a : Int) - b)
    (he' : e' = (a' : Int) - b) (h : c * 10 ^ a ≤ c' * 10 ^ a') :
    roundToUnits c e ≤ roundToUnits c' e' := by
  rw [roundToUnits_eq he, roundToUnits_eq he']
  exact roundQuotient_le_of_le (Nat.pow_pos (by decide)) (Nat.mul_le_mul_right _ h)

theorem roundToUnits_zero (e : Int) : roundToUnits 0 e = 0 := by
  obtain ⟨a, b, he, -⟩ := exists_difference e 0
  rw [roundToUnits_eq he, Nat.zero_mul, Nat.zero_mul]
  exact roundQuotient_zero (Nat.pow_pos (by decide))

/-! ## Values out of range -/

theorem unitsLimit_le_roundToUnits {c : Nat} {e : Int} (hc : 0 < c)
    (h : 400 < (digitCount c : Int) + e) : unitsLimit ≤ roundToUnits c e := by
  have hlimit : unitsLimit ≤ roundToUnits 1 400 := by
    rw [unitsLimit_eq, roundToUnits_eq (a := 400) (b := 0) (by decide), unitsPerOne_eq]
    refine le_roundQuotient (Nat.pow_pos (by decide)) (hasMantissa_two_pow _) ?_
    decide +kernel
  refine Nat.le_trans hlimit ?_
  obtain ⟨a, b, he, hb⟩ := exists_difference e 0
  have hdigits := digitCount_pos c
  have hexp : 400 + b ≤ digitCount c - 1 + a := by omega
  have hone : (400 : Int) = ((400 + b : Nat) : Int) - b := by omega
  refine roundToUnits_le_of_le hone he ?_
  calc 1 * 10 ^ (400 + b) ≤ 10 ^ (digitCount c - 1 + a) := by
        rw [Nat.one_mul]
        exact Nat.pow_le_pow_right (by decide) hexp
    _ = 10 ^ (digitCount c - 1) * 10 ^ a := Nat.pow_add _ _ _
    _ ≤ c * 10 ^ a := Nat.mul_le_mul_right _ (pow_le_of_lt_digitCount hc (by omega))

theorem roundToUnits_eq_zero {c : Nat} {e : Int} (h : (digitCount c : Int) + e < -400) :
    roundToUnits c e = 0 := by
  have hzero : roundToUnits 1 (-401) = 0 := by
    rw [roundToUnits_eq (a := 0) (b := 401) (by decide), unitsPerOne_eq]
    refine roundQuotient_eq_zero ?_
    decide +kernel
  refine Nat.le_zero.mp (hzero ▸ ?_)
  obtain ⟨a, b, he, hb⟩ := exists_difference e 401
  have hone : (-401 : Int) = ((b - 401 : Nat) : Int) - b := by omega
  refine roundToUnits_le_of_le he hone ?_
  calc c * 10 ^ a ≤ 10 ^ digitCount c * 10 ^ a :=
        Nat.mul_le_mul_right _ (Nat.le_of_lt (lt_pow_digitCount c))
    _ = 10 ^ (digitCount c + a) := (Nat.pow_add _ _ _).symm
    _ ≤ 1 * 10 ^ (b - 401) := by
        rw [Nat.one_mul]
        exact Nat.pow_le_pow_right (by decide) (by omega)

/-! ## Reading -/

/-- **Reading rounds the value.** Looking at the order of magnitude first decides
nothing. -/
theorem toBinary64_eq (d : Decimal) :
    d.toBinary64 = .ofUnits d.negative (roundToUnits d.coefficient d.exponent)
      (roundToUnits_hasMantissa _ _) := by
  have hzero : ∀ {n : Nat} (h : HasMantissa n), n = 0 →
      Binary64.zero d.negative = .ofUnits d.negative n h := by
    rintro n h rfl
    rw [Binary64.ofUnits_of_lt h unitsLimit_pos]
    rfl
  unfold toBinary64
  dsimp only
  split
  · next hlow =>
      refine hzero _ ?_
      rcases hlow with hcoefficient | hmagnitude
      · rw [hcoefficient, roundToUnits_zero]
      · exact roundToUnits_eq_zero hmagnitude
  · next hlow =>
      split
      · next hhigh =>
          have hpos : 0 < d.coefficient := Nat.pos_of_ne_zero fun h => hlow (Or.inl h)
          exact (Binary64.ofUnits_of_le _ (unitsLimit_le_roundToUnits hpos hhigh)).symm
      · rfl

theorem toBinary64_mul_pow (negative : Bool) (c k : Nat) (e : Int) :
    toBinary64 ⟨negative, c * 10 ^ k, e⟩ = toBinary64 ⟨negative, c, e + k⟩ := by
  simp only [toBinary64_eq, roundToUnits_mul_pow]

theorem toBinary64_of_roundToUnits {d : Decimal} {units : Nat} (h : Representable units)
    (hround : roundToUnits d.coefficient d.exponent = units) :
    d.toBinary64 = .finite d.negative units h := by
  subst hround
  rw [toBinary64_eq, Binary64.ofUnits_of_lt _ h.1]

theorem roundToUnits_of_toBinary64 {d : Decimal} {negative : Bool} {units : Nat}
    {h : Representable units} (hread : d.toBinary64 = .finite negative units h) :
    d.negative = negative ∧ roundToUnits d.coefficient d.exponent = units := by
  rw [toBinary64_eq, Binary64.ofUnits] at hread
  split at hread
  · exact Binary64.finite.inj hread
  · cases hread

end Decimal
end LoadReport
