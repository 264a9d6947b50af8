import LoadReport.Proofs.Binary64.Units

/-!
# Roots are finite

A root can be asked for of any number that is not below zero, and a finite
number has a finite one. The root of a number of units is computed from that
many times `unitsPerOne`, which has more digits than any finite number, but
the whole part of a root has half of them (`floorRoot_lt`) and rounding it
adds no more than one digit (`roundRoot_le`). That is far below the limit, so
it is not asked whether rounding a root is monotone.
-/

namespace LoadReport

theorem two_pow_lowestKeptBit_le {n : Nat} (hn : 0 < n) : 2 ^ lowestKeptBit n ≤ n := by
  rcases Nat.eq_zero_or_pos (lowestKeptBit n) with hzero | hpos
  · rwa [hzero, Nat.pow_zero]
  · have hle := two_pow_le_of_lowestKeptBit_pos hpos
    have hgrow : 2 ^ lowestKeptBit n ≤ 2 ^ (lowestKeptBit n + (significantBits - 1)) :=
      Nat.pow_le_pow_right (by decide) (Nat.le_add_right _ _)
    exact Nat.le_trans hgrow hle

theorem roundRoot_le (n : Nat) : roundRoot n ≤ 2 * floorRoot n + 1 := by
  have hkept := Nat.div_mul_le_self (floorRoot n) (2 ^ lowestKeptBit (floorRoot n))
  have hstep : 2 ^ lowestKeptBit (floorRoot n) ≤ floorRoot n + 1 := by
    rcases Nat.eq_zero_or_pos (floorRoot n) with hzero | hpos
    · rw [hzero]
      exact Nat.le_refl 1
    · exact Nat.le_succ_of_le (two_pow_lowestKeptBit_le hpos)
  unfold roundRoot
  dsimp only
  split
  · omega
  · rw [Nat.succ_mul]
    omega

theorem roundRoot_zero : roundRoot 0 = 0 := by
  have hfloor : floorRoot 0 = 0 := by
    rw [floorRoot]
    rfl
  rw [roundRoot, hfloor]
  rfl

/-- The kept digits of a root are not all nought. -/
theorem roundRoot_pos {n : Nat} (h : 0 < n) : 0 < roundRoot n := by
  have hroot : 0 < floorRoot n := by
    rcases Nat.eq_zero_or_pos (floorRoot n) with hzero | hpos
    · have hspec := (floorRoot_spec n).2
      rw [hzero] at hspec
      omega
    · exact hpos
  have hkept : 0 < floorRoot n / 2 ^ lowestKeptBit (floorRoot n) :=
    Nat.div_pos (two_pow_lowestKeptBit_le hroot) (Nat.two_pow_pos _)
  unfold roundRoot
  dsimp only
  split
  · exact Nat.mul_pos hkept (Nat.two_pow_pos _)
  · exact Nat.mul_pos (Nat.succ_pos _) (Nat.two_pow_pos _)

theorem floorRoot_lt {n k : Nat} (h : n < 2 ^ (k + k)) : floorRoot n < 2 ^ k := by
  have hsquare := (floorRoot_spec n).1
  rcases Nat.lt_or_ge (floorRoot n) (2 ^ k) with hlt | hge
  · exact hlt
  · have hle := Nat.mul_le_mul hge hge
    rw [← Nat.pow_add] at hle
    omega

namespace Binary64

variable {x : Binary64}

theorem units?_nonneg {u : Int} (hx : x.units? = some u) (hsign : x.isBelowZero = false) :
    0 ≤ u := by
  cases x with
  | nan => cases hx
  | infinite negative => cases hx
  | finite negative units hr =>
      obtain rfl := Option.some.inj hx
      cases negative with
      | false => exact Int.natCast_nonneg units
      | true =>
          obtain rfl : units = 0 := by simpa [isBelowZero] using hsign
          exact Int.le_refl 0

/-- Half the digits of a finite number of units times `unitsPerOne`. -/
def rootExponent : Nat := 1586

theorem roundRoot_lt_unitsLimit {units : Nat} (h : units < unitsLimit) :
    roundRoot (units * unitsPerOne) < unitsLimit := by
  rw [unitsLimit_eq] at h
  have hdigits : 2 ^ limitExponent * unitsPerOne = 2 ^ (rootExponent + rootExponent) := by
    rw [unitsPerOne_eq, ← Nat.pow_add, show limitExponent + unitExponent
      = rootExponent + rootExponent from rfl]
  have hproduct := Nat.mul_lt_mul_of_pos_right h Number.unitsPerOne_pos
  rw [hdigits] at hproduct
  have hfloor := floorRoot_lt hproduct
  have hround := roundRoot_le (units * unitsPerOne)
  have hlimit : 2 ^ rootExponent * 2 < unitsLimit :=
    Nat.lt_of_le_of_lt (Nat.le_of_eq (Nat.pow_succ 2 rootExponent).symm)
      (two_pow_lt_unitsLimit (by decide))
  generalize 2 ^ rootExponent = bound at hfloor hlimit
  omega

/-- The root of a number of units is rounded from the exact root. -/
theorem exists_root_units {v : Nat} (hx : x.units? = some (v : Int)) :
    ∃ y, x.root = .ok y ∧ y.units? = some ((roundRoot (v * unitsPerOne) : Nat) : Int) := by
  have hsign := isBelowZero_of_units? hx
  refine ⟨x.sqrt, root_eq_ok hsign, ?_⟩
  cases x with
  | nan => cases hx
  | infinite negative => cases hx
  | finite negative units hr =>
      have hv := Option.some.inj hx
      by_cases hzero : units = 0
      · subst hzero
        obtain rfl : v = 0 := by
          cases negative <;> simpa using hv.symm
        rw [Nat.zero_mul, roundRoot_zero]
        exact hx
      · obtain rfl : negative = false := by simpa [isBelowZero, hzero] using hsign
        obtain rfl : units = v := Int.ofNat_inj.mp hv
        rw [sqrt, if_neg hzero, if_neg Bool.false_ne_true,
          ofUnits_of_lt _ (roundRoot_lt_unitsLimit hr.1)]
        rfl

/-- **A finite number that is not below zero has a finite root**, which is not
below zero either. -/
theorem exists_root (hfinite : x.isFinite = true) (hsign : x.isBelowZero = false) :
    ∃ y, x.root = .ok y ∧ y.isFinite = true ∧ y.isBelowZero = false := by
  obtain ⟨u, hu⟩ := exists_units? hfinite
  obtain ⟨v, rfl⟩ := Int.eq_ofNat_of_zero_le (units?_nonneg hu hsign)
  obtain ⟨y, hy, hunits⟩ := exists_root_units hu
  exact ⟨y, hy, isFinite_of_units? hunits, isBelowZero_of_units? hunits⟩

theorem zero_le_of_isBelowZero (hfinite : x.isFinite = true) (hsign : x.isBelowZero = false) :
    (Number.int 0).le (.float x) = true := by
  obtain ⟨u, hu⟩ := exists_units? hfinite
  refine Number.le_iff.mpr ⟨_, _, rfl, position?_of_units? hu, decide_eq_true ?_⟩
  rw [Int.zero_mul]
  exact units?_nonneg hu hsign

end Binary64
end LoadReport
