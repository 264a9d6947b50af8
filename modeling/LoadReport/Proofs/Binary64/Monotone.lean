import LoadReport.Binary64.ExactSum
import LoadReport.Proofs.Binary64.Nearest

/-!
# Rounding keeps the order

Rounding to nearest is monotone. If it were not, two quotients would lie on
the far sides of the midpoint of their results, so they would be equal
(`roundQuotient_le_of_le`); and one quotient has one rounding, whatever terms
it is written in (`roundQuotient_mul_right`).

Bounds come from rounding the bound as well. A number of at most 53 bits
rounds to itself, so what is at most it before rounding is at most it
afterwards (`roundQuotient_le`).

`roundRatio` is the same rounding with a sign, on the units of a number
instead of a magnitude. Every operation on finite numbers is this function of
an exact quotient, which is why it is given the same few laws again.
-/

namespace LoadReport

/-! ## Quotients -/

theorem divNearest_mul_right (num den : Nat) {k : Nat} (hk : 0 < k) :
    divNearest (num * k) (den * k) = divNearest num den := by
  unfold divNearest
  dsimp only
  rw [Nat.mul_div_mul_right _ _ hk, Nat.mul_mod_mul_right, ← Nat.mul_assoc]
  have hlt : 2 * (num % den) * k < den * k ↔ 2 * (num % den) < den := Nat.mul_lt_mul_right hk
  have heq : 2 * (num % den) * k = den * k ↔ 2 * (num % den) = den :=
    Nat.mul_right_cancel_iff hk
  simp only [hlt, heq]

/-- A quotient has one rounding, whatever terms it is written in. -/
theorem roundQuotient_mul_right (num den : Nat) {k : Nat} (hk : 0 < k) :
    roundQuotient (num * k) (den * k) = roundQuotient num den := by
  rw [roundQuotient_eq, roundQuotient_eq, Nat.mul_div_mul_right _ _ hk, Nat.mul_right_comm,
    divNearest_mul_right _ _ hk]

/-- **Rounding is monotone.** -/
theorem roundQuotient_le_of_le {num num' den : Nat} (hden : 0 < den) (h : num ≤ num') :
    roundQuotient num den ≤ roundQuotient num' den := by
  rcases Nat.lt_or_ge (roundQuotient num' den) (roundQuotient num den) with hlt | hge
  · exfalso
    -- the smaller numerator is nearer to the larger result, and the other way round
    have hlow := (distance_roundQuotient_le num hden (roundQuotient_hasMantissa num' den)).1
    have hhigh := (distance_roundQuotient_le num' hden (roundQuotient_hasMantissa num den)).1
    have hscaled := Nat.mul_lt_mul_of_pos_right hlt hden
    rcases Nat.eq_or_lt_of_le h with rfl | hnum
    · exact Nat.lt_irrefl _ hlt
    · unfold distance at hlow hhigh
      generalize roundQuotient num den * den = upper at *
      generalize roundQuotient num' den * den = lower at *
      omega
  · exact hge

theorem roundQuotient_le {num den n : Nat} (hden : 0 < den) (hn : HasMantissa n)
    (h : num ≤ n * den) : roundQuotient num den ≤ n := by
  have hle := roundQuotient_le_of_le hden h
  rwa [roundQuotient_mul hden hn] at hle

theorem le_roundQuotient {num den n : Nat} (hden : 0 < den) (hn : HasMantissa n)
    (h : n * den ≤ num) : n ≤ roundQuotient num den := by
  have hle := roundQuotient_le_of_le hden h
  rwa [roundQuotient_mul hden hn] at hle

theorem roundQuotient_zero {den : Nat} (hden : 0 < den) : roundQuotient 0 den = 0 :=
  Nat.le_zero.mp (roundQuotient_le hden ⟨0, 0, by decide, by decide⟩ (Nat.zero_le _))

/-! ## Numbers of few bits -/

theorem hasMantissa_two_pow (k : Nat) : HasMantissa (2 ^ k) := ⟨1, k, by decide, by simp⟩

theorem hasMantissa_of_le {n : Nat} (h : n ≤ 2 ^ significantBits) : HasMantissa n := by
  have hn := @hasMantissa_mul_of_le n 0 h
  rwa [Nat.pow_zero, Nat.mul_one] at hn

theorem HasMantissa.mul_two_pow {n : Nat} (h : HasMantissa n) (k : Nat) :
    HasMantissa (n * 2 ^ k) := by
  obtain ⟨mantissa, shift, hlt, rfl⟩ := h
  exact ⟨mantissa, shift + k, hlt, by rw [Nat.mul_assoc, ← Nat.pow_add]⟩

/-- The largest number of 53 bits below a power of two is one step away from
it. -/
theorem HasMantissa.add_le {n shift : Nat} (hn : HasMantissa n)
    (h : n < 2 ^ (shift + significantBits)) : n + 2 ^ shift ≤ 2 ^ (shift + significantBits) := by
  by_cases hdvd : 2 ^ shift ∣ n
  · obtain ⟨j, rfl⟩ := hdvd
    rw [Nat.pow_add] at h ⊢
    have hj := Nat.lt_of_mul_lt_mul_left h
    rw [← Nat.mul_succ]
    exact Nat.mul_le_mul_left _ hj
  · have hlow := (lt_two_pow_of_not_dvd hn hdvd).2
    have hhalf : 2 ^ (shift + significantBits) = 2 * 2 ^ (shift + (significantBits - 1)) := by
      rw [← Nat.pow_succ']
      rfl
    have hstep : 2 ^ shift ≤ 2 ^ (shift + (significantBits - 1)) :=
      Nat.pow_le_pow_right (by decide) (Nat.le_add_right _ _)
    omega

/-! ## Rounding with a sign -/

def roundRatio (num : Int) (den : Nat) : Int :=
  if num < 0 then -(roundQuotient num.natAbs den : Int) else roundQuotient num.natAbs den

theorem roundRatio_natCast (num den : Nat) : roundRatio num den = roundQuotient num den := by
  unfold roundRatio
  rw [if_neg (by omega), Int.natAbs_natCast]

theorem natAbs_roundRatio (num : Int) (den : Nat) :
    (roundRatio num den).natAbs = roundQuotient num.natAbs den := by
  unfold roundRatio
  split
  · rw [Int.natAbs_neg, Int.natAbs_natCast]
  · rw [Int.natAbs_natCast]

theorem hasMantissa_roundRatio (num : Int) (den : Nat) :
    HasMantissa (roundRatio num den).natAbs := by
  rw [natAbs_roundRatio]
  exact roundQuotient_hasMantissa _ _

theorem roundRatio_neg (num : Int) {den : Nat} (hden : 0 < den) :
    roundRatio (-num) den = -roundRatio num den := by
  unfold roundRatio
  rw [Int.natAbs_neg]
  rcases Int.lt_trichotomy num 0 with hneg | rfl | hpos
  · rw [if_neg (by omega), if_pos hneg, Int.neg_neg]
  · rw [Int.neg_zero, if_neg (Int.lt_irrefl 0), Int.natAbs_zero, roundQuotient_zero hden]
    rfl
  · rw [if_pos (by omega), if_neg (by omega)]

theorem roundRatio_mul_right (num : Int) (den : Nat) {k : Nat} (hk : 0 < k) :
    roundRatio (num * k) (den * k) = roundRatio num den := by
  have hk' : (0 : Int) < k := Int.ofNat_lt.mpr hk
  have hsign : num * k < 0 ↔ num < 0 := by
    have h := Int.mul_lt_mul_right hk' (b := num) (c := 0)
    rwa [Int.zero_mul] at h
  unfold roundRatio
  rw [Int.natAbs_mul, Int.natAbs_natCast, roundQuotient_mul_right _ _ hk]
  simp only [hsign]

theorem roundRatio_mono {num num' : Int} {den : Nat} (hden : 0 < den) (h : num ≤ num') :
    roundRatio num den ≤ roundRatio num' den := by
  unfold roundRatio
  by_cases hneg : num' < 0
  · have habs : num'.natAbs ≤ num.natAbs := by omega
    have hle := roundQuotient_le_of_le hden habs
    rw [if_pos (by omega), if_pos hneg]
    omega
  · rw [if_neg hneg]
    split
    · omega
    · have habs : num.natAbs ≤ num'.natAbs := by omega
      have hle := roundQuotient_le_of_le hden habs
      omega

theorem natAbs_roundRatio_le {num : Int} {den bound : Nat} (hden : 0 < den)
    (hbound : HasMantissa bound) (h : num.natAbs ≤ bound * den) :
    (roundRatio num den).natAbs ≤ bound := by
  rw [natAbs_roundRatio]
  exact roundQuotient_le hden hbound h

theorem roundRatio_one_of_hasMantissa {n : Int} (h : HasMantissa n.natAbs) :
    roundRatio n 1 = n := by
  have hself := roundQuotient_mul Nat.one_pos h
  rw [Nat.mul_one] at hself
  unfold roundRatio
  rw [hself]
  split <;> omega

end LoadReport
