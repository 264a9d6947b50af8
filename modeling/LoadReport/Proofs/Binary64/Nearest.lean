import LoadReport.Number.Arithmetic
import LoadReport.Proofs.Number.Order

/-!
# Rounding is to nearest

`roundQuotient` drops bits of a quotient on a grid it picks itself. This
file says what that amounts to without any grid: of all finite binary64
numbers the result is a nearest one to the exact quotient (`NearestTo`), and
where two are equally near it is the one whose significand is even.

- **On the grid** the work is that of `divNearest`, and a case split on
  the side of the quotient a candidate lies on settles it
  (`distance_divNearest_le`).
- **Off the grid** there is nothing to compare: a number of at most 53 bits
  that is not on the grid lies below the first grid point of that width,
  which is itself not above the quotient (`distance_lt_of_not_dvd`). So such a
  candidate is farther away, strictly, and never takes part in a tie.

Distances are measured in units times the denominator, so they are natural
numbers. A number with few enough bits has distance zero to itself, which is
why rounding it changes nothing (`roundQuotient_mul`).
-/

namespace LoadReport

/-- How far `n` is from `num / den`, times `den`. -/
def distance (num den n : Nat) : Nat := ((n * den : Nat) - num : Int).natAbs

/-- The kept bits of a number that is cut to 53 significant ones. -/
def significandOf (n : Nat) : Nat := n / 2 ^ lowestKeptBit n

/-! ## On the grid -/

theorem distance_divNearest_le {den : Nat} (hden : 0 < den) (num k : Nat) :
    distance num den (divNearest num den) ≤ distance num den k ∧
      (distance num den k = distance num den (divNearest num den) → k ≠ divNearest num den →
        divNearest num den % 2 = 0) := by
  have hnum : num = num / den * den + num % den := (Nat.div_add_mod' num den).symm
  have hmod : num % den < den := Nat.mod_lt num hden
  have hnext : (num / den + 1) * den = num / den * den + den := Nat.succ_mul _ _
  unfold distance divNearest
  dsimp only
  generalize num / den = whole at *
  generalize num % den = rest at *
  rcases Nat.lt_trichotomy k whole with hlt | heq | hgt
  · have hk : (k + 1) * den ≤ whole * den := Nat.mul_le_mul_right den hlt
    rw [Nat.succ_mul] at hk
    split
    · omega
    · rw [hnext]
      omega
  · subst heq
    split
    · omega
    · rw [hnext]
      omega
  · rcases Nat.eq_or_lt_of_le (Nat.succ_le_of_lt hgt) with heq | hlt
    · subst heq
      rw [hnext]
      split
      · omega
      · rw [hnext]
        omega
    · have hk : (whole + 2) * den ≤ k * den := Nat.mul_le_mul_right den hlt
      have htwo : (whole + 2) * den = whole * den + 2 * den := Nat.add_mul _ _ _
      split
      · omega
      · rw [hnext]
        omega

/-! ## The grid -/

theorem two_pow_le_of_lowestKeptBit_pos {n : Nat} (h : 0 < lowestKeptBit n) :
    2 ^ (lowestKeptBit n + (significantBits - 1)) ≤ n := by
  have hne : n ≠ 0 := by
    rintro rfl
    simp [lowestKeptBit] at h
  have hlog : lowestKeptBit n + (significantBits - 1) = n.log2 := by
    unfold lowestKeptBit at *
    omega
  rw [hlog]
  exact Nat.log2_self_le hne

/-- A number of at most 53 bits that the grid misses lies below the grid's
first number of 53 bits. -/
theorem lt_two_pow_of_not_dvd {n shift : Nat} (hn : HasMantissa n) (h : ¬ 2 ^ shift ∣ n) :
    0 < shift ∧ n < 2 ^ (shift + (significantBits - 1)) := by
  obtain ⟨mantissa, finer, hlt, rfl⟩ := hn
  have hfiner : finer < shift := by
    rcases Nat.lt_or_ge finer shift with hlt | hge
    · exact hlt
    · have hdvd : 2 ^ shift ∣ 2 ^ finer := Nat.pow_dvd_pow 2 hge
      exact absurd (Nat.dvd_trans hdvd (Nat.dvd_mul_left _ _)) h
  refine ⟨by omega, ?_⟩
  calc mantissa * 2 ^ finer
      < 2 ^ significantBits * 2 ^ finer := Nat.mul_lt_mul_of_pos_right hlt (Nat.two_pow_pos _)
    _ = 2 ^ (significantBits + finer) := (Nat.pow_add _ _ _).symm
    _ ≤ 2 ^ (shift + (significantBits - 1)) :=
        Nat.pow_le_pow_right (by decide) (by simp only [significantBits]; omega)

/-- On a grid, the distance is that of the multiples. -/
theorem distance_mul_two_pow (num den shift k : Nat) :
    distance num den (k * 2 ^ shift) = distance num (den * 2 ^ shift) k := by
  unfold distance
  rw [Nat.mul_assoc, Nat.mul_comm (2 ^ shift) den]

/-! ## Off the grid -/

/-- A number of at most 53 bits that is not on the grid is farther from the
quotient than some number on it. -/
theorem distance_lt_of_not_dvd {num den n : Nat} (hden : 0 < den) (hn : HasMantissa n)
    (h : ¬ 2 ^ lowestKeptBit (num / den) ∣ n) :
    ∃ k, distance num den (k * 2 ^ lowestKeptBit (num / den)) < distance num den n := by
  obtain ⟨hpos, hlt⟩ := lt_two_pow_of_not_dvd hn h
  have hle := two_pow_le_of_lowestKeptBit_pos hpos
  refine ⟨2 ^ (significantBits - 1), ?_⟩
  rw [← Nat.pow_add, Nat.add_comm]
  generalize 2 ^ (lowestKeptBit (num / den) + (significantBits - 1)) = first at hlt hle ⊢
  have hfirst : first * den ≤ num :=
    Nat.le_trans (Nat.mul_le_mul_right den hle) (Nat.div_mul_le_self num den)
  have hbelow : n * den < first * den := Nat.mul_lt_mul_of_pos_right hlt hden
  unfold distance
  omega

/-- The significand of a multiple is the multiplier, unless it carries into
a 54th bit. -/
theorem significandOf_mul_two_pow {kept shift : Nat} (hlt : kept < 2 ^ significantBits)
    (hge : shift = 0 ∨ 2 ^ (significantBits - 1) ≤ kept) :
    significandOf (kept * 2 ^ shift) = kept := by
  have hshift : lowestKeptBit (kept * 2 ^ shift) = shift := by
    unfold lowestKeptBit
    rcases hge with rfl | hge
    · rw [Nat.pow_zero, Nat.mul_one]
      by_cases hzero : kept = 0
      · subst hzero
        decide
      · have := (Nat.log2_lt hzero).mpr hlt
        simp only [significantBits] at *
        omega
    · have hlog : (kept * 2 ^ shift).log2 = shift + (significantBits - 1) := by
        refine (Nat.log2_eq_iff ?_).mpr ⟨?_, ?_⟩
        · have : 0 < kept * 2 ^ shift :=
            Nat.mul_pos (Nat.lt_of_lt_of_le (Nat.two_pow_pos _) hge) (Nat.two_pow_pos _)
          omega
        · rw [Nat.pow_add, Nat.mul_comm]
          exact Nat.mul_le_mul_right _ hge
        · have hsucc : shift + (significantBits - 1) + 1 = significantBits + shift := by
            simp only [significantBits]
            omega
          rw [hsucc, Nat.pow_add]
          exact Nat.mul_lt_mul_of_pos_right hlt (Nat.two_pow_pos _)
      rw [hlog, Nat.add_sub_cancel]
  unfold significandOf
  rw [hshift, Nat.mul_div_cancel _ (Nat.two_pow_pos _)]

theorem significandOf_carry (shift : Nat) :
    significandOf (2 ^ significantBits * 2 ^ shift) = 2 ^ (significantBits - 1) := by
  have hone : 2 ^ significantBits * 2 ^ shift = 2 ^ (significantBits - 1) * 2 ^ (shift + 1) := by
    rw [← Nat.pow_add, ← Nat.pow_add]
    congr 1
    simp only [significantBits]
    omega
  rw [hone]
  exact significandOf_mul_two_pow (Nat.pow_lt_pow_right (by decide) (by decide))
    (Or.inr (Nat.le_refl _))

theorem roundQuotient_eq (num den : Nat) : roundQuotient num den =
    divNearest num (den * 2 ^ lowestKeptBit (num / den)) * 2 ^ lowestKeptBit (num / den) := rfl

/-- What `divNearest` leaves is the significand, so an even number leaves an
even one. A carry leaves a power of two. -/
theorem even_significandOf_roundQuotient {num den : Nat}
    (h : divNearest num (den * 2 ^ lowestKeptBit (num / den)) % 2 = 0) :
    significandOf (roundQuotient num den) % 2 = 0 := by
  have hle := divNearest_le num (den * 2 ^ lowestKeptBit (num / den))
  have hge := le_divNearest num (den * 2 ^ lowestKeptBit (num / den))
  have hlt := div_lowestKeptBit_lt (num / den)
  have hwide : lowestKeptBit (num / den) = 0 ∨
      2 ^ (significantBits - 1) ≤ num / den / 2 ^ lowestKeptBit (num / den) := by
    rcases Nat.eq_zero_or_pos (lowestKeptBit (num / den)) with hzero | hpos
    · exact Or.inl hzero
    · refine Or.inr ?_
      rw [Nat.le_div_iff_mul_le (Nat.two_pow_pos _), ← Nat.pow_add, Nat.add_comm]
      exact two_pow_le_of_lowestKeptBit_pos hpos
  rw [← Nat.div_div_eq_div_mul] at hle hge
  rw [roundQuotient_eq]
  generalize divNearest num (den * 2 ^ lowestKeptBit (num / den)) = kept at *
  by_cases hcarry : kept = 2 ^ significantBits
  · rw [hcarry, significandOf_carry]
    decide
  · have hkept : kept < 2 ^ significantBits := by omega
    rw [significandOf_mul_two_pow hkept (hwide.imp_right fun h => Nat.le_trans h hge)]
    exact h

/-! ## Both -/

/-- Of the numbers of at most 53 bits the rounded quotient is a nearest one,
and in a tie the even one. -/
theorem distance_roundQuotient_le (num : Nat) {den k : Nat} (hden : 0 < den)
    (hk : HasMantissa k) :
    distance num den (roundQuotient num den) ≤ distance num den k ∧
      (distance num den k = distance num den (roundQuotient num den) → k ≠ roundQuotient num den →
        significandOf (roundQuotient num den) % 2 = 0) := by
  have hstep : 0 < den * 2 ^ lowestKeptBit (num / den) := Nat.mul_pos hden (Nat.two_pow_pos _)
  have hgrid : ∀ j, distance num den (roundQuotient num den)
        ≤ distance num den (j * 2 ^ lowestKeptBit (num / den)) := by
    intro j
    rw [roundQuotient_eq, distance_mul_two_pow, distance_mul_two_pow]
    exact (distance_divNearest_le hstep num j).1
  by_cases hdvd : 2 ^ lowestKeptBit (num / den) ∣ k
  · obtain ⟨j, hj⟩ := hdvd
    rw [Nat.mul_comm] at hj
    subst hj
    refine ⟨hgrid j, ?_⟩
    intro htie hne
    rw [roundQuotient_eq, distance_mul_two_pow, distance_mul_two_pow] at htie
    rw [roundQuotient_eq] at hne
    refine even_significandOf_roundQuotient ((distance_divNearest_le hstep num j).2 htie ?_)
    intro heq
    exact hne (by rw [← heq])
  · obtain ⟨j, hj⟩ := distance_lt_of_not_dvd hden hk hdvd
    have hlt : distance num den (roundQuotient num den) < distance num den k :=
      Nat.lt_of_le_of_lt (hgrid j) hj
    exact ⟨Nat.le_of_lt hlt, fun htie => absurd htie (Nat.ne_of_gt hlt)⟩

theorem roundQuotient_mul {n den : Nat} (hden : 0 < den) (hn : HasMantissa n) :
    roundQuotient (n * den) den = n := by
  have hle := (distance_roundQuotient_le (n * den) hden hn).1
  have hself : distance (n * den) den n = 0 := by simp [distance]
  rw [hself] at hle
  unfold distance at hle
  have heq : roundQuotient (n * den) den * den = n * den := by omega
  exact Nat.eq_of_mul_eq_mul_right hden heq

/-! ## Binary64 numbers -/

namespace Binary64

/-- How far a finite number is from `num / den`, in units times `den`. -/
def gap (x : Binary64) (num : Int) (den : Nat) : Nat :=
  match x.units? with
  | some units => (units * den - num * unitsPerOne).natAbs
  | none => 0

def significand : Binary64 → Nat
  | finite _ units _ => significandOf units
  | _ => 0

/-- The finite number that rounding to nearest, ties to even, makes of
`num / den`. -/
structure NearestTo (x : Binary64) (num : Int) (den : Nat) : Prop where
  finite : ∃ units h, x = finite (decide (num < 0)) units h
  nearest : ∀ y : Binary64, y.isFinite = true → x.gap num den ≤ y.gap num den
  even : ∀ y : Binary64, y.isFinite = true → y.gap num den = x.gap num den →
    y.units? ≠ x.units? → x.significand % 2 = 0

theorem natAbs_mul_unitsPerOne (num : Int) :
    num * unitsPerOne = if num < 0 then -((num.natAbs * unitsPerOne : Nat) : Int)
      else ((num.natAbs * unitsPerOne : Nat) : Int) := by
  rw [Int.natCast_mul]
  split
  · have hneg : num = -(num.natAbs : Int) := by omega
    rw [← Int.neg_mul, ← hneg]
  · have hpos : num = (num.natAbs : Int) := by omega
    rw [← hpos]

theorem gap_of_sign (num : Int) (den units : Nat) (h : Representable units) :
    (finite (decide (num < 0)) units h).gap num den
      = distance (num.natAbs * unitsPerOne) den units := by
  unfold gap units? distance
  dsimp only
  rw [natAbs_mul_unitsPerOne]
  by_cases hneg : num < 0
  · simp only [hneg, decide_true, if_true, Int.neg_mul, Int.natCast_mul]
    omega
  · simp only [hneg, decide_false, Bool.false_eq_true, if_false, Int.natCast_mul]

theorem gap_of_other_sign (num : Int) (den units : Nat) (h : Representable units) :
    (finite (!decide (num < 0)) units h).gap num den
      = distance (num.natAbs * unitsPerOne) den 0 + units * den := by
  unfold gap units? distance
  dsimp only
  rw [natAbs_mul_unitsPerOne, Nat.zero_mul]
  by_cases hneg : num < 0
  · simp only [hneg, decide_true, Bool.not_true, Bool.false_eq_true, if_false, if_true]
    rw [← Int.natCast_mul]
    omega
  · simp only [hneg, decide_false, Bool.not_false, if_false, if_true, Int.neg_mul]
    rw [← Int.natCast_mul]
    omega

/-- The candidates on the side of the quotient are the nearer ones: what
stands on the other side of zero is farther away than zero is. -/
theorem exists_distance_le_gap (num : Int) {den : Nat} (hden : 0 < den) {y : Binary64}
    (hy : y.isFinite = true) :
    ∃ k h, distance (num.natAbs * unitsPerOne) den k ≤ y.gap num den ∧
      (y.gap num den = distance (num.natAbs * unitsPerOne) den k →
        y.units? = (finite (decide (num < 0)) k h).units?) := by
  cases y with
  | nan => cases hy
  | infinite negative => cases hy
  | finite negative units h =>
      by_cases hsign : negative = decide (num < 0)
      · subst hsign
        rw [gap_of_sign]
        exact ⟨units, h, Nat.le_refl _, fun _ => rfl⟩
      · obtain rfl : negative = !decide (num < 0) := Bool.eq_not.mpr hsign
        rw [gap_of_other_sign]
        refine ⟨0, representable_zero, Nat.le_add_right _ _, ?_⟩
        intro htie
        have hmul : units * den = 0 := by omega
        obtain rfl : units = 0 := (Nat.mul_eq_zero.mp hmul).resolve_right (by omega)
        simp [units?]

theorem eq_of_ofUnits_finite {negative : Bool} {units : Nat} {h : HasMantissa units}
    (hfin : (ofUnits negative units h).isFinite = true) :
    ∃ hr, ofUnits negative units h = finite negative units hr := by
  by_cases hlt : units < unitsLimit
  · exact ⟨⟨hlt, h⟩, ofUnits_of_lt h hlt⟩
  · rw [ofUnits_of_le h (Nat.le_of_not_lt hlt)] at hfin
    cases hfin

theorem nearestTo_ofRatio {num : Int} {den : Nat} (hden : 0 < den)
    (hfin : (ofRatio (decide (num < 0)) num.natAbs den).isFinite = true) :
    (ofRatio (decide (num < 0)) num.natAbs den).NearestTo num den := by
  obtain ⟨hr, hx⟩ := eq_of_ofUnits_finite hfin
  unfold ofRatio ofUnitQuotient
  rw [hx]
  refine ⟨⟨_, _, rfl⟩, ?_, ?_⟩
  · intro y hy
    obtain ⟨k, h, hle, -⟩ := exists_distance_le_gap num hden hy
    rw [gap_of_sign]
    exact Nat.le_trans (distance_roundQuotient_le _ hden h.2).1 hle
  · intro y hy htie hne
    obtain ⟨k, h, hle, hunits⟩ := exists_distance_le_gap num hden hy
    rw [gap_of_sign] at htie
    have hround := distance_roundQuotient_le (num.natAbs * unitsPerOne) hden h.2
    have hk := hunits (by omega)
    refine hround.2 (by omega) ?_
    rintro rfl
    exact hne hk

theorem ofUnitQuotient_mul (negative : Bool) {units den : Nat} (hden : 0 < den)
    (h : Representable units) :
    ofUnitQuotient negative (units * den) den = finite negative units h := by
  unfold ofUnitQuotient ofUnits
  simp only [roundQuotient_mul hden h.2, dif_pos h.1]

theorem isFinite_of_fitInt {n : Int} {x : Binary64} (h : fitInt n = .ok x) :
    x.isFinite = true := by
  unfold fitInt at h
  dsimp only at h
  split at h
  · next hfin =>
      cases h
      exact hfin
  · cases h

theorem fitInt_of_isFinite {n : Int} (h : (ofInt n).isFinite = true) :
    fitInt n = .ok (ofInt n) := by
  unfold fitInt
  exact if_pos h

theorem eq_ofRatio_of_quotient {m : Int} {n : Nat} {x : Binary64} (h : quotient m n = .ok x) :
    0 < n ∧ x = ofRatio (decide (m < 0)) m.natAbs n ∧ x.isFinite = true := by
  unfold quotient at h
  dsimp only at h
  split at h
  · cases h
  · next hn =>
      have hnonneg : decide ((n : Int) < 0) = false := decide_eq_false (by omega)
      rw [hnonneg, Bool.bne_false, Int.natAbs_natCast] at h
      split at h
      · next hfin =>
          cases h
          exact ⟨by omega, rfl, hfin⟩
      · cases h

theorem nearestTo_of_quotient {m : Int} {n : Nat} {x : Binary64}
    (h : quotient m n = .ok x) : x.NearestTo m n := by
  obtain ⟨hn, rfl, hfin⟩ := eq_ofRatio_of_quotient h
  exact nearestTo_ofRatio hn hfin

end Binary64
end LoadReport
