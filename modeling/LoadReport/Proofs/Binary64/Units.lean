import LoadReport.Proofs.Binary64.Monotone

/-!
# Arithmetic in units

What the operations do on finite numbers, said in signed units. The result
of each is `roundRatio` of the exact result, provided that this is below the
limit; nothing has to be known of the signs of zeros, of infinities or of the
form of a number.

Whole keys are in this as well. A key of either kind stands at a number of
units, and what is computed from it depends on that number alone, since the
conversion of a whole number rounds it and a binary64 number is rounded
already (`units?_toBinary64`).
-/

namespace LoadReport
namespace Binary64

/-! ## Views -/

variable {x y : Binary64} {u v : Int}

theorem representable_of_units? (h : x.units? = some u) : Representable u.natAbs := by
  cases x with
  | nan => cases h
  | infinite s => cases h
  | finite s w hw =>
      obtain rfl := Option.some.inj h
      cases s <;> simpa using hw

theorem roundRatio_of_units? (h : x.units? = some u) : roundRatio u 1 = u :=
  roundRatio_one_of_hasMantissa (representable_of_units? h).2

theorem isFinite_of_units? (h : x.units? = some u) : x.isFinite = true := by
  rw [← units?_isSome, h]
  rfl

theorem exists_units? (h : x.isFinite = true) : ∃ u, x.units? = some u := by
  rw [← units?_isSome] at h
  exact Option.isSome_iff_exists.mp h

theorem position?_of_units? (h : x.units? = some u) : x.position? = some (.units u) := by
  cases x with
  | nan => cases h
  | infinite s => cases h
  | finite s w hw =>
      obtain rfl := Option.some.inj h
      rfl

theorem units?_of_position? (h : x.position? = some (.units u)) : x.units? = some u := by
  match x with
  | .nan => cases h
  | .infinite true => cases h
  | .infinite false => cases h
  | .finite s w hw =>
      obtain rfl := Position.units.inj (Option.some.inj h)
      rfl

theorem le_of_units? (hx : x.units? = some u) (hy : y.units? = some v) (h : u ≤ v) :
    (Number.float x).le (.float y) = true :=
  Number.le_iff.mpr ⟨_, _, position?_of_units? hx, position?_of_units? hy, decide_eq_true h⟩

/-! ## Operations that are never refused -/

theorem units?_ofUnitQuotient (negative : Bool) {num den : Nat} (hden : 0 < den)
    (h : roundQuotient num den < unitsLimit) :
    (ofUnitQuotient negative num den).units?
      = some (roundRatio (if negative then -(num : Int) else num) den) := by
  unfold ofUnitQuotient
  rw [ofUnits_of_lt _ h]
  cases negative with
  | false =>
      simp only [units?, Bool.false_eq_true, if_false]
      rw [roundRatio_natCast]
  | true =>
      simp only [units?, if_true]
      rw [roundRatio_neg _ hden, roundRatio_natCast]

theorem units?_ofSignedUnits (zeroSign : Bool) {n : Int}
    (h : (roundRatio n 1).natAbs < unitsLimit) :
    (ofSignedUnits zeroSign n).units? = some (roundRatio n 1) := by
  rw [natAbs_roundRatio] at h
  unfold ofSignedUnits
  rw [units?_ofUnitQuotient _ Nat.one_pos h]
  rcases Int.lt_trichotomy n 0 with hneg | rfl | hpos
  · have habs : -(n.natAbs : Int) = n := by omega
    rw [if_neg (show n ≠ 0 by omega), decide_eq_true hneg, if_pos rfl, habs]
  · cases zeroSign <;> rfl
  · have habs : (n.natAbs : Int) = n := by omega
    rw [if_neg (show n ≠ 0 by omega), decide_eq_false (show ¬ n < 0 by omega),
      if_neg Bool.false_ne_true, habs]

theorem units?_ofRatio {m : Int} {den : Nat} (hden : 0 < den)
    (h : (roundRatio (m * unitsPerOne) den).natAbs < unitsLimit) :
    (ofRatio (decide (m < 0)) m.natAbs den).units?
      = some (roundRatio (m * unitsPerOne) den) := by
  rw [natAbs_roundRatio, Int.natAbs_mul, Int.natAbs_natCast] at h
  unfold ofRatio
  rw [units?_ofUnitQuotient _ hden h, Int.natCast_mul]
  rcases Int.lt_or_le m 0 with hneg | hpos
  · have habs : (m.natAbs : Int) = -m := by omega
    rw [decide_eq_true hneg, if_pos rfl, habs, Int.neg_mul, Int.neg_neg]
  · have habs : (m.natAbs : Int) = m := by omega
    rw [decide_eq_false (show ¬ m < 0 by omega), if_neg Bool.false_ne_true, habs]

theorem units?_ofRatio_of_isFinite {m : Int} {den : Nat} (hden : 0 < den)
    (h : (ofRatio (decide (m < 0)) m.natAbs den).isFinite = true) :
    (ofRatio (decide (m < 0)) m.natAbs den).units?
      = some (roundRatio (m * unitsPerOne) den) := by
  have hround := roundQuotient_hasMantissa (m.natAbs * unitsPerOne) den
  obtain ⟨hr, -⟩ := eq_of_ofUnits_finite (h := hround) h
  refine units?_ofRatio hden ?_
  rw [natAbs_roundRatio, Int.natAbs_mul, Int.natAbs_natCast]
  exact hr.1

theorem units?_ofInt {n : Int} (h : (roundRatio (n * unitsPerOne) 1).natAbs < unitsLimit) :
    (ofInt n).units? = some (roundRatio (n * unitsPerOne) 1) :=
  units?_ofRatio Nat.one_pos h

theorem units?_neg (hx : x.units? = some u) : x.neg.units? = some (-u) := by
  cases x with
  | nan => cases hx
  | infinite s => cases hx
  | finite s w hw =>
      obtain rfl := Option.some.inj hx
      cases s <;> simp [neg, units?]

theorem units?_add (hx : x.units? = some u) (hy : y.units? = some v)
    (h : (roundRatio (u + v) 1).natAbs < unitsLimit) :
    (x.add y).units? = some (roundRatio (u + v) 1) := by
  cases x with
  | nan => cases hx
  | infinite s => cases hx
  | finite s w hw =>
      cases y with
      | nan => cases hy
      | infinite t => cases hy
      | finite t z hz =>
          obtain rfl := Option.some.inj hx
          obtain rfl := Option.some.inj hy
          exact units?_ofSignedUnits _ h

theorem units?_sub (hx : x.units? = some u) (hy : y.units? = some v)
    (h : (roundRatio (u - v) 1).natAbs < unitsLimit) :
    (x.sub y).units? = some (roundRatio (u - v) 1) :=
  units?_add hx (units?_neg hy) h

/-- Signs multiply apart from what they stand before. -/
theorem signed_mul (s t : Bool) (w z : Nat) :
    (if (s != t) then -((w * z : Nat) : Int) else (w * z : Nat))
      = (if s then -(w : Int) else w) * if t then -(z : Int) else z := by
  rw [Int.natCast_mul]
  cases s with
  | false =>
      cases t with
      | false => rfl
      | true => exact (Int.mul_neg _ _).symm
  | true =>
      cases t with
      | false => exact (Int.neg_mul _ _).symm
      | true => exact (Int.neg_mul_neg _ _).symm

theorem units?_mul (hx : x.units? = some u) (hy : y.units? = some v)
    (h : (roundRatio (u * v) unitsPerOne).natAbs < unitsLimit) :
    (x.mul y).units? = some (roundRatio (u * v) unitsPerOne) := by
  cases x with
  | nan => cases hx
  | infinite s => cases hx
  | finite s w hw =>
      cases y with
      | nan => cases hy
      | infinite t => cases hy
      | finite t z hz =>
          obtain rfl := Option.some.inj hx
          obtain rfl := Option.some.inj hy
          have habs : ((if s then -(w : Int) else w) * if t then -(z : Int) else z).natAbs
              = w * z := by
            cases s <;> cases t <;> simp [Int.natAbs_mul]
          rw [natAbs_roundRatio, habs] at h
          rw [mul, units?_ofUnitQuotient _ Number.unitsPerOne_pos h, signed_mul]

theorem eq_finite_of_units? {n : Nat} (hx : x.units? = some (n : Int)) (hn : 0 < n) :
    ∃ h, x = .finite false n h := by
  cases x with
  | nan => cases hx
  | infinite s => cases hx
  | finite s w hw =>
      have hunits := Option.some.inj hx
      cases s with
      | false =>
          obtain rfl : w = n := Int.ofNat_inj.mp hunits
          exact ⟨hw, rfl⟩
      | true =>
          simp only [if_true] at hunits
          omega

theorem units?_div (hx : x.units? = some u) {v : Nat} (hy : y.units? = some (v : Int))
    (hv : 0 < v) (h : (roundRatio (u * unitsPerOne) v).natAbs < unitsLimit) :
    (x.div y).units? = some (roundRatio (u * unitsPerOne) v) := by
  obtain ⟨hr, rfl⟩ := eq_finite_of_units? hy hv
  cases x with
  | nan => cases hx
  | infinite s => cases hx
  | finite s w hw =>
      obtain rfl := Option.some.inj hx
      have habs : ((if s then -(w : Int) else w) * (unitsPerOne : Int)).natAbs
          = w * unitsPerOne := by
        cases s <;> simp [Int.natAbs_mul]
      have hsign := signed_mul s false w unitsPerOne
      rw [if_neg Bool.false_ne_true] at hsign
      rw [natAbs_roundRatio, habs] at h
      rw [div, if_neg (by omega), units?_ofUnitQuotient _ hv h, hsign]

/-! ## Whole numbers in binary64 -/

theorem fitInt_of_units {n : Int} (h : (roundRatio (n * unitsPerOne) 1).natAbs < unitsLimit) :
    ∃ x, fitInt n = .ok x ∧ x.units? = some (roundRatio (n * unitsPerOne) 1) := by
  have hunits := units?_ofInt h
  exact ⟨_, fitInt_of_isFinite (isFinite_of_units? hunits), hunits⟩

theorem units?_of_fitInt {n : Int} (h : fitInt n = .ok x) :
    x.units? = some (roundRatio (n * unitsPerOne) 1) := by
  have hfin := isFinite_of_fitInt h
  unfold fitInt at h
  dsimp only at h
  split at h
  · obtain rfl := Except.ok.inj h
    exact units?_ofRatio_of_isFinite Nat.one_pos hfin
  · cases h

/-- Whole numbers of at most 53 bits are binary64 numbers. -/
theorem hasMantissa_mul_unitsPerOne {n : Int} (h : n.natAbs ≤ 2 ^ significantBits) :
    HasMantissa (n * unitsPerOne).natAbs := by
  rw [Int.natAbs_mul, Int.natAbs_natCast, unitsPerOne_eq]
  exact (hasMantissa_of_le h).mul_two_pow _

theorem two_pow_lt_unitsLimit {k : Nat} (h : k < limitExponent) : 2 ^ k < unitsLimit := by
  rw [unitsLimit_eq]
  exact Nat.pow_lt_pow_right (by decide) h

theorem roundQuotient_lt_unitsLimit {n k : Nat} (hk : k + unitExponent < limitExponent)
    (h : n ≤ 2 ^ k) : roundQuotient (n * unitsPerOne) 1 < unitsLimit := by
  have hle : n * unitsPerOne ≤ 2 ^ (k + unitExponent) * 1 := by
    rw [Nat.mul_one, Nat.pow_add, unitsPerOne_eq]
    exact Nat.mul_le_mul_right _ h
  exact Nat.lt_of_le_of_lt (roundQuotient_le Nat.one_pos (hasMantissa_two_pow _) hle)
    (two_pow_lt_unitsLimit hk)

theorem units?_ofInt_of_le {n : Int} (h : n.natAbs ≤ 2 ^ significantBits) :
    (ofInt n).units? = some (n * unitsPerOne) := by
  have hself := roundRatio_one_of_hasMantissa (hasMantissa_mul_unitsPerOne h)
  have hlt : (n * (unitsPerOne : Int)).natAbs < unitsLimit := by
    rw [Int.natAbs_mul, Int.natAbs_natCast, unitsPerOne_eq]
    refine Nat.lt_of_le_of_lt (Nat.mul_le_mul_right _ h) ?_
    rw [← Nat.pow_add]
    exact two_pow_lt_unitsLimit (by decide)
  have hunits := units?_ofInt (n := n) (by rwa [hself])
  rwa [hself] at hunits

theorem fitInt_eq_of_le {n : Int} (h : n.natAbs ≤ 2 ^ significantBits) :
    fitInt n = .ok (ofInt n) :=
  fitInt_of_isFinite (isFinite_of_units? (units?_ofInt_of_le h))

theorem fitInt_of_le {n : Int} (h : n.natAbs ≤ 2 ^ significantBits) :
    ∃ x, fitInt n = .ok x ∧ x.units? = some (n * unitsPerOne) :=
  ⟨_, fitInt_eq_of_le h, units?_ofInt_of_le h⟩

theorem ofSignedUnits_mul_unitsPerOne (m : Int) :
    ofSignedUnits false (m * unitsPerOne) = ofInt m := by
  have hone := Number.unitsPerOne_pos
  have hsign : (if m * (unitsPerOne : Int) = 0 then false else decide (m * unitsPerOne < 0))
      = decide (m < 0) := by
    rcases Int.lt_trichotomy m 0 with hneg | rfl | hpos
    · have hproduct := Int.mul_neg_of_neg_of_pos hneg (Int.ofNat_lt.mpr hone)
      rw [if_neg (Int.ne_of_lt hproduct), decide_eq_true hneg, decide_eq_true hproduct]
    · rw [Int.zero_mul]
      rfl
    · have hproduct := Int.mul_pos hpos (Int.ofNat_lt.mpr hone)
      rw [if_neg (Int.ne_of_gt hproduct), decide_eq_false (Int.not_lt.mpr (Int.le_of_lt hpos)),
        decide_eq_false (Int.not_lt.mpr (Int.le_of_lt hproduct))]
  rw [ofSignedUnits, ofInt, ofRatio, hsign, Int.natAbs_mul, Int.natAbs_natCast]

theorem ofUnitQuotient_mul_right (negative : Bool) (num den : Nat) {k : Nat} (hk : 0 < k) :
    ofUnitQuotient negative (num * k) (den * k) = ofUnitQuotient negative num den := by
  unfold ofUnitQuotient
  simp only [roundQuotient_mul_right num den hk]

theorem exists_ofInt_eq {m : Int} (h : m.natAbs ≤ 2 ^ significantBits) :
    ∃ hr, ofInt m = .finite (decide (m < 0)) (m.natAbs * unitsPerOne) hr := by
  have hr := representable_of_units? (units?_ofInt_of_le h)
  rw [Int.natAbs_mul, Int.natAbs_natCast] at hr
  have hexact := ofUnitQuotient_mul (decide (m < 0)) Nat.one_pos hr
  rw [Nat.mul_one] at hexact
  exact ⟨hr, hexact⟩

/-! ## Operations that may be refused -/

theorem quotient_eq_ok {m : Int} {n : Nat} (hn : 0 < n)
    (h : (roundRatio (m * unitsPerOne) n).natAbs < unitsLimit) :
    quotient m n = .ok (ofRatio (decide (m < 0)) m.natAbs n) := by
  have hpos : decide ((n : Int) < 0) = false := decide_eq_false (by omega)
  unfold quotient
  rw [if_neg (by omega), hpos, Int.natAbs_natCast, Bool.bne_false]
  exact if_pos (isFinite_of_units? (units?_ofRatio hn h))

theorem units?_of_quotient {m : Int} {n : Nat} (h : quotient m n = .ok x) :
    x.units? = some (roundRatio (m * unitsPerOne) n) := by
  obtain ⟨hn, rfl, hfin⟩ := eq_ofRatio_of_quotient h
  exact units?_ofRatio_of_isFinite hn hfin

theorem exists_quotient {m : Int} {n : Nat} (hn : 0 < n)
    (h : (roundRatio (m * unitsPerOne) n).natAbs < unitsLimit) :
    ∃ x, quotient m n = .ok x ∧ x.units? = some (roundRatio (m * unitsPerOne) n) :=
  ⟨_, quotient_eq_ok hn h, units?_ofRatio hn h⟩

theorem le_of_quotient {m m' : Int} {n : Nat} (hx : quotient m n = .ok x)
    (hy : quotient m' n = .ok y) (h : m ≤ m') : (Number.float x).le (.float y) = true := by
  obtain ⟨hn, -⟩ := eq_ofRatio_of_quotient hx
  refine le_of_units? (units?_of_quotient hx) (units?_of_quotient hy) (roundRatio_mono hn ?_)
  exact Int.mul_le_mul_of_nonneg_right h (Int.natCast_nonneg _)

/-- A whole number is rounded like any quotient that it is equal to. -/
theorem units?_of_fitInt_mul {n : Int} (h : fitInt n = .ok x) {total : Nat} (htotal : 0 < total) :
    x.units? = some (roundRatio (n * total * unitsPerOne) total) := by
  have hround := roundRatio_mul_right (n * unitsPerOne) 1 htotal
  rw [Nat.one_mul] at hround
  rw [units?_of_fitInt h, ← hround, Int.mul_right_comm]

/-- The mean of one whole number is that number. -/
theorem quotient_mul_of_fitInt {m : Int} {n : Nat} (hn : 0 < n) (h : fitInt m = .ok x) :
    quotient (m * n) n = .ok x := by
  have hunits := units?_of_fitInt_mul h hn
  have hsign : m * (n : Int) < 0 ↔ m < 0 := by
    have hmul := Int.mul_lt_mul_right (Int.ofNat_lt.mpr hn) (b := m) (c := 0)
    rwa [Int.zero_mul] at hmul
  have hself : x = ofInt m := by
    unfold fitInt at h
    dsimp only at h
    split at h
    · exact (Except.ok.inj h).symm
    · cases h
  have hratio : ofRatio (decide (m * (n : Int) < 0)) (m * n).natAbs n = ofInt m := by
    have hscale := ofUnitQuotient_mul_right (decide (m < 0)) (m.natAbs * unitsPerOne) 1 hn
    rw [Nat.one_mul, Nat.mul_right_comm] at hscale
    rw [ofRatio, decide_eq_decide.mpr hsign, Int.natAbs_mul, Int.natAbs_natCast]
    exact hscale
  rw [quotient_eq_ok hn (representable_of_units? hunits).1, hratio, hself]

/-- A number of samples is a divisor, whatever is divided. -/
theorem exists_overCount_eq (x : Binary64) {n : Nat} (hn : 0 < n)
    (hle : n ≤ 2 ^ significantBits) :
    ∃ z, x.overCount n = .ok (x.div z) ∧ z.units? = some ((n * unitsPerOne : Nat) : Int) := by
  obtain ⟨z, hfit, hz⟩ := fitInt_of_le (n := n) (by rwa [Int.natAbs_natCast])
  refine ⟨z, ?_, hz⟩
  unfold overCount
  rw [hfit]
  exact if_neg (by omega)

theorem exists_overCount {n : Nat} (hx : x.units? = some u) (hn : 0 < n)
    (hle : n ≤ 2 ^ significantBits) (h : (roundRatio u n).natAbs < unitsLimit) :
    ∃ y, x.overCount n = .ok y ∧ y.units? = some (roundRatio u n) := by
  obtain ⟨z, hover, hz⟩ := exists_overCount_eq x hn hle
  have hone := Number.unitsPerOne_pos
  rw [← roundRatio_mul_right u n hone] at h ⊢
  exact ⟨x.div z, hover, units?_div hx hz (Nat.mul_pos hn hone) h⟩

/-- A division by a count of any size, as long as it fits, makes nothing
larger: the divisor may be rounded, but not to less than one. -/
theorem exists_overCount_le {n w : Nat} (hx : x.units? = some (w : Int)) (hn : 0 < n)
    (hfit : roundQuotient (n * unitsPerOne) 1 < unitsLimit) :
    ∃ y v, x.overCount n = .ok y ∧ y.units? = some ((v : Nat) : Int) ∧ v ≤ w := by
  have hw := representable_of_units? hx
  rw [Int.natAbs_natCast] at hw
  have hcast : roundRatio ((n : Int) * unitsPerOne) 1 = roundQuotient (n * unitsPerOne) 1 := by
    rw [← Int.natCast_mul, roundRatio_natCast]
  obtain ⟨z, hz, hzunits⟩ := fitInt_of_units (n := n) (by rwa [hcast, Int.natAbs_natCast])
  rw [hcast] at hzunits
  have hone : unitsPerOne ≤ roundQuotient (n * unitsPerOne) 1 := by
    refine le_roundQuotient Nat.one_pos (unitsPerOne_eq ▸ hasMantissa_two_pow unitExponent) ?_
    rw [Nat.mul_one]
    exact Nat.le_mul_of_pos_left _ hn
  generalize roundQuotient (n * unitsPerOne) 1 = divisor at hone hzunits
  have hpos := Nat.lt_of_lt_of_le Number.unitsPerOne_pos hone
  have hquotient : roundQuotient (w * unitsPerOne) divisor ≤ w :=
    roundQuotient_le hpos hw.2 (Nat.mul_le_mul_left _ hone)
  have hratio : roundRatio ((w : Int) * unitsPerOne) divisor
      = roundQuotient (w * unitsPerOne) divisor := by
    rw [← Int.natCast_mul, roundRatio_natCast]
  have hdiv := units?_div hx hzunits hpos (by
    rw [hratio, Int.natAbs_natCast]
    exact Nat.lt_of_le_of_lt hquotient hw.1)
  rw [hratio] at hdiv
  refine ⟨x.div z, _, ?_, hdiv, hquotient⟩
  unfold overCount
  rw [hz]
  exact if_neg (by omega)

/-- Dividing in binary64 and dividing whole numbers are the same as long as
both numbers are exact. -/
theorem overCount_eq_quotient {m : Int} {n : Nat} (hm : m.natAbs ≤ 2 ^ significantBits)
    (hpos : 0 < n) (hle : n ≤ 2 ^ significantBits) :
    (ofInt m).overCount n = quotient m n := by
  have hone := Number.unitsPerOne_pos
  have hsign : decide ((n : Int) < 0) = false := decide_eq_false (by omega)
  obtain ⟨hr, hdividend⟩ := exists_ofInt_eq hm
  obtain ⟨hr', hdivisor⟩ := exists_ofInt_eq (m := n) (by rwa [Int.natAbs_natCast])
  have hratio : (ofInt m).div (ofInt n) = ofRatio (decide (m < 0)) m.natAbs n := by
    rw [hdividend, hdivisor, hsign]
    simp only [div, Int.natAbs_natCast, Bool.bne_false]
    rw [if_neg (Nat.ne_of_gt (Nat.mul_pos hpos hone)), ofUnitQuotient_mul_right _ _ _ hone]
    rfl
  have hround : (roundRatio (m * unitsPerOne) n).natAbs < unitsLimit := by
    refine Nat.lt_of_le_of_lt (natAbs_roundRatio_le hpos hr.2 ?_) hr.1
    rw [Int.natAbs_mul, Int.natAbs_natCast]
    exact Nat.le_mul_of_pos_right _ hpos
  rw [quotient_eq_ok hpos hround, ← hratio, overCount,
    fitInt_eq_of_le (by rwa [Int.natAbs_natCast])]
  exact if_neg (by omega)

theorem exists_square (hx : x.units? = some u)
    (h : (roundRatio (u * u) unitsPerOne).natAbs < unitsLimit) :
    ∃ y, x.square = .ok y ∧ y.units? = some (roundRatio (u * u) unitsPerOne) := by
  have hunits := units?_mul hx hx h
  refine ⟨_, ?_, hunits⟩
  unfold square
  dsimp only
  rw [isFinite_of_units? hunits, Bool.not_true, Bool.and_false]
  exact if_neg Bool.false_ne_true

theorem isBelowZero_of_units? {n : Nat} (hx : x.units? = some (n : Int)) :
    x.isBelowZero = false := by
  cases x with
  | nan => rfl
  | infinite s => cases hx
  | finite s w hw =>
      have hw' := Option.some.inj hx
      cases s with
      | false => rfl
      | true =>
          obtain rfl : w = 0 := by
            simp only [if_true] at hw'
            omega
          rfl

theorem root_eq_ok (h : x.isBelowZero = false) : x.root = .ok x.sqrt := by
  unfold root
  rw [h]
  rfl

end Binary64

/-! ## Numbers of either kind -/

namespace Number

open Binary64

variable {a : Number} {u : Int}

theorem units?_toBinary64 {x : Binary64} (ha : a.position? = some (.units u))
    (hx : a.toBinary64 = .ok x) : x.units? = some (roundRatio u 1) := by
  cases a with
  | int n =>
      obtain rfl := Position.units.inj (Option.some.inj ha)
      exact units?_of_fitInt hx
  | float y =>
      obtain rfl := Except.ok.inj hx
      have hy := units?_of_position? ha
      rwa [roundRatio_of_units? hy]

theorem exists_toBinary64 (ha : a.position? = some (.units u))
    (h : (roundRatio u 1).natAbs < unitsLimit) :
    ∃ x, a.toBinary64 = .ok x ∧ x.units? = some (roundRatio u 1) := by
  cases a with
  | int n =>
      obtain rfl := Position.units.inj (Option.some.inj ha)
      exact fitInt_of_units h
  | float y => exact ⟨y, rfl, units?_toBinary64 ha rfl⟩

/-- A product with a count is rounded once: the count converts exactly. -/
theorem exists_times (ha : a.position? = some (.units u)) {c : Nat}
    (hc : c ≤ 2 ^ significantBits) (h : (roundRatio (u * c) 1).natAbs < unitsLimit) :
    ∃ x, a.times c = .ok x ∧ x.units? = some (roundRatio (u * c) 1) := by
  cases a with
  | int n =>
      obtain rfl := Position.units.inj (Option.some.inj ha)
      rw [Int.mul_right_comm] at h ⊢
      exact fitInt_of_units h
  | float y =>
      have hy := units?_of_position? ha
      obtain ⟨z, hfit, hz⟩ := fitInt_of_le (n := c) (by rwa [Int.natAbs_natCast])
      have hscale : roundRatio (u * (c * unitsPerOne)) unitsPerOne = roundRatio (u * c) 1 := by
        have hone := roundRatio_mul_right (u * c) 1 unitsPerOne_pos
        rwa [Nat.one_mul, Int.mul_assoc] at hone
      refine ⟨y.mul z, ?_, ?_⟩
      · unfold times
        rw [hfit]
        rfl
      · rw [← hscale] at h ⊢
        exact units?_mul hy hz h

theorem le_toBinary64 {b : Number} {x y : Binary64} (h : a.le b = true)
    (hx : a.toBinary64 = .ok x) (hy : b.toBinary64 = .ok y) :
    (float x).le (float y) = true := by
  obtain ⟨p, q, hp, hq, hpq⟩ := le_iff.mp h
  have hends : ∀ {c : Number} {z : Binary64} {r : Position}, c.toBinary64 = .ok z →
      c.position? = some r → (∀ n, r ≠ .units n) → z.position? = some r := by
    intro c z r hz hr hne
    cases c with
    | int n => exact absurd (Option.some.inj hr).symm (hne _)
    | float w =>
        obtain rfl := Except.ok.inj hz
        exact hr
  match p, q with
  | .units m, .units n =>
      have hmn : m ≤ n := of_decide_eq_true hpq
      refine le_iff.mpr ⟨_, _, position?_of_units? (units?_toBinary64 hp hx),
        position?_of_units? (units?_toBinary64 hq hy), ?_⟩
      exact decide_eq_true (roundRatio_mono Nat.one_pos hmn)
  | .below, .units n =>
      exact le_iff.mpr ⟨_, _, hends hx hp nofun, position?_of_units? (units?_toBinary64 hq hy), rfl⟩
  | .units m, .above =>
      exact le_iff.mpr ⟨_, _, position?_of_units? (units?_toBinary64 hp hx), hends hy hq nofun, rfl⟩
  | .below, .below => exact le_iff.mpr ⟨_, _, hends hx hp nofun, hends hy hq nofun, rfl⟩
  | .below, .above => exact le_iff.mpr ⟨_, _, hends hx hp nofun, hends hy hq nofun, rfl⟩
  | .above, .above => exact le_iff.mpr ⟨_, _, hends hx hp nofun, hends hy hq nofun, rfl⟩
  | .units m, .below => cases hpq
  | .above, .below => cases hpq
  | .above, .units n => cases hpq

end Number
end LoadReport
